/-
Opngms/ConfigModel.lean

The navigable model of a configuration (`app/services/config_model.py`) and its
cross-reference with a catalog (`app/services/config_map.py`).

`build_tree` turns a document into a tree of nodes under the path scheme of
`config_diff`; a node whose tag is sensitive, and everything below it, carries
no values.  `annotate_with_catalog` marks each node whose path lies under the
mount of a catalog model.

`str.lower` follows the Unicode tables: it is the field of `Lowercase`, with
the two facts about it that paths depend on.
-/
import Mathlib.Data.List.Infix
import Opngms.Catalog
import Opngms.ConfigDiff

namespace Opngms

/-- `str.lower`. -/
structure Lowercase where
  lower : String → String
  /-- A slash is not a letter, and ends the context of the letter before it. -/
  slash : ∀ a b, lower (a ++ "/" ++ b) = lower a ++ "/" ++ lower b
  /-- No letter becomes a slash. -/
  noSlash : ∀ s, '/' ∉ s.toList → '/' ∉ (lower s).toList

/-- `str.lower` on ASCII text. -/
def asciiLower : Lowercase where
  lower s := String.ofList (s.toList.map Char.toLower)
  slash a b := by
    apply String.toList_injective
    simp [String.toList_append]
  noSlash s hs := by
    rw [String.toList_ofList, List.mem_map]
    rintro ⟨c, hc, heq⟩
    unfold Char.toLower at heq
    split at heq
    · -- a capital moves up by 32, past the slash
      rename_i hcap
      have hlow : 65 ≤ c.val.toNat := hcap.1
      have hsum : (c.val + 32).toNat = 47 := congrArg UInt32.toNat (congrArg Char.val heq)
      rw [UInt32.toNat_add] at hsum
      have hhigh : c.val.toNat ≤ 90 := hcap.2
      have h32 : (32 : UInt32).toNat = 32 := rfl
      omega
    · exact hs (heq ▸ hc)

namespace ConfigModel

/-- `_SENSITIVE_SUBSTRINGS`. -/
def sensitiveSubstrings : List String :=
  ["password", "passwd", "secret", "psk", "pre-shared-key", "preshared",
    "passphrase", "privatekey", "private_key", "apikey", "api_key",
    "sharedkey", "shared_key", "token", "prv",
    "privkey", "hash", "seed"]

/-- `is_sensitive`. -/
def isSensitive (L : Lowercase) (tag : String) : Bool :=
  sensitiveSubstrings.any fun sub => decide (sub.toList <:+: (L.lower tag).toList)

/-- A node of the tree. -/
inductive Node where
  | mk (tag path : String) (attributes : List (String × Option String)) (children : List Node)
      (value : Option String) (sensitive : Bool)

mutual

/-- `_node`. -/
def node (L : Lowercase) : Elem → (path : String) → (redacted : Bool) → Node
  | .mk t a x cs, path, redacted =>
    let redacted := redacted || isSensitive L t
    .mk t path (a.map fun kv => (kv.1, if redacted || isSensitive L kv.1 then none else some kv.2))
      (if cs.isEmpty then [] else nodeChildren L cs cs [] path redacted)
      (if cs.isEmpty then (if redacted then none else some (strip x)) else none)
      redacted

/-- The loop of `_node` over the children `todo` of `all`; `seen` are the tags
met so far. -/
def nodeChildren (L : Lowercase) : (todo all : List Elem) → (seen : List String) → String → Bool →
    List Node
  | [], _, _, _, _ => []
  | c :: todo, all, seen, path, redacted =>
    let n := (seen.filter (· == c.tag)).length + 1
    let seg :=
      if ConfigDiff.tagTotal all c.tag = 1 then c.tag else c.tag ++ "[" ++ toString n ++ "]"
    node L c (path ++ "/" ++ seg) redacted :: nodeChildren L todo all (c.tag :: seen) path redacted

end

/-- `build_tree` of a parsed document. -/
def buildTree (L : Lowercase) (root : Elem) : Node :=
  node L (ConfigDiff.stripVolatile root) root.tag false

end ConfigModel

/-! ### The map -/

namespace ConfigMap

open ConfigModel

/-- The text before a trailing `[n]`: `_INDEX.sub("", seg)`. -/
def stripIndex (seg : String) : String :=
  match seg.toList.reverse with
  | ']' :: rest =>
    match rest.dropWhile Char.isDigit with
    | '[' :: front => if (rest.takeWhile Char.isDigit).isEmpty then seg else String.ofList front.reverse
    | _ => seg
  | _ => seg

/-- `_norm`. -/
def norm (L : Lowercase) (path : String) : String :=
  "/".intercalate ((splitPath (L.lower path)).map stripIndex)

/-- `_model_mounts`: the sort by length is stable. -/
def modelMounts (L : Lowercase) (catalog : Catalog) : List (String × String) :=
  ((catalog.filter fun kv => kv.2.xmlPath ≠ "").map fun kv => (norm L kv.2.xmlPath, kv.1)).insertionSort
    fun a b => b.1.length ≤ a.1.length

/-- `norm_path == mount or norm_path.startswith(mount + "/")`. -/
def covers (mount normPath : String) : Bool :=
  decide (normPath = mount) || decide ((mount ++ "/").toList <+: normPath.toList)

/-- `_covering_model`. -/
def coveringModel (normPath : String) (mounts : List (String × String)) : Option String :=
  (mounts.find? fun m => covers m.1 normPath).map (·.2)

/-- A node of the tree with `editable` and `catalog_model_id`: editable is what
has a model. -/
inductive Annotated where
  | mk (tag path : String) (attributes : List (String × Option String)) (children : List Annotated)
      (value : Option String) (sensitive : Bool) (editable : Bool) (catalogModelId : Option String)

mutual

/-- `walk` of `annotate_with_catalog`. -/
def walk (L : Lowercase) (mounts : List (String × String)) : Node → Annotated
  | .mk tag path attributes children value sensitive =>
    let mid := coveringModel (norm L path) mounts
    .mk tag path attributes (walkAll L mounts children) value sensitive mid.isSome mid

/-- `[walk(c) for c in children]`. -/
def walkAll (L : Lowercase) (mounts : List (String × String)) : List Node → List Annotated
  | [] => []
  | c :: cs => walk L mounts c :: walkAll L mounts cs

end

/-- `annotate_with_catalog`. -/
def annotateWithCatalog (L : Lowercase) (tree : Node) (catalog : Catalog) : Annotated :=
  walk L (modelMounts L catalog) tree

end ConfigMap

end Opngms
