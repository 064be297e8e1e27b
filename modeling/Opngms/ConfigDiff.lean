/-
Opngms/ConfigDiff.lean

The canonical hash and the structural diff of configurations
(`app/services/config_diff.py`).

`canonical_hash` parses the document, drops the volatile `<revision>` node,
maps every leaf and attribute to its value under an indexed path, and hashes
the sorted lines `path=value`.  The XML parser and SHA-256 are not part of the
repository: they are the fields of `Hashing`.  A document the parser refuses
has no hash; every caller treats that as a failed read.  `structural_diff`
lists the paths whose values differ, without the values.
-/
import Mathlib.Data.List.Dedup
import Mathlib.Data.List.Sort
import Opngms.PyText
import Opngms.Xml

namespace Opngms

/-- The parser and the digest that `canonical_hash` is built on. -/
structure Hashing where
  /-- `defusedxml.ElementTree.fromstring`; `none` where it raises. -/
  parseXml : String → Option Elem
  /-- `hashlib.sha256(s.encode("utf-8")).hexdigest()`. -/
  sha256 : String → String

/-- The segments of a path: `path.split("/")`. -/
def splitPath (path : String) : List String := (path.toList.splitOn '/').map String.ofList

namespace ConfigDiff

/-- `_VOLATILE_TAGS`. -/
def volatileTags : List String := ["revision"]

/-- `_strip_volatile`. -/
def stripVolatile : Elem → Elem
  | .mk t a x cs => .mk t a x (cs.filter fun c => !volatileTags.contains c.tag)

/-- How many of the elements have the tag `t`. -/
def tagTotal (cs : List Elem) (t : String) : Nat := (cs.filter (·.tag == t)).length

mutual

/-- `walk` of `_flatten`: the entries of `elem` under `path`, in the order in
which they are written. -/
def walk : Elem → String → List (String × String)
  | .mk _ a x cs, path =>
    a.map (fun kv => (path ++ "/@" ++ kv.1, kv.2)) ++
      (if cs.isEmpty then [(path, strip x)] else walkChildren cs cs [] path)

/-- The loop of `walk` over the children `todo` of `all`; `seen` are the tags
met so far. -/
def walkChildren : (todo all : List Elem) → (seen : List String) → String →
    List (String × String)
  | [], _, _, _ => []
  | c :: todo, all, seen, path =>
    let n := (seen.filter (· == c.tag)).length + 1
    let seg := if tagTotal all c.tag = 1 then c.tag else c.tag ++ "[" ++ toString n ++ "]"
    walk c (path ++ "/" ++ seg) ++ walkChildren todo all (c.tag :: seen) path

end

/-- `_flatten` of a parsed document. -/
def flatten (root : Elem) : List (String × String) := walk (stripVolatile root) root.tag

/-- The text that is hashed: one line `path=value` for each path, sorted. -/
def blob (root : Elem) : String :=
  let lines := (flatten root).insertionSort fun a b => a.1 ≤ b.1
  "\n".intercalate (lines.map fun pv => pv.1 ++ "=" ++ pv.2)

/-- `flat[path]`: of several entries under one path the last one counts. -/
def valueAt (root : Elem) (path : String) : Option String := (flatten root).reverse.lookup path

/-- What `structural_diff` reports of a path. -/
inductive DiffKind where
  | added
  | removed
  | modified
  deriving DecidableEq

/-- `structural_diff` of two parsed documents. -/
def structuralDiff (a b : Elem) : List (String × DiffKind) :=
  (((flatten a ++ flatten b).map (·.1)).dedup.insertionSort (· ≤ ·)).filterMap fun path =>
    match valueAt a path, valueAt b path with
    | _, none => some (path, .removed)
    | none, some _ => some (path, .added)
    | some x, some y => if x ≠ y then some (path, .modified) else none

end ConfigDiff

/-- `canonical_hash`; `none` where the parser raises. -/
def Hashing.canonicalHash (H : Hashing) (xml : String) : Option String :=
  (H.parseXml xml).map fun root => H.sha256 (ConfigDiff.blob root)

end Opngms
