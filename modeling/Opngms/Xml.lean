/-
Opngms/Xml.lean

Element trees and the searches of `ElementTree`.

An element has a tag, attributes, the text before its first child and its
children.  An absent text and an empty one are the same here, as they are to
code that reads `el.text or ""`.  Paths are lists of tags: `find "a/b"` is
`find ["a", "b"]`.  A search follows the path through every branch and
answers in document order, so `find` may pass over an `a` that has no `b`.
-/
import Mathlib.Data.List.Basic

/-- An element of a parsed document. -/
inductive Elem where
  | mk (tag : String) (attrib : List (String × String)) (text : String) (children : List Elem)

namespace Elem

def tag : Elem → String
  | mk t _ _ _ => t

def attrib : Elem → List (String × String)
  | mk _ a _ _ => a

def text : Elem → String
  | mk _ _ t _ => t

def children : Elem → List Elem
  | mk _ _ _ cs => cs

/-- `el.get(name)`. -/
def get (el : Elem) (name : String) : Option String :=
  (el.attrib.find? fun kv => kv.1 == name).map (·.2)

/-- The children of `el` with the given tag. -/
def childrenTagged (el : Elem) (t : String) : List Elem := el.children.filter (·.tag == t)

/-- `el.findall(path)`: every element reached along the tags of `path`. -/
def findall (el : Elem) : List String → List Elem
  | [] => [el]
  | t :: path => (el.childrenTagged t).flatMap fun c => c.findall path

/-- `el.find(path)`. -/
def find (el : Elem) (path : List String) : Option Elem := (el.findall path).head?

/-- `el.findtext(tag) or ""`. -/
def findtext (el : Elem) (t : String) : String :=
  match el.find [t] with
  | some c => c.text
  | none => ""

mutual

/-- `el.iter()`: the element and everything below it, in document order. -/
def iter : Elem → List Elem
  | mk t a x cs => mk t a x cs :: iterAll cs

/-- `iter` over a list of siblings. -/
def iterAll : List Elem → List Elem
  | [] => []
  | c :: cs => iter c ++ iterAll cs

end

/-! ### Induction over trees -/

mutual

/-- Induction over a tree: what holds of an element as soon as it holds of its
children holds of every element. -/
theorem induction {P : Elem → Prop} (h : ∀ t a x cs, (∀ c ∈ cs, P c) → P (mk t a x cs)) :
    ∀ el, P el
  | mk t a x cs => h t a x cs (inductionAll h cs)

theorem inductionAll {P : Elem → Prop} (h : ∀ t a x cs, (∀ c ∈ cs, P c) → P (mk t a x cs)) :
    ∀ cs : List Elem, ∀ c ∈ cs, P c
  | [] => nofun
  | c :: cs => List.forall_mem_cons.mpr ⟨induction h c, inductionAll h cs⟩

end

theorem mem_iterAll {cs : List Elem} {el : Elem} : el ∈ iterAll cs ↔ ∃ c ∈ cs, el ∈ c.iter := by
  induction cs with
  | nil => simp [iterAll]
  | cons c cs ih => simp [iterAll, ih]

/-- `el.iterfind(".//" + path)`: the path may start at any descendant. -/
def iterfind (el : Elem) : List String → List Elem
  | [] => []
  | t :: path => ((iterAll el.children).filter (·.tag == t)).flatMap fun c => c.findall path

/-- `{child.tag: child.text or "" for child in el}`: of children with the same
tag the last one gives the value, at the place of the first. -/
def record (el : Elem) : List (String × String) :=
  el.children.foldl (fun d c => put d c.tag c.text) []
where
  /-- `d[k] = v`. -/
  put : List (String × String) → String → String → List (String × String)
    | [], k, v => [(k, v)]
    | (k', v') :: d, k, v => if k' = k then (k, v) :: d else (k', v') :: put d k v

end Elem
