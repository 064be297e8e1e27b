/-
Opngms/EventLog.lean

Runs in which a refused event changes nothing.

`Since a b` is the operator of temporal logic, for what one event gives (`a`) and another
takes (`b`).  Main result: **`foldl_settle_iff`**.
-/
import Mathlib.Tactic.Tauto

namespace Opngms

namespace EventLog

variable {S E : Type} (f : S → E → Option S)

def settle (s : S) (e : E) : S := (f s e).getD s

def accepted : S → List E → List E
  | _, [] => []
  | s, e :: es =>
    match f s e with
    | some s' => e :: accepted s' es
    | none => accepted s es

/-- An event of the log meets `a`, and no later one meets `b`. -/
def Since (a b : E → Prop) : List E → Prop
  | [] => False
  | e :: log => Since a b log ∨ a e ∧ ∀ e' ∈ log, ¬ b e'

theorem Since.exists {a b : E → Prop} {log : List E} (h : Since a b log) : ∃ e, a e := by
  induction log with
  | nil => exact h.elim
  | cons e log ih => exact h.elim ih fun he => ⟨e, he.1⟩

variable {f}

/-- **What one event gives and another takes holds since it was given.** -/
theorem foldl_settle_iff {P : S → Prop} {a b : E → Prop}
    (h : ∀ s e s', f s e = some s' → (P s' ↔ a e ∨ P s ∧ ¬ b e)) (s : S) (es : List E) :
    P (es.foldl (settle f) s) ↔
      Since a b (accepted f s es) ∨ P s ∧ ∀ e ∈ accepted f s es, ¬ b e := by
  induction es generalizing s with
  | nil => simp [accepted, Since]
  | cons e es ih =>
    rw [List.foldl_cons, ih]
    cases hs : f s e with
    | none => simp [settle, accepted, hs]
    | some s' =>
      simp only [settle, accepted, hs, Option.getD_some, Since, List.forall_mem_cons, h s e s' hs]
      tauto

end EventLog

end Opngms
