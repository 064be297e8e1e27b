/-
Opngms/Overlay.lean

Readings of a state field by field, and writes that set some of them.

A write gives the fields it sets a value and leaves the others.  After a sequence of writes a
field reads what was written to it last, or what it read before (**`foldl_overlay`**).
-/
import Mathlib.Data.List.Basic

namespace Overlay

variable {F V : Type}

def overlay (w : F → Option V) (r : F → V) : F → V := fun f => (w f).getD (r f)

/-- What the last of the writes that set a field has set it to. -/
def lastWritten (ws : List (F → Option V)) (f : F) : Option V :=
  match ws with
  | [] => none
  | w :: ws => (lastWritten ws f).or (w f)

@[simp] theorem overlay_some {w : F → Option V} {f : F} {v : V} (r : F → V) (h : w f = some v) :
    overlay w r f = v := by
  rw [overlay, h]
  rfl

@[simp] theorem overlay_none {w : F → Option V} {f : F} (r : F → V) (h : w f = none) :
    overlay w r f = r f := by
  rw [overlay, h]
  rfl

/-- **After a sequence of writes a field reads what was written to it last.** -/
theorem foldl_overlay (ws : List (F → Option V)) (r : F → V) (f : F) :
    ws.foldl (fun r w => overlay w r) r f = (lastWritten ws f).getD (r f) := by
  induction ws generalizing r with
  | nil => rfl
  | cons w ws ih =>
    rw [List.foldl_cons, ih, lastWritten, overlay]
    cases lastWritten ws f <;> rfl

end Overlay
