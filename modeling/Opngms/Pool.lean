/-
Opngms/Pool.lean

Programs interleaved over one shared world.

A `Pool` is a world and a numbered family of running programs.  One step of
thread `i` answers its next question from the world (`Server.serve`), which
may also make it wait, or, where the program has ended, closes its session
(`Server.close`).  Nothing is assumed about the order: a run is any list of
events, and a theorem about every run quantifies over all such lists.

`runAll` folds a partial step function over a list of events.  `Along G s es`
says that every step of the run of `es` from `s` meets the condition `G`;
`runAll_invariant` is induction over the run under such a condition.

`Pool.advance_follows` carries a discipline through the interleaving: if a
thread's phase is a function of the world that only its own steps change, and
change as the discipline says, then every thread keeps following it.
-/
import Mathlib.Logic.Function.Basic
import Opngms.Dialogue

/-! ### Runs of a partial step function -/

/-- Fold a partial step over a list of events; `none` where one is not
enabled. -/
def runAll {S E : Type} (step : S → E → Option S) : S → List E → Option S
  | s, [] => some s
  | s, e :: es => (step s e).bind fun s' => runAll step s' es

/-- Every step of the run of `es` from `s` meets the condition `G`. -/
def Along {S E : Type} (step : S → E → Option S) (G : S → E → Prop) : S → List E → Prop
  | _, [] => True
  | s, e :: es => G s e ∧ ∀ s', step s e = some s' → Along step G s' es

section Runs

variable {S E : Type} {step : S → E → Option S} {G : S → E → Prop} {s s' : S} {es : List E}

@[simp] theorem runAll_nil : runAll step s [] = some s := rfl

theorem runAll_cons {e : E} (h : runAll step s (e :: es) = some s') :
    ∃ s₁, step s e = some s₁ ∧ runAll step s₁ es = some s' :=
  Option.bind_eq_some_iff.mp h

theorem runAll_append {es₂ : List E} (h : runAll step s es = some s') :
    runAll step s (es ++ es₂) = runAll step s' es₂ := by
  induction es generalizing s with
  | nil =>
    obtain rfl := Option.some.inj h
    rfl
  | cons e es ih =>
    obtain ⟨s₁, he, hrest⟩ := runAll_cons h
    rw [← ih hrest, List.cons_append, runAll, he]
    rfl

/-- Induction over a run: an invariant kept by every step that meets `G` holds
after every run all of whose steps do. -/
theorem runAll_invariant {P : S → Prop}
    (hstep : ∀ s e s', P s → G s e → step s e = some s' → P s')
    (h0 : P s) (hG : Along step G s es) (hrun : runAll step s es = some s') : P s' := by
  induction es generalizing s with
  | nil =>
    obtain rfl := Option.some.inj hrun
    exact h0
  | cons e es ih =>
    obtain ⟨s₁, he, hrest⟩ := runAll_cons hrun
    exact ih (hstep s e s₁ h0 hG.1 he) (hG.2 s₁ he) hrest

/-- What an invariant gives in every state holds at every step of a run all of
whose steps meet `G`. -/
theorem along_of_invariant {P : S → Prop} {H : S → E → Prop}
    (hstep : ∀ s e s', P s → G s e → step s e = some s' → P s')
    (hP : ∀ s e, P s → G s e → H s e) (h0 : P s) (hG : Along step G s es) : Along step H s es := by
  induction es generalizing s with
  | nil => trivial
  | cons e es ih =>
    refine ⟨hP s e h0 hG.1, fun s₁ he => ?_⟩
    exact ih (hstep s e s₁ h0 hG.1 he) (hG.2 s₁ he)

/-- What only the steps of one kind bring about: it holds after a run if it held before or
if the run has such a step.  The invariant is for the step lemma. -/
theorem runAll_gathers {I P : S → Prop} {H : S → E → Prop}
    (hstep : ∀ s e s', I s → step s e = some s' → I s' ∧ (P s' ↔ P s ∨ H s e))
    (h0 : I s) (hrun : runAll step s es = some s') :
    P s' ↔ P s ∨ ∃ es₁ e es₂ s₁,
      es = es₁ ++ e :: es₂ ∧ runAll step s es₁ = some s₁ ∧ H s₁ e := by
  induction es generalizing s with
  | nil =>
    obtain rfl := Option.some.inj hrun
    simp
  | cons e es ih =>
    obtain ⟨s₁, he, hrest⟩ := runAll_cons hrun
    obtain ⟨h1, hP⟩ := hstep s e s₁ h0 he
    rw [ih h1 hrest, hP]
    constructor
    · rintro ((h | h) | ⟨es₁, e', es₂, s₂, rfl, hrun₁, h⟩)
      · exact .inl h
      · exact .inr ⟨[], e, es, s, rfl, rfl, h⟩
      · refine .inr ⟨e :: es₁, e', es₂, s₂, rfl, ?_, h⟩
        simp [runAll, he, hrun₁]
    · rintro (h | ⟨es₁, e', es₂, s₂, hes, hrun₁, h⟩)
      · exact .inl (.inl h)
      · cases es₁ with
        | nil =>
          obtain ⟨rfl, rfl⟩ := List.cons.inj hes
          obtain rfl := Option.some.inj hrun₁
          exact .inl (.inr h)
        | cons e₁ es₁ =>
          obtain ⟨rfl, rfl⟩ := List.cons.inj hes
          obtain ⟨s₁', he', hrun₁⟩ := runAll_cons hrun₁
          obtain rfl := Option.some.inj (he'.symm.trans he)
          exact .inr ⟨es₁, e', es₂, s₂, rfl, hrun₁, h⟩

theorem along_of_forall (h : ∀ s e, G s e) : Along step G s es := by
  induction es generalizing s with
  | nil => trivial
  | cons e es ih => exact ⟨h s e, fun _ _ => ih⟩

theorem along_congr {H : S → E → Prop} (h : ∀ s e, G s e ↔ H s e) :
    Along step G s es ↔ Along step H s es := by
  have hGH : G = H := by
    funext s e
    exact propext (h s e)
  rw [hGH]

theorem runAll_loses {P : S → Prop} (h0 : P s) (hrun : runAll step s es = some s')
    (hend : ¬ P s') : ∃ es₁ e es₂ s₁ s₂, es = es₁ ++ e :: es₂ ∧ runAll step s es₁ = some s₁ ∧
      step s₁ e = some s₂ ∧ P s₁ ∧ ¬ P s₂ := by
  induction es generalizing s with
  | nil =>
    obtain rfl := Option.some.inj hrun
    exact absurd h0 hend
  | cons e es ih =>
    obtain ⟨s₁, he, hrest⟩ := runAll_cons hrun
    by_cases h1 : P s₁
    · obtain ⟨es₁, e', es₂, t, t', rfl, hrun₁, hstep, hP, hnot⟩ := ih h1 hrest
      refine ⟨e :: es₁, e', es₂, t, t', rfl, ?_, hstep, hP, hnot⟩
      simp [runAll, he, hrun₁]
    · exact ⟨[], e, es, s, s₁, rfl, rfl, he, h0, h1⟩

/-- Along a concrete run a decidable condition can be evaluated. -/
instance Along.instDecidable [∀ s e, Decidable (G s e)] :
    (s : S) → (es : List E) → Decidable (Along step G s es)
  | _, [] => isTrue trivial
  | s, e :: es =>
    match hs : step s e with
    | none =>
      decidable_of_iff (G s e) ⟨fun h => ⟨h, fun _ he => nomatch hs.symm.trans he⟩, And.left⟩
    | some s₁ =>
      have := Along.instDecidable s₁ es
      decidable_of_iff (G s e ∧ Along step G s₁ es)
        ⟨fun h => ⟨h.1, fun _ he => Option.some.inj (hs.symm.trans he) ▸ h.2⟩,
          fun h => ⟨h.1, h.2 s₁ hs⟩⟩

end Runs

/-! ### Pools -/

/-- A world that answers the questions of numbered sessions. -/
structure Server (Q : Type) (A : Q → Type) (W : Type) where
  /-- The answer to session `i`'s question and the world after it; `none`
  while the session has to wait. -/
  serve : Nat → W → (q : Q) → Option (A q × W)
  /-- The world after session `i` has ended. -/
  close : Nat → W → W

/-- A world with the programs that run on it. -/
structure Pool (Q : Type) (A : Q → Type) (ε W : Type) where
  world : W
  threads : Nat → Option (Dialogue Q A ε Unit)

namespace Pool

variable {Q : Type} {A : Q → Type} {ε W φ : Type}

/-- One step of thread `i`. -/
def advance (S : Server Q A W) (p : Pool Q A ε W) (i : Nat) : Option (Pool Q A ε W) :=
  match p.threads i with
  | none => none
  | some (.pure _) | some (.raise _) =>
    some { world := S.close i p.world, threads := Function.update p.threads i none }
  | some (.ask q k) =>
    (S.serve i p.world q).map fun aw =>
      { world := aw.2, threads := Function.update p.threads i (some (k aw.1)) }

theorem advance_cases {S : Server Q A W} {p p' : Pool Q A ε W} {i : Nat}
    (h : p.advance S i = some p') :
    (∃ t, p.threads i = some t ∧ (t = .pure () ∨ ∃ x, t = .raise x) ∧
      p' = { world := S.close i p.world, threads := Function.update p.threads i none }) ∨
    (∃ q k a w, p.threads i = some (.ask q k) ∧ S.serve i p.world q = some (a, w) ∧
      p' = { world := w, threads := Function.update p.threads i (some (k a)) }) := by
  unfold advance at h
  rcases ht : p.threads i with - | t
  · simp [ht] at h
  · cases t with
    | pure u => exact .inl ⟨_, rfl, .inl rfl, by simpa [ht] using h.symm⟩
    | raise x => exact .inl ⟨_, rfl, .inr ⟨x, rfl⟩, by simpa [ht] using h.symm⟩
    | ask q k =>
      simp only [ht, Option.map_eq_some_iff] at h
      obtain ⟨⟨a, w⟩, hs, rfl⟩ := h
      exact .inr ⟨q, k, a, w, rfl, hs, rfl⟩

/-- Every running thread follows the discipline from its phase. -/
def AllFollow (D : Dialogue.Discipline Q A φ) (Z : φ → Except ε Unit → Prop)
    (phase : W → Nat → φ) (p : Pool Q A ε W) : Prop :=
  ∀ i t, p.threads i = some t → t.Follows D Z (phase p.world i)

theorem advance_follows {D : Dialogue.Discipline Q A φ} {Z : φ → Except ε Unit → Prop}
    {phase : W → Nat → φ} {S : Server Q A W}
    (hserve : ∀ i w q a w', S.serve i w q = some (a, w') →
      phase w' i = D.next (phase w i) q a ∧ ∀ j, j ≠ i → phase w' j = phase w j)
    (hclose : ∀ i w j, j ≠ i → phase (S.close i w) j = phase w j)
    {p p' : Pool Q A ε W} {i : Nat} (h : p.advance S i = some p')
    (hanswer : ∀ q k a w', p.threads i = some (.ask q k) → S.serve i p.world q = some (a, w') →
      D.admits (phase p.world i) q a)
    (hall : AllFollow D Z phase p) : AllFollow D Z phase p' := by
  intro j t hj
  rcases advance_cases h with ⟨t₀, -, -, rfl⟩ | ⟨q, k, a, w, hi, hs, rfl⟩
  · -- the ended thread is gone, the others are where they were
    by_cases hji : j = i
    · subst hji
      simp at hj
    · have hj' : p.threads j = some t := by simpa [Function.update_of_ne hji] using hj
      show t.Follows D Z (phase (S.close i p.world) j)
      rw [hclose i p.world j hji]
      exact hall j t hj'
  · obtain ⟨hown, hother⟩ := hserve i p.world q a w hs
    by_cases hji : j = i
    · subst hji
      obtain rfl : k a = t := by simpa using hj
      show (k a).Follows D Z (phase w j)
      rw [hown]
      exact (hall j _ hi).2 a (hanswer q k a w hi hs)
    · have hj' : p.threads j = some t := by simpa [Function.update_of_ne hji] using hj
      show t.Follows D Z (phase w j)
      rw [hother j hji]
      exact hall j t hj'

end Pool
