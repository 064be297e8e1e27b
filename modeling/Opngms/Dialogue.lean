/-
Opngms/Dialogue.lean

Programs that talk to an environment.

A `Dialogue Q A ε α` asks questions `q : Q`, each answered by a value of
`A q`, and ends with a value of `α` or by raising an error of `ε`.  It is the
free monad over the questions, with errors, so one program text serves every
reading of it: followed along one sequence of answers (`Path`), run against a
state that answers the questions (`Runs`), interleaved with other programs
(module `Pool`), or checked against a discipline (`Follows`).

A discipline is a typestate: a phase `φ`, the questions a phase allows, the
answers it may get, and the phase after each answer.  `Follows D Z s p` says
that `p`, started in the phase `s`, asks only what `D` allows whatever the
admitted answers are, and ends in a phase and with an outcome satisfying `Z`.
`Follows.bind` and `Follows.handle` check a program piece by piece.
-/
import Mathlib.Logic.Function.Basic

/-- A program that asks questions `q : Q`, answered in `A q`, and ends with a
value or by raising an error. -/
inductive Dialogue (Q : Type) (A : Q → Type) (ε α : Type) where
  | pure (a : α)
  | raise (x : ε)
  | ask (q : Q) (k : A q → Dialogue Q A ε α)

namespace Dialogue

variable {Q Q' : Type} {A : Q → Type} {A' : Q' → Type} {ε α β γ φ σ : Type}

/-! ### Sequencing and handlers -/

/-- Sequential composition; an error ends the program. -/
def bind : Dialogue Q A ε α → (α → Dialogue Q A ε β) → Dialogue Q A ε β
  | pure a, f => f a
  | raise x, _ => raise x
  | ask q k, f => ask q fun a => (k a).bind f

def handle : Dialogue Q A ε α → (ε → Dialogue Q A ε α) → Dialogue Q A ε α
  | pure a, _ => pure a
  | raise x, h => h x
  | ask q k, h => ask q fun a => (k a).handle h

instance : Monad (Dialogue Q A ε) where
  pure := pure
  bind := bind

instance : MonadExcept ε (Dialogue Q A ε) where
  throw := raise
  tryCatch := handle

/-- A computation without questions, as a program. -/
def ofExcept : Except ε α → Dialogue Q A ε α
  | .ok a => pure a
  | .error x => raise x

/-- The question `q` by itself. -/
def question (q : Q) : Dialogue Q A ε (A q) := ask q pure

/-- Ask each question in another vocabulary. -/
def translate (f : Q → Q') (back : (q : Q) → A' (f q) → A q) :
    Dialogue Q A ε α → Dialogue Q' A' ε α
  | pure a => pure a
  | raise x => raise x
  | ask q k => ask (f q) fun a => (k (back q a)).translate f back

@[simp] theorem pure_eq (a : α) : (Pure.pure a : Dialogue Q A ε α) = pure a := rfl

@[simp] theorem bind_eq (p : Dialogue Q A ε α) (f : α → Dialogue Q A ε β) :
    p >>= f = p.bind f := rfl

@[simp] theorem throw_eq (x : ε) : (throw x : Dialogue Q A ε α) = raise x := rfl

@[simp] theorem tryCatch_eq (p : Dialogue Q A ε α) (h : ε → Dialogue Q A ε α) :
    tryCatch p h = p.handle h := rfl

@[simp] theorem pure_bind (a : α) (f : α → Dialogue Q A ε β) :
    (pure a : Dialogue Q A ε α).bind f = f a := rfl

@[simp] theorem raise_bind (x : ε) (f : α → Dialogue Q A ε β) :
    (raise x : Dialogue Q A ε α).bind f = raise x := rfl

@[simp] theorem ask_bind (q : Q) (k : A q → Dialogue Q A ε α) (f : α → Dialogue Q A ε β) :
    (ask q k).bind f = ask q fun a => (k a).bind f := rfl

@[simp] theorem question_bind (q : Q) (f : A q → Dialogue Q A ε β) :
    (question q).bind f = ask q f := rfl

@[simp] theorem ofExcept_ok (a : α) : (ofExcept (.ok a) : Dialogue Q A ε α) = pure a := rfl

@[simp] theorem ofExcept_error (x : ε) :
    (ofExcept (.error x) : Dialogue Q A ε α) = raise x := rfl

theorem bind_assoc (p : Dialogue Q A ε α) (f : α → Dialogue Q A ε β)
    (g : β → Dialogue Q A ε γ) :
    (p.bind f).bind g = p.bind fun a => (f a).bind g := by
  induction p with
  | pure a => rfl
  | raise x => rfl
  | ask q k ih => exact congrArg (ask q) (funext ih)

/-! ### Paths -/

abbrev Exchange (Q : Type) (A : Q → Type) := (q : Q) × A q

/-- `Path p t z`: answered as the list `t` records, `p` asks exactly the
questions of `t` and ends with the outcome `z`. -/
inductive Path : Dialogue Q A ε α → List (Exchange Q A) → Except ε α → Prop
  | pure (a : α) : Path (pure a) [] (.ok a)
  | raise (x : ε) : Path (raise x) [] (.error x)
  | ask {q : Q} {k : A q → Dialogue Q A ε α} (a : A q) {t : List (Exchange Q A)}
      {z : Except ε α} : Path (k a) t z → Path (ask q k) (⟨q, a⟩ :: t) z

theorem Path.of_bind {p : Dialogue Q A ε α} {f : α → Dialogue Q A ε β}
    {t : List (Exchange Q A)} {z : Except ε β} (h : Path (p.bind f) t z) :
    (∃ x, Path p t (.error x) ∧ z = .error x) ∨
      ∃ a t₁ t₂, Path p t₁ (.ok a) ∧ Path (f a) t₂ z ∧ t = t₁ ++ t₂ := by
  induction p generalizing t with
  | pure a => exact .inr ⟨a, [], t, .pure a, h, rfl⟩
  | raise x =>
    cases h
    exact .inl ⟨x, .raise x, rfl⟩
  | ask q k ih =>
    obtain - | - | ⟨b, h⟩ := h
    rcases ih b h with ⟨x, hx, rfl⟩ | ⟨a, t₁, t₂, h₁, h₂, rfl⟩
    · exact .inl ⟨x, .ask b hx, rfl⟩
    · exact .inr ⟨a, _, t₂, .ask b h₁, h₂, rfl⟩

theorem Path.of_handle {p : Dialogue Q A ε α} {g : ε → Dialogue Q A ε α}
    {t : List (Exchange Q A)} {z : Except ε α} (h : Path (p.handle g) t z) :
    (∃ a, Path p t (.ok a) ∧ z = .ok a) ∨
      ∃ x t₁ t₂, Path p t₁ (.error x) ∧ Path (g x) t₂ z ∧ t = t₁ ++ t₂ := by
  induction p generalizing t with
  | pure a =>
    cases h
    exact .inl ⟨a, .pure a, rfl⟩
  | raise x => exact .inr ⟨x, [], t, .raise x, h, rfl⟩
  | ask q k ih =>
    obtain - | - | ⟨b, h⟩ := h
    rcases ih b h with ⟨a, ha, rfl⟩ | ⟨x, t₁, t₂, h₁, h₂, rfl⟩
    · exact .inl ⟨a, .ask b ha, rfl⟩
    · exact .inr ⟨x, _, t₂, .ask b h₁, h₂, rfl⟩

/-- `Runs step s p t z s'`: started in the state `s`, whose answers `step`
allows, `p` makes the exchanges `t`, ends with `z` and leaves the state `s'`. -/
inductive Runs (step : σ → Exchange Q A → σ → Prop) :
    σ → Dialogue Q A ε α → List (Exchange Q A) → Except ε α → σ → Prop
  | pure (s : σ) (a : α) : Runs step s (pure a) [] (.ok a) s
  | raise (s : σ) (x : ε) : Runs step s (raise x) [] (.error x) s
  | ask {s s₁ s₂ : σ} {q : Q} {k : A q → Dialogue Q A ε α} {a : A q} {t : List (Exchange Q A)}
      {z : Except ε α} :
      step s ⟨q, a⟩ s₁ → Runs step s₁ (k a) t z s₂ → Runs step s (ask q k) (⟨q, a⟩ :: t) z s₂

/-- Run against a state that answers, or makes the program wait. -/
def exec (serve : σ → (q : Q) → Option (A q × σ)) :
    Dialogue Q A ε α → σ → Option (List (Exchange Q A) × Except ε α × σ)
  | pure a, s => some ([], .ok a, s)
  | raise x, s => some ([], .error x, s)
  | ask q k, s => do
    let (a, s₁) ← serve s q
    let (t, z, s₂) ← (k a).exec serve s₁
    return (⟨q, a⟩ :: t, z, s₂)

theorem runs_of_exec {serve : σ → (q : Q) → Option (A q × σ)} {p : Dialogue Q A ε α} {s s' : σ}
    {t : List (Exchange Q A)} {z : Except ε α} (h : p.exec serve s = some (t, z, s')) :
    Runs (fun s x s' => serve s x.1 = some (x.2, s')) s p t z s' := by
  induction p generalizing s t with
  | pure a =>
    cases h
    exact .pure _ a
  | raise x =>
    cases h
    exact .raise _ x
  | ask q k ih =>
    obtain ⟨⟨a, s₁⟩, hs, h⟩ := Option.bind_eq_some_iff.mp h
    obtain ⟨⟨t₁, z₁, s₂⟩, hr, h⟩ := Option.bind_eq_some_iff.mp h
    cases h
    exact .ask hs (ih a hr)

theorem Runs.mono {step step' : σ → Exchange Q A → σ → Prop}
    (hstep : ∀ s x s', step s x s' → step' s x s') {p : Dialogue Q A ε α} {s s' : σ}
    {t : List (Exchange Q A)} {z : Except ε α} (h : Runs step s p t z s') :
    Runs step' s p t z s' := by
  induction h with
  | pure s a => exact .pure s a
  | raise s x => exact .raise s x
  | ask hs _ ih => exact .ask (hstep _ _ _ hs) ih

theorem Runs.path {step : σ → Exchange Q A → σ → Prop} {p : Dialogue Q A ε α} {s s' : σ}
    {t : List (Exchange Q A)} {z : Except ε α} (h : Runs step s p t z s') : Path p t z := by
  induction h with
  | pure s a => exact .pure a
  | raise s x => exact .raise x
  | ask _ _ ih => exact .ask _ ih

/-- `exec` without the exchanges: the outcome and the state it leaves. -/
def play (serve : σ → (q : Q) → Option (A q × σ)) :
    Dialogue Q A ε α → σ → Option (Except ε α × σ)
  | pure a, s => some (.ok a, s)
  | raise x, s => some (.error x, s)
  | ask q k, s => (serve s q).bind fun as => (k as.1).play serve as.2

section Play

variable {serve : σ → (q : Q) → Option (A q × σ)} {p : Dialogue Q A ε α} {s s' : σ}

theorem play_ask {q : Q} {k : A q → Dialogue Q A ε α} {a : A q} (h : serve s q = some (a, s')) :
    (ask q k).play serve s = (k a).play serve s' := by
  rw [play, h]
  rfl

theorem play_bind_ok {f : α → Dialogue Q A ε β} {a : α} (h : p.play serve s = some (.ok a, s')) :
    (p.bind f).play serve s = (f a).play serve s' := by
  induction p generalizing s with
  | pure b =>
    cases h
    rfl
  | raise x => cases h
  | ask q k ih =>
    obtain ⟨⟨b, s₁⟩, hs, hk⟩ := Option.bind_eq_some_iff.mp h
    rw [ask_bind, play_ask hs]
    exact ih b hk

theorem play_bind_error {f : α → Dialogue Q A ε β} {x : ε}
    (h : p.play serve s = some (.error x, s')) :
    (p.bind f).play serve s = some (.error x, s') := by
  induction p generalizing s with
  | pure b => cases h
  | raise y =>
    cases h
    rfl
  | ask q k ih =>
    obtain ⟨⟨b, s₁⟩, hs, hk⟩ := Option.bind_eq_some_iff.mp h
    rw [ask_bind, play_ask hs]
    exact ih b hk

theorem of_play_bind {f : α → Dialogue Q A ε β} {b : β}
    (h : (p.bind f).play serve s = some (.ok b, s')) :
    ∃ a s₁, p.play serve s = some (.ok a, s₁) ∧ (f a).play serve s₁ = some (.ok b, s') := by
  induction p generalizing s with
  | pure a => exact ⟨a, s, rfl, h⟩
  | raise x => cases h
  | ask q k ih =>
    obtain ⟨⟨a, s₁⟩, hs, h⟩ := Option.bind_eq_some_iff.mp h
    obtain ⟨a', s₂, hfirst, hrest⟩ := ih a h
    exact ⟨a', s₂, (play_ask hs).trans hfirst, hrest⟩

theorem play_handle_ok {g : ε → Dialogue Q A ε α} {a : α}
    (h : p.play serve s = some (.ok a, s')) :
    (p.handle g).play serve s = some (.ok a, s') := by
  induction p generalizing s with
  | pure b => exact h
  | raise x => cases h
  | ask q k ih =>
    obtain ⟨⟨b, s₁⟩, hs, hk⟩ := Option.bind_eq_some_iff.mp h
    rw [handle, play_ask hs]
    exact ih b hk

theorem play_handle_error {g : ε → Dialogue Q A ε α} {x : ε}
    (h : p.play serve s = some (.error x, s')) :
    (p.handle g).play serve s = (g x).play serve s' := by
  induction p generalizing s with
  | pure b => cases h
  | raise y =>
    cases h
    rfl
  | ask q k ih =>
    obtain ⟨⟨b, s₁⟩, hs, hk⟩ := Option.bind_eq_some_iff.mp h
    rw [handle, play_ask hs]
    exact ih b hk

@[simp] theorem play_ofExcept (e : Except ε α) :
    (ofExcept e : Dialogue Q A ε α).play serve s = some (e, s) := by
  cases e <;> rfl

theorem of_play_ofExcept_bind {e : Except ε α} {f : α → Dialogue Q A ε β} {b : β}
    (h : ((ofExcept e).bind f).play serve s = some (.ok b, s')) :
    ∃ a, e = .ok a ∧ (f a).play serve s = some (.ok b, s') := by
  obtain ⟨a, s₁, he, h⟩ := of_play_bind h
  rw [play_ofExcept] at he
  obtain ⟨hvalue, rfl⟩ := Prod.mk.inj (Option.some.inj he)
  exact ⟨a, hvalue, h⟩

end Play

/-! ### Silent programs -/

def Silent (p : Dialogue Q A ε α) : Prop := ∃ e : Except ε α, p = ofExcept e

theorem silent_pure (a : α) : Silent (pure a : Dialogue Q A ε α) := ⟨.ok a, rfl⟩

theorem silent_raise (x : ε) : Silent (raise x : Dialogue Q A ε α) := ⟨.error x, rfl⟩

theorem silent_ofExcept (e : Except ε α) : Silent (ofExcept e : Dialogue Q A ε α) := ⟨e, rfl⟩

theorem Silent.play {serve : σ → (q : Q) → Option (A q × σ)} {p : Dialogue Q A ε α} (h : Silent p)
    {s s' : σ} {z : Except ε α} (hp : p.play serve s = some (z, s')) : s' = s := by
  obtain ⟨e, rfl⟩ := h
  rw [play_ofExcept] at hp
  exact (congrArg Prod.snd (Option.some.inj hp)).symm

theorem Silent.bind {p : Dialogue Q A ε α} {f : α → Dialogue Q A ε β} (h : Silent p)
    (hf : ∀ a, Silent (f a)) : Silent (p.bind f) := by
  obtain ⟨e, rfl⟩ := h
  cases e with
  | ok a => exact hf a
  | error x => exact silent_raise x

theorem Silent.translate {p : Dialogue Q A ε α} (h : Silent p) (f : Q → Q')
    (back : (q : Q) → A' (f q) → A q) : Silent (p.translate f back) := by
  obtain ⟨e, rfl⟩ := h
  cases e with
  | ok a => exact silent_pure a
  | error x => exact silent_raise x

/-! ### Disciplines -/

/-- A typestate over the questions: which a phase allows, which answers it may
get, and the phase after an answer. -/
structure Discipline (Q : Type) (A : Q → Type) (φ : Type) where
  allows : φ → Q → Prop
  admits : φ → (q : Q) → A q → Prop := fun _ _ _ => True
  next : φ → (q : Q) → A q → φ

/-- Started in the phase `s`, the program asks only what the discipline
allows, and ends in a phase and with an outcome satisfying `Z`. -/
def Follows (D : Discipline Q A φ) (Z : φ → Except ε α → Prop) :
    φ → Dialogue Q A ε α → Prop
  | s, pure a => Z s (.ok a)
  | s, raise x => Z s (.error x)
  | s, ask q k =>
    D.allows s q ∧ ∀ a, D.admits s q a → Follows D Z (D.next s q a) (k a)

variable {D : Discipline Q A φ} {Z : φ → Except ε α → Prop} {s : φ}

@[simp] theorem follows_pure (a : α) :
    Follows D Z s (pure a : Dialogue Q A ε α) ↔ Z s (.ok a) := Iff.rfl

@[simp] theorem follows_raise (x : ε) :
    Follows D Z s (raise x : Dialogue Q A ε α) ↔ Z s (.error x) := Iff.rfl

@[simp] theorem follows_ask (q : Q) (k : A q → Dialogue Q A ε α) :
    Follows D Z s (ask q k) ↔
      D.allows s q ∧ ∀ a, D.admits s q a → Follows D Z (D.next s q a) (k a) :=
  Iff.rfl

theorem Follows.mono {Z' : φ → Except ε α → Prop} (hZ : ∀ s z, Z s z → Z' s z)
    {p : Dialogue Q A ε α} (h : Follows D Z s p) : Follows D Z' s p := by
  induction p generalizing s with
  | pure a => exact hZ _ _ h
  | raise x => exact hZ _ _ h
  | ask q k ih => exact ⟨h.1, fun a ha => ih a (h.2 a ha)⟩

theorem Follows.and {Z' : φ → Except ε α → Prop} {p : Dialogue Q A ε α} (h : Follows D Z s p)
    (h' : Follows D Z' s p) : Follows D (fun s z => Z s z ∧ Z' s z) s p := by
  induction p generalizing s with
  | pure a => exact ⟨h, h'⟩
  | raise x => exact ⟨h, h'⟩
  | ask q k ih => exact ⟨h.1, fun a ha => ih a (h.2 a ha) (h'.2 a ha)⟩

theorem Follows.bind {Z' : φ → Except ε β → Prop} {p : Dialogue Q A ε α}
    {f : α → Dialogue Q A ε β} (h : Follows D Z s p)
    (hok : ∀ s a, Z s (.ok a) → Follows D Z' s (f a))
    (herr : ∀ s x, Z s (.error x) → Z' s (.error x)) : Follows D Z' s (p.bind f) := by
  induction p generalizing s with
  | pure a => exact hok _ _ h
  | raise x => exact herr _ _ h
  | ask q k ih => exact ⟨h.1, fun a ha => ih a (h.2 a ha)⟩

theorem Follows.bind_bind {Z' : φ → Except ε γ → Prop} {p : Dialogue Q A ε α}
    {f : α → Dialogue Q A ε β} {g : β → Dialogue Q A ε γ} (h : Follows D Z s p)
    (hok : ∀ s a, Z s (.ok a) → Follows D Z' s ((f a).bind g))
    (herr : ∀ s x, Z s (.error x) → Z' s (.error x)) : Follows D Z' s ((p.bind f).bind g) := by
  rw [bind_assoc]
  exact h.bind hok herr

/-- What is promised only of a program that ends with a value. -/
def OnOk (P : φ → α → Prop) (s : φ) : Except ε α → Prop
  | .ok a => P s a
  | .error _ => True

theorem Follows.and_then {P : φ → α → Prop} {P' : φ → β → Prop} {p : Dialogue Q A ε α}
    {f : α → Dialogue Q A ε β} (h : Follows D (OnOk P) s p)
    (hf : ∀ s a, P s a → Follows D (OnOk P') s (f a)) : Follows D (OnOk P') s (p.bind f) :=
  h.bind hf fun _ _ _ => trivial

theorem Follows.of_preserved {I : φ → Prop} (hallow : ∀ s q, I s → D.allows s q)
    (hnext : ∀ s q a, I s → D.admits s q a → I (D.next s q a)) (p : Dialogue Q A ε α)
    (hs : I s) : Follows D (fun s _ => I s) s p := by
  induction p generalizing s with
  | pure a => exact hs
  | raise x => exact hs
  | ask q k ih => exact ⟨hallow s q hs, fun a ha => ih a (hnext s q a hs ha)⟩

theorem Follows.translate {C : Discipline Q A σ} {D' : Discipline Q' A' φ} {R : σ → φ → Prop}
    {f : Q → Q'} {back : (q : Q) → A' (f q) → A q} {Z : σ → Except ε α → Prop}
    (hallow : ∀ s t q, R s t → C.allows s q → D'.allows t (f q))
    (hnext : ∀ s t q a, R s t → C.allows s q → D'.admits t (f q) a →
      C.admits s q (back q a) ∧ R (C.next s q (back q a)) (D'.next t (f q) a))
    {p : Dialogue Q A ε α} {s : σ} {t : φ} (h : Follows C Z s p) (hR : R s t) :
    Follows D' (fun t z => ∃ s, R s t ∧ Z s z) t (p.translate f back) := by
  induction p generalizing s t with
  | pure a => exact ⟨s, hR, h⟩
  | raise x => exact ⟨s, hR, h⟩
  | ask q k ih =>
    refine ⟨hallow s t q hR h.1, fun a ha => ?_⟩
    obtain ⟨hadmits, hR'⟩ := hnext s t q a hR h.1 ha
    exact ih _ (h.2 _ hadmits) hR'

theorem Follows.handle {Z' : φ → Except ε α → Prop} {p : Dialogue Q A ε α}
    {g : ε → Dialogue Q A ε α} (h : Follows D Z s p)
    (hok : ∀ s a, Z s (.ok a) → Z' s (.ok a))
    (herr : ∀ s x, Z s (.error x) → Follows D Z' s (g x)) :
    Follows D Z' s (p.handle g) := by
  induction p generalizing s with
  | pure a => exact hok _ _ h
  | raise x => exact herr _ _ h
  | ask q k ih => exact ⟨h.1, fun a ha => ih a (h.2 a ha)⟩

theorem Follows.weaken {D' : Discipline Q A φ} {I : φ → Prop}
    (hallow : ∀ s q, I s → D.allows s q → D'.allows s q)
    (hadm : ∀ s q a, I s → D'.admits s q a → D.admits s q a)
    (hnext : ∀ s q a, I s → D'.next s q a = D.next s q a ∧ I (D.next s q a))
    {p : Dialogue Q A ε α} (hs : I s) (h : Follows D Z s p) : Follows D' Z s p := by
  induction p generalizing s with
  | pure a => exact h
  | raise x => exact h
  | ask q k ih =>
    refine ⟨hallow s q hs h.1, fun a ha => ?_⟩
    obtain ⟨hn, hI⟩ := hnext s q a hs
    rw [hn]
    exact ih a hI (h.2 a (hadm s q a hs ha))

theorem Silent.follows {p : Dialogue Q A ε α} (h : Silent p) (hZ : ∀ z, Z s z) :
    Follows D Z s p := by
  obtain ⟨e, rfl⟩ := h
  cases e with
  | ok a => exact hZ (.ok a)
  | error x => exact hZ (.error x)

theorem Silent.follows_bind {Z' : φ → Except ε β → Prop} {p : Dialogue Q A ε α}
    {f : α → Dialogue Q A ε β} (h : Silent p) (herr : ∀ x, Z' s (.error x))
    (hf : ∀ a, Follows D Z' s (f a)) : Follows D Z' s (p.bind f) := by
  obtain ⟨e, rfl⟩ := h
  cases e with
  | ok a => exact hf a
  | error x => exact herr x

/-- The phase after a list of exchanges. -/
def Discipline.after (D : Discipline Q A φ) : φ → List (Exchange Q A) → φ
  | s, [] => s
  | s, e :: t => D.after (D.next s e.1 e.2) t

theorem Follows.path (hadm : ∀ s q a, D.admits s q a) {p : Dialogue Q A ε α}
    {t : List (Exchange Q A)} {z : Except ε α} (h : Follows D Z s p) (hp : Path p t z) :
    Z (D.after s t) z := by
  induction hp generalizing s with
  | pure a => exact h
  | raise x => exact h
  | ask a _ ih => exact ih (h.2 a (hadm _ _ _))

theorem Runs.follows {step : σ → Exchange Q A → σ → Prop} {R : σ → φ → Prop}
    (hstep : ∀ w s q a w', R w s → D.allows s q → step w ⟨q, a⟩ w' →
      D.admits s q a ∧ R w' (D.next s q a))
    {p : Dialogue Q A ε α} {w w' : σ} {t : List (Exchange Q A)} {z : Except ε α}
    (hrun : Runs step w p t z w') (hR : R w s) (h : Follows D Z s p) :
    R w' (D.after s t) ∧ Z (D.after s t) z := by
  induction hrun generalizing s with
  | pure w a => exact ⟨hR, h⟩
  | raise w x => exact ⟨hR, h⟩
  | ask hs _ ih =>
    obtain ⟨hadm, hR'⟩ := hstep _ _ _ _ _ hR h.1 hs
    exact ih hR' (h.2 _ hadm)

/-- The answers a discipline admits, as the steps of its phases. -/
def Discipline.steps (D : Discipline Q A φ) (s : φ) (x : Exchange Q A) (s' : φ) : Prop :=
  D.admits s x.1 x.2 ∧ s' = D.next s x.1 x.2

theorem Discipline.after_append (t₁ t₂ : List (Exchange Q A)) :
    D.after s (t₁ ++ t₂) = D.after (D.after s t₁) t₂ := by
  induction t₁ generalizing s with
  | nil => rfl
  | cons x t₁ ih => exact ih

theorem Runs.follows_split {C : Discipline Q A σ} {R : σ → φ → Prop}
    (hstep : ∀ w s q a, R w s → D.allows s q → C.admits w q a →
      D.admits s q a ∧ R (C.next w q a) (D.next s q a))
    {p : Dialogue Q A ε α} {w w' : σ} {t : List (Exchange Q A)} {z : Except ε α}
    (hrun : Runs C.steps w p t z w') (hR : R w s) (h : Follows D Z s p) :
    w' = C.after w t ∧
      (∀ t₁ q a t₂, t = t₁ ++ ⟨q, a⟩ :: t₂ →
        R (C.after w t₁) (D.after s t₁) ∧ D.allows (D.after s t₁) q) ∧
      R (C.after w t) (D.after s t) ∧ Z (D.after s t) z := by
  induction hrun generalizing s with
  | pure w a => exact ⟨rfl, by simp, hR, h⟩
  | raise w x => exact ⟨rfl, by simp, hR, h⟩
  | @ask w w₁ w₂ q k a t z hs _ ih =>
    obtain ⟨ha, rfl⟩ := hs
    obtain ⟨hadm, hR'⟩ := hstep w s q a hR h.1 ha
    obtain ⟨hw, hsplit, hlast⟩ := ih hR' (h.2 a hadm)
    refine ⟨hw, ?_, hlast⟩
    intro t₁ q' a' t₂ ht
    cases t₁ with
    | nil =>
      cases (List.cons.inj ht).1
      exact ⟨hR, h.1⟩
    | cons x t₁ =>
      obtain ⟨rfl, rfl⟩ := List.cons.inj ht
      exact hsplit t₁ q' a' t₂ rfl

/-! ### Families -/

/-- A discipline at each index of a family: a question is asked at one index. -/
def Discipline.family {I : Type} [DecidableEq I] (D : Discipline Q A φ) :
    Discipline (I × Q) (fun q => A q.2) (I → φ) where
  allows s q := D.allows (s q.1) q.2
  admits s q a := D.admits (s q.1) q.2 a
  next s q a := Function.update s q.1 (D.next (s q.1) q.2 a)

theorem Follows.at_index {I : Type} [DecidableEq I] {s : I → φ} {i : I} {p : Dialogue Q A ε α}
    (h : Follows D Z (s i) p) :
    Follows D.family (fun s' z => Z (s' i) z ∧ ∀ j, j ≠ i → s' j = s j) s
      (p.translate (fun q => (i, q)) fun _ a => a) := by
  induction p generalizing s with
  | pure a => exact ⟨h, fun _ _ => rfl⟩
  | raise x => exact ⟨h, fun _ _ => rfl⟩
  | ask q k ih =>
    refine ⟨h.1, fun a ha => ?_⟩
    have hnext : Function.update s i (D.next (s i) q a) i = D.next (s i) q a :=
      Function.update_self ..
    have hk := ih a (s := Function.update s i (D.next (s i) q a)) (by
      rw [hnext]
      exact h.2 a ha)
    refine hk.mono ?_
    rintro s' z ⟨hz, hothers⟩
    refine ⟨hz, fun j hj => ?_⟩
    rw [hothers j hj, Function.update_of_ne hj]

theorem Discipline.family_after {I : Type} [DecidableEq I] {s : I → φ} {i : I}
    {t : List (Exchange (I × Q) fun q => A q.2)} (h : ∀ x ∈ t, x.1.1 ≠ i) :
    D.family.after s t i = s i := by
  induction t generalizing s with
  | nil => rfl
  | cons x t ih =>
    obtain ⟨hx, ht⟩ := List.forall_mem_cons.mp h
    show D.family.after (D.family.next s x.1 x.2) t i = s i
    rw [ih ht]
    exact Function.update_of_ne (Ne.symm hx) ..

/-! ### Histories -/

/-- The discipline whose phase is all that was asked and answered so far. -/
def history (P : List (Exchange Q A) → Q → Prop) :
    Discipline Q A (List (Exchange Q A)) where
  allows := P
  next h q a := h ++ [⟨q, a⟩]

theorem Follows.path_history {P : List (Exchange Q A) → Q → Prop}
    {Z : List (Exchange Q A) → Except ε α → Prop} {h : List (Exchange Q A)}
    {p : Dialogue Q A ε α} {t : List (Exchange Q A)} {z : Except ε α}
    (hf : Follows (history P) Z h p) (hp : Path p t z) :
    (∀ t₁ q a t₂, t = t₁ ++ ⟨q, a⟩ :: t₂ → P (h ++ t₁) q) ∧ Z (h ++ t) z := by
  induction hp generalizing h with
  | pure a => exact ⟨by simp, by simpa using hf⟩
  | raise x => exact ⟨by simp, by simpa using hf⟩
  | @ask q k a t z _ ih =>
    obtain ⟨hq, hk⟩ := hf
    obtain ⟨hpre, hend⟩ := ih (hk a trivial)
    refine ⟨?_, by simpa [history] using hend⟩
    intro t₁ q' a' t₂ ht
    cases t₁ with
    | nil =>
      obtain ⟨he, -⟩ := List.cons.inj ht
      cases he
      rw [List.append_nil]
      exact hq
    | cons e t₁ =>
      obtain ⟨rfl, rfl⟩ := List.cons.inj ht
      simpa [history] using hpre t₁ q' a' t₂ rfl

/-! ### Questions asked -/

/-- Whatever it is answered, the program asks only questions of `good`. -/
def Asks (good : Q → Prop) : Dialogue Q A ε α → Prop
  | pure _ => True
  | raise _ => True
  | ask q k => good q ∧ ∀ a, Asks good (k a)

section Asks

variable {good : Q → Prop}

theorem asks_pure (a : α) : Asks good (pure a : Dialogue Q A ε α) := trivial

theorem asks_raise (x : ε) : Asks good (raise x : Dialogue Q A ε α) := trivial

theorem asks_ofExcept (e : Except ε α) : Asks good (ofExcept e : Dialogue Q A ε α) := by
  cases e <;> trivial

theorem asks_ask {q : Q} {k : A q → Dialogue Q A ε α} (hq : good q) (hk : ∀ a, Asks good (k a)) :
    Asks good (ask q k) := ⟨hq, hk⟩

theorem Asks.bind {p : Dialogue Q A ε α} {f : α → Dialogue Q A ε β} (h : Asks good p)
    (hf : ∀ a, Asks good (f a)) : Asks good (p.bind f) := by
  induction p with
  | pure a => exact hf a
  | raise x => trivial
  | ask q k ih => exact ⟨h.1, fun a => ih a (h.2 a)⟩

theorem Asks.handle {p : Dialogue Q A ε α} {g : ε → Dialogue Q A ε α} (h : Asks good p)
    (hg : ∀ x, Asks good (g x)) : Asks good (p.handle g) := by
  induction p with
  | pure a => trivial
  | raise x => exact hg x
  | ask q k ih => exact ⟨h.1, fun a => ih a (h.2 a)⟩

theorem Asks.mono {good' : Q → Prop} (hgood : ∀ q, good q → good' q) {p : Dialogue Q A ε α}
    (h : Asks good p) : Asks good' p := by
  induction p with
  | pure a => trivial
  | raise x => trivial
  | ask q k ih => exact ⟨hgood q h.1, fun a => ih a (h.2 a)⟩

theorem Asks.of_path {p : Dialogue Q A ε α} (h : Asks good p) {t : List (Exchange Q A)}
    {z : Except ε α} (hpath : Path p t z) : ∀ e ∈ t, good e.1 := by
  induction hpath with
  | pure a => exact fun e he => absurd he List.not_mem_nil
  | raise x => exact fun e he => absurd he List.not_mem_nil
  | ask a _ ih =>
    intro e he
    rcases List.mem_cons.mp he with rfl | he
    · exact h.1
    · exact ih (h.2 a) e he

theorem asks_translate {f : Q' → Q} {back : (q : Q') → A (f q) → A' q} (hf : ∀ q, good (f q))
    (p : Dialogue Q' A' ε α) : Asks good (p.translate f back) := by
  induction p with
  | pure a => trivial
  | raise x => trivial
  | ask q k ih => exact ⟨hf q, fun a => ih (back q a)⟩

theorem Asks.follows {I : φ → Prop} (hallow : ∀ s q, I s → good q → D.allows s q)
    (hnext : ∀ s q a, I s → good q → D.admits s q a → I (D.next s q a)) {p : Dialogue Q A ε α}
    (h : Asks good p) (hs : I s) : Follows D (fun s' _ => I s') s p := by
  induction p generalizing s with
  | pure a => exact hs
  | raise x => exact hs
  | ask q k ih =>
    exact ⟨hallow s q hs h.1, fun a ha => ih a (h.2 a) (hnext s q a hs h.1 ha)⟩

end Asks

end Dialogue
