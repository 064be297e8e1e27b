/-
Opngms/LikePatterns.lean

Patterns of the operator LIKE: `%` stands for any text, `_` for any one character, and what
follows a backslash for itself.

A text put between two `%` is looked for literally if it has none of the three
(`ilike_surround`), and only then: any of them makes the pattern match a text that does not
contain it, its `sample` (`not_special_of_contains_sample`).

The names follow no program: characters are compared up to a folding that keeps the three.
-/
import Mathlib.Data.List.Infix

namespace Like

variable {α : Type*} [DecidableEq α]

/-- A piece of a pattern. -/
inductive Token (α : Type*) where
  | any
  | one
  | lit (a : α)
  deriving DecidableEq

def matchTokens : List (Token α) → List α → Bool
  | [], s => s.isEmpty
  | .any :: ts, s => s.tails.any (matchTokens ts)
  | .one :: _, [] => false
  | .one :: ts, _ :: s => matchTokens ts s
  | .lit _ :: _, [] => false
  | .lit a :: ts, b :: s => decide (a = b) && matchTokens ts s

theorem matchTokens_any {ts : List (Token α)} {s : List α} :
    matchTokens (.any :: ts) s = true ↔ ∃ t, t <:+ s ∧ matchTokens ts t = true := by
  rw [matchTokens, List.any_eq_true]
  simp only [List.mem_tails]

theorem matchTokens_lits {ts : List (Token α)} {needle s : List α} :
    matchTokens (needle.map .lit ++ ts) s = true ↔ ∃ t, s = needle ++ t ∧ matchTokens ts t = true := by
  induction needle generalizing s with
  | nil => simp
  | cons a needle ih =>
    rw [List.map_cons, List.cons_append]
    cases s with
    | nil => simp [matchTokens]
    | cons b s =>
      rw [matchTokens, Bool.and_eq_true, decide_eq_true_eq, ih]
      constructor
      · rintro ⟨rfl, t, rfl, ht⟩
        exact ⟨t, rfl, ht⟩
      · rintro ⟨t, heq, ht⟩
        obtain ⟨rfl, rfl⟩ := List.cons.inj heq
        exact ⟨rfl, t, rfl, ht⟩

theorem matchTokens_infix {needle s : List α} :
    matchTokens (.any :: (needle.map .lit ++ [.any])) s = true ↔ needle <:+: s := by
  rw [matchTokens_any]
  constructor
  · rintro ⟨t, ⟨front, rfl⟩, ht⟩
    obtain ⟨back, rfl, -⟩ := matchTokens_lits.mp ht
    exact ⟨front, back, List.append_assoc _ _ _⟩
  · rintro ⟨front, back, rfl⟩
    refine ⟨needle ++ back, ⟨front, (List.append_assoc _ _ _).symm⟩, ?_⟩
    refine matchTokens_lits.mpr ⟨back, rfl, ?_⟩
    exact matchTokens_any.mpr ⟨[], List.nil_suffix, rfl⟩

/-! ### Patterns of characters -/

def special : List Char := ['%', '_', '\\']

theorem forall_special {P : Char → Prop} (hpercent : P '%') (hunder : P '_') (hback : P '\\') :
    ∀ c ∈ special, P c := by
  simp [special, hpercent, hunder, hback]

/-- The pieces of a pattern; `none` where it ends with the escape character, which is an
error. -/
def tokens : List Char → Option (List (Token Char))
  | [] => some []
  | '%' :: cs => (tokens cs).map (.any :: ·)
  | '_' :: cs => (tokens cs).map (.one :: ·)
  | ['\\'] => none
  | '\\' :: c :: cs => (tokens cs).map (.lit c :: ·)
  | c :: cs => (tokens cs).map (.lit c :: ·)

theorem tokens_cons {c : Char} (h : c ∉ special) (cs : List Char) :
    tokens (c :: cs) = (tokens cs).map (.lit c :: ·) := by
  have hpercent : c ≠ '%' := fun heq => h (by rw [heq]; decide)
  have hunder : c ≠ '_' := fun heq => h (by rw [heq]; decide)
  have hback : c ≠ '\\' := fun heq => h (by rw [heq]; decide)
  rw [tokens]
  all_goals simp_all

theorem tokens_append {needle : List Char} (h : ∀ c ∈ needle, c ∉ special) (cs : List Char) :
    tokens (needle ++ cs) = (tokens cs).map (needle.map .lit ++ ·) := by
  induction needle with
  | nil => simp
  | cons c needle ih =>
    obtain ⟨hc, hneedle⟩ := List.forall_mem_cons.mp h
    rw [List.cons_append, tokens_cons hc, ih hneedle, Option.map_map]
    rfl

/-- A folding of letters that neither moves nor makes special characters. -/
structure Folding where
  fold : Char → Char
  fold_special : ∀ c ∈ special, fold c = c
  fold_plain : ∀ c, c ∉ special → fold c ∉ special

/-- `text ILIKE pattern`. -/
def ilike (F : Folding) (pattern text : List Char) : Bool :=
  match tokens (pattern.map F.fold) with
  | some ts => matchTokens ts (text.map F.fold)
  | none => false

/-- The text contains the needle literally, up to folding. -/
def Contains (F : Folding) (needle text : List Char) : Prop :=
  needle.map F.fold <:+: text.map F.fold

def surround (needle : List Char) : List Char := '%' :: (needle ++ ['%'])

/-- A text that the pattern around the needle matches: `%` left out, a letter for `_`, what is
escaped for itself. -/
def sample : List Char → List Char
  | [] => []
  | '%' :: cs => sample cs
  | '_' :: cs => 'x' :: sample cs
  | ['\\'] => ['%']
  | '\\' :: c :: cs => c :: sample cs
  | c :: cs => c :: sample cs

section Needle

variable {F : Folding} {needle text : List Char}

/-- **A needle without special characters is looked for literally.** -/
theorem ilike_surround (h : ∀ c ∈ needle, c ∉ special) :
    ilike F (surround needle) text = true ↔ Contains F needle text := by
  have hpercent : F.fold '%' = '%' := F.fold_special _ (by decide)
  have hplain : ∀ c ∈ needle.map F.fold, c ∉ special := by
    intro c hc
    obtain ⟨d, hd, rfl⟩ := List.mem_map.mp hc
    exact F.fold_plain d (h d hd)
  have htokens : tokens ((surround needle).map F.fold) =
      some (.any :: ((needle.map F.fold).map .lit ++ [.any])) := by
    rw [surround, List.map_cons, List.map_append, List.map_singleton, hpercent, tokens,
      tokens_append hplain]
    rfl
  rw [ilike, htokens]
  exact matchTokens_infix

theorem ne_of_not_special {c : Char} (h₁ : c ≠ '%') (h₂ : c ≠ '_') (h₃ : c ≠ '\\') :
    c ∉ special := by
  simp [special, h₁, h₂, h₃]

theorem sample_cons {c : Char} (h : c ∉ special) (cs : List Char) :
    sample (c :: cs) = c :: sample cs := by
  have hpercent : c ≠ '%' := fun heq => h (by rw [heq]; decide)
  have hunder : c ≠ '_' := fun heq => h (by rw [heq]; decide)
  have hback : c ≠ '\\' := fun heq => h (by rw [heq]; decide)
  rw [sample]
  all_goals simp_all

theorem needle_cases {motive : List Char → Prop} (nil : motive [])
    (percent : ∀ cs, motive cs → motive ('%' :: cs))
    (under : ∀ cs, motive cs → motive ('_' :: cs)) (last : motive ['\\'])
    (escape : ∀ c cs, motive cs → motive ('\\' :: c :: cs))
    (plain : ∀ c cs, c ∉ special → motive cs → motive (c :: cs)) : ∀ cs, motive cs
  | [] => nil
  | c :: cs => by
    by_cases h₁ : c = '%'
    · rw [h₁]
      exact percent cs (needle_cases nil percent under last escape plain cs)
    · by_cases h₂ : c = '_'
      · rw [h₂]
        exact under cs (needle_cases nil percent under last escape plain cs)
      · by_cases h₃ : c = '\\'
        · rw [h₃]
          match cs with
          | [] => exact last
          | d :: cs => exact escape d cs (needle_cases nil percent under last escape plain cs)
        · exact plain c cs (ne_of_not_special h₁ h₂ h₃)
            (needle_cases nil percent under last escape plain cs)

theorem matchTokens_sample (F : Folding) (needle : List Char) :
    ∃ ts, tokens (needle.map F.fold ++ ['%']) = some ts ∧
      matchTokens ts ((sample needle).map F.fold) = true := by
  have hspecial := F.fold_special
  induction needle using needle_cases with
  | nil => exact ⟨[.any], rfl, rfl⟩
  | percent cs ih =>
    obtain ⟨ts, hts, hmatch⟩ := ih
    refine ⟨.any :: ts, ?_, ?_⟩
    · rw [List.map_cons, hspecial '%' (by decide), List.cons_append, tokens, hts]
      rfl
    · exact matchTokens_any.mpr ⟨_, List.suffix_rfl, hmatch⟩
  | under cs ih =>
    obtain ⟨ts, hts, hmatch⟩ := ih
    refine ⟨.one :: ts, ?_, hmatch⟩
    rw [List.map_cons, hspecial '_' (by decide), List.cons_append, tokens, hts]
    rfl
  | last =>
    refine ⟨[.lit '%'], ?_, ?_⟩
    · rw [List.map_singleton, hspecial '\\' (by decide)]
      rfl
    · show matchTokens [.lit '%'] [F.fold '%'] = true
      rw [hspecial '%' (by decide)]
      rfl
  | escape c cs ih =>
    obtain ⟨ts, hts, hmatch⟩ := ih
    refine ⟨.lit (F.fold c) :: ts, ?_, ?_⟩
    · rw [List.map_cons, List.map_cons, hspecial '\\' (by decide), List.cons_append,
        List.cons_append, tokens, hts]
      rfl
    · show (decide (F.fold c = F.fold c) && _) = true
      rw [hmatch, decide_eq_true rfl]
      rfl
  | plain c cs hc ih =>
    obtain ⟨ts, hts, hmatch⟩ := ih
    refine ⟨.lit (F.fold c) :: ts, ?_, ?_⟩
    · rw [List.map_cons, List.cons_append, tokens_cons (F.fold_plain c hc), hts]
      rfl
    · rw [sample_cons hc]
      show (decide (F.fold c = F.fold c) && _) = true
      rw [hmatch, decide_eq_true rfl]
      rfl

theorem ilike_sample (F : Folding) (needle : List Char) :
    ilike F (surround needle) (sample needle) = true := by
  obtain ⟨ts, hts, hmatch⟩ := matchTokens_sample F needle
  have htokens : tokens ((surround needle).map F.fold) = some (.any :: ts) := by
    have hpercent : F.fold '%' = '%' := F.fold_special _ (by decide)
    rw [surround, List.map_cons, List.map_append, List.map_singleton, hpercent, tokens, hts]
    rfl
  rw [ilike, htokens]
  exact matchTokens_any.mpr ⟨_, List.suffix_rfl, hmatch⟩

theorem length_sample_le (needle : List Char) : (sample needle).length ≤ needle.length := by
  induction needle using needle_cases with
  | nil => exact Nat.le_refl _
  | percent cs ih => exact Nat.le_succ_of_le ih
  | under cs ih => exact Nat.succ_le_succ ih
  | last => exact Nat.le_refl _
  | escape c cs ih => exact Nat.le_succ_of_le (Nat.succ_le_succ ih)
  | plain c cs hc ih =>
    rw [sample_cons hc]
    exact Nat.succ_le_succ ih

theorem not_special_of_sample (h : needle.map F.fold = (sample needle).map F.fold) :
    ∀ c ∈ needle, c ∉ special := by
  have hlen : ∀ cs : List Char, (sample cs).length < cs.length + 1 := fun cs =>
    Nat.lt_succ_of_le (length_sample_le cs)
  induction needle using needle_cases with
  | nil => exact fun _ hc => absurd hc List.not_mem_nil
  | percent cs ih =>
    have heq := congrArg List.length h
    rw [List.length_map, List.length_map] at heq
    exact absurd (hlen cs) (not_lt_of_ge (Nat.le_of_eq heq))
  | under cs ih =>
    have hx := (List.cons.inj h).1
    rw [F.fold_special '_' (by decide)] at hx
    exact absurd (hx ▸ (by decide : '_' ∈ special)) (F.fold_plain 'x' (by decide))
  | last =>
    have hx := (List.cons.inj h).1
    rw [F.fold_special '\\' (by decide), F.fold_special '%' (by decide)] at hx
    exact absurd hx (by decide)
  | escape c cs ih =>
    have heq := congrArg List.length h
    rw [List.length_map, List.length_map] at heq
    exact absurd (Nat.succ_lt_succ (hlen cs)) (not_lt_of_ge (Nat.le_of_eq heq))
  | plain c cs hc ih =>
    rw [sample_cons hc] at h
    exact List.forall_mem_cons.mpr ⟨hc, ih (List.cons.inj h).2⟩

theorem not_special_of_contains_sample (h : Contains F needle (sample needle)) :
    ∀ c ∈ needle, c ∉ special := by
  apply not_special_of_sample (F := F)
  apply List.IsInfix.eq_of_length_le h
  rw [List.length_map, List.length_map]
  exact length_sample_le needle

end Needle

end Like
