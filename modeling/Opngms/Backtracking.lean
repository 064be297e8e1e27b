/-
Opngms/Backtracking.lean

Regular expressions with groups, matched by backtracking.

`Pattern.hits` lists the matches at one place of a text in the order in which a
backtracking matcher tries them, and `Pattern.search` takes the first match of
the first place that has one.  Repetition is of single letters only; it is
greedy or lazy, and that changes the order of the matches and nothing else.

What is matched is a word of the pattern's language (`mem_language`), what a
group holds is a word of the language of the group (`search_group`), and a
group that lies on every way through the pattern holds something
(`search_group_isSome`).
-/
import Mathlib.Computability.Language

variable {α : Type*}

/-- A regular expression over the letters `α`. -/
inductive Pattern (α : Type*) where
  | empty
  /-- A letter of a class. -/
  | one (p : α → Bool)
  /-- Letters of a class: as many as there are first, or as few. -/
  | many (greedy : Bool) (p : α → Bool)
  | seq (r s : Pattern α)
  | alt (r s : Pattern α)
  | group (name : String) (r : Pattern α)
  /-- A condition on what stands before (nearest first) and after a place. -/
  | look (ok : (before after : List α) → Bool)

/-- A match: its text, what follows it, and what the groups hold. -/
structure Hit (α : Type*) where
  text : List α
  rest : List α
  groups : List (String × List α)

def Hit.append (h k : Hit α) : Hit α := ⟨h.text ++ k.text, k.rest, k.groups ++ h.groups⟩

def Hit.group (h : Hit α) (name : String) : Option (List α) := h.groups.lookup name

/-- The ways to cut a text after letters of a class, the shortest first. -/
def cuts (p : α → Bool) : List α → List (List α × List α)
  | [] => [([], [])]
  | c :: rest => ([], c :: rest) :: (if p c then (cuts p rest).map fun w => (c :: w.1, w.2) else [])

namespace Pattern

def hits : Pattern α → (before after : List α) → List (Hit α)
  | empty, _, after => [⟨[], after, []⟩]
  | one _, _, [] => []
  | one p, _, c :: rest => if p c then [⟨[c], rest, []⟩] else []
  | many greedy p, _, after =>
    let ways := (cuts p after).map fun w => ⟨w.1, w.2, []⟩
    if greedy then ways.reverse else ways
  | seq r s, before, after =>
    (r.hits before after).flatMap fun h => (s.hits (h.text.reverse ++ before) h.rest).map h.append
  | alt r s, before, after => r.hits before after ++ s.hits before after
  | group name r, before, after =>
    (r.hits before after).map fun h => { h with groups := (name, h.text) :: h.groups }
  | look ok, before, after => if ok before after then [⟨[], after, []⟩] else []

def matchStart (r : Pattern α) (s : List α) : Option (Hit α) := (r.hits [] s).head?

/-- `search`, from a place of the text on. -/
def searchFrom (r : Pattern α) : (before after : List α) → Option (Hit α)
  | before, [] => (r.hits before []).head?
  | before, c :: rest =>
    match (r.hits before (c :: rest)).head? with
    | some h => some h
    | none => searchFrom r (c :: before) rest

def search (r : Pattern α) (s : List α) : Option (Hit α) := r.searchFrom [] s

/-- The text with every match replaced; a match that is empty is left alone. -/
def substFrom (r : Pattern α) (new : List α) : (skip : Nat) → (before after : List α) → List α
  | _, _, [] => []
  | skip + 1, before, c :: rest => substFrom r new skip (c :: before) rest
  | 0, before, c :: rest =>
    match (r.hits before (c :: rest)).head? with
    | some ⟨_ :: text, _, _⟩ => new ++ substFrom r new text.length (c :: before) rest
    | _ => c :: substFrom r new 0 (c :: before) rest

/-- `sub` of a pattern that matches no empty text. -/
def subst (r : Pattern α) (new s : List α) : List α := r.substFrom new 0 [] s

/-! ### Derived patterns -/

def plus (greedy : Bool) (p : α → Bool) : Pattern α := seq (one p) (many greedy p)

def opt (r : Pattern α) : Pattern α := alt r empty

def times : Nat → Pattern α → Pattern α
  | 0, _ => empty
  | n + 1, r => seq r (times n r)

def upTo : Nat → Pattern α → Pattern α
  | 0, _ => empty
  | n + 1, r => opt (seq r (upTo n r))

def word : List (α → Bool) → Pattern α
  | [] => empty
  | p :: ps => seq (one p) (word ps)

def choice : List (Pattern α) → Pattern α
  | [] => look fun _ _ => false
  | r :: rs => alt r (choice rs)

def chain : List (Pattern α) → Pattern α
  | [] => empty
  | r :: rs => seq r (chain rs)

/-! ### Languages -/

/-- The texts that a pattern may match, wherever they stand. -/
def language : Pattern α → Language α
  | empty => 1
  | one p => {t | ∃ c, p c = true ∧ t = [c]}
  | many _ p => {t | ∀ c ∈ t, p c = true}
  | seq r s => r.language * s.language
  | alt r s => r.language + s.language
  | group _ r => r.language
  | look _ => 1

/-- The texts that a group may hold. -/
def groupLanguage (name : String) : Pattern α → Language α
  | empty => 0
  | one _ => 0
  | many _ _ => 0
  | seq r s => r.groupLanguage name + s.groupLanguage name
  | alt r s => r.groupLanguage name + s.groupLanguage name
  | group n r => (if n = name then r.language else 0) + r.groupLanguage name
  | look _ => 0

/-- The letters that the pattern may match all have the property. -/
def Letters (q : α → Prop) : Pattern α → Prop
  | empty => True
  | one p => ∀ c, p c = true → q c
  | many _ p => ∀ c, p c = true → q c
  | seq r s => r.Letters q ∧ s.Letters q
  | alt r s => r.Letters q ∧ s.Letters q
  | group _ r => r.Letters q
  | look _ => True

/-- Every way through the pattern passes the group. -/
def Passes (name : String) : Pattern α → Prop
  | empty => False
  | one _ => False
  | many _ _ => False
  | seq r s => r.Passes name ∨ s.Passes name
  | alt r s => r.Passes name ∧ s.Passes name
  | group n r => n = name ∨ r.Passes name
  | look _ => False

end Pattern

theorem mem_cuts {p : α → Bool} {s : List α} {w : List α × List α} :
    w ∈ cuts p s ↔ s = w.1 ++ w.2 ∧ ∀ c ∈ w.1, p c = true := by
  induction s generalizing w with
  | nil =>
    obtain ⟨t, rest⟩ := w
    simp only [cuts, List.mem_singleton, Prod.mk.injEq]
    constructor
    · rintro ⟨rfl, rfl⟩
      simp
    · rintro ⟨hs, -⟩
      exact List.append_eq_nil_iff.mp hs.symm
  | cons c s ih =>
    obtain ⟨t, rest⟩ := w
    rw [cuts, List.mem_cons]
    cases t with
    | nil =>
      constructor
      · rintro (h | h)
        · rw [Prod.mk.injEq] at h
          simp [h.2]
        · split at h
          · obtain ⟨w, -, hw⟩ := List.mem_map.mp h
            cases hw
          · cases h
      · rintro ⟨hs, -⟩
        exact .inl (Prod.ext rfl hs.symm)
    | cons d t =>
      constructor
      · rintro (h | h)
        · cases h
        · split at h
          · rename_i hc
            obtain ⟨w, hw, heq⟩ := List.mem_map.mp h
            obtain ⟨hs, hall⟩ := ih.mp hw
            simp only [Prod.mk.injEq, List.cons.injEq] at heq
            obtain ⟨⟨rfl, rfl⟩, rfl⟩ := heq
            exact ⟨congrArg (c :: ·) hs, List.forall_mem_cons.mpr ⟨hc, hall⟩⟩
          · cases h
      · rintro ⟨hs, hall⟩
        obtain ⟨rfl, hs⟩ := List.cons.inj hs
        obtain ⟨hc, hall⟩ := List.forall_mem_cons.mp hall
        right
        rw [if_pos hc]
        exact List.mem_map.mpr ⟨(t, rest), ih.mpr ⟨hs, hall⟩, rfl⟩

theorem getLast?_cuts (p : α → Bool) (s : List α) :
    (cuts p s).getLast? = some (s.takeWhile p, s.dropWhile p) := by
  induction s with
  | nil => rfl
  | cons c s ih =>
    rw [cuts]
    by_cases hc : p c = true
    · rw [if_pos hc, List.getLast?_cons, List.getLast?_map, ih]
      simp [hc]
    · rw [if_neg hc, List.getLast?_singleton, List.takeWhile_cons_of_neg hc,
        List.dropWhile_cons_of_neg hc]

namespace Pattern

section Hits

attribute [local simp] hits

theorem mem_hits_many {greedy : Bool} {p : α → Bool} {before after : List α} {h : Hit α} :
    h ∈ (many greedy p).hits before after ↔
      ∃ w ∈ cuts p after, h = ⟨w.1, w.2, []⟩ := by
  cases greedy <;> simp [eq_comm]

theorem mem_hits_seq {r s : Pattern α} {before after : List α} {h : Hit α} :
    h ∈ (seq r s).hits before after ↔ ∃ h₁ ∈ r.hits before after,
      ∃ h₂ ∈ s.hits (h₁.text.reverse ++ before) h₁.rest, h = h₁.append h₂ := by
  simp [List.mem_flatMap, eq_comm]

theorem mem_hits_group {name : String} {r : Pattern α} {before after : List α} {h : Hit α} :
    h ∈ (group name r).hits before after ↔
      ∃ k ∈ r.hits before after, h = { k with groups := (name, k.text) :: k.groups } := by
  simp [eq_comm]

theorem mem_hits_opt {r : Pattern α} {before after : List α} {h : Hit α} :
    h ∈ (opt r).hits before after ↔ h ∈ r.hits before after ∨ h = ⟨[], after, []⟩ := by
  simp [opt]

theorem mem_hits_look {ok : List α → List α → Bool} {before after : List α} {h : Hit α} :
    h ∈ (look ok).hits before after ↔ ok before after = true ∧ h = ⟨[], after, []⟩ := by
  by_cases hok : ok before after = true
  · simp [hok]
  · simp [hok]

theorem mem_hits_one {p : α → Bool} {before after : List α} {h : Hit α} :
    h ∈ (one p).hits before after ↔ ∃ c rest, after = c :: rest ∧ p c = true ∧ h = ⟨[c], rest, []⟩ := by
  cases after with
  | nil => simp
  | cons c rest =>
    by_cases hc : p c = true
    · simp [hc]
    · simp [hc]

theorem mem_hits_times {n : Nat} {p : α → Bool} {before after : List α} {h : Hit α} :
    h ∈ (times n (one p)).hits before after ↔ ∃ t rest, after = t ++ rest ∧ t.length = n ∧
      (∀ c ∈ t, p c = true) ∧ h = ⟨t, rest, []⟩ := by
  induction n generalizing before after h with
  | zero => simp [times, List.length_eq_zero_iff]
  | succ n ih =>
    rw [times, mem_hits_seq]
    constructor
    · rintro ⟨h₁, hh₁, h₂, hh₂, rfl⟩
      obtain ⟨c, rest, rfl, hc, rfl⟩ := mem_hits_one.1 hh₁
      obtain ⟨t, rest, rfl, rfl, ht, rfl⟩ := ih.mp hh₂
      exact ⟨c :: t, rest, rfl, rfl, List.forall_mem_cons.mpr ⟨hc, ht⟩, rfl⟩
    · rintro ⟨t, rest, rfl, hlen, ht, rfl⟩
      cases t with
      | nil => cases hlen
      | cons c t =>
        obtain ⟨hc, ht⟩ := List.forall_mem_cons.mp ht
        exact ⟨⟨[c], t ++ rest, []⟩, mem_hits_one.2 ⟨c, t ++ rest, rfl, hc, rfl⟩, ⟨t, rest, []⟩,
          ih.mpr ⟨t, rest, rfl, Nat.succ.inj hlen, ht, rfl⟩, rfl⟩

/-- So are letters of given classes. -/
theorem mem_hits_word {ps : List (α → Bool)} {before after : List α} {h : Hit α} :
    h ∈ (word ps).hits before after ↔ ∃ t rest, after = t ++ rest ∧
      List.Forall₂ (fun p c => p c = true) ps t ∧ h = ⟨t, rest, []⟩ := by
  induction ps generalizing before after h with
  | nil => simp [word]
  | cons p ps ih =>
    rw [word, mem_hits_seq]
    constructor
    · rintro ⟨h₁, hh₁, h₂, hh₂, rfl⟩
      obtain ⟨c, rest, rfl, hc, rfl⟩ := mem_hits_one.1 hh₁
      obtain ⟨t, rest, rfl, ht, rfl⟩ := ih.mp hh₂
      exact ⟨c :: t, rest, rfl, List.Forall₂.cons hc ht, rfl⟩
    · rintro ⟨t, rest, rfl, ht, rfl⟩
      cases ht with
      | cons hc ht =>
        rename_i c t
        exact ⟨⟨[c], t ++ rest, []⟩, mem_hits_one.2 ⟨c, t ++ rest, rfl, hc, rfl⟩, ⟨t, rest, []⟩,
          ih.mpr ⟨t, rest, rfl, ht, rfl⟩, rfl⟩

end Hits

/-- **A match cuts the text, and is a word of the language.** -/
theorem mem_language {r : Pattern α} {before after : List α} {h : Hit α}
    (hh : h ∈ r.hits before after) : after = h.text ++ h.rest ∧ h.text ∈ r.language := by
  induction r generalizing before after h with
  | empty =>
    obtain rfl := List.mem_singleton.mp hh
    exact ⟨rfl, rfl⟩
  | one p =>
    cases after with
    | nil => cases hh
    | cons c rest =>
      rw [hits] at hh
      split at hh
      · rename_i hc
        obtain rfl := List.mem_singleton.mp hh
        exact ⟨rfl, c, hc, rfl⟩
      · cases hh
  | many greedy p =>
    obtain ⟨w, hw, rfl⟩ := mem_hits_many.1 hh
    exact mem_cuts.1 hw
  | seq r s ihr ihs =>
    obtain ⟨h₁, hr, h₂, hs, rfl⟩ := mem_hits_seq.1 hh
    obtain ⟨hcut₁, hlang₁⟩ := ihr hr
    obtain ⟨hcut₂, hlang₂⟩ := ihs hs
    refine ⟨?_, Language.append_mem_mul hlang₁ hlang₂⟩
    rw [hcut₁, hcut₂, ← List.append_assoc]
    rfl
  | alt r s ihr ihs =>
    rcases List.mem_append.mp hh with hr | hs
    · exact ⟨(ihr hr).1, Or.inl (ihr hr).2⟩
    · exact ⟨(ihs hs).1, Or.inr (ihs hs).2⟩
  | group name r ih =>
    obtain ⟨k, hk, rfl⟩ := mem_hits_group.1 hh
    exact ⟨(ih hk).1, (ih hk).2⟩
  | look ok =>
    rw [hits] at hh
    split at hh
    · obtain rfl := List.mem_singleton.mp hh
      exact ⟨rfl, rfl⟩
    · cases hh

theorem mem_of_letters {q : α → Prop} {r : Pattern α} (hr : r.Letters q) {t : List α}
    (ht : t ∈ r.language) : ∀ c ∈ t, q c := by
  induction r generalizing t with
  | empty =>
    obtain rfl : t = [] := ht
    exact nofun
  | one p =>
    obtain ⟨c, hc, rfl⟩ := ht
    exact List.forall_mem_singleton.mpr (hr c hc)
  | many greedy p => exact fun c hc => hr c (ht c hc)
  | seq r s ihr ihs =>
    obtain ⟨u, hu, v, hv, rfl⟩ := ht
    exact List.forall_mem_append.mpr ⟨ihr hr.1 hu, ihs hr.2 hv⟩
  | alt r s ihr ihs =>
    rcases ht with ht | ht
    · exact ihr hr.1 ht
    · exact ihs hr.2 ht
  | group name r ih => exact ih hr ht
  | look ok =>
    obtain rfl : t = [] := ht
    exact nofun

theorem mem_groupLanguage {r : Pattern α} {before after : List α} {h : Hit α}
    (hh : h ∈ r.hits before after) {name : String} {t : List α} (ht : (name, t) ∈ h.groups) :
    t ∈ r.groupLanguage name := by
  induction r generalizing before after h with
  | empty =>
    obtain rfl := List.mem_singleton.mp hh
    cases ht
  | one p =>
    cases after with
    | nil => cases hh
    | cons c rest =>
      rw [hits] at hh
      split at hh
      · obtain rfl := List.mem_singleton.mp hh
        cases ht
      · cases hh
  | many greedy p =>
    obtain ⟨w, -, rfl⟩ := mem_hits_many.1 hh
    cases ht
  | seq r s ihr ihs =>
    obtain ⟨h₁, hr, h₂, hs, rfl⟩ := mem_hits_seq.1 hh
    rcases List.mem_append.mp ht with ht | ht
    · exact Or.inr (ihs hs ht)
    · exact Or.inl (ihr hr ht)
  | alt r s ihr ihs =>
    rcases List.mem_append.mp hh with hr | hs
    · exact Or.inl (ihr hr ht)
    · exact Or.inr (ihs hs ht)
  | group n r ih =>
    obtain ⟨k, hk, rfl⟩ := mem_hits_group.1 hh
    rcases List.mem_cons.mp ht with heq | ht
    · obtain ⟨rfl, rfl⟩ := Prod.mk.inj heq
      left
      rw [if_pos rfl]
      exact (mem_language hk).2
    · exact Or.inr (ih hk ht)
  | look ok =>
    rw [hits] at hh
    split at hh
    · obtain rfl := List.mem_singleton.mp hh
      cases ht
    · cases hh

theorem exists_mem_groups {r : Pattern α} {before after : List α} {h : Hit α}
    (hh : h ∈ r.hits before after) {name : String} (hname : r.Passes name) :
    ∃ t, (name, t) ∈ h.groups := by
  induction r generalizing before after h with
  | empty => exact hname.elim
  | one p => exact hname.elim
  | many greedy p => exact hname.elim
  | seq r s ihr ihs =>
    obtain ⟨h₁, hr, h₂, hs, rfl⟩ := mem_hits_seq.1 hh
    rcases hname with hname | hname
    · obtain ⟨t, ht⟩ := ihr hr hname
      exact ⟨t, List.mem_append_right _ ht⟩
    · obtain ⟨t, ht⟩ := ihs hs hname
      exact ⟨t, List.mem_append_left _ ht⟩
  | alt r s ihr ihs =>
    rcases List.mem_append.mp hh with hr | hs
    · exact ihr hr hname.1
    · exact ihs hs hname.2
  | group n r ih =>
    obtain ⟨k, hk, rfl⟩ := mem_hits_group.1 hh
    rcases hname with rfl | hname
    · exact ⟨_, List.mem_cons_self⟩
    · obtain ⟨t, ht⟩ := ih hk hname
      exact ⟨t, List.mem_cons_of_mem _ ht⟩
  | look ok => exact hname.elim

/-! ### Searches -/

theorem searchFrom_hits {r : Pattern α} {before after : List α} {h : Hit α}
    (hh : r.searchFrom before after = some h) :
    ∃ before' after', after' ⊆ after ∧ h ∈ r.hits before' after' := by
  induction after generalizing before with
  | nil => exact ⟨before, [], List.Subset.refl _, List.mem_of_head? hh⟩
  | cons c rest ih =>
    rw [searchFrom] at hh
    split at hh
    · rename_i k hk
      obtain rfl := Option.some.inj hh
      exact ⟨before, c :: rest, List.Subset.refl _, List.mem_of_head? hk⟩
    · obtain ⟨before', after', hsub, hmem⟩ := ih hh
      exact ⟨before', after', List.Subset.trans hsub (List.subset_cons_self _ _), hmem⟩

section Found

variable {r : Pattern α} {s : List α} {h : Hit α} {name : String}

theorem search_language (hh : r.search s = some h) : h.text ∈ r.language := by
  obtain ⟨before, after, -, hmem⟩ := searchFrom_hits hh
  exact (mem_language hmem).2

theorem mem_groups_of_group {t : List α} (ht : h.group name = some t) : (name, t) ∈ h.groups := by
  obtain ⟨l, l', hgroups, -⟩ := List.lookup_eq_some_iff.mp ht
  rw [hgroups]
  exact List.mem_append_right _ List.mem_cons_self

theorem search_group {t : List α} (hh : r.search s = some h) (ht : h.group name = some t) :
    t ∈ r.groupLanguage name := by
  obtain ⟨before, after, -, hmem⟩ := searchFrom_hits hh
  exact mem_groupLanguage hmem (mem_groups_of_group ht)

theorem search_group_isSome (hh : r.search s = some h) (hname : r.Passes name) :
    ∃ t, h.group name = some t := by
  obtain ⟨before, after, -, hmem⟩ := searchFrom_hits hh
  obtain ⟨t, ht⟩ := exists_mem_groups hmem hname
  refine Option.isSome_iff_exists.mp (List.lookup_isSome_iff.mpr ?_)
  exact ⟨(name, t), ht, beq_self_eq_true name⟩

end Found

/-! ### Words of derived patterns -/

theorem mem_plus {greedy : Bool} {p : α → Bool} {t : List α} :
    t ∈ (plus greedy p).language ↔ t ≠ [] ∧ ∀ c ∈ t, p c = true := by
  constructor
  · rintro ⟨u, ⟨c, hc, rfl⟩, v, hv, rfl⟩
    exact ⟨by simp, List.forall_mem_cons.mpr ⟨hc, hv⟩⟩
  · rintro ⟨hne, hall⟩
    obtain ⟨c, rest, rfl⟩ := List.exists_cons_of_ne_nil hne
    obtain ⟨hc, hrest⟩ := List.forall_mem_cons.mp hall
    exact ⟨[c], ⟨c, hc, rfl⟩, rest, hrest, rfl⟩

theorem mem_upTo {n : Nat} {p : α → Bool} {t : List α} (h : t ∈ (upTo n (one p)).language) :
    t.length ≤ n ∧ ∀ c ∈ t, p c = true := by
  induction n generalizing t with
  | zero =>
    obtain rfl : t = [] := h
    simp
  | succ n ih =>
    rcases h with ⟨u, ⟨c, hc, rfl⟩, v, hv, rfl⟩ | h
    · obtain ⟨hlen, hall⟩ := ih hv
      exact ⟨Nat.succ_le_succ hlen, List.forall_mem_cons.mpr ⟨hc, hall⟩⟩
    · obtain rfl : t = [] := h
      simp

theorem mem_times {n : Nat} {p : α → Bool} {t : List α} (h : t ∈ (times n (one p)).language) :
    t.length = n ∧ ∀ c ∈ t, p c = true := by
  induction n generalizing t with
  | zero =>
    obtain rfl : t = [] := h
    simp
  | succ n ih =>
    obtain ⟨u, ⟨c, hc, rfl⟩, v, hv, rfl⟩ := h
    obtain ⟨hlen, hall⟩ := ih hv
    exact ⟨congrArg (· + 1) hlen, List.forall_mem_cons.mpr ⟨hc, hall⟩⟩

theorem mem_oneUpTo {n : Nat} {p : α → Bool} {t : List α}
    (h : t ∈ (seq (one p) (upTo n (one p))).language) :
    t ≠ [] ∧ t.length ≤ n + 1 ∧ ∀ c ∈ t, p c = true := by
  obtain ⟨u, ⟨c, hc, rfl⟩, v, hv, rfl⟩ := h
  obtain ⟨hlen, hall⟩ := mem_upTo hv
  exact ⟨by simp, Nat.succ_le_succ hlen, List.forall_mem_cons.mpr ⟨hc, hall⟩⟩

/-! ### Groups of derived patterns -/

section Groups

variable (name : String)

@[simp] theorem groupLanguage_one (p : α → Bool) : (one p).groupLanguage name = 0 := rfl

@[simp] theorem groupLanguage_many (greedy : Bool) (p : α → Bool) :
    (many greedy p).groupLanguage name = 0 := rfl

@[simp] theorem groupLanguage_look (ok : List α → List α → Bool) :
    (look ok).groupLanguage name = 0 := rfl

@[simp] theorem groupLanguage_seq (r s : Pattern α) :
    (seq r s).groupLanguage name = r.groupLanguage name + s.groupLanguage name := rfl

@[simp] theorem groupLanguage_group (n : String) (r : Pattern α) :
    (group n r).groupLanguage name =
      (if n = name then r.language else 0) + r.groupLanguage name := rfl

@[simp] theorem groupLanguage_plus (greedy : Bool) (p : α → Bool) :
    (plus greedy p).groupLanguage name = 0 := add_zero 0

@[simp] theorem groupLanguage_opt (r : Pattern α) :
    (opt r).groupLanguage name = r.groupLanguage name := add_zero _

@[simp] theorem groupLanguage_times (n : Nat) (p : α → Bool) :
    (times n (one p)).groupLanguage name = 0 := by
  induction n with
  | zero => rfl
  | succ n ih => rw [times, groupLanguage_seq, ih, groupLanguage_one, add_zero]

@[simp] theorem groupLanguage_upTo (n : Nat) (p : α → Bool) :
    (upTo n (one p)).groupLanguage name = 0 := by
  induction n with
  | zero => rfl
  | succ n ih => rw [upTo, groupLanguage_opt, groupLanguage_seq, ih, groupLanguage_one, add_zero]

@[simp] theorem groupLanguage_word (ps : List (α → Bool)) : (word ps).groupLanguage name = 0 := by
  induction ps with
  | nil => rfl
  | cons p ps ih => rw [word, groupLanguage_seq, ih, groupLanguage_one, add_zero]

@[simp] theorem groupLanguage_choice_nil :
    (choice ([] : List (Pattern α))).groupLanguage name = 0 := rfl

@[simp] theorem groupLanguage_choice_cons (r : Pattern α) (rs : List (Pattern α)) :
    (choice (r :: rs)).groupLanguage name = r.groupLanguage name + (choice rs).groupLanguage name :=
  rfl

@[simp] theorem groupLanguage_chain_nil :
    (chain ([] : List (Pattern α))).groupLanguage name = 0 := rfl

@[simp] theorem groupLanguage_chain_cons (r : Pattern α) (rs : List (Pattern α)) :
    (chain (r :: rs)).groupLanguage name = r.groupLanguage name + (chain rs).groupLanguage name :=
  rfl

end Groups

theorem matchStart_plus (p : α → Bool) (s : List α) :
    ((plus true p).matchStart s).map (·.text) =
      if s.takeWhile p = [] then none else some (s.takeWhile p) := by
  cases s with
  | nil => rfl
  | cons c s =>
    by_cases hc : p c = true
    · simp [matchStart, plus, hits, hc, Hit.append, List.head?_reverse, getLast?_cuts]
    · simp [matchStart, plus, hits, hc]

end Pattern
