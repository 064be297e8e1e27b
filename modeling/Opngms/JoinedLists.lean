/-
Opngms/JoinedLists.lean

Lists joined by a separator.

What is joined falls into the pieces of its parts (`splitOn_intercalate_flatMap`), and the
pieces are all that it tells of them (`intercalate_eq_iff`).  A part that starts without the
separator keeps its start in its first piece (`splitOn_append_of_not_mem`).  Where the pieces
are trimmed and the empty ones left out, what was joined comes back when each part is such a
piece (`trimmedPieces_intercalate`).
-/
import Mathlib.Data.List.Basic
import Mathlib.Data.List.DropRight

variable {α : Type*} [DecidableEq α] {sep : α}

theorem splitOn_intercalate_flatMap {parts : List (List α)} (h : parts ≠ []) :
    ([sep].intercalate parts).splitOn sep = parts.flatMap (List.splitOn sep) := by
  induction parts with
  | nil => exact absurd rfl h
  | cons part rest ih =>
    cases rest with
    | nil => simp
    | cons next rest =>
      rw [List.intercalate_cons_cons, List.append_assoc, List.singleton_append,
        List.splitOn_append_cons_self, ih (List.cons_ne_nil _ _)]
      rfl

theorem intercalate_eq_iff {parts parts' : List (List α)} (h : parts ≠ []) (h' : parts' ≠ []) :
    [sep].intercalate parts = [sep].intercalate parts' ↔
      parts.flatMap (List.splitOn sep) = parts'.flatMap (List.splitOn sep) := by
  rw [← splitOn_intercalate_flatMap h, ← splitOn_intercalate_flatMap h']
  constructor
  · exact congrArg _
  · intro heq
    have hback : ∀ l : List α, [sep].intercalate (l.splitOn sep) = l := fun _ =>
      List.intercalate_splitOn sep
    rw [← hback ([sep].intercalate parts), heq, hback]

theorem splitOn_append_of_not_mem {start xs : List α} (h : sep ∉ start) :
    (start ++ xs).splitOn sep = (xs.splitOn sep).modifyHead (start ++ ·) := by
  induction start with
  | nil =>
    show xs.splitOn sep = (xs.splitOn sep).modifyHead id
    rw [List.modifyHead_id, id]
  | cons x start ih =>
    rw [List.mem_cons, not_or] at h
    obtain ⟨hx, hstart⟩ := h
    rw [List.cons_append, List.splitOn_cons_eq_if_modifyHead,
      if_neg (by simpa using Ne.symm hx), ih hstart, List.modifyHead_modifyHead]
    rfl

theorem not_mem_of_mem_splitOn {xs part : List α} (h : part ∈ xs.splitOn sep) : sep ∉ part := by
  induction xs generalizing part with
  | nil =>
    obtain rfl := List.mem_singleton.mp h
    exact List.not_mem_nil
  | cons y xs ih =>
    rw [List.splitOn_cons_eq_if_modifyHead] at h
    split at h
    · rcases List.mem_cons.mp h with rfl | h
      · exact List.not_mem_nil
      · exact ih h
    · rename_i hne
      cases hparts : xs.splitOn sep with
      | nil => exact absurd hparts (List.splitOn_ne_nil sep xs)
      | cons p ps =>
        rw [hparts, List.modifyHead_cons] at h
        rcases List.mem_cons.mp h with rfl | h
        · have hp : sep ∉ p := ih (by rw [hparts]; exact List.mem_cons_self)
          simp only [List.mem_cons, not_or]
          exact ⟨fun heq => hne (by simp [heq]), hp⟩
        · exact ih (by rw [hparts]; exact List.mem_cons_of_mem p h)

theorem exists_mem_splitOn {xs : List α} {a : α} (h : a ∈ xs) (ha : a ≠ sep) :
    ∃ part ∈ xs.splitOn sep, a ∈ part := by
  induction xs with
  | nil => cases h
  | cons x xs ih =>
    rw [List.splitOn_cons_eq_if_modifyHead]
    cases hsplit : xs.splitOn sep with
    | nil => exact absurd hsplit (List.splitOn_ne_nil sep xs)
    | cons p ps =>
      rw [hsplit] at ih
      rcases List.mem_cons.mp h with rfl | h
      · rw [if_neg (by simpa using ha)]
        exact ⟨a :: p, by simp, by simp⟩
      · obtain ⟨part, hpart, hmem⟩ := ih h
        split
        · exact ⟨part, List.mem_cons_of_mem _ hpart, hmem⟩
        · rcases List.mem_cons.mp hpart with rfl | hpart
          · exact ⟨x :: part, by simp, by simp [hmem]⟩
          · exact ⟨part, by simp [hpart], hmem⟩

/-! ### Trimmed pieces -/

section Trimmed

variable {p : α → Bool} {parts : List (List α)}

/-- A list without what satisfies `p` at its two ends. -/
def trimEnds (p : α → Bool) (xs : List α) : List α := (xs.dropWhile p).rdropWhile p

/-- The pieces of a list between separators, trimmed, without those that are then empty. -/
def trimmedPieces (sep : α) (p : α → Bool) (xs : List α) : List (List α) :=
  ((xs.splitOn sep).map (trimEnds p)).filter (· ≠ [])

/-- A list that trimming, splitting and dropping empty pieces leave as it is. -/
structure TrimmedPiece (sep : α) (p : α → Bool) (part : List α) : Prop where
  trimmed : trimEnds p part = part
  nonempty : part ≠ []
  whole : sep ∉ part

omit [DecidableEq α] in
theorem mem_of_mem_trimEnds {xs : List α} {x : α} (h : x ∈ trimEnds p xs) : x ∈ xs :=
  (List.dropWhile_sublist p).subset ((List.rdropWhile_prefix p _).subset h)

omit [DecidableEq α] in
theorem trimEnds_eq_nil_iff {xs : List α} : trimEnds p xs = [] ↔ ∀ x ∈ xs, p x = true := by
  rw [trimEnds, List.rdropWhile_eq_nil_iff]
  constructor
  · intro h x hx
    rw [← List.takeWhile_append_dropWhile (p := p) (l := xs), List.mem_append] at hx
    rcases hx with hx | hx
    · exact List.mem_takeWhile_imp hx
    · exact h x hx
  · intro h x hx
    exact h x ((List.dropWhile_sublist p).subset hx)

omit [DecidableEq α] in
theorem trimEnds_trimEnds (xs : List α) : trimEnds p (trimEnds p xs) = trimEnds p xs := by
  -- the front of what is left is the front of `xs.dropWhile p`, which `p` does not hold of
  have hfront : (trimEnds p xs).dropWhile p = trimEnds p xs := by
    rw [List.dropWhile_eq_self_iff]
    intro hl
    have hpre : trimEnds p xs <+: xs.dropWhile p := List.rdropWhile_prefix p _
    have hhead := List.dropWhile_eq_self_iff.mp (List.dropWhile_idempotent p xs)
      (hl.trans_le hpre.length_le)
    rw [hpre.getElem hl]
    exact hhead
  rw [trimEnds, hfront]
  exact List.rdropWhile_idempotent p _

theorem trimmedPiece_of_mem {xs part : List α} (h : part ∈ trimmedPieces sep p xs) :
    TrimmedPiece sep p part := by
  obtain ⟨hmem, hne⟩ := List.mem_filter.mp h
  obtain ⟨piece, hpiece, rfl⟩ := List.mem_map.mp hmem
  refine ⟨trimEnds_trimEnds piece, of_decide_eq_true hne, fun hsep => ?_⟩
  exact not_mem_of_mem_splitOn hpiece (mem_of_mem_trimEnds hsep)

theorem trimmedPieces_intercalate (h : ∀ part ∈ parts, TrimmedPiece sep p part) :
    trimmedPieces sep p ([sep].intercalate parts) = parts := by
  cases hparts : parts with
  | nil => rfl
  | cons part rest =>
    have hne : parts ≠ [] := hparts ▸ List.cons_ne_nil part rest
    rw [← hparts, trimmedPieces,
      List.splitOn_intercalate sep (fun part hpart => (h part hpart).whole) hne,
      List.map_congr_left fun part hpart => (h part hpart).trimmed, List.map_id']
    exact List.filter_eq_self.mpr fun part hpart => decide_eq_true (h part hpart).nonempty

end Trimmed
