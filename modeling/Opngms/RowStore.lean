/-
Opngms/RowStore.lean

Tables of rows addressed by uuid, edited by scripts and restored by inverse
scripts.

A `RowStore` holds rows in tables; a new row gets a uuid that was never issued
before.  A script is a list of edits (`add`, `set`, `del`); a `set` of a row
that is not there is refused, and a refusal ends the script.

`undo` walks a script in its own order and replaces each edit by its inverse:
an `add` by the `del` of the row it created, where that is known, a `set` by a
`set` to the prior fields, a `del` by an `add` of the prior row.  The inverse of
a script of which only a part ran is the inverse of the whole script, so it
restores the store only where the accounts agree.  **`restores_iff`** says when:
what ran removed must be what the inverse adds again and what it leaves behind
of the added rows, and every row that was changed and is still there must be
set back before the inverse is refused.
-/
import Mathlib.Data.List.Nodup
import Mathlib.Data.List.Pairwise
import Mathlib.Data.List.Perm.Subperm
import Mathlib.Data.List.TakeWhile

/-- A row: its uuid, the table it is in and its fields. -/
structure Row (U Γ Φ : Type) where
  uuid : U
  table : Γ
  fields : Φ
  deriving DecidableEq

/-- An edit of one row. -/
inductive Edit (U Γ Φ : Type) where
  | add (table : Γ) (fields : Φ)
  | set (table : Γ) (uuid : U) (change : Φ → Φ)
  | del (table : Γ) (uuid : U)

/-- Rows with distinct uuids, each issued. -/
structure RowStore (U Γ Φ : Type) where
  rows : List (Row U Γ Φ)
  issued : List U
  distinct : (rows.map Row.uuid).Nodup
  known : ∀ r ∈ rows, r.uuid ∈ issued

/-- A supply of uuids: never one that was issued. -/
structure Supply (U : Type) where
  pick : List U → U
  fresh : ∀ issued, pick issued ∉ issued

variable {U Γ Φ : Type}

def Row.content (r : Row U Γ Φ) : Γ × Φ := (r.table, r.fields)

/-! ### Scripts -/

def Edit.named : Edit U Γ Φ → Option U
  | add _ _ => none
  | set _ u _ => some u
  | del _ u => some u

/-- A script names only uuids of `I`. -/
def Within (I : List U) (es : List (Edit U Γ Φ)) : Prop :=
  ∀ e ∈ es, ∀ u, e.named = some u → u ∈ I

def adds : List (Edit U Γ Φ) → List (Γ × Φ)
  | [] => []
  | .add γ φ :: es => (γ, φ) :: adds es
  | .set _ _ _ :: es => adds es
  | .del _ _ :: es => adds es

section Issue

variable (ν : Supply U)

def newRows (I : List U) : List (Edit U Γ Φ) → List (Row U Γ Φ)
  | [] => []
  | .add γ φ :: es => ⟨ν.pick I, γ, φ⟩ :: newRows (ν.pick I :: I) es
  | .set _ _ _ :: es => newRows I es
  | .del _ _ :: es => newRows I es

/-- The uuid each edit of a script creates. -/
def created (I : List U) : List (Edit U Γ Φ) → List (Option U)
  | [] => []
  | .add _ _ :: es => some (ν.pick I) :: created (ν.pick I :: I) es
  | .set _ _ _ :: es => none :: created I es
  | .del _ _ :: es => none :: created I es

/-- The uuids issued after a script. -/
def issuedAfter (I : List U) : List (Edit U Γ Φ) → List U
  | [] => I
  | .add _ _ :: es => issuedAfter (ν.pick I :: I) es
  | .set _ _ _ :: es => issuedAfter I es
  | .del _ _ :: es => issuedAfter I es

end Issue

variable {ν : Supply U} {I J : List U} {e : Edit U Γ Φ} {es es' : List (Edit U Γ Φ)}

theorem Within.mono (h : Within I es) (hIJ : I ⊆ J) : Within J es :=
  fun e he u hu => hIJ (h e he u hu)

theorem Within.tail (h : Within I (e :: es)) : Within I es :=
  fun e' he' => h e' (List.mem_cons_of_mem _ he')

theorem adds_append : adds (es ++ es') = adds es ++ adds es' := by
  induction es with
  | nil => rfl
  | cons e es ih => cases e <;> simp [adds, ih]

theorem newRows_content : (newRows ν I es).map Row.content = adds es := by
  induction es generalizing I with
  | nil => rfl
  | cons e es ih => cases e <;> simp [newRows, adds, ih, Row.content]

theorem newRows_append :
    newRows ν I (es ++ es') = newRows ν I es ++ newRows ν (issuedAfter ν I es) es' := by
  induction es generalizing I with
  | nil => rfl
  | cons e es ih => cases e <;> simp [newRows, issuedAfter, ih]

theorem subset_issuedAfter (I : List U) (es : List (Edit U Γ Φ)) : I ⊆ issuedAfter ν I es := by
  induction es generalizing I with
  | nil => exact fun _ hu => hu
  | cons e es ih =>
    cases e with
    | add γ φ => exact fun u hu => ih _ (List.mem_cons_of_mem _ hu)
    | set γ u f => exact ih I
    | del γ u => exact ih I

theorem newRows_fresh {r : Row U Γ Φ} (h : r ∈ newRows ν I es) :
    r.uuid ∉ I ∧ r.uuid ∈ issuedAfter ν I es := by
  induction es generalizing I with
  | nil => cases h
  | cons e es ih =>
    cases e with
    | add γ φ =>
      rcases List.mem_cons.mp h with rfl | h
      · exact ⟨ν.fresh I, subset_issuedAfter _ es List.mem_cons_self⟩
      · obtain ⟨hnot, hmem⟩ := ih h
        exact ⟨fun hI => hnot (List.mem_cons_of_mem _ hI), hmem⟩
    | set γ u f => exact ih h
    | del γ u => exact ih h

/-! ### Inverse scripts -/

/-- How a store takes fields in: for a new row of a table, and over those of a
row. -/
structure Intake (Γ Φ : Type) where
  renew : Γ → Φ → Φ
  merge : Φ → Φ → Φ

/-- What an inverse script is made from: the prior fields of a row by its uuid,
and how the store takes them. -/
structure Prior (U Γ Φ : Type) extends Intake Γ Φ where
  fields : U → Option Φ

/-- The inverse of one edit, from the prior fields and the uuid it created. -/
def Edit.undo (P : Prior U Γ Φ) : Edit U Γ Φ → Option U → List (Edit U Γ Φ)
  | add γ _, c => c.toList.map (del γ)
  | set γ u _, _ => (P.fields u).toList.map fun φ => set γ u (P.merge φ)
  | del γ u, _ => (P.fields u).toList.map fun φ => add γ (P.renew γ φ)

/-- The inverse of a script: its edits in their order, each inverted. -/
def undo (P : Prior U Γ Φ) : List (Edit U Γ Φ) → List (Option U) → List (Edit U Γ Φ)
  | [], _ => []
  | e :: es, cs => e.undo P (cs.headD none) ++ undo P es cs.tail

/-- The rows that the inverse of a script adds again. -/
def readded (P : Prior U Γ Φ) : List (Edit U Γ Φ) → List (Γ × Φ)
  | [] => []
  | .add _ _ :: es => readded P es
  | .set _ _ _ :: es => readded P es
  | .del γ u :: es => (P.fields u).toList.map (fun φ => (γ, P.renew γ φ)) ++ readded P es

section Undo

variable {P : Prior U Γ Φ} {cs : List (Option U)}

theorem adds_undo : adds (undo P es cs) = readded P es := by
  induction es generalizing cs with
  | nil => rfl
  | cons e es ih =>
    rw [undo, adds_append, ih]
    cases e with
    | add γ φ => cases cs.headD none <;> rfl
    | set γ u f => cases h : P.fields u <;> simp [Edit.undo, readded, adds, h]
    | del γ u => cases h : P.fields u <;> simp [Edit.undo, readded, adds, h]

theorem Edit.undo_named {e d : Edit U Γ Φ} {c : Option U} {u : U} (hd : d ∈ e.undo P c)
    (hu : d.named = some u) : e.named = some u ∨ c = some u := by
  cases e with
  | add γ φ =>
    obtain ⟨v, hv, rfl⟩ := List.mem_map.mp hd
    exact .inr ((Option.mem_toList.mp hv).trans hu)
  | set γ v f =>
    obtain ⟨φ, -, rfl⟩ := List.mem_map.mp hd
    exact .inl hu
  | del γ v =>
    obtain ⟨φ, -, rfl⟩ := List.mem_map.mp hd
    cases hu

theorem within_undo (h : Within I es) (hc : ∀ u, some u ∈ cs → u ∈ I) :
    Within I (undo P es cs) := by
  induction es generalizing cs with
  | nil => nofun
  | cons e es ih =>
    intro d hd u hu
    rcases List.mem_append.mp hd with hd | hd
    · rcases Edit.undo_named hd hu with hn | hn
      · exact h e List.mem_cons_self u hn
      · cases cs with
        | nil => cases hn
        | cons c cs =>
          have hc₀ : c = some u := hn
          exact hc u (hc₀ ▸ List.mem_cons_self)
    · exact ih h.tail (fun u hu => hc u (List.mem_of_mem_tail hu)) d hd u hu

theorem created_picked {u : U} (h : some u ∈ created ν I es) : ∃ J, u = ν.pick J := by
  induction es generalizing I with
  | nil => cases h
  | cons e es ih =>
    cases e with
    | add γ φ =>
      rcases List.mem_cons.mp h with h | h
      · exact ⟨I, Option.some.inj h⟩
      · exact ih h
    | set γ v f => exact ih ((List.mem_cons.mp h).resolve_left nofun)
    | del γ v => exact ih ((List.mem_cons.mp h).resolve_left nofun)

theorem created_issued {u : U} (h : some u ∈ created ν I es) :
    u ∉ I ∧ u ∈ issuedAfter ν I es := by
  induction es generalizing I with
  | nil => cases h
  | cons e es ih =>
    cases e with
    | add γ φ =>
      rcases List.mem_cons.mp h with h | h
      · cases h
        exact ⟨ν.fresh I, subset_issuedAfter _ es List.mem_cons_self⟩
      · obtain ⟨hnot, hmem⟩ := ih h
        exact ⟨fun hI => hnot (List.mem_cons_of_mem _ hI), hmem⟩
    | set γ u f => exact ih ((List.mem_cons.mp h).resolve_left nofun)
    | del γ u => exact ih ((List.mem_cons.mp h).resolve_left nofun)

theorem undo_append_created (es' : List (Edit U Γ Φ)) :
    undo P es (created ν I (es ++ es')) = undo P es (created ν I es) := by
  induction es generalizing I with
  | nil => rfl
  | cons e es ih => cases e <;> simp [undo, created, ih]

end Undo

/-! ### The fate of a row -/

section Fate

variable [DecidableEq U] [DecidableEq Γ]

def Row.is (r : Row U Γ Φ) (γ : Γ) (u : U) : Bool := decide (r.table = γ ∧ r.uuid = u)

theorem Row.is_iff {r : Row U Γ Φ} {γ : Γ} {u : U} : r.is γ u = true ↔ r.table = γ ∧ r.uuid = u :=
  decide_eq_true_iff

namespace Edit

def removes : Edit U Γ Φ → Row U Γ Φ → Bool
  | del γ u, r => r.is γ u
  | _, _ => false

def sets : Edit U Γ Φ → Row U Γ Φ → Bool
  | set γ u _, r => r.is γ u
  | _, _ => false

def patch : Edit U Γ Φ → Row U Γ Φ → Row U Γ Φ
  | set γ u f, r => if r.is γ u then { r with fields := f r.fields } else r
  | _, r => r

@[simp] theorem patch_uuid (e : Edit U Γ Φ) (r : Row U Γ Φ) : (e.patch r).uuid = r.uuid := by
  cases e with
  | add γ φ => rfl
  | del γ u => rfl
  | set γ u f =>
    rw [patch]
    split <;> rfl

@[simp] theorem patch_table (e : Edit U Γ Φ) (r : Row U Γ Φ) : (e.patch r).table = r.table := by
  cases e with
  | add γ φ => rfl
  | del γ u => rfl
  | set γ u f =>
    rw [patch]
    split <;> rfl

end Edit

/-- What a script makes of a row; `none` where it removes the row. -/
def fate : List (Edit U Γ Φ) → Row U Γ Φ → Option (Row U Γ Φ)
  | [], r => some r
  | e :: es, r => if e.removes r then none else fate es (e.patch r)

theorem fate_append (es es' : List (Edit U Γ Φ)) (r : Row U Γ Φ) :
    fate (es ++ es') r = (fate es r).bind (fate es') := by
  induction es generalizing r with
  | nil => rfl
  | cons e es ih => cases h : e.removes r <;> simp [fate, h, ih]

theorem fate_keeps {r r' : Row U Γ Φ} (h : fate es r = some r') :
    r'.uuid = r.uuid ∧ r'.table = r.table := by
  induction es generalizing r with
  | nil =>
    cases h
    exact ⟨rfl, rfl⟩
  | cons e es ih =>
    rw [fate] at h
    split at h
    · cases h
    · obtain ⟨hu, ht⟩ := ih h
      exact ⟨hu.trans (e.patch_uuid r), ht.trans (e.patch_table r)⟩

theorem fate_of_unnamed {r : Row U Γ Φ} (h : ∀ e ∈ es, e.named ≠ some r.uuid) :
    fate es r = some r := by
  induction es with
  | nil => rfl
  | cons e es ih =>
    have he := h e List.mem_cons_self
    have hnot : ∀ γ u, some u ≠ some r.uuid → r.is γ u = false := fun γ u hu =>
      decide_eq_false fun hr => hu (congrArg some hr.2.symm)
    have hrem : e.removes r = false := by
      cases e with
      | add γ φ => rfl
      | set γ u f => rfl
      | del γ u => exact hnot γ u he
    have hpatch : e.patch r = r := by
      cases e with
      | add γ φ => rfl
      | del γ u => rfl
      | set γ u f => rw [Edit.patch, hnot γ u he, if_neg Bool.false_ne_true]
    rw [fate, hrem, if_neg Bool.false_ne_true, hpatch]
    exact ih fun e' he' => h e' (List.mem_cons_of_mem _ he')

theorem fate_of_within {r : Row U Γ Φ} (h : Within I es) (hr : r.uuid ∉ I) :
    fate es r = some r :=
  fate_of_unnamed fun e he hn => hr (h e he r.uuid hn)

/-! ### The store -/

namespace RowStore

def has (S : RowStore U Γ Φ) (γ : Γ) (u : U) : Bool := S.rows.any fun r => r.is γ u

/-- The fields stored under a uuid, in whichever table. -/
def prior (S : RowStore U Γ Φ) (u : U) : Option Φ :=
  (S.rows.find? fun r => decide (r.uuid = u)).map Row.fields

def past (S : RowStore U Γ Φ) (κ : Intake Γ Φ) : Prior U Γ Φ := { κ with fields := S.prior }

/-- One edit; a `set` of an absent row does nothing. -/
def edit (ν : Supply U) (S : RowStore U Γ Φ) : Edit U Γ Φ → RowStore U Γ Φ
  | .add γ φ =>
    { rows := S.rows ++ [⟨ν.pick S.issued, γ, φ⟩]
      issued := ν.pick S.issued :: S.issued
      distinct := by
        rw [List.map_append, List.nodup_append]
        refine ⟨S.distinct, List.nodup_singleton _, ?_⟩
        rintro a ha b hb rfl
        obtain ⟨r, hr, rfl⟩ := List.mem_map.mp ha
        rw [List.map_singleton, List.mem_singleton] at hb
        have hfresh : r.uuid = ν.pick S.issued := hb
        exact ν.fresh S.issued (hfresh ▸ S.known r hr)
      known := by
        intro r hr
        rcases List.mem_append.mp hr with hr | hr
        · exact List.mem_cons_of_mem _ (S.known r hr)
        · rw [List.mem_singleton.mp hr]
          exact List.mem_cons_self }
  | .set γ u f =>
    { rows := S.rows.map (Edit.set γ u f).patch
      issued := S.issued
      distinct := by
        rw [List.map_map]
        exact (congrArg List.Nodup (List.map_congr_left fun r _ => Edit.patch_uuid _ r)).mpr S.distinct
      known := by
        intro r hr
        obtain ⟨r₀, h₀, rfl⟩ := List.mem_map.mp hr
        rw [Edit.patch_uuid]
        exact S.known r₀ h₀ }
  | .del γ u =>
    { rows := S.rows.filter fun r => !r.is γ u
      issued := S.issued
      distinct := S.distinct.sublist (List.filter_sublist.map _)
      known := fun r hr => S.known r (List.mem_of_mem_filter hr) }

/-- The store refuses to set a row that is not there. -/
def refuses (S : RowStore U Γ Φ) : Edit U Γ Φ → Bool
  | .set γ u _ => !S.has γ u
  | _ => false

/-- A script, refused nowhere. -/
def edits (ν : Supply U) (S : RowStore U Γ Φ) (es : List (Edit U Γ Φ)) : RowStore U Γ Φ :=
  es.foldl (edit ν) S

/-- The part of a script before its first refusal. -/
def accepted (ν : Supply U) (S : RowStore U Γ Φ) : List (Edit U Γ Φ) → List (Edit U Γ Φ)
  | [] => []
  | e :: es => if S.refuses e then [] else e :: accepted ν (S.edit ν e) es

variable {S T : RowStore U Γ Φ} {r r' : Row U Γ Φ}

omit [DecidableEq U] [DecidableEq Γ] in
theorem row_unique (hr : r ∈ S.rows) (hr' : r' ∈ S.rows) (h : r.uuid = r'.uuid) : r = r' :=
  List.inj_on_of_nodup_map S.distinct hr hr' h

omit [DecidableEq Γ] in
theorem prior_of_mem (hr : r ∈ S.rows) : S.prior r.uuid = some r.fields := by
  unfold prior
  cases h : S.rows.find? fun r' => decide (r'.uuid = r.uuid) with
  | none => exact absurd (decide_eq_true rfl) (List.find?_eq_none.mp h r hr)
  | some r' =>
    have hu : r'.uuid = r.uuid := of_decide_eq_true (List.find?_some h :)
    rw [row_unique (List.mem_of_find?_eq_some h) hr hu]
    rfl

omit [DecidableEq Γ] in
theorem mem_of_prior {u : U} {φ : Φ} (h : S.prior u = some φ) : u ∈ S.rows.map Row.uuid := by
  obtain ⟨r, hr, -⟩ := Option.map_eq_some_iff.mp h
  have hu : r.uuid = u := of_decide_eq_true (List.find?_some hr :)
  exact List.mem_map.mpr ⟨r, List.mem_of_find?_eq_some hr, hu⟩

@[simp] theorem edits_nil : S.edits ν [] = S := rfl

@[simp] theorem edits_cons : S.edits ν (e :: es) = (S.edit ν e).edits ν es := rfl

theorem edit_issued : (S.edit ν e).issued = issuedAfter ν S.issued [e] := by
  cases e <;> rfl

theorem edits_issued : (S.edits ν es).issued = issuedAfter ν S.issued es := by
  induction es generalizing S with
  | nil => rfl
  | cons e es ih =>
    rw [edits_cons, ih]
    cases e <;> rfl

theorem edit_rows : (S.edit ν e).rows = S.rows.filterMap (fate [e]) ++ newRows ν S.issued [e] := by
  cases e with
  | add γ φ =>
    have h : S.rows.filterMap (fate [.add γ φ]) = S.rows := List.filterMap_some
    rw [h]
    rfl
  | set γ u f =>
    rw [newRows, newRows, List.append_nil]
    exact (congrFun List.filterMap_eq_map' S.rows).symm
  | del γ u =>
    rw [newRows, newRows, List.append_nil]
    have h : ∀ r ∈ S.rows, fate [.del γ u] r = Option.guard (fun r => !r.is γ u) r := by
      intro r _
      cases hr : r.is γ u <;> simp [fate, Edit.removes, Edit.patch, Option.guard, hr]
    rw [List.filterMap_congr h, List.filterMap_eq_filter]
    rfl

theorem edits_rows (h : Within S.issued es) :
    (S.edits ν es).rows = S.rows.filterMap (fate es) ++ newRows ν S.issued es := by
  induction es generalizing S with
  | nil =>
    rw [newRows, List.append_nil]
    exact List.filterMap_some.symm
  | cons e es ih =>
    have hI : S.issued ⊆ (S.edit ν e).issued := by
      rw [edit_issued]
      exact subset_issuedAfter _ _
    have hold : (S.rows.filterMap (fate [e])).filterMap (fate es) = S.rows.filterMap (fate (e :: es)) := by
      rw [List.filterMap_filterMap]
      exact List.filterMap_congr fun r _ => (fate_append [e] es r).symm
    have hnew : (newRows ν S.issued [e]).filterMap (fate es) = newRows ν S.issued [e] :=
      (List.filterMap_congr fun r hr => fate_of_within h.tail (newRows_fresh hr).1).trans
        List.filterMap_some
    rw [edits_cons, ih (h.tail.mono hI), edit_rows, List.filterMap_append, hold, hnew, edit_issued,
      List.append_assoc, ← newRows_append]
    rfl

/-! ### What an inverse restores -/

theorem has_edits {γ : Γ} {u : U} (h : Within S.issued es) (hu : u ∈ S.issued) :
    (S.edits ν es).has γ u = S.rows.any fun r => r.is γ u && (fate es r).isSome := by
  have hnew : (newRows ν S.issued es).any (fun r => r.is γ u) = false := by
    rw [List.any_eq_false]
    intro r hr hrow
    exact (newRows_fresh hr).1 ((Row.is_iff.1 hrow).2 ▸ hu)
  rw [has, edits_rows h, List.any_append, hnew, Bool.or_false, List.any_filterMap]
  refine List.any_congr rfl fun r => ?_
  cases hf : fate es r with
  | none => rw [Option.isSome_none, Bool.and_false]
  | some r' =>
    obtain ⟨hu', ht⟩ := fate_keeps hf
    rw [Option.isSome_some, Bool.and_true]
    exact decide_eq_decide.mpr (by rw [hu', ht])

/-- A `set` of a row that the store had not, or that the part that ran
removed. -/
def blocked (S : RowStore U Γ Φ) (ran : List (Edit U Γ Φ)) : Edit U Γ Φ → Bool
  | .set γ u _ => !S.rows.any fun r => r.is γ u && (fate ran r).isSome
  | _ => false

/-- The edits whose inverses are carried out. -/
def reach (S : RowStore U Γ Φ) (ran script : List (Edit U Γ Φ)) : List (Edit U Γ Φ) :=
  script.takeWhile fun e => !S.blocked ran e

/-- The added rows that the inverse leaves behind: of a completed script those
it does not come to, of a broken one all. -/
def leftover (S : RowStore U Γ Φ) (ran script : List (Edit U Γ Φ)) (completed : Bool) :
    List (Γ × Φ) :=
  if completed then adds (script.drop (S.reach ran script).length) else adds ran

/-- The accounts of a script of which `ran` was carried out, and of its
inverse: every row that was changed and not removed is set back, and what was
removed is what is left behind and what is added again. -/
structure Accounts (S : RowStore U Γ Φ) (κ : Intake Γ Φ) (ran script : List (Edit U Γ Φ))
    (completed : Bool) : Prop where
  setBack : ∀ r ∈ S.rows, ∀ r', fate ran r = some r' →
    r' = r ∨ (S.reach ran script).any (·.sets r) = true
  ledger : ((S.rows.filter fun r => (fate ran r).isNone).map Row.content).Perm
    (S.leftover ran script completed ++ readded (S.past κ) (S.reach ran script))

/-- The store `T` holds what `S` holds: a row that kept its uuid is the same,
and apart from uuids the rows are the same. -/
structure Restores (S T : RowStore U Γ Φ) : Prop where
  kept : ∀ r ∈ T.rows, r.uuid ∈ S.rows.map Row.uuid → r ∈ S.rows
  same : (T.rows.map Row.content).Perm (S.rows.map Row.content)

theorem refuses_edit {d : Edit U Γ Φ} (hI : I ⊆ T.issued) (hd : ∀ u, d.named = some u → u ∈ T.issued)
    (hdel : ∀ γ u, d = .del γ u → u ∉ I) (he : ∀ u, e.named = some u → u ∈ I) :
    (T.edit ν d).refuses e = T.refuses e := by
  cases e with
  | add γ φ => rfl
  | del γ u => rfl
  | set γ u f =>
    have hw : Within T.issued [d] := fun e he u hu => hd u (List.mem_singleton.mp he ▸ hu)
    have hu : u ∈ I := he u rfl
    have hhas : (T.edits ν [d]).has γ u = T.has γ u := by
      rw [has_edits hw (hI hu)]
      refine List.any_congr rfl fun r => ?_
      cases hr : r.is γ u with
      | false => rfl
      | true =>
        have hrem : d.removes r = false := by
          cases d with
          | add γ φ => rfl
          | set γ u f => rfl
          | del γ' u' =>
            refine decide_eq_false fun h => hdel γ' u' rfl ?_
            rw [← h.2, (Row.is_iff.1 hr).2]
            exact hu
        simp [fate, hrem]
    exact congrArg (!·) hhas

/-- The inverse of a script is carried out up to the first `set` that is
refused. -/
theorem accepted_undo {P : Prior U Γ Φ} {b : Edit U Γ Φ → Bool} {cs : List (Option U)}
    (hI : I ⊆ T.issued) (hes : Within I es) (hb : ∀ e ∈ es, T.refuses e = b e)
    (hprior : ∀ u ∈ I, ∀ e ∈ es, e.named = some u → (P.fields u).isSome)
    (hcs : ∀ u, some u ∈ cs → u ∉ I ∧ u ∈ T.issued) :
    T.accepted ν (undo P es cs) = undo P (es.takeWhile fun e => !b e) cs := by
  induction es generalizing T cs with
  | nil => rfl
  | cons e es ih =>
    have hes' : Within I es := hes.tail
    have hprior' : ∀ u ∈ I, ∀ e ∈ es, e.named = some u → (P.fields u).isSome :=
      fun u hu e' he' => hprior u hu e' (List.mem_cons_of_mem _ he')
    have hcs' : ∀ u, some u ∈ cs.tail → u ∉ I ∧ u ∈ T.issued :=
      fun u hu => hcs u (List.mem_of_mem_tail hu)
    have hbe : T.refuses e = b e := hb e List.mem_cons_self
    have hb' : ∀ e ∈ es, T.refuses e = b e := fun e' he' => hb e' (List.mem_cons_of_mem _ he')
    -- an inverse edit that is not refused leaves the rest as it was
    have hstep : ∀ d : Edit U Γ Φ, T.refuses d = false →
        (∀ u, d.named = some u → u ∈ T.issued) → (∀ γ u, d = .del γ u → u ∉ I) →
        T.accepted ν (d :: undo P es cs.tail) =
          d :: undo P (es.takeWhile fun e => !b e) cs.tail := by
      intro d hd hn hdel
      have hsub : T.issued ⊆ (T.edit ν d).issued := by
        rw [edit_issued]
        exact subset_issuedAfter _ _
      rw [accepted, hd, if_neg Bool.false_ne_true]
      refine congrArg (d :: ·) (ih (fun _ hu => hsub (hI hu)) hes' ?_ hprior' ?_)
      · intro e' he'
        rw [refuses_edit hI hn hdel (hes' e' he')]
        exact hb' e' he'
      · exact fun u hu => ⟨(hcs' u hu).1, hsub (hcs' u hu).2⟩
    cases e with
    | add γ φ =>
      rw [List.takeWhile_cons, ← hbe]
      cases cs with
      | nil => exact ih hI hes' hb' hprior' hcs'
      | cons c cs =>
        cases c with
        | none => exact ih hI hes' hb' hprior' hcs'
        | some u =>
          obtain ⟨hnot, hmem⟩ := hcs u List.mem_cons_self
          exact hstep (.del γ u) rfl (fun _ h => Option.some.inj h ▸ hmem)
            (fun _ _ h => (Edit.del.inj h).2 ▸ hnot)
    | set γ u f =>
      have hu : u ∈ I := hes _ List.mem_cons_self u rfl
      obtain ⟨φ, hφ⟩ := Option.isSome_iff_exists.mp (hprior u hu _ List.mem_cons_self rfl)
      have hundo : undo P (.set γ u f :: es) cs =
          .set γ u (P.merge φ) :: undo P es cs.tail := by
        simp [undo, Edit.undo, hφ]
      have hsame : T.refuses (.set γ u (P.merge φ)) = b (.set γ u f) := hbe
      rw [hundo, List.takeWhile_cons]
      cases hr : b (.set γ u f) with
      | true =>
        rw [accepted, hsame, hr]
        rfl
      | false =>
        rw [hstep _ (hsame.trans hr) (fun _ h => Option.some.inj h ▸ hI hu) nofun]
        simp [undo, Edit.undo, hφ]
    | del γ u =>
      have hu : u ∈ I := hes _ List.mem_cons_self u rfl
      obtain ⟨φ, hφ⟩ := Option.isSome_iff_exists.mp (hprior u hu _ List.mem_cons_self rfl)
      have hundo : undo P (.del γ u :: es) cs = .add γ (P.renew γ φ) :: undo P es cs.tail := by
        simp [undo, Edit.undo, hφ]
      rw [hundo, List.takeWhile_cons, ← hbe, hstep (.add γ (P.renew γ φ)) rfl nofun nofun]
      simp [undo, Edit.undo, hφ, refuses]

/-- The inverse sets back the rows its script sets, and removes none of the
old ones. -/
theorem fate_undo {P : Prior U Γ Φ} {cs : List (Option U)} {φ : Φ}
    (hφ : P.fields r.uuid = some φ) (hself : P.merge φ φ = φ) (hrow : P.merge φ r.fields = φ)
    (hcs : some r.uuid ∉ cs) :
    fate (undo P es cs) r =
      some (if es.any (·.sets r) then { r with fields := φ } else r) := by
  induction es generalizing r cs with
  | nil => rfl
  | cons e es ih =>
    have htail : some r.uuid ∉ cs.tail := fun h => hcs (List.mem_of_mem_tail h)
    rw [undo, fate_append]
    cases e with
    | add γ φ' =>
      have hnot : fate (Edit.undo P (.add γ φ') (cs.headD none)) r = some r := by
        refine fate_of_unnamed fun d hd hn => ?_
        rcases Edit.undo_named hd hn with h | h
        · cases h
        · cases cs with
          | nil => cases h
          | cons c cs =>
            have hc : c = some r.uuid := h
            exact hcs (hc ▸ List.mem_cons_self)
      rw [hnot]
      exact ih hφ hrow htail
    | del γ u =>
      have hnot : fate (Edit.undo P (.del γ u) (cs.headD none)) r = some r := by
        refine fate_of_unnamed fun d hd hn => ?_
        obtain ⟨φ', -, rfl⟩ := List.mem_map.mp hd
        cases hn
      rw [hnot]
      exact ih hφ hrow htail
    | set γ u f =>
      cases hr : r.is γ u with
      | false =>
        have hnot : fate (Edit.undo P (.set γ u f) (cs.headD none)) r = some r := by
          cases hu : P.fields u <;> simp [Edit.undo, hu, fate, Edit.removes, Edit.patch, hr]
        rw [hnot, List.any_cons]
        have hset : Edit.sets (.set γ u f) r = false := hr
        rw [hset, Bool.false_or]
        exact ih hφ hrow htail
      | true =>
        have hu : u = r.uuid := (Row.is_iff.1 hr).2.symm
        have hone : fate (Edit.undo P (.set γ u f) (cs.headD none)) r =
            some { r with fields := φ } := by
          simp [Edit.undo, hu, hφ, hrow, fate, Edit.removes, Edit.patch, (Row.is_iff.1 hr).1, Row.is]
        have hset : Edit.sets (.set γ u f) r = true := hr
        rw [hone, List.any_cons, hset, Bool.true_or, if_pos rfl]
        refine (ih (r := { r with fields := φ }) hφ hself htail).trans ?_
        split <;> rfl

theorem newRows_undo {P : Prior U Γ Φ} {es' : List (Edit U Γ Φ)} (hes : Within I es) :
    (newRows ν I (es ++ es')).filterMap (fate (undo P es (created ν I es))) =
      newRows ν (issuedAfter ν I es) es' := by
  have hgone : ∀ r ∈ newRows ν I es, fate (undo P es (created ν I es)) r = none := by
    induction es generalizing I with
    | nil => nofun
    | cons e es ih =>
      intro r hr
      -- an inverse that names an old row leaves the new ones
      have hold : ∀ d ∈ e.undo P none, d.named ≠ some r.uuid := by
        intro d hd hn
        rcases Edit.undo_named hd hn with h | h
        · exact (newRows_fresh hr).1 (hes e List.mem_cons_self _ h)
        · cases h
      rw [undo, fate_append]
      cases e with
      | add γ φ =>
        rcases List.mem_cons.mp hr with rfl | hr
        · have hself : fate [.del γ (ν.pick I)] (⟨ν.pick I, γ, φ⟩ : Row U Γ Φ) = none := by
            simp [fate, Edit.removes, Row.is]
          exact congrArg (Option.bind · _) hself
        · have hother : fate [.del γ (ν.pick I)] r = some r := by
            refine fate_of_unnamed fun d hd hn => ?_
            rw [List.mem_singleton.mp hd] at hn
            exact (newRows_fresh hr).1 (Option.some.inj hn ▸ List.mem_cons_self)
          exact (congrArg (Option.bind · _) hother).trans
            (ih (hes.tail.mono (List.subset_cons_self _ _)) r hr)
      | set γ u f => exact (congrArg (Option.bind · _) (fate_of_unnamed hold)).trans (ih hes.tail r hr)
      | del γ u => exact (congrArg (Option.bind · _) (fate_of_unnamed hold)).trans (ih hes.tail r hr)
  have hw : Within (issuedAfter ν I es) (undo P es (created ν I es)) :=
    within_undo (hes.mono (subset_issuedAfter _ _)) fun u hu => (created_issued hu).2
  have hstay : ∀ r ∈ newRows ν (issuedAfter ν I es) es',
      fate (undo P es (created ν I es)) r = some r :=
    fun r hr => fate_of_within hw (newRows_fresh hr).1
  rw [newRows_append, List.filterMap_append, List.filterMap_congr hstay, List.filterMap_some,
    List.filterMap_eq_nil_iff.mpr hgone, List.nil_append]

section Revert

variable {κ : Intake Γ Φ} {ran script : List (Edit U Γ Φ)} {completed : Bool}

/-- The uuids the inverse of a script knows: those its edits created, when it
was completed. -/
def links (ν : Supply U) (S : RowStore U Γ Φ) (script : List (Edit U Γ Φ)) (completed : Bool) :
    List (Option U) :=
  if completed then created ν S.issued script else []

/-- The store after the part of a script that ran, and the inverse of the
whole script. -/
def reverted (ν : Supply U) (S : RowStore U Γ Φ) (κ : Intake Γ Φ) (ran script : List (Edit U Γ Φ))
    (completed : Bool) : RowStore U Γ Φ :=
  (S.edits ν ran).edits ν
    ((S.edits ν ran).accepted ν (undo (S.past κ) script (S.links ν script completed)))

/-- A row after the inverse: set back if the inverse comes to a `set` of it. -/
def restored (S : RowStore U Γ Φ) (ran script : List (Edit U Γ Φ)) (r : Row U Γ Φ) :
    Option (Row U Γ Φ) :=
  (fate ran r).map fun r' => if (S.reach ran script).any (·.sets r) then r else r'

/-- Prior fields, taken over those a row now has, are the prior fields again. -/
def Recovers (S : RowStore U Γ Φ) (κ : Intake Γ Φ) (ran : List (Edit U Γ Φ)) : Prop :=
  ∀ r ∈ S.rows, κ.merge r.fields r.fields = r.fields ∧
    ∀ r', fate ran r = some r' → κ.merge r.fields r'.fields = r.fields

omit [DecidableEq U] [DecidableEq Γ] in
theorem within_issued (hnamed : ∀ e ∈ script, ∀ u, e.named = some u → u ∈ S.rows.map Row.uuid) :
    Within S.issued script := by
  intro e he u hu
  obtain ⟨r, hr, rfl⟩ := List.mem_map.mp (hnamed e he u hu)
  exact S.known r hr

omit [DecidableEq U] [DecidableEq Γ] in
theorem links_fresh (hall : completed = true → ran = script) {u : U}
    (hu : some u ∈ S.links ν script completed) :
    u ∉ S.issued ∧ u ∈ issuedAfter ν S.issued ran := by
  cases completed with
  | false => nomatch (show some u ∈ [] from hu)
  | true =>
    rw [hall rfl]
    exact created_issued hu

theorem accepted_inverse (hnamed : ∀ e ∈ script, ∀ u, e.named = some u → u ∈ S.rows.map Row.uuid)
    (hran : ran <+: script) (hall : completed = true → ran = script) :
    (S.edits ν ran).accepted ν (undo (S.past κ) script (S.links ν script completed)) =
      undo (S.past κ) (S.reach ran script) (S.links ν script completed) := by
  have hscript : Within S.issued script := within_issued hnamed
  have hw : Within S.issued ran := fun e he => hscript e (hran.subset he)
  refine accepted_undo (b := S.blocked ran) (I := S.issued) ?_ hscript ?_ ?_ ?_
  · rw [edits_issued]
    exact subset_issuedAfter _ _
  · intro e he
    cases e with
    | add γ φ => rfl
    | del γ u => rfl
    | set γ u f => exact congrArg (!·) (has_edits hw (hscript _ he u rfl))
  · intro u _ e he hu
    obtain ⟨r, hr, rfl⟩ := List.mem_map.mp (hnamed e he u hu)
    exact Option.isSome_iff_exists.mpr ⟨_, prior_of_mem hr⟩
  · intro u hu
    rw [edits_issued]
    exact links_fresh hall hu

theorem fate_inverse (hκ : S.Recovers κ ran) (hall : completed = true → ran = script)
    (hr : r ∈ S.rows) :
    (fate ran r).bind (fate (undo (S.past κ) (S.reach ran script) (S.links ν script completed))) =
      S.restored ran script r := by
  unfold restored
  cases hf : fate ran r with
  | none => rfl
  | some r' =>
    obtain ⟨hu, ht⟩ := fate_keeps hf
    have hφ : (S.past κ).fields r'.uuid = some r.fields := (congrArg S.prior hu).trans (prior_of_mem hr)
    obtain ⟨hself, hrow'⟩ := hκ r hr
    have hnot : some r'.uuid ∉ S.links ν script completed :=
      fun h => (links_fresh hall h).1 (hu ▸ S.known r hr)
    have hset : ∀ e : Edit U Γ Φ, e.sets r' = e.sets r := by
      intro e
      cases e with
      | add γ φ => rfl
      | del γ u => rfl
      | set γ u f => exact decide_eq_decide.mpr (by rw [hu, ht])
    have hrow : ({ r' with fields := r.fields } : Row U Γ Φ) = r := by
      rw [hu, ht]
    rw [Option.bind_some, Option.map_some, fate_undo hφ hself (hrow' r' hf) hnot, hrow]
    simp only [hset]

theorem leftover_rows (hscript : Within S.issued script) (hall : completed = true → ran = script) :
    ((newRows ν S.issued ran).filterMap
        (fate (undo (S.past κ) (S.reach ran script) (S.links ν script completed)))).map Row.content =
      S.leftover ran script completed := by
  obtain ⟨rest, hrest⟩ : S.reach ran script <+: script := List.takeWhile_prefix _
  unfold leftover
  generalize S.reach ran script = R at hrest
  subst hrest
  have hR : Within S.issued R := fun e he => hscript e (List.mem_append_left _ he)
  cases completed with
  | false =>
    have hstay : ∀ r ∈ newRows ν S.issued ran, fate (undo (S.past κ) R []) r = some r :=
      fun r hr => fate_of_within (within_undo hR nofun) (newRows_fresh hr).1
    exact (congrArg (List.map Row.content)
      ((List.filterMap_congr hstay).trans List.filterMap_some)).trans newRows_content
  | true =>
    rw [hall rfl, links, if_pos rfl, undo_append_created, newRows_undo hR, newRows_content,
      if_pos rfl, List.drop_left]

theorem reverted_rows (hκ : S.Recovers κ ran)
    (hnamed : ∀ e ∈ script, ∀ u, e.named = some u → u ∈ S.rows.map Row.uuid)
    (hran : ran <+: script) (hall : completed = true → ran = script) :
    ∃ new, (S.reverted ν κ ran script completed).rows =
        S.rows.filterMap (S.restored ran script) ++ new ∧
      new.map Row.content =
        S.leftover ran script completed ++ readded (S.past κ) (S.reach ran script) ∧
      ∀ r ∈ new, r.uuid ∉ S.issued := by
  have hscript : Within S.issued script := within_issued hnamed
  have hw : Within S.issued ran := fun e he => hscript e (hran.subset he)
  have hsub : S.issued ⊆ issuedAfter ν S.issued ran := subset_issuedAfter _ _
  have hreach : S.reach ran script <+: script := List.takeWhile_prefix _
  have hback : Within (S.edits ν ran).issued
      (undo (S.past κ) (S.reach ran script) (S.links ν script completed)) := by
    rw [edits_issued]
    exact within_undo (fun e he u hu => hsub (hscript e (hreach.subset he) u hu))
      fun u hu => (links_fresh hall hu).2
  refine ⟨(newRows ν S.issued ran).filterMap
      (fate (undo (S.past κ) (S.reach ran script) (S.links ν script completed))) ++
    newRows ν (S.edits ν ran).issued
      (undo (S.past κ) (S.reach ran script) (S.links ν script completed)), ?_, ?_, ?_⟩
  · rw [reverted, accepted_inverse hnamed hran hall, edits_rows hback, edits_rows hw,
      List.filterMap_append, List.filterMap_filterMap,
      List.filterMap_congr fun r hr => fate_inverse hκ hall hr, List.append_assoc]
  · rw [List.map_append, leftover_rows hscript hall, newRows_content, adds_undo]
  · intro r hr hI
    rcases List.mem_append.mp hr with hr | hr
    · obtain ⟨r₀, h₀, hf⟩ := List.mem_filterMap.mp hr
      exact (newRows_fresh h₀).1 ((fate_keeps hf).1 ▸ hI)
    · refine (newRows_fresh hr).1 ?_
      rw [edits_issued]
      exact hsub hI

theorem restored_eq (h : ∀ r', fate ran r = some r' →
    r' = r ∨ (S.reach ran script).any (·.sets r) = true) :
    S.restored ran script r = Option.guard (fun r => (fate ran r).isSome) r := by
  cases hf : fate ran r with
  | none => simp [restored, Option.guard, hf]
  | some r' =>
    rcases h r' hf with rfl | hset
    · simp [restored, Option.guard, hf]
    · simp [restored, Option.guard, hf, hset]

/-- **The inverse of a script restores the store exactly where the accounts
agree.** -/
theorem restores_iff (hκ : S.Recovers κ ran)
    (hnamed : ∀ e ∈ script, ∀ u, e.named = some u → u ∈ S.rows.map Row.uuid)
    (hran : ran <+: script) (hall : completed = true → ran = script) :
    S.Restores (S.reverted ν κ ran script completed) ↔ S.Accounts κ ran script completed := by
  obtain ⟨new, hrows, hcontent, hnew⟩ : ∃ new, _ := reverted_rows hκ hnamed hran hall
  have hkeep : (∀ r ∈ S.rows, ∀ r', fate ran r = some r' →
      r' = r ∨ (S.reach ran script).any (·.sets r) = true) →
      S.rows.filterMap (S.restored ran script) = S.rows.filter fun r => (fate ran r).isSome := by
    intro h
    rw [List.filterMap_congr fun r hr => restored_eq (h r hr), List.filterMap_eq_filter]
  have hsplit : ((S.rows.filter fun r => (fate ran r).isSome) ++
      S.rows.filter fun r => (fate ran r).isNone).Perm S.rows := by
    simpa only [Option.not_isSome] using
      List.filter_append_perm (fun r => (fate ran r).isSome) S.rows
  constructor
  · intro h
    have hback : ∀ r ∈ S.rows, ∀ r', fate ran r = some r' →
        r' = r ∨ (S.reach ran script).any (·.sets r) = true := by
      intro r hr r' hf
      cases hset : (S.reach ran script).any (·.sets r) with
      | true => exact .inr rfl
      | false =>
        have hres : S.restored ran script r = some r' := by
          rw [restored, hf, Option.map_some, hset, if_neg Bool.false_ne_true]
        have hmem : r' ∈ (S.reverted ν κ ran script completed).rows := by
          rw [hrows]
          exact List.mem_append_left _ (List.mem_filterMap.mpr ⟨r, hr, hres⟩)
        have hu := (fate_keeps hf).1
        have hmem' := h.kept r' hmem (hu ▸ List.mem_map_of_mem hr)
        exact .inl (row_unique hmem' hr hu)
    refine ⟨hback, ?_⟩
    have hsame := h.same
    rw [hrows, hkeep hback, List.map_append, hcontent] at hsame
    have hall := hsame.trans (hsplit.map Row.content).symm
    rw [List.map_append] at hall
    exact ((List.perm_append_left_iff _).mp hall).symm
  · intro h
    have hkept := hkeep h.setBack
    constructor
    · intro r hr hu
      rw [hrows, hkept] at hr
      rcases List.mem_append.mp hr with hr | hr
      · exact List.mem_of_mem_filter hr
      · obtain ⟨r₀, h₀, hu₀⟩ := List.mem_map.mp hu
        exact absurd (hu₀ ▸ S.known r₀ h₀) (hnew r hr)
    · rw [hrows, hkept, List.map_append, hcontent]
      refine List.Perm.trans ?_ (hsplit.map Row.content)
      rw [List.map_append]
      exact (List.perm_append_left_iff _).mpr h.ledger.symm

end Revert

/-! ### Scripts that meet their rows -/

section Present

variable {γ γ' : Γ} {u u' : U} {φ : Φ} {f : Φ → Φ}

/-- The row an edit addresses is there. -/
def present (S : RowStore U Γ Φ) : Edit U Γ Φ → Bool
  | .add _ _ => true
  | .set γ u _ => S.has γ u
  | .del γ u => S.has γ u

/-- Every edit of a script addresses a row that is there when its turn comes. -/
def served (ν : Supply U) (S : RowStore U Γ Φ) : List (Edit U Γ Φ) → Bool
  | [] => true
  | e :: es => S.present e && served ν (S.edit ν e) es

theorem served_append :
    S.served ν (es ++ es') = (S.served ν es && (S.edits ν es).served ν es') := by
  induction es generalizing S with
  | nil => rfl
  | cons e es ih => rw [List.cons_append, served, served, ih, edits_cons, Bool.and_assoc]

theorem edits_append : S.edits ν (es ++ es') = (S.edits ν es).edits ν es' :=
  List.foldl_append

theorem not_refuses_of_present (h : S.present e = true) : S.refuses e = false := by
  cases e with
  | add γ φ => rfl
  | set γ u f => exact congrArg (!·) h
  | del γ u => rfl

theorem has_add (h : S.has γ u = true) : (S.edit ν (.add γ' φ)).has γ u = true := by
  show (S.rows ++ _).any _ = true
  rw [List.any_append, Bool.or_eq_true]
  exact .inl h

theorem has_set : (S.edit ν (.set γ' u' f)).has γ u = S.has γ u := by
  show (S.rows.map _).any _ = S.rows.any _
  rw [List.any_map]
  refine List.any_congr rfl fun r => ?_
  simp [Row.is]

theorem has_del (h : u ≠ u') : (S.edit ν (.del γ' u')).has γ u = S.has γ u := by
  show (S.rows.filter _).any _ = S.rows.any _
  rw [List.any_filter]
  refine List.any_congr rfl fun r => ?_
  cases hr : r.is γ u with
  | false => rw [Bool.and_false]
  | true =>
    have hother : r.is γ' u' = false :=
      decide_eq_false fun hr' => h ((Row.is_iff.mp hr).2.symm.trans hr'.2)
    rw [hother]
    rfl

theorem mem_edits_of_unnamed (hr : r ∈ S.rows) (h : ∀ e ∈ es, e.named ≠ some r.uuid) :
    r ∈ (S.edits ν es).rows := by
  induction es generalizing S with
  | nil => exact hr
  | cons e es ih =>
    obtain ⟨he, hes⟩ := List.forall_mem_cons.mp h
    have hkept : fate [e] r = some r := fate_of_unnamed (List.forall_mem_singleton.mpr he)
    have hmem : r ∈ (S.edit ν e).rows := by
      rw [edit_rows]
      exact List.mem_append_left _ (List.mem_filterMap.mpr ⟨r, hr, hkept⟩)
    exact ih hmem hes

theorem edit_set_congr {g : Φ → Φ} (h : ∀ r ∈ S.rows, r.is γ u = true → f r.fields = g r.fields) :
    S.edit ν (.set γ u f) = S.edit ν (.set γ u g) := by
  have hrows : S.rows.map (Edit.set γ u f).patch = S.rows.map (Edit.set γ u g).patch := by
    refine List.map_congr_left fun r hr => ?_
    cases hrow : r.is γ u with
    | false => simp [Edit.patch, hrow]
    | true => simp [Edit.patch, hrow, h r hr hrow]
  simp only [edit, hrows]

end Present

end RowStore

end Fate
