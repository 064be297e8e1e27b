/-
Opngms/AuditQueries.lean

Reading the audit log (`AuditRepository` of repositories/audit.py): the page, the count and the
stream of an export.

Entries are joined with the email of their actor and the name of their tenant, filtered, and
ordered by (ts, id), newest first.  The filter by email puts the text that was asked for into
an `ILIKE` pattern as it is, so a `%`, a `_` or a backslash in it is no character of an email
any more.

Main result: **`exact_iff`**, by `exact_of_plain` and `not_exact_sample`.
-/
import Mathlib.Data.Prod.Lex
import Opngms.Json
import Opngms.Keyset
import Opngms.LikePatterns

namespace Opngms

namespace AuditQueries

/-! ### The tables -/

/-- A row of `audit_log`; times are microseconds. -/
structure AuditLog where
  id : Nat
  ts : Int
  actorUserId : Option Nat
  tenantId : Option Nat
  action : String
  targetType : Option String
  targetId : Option String
  ip : Option String
  details : Json

structure User where
  id : Nat
  email : String

structure Tenant where
  id : Nat
  name : String

/-- The tables that are read, with their primary keys. -/
structure Db where
  auditLog : List AuditLog
  users : List User
  tenants : List Tenant
  auditLog_ids : (auditLog.map (·.id)).Nodup
  users_ids : (users.map (·.id)).Nodup
  tenants_ids : (tenants.map (·.id)).Nodup

/-- A row of the enriched selection. -/
structure Row where
  entry : AuditLog
  email : Option String
  tenantName : Option String

/-! ### The statements -/

/-- The filters; `none` is not given. -/
structure Filters where
  actorUserId : Option Nat := none
  actorEmail : Option String := none
  tenantId : Option Nat := none
  action : Option String := none
  frm : Option Int := none
  /-- `to`. -/
  upTo : Option Int := none

def given {α : Type} (filter : Option α) (clause : α → Bool) : Bool := filter.all clause

/-- `_apply_filters`: a comparison with NULL does not hold. -/
def applyFilters (F : Like.Folding) (f : Filters) (entry : AuditLog) (email : Option String) :
    Bool :=
  given f.actorUserId (fun u => decide (entry.actorUserId = some u)) &&
  given f.actorEmail (fun text =>
    email.any fun e => Like.ilike F (Like.surround text.toList) e.toList) &&
  given f.tenantId (fun t => decide (entry.tenantId = some t)) &&
  given f.action (fun a => decide (entry.action = a)) &&
  given f.frm (fun t => decide (t ≤ entry.ts)) &&
  given f.upTo (fun t => decide (entry.ts < t))

/-- `LEFT OUTER JOIN`. -/
def outerJoin {α β : Type} (rows : List α) (table : List β) (on : α → β → Bool) :
    List (α × Option β) :=
  rows.flatMap fun a =>
    match table.filter (on a) with
    | [] => [(a, none)]
    | matching => matching.map fun b => (a, some b)

def withActor (db : Db) : List (AuditLog × Option User) :=
  outerJoin db.auditLog db.users fun entry user => decide (entry.actorUserId = some user.id)

/-- `_enriched_select`. -/
def enrichedSelect (db : Db) : List Row :=
  (outerJoin (withActor db) db.tenants fun row tenant =>
    decide (row.1.tenantId = some tenant.id)).map
    fun row => ⟨row.1.1, row.1.2.map (·.email), row.2.map (·.name)⟩

def orderKey (row : Row) : Int ×ₗ Nat := toLex (row.entry.ts, row.entry.id)

/-- The selection of the page and of the stream, in its order. -/
def selection (F : Like.Folding) (db : Db) (f : Filters) : List Row :=
  Keyset.descending orderKey
    ((enrichedSelect db).filter fun row => applyFilters F f row.entry row.email)

/-- `MAX_LIMIT`. -/
def maxLimit : Nat := 200

/-- `query`: the page and the total. -/
def query (F : Like.Folding) (db : Db) (f : Filters) (limit offset : Int) : List Row × Nat :=
  let capped := max 1 (min limit maxLimit)
  (((selection F db f).drop (max 0 offset).toNat).take capped.toNat,
    ((withActor db).filter fun row => applyFilters F f row.1 (row.2.map (·.email))).length)

/-- `stream`. -/
def stream (F : Like.Folding) (db : Db) (f : Filters) : List Row := selection F db f

/-! ### What is asked for -/

def emailOf (db : Db) (entry : AuditLog) : Option String :=
  entry.actorUserId.bind fun u => (db.users.find? fun user => user.id = u).map (·.email)

def nameOf (db : Db) (entry : AuditLog) : Option String :=
  entry.tenantId.bind fun t => (db.tenants.find? fun tenant => tenant.id = t).map (·.name)

/-- An entry satisfies the filters; the one by email means that the email of the actor
contains the text literally, up to letter case. -/
def Satisfies (F : Like.Folding) (db : Db) (f : Filters) (entry : AuditLog) : Prop :=
  (∀ u ∈ f.actorUserId, entry.actorUserId = some u) ∧
  (∀ text ∈ f.actorEmail, ∃ e ∈ emailOf db entry, Like.Contains F text.toList e.toList) ∧
  (∀ t ∈ f.tenantId, entry.tenantId = some t) ∧
  (∀ a ∈ f.action, entry.action = a) ∧
  (∀ t ∈ f.frm, t ≤ entry.ts) ∧
  (∀ t ∈ f.upTo, entry.ts < t)

/-- The reads are exact: the stream has the entries that satisfy the filters, strictly newest
first; the total is their number; the pages of any size put together are the stream. -/
structure Exact (F : Like.Folding) (db : Db) (f : Filters) : Prop where
  rows : ∀ row, row ∈ stream F db f ↔
    row.entry ∈ db.auditLog ∧ row.email = emailOf db row.entry ∧
      row.tenantName = nameOf db row.entry ∧ Satisfies F db f row.entry
  ordered : (stream F db f).Pairwise fun a b => orderKey b < orderKey a
  total : ∀ limit offset, (query F db f limit offset).2 = (stream F db f).length
  pages : ∀ n : Nat, 1 ≤ n → n ≤ maxLimit → ∀ k, (stream F db f).length ≤ k * n →
    ((List.range k).flatMap fun i => (query F db f n (i * n : Nat)).1) = stream F db f

/-! ### The joins -/

theorem outerJoin_eq {α β : Type} {rows : List α} {table : List β} {on : α → β → Bool}
    (h : ∀ a ∈ rows, (table.filter (on a)).length ≤ 1) :
    outerJoin rows table on = rows.map fun a => (a, table.find? (on a)) := by
  rw [outerJoin, ← List.flatMap_singleton' (rows.map _), List.flatMap_map]
  refine List.flatMap_congr fun a ha => ?_
  have hlen := h a ha
  rw [← List.head?_filter]
  cases hmatching : table.filter (on a) with
  | nil => rfl
  | cons b rest =>
    rw [hmatching, List.length_cons] at hlen
    obtain rfl : rest = [] := List.length_eq_zero_iff.mp (by omega)
    rfl

theorem length_filter_key_le {β κ : Type} [DecidableEq κ] {table : List β} {key : β → κ}
    (h : (table.map key).Nodup) (wanted : Option κ) :
    (table.filter fun b => decide (wanted = some (key b))).length ≤ 1 := by
  cases wanted with
  | none => simp
  | some k =>
    have hcount : (table.map key).count k ≤ 1 := List.nodup_iff_count_le_one.mp h k
    rw [List.count_eq_length_filter, List.filter_map, List.length_map] at hcount
    refine le_trans (le_of_eq (congrArg List.length (List.filter_congr fun b _ => ?_))) hcount
    show decide (some k = some (key b)) = (key b == k)
    by_cases hk : k = key b
    · rw [decide_eq_true (congrArg some hk), beq_iff_eq.mpr hk.symm]
    · rw [decide_eq_false fun h => hk (Option.some.inj h), beq_false_of_ne (Ne.symm hk)]

section Selection

variable {F : Like.Folding} {db : Db} {f : Filters}

theorem withActor_eq (db : Db) : withActor db = db.auditLog.map fun entry =>
    (entry, db.users.find? fun user => decide (entry.actorUserId = some user.id)) :=
  outerJoin_eq fun _ _ => length_filter_key_le db.users_ids _

theorem find?_user (db : Db) (entry : AuditLog) :
    (db.users.find? fun user => decide (entry.actorUserId = some user.id)).map (·.email) =
      emailOf db entry := by
  rw [emailOf]
  cases entry.actorUserId with
  | none => simp
  | some u => simp [eq_comm]

theorem find?_tenant (db : Db) (entry : AuditLog) :
    (db.tenants.find? fun tenant => decide (entry.tenantId = some tenant.id)).map (·.name) =
      nameOf db entry := by
  rw [nameOf]
  cases entry.tenantId with
  | none => simp
  | some t => simp [eq_comm]

theorem enrichedSelect_eq (db : Db) :
    enrichedSelect db = db.auditLog.map fun entry => ⟨entry, emailOf db entry, nameOf db entry⟩ := by
  rw [enrichedSelect, withActor_eq, outerJoin_eq fun _ _ => length_filter_key_le db.tenants_ids _,
    List.map_map, List.map_map]
  refine List.map_congr_left fun entry _ => ?_
  show Row.mk entry _ _ = _
  rw [find?_user, find?_tenant]

theorem mem_stream {row : Row} :
    row ∈ stream F db f ↔ row.entry ∈ db.auditLog ∧ row.email = emailOf db row.entry ∧
      row.tenantName = nameOf db row.entry ∧
      applyFilters F f row.entry (emailOf db row.entry) = true := by
  rw [stream, selection, Keyset.descending, List.mem_mergeSort, List.mem_filter, enrichedSelect_eq,
    List.mem_map]
  constructor
  · rintro ⟨⟨entry, hentry, rfl⟩, hfilter⟩
    exact ⟨hentry, rfl, rfl, hfilter⟩
  · obtain ⟨entry, email, name⟩ := row
    rintro ⟨hentry, hemail, hname, hfilter⟩
    simp only at hemail hname
    subst hemail hname
    exact ⟨⟨entry, hentry, rfl⟩, hfilter⟩

theorem distinct_orderKey (F : Like.Folding) (db : Db) (f : Filters) :
    Keyset.Distinct orderKey
      ((enrichedSelect db).filter fun row => applyFilters F f row.entry row.email) := by
  have hids : ((enrichedSelect db).map fun row => row.entry.id).Nodup := by
    rw [enrichedSelect_eq, List.map_map]
    exact db.auditLog_ids
  have hkeys : ((enrichedSelect db).map orderKey).Nodup := by
    apply List.Nodup.of_map fun key : Int ×ₗ Nat => (ofLex key).2
    rw [List.map_map]
    exact hids
  exact hkeys.sublist (List.filter_sublist.map _)

theorem total_eq (limit offset : Int) :
    (query F db f limit offset).2 = (stream F db f).length := by
  rw [stream, selection, Keyset.descending, List.length_mergeSort, enrichedSelect_eq,
    List.filter_map, List.length_map]
  show ((withActor db).filter _).length = _
  rw [withActor_eq, List.filter_map, List.length_map]
  refine congrArg List.length (List.filter_congr fun entry _ => ?_)
  show applyFilters F f entry _ = applyFilters F f entry _
  rw [find?_user]

theorem flatMap_pages {α : Type} (l : List α) (n k : Nat) :
    ((List.range k).flatMap fun i => (l.drop (i * n)).take n) = l.take (k * n) := by
  induction k with
  | zero => simp
  | succ k ih =>
    rw [List.range_succ, List.flatMap_append, ih, List.flatMap_singleton, Nat.succ_mul,
      List.take_add]

theorem pages_eq {n : Nat} (hpos : 1 ≤ n) (hmax : n ≤ maxLimit) {k : Nat}
    (hk : (stream F db f).length ≤ k * n) :
    ((List.range k).flatMap fun i => (query F db f n (i * n : Nat)).1) = stream F db f := by
  have hpage : ∀ i : Nat, (query F db f n (i * n : Nat)).1 =
      ((stream F db f).drop (i * n)).take n := by
    intro i
    have hlimit : (max 1 (min (n : Int) maxLimit)).toNat = n := by
      rw [min_eq_left (by exact_mod_cast hmax), max_eq_right (by exact_mod_cast hpos)]
      exact Int.toNat_natCast n
    have hoffset : (max 0 ((i * n : Nat) : Int)).toNat = i * n := by
      rw [max_eq_right (Int.natCast_nonneg _)]
      exact Int.toNat_natCast _
    show ((selection F db f).drop _).take _ = _
    rw [hlimit, hoffset]
    rfl
  simp only [hpage]
  rw [flatMap_pages, List.take_of_length_le hk]

/-! ### The filters -/

theorem given_iff {α : Type} {filter : Option α} {clause : α → Bool} :
    given filter clause = true ↔ ∀ x ∈ filter, clause x = true := by
  cases filter <;> simp [given]

/-- The filters other than the one by email. -/
def SatisfiesOthers (f : Filters) (entry : AuditLog) : Prop :=
  (∀ u ∈ f.actorUserId, entry.actorUserId = some u) ∧ (∀ t ∈ f.tenantId, entry.tenantId = some t) ∧
    (∀ a ∈ f.action, entry.action = a) ∧ (∀ t ∈ f.frm, t ≤ entry.ts) ∧ ∀ t ∈ f.upTo, entry.ts < t

theorem applyFilters_iff {entry : AuditLog} {email : Option String} :
    applyFilters F f entry email = true ↔ SatisfiesOthers f entry ∧
      ∀ text ∈ f.actorEmail, ∃ e ∈ email,
        Like.ilike F (Like.surround text.toList) e.toList = true := by
  simp only [applyFilters, Bool.and_eq_true, given_iff, decide_eq_true_eq, Option.any_eq_true,
    SatisfiesOthers]
  constructor
  · rintro ⟨⟨⟨⟨⟨hu, he⟩, ht⟩, ha⟩, hf⟩, hto⟩
    exact ⟨⟨hu, ht, ha, hf, hto⟩, he⟩
  · rintro ⟨⟨hu, ht, ha, hf, hto⟩, he⟩
    exact ⟨⟨⟨⟨⟨hu, he⟩, ht⟩, ha⟩, hf⟩, hto⟩

theorem satisfies_iff {entry : AuditLog} :
    Satisfies F db f entry ↔ SatisfiesOthers f entry ∧
      ∀ text ∈ f.actorEmail, ∃ e ∈ emailOf db entry, Like.Contains F text.toList e.toList := by
  constructor
  · rintro ⟨hu, he, ht, ha, hf, hto⟩
    exact ⟨⟨hu, ht, ha, hf, hto⟩, he⟩
  · rintro ⟨⟨hu, ht, ha, hf, hto⟩, he⟩
    exact ⟨hu, he, ht, ha, hf, hto⟩

def PlainEmail (f : Filters) : Prop := ∀ text ∈ f.actorEmail, ∀ c ∈ text.toList, c ∉ Like.special

def EmptyRange (f : Filters) : Prop := ∃ t ∈ f.frm, ∃ t' ∈ f.upTo, t' ≤ t

theorem exact_of_filter (h : ∀ entry ∈ db.auditLog,
    applyFilters F f entry (emailOf db entry) = true ↔ Satisfies F db f entry) : Exact F db f where
  rows row := by
    rw [mem_stream]
    refine and_congr_right fun hentry => and_congr_right fun _ => and_congr_right fun _ => ?_
    exact h row.entry hentry
  ordered := Keyset.descending_pairwise (distinct_orderKey F db f)
  total := total_eq
  pages _ hpos hmax _ hk := pages_eq hpos hmax hk

/-- **A text without special characters is looked for exactly.** -/
theorem exact_of_plain (h : PlainEmail f) : Exact F db f := by
  apply exact_of_filter
  intro entry _
  rw [applyFilters_iff, satisfies_iff]
  refine and_congr_right fun _ => forall₂_congr fun text htext => ?_
  refine exists_congr fun e => and_congr_right fun _ => ?_
  exact Like.ilike_surround (h text htext)

theorem exact_of_emptyRange (h : EmptyRange f) : Exact F db f := by
  obtain ⟨t, ht, t', ht', hle⟩ := h
  apply exact_of_filter
  intro entry _
  have hnot : ¬ SatisfiesOthers f entry := by
    rintro ⟨-, -, -, hfrm, hto⟩
    exact absurd (lt_of_le_of_lt (hfrm t ht) (hto t' ht')) (not_lt_of_ge hle)
  rw [applyFilters_iff, satisfies_iff]
  exact iff_of_false (fun h => hnot h.1) fun h => hnot h.1

/-! ### A log that shows the difference -/

/-- A time in the range of the filters, if there is any. -/
def sampleTime (f : Filters) : Int :=
  match f.frm, f.upTo with
  | some t, _ => t
  | none, some t => t - 1
  | none, none => 0

/-- An entry of an actor whose email the pattern matches. -/
def sampleEntry (f : Filters) : AuditLog where
  id := 1
  ts := sampleTime f
  actorUserId := some (f.actorUserId.getD 1)
  tenantId := f.tenantId
  action := f.action.getD ""
  targetType := none
  targetId := none
  ip := none
  details := .obj []

def sampleDb (f : Filters) (text : String) : Db where
  auditLog := [sampleEntry f]
  users := [⟨f.actorUserId.getD 1, String.ofList (Like.sample text.toList)⟩]
  tenants := []
  auditLog_ids := List.nodup_singleton _
  users_ids := List.nodup_singleton _
  tenants_ids := List.nodup_nil

theorem satisfiesOthers_sample (h : ¬ EmptyRange f) : SatisfiesOthers f (sampleEntry f) := by
  refine ⟨?_, ?_, ?_, ?_, ?_⟩
  · intro u hu
    show some (f.actorUserId.getD 1) = some u
    rw [Option.mem_def.mp hu, Option.getD_some]
  · exact fun _ ht => ht
  · intro a ha
    show f.action.getD "" = a
    rw [Option.mem_def.mp ha, Option.getD_some]
  · intro t ht
    show t ≤ sampleTime f
    rw [sampleTime, Option.mem_def.mp ht]
  · intro t' ht'
    show sampleTime f < t'
    cases hfrm : f.frm with
    | none =>
      rw [sampleTime, Option.mem_def.mp ht', hfrm]
      exact Int.sub_one_lt_of_le (le_refl t')
    | some t =>
      rw [sampleTime, hfrm]
      by_contra hle
      exact h ⟨t, hfrm, t', ht', not_lt.mp hle⟩

theorem emailOf_sample (text : String) :
    emailOf (sampleDb f text) (sampleEntry f) =
      some (String.ofList (Like.sample text.toList)) := by
  simp [emailOf, sampleDb, sampleEntry]

theorem not_exact_sample (hrange : ¬ EmptyRange f) {text : String} (htext : f.actorEmail = some text)
    (hspecial : ¬ ∀ c ∈ text.toList, c ∉ Like.special) : ¬ Exact F (sampleDb f text) f := by
  intro hexact
  have hfound : applyFilters F f (sampleEntry f) (emailOf (sampleDb f text) (sampleEntry f)) =
      true := by
    rw [applyFilters_iff]
    refine ⟨satisfiesOthers_sample hrange, ?_⟩
    intro text' htext'
    obtain rfl := Option.some.inj (htext.symm.trans htext')
    refine ⟨_, emailOf_sample text, ?_⟩
    rw [String.toList_ofList]
    exact Like.ilike_sample F text.toList
  have hrow := (hexact.rows ⟨sampleEntry f, _, nameOf (sampleDb f text) (sampleEntry f)⟩).mp
    (mem_stream.mpr ⟨List.mem_singleton.mpr rfl, rfl, rfl, hfound⟩)
  obtain ⟨-, hemail⟩ := satisfies_iff.mp hrow.2.2.2
  obtain ⟨e, he, hcontains⟩ := hemail text htext
  obtain rfl := Option.some.inj ((emailOf_sample text).symm.trans he)
  rw [String.toList_ofList] at hcontains
  exact hspecial (Like.not_special_of_contains_sample hcontains)

/-- **The reads are exact on every log if and only if the text for the emails has no special
character, or the range of times is empty.** -/
theorem exact_iff (F : Like.Folding) (f : Filters) :
    (∀ db, Exact F db f) ↔ PlainEmail f ∨ EmptyRange f := by
  constructor
  · intro h
    by_contra hnot
    obtain ⟨hplain, hrange⟩ := not_or.mp hnot
    obtain ⟨text, htext, hspecial⟩ : ∃ text, f.actorEmail = some text ∧
        ¬ ∀ c ∈ text.toList, c ∉ Like.special := by
      simpa [PlainEmail] using hplain
    exact not_exact_sample hrange htext hspecial (h (sampleDb f text))
  · rintro (hplain | hrange) db
    · exact exact_of_plain hplain
    · exact exact_of_emptyRange hrange

end Selection

def asciiFolding : Like.Folding where
  fold := Char.toLower
  fold_special := Like.forall_special rfl rfl rfl
  fold_plain c hc := by
    unfold Char.toLower
    split
    · -- a capital becomes a letter, which is not special
      rename_i hcap
      have hlow : 65 ≤ c.val.toNat := hcap.1
      have hhigh : c.val.toNat ≤ 90 := hcap.2
      have hsum : (c.val + ('a'.val - 'A'.val)).toNat = c.val.toNat + 32 := by
        have h32 : ('a'.val - 'A'.val).toNat = 32 := rfl
        rw [UInt32.toNat_add, h32]
        omega
      have hall : ∀ d ∈ Like.special, d.val.toNat < 97 :=
        Like.forall_special (by decide) (by decide) (by decide)
      intro hmem
      have hlt : (c.val + ('a'.val - 'A'.val)).toNat < 97 := hall _ hmem
      omega
    · exact hc

/-- Asking for `john_doe` finds what an actor `johnxdoe` did. -/
theorem underscore_finds_others :
    Like.sample "john_doe".toList = "johnxdoe".toList ∧
    (stream asciiFolding (sampleDb { actorEmail := some "john_doe" } "john_doe")
      { actorEmail := some "john_doe" }).length = 1 ∧
    ¬ Exact asciiFolding (sampleDb { actorEmail := some "john_doe" } "john_doe")
      { actorEmail := some "john_doe" } := by
  refine ⟨by decide, by decide +kernel, ?_⟩
  refine not_exact_sample ?_ rfl fun h => h '_' (by decide) (by decide)
  rintro ⟨t, ht, -⟩
  exact nomatch ht

end AuditQueries

end Opngms
