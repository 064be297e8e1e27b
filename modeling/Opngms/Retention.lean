/-
Opngms/Retention.lean

Retention (`app/services/retention.py`): the days for which a tenant keeps a
store, and the purge.

The days are resolved twice: `effective_retention_days` looks at the decoded
value of the tenant's override, the statement of `_purge_table` at its text.
They agree on a number within the bounds and on a value that is no run of digits
(**`retention_resolved_iff`**); a number beyond the bounds is clamped by the one
and ignored by the other, a string of digits counts for the one only, and a
number beyond 32 bits ends the statement, for all tenants.
-/
import Opngms.World

namespace Opngms

/-! ### The resolver -/

/-- `RETENTION_STORES`. -/
inductive RetentionStore where
  | perimeter
  | events
  | metrics
  | logLake
  deriving DecidableEq

/-- The key of a store in `tenant_retention.overrides`. -/
def RetentionStore.key : RetentionStore → String
  | perimeter => "perimeter"
  | events => "events"
  | metrics => "metrics"
  | logLake => "log_lake"

/-- `_MIN`. -/
def minRetention : Int := 1

/-- `_MAX`. -/
def maxRetention : Int := 3650

/-- `effective_retention_days`: a `bool` is no number of days. -/
def effectiveRetentionDays (store : RetentionStore) (globalDefault : Int) (tenantOverride : Option Dict) :
    Int :=
  match Dict.get? (tenantOverride.getD []) store.key with
  | some (.int v) => if minRetention ≤ v ∧ v ≤ maxRetention then v else globalDefault
  | _ => globalDefault

/-! ### The statement of the purge -/

/-- `numeric_value_out_of_range`, SQLSTATE 22003. -/
inductive SqlError where
  | outOfRange
  deriving DecidableEq

/-- `~ '^[0-9]+$'`. -/
def allDigits (s : String) : Bool := s != "" && s.toList.all Char.isDigit

def fractionText (repr : String) : String := if allDigits repr then repr ++ ".0" else repr

/-- The text `->>` gives for a value; a JSON `null` is an SQL null. -/
def jsonbText : Json → Option String
  | .null => none
  | .bool b => some (if b then "true" else "false")
  | .int n => some (toString n)
  | .float r => some (fractionText r)
  | .str s => some s
  | .arr xs => some (Json.arr xs).repr
  | .obj kvs => some (Json.obj kvs).repr

def digitsValue (s : String) : Nat := Nat.ofDigitChars 10 s.toList 0

/-- `::int` of a run of digits. -/
def castInt (s : String) : Except SqlError Int :=
  if digitsValue s ≤ 2147483647 then .ok (digitsValue s) else .error .outOfRange

/-- The days that the statement takes for a tenant. -/
def purgeDays (store : RetentionStore) (globalDefault : Int) (overrides : Option Dict) :
    Except SqlError Int :=
  match (overrides.bind (Dict.get? · store.key)).bind jsonbText with
  | some s =>
    if allDigits s then (castInt s).map fun n => min maxRetention (max minRetention n)
    else .ok globalDefault
  | none => .ok globalDefault

/-- A row of a store that is purged: the tenant and the time it is purged by. -/
structure StoreRow where
  tenantId : TenantId
  time : Time

def dayLength : Int := 86400000000

/-- The cutoffs of all tenants. -/
def purgeCutoffs (store : RetentionStore) (now : Time) (globalDefault : Int) :
    List (TenantId × Option Dict) → Except SqlError (List (TenantId × Int))
  | [] => .ok []
  | t :: tenants => do
    let days ← purgeDays store globalDefault t.2
    let cutoffs ← purgeCutoffs store now globalDefault tenants
    return (t.1, (now : Int) - days * dayLength) :: cutoffs

/-- `_purge_table`: the rows that stay. -/
def purgeTable (store : RetentionStore) (now : Time) (globalDefault : Int)
    (tenants : List (TenantId × Option Dict)) (rows : List StoreRow) :
    Except SqlError (List StoreRow) := do
  let cutoffs ← purgeCutoffs store now globalDefault tenants
  return rows.filter fun r => !cutoffs.any fun c => c.1 == r.tenantId && decide ((r.time : Int) < c.2)

/-! ### Where the two agree -/

/-- The number a stored value is read as in SQL, if its text is a run of digits. -/
def digitRun (v : Json) : Option Nat :=
  (jsonbText v).bind fun s => if allDigits s then some (digitsValue s) else none

/-- A stored value that both read alike: no run of digits; or a number within
the bounds; or a number that fits 32 bits and that the bounds clamp to the
global default. -/
def ReadAlike (globalDefault : Int) (v : Json) : Prop :=
  ∀ n, digitRun v = some n →
    (v = .int n ∧ minRetention ≤ n ∧ (n : Int) ≤ maxRetention) ∨
      (n ≤ 2147483647 ∧ min maxRetention (max minRetention n) = globalDefault)

theorem allDigits_toString (n : Nat) : allDigits (toString n) = true := by
  rw [allDigits, Bool.and_eq_true, Nat.toString_eq_repr, Nat.toList_repr]
  refine ⟨bne_iff_ne.mpr fun h => ?_, List.all_eq_true.mpr fun c hc => ?_⟩
  · have hnil : Nat.toDigits 10 n = [] := by rw [← Nat.toList_repr, h]; rfl
    exact Nat.toDigits_ne_nil hnil
  · exact Nat.isDigit_of_mem_toDigits (by decide) (by decide) hc

theorem digitsValue_toString (n : Nat) : digitsValue (toString n) = n := by
  rw [digitsValue, Nat.toString_eq_repr, Nat.toList_repr]
  exact Nat.ofDigitChars_ten_toDigits

theorem digitRun_ofNat (n : Nat) : digitRun (.int n) = some n := by
  have htext : jsonbText (.int n) = some (toString n) := rfl
  rw [digitRun, htext, Option.bind_some, allDigits_toString, if_pos rfl, digitsValue_toString]

theorem digitRun_negSucc (n : Nat) : digitRun (.int (.negSucc n)) = none := by
  have htext : jsonbText (.int (.negSucc n)) = some ("-" ++ toString (n + 1)) := rfl
  have hsign : allDigits ("-" ++ toString (n + 1)) = false := by
    rw [allDigits, String.toList_append, List.all_append]
    have hminus : "-".toList.all Char.isDigit = false := by decide
    rw [hminus, Bool.false_and, Bool.and_false]
  rw [digitRun, htext, Option.bind_some, hsign, if_neg Bool.false_ne_true]

theorem allDigits_cons {c : Char} (h : c.isDigit = false) (s : String) :
    allDigits (String.ofList [c] ++ s) = false := by
  rw [allDigits, String.toList_append, String.toList_ofList, List.all_append, List.all_cons, h,
    Bool.false_and, Bool.false_and, Bool.and_false]

theorem allDigits_fractionText (r : String) : allDigits (fractionText r) = false := by
  unfold fractionText
  cases h : allDigits r with
  | false => rw [if_neg Bool.false_ne_true, h]
  | true =>
    have hpoint : ".0".toList.all Char.isDigit = false := by decide
    rw [if_pos rfl, allDigits, String.toList_append, List.all_append, hpoint, Bool.and_false,
      Bool.and_false]

theorem digitRun_cases {v : Json} {n : Nat} (h : digitRun v = some n) :
    v = .int n ∨ ∃ s, v = .str s := by
  have hrun : ∀ s, jsonbText v = some s → allDigits s = true := by
    intro s hs
    rw [digitRun, hs, Option.bind_some] at h
    by_contra hdigits
    rw [if_neg hdigits] at h
    cases h
  cases v with
  | null => cases h
  | bool b =>
    have hword := hrun _ rfl
    cases b with
    | false => exact absurd hword (by decide)
    | true => exact absurd hword (by decide)
  | int k =>
    cases k with
    | ofNat k =>
      have hk : digitRun (.int (.ofNat k)) = some k := digitRun_ofNat k
      rw [hk] at h
      rw [Option.some.inj h]
      exact .inl rfl
    | negSucc k =>
      rw [digitRun_negSucc] at h
      cases h
  | float r => exact absurd (hrun _ rfl) (by rw [allDigits_fractionText]; exact Bool.false_ne_true)
  | str s => exact .inr ⟨s, rfl⟩
  | arr xs =>
    have hbracket := hrun _ rfl
    rw [Json.repr, String.append_assoc] at hbracket
    exact absurd hbracket (Bool.eq_false_iff.mp (allDigits_cons (c := '[') (by decide) _))
  | obj kvs =>
    have hbrace := hrun _ rfl
    rw [Json.repr, String.append_assoc] at hbrace
    exact absurd hbrace (Bool.eq_false_iff.mp (allDigits_cons (c := '\x7b') (by decide) _))

theorem purgeDays_eq (store : RetentionStore) (globalDefault : Int) (overrides : Option Dict) :
    purgeDays store globalDefault overrides =
      match (overrides.bind (Dict.get? · store.key)).bind digitRun with
      | some n =>
        if n ≤ 2147483647 then .ok (min maxRetention (max minRetention n)) else .error .outOfRange
      | none => .ok globalDefault := by
  unfold purgeDays
  cases overrides.bind (Dict.get? · store.key) with
  | none => rfl
  | some v =>
    rw [Option.bind_some, Option.bind_some, digitRun]
    cases jsonbText v with
    | none => rfl
    | some s =>
      rw [Option.bind_some]
      dsimp only
      cases hs : allDigits s with
      | false => rw [if_neg Bool.false_ne_true, if_neg Bool.false_ne_true]
      | true =>
        rw [if_pos rfl, if_pos rfl, castInt]
        by_cases hfits : digitsValue s ≤ 2147483647
        · rw [if_pos hfits]
          exact (if_pos hfits).symm
        · rw [if_neg hfits]
          exact (if_neg hfits).symm

theorem effectiveRetentionDays_of_text {store : RetentionStore} {globalDefault : Int}
    {overrides : Option Dict} {v : Json} (hv : overrides.bind (Dict.get? · store.key) = some v)
    (h : ∀ n : Nat, v ≠ .int n) : effectiveRetentionDays store globalDefault overrides =
      globalDefault := by
  obtain ⟨d, rfl, hget⟩ := Option.bind_eq_some_iff.mp hv
  rw [effectiveRetentionDays, Option.getD_some, hget]
  split
  · rename_i m hm
    obtain rfl := Option.some.inj hm
    cases m with
    | ofNat m => exact absurd rfl (h m)
    | negSucc m => exact if_neg fun hb => absurd (show (1 : Int) ≤ .negSucc m from hb.1) (by omega)
  · rfl

theorem effectiveRetentionDays_ofNat {store : RetentionStore} {globalDefault : Int}
    {overrides : Option Dict} {n : Nat}
    (hv : overrides.bind (Dict.get? · store.key) = some (.int n)) :
    effectiveRetentionDays store globalDefault overrides =
      if minRetention ≤ n ∧ (n : Int) ≤ maxRetention then (n : Int) else globalDefault := by
  obtain ⟨d, rfl, hget⟩ := Option.bind_eq_some_iff.mp hv
  rw [effectiveRetentionDays, Option.getD_some, hget]

/-- The two resolvers agree on a tenant exactly if they read the override
alike. -/
theorem purgeDays_ok_iff (store : RetentionStore) (globalDefault : Int)
    (overrides : Option Dict) :
    purgeDays store globalDefault overrides =
        .ok (effectiveRetentionDays store globalDefault overrides) ↔
      ∀ v, overrides.bind (Dict.get? · store.key) = some v → ReadAlike globalDefault v := by
  rw [purgeDays_eq]
  cases hv : overrides.bind (Dict.get? · store.key) with
  | none =>
    have hdefault : effectiveRetentionDays store globalDefault overrides = globalDefault := by
      cases overrides with
      | none => rfl
      | some d =>
        have hget : Dict.get? d store.key = none := hv
        rw [effectiveRetentionDays, Option.getD_some, hget]
    rw [hdefault]
    exact ⟨fun _ => nofun, fun _ => rfl⟩
  | some v =>
    rw [Option.bind_some]
    have hone : (∀ w, some v = some w → ReadAlike globalDefault w) ↔ ReadAlike globalDefault v :=
      ⟨fun h => h v rfl, fun h w hw => Option.some.inj hw ▸ h⟩
    rw [hone]
    cases hd : digitRun v with
    | none =>
      have hno : ∀ n : Nat, v ≠ .int n := by
        rintro n rfl
        rw [digitRun_ofNat] at hd
        cases hd
      rw [effectiveRetentionDays_of_text hv hno]
      exact ⟨fun _ n hn => (nomatch hd.symm.trans hn), fun _ => rfl⟩
    | some n =>
      have hread : ReadAlike globalDefault v ↔
          (v = .int n ∧ minRetention ≤ n ∧ (n : Int) ≤ maxRetention) ∨
            (n ≤ 2147483647 ∧ min maxRetention (max minRetention n) = globalDefault) :=
        ⟨fun h => h n hd, fun h m hm => Option.some.inj (hd.symm.trans hm) ▸ h⟩
      rw [hread]
      dsimp only
      rcases digitRun_cases hd with rfl | ⟨s, rfl⟩
      · rw [effectiveRetentionDays_ofNat hv]
        unfold minRetention maxRetention
        by_cases hfits : n ≤ 2147483647
        · rw [if_pos hfits, Except.ok.injEq]
          split <;> simp <;> omega
        · rw [if_neg hfits]
          simp
          omega
      · rw [effectiveRetentionDays_of_text hv nofun]
        by_cases hfits : n ≤ 2147483647
        · simp [hfits]
        · simp [hfits]


/-! ### The purge -/

section Purge

variable (store : RetentionStore) (now : Time) (globalDefault : Int)

def AllReadAlike (tenants : List (TenantId × Option Dict)) : Prop :=
  ∀ t ∈ tenants, ∀ v, t.2.bind (Dict.get? · store.key) = some v → ReadAlike globalDefault v

def effectiveCutoffs (tenants : List (TenantId × Option Dict)) : List (TenantId × Int) :=
  tenants.map fun t =>
    (t.1, (now : Int) - effectiveRetentionDays store globalDefault t.2 * dayLength)

theorem purgeCutoffs_ok_iff (tenants : List (TenantId × Option Dict)) :
    purgeCutoffs store now globalDefault tenants =
        .ok (effectiveCutoffs store now globalDefault tenants) ↔
      AllReadAlike store globalDefault tenants := by
  induction tenants with
  | nil => exact ⟨fun _ => nofun, fun _ => rfl⟩
  | cons t tenants ih =>
    have hsplit : AllReadAlike store globalDefault (t :: tenants) ↔
        purgeDays store globalDefault t.2 =
            .ok (effectiveRetentionDays store globalDefault t.2) ∧
          purgeCutoffs store now globalDefault tenants =
            .ok (effectiveCutoffs store now globalDefault tenants) := by
      rw [ih, purgeDays_ok_iff]
      exact List.forall_mem_cons
    rw [hsplit, purgeCutoffs]
    constructor
    · intro h
      obtain ⟨days, hdays, h⟩ := except_bind_ok h
      obtain ⟨cutoffs, hcutoffs, h⟩ := except_bind_ok h
      obtain ⟨hhead, htail⟩ := List.cons.inj (Except.ok.inj h)
      have hcut : (now : Int) - days * dayLength =
          now - effectiveRetentionDays store globalDefault t.2 * dayLength :=
        congrArg Prod.snd hhead
      have hsame : days = effectiveRetentionDays store globalDefault t.2 := by
        unfold dayLength at hcut
        omega
      exact ⟨hsame ▸ hdays, hcutoffs.trans (congrArg Except.ok htail)⟩
    · rintro ⟨hdays, hcutoffs⟩
      rw [hdays, hcutoffs]
      rfl

/-- **The purge resolves the retention of every tenant as the resolver does, and
does not raise, exactly if all overrides are read alike.** -/
theorem retention_resolved_iff (tenants : List (TenantId × Option Dict)) :
    purgeCutoffs store now globalDefault tenants =
        .ok (effectiveCutoffs store now globalDefault tenants) ↔
      AllReadAlike store globalDefault tenants :=
  purgeCutoffs_ok_iff store now globalDefault tenants

/-- An override beyond 32 bits ends the statement. -/
theorem longOverride_not_resolved :
    purgeCutoffs .events 0 90 [(1, some [("events", .int 99999999999)])] ≠
      .ok (effectiveCutoffs .events 0 90 [(1, some [("events", .int 99999999999)])]) := by
  decide +kernel

variable {store now globalDefault} {tenants : List (TenantId × Option Dict)} {rows : List StoreRow}

theorem purgeTable_exact (h : AllReadAlike store globalDefault tenants) :
    purgeTable store now globalDefault tenants rows = .ok (rows.filter fun r =>
      !(effectiveCutoffs store now globalDefault tenants).any fun c =>
        c.1 == r.tenantId && decide ((r.time : Int) < c.2)) := by
  rw [purgeTable, (purgeCutoffs_ok_iff store now globalDefault tenants).mpr h]
  rfl

end Purge

end Opngms
