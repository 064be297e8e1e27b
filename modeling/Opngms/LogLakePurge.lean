/-
Opngms/LogLakePurge.lean

Which indices of the log lake are deleted (services/log_lake_retention.py).

The overrides of the tenants are keyed by the canonical text of their ids, and the tenant of an
index is looked up by the text in its name.  A segment that `uuid.UUID` takes need not be that
text: it may have capitals and its dashes elsewhere.  Such an index is purged by the global
default, whatever its tenant has set.

Main result: **`purgesOwn_iff`**.
-/
import Opngms.Backtracking
import Opngms.EventCursor
import Opngms.PyText
import Opngms.Retention

namespace Opngms

namespace LogLakePurge

open Calendar EventCursor Pattern

/-! ### Names -/

def char (c : Char) : Pattern Char := one fun d => c == d

def chars (s : List Char) : Pattern Char := word (s.map fun c d => c == d)

/-- `[0-9a-fA-F-]`. -/
def inSegment (c : Char) : Bool := TextCodecs.hexValue c < 16 || c == '-'

/-- `_RE`; `$` also stands before a newline at the end. -/
def indexPattern : Pattern Char :=
  chain [chars "opngms-logs-".toList,
    opt (chain [group "tid" (times 36 (one inSegment)), char '-']),
    group "y" (times 4 (one isDecimal)), char '.', group "m" (times 2 (one isDecimal)), char '.',
    group "d" (times 2 (one isDecimal)), look fun _ after => after == [] || after == ['\n']]

/-- `int` of a group of digits. -/
def number (digits : List Char) : Nat :=
  digits.foldl (fun n c => 10 * n + (decimalValue c).getD 0) 0

/-- `date(year, month, day)`, as the days since the first date; `none` where there is none. -/
def dateOf (year month day : Nat) : Option Nat :=
  let m := monthIndex year month
  if 1 ≤ year ∧ year ≤ 9999 ∧ 1 ≤ month ∧ month ≤ 12 ∧ 1 ≤ day ∧
      months.start m + day ≤ months.start (m + 1) then some (months.start m + (day - 1))
  else none

/-- `parse_index`. -/
def parseIndex (name : String) : Option (Option String × Nat) :=
  match indexPattern.matchStart name.toList with
  | none => none
  | some m =>
    let tid := (m.group "tid").map String.ofList
    if tid.any fun t => (uuidOf t.toList).isNone then none
    else
      (dateOf (number ((m.group "y").getD [])) (number ((m.group "m").getD []))
        (number ((m.group "d").getD []))).map fun date => (tid, date)

/-! ### The purge -/

/-- Whether an index is deleted. -/
def isDue (today : Nat) (globalDefault : Int) (overridesByTenant : List (String × Dict))
    (name : String) : Bool :=
  match parseIndex name with
  | none => false
  | some (tid, idxDate) =>
    let override := tid.bind fun t => if t = "" then none else overridesByTenant.lookup t
    let days := effectiveRetentionDays .logLake globalDefault override
    decide (days < (today : Int) - idxDate)

/-- `indices_to_delete`. -/
def indicesToDelete (indexNames : List String) (today : Nat) (globalDefault : Int)
    (overridesByTenant : List (String × Dict)) : List String :=
  indexNames.filter (isDue today globalDefault overridesByTenant)

/-! ### What a name says -/

def Run (p : Char → Bool) (n : Nat) (t : List Char) : Prop := t.length = n ∧ ∀ c ∈ t, p c = true

/-- The parts of a name. -/
structure IndexParts where
  tid : Option String
  year : List Char
  month : List Char
  day : List Char
  newline : List Char

namespace IndexParts

def segment (p : IndexParts) : List Char :=
  match p.tid with
  | some t => t.toList ++ ['-']
  | none => []

def body (p : IndexParts) : List Char :=
  p.segment ++ (p.year ++ '.' :: (p.month ++ '.' :: (p.day ++ p.newline)))

def text (p : IndexParts) : List Char := "opngms-logs-".toList ++ p.body

/-- A tenant of 36 hexadecimal digits and dashes, if there is one, and a date of digits. -/
structure Valid (p : IndexParts) : Prop where
  tid : ∀ t ∈ p.tid, Run inSegment 36 t.toList
  year : Run isDecimal 4 p.year
  month : Run isDecimal 2 p.month
  day : Run isDecimal 2 p.day
  newline : p.newline = [] ∨ p.newline = ['\n']

/-- The match of what follows the prefix. -/
def hit (p : IndexParts) : Hit Char where
  text := p.segment ++ (p.year ++ '.' :: (p.month ++ '.' :: p.day))
  rest := p.newline
  groups := [("d", p.day), ("m", p.month), ("y", p.year)] ++
    (p.tid.map fun t => ("tid", t.toList)).toList

end IndexParts

/-! ### What the pattern matches -/

section Hits

variable {before after : List Char} {h : Hit Char} {s : Pattern Char}

theorem mem_hits_charsThen {t : List Char} : h ∈ (seq (chars t) s).hits before after ↔
    ∃ rest, after = t ++ rest ∧ ∃ k ∈ s.hits (t.reverse ++ before) rest,
      h = ⟨t ++ k.text, k.rest, k.groups⟩ := by
  have hsame : ∀ u : List Char, List.Forall₂ (fun p c => p c = true)
      (t.map fun c d => c == d) u ↔ t = u := by
    intro u
    rw [List.forall₂_map_left_iff]
    simp only [beq_iff_eq]
    rw [List.forall₂_eq_eq_eq]
  simp only [mem_hits_seq, chars, mem_hits_word, hsame]
  constructor
  · rintro ⟨_, ⟨_, rest, rfl, rfl, rfl⟩, k, hk, rfl⟩
    exact ⟨rest, rfl, k, hk, by simp [Hit.append]⟩
  · rintro ⟨rest, rfl, k, hk, rfl⟩
    exact ⟨⟨t, rest, []⟩, ⟨t, rest, rfl, rfl, rfl⟩, k, hk, by simp [Hit.append]⟩

theorem mem_hits_charThen {c : Char} : h ∈ (seq (char c) s).hits before after ↔
    ∃ rest, after = c :: rest ∧ ∃ k ∈ s.hits (c :: before) rest,
      h = ⟨c :: k.text, k.rest, k.groups⟩ := by
  simp only [mem_hits_seq, char, mem_hits_one, beq_iff_eq]
  constructor
  · rintro ⟨_, ⟨_, rest, rfl, rfl, rfl⟩, k, hk, rfl⟩
    exact ⟨rest, rfl, k, hk, by simp [Hit.append]⟩
  · rintro ⟨rest, rfl, k, hk, rfl⟩
    exact ⟨⟨[c], rest, []⟩, ⟨c, rest, rfl, rfl, rfl⟩, k, hk, by simp [Hit.append]⟩

/-- A group of so many letters, and then the rest of a pattern. -/
theorem mem_hits_runThen {name : String} {n : Nat} {p : Char → Bool} :
    h ∈ (seq (group name (times n (one p))) s).hits before after ↔
      ∃ t rest, after = t ++ rest ∧ Run p n t ∧ ∃ k ∈ s.hits (t.reverse ++ before) rest,
        h = ⟨t ++ k.text, k.rest, k.groups ++ [(name, t)]⟩ := by
  simp only [mem_hits_seq, mem_hits_group, mem_hits_times]
  constructor
  · rintro ⟨_, ⟨_, ⟨t, rest, rfl, hlen, ht, rfl⟩, rfl⟩, k, hk, rfl⟩
    exact ⟨t, rest, rfl, ⟨hlen, ht⟩, k, hk, rfl⟩
  · rintro ⟨t, rest, rfl, ⟨hlen, ht⟩, k, hk, rfl⟩
    exact ⟨⟨t, rest, [(name, t)]⟩, ⟨⟨t, rest, []⟩, ⟨t, rest, rfl, hlen, ht, rfl⟩, rfl⟩, k, hk, rfl⟩

theorem mem_hits_end : h ∈ (chain [look fun _ after => after == [] || after == ['\n']]).hits
    before after ↔ (after = [] ∨ after = ['\n']) ∧ h = ⟨[], after, []⟩ := by
  simp only [chain, mem_hits_seq, mem_hits_look, Bool.or_eq_true, beq_iff_eq]
  constructor
  · rintro ⟨_, ⟨hend, rfl⟩, k, hk, rfl⟩
    obtain rfl := List.mem_singleton.mp hk
    exact ⟨hend, rfl⟩
  · rintro ⟨hend, rfl⟩
    exact ⟨⟨[], after, []⟩, ⟨hend, rfl⟩, ⟨[], after, []⟩, List.mem_singleton_self _, rfl⟩

def datePattern : Pattern Char :=
  chain [group "y" (times 4 (one isDecimal)), char '.', group "m" (times 2 (one isDecimal)),
    char '.', group "d" (times 2 (one isDecimal)),
    look fun _ after => after == [] || after == ['\n']]

theorem mem_hits_datePattern : h ∈ datePattern.hits before after ↔ ∃ y m d nl : List Char,
    Run isDecimal 4 y ∧ Run isDecimal 2 m ∧ Run isDecimal 2 d ∧ (nl = [] ∨ nl = ['\n']) ∧
      after = y ++ '.' :: (m ++ '.' :: (d ++ nl)) ∧
      h = ⟨y ++ '.' :: (m ++ '.' :: d), nl, [("d", d), ("m", m), ("y", y)]⟩ := by
  constructor
  · intro hyear
    obtain ⟨y, _, rfl, hy, _, hdot, rfl⟩ := mem_hits_runThen.1 hyear
    obtain ⟨_, rfl, _, hmonth, rfl⟩ := mem_hits_charThen.1 hdot
    obtain ⟨m, _, rfl, hm, _, hdot', rfl⟩ := mem_hits_runThen.1 hmonth
    obtain ⟨_, rfl, _, hday, rfl⟩ := mem_hits_charThen.1 hdot'
    obtain ⟨d, nl, rfl, hd, _, hend, rfl⟩ := mem_hits_runThen.1 hday
    obtain ⟨hnl, rfl⟩ := mem_hits_end.1 hend
    exact ⟨y, m, d, nl, hy, hm, hd, hnl, rfl, by simp⟩
  · rintro ⟨y, m, d, nl, hy, hm, hd, hnl, rfl, rfl⟩
    refine mem_hits_runThen.2 ⟨y, _, rfl, hy, ⟨'.' :: (m ++ '.' :: d), nl, [("d", d), ("m", m)]⟩,
      ?_, rfl⟩
    refine mem_hits_charThen.2 ⟨_, rfl, ⟨m ++ '.' :: d, nl, [("d", d), ("m", m)]⟩, ?_, rfl⟩
    refine mem_hits_runThen.2 ⟨m, _, rfl, hm, ⟨'.' :: d, nl, [("d", d)]⟩, ?_, rfl⟩
    refine mem_hits_charThen.2 ⟨_, rfl, ⟨d, nl, [("d", d)]⟩, ?_, rfl⟩
    refine mem_hits_runThen.2 ⟨d, nl, rfl, hd, ⟨[], nl, []⟩, ?_, by simp⟩
    exact mem_hits_end.2 ⟨hnl, rfl⟩

end Hits

theorem mem_hits_tenantPattern {before after : List Char} {h : Hit Char} :
    h ∈ (chain [group "tid" (times 36 (one inSegment)), char '-']).hits before after ↔
      ∃ t rest, after = t ++ '-' :: rest ∧ Run inSegment 36 t ∧
        h = ⟨t ++ ['-'], rest, [("tid", t)]⟩ := by
  have hempty : chain ([] : List (Pattern Char)) = empty := rfl
  constructor
  · intro htenant
    obtain ⟨t, _, rfl, ht, _, hdash, rfl⟩ := mem_hits_runThen.1 htenant
    obtain ⟨rest, rfl, _, hend, rfl⟩ := mem_hits_charThen.1 hdash
    obtain rfl := List.mem_singleton.mp hend
    exact ⟨t, rest, rfl, ht, rfl⟩
  · rintro ⟨t, rest, rfl, ht, rfl⟩
    refine mem_hits_runThen.2 ⟨t, _, rfl, ht, ⟨['-'], rest, []⟩, ?_, rfl⟩
    exact mem_hits_charThen.2 ⟨rest, rfl, ⟨[], rest, []⟩, List.mem_singleton_self _, rfl⟩

theorem mem_hits_body {before after : List Char} {h : Hit Char} :
    h ∈ (seq (opt (chain [group "tid" (times 36 (one inSegment)), char '-'])) datePattern).hits
      before after ↔ ∃ p : IndexParts, p.Valid ∧ after = p.body ∧ h = p.hit := by
  constructor
  · intro hbody
    obtain ⟨_, htenant, _, hdate, rfl⟩ := mem_hits_seq.mp hbody
    rcases mem_hits_opt.mp htenant with htenant | rfl
    · obtain ⟨t, _, rfl, ht, rfl⟩ := mem_hits_tenantPattern.1 htenant
      obtain ⟨y, m, d, nl, hy, hm, hd, hnl, rfl, rfl⟩ := mem_hits_datePattern.1 hdate
      refine ⟨⟨some (String.ofList t), y, m, d, nl⟩, ⟨?_, hy, hm, hd, hnl⟩, ?_, ?_⟩
      · intro t' ht'
        obtain rfl := Option.some.inj ht'
        rw [String.toList_ofList]
        exact ht
      · simp [IndexParts.body, IndexParts.segment]
      · simp [IndexParts.hit, IndexParts.segment, Hit.append]
    · obtain ⟨y, m, d, nl, hy, hm, hd, hnl, rfl, rfl⟩ := mem_hits_datePattern.1 hdate
      refine ⟨⟨none, y, m, d, nl⟩, ⟨fun t ht => ?_, hy, hm, hd, hnl⟩, rfl, rfl⟩
      cases ht
  · rintro ⟨⟨tid, y, m, d, nl⟩, ⟨htid, hy, hm, hd, hnl⟩, rfl, rfl⟩
    have hdate : ∀ before, (⟨y ++ '.' :: (m ++ '.' :: d), nl, [("d", d), ("m", m), ("y", y)]⟩ :
        Hit Char) ∈ datePattern.hits before (y ++ '.' :: (m ++ '.' :: (d ++ nl))) := fun _ =>
      mem_hits_datePattern.2 ⟨y, m, d, nl, hy, hm, hd, hnl, rfl, rfl⟩
    apply mem_hits_seq.mpr
    cases tid with
    | none => exact ⟨⟨[], _, []⟩, mem_hits_opt.mpr (.inr rfl), _, hdate _, rfl⟩
    | some t =>
      refine ⟨⟨t.toList ++ ['-'], _, [("tid", t.toList)]⟩, mem_hits_opt.mpr (.inl ?_), _, hdate _,
        rfl⟩
      apply mem_hits_tenantPattern.2
      exact ⟨t.toList, y ++ '.' :: (m ++ '.' :: (d ++ nl)),
        by simp [IndexParts.body, IndexParts.segment], htid t rfl, rfl⟩

theorem date_unique {y m d nl y' m' d' nl' : List Char} (hy : Run isDecimal 4 y)
    (hy' : Run isDecimal 4 y') (hm : Run isDecimal 2 m) (hm' : Run isDecimal 2 m')
    (hd : Run isDecimal 2 d) (hd' : Run isDecimal 2 d')
    (h : y ++ '.' :: (m ++ '.' :: (d ++ nl)) = y' ++ '.' :: (m' ++ '.' :: (d' ++ nl'))) :
    y = y' ∧ m = m' ∧ d = d' ∧ nl = nl' := by
  obtain ⟨rfl, hmonth⟩ := List.append_inj h (hy.1.trans hy'.1.symm)
  obtain ⟨rfl, hday⟩ := List.append_inj (List.cons.inj hmonth).2 (hm.1.trans hm'.1.symm)
  obtain ⟨rfl, rfl⟩ := List.append_inj (List.cons.inj hday).2 (hd.1.trans hd'.1.symm)
  exact ⟨rfl, rfl, rfl, rfl⟩

theorem date_ne_tenant {y t u v : List Char} (hy : Run isDecimal 4 y) (ht : Run inSegment 36 t) :
    y ++ '.' :: u ≠ t ++ v := by
  intro h
  have hdot : (t ++ v)[4]? = some '.' := by
    rw [← h, ← hy.1]
    simp
  rw [List.getElem?_append_left (by rw [ht.1]; decide)] at hdot
  exact absurd (ht.2 '.' (List.mem_of_getElem? hdot)) (by decide)

theorem IndexParts.Valid.unique {p q : IndexParts} (hp : p.Valid) (hq : q.Valid)
    (h : p.body = q.body) : p = q := by
  obtain ⟨tid, y, m, d, nl⟩ := p
  obtain ⟨tid', y', m', d', nl'⟩ := q
  cases tid with
  | none =>
    cases tid' with
    | none =>
      obtain ⟨rfl, rfl, rfl, rfl⟩ :=
        date_unique hp.year hq.year hp.month hq.month hp.day hq.day h
      rfl
    | some t' =>
      simp only [body, segment, List.nil_append, List.append_assoc] at h
      exact absurd h (date_ne_tenant hp.year (hq.tid t' rfl))
  | some t =>
    cases tid' with
    | none =>
      simp only [body, segment, List.nil_append, List.append_assoc] at h
      exact absurd h.symm (date_ne_tenant hq.year (hp.tid t rfl))
    | some t' =>
      simp only [body, segment, List.append_assoc] at h
      obtain ⟨htid, hdate⟩ := List.append_inj h ((hp.tid t rfl).1.trans (hq.tid t' rfl).1.symm)
      obtain rfl := String.toList_injective htid
      obtain ⟨rfl, rfl, rfl, rfl⟩ :=
        date_unique hp.year hq.year hp.month hq.month hp.day hq.day (List.cons.inj hdate).2
      rfl

/-! ### What is parsed -/

/-- The name has these parts: a tenant, if there is one, that is a UUID, and a date. -/
def Reads (name : String) (tid : Option String) (date : Nat) : Prop :=
  ∃ p : IndexParts, p.Valid ∧ name.toList = p.text ∧ p.tid = tid ∧
    (∀ t ∈ tid, (uuidOf t.toList).isSome = true) ∧
    dateOf (number p.year) (number p.month) (number p.day) = some date

theorem hit_group (p : IndexParts) (t : List Char) :
    (⟨t, p.hit.rest, p.hit.groups⟩ : Hit Char).group "tid" = p.tid.map String.toList ∧
      (⟨t, p.hit.rest, p.hit.groups⟩ : Hit Char).group "y" = some p.year ∧
      (⟨t, p.hit.rest, p.hit.groups⟩ : Hit Char).group "m" = some p.month ∧
      (⟨t, p.hit.rest, p.hit.groups⟩ : Hit Char).group "d" = some p.day := by
  obtain ⟨tid, y, m, d, nl⟩ := p
  cases tid with
  | none => exact ⟨rfl, rfl, rfl, rfl⟩
  | some tid => exact ⟨rfl, rfl, rfl, rfl⟩

theorem mem_hits_indexPattern {cs : List Char} {h : Hit Char} : h ∈ indexPattern.hits [] cs ↔
    ∃ p : IndexParts, p.Valid ∧ cs = p.text ∧
      h = ⟨"opngms-logs-".toList ++ p.hit.text, p.hit.rest, p.hit.groups⟩ := by
  refine mem_hits_charsThen.trans ?_
  constructor
  · rintro ⟨_, hname, k, hk, rfl⟩
    obtain ⟨p, hp, rfl, rfl⟩ := mem_hits_body.1 hk
    exact ⟨p, hp, hname, rfl⟩
  · rintro ⟨p, hp, hname, rfl⟩
    exact ⟨p.body, hname, p.hit, mem_hits_body.2 ⟨p, hp, rfl, rfl⟩, rfl⟩

theorem matchStart_indexPattern {cs : List Char} {p : IndexParts} (hp : p.Valid)
    (hcs : cs = p.text) : indexPattern.matchStart cs =
      some ⟨"opngms-logs-".toList ++ p.hit.text, p.hit.rest, p.hit.groups⟩ := by
  have hmem := mem_hits_indexPattern.2 ⟨p, hp, hcs, rfl⟩
  cases hhead : indexPattern.matchStart cs with
  | none =>
    rw [matchStart, List.head?_eq_none_iff] at hhead
    rw [hhead] at hmem
    cases hmem
  | some h =>
    obtain ⟨q, hq, hcs', rfl⟩ := mem_hits_indexPattern.1 (List.mem_of_head? hhead)
    obtain rfl := hp.unique hq (List.append_cancel_left (hcs.symm.trans hcs'))
    rfl

/-- `parse_index` reads the parts of a name. -/
theorem parseIndex_eq_some_iff {name : String} {tid : Option String} {date : Nat} :
    parseIndex name = some (tid, date) ↔ Reads name tid date := by
  have hread : ∀ p : IndexParts, p.Valid → name.toList = p.text →
      (parseIndex name = some (tid, date) ↔ p.tid = tid ∧
        (∀ t ∈ tid, (uuidOf t.toList).isSome = true) ∧
        dateOf (number p.year) (number p.month) (number p.day) = some date) := by
    intro p hp hname
    obtain ⟨htid, hyear, hmonth, hday⟩ := hit_group p ("opngms-logs-".toList ++ p.hit.text)
    have hback : (p.tid.map String.toList).map String.ofList = p.tid := by
      cases p.tid with
      | none => rfl
      | some t => exact congrArg some String.ofList_toList
    simp only [parseIndex, matchStart_indexPattern hp hname, htid, hyear, hmonth, hday, hback,
      Option.getD_some]
    by_cases huuid : p.tid.any fun t => (uuidOf t.toList).isNone
    · rw [if_pos huuid]
      constructor
      · intro h
        cases h
      · rintro ⟨rfl, hvalid, -⟩
        obtain ⟨t, ht, hnone⟩ := (Option.any_eq_true _ _).mp huuid
        have hsome := hvalid t ht
        rw [Option.isNone_iff_eq_none.mp hnone] at hsome
        cases hsome
    · rw [if_neg huuid, Option.map_eq_some_iff]
      constructor
      · rintro ⟨_, hdate, heq⟩
        obtain ⟨rfl, rfl⟩ := Prod.mk.inj heq
        refine ⟨rfl, fun t ht => ?_, hdate⟩
        by_contra hnone
        refine huuid ((Option.any_eq_true _ _).mpr ⟨t, ht, ?_⟩)
        rw [Option.isNone_iff_eq_none]
        exact Option.not_isSome_iff_eq_none.mp hnone
      · rintro ⟨rfl, -, hdate⟩
        exact ⟨date, hdate, rfl⟩
  constructor
  · intro h
    cases hm : indexPattern.matchStart name.toList with
    | none =>
      rw [parseIndex, hm] at h
      cases h
    | some m =>
      obtain ⟨p, hp, hname, rfl⟩ := mem_hits_indexPattern.1 (List.mem_of_head? hm)
      exact ⟨p, hp, hname, (hread p hp hname).mp h⟩
  · rintro ⟨p, hp, hname, hrest⟩
    exact (hread p hp hname).mpr hrest

theorem Reads.unique {name : String} {tid tid' : Option String} {date date' : Nat}
    (h : Reads name tid date) (h' : Reads name tid' date') : tid = tid' ∧ date = date' := by
  have heq := (parseIndex_eq_some_iff.2 h).symm.trans (parseIndex_eq_some_iff.2 h')
  exact Prod.mk.inj (Option.some.inj heq)

/-! ### Whose retention counts -/

def uuidText (u : Uuid) : String := String.ofList (uuidStr u)

/-- The overrides of the tenants, keyed by the canonical texts of their ids. -/
structure Overrides where
  entries : List (String × Dict)
  nodup : (entries.map (·.1)).Nodup
  canonical : ∀ kv ∈ entries, ∃ u, kv.1 = uuidText u

def Overrides.of (ov : Overrides) (u : Uuid) : Option Dict := ov.entries.lookup (uuidText u)

/-- The days for which a tenant keeps its logs. -/
def daysOf (globalDefault : Int) (ov : Overrides) (u : Uuid) : Int :=
  effectiveRetentionDays .logLake globalDefault (ov.of u)

/-- The index has no tenant and is older than the global default, or it has the canonical
text of a tenant and is older than that tenant's days. -/
def Due (today : Nat) (globalDefault : Int) (ov : Overrides) (name : String) : Prop :=
  (∃ date, Reads name none date ∧ globalDefault < (today : Int) - date) ∨
    ∃ u date, Reads name (some (uuidText u)) date ∧ daysOf globalDefault ov u < (today : Int) - date

open Classical in
/-- The purge deletes the indices that are due, in order, and no others; whether it deletes an
index does not depend on what other tenants have set; and longer days delete no more. -/
structure PurgesOwn (indexNames : List String) (today : Nat) (globalDefault : Int)
    (ov : Overrides) : Prop where
  deleted : indicesToDelete indexNames today globalDefault ov.entries =
    indexNames.filter fun name => decide (Due today globalDefault ov name)
  isolated : ∀ ov' : Overrides, ∀ name,
    (∀ u date, Reads name (some (uuidText u)) date → ov'.of u = ov.of u) →
      (name ∈ indicesToDelete indexNames today globalDefault ov'.entries ↔
        name ∈ indicesToDelete indexNames today globalDefault ov.entries)
  monotone : ∀ ov' : Overrides, (∀ u, daysOf globalDefault ov u ≤ daysOf globalDefault ov' u) →
    ∀ name ∈ indicesToDelete indexNames today globalDefault ov'.entries,
      name ∈ indicesToDelete indexNames today globalDefault ov.entries

/-- No index whose tenant is written otherwise than canonically is older than the global
default. -/
def Canonical (indexNames : List String) (today : Nat) (globalDefault : Int) : Prop :=
  ∀ name ∈ indexNames, ∀ t date, Reads name (some t) date → (∀ u, t ≠ uuidText u) →
    (today : Int) - date ≤ globalDefault

section Main

variable {today : Nat} {globalDefault : Int} {ov ov' : Overrides} {name : String}

theorem uuidText_ne_empty (u : Uuid) : uuidText u ≠ "" := by
  intro h
  have hlist := congrArg String.toList h
  rw [uuidText, String.toList_ofList, uuidStr] at hlist
  have hlen := congrArg List.length hlist
  simp at hlen

theorem lookup_of_ne {t : String} (h : ∀ u, t ≠ uuidText u) : ov.entries.lookup t = none := by
  rw [List.lookup_eq_none_iff]
  intro kv hkv
  obtain ⟨u, hu⟩ := ov.canonical kv hkv
  rw [bne_iff_ne, hu]
  exact h u

theorem isDue_iff : isDue today globalDefault ov.entries name = true ↔
    Due today globalDefault ov name ∨
      ∃ t date, Reads name (some t) date ∧ (∀ u, t ≠ uuidText u) ∧
        globalDefault < (today : Int) - date := by
  have hparsed : ∀ tid date, Reads name tid date →
      (isDue today globalDefault ov.entries name = true ↔
        effectiveRetentionDays .logLake globalDefault
          (tid.bind fun t => if t = "" then none else ov.entries.lookup t) <
            (today : Int) - date) := by
    intro tid date h
    rw [isDue, parseIndex_eq_some_iff.2 h]
    exact decide_eq_true_iff
  constructor
  · intro h
    cases hp : parseIndex name with
    | none =>
      rw [isDue, hp] at h
      cases h
    | some parsed =>
      obtain ⟨tid, date⟩ := parsed
      have hread := parseIndex_eq_some_iff.1 hp
      rw [hparsed tid date hread] at h
      cases tid with
      | none => exact .inl (.inl ⟨date, hread, h⟩)
      | some t =>
        by_cases ht : ∃ u, t = uuidText u
        · obtain ⟨u, rfl⟩ := ht
          rw [Option.bind_some, if_neg (uuidText_ne_empty u)] at h
          exact .inl (.inr ⟨u, date, hread, h⟩)
        · have hne : ∀ u, t ≠ uuidText u := fun u hu => ht ⟨u, hu⟩
          rw [Option.bind_some, lookup_of_ne hne, ite_self] at h
          exact .inr ⟨t, date, hread, hne, h⟩
  · rintro ((⟨date, hread, h⟩ | ⟨u, date, hread, h⟩) | ⟨t, date, hread, hne, h⟩)
    · exact (hparsed none date hread).mpr h
    · rw [hparsed _ date hread, Option.bind_some, if_neg (uuidText_ne_empty u)]
      exact h
    · rw [hparsed _ date hread, Option.bind_some, lookup_of_ne hne, ite_self]
      exact h

theorem due_congr (h : ∀ u date, Reads name (some (uuidText u)) date → ov'.of u = ov.of u) :
    Due today globalDefault ov' name ↔ Due today globalDefault ov name := by
  unfold Due
  apply or_congr_right
  apply exists_congr
  intro u
  apply exists_congr
  intro date
  apply and_congr_right
  intro hread
  rw [daysOf, daysOf, h u date hread]

theorem due_mono (h : ∀ u, daysOf globalDefault ov u ≤ daysOf globalDefault ov' u)
    (hdue : Due today globalDefault ov' name) : Due today globalDefault ov name := by
  rcases hdue with hdue | ⟨u, date, hread, hlt⟩
  · exact .inl hdue
  · exact .inr ⟨u, date, hread, (h u).trans_lt hlt⟩

end Main

/-- **Every index is purged by the days of its own tenant exactly if no index whose tenant is
not written canonically is older than the global default.** -/
theorem purgesOwn_iff (indexNames : List String) (today : Nat) (globalDefault : Int)
    (ov : Overrides) :
    PurgesOwn indexNames today globalDefault ov ↔ Canonical indexNames today globalDefault := by
  classical
  constructor
  · intro h name hname t date hread hne
    by_contra hlt
    have hdeleted : name ∈ indicesToDelete indexNames today globalDefault ov.entries :=
      List.mem_filter.mpr ⟨hname, isDue_iff.2 (.inr ⟨t, date, hread, hne, not_le.mp hlt⟩)⟩
    rw [h.deleted] at hdeleted
    have hdue := of_decide_eq_true (List.mem_filter.mp hdeleted).2
    rcases hdue with ⟨date', hread', -⟩ | ⟨u, date', hread', -⟩
    · cases (hread.unique hread').1
    · exact hne u (Option.some.inj (hread.unique hread').1)
  · intro h
    refine ⟨?_, fun ov' name hsame => ?_, fun ov' hdays name hname => ?_⟩
    · refine List.filter_congr fun name hname => ?_
      rw [Bool.eq_iff_iff, isDue_iff, decide_eq_true_iff]
      apply or_iff_left
      rintro ⟨t, date, hread, hne, hlt⟩
      exact absurd (h name hname t date hread hne) (not_le.mpr hlt)
    · rw [indicesToDelete, indicesToDelete, List.mem_filter, List.mem_filter, isDue_iff, isDue_iff,
        due_congr hsame]
    · rw [indicesToDelete, List.mem_filter, isDue_iff] at hname ⊢
      exact ⟨hname.1, hname.2.imp_left (due_mono hdays)⟩

def keeperId : Uuid := ⟨0xaaaaaaaabbbb4cccadddeeeeeeeeeeee, by decide⟩

def keeperOverrides : Overrides where
  entries := [(uuidText keeperId, [("log_lake", .int 3650)])]
  nodup := List.nodup_singleton _
  canonical := fun kv hkv => ⟨keeperId, by rw [List.mem_singleton.mp hkv]⟩

def capitalIndex : String := "opngms-logs-AAAAAAAA-BBBB-4CCC-ADDD-EEEEEEEEEEEE-2026.01.01"

/-- The index is deleted after 31 days. -/
theorem capitalIndex_deleted :
    uuidOf "AAAAAAAA-BBBB-4CCC-ADDD-EEEEEEEEEEEE".toList = some keeperId ∧
      dateOf 2026 1 1 = some 739616 ∧ daysOf 30 keeperOverrides keeperId = 3650 ∧
        indicesToDelete [capitalIndex] (739616 + 31) 30 keeperOverrides.entries = [capitalIndex] ∧
          (PurgesOwn [capitalIndex] (739616 + 31) 30 keeperOverrides → False) := by
  classical
  have huuid : uuidOf "AAAAAAAA-BBBB-4CCC-ADDD-EEEEEEEEEEEE".toList = some keeperId := by
    decide +kernel
  have hparsed : parseIndex capitalIndex =
      some (some "AAAAAAAA-BBBB-4CCC-ADDD-EEEEEEEEEEEE", 739616) := by decide +kernel
  have hdeleted : indicesToDelete [capitalIndex] (739616 + 31) 30 keeperOverrides.entries =
      [capitalIndex] := by decide +kernel
  refine ⟨huuid, by decide +kernel, by decide +kernel, hdeleted, fun h => ?_⟩
  have hread := parseIndex_eq_some_iff.1 hparsed
  have hmem : capitalIndex ∈ indicesToDelete [capitalIndex] (739616 + 31) 30
      keeperOverrides.entries := hdeleted ▸ List.mem_singleton_self _
  rw [h.deleted, List.mem_filter, decide_eq_true_iff] at hmem
  have hdue := hmem.2
  rcases hdue with ⟨date, hread', -⟩ | ⟨u, date, hread', -⟩
  · cases (hread.unique hread').1
  · -- the id of the name would be in capitals
    have htext := Option.some.inj (hread.unique hread').1
    have hid := uuidOf_uuidStr u
    rw [← String.toList_ofList (l := uuidStr u), ← uuidText, ← htext, huuid] at hid
    obtain rfl := Option.some.inj hid
    exact absurd htext (by decide +kernel)

end LogLakePurge

end Opngms
