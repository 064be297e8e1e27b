/-
Opngms/EventCursor.lean

The cursor of the event list (repositories/event.py): base64 over the JSON array of
an event's time, device, source and key.

Times are the UTC datetimes the driver returns for a `timestamptz`, in microseconds
from year 1 up to the end of year 9999.  `fromisoformat` and `UUID` read the texts that
`isoformat` and `str` write, and the JSON is an array of four strings.

Main result: **`decodeCursor_encodeCursor`**.
-/
import Opngms.Calendar
import Opngms.TextCodecs

namespace Opngms

namespace EventCursor

open Calendar TextCodecs

/-! ### Datetimes -/

def endOfTime : Nat := months.start 119988 * dayMicros

abbrev Instant := {t : Nat // t < endOfTime}

/-- `datetime.isoformat` in UTC: the microseconds are written when there are any. -/
def isoformat (time : Instant) : List Char :=
  let day := dayOf time
  let month := months.indexOf day
  let micros := time.1 % dayMicros
  digits 10 4 (yearOf month) ++ '-' :: (digits 10 2 (monthOf month) ++ '-' ::
    (digits 10 2 (day - months.start month + 1) ++ 'T' ::
    (digits 10 2 (micros / hourMicros) ++ ':' :: (digits 10 2 (micros / 60000000 % 60) ++ ':' ::
    (digits 10 2 (micros / 1000000 % 60) ++
    ((if micros % 1000000 = 0 then [] else '.' :: digits 10 6 (micros % 1000000)) ++
      "+00:00".toList))))))

def fraction : List Char → Option (Nat × List Char)
  | '.' :: cs => number 10 6 cs
  | cs => some (0, cs)

/-- The datetime of a date and a time of day, if there is one. -/
def datetime (year month day hour minute second micro : Nat) : Option Instant :=
  let m := monthIndex year month
  let t := (months.start m + (day - 1)) * dayMicros +
    ((hour * 60 + minute) * 60 + second) * 1000000 + micro
  if 1 ≤ year ∧ 1 ≤ month ∧ month ≤ 12 ∧ 1 ≤ day ∧ months.start m + day ≤ months.start (m + 1) ∧
      hour < 24 ∧ minute < 60 ∧ second < 60 then
    if h : t < endOfTime then some ⟨t, h⟩ else none
  else none

/-- `datetime.fromisoformat`, on the layout of `isoformat`. -/
def fromisoformat (cs : List Char) : Option Instant := do
  let (year, cs) ← number 10 4 cs
  let cs ← expect '-' cs
  let (month, cs) ← number 10 2 cs
  let cs ← expect '-' cs
  let (day, cs) ← number 10 2 cs
  -- any character separates the date from the time
  let cs ← cs.tail?
  let (hour, cs) ← number 10 2 cs
  let cs ← expect ':' cs
  let (minute, cs) ← number 10 2 cs
  let cs ← expect ':' cs
  let (second, cs) ← number 10 2 cs
  let (micro, cs) ← fraction cs
  if cs = "+00:00".toList then datetime year month day hour minute second micro else none

theorem monthIndex_of (m : Nat) : monthIndex (yearOf m) (monthOf m) = m := by
  unfold monthIndex yearOf monthOf
  omega

theorem clock_parts (micros : Nat) :
    ((micros / hourMicros * 60 + micros / 60000000 % 60) * 60 + micros / 1000000 % 60) * 1000000 +
      micros % 1000000 = micros := by
  unfold hourMicros
  omega

theorem datetime_parts (time : Instant) :
    datetime (yearOf (months.indexOf (dayOf time))) (monthOf (months.indexOf (dayOf time)))
      (dayOf time - months.start (months.indexOf (dayOf time)) + 1)
      (time.1 % dayMicros / hourMicros) (time.1 % dayMicros / 60000000 % 60)
      (time.1 % dayMicros / 1000000 % 60) (time.1 % dayMicros % 1000000) = some time := by
  have hle := months.start_indexOf_le (dayOf time)
  have hlt := months.lt_start_succ_indexOf (dayOf time)
  have hmonth : monthOf (months.indexOf (dayOf time)) ≤ 12 := by
    unfold monthOf
    omega
  have hmonth' : 1 ≤ monthOf (months.indexOf (dayOf time)) := Nat.le_add_left 1 _
  have hyear : 1 ≤ yearOf (months.indexOf (dayOf time)) := Nat.le_add_left 1 _
  have hmod : time.1 % dayMicros < dayMicros := Nat.mod_lt _ (by decide)
  have hsum := Nat.div_add_mod time.1 dayMicros
  unfold datetime
  rw [monthIndex_of]
  dsimp only
  have hday : months.start (months.indexOf (dayOf time)) +
      (dayOf time - months.start (months.indexOf (dayOf time)) + 1 - 1) = dayOf time := by omega
  have htime : dayOf time * dayMicros + ((time.1 % dayMicros / hourMicros * 60 +
      time.1 % dayMicros / 60000000 % 60) * 60 + time.1 % dayMicros / 1000000 % 60) * 1000000 +
      time.1 % dayMicros % 1000000 = time.1 := by
    have hclock := clock_parts (time.1 % dayMicros)
    rw [Nat.mul_comm] at hsum
    unfold dayOf
    omega
  rw [hday, htime, dif_pos time.2, if_pos]
  refine ⟨hyear, hmonth', hmonth, by omega, by omega, ?_, Nat.mod_lt _ (by decide),
    Nat.mod_lt _ (by decide)⟩
  unfold dayMicros hourMicros at *
  omega

theorem yearOf_lt (time : Instant) : yearOf (months.indexOf (dayOf time)) < 10 ^ 4 := by
  have hday : dayOf time < months.start 119988 := by
    have ht := time.2
    unfold endOfTime at ht
    exact Nat.div_lt_of_lt_mul (by rwa [Nat.mul_comm])
  have hindex : months.indexOf (dayOf time) < 119988 :=
    months.strictMono.lt_iff_lt.mp
      (Nat.lt_of_le_of_lt (months.start_indexOf_le (dayOf time)) hday)
  unfold yearOf
  omega

theorem some_bind {α β : Type} (a : α) (f : α → Option β) : (some a >>= f) = f a := rfl

/-- **A datetime in UTC reads back from its ISO format.** -/
theorem fromisoformat_isoformat (time : Instant) : fromisoformat (isoformat time) = some time := by
  have hle := months.start_indexOf_le (dayOf time)
  have hlt := months.lt_start_succ_indexOf (dayOf time)
  have hlen := months_start_succ_le (months.indexOf (dayOf time))
  have hmod : time.1 % dayMicros < 86400000000 := Nat.mod_lt _ (by decide)
  have hyear := yearOf_lt time
  have hmonth : monthOf (months.indexOf (dayOf time)) < 10 ^ 2 := by
    unfold monthOf
    omega
  have hday : dayOf time - months.start (months.indexOf (dayOf time)) + 1 < 10 ^ 2 := by omega
  have hhour : time.1 % dayMicros / hourMicros < 10 ^ 2 := by
    unfold hourMicros
    omega
  have hminute : time.1 % dayMicros / 60000000 % 60 < 10 ^ 2 := by omega
  have hsecond : time.1 % dayMicros / 1000000 % 60 < 10 ^ 2 := by omega
  have hfraction : fraction ((if time.1 % dayMicros % 1000000 = 0 then []
      else '.' :: digits 10 6 (time.1 % dayMicros % 1000000)) ++ "+00:00".toList) =
      some (time.1 % dayMicros % 1000000, "+00:00".toList) := by
    split
    · rename_i hzero
      rw [hzero]
      rfl
    · rw [List.cons_append, fraction, number_digits (by decide) (by omega)]
  have hparts := datetime_parts time
  unfold fromisoformat isoformat
  dsimp only
  rw [number_digits (by decide) hyear, some_bind]
  dsimp only
  rw [expect_cons, some_bind, number_digits (by decide) hmonth, some_bind]
  dsimp only
  rw [expect_cons, some_bind, number_digits (by decide) hday, some_bind]
  dsimp only
  rw [List.tail?_cons, some_bind, number_digits (by decide) hhour, some_bind]
  dsimp only
  rw [expect_cons, some_bind, number_digits (by decide) hminute, some_bind]
  dsimp only
  rw [expect_cons, some_bind, number_digits (by decide) hsecond, some_bind]
  dsimp only
  rw [hfraction, some_bind]
  dsimp only
  exact (if_pos rfl).trans hparts

/-! ### UUIDs -/

/-- A `uuid.UUID`. -/
abbrev Uuid := Fin (2 ^ 128)

/-- `str(uuid)`: 32 hexadecimal digits in five groups. -/
def uuidStr (u : Uuid) : List Char :=
  let hex := digits 16 32 u
  hex.take 8 ++ '-' :: ((hex.drop 8).take 4 ++ '-' :: ((hex.drop 12).take 4 ++ '-' ::
    ((hex.drop 16).take 4 ++ '-' :: hex.drop 20)))

/-- `uuid.UUID(text)`: the dashes are dropped, 32 digits must be left. -/
def uuidOf (cs : List Char) : Option Uuid := do
  let hex := cs.filter (· ≠ '-')
  if hex.length = 32 then
    let n ← readDigits 16 hex
    if h : n < 2 ^ 128 then some ⟨n, h⟩ else none
  else none

theorem dash_notMem_digits (w n : Nat) : ∀ c ∈ digits 16 w n, c ≠ '-' := by
  have hdigit : ∀ m < 16, Nat.digitChar m ≠ '-' := by decide
  induction w generalizing n with
  | zero => exact fun c hc => absurd hc List.not_mem_nil
  | succ w ih =>
    intro c hc
    rcases List.mem_append.mp hc with hc | hc
    · exact ih _ c hc
    · rw [List.mem_singleton.mp hc]
      exact hdigit _ (Nat.mod_lt n (by decide))

/-- **A UUID reads back from its text.** -/
theorem uuidOf_uuidStr (u : Uuid) : uuidOf (uuidStr u) = some u := by
  have hdash := dash_notMem_digits 32 u
  have hlen := length_digits 16 32 u
  have hread : readDigits 16 (digits 16 32 u) = some u.1 :=
    readDigits_digits (by decide) (Nat.lt_of_lt_of_le u.2 (by decide))
  have hfilter : (uuidStr u).filter (· ≠ '-') = digits 16 32 u := by
    unfold uuidStr
    dsimp only
    generalize digits 16 32 u.1 = hex at hdash
    have hkeep : ∀ part : List Char, (∀ c ∈ part, c ∈ hex) →
        part.filter (fun c => decide (c ≠ '-')) = part := by
      intro part hpart
      apply List.filter_eq_self.mpr
      intro c hc
      exact decide_eq_true (hdash c (hpart c hc))
    have hskip : ∀ part : List Char, ('-' :: part).filter (fun c => decide (c ≠ '-')) =
        part.filter fun c => decide (c ≠ '-') := fun part => rfl
    have hcut : ∀ i, ∀ c ∈ (hex.drop i).take 4, c ∈ hex := fun i c hc =>
      List.mem_of_mem_drop (List.mem_of_mem_take hc)
    have hjoin : ∀ i, (hex.drop i).take 4 ++ hex.drop (i + 4) = hex.drop i := by
      intro i
      rw [← List.drop_drop, List.take_append_drop]
    simp only [List.filter_append, hskip]
    rw [hkeep _ fun c => List.mem_of_mem_take, hkeep _ (hcut 8), hkeep _ (hcut 12),
      hkeep _ (hcut 16), hkeep _ fun c => List.mem_of_mem_drop, hjoin 16, hjoin 12, hjoin 8,
      List.take_append_drop]
  unfold uuidOf
  rw [hfilter, if_pos hlen, hread]
  simp

/-! ### The cursor -/

/-- Whitespace of JSON. -/
def skipSpace (cs : List Char) : List Char :=
  cs.dropWhile fun c => c = ' ' || c = '\t' || c = '\n' || c = '\r'

/-- A string of an array, and the space around it. -/
def element (cs : List Char) : Option (String × List Char) := do
  let cs ← expect '"' (skipSpace cs)
  let (s, cs) ← loadsStr cs
  return (s, skipSpace cs)

/-- `json.loads` of an array of four strings: the cursor is unpacked into four. -/
def loadsFour (raw : String) : Option (String × String × String × String) := do
  let cs ← expect '[' (skipSpace raw.toList)
  let (t, cs) ← element cs
  let cs ← expect ',' cs
  let (did, cs) ← element cs
  let cs ← expect ',' cs
  let (source, cs) ← element cs
  let cs ← expect ',' cs
  let (ek, cs) ← element cs
  let cs ← expect ']' cs
  if skipSpace cs = [] then some (t, did, source, ek) else none

/-- `json.dumps` of a list of four strings. -/
def dumpsFour (t did source ek : String) : String :=
  String.ofList ('[' :: (dumpsStr t ++ ',' :: (' ' :: dumpsStr did ++ ',' ::
    (' ' :: dumpsStr source ++ ',' :: (' ' :: dumpsStr ek ++ [']'])))))

/-- `encode_cursor`. -/
def encodeCursor (time : Instant) (deviceId : Uuid) (source eventKey : String) : String :=
  let raw := dumpsFour (String.ofList (isoformat time)) (String.ofList (uuidStr deviceId)) source
    eventKey
  String.ofList (b64Encode raw.toUTF8.data.toList)

/-- `decode_cursor`; `none` is its `ValueError`. -/
def decodeCursor (cursor : String) : Option (Instant × Uuid × String × String) := do
  let bytes ← b64Decode cursor.toList
  let raw ← String.fromUTF8? ⟨bytes.toArray⟩
  let (t, did, source, ek) ← loadsFour raw
  let time ← fromisoformat t.toList
  let deviceId ← uuidOf did.toList
  return (time, deviceId, source, ek)

theorem element_dumpsStr (s : String) {c : Char} (cs : List Char)
    (hc : skipSpace (c :: cs) = c :: cs) :
    element (dumpsStr s ++ c :: cs) = some (s, c :: cs) := by
  have hskip : skipSpace (dumpsStr s ++ c :: cs) = dumpsStr s ++ c :: cs := rfl
  have hloads := loadsStr_dumpsStr s (c :: cs)
  unfold element
  rw [hskip]
  cases hquote : expect '"' (dumpsStr s ++ c :: cs) with
  | none =>
    rw [hquote] at hloads
    cases hloads
  | some rest =>
    rw [hquote, Option.bind_some] at hloads
    simp [hloads, hc]

theorem element_space (cs : List Char) : element (' ' :: cs) = element cs := rfl

theorem loadsFour_dumpsFour (t did source ek : String) :
    loadsFour (dumpsFour t did source ek) = some (t, did, source, ek) := by
  have hopen : ∀ cs : List Char, skipSpace ('[' :: cs) = '[' :: cs := fun _ => rfl
  have hcomma : ∀ cs : List Char, skipSpace (',' :: cs) = ',' :: cs := fun _ => rfl
  have hclose : ∀ cs : List Char, skipSpace (']' :: cs) = ']' :: cs := fun _ => rfl
  have hend : skipSpace [] = [] := rfl
  unfold loadsFour dumpsFour
  simp [hopen, element_dumpsStr, element_space, hcomma, hclose, hend]

theorem fromUTF8_toUTF8 (raw : String) :
    String.fromUTF8? ⟨raw.toUTF8.data.toList.toArray⟩ = some raw := by
  have hsame : (⟨raw.toUTF8.data.toList.toArray⟩ : ByteArray) = raw.toByteArray := by simp
  rw [hsame, String.fromUTF8?, dif_pos raw.isValidUTF8]
  rfl

/-- **A cursor decodes to the key it was made from.** -/
theorem decodeCursor_encodeCursor (time : Instant) (deviceId : Uuid) (source eventKey : String) :
    decodeCursor (encodeCursor time deviceId source eventKey) =
      some (time, deviceId, source, eventKey) := by
  unfold decodeCursor encodeCursor
  dsimp only
  rw [String.toList_ofList, b64Decode_encode]
  simp only [Option.bind_eq_bind, Option.bind_some]
  rw [fromUTF8_toUTF8]
  simp only [Option.bind_some]
  rw [loadsFour_dumpsFour]
  simp [fromisoformat_isoformat, uuidOf_uuidStr]

end EventCursor

end Opngms
