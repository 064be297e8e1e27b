/-
Opngms/WebauthnClient.lean

The byte codec of `webauthnClient.ts`, through which challenges and credential ids pass between
the server's JSON and the browser.

The codec stands on the browser's `btoa` and `atob`.  What it needs of them is `StandardBase64`;
`web_standard` says that the functions of the web platform, written out below, provide it.

A text is taken by its characters, where the browser counts units of sixteen bits: beyond those a
text is not base64 whatever its length.

Main results: **`codec_round_trip`**, **`base64urlToBytes_padded_iff`**.
-/
import Opngms.TextCodecs

namespace Opngms

namespace WebauthnClient

open TextCodecs

/-! ### The codec -/

/-- `text.replace(/c/g, d)` of one character. -/
def replaceChar (c d x : Char) : Char := if x = c then d else x

def replaceAll (c d : Char) (text : String) : String := text.map (replaceChar c d)

/-- `padded + pad`: the text over the standard alphabet, padded by its length. -/
def completed (value : String) : String :=
  let padded := replaceAll '_' '/' (replaceAll '-' '+' value)
  let pad := if padded.length % 4 = 0 then "" else String.ofList (pads (4 - padded.length % 4))
  padded ++ pad

/-- `base64urlToBytes`; `none` if `atob` throws. -/
def base64urlToBytes (atob : String → Option String) (value : String) : Option (List UInt8) :=
  (atob (completed value)).map fun binary => binary.toList.map fun c => UInt8.ofNat c.toNat

def binaryString (bytes : List UInt8) : String :=
  String.ofList (bytes.map fun b => Char.ofNat b.toNat)

/-- `bytesToBase64url`. -/
def bytesToBase64url (btoa : String → Option String) (buffer : List UInt8) : Option String :=
  (btoa (binaryString buffer)).map fun text =>
    String.ofList ((replaceAll '/' '_' (replaceAll '+' '-' text)).toList.rdropWhile (· = '='))

/-! ### Standard base64 -/

def stdAlphabet : List Char :=
  "ABCDEFGHIJKLMNOPQRSTUVWXYZabcdefghijklmnopqrstuvwxyz0123456789+/".toList

def stdChar (n : Nat) : Char := stdAlphabet.getD n 'A'

def stdValue (c : Char) : Option Nat := stdAlphabet.idxOf? c

def standard (bytes : List UInt8) : String := String.ofList (encodePadded stdChar bytes)

/-- `btoa` writes standard base64, and `atob` reads what it writes. -/
structure StandardBase64 (btoa atob : String → Option String) : Prop where
  writes : ∀ bytes, btoa (binaryString bytes) = some (standard bytes)
  reads : ∀ bytes, atob (standard bytes) = some (binaryString bytes)

/-- The base64url text of bytes without its padding, as the server writes it
(`bytes_to_base64url`). -/
def base64url (bytes : List UInt8) : String :=
  String.ofList ((b64Encode bytes).rdropWhile (· = '='))

/-! ### The two alphabets -/

/-- The white space that `atob` skips. -/
def isAsciiWhitespace (c : Char) : Bool :=
  c == '\t' || c == '\n' || c == '\x0c' || c == '\r' || c == ' '

/-- What the codec and `atob` make of the two characters for a group of six bits. -/
structure Letters (n : Nat) : Prop where
  toStandard : replaceChar '_' '/' (replaceChar '-' '+' (b64Char n)) = stdChar n
  toUrl : replaceChar '/' '_' (replaceChar '+' '-' (stdChar n)) = b64Char n
  ne_pad : stdChar n ≠ '='
  safe : (b64Char n).isAlphanum = true ∨ b64Char n = '-' ∨ b64Char n = '_'
  value : stdValue (stdChar n) = some n
  visible : isAsciiWhitespace (stdChar n) = false

theorem letters {n : Nat} (h : n < 64) : Letters n := by
  have hall : ∀ m < 64,
      replaceChar '_' '/' (replaceChar '-' '+' (b64Char m)) = stdChar m ∧
      replaceChar '/' '_' (replaceChar '+' '-' (stdChar m)) = b64Char m ∧ stdChar m ≠ '=' ∧
      ((b64Char m).isAlphanum = true ∨ b64Char m = '-' ∨ b64Char m = '_') ∧
      stdValue (stdChar m) = some m ∧ isAsciiWhitespace (stdChar m) = false := by
    decide +kernel
  obtain ⟨h1, h2, h3, h4, h5, h6⟩ := hall n h
  exact ⟨h1, h2, h3, h4, h5, h6⟩

theorem map_toStandard (bytes : List UInt8) :
    (encodeBare b64Char bytes).map (replaceChar '_' '/' ∘ replaceChar '-' '+') =
      encodeBare stdChar bytes := by
  rw [encodeBare, encodeBare, List.map_map]
  exact List.map_congr_left fun n hn => (letters (sextets_lt hn)).toStandard

theorem map_toUrl (bytes : List UInt8) :
    (encodeBare stdChar bytes).map (replaceChar '/' '_' ∘ replaceChar '+' '-') =
      encodeBare b64Char bytes := by
  rw [encodeBare, encodeBare, List.map_map]
  exact List.map_congr_left fun n hn => (letters (sextets_lt hn)).toUrl

theorem not_mem_encodeBare {alphabet : Nat → Char} (h : ∀ n < 64, alphabet n ≠ '=')
    (bytes : List UInt8) : '=' ∉ encodeBare alphabet bytes := by
  intro hmem
  obtain ⟨n, hn, hpad⟩ := List.mem_map.mp hmem
  exact h n (sextets_lt hn) hpad

theorem base64url_eq (bytes : List UInt8) :
    base64url bytes = String.ofList (encodeBare b64Char bytes) := by
  have hbare := not_mem_encodeBare (fun n hn => (b64Value_b64Char hn).2) bytes
  rw [base64url, b64Encode_eq, encodePadded, rdropWhile_pads hbare]

theorem length_base64url (bytes : List UInt8) :
    (base64url bytes).length = (sextets bytes).length := by
  rw [base64url_eq, String.length_ofList, length_encodeBare]

theorem toNat_ofNat_byte (b : UInt8) : (Char.ofNat b.toNat).toNat = b.toNat := by
  have hvalid : b.toNat.isValidChar := .inl (b.toNat_lt.trans (by decide))
  rw [Char.ofNat, dif_pos hvalid]
  rfl

theorem bytes_binaryString (bytes : List UInt8) :
    ((binaryString bytes).toList.map fun c => UInt8.ofNat c.toNat) = bytes := by
  rw [binaryString, String.toList_ofList, List.map_map]
  calc bytes.map ((fun c => UInt8.ofNat c.toNat) ∘ fun b => Char.ofNat b.toNat)
      = bytes.map id := List.map_congr_left fun b _ => ofNat_eq (toNat_ofNat_byte b)
    _ = bytes := List.map_id bytes

/-! ### Reading and writing -/

theorem toList_replaceAll (c d c' d' : Char) (text : String) :
    (replaceAll c' d' (replaceAll c d text)).toList =
      text.toList.map (replaceChar c' d' ∘ replaceChar c d) := by
  rw [replaceAll, replaceAll, String.toList_map, String.toList_map, List.map_map]

theorem bytesToBase64url_eq {btoa atob : String → Option String} (h : StandardBase64 btoa atob)
    (bytes : List UInt8) : bytesToBase64url btoa bytes = some (base64url bytes) := by
  have hbare := not_mem_encodeBare (fun n hn => (b64Value_b64Char hn).2) bytes
  have hpads : ∀ n, (pads n).map (replaceChar '/' '_' ∘ replaceChar '+' '-') = pads n :=
    fun _ => List.map_replicate
  rw [bytesToBase64url, h.writes, Option.map_some, toList_replaceAll, standard,
    String.toList_ofList, encodePadded, List.map_append, map_toUrl, hpads, rdropWhile_pads hbare,
    base64url_eq]

theorem completed_pads (bytes : List UInt8) (k : Nat) :
    completed (base64url bytes ++ String.ofList (pads k)) =
      String.ofList (encodeBare stdChar bytes ++
        pads (k + padding ((sextets bytes).length + k))) := by
  have hpads : (pads k).map (replaceChar '_' '/' ∘ replaceChar '-' '+') = pads k :=
    List.map_replicate
  have hpadded : replaceAll '_' '/' (replaceAll '-' '+' (base64url bytes ++ String.ofList (pads k))) =
      String.ofList (encodeBare stdChar bytes ++ pads k) := by
    rw [← String.toList_inj, toList_replaceAll, base64url_eq, String.toList_append,
      String.toList_ofList, String.toList_ofList, String.toList_ofList, List.map_append,
      map_toStandard, hpads]
  have hlength : (encodeBare stdChar bytes ++ pads k).length = (sextets bytes).length + k := by
    rw [List.length_append, length_encodeBare, pads, List.length_replicate]
  have hpad : ∀ n, (if n % 4 = 0 then "" else String.ofList (pads (4 - n % 4))) =
      String.ofList (pads (padding n)) := by
    intro n
    split
    · rename_i hzero
      have hpadding : padding n = 0 := by rw [padding, hzero]
      rw [hpadding]
      rfl
    · rename_i hzero
      have hpadding : padding n = 4 - n % 4 := by
        unfold padding
        omega
      rw [hpadding]
  rw [completed, hpadded, String.length_ofList, hlength, hpad, ← String.ofList_append,
    List.append_assoc, pads, pads, ← List.replicate_add]
  rfl

theorem base64urlToBytes_eq {btoa atob : String → Option String} (h : StandardBase64 btoa atob)
    (bytes : List UInt8) {k : Nat} (hk : k ≤ padding (base64url bytes).length) :
    base64urlToBytes atob (base64url bytes ++ String.ofList (pads k)) = some bytes := by
  have hstandard : completed (base64url bytes ++ String.ofList (pads k)) = standard bytes := by
    rw [completed_pads, padding_add (length_base64url bytes ▸ hk), standard, encodePadded,
      length_encodeBare]
  rw [base64urlToBytes, hstandard, h.reads, Option.map_some, bytes_binaryString]

theorem base64urlToBytes_bare {btoa atob : String → Option String} (h : StandardBase64 btoa atob)
    (bytes : List UInt8) : base64urlToBytes atob (base64url bytes) = some bytes := by
  have hread := base64urlToBytes_eq h bytes (Nat.zero_le _)
  rw [pads, List.replicate_zero, String.ofList_nil, String.append_empty] at hread
  exact hread

/-- **The codec is a round trip.**  What is written is safe in a URL and read back as the bytes;
the base64url text of bytes, with or without its padding, is read and written again without it. -/
theorem codec_round_trip {btoa atob : String → Option String} (h : StandardBase64 btoa atob) :
    (∀ bytes, ∃ text, bytesToBase64url btoa bytes = some text ∧
      base64urlToBytes atob text = some bytes ∧
      ∀ c ∈ text.toList, c.isAlphanum = true ∨ c = '-' ∨ c = '_') ∧
    ∀ bytes k, k ≤ padding (base64url bytes).length →
      ∃ read, base64urlToBytes atob (base64url bytes ++ String.ofList (pads k)) = some read ∧
        bytesToBase64url btoa read = some (base64url bytes) := by
  constructor
  · intro bytes
    refine ⟨base64url bytes, bytesToBase64url_eq h bytes, base64urlToBytes_bare h bytes, ?_⟩
    intro c hc
    rw [base64url_eq, String.toList_ofList] at hc
    obtain ⟨n, hn, rfl⟩ := List.mem_map.mp hc
    exact (letters (sextets_lt hn)).safe
  · intro bytes k hk
    exact ⟨bytes, base64urlToBytes_eq h bytes hk, bytesToBase64url_eq h bytes⟩

/-! ### The functions of the web platform -/

/-- A text without one or two pads at its end. -/
def dropPads (cs : List Char) : List Char :=
  match cs.reverse with
  | '=' :: '=' :: rest => rest.reverse
  | '=' :: rest => rest.reverse
  | _ => cs

/-- `btoa`: it throws for a character beyond one byte. -/
def btoa (text : String) : Option String :=
  if text.toList.all fun c => c.toNat ≤ 255 then
    some (standard (text.toList.map fun c => UInt8.ofNat c.toNat))
  else none

/-- `atob`: white space is skipped, and the padding may be missing. -/
def atob (text : String) : Option String :=
  let data := text.toList.filter fun c => !isAsciiWhitespace c
  let data := if data.length % 4 = 0 then dropPads data else data
  if data.length % 4 = 1 then none
  else (data.mapM stdValue).map fun groups => binaryString (ofSextets groups)

theorem mapM_map_inverse {α β : Type} {f : α → Option β} {g : β → α} {bs : List β}
    (h : ∀ b ∈ bs, f (g b) = some b) : (bs.map g).mapM f = some bs := by
  induction bs with
  | nil => rfl
  | cons b bs ih =>
    obtain ⟨hb, hbs⟩ := List.forall_mem_cons.mp h
    rw [List.map_cons, List.mapM_cons, hb, ih hbs]
    rfl

theorem mapM_eq_none {α β : Type} {f : α → Option β} {as : List α} {a : α} (ha : a ∈ as)
    (h : f a = none) : as.mapM f = none := by
  induction as with
  | nil => cases ha
  | cons b as ih =>
    rw [List.mapM_cons]
    rcases List.mem_cons.mp ha with rfl | ha
    · rw [h]
      rfl
    · rw [ih ha]
      cases f b <;> rfl

theorem dropPads_pads {cs : List Char} (h : '=' ∉ cs) (n : Nat) :
    dropPads (cs ++ pads n) = cs ++ pads (n - 2) := by
  have hlast : ∀ rest, cs.reverse ≠ '=' :: rest := by
    intro rest heq
    apply h
    rw [← List.mem_reverse, heq]
    exact List.mem_cons_self
  match n with
  | 0 =>
    rw [pads, List.replicate_zero, List.append_nil, dropPads]
    split
    · rename_i heq
      exact absurd heq (hlast _)
    · rename_i heq
      exact absurd heq (hlast _)
    · rfl
  | 1 =>
    have hrev : (cs ++ pads 1).reverse = '=' :: cs.reverse := by
      rw [List.reverse_append]
      rfl
    rw [dropPads, hrev]
    split
    · rename_i heq
      exact absurd (List.cons.inj heq).2 (hlast _)
    · rename_i heq
      rw [← (List.cons.inj heq).2, List.reverse_reverse]
      exact (List.append_nil cs).symm
    · rename_i hno
      exact absurd rfl (hno _)
  | n + 2 =>
    have hrev : (cs ++ pads (n + 2)).reverse = '=' :: '=' :: (cs ++ pads n).reverse := by
      rw [List.reverse_append, List.reverse_append, pads, pads, List.reverse_replicate,
        List.reverse_replicate]
      rfl
    rw [dropPads, hrev]
    show (cs ++ pads n).reverse.reverse = _
    rw [List.reverse_reverse]
    rfl

theorem filter_standard (bytes : List UInt8) (n : Nat) :
    ((encodeBare stdChar bytes ++ pads n).filter fun c => !isAsciiWhitespace c) =
      encodeBare stdChar bytes ++ pads n := by
  rw [List.filter_eq_self]
  intro c hc
  rcases List.mem_append.mp hc with hc | hc
  · obtain ⟨m, hm, rfl⟩ := List.mem_map.mp hc
    rw [(letters (sextets_lt hm)).visible]
    rfl
  · rw [List.eq_of_mem_replicate hc]
    rfl

theorem mapM_stdValue (bytes : List UInt8) :
    (encodeBare stdChar bytes).mapM stdValue = some (sextets bytes) :=
  mapM_map_inverse fun _ hn => (letters (sextets_lt hn)).value

theorem atob_pads (bytes : List UInt8) {n : Nat} (hn : ((sextets bytes).length + n) % 4 = 0) :
    atob (String.ofList (encodeBare stdChar bytes ++ pads n)) =
      if n ≤ 2 then some (binaryString bytes) else none := by
  have hlength : (encodeBare stdChar bytes ++ pads n).length = (sextets bytes).length + n := by
    rw [List.length_append, length_encodeBare, pads, List.length_replicate]
  rw [atob, String.toList_ofList, filter_standard, hlength, if_pos hn,
    dropPads_pads (not_mem_encodeBare (fun _ hn => (letters hn).ne_pad) bytes)]
  split
  · rename_i hone
    -- no text for bytes has a single character in its last group
    rw [List.length_append, length_encodeBare, pads, List.length_replicate] at hone
    have hbare := length_sextets bytes
    rw [if_neg (by omega)]
  · by_cases hle : n ≤ 2
    · have hnone : n - 2 = 0 := by omega
      rw [if_pos hle, hnone, pads, List.replicate_zero, List.append_nil, mapM_stdValue,
        Option.map_some, ofSextets_sextets]
    · have hpad : '=' ∈ encodeBare stdChar bytes ++ pads (n - 2) :=
        List.mem_append_right _ (List.mem_replicate.mpr ⟨by omega, rfl⟩)
      rw [if_neg hle, mapM_eq_none hpad (by decide +kernel)]
      rfl

theorem web_standard : StandardBase64 btoa atob where
  writes := by
    intro bytes
    have hall : ((binaryString bytes).toList.all fun c => c.toNat ≤ 255) = true := by
      rw [List.all_eq_true, binaryString, String.toList_ofList]
      intro c hc
      obtain ⟨b, -, rfl⟩ := List.mem_map.mp hc
      rw [toNat_ofNat_byte]
      exact decide_eq_true (Nat.le_of_lt_succ b.toNat_lt)
    rw [btoa, if_pos hall, bytes_binaryString]
  reads := by
    intro bytes
    have hlength := length_encodePadded stdChar bytes
    rw [encodePadded, length_encodeBare, List.length_append, length_encodeBare, pads,
      List.length_replicate] at hlength
    have hpads : padding (sextets bytes).length ≤ 2 := by
      have hbare := length_sextets bytes
      unfold padding
      omega
    rw [standard, encodePadded, length_encodeBare, atob_pads bytes hlength, if_pos hpads]

/-- The base64url text with pads is read exactly when there are no more than its padding. -/
theorem base64urlToBytes_padded_iff (bytes : List UInt8) (k : Nat) :
    (base64urlToBytes atob (base64url bytes ++ String.ofList (pads k))).isSome = true ↔
      k ≤ padding (base64url bytes).length := by
  have hbare := length_sextets bytes
  have hlength : ((sextets bytes).length + (k + padding ((sextets bytes).length + k))) % 4 = 0 := by
    unfold padding
    omega
  rw [length_base64url, base64urlToBytes, completed_pads, atob_pads bytes hlength, Option.isSome_map]
  have hpads : k + padding ((sextets bytes).length + k) ≤ 2 ↔ k ≤ padding (sextets bytes).length := by
    unfold padding
    omega
  rw [← hpads]
  split
  · rename_i hle
    exact ⟨fun _ => hle, fun _ => rfl⟩
  · rename_i hgt
    exact ⟨nofun, fun hle => absurd hle hgt⟩

theorem codec_round_trip_web :
    (∃ text, bytesToBase64url btoa [0xFB, 0xEF] = some text ∧
      base64urlToBytes atob text = some [0xFB, 0xEF] ∧
      ∀ c ∈ text.toList, c.isAlphanum = true ∨ c = '-' ∨ c = '_') ∧
    ∃ read, base64urlToBytes atob (base64url [0xFB, 0xEF] ++ String.ofList (pads 1)) = some read ∧
      bytesToBase64url btoa read = some (base64url [0xFB, 0xEF]) :=
  ⟨(codec_round_trip web_standard).1 _, (codec_round_trip web_standard).2 _ 1 (by decide +kernel)⟩

example : bytesToBase64url btoa [0xFB, 0xEF] = some "--8" := by decide +kernel

/-! ### Credential lists -/

end WebauthnClient

end Opngms
