/-
Opngms/TokenChecks.lean

The comparisons of secrets: the state of the OAuth flow (`_state_sig`, `sign_state` and
`verify_state` of services/email/oauth.py), the CSRF token of a session (`enforce_csrf` of
core/deps.py) and the pinned fingerprint of a certificate (connectors/opnsense/tls_pinning.py).

All three compare with `compare_digest`, which takes two strings only if they are ASCII.  None
of them looks at the text first, so another character in it ends the check with a `TypeError`;
on every other text the check is total and accepts exactly what it is for.

Main result: **`tokenChecks_exact_iff`**, with one lemma for each of the three
(`stateExact_iff`, `csrfExact_iff`, `pinExact_iff`).
-/
import Opngms.ConfigModel
import Opngms.FirmwareActions
import Opngms.PyValues

namespace Opngms

namespace TokenChecks

open Py (PyException)

/-! ### Texts and digests -/

/-- `s.isascii()`. -/
def IsAscii (s : String) : Prop := ∀ c ∈ s.toList, c.toNat < 128

instance (s : String) : Decidable (IsAscii s) :=
  List.decidableBAll (fun c : Char => c.toNat < 128) s.toList

/-- `compare_digest` of two strings. -/
def compareDigest (a b : String) : Except PyException Bool :=
  if IsAscii a ∧ IsAscii b then .ok (decide (a = b)) else .error .typeError

/-- `s.encode()`. -/
def encode (s : String) : List UInt8 := s.toUTF8.toList

/-- `hexdigest()` of a digest. -/
def hexdigest (digest : List UInt8) : String :=
  String.ofList (digest.flatMap fun b =>
    [Nat.digitChar (b.toNat / 16), Nat.digitChar (b.toNat % 16)])

/-- `hashlib.sha256` and `hmac` over it, and the secret of the settings. -/
structure Digests where
  sha256 : List UInt8 → List UInt8
  hmacSha256 : (key message : List UInt8) → List UInt8
  sessionSecret : String

/-- A digit of `hexdigest`. -/
def IsHex (c : Char) : Prop := ∃ d < 16, c = Nat.digitChar d

theorem isHex_of_mem_hexdigest {digest : List UInt8} {c : Char}
    (h : c ∈ (hexdigest digest).toList) : IsHex c := by
  rw [hexdigest, String.toList_ofList, List.mem_flatMap] at h
  obtain ⟨b, -, hc⟩ := h
  have hb : b.toNat < 256 := b.toNat_lt
  rcases List.mem_cons.mp hc with rfl | hc
  · exact ⟨b.toNat / 16, by omega, rfl⟩
  · exact ⟨b.toNat % 16, by omega, List.mem_singleton.mp hc⟩

theorem IsHex.spec {c : Char} (h : IsHex c) :
    c.toNat < 128 ∧ c ≠ '.' ∧ c ≠ 's' := by
  obtain ⟨d, hd, rfl⟩ := h
  have hall : ∀ d < 16, (Nat.digitChar d).toNat < 128 ∧ Nat.digitChar d ≠ '.' ∧
      Nat.digitChar d ≠ 's' := by decide
  exact hall d hd

theorem isAscii_hexdigest (digest : List UInt8) : IsAscii (hexdigest digest) :=
  fun _ hc => (isHex_of_mem_hexdigest hc).spec.1

theorem compareDigest_hexdigest (a : String) (digest : List UInt8) :
    compareDigest a (hexdigest digest) =
      if IsAscii a then .ok (decide (a = hexdigest digest)) else .error .typeError := by
  simp only [compareDigest, isAscii_hexdigest digest, and_true]

theorem compareDigest_comm (a b : String) : compareDigest a b = compareDigest b a := by
  simp only [compareDigest, and_comm, eq_comm]

/-! ### Parts of a text -/

/-- `s.rsplit(sep, 1)`. -/
def rsplitOnce (sep : Char) (s : String) : List String :=
  match s.toList.reverse.dropWhile (· ≠ sep) with
  | [] => [s]
  | _ :: front =>
    [String.ofList front.reverse,
      String.ofList (s.toList.reverse.takeWhile (· ≠ sep)).reverse]

/-- `s.split(sep)`. -/
def split (sep : Char) (s : String) : List String := (s.toList.splitOn sep).map String.ofList

section Parts

variable {sep : Char} {s a b : String}

theorem rsplitOnce_append (h : sep ∉ b.toList) :
    rsplitOnce sep (a ++ String.singleton sep ++ b) = [a, b] := by
  have hrev : (a ++ String.singleton sep ++ b).toList.reverse =
      b.toList.reverse ++ sep :: a.toList.reverse := by simp
  have hall : ∀ c ∈ b.toList.reverse, decide (c ≠ sep) = true := by
    intro c hc
    have hne : c ≠ sep := fun heq => h (heq ▸ List.mem_reverse.mp hc)
    simpa using hne
  rw [rsplitOnce, hrev, List.dropWhile_append_of_pos hall, List.takeWhile_append_of_pos hall]
  simp

theorem rsplitOnce_cases (sep : Char) (s : String) :
    rsplitOnce sep s = [s] ∨
      ∃ a b, rsplitOnce sep s = [a, b] ∧ s = a ++ String.singleton sep ++ b := by
  rw [rsplitOnce]
  split
  · exact .inl rfl
  · rename_i c front hdrop
    refine .inr ⟨_, _, rfl, ?_⟩
    have hc : c = sep := by
      have hhead := List.head?_dropWhile_not (p := (· ≠ sep)) s.toList.reverse
      rw [hdrop] at hhead
      simpa using hhead
    have hjoin := List.takeWhile_append_dropWhile (p := (· ≠ sep)) (l := s.toList.reverse)
    rw [hdrop, hc] at hjoin
    have hback := congrArg List.reverse hjoin
    rw [List.reverse_reverse, List.reverse_append, List.reverse_cons] at hback
    apply String.toList_injective
    simp only [String.toList_append, String.toList_ofList, String.toList_singleton]
    exact hback.symm

end Parts

/-! ### `int` -/

/-- The white space that `int` skips: unlike `strip`, not the separators of ASCII. -/
def skipped (c : Char) : Bool := isSpace c && !(28 ≤ c.toNat && c.toNat ≤ 31)

/-- `int(s)`. -/
def int (s : String) : Except BuiltinError Int :=
  FirmwareActions.intText (String.ofList ((s.toList.dropWhile skipped).reverse.dropWhile skipped).reverse)

theorem digitChar_spec {d : Nat} (hd : d < 10) :
    isDecimal (Nat.digitChar d) = true ∧ decimalValue (Nat.digitChar d) = some d ∧
      skipped (Nat.digitChar d) = false ∧ Nat.digitChar d ≠ '.' ∧ Nat.digitChar d ≠ '-' ∧
      Nat.digitChar d ≠ '+' ∧ Nat.digitChar d ≠ '_' ∧ (Nat.digitChar d).toNat - '0'.toNat = d := by
  have hall : ∀ d < 10, isDecimal (Nat.digitChar d) = true ∧
      decimalValue (Nat.digitChar d) = some d ∧ skipped (Nat.digitChar d) = false ∧
      Nat.digitChar d ≠ '.' ∧ Nat.digitChar d ≠ '-' ∧ Nat.digitChar d ≠ '+' ∧
      Nat.digitChar d ≠ '_' ∧ (Nat.digitChar d).toNat - '0'.toNat = d := by decide
  exact hall d hd

theorem exists_digitChar {n : Nat} {c : Char} (h : c ∈ Nat.toDigits 10 n) :
    ∃ d < 10, c = Nat.digitChar d := by
  induction n using Nat.strongRecOn with
  | ind n ih =>
    by_cases hn : n < 10
    · rw [Nat.toDigits_of_lt_base hn] at h
      exact ⟨n, hn, List.mem_singleton.mp h⟩
    · rw [Nat.toDigits_of_base_le (by decide) (Nat.le_of_not_lt hn), List.mem_append] at h
      rcases h with h | h
      · exact ih (n / 10) (by omega) h
      · exact ⟨n % 10, by omega, List.mem_singleton.mp h⟩

theorem intOf_toDigits {n : Nat} (h : n < 10 ^ 4300) : intOf (Nat.toDigits 10 n) = .ok n := by
  have hlen : (Nat.toDigits 10 n).length ≤ 4300 :=
    (Nat.length_toDigits_le_iff (by decide) (by decide)).mpr h
  have hfold : ∀ (cs : List Char) (i : Nat), (∀ c ∈ cs, ∃ d < 10, c = Nat.digitChar d) →
      cs.foldl (fun n c => 10 * n + (decimalValue c).getD 0) i = Nat.ofDigitChars 10 cs i := by
    intro cs
    induction cs with
    | nil => exact fun _ _ => rfl
    | cons c cs ih =>
      intro i hall
      obtain ⟨d, hd, rfl⟩ := hall c List.mem_cons_self
      obtain ⟨-, hvalue, -, -, -, -, -, hnum⟩ := digitChar_spec hd
      rw [List.foldl_cons, Nat.ofDigitChars_cons, hvalue, hnum]
      exact ih _ fun c hc => hall c (List.mem_cons_of_mem _ hc)
  rw [intOf, if_neg (by omega), hfold _ 0 fun c hc => exists_digitChar hc,
    Nat.ofDigitChars_ten_toDigits]

theorem int_repr {n : Nat} (h : n < 10 ^ 4300) : int n.repr = .ok n := by
  have hspec := fun c (hc : c ∈ Nat.toDigits 10 n) => exists_digitChar hc
  have hkeep : ∀ cs : List Char, (∀ c ∈ cs, ∃ d < 10, c = Nat.digitChar d) →
      cs.dropWhile skipped = cs := by
    intro cs hcs
    cases cs with
    | nil => rfl
    | cons c cs =>
      obtain ⟨d, hd, rfl⟩ := hcs c List.mem_cons_self
      exact List.dropWhile_cons_of_neg (by simp [(digitChar_spec hd).2.2.1])
  have hstrip : int n.repr = FirmwareActions.intText (String.ofList (Nat.toDigits 10 n)) := by
    rw [int, Nat.repr_eq_ofList_toDigits, String.toList_ofList, hkeep _ hspec,
      hkeep _ (fun c hc => hspec c (List.mem_reverse.mp hc)), List.reverse_reverse]
  have hgroups : (Nat.toDigits 10 n).splitOn '_' = [Nat.toDigits 10 n] := by
    apply List.splitOn_eq_singleton
    intro hmem
    obtain ⟨d, hd, heq⟩ := hspec _ hmem
    exact (digitChar_spec hd).2.2.2.2.2.2.1 heq.symm
  have hall : (Nat.toDigits 10 n).all isDecimal = true := by
    rw [List.all_eq_true]
    intro c hc
    obtain ⟨d, hd, rfl⟩ := hspec c hc
    exact (digitChar_spec hd).1
  rw [hstrip, FirmwareActions.intText, String.toList_ofList]
  split
  · rename_i cs heq
    obtain ⟨d, hd, hc⟩ := hspec '-' (by rw [heq]; exact List.mem_cons_self)
    exact absurd hc.symm (digitChar_spec hd).2.2.2.2.1
  · rename_i cs heq
    obtain ⟨d, hd, hc⟩ := hspec '+' (by rw [heq]; exact List.mem_cons_self)
    exact absurd hc.symm (digitChar_spec hd).2.2.2.2.2.1
  · have hne : (Nat.toDigits 10 n).isEmpty = false := by simp [Nat.toDigits_ne_nil]
    simp only [hgroups, List.all_cons, List.all_nil, hne, hall, Bool.not_false, Bool.and_self,
      if_true, List.flatten_cons, List.flatten_nil, List.append_nil, intOf_toDigits h]
    rfl

/-! ### The state of the OAuth flow -/

/-- A character of `token_urlsafe`. -/
def isUrlsafe (c : Char) : Bool := c.isAlphanum || c == '-' || c == '_'

/-- `_STATE_TTL` in seconds. -/
def stateTtl : Nat := 600

/-- The microseconds of a second; times are counted in microseconds since 1970. -/
def second : Nat := 1000000

/-- A call of `sign_state` that returned: the identifier of a user, a provider that the
endpoint knows, the clock and the nonce that was drawn. -/
structure SignCall where
  userId : String
  provider : String
  now : Nat
  nonce : String
  /-- A UUID has no dot. -/
  userId_plain : '.' ∉ userId.toList
  provider_known : provider ∈ ["google", "microsoft"]
  nonce_urlsafe : ∀ c ∈ nonce.toList, isUrlsafe c = true
  /-- A later time is no `datetime`. -/
  now_inRange : now + stateTtl * second < 253402300800 * second

/-- `int((now + _STATE_TTL).timestamp())`. -/
def SignCall.exp (call : SignCall) : Nat := (call.now + stateTtl * second) / second

/-- `f"{user_id}.{provider}.{exp}.{nonce}"`. -/
def SignCall.payload (call : SignCall) : String :=
  call.userId ++ "." ++ call.provider ++ "." ++ call.exp.repr ++ "." ++ call.nonce

/-- `_state_sig`. -/
def stateSig (H : Digests) (payload : String) : String :=
  hexdigest (H.hmacSha256 (encode H.sessionSecret) (encode payload))

/-- `sign_state`. -/
def signState (H : Digests) (call : SignCall) : String :=
  call.payload ++ "." ++ stateSig H call.payload

/-- `verify_state`. -/
def verifyState (H : Digests) (state userId provider : String) (now : Nat) :
    Except PyException Bool := do
  match rsplitOnce '.' state with
  | [payload, sig] =>
    if !(← compareDigest sig (stateSig H payload)) then return false
    match split '.' payload with
    | [sUser, sProvider, sExp, _nonce] =>
      if sUser ≠ userId ∨ sProvider ≠ provider then return false
      match int sExp with
      -- `int` of a text raises nothing but a `ValueError`
      | .error _ => return false
      | .ok exp => return decide ((now : Int) < exp * second)
    | _ => return false
  | _ => return false

section State

variable {H : Digests} {calls : Set SignCall} {state userId provider : String} {now : Nat}

theorem isUrlsafe_spec {c : Char} (h : isUrlsafe c = true) : c ≠ '.' ∧ c.toNat < 128 := by
  unfold isUrlsafe Char.isAlphanum Char.isAlpha Char.isUpper Char.isLower Char.isDigit at h
  simp only [Bool.or_eq_true, beq_iff_eq, Bool.and_eq_true, decide_eq_true_eq] at h
  refine ⟨?_, ?_⟩
  · rintro rfl
    revert h
    decide
  · -- letters and digits end before 128
    have hbelow : ∀ last : UInt32, c.val ≤ last → last.toNat < 128 → c.toNat < 128 :=
      fun last hc hlast => Nat.lt_of_le_of_lt (UInt32.le_iff_toNat_le.mp hc) hlast
    rcases h with (((⟨-, hc⟩ | ⟨-, hc⟩) | ⟨-, hc⟩) | rfl) | rfl
    · exact hbelow _ hc (by decide)
    · exact hbelow _ hc (by decide)
    · exact hbelow _ hc (by decide)
    · decide
    · decide

theorem split_four {a b c d : String} (ha : '.' ∉ a.toList) (hb : '.' ∉ b.toList)
    (hc : '.' ∉ c.toList) (hd : '.' ∉ d.toList) :
    split '.' (a ++ "." ++ b ++ "." ++ c ++ "." ++ d) = [a, b, c, d] := by
  have hpieces : (a ++ "." ++ b ++ "." ++ c ++ "." ++ d).toList =
      a.toList ++ '.' :: (b.toList ++ '.' :: (c.toList ++ '.' :: d.toList)) := by simp
  rw [split, hpieces, List.splitOn_append_cons_self, List.splitOn_append_cons_self,
    List.splitOn_append_cons_self, List.splitOn_eq_singleton ha, List.splitOn_eq_singleton hb,
    List.splitOn_eq_singleton hc, List.splitOn_eq_singleton hd]
  simp

theorem SignCall.split_payload (call : SignCall) :
    split '.' call.payload = [call.userId, call.provider, call.exp.repr, call.nonce] := by
  apply split_four call.userId_plain
  · rcases List.mem_cons.mp call.provider_known with h | h
    · simp [h]
    · simp [List.mem_singleton.mp h]
  · rw [Nat.repr_eq_ofList_toDigits, String.toList_ofList]
    intro hmem
    obtain ⟨d, hd, heq⟩ := exists_digitChar hmem
    exact (digitChar_spec hd).2.2.2.1 heq.symm
  · intro hmem
    exact (isUrlsafe_spec (call.nonce_urlsafe _ hmem)).1 rfl

theorem SignCall.int_exp (call : SignCall) : int call.exp.repr = .ok call.exp := by
  apply int_repr
  have hlt : call.exp < 253402300800 :=
    Nat.div_lt_of_lt_mul (by rw [Nat.mul_comm]; exact call.now_inRange)
  calc call.exp < 253402300800 := hlt
    _ < 10 ^ 12 := by decide
    _ ≤ 10 ^ 4300 := Nat.pow_le_pow_right (by decide) (by decide)

theorem rsplitOnce_signState (call : SignCall) :
    rsplitOnce '.' (signState H call) = [call.payload, stateSig H call.payload] := by
  apply rsplitOnce_append
  intro hmem
  exact (isHex_of_mem_hexdigest hmem).spec.2.1 rfl

theorem verifyState_payload (call : SignCall) :
    verifyState H (signState H call) userId provider now = .ok (decide
      (call.userId = userId ∧ call.provider = provider ∧ now < call.exp * second)) := by
  have hsame : compareDigest (stateSig H call.payload) (stateSig H call.payload) = .ok true := by
    rw [stateSig, compareDigest_hexdigest, if_pos (isAscii_hexdigest _), decide_eq_true rfl]
  rw [verifyState, rsplitOnce_signState]
  simp only [hsame, call.split_payload, call.int_exp]
  by_cases hu : call.userId = userId <;> by_cases hp : call.provider = provider <;>
    simp [hu, hp, pure, Except.pure, bind, Except.bind]
  rw [← Int.natCast_mul]
  exact Int.ofNat_lt

/-- Nobody else computes tags: a state that carries the tag of a payload has the payload of a
call. -/
def Unforged (H : Digests) (calls : Set SignCall) (state : String) : Prop :=
  ∀ payload, state = payload ++ "." ++ stateSig H payload → ∃ call ∈ calls, call.payload = payload

/-- The check of a state returns, and accepts what `sign_state` produced for the same user and
provider and whose expiry lies in the future. -/
def StateExact (H : Digests) (calls : Set SignCall) (state userId provider : String)
    (now : Nat) : Prop :=
  ∃ accepted, verifyState H state userId provider now = .ok accepted ∧
    (accepted = true ↔ ∃ call ∈ calls, call.userId = userId ∧ call.provider = provider ∧
      now < call.exp * second ∧ state = signState H call)

/-- What stands after the last dot is ASCII, if there is a dot. -/
def AsciiSignature (state : String) : Prop :=
  ∀ payload sig, rsplitOnce '.' state = [payload, sig] → IsAscii sig

theorem verifyState_of_single (h : rsplitOnce '.' state = [state]) :
    verifyState H state userId provider now = .ok false := by
  rw [verifyState, h]
  rfl

theorem verifyState_of_ne {payload sig : String} (h : rsplitOnce '.' state = [payload, sig])
    (hne : sig ≠ stateSig H payload) :
    verifyState H state userId provider now =
      if IsAscii sig then .ok false else .error .typeError := by
  have hcompare : compareDigest sig (stateSig H payload) =
      if IsAscii sig then .ok false else .error .typeError := by
    rw [stateSig, compareDigest_hexdigest, ← stateSig, decide_eq_false hne]
  rw [verifyState, h]
  simp only [hcompare]
  by_cases hascii : IsAscii sig
  · rw [if_pos hascii]
    rfl
  · rw [if_neg hascii]
    rfl

theorem asciiSignature_of_parts {payload sig : String}
    (h : rsplitOnce '.' state = [payload, sig]) : AsciiSignature state ↔ IsAscii sig := by
  constructor
  · intro hascii
    exact hascii payload sig h
  · intro hascii payload' sig' h'
    rw [h] at h'
    obtain ⟨-, rfl⟩ : payload = payload' ∧ sig = sig' := by simpa using h'
    exact hascii

theorem stateExact_iff (hforge : Unforged H calls state) :
    StateExact H calls state userId provider now ↔ AsciiSignature state := by
  rcases rsplitOnce_cases '.' state with hsingle | ⟨payload, sig, hparts, hstate⟩
  · refine iff_of_true ⟨false, verifyState_of_single hsingle, ?_⟩ ?_
    · refine iff_of_false Bool.false_ne_true ?_
      rintro ⟨call, -, -, -, -, heq⟩
      rw [heq, rsplitOnce_signState] at hsingle
      exact absurd hsingle (by simp)
    · intro payload sig htwo
      rw [hsingle] at htwo
      exact absurd htwo (by simp)
  · rw [asciiSignature_of_parts hparts]
    by_cases hsig : sig = stateSig H payload
    · -- the payload is that of a call, so the state is what the call produced
      obtain ⟨call, hcall, rfl⟩ := hforge payload (hstate.trans (by rw [hsig]; rfl))
      have hproduced : state = signState H call := hstate.trans (by rw [hsig]; rfl)
      have hverify : verifyState H state userId provider now = .ok (decide
          (call.userId = userId ∧ call.provider = provider ∧ now < call.exp * second)) := by
        rw [hproduced]
        exact verifyState_payload call
      refine iff_of_true ⟨_, hverify, ?_⟩ (hsig ▸ isAscii_hexdigest _)
      rw [decide_eq_true_eq]
      constructor
      · rintro ⟨hu, hp, hnow⟩
        exact ⟨call, hcall, hu, hp, hnow, hproduced⟩
      · rintro ⟨call', -, hu, hp, hnow, heq⟩
        rw [heq, verifyState_payload, Except.ok.injEq, decide_eq_decide] at hverify
        exact hverify.mp ⟨hu, hp, hnow⟩
    · rw [StateExact, verifyState_of_ne hparts hsig]
      by_cases h : IsAscii sig
      · rw [if_pos h]
        refine iff_of_true ⟨false, rfl, iff_of_false Bool.false_ne_true ?_⟩ h
        rintro ⟨call, -, -, -, -, heq⟩
        rw [heq, rsplitOnce_signState] at hparts
        obtain ⟨rfl, rfl⟩ : call.payload = payload ∧ stateSig H call.payload = sig := by
          simpa using hparts
        exact hsig rfl
      · rw [if_neg h]
        refine iff_of_false ?_ h
        rintro ⟨accepted, heq, -⟩
        exact nomatch heq

end State

/-! ### The CSRF token -/

/-- What ends a check. -/
inductive Raised where
  /-- `HTTPException(status_code=status, detail=detail)`. -/
  | http (status : Nat) (detail : String)
  /-- `PinMismatchError`. -/
  | pinMismatch
  | builtin (e : PyException)
  deriving DecidableEq

/-- The token of a session is one of `token_urlsafe`. -/
structure CsrfSession where
  csrfToken : String
  csrfToken_urlsafe : ∀ c ∈ csrfToken.toList, isUrlsafe c = true
  csrfToken_ne : csrfToken ≠ ""

/-- What `enforce_csrf` reads of a request. -/
structure CsrfRequest where
  method : String
  /-- The header `X-OPNGMS-CSRF`. -/
  header : Option String

def unsafeMethods : List String := ["POST", "PUT", "PATCH", "DELETE"]

def csrfFailed : Raised := .http 403 "CSRF check failed"

/-- `enforce_csrf`. -/
def enforceCsrf (request : CsrfRequest) (sess : CsrfSession) : Except Raised Unit :=
  if request.method ∈ unsafeMethods then
    match request.header with
    | none => .error csrfFailed
    | some header => do
      if header = "" then throw csrfFailed
      if !(← (compareDigest header sess.csrfToken).mapError .builtin) then throw csrfFailed
  else .ok ()

/-- The check accepts the token of the session and nothing else, where there is a check. -/
def CsrfExact (request : CsrfRequest) (sess : CsrfSession) : Prop :=
  enforceCsrf request sess =
    if request.method ∈ unsafeMethods ∧ request.header ≠ some sess.csrfToken then
      .error csrfFailed
    else .ok ()

section Csrf

variable {request : CsrfRequest} {sess : CsrfSession}

theorem isAscii_csrfToken (sess : CsrfSession) : IsAscii sess.csrfToken := fun _ hc =>
  (isUrlsafe_spec (sess.csrfToken_urlsafe _ hc)).2

theorem csrfExact_iff :
    CsrfExact request sess ↔
      (request.method ∈ unsafeMethods → ∀ header ∈ request.header, IsAscii header) := by
  obtain ⟨method, header⟩ := request
  rw [CsrfExact, enforceCsrf]
  by_cases hmethod : method ∈ unsafeMethods
  · simp only [hmethod, true_and, if_true, true_imp_iff]
    cases header with
    | none => simp
    | some header =>
      by_cases hempty : header = ""
      · have hne : "" ≠ sess.csrfToken := Ne.symm sess.csrfToken_ne
        have hascii : IsAscii "" := by decide
        simp [hempty, hne, hascii]
        rfl
      · simp only [hempty, if_false, compareDigest, isAscii_csrfToken sess, and_true]
        by_cases hascii : IsAscii header
        · rw [if_pos hascii]
          refine iff_of_true ?_ ?_
          · by_cases hsame : header = sess.csrfToken
            · rw [decide_eq_true hsame, if_neg (by simp [hsame])]
              rfl
            · rw [decide_eq_false hsame, if_pos (by simpa using hsame)]
              rfl
          · rintro _ ⟨⟩
            exact hascii
        · rw [if_neg hascii]
          refine iff_of_false ?_ fun h => hascii (h header rfl)
          intro heq
          have hraised : (Except.error (.builtin .typeError) : Except Raised Unit) =
              if some header ≠ some sess.csrfToken then .error csrfFailed else .ok () := heq
          split at hraised <;> exact nomatch hraised
  · simp [hmethod]

end Csrf

/-! ### The pinned fingerprint -/

/-- A certificate that a peer presents. -/
structure Certificate where
  der : List UInt8
  der_ne : der ≠ []

/-- The digest of the certificate, as `peer_fingerprint` returns it. -/
def peerFingerprint (H : Digests) (cert : Certificate) : String := hexdigest (H.sha256 cert.der)

/-- `normalize_fingerprint`. -/
def normalizeFingerprint (L : Lowercase) (value : String) : String :=
  let v := (L.lower (strip value)).toList
  let v := if "sha256:".toList.isPrefixOf v then v.drop "sha256:".length else v
  String.ofList ((v.filter (· ≠ ':')).filter (· ≠ ' '))

/-- `verify_pinned`, once the peer has presented its certificate. -/
def verifyPinned (H : Digests) (L : Lowercase) (cert : Certificate) (expected : String) :
    Except Raised Unit := do
  let same ← (compareDigest (peerFingerprint H cert)
    (normalizeFingerprint L expected)).mapError .builtin
  if !same then throw .pinMismatch

/-- A fingerprint names a digest: up to case, separators and the prefix, it is its text. -/
def Names (L : Lowercase) (fingerprint : String) (digest : List UInt8) : Prop :=
  ∃ body : List Char,
    ((L.lower (strip fingerprint)).toList = body ∨
      (L.lower (strip fingerprint)).toList = "sha256:".toList ++ body) ∧
    body.filter (fun c => c ≠ ':' ∧ c ≠ ' ') = (hexdigest digest).toList

/-- The check accepts the certificate that the fingerprint names, and refuses the others. -/
def PinExact (H : Digests) (L : Lowercase) (cert : Certificate) (expected : String) : Prop :=
  (Names L expected (H.sha256 cert.der) ∧ verifyPinned H L cert expected = .ok ()) ∨
    (¬ Names L expected (H.sha256 cert.der) ∧
      verifyPinned H L cert expected = .error .pinMismatch)

section Pin

variable {H : Digests} {L : Lowercase} {cert : Certificate} {expected : String}

theorem names_iff {digest : List UInt8} :
    Names L expected digest ↔ normalizeFingerprint L expected = hexdigest digest := by
  rw [Names, normalizeFingerprint]
  generalize (L.lower (strip expected)).toList = v
  have hfilter : ∀ l : List Char, (l.filter (· ≠ ':')).filter (· ≠ ' ') =
      l.filter (fun c => c ≠ ':' ∧ c ≠ ' ') := by
    intro l
    rw [List.filter_filter]
    apply List.filter_congr
    intro c _
    simp [and_comm]
  have htext : ∀ l : List Char, String.ofList ((l.filter (· ≠ ':')).filter (· ≠ ' ')) =
      hexdigest digest ↔ l.filter (fun c => c ≠ ':' ∧ c ≠ ' ') = (hexdigest digest).toList := by
    intro l
    rw [hfilter, ← String.toList_inj, String.toList_ofList]
  -- a digest has no `s`, so its text does not start with the prefix
  have hmarked : ∀ l : List Char, ("sha256:".toList ++ l).filter (fun c => c ≠ ':' ∧ c ≠ ' ') ≠
      (hexdigest digest).toList := by
    intro l heq
    have hs : 's' ∈ (hexdigest digest).toList := by
      rw [← heq, List.mem_filter]
      exact ⟨List.mem_append_left _ (by decide), by decide⟩
    exact (isHex_of_mem_hexdigest hs).spec.2.2 rfl
  by_cases h : "sha256:".toList <+: v
  · obtain ⟨body, rfl⟩ := h
    have hif : (if "sha256:".toList.isPrefixOf ("sha256:".toList ++ body) = true then
        ("sha256:".toList ++ body).drop "sha256:".length else "sha256:".toList ++ body) =
        body := by
      rw [if_pos (List.isPrefixOf_iff_prefix.mpr (List.prefix_append _ _))]
      exact List.drop_left' rfl
    simp only [hif]
    rw [htext]
    constructor
    · rintro ⟨body', rfl | heq, hbody⟩
      · exact absurd hbody (hmarked body)
      · rw [List.append_cancel_left heq]
        exact hbody
    · intro hbody
      exact ⟨body, .inr rfl, hbody⟩
  · have hif : (if "sha256:".toList.isPrefixOf v = true then
        v.drop "sha256:".length else v) = v := if_neg fun hp => h (List.isPrefixOf_iff_prefix.mp hp)
    simp only [hif]
    rw [htext]
    constructor
    · rintro ⟨body', rfl | heq, hbody⟩
      · exact hbody
      · exact absurd ⟨body', heq.symm⟩ h
    · intro hbody
      exact ⟨v, .inl rfl, hbody⟩

theorem toNat_toLower_lt {c : Char} (h : c.toNat < 128) : c.toLower.toNat < 128 := by
  have hall : ∀ n < 128, (Char.ofNat n).toLower.toNat < 128 := by decide
  have hc := hall c.toNat h
  rwa [Char.ofNat_toNat] at hc

theorem isAscii_normalizeFingerprint {value : String} (h : IsAscii value) :
    IsAscii (normalizeFingerprint asciiLower value) := by
  have hlower : ∀ c ∈ (asciiLower.lower (strip value)).toList, c.toNat < 128 := by
    intro c hc
    have hmap : c ∈ ((strip value).toList).map Char.toLower := by
      simpa only [asciiLower, String.toList_ofList] using hc
    obtain ⟨d, hd, rfl⟩ := List.mem_map.mp hmap
    apply toNat_toLower_lt
    rw [strip, String.toList_ofList, List.mem_reverse] at hd
    have hd := (List.dropWhile_suffix _).subset hd
    rw [List.mem_reverse] at hd
    exact h d ((List.dropWhile_suffix _).subset hd)
  intro c hc
  rw [normalizeFingerprint, String.toList_ofList] at hc
  have hc := List.mem_of_mem_filter (List.mem_of_mem_filter hc)
  split at hc
  · exact hlower c (List.mem_of_mem_drop hc)
  · exact hlower c hc

theorem pinExact_iff :
    PinExact H L cert expected ↔ IsAscii (normalizeFingerprint L expected) := by
  rw [PinExact, names_iff, verifyPinned, compareDigest_comm, peerFingerprint,
    compareDigest_hexdigest]
  by_cases hascii : IsAscii (normalizeFingerprint L expected)
  · refine iff_of_true ?_ hascii
    rw [if_pos hascii]
    by_cases hsame : normalizeFingerprint L expected = hexdigest (H.sha256 cert.der)
    · refine .inl ⟨hsame, ?_⟩
      rw [decide_eq_true hsame]
      rfl
    · refine .inr ⟨hsame, ?_⟩
      rw [decide_eq_false hsame]
      rfl
  · refine iff_of_false ?_ hascii
    rw [if_neg hascii]
    rintro (⟨-, h⟩ | ⟨-, h⟩)
    · exact nomatch h
    · exact absurd (Except.error.inj h) (by decide)

end Pin

/-! ### All three -/

/-- **The comparisons are exact on ASCII text.**  If no tag is forged, the check of a state, of
a CSRF token and of a pinned certificate ends as it should, and accepts exactly what it should,
if and only if the text that it compares is ASCII. -/
theorem tokenChecks_exact_iff (H : Digests) (L : Lowercase) :
    (∀ calls state userId provider now, Unforged H calls state →
      (StateExact H calls state userId provider now ↔ AsciiSignature state)) ∧
    (∀ request sess, CsrfExact request sess ↔
      (request.method ∈ unsafeMethods → ∀ header ∈ request.header, IsAscii header)) ∧
    (∀ cert expected, PinExact H L cert expected ↔
      IsAscii (normalizeFingerprint L expected)) := by
  refine ⟨?_, ?_, ?_⟩
  · intro calls state userId provider now hforge
    exact stateExact_iff hforge
  · intro request sess
    exact csrfExact_iff
  · intro cert expected
    exact pinExact_iff

/-- A secret, with the tag of the payload below and the digest of the certificate below. -/
def sampleDigests : Digests where
  sha256 _ :=
    [228, 246, 13, 10, 166, 215, 243, 211, 182, 166, 73, 75, 28, 134, 27, 153, 246, 73, 198, 249,
      236, 81, 171, 175, 32, 27, 32, 242, 151, 50, 124, 149]
  hmacSha256 _ _ :=
    [219, 10, 163, 5, 158, 235, 184, 137, 121, 0, 253, 219, 205, 201, 120, 60, 153, 189, 172,
      201, 149, 167, 156, 126, 90, 226, 169, 207, 136, 89, 114, 233]
  sessionSecret := "session-secret"

def sampleCall : SignCall where
  userId := "7b0d4d1e-3c46-4a52-9a0e-5f1d2c3b4a59"
  provider := "google"
  now := 1760000000 * second
  nonce := "Zk3_xQ-1bTs"
  userId_plain := by decide
  provider_known := by decide
  nonce_urlsafe := List.all_eq_true.mp rfl
  now_inRange := by decide

def sampleSession : CsrfSession where
  csrfToken := "kz7Qn0bXr5s_T-w"
  csrfToken_urlsafe := List.all_eq_true.mp rfl
  csrfToken_ne := by decide

def sampleCertificate : Certificate where
  der := [0x30, 0x00]
  der_ne := by decide

theorem unforged_sample : Unforged sampleDigests {sampleCall}
    (signState sampleDigests sampleCall) := by
  intro payload heq
  refine ⟨sampleCall, rfl, ?_⟩
  have hlists := congrArg String.toList heq
  rw [signState, String.toList_append, String.toList_append, String.toList_append,
    String.toList_append, List.append_assoc, List.append_assoc] at hlists
  apply String.toList_injective
  exact List.append_cancel_right hlists

theorem tokenChecks_sample :
    StateExact sampleDigests {sampleCall} (signState sampleDigests sampleCall)
      sampleCall.userId "google" (1760000100 * second) ∧
    CsrfExact ⟨"POST", some "kz7Qn0bXr5s_T-w"⟩ sampleSession ∧
    PinExact sampleDigests asciiLower sampleCertificate
      ("SHA256:E4:F6:0D:0A:A6:D7:F3:D3:B6:A6:49:4B:1C:86:1B:99:" ++
        "F6:49:C6:F9:EC:51:AB:AF:20:1B:20:F2:97:32:7C:95") := by
  obtain ⟨hstate, hcsrf, hpin⟩ := tokenChecks_exact_iff sampleDigests asciiLower
  refine ⟨?_, ?_, ?_⟩
  · refine (hstate _ _ _ _ _ unforged_sample).mpr ?_
    exact (asciiSignature_of_parts (rsplitOnce_signState sampleCall)).mpr (isAscii_hexdigest _)
  · refine (hcsrf _ _).mpr ?_
    rintro - header ⟨⟩
    decide
  · refine (hpin _ _).mpr ?_
    exact isAscii_normalizeFingerprint (by decide)

/-- One letter with an accent ends each of the checks with a `TypeError`. -/
theorem accent_ends_checks :
    Unforged sampleDigests ∅ ".é" ∧
    (verifyState sampleDigests ".é" sampleCall.userId "google" 0 = .error .typeError ∧
      ¬ StateExact sampleDigests ∅ ".é" sampleCall.userId "google" 0) ∧
    (enforceCsrf ⟨"POST", some "é"⟩ sampleSession = .error (.builtin .typeError) ∧
      ¬ CsrfExact ⟨"POST", some "é"⟩ sampleSession) ∧
    (verifyPinned sampleDigests asciiLower sampleCertificate "é" = .error (.builtin .typeError) ∧
      ¬ PinExact sampleDigests asciiLower sampleCertificate "é") := by
  have hparts : rsplitOnce '.' ".é" = ["", "é"] := by decide
  have hforge : Unforged sampleDigests ∅ ".é" := by
    intro payload heq
    have hlen := congrArg String.length heq
    rw [String.length_append, String.length_append] at hlen
    have htag : (stateSig sampleDigests payload).length = 64 := by
      rw [stateSig, hexdigest, String.length_ofList]
      rfl
    have htwo : ".é".length = 2 := rfl
    omega
  refine ⟨hforge, ⟨?_, ?_⟩, ⟨by decide, ?_⟩, ⟨by decide, ?_⟩⟩
  · rw [verifyState_of_ne hparts, if_neg (by decide)]
    intro heq
    exact absurd (isAscii_hexdigest _) (heq ▸ (by decide : ¬ IsAscii "é"))
  · rw [stateExact_iff hforge, asciiSignature_of_parts hparts]
    decide
  · rw [csrfExact_iff]
    intro h
    exact absurd (h (by decide) "é" rfl) (by decide)
  · rw [pinExact_iff]
    decide

end TokenChecks

end Opngms
