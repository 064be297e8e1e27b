/-
Opngms/RekeyRaces.lean

Key rotation beside requests that store secrets (scripts/rekey_secrets.py,
core/crypto.py, `rotate_secret` of api/devices.py, `mfa_setup` of api/mfa.py,
`SmtpSettingsService`).

`rekey_all` is one transaction.  It reads all rows of a table, and then writes each back
under the primary key, without a lock in between: a secret that a request commits after
the read and before the write is undone (`rotated_secret_lost`).  Where each row that it
wrote is, when it commits, still stored as it had read it, every encrypted column then
decrypts with the primary key alone to what was stored last (**`secrets_kept`**).
-/
import Opngms.Transactions

namespace Opngms

namespace RekeyRaces

open Transactions

/-! ### Tokens -/

/-- Fernet keys and tokens.  A token is made from a key, a text and fresh randomness, and
its key decrypts it. -/
structure Fernet (Token : Type) where
  encryptWith : (key nonce : Nat) → String → Token
  decryptWith : (key : Nat) → Token → Option String
  decryptWith_encryptWith : ∀ key nonce text,
    decryptWith key (encryptWith key nonce text) = some text

/-- `_multifernet`: the primary key, and the old ones. -/
structure MultiFernet (Token : Type) extends Fernet Token where
  primary : Nat
  oldKeys : List Nat

section

variable {Token : Type} (F : MultiFernet Token)

namespace MultiFernet

/-- `encrypt`. -/
def encrypt (nonce : Nat) (text : String) : Token := F.encryptWith F.primary nonce text

/-- `decrypt`: the first key that fits. -/
def decrypt (token : Token) : Option String :=
  (F.primary :: F.oldKeys).findSome? fun key => F.decryptWith key token

/-- `decrypt` once the old keys are retired. -/
def decryptPrimary (token : Token) : Option String := F.decryptWith F.primary token

/-- `rotate`; `none` for an `InvalidToken`. -/
def rotate (nonce : Nat) (token : Token) : Option Token := (F.decrypt token).map (F.encrypt nonce)

theorem decryptPrimary_encrypt (nonce : Nat) (text : String) :
    F.decryptPrimary (F.encrypt nonce text) = some text := F.decryptWith_encryptWith _ _ _

theorem decrypt_of_primary {token : Token} {text : String}
    (h : F.decryptPrimary token = some text) :
    F.decrypt token = some text := by
  rw [decrypt, List.findSome?_cons]
  rw [decryptPrimary] at h
  rw [h]

end MultiFernet

/-! ### Tables -/

/-- The tables with encrypted columns. -/
inductive Table where
  | devices
  | configSnapshots
  | userMfa
  | smtpSettings
  | syslogCaKey
  deriving DecidableEq

/-- The encrypted columns of a table. -/
inductive Column : Table → Type where
  | apiKeyEnc : Column .devices
  | apiSecretEnc : Column .devices
  | contentEnc : Column .configSnapshots
  | totpSecretEnc : Column .userMfa
  | passwordEnc : Column .smtpSettings
  | oauthClientSecretEnc : Column .smtpSettings
  | oauthRefreshTokenEnc : Column .smtpSettings
  | keyEnc : Column .syslogCaKey

/-- The columns that `rekey_all` selects. -/
def columns : (t : Table) → List (Column t)
  | .devices => [.apiKeyEnc, .apiSecretEnc]
  | .configSnapshots => [.contentEnc]
  | .userMfa => [.totpSecretEnc]
  | .smtpSettings => [.passwordEnc, .oauthClientSecretEnc, .oauthRefreshTokenEnc]
  | .syslogCaKey => [.keyEnc]

theorem mem_columns {t : Table} (c : Column t) : c ∈ columns t := by
  cases c <;> simp [columns]

/-- The primary keys; the SMTP settings and the CA key are single rows. -/
inductive Key where
  | device (id : Nat)
  | snapshot (id : Nat)
  | mfa (userId : Nat)
  | smtp
  | caKey
  deriving DecidableEq

def Key.table : Key → Table
  | device _ => .devices
  | snapshot _ => .configSnapshots
  | mfa _ => .userMfa
  | smtp => .smtpSettings
  | caKey => .syslogCaKey

instance : Serial Key := ⟨fun _ => 0⟩

abbrev Row (Token : Type) (k : Key) : Type := Column k.table → Option Token

/-- What a request does to the columns of a row: nothing, null, or a text with the
randomness of its token. -/
abbrev Writes (k : Key) : Type := Column k.table → Option (Option (Nat × String))

/-- What a session has done: what a request writes, a row that `rekey_all` has read, and
the end of `rekey_all`. -/
inductive Note (Token : Type) where
  | wrote (k : Key) (writes : Writes k)
  | rekeyed (k : Key) (read : Row Token k)
  | finished

inductive Failure where
  | invalidToken
  | notFound
  | integrityError
  | staleDataError

abbrev Store (Token : Type) := Db Key (Row Token) (Note Token)

abbrev Req (Token : Type) (α : Type) := Sql Key (Row Token) (Note Token) Failure α

/-! ### `rekey_all` -/

/-- The row after the `UPDATE`: the columns that were not null when they were read. -/
def rotated (nonce : (k : Key) → Column k.table → Nat) (k : Key) (read : Row Token k)
    (row : Row Token k) : Row Token k := fun c =>
  match read c with
  | some token => F.rotate (nonce k c) token
  | none => row c

/-- Every token of the row can be rotated. -/
def rotatable (k : Key) (read : Row Token k) : Bool :=
  (columns k.table).all fun c => ((read c).map F.decrypt) ≠ some none

def anySet (k : Key) (read : Row Token k) : Bool := (columns k.table).any fun c => (read c).isSome

/-- The rows of a table, one `UPDATE` each, and what comes after. -/
def rekeyRows (nonce : (k : Key) → Column k.table → Nat) (after : Req Token Unit) :
    List ((k : Key) × Row Token k) → Req Token Unit
  | [] => after
  | ⟨k, read⟩ :: rows =>
    if rotatable F k read then
      if anySet k read then
        (Sql.update k (rotated F nonce k read)).bind fun found =>
          if found.isSome then
            (Sql.note (.rekeyed k read)).bind fun _ => rekeyRows nonce after rows
          else rekeyRows nonce after rows
      else rekeyRows nonce after rows
    else .raise .invalidToken

/-- The tables, and the commit. -/
def rekeyTables (nonce : (k : Key) → Column k.table → Nat) : List Table → Req Token Unit
  | [] => (Sql.note .finished).bind fun _ => Sql.commit
  | t :: ts => (Sql.scan fun k => k.table = t).bind fun rows =>
      rekeyRows F nonce (rekeyTables nonce ts) rows

/-- `rekey_all`. -/
def rekeyAll (nonce : (k : Key) → Column k.table → Nat) : Req Token Unit :=
  rekeyTables F nonce [.devices, .configSnapshots, .userMfa, .smtpSettings, .syslogCaKey]

/-! ### The requests -/

/-- The row with the writes. -/
def applied {k : Key} (writes : Writes k) (row : Row Token k) : Row Token k := fun c =>
  match writes c with
  | none => row c
  | some none => none
  | some (some (nonce, text)) => some (F.encrypt nonce text)

/-- The flush of an object: an `INSERT` if it is new, an `UPDATE` if it differs, also
where only other columns do. -/
def save (k : Key) (row : Option (Row Token k)) (writes : Writes k) (touched : Bool) :
    Req Token Unit :=
  match row with
  | none => do
    let added ← Sql.insert k (applied F writes fun _ => none)
    if added then pure () else throw .integrityError
  | some _ =>
    if touched || (columns k.table).any fun c => (writes c).isSome then do
      let found ← Sql.update k (applied F writes)
      if found.isSome then pure () else throw .staleDataError
    else pure ()

/-- `rotate_secret` of a device. -/
def rotateSecret (id : Nat) (apiKey apiSecret : Nat × String) : Req Token Unit := do
  let writes : Writes (.device id) := fun
    | .apiKeyEnc => some (some apiKey)
    | .apiSecretEnc => some (some apiSecret)
  let row ← Sql.select (.device id)
  if row.isNone then throw .notFound
  else
    save F (.device id) row writes true
    let _ ← Sql.select (.device id)
    Sql.note (.wrote (.device id) writes)
    Sql.commit

/-- `mfa_setup` of a user. -/
def mfaSetup (userId : Nat) (secret : Nat × String) : Req Token Unit := do
  let writes : Writes (.mfa userId) := fun
    | .totpSecretEnc => some (some secret)
  let row ← Sql.select (.mfa userId)
  save F (.mfa userId) row writes true
  Sql.note (.wrote (.mfa userId) writes)
  Sql.commit

/-- What a request says about one secret. -/
inductive Change where
  | keep
  | clear
  | set (nonce : Nat) (text : String)

/-- What is assigned to a column: null where it is null already is no change. -/
def Change.write (change : Change) (read : Option Token) : Option (Option (Nat × String)) :=
  match change with
  | keep => none
  | clear => if read.isSome then some none else none
  | set nonce text => some (some (nonce, text))

/-- `upsert` of the SMTP settings, and `store_oauth_refresh_token`; `touched` if one of the
other columns changes. -/
def upsertSmtp (password clientSecret refreshToken : Change) (touched : Bool) :
    Req Token Unit := do
  let row : Option (Row Token Key.smtp) ← Sql.select Key.smtp
  let read (c : Column .smtpSettings) : Option Token := row.bind fun r => r c
  let writes : Writes Key.smtp := fun
    | .passwordEnc => password.write (read .passwordEnc)
    | .oauthClientSecretEnc => clientSecret.write (read .oauthClientSecretEnc)
    | .oauthRefreshTokenEnc => refreshToken.write (read .oauthRefreshTokenEnc)
  save F .smtp row writes touched
  Sql.note (.wrote .smtp writes)
  Sql.commit

/-! ### What is expected -/

/-- What a note says about a row. -/
def writesAt (n : Note Token) (k : Key) : Writes k :=
  match n with
  | .wrote k' writes => if h : k' = k then h ▸ writes else fun _ => none
  | _ => fun _ => none

@[simp] theorem writesAt_self (k : Key) (writes : Writes k) :
    writesAt (.wrote k writes : Note Token) k = writes := by
  simp [writesAt]

theorem writesAt_of_ne {k k' : Key} (writes : Writes k') (h : k' ≠ k) :
    writesAt (.wrote k' writes : Note Token) k = fun _ => none := by
  simp [writesAt, h]

variable (rows : (k : Key) → Option (Row Token k))

/-- The text that was stored first. -/
def original (k : Key) (c : Column k.table) : Option String :=
  ((rows k).bind fun row => row c).bind F.decrypt

/-- The text that a request has committed last, or the one that was stored first. -/
def expected (log : List (Note Token)) (k : Key) (c : Column k.table) : Option String :=
  log.foldl (fun text n =>
    match writesAt n k c with
    | none => text
    | some w => w.map (·.2)) (original F rows k c)

theorem expected_append_silent {log ns : List (Note Token)} {k : Key} {c : Column k.table}
    (h : ∀ n ∈ ns, writesAt n k c = none) :
    expected F rows (log ++ ns) k c = expected F rows log k c := by
  rw [expected, List.foldl_append, ← expected]
  induction ns with
  | nil => rfl
  | cons n ns ih =>
    rw [List.foldl_cons, h n List.mem_cons_self]
    exact ih fun m hm => h m (List.mem_cons_of_mem n hm)

theorem expected_concat (log : List (Note Token)) (n : Note Token) (k : Key)
    (c : Column k.table) :
    expected F rows (log ++ [n]) k c =
      match writesAt n k c with
      | none => expected F rows log k c
      | some w => w.map (·.2) := by
  rw [expected, List.foldl_append]
  rfl

/-- No request has written the column. -/
def Untouched (log : List (Note Token)) (k : Key) (c : Column k.table) : Prop :=
  ∀ n ∈ log, writesAt n k c = none

/-- `rekey_all` has committed. -/
def Rekeyed (log : List (Note Token)) : Prop := Note.finished ∈ log

/-- The token that was stored first is still there. -/
structure Pending (log : List (Note Token)) (k : Key) (c : Column k.table) (token : Token) :
    Prop where
  notRekeyed : ¬ Rekeyed log
  untouched : Untouched log k c
  first : ∃ row, rows k = some row ∧ row c = some token

/-- Every column decrypts to the expected text, with the primary key alone unless its
first token is pending. -/
structure Sound (d : Store Token) : Prop where
  decrypts : ∀ k row, d.row k = some row → ∀ c,
    (row c).map F.decrypt = (expected F rows d.log k c).map some
  primary : ∀ k row, d.row k = some row → ∀ c token, row c = some token →
    F.decryptPrimary token = F.decrypt token ∨ Pending rows d.log k c token
  absent : ∀ k, d.row k = none → ∀ c, expected F rows d.log k c = none
  kept : ∀ k row, rows k = some row → ∃ row', d.row k = some row' ∧
    (¬ Rekeyed d.log → ∀ c, Untouched d.log k c → row' c = row c)

/-! ### What the transactions commit -/

/-- The one row that a request holds has its writes. -/
def Saved (ph : Phase Key (Row Token) (Note Token)) (k : Key) (writes : Writes k) : Prop :=
  (∀ k', k' ≠ k → ph.held k' = none) ∧
    ((ph.held k = none ∧ ∀ c, writes c = none) ∨
      ∃ b : Option (Row Token k), ph.held k =
        some (b, some (applied F writes (b.getD fun _ => none))))

/-- A request commits what it notes. -/
def GoodRequest (ph : Phase Key (Row Token) (Note Token)) : Prop :=
  ∃ k writes, ph.notes = [.wrote k writes] ∧ Saved F ph k writes

/-- `rekey_all` has rotated in a row the columns that it noted as not null. -/
def RotatedAs (nonce : (k : Key) → Column k.table → Nat) (notes : List (Note Token)) (k : Key)
    (before now : Row Token k) (c : Column k.table) : Prop :=
  (∃ read token, Note.rekeyed k read ∈ notes ∧ read c = some token ∧
      now c = F.rotate (nonce k c) token) ∨
    ((∀ read, Note.rekeyed k read ∈ notes → read c = none) ∧ now c = before c)

/-- What `rekey_all` holds and notes before its end. -/
structure Rotating (nonce : (k : Key) → Column k.table → Nat)
    (ph : Phase Key (Row Token) (Note Token)) : Prop where
  silent : ∀ n ∈ ph.notes, ∀ k c, writesAt n k c = none
  held : ∀ k b n, ph.held k = some (b, n) →
    ∃ before now, b = some before ∧ n = some now ∧
      ∀ c, RotatedAs F nonce ph.notes k before now c
  noted : ∀ k read, Note.rekeyed k read ∈ ph.notes → ph.held k ≠ none

/-- `rekey_all` commits rows that it has rotated. -/
def GoodRekey (nonce : (k : Key) → Column k.table → Nat)
    (ph : Phase Key (Row Token) (Note Token)) : Prop :=
  Rotating F nonce ph ∧ Note.finished ∈ ph.notes

section Commits

variable {F} {rows} {d : Store Token} {i : Nat}

theorem untouched_concat {log : List (Note Token)} {n : Note Token} {k : Key}
    {c : Column k.table} :
    Untouched (log ++ [n]) k c ↔ Untouched log k c ∧ writesAt n k c = none := by
  simp [Untouched, or_imp, forall_and]

theorem applied_text {k : Key} (writes : Writes k) (row : Row Token k) (c : Column k.table)
    {w : Option (Nat × String)} (h : writes c = some w) :
    (applied F writes row c).map F.decrypt = (w.map (·.2)).map some ∧
      ∀ token, applied F writes row c = some token → F.decryptPrimary token = F.decrypt token := by
  rw [applied, h]
  cases w with
  | none => exact ⟨rfl, nofun⟩
  | some entry =>
    have hprimary := F.decryptPrimary_encrypt entry.1 entry.2
    have hany := F.decrypt_of_primary hprimary
    refine ⟨congrArg some hany, fun token htoken => ?_⟩
    obtain rfl := Option.some.inj htoken
    exact hprimary.trans hany.symm

theorem commit_request (hgood : GoodRequest F (d.phase i)) :
    ∃ n : Note Token, n ≠ .finished ∧ (d.commit i).log = d.log ++ [n] ∧
      ∀ k, (∀ c, writesAt n k c = none) ∧ (d.commit i).row k = d.row k ∨
        (d.commit i).row k =
          some (applied F (writesAt n k) ((d.row k).getD fun _ => none)) := by
  obtain ⟨k, writes, hnotes, hother, hsaved⟩ := hgood
  refine ⟨.wrote k writes, nofun, ?_, fun k' => ?_⟩
  · show d.log ++ (d.phase i).notes = _
    rw [hnotes]
  by_cases hk : k' = k
  · subst hk
    rw [writesAt_self]
    rcases hsaved with ⟨hfree, hnone⟩ | ⟨b, hheld⟩
    · exact .inl ⟨hnone, by rw [Db.row_commit, hfree]⟩
    · rw [Db.row_commit, hheld, (Db.row_of_held hheld).1]
      exact .inr rfl
  · refine .inl ⟨fun c => ?_, by rw [Db.row_commit, hother k' hk]⟩
    rw [writesAt_of_ne writes (Ne.symm hk)]

/-- **A request that commits keeps the texts.** -/
theorem sound_request (h : Sound F rows d) (hgood : GoodRequest F (d.phase i)) :
    Sound F rows (d.commit i) := by
  obtain ⟨n, hunfinished, hlog, hrow⟩ := commit_request hgood
  have hrekeyed : Rekeyed (d.commit i).log ↔ Rekeyed d.log := by
    rw [hlog]
    simp [Rekeyed, hunfinished.symm]
  constructor
  · intro k row hk c
    rw [hlog, expected_concat]
    -- the row is as before, or the request has written it
    rcases hrow k with ⟨hsilent, hsame⟩ | hnew
    · rw [hsilent c]
      exact h.decrypts k row (hsame ▸ hk) c
    · obtain rfl := Option.some.inj (hnew.symm.trans hk)
      cases hw : writesAt n k c with
      | some w => exact (applied_text (writesAt n k) _ c hw).1
      | none =>
        rw [applied, hw]
        cases hd : d.row k with
        | none => simp [h.absent k hd c]
        | some row => exact h.decrypts k row hd c
  · intro k row hk c token htoken
    -- a column that the request did not write keeps its token
    have hold {old : Row Token k} (hd : d.row k = some old) (ht : old c = some token)
        (hc : writesAt n k c = none) :
        F.decryptPrimary token = F.decrypt token ∨ Pending rows (d.commit i).log k c token := by
      rcases h.primary k old hd c token ht with hprimary | ⟨hnot, hun, hfirst⟩
      · exact .inl hprimary
      · refine .inr ⟨mt hrekeyed.mp hnot, ?_, hfirst⟩
        rw [hlog]
        exact untouched_concat.mpr ⟨hun, hc⟩
    rcases hrow k with ⟨hsilent, hsame⟩ | hnew
    · exact hold (hsame ▸ hk) htoken (hsilent c)
    · obtain rfl := Option.some.inj (hnew.symm.trans hk)
      cases hw : writesAt n k c with
      | some w => exact .inl ((applied_text (writesAt n k) _ c hw).2 token htoken)
      | none =>
        rw [applied, hw] at htoken
        cases hd : d.row k with
        | none =>
          rw [hd] at htoken
          cases htoken
        | some old =>
          rw [hd] at htoken
          exact hold hd htoken hw
  · intro k hk c
    rw [hlog, expected_concat]
    rcases hrow k with ⟨hsilent, hsame⟩ | hnew
    · rw [hsilent c]
      exact h.absent k (hsame ▸ hk) c
    · rw [hnew] at hk
      cases hk
  · intro k first hfirst
    obtain ⟨old, hold, hkeep⟩ := h.kept k first hfirst
    rw [hrekeyed]
    rcases hrow k with ⟨-, hsame⟩ | hnew
    · refine ⟨old, hsame.trans hold, fun hnot c hun => hkeep hnot c ?_⟩
      rw [hlog, untouched_concat] at hun
      exact hun.1
    · refine ⟨_, hnew, fun hnot c hun => ?_⟩
      rw [hlog, untouched_concat] at hun
      rw [hold, applied, hun.2]
      exact hkeep hnot c hun.1

/-- At its commit, each row that `rekey_all` wrote is stored as it had read it. -/
def ReadCurrent (d : Store Token) (i : Nat) : Prop :=
  ∀ k read, Note.rekeyed k read ∈ d.notes i → ∃ row, d.row k = some row ∧
    ∀ c token, read c = some token → row c = some token

/-- Each token that is still to be rotated has been read and written by `rekey_all`. -/
def Covered (rows : (k : Key) → Option (Row Token k)) (d : Store Token) (i : Nat) : Prop :=
  ∀ k c token, Pending rows d.log k c token →
    ∃ read, Note.rekeyed k read ∈ d.notes i ∧ read c = some token

theorem commit_rekey {nonce : (k : Key) → Column k.table → Nat}
    (hgood : GoodRekey F nonce (d.phase i)) (hcurrent : ReadCurrent d i) (k : Key) :
    d.row k = none ∧ (d.commit i).row k = none ∨
      ∃ old row, d.row k = some old ∧ (d.commit i).row k = some row ∧
        ∀ c, (∃ token, old c = some token ∧ row c = F.rotate (nonce k c) token) ∨
          ((∀ read, Note.rekeyed k read ∈ d.notes i → read c = none) ∧ row c = old c) := by
  obtain ⟨⟨-, hheld, hnoted⟩, -⟩ := hgood
  rw [Db.row_commit]
  cases hk : (d.phase i).held k with
  | none =>
    cases d.row k with
    | none => exact .inl ⟨rfl, rfl⟩
    | some row =>
      refine .inr ⟨row, row, rfl, rfl, fun c => .inr ⟨fun read hread => ?_, rfl⟩⟩
      exact absurd hk (hnoted k read hread)
  | some held =>
    obtain ⟨b, n⟩ := held
    obtain ⟨before, now, rfl, rfl, hcols⟩ := hheld k b n hk
    refine .inr ⟨before, now, (Db.row_of_held hk).1, rfl, fun c => ?_⟩
    rcases hcols c with ⟨read, token, hread, htoken, hnow⟩ | hsame
    · -- what it read is still what it holds
      obtain ⟨row, hrow, hstill⟩ := hcurrent k read hread
      obtain rfl := Option.some.inj ((Db.row_of_held hk).1.symm.trans hrow)
      exact .inl ⟨token, hstill c token htoken, hnow⟩
    · exact .inr hsame

theorem Sound.rotate (h : Sound F rows d) (nonce : (k : Key) → Column k.table → Nat) {k : Key}
    {old : Row Token k} (hold : d.row k = some old) {c : Column k.table} {token : Token}
    (htoken : old c = some token) :
    ∃ text, expected F rows d.log k c = some text ∧
      F.rotate (nonce k c) token = some (F.encrypt (nonce k c) text) := by
  have hdec := h.decrypts k old hold c
  rw [htoken, Option.map_some, eq_comm, Option.map_eq_some_iff] at hdec
  obtain ⟨text, htext, hdec⟩ := hdec
  exact ⟨text, htext, by rw [MultiFernet.rotate, ← hdec, Option.map_some]⟩

/-- **The commit of `rekey_all` keeps the texts**, where the rows it wrote are stored as it
had read them. -/
theorem sound_rekey {nonce : (k : Key) → Column k.table → Nat} (h : Sound F rows d)
    (hgood : GoodRekey F nonce (d.phase i)) (hcurrent : ReadCurrent d i)
    (hcovered : Covered rows d i) : Sound F rows (d.commit i) := by
  have hcommit := commit_rekey hgood hcurrent
  obtain ⟨⟨hsilent, -, -⟩, hfinished⟩ := hgood
  have hrekeyed : Rekeyed (d.commit i).log := List.mem_append_right _ hfinished
  have hexpected (k : Key) (c : Column k.table) :
      expected F rows (d.commit i).log k c = expected F rows d.log k c :=
    expected_append_silent F rows fun n hn => hsilent n hn k c
  constructor
  · intro k row hrow c
    rcases hcommit k with ⟨-, hnone⟩ | ⟨old, row', hold, hrow', hcols⟩
    · cases hnone.symm.trans hrow
    obtain rfl := Option.some.inj (hrow'.symm.trans hrow)
    rw [hexpected]
    rcases hcols c with ⟨token, htoken, hnow⟩ | ⟨-, hnow⟩
    · obtain ⟨text, htext, hrot⟩ := h.rotate nonce hold htoken
      rw [hnow, hrot, htext, Option.map_some, Option.map_some,
        F.decrypt_of_primary (F.decryptPrimary_encrypt _ _)]
    · rw [hnow]
      exact h.decrypts k old hold c
  · intro k row hrow c token htoken
    left
    rcases hcommit k with ⟨-, hnone⟩ | ⟨old, row', hold, hrow', hcols⟩
    · cases hnone.symm.trans hrow
    obtain rfl := Option.some.inj (hrow'.symm.trans hrow)
    rcases hcols c with ⟨token', htoken', hnow⟩ | ⟨hnone, hnow⟩
    · obtain ⟨text, -, hrot⟩ := h.rotate nonce hold htoken'
      have hprimary := F.decryptPrimary_encrypt (nonce k c) text
      obtain rfl := Option.some.inj ((htoken.symm.trans hnow).trans hrot)
      exact hprimary.trans (F.decrypt_of_primary hprimary).symm
    · rw [hnow] at htoken
      rcases h.primary k old hold c token htoken with hprimary | hpending
      · exact hprimary
      · obtain ⟨read, hread, htoken'⟩ := hcovered k c token hpending
        rw [hnone read hread] at htoken'
        cases htoken'
  · intro k hk c
    rw [hexpected]
    rcases hcommit k with ⟨hnone, -⟩ | ⟨old, row, -, hrow, -⟩
    · exact h.absent k hnone c
    · cases hk.symm.trans hrow
  · intro k first hfirst
    obtain ⟨old, hold, -⟩ := h.kept k first hfirst
    rcases hcommit k with ⟨hnone, -⟩ | ⟨_, row, -, hrow, -⟩
    · cases hnone.symm.trans hold
    · exact ⟨row, hrow, fun hnot => absurd hrekeyed hnot⟩

end Commits

/-! ### The programs keep to it -/

section Programs

variable {F} {Good : Phase Key (Row Token) (Note Token) → Prop}

theorem follows_save (k : Key) (row : Option (Row Token k)) (writes : Writes k) (touched : Bool) :
    (save F k row writes touched).Follows (transaction (fun _ => True) Good)
      (Dialogue.OnOk fun ph _ => ph.notes = [] ∧ Saved F ph k writes) .clear := by
  have hput (b v : Option (Row Token k)) (hv : v = some (applied F writes (b.getD fun _ => none))) :
      Saved F ((Phase.clear : Phase Key (Row Token) (Note Token)).put k b v) k writes := by
    subst hv
    refine ⟨fun k' hk => Phase.held_put_of_ne hk, .inr ⟨b, Phase.held_put_self ..⟩⟩
  cases row with
  | none =>
    apply Sql.follows_insert trivial
    · trivial
    · exact ⟨rfl, hput _ _ rfl⟩
  | some old =>
    unfold save
    dsimp only
    split
    · apply Sql.follows_modify
      · exact fun _ => trivial
      · intro v w hw _
        cases hw
        exact ⟨rfl, hput _ _ rfl⟩
    · rename_i hno
      have hnone (c : Column k.table) : writes c = none := by
        by_contra hc
        apply hno
        rw [Bool.or_eq_true, List.any_eq_true]
        exact .inr ⟨c, mem_columns c, Option.isSome_iff_ne_none.mpr hc⟩
      exact ⟨rfl, fun _ _ => rfl, .inl ⟨rfl, hnone⟩⟩

theorem follows_request (k : Key) (row : Option (Row Token k)) (writes : Writes k)
    (touched : Bool) :
    ((save F k row writes touched).bind fun _ => (Sql.note (.wrote k writes)).bind fun _ =>
      Sql.commit).Follows (transaction (fun _ => True) (GoodRequest F)) (fun _ _ => True)
      .clear := by
  apply (follows_save k row writes touched).bind
  · rintro ph _ ⟨hnotes, hsaved⟩
    apply Sql.follows_note
    refine Sql.follows_commit ⟨k, writes, ?_, hsaved⟩ trivial
    simp [hnotes]
  · exact fun _ _ _ => trivial

theorem follows_rotateSecret (id : Nat) (apiKey apiSecret : Nat × String) :
    (rotateSecret F id apiKey apiSecret).Follows (transaction (fun _ => True) (GoodRequest F))
      (fun _ _ => True) .clear := by
  apply Sql.follows_select
  intro row _
  cases row with
  | none => trivial
  | some old =>
    apply (follows_save _ _ _ _).bind
    · rintro ph _ ⟨hnotes, hsaved⟩
      apply Sql.follows_select
      intro _ _
      apply Sql.follows_note
      refine Sql.follows_commit ⟨_, _, ?_, hsaved⟩ trivial
      simp [hnotes]
    · exact fun _ _ _ => trivial

theorem follows_mfaSetup (userId : Nat) (secret : Nat × String) :
    (mfaSetup F userId secret).Follows (transaction (fun _ => True) (GoodRequest F))
      (fun _ _ => True) .clear := by
  apply Sql.follows_select
  intro row _
  exact follows_request _ row _ true

theorem follows_upsertSmtp (password clientSecret refreshToken : Change) (touched : Bool) :
    (upsertSmtp F password clientSecret refreshToken touched).Follows
      (transaction (fun _ => True) (GoodRequest F)) (fun _ _ => True) .clear := by
  apply Sql.follows_select
  intro row _
  exact follows_request _ row _ touched

/-- The `UPDATE` of a row that was read, with its note. -/
theorem rotating_update {nonce : (k : Key) → Column k.table → Nat}
    {ph : Phase Key (Row Token) (Note Token)} (h : Rotating F nonce ph) (k : Key)
    (read row : Row Token k)
    (hrow : ∀ b u, ph.held k = some (b, some u) → row = u) :
    Rotating F nonce
      { ph.put k (ph.before k (some row)) (some (rotated F nonce k read row)) with
        notes := ph.notes ++ [.rekeyed k read] } := by
  have hmem {k' : Key} {read' : Row Token k'}
      (hread : Note.rekeyed k' read' ∈ ph.notes ++ [.rekeyed k read]) :
      Note.rekeyed k' read' ∈ ph.notes ∨ Note.rekeyed k' read' = .rekeyed k read := by
    simpa using hread
  have hnew : Note.rekeyed k read ∈ ph.notes ++ [.rekeyed k read] := by simp
  -- a column that was not null is rotated now, another one is as the session left it
  have hcolumn (before : Row Token k)
      (hold : ∀ c, RotatedAs F nonce ph.notes k before row c) (c : Column k.table) :
      RotatedAs F nonce (ph.notes ++ [.rekeyed k read]) k before
        (rotated F nonce k read row) c := by
    cases hc : read c with
    | some token => exact .inl ⟨read, token, hnew, hc, by rw [rotated, hc]⟩
    | none =>
      have hsame : rotated F nonce k read row c = row c := by rw [rotated, hc]
      rcases hold c with ⟨read', token, hread', htoken, hrow'⟩ | ⟨hnone, hrow'⟩
      · exact .inl ⟨read', token, List.mem_append_left _ hread', htoken, hsame.trans hrow'⟩
      · refine .inr ⟨fun read' hread' => ?_, hsame.trans hrow'⟩
        rcases hmem hread' with hread' | heq
        · exact hnone read' hread'
        · cases heq
          exact hc
  constructor
  · intro n hn k' c
    rcases List.mem_append.mp hn with hn | hn
    · exact h.silent n hn k' c
    · rw [List.mem_singleton.mp hn]
      rfl
  · intro k' b n hheld
    by_cases hk : k' = k
    · subst hk
      have hself := Phase.held_put_self ph k' (ph.before k' (some row))
        (some (rotated F nonce k' read row))
      obtain ⟨rfl, rfl⟩ := Prod.mk.inj (Option.some.inj (hself.symm.trans hheld))
      cases hfree : ph.held k' with
      | none =>
        refine ⟨row, _, by rw [Phase.before, hfree], rfl, hcolumn row fun c => .inr ⟨?_, rfl⟩⟩
        exact fun read' hread' => absurd hfree (h.noted k' read' hread')
      | some held =>
        obtain ⟨b, n⟩ := held
        obtain ⟨before, now, rfl, rfl, hcols⟩ := h.held k' b n hfree
        obtain rfl := hrow _ now hfree
        exact ⟨before, _, by rw [Phase.before, hfree], rfl, hcolumn before hcols⟩
    · have hother : ph.held k' = some (b, n) := (Phase.held_put_of_ne hk).symm.trans hheld
      obtain ⟨before, now, hb, hn, hcols⟩ := h.held k' b n hother
      refine ⟨before, now, hb, hn, fun c => ?_⟩
      have hiff (read' : Row Token k') :
          Note.rekeyed k' read' ∈ ph.notes ++ [.rekeyed k read] →
            Note.rekeyed k' read' ∈ ph.notes := by
        intro hread'
        rcases hmem hread' with hread' | heq
        · exact hread'
        · cases heq
          exact absurd rfl hk
      rcases hcols c with ⟨read', token, hread', htoken, hnow⟩ | ⟨hnone, hnow⟩
      · exact .inl ⟨read', token, List.mem_append_left _ hread', htoken, hnow⟩
      · exact .inr ⟨fun read' hread' => hnone read' (hiff read' hread'), hnow⟩
  · intro k' read' hread'
    by_cases hk : k' = k
    · subst hk
      have hself := Phase.held_put_self ph k' (ph.before k' (some row))
        (some (rotated F nonce k' read row))
      intro hnone
      cases hself.symm.trans hnone
    · rcases hmem hread' with hread' | heq
      · intro hnone
        exact h.noted k' read' hread' ((Phase.held_put_of_ne hk).symm.trans hnone)
      · cases heq
        exact absurd rfl hk

theorem follows_rekeyRows {nonce : (k : Key) → Column k.table → Nat} {after : Req Token Unit}
    (hafter : ∀ ph, Rotating F nonce ph →
      after.Follows (transaction (fun _ => True) (GoodRekey F nonce)) (fun _ _ => True) ph)
    (found : List ((k : Key) × Row Token k)) (ph : Phase Key (Row Token) (Note Token))
    (h : Rotating F nonce ph) :
    (rekeyRows F nonce after found).Follows (transaction (fun _ => True) (GoodRekey F nonce))
      (fun _ _ => True) ph := by
  induction found generalizing ph with
  | nil => exact hafter ph h
  | cons x found ih =>
    obtain ⟨k, read⟩ := x
    rw [rekeyRows]
    split
    · split
      · apply Sql.follows_modify
        · exact fun _ => ih ph h
        · intro row w hw hu
          cases hw
          apply Sql.follows_note
          exact ih _ (rotating_update h k read row fun b u hb => hu b u hb nofun)
      · exact ih ph h
    · trivial

theorem follows_rekeyTables {nonce : (k : Key) → Column k.table → Nat} (ts : List Table)
    (ph : Phase Key (Row Token) (Note Token)) (h : Rotating F nonce ph) :
    (rekeyTables F nonce ts).Follows (transaction (fun _ => True) (GoodRekey F nonce))
      (fun _ _ => True) ph := by
  induction ts generalizing ph with
  | nil =>
    apply Sql.follows_note
    refine ⟨⟨?_, by simp⟩, fun _ _ => trivial⟩
    have hmem {k : Key} {read : Row Token k}
        (hread : Note.rekeyed k read ∈ ph.notes ++ [.finished]) :
        Note.rekeyed k read ∈ ph.notes := by
      simpa using hread
    constructor
    · intro n hn k c
      rcases List.mem_append.mp hn with hn | hn
      · exact h.silent n hn k c
      · rw [List.mem_singleton.mp hn]
        rfl
    · intro k b n hheld
      obtain ⟨before, now, hb, hn, hcols⟩ := h.held k b n hheld
      refine ⟨before, now, hb, hn, fun c => ?_⟩
      rcases hcols c with ⟨read, token, hread, htoken, hnow⟩ | ⟨hnone, hnow⟩
      · exact .inl ⟨read, token, List.mem_append_left _ hread, htoken, hnow⟩
      · exact .inr ⟨fun read hread => hnone read (hmem hread), hnow⟩
    · exact fun k read hread => h.noted k read (hmem hread)
  | cons t ts ih =>
    apply Sql.follows_scan
    intro found _
    exact follows_rekeyRows ih found ph h

end Programs

/-! ### `rekey_all` misses no row -/

section Covering

variable (P : (k : Key) → Column k.table → Token → Prop)

/-- What an answer says while the first tokens of `P` are stored: the rows of a table that
the session has not written are found with them, and an `UPDATE` finds its row. -/
def Finds (ph : Phase Key (Row Token) (Note Token)) :
    (q : Stmt Key (Row Token) (Note Token)) → q.Answer → Prop
  | .scan p, (found : List ((k : Key) × Row Token k)) =>
    ∀ k c token, P k c token → p k = true → ph.held k = none →
      ∃ read, ⟨k, read⟩ ∈ found ∧ read c = some token
  | .modify k f, found =>
    (∃ c token, P k c token) → (∀ b, ph.held k ≠ some (b, none)) → (∀ row, f row ≠ none) →
      found ≠ none
  | _, _ => True

/-- The tokens of `P` are in the rows that the session has noted. -/
def Notes (ph : Phase Key (Row Token) (Note Token)) : Prop :=
  ∀ k c token, P k c token → ∃ read, Note.rekeyed k read ∈ ph.notes ∧ read c = some token

/-- The discipline of a session that commits only with the tokens of `P` noted, where they
are stored all the time. -/
def covering : Dialogue.Discipline (Stmt Key (Row Token) (Note Token)) Stmt.Answer
    (Phase Key (Row Token) (Note Token)) where
  allows ph q :=
    match q with
    | .commit => Notes P ph
    | _ => True
  admits ph q a := ph.Admits q a ∧ Finds P ph q a
  next := Phase.next

/-- A token of `P` is in a table that `rekey_all` has not come to, in a row that it has
read, or noted. -/
structure Covers (ts : List Table) (found : List ((k : Key) × Row Token k))
    (ph : Phase Key (Row Token) (Note Token)) : Prop where
  unwritten : ∀ k, k.table ∈ ts → ph.held k = none
  undeleted : ∀ k b, ph.held k ≠ some (b, none)
  apart : ∀ x ∈ found, x.1.table ∉ ts
  covered : ∀ k c token, P k c token → k.table ∈ ts ∨
    (∃ read, ⟨k, read⟩ ∈ found ∧ read c = some token) ∨
    ∃ read, Note.rekeyed k read ∈ ph.notes ∧ read c = some token

variable {F} {P} {nonce : (k : Key) → Column k.table → Nat} {ts : List Table} {k : Key}
  {read : Row Token k} {found : List ((k : Key) × Row Token k)}
  {ph : Phase Key (Row Token) (Note Token)}

theorem Covers.skip (h : Covers P ts (⟨k, read⟩ :: found) ph)
    (hnone : ∀ c token, P k c token → read c ≠ some token) : Covers P ts found ph where
  unwritten := h.unwritten
  undeleted := h.undeleted
  apart := fun x hx => h.apart x (List.mem_cons_of_mem _ hx)
  covered := by
    intro k' c token hP
    rcases h.covered k' c token hP with ht | ⟨read', hread, htoken⟩ | hnoted
    · exact .inl ht
    · rcases List.mem_cons.mp hread with heq | hread
      · cases heq
        exact absurd htoken (hnone c token hP)
      · exact .inr (.inl ⟨read', hread, htoken⟩)
    · exact .inr (.inr hnoted)

theorem Covers.write (h : Covers P ts (⟨k, read⟩ :: found) ph) (b : Option (Row Token k))
    (row : Row Token k) :
    Covers P ts found { ph.put k b (some row) with notes := ph.notes ++ [.rekeyed k read] } where
  unwritten := by
    intro k' ht
    have hk : k' ≠ k := by
      rintro rfl
      exact h.apart _ List.mem_cons_self ht
    exact (Phase.held_put_of_ne hk).trans (h.unwritten k' ht)
  undeleted := by
    intro k' b' hheld
    by_cases hk : k' = k
    · subst hk
      have hself := Phase.held_put_self ph k' b (some row)
      cases hself.symm.trans hheld
    · exact h.undeleted k' b' ((Phase.held_put_of_ne hk).symm.trans hheld)
  apart := fun x hx => h.apart x (List.mem_cons_of_mem _ hx)
  covered := by
    intro k' c token hP
    rcases h.covered k' c token hP with ht | ⟨read', hread, htoken⟩ | ⟨read', hnoted, htoken⟩
    · exact .inl ht
    · rcases List.mem_cons.mp hread with heq | hread
      · cases heq
        exact .inr (.inr ⟨read, by simp, htoken⟩)
      · exact .inr (.inl ⟨read', hread, htoken⟩)
    · exact .inr (.inr ⟨read', List.mem_append_left _ hnoted, htoken⟩)

theorem Covers.scan {t : Table} (h : Covers P (t :: ts) [] ph) (ht : t ∉ ts)
    (hmem : ∀ x ∈ found, decide (x.1.table = t) = true)
    (hfinds : Finds P ph (.scan fun k => k.table = t) found) : Covers P ts found ph where
  unwritten := fun k hk => h.unwritten k (List.mem_cons_of_mem t hk)
  undeleted := h.undeleted
  apart := by
    intro x hx
    rw [of_decide_eq_true (hmem x hx)]
    exact ht
  covered := by
    intro k c token hP
    rcases h.covered k c token hP with hk | ⟨read, hread, -⟩ | hnoted
    · rcases List.mem_cons.mp hk with rfl | hk
      · have hfree := h.unwritten k List.mem_cons_self
        exact .inr (.inl (hfinds k c token hP (decide_eq_true rfl) hfree))
      · exact .inl hk
    · cases hread
    · exact .inr (.inr hnoted)

theorem covering_rekeyRows {after : Req Token Unit}
    (hafter : ∀ ph, Covers P ts [] ph → after.Follows (covering P) (fun _ _ => True) ph)
    (found : List ((k : Key) × Row Token k)) (ph : Phase Key (Row Token) (Note Token))
    (h : Covers P ts found ph) :
    (rekeyRows F nonce after found).Follows (covering P) (fun _ _ => True) ph := by
  induction found generalizing ph with
  | nil => exact hafter ph h
  | cons x found ih =>
    obtain ⟨k, read⟩ := x
    rw [rekeyRows]
    split
    · split
      · refine ⟨trivial, fun a ha => ?_⟩
        cases a with
        | none =>
          -- the row is gone, so none of its tokens is stored
          apply ih ph (h.skip _)
          intro c token hP
          exact absurd rfl (ha.2 ⟨c, token, hP⟩ (h.undeleted k) nofun)
        | some row => exact ⟨trivial, fun _ _ => ih _ (h.write _ _)⟩
      · rename_i hset
        apply ih ph (h.skip _)
        intro c token _ htoken
        apply hset
        rw [anySet, List.any_eq_true]
        exact ⟨c, mem_columns c, by rw [htoken, Option.isSome_some]⟩
    · trivial

theorem covering_rekeyTables (ts : List Table) (hts : ts.Nodup)
    (ph : Phase Key (Row Token) (Note Token)) (h : Covers P ts [] ph) :
    (rekeyTables F nonce ts).Follows (covering P) (fun _ _ => True) ph := by
  induction ts generalizing ph with
  | nil =>
    refine ⟨trivial, fun _ _ => ⟨?_, fun _ _ => trivial⟩⟩
    intro k c token hP
    rcases h.covered k c token hP with hk | ⟨read, hread, -⟩ | ⟨read, hnoted, htoken⟩
    · cases hk
    · cases hread
    · exact ⟨read, List.mem_append_left _ hnoted, htoken⟩
  | cons t ts ih =>
    obtain ⟨ht, hts⟩ := List.nodup_cons.mp hts
    refine ⟨trivial, fun found hfound => ?_⟩
    exact covering_rekeyRows (ih hts) found ph (h.scan ht hfound.1 hfound.2)

/-- **`rekey_all` commits with every token noted** that is stored all the time. -/
theorem covering_rekeyAll :
    (rekeyAll F nonce).Follows (covering P) (fun _ _ => True) .clear := by
  apply covering_rekeyTables _ (by decide)
  constructor
  · exact fun _ _ => rfl
  · exact nofun
  · exact nofun
  · intro k c token _
    left
    cases k <;> simp [Key.table]

variable {rows} {d d' : Store Token} {i : Nat}

theorem finds_of_sound (h : Sound F rows d)
    (hP : ∀ k c token, P k c token → Pending rows d.log k c token)
    {q : Stmt Key (Row Token) (Note Token)} {a : q.Answer} (hs : d.serve i q = some (a, d')) :
    Finds P (d.phase i) q a := by
  -- a pending token is in the committed row
  have hrow : ∀ k c token, P k c token → ∃ row, d.row k = some row ∧ row c = some token := by
    intro k c token hPk
    obtain ⟨hnot, hun, first, hfirst, htoken⟩ := hP k c token hPk
    obtain ⟨row, hrow, hkept⟩ := h.kept k first hfirst
    exact ⟨row, hrow, (hkept hnot c hun).trans htoken⟩
  cases q with
  | scan p =>
    cases hs
    intro k c token hPk hp hfree
    obtain ⟨row, hrow, htoken⟩ := hrow k c token hPk
    refine ⟨row, ?_, htoken⟩
    have hview : d.view i k = some row := (Db.view_of_not_held hfree).trans hrow
    have hkey : k ∈ d.keys := d.complete k (.inl (by simp [hrow]))
    rw [Db.found, List.mem_filterMap]
    exact ⟨k, List.mem_filter.mpr ⟨hkey, hp⟩, by rw [hview, Option.map_some]⟩
  | modify k f =>
    rintro ⟨c, token, hPk⟩ hheld hf rfl
    obtain ⟨row, hrow, -⟩ := hrow k c token hPk
    -- the session sees a row, so the `UPDATE` returns one
    have hview : ∃ v, d.view i k = some v := by
      cases hk : (d.phase i).held k with
      | none => exact ⟨row, (Db.view_of_not_held hk).trans hrow⟩
      | some held =>
        obtain ⟨b, n⟩ := held
        cases n with
        | none => exact absurd hk (hheld b)
        | some v => exact ⟨v, (Db.row_of_held hk).2⟩
    obtain ⟨v, hv⟩ := hview
    simp only [Db.serve, hv] at hs
    split at hs
    · rename_i hnone
      exact hf v hnone
    · split at hs <;> cases hs
  | _ => trivial

end Covering

/-! ### Runs -/

section Runs

/-- The requests that store secrets. -/
inductive Request where
  | rotateSecret (id : Nat) (apiKey apiSecret : Nat × String)
  | mfaSetup (userId : Nat) (secret : Nat × String)
  | upsertSmtp (password clientSecret refreshToken : Change) (touched : Bool)

def Request.program : Request → Req Token Unit
  | .rotateSecret id apiKey apiSecret => RekeyRaces.rotateSecret F id apiKey apiSecret
  | .mfaSetup userId secret => RekeyRaces.mfaSetup F userId secret
  | .upsertSmtp password clientSecret refreshToken touched =>
    RekeyRaces.upsertSmtp F password clientSecret refreshToken touched

theorem Request.follows (r : Request) :
    (r.program F).Follows (transaction (fun _ => True) (GoodRequest F)) (fun _ _ => True)
      .clear := by
  cases r with
  | rotateSecret id apiKey apiSecret => exact follows_rotateSecret id apiKey apiSecret
  | mfaSetup userId secret => exact follows_mfaSetup userId secret
  | upsertSmtp password clientSecret refreshToken touched =>
    exact follows_upsertSmtp password clientSecret refreshToken touched

abbrev Running (Token : Type) := Programs Key (Row Token) (Note Token) Failure

/-- `rekey_all` as session 0, the requests as the others. -/
def start (d : Store Token) (nonce : (k : Key) → Column k.table → Nat)
    (requests : Nat → Option Request) : Running Token where
  world := d
  threads
    | 0 => some (rekeyAll F nonce)
    | i + 1 => (requests i).map (Request.program F)

/-- What the sessions commit. -/
def Good (nonce : (k : Key) → Column k.table → Nat) (i : Nat) :
    Phase Key (Row Token) (Note Token) → Prop :=
  if i = 0 then GoodRekey F nonce else GoodRequest F

/-- The sessions keep to their disciplines, the stored texts are the expected ones, and
`rekey_all` misses none of the tokens that are pending. -/
structure Invariant (nonce : (k : Key) → Column k.table → Nat) (p : Running Token) : Prop where
  each : Each (fun _ => True) (Good F nonce) p
  sound : Sound F rows p.world
  covering : ∀ P : (k : Key) → Column k.table → Token → Prop,
    (∀ k c token, P k c token → Pending rows p.world.log k c token) →
    ∀ t, p.threads 0 = some t →
      t.Follows (RekeyRaces.covering P) (fun _ _ => True) (p.world.phase 0)

variable {F} {rows} {nonce : (k : Key) → Column k.table → Nat} {p p' : Running Token}
  {d d' : Store Token}

theorem Pending.of_append {log ns : List (Note Token)} {k : Key} {c : Column k.table}
    {token : Token} (h : Pending rows (log ++ ns) k c token) : Pending rows log k c token where
  notRekeyed := fun hold => h.notRekeyed (List.mem_append_left ns hold)
  untouched := fun n hn => h.untouched n (List.mem_append_left ns hn)
  first := h.first

theorem Sound.of_quiet {Own : Key → Prop} (h : Sound F rows d) (hq : Quiet Own d d') :
    Sound F rows d' := by
  constructor
  · rw [hq.row, hq.log]
    exact h.decrypts
  · rw [hq.row, hq.log]
    exact h.primary
  · rw [hq.row, hq.log]
    exact h.absent
  · rw [hq.row, hq.log]
    exact h.kept

theorem covered_of_covering (h : Invariant F rows nonce p) {k : Unit → Req Token Unit}
    (hthread : p.threads 0 = some (.ask .commit k)) : Covered rows p.world 0 :=
  (h.covering _ (fun _ _ _ hP => hP) _ hthread).1

/-- **Every event keeps the invariant**, if `rekey_all` commits rows that are stored as it
had read them. -/
theorem step_invariant {e : Event} (h : Invariant F rows nonce p)
    (hcurrent : OnCommit ReadCurrent p e) (hs : step p e = some p') :
    Invariant F rows nonce p' := by
  obtain ⟨heach, hcases⟩ := each_step h.each hs
  have hlog : ∃ ns, p'.world.log = p.world.log ++ ns := by
    rcases hcases with hq | ⟨i, -, -, hw⟩
    · exact ⟨[], by rw [hq.log, List.append_nil]⟩
    · exact ⟨p.world.notes i, by rw [hw]; rfl⟩
  refine ⟨heach, ?_, ?_⟩
  · rcases hcases with hq | ⟨i, hi, hgood, hw⟩
    · exact h.sound.of_quiet hq
    · rw [hw]
      unfold Good at hgood
      split at hgood
      · rename_i hzero
        subst hzero
        -- session 0 is at its commit
        cases e with
        | stop j => cases hi
        | run j =>
          simp only [committing] at hi
          split at hi
          · rename_i cont hthread
            obtain rfl := Option.some.inj hi
            exact sound_rekey h.sound hgood (hcurrent 0 (by simp [committing, hthread]))
              (covered_of_covering h hthread)
          · cases hi
      · exact sound_request h.sound hgood
  · intro P hP t ht
    obtain ⟨ns, hns⟩ := hlog
    have hPold : ∀ k c token, P k c token → Pending rows p.world.log k c token := by
      intro k c token hPk
      have hnew := hP k c token hPk
      rw [hns] at hnew
      exact hnew.of_append
    -- a session that is closed is not the one of `rekey_all`, whose thread is there
    have hclosed : ∀ i, Function.update p.threads i none 0 = some t →
        t.Follows (RekeyRaces.covering P) (fun _ _ => True) ((p.world.rollback i).phase 0) := by
      intro i ht
      have hne : i ≠ 0 := by
        rintro rfl
        simp at ht
      rw [Db.phase_rollback_other hne.symm]
      exact h.covering P hPold t (by simpa [hne.symm] using ht)
    cases e with
    | run i =>
      rcases Pool.advance_cases hs with ⟨t', -, -, rfl⟩ | ⟨q, cont, a, w, hi, hserve, rfl⟩
      · exact hclosed i ht
      · obtain ⟨hadmits, hown, hother⟩ := Db.serve_phase hserve
        show t.Follows _ _ (w.phase 0)
        by_cases hzero : i = 0
        · subst hzero
          obtain rfl : cont a = t := by simpa using ht
          rw [hown]
          exact (h.covering P hPold _ hi).2 a ⟨hadmits, finds_of_sound h.sound hPold hserve⟩
        · have hold : p.threads 0 = some t := by simpa [Ne.symm hzero] using ht
          rw [hother 0 (Ne.symm hzero)]
          exact h.covering P hPold t hold
    | stop i =>
      simp only [step] at hs
      split at hs
      · cases hs
      · cases hs
        exact hclosed i ht

/-- The invariant holds at the start, where every stored token can be decrypted. -/
theorem invariant_start (requests : Nat → Option Request) (hidle : d.Idle) (hlog : d.log = [])
    (hopen : ∀ k row c token, d.row k = some row → row c = some token →
      F.decrypt token ≠ none) :
    Invariant F d.row nonce (start F d nonce requests) := by
  have hexpected (k : Key) (c : Column k.table) :
      expected F d.row d.log k c = original F d.row k c := by
    rw [hlog]
    rfl
  constructor
  · intro i t ht
    show t.Follows _ _ (d.phase i)
    rw [Db.phase_idle hidle]
    cases i with
    | zero =>
      cases ht
      apply follows_rekeyTables
      constructor <;> exact nofun
    | succ i =>
      obtain ⟨r, -, rfl⟩ := Option.map_eq_some_iff.mp ht
      exact r.follows F
  · constructor
    · intro k row hrow c
      have hrow : d.row k = some row := hrow
      show _ = (expected F d.row d.log k c).map some
      rw [hexpected, original, hrow, Option.bind_some]
      cases htoken : row c with
      | none => rfl
      | some token =>
        obtain ⟨text, htext⟩ := Option.ne_none_iff_exists'.mp (hopen k row c token hrow htoken)
        rw [Option.map_some, Option.bind_some, htext, Option.map_some]
    · intro k row hrow c token htoken
      right
      refine ⟨?_, ?_, row, hrow, htoken⟩
      · show ¬ Note.finished ∈ d.log
        rw [hlog]
        exact List.not_mem_nil
      · show ∀ n ∈ d.log, _
        rw [hlog]
        exact nofun
    · intro k hrow c
      have hrow : d.row k = none := hrow
      show expected F d.row d.log k c = none
      rw [hexpected, original, hrow]
      rfl
    · exact fun k row hrow => ⟨row, hrow, fun _ _ _ => rfl⟩
  · intro P _ t ht
    cases ht
    show Dialogue.Follows _ _ (d.phase 0) _
    rw [Db.phase_idle hidle]
    exact covering_rekeyAll

/-- **Key rotation loses no secret** where each row that `rekey_all` wrote is, when it
commits, stored as it had read it: whichever way it is interleaved with requests, once it
has committed every encrypted column decrypts with the primary key alone, to the text that
a request has committed last or to the original one. -/
theorem secrets_kept (requests : Nat → Option Request) (hidle : d.Idle) (hlog : d.log = [])
    (hopen : ∀ k row c token, d.row k = some row → row c = some token → F.decrypt token ≠ none)
    {es : List Event} (hcurrent : Along step (OnCommit ReadCurrent) (start F d nonce requests) es)
    (hrun : runAll step (start F d nonce requests) es = some p') (hdone : Rekeyed p'.world.log)
    (k : Key) (c : Column k.table) :
    ((p'.world.row k).bind fun row => row c).map F.decryptPrimary =
      (expected F d.row p'.world.log k c).map some := by
  have hend : Invariant F d.row nonce p' :=
    runAll_invariant (fun _ _ _ hi hc hs => step_invariant hi hc hs)
      (invariant_start requests hidle hlog hopen) hcurrent hrun
  cases hrow : p'.world.row k with
  | none => rw [hend.sound.absent k hrow c, Option.bind_none, Option.map_none, Option.map_none]
  | some row =>
    rw [← hend.sound.decrypts k row hrow c, Option.bind_some]
    cases htoken : row c with
    | none => rfl
    | some token =>
      rcases hend.sound.primary k row hrow c token htoken with hprimary | hpending
      · rw [Option.map_some, Option.map_some, hprimary]
      · exact absurd hdone hpending.notRekeyed

end Runs

end

/-! ### One device -/

/-- What a note of `rekey_all` asks of the committed row. -/
def stillRead {Token : Type} [DecidableEq Token] (d : Store Token) : Note Token → Bool
  | .rekeyed k read =>
    match d.row k with
    | some row => (columns k.table).all fun c => (read c).isNone || read c == row c
    | none => false
  | _ => true

theorem stillRead_iff {Token : Type} [DecidableEq Token] {d : Store Token} {i : Nat} :
    (∀ n ∈ d.notes i, stillRead d n = true) ↔ ReadCurrent d i := by
  have hrow (k : Key) (read row : Row Token k) :
      ((columns k.table).all fun c => (read c).isNone || read c == row c) = true ↔
        ∀ c token, read c = some token → row c = some token := by
    rw [List.all_eq_true]
    constructor
    · intro h c token htoken
      have hc := h c (mem_columns c)
      rw [htoken, Option.isNone_some, Bool.false_or, beq_iff_eq] at hc
      exact hc.symm
    · intro h c _
      cases htoken : read c with
      | none => rfl
      | some token => simp [h c token htoken]
  constructor
  · intro h k read hn
    have hnote := h _ hn
    rw [stillRead] at hnote
    split at hnote
    · rename_i row hk
      exact ⟨row, hk, (hrow k read row).mp hnote⟩
    · cases hnote
  · intro h n hn
    cases n with
    | rekeyed k read =>
      obtain ⟨row, hk, hsame⟩ := h k read hn
      rw [stillRead, hk]
      exact (hrow k read row).mpr hsame
    | wrote _ _ => rfl
    | finished => rfl

instance {Token : Type} [DecidableEq Token] (d : Store Token) (i : Nat) :
    Decidable (ReadCurrent d i) :=
  decidable_of_iff _ stillRead_iff

abbrev OpenToken : Type := Nat × Nat × String

/-- The old key is 0, the primary key is 1. -/
def twoKeys : MultiFernet OpenToken where
  encryptWith key nonce text := (key, nonce, text)
  decryptWith key token := if token.1 = key then some token.2.2 else none
  decryptWith_encryptWith _ _ _ := if_pos rfl
  primary := 1
  oldKeys := [0]

def oneDevice : Store OpenToken :=
  .load [⟨.device 0, fun
    | .apiKeyEnc => some (0, 0, "key")
    | .apiSecretEnc => some (0, 1, "secret")⟩]

def newSecret : Nat → Option Request
  | 0 => some (.rotateSecret 0 (2, "new key") (3, "new secret"))
  | _ => none

/-- The request, and `rekey_all` after it. -/
def inTurn : List Event := List.replicate 5 (.run 1) ++ List.replicate 9 (.run 0)

/-- `rekey_all` has read the device when the request commits. -/
def overlapping : List Event := .run 0 :: List.replicate 5 (.run 1) ++ List.replicate 8 (.run 0)

/-- The API secret of the device, under the primary key alone. -/
def secretOf (d : Store OpenToken) : Option (Option String) :=
  ((d.row (.device 0)).bind fun row => row .apiSecretEnc).map twoKeys.decryptPrimary

theorem oneDevice_open (k : Key) (row : Row OpenToken k) (c : Column k.table) (token : OpenToken)
    (hrow : oneDevice.row k = some row) (htoken : row c = some token) :
    twoKeys.decrypt token ≠ none := by
  by_cases hk : k = .device 0
  · subst hk
    obtain rfl := Option.some.inj hrow
    cases c <;> cases htoken <;> decide
  · have hnone : oneDevice.row k = none := by
      simp [oneDevice, Db.load, Db.commit, Db.view, Db.put, Db.empty, hk]
    rw [hnone] at hrow
    cases hrow

/-- One after the other, the new secret is the one that is stored. -/
theorem secrets_kept_inTurn :
    ∃ p', runAll step (start twoKeys oneDevice (fun _ _ => 7) newSecret) inTurn = some p' ∧
      ((p'.world.row (.device 0)).bind fun row => row .apiSecretEnc).map twoKeys.decryptPrimary =
        (expected twoKeys oneDevice.row p'.world.log (.device 0) .apiSecretEnc).map some :=
  ⟨_, rfl, secrets_kept newSecret (Db.idle_load _) rfl oneDevice_open
    (show Along step (OnCommit ReadCurrent) _ inTurn by decide) rfl
    (.tail _ (.tail _ (.head _))) (.device 0) .apiSecretEnc⟩

/-- **Both commit, and the device has its old secret back.** -/
theorem rotated_secret_lost :
    ∃ p', runAll step (start twoKeys oneDevice (fun _ _ => 7) newSecret) overlapping = some p' ∧
      expected twoKeys oneDevice.row p'.world.log (.device 0) .apiSecretEnc = some "new secret" ∧
      secretOf p'.world = some (some "secret") :=
  ⟨_, rfl, by decide, by decide⟩

end RekeyRaces

end Opngms
