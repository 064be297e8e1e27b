/-
Opngms/RecordRuns.lean

Runs of the appliers of the record kinds against a box: an alias, a firewall
rule, a Monit test, an IDS policy.

Each applier searches the table of its kind for the rows that carry the identity
of the payload and sends one request that changes the table; then it reloads,
and a Monit test may be attached to the system service.  Main result:
**`leaves_record`**, which says what a run does to the rows when a request may
fail: the deed of the change, or nothing.
-/
import Opngms.CatalogUndo
import Opngms.Stranded
import Opngms.KeyedEdits

namespace Opngms

open Appliance Dialogue

variable {A : Appliance}

/-! ### Record kinds -/

/-- The kinds whose changes are about one row of the box. -/
inductive StoredKind where
  | firewallAlias
  | firewallRule
  | monitTest
  | idsPolicy
  deriving DecidableEq

namespace StoredKind

/-- The kind with its identity. -/
def record : StoredKind → RecordKind
  | firewallAlias => .firewallAlias
  | firewallRule => .firewallRule
  | monitTest => .monitTest
  | idsPolicy => .idsPolicy

/-- The table of the box that holds the rows of the kind. -/
def table : StoredKind → String
  | firewallAlias => "alias"
  | firewallRule => "rule"
  | monitTest => "test"
  | idsPolicy => "policy"

/-- The column that holds the identity, the interface of a rule apart. -/
def column : StoredKind → String
  | firewallAlias => "name"
  | firewallRule => "description"
  | monitTest => "name"
  | idsPolicy => "description"

/-- A row with these fields is found under an identity; nothing is under an empty
one. -/
def finds (k : StoredKind) (id : Json × String) (φ : Fields) : Bool :=
  id.1.truthy && decide ((φ.lookup k.column).map Json.str = some id.1) &&
    decide (k = .firewallRule → (φ.lookup "interface").getD "" = id.2)

/-- How the applier of the kind writes. -/
def way (k : StoredKind) (operation : String) : Way :=
  if k = .firewallAlias then if operation = "add" then .insert else .update
  else .upsert

/-- The requests before the one that changes the table. -/
def reads (k : StoredKind) (operation : String) (payload : Dict) : Nat :=
  match k with
  | firewallAlias => if operation = "add" then 0 else 1
  | firewallRule => 1
  | monitTest => 1
  | idsPolicy =>
    if operation ≠ "delete" ∧ listsRulesets payload then 2 else 1

end StoredKind

/-- What `_serialize_policy` returns on a box; `none` where it raises. -/
def Appliance.serialized (A : Appliance) (payload : Dict) : Option Dict :=
  match (serializePolicy payload).play (fun _ _ => some (.ok A.policyModel, ())) () with
  | some (.ok d, _) => some d
  | _ => none

/-- The fields an applier sends, if it comes to send any. -/
def StoredKind.item (k : StoredKind) (A : Appliance) (payload : Dict) : Option Dict :=
  match k with
  | .firewallAlias => some (normalizeAliasPayload payload)
  | .firewallRule => some payload
  | .monitTest => some (Dict.pop payload "attach_to_system")
  | .idsPolicy => A.serialized payload

/-- The fields as a box takes them. -/
def Appliance.rewrite (A : Appliance) (γ : String) (item : Dict) : Rewrite Fields where
  fresh := A.fill (A.columns γ) item
  onto base := A.fill base item

/-- What a change of the kind does to the rows of the box. -/
def StoredKind.deed (k : StoredKind) (A : Appliance) (operation : String) (payload : Dict)
    (S : RowStore String String Fields) : Deed String String Fields :=
  let id := k.record.identity payload
  if operation = "delete" then S.removal k.table (k.finds id)
  else
    match k.item A payload with
    | none => .nothing
    | some item =>
      let w := A.rewrite k.table item
      -- an alias is added without a search; the box refuses a name that is taken
      if k.way operation = .insert then
        S.placing .insert k.table (fun φ => φ.lookup "name" == w.fresh.lookup "name") w
      else if !id.1.truthy then .nothing
      else S.placing (k.way operation) k.table (k.finds id) w

/-- The request that changes the table is carried out: no read before it failed,
nor did it. -/
def landed (m : Option Mishap) (n : Nat) : Bool :=
  m.all fun h => decide (n < h.number) || (h.number == n && h.carriedOut)

/-- A read that fails is not answered. -/
def ReadsFail (m : Option Mishap) (n : Nat) : Prop :=
  ∀ h, mishapAt m n = some h → h.answer.isOk = false

/-! ### Quiet programs -/

/-- Requests that leave the configuration of a box. -/
def quietly (A : Appliance) : Discipline Request (fun _ => Answer) Unit where
  allows _ r := ∀ S : Configuration A, (respond S r).2 = S
  next _ _ _ := ()

/-- A program that leaves the configuration. -/
def Quiet (A : Appliance) {α : Type} (p : Client α) : Prop :=
  Follows (quietly A) (fun _ _ => True) () p

section QuietPrograms

variable {α β : Type}

theorem quiet_of_silent {p : Client α} (h : Silent p) : Quiet A p := h.follows fun _ => trivial

theorem Quiet.bind {p : Client α} {f : α → Client β} (hp : Quiet A p) (hf : ∀ a, Quiet A (f a)) :
    Quiet A (p.bind f) :=
  Follows.bind hp (fun _ a _ => hf a) fun _ _ _ => trivial

theorem quiet_post {r : Request} (h : ∀ S : Configuration A, (respond S r).2 = S) :
    Quiet A (post r) := by
  refine ⟨h, fun a _ => ?_⟩
  cases a <;> trivial

theorem silent_raiseOnFailed (res : Json) (what : String) : Silent (raiseOnFailed res what) := by
  unfold raiseOnFailed
  split
  · exact silent_raise _
  · exact silent_pure _

theorem quiet_attach (testUuid : Json) : Quiet A (attachTestToSystem testUuid) := by
  refine (quiet_post fun _ => rfl).bind fun data => ?_
  refine (quiet_of_silent (silent_ofExcept _)).bind fun sid => ?_
  refine (quiet_post fun _ => rfl).bind fun svc => ?_
  refine (quiet_of_silent (silent_ofExcept _)).bind fun tests => ?_
  cases tests with
  | none => exact quiet_of_silent (silent_pure ())
  | some ts => exact (quiet_post fun _ => rfl).bind fun _ => quiet_of_silent (silent_pure ())

end QuietPrograms

/-! ### Searches -/

def rowDict (r : Row String String Fields) : Dict := ("uuid", .str r.uuid) :: strDict r.fields

theorem get?_rowDict (r : Row String String Fields) {t : String} (ht : t ≠ "uuid") :
    Dict.get? (rowDict r) t = (r.fields.lookup t).map .str := by
  rw [rowDict, Dict.get?_cons, if_neg (Ne.symm ht), get?_strDict]

theorem filterRows_rows (p : Dict → Bool) (rs : List (Row String String Fields)) :
    filterRows p (rs.map rowJson) = .ok ((rs.filter fun r => p (rowDict r)).map rowDict) :=
  filterRows_map p rowDict rs

theorem matchingRows_search {S : Configuration A} {γ : String} {p : Dict → Bool} {q : Fields → Bool}
    (hp : ∀ r : Row String String Fields, p (rowDict r) = q r.fields) :
    matchingRows p (.obj [("rows", .arr ((S.store.rows.filter fun r => r.table = γ).map rowJson))]) =
      .ok ((S.store.matching γ q).map rowDict) := by
  show filterRows p _ = _
  rw [filterRows_rows, List.filter_filter]
  refine congrArg (fun rs => Except.ok (List.map rowDict rs)) (List.filter_congr fun r _ => ?_)
  rw [hp, Bool.and_comm]

section Resolve

variable {m : Option Mishap} {S : Configuration A} {n : Nat} {α : Type}

theorem play_read_error {r : Request} {h : Mishap} (hm : mishapAt m n = some h)
    (hread : h.answer.isOk = false) (hr : (respond S r).2 = S) :
    ∃ x, (post r).play (serve m) (S, n) = some (.error x, S, n + 1) := by
  have hpost := play_post (m := m) (S := S) (n := n) r
  rw [exchange_mishap hm, hr, ite_self] at hpost
  cases ha : h.answer with
  | ok j =>
    rw [ha] at hread
    cases hread
  | error e =>
    rw [ha] at hpost
    exact ⟨_, hpost⟩

theorem play_read_ok {r : Request} (hm : mishapAt m n = none) {j : Json}
    (hr : respond S r = (.ok j, S)) :
    (post r).play (serve m) (S, n) = some (.ok j, S, n + 1) := by
  have hpost := play_post (m := m) (S := S) (n := n) r
  rw [exchange_served hm, hr] at hpost
  exact hpost

theorem uniqueUuid_rows (what : String) (ambiguous : Nat → String)
    (rs : List (Row String String Fields)) (hrs : ∀ r ∈ rs, r ∈ S.store.rows) :
    (rs = [] ∧ uniqueUuid what ambiguous (rs.map rowDict) = .pure none) ∨
    (∃ r, rs = [r] ∧ uniqueUuid what ambiguous (rs.map rowDict) = .pure (some r.uuid)) ∨
    (2 ≤ rs.length ∧ ∃ x, uniqueUuid what ambiguous (rs.map rowDict) = .raise x) := by
  rcases rs with - | ⟨r, - | ⟨r', rs⟩⟩
  · exact .inl ⟨rfl, rfl⟩
  · refine .inr (.inl ⟨r, rfl, ?_⟩)
    have huuid : (Dict.getD (rowDict r) "uuid" (.str "")).pyStr = r.uuid := by
      simp [rowDict, Dict.getD]
    show (if safeName (Dict.getD (rowDict r) "uuid" (.str "")).pyStr then _ else _) = _
    rw [huuid, S.safe r (hrs r List.mem_cons_self), if_pos rfl]
  · exact .inr (.inr ⟨by simp, _, rfl⟩)

/-- What a search of the upserting kinds comes to: it fails, finds no row, or
finds one. -/
inductive Search (m : Option Mishap) (S : Configuration A) (n : Nat) (k : StoredKind)
    (id : Json × String) (p : Client (Option String)) : Prop where
  | fails (x : Raised) (n' : Nat) (hplay : p.play (serve m) (S, n) = some (.error x, S, n'))
      (hwhy : (mishapAt m n).isSome = true ∨ id.1.truthy = false ∨
        2 ≤ (S.store.matching k.table (k.finds id)).length)
  | absent (hm : mishapAt m n = none) (hid : id.1.truthy = true)
      (hnone : S.store.matching k.table (k.finds id) = [])
      (hplay : p.play (serve m) (S, n) = some (.ok none, S, n + 1))
  | found (hm : mishapAt m n = none) (hid : id.1.truthy = true) (r : Row String String Fields)
      (hone : S.store.matching k.table (k.finds id) = [r])
      (hplay : p.play (serve m) (S, n) = some (.ok (some r.uuid), S, n + 1))

theorem search_rows {k : StoredKind} {id : Json × String} {req : Request} {p : Dict → Bool}
    {what : String} {ambiguous : Nat → String} (hread : ReadsFail m n)
    (hreq : respond S req = (search S k.table, S)) (hid : id.1.truthy = true)
    (hp : ∀ r : Row String String Fields, p (rowDict r) = k.finds id r.fields) :
    Search m S n k id ((post req).bind fun data => (builtin (matchingRows p data)).bind fun ms =>
      uniqueUuid what ambiguous ms) := by
  cases hm : mishapAt m n with
  | some h =>
    obtain ⟨x, hplay⟩ := play_read_error (S := S) (r := req) hm (hread h hm) (by rw [hreq])
    exact .fails x _ (play_bind_error hplay) (.inl (by rw [hm]; rfl))
  | none =>
    have hrest : ((post req).bind fun data => (builtin (matchingRows p data)).bind fun ms =>
        uniqueUuid what ambiguous ms).play (serve m) (S, n) =
        (uniqueUuid what ambiguous ((S.store.matching k.table (k.finds id)).map rowDict)).play
          (serve m) (S, n + 1) := by
      refine (play_bind_ok (play_read_ok hm hreq)).trans ?_
      rw [matchingRows_search hp]
      rfl
    rcases uniqueUuid_rows what ambiguous (S.store.matching k.table (k.finds id))
      (fun r hr => (RowStore.mem_matching.mp hr).1) with ⟨hnone, hu⟩ | ⟨r, hone, hu⟩ | ⟨hmany, x, hu⟩
    · rw [hu] at hrest
      exact .absent hm hid hnone hrest
    · rw [hu] at hrest
      exact .found hm hid r hone hrest
    · rw [hu] at hrest
      exact .fails x _ hrest (.inr (.inr hmany))

theorem finds_iff {k : StoredKind} {id : Json × String} {φ : Fields} (hid : id.1.truthy = true) :
    k.finds id φ = (decide ((φ.lookup k.column).map Json.str = some id.1) &&
      decide (k = .firewallRule → (φ.lookup "interface").getD "" = id.2)) := by
  rw [StoredKind.finds, hid, Bool.true_and]

theorem pyStr_getD_rowDict (r : Row String String Fields) {t : String} (ht : t ≠ "uuid") :
    (Dict.getD (rowDict r) t (.str "")).pyStr = (r.fields.lookup t).getD "" := by
  rw [Dict.getD, get?_rowDict r ht]
  cases r.fields.lookup t <;> rfl

theorem ruleMatches_rowDict {description interface : String}
    (hid : (Json.str description).truthy = true) (r : Row String String Fields) :
    ruleMatches description interface (rowDict r) =
      StoredKind.firewallRule.finds (.str description, interface) r.fields := by
  rw [ruleMatches, get?_rowDict r (by decide), pyStr_getD_rowDict r (by decide), finds_iff hid]
  simp [StoredKind.column]

theorem column_rowDict (k : StoredKind) {id : String} (hid : (Json.str id).truthy = true)
    (hk : k ≠ .firewallRule) (r : Row String String Fields) :
    decide (Dict.get? (rowDict r) k.column = some (.str id)) = k.finds (.str id, "") r.fields := by
  rw [get?_rowDict r (by cases k <;> decide), finds_iff hid]
  simp [hk]

theorem search_rule (hread : ReadsFail m n) (description interface : String) :
    Search m S n .firewallRule (.str description, interface)
      (resolveRuleUuid description interface) := by
  by_cases hd : description = ""
  · subst hd
    exact .fails _ n rfl (.inr (.inl rfl))
  · have hid : (Json.str description).truthy = true := by simpa using hd
    rw [resolveRuleUuid, if_neg hd]
    exact search_rows hread rfl hid (ruleMatches_rowDict hid)

theorem search_test (hread : ReadsFail m n) (name : String) :
    Search m S n .monitTest (.str name, "") (resolveMonitTestUuid name) := by
  by_cases hd : name = ""
  · subst hd
    exact .fails _ n rfl (.inr (.inl rfl))
  · have hid : (Json.str name).truthy = true := by simpa using hd
    rw [resolveMonitTestUuid, if_neg hd]
    exact search_rows hread rfl hid (column_rowDict .monitTest hid (by decide))

theorem search_policy (hread : ReadsFail m n) (description : String) :
    Search m S n .idsPolicy (.str description, "") (resolvePolicyUuid description) := by
  by_cases hd : description = ""
  · subst hd
    exact .fails _ n rfl (.inr (.inl rfl))
  · have hid : (Json.str description).truthy = true := by simpa using hd
    rw [resolvePolicyUuid, if_neg hd]
    exact search_rows hread rfl hid (column_rowDict .idsPolicy hid (by decide))

theorem aliasMatches_rowDict {name : Json} (hid : name.truthy = true)
    (r : Row String String Fields) : (Dict.getD (rowDict r) "name" .null).pyEq name =
      StoredKind.firewallAlias.finds (name, "") r.fields := by
  rw [Dict.getD, get?_rowDict r (by decide), finds_iff hid, StoredKind.column]
  cases r.fields.lookup "name" with
  | none => cases name <;> first | rfl | cases hid
  | some s => cases name <;> simp [Json.pyEq]

theorem search_alias (hread : ReadsFail m n) (name : Json) :
    (∃ r, mishapAt m n = none ∧ S.store.matching "alias" (StoredKind.firewallAlias.finds (name, "")) = [r] ∧
      (resolveAliasUuid name).play (serve m) (S, n) = some (.ok r.uuid, S, n + 1)) ∨
    (((mishapAt m n).isSome = true ∨
        (S.store.matching "alias" (StoredKind.firewallAlias.finds (name, ""))).length ≠ 1) ∧
      ∃ x n', (resolveAliasUuid name).play (serve m) (S, n) = some (.error x, S, n')) := by
  cases hid : name.truthy with
  | false =>
    have hnone : S.store.matching "alias" (StoredKind.firewallAlias.finds (name, "")) = [] := by
      refine List.filter_eq_nil_iff.mpr fun r _ => ?_
      simp [StoredKind.finds, hid]
    have hrefuse : resolveAliasUuid name = refuse "alias name required for set/delete" := by
      rw [resolveAliasUuid, hid]
      rfl
    rw [hrefuse]
    exact .inr ⟨.inr (by simp [hnone]), _, n, rfl⟩
  | true =>
    rw [resolveAliasUuid, hid]
    cases hm : mishapAt m n with
    | some h =>
      obtain ⟨x, hplay⟩ := play_read_error (S := S) (r := .aliasSearch name) hm (hread h hm) rfl
      exact .inr ⟨.inl rfl, x, _, play_bind_error hplay⟩
    | none =>
      have hplay := play_read_ok (S := S) (r := .aliasSearch name) hm rfl
      have hrows := matchingRows_search (S := S) (γ := "alias")
        (p := fun r => (Dict.getD r "name" .null).pyEq name) (q := StoredKind.firewallAlias.finds (name, ""))
        (aliasMatches_rowDict hid)
      rcases hM : S.store.matching "alias" (StoredKind.firewallAlias.finds (name, "")) with
        - | ⟨r, - | ⟨r', rs⟩⟩
      · refine .inr ⟨.inr (by simp), ?_⟩
        rw [if_neg (by simp)]
        exact ⟨_, _, (play_bind_ok hplay).trans (by rw [hrows, hM]; rfl)⟩
      · refine .inl ⟨r, rfl, rfl, ?_⟩
        rw [if_neg (by simp)]
        refine (play_bind_ok hplay).trans ?_
        rw [hrows, hM]
        rfl
      · refine .inr ⟨.inr (by simp), ?_⟩
        rw [if_neg (by simp)]
        exact ⟨_, _, (play_bind_ok hplay).trans (by rw [hrows, hM]; rfl)⟩

end Resolve

/-! ### What a run leaves -/

/-- Played from a box, a program leaves these rows. -/
def Leaves {α : Type} (m : Option Mishap) (p : Client α) (S : Configuration A) (n : Nat)
    (T : RowStore String String Fields) : Prop :=
  ∃ z S' n', p.play (serve m) (S, n) = some (z, S', n') ∧ S'.store = T

section Leaving

variable {m : Option Mishap} {S S' : Configuration A} {n n' : Nat} {α β : Type}
  {T : RowStore String String Fields}

theorem leaves_of_quiet {p : Client α} (hp : Quiet A p) : Leaves m p S n S.store := by
  induction p generalizing n with
  | pure a => exact ⟨_, _, _, rfl, rfl⟩
  | raise x => exact ⟨_, _, _, rfl, rfl⟩
  | ask r k ih =>
    obtain ⟨hr, hk⟩ := hp
    have hkeep : (exchange m S n r).2 = S := by
      unfold exchange
      split
      · rw [hr S, ite_self]
      · exact hr S
    obtain ⟨z, S₁, n₁, hplay, hS₁⟩ := ih (received (exchange m S n r).1) (n := n + 1) (hk _ trivial)
    have hserve : serve m (S, n) r = some (received (exchange m S n r).1, S, n + 1) := by
      rw [serve, hkeep]
    exact ⟨z, S₁, n₁, (play_ask hserve).trans hplay, hS₁⟩

theorem leaves_bind_ok {p : Client α} {f : α → Client β} {a : α}
    (hp : p.play (serve m) (S, n) = some (.ok a, S', n')) (hf : Leaves m (f a) S' n' T) :
    Leaves m (p.bind f) S n T := by
  obtain ⟨z, S₁, n₁, hplay, hS₁⟩ := hf
  exact ⟨z, S₁, n₁, (play_bind_ok hp).trans hplay, hS₁⟩

theorem leaves_bind_error {p : Client α} {f : α → Client β} {x : Raised}
    (hp : p.play (serve m) (S, n) = some (.error x, S, n')) : Leaves m (p.bind f) S n S.store :=
  ⟨_, _, _, play_bind_error hp, rfl⟩

theorem leaves_post {r : Request} {f : Json → Client α} (hf : ∀ j, Quiet A (f j)) :
    Leaves m ((post r).bind f) S n (exchange m S n r).2.store := by
  have hpost := play_post (m := m) (S := S) (n := n) r
  cases hx : (exchange m S n r).1 with
  | error e =>
    rw [hx] at hpost
    exact ⟨_, _, _, play_bind_error hpost, rfl⟩
  | ok j =>
    rw [hx] at hpost
    exact leaves_bind_ok hpost (leaves_of_quiet (hf j))

theorem exchange_store {r : Request} (hbefore : ∀ i < n, mishapAt m i = none) :
    (exchange m S n r).2.store = if landed m n then (respond S r).2.store else S.store := by
  cases m with
  | none => rfl
  | some h =>
    have hle : n ≤ h.number := by
      by_contra hlt
      have hnone := hbefore h.number (Nat.lt_of_not_le hlt)
      simp [mishapAt] at hnone
    unfold exchange
    rcases Nat.lt_or_eq_of_le hle with hlt | heq
    · have hm : mishapAt (some h) n = none := by simp [mishapAt, Nat.ne_of_gt hlt]
      have hl : landed (some h) n = true := by simp [landed, hlt]
      rw [hm, hl]
      rfl
    · have hm : mishapAt (some h) n = some h := by simp [mishapAt, heq]
      have hl : landed (some h) n = h.carriedOut := by simp [landed, heq]
      rw [hm, hl]
      cases hc : h.carriedOut <;> simp [hc]

theorem landed_of_failed {i : Nat} (hi : i < n) (hm : (mishapAt m i).isSome = true) :
    landed m n = false := by
  cases m with
  | none => cases hm
  | some h =>
    have hnumber : h.number = i := by
      by_contra hne
      simp [mishapAt, hne] at hm
    simp [landed, hnumber, Nat.not_lt_of_gt hi, Nat.ne_of_lt hi]

theorem matching_of_falsy (k : StoredKind) {id : Json × String} (hid : id.1.truthy = false)
    (R : RowStore String String Fields) : R.matching k.table (k.finds id) = [] :=
  List.filter_eq_nil_iff.mpr fun r _ => by simp [StoredKind.finds, hid]

theorem removal_of_length {R : RowStore String String Fields} {γ : String} {q : Fields → Bool}
    (h : (R.matching γ q).length ≠ 1) : R.removal γ q = .nothing := by
  rcases RowStore.removal_cases R γ q with ⟨r, hone, -⟩ | ⟨-, hnothing⟩
  · rw [hone] at h
    exact absurd rfl h
  · exact hnothing

theorem leaves_removing {k : StoredKind} {id : Json × String} {resolve : Client (Option String)}
    {next : Option String → Client Json} {del : String → Request} (hs : Search m S 0 k id resolve)
    (hnone : Quiet A (next none))
    (hsome : ∀ u, ∃ f, (∀ j, Quiet A (f j)) ∧ next (some u) = (post (del u)).bind f)
    (hdel : ∀ u, (respond S (del u)).2.store = S.store.edit A.uuids (.del k.table u)) :
    Leaves m (resolve.bind next) S 0
      (if landed m 1 then S.store.after A.uuids k.table (S.store.removal k.table (k.finds id))
        else S.store) := by
  cases hs with
  | fails x n' hplay hwhy =>
    -- the run ends with its search, and the deed is nothing or is not carried out
    have hsame : (if landed m 1 then S.store.after A.uuids k.table
        (S.store.removal k.table (k.finds id)) else S.store) = S.store := by
      rcases hwhy with hm | hid | hmany
      · rw [landed_of_failed Nat.zero_lt_one hm]
        rfl
      · rw [removal_of_length (by simp [matching_of_falsy k hid]), RowStore.after_nothing, ite_self]
      · rw [removal_of_length (by omega), RowStore.after_nothing, ite_self]
    rw [hsame]
    exact leaves_bind_error hplay
  | absent hm hid hrows hplay =>
    rw [removal_of_length (by simp [hrows]), RowStore.after_nothing, ite_self]
    exact leaves_bind_ok hplay (leaves_of_quiet hnone)
  | found hm hid r hone hplay =>
    have hdeed : S.store.removal k.table (k.finds id) = .removed r := by
      simp [RowStore.removal, hone]
    obtain ⟨f, hf, hnext⟩ := hsome r.uuid
    refine leaves_bind_ok hplay ?_
    have hleaves := leaves_post (m := m) (S := S) (n := 0 + 1) (r := del r.uuid) hf
    rw [exchange_store fun i hi => by rwa [Nat.lt_one_iff.mp hi], hdel] at hleaves
    rw [hnext, hdeed]
    exact hleaves

/-- The edit of an upsert, by the row that its search found. -/
def placed (A : Appliance) (γ : String) (uuid : Option String) (item : Dict) : RowEdit :=
  match uuid with
  | none => .add γ (A.rewrite γ item).fresh
  | some u => .set γ u (A.rewrite γ item).onto

/-- The deed of an upsert. -/
def upserted (A : Appliance) (k : StoredKind) (id : Json × String) (item : Option Dict)
    (R : RowStore String String Fields) : Deed String String Fields :=
  match item with
  | none => .nothing
  | some d =>
    if !id.1.truthy then .nothing
    else R.placing .upsert k.table (k.finds id) (A.rewrite k.table d)

theorem upserted_nothing {k : StoredKind} {id : Json × String} {item : Option Dict}
    {R : RowStore String String Fields}
    (h : id.1.truthy = false ∨ 2 ≤ (R.matching k.table (k.finds id)).length) :
    upserted A k id item R = .nothing := by
  unfold upserted
  cases item with
  | none => rfl
  | some d =>
    rcases h with hid | hmany
    · rw [hid]
      rfl
    · dsimp only
      split
      · rfl
      · rcases RowStore.placing_cases R .upsert k.table (k.finds id) (A.rewrite k.table d) with
          ⟨hnil, -⟩ | ⟨r, hone, -⟩ | ⟨-, hnothing⟩
        · simp [hnil] at hmany
        · simp [hone] at hmany
        · exact hnothing

theorem leaves_upserting {k : StoredKind} {id : Json × String} {resolve : Client (Option String)}
    {next : Option String → Client Json} {item : Option Dict} (hs : Search m S 0 k id resolve)
    (hn : 0 < n)
    (hnext : mishapAt m 0 = none → ∀ uuid, (∀ u, uuid = some u → S.store.has k.table u = true) →
      Leaves m (next uuid) S 1 (if landed m n then
        item.elim S.store fun d => S.store.edit A.uuids (placed A k.table uuid d) else S.store)) :
    Leaves m (resolve.bind next) S 0
      (if landed m n then S.store.after A.uuids k.table (upserted A k id item S.store)
        else S.store) := by
  cases hs with
  | fails x n' hplay hwhy =>
    -- as for a removal, the run ends with its search
    have hsame : (if landed m n then S.store.after A.uuids k.table (upserted A k id item S.store)
        else S.store) = S.store := by
      rcases hwhy with hm | hwhy
      · rw [landed_of_failed hn hm]
        rfl
      · rw [upserted_nothing hwhy, RowStore.after_nothing, ite_self]
    rw [hsame]
    exact leaves_bind_error hplay
  | absent hm hid hrows hplay =>
    refine leaves_bind_ok hplay ?_
    have hleaves := hnext hm none nofun
    have hstore : (item.elim S.store fun d => S.store.edit A.uuids (placed A k.table none d)) =
        S.store.after A.uuids k.table (upserted A k id item S.store) := by
      cases item with
      | none => rfl
      | some d => simp [upserted, hid, RowStore.placing, hrows, RowStore.after, Deed.edits, placed]
    rwa [hstore] at hleaves
  | found hm hid r hone hplay =>
    refine leaves_bind_ok hplay ?_
    obtain ⟨hmem, ht, -⟩ := RowStore.mem_of_matching hone
    have hhas : ∀ u, some r.uuid = some u → S.store.has k.table u = true := by
      rintro u hu
      exact List.any_eq_true.mpr ⟨r, hmem, Option.some.inj hu ▸ RowStore.is_self ht⟩
    have hleaves := hnext hm (some r.uuid) hhas
    have hstore : (item.elim S.store fun d => S.store.edit A.uuids (placed A k.table (some r.uuid) d)) =
        S.store.after A.uuids k.table (upserted A k id item S.store) := by
      cases item with
      | none => rfl
      | some d => simp [upserted, hid, RowStore.placing, hone, RowStore.after, Deed.edits, placed]
    rwa [hstore] at hleaves

theorem leaves_upsert {γ : String} {item : Dict} {addReq : Request} {setReq : String → Request}
    {uuid : Option String} {f : Json → Client α} (hf : ∀ j, Quiet A (f j))
    (hbefore : ∀ i < n, mishapAt m i = none) (hadd : respond S addReq = add S γ item)
    (hset : ∀ u, respond S (setReq u) = set S γ u item)
    (hhas : ∀ u, uuid = some u → S.store.has γ u = true) :
    Leaves m ((post (upsert uuid addReq setReq)).bind f) S n
      (if landed m n then S.store.edit A.uuids (placed A γ uuid item) else S.store) := by
  have hleaves := leaves_post (m := m) (S := S) (n := n) (r := upsert uuid addReq setReq) hf
  rw [exchange_store hbefore] at hleaves
  have hstore : (respond S (upsert uuid addReq setReq)).2.store =
      S.store.edit A.uuids (placed A γ uuid item) := by
    cases uuid with
    | none =>
      rw [upsert, hadd]
      rfl
    | some u =>
      have hrow : set S γ u item = (.ok saved, S.setRow γ u item) := if_pos (hhas u rfl)
      rw [upsert, hset, hrow]
      rfl
  rwa [hstore] at hleaves

theorem before_one (hm : mishapAt m 0 = none) : ∀ i < 1, mishapAt m i = none := by
  intro i hi
  rwa [Nat.lt_one_iff.mp hi]

theorem quiet_reload {res : Json} {what : String} {r : Request} (result : Json)
    (hr : ∀ S : Configuration A, (respond S r).2 = S) :
    Quiet A ((raiseOnFailed res what).bind fun _ => (post r).bind fun _ => .pure result) :=
  (quiet_of_silent (silent_raiseOnFailed _ _)).bind fun _ =>
    (quiet_post hr).bind fun _ => quiet_of_silent (silent_pure _)

end Leaving

/-! ### The four kinds -/

section Kinds

variable {m : Option Mishap} {S : Configuration A} {payload : Dict} {operation : String}

theorem deed_delete (k : StoredKind) (R : RowStore String String Fields) :
    k.deed A "delete" payload R = R.removal k.table (k.finds (k.record.identity payload)) := by
  rw [StoredKind.deed, if_pos rfl]

theorem deed_upsert {k : StoredKind} (hk : k ≠ .firewallAlias) (hop : operation ≠ "delete")
    (R : RowStore String String Fields) :
    k.deed A operation payload R =
      upserted A k (k.record.identity payload) (k.item A payload) R := by
  have hway : k.way operation = .upsert := if_neg hk
  simp only [StoredKind.deed, if_neg hop, hway, upserted]
  cases k.item A payload with
  | none => rfl
  | some item => exact if_neg nofun

theorem leaves_firewallRule (hread : ReadsFail m 0) :
    Leaves m (applyFirewallRule operation payload false) S 0
      (if landed m 1 then
        S.store.after A.uuids "rule" (StoredKind.firewallRule.deed A operation payload S.store)
      else S.store) := by
  have hs := search_rule (S := S) hread (recordDescription payload) (ruleInterface payload)
  unfold applyFirewallRule
  by_cases hop : operation = "delete"
  · rw [hop, if_pos rfl, deed_delete]
    refine leaves_removing hs (quiet_of_silent (silent_pure _)) (fun u => ⟨_, fun j => ?_, rfl⟩)
      fun u => rfl
    exact (quiet_post fun _ => rfl).bind fun _ => quiet_of_silent (silent_pure _)
  · rw [if_neg hop, deed_upsert (by decide) hop]
    refine leaves_upserting hs Nat.zero_lt_one fun hm uuid hhas => ?_
    exact leaves_upsert (fun j => quiet_reload _ fun _ => rfl) (before_one hm) rfl (fun u => rfl) hhas

theorem leaves_monitTest (hread : ReadsFail m 0) :
    Leaves m (applyMonitTest operation payload false) S 0
      (if landed m 1 then
        S.store.after A.uuids "test" (StoredKind.monitTest.deed A operation payload S.store)
      else S.store) := by
  have hs := search_test (S := S) hread (testName payload)
  unfold applyMonitTest
  by_cases hop : operation = "delete"
  · rw [hop, if_pos rfl, deed_delete]
    refine leaves_removing hs (quiet_of_silent (silent_pure _)) (fun u => ⟨_, fun j => ?_, rfl⟩)
      fun u => rfl
    exact (quiet_post fun _ => rfl).bind fun _ => quiet_of_silent (silent_pure _)
  · rw [if_neg hop, deed_upsert (by decide) hop]
    refine leaves_upserting hs Nat.zero_lt_one fun hm uuid hhas => ?_
    refine leaves_upsert (fun j => ?_) (before_one hm) rfl (fun u => rfl) hhas
    -- the test is attached to a service, which is no row of the table
    refine (quiet_of_silent (silent_builtin _)).bind fun testUuid => ?_
    refine (quiet_of_silent (silent_raiseOnFailed _ _)).bind fun _ => ?_
    refine Quiet.bind ?_ fun _ => (quiet_post fun _ => rfl).bind fun _ => quiet_of_silent (silent_pure _)
    split
    · exact quiet_attach testUuid
    · exact quiet_of_silent (silent_pure ())

theorem deed_aliasAdd (R : RowStore String String Fields) :
    StoredKind.firewallAlias.deed A "add" payload R =
      R.placing .insert "alias" (fun φ => φ.lookup "name" ==
        (A.fill (A.columns "alias") (normalizeAliasPayload payload)).lookup "name")
        (A.rewrite "alias" (normalizeAliasPayload payload)) := by
  rw [StoredKind.deed, if_neg (by decide)]
  exact if_pos rfl

theorem deed_aliasSet (R : RowStore String String Fields) :
    StoredKind.firewallAlias.deed A "set" payload R =
      if !(aliasName payload).truthy then .nothing
      else R.placing .update "alias" (StoredKind.firewallAlias.finds (aliasName payload, ""))
        (A.rewrite "alias" (normalizeAliasPayload payload)) := by
  rw [StoredKind.deed, if_neg (by decide)]
  exact if_neg (by decide)

theorem respond_aliasAdd (S : Configuration A) (item : Dict) :
    (respond S (.aliasAdd item)).2.store =
      S.store.after A.uuids "alias" (S.store.placing .insert "alias"
        (fun φ => φ.lookup "name" == (A.fill (A.columns "alias") item).lookup "name")
        (A.rewrite "alias" item)) := by
  have hany : nameTaken S item = !(S.store.matching "alias" fun φ => φ.lookup "name" ==
      (A.fill (A.columns "alias") item).lookup "name").isEmpty := by
    rw [Bool.eq_iff_iff, Bool.not_eq_true', List.isEmpty_eq_false_iff_exists_mem]
    simp [nameTaken, RowStore.mem_matching]
  have hrespond : respond S (.aliasAdd item) =
      if nameTaken S item then (.ok failed, S) else add S "alias" item := rfl
  rw [hrespond, hany]
  rcases RowStore.placing_cases S.store .insert "alias"
    (fun φ => φ.lookup "name" == (A.fill (A.columns "alias") item).lookup "name")
    (A.rewrite "alias" item) with ⟨hm, hw⟩ | ⟨r, hm, hw⟩ | ⟨hm, hw⟩
  · rw [hw, hm]
    rfl
  · rw [hw, hm]
    rfl
  · have hsome : (S.store.matching "alias" fun φ => φ.lookup "name" ==
        (A.fill (A.columns "alias") item).lookup "name").isEmpty = false := by
      rw [List.isEmpty_eq_false_iff_exists_mem]
      exact List.exists_mem_of_length_pos (Nat.lt_of_lt_of_le Nat.zero_lt_two hm)
    rw [hw, hsome]
    rfl

theorem deed_alias_nothing (hop : operation = "set" ∨ operation = "delete")
    {R : RowStore String String Fields}
    (hlen : (R.matching "alias" (StoredKind.firewallAlias.finds (aliasName payload, ""))).length ≠ 1) :
    StoredKind.firewallAlias.deed A operation payload R = .nothing := by
  rcases hop with rfl | rfl
  · rw [deed_aliasSet]
    split
    · rfl
    · rcases RowStore.placing_cases R .update "alias"
        (StoredKind.firewallAlias.finds (aliasName payload, ""))
        (A.rewrite "alias" (normalizeAliasPayload payload)) with ⟨-, hw⟩ | ⟨r, hone, -⟩ | ⟨-, hw⟩
      · exact hw
      · rw [hone] at hlen
        exact absurd rfl hlen
      · exact hw
  · rw [deed_delete]
    exact removal_of_length hlen

theorem deed_alias_found {R : RowStore String String Fields} {r : Row String String Fields}
    (hone : R.matching "alias" (StoredKind.firewallAlias.finds (aliasName payload, "")) = [r]) :
    StoredKind.firewallAlias.deed A "set" payload R =
        .wrote r (A.rewrite "alias" (normalizeAliasPayload payload)).onto ∧
      StoredKind.firewallAlias.deed A "delete" payload R = .removed r := by
  have hid : (aliasName payload).truthy = true := by
    by_contra hfalse
    have hfalsy : (aliasName payload, "").1.truthy = false := Bool.eq_false_of_not_eq_true hfalse
    have hnil : R.matching "alias" _ = [] := matching_of_falsy .firewallAlias hfalsy R
    rw [hnil] at hone
    cases hone
  constructor
  · rw [deed_aliasSet, hid]
    simp [RowStore.placing, hone]
  · have hone' : R.matching StoredKind.firewallAlias.table
        (StoredKind.firewallAlias.finds (RecordKind.firewallAlias.identity payload)) = [r] := hone
    rw [deed_delete]
    simp [RowStore.removal, StoredKind.record, hone']

theorem leaves_aliasFound (hop : operation = "set" ∨ operation = "delete")
    {r : Row String String Fields} (hm : mishapAt m 0 = none)
    (hone : S.store.matching "alias" (StoredKind.firewallAlias.finds (aliasName payload, "")) = [r])
    {f : Json → Client Json} (hf : ∀ j, Quiet A (f j)) :
    Leaves m ((if operation = "set" then post (.aliasSet r.uuid (normalizeAliasPayload payload))
        else post (.aliasDel r.uuid)).bind f) S 1
      (if landed m 1 then
        S.store.after A.uuids "alias" (StoredKind.firewallAlias.deed A operation payload S.store)
      else S.store) := by
  obtain ⟨hset, hdel⟩ := deed_alias_found (A := A) hone
  rcases hop with rfl | rfl
  · obtain ⟨hmem, ht, -⟩ := RowStore.mem_of_matching hone
    have hhas : S.store.has "alias" r.uuid = true :=
      List.any_eq_true.mpr ⟨r, hmem, RowStore.is_self ht⟩
    have hrow : respond S (.aliasSet r.uuid (normalizeAliasPayload payload)) =
        (.ok saved, S.setRow "alias" r.uuid (normalizeAliasPayload payload)) := if_pos hhas
    have hleaves := leaves_post (m := m) (S := S) (n := 1)
      (r := .aliasSet r.uuid (normalizeAliasPayload payload)) hf
    rw [exchange_store (before_one hm), hrow] at hleaves
    rw [hset]
    exact hleaves
  · have hleaves := leaves_post (m := m) (S := S) (n := 1) (r := .aliasDel r.uuid) hf
    rw [exchange_store (before_one hm)] at hleaves
    rw [hdel]
    exact hleaves

theorem leaves_alias (hop : ["add", "set", "delete"].contains operation = true)
    (hread : ∀ i < StoredKind.firewallAlias.reads operation payload, ReadsFail m i) :
    Leaves m (applyAlias operation payload false) S 0
      (if landed m (StoredKind.firewallAlias.reads operation payload) then
        S.store.after A.uuids "alias" (StoredKind.firewallAlias.deed A operation payload S.store)
      else S.store) := by
  have hlive : applyAlias operation payload false = (aliasMutation operation payload).bind fun res =>
      (raiseOnFailed res "firewall alias").bind fun _ => (post .aliasReconfigure).bind fun _ =>
        .pure (.obj [("dry_run", .bool false), ("result", res)]) := rfl
  have htail : ∀ res : Json, Quiet A ((raiseOnFailed res "firewall alias").bind fun _ =>
      (post .aliasReconfigure).bind fun _ =>
        .pure (Json.obj [("dry_run", .bool false), ("result", res)])) :=
    fun res => quiet_reload _ fun _ => rfl
  rw [hlive]
  simp only [List.contains_cons, List.contains_nil, Bool.or_false, Bool.or_eq_true, beq_iff_eq] at hop
  rcases hop with rfl | hop
  · -- an addition is sent at once
    have hleaves := leaves_post (m := m) (S := S) (n := 0)
      (r := .aliasAdd (normalizeAliasPayload payload)) htail
    rw [exchange_store fun i hi => absurd hi (Nat.not_lt_zero i), respond_aliasAdd] at hleaves
    rw [deed_aliasAdd]
    exact hleaves
  · have hreads : StoredKind.firewallAlias.reads operation payload = 1 := by
      rcases hop with rfl | rfl <;> rfl
    rw [hreads] at hread ⊢
    have hmutation : aliasMutation operation payload =
        (resolveAliasUuid (aliasName payload)).bind fun uuid =>
          if operation = "set" then post (.aliasSet uuid (normalizeAliasPayload payload))
          else post (.aliasDel uuid) := by
      rcases hop with rfl | rfl <;> rfl
    rw [hmutation, Dialogue.bind_assoc]
    rcases search_alias (S := S) (hread 0 Nat.zero_lt_one) (aliasName payload) with
      ⟨r, hm, hone, hplay⟩ | ⟨hwhy, x, n', hplay⟩
    · exact leaves_bind_ok hplay (leaves_aliasFound hop hm hone htail)
    · have hsame : (if landed m 1 then S.store.after A.uuids "alias"
          (StoredKind.firewallAlias.deed A operation payload S.store) else S.store) = S.store := by
        rcases hwhy with hm | hlen
        · rw [landed_of_failed Nat.zero_lt_one hm]
          rfl
        · rw [deed_alias_nothing hop hlen, RowStore.after_nothing, ite_self]
      rw [hsame]
      exact leaves_bind_error hplay

theorem play_serializePolicy {n : Nat}
    (hread : listsRulesets payload = true → ReadsFail m n) :
    (listsRulesets payload = true ∧ (mishapAt m n).isSome = true ∧
      ∃ x n', (serializePolicy payload).play (serve m) (S, n) = some (.error x, S, n')) ∨
    ((listsRulesets payload = true → mishapAt m n = none) ∧
      ∃ e, (serializePolicy payload).play (serve m) (S, n) =
          some (e, S, if listsRulesets payload then n + 1 else n) ∧
        A.serialized payload = e.toOption) := by
  rcases serializePolicy_cases payload with ⟨ht, e, he⟩ | ⟨ht, f, hf, heq⟩
  · rw [ht]
    refine .inr ⟨nofun, e, ?_, ?_⟩
    · rw [he, play_ofExcept]
      rfl
    · rw [Appliance.serialized, he, play_ofExcept]
      cases e <;> rfl
  · rw [ht]
    cases hm : mishapAt m n with
    | some h =>
      obtain ⟨x, hplay⟩ := play_read_error (S := S) (r := .policyGet) hm (hread ht h hm) rfl
      rw [heq]
      exact .inl ⟨rfl, rfl, x, _, play_bind_error hplay⟩
    | none =>
      obtain ⟨e, he⟩ := hf A.policyModel
      refine .inr ⟨fun _ => rfl, e, ?_, ?_⟩
      · rw [heq]
        refine (play_bind_ok (play_read_ok (S := S) (r := .policyGet) hm rfl)).trans ?_
        rw [he, play_ofExcept]
        rfl
      · have hbox : (serializePolicy payload).play (fun _ _ => some (.ok A.policyModel, ())) () =
            some (e, ()) := by
          rw [heq]
          show (f A.policyModel).play _ () = _
          rw [he, play_ofExcept]
        rw [Appliance.serialized, hbox]
        cases e <;> rfl

theorem leaves_policyWrite {uuid : Option String} {what : String} {result : Json → Json}
    (hm : mishapAt m 0 = none) (hread : listsRulesets payload = true → ReadsFail m 1)
    (hhas : ∀ u, uuid = some u → S.store.has "policy" u = true) :
    Leaves m ((serializePolicy payload).bind fun policy =>
        (post (upsert uuid (.policyAdd policy) fun u => .policySet u policy)).bind fun res =>
          (raiseOnFailed res what).bind fun _ => (post .idsReconfigure).bind fun _ =>
            .pure (result res)) S 1
      (if landed m (if listsRulesets payload then 2 else 1) then
        (A.serialized payload).elim S.store fun d =>
          S.store.edit A.uuids (placed A "policy" uuid d)
      else S.store) := by
  rcases play_serializePolicy (S := S) (n := 1) hread with
    ⟨ht, hfail, x, n', hplay⟩ | ⟨hserved, e, hplay, hitem⟩
  · rw [ht, if_pos rfl, landed_of_failed (by decide : 1 < 2) hfail]
    exact leaves_bind_error hplay
  · -- every read before the write was answered
    have hbefore : ∀ i < (if listsRulesets payload then 2 else 1), mishapAt m i = none := by
      intro i hi
      cases ht : listsRulesets payload with
      | false =>
        rw [ht] at hi
        exact before_one hm i hi
      | true =>
        rw [ht] at hi
        rcases Nat.lt_succ_iff_lt_or_eq.mp hi with hi | rfl
        · exact before_one hm i hi
        · exact hserved ht
    have hnumber : (if listsRulesets payload then 1 + 1 else 1) =
        if listsRulesets payload then 2 else 1 := rfl
    rw [hnumber] at hplay
    rw [hitem]
    cases e with
    | error x =>
      rw [show Except.toOption (.error x : Except Raised Dict) = none from rfl, Option.elim_none, ite_self]
      exact leaves_bind_error hplay
    | ok policy =>
      refine leaves_bind_ok hplay ?_
      exact leaves_upsert (fun j => quiet_reload _ fun _ => rfl) hbefore rfl (fun u => rfl) hhas

theorem leaves_idsPolicy (hop : ["add", "set", "delete"].contains operation = true)
    (hread : ∀ i < StoredKind.idsPolicy.reads operation payload, ReadsFail m i) :
    Leaves m (applyIdsPolicy operation payload false) S 0
      (if landed m (StoredKind.idsPolicy.reads operation payload) then
        S.store.after A.uuids "policy" (StoredKind.idsPolicy.deed A operation payload S.store)
      else S.store) := by
  have hknown : ¬(operation ≠ "set" ∧ operation ≠ "add" ∧ operation ≠ "delete") := by
    simp only [List.contains_cons, List.contains_nil, Bool.or_false, Bool.or_eq_true, beq_iff_eq] at hop
    rcases hop with h | h | h <;> simp [h]
  have hpos : 0 < StoredKind.idsPolicy.reads operation payload := by
    unfold StoredKind.reads
    dsimp only
    split <;> omega
  have hs := search_policy (S := S) (hread 0 hpos) (recordDescription payload)
  rw [applyIdsPolicy, if_neg hknown]
  by_cases hdel : operation = "delete"
  · rw [hdel, deed_delete]
    refine leaves_removing hs (quiet_of_silent (silent_pure _)) (fun u => ⟨_, fun j => ?_, rfl⟩)
      fun u => rfl
    exact (quiet_post fun _ => rfl).bind fun _ => quiet_of_silent (silent_pure _)
  · have hreads : StoredKind.idsPolicy.reads operation payload =
        if listsRulesets payload then 2 else 1 := by
      simp [StoredKind.reads, hdel]
    rw [deed_upsert (by decide) hdel]
    dsimp only
    rw [if_neg Bool.false_ne_true, if_neg hdel]
    refine leaves_upserting hs hpos fun hm uuid hhas => ?_
    rw [hreads] at hread ⊢
    exact leaves_policyWrite hm (fun ht => hread 1 (by simp [ht])) hhas

/-- **A run of the applier of a record kind**: its deed, if the request that
changes the table is carried out. -/
theorem leaves_record (k : StoredKind) (hop : ["add", "set", "delete"].contains operation = true)
    (hread : ∀ i < k.reads operation payload, ReadsFail m i) :
    Leaves m (applyForKind k.record.text operation payload false) S 0
      (if landed m (k.reads operation payload) then
        S.store.after A.uuids k.table (k.deed A operation payload S.store) else S.store) := by
  cases k with
  | firewallAlias => exact leaves_alias hop hread
  | firewallRule => exact leaves_firewallRule (hread 0 Nat.zero_lt_one)
  | monitTest => exact leaves_monitTest (hread 0 Nat.zero_lt_one)
  | idsPolicy => exact leaves_idsPolicy hop hread

end Kinds

end Opngms
