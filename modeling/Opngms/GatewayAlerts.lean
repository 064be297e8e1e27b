/-
Opngms/GatewayAlerts.lean

The alerts that a poll opens and resolves (`evaluate_alerts` of
`app/services/alerting.py`), over the polls of a device.

An evaluation compares the state of the device with the open alerts.  What it
does is said by the keys of the open alerts afterwards (`evaluateAlerts_spec`):
an open `device.down` without a label after an unreachable poll, an open
`gateway.down` for each name with an entry that is down after a reachable one.
It leaves every other row as it is.  From that follows what is open after any
sequence of polls, whatever else is done to the alerts of other types in between.

Main result: **`alerts_reconciled`**.
-/
import Mathlib.Data.List.Dedup
import Mathlib.Data.List.Nodup
import Opngms.World

namespace Opngms

namespace Alerting

/-! ### The table -/

/-- A row of `alerts`. -/
structure Row where
  alert : Alert
  resolvedAt : Option Time

/-- The columns of `uq_alerts_active`. -/
abbrev Key := DeviceId × String × String

def Row.key (r : Row) : Key := (r.alert.deviceId, r.alert.type, r.alert.label)

/-- `resolved_at IS NULL`. -/
def Row.active (r : Row) : Bool := r.resolvedAt.isNone

/-- The table: of the open alerts, each has its own key. -/
@[ext] structure Table where
  rows : List Row
  active_nodup : ((rows.filter Row.active).map Row.key).Nodup

namespace Table

def activeKeys (t : Table) : List Key := (t.rows.filter Row.active).map Row.key

/-- `INSERT`; it fails if there is an open alert with the key. -/
def add (t : Table) (a : Alert) : Option Table :=
  if h : (⟨a, none⟩ : Row).key ∈ t.activeKeys then none
  else some {
    rows := t.rows ++ [⟨a, none⟩]
    active_nodup := by
      rw [List.filter_append, List.map_append]
      refine List.nodup_append.mpr ⟨t.active_nodup, List.nodup_singleton _, ?_⟩
      rintro k hk k' hk' rfl
      obtain rfl := List.mem_singleton.mp hk'
      exact h hk }

/-- `resolved_at = now`, for the open alerts whose key is chosen. -/
def resolveRow (chosen : Key → Bool) (now : Time) (r : Row) : Row :=
  if r.active && chosen r.key then { r with resolvedAt := some now } else r

theorem filter_resolveRow (rows : List Row) (chosen : Key → Bool) (now : Time) :
    (rows.map (resolveRow chosen now)).filter Row.active =
      (rows.filter Row.active).filter fun r => !chosen r.key := by
  induction rows with
  | nil => rfl
  | cons r rows ih =>
    rw [List.map_cons]
    cases hr : r.active with
    | false =>
      have hsame : resolveRow chosen now r = r := by simp [resolveRow, hr]
      rw [hsame, List.filter_cons_of_neg (by simp [hr]), List.filter_cons_of_neg (by simp [hr]), ih]
    | true =>
      rw [List.filter_cons_of_pos hr]
      cases hc : chosen r.key with
      | false =>
        have hsame : resolveRow chosen now r = r := by simp [resolveRow, hc]
        rw [hsame, List.filter_cons_of_pos hr, List.filter_cons_of_pos (by simp [hc]), ih]
      | true =>
        have hresolved : resolveRow chosen now r = { r with resolvedAt := some now } :=
          if_pos (by simp [hr, hc])
        rw [hresolved, List.filter_cons_of_neg (by simp [Row.active]),
          List.filter_cons_of_neg (by simp [hc]), ih]

def resolve (t : Table) (chosen : Key → Bool) (now : Time) : Table where
  rows := t.rows.map (resolveRow chosen now)
  active_nodup := by
    rw [filter_resolveRow]
    exact t.active_nodup.sublist (List.filter_sublist.map _)

theorem add_eq {t : Table} {a : Alert} (h : (⟨a, none⟩ : Row).key ∉ t.activeKeys) :
    ∃ t', t.add a = some t' ∧ t'.rows = t.rows ++ [⟨a, none⟩] ∧
      ∀ k, k ∈ t'.activeKeys ↔ k ∈ t.activeKeys ∨ k = (⟨a, none⟩ : Row).key := by
  refine ⟨_, dif_neg h, rfl, fun k => ?_⟩
  show k ∈ ((t.rows ++ [(⟨a, none⟩ : Row)]).filter Row.active).map Row.key ↔ _
  rw [List.filter_append, List.map_append, List.mem_append]
  exact or_congr_right List.mem_singleton

theorem mem_resolve {t : Table} {chosen : Key → Bool} {now : Time} {k : Key} :
    k ∈ (t.resolve chosen now).activeKeys ↔ k ∈ t.activeKeys ∧ chosen k = false := by
  show k ∈ ((t.rows.map (resolveRow chosen now)).filter Row.active).map Row.key ↔ _
  rw [filter_resolveRow, activeKeys, List.mem_map, List.mem_map]
  constructor
  · rintro ⟨r, hr, rfl⟩
    obtain ⟨hr, hc⟩ := List.mem_filter.mp hr
    exact ⟨⟨r, hr, rfl⟩, by simpa using hc⟩
  · rintro ⟨⟨r, hr, rfl⟩, hc⟩
    exact ⟨r, List.mem_filter.mpr ⟨hr, by simpa using hc⟩, rfl⟩

theorem resolve_self {t : Table} {chosen : Key → Bool} (now : Time)
    (h : ∀ k ∈ t.activeKeys, chosen k = false) : t.resolve chosen now = t := by
  apply Table.ext
  show t.rows.map (resolveRow chosen now) = t.rows
  refine (List.map_congr_left fun r hr => ?_).trans (List.map_id _)
  cases hactive : r.active with
  | false => simp [resolveRow, hactive]
  | true =>
    have hc := h r.key (List.mem_map_of_mem (List.mem_filter.mpr ⟨hr, hactive⟩))
    simp [resolveRow, hc]

end Table

/-! ### The evaluation -/

/-- An entry of `PollState.gateways`. -/
structure Gateway where
  name : String
  up : Bool

/-- `PollState`. -/
structure PollState where
  reachable : Bool
  gateways : List Gateway

/-- `down_now`. -/
def PollState.downNow (state : PollState) : List String :=
  ((state.gateways.filter fun g => !g.up).map Gateway.name).dedup

section Evaluate

variable (deviceId : DeviceId) (device : Device)

/-- `_open`. -/
def openAlert (type label : String) : Alert := ⟨device.tenantId, deviceId, type, label⟩

/-- The first part of `evaluate_alerts`; `alerts` is the table as it was read. -/
def evaluateDevice (reachable : Bool) (now : Time) (alerts : Table) : Option Table :=
  let key : Key := (deviceId, "device.down", "")
  if reachable = false ∧ key ∉ alerts.activeKeys then
    alerts.add (openAlert deviceId device "device.down" "")
  else if reachable = true ∧ key ∈ alerts.activeKeys then
    some (alerts.resolve (fun k => decide (k = key)) now)
  else some alerts

/-- The alerts opened for the gateways that are down. -/
def openGateways (alerts : Table) (names : List String) (t : Table) : Option Table :=
  names.foldlM (fun t name =>
    if (deviceId, "gateway.down", name) ∈ alerts.activeKeys then some t
    else t.add (openAlert deviceId device "gateway.down" name)) t

/-- `evaluate_alerts`. -/
def evaluateAlerts (state : PollState) (now : Time) (alerts : Table) : Option Table := do
  let t ← evaluateDevice deviceId device state.reachable now alerts
  if state.reachable then
    let t ← openGateways deviceId device alerts state.downNow t
    return t.resolve (fun k =>
      decide (k.1 = deviceId ∧ k.2.1 = "gateway.down" ∧ k.2.2 ∉ state.downNow)) now
  else return t

/-! ### What it does -/

/-- The alert is no business of an evaluation. -/
def foreign (r : Row) : Bool :=
  decide (r.alert.deviceId ≠ deviceId ∨ r.alert.type ∉ ["device.down", "gateway.down"])

def Table.others (t : Table) : List Row := t.rows.filter (foreign deviceId)

variable {deviceId device}

theorem others_add {t t' : Table} {type label : String} (ht : type ∈ ["device.down", "gateway.down"])
    (h : t'.rows = t.rows ++ [⟨openAlert deviceId device type label, none⟩]) :
    t'.others deviceId = t.others deviceId := by
  have hown : foreign deviceId ⟨openAlert deviceId device type label, none⟩ = false :=
    decide_eq_false fun hor => hor.elim (fun hne => hne rfl) fun hnot => hnot ht
  rw [Table.others, Table.others, h, List.filter_append, List.filter_cons_of_neg (by simp [hown]),
    List.filter_nil, List.append_nil]

theorem others_resolve {t : Table} {chosen : Key → Bool} {now : Time}
    (h : ∀ k, chosen k = true → k.1 = deviceId ∧ k.2.1 ∈ ["device.down", "gateway.down"]) :
    (t.resolve chosen now).others deviceId = t.others deviceId := by
  show (t.rows.map (Table.resolveRow chosen now)).filter (foreign deviceId) = _
  rw [Table.others]
  induction t.rows with
  | nil => rfl
  | cons r rows ih =>
    have hforeign : foreign deviceId (Table.resolveRow chosen now r) = foreign deviceId r := by
      unfold Table.resolveRow
      split_ifs <;> rfl
    have hsame : foreign deviceId r = true → Table.resolveRow chosen now r = r := by
      intro hr
      have hc : chosen r.key = false := by
        by_contra hc
        obtain ⟨hd, ht⟩ := h _ (Bool.eq_true_of_not_eq_false hc)
        exact (of_decide_eq_true hr).elim (fun hne => hne hd) fun hnot => hnot ht
      simp [Table.resolveRow, hc]
    rw [List.map_cons, List.filter_cons, List.filter_cons, hforeign, ih]
    split_ifs with hr
    · rw [hsame hr]
    · rfl

theorem ne_of_gateway {k : Key} (h : k.2.1 = "gateway.down") :
    k ≠ (deviceId, "device.down", "") := by
  rintro rfl
  have htypes : "device.down" = "gateway.down" := h
  revert htypes
  decide

theorem evaluateDevice_spec (reachable : Bool) (now : Time) (alerts : Table) :
    ∃ t, evaluateDevice deviceId device reachable now alerts = some t ∧
      t.others deviceId = alerts.others deviceId ∧
      ∀ k, k ∈ t.activeKeys ↔
        if k = (deviceId, "device.down", "") then reachable = false else k ∈ alerts.activeKeys := by
  unfold evaluateDevice
  dsimp only
  cases reachable with
  | false =>
    by_cases hkey : (deviceId, "device.down", "") ∈ alerts.activeKeys
    · rw [if_neg fun h => h.2 hkey, if_neg fun h => Bool.false_ne_true h.1]
      refine ⟨alerts, rfl, rfl, fun k => ?_⟩
      split_ifs with hk
      · rw [hk]
        exact iff_of_true hkey rfl
      · rfl
    · rw [if_pos ⟨rfl, hkey⟩]
      obtain ⟨t, hadd, hrows, hkeys⟩ :=
        @Table.add_eq alerts (openAlert deviceId device "device.down" "") hkey
      refine ⟨t, hadd, others_add (by decide) hrows, fun k => (hkeys k).trans ?_⟩
      split_ifs with hk
      · exact iff_of_true (.inr hk) rfl
      · exact or_iff_left hk
  | true =>
    rw [if_neg fun h => Bool.true_eq_false.mp h.1 |>.elim]
    by_cases hkey : (deviceId, "device.down", "") ∈ alerts.activeKeys
    · rw [if_pos ⟨rfl, hkey⟩]
      refine ⟨_, rfl, others_resolve fun k hk => ?_, fun k => Table.mem_resolve.trans ?_⟩
      · rw [of_decide_eq_true hk]
        exact ⟨rfl, List.mem_cons_self⟩
      · split_ifs with hk <;> simp [hk]
    · rw [if_neg fun h => hkey h.2]
      refine ⟨alerts, rfl, rfl, fun k => ?_⟩
      split_ifs with hk
      · rw [hk]
        exact iff_of_false hkey nofun
      · rfl

theorem openGateways_spec {alerts : Table} {names : List String} (hnames : names.Nodup) {t : Table}
    (ht : ∀ name ∈ names, (deviceId, "gateway.down", name) ∈ t.activeKeys →
      (deviceId, "gateway.down", name) ∈ alerts.activeKeys) :
    ∃ t', openGateways deviceId device alerts names t = some t' ∧
      t'.others deviceId = t.others deviceId ∧
      ∀ k, k ∈ t'.activeKeys ↔ k ∈ t.activeKeys ∨
        k ∉ alerts.activeKeys ∧ ∃ name ∈ names, k = (deviceId, "gateway.down", name) := by
  induction names generalizing t with
  | nil => exact ⟨t, rfl, rfl, fun k => by simp⟩
  | cons name names ih =>
    obtain ⟨hnot, hrest⟩ := List.nodup_cons.mp hnames
    unfold openGateways
    rw [List.foldlM_cons]
    by_cases hkey : (deviceId, "gateway.down", name) ∈ alerts.activeKeys
    · rw [if_pos hkey]
      obtain ⟨t', hopen, hothers, hkeys⟩ := ih hrest fun n hn => ht n (List.mem_cons_of_mem _ hn)
      refine ⟨t', hopen, hothers, fun k => (hkeys k).trans (or_congr_right ?_)⟩
      refine and_congr_right fun hk => ?_
      constructor
      · rintro ⟨n, hn, rfl⟩
        exact ⟨n, List.mem_cons_of_mem _ hn, rfl⟩
      · rintro ⟨n, hn, rfl⟩
        rcases List.mem_cons.mp hn with rfl | hn
        · exact absurd hkey hk
        · exact ⟨n, hn, rfl⟩
    · rw [if_neg hkey]
      obtain ⟨u, hadd, hrows, hukeys⟩ :=
        @Table.add_eq t (openAlert deviceId device "gateway.down" name)
          fun hmem => hkey (ht name List.mem_cons_self hmem)
      obtain ⟨t', hopen, hothers, hkeys⟩ := @ih hrest u fun n hn hmem => by
        rcases (hukeys _).mp hmem with hmem | heq
        · exact ht n (List.mem_cons_of_mem _ hn) hmem
        · obtain rfl : n = name := (Prod.mk.inj (Prod.mk.inj heq).2).2
          exact absurd hn hnot
      rw [hadd]
      refine ⟨t', hopen, hothers.trans (others_add (by decide) hrows), fun k => (hkeys k).trans ?_⟩
      rw [hukeys, or_assoc]
      refine or_congr_right ?_
      constructor
      · rintro (rfl | ⟨hk, n, hn, rfl⟩)
        · exact ⟨hkey, name, List.mem_cons_self, rfl⟩
        · exact ⟨hk, n, List.mem_cons_of_mem _ hn, rfl⟩
      · rintro ⟨hk, n, hn, rfl⟩
        rcases List.mem_cons.mp hn with rfl | hn
        · exact .inl rfl
        · exact .inr ⟨hk, n, hn, rfl⟩

/-- **What an evaluation does**: it raises no error, leaves the rows of others as
they are, and the open alerts of its own are those of the state. -/
theorem evaluateAlerts_spec (state : PollState) (now : Time) (alerts : Table) :
    ∃ t, evaluateAlerts deviceId device state now alerts = some t ∧
      t.others deviceId = alerts.others deviceId ∧
      ∀ k, k ∈ t.activeKeys ↔
        if k = (deviceId, "device.down", "") then state.reachable = false
        else if k.1 = deviceId ∧ k.2.1 = "gateway.down" ∧ state.reachable = true then
          k.2.2 ∈ state.downNow
        else k ∈ alerts.activeKeys := by
  obtain ⟨t, hdevice, hothers, hkeys⟩ :=
    @evaluateDevice_spec deviceId device state.reachable now alerts
  unfold evaluateAlerts
  rw [hdevice]
  cases hreach : state.reachable with
  | false =>
    -- unreachable: the alerts of gateways stay as they are
    refine ⟨t, rfl, hothers, fun k => (hkeys k).trans ?_⟩
    rw [hreach, if_neg (c := k.1 = deviceId ∧ _) fun h => Bool.false_ne_true h.2.2]
  | true =>
    obtain ⟨t', hopen, hothers', hkeys'⟩ :=
      @openGateways_spec deviceId device alerts state.downNow (List.nodup_dedup _) t
        fun name _ hmem => by rwa [hkeys, if_neg (ne_of_gateway rfl)] at hmem
    show ∃ u, (openGateways deviceId device alerts state.downNow t).bind _ = some u ∧ _
    rw [hopen]
    refine ⟨_, rfl, ?_, fun k => Table.mem_resolve.trans ?_⟩
    · refine (others_resolve fun k hk => ?_).trans (hothers'.trans hothers)
      obtain ⟨hd, htype, -⟩ := of_decide_eq_true hk
      exact ⟨hd, by rw [htype]; decide⟩
    · rw [hkeys', hkeys, hreach, decide_eq_false_iff_not]
      by_cases hdown : k = (deviceId, "device.down", "")
      · rw [if_pos hdown, if_pos hdown]
        refine iff_of_false ?_ (Bool.true_eq_false.mp ·)
        rintro ⟨htrue | ⟨-, name, -, heq⟩, -⟩
        · exact Bool.true_eq_false.mp htrue
        · exact ne_of_gateway (show (deviceId, "gateway.down", name).2.1 = _ from rfl)
            (heq.symm.trans hdown)
      · rw [if_neg hdown, if_neg hdown]
        split_ifs with hgw
        · -- open exactly if the gateway is in the list of this poll
          obtain ⟨rfl, htype, -⟩ := hgw
          have hkey : k = (k.1, "gateway.down", k.2.2) := by rw [← htype]
          constructor
          · rintro ⟨-, hlisted⟩
            by_contra hup
            exact hlisted ⟨rfl, htype, hup⟩
          · intro hlisted
            refine ⟨?_, fun h => h.2.2 hlisted⟩
            by_cases hmem : k ∈ alerts.activeKeys
            · exact .inl hmem
            · exact .inr ⟨hmem, k.2.2, hlisted, hkey⟩
        · constructor
          · rintro ⟨hmem | ⟨-, name, -, rfl⟩, -⟩
            · exact hmem
            · exact absurd ⟨rfl, rfl, rfl⟩ hgw
          · exact fun hmem => ⟨.inl hmem, fun h => hgw ⟨h.1, h.2.1, rfl⟩⟩

/-- **A second evaluation of the state changes nothing.** -/
theorem evaluateAlerts_again {state : PollState} {now : Time} {alerts t : Table}
    (h : evaluateAlerts deviceId device state now alerts = some t) (now' : Time) :
    evaluateAlerts deviceId device state now' t = some t := by
  obtain ⟨t', ht', -, hkeys⟩ := @evaluateAlerts_spec deviceId device state now alerts
  obtain rfl := Option.some.inj (h.symm.trans ht')
  have hdown : (deviceId, "device.down", "") ∈ t.activeKeys ↔ state.reachable = false := by
    rw [hkeys, if_pos rfl]
  have hdevice : evaluateDevice deviceId device state.reachable now' t = some t := by
    unfold evaluateDevice
    dsimp only
    rw [if_neg fun hopen => hopen.2 (hdown.mpr hopen.1), if_neg fun hresolve => ?_]
    exact Bool.false_ne_true ((hdown.mp hresolve.2).symm.trans hresolve.1)
  unfold evaluateAlerts
  rw [hdevice]
  cases hreach : state.reachable with
  | false => rfl
  | true =>
    have hgateway : ∀ k ∈ t.activeKeys, k.1 = deviceId → k.2.1 = "gateway.down" →
        k.2.2 ∈ state.downNow := by
      intro k hk hd htype
      rw [hkeys, if_neg (ne_of_gateway htype), if_pos ⟨hd, htype, hreach⟩] at hk
      exact hk
    have hopen : ∀ names : List String, (∀ name ∈ names, name ∈ state.downNow) →
        openGateways deviceId device t names t = some t := by
      intro names
      induction names with
      | nil => exact fun _ => rfl
      | cons name names ih =>
        intro hall
        have hkey : (deviceId, "gateway.down", name) ∈ t.activeKeys := by
          rw [hkeys, if_neg (ne_of_gateway rfl), if_pos ⟨rfl, rfl, hreach⟩]
          exact hall name List.mem_cons_self
        unfold openGateways
        rw [List.foldlM_cons, if_pos hkey]
        exact ih fun n hn => hall n (List.mem_cons_of_mem _ hn)
    show (openGateways deviceId device t state.downNow t).bind _ = some t
    rw [hopen _ fun _ hn => hn]
    refine congrArg some (Table.resolve_self now' fun k hk => ?_)
    refine decide_eq_false fun hc => ?_
    exact hc.2.2 (hgateway k hk hc.1 hc.2.1)

end Evaluate

/-! ### The polls of a device -/

theorem mem_downNow {state : PollState} {name : String} :
    name ∈ state.downNow ↔ ∃ g ∈ state.gateways, g.name = name ∧ g.up = false := by
  rw [PollState.downNow, List.mem_dedup, List.mem_map]
  simp only [List.mem_filter, Bool.not_eq_true', and_assoc]
  exact exists_congr fun g => and_congr_right fun _ => and_comm

section Polls

variable (deviceId : DeviceId) (device : Device)

/-- The alerts that evaluations open and resolve are the same in both tables. -/
def SameOwn (t t' : Table) : Prop :=
  t.rows.filter (fun r => !foreign deviceId r) = t'.rows.filter fun r => !foreign deviceId r

/-- The table after polls of the device, with what was done to other alerts in
between. -/
inductive Polled (initial : Table) : List PollState → Table → Prop
  | start : Polled initial [] initial
  | poll {polls : List PollState} {t t' : Table} (state : PollState) (now : Time) :
      Polled initial polls t → evaluateAlerts deviceId device state now t = some t' →
      Polled initial (polls ++ [state]) t'
  | others {polls : List PollState} {t t' : Table} :
      Polled initial polls t → SameOwn deviceId t t' → Polled initial polls t'

variable {deviceId device}

theorem SameOwn.mem_iff {t t' : Table} (h : SameOwn deviceId t t') {k : Key} (hd : k.1 = deviceId)
    (htype : k.2.1 ∈ ["device.down", "gateway.down"]) : k ∈ t.activeKeys ↔ k ∈ t'.activeKeys := by
  have hown : ∀ u : Table, k ∈ u.activeKeys ↔
      ∃ r ∈ u.rows.filter fun r => !foreign deviceId r, r.active = true ∧ r.key = k := by
    intro u
    rw [Table.activeKeys, List.mem_map]
    constructor
    · rintro ⟨r, hr, rfl⟩
      obtain ⟨hr, hactive⟩ := List.mem_filter.mp hr
      have hforeign : foreign deviceId r = false :=
        decide_eq_false fun hor => hor.elim (fun hne => hne hd) fun hnot => hnot htype
      exact ⟨r, List.mem_filter.mpr ⟨hr, by rw [hforeign]; rfl⟩, hactive, rfl⟩
    · rintro ⟨r, hr, hactive, rfl⟩
      exact ⟨r, List.mem_filter.mpr ⟨List.mem_of_mem_filter hr, hactive⟩, rfl⟩
  rw [hown, hown, h]

/-- What is said of the gateways by the latest reachable poll, or by the table
before it. -/
def GatewayDown (deviceId : DeviceId) (initial : Table) (polls : List PollState) (name : String) :
    Prop :=
  match (polls.filter PollState.reachable).getLast? with
  | some state => ∃ g ∈ state.gateways, g.name = name ∧ g.up = false
  | none => (deviceId, "gateway.down", name) ∈ initial.activeKeys

theorem gatewayDown_reachable {initial : Table} {polls : List PollState} {state : PollState}
    (h : state.reachable = true) {name : String} :
    GatewayDown deviceId initial (polls ++ [state]) name ↔ name ∈ state.downNow := by
  unfold GatewayDown
  rw [List.filter_append, List.filter_cons_of_pos h, List.filter_nil,
    List.getLast?_append_of_ne_nil _ (by simp), mem_downNow]
  rfl

theorem gatewayDown_unreachable {initial : Table} {polls : List PollState} {state : PollState}
    (h : state.reachable = false) {name : String} :
    GatewayDown deviceId initial (polls ++ [state]) name ↔
      GatewayDown deviceId initial polls name := by
  unfold GatewayDown
  rw [List.filter_append, List.filter_cons_of_neg (by simp [h]), List.filter_nil, List.append_nil]

theorem Polled.keys {initial : Table} {polls : List PollState} {t : Table}
    (h : Polled deviceId device initial polls t) :
    (∀ state, polls.getLast? = some state →
      ((deviceId, "device.down", "") ∈ t.activeKeys ↔ state.reachable = false)) ∧
    ∀ name, (deviceId, "gateway.down", name) ∈ t.activeKeys ↔
      GatewayDown deviceId initial polls name := by
  induction h with
  | start => exact ⟨fun _ h => (nomatch h), fun _ => Iff.rfl⟩
  | @poll polls t t' state now _ hevaluate ih =>
    obtain ⟨u, hu, -, hkeys⟩ := @evaluateAlerts_spec deviceId device state now t
    obtain rfl := Option.some.inj (hevaluate.symm.trans hu)
    constructor
    · intro state' hlast
      obtain rfl : state = state' := by simpa using hlast
      rw [hkeys, if_pos rfl]
    · intro name
      rw [hkeys, if_neg (ne_of_gateway rfl)]
      cases hreach : state.reachable with
      | true =>
        rw [if_pos ⟨rfl, rfl, rfl⟩, gatewayDown_reachable hreach]
      | false =>
        rw [if_neg fun hc => Bool.false_ne_true hc.2.2, gatewayDown_unreachable hreach]
        exact ih.2 name
  | others _ hsame ih =>
    refine ⟨fun state hlast => ?_, fun name => ?_⟩
    · rw [← hsame.mem_iff rfl List.mem_cons_self]
      exact ih.1 state hlast
    · rw [← hsame.mem_iff rfl (List.mem_cons_of_mem _ List.mem_cons_self)]
      exact ih.2 name

/-- **After any polls, the open alerts are those of the latest ones**: an open
`device.down` exactly if the latest was unreachable, an open `gateway.down` for
each name that was down in the latest reachable one; and a further evaluation
raises no error, leaves the rows of others as they are, and has nothing left to
do when it is repeated. -/
theorem alerts_reconciled {initial : Table} {polls : List PollState} {t : Table}
    (h : Polled deviceId device initial polls t) :
    (∀ state, polls.getLast? = some state →
      ((deviceId, "device.down", "") ∈ t.activeKeys ↔ state.reachable = false)) ∧
    (∀ name, (deviceId, "gateway.down", name) ∈ t.activeKeys ↔
      GatewayDown deviceId initial polls name) ∧
    t.activeKeys.Nodup ∧
    ∀ state now, ∃ t', evaluateAlerts deviceId device state now t = some t' ∧
      t'.others deviceId = t.others deviceId ∧
      ∀ now', evaluateAlerts deviceId device state now' t' = some t' := by
  refine ⟨h.keys.1, h.keys.2, t.active_nodup, fun state now => ?_⟩
  obtain ⟨t', ht', hothers, -⟩ := @evaluateAlerts_spec deviceId device state now t
  exact ⟨t', ht', hothers, evaluateAlerts_again ht'⟩

end Polls

def firewall : Device := ⟨0, none, true⟩

def gatewayLost : PollState := ⟨true, [⟨"WAN_GW", true⟩, ⟨"WAN_GW", false⟩]⟩

/-- The firewall cannot be reached, and then its gateway is down. -/
theorem gatewayLost_opens :
    ∃ t, Polled 1 firewall ⟨[], List.nodup_nil⟩ [⟨false, []⟩, gatewayLost] t ∧
      (1, "device.down", "") ∉ t.activeKeys ∧ (1, "gateway.down", "WAN_GW") ∈ t.activeKeys := by
  obtain ⟨t, ht, -⟩ := @evaluateAlerts_spec 1 firewall ⟨false, []⟩ 0 ⟨[], List.nodup_nil⟩
  obtain ⟨t', ht', -⟩ := @evaluateAlerts_spec 1 firewall gatewayLost 1 t
  have hpolled : Polled 1 firewall ⟨[], List.nodup_nil⟩ [⟨false, []⟩, gatewayLost] t' :=
    .poll gatewayLost 1 (.poll ⟨false, []⟩ 0 .start ht) ht'
  obtain ⟨hdown, hgateways, -⟩ := alerts_reconciled hpolled
  refine ⟨t', hpolled, ?_, (hgateways "WAN_GW").mpr ?_⟩
  · rw [hdown gatewayLost rfl]
    exact Bool.true_eq_false.mp
  · exact ⟨⟨"WAN_GW", false⟩, List.mem_cons_of_mem _ List.mem_cons_self, rfl, rfl⟩

/-- An open `device.down` with a label. -/
def labelled : Table := ⟨[⟨⟨0, 1, "device.down", "wan"⟩, none⟩], List.nodup_singleton _⟩

/-- **An open `device.down` with a label is never resolved.** -/
theorem labelled_stays :
    ¬ ∀ (initial : Table) (polls : List PollState) (t : Table),
      Polled 1 firewall initial polls t → ∀ state, polls.getLast? = some state →
        ((∃ label, (1, "device.down", label) ∈ t.activeKeys) ↔ state.reachable = false) := by
  intro hall
  obtain ⟨t, ht, -, hkeys⟩ := @evaluateAlerts_spec 1 firewall ⟨true, []⟩ 0 labelled
  have hopen : (1, "device.down", "wan") ∈ t.activeKeys := by
    rw [hkeys, if_neg (by decide), if_neg (by decide)]
    exact List.mem_cons_self
  have hreach := (hall labelled _ t (.poll ⟨true, []⟩ 0 .start ht) ⟨true, []⟩ rfl).mp ⟨_, hopen⟩
  exact Bool.true_eq_false.mp hreach

end Alerting

end Opngms
