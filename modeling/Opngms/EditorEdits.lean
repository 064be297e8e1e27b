/-
Opngms/EditorEdits.lean

What the editor proposes against what the operator entered.

The ledger keeps, beside the tab, what the operator did: the values entered
since the form was opened or its last proposal was accepted, those entered
before, and the values the form was opened with.  The working copy is always
made of these three (`Kept`).  It is compared with the live values of the
moment, and nothing is taken out of it after a proposal; so a proposal holds
more than was entered as soon as the live value of another field has changed,
or a value proposed before is not live yet.  Over runs without such clicks, and
without a form handed to another model, every proposal holds exactly what was
entered and each grid operation goes out once (**`proposals_exact`**).
-/
import Mathlib.Data.List.Induction
import Opngms.Editor
import Opngms.Pool

namespace Opngms

namespace Editor

/-! ### The ledger -/

/-- What the operator did in the form that is mounted. -/
structure Ledger where
  /-- The live values with which the form was opened. -/
  opened : List (String × String)
  /-- What was entered before the last accepted proposal, newest first. -/
  earlier : List (String × String)
  /-- What was entered since, newest first. -/
  entered : List (String × String)
  /-- An accepted proposal of this form held grid operations. -/
  sentOps : Bool

def Ledger.mount (live : CatalogModelLive) : Ledger := ⟨live.seeded, [], [], false⟩

/-- The ledger begins anew with a form that is mounted. -/
def Ledger.render (tab : Tab) (ledger : Ledger) : Ledger :=
  match tab.live with
  | none => ledger
  | some live =>
    match tab.form with
    | some f => if f.key = live.model.id then ledger else .mount live
    | none => .mount live

/-- A body that was sent, with what was on display and what had been entered. -/
structure Proposal where
  live : CatalogModelLive
  entered : List (String × String)
  body : CatalogChangeIn
  serials : List Nat
  accepted : Bool

/-- The scalars are the fields of the displayed model that were entered and
whose entered value differs from the live one. -/
def Proposal.Exact (p : Proposal) : Prop :=
  ∀ path v, (path, v) ∈ p.body.scalars ↔
    path ∈ p.live.model.fields.map Field.path ∧ p.entered.lookup path = some v ∧
      p.live.seeded.lookup path ≠ some v

/-- The tab, with the ledger of its form and the bodies sent so far. -/
structure Watch where
  tab : Tab
  ledger : Ledger
  log : List Proposal

def Watch.init : Watch := ⟨.init, ⟨[], [], [], false⟩, []⟩

/-- An event, in the tab and in the ledger. -/
def Watch.step (w : Watch) : Event → Watch
  | .select key =>
    { w with
      tab := w.tab.step (.select key)
      ledger := w.ledger.render { w.tab with selected := some key } }
  | .deliver key live =>
    { w with
      tab := w.tab.step (.deliver key live)
      ledger := w.ledger.render { w.tab with data := putEntry w.tab.data key live } }
  | .edit path value =>
    { w with
      tab := w.tab.step (.edit path value)
      ledger := if w.tab.takes path then
          { w.ledger with entered := (path, value) :: w.ledger.entered }
        else w.ledger }
  | .propose accepted =>
    match w.tab.proposal with
    | none => w
    | some (live, f) =>
      { w with
        ledger := if accepted then
            { w.ledger with
              earlier := w.ledger.entered ++ w.ledger.earlier
              entered := []
              sentOps := w.ledger.sentOps || !f.entries.isEmpty }
          else w.ledger
        log := w.log ++ [⟨live, w.ledger.entered, f.build live, f.entries.map (·.serial), accepted⟩] }
  | e => { w with tab := w.tab.step e }

/-- The clicks and deliveries that do not reach the stale state: the form is
not handed to another model; when Propose is clicked, none of its grid
operations has gone out in an accepted proposal, and each field that was not
edited since the last one has the live value that was last entered or, if none
was, the one with which the form was opened. -/
def Watch.Fresh (w : Watch) : Event → Prop
  | .select key => ∀ f live, w.tab.form = some f → w.tab.data.lookup key = some live →
      f.key = live.model.id → w.tab.selected = some key
  | .deliver key live' => ∀ f live, w.tab.form = some f → w.tab.selected = some key →
      w.tab.live = some live → f.key = live'.model.id → live'.model.fields = live.model.fields
  | .propose _ => ∀ live, w.tab.live = some live → w.ledger.sentOps = false ∧
      ∀ path ∈ live.model.fields.map Field.path, w.ledger.entered.lookup path = none →
        live.seeded.lookup path = (w.ledger.earlier.lookup path).or (w.ledger.opened.lookup path)
  | _ => True

/-! ### The invariant -/

/-- The working copy of a form is made of what the ledger holds. -/
structure Kept (ledger : Ledger) (live : CatalogModelLive) (f : Form) : Prop where
  key : f.key = live.model.id
  work : ∀ path, f.work.lookup path =
    ((ledger.entered.lookup path).or (ledger.earlier.lookup path)).or (ledger.opened.lookup path)
  nodup : (f.work.map (·.1)).Nodup
  fields : ∀ path, (f.work.lookup path).isSome → path ∈ live.model.fields.map Field.path

def Form.held (f : Form) : List GridEntry := f.entries ++ f.tables.flatMap (·.2.ops)

/-- The tab, its ledger and its log go together. -/
structure Coherent (w : Watch) : Prop where
  form : w.tab.form.isSome = w.tab.live.isSome
  kept : ∀ f live, w.tab.form = some f → w.tab.live = some live → Kept w.ledger live f
  held : ∀ f, w.tab.form = some f → ∀ e ∈ f.held, e.serial < w.tab.serial ∧
    ∀ p ∈ w.log, p.accepted = true → e.serial ∈ p.serials → w.ledger.sentOps = true
  sent : ∀ p ∈ w.log, ∀ s ∈ p.serials, s < w.tab.serial
  exact : ∀ p ∈ w.log, p.Exact
  once : ∀ s, (w.log.filter fun p => p.accepted && p.serials.contains s).length ≤ 1

theorem Coherent.init : Coherent .init where
  form := rfl
  kept := nofun
  held := nofun
  sent := nofun
  exact := nofun
  once _ := Nat.zero_le _

/-! ### The live values -/

theorem seeded_spec (value : Field → String) (fields : List Field) :
    ((fields.foldl (fun s f => putEntry s f.path (value f)) []).map (·.1)).Nodup ∧
      ∀ path, ((fields.foldl (fun s f => putEntry s f.path (value f)) []).lookup path).isSome ↔
        path ∈ fields.map Field.path := by
  induction fields using List.reverseRecOn with
  | nil => exact ⟨List.nodup_nil, fun path => by simp⟩
  | append_singleton fields f ih =>
    rw [List.foldl_append, List.foldl_cons, List.foldl_nil]
    refine ⟨putEntry_nodup ih.1 _ _, fun path => ?_⟩
    rw [lookup_putEntry, List.map_append, List.mem_append, ← ih.2 path]
    by_cases hp : path = f.path
    · simp [hp]
    · simp [hp]

theorem Kept.mount (live : CatalogModelLive) : Kept (.mount live) live (.mount live) where
  key := rfl
  work path := by
    show _ = (Option.or none none).or _
    rfl
  nodup := (seeded_spec _ _).1
  fields path h := ((seeded_spec _ _).2 path).mp h

theorem Kept.rerender {ledger : Ledger} {live live' : CatalogModelLive} {f : Form}
    (h : Kept ledger live f) (hkey : f.key = live'.model.id)
    (hfields : live'.model.fields = live.model.fields) :
    Kept ledger live' (f.rerender live') where
  key := hkey
  work := h.work
  nodup := h.nodup
  fields path hp := by
    rw [hfields]
    exact h.fields path hp

theorem Kept.edit {ledger : Ledger} {live : CatalogModelLive} {f : Form} {path value : String}
    (h : Kept ledger live f) (hpath : path ∈ live.model.fields.map Field.path) :
    Kept { ledger with entered := (path, value) :: ledger.entered } live (f.edit path value) where
  key := h.key
  work p := by
    show (putEntry f.work path value).lookup p = _
    rw [lookup_putEntry, List.lookup_cons, h.work p]
    by_cases hp : p = path
    · simp [hp]
    · rw [if_neg hp, beq_false_of_ne hp]
  nodup := putEntry_nodup h.nodup _ _
  fields p hp := by
    change ((putEntry f.work path value).lookup p).isSome at hp
    rw [lookup_putEntry] at hp
    by_cases heq : p = path
    · rw [heq]
      exact hpath
    · rw [if_neg heq] at hp
      exact h.fields p hp

theorem Kept.spend {ledger : Ledger} {live : CatalogModelLive} {f : Form} {sent : Bool}
    (h : Kept ledger live f) :
    Kept ⟨ledger.opened, ledger.entered ++ ledger.earlier, [], sent⟩ live f where
  key := h.key
  work path := by
    rw [h.work, List.lookup_append]
    rfl
  nodup := h.nodup
  fields := h.fields

/-- **In a fresh click the body is exact.** -/
theorem Kept.exact {ledger : Ledger} {live : CatalogModelLive} {f : Form}
    (h : Kept ledger live f)
    (hfresh : ∀ path ∈ live.model.fields.map Field.path, ledger.entered.lookup path = none →
      live.seeded.lookup path = (ledger.earlier.lookup path).or (ledger.opened.lookup path))
    (serials : List Nat) (accepted : Bool) :
    Proposal.Exact ⟨live, ledger.entered, f.build live, serials, accepted⟩ := by
  intro path v
  show (path, v) ∈ f.scalars live ↔ _
  rw [Form.scalars, List.mem_filter, mem_iff_lookup h.nodup]
  simp only [decide_eq_true_eq]
  constructor
  · rintro ⟨hwork, hlive⟩
    have hfield := h.fields path (by rw [hwork]; rfl)
    refine ⟨hfield, ?_, hlive⟩
    cases hent : ledger.entered.lookup path with
    | some v' =>
      rw [h.work, hent] at hwork
      exact hwork
    | none =>
      rw [h.work, hent] at hwork
      exact absurd ((hfresh path hfield hent).trans hwork) hlive
  · rintro ⟨-, hent, hlive⟩
    refine ⟨?_, hlive⟩
    rw [h.work, hent]
    rfl

/-! ### The operations -/

theorem mem_putEntry {α : Type} {d : List (String × α)} {k : String} {v : α} {kv : String × α}
    (h : kv ∈ putEntry d k v) : kv = (k, v) ∨ kv ∈ d := by
  induction d with
  | nil => exact .inl (List.mem_singleton.mp h)
  | cons kv₀ d ih =>
    rw [putEntry] at h
    split at h
    · rcases List.mem_cons.mp h with rfl | h
      · exact .inl rfl
      · exact .inr (List.mem_cons_of_mem _ h)
    · rcases List.mem_cons.mp h with rfl | h
      · exact .inr List.mem_cons_self
      · rcases ih h with h | h
        · exact .inl h
        · exact .inr (List.mem_cons_of_mem _ h)

theorem mem_held_of_table {f : Form} {path : String} {e : GridEntry}
    (h : e ∈ (f.table path).ops) : e ∈ f.held := by
  apply List.mem_append_right
  unfold Form.table at h
  cases hl : f.tables.lookup path with
  | none =>
    rw [hl] at h
    cases h
  | some t =>
    rw [hl] at h
    obtain ⟨l, l', hsplit, -⟩ := List.lookup_eq_some_iff.mp hl
    exact List.mem_flatMap.mpr ⟨(path, t), by rw [hsplit]; simp, h⟩

theorem mem_held_setTable {f : Form} {path : String} {t : GridTable} {e : GridEntry}
    (ht : t.ops = (f.table path).ops) (h : e ∈ (f.setTable path t).held) : e ∈ f.held := by
  rcases List.mem_append.mp h with h | h
  · exact List.mem_append_left _ h
  · obtain ⟨kt, hkt, he⟩ := List.mem_flatMap.mp h
    rcases mem_putEntry hkt with rfl | hkt
    · rw [ht] at he
      exact mem_held_of_table he
    · exact List.mem_append_right _ (List.mem_flatMap.mpr ⟨kt, hkt, he⟩)

theorem mem_held_push {f : Form} {path : String} {entry e : GridEntry}
    (h : e ∈ (f.push path entry).held) : e = entry ∨ e ∈ f.held := by
  have hall : ∀ {e : GridEntry}, e ∈ (f.table path).ops ++ [entry] → e = entry ∨ e ∈ f.held := by
    intro e he
    rcases List.mem_append.mp he with he | he
    · exact .inr (mem_held_of_table he)
    · exact .inl (List.mem_singleton.mp he)
  rcases List.mem_append.mp h with h | h
  · obtain ⟨kops, hkops, he⟩ := List.mem_flatMap.mp h
    rcases mem_putEntry hkops with rfl | hkops
    · exact hall he
    · exact .inr (List.mem_append_left _ (List.mem_flatMap.mpr ⟨kops, hkops, he⟩))
  · obtain ⟨kt, hkt, he⟩ := List.mem_flatMap.mp h
    rcases mem_putEntry hkt with rfl | hkt
    · exact hall he
    · exact .inr (List.mem_append_right _ (List.mem_flatMap.mpr ⟨kt, hkt, he⟩))

theorem mem_held_rerender {f : Form} {live : CatalogModelLive} {e : GridEntry}
    (h : e ∈ (f.rerender live).held) : e ∈ f.held := by
  rcases List.mem_append.mp h with h | h
  · exact List.mem_append_left _ h
  · obtain ⟨kt, hkt, he⟩ := List.mem_flatMap.mp h
    refine List.mem_append_right _ (List.mem_flatMap.mpr ⟨kt, ?_, he⟩)
    change kt ∈ (if live.readOnly then [] else _) at hkt
    split at hkt
    · cases hkt
    · exact List.mem_of_mem_filter hkt

/-! ### Steps -/

theorem Coherent.form_map {w : Watch} (h : Coherent w) (g : Form → Form) :
    (w.tab.form.map g).isSome = w.tab.live.isSome := by
  rw [Option.isSome_map]
  exact h.form

theorem Coherent.onTable {w : Watch} (h : Coherent w) (path : String) (g : GridTable → GridTable)
    (hg : ∀ t, (g t).ops = t.ops) :
    Coherent { w with tab := w.tab.onForm fun f => f.setTable path (g (f.table path)) } where
  form := h.form_map _
  kept f live hf hlive := by
    obtain ⟨f₀, hf₀, rfl⟩ := Option.map_eq_some_iff.mp hf
    have hk := h.kept f₀ live hf₀ hlive
    exact ⟨hk.key, hk.work, hk.nodup, hk.fields⟩
  held f hf e he := by
    obtain ⟨f₀, hf₀, rfl⟩ := Option.map_eq_some_iff.mp hf
    exact h.held f₀ hf₀ e (mem_held_setTable (hg _) he)
  sent := h.sent
  exact := h.exact
  once := h.once

theorem Coherent.push {w : Watch} (h : Coherent w) (grid : Grid) (op : CatalogGridOpIn) :
    Coherent { w with tab := w.tab.push grid op } where
  form := h.form_map _
  kept f live hf hlive := by
    obtain ⟨f₀, hf₀, rfl⟩ := Option.map_eq_some_iff.mp hf
    have hk := h.kept f₀ live hf₀ hlive
    exact ⟨hk.key, hk.work, hk.nodup, hk.fields⟩
  held f hf e he := by
    obtain ⟨f₀, hf₀, rfl⟩ := Option.map_eq_some_iff.mp hf
    show e.serial < w.tab.serial + 1 ∧ _
    rcases mem_held_push he with rfl | he
    · -- the serial is new: no proposal holds it
      refine ⟨Nat.lt_succ_self _, fun p hp _ hs => ?_⟩
      exact absurd (h.sent p hp _ hs) (Nat.lt_irrefl _)
    · obtain ⟨hlt, hsent⟩ := h.held f₀ hf₀ e he
      exact ⟨Nat.lt_succ_of_lt hlt, hsent⟩
  sent p hp s hs := Nat.lt_succ_of_lt (h.sent p hp s hs)
  exact := h.exact
  once := h.once

theorem Coherent.edit {w : Watch} (h : Coherent w) (path value : String)
    (htakes : w.tab.takes path = true) :
    Coherent { w with
      tab := w.tab.onForm (Form.edit path value)
      ledger := { w.ledger with entered := (path, value) :: w.ledger.entered } } where
  form := h.form_map _
  kept f live hf hlive := by
    obtain ⟨f₀, hf₀, rfl⟩ := Option.map_eq_some_iff.mp hf
    have hlive₀ : w.tab.live = some live := hlive
    refine (h.kept f₀ live hf₀ hlive₀).edit ?_
    rw [Tab.takes, hlive₀] at htakes
    simpa using (Bool.and_eq_true_iff.mp htakes).2
  held f hf e he := by
    obtain ⟨f₀, hf₀, rfl⟩ := Option.map_eq_some_iff.mp hf
    exact h.held f₀ hf₀ e he
  sent := h.sent
  exact := h.exact
  once := h.once

/-- A render with another selection or other data: either the form is kept for
live data of the same fields, or the ledger begins anew with it. -/
theorem Coherent.render {w : Watch} (h : Coherent w) {tab : Tab} (hform : tab.form = w.tab.form)
    (hserial : tab.serial = w.tab.serial)
    (hsame : ∀ f live', w.tab.form = some f → tab.live = some live' → f.key = live'.model.id →
      ∃ live, w.tab.live = some live ∧ live'.model.fields = live.model.fields) :
    Coherent ⟨tab.render, w.ledger.render tab, w.log⟩ := by
  refine ⟨?_, ?_, ?_, ?_, h.exact, h.once⟩
  · show (tab.live.map _).isSome = tab.live.isSome
    rw [Option.isSome_map]
  · intro f live' hf hlive'
    have hlive₁ : tab.live = some live' := hlive'
    obtain ⟨live₁, hl₁, rfl⟩ := Option.map_eq_some_iff.mp hf
    obtain rfl := Option.some.inj (hl₁.symm.trans hlive₁)
    cases htf : tab.form with
    | none =>
      simp only [Ledger.render, hlive₁, htf]
      exact Kept.mount live₁
    | some f₀ =>
      simp only [Ledger.render, hlive₁, htf]
      by_cases hkey : f₀.key = live₁.model.id
      · rw [if_pos hkey, if_pos hkey]
        obtain ⟨live, hlive, hfields⟩ := hsame f₀ live₁ (hform ▸ htf) hlive₁ hkey
        exact (h.kept f₀ live (hform ▸ htf) hlive).rerender hkey hfields
      · rw [if_neg hkey, if_neg hkey]
        exact Kept.mount live₁
  · intro f hf e he
    obtain ⟨live₁, hl₁, rfl⟩ := Option.map_eq_some_iff.mp hf
    show e.serial < tab.serial ∧ _
    cases htf : tab.form with
    | none =>
      rw [htf] at he
      cases he
    | some f₀ =>
      rw [htf] at he
      simp only [Ledger.render, hl₁, htf]
      by_cases hkey : f₀.key = live₁.model.id
      · rw [if_pos hkey]
        simp only [if_pos hkey] at he
        rw [hserial]
        exact h.held f₀ (hform ▸ htf) e (mem_held_rerender he)
      · simp only [if_neg hkey] at he
        cases he
  · intro p hp s hs
    show s < tab.serial
    rw [hserial]
    exact h.sent p hp s hs

theorem proposal_eq_some {tab : Tab} {live : CatalogModelLive} {f : Form}
    (h : tab.proposal = some (live, f)) : tab.live = some live ∧ tab.form = some f := by
  unfold Tab.proposal at h
  split at h
  · rename_i live' f' hlive hform
    split at h
    · obtain ⟨rfl, rfl⟩ := Prod.mk.inj (Option.some.inj h)
      exact ⟨hlive, hform⟩
    · cases h
  · cases h

/-- A fresh click: what is sent is exact, and none of its operations has gone
out before. -/
theorem Coherent.propose {w : Watch} (h : Coherent w) {accepted : Bool}
    (hfresh : w.Fresh (.propose accepted)) : Coherent (w.step (.propose accepted)) := by
  rw [Watch.step]
  cases hprop : w.tab.proposal with
  | none => exact h
  | some lf =>
    obtain ⟨live, f⟩ := lf
    obtain ⟨hlive, hform⟩ := proposal_eq_some hprop
    obtain ⟨hnone, hvalues⟩ := hfresh live hlive
    have hkept := h.kept f live hform hlive
    have hentries : ∀ e ∈ f.entries, e ∈ f.held := fun e he => List.mem_append_left _ he
    refine ⟨h.form, ?_, ?_, ?_, ?_, ?_⟩
    · intro f' live' hf' hlive'
      obtain rfl := Option.some.inj (hform.symm.trans hf')
      obtain rfl := Option.some.inj (hlive.symm.trans hlive')
      cases accepted with
      | false => exact hkept
      | true => exact hkept.spend
    · intro f' hf' e he
      obtain rfl := Option.some.inj (hform.symm.trans hf')
      refine ⟨(h.held f hform e he).1, fun p hp hacc hs => ?_⟩
      rcases List.mem_append.mp hp with hp | hp
      · have hsent := (h.held f hform e he).2 p hp hacc hs
        rw [hnone] at hsent
        cases hsent
      · obtain rfl := List.mem_singleton.mp hp
        subst hacc
        obtain ⟨e', he', -⟩ := List.mem_map.mp hs
        show (w.ledger.sentOps || !f.entries.isEmpty) = true
        cases hf : f.entries with
        | nil => rw [hf] at he'; cases he'
        | cons _ _ => simp
    · intro p hp s hs
      rcases List.mem_append.mp hp with hp | hp
      · exact h.sent p hp s hs
      · obtain rfl := List.mem_singleton.mp hp
        obtain ⟨e, he, rfl⟩ := List.mem_map.mp hs
        exact (h.held f hform e (hentries e he)).1
    · intro p hp
      rcases List.mem_append.mp hp with hp | hp
      · exact h.exact p hp
      · obtain rfl := List.mem_singleton.mp hp
        exact hkept.exact hvalues _ _
    · intro s
      show ((w.log ++ [_]).filter _).length ≤ 1
      rw [List.filter_append, List.length_append]
      by_cases hin : (accepted && (f.entries.map (·.serial)).contains s) = true
      · -- the operation was in no accepted proposal before
        obtain ⟨hacc, hs⟩ := Bool.and_eq_true_iff.mp hin
        have hs : s ∈ f.entries.map (·.serial) := by simpa using hs
        obtain ⟨e, he, rfl⟩ := List.mem_map.mp hs
        have hzero : w.log.filter (fun p => p.accepted && p.serials.contains e.serial) = [] := by
          rw [List.filter_eq_nil_iff]
          intro p hp hboth
          obtain ⟨hacc', hs'⟩ := Bool.and_eq_true_iff.mp hboth
          have hsent := (h.held f hform e (hentries e he)).2 p hp hacc' (by simpa using hs')
          rw [hnone] at hsent
          cases hsent
        rw [hzero, List.length_nil, Nat.zero_add]
        exact List.length_filter_le _ _
      · rw [List.filter_cons_of_neg (by simpa using hin), List.filter_nil]
        exact h.once s

/-- Every fresh event keeps tab, ledger and log together. -/
theorem Coherent.step {w : Watch} (h : Coherent w) {e : Event} (hfresh : w.Fresh e) :
    Coherent (w.step e) := by
  cases e with
  | select key =>
    -- the model that is shown again is the one its form was made for
    refine h.render rfl rfl fun f live' hf hlive' hkey => ⟨live', ?_, rfl⟩
    have hlookup : w.tab.data.lookup key = some live' := hlive'
    show w.tab.selected.bind _ = some live'
    rw [hfresh f live' hf hlookup hkey]
    exact hlookup
  | deliver key live =>
    -- an answer for the selected model is fresh; one for another leaves what is shown
    refine h.render rfl rfl fun f live' hf hlive' hkey => ?_
    obtain ⟨sel, hsel, hlookup⟩ := Option.bind_eq_some_iff.mp hlive'
    have hlive : w.tab.live.isSome := by
      rw [← h.form, hf]
      rfl
    obtain ⟨live₀, hlive₀⟩ := Option.isSome_iff_exists.mp hlive
    refine ⟨live₀, hlive₀, ?_⟩
    rw [lookup_putEntry] at hlookup
    by_cases hk : sel = key
    · rw [if_pos hk] at hlookup
      obtain rfl := Option.some.inj hlookup
      exact hfresh f live₀ hf (hk ▸ hsel) hlive₀ hkey
    · rw [if_neg hk] at hlookup
      have hsame : w.tab.live = some live' := by
        show w.tab.selected.bind _ = some live'
        rw [show w.tab.selected = some sel from hsel]
        exact hlookup
      rw [Option.some.inj (hlive₀.symm.trans hsame)]
  | expire key =>
    -- the entry of the selected model is in use and stays
    show Coherent { w with tab := if _ then _ else _ }
    by_cases hsel : w.tab.selected = some key
    · rw [if_pos hsel]
      exact h
    · rw [if_neg hsel]
      have hlive : Tab.live { w.tab with data := w.tab.data.filter fun kl => kl.1 != key } =
          w.tab.live := by
        show w.tab.selected.bind _ = w.tab.selected.bind _
        cases hs : w.tab.selected with
        | none => rfl
        | some sel =>
          have hne : sel ≠ key := fun he => hsel (hs.trans (congrArg some he))
          exact lookup_filter_ne _ hne
      exact ⟨hlive ▸ h.form, fun f live hf hl => h.kept f live hf (hlive ▸ hl), h.held, h.sent,
        h.exact, h.once⟩
  | edit path value =>
    -- both the form and the ledger take the edit, or neither does
    show Coherent { w with tab := if _ then _ else _, ledger := if _ then _ else _ }
    by_cases htakes : w.tab.takes path = true
    · rw [if_pos htakes, if_pos htakes]
      exact h.edit path value htakes
    · rw [if_neg htakes, if_neg htakes]
      exact h
  | openAdd grid =>
    -- opening, editing and closing a dialog enter no operation
    show Coherent { w with tab := if _ then _ else _ }
    split
    · exact h.onTable grid.path (fun t => t.openAdd grid) fun _ => rfl
    · exact h
  | openEdit grid row =>
    show Coherent { w with tab := if _ then _ else _ }
    split
    · exact h.onTable grid.path (fun t => t.openEdit grid row) fun _ => rfl
    · exact h
  | editItem grid path value =>
    show Coherent { w with tab := if _ then _ else _ }
    split
    · exact h.onTable grid.path (fun t => t.editItem path value) fun _ => rfl
    · exact h
  | close grid =>
    show Coherent { w with tab := if _ then _ else _ }
    split
    · exact h.onTable grid.path (fun t => { t with editing := none }) fun _ => rfl
    · exact h
  | save grid =>
    -- a valid item is entered as an operation, and the dialog closes
    show Coherent { w with tab := w.tab.step (.save grid) }
    rw [Tab.step]
    split
    · exact h
    · split
      · exact h
      · split
        · exact (h.push grid _).onTable grid.path (fun t => { t with editing := none }) fun _ => rfl
        · exact h
  | delete grid uuid =>
    show Coherent { w with tab := if _ then _ else _ }
    split
    · exact h.push grid _
    · exact h
  | propose accepted => exact h.propose hfresh

def watchStep (w : Watch) (e : Event) : Option Watch := some (w.step e)

/-- **Over fresh events, every body that is sent holds exactly what was
entered, and every grid operation is in at most one accepted proposal.** -/
theorem proposals_exact (es : List Event) (w : Watch)
    (hfresh : Along watchStep Watch.Fresh .init es)
    (hrun : runAll watchStep .init es = some w) :
    (∀ p ∈ w.log, p.Exact) ∧
      ∀ s, (w.log.filter fun p => p.accepted && p.serials.contains s).length ≤ 1 := by
  have h : Coherent w := by
    refine runAll_invariant (fun w e w' h hf hstep => ?_) Coherent.init hfresh hrun
    obtain rfl := Option.some.inj hstep
    exact h.step hf
  exact ⟨h.exact, h.once⟩

/-- A model of two fields, with their live values. -/
def portLive (enabled port : String) : CatalogModelLive where
  model := ⟨"unbound", "unbound", "OPNsense/unboundplus", [],
    [⟨"general.enabled"⟩, ⟨"general.port"⟩], []⟩
  values := [("general.enabled", .text enabled), ("general.port", .text port)]
  grids := []
  reachable := true
  readOnly := false

def portEvents : List Event :=
  [.select "unbound", .deliver "unbound" (portLive "0" "53"), .edit "general.enabled" "1",
    .propose true]

/-- The run is fresh, and its one proposal holds the edited field. -/
theorem portEvents_exact :
    ∃ w, runAll watchStep .init portEvents = some w ∧
      w.log.map (·.body.scalars) = [[("general.enabled", "1")]] ∧ ∀ p ∈ w.log, p.Exact := by
  have hfresh : Along watchStep Watch.Fresh .init portEvents := by
    refine ⟨fun _ _ hf => (nomatch hf), fun _ hs => ?_⟩
    obtain rfl := Option.some.inj hs
    refine ⟨fun _ _ hf => (nomatch hf), fun _ hs => ?_⟩
    obtain rfl := Option.some.inj hs
    refine ⟨trivial, fun _ hs => ?_⟩
    obtain rfl := Option.some.inj hs
    refine ⟨fun live hlive => ?_, fun _ _ => trivial⟩
    obtain rfl := Option.some.inj hlive
    exact ⟨rfl, by decide +kernel⟩
  refine ⟨_, rfl, by decide +kernel, ?_⟩
  exact (proposals_exact portEvents _ hfresh rfl).1

/-- Somebody else changes the port while the form is open; the operator edits
the other field. -/
def staleEvents : List Event :=
  [.select "unbound", .deliver "unbound" (portLive "0" "53"), .edit "general.enabled" "1",
    .deliver "unbound" (portLive "0" "5353"), .propose true]

/-- The body takes the port back, which the operator never touched. -/
theorem staleEvents_not_exact :
    ∃ w, runAll watchStep .init staleEvents = some w ∧
      w.log.map (·.body.scalars) = [[("general.enabled", "1"), ("general.port", "53")]] ∧
      ¬ ∀ p ∈ w.log, p.Exact := by
  refine ⟨_, rfl, by decide +kernel, fun h => ?_⟩
  have hexact := h _ List.mem_cons_self
  have hport := (hexact "general.port" "53").mp (by decide +kernel)
  exact absurd hport.2.1 (by decide +kernel)

end Editor

end Opngms
