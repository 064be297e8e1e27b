/-
Opngms/Preview.lean

What is previewed and what is applied.

A preview binds the merged body of each template and then validates it.  So
does the application of a single template, and of each member of a profile;
but before that, the application of a profile validates all members with their
bodies unbound.  A firewall rule whose merged body has an interface that is
no interface name is replaced by the bound one in the preview, and rejected
when the profile is applied: an override is stored without validation, so such
bodies exist.

`Shadowed` describes these profiles.  Main result: **`preview_faithful_iff`**.
-/
import Opngms.Templates
import Opngms.ApplyOnce

namespace Opngms

open Dialogue

variable {Box : Type}

/-! ### The change that a template yields -/

/-- The change that a body of the kind yields under the bindings: it is bound,
then validated, then mapped. -/
def changeOf (kind : String) (body bindings : Dict) : Except Raised TemplatePreview := do
  let spec ← templateKind kind
  let body ← applyBindings kind body bindings
  spec.validate body
  let (op, target, _) ← spec.toChange body
  return { operation := op, kind := spec.changeKind, target := target.pyStr, new := body }

/-- The change that a template yields for a tenant, if it yields one. -/
def Library.change? (lib : Library) (tenantId : TenantId) (bindings : Dict) (tpl : Template) :
    Option TemplatePreview :=
  (lib.effective tenantId tpl).toOption.bind fun eff => (changeOf tpl.kind eff bindings).toOption

@[simp] theorem require_eq_ok {ok : Bool} {message : String} {u : Unit} :
    require ok message = .ok u ↔ ok = true := by
  cases ok <;> simp [require]

theorem templateKind_mem {kind : String} {spec : TemplateKind} (h : templateKind kind = .ok spec) :
    (kind, spec) ∈ templateKinds := by
  unfold templateKind at h
  rcases hl : templateKinds.lookup kind with - | spec'
  · rw [hl] at h
    cases h
  · rw [hl] at h
    obtain rfl := Except.ok.inj h
    obtain ⟨l₁, l₂, heq, -⟩ := List.lookup_eq_some_iff.mp hl
    rw [heq]
    exact List.mem_append_right _ List.mem_cons_self

theorem item_of_getD {body : Dict} {key s : String} (h : Dict.getD body key .null = .str s) :
    Dict.item body key = .ok (.str s) := by
  unfold Dict.getD at h
  unfold Dict.item
  rcases hg : Dict.get? body key with - | v
  · rw [hg] at h
    cases h
  · rw [hg] at h
    exact congrArg Except.ok h

theorem validateAliasBody_name {body : Dict} (h : validateAliasBody body = .ok ()) :
    ∃ name, Dict.getD body "name" .null = .str name := by
  obtain ⟨u, hname, -⟩ := except_bind_ok h
  rw [require_eq_ok] at hname
  rcases hn : Dict.getD body "name" .null with _ | _ | _ | _ | name | _ | _ <;> rw [hn] at hname
  all_goals first | exact ⟨_, rfl⟩ | cases hname

theorem validateSetting_key {body : Dict} (h : validateSetting body = .ok ()) :
    ∃ key, Dict.getD body "endpoint_key" .null = .str key := by
  obtain ⟨ep, hep, hrest⟩ := except_bind_ok h
  have hep := mapError_ok hep
  rcases hk : Dict.getD body "endpoint_key" .null with _ | _ | _ | _ | key | _ | _ <;>
    rw [hk] at hep
  all_goals first
    | exact ⟨_, rfl⟩
    | cases hep <;> cases hrest

theorem toChange_of_valid {kind : String} {spec : TemplateKind} {body : Dict}
    (hk : templateKind kind = .ok spec) (hv : spec.validate body = .ok ()) :
    ∃ target, spec.toChange body = .ok ("set", .str target, body) := by
  have hmem := templateKind_mem hk
  simp only [templateKinds, List.mem_cons, Prod.mk.injEq, List.not_mem_nil, or_false] at hmem
  rcases hmem with ⟨-, rfl⟩ | ⟨-, rfl⟩ | ⟨-, rfl⟩ | ⟨-, rfl⟩ | ⟨-, rfl⟩ | ⟨-, rfl⟩
  · obtain ⟨name, hname⟩ := validateAliasBody_name hv
    exact ⟨name, by simp [changeOfItem, item_of_getD hname, Except.mapError]⟩
  · obtain ⟨key, hkey⟩ := validateSetting_key hv
    exact ⟨key, by simp [changeOfItem, item_of_getD hkey, Except.mapError]⟩
  · exact ⟨_, rfl⟩
  · exact ⟨_, rfl⟩
  · exact ⟨_, rfl⟩
  · exact ⟨_, rfl⟩

/-! ### Bound and unbound -/

/-- The merged body, where it is that of a firewall rule, names an interface
that passes the check by itself. -/
def InterfaceOk (kind : String) (body : Dict) : Prop :=
  kind = "firewall_rule" → isIfaceText (fieldText body "interface" "") = true

instance (kind : String) (body : Dict) : Decidable (InterfaceOk kind body) :=
  inferInstanceAs (Decidable (_ → _))

section Previews

variable {σ : Type} {serve : σ → (q : Eff) → Option (q.Ans × σ)} {s : σ} {lib : Library}
  {tenantId : TenantId} {bindings : Dict}

end Previews

/-! ### Staging rows -/

/-- The rows of `w'` that `w` has not, in the order in which they were
inserted. -/
def World.created (w w' : World Box) : List Change :=
  (List.range' w.nextChange (w'.nextChange - w.nextChange)).filterMap w'.changes

/-- Session `i` has inserted the rows, in order, since the world was `w₀`, and
has committed nothing. -/
structure Staged (w₀ : World Box) (i : Nat) (rows : List Change) (w : World Box) : Prop where
  changes : w.changes = w₀.changes
  nextChange : w.nextChange = w₀.nextChange + rows.length
  ids : rows.map Change.id = List.range' w₀.nextChange rows.length
  loaded : ∀ id, (w.sessions i).loaded id = none
  dirty : ∀ id, (w.sessions i).dirty id = rows.find? fun r => r.id = id
  lock : ∀ r ∈ rows, w.rowLock r.id = some i

section Staging

variable {B : BoxModel Box} {w₀ w : World Box} {i : Nat} {rows : List Change}

theorem setSession_self (w : World Box) (i : Nat) : w.setSession i (w.sessions i) = w := by
  unfold World.setSession
  rw [Function.update_eq_self]

theorem Staged.id_lt (h : Staged w₀ i rows w) {r : Change} (hr : r ∈ rows) :
    r.id < w.nextChange := by
  have hid : r.id ∈ rows.map Change.id := List.mem_map_of_mem hr
  rw [h.ids] at hid
  rw [h.nextChange]
  exact (List.mem_range'_1.mp hid).2

theorem Staged.insert (h : Staged w₀ i rows w) (row : Change) :
    ∃ began w', (World.server B).serve i w (.insertChange row) =
        some ({ row with id := w.nextChange, createdAt := began }, w') ∧
      Staged w₀ i (rows ++ [{ row with id := w.nextChange, createdAt := began }]) w' := by
  refine ⟨(w.sessions i).began, _, rfl, ?_⟩
  have hnext := h.nextChange
  have hold : rows.find? (fun r => r.id = w.nextChange) = none := by
    refine List.find?_eq_none.mpr fun r hr hid => ?_
    exact absurd (of_decide_eq_true hid) (Nat.ne_of_lt (h.id_lt hr))
  refine ⟨h.changes, ?_, ?_, ?_, fun id => ?_, fun r hr => ?_⟩
  · show w.nextChange + 1 = _
    rw [hnext, List.length_append, List.length_singleton, Nat.add_assoc]
  · rw [List.map_append, h.ids, List.length_append, List.length_singleton, List.range'_concat]
    simp [hnext]
  · intro id
    rw [World.setSession_sessions, Function.update_self]
    exact h.loaded id
  · rw [World.setSession_sessions, Function.update_self, List.find?_append]
    show Function.update (w.sessions i).dirty w.nextChange _ id = _
    by_cases hid : id = w.nextChange
    · rw [hid, Function.update_self, hold]
      simp
    · rw [Function.update_of_ne hid, h.dirty id]
      simp [Ne.symm hid]
  · show Function.update w.rowLock w.nextChange (some i) r.id = some i
    rcases List.mem_append.mp hr with hr | hr
    · rw [Function.update_of_ne (Nat.ne_of_lt (h.id_lt hr))]
      exact h.lock r hr
    · obtain rfl := List.mem_singleton.mp hr
      exact Function.update_self _ _ _

/-- A staged row may be written again. -/
theorem Staged.flush {done todo : List Change} {r : Change} (h : Staged w₀ i (done ++ r :: todo) w)
    {c : Change} (hc : c.id = r.id) :
    ∃ w', (World.server B).serve i w (.flushChange c) = some ((), w') ∧
      Staged w₀ i (done ++ c :: todo) w' := by
  have hlock : w.rowLock c.id = some i := by
    rw [hc]
    exact h.lock r (by simp)
  have hanswer : w.answer B i (.flushChange c) =
      some ((), { w with rowLock := Function.update w.rowLock c.id (some i) }) := if_pos (.inr hlock)
  have hserve : (World.server B).serve i w (.flushChange c) = some ((),
      { w with rowLock := Function.update w.rowLock c.id (some i) }.setSession i
        ((w.sessions i).after (.flushChange c) ())) := by
    show Option.map _ (w.answer B i (.flushChange c)) = _
    rw [hanswer]
    rfl
  have hnodup : ((done ++ r :: todo).map Change.id).Nodup := by
    rw [h.ids]
    exact List.nodup_range'
  -- the ids are consecutive, so no other change is touched
  have hdone : ∀ d ∈ done, d.id ≠ c.id := by
    rw [List.map_append, List.map_cons] at hnodup
    intro d hd he
    refine (List.nodup_append.mp hnodup).2.2 d.id (List.mem_map_of_mem hd) r.id ?_ (he.trans hc)
    exact List.mem_cons_self
  refine ⟨_, hserve, ⟨h.changes, ?_, ?_, ?_, fun id => ?_, fun d hd => ?_⟩⟩
  · show w.nextChange = _
    rw [h.nextChange]
    simp
  · have hids := h.ids
    simp only [List.map_append, List.map_cons, hc, List.length_append, List.length_cons] at hids ⊢
    exact hids
  · intro id
    rw [World.setSession_sessions, Function.update_self]
    exact h.loaded id
  · rw [World.setSession_sessions, Function.update_self]
    show Function.update (w.sessions i).dirty c.id (some c) id = _
    by_cases hid : id = c.id
    · have hnone : done.find? (fun d => d.id = c.id) = none :=
        List.find?_eq_none.mpr fun d hd => by simpa using hdone d hd
      rw [hid, Function.update_self, List.find?_append, hnone]
      simp
    · have hr : r.id ≠ id := fun he => hid (he.symm.trans hc.symm)
      rw [Function.update_of_ne hid, h.dirty id]
      simp [List.find?_append, Ne.symm hid, hr]
  · show Function.update w.rowLock c.id (some i) d.id = some i
    by_cases hid : d.id = c.id
    · rw [hid, Function.update_self]
    · rw [Function.update_of_ne hid]
      refine h.lock d ?_
      simp only [List.mem_append, List.mem_cons] at hd ⊢
      rcases hd with hd | rfl | hd
      · exact .inl hd
      · exact absurd rfl hid
      · exact .inr (.inr hd)

theorem Staged.flushAll {done todo cs : List Change} (h : Staged w₀ i (done ++ todo) w)
    (hcs : cs.map Change.id = todo.map Change.id) :
    ∃ w', (flushAll cs).play ((World.server B).serve i) w = some (.ok (), w') ∧
      Staged w₀ i (done ++ cs) w' := by
  induction cs generalizing done todo w with
  | nil =>
    obtain rfl : todo = [] := List.map_eq_nil_iff.mp hcs.symm
    exact ⟨w, rfl, h⟩
  | cons c cs ih =>
    rcases todo with - | ⟨r, todo⟩
    · cases hcs
    · obtain ⟨hid, hids⟩ := List.cons.inj hcs
      obtain ⟨w₁, hs, h₁⟩ := h.flush (B := B) hid
      have h₁ : Staged w₀ i ((done ++ [c]) ++ todo) w₁ := by simpa using h₁
      obtain ⟨w₂, hp, h₂⟩ := ih h₁ hids
      refine ⟨w₂, ?_, by simpa using h₂⟩
      show (Dialogue.ask (.flushChange c) fun _ => Opngms.flushAll cs).play _ w = _
      rw [play_ask hs]
      exact hp

/-- What a preview would show of a change. -/
def Change.preview (c : Change) : TemplatePreview where
  operation := c.operation
  kind := c.kind
  target := c.target
  new := c.payload

theorem Staged.create (h : Staged w₀ i rows w) (tenantId : TenantId) (deviceId : DeviceId)
    (kind operation target : String) (payload : Dict) :
    ∃ row w', (createChange tenantId deviceId kind operation (.str target) payload).play
        ((World.server B).serve i) w = some (.ok row, w') ∧
      Staged w₀ i (rows ++ [row]) w' ∧ row.preview = ⟨operation, kind, target, payload⟩ := by
  have hread : (World.server B).serve i w (.latestSnapshot deviceId) =
      some (w.latest deviceId, w) := by
    show some (w.latest deviceId, w.setSession i (w.sessions i)) = _
    rw [setSession_self]
  have hplay : ∃ row, row.preview = ⟨operation, kind, target, payload⟩ ∧
      (createChange tenantId deviceId kind operation (.str target) payload).play
        ((World.server B).serve i) w =
      (Dialogue.question (Eff.insertChange row) : Program Change).play
        ((World.server B).serve i) w := ⟨_, rfl, play_ask hread⟩
  obtain ⟨row, hrow, hplay⟩ := hplay
  obtain ⟨began, w', hs, h'⟩ := h.insert (B := B) row
  refine ⟨_, w', ?_, h', hrow⟩
  rw [hplay]
  exact play_ask hs

theorem Staged.materialize (h : Staged w₀ i rows w) (tenantId : TenantId)
    (deviceId : DeviceId) (kind : String) (body bindings : Dict) :
    ∃ z w', (materializeChange tenantId deviceId kind body bindings).play
        ((World.server B).serve i) w = some (z, w') ∧
      z.toOption.map Change.preview = (changeOf kind body bindings).toOption ∧
      Staged w₀ i (rows ++ z.toOption.toList) w' := by
  have hraise : ∀ x : Raised, Staged w₀ i
      (rows ++ (Except.error x : Except Raised Change).toOption.toList) w := by
    intro x
    simpa [Except.toOption] using h
  unfold materializeChange changeOf
  rcases hk : templateKind kind with x | spec
  · exact ⟨.error x, w, rfl, rfl, hraise x⟩
  rcases hb : applyBindings kind body bindings with x | bound
  · exact ⟨.error x, w, rfl, rfl, hraise x⟩
  show ∃ z w', ((Dialogue.ofExcept (spec.validate bound)).bind _).play _ w = some (z, w') ∧
    Option.map _ z.toOption = (spec.validate bound >>= _).toOption ∧ _
  rcases hv : spec.validate bound with x | u
  · exact ⟨.error x, w, rfl, rfl, hraise x⟩
  obtain ⟨target, ht⟩ := toChange_of_valid hk hv
  obtain ⟨row, w₁, hp, h₁, hrow⟩ := h.create (B := B) tenantId deviceId spec.changeKind "set"
    target bound
  obtain ⟨w₂, hs, h₂⟩ := Staged.flush (B := B) h₁ (c := row) rfl
  refine ⟨.ok row, w₂, ?_, ?_, h₂⟩
  · show ((Dialogue.ofExcept (spec.toChange bound)).bind _).play _ w = _
    rw [ht]
    show ((createChange tenantId deviceId spec.changeKind "set" (.str target) bound).bind _).play _
      w = _
    rw [play_bind_ok hp]
    exact play_ask hs
  · show some row.preview = (spec.toChange bound >>= _).toOption
    rw [ht, hrow]
    rfl

theorem Staged.materializeMembers (h : Staged w₀ i rows w) (tenantId : TenantId)
    (deviceId : DeviceId) (bindings : Dict) (members : List (Template × Dict)) :
    ∃ z w', (Opngms.materializeMembers tenantId deviceId bindings members).play
        ((World.server B).serve i) w = some (z, w') ∧
      z.toOption.map (List.map Change.preview) =
        members.mapM (fun m => (changeOf m.1.kind m.2 bindings).toOption) ∧
      w'.changes = w₀.changes ∧ ∀ cs, z = .ok cs → Staged w₀ i (rows ++ cs) w' := by
  induction members generalizing rows w with
  | nil =>
    refine ⟨.ok [], w, rfl, rfl, h.changes, fun cs hcs => ?_⟩
    obtain rfl := Except.ok.inj hcs
    simpa using h
  | cons m members ih =>
    obtain ⟨tpl, body⟩ := m
    obtain ⟨z, w₁, hp, hz, h₁⟩ := h.materialize (B := B) tenantId deviceId tpl.kind body bindings
    rw [List.mapM_cons, ← hz]
    show ∃ z w', ((materializeChange tenantId deviceId tpl.kind body bindings).bind _).play _ w =
      some (z, w') ∧ _
    cases z with
    | error x => exact ⟨.error x, w₁, play_bind_error hp, rfl, h₁.changes, nofun⟩
    | ok c =>
      have h₁ : Staged w₀ i (rows ++ [c]) w₁ := h₁
      obtain ⟨zs, w₂, hps, hzs, hch, hstaged⟩ := ih h₁
      rw [play_bind_ok hp, ← hzs]
      show ∃ z w', ((Opngms.materializeMembers tenantId deviceId bindings members).bind _).play _
        w₁ = some (z, w') ∧ _
      cases zs with
      | error x => exact ⟨.error x, w₂, play_bind_error hps, rfl, hch, nofun⟩
      | ok cs =>
        rw [play_bind_ok hps]
        refine ⟨.ok (c :: cs), w₂, rfl, rfl, hch, fun cs' hcs' => ?_⟩
        obtain rfl := Except.ok.inj hcs'
        have hall := hstaged cs rfl
        rw [List.append_assoc] at hall
        exact hall

theorem Staged.created_commit (h : Staged w₀ i rows w) : World.created w₀ (w.commit i) = rows := by
  have hnodup : (rows.map Change.id).Nodup := by
    rw [h.ids]
    exact List.nodup_range'
  have hrow : ∀ r ∈ rows, (w.commit i).changes r.id = some r := by
    intro r hr
    have hfind : rows.find? (fun r' => r'.id = r.id) = some r := by
      rcases hf : rows.find? (fun r' => r'.id = r.id) with - | r'
      · exact absurd (decide_eq_true rfl) (List.find?_eq_none.mp hf r hr)
      · have hid : r'.id = r.id := by simpa using List.find?_some hf
        have heq : r' = r := List.inj_on_of_nodup_map hnodup (List.mem_of_find?_eq_some hf) hr hid
        rw [heq] at hf
        exact hf
    show World.mergeRow ((w.sessions i).loaded r.id) ((w.sessions i).dirty r.id) _ = some r
    rw [h.loaded, h.dirty, hfind]
    rfl
  have hlen : (w.commit i).nextChange - w₀.nextChange = rows.length := by
    show w.nextChange - w₀.nextChange = rows.length
    rw [h.nextChange]
    exact Nat.add_sub_cancel_left _ _
  unfold World.created
  rw [hlen, ← h.ids, List.filterMap_map]
  calc rows.filterMap ((w.commit i).changes ∘ Change.id)
      = rows.filterMap some := List.filterMap_congr fun r hr => hrow r hr
    _ = rows := List.filterMap_some

theorem Staged.finish {α : Type} (h : Staged w₀ i rows w) (job : Job) (deferUntil : Option Time)
    (a : α) :
    ∃ w', (do perform .commit; perform (.enqueue job deferUntil); return a : Program α).play
        ((World.server B).serve i) w = some (.ok a, w') ∧ World.created w₀ w' = rows :=
  ⟨_, rfl, h.created_commit⟩

end Staging

/-! ### Handlers run alone -/

/-- The world in which a request has just been given session `i`. -/
def World.opened (w : World Box) (i : Nat) : World Box :=
  w.setSession i { began := w.clock, task := .request }

/-- The preview accepts if and only if the application does; then the changes
created are the ones previewed, in order; and a rejected application creates
none. -/
def Faithful {α : Type} (w : World Box)
    (previewed : Option (Except Raised (List TemplatePreview) × World Box))
    (applied : Option (Except Raised α × World Box)) : Prop :=
  ∃ shown w₁ done w₂, previewed = some (shown, w₁) ∧ applied = some (done, w₂) ∧
    ((∃ ps, shown = .ok ps) ↔ ∃ a, done = .ok a) ∧
    (∀ ps a, shown = .ok ps → done = .ok a → (World.created w w₂).map Change.preview = ps) ∧
    ∀ x, done = .error x → w₂.changes = w.changes

section Handlers

variable {B : BoxModel Box} {w : World Box} {i : Nat}

variable {lib : Library} {tenantId : TenantId} {deviceId : DeviceId} {bindings : Dict}

/-- The handler ends; it accepts if and only if there are changes to create,
and then creates them, else none. -/
def Creates {α : Type} (w : World Box) (outcome : Option (Except Raised α × World Box))
    (ps : Option (List TemplatePreview)) : Prop :=
  ∃ z w', outcome = some (z, w') ∧
    match (z, ps) with
    | (.ok _, some ps) => (World.created w w').map Change.preview = ps
    | (.error _, none) => w'.changes = w.changes
    | _ => False

/-- The changes of the members, if each of them yields one. -/
def Library.changes (lib : Library) (tenantId : TenantId) (bindings : Dict)
    (tpls : List Template) : Option (List TemplatePreview) :=
  tpls.mapM (lib.change? tenantId bindings)

theorem Staged.scheduled {α : Type} {rows : List Change} {w₁ : World Box}
    (h : Staged w i rows w₁) (scheduledAt : Option Time) (job : Job) (a : α) :
    Creates w ((do
        Opngms.flushAll (rows.map fun c => { c with status := .scheduled, scheduledAt })
        perform .commit
        perform (.enqueue job scheduledAt)
        return a : Program α).play ((World.server B).serve i) w₁)
      (some (rows.map Change.preview)) := by
  have hids : (rows.map fun c => { c with status := .scheduled, scheduledAt }).map Change.id =
      rows.map Change.id := by simp
  have h : Staged w i ([] ++ rows) w₁ := h
  obtain ⟨w₂, hp, h₂⟩ := h.flushAll (B := B) hids
  obtain ⟨w₃, hfin, hcreated⟩ := Staged.finish (B := B) h₂ job scheduledAt a
  refine ⟨.ok a, w₃, ?_, ?_⟩
  · show ((Opngms.flushAll _).bind _).play _ w₁ = _
    rw [play_bind_ok hp]
    exact hfin
  · show (World.created w w₃).map Change.preview = rows.map Change.preview
    rw [hcreated]
    simp [Change.preview]

end Handlers

/-! ### Where they differ -/

section Shadowed

variable {lib : Library} {tenantId : TenantId} {bindings : Dict}

end Shadowed

section Main

variable (B : BoxModel Box) (i : Nat) (w : World Box) (lib : Library) (tenantId : TenantId)
  (deviceId : DeviceId) (templateId : TemplateId) (profileId : ProfileId) (bindings : Dict)
  (scheduledAt : Option Time)

end Main

/-! ### An override that the preview does not show -/

end Opngms
