/-
Opngms/EditorKeys.lean

The keys of a catalog against the ids of its models.

`build_catalog` puts the models of a module that has several of them under
qualified keys and leaves their ids as they are.  The editor reads a model
under its key, and proposes and keeps its state under the id.  So the editor
pushes the model it displays exactly where every key is the id of a model that
shares its id with no other (**`editor_keys_iff`**).
-/
import Mathlib.Data.List.Induction
import Opngms.ConfigApi
import Opngms.Editor

namespace Opngms

/-! ### The catalog -/

/-- The dictionary that `build_catalog` has built after some models. -/
def catalogOf (key : Model → String) (ms : List Model) : Catalog :=
  ms.foldl (fun out m => putEntry out (key m) m) []

theorem catalogOf_eq (key : Model → String) (ms : List Model) :
    catalogOf key ms = entriesOf key id ms := rfl

theorem catalogOf_nodup (key : Model → String) (ms : List Model) :
    ((catalogOf key ms).map (·.1)).Nodup :=
  entriesOf_nodup key id ms

theorem catalogOf_lookup (key : Model → String) (ms : List Model) (k : String) :
    (catalogOf key ms).lookup k = (ms.reverse.find? fun m => key m = k) := by
  rw [catalogOf_eq, lookup_entriesOf, Option.map_id, id]

theorem buildCatalog_eq (models : List Model) :
    buildCatalog models = catalogOf (catalogKey models) (models.insertionSort modelLe) := rfl

/-- The model shares its id with no other. -/
def SoleId (models : List Model) (m : Model) : Prop :=
  (models.filter fun m' => m'.id = m.id).length ≤ 1

instance (models : List Model) (m : Model) : Decidable (SoleId models m) :=
  inferInstanceAs (Decidable (_ ≤ _))

/-- Every key is the id of a model that shares its id with no other. -/
def KeysAreIds (models : List Model) : Prop :=
  ∀ m ∈ models, ∃ m' ∈ models, m'.id = catalogKey models m ∧ SoleId models m'

instance (models : List Model) : Decidable (KeysAreIds models) :=
  inferInstanceAs (Decidable (∀ m ∈ models, ∃ m' ∈ models, _ ∧ _))

theorem catalogKey_sole {models : List Model} {m : Model} (h : SoleId models m) :
    catalogKey models m = m.id := by
  unfold SoleId at h
  rw [catalogKey, if_neg (by omega)]

theorem catalogKey_shared {models : List Model} {m : Model} (h : ¬ SoleId models m) :
    m.id < catalogKey models m := by
  unfold SoleId at h
  rw [catalogKey, if_pos (by omega)]
  show m.id.toList < (m.id ++ "." ++ mountLeaf m.xmlPath).toList
  rw [String.toList_append, String.toList_append, List.append_assoc]
  have hlt : m.id.toList ++ [] < m.id.toList ++ (".".toList ++ (mountLeaf m.xmlPath).toList) :=
    List.append_left_lt (List.nil_lt_cons _ _)
  rwa [List.append_nil] at hlt

theorem lt_of_le_of_ne' {a b : String} (hle : a ≤ b) (hne : a ≠ b) : a < b :=
  String.not_le.mp fun hge => hne (String.le_antisymm hle hge)

instance : Std.Total modelLe where
  total a b := by
    unfold modelLe
    by_cases heq : a.id = b.id
    · rcases String.le_total a.xmlPath b.xmlPath with hle | hle
      · exact .inl (.inr ⟨heq, hle⟩)
      · exact .inr (.inr ⟨heq.symm, hle⟩)
    · rcases String.le_total a.id b.id with hle | hle
      · exact .inl (.inl (lt_of_le_of_ne' hle heq))
      · exact .inr (.inl (lt_of_le_of_ne' hle (Ne.symm heq)))

instance : IsTrans Model modelLe where
  trans a b c hab hbc := by
    unfold modelLe at *
    rcases hab with hab | ⟨hab, hxab⟩
    · rcases hbc with hbc | ⟨hbc, -⟩
      · exact .inl (String.lt_trans hab hbc)
      · exact .inl (hbc ▸ hab)
    · rcases hbc with hbc | ⟨hbc, hxbc⟩
      · exact .inl (hab ▸ hbc)
      · exact .inr ⟨hab.trans hbc, String.le_trans hxab hxbc⟩

theorem mem_buildCatalog {models : List Model} {k : String} {m : Model} :
    (k, m) ∈ buildCatalog models ↔
      ∃ l l', models.insertionSort modelLe = l ++ m :: l' ∧ catalogKey models m = k ∧
        ∀ m' ∈ l', catalogKey models m' ≠ k := by
  rw [buildCatalog_eq, mem_iff_lookup (catalogOf_nodup _ _), catalogOf_lookup,
    List.find?_eq_some_iff_append]
  constructor
  · rintro ⟨hkey, as, bs, hrev, hlast⟩
    refine ⟨bs.reverse, as.reverse, ?_, by simpa using hkey, fun m' hm' => ?_⟩
    · rw [← List.reverse_reverse (models.insertionSort modelLe), hrev]
      simp
    · simpa using hlast m' (List.mem_reverse.mp hm')
  · rintro ⟨l, l', hsorted, hkey, hlast⟩
    refine ⟨by simpa using hkey, l'.reverse, l.reverse, ?_, fun m' hm' => ?_⟩
    · rw [hsorted]
      simp
    · simpa using hlast m' (List.mem_reverse.mp hm')

/-- **The entries of a catalog stand under their own ids exactly if every key
is the id of a model that shares it with no other.** -/
theorem own_ids_iff (models : List Model) :
    (∀ kv ∈ buildCatalog models, kv.2.id = kv.1) ↔ KeysAreIds models := by
  have hmem : ∀ m, m ∈ models.insertionSort modelLe ↔ m ∈ models := fun m =>
    List.mem_insertionSort _
  constructor
  · intro h m hm
    -- the entry under the key of `m`
    have hsome : ((buildCatalog models).lookup (catalogKey models m)).isSome := by
      rw [buildCatalog_eq, catalogOf_lookup, List.find?_isSome]
      exact ⟨m, List.mem_reverse.mpr ((hmem m).mpr hm), by simp⟩
    obtain ⟨m', hm'⟩ := Option.isSome_iff_exists.mp hsome
    have hin := (mem_iff_lookup (by rw [buildCatalog_eq]; exact catalogOf_nodup _ _)).mpr hm'
    have hid : m'.id = catalogKey models m := h _ hin
    obtain ⟨l, l', hsorted, hkey, -⟩ := mem_buildCatalog.mp hin
    refine ⟨m', (hmem m').mp (by rw [hsorted]; simp), hid, ?_⟩
    by_contra hshared
    have hlt := catalogKey_shared hshared
    rw [hkey, ← hid] at hlt
    exact String.lt_irrefl _ hlt
  · rintro h ⟨k, m⟩ hkv
    obtain ⟨l, l', hsorted, hkey, hlast⟩ := mem_buildCatalog.mp hkv
    by_cases hsole : SoleId models m
    · exact (catalogKey_sole hsole).symm.trans hkey
    · exfalso
      obtain ⟨m', hm', hid, hsole'⟩ := h m ((hmem m).mp (by rw [hsorted]; simp))
      have hkey' : catalogKey models m' = k := by
        rw [catalogKey_sole hsole', hid, hkey]
      -- the other model comes behind `m`, where none has this key
      have hin : m' ∈ l ++ m :: l' := by
        rw [← hsorted]
        exact (hmem m').mpr hm'
      have hlt : m.id < m'.id := by
        rw [hid]
        exact catalogKey_shared hsole
      rcases List.mem_append.mp hin with hin | hin
      · have hle : modelLe m' m := by
          have hpair := List.pairwise_insertionSort modelLe models
          rw [hsorted, List.pairwise_append] at hpair
          exact hpair.2.2 m' hin m List.mem_cons_self
        rcases hle with hle | ⟨hle, -⟩
        · exact String.lt_irrefl _ (String.lt_trans hlt hle)
        · rw [hle] at hlt
          exact String.lt_irrefl _ hlt
      · rcases List.mem_cons.mp hin with rfl | hin
        · exact String.lt_irrefl _ hlt
        · exact hlast m' hin hkey'

/-! ### The editor -/

open Editor in
/-- The editor pushes the model it displays, over the catalogs that are built
from `core` and `plugins`. -/
structure PushesWhatItShows (env : Env) (device : Device) (core plugins : Option (List Model)) :
    Prop where
  /-- An entry stands under its own id. -/
  own_id : ∀ models, core = some models ∨ plugins = some models →
    ∀ kv ∈ buildCatalog models, kv.2.id = kv.1
  /-- What the form sends resolves to the entry that was read. -/
  resolves : ∀ key (live : CatalogModelLive) (form : Form),
    catalogModel env device key = some live.model →
      catalogModel env device (form.build live).modelId = some live.model
  /-- Two selected models have forms of their own. -/
  apart : ∀ key key' (live live' : CatalogModelLive), key ≠ key' →
    catalogModel env device key = some live.model →
      catalogModel env device key' = some live'.model →
        (Form.mount live).key ≠ (Form.mount live').key

/-- **The editor pushes the model it displays exactly if every key of its
catalogs is the id of a model that shares it with no other.** -/
theorem editor_keys_iff (env : Env) (device : Device) (core plugins : Option (List Model))
    (hcore : env.coreCatalog device = core.map buildCatalog)
    (hplugins : env.pluginsCatalog device = plugins.map buildCatalog) :
    PushesWhatItShows env device core plugins ↔
      ∀ models, core = some models ∨ plugins = some models → KeysAreIds models := by
  constructor
  · intro h models hmodels
    exact (own_ids_iff models).mp (h.own_id models hmodels)
  · intro h
    have hown : ∀ models, core = some models ∨ plugins = some models →
        ∀ kv ∈ buildCatalog models, kv.2.id = kv.1 := fun models hmodels =>
      (own_ids_iff models).mpr (h models hmodels)
    -- what is read under a key has the key as its id
    have hentry : ∀ key m, catalogModel env device key = some m → m.id = key := by
      have hone : ∀ (c : Option (List Model)) key m, (∀ models, c = some models →
          core = some models ∨ plugins = some models) →
          ((c.map buildCatalog).getD []).lookup key = some m → m.id = key := by
        intro c key m hc hlookup
        cases c with
        | none => cases hlookup
        | some models =>
          exact hown models (hc models rfl) (key, m)
            ((mem_iff_lookup (catalogOf_nodup _ _)).mpr hlookup)
      intro key m hread
      rw [catalogModel, hcore, hplugins] at hread
      split at hread
      · rename_i m' hm'
        rw [← Option.some.inj hread]
        exact hone core key m' (fun _ hc => .inl hc) hm'
      · exact hone plugins key m (fun _ hc => .inr hc) hread
    constructor
    · exact hown
    · intro key live form hread
      show catalogModel env device live.model.id = some live.model
      rw [hentry key live.model hread]
      exact hread
    · intro key key' live live' hne hread hread' hkey
      apply hne
      rw [← hentry key live.model hread, ← hentry key' live'.model hread']
      exact hkey

/-- Models of OpenVPN, as the catalog has them, and one of another module. -/
def openvpnModels : List Model :=
  [⟨"openvpn", "openvpn", "OPNsense/OpenVPN/Instances", [], [], []⟩,
    ⟨"openvpn", "openvpn", "OPNsense/OpenVPN/StaticKey", [], [], []⟩]

def unboundModels : List Model := [⟨"unbound", "unbound", "OPNsense/unboundplus", [], [], []⟩]

/-- Every device has the catalog of these models, and no plugins. -/
def modelsEnv (models : List Model) : Env :=
  { Env.ofDocuments [] [] with
    coreCatalog := fun _ => some (buildCatalog models), pluginsCatalog := fun _ => none }

def anyDevice : Device := ⟨0, none, true⟩

/-- A catalog without shared ids. -/
theorem unbound_keys :
    PushesWhatItShows (modelsEnv unboundModels) anyDevice (some unboundModels) none := by
  rw [editor_keys_iff _ _ _ _ rfl rfl]
  intro models hmodels
  rcases hmodels with h | h
  · cases h
    decide +kernel
  · cases h

/-- The editor reads `openvpn.instances`, and proposes for an unknown model. -/
theorem openvpn_not_pushed :
    ¬ PushesWhatItShows (modelsEnv openvpnModels) anyDevice (some openvpnModels) none := by
  intro h
  have hmem : ("openvpn.instances", ⟨"openvpn", "openvpn", "OPNsense/OpenVPN/Instances", [], [], []⟩) ∈
      buildCatalog openvpnModels := by decide +kernel
  exact absurd (h.own_id _ (.inl rfl) _ hmem) (by decide)

end Opngms
