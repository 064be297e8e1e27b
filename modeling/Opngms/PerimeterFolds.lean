/-
Opngms/PerimeterFolds.lean

What the rows of the perimeter rollup are after any number of ingests, one after
another.

A row says how often its address was seen and when last; that it also says when
the address was seen first is due to the cursor.  An upsert leaves `first_seen`
as it is, and rows are taken only if they are newer than the cursor of their
kind, which is the newest time accepted for the kind, of whatever address.  So
no row that is taken is older than one that was counted before (`Folded`), and
each row is the fold of what was accepted for its key (**`rollup_folds`**).
-/
import Opngms.Perimeter

namespace Opngms

namespace Perimeter

open Ingest (newerThan Reached newerThan_iff)

/-! ### The fold -/

/-- The row counts the observations and has the times of the oldest and of the
newest. -/
def AttackerRow.Folds (seen : List Seen) (r : AttackerRow) : Prop :=
  r.count = seen.length ∧ (seen.map (·.time)).min? = some r.firstSeen ∧
    (seen.map (·.time)).max? = some r.lastSeen

theorem min?_oldest {group : List Seen} (h : group ≠ []) :
    (group.map (·.time)).min? = some (oldest group) := by
  have hne : group.map (·.time) ≠ [] := by simpa using h
  obtain ⟨m, hm⟩ := Option.isSome_iff_exists.mp (List.isSome_min?_iff.mpr hne)
  rw [oldest, hm, Option.getD_some]

theorem min?_append {seen group : List Seen} {t : Time}
    (h : (seen.map (·.time)).min? = some t) (hlater : ∀ a ∈ group, t ≤ a.time) :
    ((seen ++ group).map (·.time)).min? = some t := by
  obtain ⟨hmem, hle⟩ := List.min?_eq_some_iff.mp h
  rw [List.map_append, List.min?_eq_some_iff]
  refine ⟨List.mem_append_left _ hmem, fun b hb => ?_⟩
  rcases List.mem_append.mp hb with hb | hb
  · exact hle b hb
  · obtain ⟨a, ha, rfl⟩ := List.mem_map.mp hb
    exact hlater a ha

theorem max?_append {seen group : List Seen} (hne : group ≠ [])
    (hlater : ∀ a ∈ seen, ∀ b ∈ group, a.time ≤ b.time) :
    ((seen ++ group).map (·.time)).max? = some (newest group) := by
  obtain ⟨b, hb, hnewest⟩ := newest_mem hne
  rw [List.max?_eq_some_iff]
  refine ⟨List.mem_map.mpr ⟨b, List.mem_append_right _ hb, hnewest⟩, fun t ht => ?_⟩
  obtain ⟨a, ha, rfl⟩ := List.mem_map.mp ht
  rcases List.mem_append.mp ha with ha | ha
  · rw [← hnewest]
    exact hlater a ha b hb
  · exact le_newest ha

/-! ### Every ingest keeps it -/

section Runs

variable (devices : DeviceId → Device)

/-- The rows are summaries, each with its first time, and the cursor of a kind is
the newest time accepted for the kind. -/
structure Folded (h : History) : Prop where
  summarised : Summarised devices h
  first : ∀ key r, h.db.table.find key = some r →
    ((seenFor h.accepted key).map (·.time)).min? = some r.firstSeen
  cursor : ∀ d kind, h.db.cursors d kind = ((h.accepted d kind).map (·.time)).max?

variable {devices} {h : History}

theorem Folded.newer (hf : Folded devices h) {d : DeviceId} {kind : Kind} {t : Time}
    (hnew : newerThan (h.db.cursors d kind) t = true) {a : Seen} (ha : a ∈ h.accepted d kind) :
    a.time < t := by
  have hmem : a.time ∈ (h.accepted d kind).map (·.time) := List.mem_map_of_mem ha
  obtain ⟨c, hc⟩ := Option.isSome_iff_exists.mp
    (List.isSome_max?_iff.mpr (List.ne_nil_of_mem hmem))
  have hlt := newerThan_iff.mp hnew c ((hf.cursor d kind).trans hc)
  exact ((List.max?_eq_some_iff.mp hc).2 _ hmem).trans_lt hlt

theorem Folded.ingestKind (hf : Folded devices h) (deviceId : DeviceId) (kind : Kind)
    (fetched : List Seen) : Folded devices (h.ingestKind devices deviceId kind fetched) where
  summarised := hf.summarised.ingestKind deviceId kind fetched
  first key r hr := by
    obtain ⟨group, hseen, hnew, hfind⟩ := h.ingestKind_key devices deviceId kind fetched key
    rw [hfind] at hr
    rw [hseen]
    split_ifs at hr with hnil
    · rw [hnil, List.append_nil]
      exact hf.first key r hr
    · obtain rfl := Option.some.inj hr
      have hsum := hf.summarised key
      cases hold : h.db.table.find key with
      | none =>
        rw [hold] at hsum
        rw [show seenFor h.accepted key = [] from hsum, List.nil_append]
        exact min?_oldest hnil
      | some old =>
        have hfirst := hf.first key old hold
        apply min?_append hfirst
        intro a ha
        -- the first time is an accepted time of the kind, and so below the cursor
        obtain ⟨b, hb, htime⟩ := List.mem_map.mp (List.min?_eq_some_iff.mp hfirst).1
        show old.firstSeen ≤ a.time
        rw [← htime]
        exact (hf.newer (hnew a ha) (List.mem_filter.mp hb).1).le
  cursor d k := by
    rw [h.ingestKind_cursor, h.ingestKind_accepted]
    by_cases hkey : d = deviceId ∧ k = kind
    · obtain ⟨rfl, rfl⟩ := hkey
      rw [if_pos (And.intro rfl rfl)]
      by_cases hrows : accept (h.db.cursors d k) fetched = []
      · rw [if_neg fun hne => hne.2.2 hrows, hrows, List.append_nil]
        exact hf.cursor d k
      · rw [if_pos ⟨rfl, rfl, hrows⟩]
        refine (max?_append hrows fun a ha b hb => ?_).symm
        exact (hf.newer (List.mem_filter.mp hb).2 ha).le
    · rw [if_neg fun h => hkey ⟨h.1, h.2.1⟩, if_neg hkey]
      exact hf.cursor d k

theorem folded_history (es : List Ingestion) : Folded devices (history devices es) := by
  have hfold : ∀ h, Folded devices h → Folded devices (es.foldl (History.ingest devices) h) := by
    induction es with
    | nil => exact fun _ hf => hf
    | cons e es ih =>
      exact fun h hf =>
        ih _ (History.ingest_invariant (fun _ d k rows hf => hf.ingestKind d k rows) hf e)
  exact hfold _ ⟨fun _ => rfl, fun _ _ h => (nomatch h), fun _ _ => rfl⟩

theorem accepted_grows (h : History) (e : Ingestion) (d : DeviceId) (kind : Kind) :
    h.accepted d kind <+: (h.ingest devices e).accepted d kind := by
  refine History.ingest_invariant (P := fun h' => h.accepted d kind <+: h'.accepted d kind)
    (fun h' deviceId k rows hp => hp.trans ?_) (List.prefix_refl _) e
  rw [h'.ingestKind_accepted]
  split_ifs
  · exact List.prefix_append _ _
  · exact List.prefix_refl _

variable (devices)

/-- **After any ingests, each row is the fold of what was accepted for its key**,
each cursor is the newest time accepted for its kind, and the next ingest moves
no cursor back. -/
theorem rollup_folds (es : List Ingestion) :
    (∀ r ∈ (history devices es).db.table.rows,
      r.Folds (seenFor (history devices es).accepted r.key)) ∧
    (∀ key, (history devices es).db.table.find key = none ↔
      seenFor (history devices es).accepted key = []) ∧
    (∀ d kind, (history devices es).db.cursors d kind =
      (((history devices es).accepted d kind).map (·.time)).max?) ∧
    ∀ e d kind t, Reached ((history devices es).db.cursors d kind) t →
      Reached ((history devices (es ++ [e])).db.cursors d kind) t := by
  have hf := @folded_history devices es
  refine ⟨fun r hr => ?_, fun key => ?_, hf.cursor, fun e d kind t ht => ?_⟩
  · have hfind : (history devices es).db.table.find r.key = some r :=
      AttackerTable.find_eq_some.mpr ⟨hr, rfl⟩
    have hsum := hf.summarised r.key
    rw [hfind] at hsum
    obtain ⟨-, hcount, ⟨a, ha, hlast⟩, hle⟩ := hsum
    refine ⟨hcount, hf.first _ r hfind, List.max?_eq_some_iff.mpr ⟨?_, fun t ht => ?_⟩⟩
    · exact List.mem_map.mpr ⟨a, ha, hlast⟩
    · obtain ⟨b, hb, rfl⟩ := List.mem_map.mp ht
      exact hle b hb
  · have hsum := hf.summarised key
    cases hfind : (history devices es).db.table.find key with
    | none =>
      rw [hfind] at hsum
      exact iff_of_true rfl hsum
    | some r =>
      rw [hfind] at hsum
      obtain ⟨-, -, ⟨a, ha, -⟩, -⟩ := hsum
      exact iff_of_false nofun (List.ne_nil_of_mem ha)
  · obtain ⟨c, hc, htc⟩ := ht
    have hlater : history devices (es ++ [e]) = (history devices es).ingest devices e := by
      rw [history, List.foldl_append]
      rfl
    rw [hf.cursor] at hc
    have hmem := (List.max?_eq_some_iff.mp hc).1
    obtain ⟨a, ha, rfl⟩ := List.mem_map.mp hmem
    have ha' : a ∈ (history devices (es ++ [e])).accepted d kind := by
      rw [hlater]
      exact (accepted_grows _ e d kind).subset ha
    have hmem' : a.time ∈ ((history devices (es ++ [e])).accepted d kind).map (·.time) :=
      List.mem_map_of_mem ha'
    obtain ⟨c', hc'⟩ := Option.isSome_iff_exists.mp
      (List.isSome_max?_iff.mpr (List.ne_nil_of_mem hmem'))
    refine ⟨c', (folded_history _).cursor d kind |>.trans hc', htc.trans ?_⟩
    exact (List.max?_eq_some_iff.mp hc').2 _ hmem'

end Runs

end Perimeter

end Opngms
