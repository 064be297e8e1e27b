/-
Opngms/MonitServices.lean

A box with its Monit services, and the test that is attached to one (`_attach_test_to_system` in
`app/connectors/opnsense/client.py`).

A `ServiceBox` is a box that carries out every request.  Beside its rows it has services; a
service shows, of the tests it has selected, those that are rows, and is written with a joined
list of tests.

**`play_attach`**: with one system service, a test is attached to it; **`attach_attach`**: a test
that was attached is not attached again.
-/
import Opngms.PolicyBodies

namespace Opngms

open Appliance Dialogue

/-- A Monit service with the uuids of the tests it has selected. -/
structure MonitService where
  uuid : String
  type : String
  tests : List String

/-- A box with its Monit services. -/
structure ServiceBox (A : Appliance) where
  config : Configuration A
  services : List MonitService
  distinct : (services.map MonitService.uuid).Nodup

variable {A : Appliance}

namespace MonitService

def rowDict (s : MonitService) : Dict := [("uuid", .str s.uuid), ("type", .str s.type)]

def isSystem (s : MonitService) : Bool := decide (Json.lower s.type = "system")

/-- The `tests` option map: every test of the box, with whether it is selected. -/
def options (S : Configuration A) (s : MonitService) : Dict :=
  (S.store.rows.filter fun r => r.table = "test").map fun r =>
    (r.uuid, .obj [("value", .str ((r.fields.lookup "name").getD "")),
      ("selected", .int (if r.uuid ∈ s.tests then 1 else 0))])

/-- The selected tests that are rows of the box. -/
def shown (S : Configuration A) (s : MonitService) : List String :=
  ((S.store.rows.filter fun r => r.table = "test").map Row.uuid).filter (· ∈ s.tests)

end MonitService

namespace ServiceBox

def system (B : ServiceBox A) : List MonitService := B.services.filter MonitService.isSystem

/-- A service written with a joined list of tests. -/
def setTests (B : ServiceBox A) (uuid joined : String) : ServiceBox A where
  config := B.config
  services := B.services.map fun s =>
    if s.uuid = uuid then { s with tests := splitCommas joined } else s
  distinct := by
    rw [List.map_map]
    refine (congrArg List.Nodup (List.map_congr_left fun s _ => ?_)).mpr B.distinct
    rw [Function.comp_apply]
    split <;> rfl

/-- How the box answers and what it does. -/
def reply (B : ServiceBox A) : Request → Reply × ServiceBox A
  | .serviceSearch => (.ok (.obj [("rows", .arr (B.services.map fun s => .obj s.rowDict))]), B)
  | .serviceGet u =>
    match B.services.find? fun s => s.uuid = u with
    | some s => (.ok (.obj [("service", .obj [("tests", .obj (s.options B.config))])]), B)
    | none => (.ok (.arr []), B)
  | .serviceSet u tests =>
    if B.services.any fun s => s.uuid = u then (.ok saved, B.setTests u tests) else (.ok failed, B)
  | r => ((respond B.config r).1, { B with config := (respond B.config r).2 })

def serve (B : ServiceBox A) (r : Request) : Option (Answer × ServiceBox A) :=
  some (received (B.reply r).1, (B.reply r).2)

theorem play_post (B : ServiceBox A) (r : Request) :
    (post r).play serve B = some (received (B.reply r).1, (B.reply r).2) := by
  rw [post, Dialogue.play, serve, Option.bind_some]
  cases (B.reply r).1 <;> rfl

theorem play_post_ok {B B' : ServiceBox A} {r : Request} {j : Json} (h : B.reply r = (.ok j, B')) :
    (post r).play serve B = some (.ok j, B') := by
  rw [play_post, h]
  rfl

/-! ### Attaching a test -/

/-- The box after a test is attached to its system service. -/
def attach (B : ServiceBox A) (u : String) : ServiceBox A :=
  match B.system with
  | [s] =>
    if u ∈ s.shown B.config then B
    else B.setTests s.uuid (",".intercalate (s.shown B.config ++ [u]))
  | _ => B

theorem selectedTests_options (S : Configuration A) (s : MonitService) :
    selectedTests (s.options S) = s.shown S := by
  have htext : ∀ r : Row String String Fields, (Json.int (if r.uuid ∈ s.tests then 1 else 0)).pyStr =
      if r.uuid ∈ s.tests then "1" else "0" := by
    intro r
    split <;> rfl
  rw [selectedTests, MonitService.options, List.filter_map, List.map_map, MonitService.shown,
    List.filter_map]
  refine congrArg (List.map Row.uuid) (List.filter_congr fun r _ => ?_)
  show decide ((Json.int (if r.uuid ∈ s.tests then 1 else 0)).pyStr = "1" ∨
    (Json.int (if r.uuid ∈ s.tests then 1 else 0)).pyStr = "True") = decide (r.uuid ∈ s.tests)
  rw [htext]
  split <;> simp [*]

theorem strings_append (ss : List String) (u : String) :
    Json.strings (ss.map Json.str ++ [.str u]) = .ok (ss ++ [u]) := by
  rw [← List.map_singleton, ← List.map_append]
  exact strings_map _

theorem attachedTests_service (S : Configuration A) (s : MonitService) (u : String) :
    attachedTests (.str u) (.obj [("service", .obj [("tests", .obj (s.options S))])]) =
      .ok (if u ∈ s.shown S then none else some (",".intercalate (s.shown S ++ [u]))) := by
  have hmem : ((s.shown S).map Json.str).contains (.str u) = decide (u ∈ s.shown S) := by
    rw [Bool.eq_iff_iff]
    simp
  show (if ((selectedTests (s.options S)).map Json.str).contains (.str u) then _ else _) = _
  rw [selectedTests_options, hmem]
  by_cases hu : u ∈ s.shown S
  · rw [if_pos (decide_eq_true hu), if_pos hu]
    rfl
  · rw [if_neg (by simpa using hu), if_neg hu, strings_append]
    rfl

theorem mem_system {B : ServiceBox A} {s : MonitService} (h : B.system = [s]) :
    s ∈ B.services ∧ s.isSystem = true := by
  have hs : s ∈ B.system := by rw [h]; exact List.mem_singleton_self s
  exact List.mem_filter.mp hs

theorem find_service {B : ServiceBox A} {s : MonitService} (h : s ∈ B.services) :
    (B.services.find? fun s' => s'.uuid = s.uuid) = some s := by
  have hsome : (B.services.find? fun s' => s'.uuid = s.uuid).isSome = true :=
    List.find?_isSome.mpr ⟨s, h, by simp⟩
  obtain ⟨s', hs'⟩ := Option.isSome_iff_exists.mp hsome
  have huuid : s'.uuid = s.uuid := by simpa using List.find?_some hs'
  rw [hs', List.inj_on_of_nodup_map B.distinct (List.mem_of_find?_eq_some hs') h huuid]

theorem systemServiceUuid_rows {B : ServiceBox A} {s : MonitService} (h : B.system = [s]) :
    systemServiceUuid (.obj [("rows", .arr (B.services.map fun s => .obj s.rowDict))]) =
      .ok (.str s.uuid) := by
  have hrows : matchingRows (fun r => decide (Json.lower (Dict.getD r "type" (.str "")).pyStr = "system"))
      (.obj [("rows", .arr (B.services.map fun s => .obj s.rowDict))]) =
      .ok (B.system.map MonitService.rowDict) :=
    filterRows_map _ MonitService.rowDict B.services
  rw [systemServiceUuid, hrows, h]
  rfl

/-- **A test is attached to the one system service.** -/
theorem play_attach {B : ServiceBox A} {s : MonitService} (h : B.system = [s]) (u : String) :
    (attachTestToSystem (.str u)).play serve B = some (.ok (), B.attach u) := by
  obtain ⟨hs, -⟩ := mem_system h
  have hget : B.reply (.serviceGet s.uuid) =
      (.ok (.obj [("service", .obj [("tests", .obj (s.options B.config))])]), B) := by
    rw [reply, find_service hs]
  have hset : ∀ tests, B.reply (.serviceSet s.uuid tests) = (.ok saved, B.setTests s.uuid tests) :=
    fun tests => if_pos (List.any_eq_true.mpr ⟨s, hs, by simp⟩)
  unfold attachTestToSystem
  refine (play_bind_ok (play_post_ok (r := .serviceSearch) rfl)).trans ?_
  rw [systemServiceUuid_rows h]
  refine (play_bind_ok (play_post_ok hget)).trans ?_
  rw [attachedTests_service, attach, h]
  dsimp only
  split
  · rfl
  · exact play_bind_ok (play_post_ok (hset _))

theorem system_setTests {B : ServiceBox A} {s : MonitService} (h : B.system = [s]) (joined : String) :
    (B.setTests s.uuid joined).system = [{ s with tests := splitCommas joined }] := by
  have htype : (MonitService.isSystem ∘ fun s' : MonitService =>
      if s'.uuid = s.uuid then { s' with tests := splitCommas joined } else s') =
      MonitService.isSystem := by
    funext s'
    rw [Function.comp_apply]
    split <;> rfl
  show (B.services.map _).filter _ = _
  rw [List.filter_map, htype]
  show B.system.map _ = _
  rw [h, List.map_singleton, if_pos rfl]

theorem attach_of_system {B : ServiceBox A} {s : MonitService} (h : B.system = [s]) (u : String) :
    B.attach u = if u ∈ s.shown B.config then B
      else B.setTests s.uuid (",".intercalate (s.shown B.config ++ [u])) := by
  rw [attach, h]

theorem not_mem_comma_of_shown {S : Configuration A} {s : MonitService} :
    ∀ t ∈ s.shown S, ',' ∉ t.toList := by
  intro t ht
  obtain ⟨r, hr, rfl⟩ := List.mem_map.mp (List.mem_filter.mp ht).1
  exact not_mem_comma_of_safeName (S.safe r (List.mem_filter.mp hr).1)

/-- **A test of the box that was attached to the system service is not attached again.** -/
theorem attach_attach {B : ServiceBox A} {s : MonitService} (h : B.system = [s]) {u : String}
    (hu : B.config.store.has "test" u = true) : (B.attach u).attach u = B.attach u := by
  rw [attach_of_system h]
  split
  · rename_i hin
    rw [attach_of_system h, if_pos hin]
  · rw [attach_of_system (system_setTests h _)]
    refine if_pos ?_
    obtain ⟨r, hr, his⟩ := List.any_eq_true.mp hu
    obtain ⟨ht, rfl⟩ := Row.is_iff.mp his
    -- the joined uuids fall apart again, as none has a comma
    have hplain : ∀ t ∈ s.shown B.config ++ [r.uuid], ',' ∉ t.toList := by
      intro t ht'
      rcases List.mem_append.mp ht' with hshown | hlast
      · exact not_mem_comma_of_shown t hshown
      · rw [List.mem_singleton.mp hlast]
        exact not_mem_comma_of_safeName (B.config.safe r hr)
    rw [splitCommas_joined hplain (by simp)]
    have hrow : r.uuid ∈ (B.config.store.rows.filter fun r => r.table = "test").map Row.uuid :=
      List.mem_map.mpr ⟨r, List.mem_filter.mpr ⟨hr, by simpa using ht⟩, rfl⟩
    exact List.mem_filter.mpr ⟨hrow, by simp⟩

theorem system_attach {B : ServiceBox A} {s : MonitService} (h : B.system = [s]) (u : String) :
    ∃ s', (B.attach u).system = [s'] := by
  rw [attach_of_system h]
  split
  · exact ⟨s, h⟩
  · exact ⟨_, system_setTests h _⟩

@[simp] theorem attach_config (B : ServiceBox A) (u : String) : (B.attach u).config = B.config := by
  unfold attach
  split
  · split <;> rfl
  · rfl

end ServiceBox

end Opngms
