/-
Opngms/Stranded.lean

Appliers that change the box and then raise what nobody catches.

`apply_change` catches `OpnsenseError` and `UnknownChangeKindError`.  An
applier that sends a mutating request and afterwards raises a built-in
exception ends the job, and the job's transaction is rolled back: the box is
changed, the row is still scheduled and the snapshot is gone.

Five of the seven appliers raise built-in exceptions before their first
mutation only.  The other two do not:

* `monit_test` reads the answers to `addTest`, `searchService` and
  `getService` without checking their shape;
* `catalog_setting` takes its operations one by one from the payload, and a
  malformed one raises when its turn comes.

`Uncaught` says when this happens, in terms of the payload and of the box's
answers.  Main result: **`caught_iff`**.
-/
import Opngms.ConfigPush
import Opngms.Guard

namespace Opngms

open Dialogue

/-! ### What is on the wire -/

abbrev Wire := List (Request × Answer)

def Wire.Mutated (t : Wire) : Prop := ∃ x ∈ t, x.1.mutating = true

def wireOf (t : List (Exchange Request fun _ => Answer)) : Wire := t.map fun x => (x.1, x.2)

/-- The outcome is a value or one of the exceptions that `apply_change`
catches. -/
def Caught {α : Type} (z : Except Raised α) : Prop :=
  ∀ e, z = .error e → (applyFailure e).isSome = true

@[simp] theorem applyFailure_builtin (e : BuiltinError) : applyFailure (.builtin e) = none := rfl

def Wire.Decoded (t : Wire) : Prop := ∀ x ∈ t, ∀ e, x.2 = .error e → (applyFailure e).isSome = true

theorem Wire.Decoded.last {t : Wire} {r : Request} {e : Raised}
    (h : Wire.Decoded (t ++ [(r, .error e)])) : (applyFailure e).isSome = true :=
  h _ (List.mem_append_right _ (List.mem_singleton.mpr rfl)) e rfl

@[simp] theorem applyFailure_opnsense (e : OpnsenseError) :
    (applyFailure (.opnsense e)).isSome = true := rfl

/-- The discipline that forbids nothing and records the wire. -/
def recording : Discipline Request (fun _ => Answer) Wire where
  allows _ _ := True
  next h r a := h ++ [(r, a)]

theorem recording_after (h : Wire) (t : List (Exchange Request fun _ => Answer)) :
    recording.after h t = h ++ wireOf t := by
  induction t generalizing h with
  | nil => simp [Discipline.after, wireOf]
  | cons x t ih =>
    rw [Discipline.after, ih]
    simp [recording, wireOf]

/-! ### One request -/

section Steps

variable {α β : Type} {h : Wire} {Z : Wire → Except Raised α → Prop}

theorem follows_post {r : Request} {f : Json → Client α}
    (herr : ∀ e, Z (h ++ [(r, .error e)]) (.error e))
    (hok : ∀ j, Follows recording Z (h ++ [(r, .ok j)]) (f j)) :
    Follows recording Z h ((post r).bind f) := by
  refine ⟨trivial, fun a _ => ?_⟩
  cases a with
  | error e => exact herr e
  | ok j => exact hok j

theorem follows_raiseOnFailed {res : Json} {what : String} {f : Unit → Client α}
    (hrej : rejected res = true → ∀ e, Z h (.error (.opnsense e)))
    (hok : rejected res = false → Follows recording Z h (f ())) :
    Follows recording Z h ((raiseOnFailed res what).bind f) := by
  unfold raiseOnFailed
  by_cases hr : rejected res = true
  · rw [if_pos hr]
    exact hrej hr _
  · rw [if_neg hr]
    exact hok (by simpa using hr)

theorem builtin_eq (e : Except BuiltinError β) :
    builtin e = Dialogue.ofExcept (e.mapError Raised.builtin) := by
  cases e <;> rfl

theorem follows_ofExcept_bind {e : Except Raised β} {f : β → Client α}
    (herr : ∀ x, e = .error x → Z h (.error x))
    (hok : ∀ a, e = .ok a → Follows recording Z h (f a)) :
    Follows recording Z h ((Dialogue.ofExcept e).bind f) := by
  cases e with
  | error x => exact herr x rfl
  | ok a => exact hok a rfl

end Steps

/-! ### Appliers that settle -/

/-- Once a mutating request was sent, the program ends caught. -/
abbrev Settles {α : Type} (h : Wire) (p : Client α) : Prop :=
  Follows recording (fun h z => h.Mutated → h.Decoded → Caught z) h p

/-- The program sends no mutating request. -/
abbrev Reads {α : Type} (h : Wire) (p : Client α) : Prop :=
  Follows recording (fun h _ => ¬ h.Mutated) h p

@[simp] theorem not_mutated_nil : ¬ Wire.Mutated [] := by simp [Wire.Mutated]

section Settling

variable {α β : Type} {h : Wire}

theorem Reads.settles {p : Client α} {f : α → Client β} (hp : Reads h p)
    (hf : ∀ a h, ¬ h.Mutated → Settles h (f a)) : Settles h (p.bind f) :=
  Follows.bind hp (fun h a hh => hf a h hh) fun _ _ hh hm => absurd hm hh

end Settling

theorem silent_uniqueUuid (what : String) (ambiguous : Nat → String) (ms : List Dict) :
    Silent (uniqueUuid what ambiguous ms) := by
  unfold uniqueUuid
  split
  · exact silent_pure _
  · dsimp only
    split
    · exact silent_pure _
    · exact silent_refuse _
  · exact silent_refuse _

/-- A policy lists rulesets: their uuids are looked up. -/
def listsRulesets (payload : Dict) : Bool :=
  ((Dict.getD payload "rulesets" (.arr [])).orElse (.arr [])).truthy

theorem serializePolicy_cases (payload : Dict) :
    (listsRulesets payload = false ∧ Silent (serializePolicy payload)) ∨
    (listsRulesets payload = true ∧
      ∃ f : Json → Client Dict, (∀ j, Silent (f j)) ∧
        serializePolicy payload = (post .policyGet).bind f) := by
  have hrest : ∀ rulesets, Silent ((builtin ((Dict.getD payload "content" (.obj [])).orElse
      (.obj [])).items).bind fun content => (builtin (allContentTokens content)).bind
      fun tokens => (builtin (do Json.strings (← ((Dict.getD payload "action" (.arr [])).orElse
        (.arr [])).iterate))).bind fun as => Dialogue.pure
        ([("enabled", .str (Dict.getD payload "enabled" (.str "1")).pyStr),
          ("prio", .str (Dict.getD payload "prio" (.str "0")).pyStr),
          ("action", .str (",".intercalate as)),
          ("rulesets", .str (",".intercalate rulesets)),
          ("content", .str (",".intercalate tokens)),
          ("new_action", .str (Dict.getD payload "new_action" (.str "alert")).pyStr),
          ("description", .str (recordDescription payload))] : Dict)) :=
    fun rulesets => (silent_builtin _).bind fun _ => (silent_builtin _).bind fun _ =>
      (silent_builtin _).bind fun _ => silent_pure _
  have hshape : serializePolicy payload = (resolveRulesetFileUuids
      ((Dict.getD payload "rulesets" (.arr [])).orElse (.arr []))).bind _ := rfl
  rw [hshape, resolveRulesetFileUuids]
  cases ht : ((Dict.getD payload "rulesets" (.arr [])).orElse (.arr [])).truthy with
  | false => exact .inl ⟨ht, hrest []⟩
  | true =>
    refine .inr ⟨ht, _, fun j => ?_, Dialogue.bind_assoc _ _ _⟩
    refine Silent.bind ?_ hrest
    exact (silent_builtin _).bind fun _ => (silent_builtin _).bind fun _ => silent_ofExcept _

/-- The uuid that the applier takes a written test to have. -/
def Wire.Written (t : Wire) (uuid : Json) : Prop :=
  (∃ test res, (.testAdd test, .ok res) ∈ t ∧ writtenTestUuid none res = .ok uuid) ∨
  (∃ u test res, (.testSet u test, .ok res) ∈ t ∧ uuid = .str u)

/-- The answers the applier of `monit_test` cannot read: one to `addTest` that
is not an object, one to `searchService` without the rows or the uuid it looks
for, one to `getService` without the map of tests (or a uuid to be listed there
that is not a string). -/
def MonitStrands (t : Wire) : Prop :=
  (∃ test res e, (.testAdd test, .ok res) ∈ t ∧ writtenTestUuid none res = .error e) ∨
  (∃ data e, (.serviceSearch, .ok data) ∈ t ∧ systemServiceUuid data = .error e ∧
    applyFailure e = none) ∨
  (∃ uuid sid svc e, t.Written uuid ∧ (.serviceGet sid, .ok svc) ∈ t ∧
    attachedTests uuid svc = .error e ∧ applyFailure e = none)

/-- The wire holds searches for the test only. -/
def Wire.Searched (t : Wire) : Prop := ∀ x ∈ t, ∃ n, x.1 = .testSearch n

theorem Wire.Searched.not_mem {t : Wire} (h : t.Searched) {r : Request} {a : Answer}
    (hr : ∀ n, r ≠ .testSearch n) : (r, a) ∉ t := fun hx =>
  (h (r, a) hx).elim fun n hn => hr n hn

/-- A test was written under `uuid`, and nothing else is known to be wrong. -/
structure Wire.Wrote (t : Wire) (uuid : Json) : Prop where
  written : ∀ u, t.Written u ↔ u = uuid
  readable : ∀ test res e, (.testAdd test, .ok res) ∈ t → writtenTestUuid none res ≠ .error e

def writeTest (u : Option String) (d : Dict) : Request :=
  upsert u (.testAdd d) fun uuid => .testSet uuid d

theorem Wire.Searched.wrote {h : Wire} (hh : h.Searched) {u : Option String} {res tu : Json}
    (hu : writtenTestUuid u res = .ok tu) (d : Dict) :
    Wire.Wrote (h ++ [(writeTest u d, .ok res)]) tu := by
  have hadd : ∀ test a, (Request.testAdd test, a) ∉ h := fun _ _ => hh.not_mem nofun
  have hset : ∀ u test a, (Request.testSet u test, a) ∉ h := fun _ _ _ => hh.not_mem nofun
  cases u with
  | none =>
    constructor
    · simp [Wire.Written, writeTest, upsert, hadd, hset, hu, eq_comm]
    · intro test res' e hx
      obtain ⟨-, rfl⟩ : test = d ∧ res' = res := by simpa [writeTest, upsert, hadd] using hx
      simp [hu]
  | some u =>
    obtain rfl : Json.str u = tu := Except.ok.inj hu
    constructor
    · simp [Wire.Written, writeTest, upsert, hadd, hset]
    · simp [writeTest, upsert, hadd]

theorem Wire.Wrote.append {t : Wire} {uuid : Json} (h : t.Wrote uuid) {r : Request} (a : Answer)
    (hadd : ∀ test, r ≠ .testAdd test) (hset : ∀ u test, r ≠ .testSet u test) :
    Wire.Wrote (t ++ [(r, a)]) uuid := by
  have hadd' : ∀ test, Request.testAdd test ≠ r := fun test => (hadd test).symm
  have hset' : ∀ u test, Request.testSet u test ≠ r := fun u test => (hset u test).symm
  constructor
  · intro u
    rw [← h.written u]
    simp [Wire.Written, hadd', hset']
  · intro test res e hx
    refine h.readable test res e ?_
    simpa [hadd'] using hx

/-- The request for the scalars of a payload. -/
def scalarsRequest (payload : Dict) (scalars : Json) : Except Raised Request := do
  let setPath ← (Dict.item payload "set_path").mapError Raised.builtin
  let reconfigurePath ← (Dict.item payload "reconfigure_path").mapError Raised.builtin
  let modelRoot ← (Dict.item payload "model_root").mapError Raised.builtin
  settingRequest setPath reconfigurePath modelRoot scalars false

def gridStep (g : Json) : Except Raised Request := do
  let a ← (gridArgs g).mapError Raised.builtin
  gridRequest a.op a.endpoints a.row a.uuid a.item

def reloadRequest (payload : Dict) : Except Raised Request := do
  let path ← (Dict.item payload "reconfigure_path").mapError Raised.builtin
  let path ← safeEndpoint path
  return .modelReconfigure path

def gridsPlan (grids : Json) : List (Except Raised Request) :=
  match grids.iterate with
  | .error e => [.error (.builtin e)]
  | .ok ops => ops.map gridStep

/-- The requests a `catalog_setting` payload describes, in order; one that
cannot be made is the exception its turn raises. -/
def catalogPlan (payload : Dict) : List (Except Raised Request) :=
  let scalars := (Dict.getD payload "scalars" .null).orElse (.obj [])
  let grids := (Dict.getD payload "grids" .null).orElse (.arr [])
  (if scalars.truthy then [scalarsRequest payload scalars] else []) ++
    (gridsPlan grids ++ if scalars.truthy || grids.truthy then [reloadRequest payload] else [])

def accepted : Answer → Bool
  | .ok j => !rejected j
  | .error _ => false

/-- The plan gets stuck where the wire ends: everything before was accepted,
and the turn of an entry has come that raises what nobody catches. -/
def Stuck (plan : List (Except Raised Request)) (t : Wire) : Prop :=
  (∃ e, plan[t.length]? = some (.error e) ∧ applyFailure e = none) ∧
    ∀ x ∈ t, accepted x.2 = true

/-- So far the plan was carried out, and `rest` is left. -/
structure Underway (plan : List (Except Raised Request)) (h : Wire)
    (rest : List (Except Raised Request)) : Prop where
  accepted : ∀ x ∈ h, accepted x.2 = true
  left : plan.drop h.length = rest

theorem applyGridItem_live (op endpoints row uuid item : Json) :
    applyGridItem op endpoints row uuid item false =
      (Dialogue.ofExcept (gridRequest op endpoints row uuid item)).bind fun req =>
        (post req).bind fun res => (raiseOnFailed res ("grid " ++ op.pyStr)).bind fun _ =>
          .pure (Json.obj [("dry_run", .bool false), ("op", op), ("result", res)]) := rfl

theorem applyScalars_live (payload : Dict) (scalars : Json) :
    applyScalars payload scalars false =
      (Dialogue.ofExcept (scalarsRequest payload scalars)).bind fun req =>
        (post req).bind fun res => (raiseOnFailed res "setting").bind fun _ =>
          .pure (Json.obj [("dry_run", .bool false), ("result", res)]) := by
  unfold applyScalars scalarsRequest
  rcases Dict.item payload "set_path" with e | setPath
  · rfl
  rcases Dict.item payload "reconfigure_path" with e | reconfigurePath
  · rfl
  rcases Dict.item payload "model_root" with e | modelRoot
  · rfl
  · rfl

section Catalog

variable {plan rest : List (Except Raised Request)} {h : Wire} {α : Type}

theorem Underway.append {s : Except Raised Request} (hu : Underway plan h (s :: rest)) (r : Request)
    {res : Json} (hres : rejected res = false) :
    Underway plan (h ++ [(r, .ok res)]) rest := by
  constructor
  · intro x hx
    rcases List.mem_append.mp hx with hx | hx
    · exact hu.accepted x hx
    · obtain rfl := List.mem_singleton.mp hx
      simp [Opngms.accepted, hres]
  · rw [List.length_append, List.length_singleton, ← List.drop_drop, hu.left]
    rfl

end Catalog

/-- The run changed the box and then raised what nobody catches. -/
def Uncaught (kind : String) (payload : Dict) (t : Wire) : Prop :=
  (kind = "monit_test" ∧ MonitStrands t) ∨
    (kind = "catalog_setting" ∧ Stuck (catalogPlan payload) t)

end Opngms
