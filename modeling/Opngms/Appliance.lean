/-
Opngms/Appliance.lean

A box as its API shows it: the scalars of a model and tables of rows, edited by
the requests of the connector.

The box is no part of the program.  `Appliance` collects what the requests rely
on: an endpoint path edits one table, a row has the fields of its table, a new
row gets a fresh uuid that is fit for a URL, and a value is stored as text.  A
`set` takes the fields it is given and keeps the others; a `set` of an absent
row is answered `failed`, a `del` of one `not found`.  Alias names are unique.

Requests can fail: a `Mishap` says which one, whether the box carried it out
nevertheless, and what came back instead of its answer.
-/
import Opngms.Catalog
import Opngms.RowStore

namespace Opngms

abbrev Fields := List (String × String)

/-- What a box answers: JSON, or what the client makes an `OpnsenseError` of. -/
abbrev Reply := Except OpnsenseError Json

/-- What a box fixes: its tables, and how it stores what it is sent. -/
structure Appliance where
  /-- The table an endpoint path of a grid edits. -/
  tableAt : String → Option String
  /-- The fields of a table with their defaults. -/
  columns : String → Fields
  columns_nodup : ∀ γ, ((columns γ).map (·.1)).Nodup
  /-- The text stored for a value. -/
  text : Json → String
  text_str : ∀ s, text (.str s) = s
  uuids : Supply String
  uuids_safe : ∀ issued, safeName (uuids.pick issued) = true
  /-- The enabled ruleset files: uuid and filename. -/
  files : List (String × String)
  /-- The answers to requests about other parts of the configuration. -/
  other : Request → Reply

namespace Appliance

variable (A : Appliance)

/-- Fields with the values of `item` where it has one. -/
def fill (base : Fields) (item : Dict) : Fields :=
  base.map fun kv =>
    (kv.1, match Dict.get? item kv.1 with
      | some v => A.text v
      | none => kv.2)

theorem fill_keys (base : Fields) (item : Dict) :
    (A.fill base item).map (·.1) = base.map (·.1) := by
  rw [fill, List.map_map]
  rfl

end Appliance

theorem get?_strDict (d : List (String × String)) (k : String) :
    Dict.get? (strDict d) k = (d.lookup k).map .str := by
  induction d with
  | nil => rfl
  | cons kv d ih =>
    obtain ⟨k', v⟩ := kv
    show Dict.get? ((k', .str v) :: strDict d) k = _
    rw [Dict.get?_cons, ih, List.lookup_cons]
    by_cases h : k' = k
    · subst h
      rw [if_pos rfl, beq_self_eq_true]
      rfl
    · rw [if_neg h, beq_false_of_ne (Ne.symm h)]

theorem Appliance.fill_strDict (A : Appliance) {base d : Fields}
    (hkeys : base.map (·.1) = d.map (·.1)) (hd : (d.map (·.1)).Nodup) :
    A.fill base (strDict d) = d := by
  have hlen : base.length = d.length := by simpa using congrArg List.length hkeys
  refine List.ext_getElem (by rw [fill, List.length_map, hlen]) fun i hi hi' => ?_
  have hb : i < base.length := hlen ▸ hi'
  have hkey : base[i].1 = d[i].1 := by
    have h := List.getElem_of_eq hkeys (i := i) (by simpa using hb)
    simpa using h
  have hmem : (d[i].1, d[i].2) ∈ d := List.getElem_mem hi'
  have hlook : Dict.get? (strDict d) base[i].1 = some (.str d[i].2) := by
    rw [get?_strDict, hkey, (mem_iff_lookup hd).mp hmem]
    rfl
  simp only [fill, List.getElem_map, hlook, A.text_str]
  exact Prod.ext hkey rfl

/-- The configuration of a box. -/
structure Configuration (A : Appliance) where
  /-- The scalars of the model, by dotted path. -/
  scalars : String → String
  store : RowStore String String Fields
  /-- A row has the fields of its table. -/
  fits : ∀ r ∈ store.rows, r.fields.map (·.1) = (A.columns r.table).map (·.1)
  /-- Uuids are fit for a URL. -/
  safe : ∀ r ∈ store.rows, safeName r.uuid = true

namespace Configuration

variable {A : Appliance}

/-- A new row. -/
def addRow (S : Configuration A) (γ : String) (item : Dict) : Configuration A where
  scalars := S.scalars
  store := S.store.edit A.uuids (.add γ (A.fill (A.columns γ) item))
  fits r hr := by
    rcases List.mem_append.mp hr with hr | hr
    · exact S.fits r hr
    · rw [List.mem_singleton.mp hr]
      exact A.fill_keys _ _
  safe r hr := by
    rcases List.mem_append.mp hr with hr | hr
    · exact S.safe r hr
    · rw [List.mem_singleton.mp hr]
      exact A.uuids_safe _

/-- A row with some fields set. -/
def setRow (S : Configuration A) (γ u : String) (item : Dict) : Configuration A where
  scalars := S.scalars
  store := S.store.edit A.uuids (.set γ u fun base => A.fill base item)
  fits r hr := by
    obtain ⟨r₀, h₀, rfl⟩ := List.mem_map.mp hr
    rw [Edit.patch_table, ← S.fits r₀ h₀, Edit.patch]
    split
    · exact A.fill_keys _ _
    · rfl
  safe r hr := by
    obtain ⟨r₀, h₀, rfl⟩ := List.mem_map.mp hr
    rw [Edit.patch_uuid]
    exact S.safe r₀ h₀

/-- Without a row. -/
def delRow (S : Configuration A) (γ u : String) : Configuration A where
  scalars := S.scalars
  store := S.store.edit A.uuids (.del γ u)
  fits r hr := S.fits r (List.mem_of_mem_filter hr)
  safe r hr := S.safe r (List.mem_of_mem_filter hr)

end Configuration

/-! ### Answers -/

namespace Appliance

def saved : Json := .obj [("result", .str "saved")]

def savedAs (u : String) : Json := .obj [("result", .str "saved"), ("uuid", .str u)]

def failed : Json := .obj [("result", .str "failed")]

def deleted (found : Bool) : Json := .obj [("result", .str (if found then "deleted" else "not found"))]

def rowJson (r : Row String String Fields) : Json := .obj (("uuid", .str r.uuid) :: strDict r.fields)

/-- The value at a path of a nested object, if it is a leaf. -/
def leafAt : Json → List String → Option Json
  | .obj kvs, p :: path =>
    match Dict.get? kvs p with
    | some v => leafAt v path
    | none => none
  | .obj _, [] => none
  | _, _ :: _ => none
  | v, [] => some v

variable {A : Appliance}

/-- The scalars after a partial `set`: what the object has a leaf for. -/
def assign (A : Appliance) (scalars : String → String) (nested : Json) : String → String := fun k =>
  match leafAt nested (splitDots k) with
  | some v => A.text v
  | none => scalars k

/-- The answer to a search: the phrase only narrows what the connector filters
by the exact identity. -/
def search (S : Configuration A) (γ : String) : Reply :=
  .ok (.obj [("rows", .arr ((S.store.rows.filter fun r => r.table = γ).map rowJson))])

def add (S : Configuration A) (γ : String) (item : Dict) : Reply × Configuration A :=
  (.ok (savedAs (A.uuids.pick S.store.issued)), S.addRow γ item)

/-- A partial `set` of a row. -/
def set (S : Configuration A) (γ u : String) (item : Dict) : Reply × Configuration A :=
  if S.store.has γ u then (.ok saved, S.setRow γ u item) else (.ok failed, S)

def del (S : Configuration A) (γ u : String) : Reply × Configuration A :=
  (.ok (deleted (S.store.has γ u)), S.delRow γ u)

def itemOf : Json → Dict
  | .obj kvs => kvs
  | _ => []

def nameTaken (S : Configuration A) (item : Dict) : Bool :=
  S.store.rows.any fun r =>
    r.table = "alias" && r.fields.lookup "name" = (A.fill (A.columns "alias") item).lookup "name"

/-- The `getPolicy` answer: the enabled ruleset files. -/
def policyModel (A : Appliance) : Json :=
  .obj [("policy", .obj [("rulesets", .obj (A.files.map fun kv =>
    (kv.1, .obj [("value", .str kv.2), ("selected", .int 0)])))])]

/-- How the box answers and what it does. -/
def respond (S : Configuration A) : Request → Reply × Configuration A
  | .aliasSearch _ => (search S "alias", S)
  | .aliasAdd item => if nameTaken S item then (.ok failed, S) else add S "alias" item
  | .aliasSet u item => set S "alias" u item
  | .aliasDel u => del S "alias" u
  | .modelSet _ _ nested => (.ok saved, { S with scalars := A.assign S.scalars nested })
  | .gridAdd p _ item =>
    match A.tableAt p with
    | some γ => add S γ (itemOf item)
    | none => (.error (.apiError 404 ""), S)
  | .gridSet p u _ item =>
    match A.tableAt p with
    | some γ => set S γ u (itemOf item)
    | none => (.error (.apiError 404 ""), S)
  | .gridDel p u =>
    match A.tableAt p with
    | some γ => del S γ u
    | none => (.error (.apiError 404 ""), S)
  | .ruleSearch _ => (search S "rule", S)
  | .ruleAdd item => add S "rule" item
  | .ruleSet u item => set S "rule" u item
  | .ruleDel u => del S "rule" u
  | .testSearch _ => (search S "test", S)
  | .testAdd item => add S "test" item
  | .testSet u item => set S "test" u item
  | .testDel u => del S "test" u
  | .policySearch _ => (search S "policy", S)
  | .policyGet => (.ok A.policyModel, S)
  | .policyAdd item => add S "policy" item
  | .policySet u item => set S "policy" u item
  | .policyDel u => del S "policy" u
  | .aliasReconfigure | .modelReconfigure _ | .ruleApply | .monitReconfigure | .idsReconfigure =>
    (.ok (.obj [("status", .str "ok")]), S)
  | r => (A.other r, S)

end Appliance

/-! ### A box to evaluate runs in -/

/-- A uuid longer than all that were issued. -/
def longerUuid (issued : List String) : String :=
  String.ofList (List.replicate ((issued.map String.length).foldr max 0 + 1) 'a')

theorem length_le_foldr_max {s : String} {issued : List String} (h : s ∈ issued) :
    s.length ≤ (issued.map String.length).foldr max 0 := by
  induction issued with
  | nil => cases h
  | cons t issued ih =>
    rw [List.map_cons, List.foldr_cons]
    rcases List.mem_cons.mp h with rfl | h
    · exact le_max_left _ _
    · exact (ih h).trans (le_max_right _ _)

/-- The text that a box stores of a scalar: `1` and the empty text for the truth values. -/
def storedText : Json → String
  | .bool b => if b then "1" else ""
  | j => j.pyStr

theorem storedText_str (s : String) : storedText (.str s) = s := rfl

def longerUuids : Supply String where
  pick := longerUuid
  fresh issued h := by
    have hle := length_le_foldr_max h
    rw [longerUuid, String.length_ofList, List.length_replicate] at hle
    omega

theorem longerUuid_safe (issued : List String) : safeName (longerUuid issued) = true := by
  have hletter : (isAsciiAlnum 'a' || 'a' == '.' || 'a' == '_' || 'a' == '-') = true := by decide
  rw [safeName, longerUuid, String.toList_ofList, List.all_replicate, hletter]
  simp

/-! ### Requests that fail -/

/-- The request with this number fails: what comes back, and whether the box
carried it out. -/
structure Mishap where
  number : Nat
  carriedOut : Bool
  answer : Reply
  fails : ∀ j, answer = .ok j → rejected j = true

def mishapAt (m : Option Mishap) (n : Nat) : Option Mishap := m.filter fun h => h.number = n

namespace Appliance

variable {A : Appliance}

/-- The request with number `n`: what comes back, and the box afterwards. -/
def exchange (m : Option Mishap) (S : Configuration A) (n : Nat) (r : Request) :
    Reply × Configuration A :=
  match mishapAt m n with
  | some h => (h.answer, if h.carriedOut then (respond S r).2 else S)
  | none => respond S r

/-- What `_post` makes of an answer. -/
def received : Reply → Answer
  | .ok j => .ok j
  | .error e => .error (.opnsense e)

/-- A box that counts the requests made to it. -/
def serve (m : Option Mishap) (b : Configuration A × Nat) (r : Request) :
    Option (Answer × Configuration A × Nat) :=
  some (received (exchange m b.1 b.2 r).1, (exchange m b.1 b.2 r).2, b.2 + 1)

variable {m : Option Mishap} {S : Configuration A} {n : Nat}

theorem play_post (r : Request) :
    (post r).play (serve m) (S, n) =
      some (received (exchange m S n r).1, (exchange m S n r).2, n + 1) := by
  rw [post, Dialogue.play, serve, Option.bind_some]
  cases (exchange m S n r).1 <;> rfl

/-- A mutation with the check of its answer. -/
def checked (r : Request) (what : String) : Client Json := do
  let res ← post r
  raiseOnFailed res what
  return res

theorem checked_bind {α : Type} (r : Request) (what : String) (f : Json → Client α) :
    (checked r what).bind f =
      (post r).bind fun res => (raiseOnFailed res what).bind fun _ => f res := by
  refine (Dialogue.bind_assoc _ _ _).trans (congrArg _ (funext fun res => ?_))
  exact Dialogue.bind_assoc _ _ _

theorem raiseOnFailed_saved {res : Json} (what : String) (h : rejected res = false) :
    raiseOnFailed res what = .pure () :=
  if_neg (Bool.not_eq_true _ ▸ h)

theorem raiseOnFailed_rejected {res : Json} (what : String) (h : rejected res = true) :
    ∃ x, raiseOnFailed res what = .raise (.opnsense x) :=
  ⟨_, if_pos h⟩

theorem play_checked_ok (r : Request) (what : String) {j : Json}
    (hx : (exchange m S n r).1 = .ok j) (hj : rejected j = false) :
    (checked r what).play (serve m) (S, n) = some (.ok j, (exchange m S n r).2, n + 1) := by
  have hpost := play_post (m := m) (S := S) (n := n) r
  rw [hx] at hpost
  refine (Dialogue.play_bind_ok hpost).trans ?_
  rw [raiseOnFailed_saved what hj]
  rfl

theorem play_checked_error (r : Request) (what : String)
    (hx : ∀ j, (exchange m S n r).1 = .ok j → rejected j = true) :
    ∃ x, (checked r what).play (serve m) (S, n) =
      some (.error (.opnsense x), (exchange m S n r).2, n + 1) := by
  have hpost := play_post (m := m) (S := S) (n := n) r
  cases hz : (exchange m S n r).1 with
  | error e =>
    rw [hz] at hpost
    exact ⟨e, Dialogue.play_bind_error hpost⟩
  | ok j =>
    rw [hz] at hpost
    obtain ⟨x, hraise⟩ := raiseOnFailed_rejected what (hx j hz)
    refine ⟨x, (Dialogue.play_bind_ok hpost).trans ?_⟩
    rw [hraise]
    rfl

theorem exchange_mishap {h : Mishap} (hm : mishapAt m n = some h) (r : Request) :
    exchange m S n r = (h.answer, if h.carriedOut then (respond S r).2 else S) := by
  rw [exchange, hm]

theorem exchange_served (hm : mishapAt m n = none) (r : Request) :
    exchange m S n r = respond S r := by
  rw [exchange, hm]

end Appliance

end Opngms
