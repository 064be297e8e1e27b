/-
Opngms/UneditedTemplates.lean

Saving a template without editing it: `TemplateFormModal.tsx` opened on a template and submitted
at once, and `ApplyTemplateTab.tsx` with the template picked and the override saved as it is.

The modal keeps the body of each kind in a state variable of its own and sends it back; that of an
alias it builds anew from its four fields.  What it reads of any body (a `type`, a list under
`content`) it turns to text, which throws for an object with a `toString` of its own.  The override
box writes the lines of its text under the key `content`, whatever the kind.

`unedited_save_iff` says exactly when each of the two leaves the body as it is: the second exactly
for bodies that have a list of trimmed lines under `content`.

A document goes through the doubles of JavaScript on its way.  What becomes of a number there is a
parameter (`JsNumbers`), about which nothing is assumed.
-/
import Opngms.PolicyBodies

namespace Opngms

namespace UneditedTemplates

/-! ### Values in the browser -/

/-- The numbers of a document in JavaScript: what the server reads of one that `JSON.parse` has
read and `JSON.stringify` written, spelled as it was where the two are equal, and its `String`. -/
structure JsNumbers where
  int : Int → Json
  float : String → Json
  intText : Int → String
  floatText : String → String

namespace JsNumbers

variable (js : JsNumbers)

mutual

/-- What the server reads of a value that the browser was given and sends back. -/
def sent : Json → Json
  | .null => .null
  | .bool b => .bool b
  | .int n => js.int n
  | .float r => js.float r
  | .str s => .str s
  | .arr xs => .arr (sentList xs)
  | .obj kvs => .obj (sentEntries kvs)

def sentList : List Json → List Json
  | [] => []
  | x :: xs => sent x :: sentList xs

def sentEntries : List (String × Json) → List (String × Json)
  | [] => []
  | (k, x) :: kvs => (k, sent x) :: sentEntries kvs

end

mutual

/-- `String(v)`: it throws where it meets an object with a `toString` of its own, which is no
function. -/
def text : Json → Option String
  | .null => some "null"
  | .bool b => some (if b then "true" else "false")
  | .int n => some (js.intText n)
  | .float r => some (js.floatText r)
  | .str s => some s
  | .arr xs => (texts xs).map (",".intercalate ·)
  | .obj kvs => if (Dict.get? kvs "toString").isSome then none else some "[object Object]"

/-- What `join` joins: nothing for `null`. -/
def texts : List Json → Option (List String)
  | [] => some []
  | x :: xs => (if x = .null then some "" else text x).bind fun s => (texts xs).map (s :: ·)

end

/-- `String(body[key] ?? default)`. -/
def fieldText (body : Dict) (key default : String) : Option String :=
  match Dict.get? body key with
  | none | some .null => some default
  | some v => js.text v

end JsNumbers

/-- The white space of `trim`. -/
def isJsSpace (c : Char) : Bool :=
  let n := c.toNat
  (9 ≤ n && n ≤ 13) || n == 0x20 || n == 0xA0 || n == 0x1680 || (0x2000 ≤ n && n ≤ 0x200A) ||
    n == 0x2028 || n == 0x2029 || n == 0x202F || n == 0x205F || n == 0x3000 || n == 0xFEFF

/-- `!s.trim()`. -/
def isJsBlank (s : String) : Bool := (trimEnds isJsSpace s.toList).isEmpty

/-- `parseContent`: the lines of a text area, trimmed, without the empty ones. -/
def parseContent (value : String) : List String :=
  (trimmedPieces '\n' isJsSpace value.toList).map String.ofList

/-- What a text area is filled with: the list under `content`, a line each (`templateContent`; the
modal has the same). -/
def templateContent (js : JsNumbers) (body : Dict) : Option String :=
  match Dict.get? body "content" with
  | some (.arr xs) => (js.texts xs).map ("\n".intercalate ·)
  | _ => some ""

/-! ### The modal -/

/-- `TemplateOut`, as far as the two components read it. -/
structure TemplateOut where
  kind : String
  name : String
  description : String
  body : Dict

/-- `TemplateUpdateIn`. -/
structure TemplateUpdateIn where
  name : String
  description : String
  body : Json

/-- `form.values`. -/
structure FormValues where
  name : String
  type : String
  content : String
  description : String

/-- The state of the modal.  `ruleBody` and `monitBody` are the payloads of theirs. -/
structure ModalState where
  kind : String
  settingBody : Dict
  idsBody : Dict
  ruleBody : Dict
  monitBody : Dict
  policyBody : Dict
  values : FormValues

/-- `EMPTY_SETTING`. -/
def emptySetting : Dict := [("endpoint_key", .str ""), ("payload", .obj [])]

/-- `EMPTY_IDS`. -/
def emptyIds : Dict := [("rulesets", .arr [])]

/-- `EMPTY_POLICY`. -/
def emptyPolicy : Dict :=
  [("description", .str ""), ("enabled", .str "1"), ("prio", .str "0"), ("action", .arr []),
    ("rulesets", .arr []), ("content", .obj []), ("new_action", .str "alert")]

/-- The values that opening the modal sets, unless reading them throws. -/
def openedValues (js : JsNumbers) (editing : TemplateOut) : Option FormValues :=
  if editing.kind ≠ "opnsense_setting" then do
    let type ← js.fieldText editing.body "type" "host"
    let content ← templateContent js editing.body
    return ⟨editing.name, type, content, editing.description⟩
  else some ⟨editing.name, "host", "", editing.description⟩

/-- The state after the effect of opening the modal on a template: the body of its kind, the
others reset. -/
def openedState (editing : TemplateOut) (values : FormValues) : ModalState :=
  let bodyOf (kind : String) (empty : Dict) : Dict :=
    if editing.kind = kind then editing.body else empty
  { kind := editing.kind
    settingBody := bodyOf "opnsense_setting" emptySetting
    idsBody := bodyOf "suricata_ruleset" emptyIds
    ruleBody := bodyOf "firewall_rule" []
    monitBody := bodyOf "monit_test" []
    policyBody := bodyOf "ids_policy" emptyPolicy
    values := values }

/-- `vals.join(", ")` of a value of the content. -/
def joins (js : JsNumbers) : Json → Bool
  | .arr xs => (js.texts xs).isSome
  | _ => false

/-- Whether `IdsPolicyForm` renders: it runs over the rulesets and joins the values of the
content. -/
def policyRenders (js : JsNumbers) (body : Dict) : Bool :=
  (match Dict.get? body "rulesets" with
    | some (.arr _) | some (.str _) => true
    | _ => false) &&
  match Dict.get? body "content" with
  | some (.obj kvs) => kvs.all fun kv => joins js kv.2
  | some (.arr xs) => xs.all (joins js)
  | some (.str s) => s == ""
  | some .null | none => false
  | some _ => true

def valueMissing (s : String) : Bool := s.toList.all fun c => c == '\n' || c == '\r'

/-- Whether the browser finds all required fields of the form filled in. -/
def filledIn (s : ModalState) : Bool :=
  !valueMissing s.values.name &&
    if s.kind = "ids_policy" then
      match Dict.get? s.policyBody "description" with
      | some (.str d) => !valueMissing d
      | some .null | none => false
      | some _ => true
    else if ["opnsense_setting", "suricata_ruleset", "firewall_rule", "monit_test"].contains s.kind
    then true
    else s.values.content != ""

/-- `String(body[key] ?? "").trim()` is not empty. -/
def hasText (js : JsNumbers) (body : Dict) (key : String) : Bool :=
  (js.fieldText body key "").any fun s => !isJsBlank s

def aliasBody (v : FormValues) : Dict :=
  [("name", .str v.name), ("type", .str v.type), ("content", .arr ((parseContent v.content).map .str)),
    ("description", .str v.description)]

/-- `submit`, for a template that is edited: what `update` sends. -/
def submit (js : JsNumbers) (s : ModalState) : Option TemplateUpdateIn :=
  let update (body : Dict) : TemplateUpdateIn :=
    ⟨s.values.name, s.values.description, js.sent (.obj body)⟩
  if s.kind = "opnsense_setting" then some (update s.settingBody)
  else if s.kind = "suricata_ruleset" then some (update s.idsBody)
  else if s.kind = "firewall_rule" then
    if hasText js s.ruleBody "description" then some (update s.ruleBody) else none
  else if s.kind = "monit_test" then
    if hasText js s.monitBody "name" then some (update s.monitBody) else none
  else if s.kind = "ids_policy" then
    match Dict.get? s.policyBody "description" with
    | some (.str d) => if isJsBlank d then none else some (update s.policyBody)
    | _ => none  -- only a string has a `trim`
  else some (update (aliasBody s.values))

/-- Submitting the form: it has to render, and its required fields to be filled in. -/
def pressSave (js : JsNumbers) (s : ModalState) : Option TemplateUpdateIn :=
  if (s.kind ≠ "ids_policy" ∨ policyRenders js s.policyBody) ∧ filledIn s then submit js s else none

def submitAtOnce (js : JsNumbers) (editing : TemplateOut) : Option TemplateUpdateIn :=
  (openedValues js editing).bind fun values => pressSave js (openedState editing values)

/-! ### The override -/

/-- `pickTemplate`, with what the override box held before: a prefill that throws leaves it. -/
def pickTemplate (js : JsNumbers) (override : String) (tpl : TemplateOut) : String :=
  (templateContent js tpl.body).getD override

/-- `saveOverride`: the patch that is stored. -/
def saveOverride (override : String) : Dict :=
  [("content", .arr ((parseContent override).map .str))]

/-! ### What survives the browser -/

section Values

variable {js : JsNumbers}

/-- Every number of the value comes back equal. -/
inductive JsNumbers.Keeps (js : JsNumbers) : Json → Prop
  | null : js.Keeps .null
  | bool (b : Bool) : js.Keeps (.bool b)
  | int {n : Int} (h : Json.pyEq (js.int n) (.int n) = true) : js.Keeps (.int n)
  | float {r : String} (h : Json.pyEq (js.float r) (.float r) = true) : js.Keeps (.float r)
  | str (s : String) : js.Keeps (.str s)
  | arr {xs : List Json} (h : ∀ x ∈ xs, js.Keeps x) : js.Keeps (.arr xs)
  | obj {kvs : Dict} (h : ∀ k x, Dict.get? kvs k = some x → js.Keeps x) : js.Keeps (.obj kvs)

/-- `String` does not throw: it meets no object with a `toString` of its own. -/
inductive Printable : Json → Prop
  | null : Printable .null
  | bool (b : Bool) : Printable (.bool b)
  | int (n : Int) : Printable (.int n)
  | float (r : String) : Printable (.float r)
  | str (s : String) : Printable (.str s)
  | arr {xs : List Json} (h : ∀ x ∈ xs, Printable x) : Printable (.arr xs)
  | obj {kvs : Dict} (h : Dict.get? kvs "toString" = none) : Printable (.obj kvs)

theorem get?_sentEntries (kvs : Dict) (k : String) :
    Dict.get? (js.sentEntries kvs) k = (Dict.get? kvs k).map js.sent := by
  induction kvs with
  | nil => rfl
  | cons kv kvs ih =>
    obtain ⟨l, v⟩ := kv
    rw [JsNumbers.sentEntries, Dict.get?_cons, Dict.get?_cons, ih]
    split <;> rfl

mutual

theorem sent_pyEq_iff : (j : Json) → (Json.pyEq (js.sent j) j = true ↔ js.Keeps j)
  | .null => ⟨fun _ => .null, fun _ => rfl⟩
  | .bool b => ⟨fun _ => .bool b, fun _ => Json.pyEq_refl (.bool b)⟩
  | .int n => ⟨.int, fun | .int h => h⟩
  | .float r => ⟨.float, fun | .float h => h⟩
  | .str s => ⟨fun _ => .str s, fun _ => Json.pyEq_refl (.str s)⟩
  | .arr xs => by
    rw [JsNumbers.sent, Json.pyEq, sentList_pyEq_iff xs]
    exact ⟨.arr, fun | .arr h => h⟩
  | .obj kvs => by
    rw [JsNumbers.sent, Json.pyEq_obj_iff]
    constructor
    · intro h
      refine .obj fun k x hx => (get?_sent_pyEq_iff kvs k x hx).mp ?_
      have hk := h k
      rw [get?_sentEntries, hx] at hk
      cases hk with
      | some heq => exact heq
    · rintro (_ | _ | _ | _ | _ | _ | h) k
      rw [get?_sentEntries]
      cases hx : Dict.get? kvs k with
      | none => exact .none
      | some x => exact .some ((get?_sent_pyEq_iff kvs k x hx).mpr (h k x hx))

theorem sentList_pyEq_iff : (xs : List Json) →
    (Json.pyEqList (js.sentList xs) xs = true ↔ ∀ x ∈ xs, js.Keeps x)
  | [] => ⟨fun _ => nofun, fun _ => rfl⟩
  | x :: xs => by
    rw [JsNumbers.sentList, Json.pyEqList, Bool.and_eq_true, sent_pyEq_iff x, sentList_pyEq_iff xs,
      List.forall_mem_cons]

theorem get?_sent_pyEq_iff : (kvs : List (String × Json)) → (k : String) → (x : Json) →
    Dict.get? kvs k = some x → (Json.pyEq (js.sent x) x = true ↔ js.Keeps x)
  | [], _, _, h => nomatch h
  | (l, v) :: kvs, k, x, h => by
    rw [Dict.get?_cons] at h
    split at h
    · obtain rfl := Option.some.inj h
      exact sent_pyEq_iff v
    · exact get?_sent_pyEq_iff kvs k x h

end

theorem sentList_texts (ss : List String) : js.sentList (ss.map .str) = ss.map .str := by
  induction ss with
  | nil => rfl
  | cons s ss ih =>
    rw [List.map_cons, JsNumbers.sentList, ih]
    rfl

mutual

theorem text_isSome_iff : (j : Json) → ((js.text j).isSome = true ↔ Printable j)
  | .null => ⟨fun _ => .null, fun _ => rfl⟩
  | .bool b => ⟨fun _ => .bool b, fun _ => rfl⟩
  | .int n => ⟨fun _ => .int n, fun _ => rfl⟩
  | .float r => ⟨fun _ => .float r, fun _ => rfl⟩
  | .str s => ⟨fun _ => .str s, fun _ => rfl⟩
  | .arr xs => by
    rw [JsNumbers.text, Option.isSome_map, texts_isSome_iff xs]
    exact ⟨.arr, fun | .arr h => h⟩
  | .obj kvs => by
    rw [JsNumbers.text]
    cases h : Dict.get? kvs "toString" with
    | none => exact ⟨fun _ => .obj h, fun _ => rfl⟩
    | some x =>
      constructor
      · exact nofun
      · rintro (_ | _ | _ | _ | _ | _ | hnone)
        rw [h] at hnone
        cases hnone

theorem texts_isSome_iff : (xs : List Json) →
    ((js.texts xs).isSome = true ↔ ∀ x ∈ xs, Printable x)
  | [] => ⟨fun _ => nofun, fun _ => rfl⟩
  | x :: xs => by
    have hx : (if x = .null then some "" else js.text x).isSome = true ↔ Printable x := by
      rw [← text_isSome_iff x]
      cases x <;> rfl
    rw [JsNumbers.texts, List.forall_mem_cons, ← hx, ← texts_isSome_iff xs]
    cases if x = .null then some "" else js.text x with
    | none => simp
    | some t => simp

end

theorem texts_map (ss : List String) : js.texts (ss.map .str) = some ss := by
  induction ss with
  | nil => rfl
  | cons s ss ih =>
    rw [List.map_cons, JsNumbers.texts, ih]
    rfl

theorem pyEq_texts_iff {ss : List String} {j : Json} :
    Json.pyEq (.arr (ss.map .str)) j = true ↔ j = .arr (ss.map .str) := by
  have hlist : ∀ xs, Json.pyEqList (ss.map .str) xs = true ↔ xs = ss.map .str := by
    induction ss with
    | nil =>
      intro xs
      cases xs <;> simp [Json.pyEqList]
    | cons s ss ih =>
      intro xs
      cases xs with
      | nil => simp [Json.pyEqList]
      | cons x xs =>
        rw [List.map_cons, Json.pyEqList, Json.pyEq_str_left, Bool.and_eq_true, ih, decide_eq_true_iff,
          List.cons.injEq, eq_comm (b := x)]
  cases j with
  | arr xs => rw [Json.pyEq, hlist, Json.arr.injEq]
  | _ => simp [Json.pyEq]

end Values

/-! ### Lines of a text area -/

def IsLine (s : String) : Prop := TrimmedPiece '\n' isJsSpace s.toList

/-- The body has a list of such lines under `content`. -/
def Lined (body : Dict) : Prop :=
  ∃ lines : List String,
    Dict.get? body "content" = some (.arr (lines.map .str)) ∧ ∀ l ∈ lines, IsLine l

theorem isLine_of_mem {value l : String} (h : l ∈ parseContent value) : IsLine l := by
  obtain ⟨piece, hpiece, rfl⟩ := List.mem_map.mp h
  show TrimmedPiece '\n' isJsSpace (String.ofList piece).toList
  rw [String.toList_ofList]
  exact trimmedPiece_of_mem hpiece

theorem parseContent_joined {lines : List String} (h : ∀ l ∈ lines, IsLine l) :
    parseContent ("\n".intercalate lines) = lines := by
  have hsep : "\n".toList = ['\n'] := rfl
  have hpieces : ∀ part ∈ lines.map String.toList, TrimmedPiece '\n' isJsSpace part := by
    intro part hpart
    obtain ⟨l, hl, rfl⟩ := List.mem_map.mp hpart
    exact h l hl
  rw [parseContent, String.toList_intercalate, hsep, trimmedPieces_intercalate hpieces, List.map_map]
  calc lines.map (String.ofList ∘ String.toList) = lines.map id :=
        List.map_congr_left fun l _ => String.ofList_toList
    _ = lines := List.map_id lines

theorem lined_of_parsed {body : Dict} {value : String}
    (h : Dict.get? body "content" = some (.arr ((parseContent value).map .str))) : Lined body :=
  ⟨parseContent value, h, fun _ => isLine_of_mem⟩

theorem templateContent_lines (js : JsNumbers) {body : Dict} {lines : List String}
    (h : Dict.get? body "content" = some (.arr (lines.map .str))) :
    templateContent js body = some ("\n".intercalate lines) := by
  rw [templateContent, h]
  show (js.texts (lines.map .str)).map _ = _
  rw [texts_map]
  rfl

/-! ### The override left as it is -/

theorem set_of_get? {d : Dict} {k : String} {v : Json} (h : Dict.get? d k = some v) :
    Dict.set d k v = d := by
  induction d with
  | nil => cases h
  | cons kv d ih =>
    obtain ⟨l, u⟩ := kv
    rw [Dict.get?_cons] at h
    rw [Dict.set]
    split at h
    · rename_i hl
      obtain rfl := Option.some.inj h
      rw [if_pos hl, hl]
    · rename_i hl
      rw [if_neg hl, ih h]

/-- The last step of `effective_body`: the pinned keys as in the base. -/
def pin (base : Dict) (keys : List String) (merged : Dict) : Dict :=
  keys.foldl (fun d key =>
    match Dict.get? base key with
    | some v => Dict.set d key v
    | none => d) merged

theorem pin_cons (base : Dict) (key : String) (keys : List String) (merged : Dict) :
    pin base (key :: keys) merged =
      pin base keys (((Dict.get? base key).map (Dict.set merged key)).getD merged) := by
  rw [pin, List.foldl_cons]
  cases Dict.get? base key <;> rfl

theorem pin_self (body : Dict) (keys : List String) : pin body keys body = body := by
  induction keys with
  | nil => rfl
  | cons key keys ih =>
    rw [pin_cons]
    cases h : Dict.get? body key with
    | none => exact ih
    | some v =>
      rw [Option.map_some, Option.getD_some, set_of_get? h]
      exact ih

theorem get?_pin {base : Dict} {keys : List String} {k : String} (h : k ∉ keys) (merged : Dict) :
    Dict.get? (pin base keys merged) k = Dict.get? merged k := by
  induction keys generalizing merged with
  | nil => rfl
  | cons key keys ih =>
    obtain ⟨hne, hkeys⟩ := not_or.mp (List.mem_cons.not.mp h)
    rw [pin_cons, ih hkeys]
    cases Dict.get? base key with
    | none => rfl
    | some v => rw [Option.map_some, Option.getD_some, Dict.get?_set, if_neg (Ne.symm hne)]

theorem effectiveBody_one {kind : String} {spec : TemplateKind} (h : templateKind kind = .ok spec)
    (body : Dict) (k : String) (v : Json) :
    effectiveBody kind body [(k, v)] = .ok (pin body spec.pinned (Dict.set body k v)) := by
  rw [effectiveBody, h]
  rfl

theorem effectiveBody_self {kind : String} {body : Dict} {k : String} {v : Json}
    (hvalid : validateBody kind body = .ok ()) (h : Dict.get? body k = some v) :
    effectiveBody kind body [(k, v)] = .ok body := by
  obtain ⟨spec, hspec, -⟩ := except_bind_ok hvalid
  rw [effectiveBody_one hspec, set_of_get? h, pin_self]

theorem content_of_effectiveBody {kind : String} {body eff : Dict} {v : Json}
    (h : effectiveBody kind body [("content", v)] = .ok eff) :
    Dict.get? eff "content" = some v := by
  obtain ⟨spec, hspec, -⟩ := except_bind_ok h
  have hkinds : ∀ entry ∈ templateKinds, "content" ∉ entry.2.pinned := by
    simp [templateKinds]
  rw [effectiveBody_one hspec] at h
  obtain rfl := Except.ok.inj h
  rw [get?_pin (hkinds _ (templateKind_mem hspec)), Dict.get?_set, if_pos rfl]

theorem override_kept_iff (js : JsNumbers) {tpl : TemplateOut} (override : String)
    (hvalid : validateBody tpl.kind tpl.body = .ok ()) :
    (∃ eff, effectiveBody tpl.kind tpl.body (saveOverride (pickTemplate js override tpl)) = .ok eff ∧
        Json.pyEq (.obj eff) (.obj tpl.body) = true ∧ validateBody tpl.kind eff = .ok ()) ↔
      Lined tpl.body := by
  constructor
  · rintro ⟨eff, heff, heq, -⟩
    have hcontent := (Json.pyEq_obj_iff _ _).mp heq "content"
    rw [content_of_effectiveBody heff] at hcontent
    cases hbody : Dict.get? tpl.body "content" with
    | none =>
      rw [hbody] at hcontent
      cases hcontent
    | some v =>
      rw [hbody] at hcontent
      cases hcontent with
      | some hv =>
        rw [pyEq_texts_iff.mp hv] at hbody
        exact lined_of_parsed hbody
  · rintro ⟨lines, hbody, hlines⟩
    have hpatch : saveOverride (pickTemplate js override tpl) =
        [("content", .arr (lines.map .str))] := by
      rw [saveOverride, pickTemplate, templateContent_lines js hbody, Option.getD_some,
        parseContent_joined hlines]
    refine ⟨tpl.body, ?_, Json.pyEq_refl _, hvalid⟩
    rw [hpatch]
    exact effectiveBody_self hvalid hbody

/-! ### The modal submitted at once -/

/-- Opening the modal reads a `type` and a list under `content` that `String` can convert. -/
structure Opens (body : Dict) : Prop where
  type : ∀ v, Dict.get? body "type" = some v → Printable v
  content : ∀ xs, Dict.get? body "content" = some (.arr xs) → ∀ x ∈ xs, Printable x

/-- The alias is one that the form builds: it is called and described as its template, its content
is lines, and it has nothing else. -/
structure FormAlias (tpl : TemplateOut) : Prop where
  name : Dict.get? tpl.body "name" = some (.str tpl.name)
  description : Dict.get? tpl.body "description" = some (.str tpl.description)
  content : Lined tpl.body
  keys : ∀ k ∈ Dict.keys tpl.body, k ∈ ["name", "type", "content", "description"]

/-- The form can show the policy, and its description is text. -/
structure FormPolicy (body : Dict) : Prop where
  rulesets : (Dict.get? body "rulesets").isSome = true
  content : (Dict.get? body "content").isSome = true
  description : ∃ d, Dict.get? body "description" = some (.str d) ∧ isJsBlank d = false

/-- When the modal sends back the body that it was opened on. -/
structure SentBack (js : JsNumbers) (tpl : TemplateOut) : Prop where
  name : valueMissing tpl.name = false
  opens : tpl.kind ≠ "opnsense_setting" → Opens tpl.body
  numbers : tpl.kind ≠ "firewall_alias" → js.Keeps (.obj tpl.body)
  formAlias : tpl.kind = "firewall_alias" → FormAlias tpl
  rule : tpl.kind = "firewall_rule" → hasText js tpl.body "description" = true
  test : tpl.kind = "monit_test" → hasText js tpl.body "name" = true
  formPolicy : tpl.kind = "ids_policy" → FormPolicy tpl.body

section Modal

variable {js : JsNumbers} {tpl : TemplateOut}

theorem fieldText_isSome_iff {body : Dict} {key default : String} :
    (js.fieldText body key default).isSome = true ↔
      ∀ v, Dict.get? body key = some v → Printable v := by
  rw [JsNumbers.fieldText]
  cases h : Dict.get? body key with
  | none => simp
  | some v =>
    have hv : (∀ w, some v = some w → Printable w) ↔ Printable v := by simp
    rw [hv]
    cases v with
    | null => exact ⟨fun _ => .null, fun _ => rfl⟩
    | _ => exact text_isSome_iff _

theorem templateContent_isSome_iff {body : Dict} :
    (templateContent js body).isSome = true ↔
      ∀ xs, Dict.get? body "content" = some (.arr xs) → ∀ x ∈ xs, Printable x := by
  rw [templateContent]
  cases h : Dict.get? body "content" with
  | none => simp
  | some v =>
    cases v with
    | arr ys => simp [texts_isSome_iff]
    | _ => simp

theorem openedValues_setting (h : tpl.kind = "opnsense_setting") :
    openedValues js tpl = some ⟨tpl.name, "host", "", tpl.description⟩ :=
  if_neg (not_not.mpr h)

theorem openedValues_of_ne (h : tpl.kind ≠ "opnsense_setting") :
    openedValues js tpl = (js.fieldText tpl.body "type" "host").bind fun type =>
      (templateContent js tpl.body).map fun content =>
        ⟨tpl.name, type, content, tpl.description⟩ := by
  rw [openedValues, if_pos h]
  cases js.fieldText tpl.body "type" "host" with
  | none => rfl
  | some type => cases templateContent js tpl.body <;> rfl

theorem openedValues_isSome_iff :
    (openedValues js tpl).isSome = true ↔ (tpl.kind ≠ "opnsense_setting" → Opens tpl.body) := by
  by_cases h : tpl.kind = "opnsense_setting"
  · rw [openedValues_setting h]
    exact ⟨fun _ hne => absurd h hne, fun _ => rfl⟩
  · have hopens : Opens tpl.body ↔ (js.fieldText tpl.body "type" "host").isSome = true ∧
        (templateContent js tpl.body).isSome = true := by
      rw [fieldText_isSome_iff, templateContent_isSome_iff]
      exact ⟨fun ho => ⟨ho.type, ho.content⟩, fun ho => ⟨ho.1, ho.2⟩⟩
    rw [openedValues_of_ne h, imp_iff_right h, hopens]
    cases js.fieldText tpl.body "type" "host" <;> cases templateContent js tpl.body <;> simp

theorem names_of_openedValues {v : FormValues} (h : openedValues js tpl = some v) :
    v.name = tpl.name ∧ v.description = tpl.description := by
  by_cases hk : tpl.kind = "opnsense_setting"
  · rw [openedValues_setting hk] at h
    obtain rfl := Option.some.inj h
    exact ⟨rfl, rfl⟩
  · rw [openedValues_of_ne hk] at h
    obtain ⟨type, -, h⟩ := Option.bind_eq_some_iff.mp h
    obtain ⟨content, -, rfl⟩ := Option.map_eq_some_iff.mp h
    exact ⟨rfl, rfl⟩

theorem sentBack_gate_iff {gate : Bool}
    (hsave : ∀ v, pressSave js (openedState tpl v) = if !valueMissing v.name && gate
      then some ⟨v.name, v.description, js.sent (.obj tpl.body)⟩ else none) :
    (∃ sent, submitAtOnce js tpl = some sent ∧ Json.pyEq sent.body (.obj tpl.body) = true) ↔
      valueMissing tpl.name = false ∧ (tpl.kind ≠ "opnsense_setting" → Opens tpl.body) ∧
        js.Keeps (.obj tpl.body) ∧ gate = true := by
  rw [← @openedValues_isSome_iff js tpl, submitAtOnce]
  cases hv : openedValues js tpl with
  | none => simp
  | some v =>
    obtain ⟨hname, -⟩ := names_of_openedValues hv
    rw [Option.bind_some, hsave, hname, ← sent_pyEq_iff]
    cases valueMissing tpl.name <;> cases gate <;> simp

theorem not_valueMissing {s : String} (h : isJsBlank s = false) : valueMissing s = false := by
  rw [← Bool.not_eq_true] at h ⊢
  intro hmissing
  apply h
  rw [isJsBlank, List.isEmpty_iff, trimEnds_eq_nil_iff]
  intro c hc
  have hbreak := List.all_eq_true.mp hmissing c hc
  rw [Bool.or_eq_true, beq_iff_eq, beq_iff_eq] at hbreak
  rcases hbreak with rfl | rfl
  · decide
  · decide

def policyGate (js : JsNumbers) (body : Dict) : Bool :=
  policyRenders js body &&
    match Dict.get? body "description" with
    | some (.str d) => !isJsBlank d
    | _ => false

/-- What a body that is not rebuilt has to pass before it is sent. -/
def gate (js : JsNumbers) (kind : String) (body : Dict) : Bool :=
  if kind = "firewall_rule" then hasText js body "description"
  else if kind = "monit_test" then hasText js body "name"
  else if kind = "ids_policy" then policyGate js body
  else true

def passedKinds : List String :=
  ["opnsense_setting", "suricata_ruleset", "firewall_rule", "monit_test", "ids_policy"]

theorem save_policy (hk : tpl.kind = "ids_policy") (v : FormValues) :
    pressSave js (openedState tpl v) = if !valueMissing v.name && policyGate js tpl.body
      then some ⟨v.name, v.description, js.sent (.obj tpl.body)⟩ else none := by
  cases hrender : policyRenders js tpl.body with
  | false => simp [pressSave, openedState, policyGate, hk, hrender]
  | true =>
    cases hd : Dict.get? tpl.body "description" with
    | none => simp [pressSave, openedState, filledIn, policyGate, hk, hd]
    | some d =>
      cases d with
      | str d =>
        cases hblank : isJsBlank d with
        | true => simp [pressSave, openedState, submit, policyGate, hk, hd, hblank]
        | false =>
          simp [pressSave, openedState, filledIn, submit, policyGate, hk, hd, hblank, hrender,
            not_valueMissing hblank]
      | _ => simp [pressSave, openedState, submit, policyGate, hk, hd]

theorem save_passed (hk : tpl.kind ∈ passedKinds) (v : FormValues) :
    pressSave js (openedState tpl v) = if !valueMissing v.name && gate js tpl.kind tpl.body
      then some ⟨v.name, v.description, js.sent (.obj tpl.body)⟩ else none := by
  simp only [passedKinds, List.mem_cons, List.not_mem_nil, or_false] at hk
  rcases hk with hk | hk | hk | hk | hk
  · simp [pressSave, openedState, filledIn, submit, gate, hk]
  · simp [pressSave, openedState, filledIn, submit, gate, hk]
  · cases h : hasText js tpl.body "description" <;>
      simp [pressSave, openedState, filledIn, submit, gate, hk, h]
  · cases h : hasText js tpl.body "name" <;>
      simp [pressSave, openedState, filledIn, submit, gate, hk, h]
  · rw [save_policy hk, hk]
    rfl

theorem policyRenders_iff {body : Dict} (hvalid : validateIdsPolicy body = .ok ()) :
    policyRenders js body = true ↔ (Dict.get? body "rulesets").isSome = true ∧
      (Dict.get? body "content").isSome = true := by
  obtain ⟨-, hrulesets, hcontent⟩ := (validPolicy hvalid).lists
  rw [Dict.getD] at hrulesets hcontent
  rw [policyRenders, Bool.and_eq_true]
  refine and_congr ?_ ?_
  · cases hr : Dict.get? body "rulesets" with
    | none => simp
    | some v =>
      rw [hr] at hrulesets
      obtain rfl : v = _ := hrulesets
      exact ⟨fun _ => rfl, fun _ => rfl⟩
  · cases hc : Dict.get? body "content" with
    | none => simp
    | some v =>
      rw [hc] at hcontent
      obtain rfl : v = _ := hcontent
      refine ⟨fun _ => rfl, fun _ => List.all_eq_true.mpr fun kv hkv => ?_⟩
      obtain ⟨entry, -, rfl⟩ := List.mem_map.mp hkv
      show (js.texts (entry.2.map .str)).isSome = true
      rw [texts_map]
      rfl

theorem policyGate_iff {body : Dict} (hvalid : validateIdsPolicy body = .ok ()) :
    policyGate js body = true ↔ FormPolicy body := by
  have hd : (match Dict.get? body "description" with
      | some (.str d) => !isJsBlank d
      | _ => false) = true ↔
      ∃ d, Dict.get? body "description" = some (.str d) ∧ isJsBlank d = false := by
    cases Dict.get? body "description" with
    | none => simp
    | some d => cases d <;> simp
  rw [policyGate, Bool.and_eq_true, policyRenders_iff hvalid, hd]
  exact ⟨fun h => ⟨h.1.1, h.1.2, h.2⟩, fun h => ⟨⟨h.rulesets, h.content⟩, h.description⟩⟩

theorem validAlias {body : Dict} (hvalid : validateAliasBody body = .ok ()) :
    (∃ t, Dict.get? body "type" = some (.str t)) ∧
      ∃ xs, Dict.get? body "content" = some (.arr xs) ∧ xs ≠ [] := by
  obtain ⟨-, -, h⟩ := except_bind_ok hvalid
  obtain ⟨known, hknown, h⟩ := except_bind_ok h
  obtain ⟨_, hreq, hcontent⟩ := except_bind_ok h
  obtain rfl : known = true := require_eq_ok.mp hreq
  obtain ⟨t, -, ht⟩ := isOneOf_true hknown
  rw [Dict.getD] at ht
  rw [require_eq_ok, Dict.getD] at hcontent
  constructor
  · cases htype : Dict.get? body "type" with
    | none =>
      rw [htype] at ht
      cases ht
    | some v =>
      rw [htype] at ht
      exact ⟨t, congrArg some ht⟩
  · cases hc : Dict.get? body "content" with
    | none =>
      rw [hc] at hcontent
      cases hcontent
    | some v =>
      rw [hc] at hcontent
      cases v with
      | arr xs => exact ⟨xs, rfl, by simpa using hcontent⟩
      | _ => cases hcontent

theorem sent_aliasBody (v : FormValues) : js.sent (.obj (aliasBody v)) = .obj (aliasBody v) := by
  simp only [JsNumbers.sent, aliasBody, JsNumbers.sentEntries, sentList_texts]

theorem get?_aliasBody (v : FormValues) (k : String) :
    Dict.get? (aliasBody v) k =
      if "name" = k then some (.str v.name) else if "type" = k then some (.str v.type)
      else if "content" = k then some (.arr ((parseContent v.content).map .str))
      else if "description" = k then some (.str v.description) else none := by
  rw [aliasBody, Dict.get?_cons, Dict.get?_cons, Dict.get?_cons, Dict.get?_cons, Dict.get?_nil]

/-- The body of an alias equals what the form builds, key by key. -/
theorem aliasBody_pyEq_iff {v : FormValues} {body : Dict} :
    Json.pyEq (.obj (aliasBody v)) (.obj body) = true ↔
      Dict.get? body "name" = some (.str v.name) ∧ Dict.get? body "type" = some (.str v.type) ∧
        Dict.get? body "content" = some (.arr ((parseContent v.content).map .str)) ∧
        Dict.get? body "description" = some (.str v.description) ∧
        ∀ k ∈ Dict.keys body, k ∈ ["name", "type", "content", "description"] := by
  rw [Json.pyEq_obj_iff]
  constructor
  · intro h
    have htext : ∀ {k s}, Dict.get? (aliasBody v) k = some (.str s) →
        Dict.get? body k = some (.str s) := by
      intro k s hk
      have hrel := h k
      rw [hk] at hrel
      cases hb : Dict.get? body k with
      | none =>
        rw [hb] at hrel
        cases hrel
      | some y =>
        rw [hb] at hrel
        cases hrel with
        | some heq =>
          rw [Json.pyEq_str_left, decide_eq_true_iff] at heq
          rw [heq]
    refine ⟨htext (by rw [get?_aliasBody]; rfl), htext (by rw [get?_aliasBody]; rfl), ?_,
      htext (by rw [get?_aliasBody]; rfl), fun k hk => ?_⟩
    · have hrel := h "content"
      rw [get?_aliasBody] at hrel
      cases hb : Dict.get? body "content" with
      | none =>
        rw [hb] at hrel
        cases hrel
      | some y =>
        rw [hb] at hrel
        cases hrel with
        | some heq => rw [pyEq_texts_iff.mp heq]
    · by_contra hnot
      have hrel := h k
      simp only [List.mem_cons, List.not_mem_nil, or_false, not_or] at hnot
      obtain ⟨h1, h2, h3, h4⟩ := hnot
      rw [get?_aliasBody, if_neg (Ne.symm h1), if_neg (Ne.symm h2), if_neg (Ne.symm h3),
        if_neg (Ne.symm h4)] at hrel
      obtain ⟨y, hy⟩ := Option.isSome_iff_exists.mp (Dict.mem_keys.mp hk)
      rw [hy] at hrel
      cases hrel
  · rintro ⟨hname, htype, hcontent, hdescription, hkeys⟩ k
    rw [get?_aliasBody]
    by_cases h1 : "name" = k
    · rw [if_pos h1, ← h1, hname]
      exact .some (Json.pyEq_refl _)
    by_cases h2 : "type" = k
    · rw [if_neg h1, if_pos h2, ← h2, htype]
      exact .some (Json.pyEq_refl _)
    by_cases h3 : "content" = k
    · rw [if_neg h1, if_neg h2, if_pos h3, ← h3, hcontent]
      exact .some (Json.pyEq_refl _)
    by_cases h4 : "description" = k
    · rw [if_neg h1, if_neg h2, if_neg h3, if_pos h4, ← h4, hdescription]
      exact .some (Json.pyEq_refl _)
    rw [if_neg h1, if_neg h2, if_neg h3, if_neg h4]
    -- no other key is in the body
    cases hb : Dict.get? body k with
    | none => exact .none
    | some y =>
      have hmem := hkeys k (Dict.mem_keys.mpr (by rw [hb]; rfl))
      simp only [List.mem_cons, List.not_mem_nil, or_false] at hmem
      rcases hmem with rfl | rfl | rfl | rfl
      · exact absurd rfl h1
      · exact absurd rfl h2
      · exact absurd rfl h3
      · exact absurd rfl h4

theorem save_alias (hk : tpl.kind = "firewall_alias") (v : FormValues) :
    pressSave js (openedState tpl v) = if !valueMissing v.name && v.content != ""
      then some ⟨v.name, v.description, .obj (aliasBody v)⟩ else none := by
  simp [pressSave, openedState, filledIn, submit, hk, sent_aliasBody]

theorem sentBack_alias_iff (hk : tpl.kind = "firewall_alias")
    (hvalid : validateAliasBody tpl.body = .ok ()) :
    (∃ sent, submitAtOnce js tpl = some sent ∧ Json.pyEq sent.body (.obj tpl.body) = true) ↔
      valueMissing tpl.name = false ∧ FormAlias tpl := by
  constructor
  · rintro ⟨sent, hsent, heq⟩
    obtain ⟨v, hv, hsave⟩ := Option.bind_eq_some_iff.mp hsent
    obtain ⟨hname, hdescription⟩ := names_of_openedValues hv
    rw [save_alias hk] at hsave
    split at hsave
    · rename_i hfilled
      obtain rfl := Option.some.inj hsave
      obtain ⟨hn, -, hc, hd, hkeys⟩ := aliasBody_pyEq_iff.mp heq
      rw [Bool.and_eq_true, Bool.not_eq_true', hname] at hfilled
      rw [hname] at hn
      rw [hdescription] at hd
      exact ⟨hfilled.1, hn, hd, lined_of_parsed hc, hkeys⟩
    · cases hsave
  · rintro ⟨hmissing, hform⟩
    obtain ⟨⟨t, ht⟩, xs, hxs, hne⟩ := validAlias hvalid
    obtain ⟨lines, hlines, hall⟩ := hform.content
    have hopened : openedValues js tpl =
        some ⟨tpl.name, t, "\n".intercalate lines, tpl.description⟩ := by
      rw [openedValues_of_ne (by simp [hk]), JsNumbers.fieldText, ht, templateContent_lines js hlines]
      rfl
    have hfilled : ("\n".intercalate lines != "") = true := by
      rw [bne_iff_ne]
      intro hempty
      have hnil : lines = [] := by
        rw [← parseContent_joined hall, hempty]
        rfl
      rw [hxs, hnil] at hlines
      exact hne (Json.arr.inj (Option.some.inj hlines))
    refine ⟨⟨tpl.name, tpl.description,
      .obj (aliasBody ⟨tpl.name, t, "\n".intercalate lines, tpl.description⟩)⟩, ?_, ?_⟩
    · rw [submitAtOnce, hopened, Option.bind_some, save_alias hk, hmissing, hfilled]
      rfl
    · refine aliasBody_pyEq_iff.mpr ⟨hform.name, ht, ?_, hform.description, hform.keys⟩
      show _ = some (Json.arr ((parseContent ("\n".intercalate lines)).map .str))
      rw [parseContent_joined hall, hlines]

theorem FormAlias.opens (hform : FormAlias tpl) (hvalid : validateAliasBody tpl.body = .ok ()) :
    Opens tpl.body := by
  obtain ⟨⟨t, ht⟩, -⟩ := validAlias hvalid
  obtain ⟨lines, hlines, -⟩ := hform.content
  constructor
  · intro v hv
    rw [ht] at hv
    obtain rfl := Option.some.inj hv
    exact .str t
  · intro xs hxs x hx
    rw [hlines] at hxs
    obtain rfl := Json.arr.inj (Option.some.inj hxs)
    obtain ⟨s, -, rfl⟩ := List.mem_map.mp hx
    exact .str s

theorem kind_cases {kind : String} {body : Dict} (hvalid : validateBody kind body = .ok ()) :
    (kind = "firewall_alias" ∧ validateAliasBody body = .ok ()) ∨
      (kind ∈ passedKinds ∧ (kind = "ids_policy" → validateIdsPolicy body = .ok ())) := by
  obtain ⟨spec, hspec, hbody⟩ := except_bind_ok hvalid
  have hmem := templateKind_mem hspec
  simp only [templateKinds, List.mem_cons, Prod.mk.injEq, List.not_mem_nil, or_false] at hmem
  rcases hmem with ⟨rfl, rfl⟩ | ⟨rfl, rfl⟩ | ⟨rfl, rfl⟩ | ⟨rfl, rfl⟩ | ⟨rfl, rfl⟩ | ⟨rfl, rfl⟩
  · exact .inl ⟨rfl, hbody⟩
  · exact .inr ⟨by simp [passedKinds], by simp⟩
  · exact .inr ⟨by simp [passedKinds], by simp⟩
  · exact .inr ⟨by simp [passedKinds], by simp⟩
  · exact .inr ⟨by simp [passedKinds], by simp⟩
  · exact .inr ⟨by simp [passedKinds], fun _ => hbody⟩

theorem gate_iff {kind : String} {body : Dict}
    (hvalid : kind = "ids_policy" → validateIdsPolicy body = .ok ()) :
    gate js kind body = true ↔ (kind = "firewall_rule" → hasText js body "description" = true) ∧
      (kind = "monit_test" → hasText js body "name" = true) ∧
        (kind = "ids_policy" → FormPolicy body) := by
  rw [gate]
  split
  · rename_i hk
    simp [hk]
  · split
    · rename_i hk
      simp [hk]
    · split
      · rename_i hk
        rw [policyGate_iff (hvalid hk)]
        simp [hk]
      · simp_all

/-- **The modal sends a body back exactly when `SentBack` says so.** -/
theorem submitAtOnce_iff (hvalid : validateBody tpl.kind tpl.body = .ok ()) :
    (∃ sent, submitAtOnce js tpl = some sent ∧ Json.pyEq sent.body (.obj tpl.body) = true) ↔
      SentBack js tpl := by
  rcases kind_cases hvalid with ⟨hk, halias⟩ | ⟨hk, hpolicy⟩
  · rw [sentBack_alias_iff hk halias]
    constructor
    · rintro ⟨hname, hform⟩
      exact
        { name := hname
          opens := fun _ => hform.opens halias
          numbers := fun hne => absurd hk hne
          formAlias := fun _ => hform
          rule := fun h => absurd (hk.symm.trans h) (by decide)
          test := fun h => absurd (hk.symm.trans h) (by decide)
          formPolicy := fun h => absurd (hk.symm.trans h) (by decide) }
    · exact fun h => ⟨h.name, h.formAlias hk⟩
  · have hne : tpl.kind ≠ "firewall_alias" := by
      intro h
      rw [h] at hk
      simp [passedKinds] at hk
    rw [sentBack_gate_iff (save_passed hk), gate_iff hpolicy]
    constructor
    · rintro ⟨hname, hopens, hkeeps, hrule, htest, hform⟩
      exact ⟨hname, hopens, fun _ => hkeeps, fun h => absurd h hne, hrule, htest, hform⟩
    · exact fun h => ⟨h.name, h.opens, h.numbers hne, h.rule, h.test, h.formPolicy⟩

end Modal

/-- **Saving without editing.**  For a valid body, what the modal sends at once equals it exactly
when `SentBack` says so, and the override left as it is keeps it, and so its validity, exactly when
it has lines for content. -/
theorem unedited_save_iff (js : JsNumbers) (override : String) (tpl : TemplateOut)
    (hvalid : validateBody tpl.kind tpl.body = .ok ()) :
    ((∃ sent, submitAtOnce js tpl = some sent ∧
        Json.pyEq sent.body (.obj tpl.body) = true) ↔ SentBack js tpl) ∧
      ((∃ eff,
        effectiveBody tpl.kind tpl.body (saveOverride (pickTemplate js override tpl)) = .ok eff ∧
        Json.pyEq (.obj eff) (.obj tpl.body) = true ∧ validateBody tpl.kind eff = .ok ()) ↔
        Lined tpl.body) :=
  ⟨submitAtOnce_iff hvalid, override_kept_iff js override hvalid⟩

def exactNumbers : JsNumbers := ⟨.int, .float, toString, id⟩

/-- An alias as the form builds it. -/
def formedAlias : TemplateOut where
  kind := "firewall_alias"
  name := "blocklist"
  description := "bad hosts"
  body := [("name", .str "blocklist"), ("type", .str "host"),
    ("content", .arr [.str "192.0.2.1", .str "192.0.2.2"]), ("description", .str "bad hosts")]

theorem formedAlias_lined : Lined formedAlias.body := by
  refine ⟨["192.0.2.1", "192.0.2.2"], rfl, fun l hl => ?_⟩
  rcases List.mem_pair.mp hl with rfl | rfl
  · exact ⟨by decide +kernel, by decide +kernel, by decide +kernel⟩
  · exact ⟨by decide +kernel, by decide +kernel, by decide +kernel⟩

theorem unedited_save_alias :
    (∃ sent, submitAtOnce exactNumbers formedAlias = some sent ∧
        Json.pyEq sent.body (.obj formedAlias.body) = true) ∧
      ∃ eff, effectiveBody formedAlias.kind formedAlias.body
          (saveOverride (pickTemplate exactNumbers "" formedAlias)) = .ok eff ∧
        Json.pyEq (.obj eff) (.obj formedAlias.body) = true ∧
        validateBody formedAlias.kind eff = .ok () := by
  have hvalid : validateBody formedAlias.kind formedAlias.body = .ok () := by decide +kernel
  have hform : FormAlias formedAlias := ⟨rfl, rfl, formedAlias_lined, by decide +kernel⟩
  have hsent : SentBack exactNumbers formedAlias :=
    { name := by decide +kernel
      opens := fun _ => hform.opens hvalid
      numbers := fun hne => absurd rfl hne
      formAlias := fun _ => hform
      rule := fun h => absurd h (by decide)
      test := fun h => absurd h (by decide)
      formPolicy := fun h => absurd h (by decide) }
  have hsave := unedited_save_iff exactNumbers "" formedAlias hvalid
  exact ⟨hsave.1.mpr hsent, hsave.2.mpr formedAlias_lined⟩

/-- An alias that was stored through the API under another name than its template, and with a
key that the form does not have. -/
def storedAlias : TemplateOut where
  kind := "firewall_alias"
  name := "Blocklist of the branch offices"
  description := ""
  body := [("name", .str "blocklist"), ("type", .str "host"),
    ("content", .arr [.str "192.0.2.1"]), ("proto", .str "IPv4")]

/-- A policy with a filter on its rules. -/
def filteredPolicy : TemplateOut where
  kind := "ids_policy"
  name := "drop"
  description := ""
  body := [("description", .str "drop"), ("enabled", .str "1"), ("prio", .str "0"),
    ("action", .arr [.str "alert"]), ("rulesets", .arr [.str "botcc.rules"]),
    ("content", .obj [("signature_severity", .arr [.str "Major"])]), ("new_action", .str "drop")]

/-- The alias is renamed and loses its key; the content of the policy becomes a list, which is not
valid. -/
theorem unedited_lost :
    (validateBody storedAlias.kind storedAlias.body = .ok () ∧
      ∃ sent, submitAtOnce exactNumbers storedAlias = some sent ∧
        sent.body = .obj [("name", .str "Blocklist of the branch offices"), ("type", .str "host"),
          ("content", .arr [.str "192.0.2.1"]), ("description", .str "")] ∧
        Json.pyEq sent.body (.obj storedAlias.body) = false) ∧
    (validateBody filteredPolicy.kind filteredPolicy.body = .ok () ∧
      ∃ eff, effectiveBody filteredPolicy.kind filteredPolicy.body
          (saveOverride (pickTemplate exactNumbers "" filteredPolicy)) = .ok eff ∧
        Dict.get? eff "content" = some (.arr []) ∧
        Json.pyEq (.obj eff) (.obj filteredPolicy.body) = false ∧
        validateBody filteredPolicy.kind eff = .error (.invalidTemplate
          "ids policy 'content' must be an object of metadata-key -> [values]")) := by
  refine ⟨⟨by decide +kernel, _, rfl, by decide +kernel, by decide +kernel⟩,
    ⟨by decide +kernel, _, rfl, by decide +kernel, by decide +kernel, by decide +kernel⟩⟩

end UneditedTemplates

end Opngms
