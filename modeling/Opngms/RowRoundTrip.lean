/-
Opngms/RowRoundTrip.lean

A row of a grid on its way from the device into the editor and back.

`_walk` flattens the containers inside a row to dotted paths.  `extract_grid_rows` looks a
field up under its whole path, as one key of the row; `CatalogGridTable` puts the value,
joined with commas, into an item under the same path; and `apply_grid_item` posts the item
as it is, a flat object.  The scalars of a model are walked and nested again
(`flatten_values`, `_unflatten`), the fields of a row are not.

The box of this module merges what is posted into the row that it has: below a container
key by key, a text into a leaf, and of an option field it selects the keys that the text
lists; a key that the row has not is ignored.

Main result: **`grid_round_trip_iff`**, which says for each answer of a device whether
every row comes back as it is, and for each new row whether what was entered is read back.
-/
import Opngms.Addressable
import Opngms.CatalogRun
import Opngms.Editor
import Opngms.PolicyBodies

namespace Opngms

namespace RowRoundTrip

open LiveValues Editor

/-! ### The rows of a device -/

/-- The value at the end of a path: containers on the way, a text or an option field as
leaf. -/
def reach : Json → List String → Option Current
  | v, [] => scalar v
  | .obj kvs, k :: path =>
    if isOptionDict (.obj kvs) then none else (Dict.get? kvs k).bind fun v => reach v path
  | _, _ :: _ => none

/-- The current value of a field of a row, whose path is relative to the row. -/
def fieldAt (cells : Dict) (path : String) : Option Current :=
  match splitDots path with
  | [] => none
  | k :: rest => (Dict.get? cells k).bind fun v => reach v rest

def under (cells : Dict) (path : String) : Option Current := (Dict.get? cells path).bind scalar

/-! ### The box -/

/-- An option field takes a text: the keys listed in it are selected. -/
def choose (kvs : Dict) (s : String) : Dict :=
  kvs.map fun kv =>
    (kv.1, match kv.2 with
      | .obj o => .obj (Dict.set o "selected" (.str (if kv.1 ∈ splitCommas s then "1" else "0")))
      | v => v)

mutual

/-- What a node of a row holds once a value is posted to it. -/
def store : Json → Json → Json
  | .obj kvs, posted =>
    if isOptionDict (.obj kvs) then
      match posted with
      | .str s => .obj (choose kvs s)
      | _ => .obj kvs
    else
      match posted with
      | .obj item => .obj (storeAll kvs item)
      | _ => .obj kvs
  | .str t, posted =>
    match posted with
    | .str s => .str s
    | _ => .str t
  | v, _ => v

/-- The entries of a container, or of a row, once an item is posted to it. -/
def storeAll : List (String × Json) → Dict → List (String × Json)
  | [], _ => []
  | (k, v) :: kvs, item =>
    (k, match Dict.get? item k with
      | some posted => store v posted
      | none => v) :: storeAll kvs item

end

/-! ### The editor -/

def Current.toFieldValue : Current → FieldValue
  | .text s => .text s
  | .keys ks => .many ks

/-- A row as the frontend gets it; its `uuid` has to be a text. -/
def gridRow (row : List (String × Current)) : Option GridRow :=
  match row.lookup "uuid" with
  | some (.text u) => some ⟨u, row.map fun kv => (kv.1, Current.toFieldValue kv.2)⟩
  | _ => none

/-- The operation of a row that is opened and saved. -/
def unedited (grid : Grid) (row : GridRow) : Option CatalogGridOpIn :=
  (GridTable.fresh.openEdit grid row).editing.map (savedOp grid)

/-- The operation of a new row with the values entered, in their order. -/
def entered (grid : Grid) (edits : List (String × String)) : Option CatalogGridOpIn :=
  (edits.foldl (fun t e => t.editItem e.1 e.2) (GridTable.fresh.openAdd grid)).editing.map
    (savedOp grid)

/-- The value entered last in a field. -/
def lastEntered (edits : List (String × String)) (path : String) : String :=
  (edits.reverse.lookup path).getD ""

/-- The request for an operation, by `_build_payload` and `apply_grid_item`. -/
def posted (model : Model) (op : CatalogGridOpIn) : Except Raised Request := do
  gridStep (← gridPayload model op)

/-! ### Round trips -/

/-- The row is read as it is, and saving it unedited sets it to what it is. -/
def Kept (model : Model) (grid : Grid) (uuid : String) (cells : Dict)
    (row : List (String × Current)) : Prop :=
  (∀ path ∈ grid.fields.map Field.path, row.lookup path = fieldAt cells path) ∧
    ∃ shown op p name item, gridRow row = some shown ∧ unedited grid shown = some op ∧
      op.op = .set ∧ posted model op = .ok (.gridSet p uuid name (.obj item)) ∧
      ∀ path ∈ grid.fields.map Field.path, fieldAt (storeAll cells item) path = fieldAt cells path

/-- Every row of the answer is kept. -/
def RowsKept (model : Model) (grid : Grid) (response : Json) (rows : List (String × Dict)) : Prop :=
  ∃ extracted, extractGridRows response model grid = .ok extracted ∧
    List.Forall₂ (fun r row => Kept model grid r.1 r.2 row) rows extracted

/-- The value that is read is the value that was entered; of an option field, as a list of
keys. -/
def Gives : Current → String → Prop
  | .text t, s => t = s
  | .keys ks, s => ∀ k, k ≠ "" → (k ∈ ks ↔ k ∈ splitCommas s)

/-- A new row, made from a blank one, is read back with the values entered. -/
def ReadBack (model : Model) (grid : Grid) (uuid : String) (blank : Dict)
    (edits : List (String × String)) : Prop :=
  ∃ op p name item, entered grid edits = some op ∧
    posted model op = .ok (.gridAdd p name (.obj item)) ∧
    ∀ path ∈ grid.fields.map Field.path, ∃ c,
      (rowOf uuid (storeAll blank item) (grid.fields.map Field.path)).lookup path = some c ∧
        Gives c (lastEntered edits path)

/-! ### What rows come back -/

def isSelected : Json → Bool
  | .obj o => (Dict.getD o "selected" .null).pyStr == "1"
  | _ => false

/-- The option field takes the list of its selected keys as it is. -/
def Rereads (kvs : Dict) : Prop :=
  ∀ kv ∈ kvs, kv.1 ∈ splitCommas (",".intercalate (selected kvs)) ↔ isSelected kv.2 = true

/-- A field of a row that comes back. -/
structure Returns (uuid : String) (cells : Dict) (path : String) : Prop where
  /-- It has its value under the path as one key, or the empty text and no such key. -/
  read : under cells path = fieldAt cells path ∨
    (fieldAt cells path = some (.text "") ∧ under cells path = none)
  /-- It does not take the place of another uuid. -/
  own : path = "uuid" → fieldAt cells path = some (.text uuid)
  options : splitDots path = [path] → ∀ kvs, Dict.get? cells path = some (.obj kvs) → Rereads kvs

/-- A field of a blank row that takes the value entered. -/
def Takes (blank : Dict) (path s : String) : Prop :=
  match Dict.get? blank path with
  | some (.str _) => True
  | some (.obj kvs) =>
    if isOptionDict (.obj kvs) then ∀ k ∈ splitCommas s, k ≠ "" → k ∈ Dict.keys kvs else s = ""
  | _ => s = ""

/-! ### Paths -/

theorem join_splitDots (path : String) :
    ['.'].intercalate ((splitDots path).map String.toList) = path.toList := by
  have hid : String.toList ∘ String.ofList = id := by
    funext cs
    exact String.toList_ofList
  rw [splitDots, List.map_map, hid, List.map_id, List.intercalate_splitOn]

theorem eq_of_splitDots {path k : String} (h : splitDots path = [k]) : k = path := by
  have hjoin := join_splitDots path
  rw [h] at hjoin
  exact String.toList_injective (by simpa using hjoin)

theorem splitDots_part {path k : String} (h : k ∈ splitDots path) : splitDots k = [k] := by
  obtain ⟨cs, hcs, rfl⟩ := List.mem_map.mp h
  rw [splitDots, String.toList_ofList, List.splitOn_eq_singleton (not_mem_of_mem_splitOn hcs)]
  rfl

theorem fieldAt_plain {path : String} (h : splitDots path = [path]) (cells : Dict) :
    fieldAt cells path = under cells path := by
  rw [fieldAt, h]
  rfl

/-! ### What the box stores -/

theorem get?_storeAll (kvs item : Dict) (k : String) :
    Dict.get? (storeAll kvs item) k = (Dict.get? kvs k).map fun v =>
      match Dict.get? item k with
      | some posted => store v posted
      | none => v := by
  induction kvs with
  | nil => rfl
  | cons kv kvs ih =>
    obtain ⟨k', v⟩ := kv
    rw [storeAll, Dict.get?_cons, Dict.get?_cons, ih]
    by_cases hk : k' = k
    · rw [if_pos hk, if_pos hk, hk]
      rfl
    · rw [if_neg hk, if_neg hk]

def listed (kvs : Dict) (s : String) : List String :=
  (kvs.filter fun kv => decide (kv.1 ∈ splitCommas s)).map (·.1)

theorem mem_listed {kvs : Dict} {s k : String} :
    k ∈ listed kvs s ↔ k ∈ Dict.keys kvs ∧ k ∈ splitCommas s := by
  rw [listed, List.mem_map, Dict.keys, List.mem_map]
  constructor
  · rintro ⟨kv, hkv, rfl⟩
    obtain ⟨hmem, hs⟩ := List.mem_filter.mp hkv
    exact ⟨⟨kv, hmem, rfl⟩, of_decide_eq_true hs⟩
  · rintro ⟨⟨kv, hkv, rfl⟩, hs⟩
    exact ⟨kv, List.mem_filter.mpr ⟨hkv, decide_eq_true hs⟩, rfl⟩

theorem option_entry {kvs : Dict} (h : isOptionDict (.obj kvs) = true) :
    kvs ≠ [] ∧ ∀ kv ∈ kvs, ∃ o, kv.2 = .obj o ∧ (Dict.get? o "selected").isSome = true := by
  obtain ⟨hne, hall⟩ := Bool.and_eq_true_iff.mp h
  refine ⟨?_, fun kv hkv => ?_⟩
  · rintro rfl
    cases hne
  · have hkv' := List.all_eq_true.mp hall kv hkv
    cases hv : kv.2 with
    | obj o =>
      rw [hv] at hkv'
      exact ⟨o, rfl, hkv'⟩
    | _ =>
      rw [hv] at hkv'
      cases hkv'

theorem scalar_choose {kvs : Dict} (h : isOptionDict (.obj kvs) = true) (s : String) :
    scalar (.obj (choose kvs s)) = some (.keys (listed kvs s)) := by
  obtain ⟨hne, hentry⟩ := option_entry h
  have hoption : isOptionDict (.obj (choose kvs s)) = true := by
    refine Bool.and_eq_true_iff.mpr ⟨?_, List.all_eq_true.mpr fun kv hkv => ?_⟩
    · cases kvs with
      | nil => exact absurd rfl hne
      | cons kv kvs => rfl
    · obtain ⟨kv₀, hkv₀, rfl⟩ := List.mem_map.mp hkv
      obtain ⟨o, ho, -⟩ := hentry kv₀ hkv₀
      simp [ho]
  have hselected : selected (choose kvs s) = listed kvs s := by
    rw [selected, choose, List.filter_map, List.map_map, listed]
    refine congrArg (List.map _) (List.filter_congr fun kv hkv => ?_)
    obtain ⟨o, ho, -⟩ := hentry kv hkv
    by_cases hs : kv.1 ∈ splitCommas s
    · simp [ho, hs, Dict.getD, Json.pyStr_str]
    · simp [ho, hs, Dict.getD, Json.pyStr_str]
  rw [scalar, hoption, hselected]
  rfl

theorem scalar_text {v : Json} {t : String} (h : scalar v = some (.text t)) : v = .str t := by
  cases v with
  | obj kvs =>
    rw [scalar] at h
    split at h <;> cases h
  | str s =>
    obtain rfl := Current.text.inj (Option.some.inj h)
    rfl
  | _ => cases h

theorem scalar_keys {v : Json} {ks : List String} (h : scalar v = some (.keys ks)) :
    ∃ kvs, v = .obj kvs ∧ isOptionDict (.obj kvs) = true ∧ ks = selected kvs := by
  cases v with
  | obj kvs =>
    rw [scalar] at h
    split at h
    · rename_i hoption
      exact ⟨kvs, rfl, hoption, (Current.keys.inj (Option.some.inj h)).symm⟩
    · cases h
  | str s => cases Option.some.inj h
  | _ => cases h

theorem filter_keys_eq_iff {kvs : Dict} {p : String → Bool} {q : Json → Bool} :
    (kvs.filter fun kv => p kv.1).map (·.1) = (kvs.filter fun kv => q kv.2).map (·.1) ↔
      ∀ kv ∈ kvs, p kv.1 = q kv.2 := by
  constructor
  · intro h kv hkv
    -- the entries with this key
    have hsame := congrArg (fun ks => (ks.filter (· == kv.1)).length) h
    simp only [List.filter_map, List.length_map, List.filter_filter, Function.comp_def] at hsame
    have hmem : kv ∈ kvs.filter fun e => e.1 == kv.1 := List.mem_filter.mpr ⟨hkv, beq_self_eq_true _⟩
    have hby : (kvs.filter fun e => e.1 == kv.1 && p e.1) =
        (kvs.filter fun e => e.1 == kv.1).filter fun _ => p kv.1 := by
      rw [List.filter_filter]
      refine List.filter_congr fun e _ => ?_
      cases he : e.1 == kv.1 with
      | false => simp
      | true => rw [beq_iff_eq.mp he, Bool.and_comm]
    have hother : (kvs.filter fun e => e.1 == kv.1 && q e.2) =
        (kvs.filter fun e => e.1 == kv.1).filter fun e => q e.2 := by
      rw [List.filter_filter]
      exact List.filter_congr fun e _ => Bool.and_comm _ _
    rw [hby, hother] at hsame
    cases hp : p kv.1 with
    | true =>
      rw [hp, List.filter_true] at hsame
      exact (List.length_filter_eq_length_iff.mp hsame.symm kv hmem).symm
    | false =>
      rw [hp, List.filter_false, List.length_nil] at hsame
      have hnil := List.length_eq_zero_iff.mp hsame.symm
      have hq := List.filter_eq_nil_iff.mp hnil kv hmem
      exact (Bool.eq_false_iff.mpr hq).symm
  · intro h
    exact congrArg (List.map _) (List.filter_congr h)

theorem selected_eq (kvs : Dict) :
    selected kvs = (kvs.filter fun kv => isSelected kv.2).map (·.1) := rfl

theorem listed_iff {kvs : Dict} :
    listed kvs (",".intercalate (selected kvs)) = selected kvs ↔ Rereads kvs := by
  have hkeys := @filter_keys_eq_iff kvs
    (fun k => decide (k ∈ splitCommas (",".intercalate (selected kvs)))) isSelected
  rw [← selected_eq] at hkeys
  refine hkeys.trans (forall₂_congr fun kv _ => ?_)
  rw [Bool.eq_iff_iff, decide_eq_true_iff]

theorem rereads_of_plain {kvs : Dict} (hnodup : (Dict.keys kvs).Nodup)
    (hplain : ∀ k ∈ Dict.keys kvs, ',' ∉ k.toList)
    (h : selected kvs ≠ [] ∨ "" ∉ Dict.keys kvs) : Rereads kvs := by
  intro kv hkv
  have hkey : kv.1 ∈ Dict.keys kvs := List.mem_map_of_mem hkv
  have hselected : kv.1 ∈ selected kvs ↔ isSelected kv.2 = true := by
    rw [selected_eq, List.mem_map]
    constructor
    · rintro ⟨kv', hkv', heq⟩
      obtain ⟨hmem, hsel⟩ := List.mem_filter.mp hkv'
      exact List.inj_on_of_nodup_map hnodup hmem hkv heq ▸ hsel
    · intro hsel
      exact ⟨kv, List.mem_filter.mpr ⟨hkv, hsel⟩, rfl⟩
  rw [← hselected]
  by_cases hnone : selected kvs = []
  · have hempty : kv.1 ≠ "" := fun heq => (h.resolve_left (not_not.mpr hnone)) (heq ▸ hkey)
    have hsplit : splitCommas "" = [""] := by decide +kernel
    rw [hnone, show ",".intercalate [] = "" from rfl, hsplit]
    simp [hempty]
  · rw [splitCommas_joined (fun k hk => hplain k ?_) hnone]
    rw [selected_eq] at hk
    obtain ⟨kv', hkv', rfl⟩ := List.mem_map.mp hk
    exact List.mem_map_of_mem (List.mem_of_mem_filter hkv')

theorem returns_of_plain {uuid : String} {cells : Dict} {path : String}
    (hplain : splitDots path = [path]) (huuid : path ≠ "uuid")
    (hoptions : ∀ kvs, Dict.get? cells path = some (.obj kvs) → Rereads kvs) :
    Returns uuid cells path where
  read := .inl (fieldAt_plain hplain cells).symm
  own h := absurd h huuid
  options _ := hoptions

theorem scalar_store (v : Json) (s : String) :
    scalar (store v (.str s)) = match v with
      | .str _ => some (.text s)
      | .obj kvs => if isOptionDict (.obj kvs) then some (.keys (listed kvs s)) else none
      | _ => none := by
  cases v with
  | obj kvs =>
    rw [store]
    cases h : isOptionDict (.obj kvs) with
    | true => simpa [h] using scalar_choose h s
    | false => simp [scalar, h]
  | str t => rw [store, scalar]
  | _ => rw [store] <;> first | rfl | simp

/-! ### What the editor sends -/

theorem lookup_map_values {α β : Type} (f : α → β) (d : List (String × α)) (k : String) :
    (d.map fun kv => (kv.1, f kv.2)).lookup k = (d.lookup k).map f := by
  induction d with
  | nil => rfl
  | cons kv d ih =>
    obtain ⟨k', v⟩ := kv
    rw [List.map_cons, List.lookup_cons, List.lookup_cons, ih]
    cases k == k' <;> rfl

/-- A value as the table shows it. -/
def display : Current → String
  | .text s => s
  | .keys ks => ",".intercalate ks

theorem toStr_display (c : Current) : toStr (some (Current.toFieldValue c)) = display c := by
  cases c <;> rfl

theorem lookup_rowOf (uuid : String) (cells : Dict) (paths : List String) (path : String) :
    (rowOf uuid cells paths).lookup path =
      if path ∈ paths then some ((under cells path).getD (.text ""))
      else if path = "uuid" then some (.text uuid) else none := by
  have hscalar : ∀ fp, (scalar (Dict.getD cells fp .null)).getD (.text "") =
      (under cells fp).getD (.text "") := by
    intro fp
    rw [under, Dict.getD]
    cases Dict.get? cells fp <;> rfl
  have hfold := lookup_foldl_putEntry id
    (fun fp => (scalar (Dict.getD cells fp .null)).getD (.text "")) paths
    [("uuid", Current.text uuid)] path
  rw [List.map_id, hscalar] at hfold
  refine hfold.trans ?_
  by_cases hp : path = "uuid"
  · simp [hp]
  · rw [List.lookup_cons, beq_false_of_ne hp, if_neg hp]
    rfl

section Sent

variable {model : Model} {grid : Grid}

/-- The endpoints of the grid are there and fit for a URL. -/
def Reachable (model : Model) (grid : Grid) : Prop :=
  ∃ g, model.grids.reverse.find? (fun g => g.path == grid.path) = some g ∧
    ∀ verb : GridVerb, ∃ p, g.endpoints.lookup verb.text = some p ∧ safePath p = true

theorem posted_set (h : Reachable model grid) {u : String} (hu : safeName u = true)
    (item : List (String × String)) :
    ∃ p, posted model ⟨.set, grid.path, some u, some (strDict item)⟩ =
      .ok (.gridSet p u (lastSegment grid.path) (.obj (strDict item))) := by
  obtain ⟨g, hg, hlook⟩ := h
  obtain ⟨p, hp, hsafe⟩ := hlook .set
  have hpayload : gridPayload model ⟨.set, grid.path, some u, some (strDict item)⟩ =
      .ok (gridEntry "set" (.obj (strDict g.endpoints)) (.str (lastSegment grid.path)) (.str u)
        (.obj (strDict item))) := by
    rw [gridPayload, hg]
    simp [ne_empty_of_safeName hu]
    rfl
  refine ⟨p, ?_⟩
  rw [posted, hpayload]
  refine (gridStep_set _ _ hp hsafe hu).trans ?_
  rw [Json.orElse_obj]

theorem posted_add (h : Reachable model grid) (item : List (String × String)) :
    ∃ p, posted model ⟨.add, grid.path, none, some (strDict item)⟩ =
      .ok (.gridAdd p (lastSegment grid.path) (.obj (strDict item))) := by
  obtain ⟨g, hg, hlook⟩ := h
  obtain ⟨p, hp, hsafe⟩ := hlook .add
  have hpayload : gridPayload model ⟨.add, grid.path, none, some (strDict item)⟩ =
      .ok (gridEntry "add" (.obj (strDict g.endpoints)) (.str (lastSegment grid.path)) .null
        (.obj (strDict item))) := by
    rw [gridPayload, hg]
    simp
    rfl
  refine ⟨p, ?_⟩
  rw [posted, hpayload]
  refine (gridStep_add _ _ _ hp hsafe).trans ?_
  rw [Json.orElse_obj]

theorem posted_set_inv {u p uuid name : String} {d item : Dict}
    (h : posted model ⟨.set, grid.path, some u, some d⟩ = .ok (.gridSet p uuid name (.obj item))) :
    uuid = u := by
  obtain ⟨g, hg, hstep⟩ := except_bind_ok h
  unfold gridPayload at hg
  split at hg
  · cases hg
  · split at hg
    · cases hg
    · split at hg
      · cases hg
      · obtain rfl := Except.ok.inj hg
        replace hstep := (gridStep_entry "set" _ _ (.str u) _).symm.trans hstep
        rw [gridRequest, if_neg (by decide), if_pos (.inl rfl)] at hstep
        split at hstep
        · cases hstep
        · dsimp only at hstep
          split at hstep
          · rw [if_pos rfl] at hstep
            obtain ⟨ep, -, hstep⟩ := except_bind_ok hstep
            obtain ⟨path, -, hstep⟩ := except_bind_ok hstep
            obtain ⟨key, -, hstep⟩ := except_bind_ok hstep
            exact (Request.gridSet.inj (Except.ok.inj hstep)).2.1.symm
          · cases hstep

/-! ### A new row -/

def newItem (grid : Grid) (edits : List (String × String)) : List (String × String) :=
  edits.foldl (fun d e => putEntry d e.1 e.2)
    (grid.fields.foldl (fun d f => putEntry d f.path "") [])

theorem entered_eq (grid : Grid) (edits : List (String × String)) :
    entered grid edits = some ⟨.add, grid.path, none, some (strDict (newItem grid edits))⟩ := by
  have hfold : ∀ t : GridTable, ∀ d, t.editing = some (none, d) →
      (edits.foldl (fun t e => t.editItem e.1 e.2) t).editing =
        some (none, edits.foldl (fun d e => putEntry d e.1 e.2) d) := by
    induction edits with
    | nil => exact fun t d h => h
    | cons e edits ih =>
      intro t d h
      refine ih (t.editItem e.1 e.2) (putEntry d e.1 e.2) ?_
      rw [GridTable.editItem, h]
      rfl
  rw [entered, hfold _ _ rfl]
  rfl

theorem lookup_newItem (edits : List (String × String)) {path : String}
    (hpath : path ∈ grid.fields.map Field.path) :
    (newItem grid edits).lookup path = some (lastEntered edits path) := by
  have hfold : ∀ d : List (String × String),
      (edits.foldl (fun d e => putEntry d e.1 e.2) d).lookup path =
        (edits.reverse.lookup path).or (d.lookup path) := by
    induction edits using List.reverseRecOn with
    | nil => exact fun d => rfl
    | append_singleton edits e ih =>
      intro d
      rw [List.foldl_append, List.foldl_cons, List.foldl_nil, lookup_putEntry, ih,
        List.reverse_append, List.reverse_singleton, List.singleton_append, List.lookup_cons]
      by_cases hp : path = e.1
      · simp [hp]
      · rw [if_neg hp, beq_false_of_ne hp]
  rw [newItem, hfold, lookup_foldl_putEntry Field.path (fun _ => "") grid.fields [] path,
    if_pos hpath, lastEntered]
  cases edits.reverse.lookup path <;> rfl

theorem gives_iff {blank item : Dict} {path s : String}
    (hitem : Dict.get? item path = some (.str s)) :
    Gives ((under (storeAll blank item) path).getD (.text "")) s ↔ Takes blank path s := by
  rw [under, get?_storeAll, hitem, Takes]
  cases Dict.get? blank path with
  | none => exact eq_comm
  | some v =>
    rw [Option.map_some, Option.bind_some, scalar_store]
    cases v with
    | str t => exact iff_of_true rfl trivial
    | obj kvs =>
      dsimp only
      cases hoption : isOptionDict (.obj kvs) with
      | true =>
        show (∀ k, k ≠ "" → (k ∈ listed kvs s ↔ k ∈ splitCommas s)) ↔ ∀ k ∈ splitCommas s, k ≠ "" → _
        constructor
        · intro h k hk hne
          exact (mem_listed.mp ((h k hne).mpr hk)).1
        · intro h k hne
          rw [mem_listed]
          exact ⟨fun hk => hk.2, fun hk => ⟨h k hk hne, hk⟩⟩
      | false => exact eq_comm
    | _ => exact eq_comm

theorem readBack_iff (h : Reachable model grid) (uuid : String) (blank : Dict)
    (edits : List (String × String)) :
    ReadBack model grid uuid blank edits ↔
      ∀ path ∈ grid.fields.map Field.path, Takes blank path (lastEntered edits path) := by
  obtain ⟨p, hposted⟩ := posted_add h (newItem grid edits)
  have hread : ∀ path ∈ grid.fields.map Field.path,
      ((∃ c, (rowOf uuid (storeAll blank (strDict (newItem grid edits)))
          (grid.fields.map Field.path)).lookup path = some c ∧ Gives c (lastEntered edits path)) ↔
        Takes blank path (lastEntered edits path)) := by
    intro path hpath
    have hitem : Dict.get? (strDict (newItem grid edits)) path =
        some (.str (lastEntered edits path)) := by
      rw [get?_strDict, lookup_newItem edits hpath]
      rfl
    rw [lookup_rowOf, if_pos hpath, ← gives_iff hitem]
    simp
  constructor
  · rintro ⟨op, p', name, item, hop, hp', hback⟩ path hpath
    obtain rfl := Option.some.inj ((entered_eq grid edits).symm.trans hop)
    obtain ⟨-, -, hitem⟩ := Request.gridAdd.inj (Except.ok.inj (hposted.symm.trans hp'))
    obtain rfl := Json.obj.inj hitem
    exact (hread path hpath).mp (hback path hpath)
  · intro htakes
    exact ⟨_, p, _, _, entered_eq grid edits, hposted, fun path hpath =>
      (hread path hpath).mpr (htakes path hpath)⟩

/-! ### A row that is saved unedited -/

theorem gridRow_some {row : List (String × Current)} {shown : GridRow}
    (h : gridRow row = some shown) :
    row.lookup "uuid" = some (.text shown.uuid) ∧
      shown.cells = row.map fun kv => (kv.1, Current.toFieldValue kv.2) := by
  unfold gridRow at h
  split at h
  · rename_i u hu
    obtain rfl := Option.some.inj h
    exact ⟨hu, rfl⟩
  · cases h

theorem gridRow_of_uuid {row : List (String × Current)} {uuid : String}
    (h : row.lookup "uuid" = some (.text uuid)) :
    ∃ shown, gridRow row = some shown ∧ shown.uuid = uuid := by
  have hshown : gridRow row =
      some ⟨uuid, row.map fun kv => (kv.1, Current.toFieldValue kv.2)⟩ := by
    rw [gridRow, h]
  exact ⟨_, hshown, rfl⟩

def shownItem (grid : Grid) (shown : GridRow) : List (String × String) :=
  grid.fields.foldl (fun d f => putEntry d f.path (toStr (shown.cells.lookup f.path))) []

theorem unedited_eq {shown : GridRow} (h : shown.uuid ≠ "") :
    unedited grid shown =
      some ⟨.set, grid.path, some shown.uuid, some (strDict (shownItem grid shown))⟩ :=
  congrArg some (if_pos h)

theorem lookup_shownItem {uuid : String} {cells : Dict} {shown : GridRow}
    (h : gridRow (rowOf uuid cells (grid.fields.map Field.path)) = some shown) (path : String) :
    (shownItem grid shown).lookup path = if path ∈ grid.fields.map Field.path then
      some (display ((under cells path).getD (.text ""))) else none := by
  obtain ⟨-, hcells⟩ := gridRow_some h
  rw [shownItem, lookup_foldl_putEntry Field.path (fun path => toStr (shown.cells.lookup path))
    grid.fields [] path]
  by_cases hpath : path ∈ grid.fields.map Field.path
  · rw [if_pos hpath, if_pos hpath, hcells, lookup_map_values, lookup_rowOf, if_pos hpath,
      Option.map_some, toStr_display]
  · rw [if_neg hpath, if_neg hpath, List.lookup_nil]

variable {cells item : Dict} {path : String}

theorem fieldAt_storeAll_nested
    (hheld : ∀ path ∈ grid.fields.map Field.path, (fieldAt cells path).isSome)
    (hitem : ∀ k, k ∉ grid.fields.map Field.path → Dict.get? item k = none)
    (hpath : path ∈ grid.fields.map Field.path) (hnested : splitDots path ≠ [path]) :
    fieldAt (storeAll cells item) path = fieldAt cells path := by
  have hsome := hheld path hpath
  rw [fieldAt] at hsome ⊢
  rw [fieldAt]
  cases hparts : splitDots path with
  | nil => rfl
  | cons k rest =>
    rw [hparts] at hsome
    dsimp only at hsome ⊢
    rw [get?_storeAll]
    cases hv : Dict.get? cells k with
    | none => rfl
    | some v =>
      cases hposted : Dict.get? item k with
      | none => rfl
      | some posted =>
        -- a field under the first part would be a leaf
        have hk : k ∈ grid.fields.map Field.path := by
          by_contra hnot
          rw [hitem k hnot] at hposted
          cases hposted
        have hleaf := hheld k hk
        rw [fieldAt_plain (splitDots_part (hparts ▸ List.mem_cons_self)), under, hv,
          Option.bind_some] at hleaf
        rw [hv, Option.bind_some] at hsome
        cases rest with
        | nil => exact absurd (hparts.trans (by rw [eq_of_splitDots hparts])) hnested
        | cons k' rest =>
          cases v with
          | obj kvs =>
            rw [reach] at hsome
            cases hoption : isOptionDict (.obj kvs) with
            | true =>
              rw [hoption, if_pos rfl] at hsome
              cases hsome
            | false =>
              rw [scalar, hoption] at hleaf
              cases hleaf
          | str t => cases hsome
          | _ => cases hsome

theorem fieldAt_storeAll_plain {c : Current} (hplain : splitDots path = [path])
    (hc : fieldAt cells path = some c) (hitem : Dict.get? item path = some (.str (display c))) :
    fieldAt (storeAll cells item) path = fieldAt cells path ↔
      ∀ kvs, Dict.get? cells path = some (.obj kvs) → Rereads kvs := by
  rw [fieldAt_plain hplain, hc, under, get?_storeAll, hitem]
  rw [fieldAt_plain hplain, under] at hc
  obtain ⟨v, hv, hscalar⟩ := Option.bind_eq_some_iff.mp hc
  rw [hv, Option.map_some, Option.bind_some, scalar_store]
  cases c with
  | text t =>
    obtain rfl := scalar_text hscalar
    exact iff_of_true rfl fun kvs hkvs => nomatch hkvs
  | keys ks =>
    obtain ⟨kvs, rfl, hoption, rfl⟩ := scalar_keys hscalar
    dsimp only
    rw [hoption, if_pos rfl, Option.some_inj, Current.keys.injEq]
    refine listed_iff.trans ⟨fun h kvs' hkvs' => ?_, fun h => h kvs rfl⟩
    obtain rfl := Json.obj.inj (Option.some.inj hkvs')
    exact h

theorem read_iff {uuid : String} (hpath : path ∈ grid.fields.map Field.path)
    (hheld : (fieldAt cells path).isSome) :
    (rowOf uuid cells (grid.fields.map Field.path)).lookup path = fieldAt cells path ↔
      (under cells path = fieldAt cells path ∨
        (fieldAt cells path = some (.text "") ∧ under cells path = none)) := by
  obtain ⟨c, hc⟩ := Option.isSome_iff_exists.mp hheld
  rw [lookup_rowOf, if_pos hpath, hc]
  cases under cells path with
  | some c' => simp
  | none => simp [eq_comm]

/-- **A row is kept exactly if each of its fields comes back.** -/
theorem kept_iff (h : Reachable model grid) {uuid : String} (hu : safeName uuid = true)
    (hheld : ∀ path ∈ grid.fields.map Field.path, (fieldAt cells path).isSome) :
    Kept model grid uuid cells (rowOf uuid cells (grid.fields.map Field.path)) ↔
      ∀ path ∈ grid.fields.map Field.path, Returns uuid cells path := by
  constructor
  · rintro ⟨hread, shown, op, p, name, item, hshown, hop, hset, hposted, hkept⟩ path hpath
    obtain ⟨huuid, -⟩ := gridRow_some hshown
    have hne : shown.uuid ≠ "" := by
      intro hempty
      have hadd : unedited grid shown =
          some ⟨.add, grid.path, none, some (strDict (shownItem grid shown))⟩ :=
        congrArg some (if_neg (not_not.mpr hempty))
      obtain rfl := Option.some.inj (hadd.symm.trans hop)
      cases hset
    obtain rfl := Option.some.inj ((unedited_eq hne).symm.trans hop)
    have hsame : uuid = shown.uuid := posted_set_inv hposted
    obtain ⟨p', hposted'⟩ := posted_set h (hsame ▸ hu) (shownItem grid shown)
    obtain ⟨-, -, -, hitem⟩ := Request.gridSet.inj (Except.ok.inj (hposted'.symm.trans hposted))
    obtain rfl := Json.obj.inj hitem
    refine ⟨(read_iff hpath (hheld path hpath)).mp (hread path hpath), ?_, fun hplain => ?_⟩
    · rintro rfl
      rw [← hread "uuid" hpath, huuid, hsame]
    · obtain ⟨c, hc⟩ := Option.isSome_iff_exists.mp (hheld path hpath)
      refine (fieldAt_storeAll_plain hplain hc ?_).mp (hkept path hpath)
      have hunder : under cells path = some c := (fieldAt_plain hplain cells).symm.trans hc
      rw [get?_strDict, lookup_shownItem hshown, if_pos hpath, hunder]
      rfl
  · intro hreturns
    have hread : ∀ path ∈ grid.fields.map Field.path,
        (rowOf uuid cells (grid.fields.map Field.path)).lookup path = fieldAt cells path :=
      fun path hpath => (read_iff hpath (hheld path hpath)).mpr (hreturns path hpath).read
    have huuid : (rowOf uuid cells (grid.fields.map Field.path)).lookup "uuid" =
        some (.text uuid) := by
      by_cases hpath : "uuid" ∈ grid.fields.map Field.path
      · rw [hread _ hpath, (hreturns _ hpath).own rfl]
      · rw [lookup_rowOf, if_neg hpath, if_pos rfl]
    obtain ⟨shown, hshown, rfl⟩ := gridRow_of_uuid huuid
    obtain ⟨p, hposted⟩ := posted_set h hu (shownItem grid shown)
    refine ⟨hread, shown, _, p, _, _, hshown, unedited_eq (ne_empty_of_safeName hu), rfl, hposted,
      fun path hpath => ?_⟩
    by_cases hplain : splitDots path = [path]
    · obtain ⟨c, hc⟩ := Option.isSome_iff_exists.mp (hheld path hpath)
      refine (fieldAt_storeAll_plain hplain hc ?_).mpr ((hreturns path hpath).options hplain)
      have hunder : under cells path = some c := (fieldAt_plain hplain cells).symm.trans hc
      rw [get?_strDict, lookup_shownItem hshown, if_pos hpath, hunder]
      rfl
    · refine fieldAt_storeAll_nested hheld (fun k hk => ?_) hpath hplain
      rw [get?_strDict, lookup_shownItem hshown, if_neg hk]
      rfl

/-! ### An answer of a device -/

variable {response root : Json} {rows : List (String × Dict)}

/-- The rows stand under their uuids at the path of the grid. -/
structure Answers (model : Model) (grid : Grid) (response : Json) (rows : List (String × Dict)) :
    Prop where
  node : ∃ root, rootOf response model = .ok root ∧
    gridNode root grid.path = .obj (rows.map fun r => (r.1, .obj r.2))
  uuids : ∀ r ∈ rows, safeName r.1 = true
  /-- A row holds the fields of the grid at their paths. -/
  held : ∀ r ∈ rows, ∀ path ∈ grid.fields.map Field.path, (fieldAt r.2 path).isSome

theorem Answers.extracted (h : Answers model grid response rows) :
    extractGridRows response model grid =
      .ok (rows.map fun r => rowOf r.1 r.2 (grid.fields.map Field.path)) := by
  obtain ⟨root, hroot, hnode⟩ := h.node
  rw [extractGridRows, hroot]
  show (match gridNode root grid.path with
    | .obj kvs => _
    | _ => _) = _
  rw [hnode]
  refine congrArg Except.ok ?_
  rw [List.filterMap_map]
  exact congrFun List.filterMap_eq_map' rows

theorem rowsKept_iff (hreach : Reachable model grid) (h : Answers model grid response rows) :
    RowsKept model grid response rows ↔
      ∀ r ∈ rows, ∀ path ∈ grid.fields.map Field.path, Returns r.1 r.2 path := by
  have heach : ∀ r ∈ rows, (Kept model grid r.1 r.2 (rowOf r.1 r.2 (grid.fields.map Field.path)) ↔
      ∀ path ∈ grid.fields.map Field.path, Returns r.1 r.2 path) :=
    fun r hr => kept_iff hreach (h.uuids r hr) (h.held r hr)
  constructor
  · rintro ⟨extracted, hextracted, hkept⟩ r hr
    obtain rfl := Except.ok.inj (h.extracted.symm.trans hextracted)
    rw [List.forall₂_map_right_iff, List.forall₂_same] at hkept
    exact (heach r hr).mp (hkept r hr)
  · intro hreturns
    refine ⟨_, h.extracted, ?_⟩
    rw [List.forall₂_map_right_iff, List.forall₂_same]
    exact fun r hr => (heach r hr).mpr (hreturns r hr)

end Sent

/-! ### The grids of a definition -/

section Parsed

open CatalogTool (StrMethods FormMeta appModel parseModel gridEndpoints)

variable {py : StrMethods} {root : Elem} {forms : List (String × FormMeta)} {php : Option String}
  {module source : String} {plugin : Option Json} {model : Model} {grid : Grid}

theorem parsed_endpoints
    (hmodel : model = appModel py module (parseModel py root) forms php source plugin)
    (hgrid : grid ∈ model.grids) :
    grid.endpoints = gridEndpoints py (py.lower module) (lastSegment grid.path) := by
  subst hmodel
  obtain ⟨g, hg, rfl⟩ := List.mem_map.mp hgrid
  obtain ⟨g₀, hg₀, rfl⟩ := List.mem_map.mp hg
  have hlookup := lookup_foldl_putEntry CatalogTool.Grid.path
    (fun path => gridEndpoints py (py.lower module) (lastSegment path)) (parseModel py root).grids
    [] g₀.path
  rw [if_pos (List.mem_map_of_mem hg₀)] at hlookup
  exact congrArg (Option.getD · []) hlookup

theorem parsed_reachable
    (hmodel : model = appModel py module (parseModel py root) forms php source plugin)
    (hgrid : grid ∈ model.grids) (hsafe : ∀ kv ∈ grid.endpoints, safePath kv.2 = true) :
    Reachable model grid := by
  have hfind : (model.grids.reverse.find? fun g => g.path == grid.path).isSome = true :=
    List.find?_isSome.mpr ⟨grid, List.mem_reverse.mpr hgrid, beq_self_eq_true _⟩
  obtain ⟨g, hg⟩ := Option.isSome_iff_exists.mp hfind
  have hpath : g.path = grid.path := beq_iff_eq.mp (List.find?_some hg :)
  have hsame : g.endpoints = grid.endpoints := by
    rw [parsed_endpoints hmodel hgrid, ← hpath]
    exact parsed_endpoints hmodel (List.mem_reverse.mp (List.mem_of_find?_eq_some hg))
  refine ⟨g, hg, fun verb => ?_⟩
  have hlook : ∃ p, grid.endpoints.lookup verb.text = some p := by
    rw [parsed_endpoints hmodel hgrid]
    cases verb <;> exact ⟨_, rfl⟩
  obtain ⟨p, hp⟩ := hlook
  obtain ⟨l, l', hsplit, -⟩ := List.lookup_eq_some_iff.mp hp
  exact ⟨p, hsame ▸ hp, hsafe (verb.text, p) (by rw [hsplit]; simp)⟩

/-- **A row of a grid comes back as it is exactly if each of its fields does, and a new row
is read back as entered exactly if each field takes its value.** -/
theorem grid_round_trip_iff
    (hmodel : model = appModel py module (parseModel py root) forms php source plugin)
    (hgrid : grid ∈ model.grids) (hsafe : ∀ kv ∈ grid.endpoints, safePath kv.2 = true)
    {response : Json} {rows : List (String × Dict)} (h : Answers model grid response rows) :
    (RowsKept model grid response rows ↔
      ∀ r ∈ rows, ∀ path ∈ grid.fields.map Field.path, Returns r.1 r.2 path) ∧
    ∀ uuid blank edits, ReadBack model grid uuid blank edits ↔
      ∀ path ∈ grid.fields.map Field.path, Takes blank path (lastEntered edits path) := by
  have hreach := parsed_reachable hmodel hgrid hsafe
  exact ⟨rowsKept_iff hreach h, readBack_iff hreach⟩

end Parsed

/-! ### A container inside a row -/

/-- Hosts with the fields `below` in each row. -/
def hostsXml (below : List Elem) : Elem :=
  .mk "model" [] ""
    [.mk "mount" [] "//OPNsense/Hosts" [],
      .mk "items" [] "" [.mk "hosts" [] "" [.mk "host" [("type", "ArrayField")] "" below]]]

def hostsModel (below : List Elem) : Model :=
  CatalogTool.appModel CatalogTool.asciiMethods "Hosts"
    (CatalogTool.parseModel CatalogTool.asciiMethods (hostsXml below)) [] none "core" none

def oneHost (cells : Dict) : Json :=
  .obj [("hosts", .obj [("hosts", .obj [("host", .obj [("u1", .obj cells)])])])]

def nestedHost : List Elem :=
  [.mk "name" [("type", "TextField")] "" [],
    .mk "tls" [] "" [.mk "port" [("type", "PortField")] "" []]]

def hostsEndpoints : List (String × String) :=
  [("search", "hosts/settings/searchHost"), ("add", "hosts/settings/addHost"),
    ("set", "hosts/settings/setHost"), ("del", "hosts/settings/delHost")]

def hostsGrid (fields : List Field) : Grid := ⟨"hosts.host", hostsEndpoints, fields⟩

theorem hostsGrid_nested : hostsGrid [⟨"name"⟩, ⟨"tls.port"⟩] ∈ (hostsModel nestedHost).grids := by
  decide +kernel

theorem hostsGrid_safe (fields : List Field) :
    ∀ kv ∈ (hostsGrid fields).endpoints, safePath kv.2 = true := by
  show ∀ kv ∈ hostsEndpoints, safePath kv.2 = true
  decide +kernel

def portCells : Dict := [("name", .str "web"), ("tls", .obj [("port", .str "8443")])]

theorem portCells_answered : Answers (hostsModel nestedHost) (hostsGrid [⟨"name"⟩, ⟨"tls.port"⟩])
    (oneHost portCells) [("u1", portCells)] where
  node := by
    refine ⟨.obj [("hosts", .obj [("host", .obj [("u1", .obj portCells)])])], ?_, ?_⟩
    · rfl
    · decide +kernel
  uuids := by decide +kernel
  held := by decide +kernel

/-- The port of a host is read as empty, and that of a new host is not stored. -/
theorem nested_lost :
    hostsGrid [⟨"name"⟩, ⟨"tls.port"⟩] ∈ (hostsModel nestedHost).grids ∧
      Answers (hostsModel nestedHost) (hostsGrid [⟨"name"⟩, ⟨"tls.port"⟩]) (oneHost portCells)
        [("u1", portCells)] ∧
      ¬ RowsKept (hostsModel nestedHost) (hostsGrid [⟨"name"⟩, ⟨"tls.port"⟩]) (oneHost portCells)
        [("u1", portCells)] ∧
      ¬ ReadBack (hostsModel nestedHost) (hostsGrid [⟨"name"⟩, ⟨"tls.port"⟩]) "u2"
        [("name", .str ""), ("tls", .obj [("port", .str "")])] [("name", "db"), ("tls.port", "8444")] := by
  have hreach : Reachable (hostsModel nestedHost) (hostsGrid [⟨"name"⟩, ⟨"tls.port"⟩]) :=
    parsed_reachable rfl hostsGrid_nested (hostsGrid_safe _)
  refine ⟨hostsGrid_nested, portCells_answered, fun h => ?_, fun h => ?_⟩
  · have hport := (rowsKept_iff hreach portCells_answered).mp h _ (List.mem_singleton_self _) "tls.port"
      (by decide)
    exact absurd hport.read (by decide +kernel)
  · have hport : ("8444" : String) = "" := (readBack_iff hreach _ _ _).mp h "tls.port" (by decide)
    exact absurd hport (by decide)

def plainHost : List Elem :=
  [.mk "name" [("type", "TextField")] "" [], .mk "proto" [("type", "OptionField")] "" []]

def protoCells : Dict :=
  [("name", .str "web"), ("proto", .obj
    [("tcp", .obj [("value", .str "TCP"), ("selected", .int 1)]),
      ("udp", .obj [("value", .str "UDP"), ("selected", .int 0)])])]

theorem grid_round_trip_plain :
    RowsKept (hostsModel plainHost) (hostsGrid [⟨"name"⟩, ⟨"proto"⟩]) (oneHost protoCells)
        [("u1", protoCells)] ∧
      ReadBack (hostsModel plainHost) (hostsGrid [⟨"name"⟩, ⟨"proto"⟩]) "u2" protoCells
        [("name", "db"), ("proto", "udp")] := by
  have hgrid : hostsGrid [⟨"name"⟩, ⟨"proto"⟩] ∈ (hostsModel plainHost).grids := by decide +kernel
  have hanswer : Answers (hostsModel plainHost) (hostsGrid [⟨"name"⟩, ⟨"proto"⟩]) (oneHost protoCells)
      [("u1", protoCells)] := by
    refine ⟨⟨.obj [("hosts", .obj [("host", .obj [("u1", .obj protoCells)])])], rfl, ?_⟩, ?_, ?_⟩
    · decide +kernel
    · decide +kernel
    · decide +kernel
  have htrip := grid_round_trip_iff rfl hgrid (hostsGrid_safe _) hanswer
  refine ⟨htrip.1.mpr fun r hr path hpath => ?_, (htrip.2 _ _ _).mpr fun path hpath => ?_⟩
  · obtain rfl := List.mem_singleton.mp hr
    rcases List.mem_pair.mp hpath with rfl | rfl
    · exact returns_of_plain (by decide) (by decide) nofun
    · refine returns_of_plain (by decide) (by decide) fun kvs hkvs => ?_
      obtain rfl := Json.obj.inj (Option.some.inj hkvs)
      exact rereads_of_plain (by decide) (by decide) (.inl (by decide +kernel))
  · rcases List.mem_pair.mp hpath with rfl | rfl
    · trivial
    · show ∀ k ∈ splitCommas "udp", k ≠ "" → k ∈ ["tcp", "udp"]
      decide +kernel

end RowRoundTrip

end Opngms
