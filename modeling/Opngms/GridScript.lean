/-
Opngms/GridScript.lean

The grid operations of a catalog edit as a script of edits on the box.

An operation *means* an edit if the request it is sent as makes that edit.
`_build_payload` writes operations that mean the edits asked for
(**`means_script`**), and `_invert_catalog_setting` writes, for each of them, one
that means the inverse edit (**`means_inverses`**), with the prior fields of the
snapshot and the uuids of the stored results.  `play_applyGrids` runs a script:
the box carries out its operations up to the first one that it refuses or that
fails.
-/
import Opngms.InverseIdentity
import Opngms.Appliance
import Opngms.Stranded

namespace Opngms

open Appliance

variable {A : Appliance}

/-! ### Grid operations as edits -/

abbrev RowEdit := Edit String String Fields

/-- The request makes the edit: the box carries it out and says so, or refuses
it. -/
structure Acts (S : Configuration A) (r : Request) (e : RowEdit) : Prop where
  scalars : (respond S r).2.scalars = S.scalars
  refused : S.store.refuses e = true →
    (∃ j, (respond S r).1 = .ok j ∧ rejected j = true) ∧ (respond S r).2.store = S.store
  done : S.store.refuses e = false →
    (∃ j, (respond S r).1 = .ok j ∧ rejected j = false ∧
      ∀ γ φ, e = .add γ φ → j = savedAs (A.uuids.pick S.store.issued)) ∧
    (respond S r).2.store = S.store.edit A.uuids e

theorem acts_gridAdd {p row γ : String} {item : Json} (hp : A.tableAt p = some γ)
    (S : Configuration A) :
    Acts S (.gridAdd p row item) (.add γ (A.fill (A.columns γ) (itemOf item))) := by
  have h : respond S (.gridAdd p row item) = add S γ (itemOf item) := by
    rw [respond, hp]
  refine ⟨by rw [h]; rfl, nofun, fun _ => ⟨⟨_, by rw [h]; rfl, rfl, fun _ _ _ => rfl⟩, by rw [h]; rfl⟩⟩

theorem acts_gridSet {p u row γ : String} {item : Json} (hp : A.tableAt p = some γ)
    (S : Configuration A) :
    Acts S (.gridSet p u row item) (.set γ u fun base => A.fill base (itemOf item)) := by
  have h : respond S (.gridSet p u row item) = set S γ u (itemOf item) := by
    rw [respond, hp]
  cases hu : S.store.has γ u with
  | false =>
    have hset : respond S (.gridSet p u row item) = (.ok failed, S) := by
      rw [h, Appliance.set, hu]
      rfl
    refine ⟨by rw [hset], fun _ => ⟨⟨_, by rw [hset], rfl⟩, by rw [hset]⟩, fun hn => ?_⟩
    rw [RowStore.refuses, hu] at hn
    cases hn
  | true =>
    have hset : respond S (.gridSet p u row item) = (.ok saved, S.setRow γ u (itemOf item)) := by
      rw [h, Appliance.set, hu]
      rfl
    refine ⟨by rw [hset]; rfl, fun hn => ?_, fun _ => ⟨⟨_, by rw [hset], rfl, by simp⟩, by rw [hset]; rfl⟩⟩
    rw [RowStore.refuses, hu] at hn
    cases hn

theorem acts_gridDel {p u γ : String} (hp : A.tableAt p = some γ) (S : Configuration A) :
    Acts S (.gridDel p u) (.del γ u) := by
  have h : respond S (.gridDel p u) = del S γ u := by
    rw [respond, hp]
  refine ⟨by rw [h]; rfl, nofun, fun _ => ⟨⟨_, by rw [h]; rfl, ?_, nofun⟩, by rw [h]; rfl⟩⟩
  cases S.store.has γ u <;> rfl

/-! ### A script of grid operations -/

section Script

variable {ν : Supply String}

/-- The edits of a script that the box carries out, when its requests are
numbered from `n`: up to a refusal or a mishap. -/
def carried (ν : Supply String) (m : Option Mishap) :
    Nat → RowStore String String Fields → List RowEdit → List RowEdit
  | _, _, [] => []
  | n, S, e :: es =>
    if S.refuses e then []
    else
      match mishapAt m n with
      | some h => if h.carriedOut then [e] else []
      | none => e :: carried ν m (n + 1) (S.edit ν e) es

/-- The whole script is carried out and answered. -/
def whole (ν : Supply String) (m : Option Mishap) :
    Nat → RowStore String String Fields → List RowEdit → Bool
  | _, _, [] => true
  | n, S, e :: es =>
    !S.refuses e && (mishapAt m n).isNone && whole ν m (n + 1) (S.edit ν e) es

theorem carried_prefix (m : Option Mishap) (n : Nat) (S : RowStore String String Fields)
    (es : List RowEdit) : carried ν m n S es <+: es := by
  induction es generalizing n S with
  | nil => exact List.nil_prefix
  | cons e es ih =>
    unfold carried
    split
    · exact List.nil_prefix
    · split
      · split
        · exact (List.cons_prefix_cons.mpr ⟨rfl, List.nil_prefix⟩)
        · exact List.nil_prefix
      · exact List.cons_prefix_cons.mpr ⟨rfl, ih _ _⟩

theorem carried_whole {m : Option Mishap} {n : Nat} {S : RowStore String String Fields}
    {es : List RowEdit} (h : whole ν m n S es = true) : carried ν m n S es = es := by
  induction es generalizing n S with
  | nil => rfl
  | cons e es ih =>
    rw [whole, Bool.and_eq_true, Bool.and_eq_true, Bool.not_eq_true'] at h
    obtain ⟨⟨hr, hm⟩, hes⟩ := h
    rw [carried, hr, if_neg Bool.false_ne_true, Option.isNone_iff_eq_none.mp hm]
    exact congrArg (e :: ·) (ih hes)

theorem carried_none (n : Nat) (S : RowStore String String Fields) (es : List RowEdit) :
    carried ν none n S es = S.accepted ν es := by
  induction es generalizing n S with
  | nil => rfl
  | cons e es ih =>
    rw [carried, RowStore.accepted]
    cases S.refuses e with
    | true => rfl
    | false => exact congrArg (e :: ·) (ih _ _)

end Script

/-- The operation is sent as a request that makes the edit. -/
def Means (A : Appliance) (g : Json) (e : RowEdit) : Prop :=
  ∃ r, gridStep g = .ok r ∧ ∀ S : Configuration A, Acts S r e

/-- The results of operations show the uuids their additions got. -/
def Links : List RowEdit → List Json → List (Option String) → Prop
  | [], _, _ => True
  | e :: es, rs, cs =>
    (∀ γ φ, e = .add γ φ → addedUuid (rs.headD .null) = .ok (optStr (cs.headD none))) ∧
      Links es rs.tail cs.tail

theorem links_nil (es : List RowEdit) : Links es [] [] := by
  induction es with
  | nil => trivial
  | cons e es ih => exact ⟨fun _ _ _ => rfl, ih⟩

/-! ### Runs -/

section Runs

variable {m : Option Mishap} {S : Configuration A} {n : Nat}

/-- An operation that the box carries out, in a state where its request is
numbered `n`. -/
theorem play_applyGridItem {a : GridOp} {r : Request} {e : RowEdit}
    (hr : gridRequest a.op a.endpoints a.row a.uuid a.item = .ok r) (he : Acts S r e) :
    (whole A.uuids m n S.store [e] = true ∧
        ∃ j S', (applyGridItem a.op a.endpoints a.row a.uuid a.item false).play (serve m) (S, n) =
            some (.ok (.obj [("dry_run", .bool false), ("op", a.op), ("result", j)]), S', n + 1) ∧
          S'.scalars = S.scalars ∧ S'.store = S.store.edit A.uuids e ∧
          ∀ γ φ, e = .add γ φ → j = savedAs (A.uuids.pick S.store.issued)) ∨
      (whole A.uuids m n S.store [e] = false ∧
        ∃ x S', (applyGridItem a.op a.endpoints a.row a.uuid a.item false).play (serve m) (S, n) =
            some (.error (.opnsense x), S', n + 1) ∧
          S'.scalars = S.scalars ∧
          S'.store = S.store.edits A.uuids (carried A.uuids m n S.store [e])) := by
  have hlive : applyGridItem a.op a.endpoints a.row a.uuid a.item false =
      (checked r ("grid " ++ a.op.pyStr)).bind fun res =>
        .pure (.obj [("dry_run", .bool false), ("op", a.op), ("result", res)]) := by
    rw [applyGridItem_live, hr, checked_bind]
    rfl
  rw [hlive]
  cases hm : mishapAt m n with
  | some h =>
    -- a mishap answers instead of the box, which may have carried it out
    have hx : exchange m S n r = (h.answer, if h.carriedOut then (respond S r).2 else S) :=
      exchange_mishap hm r
    obtain ⟨x, hplay⟩ := play_checked_error r ("grid " ++ a.op.pyStr) fun j hj =>
      h.fails j ((congrArg Prod.fst hx).symm.trans hj)
    refine .inr ⟨by simp [whole, hm], x, (exchange m S n r).2, Dialogue.play_bind_error hplay, ?_, ?_⟩
    · rw [hx]
      cases h.carriedOut
      · rfl
      · exact he.scalars
    · rw [hx]
      cases href : S.store.refuses e with
      | true =>
        have hstore := (he.refused href).2
        cases hc : h.carriedOut <;> simp [carried, href, hstore]
      | false =>
        have hstore := (he.done href).2
        cases hc : h.carriedOut <;> simp [carried, href, hm, hc, hstore]
  | none =>
    have hx : exchange m S n r = respond S r := exchange_served hm r
    cases href : S.store.refuses e with
    | true =>
      -- the box refuses the edit, and the check sees its answer
      obtain ⟨⟨j, hj, hrej⟩, hstore⟩ := he.refused href
      have hrej' : ∀ j', (exchange m S n r).1 = .ok j' → rejected j' = true := by
        intro j' hj'
        rw [hx, hj] at hj'
        exact Except.ok.inj hj' ▸ hrej
      obtain ⟨x, hplay⟩ := play_checked_error r ("grid " ++ a.op.pyStr) hrej'
      refine .inr ⟨by simp [whole, href], x, (exchange m S n r).2, Dialogue.play_bind_error hplay, ?_, ?_⟩
      · rw [hx]
        exact he.scalars
      · rw [hx, carried, href, if_pos rfl]
        exact hstore
    | false =>
      obtain ⟨⟨j, hj, hrej, hadd⟩, hstore⟩ := he.done href
      have hplay := play_checked_ok r ("grid " ++ a.op.pyStr) ((congrArg Prod.fst hx).trans hj) hrej
      refine .inl ⟨by simp [whole, href, hm], j, (exchange m S n r).2, Dialogue.play_bind_ok hplay, ?_, ?_, hadd⟩
      · rw [hx]
        exact he.scalars
      · rw [hx]
        exact hstore

/-- The loop over the operations carries a script out as far as it goes. -/
theorem play_applyGrids {gs : List Json} {es : List RowEdit} (h : List.Forall₂ (Means A) gs es) :
    ∃ z S' n', (applyGrids false gs).play (serve m) (S, n) = some (z, S', n') ∧
      S'.scalars = S.scalars ∧
      S'.store = S.store.edits A.uuids (carried A.uuids m n S.store es) ∧
      (whole A.uuids m n S.store es = true → n' = n + es.length ∧
        ∃ rs, z = .ok rs ∧ Links es rs (created A.uuids S.store.issued es)) ∧
      (whole A.uuids m n S.store es = false → ∃ x, z = .error (.opnsense x)) := by
  induction h generalizing S n with
  | nil => exact ⟨_, _, _, rfl, rfl, rfl, fun _ => ⟨rfl, [], rfl, trivial⟩, nofun⟩
  | @cons g e gs es hg _ ih =>
    obtain ⟨r, hr, he⟩ := hg
    obtain ⟨a, ha, hr⟩ := except_bind_ok hr
    have ha' : gridArgs g = .ok a := mapError_ok ha
    have hcons : applyGrids false (g :: gs) =
        (applyGridItem a.op a.endpoints a.row a.uuid a.item false).bind fun r =>
          (applyGrids false gs).bind fun rs => .pure (r :: rs) := by
      rw [applyGrids, ha']
      rfl
    rw [hcons]
    rcases play_applyGridItem (m := m) (n := n) hr (he S) with
      ⟨hone, j, S₁, hplay, hsc, hst, hadd⟩ | ⟨hone, x, S₁, hplay, hsc, hst⟩
    · -- the operation is carried out and answered, and the rest follows
      rw [whole, Bool.and_eq_true, Bool.and_eq_true, Bool.not_eq_true'] at hone
      obtain ⟨⟨href, hm⟩, -⟩ := hone
      obtain ⟨z, S', n', hrest, hsc', hst', hwhole, hbroken⟩ := ih (S := S₁) (n := n + 1)
      rw [Dialogue.play_bind_ok hplay]
      have hcar : carried A.uuids m n S.store (e :: es) =
          e :: carried A.uuids m (n + 1) (S.store.edit A.uuids e) es := by
        rw [carried, href, if_neg Bool.false_ne_true, Option.isNone_iff_eq_none.mp hm]
      have hwh : whole A.uuids m n S.store (e :: es) =
          whole A.uuids m (n + 1) (S.store.edit A.uuids e) es := by
        rw [whole, href, hm]
        rfl
      rw [hst] at hst' hwhole hbroken
      cases hw : whole A.uuids m (n + 1) (S.store.edit A.uuids e) es with
      | true =>
        obtain ⟨hn', rs, rfl, hlinks⟩ := hwhole hw
        refine ⟨.ok (_ :: rs), S', n', Dialogue.play_bind_ok hrest, hsc'.trans hsc, ?_, fun _ => ?_, ?_⟩
        · rw [hcar, hst']
          rfl
        · refine ⟨by rw [hn', List.length_cons]; omega, _, rfl, ?_, ?_⟩
          · rintro γ φ rfl
            rw [hadd γ φ rfl]
            rfl
          · cases e <;> exact hlinks
        · rw [hwh, hw]
          nofun
      | false =>
        obtain ⟨x, rfl⟩ := hbroken hw
        refine ⟨_, S', n', Dialogue.play_bind_error hrest, hsc'.trans hsc, ?_, ?_, fun _ => ⟨x, rfl⟩⟩
        · rw [hcar, hst']
          rfl
        · rw [hwh, hw]
          nofun
    · rw [Dialogue.play_bind_error hplay]
      -- the operation ends the run, and nothing behind it is sent
      have hfail : whole A.uuids m n S.store (e :: es) = false := by
        simp only [whole, Bool.and_true] at hone ⊢
        rw [hone, Bool.false_and]
      have hcar : carried A.uuids m n S.store (e :: es) = carried A.uuids m n S.store [e] := by
        unfold carried
        split
        · rfl
        · rename_i href
          cases hm : mishapAt m n with
          | some h => rfl
          | none => simp [whole, href, hm] at hone
      refine ⟨_, S₁, n + 1, rfl, hsc, ?_, fun hw => ?_, fun _ => ⟨x, rfl⟩⟩
      · rw [hcar]
        exact hst
      · rw [hfail] at hw
        cases hw

end Runs

/-! ### What is sent for an operation -/

/-- An entry of `grids`, as `_build_payload` and the inverse write it. -/
def gridEntry (op : String) (endpoints row uuid item : Json) : Json :=
  .obj [("op", .str op), ("endpoints", endpoints), ("row", row), ("uuid", uuid), ("item", item)]

section Entries

variable {eps : List (String × String)} {p u γ : String}

theorem subscript_endpoints {name : String} (h : eps.lookup name = some p) :
    (Json.obj (strDict eps)).subscript name = .ok (.str p) := by
  rw [Json.subscript, Dict.item, get?_strDict, h]
  rfl

theorem safeEndpoint_ok (h : safePath p = true) : safeEndpoint (.str p) = .ok p := by
  have hne : p ≠ "" := by
    rintro rfl
    exact absurd h (by decide)
  simp [safeEndpoint, hne, h]

theorem ne_empty_of_safeName (h : safeName u = true) : u ≠ "" := by
  rintro rfl
  exact absurd h (by decide)

theorem gridStep_entry (op : String) (endpoints row uuid item : Json) :
    gridStep (gridEntry op endpoints row uuid item) =
      gridRequest (.str op) endpoints row uuid item := rfl

theorem gridStep_add (row : String) (uuid item : Json) (hlook : eps.lookup "add" = some p)
    (hsafe : safePath p = true) :
    gridStep (gridEntry "add" (.obj (strDict eps)) (.str row) uuid item) =
      .ok (.gridAdd p row (item.orElse (.obj []))) := by
  rw [gridStep_entry]
  simp [gridRequest, subscript_endpoints hlook, Except.mapError, bind, Except.bind,
    safeEndpoint_ok hsafe, Json.asKey, pure, Except.pure]

theorem gridStep_set (row : String) (item : Json) (hlook : eps.lookup "set" = some p)
    (hsafe : safePath p = true) (hu : safeName u = true) :
    gridStep (gridEntry "set" (.obj (strDict eps)) (.str row) (.str u) item) =
      .ok (.gridSet p u row (item.orElse (.obj []))) := by
  have hne : u ≠ "" := ne_empty_of_safeName hu
  rw [gridStep_entry]
  simp [gridRequest, hne, hu, subscript_endpoints hlook, Except.mapError, bind, Except.bind,
    safeEndpoint_ok hsafe, Json.asKey, pure, Except.pure]

theorem gridStep_del (row item : Json) (hlook : eps.lookup "del" = some p)
    (hsafe : safePath p = true) (hu : safeName u = true) :
    gridStep (gridEntry "del" (.obj (strDict eps)) row (.str u) item) = .ok (.gridDel p u) := by
  have hne : u ≠ "" := ne_empty_of_safeName hu
  rw [gridStep_entry]
  simp [gridRequest, hne, hu, subscript_endpoints hlook, Except.mapError, bind, Except.bind,
    safeEndpoint_ok hsafe, pure, Except.pure]

theorem means_add (row : String) (uuid item : Json) (hlook : eps.lookup "add" = some p) (hsafe : safePath p = true)
    (htab : A.tableAt p = some γ) :
    Means A (gridEntry "add" (.obj (strDict eps)) (.str row) uuid item)
      (.add γ (A.fill (A.columns γ) (itemOf (item.orElse (.obj []))))) :=
  ⟨_, gridStep_add row uuid item hlook hsafe, fun S => acts_gridAdd htab S⟩

theorem means_set (row : String) (item : Json) (hlook : eps.lookup "set" = some p) (hsafe : safePath p = true)
    (htab : A.tableAt p = some γ) (hu : safeName u = true) :
    Means A (gridEntry "set" (.obj (strDict eps)) (.str row) (.str u) item)
      (.set γ u fun base => A.fill base (itemOf (item.orElse (.obj [])))) :=
  ⟨_, gridStep_set row item hlook hsafe hu, fun S => acts_gridSet htab S⟩

theorem means_del (row : String) (item : Json) (hlook : eps.lookup "del" = some p) (hsafe : safePath p = true)
    (htab : A.tableAt p = some γ) (hu : safeName u = true) :
    Means A (gridEntry "del" (.obj (strDict eps)) (.str row) (.str u) item) (.del γ u) :=
  ⟨_, gridStep_del (.str row) item hlook hsafe hu, fun S => acts_gridDel htab S⟩

end Entries

/-! ### A catalog edit as a script -/

/-- The catalog entry describes the box: as `resolve_endpoints` writes every
entry, its endpoints are fit for a URL, and those of a grid edit one table. -/
structure Appliance.Describes (A : Appliance) (model : Model) : Prop where
  setPath : safePath (endpointOf model.endpoints "set") = true
  reconfigurePath : safePath (endpointOf model.endpoints "reconfigure") = true
  grids : ∀ g ∈ model.grids, ∃ γ, ∀ verb : GridVerb, ∃ p,
    g.endpoints.lookup verb.text = some p ∧ safePath p = true ∧ A.tableAt p = some γ

def gridTable (A : Appliance) (model : Model) (grid : String) : String :=
  ((model.grids.reverse.find? fun g => g.path == grid).bind fun g =>
    A.tableAt (endpointOf g.endpoints "add")).getD ""

/-- The edit a grid operation asks for. -/
def editOf (A : Appliance) (model : Model) (opp : CatalogGridOpIn) : RowEdit :=
  let γ := gridTable A model opp.grid
  match opp.op with
  | .add => .add γ (A.fill (A.columns γ) (opp.item.getD []))
  | .set => .set γ (opp.uuid.getD "") fun base => A.fill base (opp.item.getD [])
  | .del => .del γ (opp.uuid.getD "")

def scriptOf (A : Appliance) (model : Model) (body : CatalogChangeIn) : List RowEdit :=
  body.grids.map (editOf A model)

/-- How the box takes the fields an inverse sends. -/
def Appliance.intake (A : Appliance) : Intake String Fields where
  renew γ φ := A.fill (A.columns γ) (strDict φ)
  merge φ base := A.fill base (strDict φ)

section Inversion

variable {model : Model} {opp : CatalogGridOpIn} {g : Json}

theorem itemOf_orElse (d : Dict) : itemOf ((Json.obj d).orElse (.obj [])) = d := by
  cases d <;> rfl

theorem gridPayload_entry (hA : A.Describes model) (h : gridPayload model opp = .ok g) :
    ∃ eps, g = gridEntry opp.op.text (.obj (strDict eps)) (.str (lastSegment opp.grid))
        (optStr opp.uuid) (optObj opp.item) ∧
      (∀ verb : GridVerb, ∃ p, eps.lookup verb.text = some p ∧ safePath p = true ∧
        A.tableAt p = some (gridTable A model opp.grid)) ∧
      (opp.op ≠ .del → opp.item.isSome) ∧ (opp.op ≠ .add → optStr opp.uuid = .str (opp.uuid.getD "")) := by
  unfold gridPayload at h
  cases hf : model.grids.reverse.find? fun g => g.path == opp.grid with
  | none =>
    rw [hf] at h
    cases h
  | some gdef =>
    rw [hf] at h
    dsimp only at h
    split at h
    · cases h
    · rename_i hitem
      split at h
      · cases h
      · rename_i huuid
        obtain rfl := Except.ok.inj h
        obtain ⟨γ, hγ⟩ := hA.grids gdef (List.mem_reverse.mp (List.mem_of_find?_eq_some hf))
        obtain ⟨p₀, hlook₀, -, htab₀⟩ := hγ .add
        have htable : gridTable A model opp.grid = γ := by
          have hend : endpointOf gdef.endpoints "add" = p₀ := congrArg (Option.getD · "") hlook₀
          rw [gridTable, hf, Option.bind_some, hend, htab₀]
          rfl
        refine ⟨gdef.endpoints, rfl, ?_, ?_, ?_⟩
        · rw [htable]
          exact hγ
        · intro hop
          refine Option.isSome_iff_ne_none.mpr fun hnone => hitem ⟨?_, ?_⟩
          · cases hop' : opp.op with
            | add => exact .inl rfl
            | set => exact .inr rfl
            | del => exact absurd hop' hop
          · rw [hnone]
            rfl
        · intro hop
          cases hu : opp.uuid with
          | some u => rfl
          | none => cases hop' : opp.op <;> simp_all

theorem means_editOf (hA : A.Describes model) (h : gridPayload model opp = .ok g)
    (hu : ∀ u, (editOf A model opp).named = some u → safeName u = true) :
    Means A g (editOf A model opp) := by
  obtain ⟨eps, rfl, heps, hitem, huuid⟩ := gridPayload_entry hA h
  obtain ⟨p, hlook, hsafe, htab⟩ := heps opp.op
  unfold editOf at hu ⊢
  have hentries : opp.op ≠ .del → itemOf ((optObj opp.item).orElse (.obj [])) = opp.item.getD [] := by
    intro hop
    obtain ⟨d, hd⟩ := Option.isSome_iff_exists.mp (hitem hop)
    rw [hd]
    exact itemOf_orElse d
  cases hop : opp.op with
  | add =>
    rw [hop] at hlook
    have hm := means_add (lastSegment opp.grid) (optStr opp.uuid) (optObj opp.item) hlook hsafe htab
    rw [hentries (by rw [hop]; nofun)] at hm
    exact hm
  | set =>
    rw [hop] at hlook hu
    have hm := means_set (lastSegment opp.grid) (optObj opp.item) hlook hsafe htab (hu _ rfl)
    rw [hentries (by rw [hop]; nofun), ← huuid (by rw [hop]; nofun)] at hm
    exact hm
  | del =>
    rw [hop] at hlook hu
    have hm := means_del (lastSegment opp.grid) (optObj opp.item) hlook hsafe htab (hu _ rfl)
    rw [← huuid (by rw [hop]; nofun)] at hm
    exact hm

variable {root : Option Elem} {path : List String} {res : Json} {is : List Json}
  {S : Configuration A} {c : Option String}

theorem invertGridOp_add (endpoints row uuid item res : Json) :
    invertGridOp root path (gridEntry "add" endpoints row uuid item) res =
      ((addedUuid res).mapError Raised.builtin).bind fun new =>
        if new.truthy then .ok [gridEntry "del" endpoints row new .null] else .ok [] := rfl

theorem invertGridOp_set (endpoints row uuid item res : Json) :
    invertGridOp root path (gridEntry "set" endpoints row uuid item) res =
      match root.bind fun r => gridRowByUuid r path uuid with
      | none => .error (.noInverse
          ("modified grid row " ++ uuid.repr ++ " not found in the pre-apply snapshot"))
      | some prior => .ok [gridEntry "set" endpoints row uuid (.obj (strDict prior))] := rfl

theorem invertGridOp_del (endpoints row uuid item res : Json) :
    invertGridOp root path (gridEntry "del" endpoints row uuid item) res =
      match root.bind fun r => gridRowByUuid r path uuid with
      | none => .error (.noInverse
          ("deleted grid row " ++ uuid.repr ++ " not found in the pre-apply snapshot"))
      | some prior => .ok [gridEntry "add" endpoints row .null (.obj (strDict prior))] := rfl

theorem Configuration.safe_uuid (S : Configuration A) {u : String}
    (h : u ∈ S.store.rows.map Row.uuid) : safeName u = true := by
  obtain ⟨r, hr, rfl⟩ := List.mem_map.mp h
  exact S.safe r hr

theorem named_of_inverse (hA : A.Describes model) (hg : gridPayload model opp = .ok g)
    (hdoc : ∀ u φ, (root.bind fun r => gridRowByUuid r path (.str u)) = some φ →
      S.store.prior u = some φ) (h : invertGridOp root path g res = .ok is) :
    ∀ u, (editOf A model opp).named = some u → u ∈ S.store.rows.map Row.uuid := by
  obtain ⟨eps, rfl, -, -, huuid⟩ := gridPayload_entry hA hg
  unfold editOf
  cases hop : opp.op with
  | add => nofun
  | set =>
    intro u hu
    obtain rfl := Option.some.inj hu
    rw [hop, huuid (by rw [hop]; nofun)] at h
    replace h := (invertGridOp_set _ _ _ _ res).symm.trans h
    split at h
    · cases h
    · rename_i prior hrow
      exact RowStore.mem_of_prior (hdoc _ _ hrow)
  | del =>
    intro u hu
    obtain rfl := Option.some.inj hu
    rw [hop, huuid (by rw [hop]; nofun)] at h
    replace h := (invertGridOp_del _ _ _ _ res).symm.trans h
    split at h
    · cases h
    · rename_i prior hrow
      exact RowStore.mem_of_prior (hdoc _ _ hrow)

/-- The inverse of a grid operation is sent as the inverse of its edit. -/
theorem means_inverse (hA : A.Describes model) (hg : gridPayload model opp = .ok g)
    (hdoc : ∀ u φ, (root.bind fun r => gridRowByUuid r path (.str u)) = some φ →
      S.store.prior u = some φ)
    (hres : opp.op = .add → addedUuid res = .ok (optStr c))
    (hc : ∀ u, c = some u → safeName u = true) (h : invertGridOp root path g res = .ok is) :
    List.Forall₂ (Means A) is ((editOf A model opp).undo (S.store.past A.intake) c) := by
  obtain ⟨eps, rfl, heps, -, huuid⟩ := gridPayload_entry hA hg
  unfold editOf
  cases hop : opp.op with
  | add =>
    rw [hop] at h
    obtain ⟨new, hnew, h⟩ := except_bind_ok ((invertGridOp_add _ _ _ _ res).symm.trans h)
    obtain rfl := Except.ok.inj ((hres hop).symm.trans (mapError_ok hnew))
    -- the inverse deletes the added row under the uuid that the result shows
    cases c with
    | none =>
      obtain rfl := Except.ok.inj h
      exact .nil
    | some u =>
      have hu : safeName u = true := hc u rfl
      have htruthy : (optStr (some u)).truthy = true := bne_iff_ne.mpr (ne_empty_of_safeName hu)
      rw [htruthy, if_pos rfl] at h
      obtain rfl := Except.ok.inj h
      obtain ⟨p, hlook, hsafe, htab⟩ := heps .del
      exact .cons (means_del _ _ hlook hsafe htab hu) .nil
  | set =>
    rw [hop] at h
    -- the fields that were there before are written back
    have hstr := huuid (by rw [hop]; nofun)
    rw [hstr] at h
    replace h := (invertGridOp_set _ _ _ _ res).symm.trans h
    cases hrow : root.bind fun r => gridRowByUuid r path (.str (opp.uuid.getD "")) with
    | none =>
      rw [hrow] at h
      cases h
    | some prior =>
      rw [hrow] at h
      obtain rfl := Except.ok.inj h
      have hprior := hdoc _ _ hrow
      have hmem := RowStore.mem_of_prior hprior
      obtain ⟨p, hlook, hsafe, htab⟩ := heps .set
      have hm := means_set (lastSegment opp.grid) (.obj (strDict prior)) hlook hsafe htab
        (S.safe_uuid hmem)
      rw [itemOf_orElse] at hm
      have hundo : Edit.undo (S.store.past A.intake) (.set (gridTable A model opp.grid)
          (opp.uuid.getD "") fun base => A.fill base (opp.item.getD [])) c =
          [.set (gridTable A model opp.grid) (opp.uuid.getD "") fun base =>
            A.fill base (strDict prior)] :=
        congrArg (fun o : Option Fields => o.toList.map _) hprior
      rw [hundo]
      exact .cons hm .nil
  | del =>
    rw [hop] at h
    -- the deleted row is added again, with the fields that the box takes
    have hstr := huuid (by rw [hop]; nofun)
    rw [hstr] at h
    replace h := (invertGridOp_del _ _ _ _ res).symm.trans h
    cases hrow : root.bind fun r => gridRowByUuid r path (.str (opp.uuid.getD "")) with
    | none =>
      rw [hrow] at h
      cases h
    | some prior =>
      rw [hrow] at h
      obtain rfl := Except.ok.inj h
      have hprior := hdoc _ _ hrow
      obtain ⟨p, hlook, hsafe, htab⟩ := heps .add
      have hm := means_add (lastSegment opp.grid) .null (.obj (strDict prior)) hlook hsafe htab
      rw [itemOf_orElse] at hm
      have hundo : Edit.undo (S.store.past A.intake) (.del (gridTable A model opp.grid)
          (opp.uuid.getD "")) c =
          [.add (gridTable A model opp.grid)
            (A.fill (A.columns (gridTable A model opp.grid)) (strDict prior))] :=
        congrArg (fun o : Option Fields => o.toList.map _) hprior
      rw [hundo]
      exact .cons hm .nil

theorem named_of_inverses {opps : List CatalogGridOpIn} {gs rs : List Json}
    (hA : A.Describes model) (hg : gridPayloads model opps = .ok gs)
    (hdoc : ∀ u φ, (root.bind fun r => gridRowByUuid r path (.str u)) = some φ →
      S.store.prior u = some φ) (h : invertGridOps root path gs rs = .ok is) :
    ∀ e ∈ opps.map (editOf A model), ∀ u, e.named = some u → u ∈ S.store.rows.map Row.uuid := by
  induction opps generalizing gs rs is with
  | nil => nofun
  | cons opp opps ih =>
    obtain ⟨g, hg₀, hg⟩ := except_bind_ok hg
    obtain ⟨gs, hgs, hg⟩ := except_bind_ok hg
    obtain rfl := Except.ok.inj hg
    obtain ⟨i, hi, h⟩ := except_bind_ok h
    obtain ⟨is, his, -⟩ := except_bind_ok h
    exact List.forall_mem_cons.mpr ⟨named_of_inverse hA hg₀ hdoc hi, ih hgs his⟩

theorem means_inverses {opps : List CatalogGridOpIn} {gs rs : List Json}
    {cs : List (Option String)} (hA : A.Describes model) (hg : gridPayloads model opps = .ok gs)
    (hdoc : ∀ u φ, (root.bind fun r => gridRowByUuid r path (.str u)) = some φ →
      S.store.prior u = some φ)
    (hlinks : Links (opps.map (editOf A model)) rs cs)
    (hcs : ∀ u, some u ∈ cs → safeName u = true) (h : invertGridOps root path gs rs = .ok is) :
    List.Forall₂ (Means A) is (undo (S.store.past A.intake) (opps.map (editOf A model)) cs) := by
  induction opps generalizing gs rs cs is with
  | nil =>
    obtain rfl := Except.ok.inj hg
    obtain rfl := Except.ok.inj h
    exact .nil
  | cons opp opps ih =>
    obtain ⟨g, hg₀, hg⟩ := except_bind_ok hg
    obtain ⟨gs, hgs, hg⟩ := except_bind_ok hg
    obtain rfl := Except.ok.inj hg
    obtain ⟨i, hi, h⟩ := except_bind_ok h
    obtain ⟨is, his, h⟩ := except_bind_ok h
    obtain rfl := Except.ok.inj h
    obtain ⟨hlink, hlinks⟩ := hlinks
    have hres : opp.op = .add → addedUuid (rs.headD .null) = .ok (optStr (cs.headD none)) := by
      intro hop
      have he : editOf A model opp = .add (gridTable A model opp.grid)
          (A.fill (A.columns (gridTable A model opp.grid)) (opp.item.getD [])) := by
        rw [editOf, hop]
      exact hlink _ _ he
    have hc : ∀ u, cs.headD none = some u → safeName u = true := by
      intro u hu
      cases cs with
      | nil => cases hu
      | cons c cs =>
        have hc₀ : c = some u := hu
        exact hcs u (hc₀ ▸ List.mem_cons_self)
    exact List.rel_append (means_inverse hA hg₀ hdoc hres hc hi)
      (ih hgs hlinks (fun u hu => hcs u (List.mem_of_mem_tail hu)) his)

theorem means_script {opps : List CatalogGridOpIn} {gs : List Json} (hA : A.Describes model)
    (hg : gridPayloads model opps = .ok gs)
    (hu : ∀ e ∈ opps.map (editOf A model), ∀ u, e.named = some u → safeName u = true) :
    List.Forall₂ (Means A) gs (opps.map (editOf A model)) := by
  induction opps generalizing gs with
  | nil =>
    obtain rfl := Except.ok.inj hg
    exact .nil
  | cons opp opps ih =>
    obtain ⟨g, hg₀, hg⟩ := except_bind_ok hg
    obtain ⟨gs, hgs, hg⟩ := except_bind_ok hg
    obtain rfl := Except.ok.inj hg
    obtain ⟨h₀, hrest⟩ := List.forall_mem_cons.mp hu
    exact .cons (means_editOf hA hg₀ h₀) (ih hgs hrest)

end Inversion

end Opngms
