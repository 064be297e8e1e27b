/-
Opngms/Access.lean

Effective tenant access: direct memberships and group grants, the highest role wins
(core/access.py, core/rbac.py).

`resolveEffectiveRole` asks for one tenant, `tenantsForUser` for all of them.  The
first takes the highest role of two queries, the second bumps a dict row by row.
`Reaches` says which roles a user has on a tenant at all, `EffectiveRole` which of
them counts, and both functions compute it (`resolveEffectiveRole_eq_some_iff`,
`lookup_tenantsForUser_eq_some_iff`).

Main result: **`accessResolvedOneWay`**.  A database hands out the rows of a query in
any order, so every query takes a `RowOrder`.
-/
import Mathlib.Data.List.AList
import Mathlib.Data.List.Induction
import Mathlib.Order.Basic

namespace Opngms

namespace Access

/-! ### Roles -/

/-- `ROLE_RANK`. -/
def roleRank : List (String × Nat) := [("read_only", 1), ("operator", 2), ("tenant_admin", 3)]

/-- `ROLE_RANK.get(role or "", 0)`. -/
def rank (role : Option String) : Nat := (roleRank.lookup (role.getD "")).getD 0

@[simp] theorem rank_none : rank none = 0 := rfl

theorem rank_inj {a b : Option String} (h : rank a = rank b) (hpos : 0 < rank a) : a = b := by
  have known : ∀ c : Option String, 0 < rank c →
      rank c = 1 ∧ c = some "read_only" ∨ rank c = 2 ∧ c = some "operator" ∨
        rank c = 3 ∧ c = some "tenant_admin" := by
    intro c hc
    cases c with
    | none => exact absurd hc (Nat.lt_irrefl 0)
    | some s =>
      by_cases h1 : s = "read_only"
      · left
        subst h1
        exact ⟨by decide, rfl⟩
      by_cases h2 : s = "operator"
      · right; left
        subst h2
        exact ⟨by decide, rfl⟩
      by_cases h3 : s = "tenant_admin"
      · right; right
        subst h3
        exact ⟨by decide, rfl⟩
      rw [← ne_eq, ← beq_eq_false_iff_ne] at h1 h2 h3
      simp [rank, roleRank, List.lookup_cons, h1, h2, h3] at hc
  rcases known a hpos with ⟨ha, rfl⟩ | ⟨ha, rfl⟩ | ⟨ha, rfl⟩ <;>
    rcases known b (h ▸ hpos) with ⟨hb, rfl⟩ | ⟨hb, rfl⟩ | ⟨hb, rfl⟩ <;>
      first | rfl | omega

/-- The loop of `highest_role`: the best role so far and its rank. -/
def bestOf (best : Option String × Nat) (role : Option String) : Option String × Nat :=
  if rank role > best.2 then (role, rank role) else best

/-- `highest_role`: the most privileged tenant role, ignoring None and unknown ones. -/
def highestRole (roles : List (Option String)) : Option String := (roles.foldl bestOf (none, 0)).1

theorem foldl_bestOf (roles : List (Option String)) :
    (roles.foldl bestOf (none, 0)).2 = rank (highestRole roles) ∧
      (∀ role ∈ roles, rank role ≤ rank (highestRole roles)) ∧
      (∀ r, highestRole roles = some r → some r ∈ roles ∧ 0 < rank (some r)) := by
  unfold highestRole
  induction roles using List.reverseRecOn with
  | nil => simp
  | append_singleton roles role ih =>
    obtain ⟨hrank, hmax, hmem⟩ := ih
    rw [List.foldl_append, List.foldl_cons, List.foldl_nil]
    generalize roles.foldl bestOf (none, 0) = best at *
    unfold bestOf
    split
    · -- the new role beats all before it
      rename_i hlt
      refine ⟨rfl, ?_, ?_⟩
      · intro x hx
        rcases List.mem_append.mp hx with hx | hx
        · have hle := hmax x hx
          dsimp only
          omega
        · rw [List.mem_singleton.mp hx]
      · intro r hr
        dsimp only at hr
        subst hr
        exact ⟨by simp, by omega⟩
    · rename_i hle
      refine ⟨hrank, ?_, ?_⟩
      · intro x hx
        rcases List.mem_append.mp hx with hx | hx
        · exact hmax x hx
        · rw [List.mem_singleton.mp hx]
          omega
      · intro r hr
        obtain ⟨hin, hpos⟩ := hmem r hr
        exact ⟨List.mem_append_left _ hin, hpos⟩

theorem rank_le_highestRole {roles : List (Option String)} {role : Option String}
    (h : role ∈ roles) : rank role ≤ rank (highestRole roles) :=
  (foldl_bestOf roles).2.1 role h

/-- **The highest role is the known one that no other outranks.** -/
theorem highestRole_eq_some_iff {roles : List (Option String)} {r : String} :
    highestRole roles = some r ↔
      some r ∈ roles ∧ 0 < rank (some r) ∧ ∀ role ∈ roles, rank role ≤ rank (some r) := by
  constructor
  · intro h
    obtain ⟨hin, hpos⟩ := (foldl_bestOf roles).2.2 r h
    refine ⟨hin, hpos, ?_⟩
    intro role hrole
    rw [← h]
    exact rank_le_highestRole hrole
  · rintro ⟨hin, hpos, hmax⟩
    have hle := rank_le_highestRole hin
    cases hbest : highestRole roles with
    | none =>
      rw [hbest] at hle
      simp only [rank_none] at hle
      omega
    | some s =>
      have hs := ((foldl_bestOf roles).2.2 s hbest).1
      rw [hbest] at hle
      exact rank_inj (Nat.le_antisymm (hmax _ hs) hle) (Nat.lt_of_lt_of_le hpos hle)

theorem rank_highestRole_mono {roles roles' : List (Option String)}
    (h : ∀ role ∈ roles, role ∈ roles') : rank (highestRole roles) ≤ rank (highestRole roles') := by
  cases hbest : highestRole roles with
  | none => simp
  | some r => exact rank_le_highestRole (h _ (highestRole_eq_some_iff.mp hbest).1)

theorem highestRole_merge (roles : List (Option String)) (role : Option String) :
    highestRole [highestRole roles, role] = highestRole (roles ++ [role]) := by
  apply Option.ext
  intro r
  simp only [highestRole_eq_some_iff, List.mem_append, List.mem_cons,
    List.not_mem_nil, or_false]
  constructor
  · rintro ⟨hin, hpos, hmax⟩
    refine ⟨?_, hpos, ?_⟩
    · rcases hin with hin | hin
      · exact Or.inl (highestRole_eq_some_iff.mp hin.symm).1
      · exact Or.inr hin
    · rintro x (hx | hx)
      · exact Nat.le_trans (rank_le_highestRole hx) (hmax _ (Or.inl rfl))
      · exact hmax _ (Or.inr hx)
  · rintro ⟨hin, hpos, hmax⟩
    have hbest : rank (highestRole roles) ≤ rank (some r) := by
      cases h : highestRole roles with
      | none => simp
      | some s => exact hmax _ (Or.inl (highestRole_eq_some_iff.mp h).1)
    refine ⟨?_, hpos, ?_⟩
    · rcases hin with hin | hin
      · left
        refine (highestRole_eq_some_iff.mpr ⟨hin, hpos, ?_⟩).symm
        intro x hx
        exact hmax x (Or.inl hx)
      · exact Or.inr hin
    · rintro x (hx | hx)
      · rw [hx]
        exact hbest
      · exact hmax x (Or.inr hx)

/-! ### Tables and queries -/

/-- A row of `memberships`. -/
structure Membership (U T : Type) where
  userId : U
  tenantId : T
  role : String

/-- A row of `group_members`. -/
structure GroupMember (U G : Type) where
  groupId : G
  userId : U

/-- A row of `group_grants`: the wildcard, or one tenant. -/
structure GroupGrant (G T : Type) where
  groupId : G
  allTenants : Bool
  tenantId : Option T
  role : String

/-- The rows access is resolved from; `memberships` and `group_grants` refer to tenants by
foreign keys.  The other constraints of the tables play no part. -/
structure Db (U G T : Type) where
  tenants : List T
  memberships : List (Membership U T)
  groupMembers : List (GroupMember U G)
  groupGrants : List (GroupGrant G T)
  membership_tenant : ∀ m ∈ memberships, m.tenantId ∈ tenants
  grant_tenant : ∀ g ∈ groupGrants, ∀ t ∈ g.tenantId, t ∈ tenants

/-- The order in which the database hands out the rows of a query. -/
structure RowOrder (α : Type) where
  order : List α → List α
  perm : ∀ rows, (order rows).Perm rows

/-- An order for each query. -/
structure Plan (G T : Type) where
  roles : RowOrder String
  grantRoles : RowOrder String
  memberships : RowOrder (T × String)
  grants : RowOrder (GroupGrant G T)
  tenants : RowOrder T

@[simp] theorem RowOrder.mem_order {α : Type} (o : RowOrder α) {rows : List α} {a : α} :
    a ∈ o.order rows ↔ a ∈ rows :=
  (o.perm rows).mem_iff

variable {U G T : Type} [DecidableEq U] [DecidableEq G] [DecidableEq T]

/-- `group_grants JOIN group_members ON group_id WHERE user_id = user.id`. -/
def grantsOf (db : Db U G T) (user : U) : List (GroupGrant G T) :=
  db.groupGrants.flatMap fun g =>
    (db.groupMembers.filter fun m => m.groupId = g.groupId ∧ m.userId = user).map fun _ => g

/-- `resolve_effective_role`. -/
def resolveEffectiveRole (o : Plan G T) (db : Db U G T) (user : U) (tenantId : T) :
    Option String :=
  let memberships := db.memberships.filter fun m => m.userId = user ∧ m.tenantId = tenantId
  let grants := (grantsOf db user).filter fun g => g.allTenants ∨ g.tenantId = some tenantId
  highestRole ((o.roles.order (memberships.map (·.role))).map some ++
    (o.grantRoles.order (grants.map (·.role))).map some)

/-- `_bump`. -/
def bump (result : AList fun _ : T => String) (tid : T) (role : String) :
    AList fun _ : T => String :=
  match highestRole [result.lookup tid, some role] with
  | some merged => result.insert tid merged
  | none => result

/-- `tenants_for_user`. -/
def tenantsForUser (o : Plan G T) (db : Db U G T) (user : U) : AList fun _ : T => String :=
  let memberships := db.memberships.filter fun m => m.userId = user
  let result := (o.memberships.order (memberships.map fun m => (m.tenantId, m.role))).foldl
    (fun result row => bump result row.1 row.2) ∅
  let grants := o.grants.order (grantsOf db user)
  let wildcardRoles := (grants.filter (·.allTenants)).map (·.role)
  let result :=
    if wildcardRoles.isEmpty then result
    else
      let allTids := o.tenants.order db.tenants
      wildcardRoles.foldl
        (fun result role => allTids.foldl (fun result tid => bump result tid role) result) result
  grants.foldl
    (fun result g =>
      match g.allTenants, g.tenantId with
      | false, some tid => bump result tid g.role
      | _, _ => result)
    result

/-! ### What access is -/

/-- The roles a user has on a tenant, by any way. -/
inductive Reaches (db : Db U G T) (user : U) : T → String → Prop
  | membership {m : Membership U T} :
      m ∈ db.memberships → m.userId = user → Reaches db user m.tenantId m.role
  | wildcard {g : GroupGrant G T} {m : GroupMember U G} {t : T} :
      g ∈ db.groupGrants → m ∈ db.groupMembers → m.groupId = g.groupId → m.userId = user →
      g.allTenants = true → t ∈ db.tenants → Reaches db user t g.role
  | grant {g : GroupGrant G T} {m : GroupMember U G} {t : T} :
      g ∈ db.groupGrants → m ∈ db.groupMembers → m.groupId = g.groupId → m.userId = user →
      g.allTenants = false → g.tenantId = some t → Reaches db user t g.role

/-- The role that counts: a known one that no other of the user's roles outranks. -/
def EffectiveRole (db : Db U G T) (user : U) (t : T) (r : String) : Prop :=
  Reaches db user t r ∧ 0 < rank (some r) ∧ ∀ s, Reaches db user t s → rank (some s) ≤ rank (some r)

omit [DecidableEq U] [DecidableEq G] [DecidableEq T] in
theorem Reaches.tenant {db : Db U G T} {user : U} {t : T} {r : String} (h : Reaches db user t r) :
    t ∈ db.tenants := by
  cases h with
  | membership hm _ => exact db.membership_tenant _ hm
  | wildcard _ _ _ _ _ ht => exact ht
  | grant hg _ _ _ _ ht => exact db.grant_tenant _ hg _ ht

omit [DecidableEq U] [DecidableEq G] [DecidableEq T] in
theorem highestRole_eq_effective {db : Db U G T} {user : U} {t : T} {roles : List (Option String)}
    (hnone : none ∉ roles) (h : ∀ r, some r ∈ roles ↔ Reaches db user t r) (r : String) :
    highestRole roles = some r ↔ EffectiveRole db user t r := by
  rw [highestRole_eq_some_iff, EffectiveRole, h]
  refine and_congr_right fun _ => and_congr_right fun _ => ?_
  constructor
  · intro hmax s hs
    exact hmax _ ((h s).mpr hs)
  · intro hmax role hrole
    cases role with
    | none => exact absurd hrole hnone
    | some s => exact hmax s ((h s).mp hrole)

omit [DecidableEq T] in
theorem mem_grantsOf {db : Db U G T} {user : U} {g : GroupGrant G T} :
    g ∈ grantsOf db user ↔
      g ∈ db.groupGrants ∧ ∃ m ∈ db.groupMembers, m.groupId = g.groupId ∧ m.userId = user := by
  simp only [grantsOf, List.mem_flatMap, List.mem_map, List.mem_filter, decide_eq_true_eq]
  constructor
  · rintro ⟨g', hg', m, hm, rfl⟩
    exact ⟨hg', m, hm⟩
  · rintro ⟨hg, m, hm⟩
    exact ⟨g, hg, m, hm, rfl⟩

/-- **One tenant: the effective role.** -/
theorem resolveEffectiveRole_eq_some_iff {o : Plan G T} {db : Db U G T} {user : U} {t : T}
    (ht : t ∈ db.tenants) (r : String) :
    resolveEffectiveRole o db user t = some r ↔ EffectiveRole db user t r := by
  apply highestRole_eq_effective
  · simp
  intro r
  simp only [List.mem_append, List.mem_map, RowOrder.mem_order, List.mem_filter,
    decide_eq_true_eq, Option.some.injEq, exists_eq_right]
  constructor
  · rintro (⟨m, ⟨hm, huser, rfl⟩, rfl⟩ | ⟨g, ⟨hg, hscope⟩, rfl⟩)
    · exact .membership hm huser
    · obtain ⟨hgrant, m, hm, hgroup, huser⟩ := mem_grantsOf.mp hg
      cases hall : g.allTenants with
      | true => exact .wildcard hgrant hm hgroup huser hall ht
      | false =>
        rw [hall] at hscope
        exact .grant hgrant hm hgroup huser hall (by simpa using hscope)
  · intro h
    cases h with
    | membership hm huser => exact .inl ⟨_, ⟨hm, huser, rfl⟩, rfl⟩
    | wildcard hg hm hgroup huser hall _ =>
      exact .inr ⟨_, ⟨mem_grantsOf.mpr ⟨hg, _, hm, hgroup, huser⟩, .inl hall⟩, rfl⟩
    | grant hg hm hgroup huser _ htenant =>
      exact .inr ⟨_, ⟨mem_grantsOf.mpr ⟨hg, _, hm, hgroup, huser⟩, .inr htenant⟩, rfl⟩

/-! ### The dict of tenants_for_user -/

/-- Bump a dict with one row after another. -/
def bumpAll (result : AList fun _ : T => String) (rows : List (T × String)) :
    AList fun _ : T => String :=
  rows.foldl (fun result row => bump result row.1 row.2) result

def rolesAt (rows : List (T × String)) (t : T) : List (Option String) :=
  (rows.filter (·.1 = t)).map fun row => some row.2

theorem lookup_bump (result : AList fun _ : T => String) (tid t : T) (role : String) :
    (bump result tid role).lookup t =
      if tid = t then (highestRole [result.lookup tid, some role]).or (result.lookup tid)
      else result.lookup t := by
  unfold bump
  split
  · rename_i merged hmerged
    split
    · rename_i heq
      subst heq
      simp [hmerged]
    · rename_i hne
      exact AList.lookup_insert_ne (Ne.symm hne)
  · rename_i hmerged
    split
    · rename_i heq
      subst heq
      simp [hmerged]
    · rfl

/-- **After any rows, the dict holds the highest role of each tenant's rows.** -/
theorem lookup_bumpAll (rows : List (T × String)) (t : T) :
    (bumpAll ∅ rows).lookup t = highestRole (rolesAt rows t) := by
  induction rows using List.reverseRecOn with
  | nil => rfl
  | append_singleton rows row ih =>
    have hbump : bumpAll ∅ (rows ++ [row]) = bump (bumpAll ∅ rows) row.1 row.2 := by
      simp [bumpAll]
    rw [hbump, lookup_bump]
    by_cases heq : row.1 = t
    · have hroles : rolesAt (rows ++ [row]) t = rolesAt rows t ++ [some row.2] := by
        simp [rolesAt, heq]
      rw [if_pos heq, heq, ih, highestRole_merge, hroles]
      cases hmerged : highestRole (rolesAt rows t ++ [some row.2]) with
      | some r => rfl
      | none =>
        -- a merge that finds nothing found nothing before
        cases hbest : highestRole (rolesAt rows t) with
        | none => rfl
        | some s =>
          have hpos := (highestRole_eq_some_iff.mp hbest).2.1
          have hmono : rank (highestRole (rolesAt rows t)) ≤
              rank (highestRole (rolesAt rows t ++ [some row.2])) :=
            rank_highestRole_mono fun role h => List.mem_append_left _ h
          rw [hbest, hmerged, rank_none] at hmono
          omega
    · have hroles : rolesAt (rows ++ [row]) t = rolesAt rows t := by
        simp [rolesAt, heq]
      rw [if_neg heq, ih, hroles]

/-- The rows `tenants_for_user` bumps its dict with: memberships, wildcards, single tenants. -/
def bumpedRows (o : Plan G T) (db : Db U G T) (user : U) : List (T × String) :=
  let memberships := db.memberships.filter fun m => m.userId = user
  let grants := o.grants.order (grantsOf db user)
  o.memberships.order (memberships.map fun m => (m.tenantId, m.role)) ++
    ((grants.filter (·.allTenants)).map (·.role)).flatMap
      (fun role => (o.tenants.order db.tenants).map fun tid => (tid, role)) ++
    (grants.filter fun g => !g.allTenants).filterMap fun g =>
      g.tenantId.map fun tid => (tid, g.role)

theorem tenantsForUser_eq (o : Plan G T) (db : Db U G T) (user : U) :
    tenantsForUser o db user = bumpAll ∅ (bumpedRows o db user) := by
  have hwild : ∀ (roles : List String) (tids : List T) (result : AList fun _ : T => String),
      (if roles.isEmpty then result
        else roles.foldl
          (fun result role => tids.foldl (fun result tid => bump result tid role) result) result) =
        bumpAll result (roles.flatMap fun role => tids.map fun tid => (tid, role)) := by
    intro roles tids result
    cases roles with
    | nil => rfl
    | cons role roles => simp [bumpAll, List.foldl_flatMap, List.foldl_map]
  have hsingle : ∀ (grants : List (GroupGrant G T)) (result : AList fun _ : T => String),
      grants.foldl
          (fun result g =>
            match g.allTenants, g.tenantId with
            | false, some tid => bump result tid g.role
            | _, _ => result)
          result =
        bumpAll result ((grants.filter fun g => !g.allTenants).filterMap
          fun g => g.tenantId.map fun tid => (tid, g.role)) := by
    intro grants
    induction grants with
    | nil => exact fun _ => rfl
    | cons g grants ih =>
      intro result
      rw [List.foldl_cons, ih]
      obtain ⟨_, all, tenantId, _⟩ := g
      cases all <;> cases tenantId <;> simp [bumpAll]
  unfold tenantsForUser
  dsimp only
  rw [hwild, hsingle]
  simp [bumpAll, bumpedRows, List.foldl_append]

theorem mem_rolesAt_bumpedRows {o : Plan G T} {db : Db U G T} {user : U} {t : T} {r : String} :
    some r ∈ rolesAt (bumpedRows o db user) t ↔ Reaches db user t r := by
  have hrow : some r ∈ rolesAt (bumpedRows o db user) t ↔ (t, r) ∈ bumpedRows o db user := by
    simp [rolesAt]
  rw [hrow]
  simp only [bumpedRows, List.mem_append, RowOrder.mem_order, List.mem_map, List.mem_flatMap,
    List.mem_filterMap, List.mem_filter, Prod.mk.injEq, decide_eq_true_eq, Bool.not_eq_true',
    Option.map_eq_some_iff]
  constructor
  · rintro ((⟨m, ⟨hm, huser⟩, rfl, rfl⟩ | ⟨_, ⟨g, ⟨hg, hall⟩, rfl⟩, _, ht, rfl, rfl⟩) |
      ⟨g, ⟨hg, hall⟩, _, htenant, rfl, rfl⟩)
    · exact .membership hm huser
    · obtain ⟨hgrant, m, hm, hgroup, huser⟩ := mem_grantsOf.mp hg
      exact .wildcard hgrant hm hgroup huser hall ht
    · obtain ⟨hgrant, m, hm, hgroup, huser⟩ := mem_grantsOf.mp hg
      exact .grant hgrant hm hgroup huser hall htenant
  · intro h
    cases h with
    | membership hm huser => exact .inl (.inl ⟨_, ⟨hm, huser⟩, rfl, rfl⟩)
    | wildcard hg hm hgroup huser hall ht =>
      exact .inl (.inr ⟨_, ⟨_, ⟨mem_grantsOf.mpr ⟨hg, _, hm, hgroup, huser⟩, hall⟩, rfl⟩,
        _, ht, rfl, rfl⟩)
    | grant hg hm hgroup huser hall htenant =>
      exact .inr ⟨_, ⟨mem_grantsOf.mpr ⟨hg, _, hm, hgroup, huser⟩, hall⟩, _, htenant, rfl, rfl⟩

/-- **All tenants: the effective roles.** -/
theorem lookup_tenantsForUser_eq_some_iff {o : Plan G T} {db : Db U G T} {user : U} {t : T}
    (r : String) : (tenantsForUser o db user).lookup t = some r ↔ EffectiveRole db user t r := by
  rw [tenantsForUser_eq, lookup_bumpAll]
  apply highestRole_eq_effective
  · simp [rolesAt]
  · exact fun r => mem_rolesAt_bumpedRows

/-! ### Order of rows, and more rows -/

/-- The same rows in other orders. -/
structure Db.SameRows (db db' : Db U G T) : Prop where
  tenants : db.tenants.Perm db'.tenants
  memberships : db.memberships.Perm db'.memberships
  groupMembers : db.groupMembers.Perm db'.groupMembers
  groupGrants : db.groupGrants.Perm db'.groupGrants

/-- A new row in `memberships`. -/
def Db.addMembership (db : Db U G T) (m : Membership U T) (h : m.tenantId ∈ db.tenants) :
    Db U G T :=
  { db with
    memberships := m :: db.memberships
    membership_tenant := List.forall_mem_cons.mpr ⟨h, db.membership_tenant⟩ }

/-- A new row in `group_grants`. -/
def Db.addGrant (db : Db U G T) (g : GroupGrant G T) (h : ∀ t ∈ g.tenantId, t ∈ db.tenants) :
    Db U G T :=
  { db with
    groupGrants := g :: db.groupGrants
    grant_tenant := List.forall_mem_cons.mpr ⟨h, db.grant_tenant⟩ }

/-- One membership or one grant is added. -/
inductive Db.Adds (db : Db U G T) : Db U G T → Prop
  | membership (m : Membership U T) (h : m.tenantId ∈ db.tenants) : Adds db (db.addMembership m h)
  | grant (g : GroupGrant G T) (h : ∀ t ∈ g.tenantId, t ∈ db.tenants) : Adds db (db.addGrant g h)

omit [DecidableEq U] [DecidableEq G] [DecidableEq T] in
theorem Reaches.mono {db db' : Db U G T} {user : U} (htenants : db.tenants ⊆ db'.tenants)
    (hmemberships : db.memberships ⊆ db'.memberships)
    (hmembers : db.groupMembers ⊆ db'.groupMembers) (hgrants : db.groupGrants ⊆ db'.groupGrants)
    {t : T} {r : String} (h : Reaches db user t r) : Reaches db' user t r := by
  cases h with
  | membership hm huser => exact .membership (hmemberships hm) huser
  | wildcard hg hm hgroup huser hall ht =>
    exact .wildcard (hgrants hg) (hmembers hm) hgroup huser hall (htenants ht)
  | grant hg hm hgroup huser hall ht =>
    exact .grant (hgrants hg) (hmembers hm) hgroup huser hall ht

omit [DecidableEq U] [DecidableEq G] [DecidableEq T] in
theorem Db.SameRows.effectiveRole {db db' : Db U G T} (h : db.SameRows db') {user : U} {t : T}
    {r : String} : EffectiveRole db user t r ↔ EffectiveRole db' user t r := by
  have hreaches : ∀ s, Reaches db user t s ↔ Reaches db' user t s := fun s =>
    ⟨Reaches.mono h.tenants.subset h.memberships.subset h.groupMembers.subset h.groupGrants.subset,
      Reaches.mono h.tenants.symm.subset h.memberships.symm.subset h.groupMembers.symm.subset
        h.groupGrants.symm.subset⟩
  simp only [EffectiveRole, hreaches]

omit [DecidableEq U] [DecidableEq G] [DecidableEq T] in
theorem Db.Adds.reaches {db db' : Db U G T} (h : db.Adds db') {user : U} {t : T} {r : String}
    (hr : Reaches db user t r) : Reaches db' user t r := by
  cases h with
  | membership m hm =>
    apply hr.mono
    · exact List.Subset.refl _
    · exact List.subset_cons_self m _
    · exact List.Subset.refl _
    · exact List.Subset.refl _
  | grant g hg =>
    apply hr.mono
    · exact List.Subset.refl _
    · exact List.Subset.refl _
    · exact List.Subset.refl _
    · exact List.subset_cons_self g _

omit [DecidableEq U] [DecidableEq G] [DecidableEq T] in
theorem Db.Adds.tenants {db db' : Db U G T} (h : db.Adds db') : db'.tenants = db.tenants := by
  cases h <;> rfl

theorem rank_lookup_mono {db db' : Db U G T} {user : U} {t : T} (o o' : Plan G T)
    (h : ∀ r, Reaches db user t r → Reaches db' user t r) :
    rank ((tenantsForUser o db user).lookup t) ≤ rank ((tenantsForUser o' db' user).lookup t) := by
  rw [tenantsForUser_eq, tenantsForUser_eq, lookup_bumpAll, lookup_bumpAll]
  apply rank_highestRole_mono
  intro role hrole
  cases role with
  | none => simp [rolesAt] at hrole
  | some r => exact mem_rolesAt_bumpedRows.mpr (h r (mem_rolesAt_bumpedRows.mp hrole))

theorem lookup_eq_resolve (o o' : Plan G T) {db : Db U G T} {user : U} {t : T}
    (ht : t ∈ db.tenants) :
    (tenantsForUser o db user).lookup t = resolveEffectiveRole o' db user t := by
  apply Option.ext
  intro r
  rw [lookup_tenantsForUser_eq_some_iff, resolveEffectiveRole_eq_some_iff ht]

/-- **Access is resolved one way.**  The dict maps exactly the tenants on which the user has
an effective role, to that role; rows in another order change neither answer; and one more
membership or grant lowers no role and removes no tenant. -/
theorem accessResolvedOneWay (db : Db U G T) (user : U) :
    (∀ o o' t r, (tenantsForUser o db user).lookup t = some r ↔
      t ∈ db.tenants ∧ resolveEffectiveRole o' db user t = some r) ∧
    (∀ db', db.SameRows db' → ∀ o o' t,
      (tenantsForUser o db user).lookup t = (tenantsForUser o' db' user).lookup t ∧
      (t ∈ db.tenants →
        resolveEffectiveRole o db user t = resolveEffectiveRole o' db' user t)) ∧
    (∀ db', db.Adds db' → ∀ o o' t,
      (t ∈ tenantsForUser o db user → t ∈ tenantsForUser o' db' user) ∧
      rank ((tenantsForUser o db user).lookup t) ≤
        rank ((tenantsForUser o' db' user).lookup t) ∧
      (t ∈ db.tenants →
        rank (resolveEffectiveRole o db user t) ≤ rank (resolveEffectiveRole o' db' user t))) := by
  refine ⟨?_, ?_, ?_⟩
  · intro o o' t r
    constructor
    · intro h
      have ht := (lookup_tenantsForUser_eq_some_iff r |>.mp h).1.tenant
      exact ⟨ht, by rw [← h, lookup_eq_resolve o o' ht]⟩
    · rintro ⟨ht, h⟩
      rw [lookup_eq_resolve o o' ht, h]
  · intro db' hsame o o' t
    have hlookup : (tenantsForUser o db user).lookup t = (tenantsForUser o' db' user).lookup t := by
      apply Option.ext
      intro r
      rw [lookup_tenantsForUser_eq_some_iff, lookup_tenantsForUser_eq_some_iff,
        hsame.effectiveRole]
    refine ⟨hlookup, ?_⟩
    intro ht
    rw [← lookup_eq_resolve o o ht, hlookup, lookup_eq_resolve o' o' (hsame.tenants.subset ht)]
  · intro db' hadds o o' t
    have hrank : rank ((tenantsForUser o db user).lookup t) ≤
        rank ((tenantsForUser o' db' user).lookup t) :=
      rank_lookup_mono o o' fun _ => hadds.reaches
    refine ⟨?_, hrank, ?_⟩
    · -- a tenant in the dict has a role of positive rank
      intro ht
      obtain ⟨r, hr⟩ := Option.isSome_iff_exists.mp (AList.lookup_isSome.mpr ht)
      have hpos := (lookup_tenantsForUser_eq_some_iff r |>.mp hr).2.1
      rw [hr] at hrank
      by_contra hnot
      rw [AList.lookup_eq_none.mpr hnot, rank_none] at hrank
      omega
    · intro ht
      rw [← lookup_eq_resolve o o ht, ← lookup_eq_resolve o' o' (hadds.tenants ▸ ht)]
      exact hrank

end Access

end Opngms
