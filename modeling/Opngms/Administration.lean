/-
Opngms/Administration.lean

Users, tenants, memberships and groups over whole runs of requests (core/rbac.py,
core/deps.py, api/users.py, api/tenants.py, api/memberships.py, api/groups.py).

The constraints of the tables are part of their value: a write that breaks one is refused
(`flush`), and what is refused changes nothing.

Main results: **`tenantsForUser_run`**, access is what the accepted requests gave and did not
take back, and **`outsiders_confined`**.
-/
import Mathlib.Tactic.MkIffOfInductiveProp
import Opngms.Access
import Opngms.EventLog

namespace Opngms

namespace Administration

open Access EventLog

/-! ### Permissions -/

inductive Action
  | tenantManage | userManage | templateManage | groupManage | logFleetView | systemManage
  | auditView | membershipManage | deviceView | deviceWrite | configPush | reportGenerate
  | reportConfig | retentionConfig | logView
  deriving DecidableEq

/-- `TENANT_ROLES`. -/
def tenantRoles : List String := ["tenant_admin", "operator", "read_only"]

/-- `_ORG_ACTIONS`. -/
def orgActions : List Action :=
  [.tenantManage, .userManage, .templateManage, .groupManage, .logFleetView, .systemManage,
    .auditView]

/-- `_TENANT_MATRIX`. -/
def tenantMatrix : Action → List String
  | .membershipManage | .reportConfig | .retentionConfig => ["tenant_admin"]
  | .deviceView => tenantRoles
  | .deviceWrite | .configPush | .reportGenerate | .logView => ["tenant_admin", "operator"]
  | _ => []

def can (isSuperadmin : Bool) (role : Option String) (action : Action) : Bool :=
  if isSuperadmin then true
  else if action ∈ orgActions then false
  else role.any (· ∈ tenantMatrix action)

/-! ### Tables -/

structure User (U : Type) where
  id : U
  email : String
  isSuperadmin : Bool

structure Tenant (T : Type) where
  id : T
  slug : String

/-- The rows: a group by its id, a grant with its id. -/
structure Rows (U G T I : Type) where
  users : List (User U)
  tenants : List (Tenant T)
  memberships : List (Access.Membership U T)
  groups : List G
  groupMembers : List (GroupMember U G)
  groupGrants : List (I × GroupGrant G T)

/-- The constraints, under the names of the source where it has them. -/
@[mk_iff]
structure Rows.Valid {U G T I : Type} (s : Rows U G T I) : Prop where
  users_id : (s.users.map (·.id)).Nodup
  users_email : (s.users.map (·.email)).Nodup
  tenants_id : (s.tenants.map (·.id)).Nodup
  tenants_slug : (s.tenants.map (·.slug)).Nodup
  groups_id : s.groups.Nodup
  group_grants_id : (s.groupGrants.map (·.1)).Nodup
  uq_membership_user_tenant : (s.memberships.map fun m => (m.userId, m.tenantId)).Nodup
  uq_group_members_group_user : (s.groupMembers.map fun m => (m.groupId, m.userId)).Nodup
  uq_group_grants_wildcard : ((s.groupGrants.filter (·.2.allTenants)).map (·.2.groupId)).Nodup
  uq_group_grants_tenant :
    ((s.groupGrants.filter (·.2.tenantId.isSome)).map fun g => (g.2.groupId, g.2.tenantId)).Nodup
  membership_user : ∀ m ∈ s.memberships, m.userId ∈ s.users.map (·.id)
  membership_tenant : ∀ m ∈ s.memberships, m.tenantId ∈ s.tenants.map (·.id)
  member_group : ∀ m ∈ s.groupMembers, m.groupId ∈ s.groups
  member_user : ∀ m ∈ s.groupMembers, m.userId ∈ s.users.map (·.id)
  grant_group : ∀ g ∈ s.groupGrants, g.2.groupId ∈ s.groups
  grant_tenant : ∀ g ∈ s.groupGrants, ∀ t ∈ g.2.tenantId, t ∈ s.tenants.map (·.id)
  ck_group_grants_scope : ∀ g ∈ s.groupGrants, g.2.allTenants = g.2.tenantId.isNone
  ck_group_grants_role : ∀ g ∈ s.groupGrants, g.2.role ∈ tenantRoles

variable {U G T I : Type} [DecidableEq U] [DecidableEq G] [DecidableEq T] [DecidableEq I]

instance decidableValid (s : Rows U G T I) : Decidable s.Valid :=
  decidable_of_iff' _ (Rows.valid_iff s)

abbrev Tables (U G T I : Type) := { s : Rows U G T I // s.Valid }

/-- The rows access is resolved from. -/
def Tables.db (s : Tables U G T I) : Db U G T where
  tenants := s.1.tenants.map (·.id)
  memberships := s.1.memberships
  groupMembers := s.1.groupMembers
  groupGrants := s.1.groupGrants.map (·.2)
  membership_tenant := s.2.membership_tenant
  grant_tenant := List.forall_mem_map.mpr s.2.grant_tenant

def Tables.isSuperadmin (s : Tables U G T I) (actor : U) : Bool :=
  s.1.users.any fun user => user.id = actor ∧ user.isSuperadmin

/-! ### Requests -/

structure MembershipIn (U : Type) where
  userId : U
  role : String
  role_mem : role ∈ tenantRoles

structure GroupGrantIn (T : Type) where
  allTenants : Bool
  tenantId : Option T
  role : String
  role_mem : role ∈ tenantRoles
  scope : allTenants = tenantId.isNone

def GroupGrantIn.row (payload : GroupGrantIn T) (groupId : G) : GroupGrant G T :=
  ⟨groupId, payload.allTenants, payload.tenantId, payload.role⟩

/-- A request of a user who is logged in, with the id that a new row is given. -/
inductive Request (U G T I : Type)
  | createUser (user : User U)
  | createTenant (tenant : Tenant T)
  | createMembership (tenantId : T) (payload : MembershipIn U)
  | createGroup (id : G)
  | deleteGroup (groupId : G)
  | setMembers (groupId : G) (userIds : List U)
  | addGrant (groupId : G) (id : I) (payload : GroupGrantIn T)
  | deleteGrant (groupId : G) (grantId : I)

structure HTTPException where
  status : Nat
  detail : String

def check (c : Prop) [Decidable c] (status : Nat) (detail : String) : Except HTTPException Unit :=
  if c then .ok () else .error ⟨status, detail⟩

def flush (integrityError : HTTPException) (s : Rows U G T I) :
    Except HTTPException (Tables U G T I) :=
  if h : s.Valid then .ok ⟨s, h⟩ else .error integrityError

/-- `require_org`. -/
def requireOrg (s : Tables U G T I) (actor : U) (action : Action) : Except HTTPException Unit :=
  check (can (s.isSuperadmin actor) none action) 403 "Permission denied"

/-- `tenant_context`, then `require_tenant`. -/
def requireTenant (o : Plan G T) (s : Tables U G T I) (actor : U) (tenantId : T)
    (action : Action) : Except HTTPException Unit := do
  check (tenantId ∈ s.db.tenants) 404 "Tenant not found"
  let role := if s.isSuperadmin actor then none else resolveEffectiveRole o s.db actor tenantId
  check (s.isSuperadmin actor ∨ role.isSome) 403 "Tenant access denied"
  check (can (s.isSuperadmin actor) role action) 403 "Permission denied"

/-- `_group_or_404`, behind the permission of its endpoints. -/
def groupOr404 (s : Tables U G T I) (actor : U) (groupId : G) : Except HTTPException Unit := do
  requireOrg s actor .groupManage
  check (groupId ∈ s.1.groups) 404 "Group not found"

/-- What each endpoint checks before it writes. -/
def checked (o : Plan G T) (s : Tables U G T I) (actor : U) :
    Request U G T I → Except HTTPException Unit
  | .createUser user => do
    requireOrg s actor .userManage
    check (user.email ∉ s.1.users.map (·.email)) 409 "Email already in use"
  | .createTenant _ => requireOrg s actor .tenantManage
  | .createMembership tenantId _ => requireTenant o s actor tenantId .membershipManage
  | .createGroup _ => requireOrg s actor .groupManage
  | .deleteGroup groupId | .setMembers groupId _ | .addGrant groupId _ _ =>
    groupOr404 s actor groupId
  | .deleteGrant groupId grantId => do
    groupOr404 s actor groupId
    check (∃ g ∈ s.1.groupGrants, g.1 = grantId ∧ g.2.groupId = groupId) 404 "Grant not found"

/-- What it writes. -/
def written (s : Rows U G T I) : Request U G T I → Rows U G T I
  | .createUser user => { s with users := user :: s.users }
  | .createTenant tenant => { s with tenants := tenant :: s.tenants }
  | .createMembership tenantId payload =>
    { s with memberships := ⟨payload.userId, tenantId, payload.role⟩ :: s.memberships }
  | .createGroup id => { s with groups := id :: s.groups }
  | .deleteGroup groupId =>
    -- the foreign keys of members and grants cascade
    { s with
      groups := s.groups.filter (· ≠ groupId)
      groupMembers := s.groupMembers.filter (·.groupId ≠ groupId)
      groupGrants := s.groupGrants.filter (·.2.groupId ≠ groupId) }
  | .setMembers groupId userIds =>
    { s with groupMembers := s.groupMembers.filter (·.groupId ≠ groupId) ++
        userIds.eraseDups.map fun uid => ⟨groupId, uid⟩ }
  | .addGrant groupId id payload =>
    { s with groupGrants := (id, payload.row groupId) :: s.groupGrants }
  | .deleteGrant _ grantId => { s with groupGrants := s.groupGrants.filter (·.1 ≠ grantId) }

/-- What it answers to a write that the database refuses; 500 where it does not catch. -/
def integrityError : Request U G T I → HTTPException
  | .setMembers _ _ => ⟨422, "Unknown user id"⟩
  | .addGrant _ _ _ => ⟨409, "A grant for this scope already exists, or the tenant is unknown"⟩
  | _ => ⟨500, "Internal Server Error"⟩

def handle (o : Plan G T) (s : Tables U G T I) (actor : U) (r : Request U G T I) :
    Except HTTPException (Tables U G T I) := do
  checked o s actor r
  flush (integrityError r) (written s.1 r)

structure Event (U G T I : Type) where
  plan : Plan G T
  actor : U
  request : Request U G T I

def step (s : Tables U G T I) (e : Event U G T I) : Option (Tables U G T I) :=
  (handle e.plan s e.actor e.request).toOption

def run (s : Tables U G T I) (es : List (Event U G T I)) : Tables U G T I :=
  es.foldl (settle step) s

/-- The tables after `POST /api/setup`. -/
def setup (admin : User U) : Tables U G T I :=
  ⟨⟨[admin], [], [], [], [], []⟩, by simp [Rows.valid_iff]⟩

variable {s s' : Tables U G T I} {e : Event U G T I}

@[simp] theorem check_eq_ok {c : Prop} [Decidable c] {status : Nat} {detail : String} :
    check c status detail = .ok () ↔ c := by
  unfold check
  split <;> simp [*]

@[simp] theorem seq_eq_ok {x y : Except HTTPException Unit} :
    (do x; y) = .ok () ↔ x = .ok () ∧ y = .ok () := by
  cases x <;> simp [bind, Except.bind]

theorem step_eq_some (h : step s e = some s') :
    checked e.plan s e.actor e.request = .ok () ∧ s'.1 = written s.1 e.request := by
  unfold step handle flush at h
  cases hc : checked e.plan s e.actor e.request with
  | error x => simp [hc, bind, Except.bind, Except.toOption] at h
  | ok a =>
    simp only [hc, bind, Except.bind] at h
    split at h
    · obtain rfl := Option.some.inj h
      exact ⟨rfl, rfl⟩
    · cases h

/-! ### What the rows are after a run -/

theorem mem_tenants_step (h : step s e = some s') (t : T) :
    t ∈ s'.db.tenants ↔
      (∃ tenant, e.request = .createTenant tenant ∧ tenant.id = t) ∨
        t ∈ s.db.tenants ∧ ¬ False := by
  show t ∈ s'.1.tenants.map (·.id) ↔ _ ∨ t ∈ s.1.tenants.map (·.id) ∧ _
  rw [(step_eq_some h).2]
  cases e.request <;> simp [written, eq_comm]

theorem mem_memberships_step (h : step s e = some s') (u : U) (t : T) (r : String) :
    ⟨u, t, r⟩ ∈ s'.1.memberships ↔
      (∃ payload, e.request = .createMembership t payload ∧ payload.userId = u ∧
        payload.role = r) ∨ ⟨u, t, r⟩ ∈ s.1.memberships ∧ ¬ False := by
  rw [(step_eq_some h).2]
  cases e.request <;> simp [written]
  case createMembership tenantId payload => grind

theorem mem_groupMembers_step (h : step s e = some s') (g : G) (u : U) :
    ⟨g, u⟩ ∈ s'.1.groupMembers ↔
      (∃ us, e.request = .setMembers g us ∧ u ∈ us) ∨ ⟨g, u⟩ ∈ s.1.groupMembers ∧
        ¬ (e.request = .deleteGroup g ∨ ∃ us, e.request = .setMembers g us) := by
  rw [(step_eq_some h).2]
  cases e.request <;> simp [written]
  case deleteGroup groupId => exact fun _ => by rw [eq_comm]
  case setMembers groupId userIds => grind

theorem mem_groupGrants_step (h : step s e = some s') (g : G) (i : I) (payload : GroupGrantIn T) :
    (i, payload.row g) ∈ s'.1.groupGrants ↔
      e.request = .addGrant g i payload ∨ (i, payload.row g) ∈ s.1.groupGrants ∧
        ¬ (e.request = .deleteGroup g ∨ e.request = .deleteGrant g i) := by
  obtain ⟨hchecked, hwritten⟩ := step_eq_some h
  rw [hwritten]
  cases hr : e.request <;> simp [written]
  case deleteGroup groupId => exact fun _ => by rw [eq_comm]; rfl
  case addGrant groupId id payload' =>
    obtain ⟨_, _, _, _, _⟩ := payload
    obtain ⟨_, _, _, _, _⟩ := payload'
    simp only [GroupGrantIn.row, GroupGrant.mk.injEq, GroupGrantIn.mk.injEq]
    grind
  case deleteGrant groupId grantId =>
    -- the grant that is deleted is of the group of the path
    intro hmem
    simp only [hr, checked, seq_eq_ok, check_eq_ok] at hchecked
    obtain ⟨-, row, hrow, hid, hgroup⟩ := hchecked
    refine ⟨fun hne _ heq => hne heq.symm, ?_⟩
    rintro hne rfl
    obtain rfl := List.inj_on_of_nodup_map s.2.group_grants_id hrow hmem hid
    exact hne hgroup.symm rfl

omit [DecidableEq U] [DecidableEq G] [DecidableEq T] in
theorem reaches_iff {db : Db U G T} {u : U} {t : T} {r : String} :
    Reaches db u t r ↔ ⟨u, t, r⟩ ∈ db.memberships ∨
      ∃ g ∈ db.groupGrants, ⟨g.groupId, u⟩ ∈ db.groupMembers ∧ g.role = r ∧
        (g.allTenants = true ∧ t ∈ db.tenants ∨ g.allTenants = false ∧ g.tenantId = some t) := by
  constructor
  · rintro (⟨hm, rfl⟩ | @⟨g, m, _, hg, hm, hgroup, rfl, hall, ht⟩ |
      @⟨g, m, _, hg, hm, hgroup, rfl, hall, ht⟩)
    · exact .inl hm
    · exact .inr ⟨g, hg, hgroup ▸ hm, rfl, .inl ⟨hall, ht⟩⟩
    · exact .inr ⟨g, hg, hgroup ▸ hm, rfl, .inr ⟨hall, ht⟩⟩
  · rintro (hm | ⟨g, hg, hm, rfl, ⟨hall, ht⟩ | ⟨hall, ht⟩⟩)
    · exact .membership hm rfl
    · exact .wildcard hg hm rfl rfl hall ht
    · exact .grant hg hm rfl rfl hall ht

/-- The requests gave the user the role on the tenant, and did not take it back. -/
def Granted (log : List (Event U G T I)) (u : U) (t : T) (r : String) : Prop :=
  Since (fun e => ∃ payload, e.request = .createMembership t payload ∧ payload.userId = u ∧
    payload.role = r) (fun _ => False) log ∨
  ∃ g i payload,
    Since (fun e => e.request = .addGrant g i payload)
      (fun e => e.request = .deleteGroup g ∨ e.request = .deleteGrant g i) log ∧
    Since (fun e => ∃ us, e.request = .setMembers g us ∧ u ∈ us)
      (fun e => e.request = .deleteGroup g ∨ ∃ us, e.request = .setMembers g us) log ∧
    payload.role = r ∧
    (payload.allTenants = true ∧
        Since (fun e => ∃ tenant, e.request = .createTenant tenant ∧ tenant.id = t)
          (fun _ => False) log ∨
      payload.allTenants = false ∧ payload.tenantId = some t)

theorem since_iff_run {P : Tables U G T I → Prop} {a b : Event U G T I → Prop} {admin : User U}
    (h : ∀ s s' e, step s e = some s' → (P s' ↔ a e ∨ P s ∧ ¬ b e)) (hs : ¬ P (setup admin))
    (es : List (Event U G T I)) :
    Since a b (accepted step (setup admin) es) ↔ P (run (setup admin) es) := by
  rw [run, foldl_settle_iff (f := step) (fun s e s' => h s s' e), or_iff_left fun hnot => hs hnot.1]

theorem reaches_run_iff {admin : User U} {es : List (Event U G T I)} {u : U} {t : T} {r : String} :
    Reaches (run (setup admin) es).db u t r ↔ Granted (accepted step (setup admin) es) u t r := by
  rw [reaches_iff, Granted, since_iff_run (fun _ _ _ h => mem_tenants_step h t) List.not_mem_nil,
    since_iff_run (fun _ _ _ h => mem_memberships_step h u t r) List.not_mem_nil]
  simp only [since_iff_run (fun _ _ _ h => mem_groupMembers_step h _ u) List.not_mem_nil,
    since_iff_run (fun _ _ _ h => mem_groupGrants_step h _ _ _) List.not_mem_nil]
  refine or_congr Iff.rfl ⟨?_, ?_⟩
  · rintro ⟨_, hg, h⟩
    obtain ⟨⟨i, g⟩, hmem, rfl⟩ := List.mem_map.mp hg
    -- the checks of the table make a payload of its row
    exact ⟨g.groupId, i, ⟨g.allTenants, g.tenantId, g.role,
      (run _ es).2.ck_group_grants_role _ hmem, (run _ es).2.ck_group_grants_scope _ hmem⟩, hmem, h⟩
  · rintro ⟨g, i, payload, hmem, h⟩
    exact ⟨_, List.mem_map_of_mem hmem, h⟩

/-- **Access is what the accepted requests gave and did not take back.**  After any run that
starts at the setup, `tenants_for_user` has for each tenant the highest of the roles granted. -/
theorem tenantsForUser_run (o : Plan G T) (admin : User U) (es : List (Event U G T I)) (u : U)
    (t : T) (r : String) :
    (tenantsForUser o (run (setup admin) es).db u).lookup t = some r ↔
      Granted (accepted step (setup admin) es) u t r ∧
        ∀ r', Granted (accepted step (setup admin) es) u t r' → rank (some r') ≤ rank (some r) := by
  rw [lookup_tenantsForUser_eq_some_iff]
  simp only [EffectiveRole, reaches_run_iff]
  refine and_congr_right fun h => and_iff_right ?_
  -- every payload has a role with a rank
  have hrank : ∀ role ∈ tenantRoles, 0 < rank (some role) := by decide
  rcases h with h | ⟨_, _, payload, _, _, rfl, _⟩
  · obtain ⟨_, payload, _, _, rfl⟩ := h.exists
    exact hrank _ payload.role_mem
  · exact hrank _ payload.role_mem

/-! ### Confinement -/

/-- All that access to the tenant depends on is the same. -/
structure SameOn (t : T) (s s' : Tables U G T I) : Prop where
  users : s'.1.users = s.1.users
  tenants : s'.1.tenants = s.1.tenants
  groupMembers : s'.1.groupMembers = s.1.groupMembers
  groupGrants : s'.1.groupGrants = s.1.groupGrants
  memberships : ∀ u r, ⟨u, t, r⟩ ∈ s'.1.memberships ↔ ⟨u, t, r⟩ ∈ s.1.memberships

omit [DecidableEq I] in
theorem SameOn.lookup {t : T} (h : SameOn t s s') (o o' : Plan G T) (u : U) :
    (tenantsForUser o s'.db u).lookup t = (tenantsForUser o' s.db u).lookup t := by
  have hreaches : ∀ r, Reaches s'.db u t r ↔ Reaches s.db u t r := by
    intro r
    simp only [reaches_iff, Tables.db, h.tenants, h.groupMembers, h.groupGrants, h.memberships]
  apply Option.ext
  intro r
  simp only [lookup_tenantsForUser_eq_some_iff, EffectiveRole, hreaches]

/-- The actor is neither superadmin nor administrator of the tenant. -/
abbrev Outsider (t : T) (s : Tables U G T I) (e : Event U G T I) : Prop :=
  s.isSuperadmin e.actor = false ∧
    (tenantsForUser e.plan s.db e.actor).lookup t ≠ some "tenant_admin"

theorem sameOn_step {t : T} (hout : Outsider t s e) : SameOn t s (settle step s e) := by
  unfold settle
  cases hs : step s e with
  | none => exact ⟨rfl, rfl, rfl, rfl, fun _ _ => Iff.rfl⟩
  | some s' =>
    obtain ⟨hchecked, hwritten⟩ := step_eq_some hs
    have horg : ∀ action, requireOrg s e.actor action ≠ .ok () := by
      simp [requireOrg, hout.1, can]
    cases hr : e.request <;> rw [hr] at hchecked hwritten <;>
      simp only [checked, groupOr404, seq_eq_ok, horg, false_and] at hchecked
    case createMembership tenantId payload =>
      simp only [requireTenant, hout.1, seq_eq_ok, check_eq_ok] at hchecked
      obtain ⟨htenant, -, hcan⟩ := hchecked
      have hadmin : resolveEffectiveRole e.plan s.db e.actor tenantId = some "tenant_admin" := by
        simpa [can, orgActions, tenantMatrix, Option.any_eq_true] using hcan
      have hne : t ≠ tenantId := by
        rintro rfl
        exact hout.2 (by rw [lookup_eq_resolve _ e.plan htenant, hadmin])
      constructor <;> simp [hwritten, written, hne]

/-- **Outsiders change no access.**  In a run of actors of whom none is superadmin or
administrator of the tenant at its start, everyone's access to the tenant stays as it was. -/
theorem outsiders_confined {t : T} {es : List (Event U G T I)} (hout : ∀ e ∈ es, Outsider t s e) :
    SameOn t s (run s es) ∧ ∀ o o' u,
      (tenantsForUser o (run s es).db u).lookup t = (tenantsForUser o' s.db u).lookup t := by
  suffices hsame : SameOn t s (run s es) from ⟨hsame, hsame.lookup⟩
  induction es generalizing s with
  | nil => exact ⟨rfl, rfl, rfl, rfl, fun _ _ => Iff.rfl⟩
  | cons e es ih =>
    obtain ⟨he, hes⟩ := List.forall_mem_cons.mp hout
    have hstep := sameOn_step he
    have hrest : SameOn t (settle step s e) (run s (e :: es)) := by
      apply ih
      intro e' he'
      rw [Outsider, Tables.isSuperadmin, hstep.users, hstep.lookup _ e'.plan]
      exact hes e' he'
    exact ⟨hrest.users.trans hstep.users, hrest.tenants.trans hstep.tenants,
      hrest.groupMembers.trans hstep.groupMembers, hrest.groupGrants.trans hstep.groupGrants,
      fun u r => (hrest.memberships u r).trans (hstep.memberships u r)⟩

def givenOrder : Plan Nat Nat :=
  ⟨⟨id, .refl⟩, ⟨id, .refl⟩, ⟨id, .refl⟩, ⟨id, .refl⟩, ⟨id, .refl⟩⟩

theorem tenantAdmin_mem : "tenant_admin" ∈ tenantRoles := by decide

def twoTenants : Tables Nat Nat Nat Nat :=
  run (setup ⟨0, "a", true⟩) (([.createTenant ⟨1, "x"⟩, .createTenant ⟨2, "y"⟩,
    .createUser ⟨7, "b", false⟩, .createMembership 1 ⟨7, _, tenantAdmin_mem⟩] :
      List (Request Nat Nat Nat Nat)).map (⟨givenOrder, 0, ·⟩))

theorem twoTenants_confined :
    SameOn 2 twoTenants (run twoTenants
      [⟨givenOrder, 7, .createMembership 1 ⟨0, _, tenantAdmin_mem⟩⟩,
        ⟨givenOrder, 7, .createMembership 2 ⟨7, _, tenantAdmin_mem⟩⟩]) :=
  (outsiders_confined (by decide)).1

end Administration

end Opngms
