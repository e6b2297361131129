import Orchestrator.Db.Invitations
import Orchestrator.Lib.Holders
import Orchestrator.Lib.Outcome

/-!
What a mutation of the members does to the roles of an organization.

Both repositories are the same register of roles here: a granted, changed or
revoked membership is a new entry for one member. The caller manages the role
that is taken away and the role that is given, and an owner loses the role only
beside another owner.
-/
universe u

namespace Orchestrator
open Holders Outcome

/-- The caller, when it is known, manages the role. -/
def Manages (actor : Option RequestPrincipal) (role : MembershipRole) : Prop :=
  ∀ principal, actor = some principal → principal.canManageRole role = true

/-- The caller manages the role that an entry replaces and the role it gives. -/
structure ManagedChange {κ : Type u} (actor : Option RequestPrincipal)
    (roles : κ → Option MembershipRole) (k : κ) (entry : Option MembershipRole) : Prop where
  manages_old : ∀ role, roles k = some role → Manages actor role
  manages_new : ∀ role, entry = some role → Manages actor role

structure RoleChange {κ : Type u} (actor : Option RequestPrincipal)
    (roles : κ → Option MembershipRole) (k : κ) (entry : Option MembershipRole) : Prop
    extends ManagedChange actor roles k entry where
  other_owner : roles k = some .owner → entry ≠ some .owner → HeldByOther roles .owner k

/-- A mutation of the members leaves an organization an owner. -/
theorem RoleChange.held {κ : Type u} [DecidableEq κ] {actor : Option RequestPrincipal}
    {roles : κ → Option MembershipRole} {k : κ} {entry : Option MembershipRole}
    (h : RoleChange actor roles k entry) (howner : Held roles .owner) :
    Held (Function.update roles k entry) .owner := by
  rw [held_update_iff]
  by_cases hentry : entry = some .owner
  · exact Or.inl hentry
  · by_cases hk : roles k = some .owner
    · exact Or.inr (h.other_owner hk hentry)
    · exact Or.inr (howner.other hk)

/-- The roles of the members of an organization. -/
def MemberTables.roles (s : MemberTables) (org userId : Uuid) : Option MembershipRole :=
  (s.members.find? (org, userId)).map (·.role)

namespace MemberWrite

/-- The role of the written member afterwards. -/
def entry (write : MemberWrite) (current : Option MembershipRole) : Option MembershipRole :=
  match write with
  | .grant _ row => current.or (some row.role)
  | .setRole _ _ role => current.map fun _ => role
  | .revoke _ _ => none

theorem roles_apply_self {write : MemberWrite} {s : MemberTables} {org userId : Uuid}
    (h : write.key = (org, userId)) :
    (write.apply s).roles org userId = write.entry (s.roles org userId) := by
  rw [MemberTables.roles, MemberTables.roles, ← h]
  cases write with
  | grant user row =>
      simp only [apply, KeyedTable.find?_insertNew, key, if_true, entry]
      cases s.members.find? row.key <;> rfl
  | setRole writtenOrg writtenUser role =>
      simp only [apply, key, entry]
      rw [KeyedTable.find?_update, if_pos rfl]
      cases s.members.find? (writtenOrg, writtenUser) <;> rfl
  | revoke writtenOrg writtenUser =>
      simp only [apply, key, entry, KeyedTable.find?_deleteKey, if_true, Option.map_none]

theorem roles_apply_of_key_ne {write : MemberWrite} {s : MemberTables} {org userId : Uuid}
    (h : write.key ≠ (org, userId)) :
    (write.apply s).roles org userId = s.roles org userId := by
  rw [MemberTables.roles, MemberTables.roles]
  cases write with
  | grant user row =>
      simp only [apply, KeyedTable.find?_insertNew, if_neg (show row.key ≠ (org, userId) from h),
        Option.or_none]
  | setRole writtenOrg writtenUser role =>
      have hne : (org, userId) ≠ (writtenOrg, writtenUser) := Ne.symm h
      simp only [apply]
      rw [KeyedTable.find?_update_of_ne _ _ _ hne]
  | revoke writtenOrg writtenUser =>
      have hne : (org, userId) ≠ (writtenOrg, writtenUser) := Ne.symm h
      simp only [apply]
      rw [KeyedTable.find?_deleteKey, if_neg hne]

/-- A write of an organization is a new entry in its register. -/
theorem roles_apply_of_org {write : MemberWrite} {s : MemberTables} {org : Uuid}
    (h : write.key.1 = org) : (write.apply s).roles org =
      Function.update (s.roles org) write.key.2 (write.entry (s.roles org write.key.2)) := by
  funext userId
  by_cases huser : userId = write.key.2
  · subst huser
    rw [Function.update_self, roles_apply_self (Prod.ext h rfl)]
  · rw [Function.update_of_ne huser,
      roles_apply_of_key_ne fun heq => huser (congrArg Prod.snd heq).symm]

theorem roles_apply_of_ne {write : MemberWrite} {s : MemberTables} {org : Uuid}
    (h : write.key.1 ≠ org) : (write.apply s).roles org = s.roles org := by
  funext userId
  exact roles_apply_of_key_ne fun heq => h (congrArg Prod.fst heq)

end MemberWrite

/-- Two rows of owners are two owners. -/
theorem MemberTables.other_owner {s : MemberTables} {org : Uuid}
    (h : 1 < (s.ownersOf org).length) (userId : Uuid) :
    HeldByOther (s.roles org) .owner userId := by
  obtain ⟨row, hrow, howner, hne⟩ := KeyedTable.exists_key_ne_of_one_lt h (org, userId)
  simp only [Bool.and_eq_true, decide_eq_true_eq] at howner
  have hkey : row.key = (org, row.userId) := by rw [OrganizationMember.key, howner.1]
  refine ⟨row.userId, fun heq => hne (by rw [hkey, heq]), ?_⟩
  rw [roles, ← hkey, KeyedTable.find?_of_mem hrow, Option.map_some, howner.2]

/-- A role that is taken from a member, or changed, under the checks of both
repositories. -/
theorem RoleChange.of_role {κ : Type u} {actor : Option RequestPrincipal}
    {roles : κ → Option MembershipRole} {k : κ} {entry : Option MembershipRole}
    {current : MembershipRole} (hk : roles k = some current) (hold : Manages actor current)
    (hnew : ∀ role, entry = some role → Manages actor role)
    (hother : current = .owner → entry ≠ some .owner → HeldByOther roles .owner k) :
    RoleChange actor roles k entry where
  manages_old _ hrole := Option.some.inj (hk.symm.trans hrole) ▸ hold
  manages_new := hnew
  other_owner howner := hother (Option.some.inj (hk.symm.trans howner))

/-- A new member. -/
theorem RoleChange.of_none {κ : Type u} {actor : Option RequestPrincipal}
    {roles : κ → Option MembershipRole} {k : κ} {role : MembershipRole}
    (hk : roles k = none) (hnew : Manages actor role) : RoleChange actor roles k (some role) where
  manages_old role' hrole' := by simp [hk] at hrole'
  manages_new _ hrole' := Option.some.inj hrole' ▸ hnew
  other_owner howner := by simp [hk] at howner

namespace PostgresMemberRepository
variable {tenant : MemberTenant} {s : MemberTables} {actor : Option RequestPrincipal}
  {write : MemberWrite}

theorem selectMember_ok {userId : Uuid} {user : UserRow} {row : OrganizationMember}
    (h : selectMember tenant s userId = some (user, row)) :
    s.members.find? (tenant.organizationId, userId) = some row := by
  cases hrow : s.members.find? (tenant.organizationId, userId) with
  | none => simp [selectMember, hrow] at h
  | some found =>
      cases huser : s.users.find? userId with
      | none => simp [selectMember, hrow, huser] at h
      | some foundUser =>
          simp only [selectMember, hrow, huser, Option.bind_eq_bind, Option.bind_some,
            Option.pure_def, Option.some.injEq, Prod.mk.injEq] at h
          rw [h.2]

theorem roles_of_find? {userId : Uuid} {row : OrganizationMember}
    (h : s.members.find? (tenant.organizationId, userId) = some row) :
    s.roles tenant.organizationId userId = some row.role := by
  rw [MemberTables.roles, h, Option.map_some]

theorem grantMember_ok {now : Timestamp} {subject roleText : String}
    {email displayName : Option String} {record : MemberRecord}
    (h : grantMember tenant s now subject roleText email displayName actor =
      .ok (record, write)) :
    write.key.1 = tenant.organizationId ∧
      RoleChange actor (s.roles tenant.organizationId) write.key.2
        (write.entry (s.roles tenant.organizationId write.key.2)) := by
  obtain ⟨role, -, h⟩ := ok_of_bind h
  obtain ⟨_, hcheck, h⟩ := ok_of_bind h
  simp only at h
  split at h
  · cases h
  · rename_i hmember
    split at h
    · cases h
    · cases h
      have hnone : s.roles tenant.organizationId (tenant.stableUserId subject) = none := by
        simpa [MemberTables.roles] using hmember
      refine ⟨rfl, ?_⟩
      rw [MemberWrite.entry, MemberWrite.key, OrganizationMember.key, hnone, Option.none_or]
      exact .of_none hnone (checkRole_ok hcheck)

theorem updateMemberRole_ok {subject roleText : String} {record : MemberRecord}
    (h : updateMemberRole tenant s subject roleText actor = .ok (record, write)) :
    write.key.1 = tenant.organizationId ∧
      RoleChange actor (s.roles tenant.organizationId) write.key.2
        (write.entry (s.roles tenant.organizationId write.key.2)) := by
  obtain ⟨role, -, h⟩ := ok_of_bind h
  simp only at h
  split at h
  · cases h
  · rename_i user row hselect
    obtain ⟨_, hold, h⟩ := ok_of_bind h
    obtain ⟨_, hnew, h⟩ := ok_of_bind h
    split at h
    · cases h
    · rename_i howners
      cases h
      have hrow := roles_of_find? (selectMember_ok hselect)
      refine ⟨rfl, ?_⟩
      rw [MemberWrite.entry, MemberWrite.key, hrow, Option.map_some]
      refine .of_role hrow (checkRole_ok hold) (fun _ hrole' => ?_) (fun howner hentry => ?_)
      · exact Option.some.inj hrole' ▸ checkRole_ok hnew
      · have hmany : 1 < (s.ownersOf tenant.organizationId).length := by
          by_contra hfew
          exact howners ⟨howner, fun heq => hentry (by rw [heq]), by omega⟩
        exact MemberTables.other_owner hmany _

theorem revokeMember_ok {subject : String} {done : Bool}
    (h : revokeMember tenant s subject actor = .ok (done, write)) :
    write.key.1 = tenant.organizationId ∧
      RoleChange actor (s.roles tenant.organizationId) write.key.2
        (write.entry (s.roles tenant.organizationId write.key.2)) := by
  simp only [revokeMember] at h
  split at h
  · cases h
  · rename_i row hrow
    obtain ⟨_, hold, h⟩ := ok_of_bind h
    split at h
    · cases h
    · rename_i howners
      cases h
      refine ⟨rfl, .of_role (roles_of_find? hrow) (checkRole_ok hold) ?_ ?_⟩
      · intro role' hrole'
        cases hrole'
      · intro howner _
        have hmany : 1 < (s.ownersOf tenant.organizationId).length := by
          by_contra hfew
          exact howners ⟨howner, by omega⟩
        exact MemberTables.other_owner hmany _

end PostgresMemberRepository

/-- What a call writes belongs to the tenant's organization, whose register of
roles changes as the caller may change it. -/
theorem MemberCall.write_ok {c : MemberCall} {s : MemberTables} {write : MemberWrite}
    (h : c.write s = .ok write) :
    write.key.1 = c.tenant.organizationId ∧
      RoleChange c.actor (s.roles c.tenant.organizationId) write.key.2
        (write.entry (s.roles c.tenant.organizationId write.key.2)) := by
  obtain ⟨tenant, actor, now, op⟩ := c
  cases op with
  | grantMember subject role email displayName =>
      obtain ⟨⟨record, written⟩, hgrant, rfl⟩ := ok_of_map h
      exact PostgresMemberRepository.grantMember_ok hgrant
  | updateMemberRole subject newRole =>
      obtain ⟨⟨record, written⟩, hupdate, rfl⟩ := ok_of_map h
      exact PostgresMemberRepository.updateMemberRole_ok hupdate
  | revokeMember subject =>
      obtain ⟨⟨done, written⟩, hrevoke, rfl⟩ := ok_of_map h
      exact PostgresMemberRepository.revokeMember_ok hrevoke

/-- The roles of the members in memory, by subject. -/
def inMemoryRoles (members : KeyedTable MemberRecord.subject) (subject : String) :
    Option MembershipRole :=
  (members.find? subject).map (·.role)

theorem inMemoryRoles_insertNew (members : KeyedTable MemberRecord.subject)
    (record : MemberRecord) : inMemoryRoles (members.insertNew record) =
      Function.update (inMemoryRoles members) record.subject
        ((inMemoryRoles members record.subject).or (some record.role)) := by
  funext subject
  rw [inMemoryRoles, KeyedTable.find?_insertNew]
  by_cases h : subject = record.subject
  · subst h
    rw [Function.update_self, inMemoryRoles, if_pos rfl]
    cases members.find? record.subject <;> rfl
  · rw [Function.update_of_ne h, if_neg (Ne.symm h), Option.or_none, inMemoryRoles]

theorem inMemory_other_owner {members : KeyedTable MemberRecord.subject}
    (h : 1 < (InMemoryMemberRepository.owners members).length) (subject : String) :
    HeldByOther (inMemoryRoles members) .owner subject := by
  obtain ⟨record, hrecord, howner, hne⟩ := KeyedTable.exists_key_ne_of_one_lt h subject
  refine ⟨record.subject, hne, ?_⟩
  rw [inMemoryRoles, KeyedTable.find?_of_mem hrecord, Option.map_some, of_decide_eq_true howner]

namespace InMemoryMemberRepository
variable {tenant : MemberTenant} {members members' : KeyedTable MemberRecord.subject}
  {actor : Option RequestPrincipal}

/-- One entry of the register changed, as the caller may change it. -/
def Changed (actor : Option RequestPrincipal)
    (members members' : KeyedTable MemberRecord.subject) : Prop :=
  ∃ subject entry, RoleChange actor (inMemoryRoles members) subject entry ∧
    inMemoryRoles members' = Function.update (inMemoryRoles members) subject entry

theorem grantMember_ok {now : Timestamp} {subject roleText : String}
    {email displayName : Option String} {record : MemberRecord}
    (h : grantMember tenant members now subject roleText email displayName actor =
      .ok (record, members')) : Changed actor members members' := by
  obtain ⟨role, -, h⟩ := ok_of_bind h
  obtain ⟨_, hcheck, h⟩ := ok_of_bind h
  split at h
  · cases h
  · rename_i hmember
    cases h
    have hnone : inMemoryRoles members subject = none := by
      simpa [inMemoryRoles] using hmember
    refine ⟨subject, some role, .of_none hnone (checkRole_ok hcheck), ?_⟩
    rw [inMemoryRoles_insertNew, hnone, Option.none_or]

theorem updateMemberRole_ok {subject roleText : String} {record : MemberRecord}
    (h : updateMemberRole members subject roleText actor = .ok (record, members')) :
    Changed actor members members' := by
  obtain ⟨role, -, h⟩ := ok_of_bind h
  split at h
  · cases h
  · rename_i current hcurrent
    obtain ⟨_, hold, h⟩ := ok_of_bind h
    obtain ⟨_, hnew, h⟩ := ok_of_bind h
    split at h
    · cases h
    · rename_i howners
      cases h
      have hrole : inMemoryRoles members subject = some current.role := by
        rw [inMemoryRoles, hcurrent, Option.map_some]
      refine ⟨subject, some role, .of_role hrole (checkRole_ok hold) (fun _ hrole' => ?_)
        (fun howner hentry => ?_), ?_⟩
      · exact Option.some.inj hrole' ▸ checkRole_ok hnew
      · have hmany : 1 < (owners members).length := by
          by_contra hfew
          exact howners ⟨howner, fun heq => hentry (by rw [heq]), by omega⟩
        exact inMemory_other_owner hmany subject
      · funext subject'
        rw [inMemoryRoles, KeyedTable.find?_update]
        by_cases h : subject' = subject
        · subst h
          rw [Function.update_self, if_pos rfl, hcurrent, Option.map_some, Option.map_some]
        · rw [Function.update_of_ne h, if_neg h, inMemoryRoles]

theorem revokeMember_ok {subject : String} {done : Bool}
    (h : revokeMember members subject actor = .ok (done, members')) :
    Changed actor members members' := by
  simp only [revokeMember] at h
  split at h
  · cases h
  · rename_i current hcurrent
    obtain ⟨_, hold, h⟩ := ok_of_bind h
    split at h
    · cases h
    · rename_i howners
      cases h
      have hrole : inMemoryRoles members subject = some current.role := by
        rw [inMemoryRoles, hcurrent, Option.map_some]
      refine ⟨subject, none, .of_role hrole (checkRole_ok hold) ?_ (fun howner _ => ?_), ?_⟩
      · intro role' hrole'
        cases hrole'
      · have hmany : 1 < (owners members).length := by
          by_contra hfew
          exact howners ⟨howner, by omega⟩
        exact inMemory_other_owner hmany subject
      · funext subject'
        rw [inMemoryRoles, KeyedTable.find?_deleteKey]
        by_cases h : subject' = subject
        · subst h
          rw [Function.update_self, if_pos rfl, Option.map_none]
        · rw [Function.update_of_ne h, if_neg h, inMemoryRoles]

end InMemoryMemberRepository

theorem MemberCall.inMemory_ok {c : MemberCall}
    {members members' : KeyedTable MemberRecord.subject} (h : c.inMemory members = .ok members') :
    InMemoryMemberRepository.Changed c.actor members members' := by
  obtain ⟨tenant, actor, now, op⟩ := c
  cases op with
  | grantMember subject role email displayName =>
      obtain ⟨⟨record, written⟩, hgrant, rfl⟩ := ok_of_map h
      exact InMemoryMemberRepository.grantMember_ok hgrant
  | updateMemberRole subject newRole =>
      obtain ⟨⟨record, written⟩, hupdate, rfl⟩ := ok_of_map h
      exact InMemoryMemberRepository.updateMemberRole_ok hupdate
  | revokeMember subject =>
      obtain ⟨⟨done, written⟩, hrevoke, rfl⟩ := ok_of_map h
      exact InMemoryMemberRepository.revokeMember_ok hrevoke

end Orchestrator
