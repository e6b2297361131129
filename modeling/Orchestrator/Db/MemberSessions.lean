import Orchestrator.Db.RoleChanges
import Orchestrator.Lib.Lockstep

/-!
The calls of the two member repositories, one after another, with what they
return.

Row security reads the role that the tenant's own user has in the organization.
A membership that a session may not change is hidden from `SELECT ... FOR
UPDATE`, from `UPDATE` and from `DELETE`; a row that it may not write fails the
statement. An owner's session meets no refusal.
-/

namespace Orchestrator
open Holders Outcome

inductive MemberResult where
  | member (record : MemberRecord)
  | done (removed : Bool)
  deriving DecidableEq

/-- What a call to PostgreSQL raises: what the repository raises, or the refusal
of a row of the table. -/
inductive SessionError where
  | raised (exc : MembersError)
  | rowSecurity (table : String)
  deriving DecidableEq

namespace PostgresMemberRepository
variable (tenant : MemberTenant) (s : MemberTables)

def getMember (subject : String) : Option MemberRecord :=
  (selectMember tenant s (tenant.stableUserId subject)).map
    fun (user, row) => user.record row.role row.createdAt

def currentActorRole : Option MembershipRole := s.roles tenant.organizationId tenant.userId

/-- The policies `organization_members_update` and `organization_members_delete`. -/
def mayChange (role : MembershipRole) : Bool :=
  match currentActorRole tenant s with
  | some .owner => true
  | some .admin => role = .member || role = .viewer
  | _ => false

/-- The tables without the memberships that the session may not lock. -/
def lockable : MemberTables :=
  { s with
    members := s.members.deleteWhere
      (fun m => m.organizationId = tenant.organizationId && !mayChange tenant s m.role) }

/-- The policies on the rows that a call writes. The error of the insert into
`users` is caught, and the next statement fails. -/
def checkPolicies : MemberWrite → Except SessionError Unit
  | .grant user row =>
      let role := currentActorRole tenant s
      if ¬ (user.id = tenant.userId ∨ role = some .owner ∨ role = some .admin) then
        .error (.raised .transactionAborted)
      else if mayChange tenant s row.role ∨ role = none ∧ row.role = .owner ∧
          row.userId = tenant.userId ∧
          s.members.rows.all (fun m => m.organizationId ≠ tenant.organizationId) then
        if (s.members.find? row.key).isSome then .error (.raised .uniqueViolation) else .ok ()
      else .error (.rowSecurity "organization_members")
  | .setRole _ _ role =>
      if mayChange tenant s role then .ok () else .error (.rowSecurity "organization_members")
  | .revoke _ _ => .ok ()

end PostgresMemberRepository

namespace MemberCall
open PostgresMemberRepository

def outcome (c : MemberCall) (s : MemberTables) :
    Except MembersError (MemberResult × MemberWrite) :=
  match c.op with
  | .grantMember subject role email displayName =>
      (grantMember c.tenant s c.now subject role email displayName c.actor).map
        fun r => (.member r.1, r.2)
  | .updateMemberRole subject newRole =>
      (updateMemberRole c.tenant s subject newRole c.actor).map
        fun r => (.member r.1, r.2)
  | .revokeMember subject =>
      (revokeMember c.tenant s subject c.actor).map fun r => (.done r.1, r.2)

/-- The call as a transaction of its own; one that raises is rolled back. -/
def postgres (c : MemberCall) (s : MemberTables) :
    Except SessionError MemberResult × MemberTables :=
  match c.outcome (lockable c.tenant s) with
  | .error exc => (.error (.raised exc), s)
  | .ok (result, write) =>
      match checkPolicies c.tenant s write with
      | .error exc => (.error exc, s)
      | .ok () => (.ok result, write.apply s)

def dictionaryOutcome (c : MemberCall) (members : KeyedTable MemberRecord.subject) :
    Except MembersError (MemberResult × KeyedTable MemberRecord.subject) :=
  match c.op with
  | .grantMember subject role email displayName =>
      (InMemoryMemberRepository.grantMember c.tenant members c.now subject role email displayName
        c.actor).map fun r => (.member r.1, r.2)
  | .updateMemberRole subject newRole =>
      (InMemoryMemberRepository.updateMemberRole members subject newRole c.actor).map
        fun r => (.member r.1, r.2)
  | .revokeMember subject =>
      (InMemoryMemberRepository.revokeMember members subject c.actor).map
        fun r => (.done r.1, r.2)

/-- The call in memory; one that raises leaves the dictionary. -/
def dictionary (c : MemberCall) (members : KeyedTable MemberRecord.subject) :
    Except MembersError MemberResult × KeyedTable MemberRecord.subject :=
  match c.dictionaryOutcome members with
  | .error exc => (.error exc, members)
  | .ok (result, members') => (.ok result, members')

end MemberCall

structure ByOwner (tenant : MemberTenant) (s : MemberTables) (c : MemberCall) : Prop where
  organization : c.tenant.toTenantContext = tenant.toTenantContext
  owner : PostgresMemberRepository.currentActorRole c.tenant s = some .owner
  actor : ∀ principal, c.actor = some principal → principal.role = .owner

namespace ByOwner
open PostgresMemberRepository
variable {tenant : MemberTenant} {s : MemberTables} {c : MemberCall}

theorem stableUserId (h : ByOwner tenant s c) (subject : String) :
    c.tenant.stableUserId subject = tenant.stableUserId subject := by
  rw [MemberTenant.stableUserId, MemberTenant.stableUserId, h.organization]

theorem organizationId (h : ByOwner tenant s c) :
    c.tenant.organizationId = tenant.organizationId := by rw [h.organization]

theorem checkRole (h : ByOwner tenant s c) (role : MembershipRole)
    (denied : MembershipRole → MembershipRole → MembersError) :
    checkRole c.actor role denied = .ok () := by
  cases hactor : c.actor with
  | none => rfl
  | some principal =>
      have hmanages : principal.canManageRole role = true := by
        rw [RequestPrincipal.canManageRole, h.actor principal hactor]
      rw [Orchestrator.checkRole, if_pos hmanages]

theorem mayChange (h : ByOwner tenant s c) (role : MembershipRole) :
    mayChange c.tenant s role = true := by
  rw [PostgresMemberRepository.mayChange, h.owner]

theorem lockable (h : ByOwner tenant s c) : lockable c.tenant s = s := by
  have hrows : (s.members.deleteWhere fun m =>
      m.organizationId = c.tenant.organizationId &&
        !PostgresMemberRepository.mayChange c.tenant s m.role) = s.members := by
    refine KeyedTable.ext_rows (List.filter_eq_self.mpr fun m _ => ?_)
    simp only [h.mayChange, Bool.not_true, Bool.and_false, Bool.not_false]
  rw [PostgresMemberRepository.lockable, hrows]

/-- The policies of an owner's session leave the primary key alone to check. -/
theorem checkPolicies (h : ByOwner tenant s c) {write : MemberWrite}
    (hnew : ∀ user row, write = .grant user row → s.members.find? row.key = none) :
    checkPolicies c.tenant s write = .ok () := by
  cases write with
  | grant user row =>
      simp only [PostgresMemberRepository.checkPolicies, h.owner, h.mayChange, hnew user row rfl,
        true_or, or_true, not_true_eq_false, if_false, if_true, Option.isSome_none,
        Bool.false_eq_true]
  | setRole org userId role =>
      rw [PostgresMemberRepository.checkPolicies, if_pos (h.mayChange role)]
  | revoke org userId => rfl

end ByOwner

end Orchestrator
