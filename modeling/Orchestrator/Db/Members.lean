import Orchestrator.Db.Models

/-!
The members of the organizations and their roles, in PostgreSQL and in memory.

A mutation of the PostgreSQL repository is checked against the committed tables
and gives the rows it writes; applying them is a step of its own, because the
transaction that holds the organization's row commits later. Row security
refuses some of these writes; a refused write leaves the tables. The repository
in memory is the dictionary of one organization slug, and an empty dictionary
stands for a repository that was not made yet.
-/

namespace Orchestrator

inductive MembershipRole where
  | owner | admin | member | viewer
  deriving DecidableEq, Repr

namespace MembershipRole

def text : MembershipRole → String
  | .owner => "owner"
  | .admin => "admin"
  | .member => "member"
  | .viewer => "viewer"

def membershipRoles : List MembershipRole := [.owner, .admin, .member, .viewer]

/-- The role of a text in `MEMBERSHIP_ROLES`. -/
def ofText? (text : String) : Option MembershipRole :=
  membershipRoles.find? (fun role => role.text = text)

/-- The roles that an administrator may not manage. -/
def Privileged (role : MembershipRole) : Prop := role = .owner ∨ role = .admin

instance : DecidablePred Privileged := fun role =>
  inferInstanceAs (Decidable (role = .owner ∨ role = .admin))

theorem ofText?_text (role : MembershipRole) : ofText? role.text = some role := by
  cases role <;> decide

end MembershipRole

/-- What the repositories read of `RequestPrincipal`. -/
structure RequestPrincipal where
  userId : Uuid
  role : MembershipRole

def RequestPrincipal.canManageRole (p : RequestPrincipal) (target : MembershipRole) : Bool :=
  match p.role with
  | .owner => true
  | .admin => target = .member || target = .viewer
  | _ => false

/-- A caller that is no owner manages no privileged role. -/
theorem RequestPrincipal.not_privileged_of_canManageRole {p : RequestPrincipal}
    {role : MembershipRole} (hp : p.role ≠ .owner) (h : p.canManageRole role = true) :
    ¬ role.Privileged := by
  cases hrole : p.role with
  | owner => exact absurd hrole hp
  | admin => cases role <;> simp_all [canManageRole, MembershipRole.Privileged]
  | member | viewer => simp [canManageRole, hrole] at h

/-- The tenant of a repository; `role` is `none` for an empty role. -/
structure MemberTenant extends TenantContext where
  organizationSlug : String
  userId : Uuid
  userSubject : String
  role : Option MembershipRole := some .owner

/-- `_stable_id("user", subject)`. -/
def MemberTenant.stableUserId (tenant : MemberTenant) (subject : String) : Uuid :=
  tenant.uuid5 ("https://ugc-orchestrator.local/tenancy/user/" ++ subject)

/-- The text functions of Python and of SQL over all code points. -/
structure TextRules where
  lower : String → String
  capitalize : String → String
  /-- `lower(trim(text))` of SQL. -/
  sqlNormalize : String → String

inductive MembersError where
  | invalidRole (role : String)
  | invalidMembershipRole (role : String)
  | grantDenied (actor target : MembershipRole)
  | changeDenied (actor target : MembershipRole)
  | concedeDenied (actor target : MembershipRole)
  | revokeDenied (actor target : MembershipRole)
  | inviteDenied (actor target : MembershipRole)
  | cancelDenied (actor target : MembershipRole)
  | existingMember (subject : String)
  | notFound (subject : String)
  | lastOwnerDemoted
  | lastOwnerRevoked
  | invalidEmail
  | memberHasEmail (email : String)
  | invitationPending (email : String)
  | contextMismatch (field : String)
  /-- A statement after one that failed in the same transaction. -/
  | transactionAborted
  | uniqueViolation
  deriving DecidableEq

def MembersError.text : MembersError → String
  | .invalidRole role => "Papel inválido: " ++ PyStr.repr role
  | .invalidMembershipRole role => "papel de membership inválido: " ++ PyStr.repr role
  | .grantDenied actor target => "Papel " ++ PyStr.repr actor.text ++
      " não possui permissão para conceder papel " ++ PyStr.repr target.text
  | .changeDenied actor target => "Papel " ++ PyStr.repr actor.text ++
      " não pode alterar membro com papel " ++ PyStr.repr target.text
  | .concedeDenied actor target => "Papel " ++ PyStr.repr actor.text ++
      " não pode conceder papel " ++ PyStr.repr target.text
  | .revokeDenied actor target => "Papel " ++ PyStr.repr actor.text ++
      " não pode revogar membro com papel " ++ PyStr.repr target.text
  | .inviteDenied actor target => "papel " ++ actor.text ++
      " não tem permissão para gerenciar o papel " ++ target.text
  | .cancelDenied actor target => "papel " ++ actor.text ++
      " não tem permissão para cancelar convite com papel " ++ target.text
  | .existingMember subject => "Membro " ++ PyStr.repr subject ++
      " já existe na organização. Utilize PATCH para alterar o papel."
  | .notFound subject => "Membro " ++ PyStr.repr subject ++ " não encontrado"
  | .lastOwnerDemoted => "Não é permitido rebaixar o último owner da organização"
  | .lastOwnerRevoked => "Não é permitido revogar o último owner da organização"
  | .invalidEmail => "e-mail inválido"
  | .memberHasEmail email => "o e-mail " ++ email ++ " já pertence a um membro ativo da organização"
  | .invitationPending email => "já existe um convite pendente para o e-mail " ++ email
  | .contextMismatch field =>
      "claim_organization_invitation: " ++ field ++ " mismatch with session context"
  | .transactionAborted =>
      "current transaction is aborted, commands ignored until end of transaction block"
  | .uniqueViolation => "duplicate key value violates unique constraint"

/-- `PermissionError` when the actor may not manage the role. -/
def checkRole (actor : Option RequestPrincipal) (role : MembershipRole)
    (denied : MembershipRole → MembershipRole → MembersError) : Except MembersError Unit :=
  match actor with
  | some principal =>
      if principal.canManageRole role then .ok () else .error (denied principal.role role)
  | none => .ok ()

theorem checkRole_ok {actor : Option RequestPrincipal} {role : MembershipRole}
    {denied : MembershipRole → MembershipRole → MembersError}
    (h : checkRole actor role denied = .ok ()) :
    ∀ principal, actor = some principal → principal.canManageRole role = true := by
  intro principal hactor
  subst hactor
  by_cases hrole : principal.canManageRole role = true
  · exact hrole
  · simp [checkRole, hrole] at h

/-- `if role not in MEMBERSHIP_ROLES: raise ValueError`. -/
def membershipRole (role : String) : Except MembersError MembershipRole :=
  match MembershipRole.ofText? role with
  | some role => .ok role
  | none => .error (.invalidRole role)

structure MemberRecord where
  id : String
  userId : Uuid
  subject : String
  email : Option String
  displayName : Option String
  role : MembershipRole
  createdAt : Timestamp
  deriving DecidableEq

structure UserRow where
  id : Uuid
  subject : String
  email : Option String := none
  displayName : Option String := none
  deriving DecidableEq

/-- The record of a user as a member. -/
def UserRow.record (user : UserRow) (role : MembershipRole) (createdAt : Timestamp) :
    MemberRecord where
  id := user.id
  userId := user.id
  subject := user.subject
  email := user.email
  displayName := user.displayName
  role := role
  createdAt := createdAt

structure OrganizationMember where
  organizationId : Uuid
  userId : Uuid
  role : MembershipRole
  createdAt : Timestamp
  deriving DecidableEq

structure OrganizationInvitation where
  organizationId : Uuid
  normalizedEmail : String
  role : MembershipRole
  invitedByUserId : Option Uuid
  createdAt : Timestamp
  deriving DecidableEq

def OrganizationMember.key (m : OrganizationMember) : Uuid × Uuid := (m.organizationId, m.userId)

def OrganizationMember.withRole (role : MembershipRole) (m : OrganizationMember) :
    OrganizationMember :=
  { m with role }

theorem OrganizationMember.key_withRole (role : MembershipRole) (m : OrganizationMember) :
    (m.withRole role).key = m.key := rfl

def OrganizationInvitation.key (i : OrganizationInvitation) : Uuid × String :=
  (i.organizationId, i.normalizedEmail)

structure MemberTables where
  users : KeyedTable UserRow.id
  members : KeyedTable OrganizationMember.key
  invitations : KeyedTable OrganizationInvitation.key

namespace MemberTables

def empty : MemberTables := ⟨.empty, .empty, .empty⟩

def ownersOf (s : MemberTables) (org : Uuid) : List OrganizationMember :=
  s.members.rows.filter (fun m => m.organizationId = org && m.role = .owner)

end MemberTables

/-- The rows that a mutation of the member repository writes. -/
inductive MemberWrite where
  | grant (user : UserRow) (row : OrganizationMember)
  | setRole (org userId : Uuid) (role : MembershipRole)
  | revoke (org userId : Uuid)

namespace MemberWrite

def key : MemberWrite → Uuid × Uuid
  | .grant _ row => row.key
  | .setRole org userId _ => (org, userId)
  | .revoke org userId => (org, userId)

def apply (s : MemberTables) : MemberWrite → MemberTables
  | .grant user row =>
      { s with users := s.users.insertNew user, members := s.members.insertNew row }
  | .setRole org userId role =>
      { s with
        members := s.members.update (org, userId) (OrganizationMember.withRole role)
          (OrganizationMember.key_withRole role) }
  | .revoke org userId =>
      { s with members := s.members.deleteWhere (fun m => m.key = (org, userId)) }

end MemberWrite

namespace PostgresMemberRepository
variable (tenant : MemberTenant) (s : MemberTables)

/-- The row of a member joined with the user's. -/
def selectMember (userId : Uuid) : Option (UserRow × OrganizationMember) := do
  let row ← s.members.find? (tenant.organizationId, userId)
  let user ← s.users.find? userId
  return (user, row)

/-- A user whose row exists fails the insert of the row, and then every statement
of the transaction. -/
def grantMember (now : Timestamp) (subject role : String) (email displayName : Option String)
    (actor : Option RequestPrincipal) : Except MembersError (MemberRecord × MemberWrite) := do
  let role ← membershipRole role
  checkRole actor role .grantDenied
  let userId := tenant.stableUserId subject
  if (s.members.find? (tenant.organizationId, userId)).isSome then
    .error (.existingMember subject)
  else if s.users.rows.any (fun u => u.id = userId || u.subject = subject) then
    .error .transactionAborted
  else
    let user : UserRow := { id := userId, subject, email, displayName }
    return (user.record role now,
      .grant user { organizationId := tenant.organizationId, userId, role, createdAt := now })

def updateMemberRole (subject newRole : String) (actor : Option RequestPrincipal) :
    Except MembersError (MemberRecord × MemberWrite) := do
  let newRole ← membershipRole newRole
  let userId := tenant.stableUserId subject
  match selectMember tenant s userId with
  | none => .error (.notFound subject)
  | some (user, row) =>
      checkRole actor row.role .changeDenied
      checkRole actor newRole .concedeDenied
      if row.role = .owner ∧ newRole ≠ .owner ∧ (s.ownersOf tenant.organizationId).length ≤ 1 then
        .error .lastOwnerDemoted
      else
        return (user.record newRole row.createdAt, .setRole tenant.organizationId userId newRole)

def revokeMember (subject : String) (actor : Option RequestPrincipal) :
    Except MembersError (Bool × MemberWrite) := do
  let userId := tenant.stableUserId subject
  match s.members.find? (tenant.organizationId, userId) with
  | none => .error (.notFound subject)
  | some row =>
      checkRole actor row.role .revokeDenied
      if row.role = .owner ∧ (s.ownersOf tenant.organizationId).length ≤ 1 then
        .error .lastOwnerRevoked
      else return (true, .revoke tenant.organizationId userId)

end PostgresMemberRepository

structure InvitationRecord where
  organizationId : Uuid
  normalizedEmail : String
  role : MembershipRole
  invitedByUserId : Option Uuid
  createdAt : Timestamp
  deriving DecidableEq

/-- `_get_in_memory_member_repository`: the tenant's own user is always a member. -/
def getInMemoryMemberRepository (t : TextRules) (now : Timestamp) (tenant : MemberTenant)
    (members : KeyedTable MemberRecord.subject) : KeyedTable MemberRecord.subject :=
  members.insertNew {
    id := tenant.userId
    userId := tenant.userId
    subject := tenant.userSubject
    email := some (tenant.userSubject ++ "@local.test")
    displayName := some (t.capitalize tenant.userSubject)
    role := tenant.role.getD .owner
    createdAt := now }

namespace InMemoryMemberRepository
variable (tenant : MemberTenant) (members : KeyedTable MemberRecord.subject)

def owners : List MemberRecord := members.rows.filter (fun m => m.role = .owner)

def grantMember (now : Timestamp) (subject role : String) (email displayName : Option String)
    (actor : Option RequestPrincipal) :
    Except MembersError (MemberRecord × KeyedTable MemberRecord.subject) := do
  let role ← membershipRole role
  checkRole actor role .grantDenied
  if (members.find? subject).isSome then .error (.existingMember subject)
  else
    let userId := tenant.stableUserId subject
    let record : MemberRecord :=
      { id := userId, userId, subject, email, displayName, role, createdAt := now }
    return (record, members.insertNew record)

def updateMemberRole (subject newRole : String) (actor : Option RequestPrincipal) :
    Except MembersError (MemberRecord × KeyedTable MemberRecord.subject) := do
  let newRole ← membershipRole newRole
  match members.find? subject with
  | none => .error (.notFound subject)
  | some current =>
      checkRole actor current.role .changeDenied
      checkRole actor newRole .concedeDenied
      if current.role = .owner ∧ newRole ≠ .owner ∧ (owners members).length ≤ 1 then
        .error .lastOwnerDemoted
      else
        return ({ current with role := newRole },
          members.update subject ({ · with role := newRole }) (fun _ => rfl))

def revokeMember (subject : String) (actor : Option RequestPrincipal) :
    Except MembersError (Bool × KeyedTable MemberRecord.subject) := do
  match members.find? subject with
  | none => .error (.notFound subject)
  | some current =>
      checkRole actor current.role .revokeDenied
      if current.role = .owner ∧ (owners members).length ≤ 1 then .error .lastOwnerRevoked
      else return (true, members.deleteWhere (fun m => m.subject = subject))

end InMemoryMemberRepository

inductive MemberOp where
  | grantMember (subject role : String) (email displayName : Option String)
  | updateMemberRole (subject newRole : String)
  | revokeMember (subject : String)

structure MemberCall where
  tenant : MemberTenant
  actor : Option RequestPrincipal
  now : Timestamp
  op : MemberOp

namespace MemberCall

/-- What the call writes to the tables. -/
def write (c : MemberCall) (s : MemberTables) : Except MembersError MemberWrite :=
  match c.op with
  | .grantMember subject role email displayName =>
      (PostgresMemberRepository.grantMember c.tenant s c.now subject role email displayName
        c.actor).map Prod.snd
  | .updateMemberRole subject newRole =>
      (PostgresMemberRepository.updateMemberRole c.tenant s subject newRole c.actor).map Prod.snd
  | .revokeMember subject =>
      (PostgresMemberRepository.revokeMember c.tenant s subject c.actor).map Prod.snd

/-- What the call makes of the dictionary. -/
def inMemory (c : MemberCall) (members : KeyedTable MemberRecord.subject) :
    Except MembersError (KeyedTable MemberRecord.subject) :=
  match c.op with
  | .grantMember subject role email displayName =>
      (InMemoryMemberRepository.grantMember c.tenant members c.now subject role email displayName
        c.actor).map Prod.snd
  | .updateMemberRole subject newRole =>
      (InMemoryMemberRepository.updateMemberRole members subject newRole c.actor).map Prod.snd
  | .revokeMember subject =>
      (InMemoryMemberRepository.revokeMember members subject c.actor).map Prod.snd

end MemberCall

end Orchestrator
