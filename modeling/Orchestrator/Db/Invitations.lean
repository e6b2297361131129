import Orchestrator.Db.Members

/-!
The invitations of the organizations, in PostgreSQL and in memory.

`claim_organization_invitation` runs with the rights of its owner and past row
security; it locks the invitation it consumes and writes the membership by an
upsert. The repository in memory keeps the tenant it was first opened for.
-/

namespace Orchestrator

def normalizeEmail (t : TextRules) (email : String) : Except MembersError String :=
  let candidate := t.lower (PyStr.strip email)
  let localPart := candidate.toList.takeWhile (· ≠ '@')
  let domain := (candidate.toList.dropWhile (· ≠ '@')).drop 1
  if candidate = "" ∨ '@' ∉ candidate.toList ∨ localPart = [] ∨ domain = [] then
    .error .invalidEmail
  else .ok candidate

/-- `validate_role`; no code point beyond ASCII lower-cases to a letter of a role. -/
def validateRole (role : String) : Except MembersError MembershipRole :=
  match MembershipRole.ofText? (PyStr.lower (PyStr.strip role)) with
  | some role => .ok role
  | none => .error (.invalidMembershipRole role)

def OrganizationInvitation.record (i : OrganizationInvitation) : InvitationRecord where
  organizationId := i.organizationId
  normalizedEmail := i.normalizedEmail
  role := i.role
  invitedByUserId := i.invitedByUserId
  createdAt := i.createdAt

/-- What `app.organization_id` and `app.user_id` are set to in a session. -/
structure SessionContext where
  organizationId : Option Uuid
  userId : Option Uuid

def MemberTenant.session (tenant : MemberTenant) : SessionContext :=
  ⟨some tenant.organizationId, some tenant.userId⟩

namespace PostgresInvitationRepository
variable (t : TextRules) (tenant : MemberTenant)

/-- A member of the organization has the e-mail. -/
def memberHasEmail (s : MemberTables) (normalized : String) : Bool :=
  s.members.rows.any fun m => m.organizationId = tenant.organizationId &&
    (s.users.find? m.userId).any (fun u => u.email.map t.sqlNormalize = some normalized)

def createInvitation (now : Timestamp) (email role : String) (actor : Option RequestPrincipal)
    (s : MemberTables) : Except MembersError (InvitationRecord × MemberTables) := do
  let normalized ← normalizeEmail t email
  let cleanRole ← validateRole role
  checkRole actor cleanRole .inviteDenied
  if memberHasEmail t tenant s normalized then .error (.memberHasEmail normalized)
  else
    let row : OrganizationInvitation :=
      { organizationId := tenant.organizationId, normalizedEmail := normalized,
        role := cleanRole, invitedByUserId := actor.map (·.userId), createdAt := now }
    match s.invitations.insert? row with
    | none => .error (.invitationPending normalized)
    | some invitations => return (row.record, { s with invitations })

def deleteInvitation (normalized : String) (s : MemberTables) : MemberTables :=
  { s with
    invitations := s.invitations.deleteWhere
      (fun i => i.key = (tenant.organizationId, normalized)) }

def cancelInvitation (email : String) (actor : Option RequestPrincipal) (s : MemberTables) :
    Except MembersError (Bool × MemberTables) := do
  let normalized ← normalizeEmail t email
  match s.invitations.find? (tenant.organizationId, normalized) with
  | none => return (false, s)
  | some row =>
      checkRole actor row.role .cancelDenied
      return (true, deleteInvitation tenant normalized s)

def claimOrganizationInvitation (session : SessionContext) (now : Timestamp)
    (organizationId userId : Uuid) (userSubject email : String) (displayName : Option String)
    (s : MemberTables) : Except MembersError (Option MembershipRole × MemberTables) :=
  if session.organizationId ≠ some organizationId then .error (.contextMismatch "organization_id")
  else if session.userId ≠ some userId then .error (.contextMismatch "user_id")
  else
    let normalized := t.sqlNormalize email
    if normalized = "" then .ok (none, s)
    else
      match s.invitations.find? (organizationId, normalized) with
      | none => .ok (none, s)
      | some invitation =>
          if s.users.rows.any (fun u => u.subject = userSubject && u.id ≠ userId) &&
              (s.users.find? userId).isNone then .error .uniqueViolation
          else
            let user : UserRow :=
              { id := userId, subject := userSubject, email := some normalized, displayName }
            let row : OrganizationMember :=
              { organizationId, userId, role := invitation.role, createdAt := now }
            .ok (some invitation.role, {
              users := s.users.upsert user
                (fun u => { u with
                  email := some normalized
                  displayName := displayName <|> u.displayName }) (fun _ => rfl)
              members := s.members.upsert row (OrganizationMember.withRole invitation.role)
                (OrganizationMember.key_withRole invitation.role)
              invitations := s.invitations.deleteWhere
                (fun i => i.key = (organizationId, normalized)) })

def claimInvitation (now : Timestamp) (userId : Uuid) (userSubject email : String)
    (displayName : Option String) (s : MemberTables) :
    Except MembersError (Option MembershipRole × MemberTables) := do
  let normalized ← normalizeEmail t email
  claimOrganizationInvitation t tenant.session now tenant.organizationId userId userSubject
    normalized displayName s

end PostgresInvitationRepository

/-- The two dictionaries of one organization slug in memory, and the tenant that
the repository of invitations was first opened for. -/
structure InMemoryOrganization where
  tenant : MemberTenant
  members : KeyedTable MemberRecord.subject
  invitations : KeyedTable InvitationRecord.normalizedEmail

namespace InMemoryInvitationRepository
variable (t : TextRules)

def createInvitation (now : Timestamp) (email role : String) (actor : Option RequestPrincipal)
    (s : InMemoryOrganization) :
    Except MembersError InvitationRecord × InMemoryOrganization :=
  match (do
    let normalized ← normalizeEmail t email
    let cleanRole ← validateRole role
    checkRole actor cleanRole .inviteDenied
    return (normalized, cleanRole)) with
  | .error exc => (.error exc, s)
  | .ok (normalized, cleanRole) =>
      let s := { s with members := getInMemoryMemberRepository t now s.tenant s.members }
      if s.members.rows.any (fun m => m.email.any fun email =>
          email ≠ "" && t.lower (PyStr.strip email) = normalized) then
        (.error (.memberHasEmail normalized), s)
      else
        let invitation : InvitationRecord :=
          { organizationId := s.tenant.organizationId, normalizedEmail := normalized,
            role := cleanRole, invitedByUserId := actor.map (·.userId), createdAt := now }
        match s.invitations.insert? invitation with
        | none => (.error (.invitationPending normalized), s)
        | some invitations => (.ok invitation, { s with invitations })

def cancelInvitation (email : String) (actor : Option RequestPrincipal)
    (s : InMemoryOrganization) : Except MembersError (Bool × InMemoryOrganization) := do
  let normalized ← normalizeEmail t email
  match s.invitations.find? normalized with
  | none => return (false, s)
  | some invitation =>
      checkRole actor invitation.role .cancelDenied
      return (true, { s with
        invitations := s.invitations.deleteWhere (fun i => i.normalizedEmail = normalized) })

def claimInvitation (now : Timestamp) (userId : Uuid) (userSubject email : String)
    (displayName : Option String) (s : InMemoryOrganization) :
    Except MembersError (Option MembershipRole × InMemoryOrganization) := do
  let normalized ← normalizeEmail t email
  match s.invitations.find? normalized with
  | none => return (none, s)
  | some invitation =>
      let members := getInMemoryMemberRepository t now s.tenant s.members
      let record : MemberRecord := {
        id := userId
        userId := userId
        subject := userSubject
        email := some normalized
        displayName := displayName.filter (· ≠ "") <|> some (t.capitalize userSubject)
        role := invitation.role
        createdAt := now }
      return (some invitation.role, { s with
        members := members.upsert record (fun m => { record with subject := m.subject })
          (fun _ => rfl)
        invitations := s.invitations.deleteWhere (fun i => i.normalizedEmail = normalized) })

end InMemoryInvitationRepository

/-- The text functions on ASCII. -/
def sampleTextRules : TextRules := ⟨PyStr.lower, id, fun text => PyStr.lower (PyStr.strip text)⟩

/-- An organization in memory as its owner `ana` opened it, with the members given. -/
def sampleOrganization (members : KeyedTable MemberRecord.subject)
    (invitations : KeyedTable InvitationRecord.normalizedEmail) : InMemoryOrganization where
  tenant :=
    { sampleTenant with organizationSlug := "acme", userId := "u-ana", userSubject := "oidc|ana" }
  members := members
  invitations := invitations

end Orchestrator
