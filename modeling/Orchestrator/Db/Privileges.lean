import Mathlib.Data.Set.Basic
import Orchestrator.Db.RoleChanges
import Orchestrator.Lib.Machine

/-!
What callers that are no owners can do to the owners and administrators of an
organization, and to the invitations to these roles.

Here a call of a repository is one step. The calls are those of the members and
of the invitations, in PostgreSQL for any organization and in memory for one.
-/
universe u

namespace Orchestrator
open Outcome

/-- The entries of a register that hold a privileged role. -/
def privileged {κ : Type u} (roles : κ → Option MembershipRole) : Set (κ × MembershipRole) :=
  { entry | roles entry.1 = some entry.2 ∧ entry.2.Privileged }

/-- A change that a caller manages who is no owner touches no privileged entry. -/
theorem ManagedChange.privileged_eq {κ : Type u} [DecidableEq κ] {p : RequestPrincipal}
    {roles : κ → Option MembershipRole} {k : κ} {entry : Option MembershipRole}
    (h : ManagedChange (some p) roles k entry) (hp : p.role ≠ .owner) :
    privileged (Function.update roles k entry) = privileged roles := by
  have hold (role : MembershipRole) (hrole : roles k = some role) : ¬ role.Privileged :=
    RequestPrincipal.not_privileged_of_canManageRole hp (h.manages_old role hrole p rfl)
  have hnew (role : MembershipRole) (hrole : entry = some role) : ¬ role.Privileged :=
    RequestPrincipal.not_privileged_of_canManageRole hp (h.manages_new role hrole p rfl)
  ext ⟨k', role⟩
  by_cases hk : k' = k
  · subst hk
    simp only [privileged, Set.mem_ofPred_eq, Function.update_self]
    exact ⟨fun hin => absurd hin.2 (hnew role hin.1), fun hin => absurd hin.2 (hold role hin.1)⟩
  · simp only [privileged, Set.mem_ofPred_eq, Function.update_of_ne hk]

/-- A call of one of the repositories. -/
inductive OrganizationCall where
  | member (c : MemberCall)
  | createInvitation (tenant : MemberTenant) (now : Timestamp) (email role : String)
      (actor : Option RequestPrincipal)
  | cancelInvitation (tenant : MemberTenant) (email : String) (actor : Option RequestPrincipal)

def OrganizationCall.actor : OrganizationCall → Option RequestPrincipal
  | .member c => c.actor
  | .createInvitation _ _ _ _ actor | .cancelInvitation _ _ actor => actor

/-- The call is made by a principal that is no owner. -/
def OrganizationCall.ByNonOwner (c : OrganizationCall) : Prop :=
  ∃ p, c.actor = some p ∧ p.role ≠ .owner

/-- The roles of the pending invitations of an organization. -/
def MemberTables.invited (s : MemberTables) (org : Uuid) (email : String) :
    Option MembershipRole :=
  (s.invitations.find? (org, email)).map (·.role)

def MemberTables.call (t : TextRules) : OrganizationCall → MemberTables → Unit × MemberTables
  | .member c, s =>
      ((), match c.write s with
        | .ok write => write.apply s
        | .error _ => s)
  | .createInvitation tenant now email role actor, s =>
      ((), match PostgresInvitationRepository.createInvitation t tenant now email role actor s with
        | .ok (_, s') => s'
        | .error _ => s)
  | .cancelInvitation tenant email actor, s =>
      ((), match PostgresInvitationRepository.cancelInvitation t tenant email actor s with
        | .ok (_, s') => s'
        | .error _ => s)

namespace PostgresInvitationRepository
variable {t : TextRules} {tenant : MemberTenant} {s s' : MemberTables}
  {actor : Option RequestPrincipal}

theorem createInvitation_ok {now : Timestamp} {email role : String} {record : InvitationRecord}
    (h : createInvitation t tenant now email role actor s = .ok (record, s')) (org : Uuid) :
    s'.roles org = s.roles org ∧ (s'.invited org = s.invited org ∨
      ∃ email entry, ManagedChange actor (s.invited org) email entry ∧
        s'.invited org = Function.update (s.invited org) email entry) := by
  obtain ⟨normalized, -, h⟩ := ok_of_bind h
  obtain ⟨cleanRole, -, h⟩ := ok_of_bind h
  obtain ⟨_, hcheck, h⟩ := ok_of_bind h
  split at h
  · cases h
  · simp only at h
    split at h
    · cases h
    · rename_i invitations hinsert
      cases h
      refine ⟨rfl, ?_⟩
      by_cases horg : org = tenant.organizationId
      · subst horg
        have hfree : s.invitations.find? (tenant.organizationId, normalized) = none :=
          (KeyedTable.insert?_eq_some_iff.mp hinsert).1
        refine Or.inr ⟨normalized, some cleanRole, ⟨?_, ?_⟩, ?_⟩
        · intro role' hrole'
          simp [MemberTables.invited, hfree] at hrole'
        · intro role' hrole'
          exact Option.some.inj hrole' ▸ checkRole_ok hcheck
        · funext email
          rw [MemberTables.invited, KeyedTable.find?_insert hinsert]
          split
          · rename_i hkey
            obtain ⟨-, rfl⟩ := Prod.mk.inj hkey
            rw [Function.update_self, Option.map_some]
          · rename_i hkey
            have hne : email ≠ normalized := fun heq => hkey (Prod.ext rfl heq.symm)
            rw [Function.update_of_ne hne, MemberTables.invited]
      · refine Or.inl (funext fun email => ?_)
        rw [MemberTables.invited, KeyedTable.find?_insert hinsert]
        split
        · rename_i hkey
          exact absurd (congrArg Prod.fst hkey).symm horg
        · rw [MemberTables.invited]

theorem cancelInvitation_ok {email : String} {done : Bool}
    (h : cancelInvitation t tenant email actor s = .ok (done, s')) (org : Uuid) :
    s'.roles org = s.roles org ∧ (s'.invited org = s.invited org ∨
      ∃ email entry, ManagedChange actor (s.invited org) email entry ∧
        s'.invited org = Function.update (s.invited org) email entry) := by
  obtain ⟨normalized, -, h⟩ := ok_of_bind h
  split at h
  · cases h
    exact ⟨rfl, Or.inl rfl⟩
  · rename_i row hrow
    obtain ⟨_, hcheck, h⟩ := ok_of_bind h
    cases h
    refine ⟨rfl, ?_⟩
    by_cases horg : org = tenant.organizationId
    · subst horg
      refine Or.inr ⟨normalized, none, ⟨?_, ?_⟩, ?_⟩
      · intro role' hrole'
        rw [MemberTables.invited, hrow, Option.map_some] at hrole'
        exact Option.some.inj hrole' ▸ checkRole_ok hcheck
      · intro role' hrole'
        cases hrole'
      · funext email
        rw [MemberTables.invited, deleteInvitation, KeyedTable.find?_deleteKey]
        by_cases hemail : email = normalized
        · subst hemail
          rw [if_pos rfl, Function.update_self, Option.map_none]
        · have hkey : (tenant.organizationId, email) ≠ (tenant.organizationId, normalized) :=
            fun heq => hemail (congrArg Prod.snd heq)
          rw [if_neg hkey, Function.update_of_ne hemail, MemberTables.invited]
    · refine Or.inl (funext fun email => ?_)
      have hkey : (org, email) ≠ (tenant.organizationId, normalized) :=
        fun heq => horg (congrArg Prod.fst heq)
      rw [MemberTables.invited, deleteInvitation, KeyedTable.find?_deleteKey, if_neg hkey,
        MemberTables.invited]

end PostgresInvitationRepository

/-- The owners, the administrators and the invitations to these roles. -/
def MemberTables.privileges (org : Uuid) (s : MemberTables) :
    Set (Uuid × MembershipRole) × Set (String × MembershipRole) :=
  (privileged (s.roles org), privileged (s.invited org))

theorem MemberTables.privileges_call (t : TextRules) {c : OrganizationCall}
    (hc : c.ByNonOwner) (s : MemberTables) (org : Uuid) :
    (call t c s).2.privileges org = s.privileges org := by
  obtain ⟨p, hactor, hp⟩ := hc
  have hinvited {s' : MemberTables} (h : s'.roles org = s.roles org ∧
      (s'.invited org = s.invited org ∨
        ∃ email entry, ManagedChange c.actor (s.invited org) email entry ∧
          s'.invited org = Function.update (s.invited org) email entry)) :
      s'.privileges org = s.privileges org := by
    obtain ⟨hroles, hsame | ⟨email, entry, hchange, hupdate⟩⟩ := h
    · rw [privileges, privileges, hroles, hsame]
    · rw [hactor] at hchange
      rw [privileges, privileges, hroles, hupdate, hchange.privileged_eq hp]
  cases c with
  | member c =>
      simp only [call]
      split
      · rename_i write hwrite
        obtain ⟨horg, hchange⟩ := MemberCall.write_ok hwrite
        have hinvitations : (write.apply s).invited org = s.invited org := by
          cases write <;> rfl
        rw [privileges, privileges, hinvitations]
        by_cases hsame : write.key.1 = org
        · rw [MemberWrite.roles_apply_of_org hsame]
          rw [← horg, hsame, show c.actor = some p from hactor] at hchange
          rw [hchange.privileged_eq hp]
        · rw [MemberWrite.roles_apply_of_ne hsame]
      · rfl
  | createInvitation tenant now email role actor =>
      simp only [call]
      split
      · rename_i hok
        exact hinvited (PostgresInvitationRepository.createInvitation_ok hok org)
      · rfl
  | cancelInvitation tenant email actor =>
      simp only [call]
      split
      · rename_i hok
        exact hinvited (PostgresInvitationRepository.cancelInvitation_ok hok org)
      · rfl

namespace InMemoryOrganization
variable (t : TextRules)

/-- The roles of the pending invitations. -/
def invited (s : InMemoryOrganization) (email : String) : Option MembershipRole :=
  (s.invitations.find? email).map (·.role)

def call : OrganizationCall → InMemoryOrganization → Unit × InMemoryOrganization
  | .member c, s =>
      ((), match c.inMemory s.members with
        | .ok members => { s with members }
        | .error _ => s)
  | .createInvitation _ now email role actor, s =>
      ((), (InMemoryInvitationRepository.createInvitation t now email role actor s).2)
  | .cancelInvitation _ email actor, s =>
      ((), match InMemoryInvitationRepository.cancelInvitation t email actor s with
        | .ok (_, s') => s'
        | .error _ => s)

def privileges (s : InMemoryOrganization) :
    Set (String × MembershipRole) × Set (String × MembershipRole) :=
  (privileged (inMemoryRoles s.members), privileged s.invited)

/-- When the caller may create the invitation, the user the repository was opened
for is still a member, or was opened with a role that is not privileged. -/
def TenantKnown (s : InMemoryOrganization) : OrganizationCall → Prop
  | .createInvitation _ _ email role actor =>
      (∃ normalized, normalizeEmail t email = .ok normalized) →
        ∀ cleanRole, validateRole role = .ok cleanRole →
          checkRole actor cleanRole .inviteDenied = .ok () →
            (inMemoryRoles s.members s.tenant.userSubject).isSome ∨
              ¬ (s.tenant.role.getD .owner).Privileged
  | _ => True

variable {t} {s : InMemoryOrganization}

/-- Opening the repository adds the tenant's own user as a member. -/
theorem privileged_getInMemoryMemberRepository (now : Timestamp) (tenant : MemberTenant)
    (members : KeyedTable MemberRecord.subject) :
    privileged (inMemoryRoles members) ⊆
        privileged (inMemoryRoles (getInMemoryMemberRepository t now tenant members)) ∧
      (privileged (inMemoryRoles (getInMemoryMemberRepository t now tenant members)) =
          privileged (inMemoryRoles members) ↔
        (inMemoryRoles members tenant.userSubject).isSome ∨
          ¬ (tenant.role.getD .owner).Privileged) := by
  rw [getInMemoryMemberRepository, inMemoryRoles_insertNew]
  cases hrole : inMemoryRoles members tenant.userSubject with
  | some role =>
      have hsame : Function.update (inMemoryRoles members) tenant.userSubject (some role) =
          inMemoryRoles members := by rw [← hrole, Function.update_eq_self]
      simp [hsame]
  | none =>
      simp only [Option.none_or]
      constructor
      · intro entry hentry
        have hne : entry.1 ≠ tenant.userSubject := by
          intro heq
          have hsome := hentry.1
          rw [heq, hrole] at hsome
          cases hsome
        exact ⟨by rw [Function.update_of_ne hne]; exact hentry.1, hentry.2⟩
      · constructor
        · intro hsame
          refine Or.inr fun hpriv => ?_
          have hin : (tenant.userSubject, tenant.role.getD .owner) ∈
              privileged (inMemoryRoles members) := by
            rw [← hsame]
            exact ⟨Function.update_self .., hpriv⟩
          rw [privileged, Set.mem_ofPred_eq, hrole] at hin
          cases hin.1
        · intro hknown
          have hnot : ¬ (tenant.role.getD .owner).Privileged :=
            hknown.resolve_left (by simp)
          ext ⟨subject, role⟩
          by_cases hsubject : subject = tenant.userSubject
          · subst hsubject
            simp only [privileged, Set.mem_ofPred_eq, Function.update_self, hrole]
            constructor
            · intro hin
              exact absurd (Option.some.inj hin.1 ▸ hin.2) hnot
            · intro hin
              cases hin.1
          · simp only [privileged, Set.mem_ofPred_eq, Function.update_of_ne hsubject]

theorem invited_insert {invitations : KeyedTable InvitationRecord.normalizedEmail}
    {invitation : InvitationRecord} (h : s.invitations.insert? invitation = some invitations) :
    invited { s with invitations } =
      Function.update s.invited invitation.normalizedEmail (some invitation.role) := by
  funext email
  rw [invited, KeyedTable.find?_insert h]
  split
  · rename_i hkey
    subst hkey
    rw [Function.update_self, Option.map_some]
  · rename_i hkey
    rw [Function.update_of_ne (Ne.symm hkey), invited]

/-- What creating an invitation does: nothing unless the caller may, and else the
repository of members is opened and perhaps an invitation is added. -/
theorem createInvitation_effect (now : Timestamp) (email role : String)
    (actor : Option RequestPrincipal) (s : InMemoryOrganization) :
    let s' := (InMemoryInvitationRepository.createInvitation t now email role actor s).2
    (s' = s ∧ ∀ normalized cleanRole, normalizeEmail t email = .ok normalized →
        validateRole role = .ok cleanRole → checkRole actor cleanRole .inviteDenied ≠ .ok ()) ∨
      ∃ cleanRole, (∃ normalized, normalizeEmail t email = .ok normalized) ∧
        validateRole role = .ok cleanRole ∧ checkRole actor cleanRole .inviteDenied = .ok () ∧
        s'.members = getInMemoryMemberRepository t now s.tenant s.members ∧
        (s'.invited = s.invited ∨ ∃ email, s.invited email = none ∧
          s'.invited = Function.update s.invited email (some cleanRole)) := by
  simp only [InMemoryInvitationRepository.createInvitation]
  cases hemail : normalizeEmail t email with
  | error exc => exact Or.inl ⟨rfl, fun _ _ hok => by cases hok⟩
  | ok normalized =>
      cases hrole : validateRole role with
      | error exc => exact Or.inl ⟨rfl, fun _ _ _ hok => by cases hok⟩
      | ok cleanRole =>
          cases hcheck : checkRole actor cleanRole .inviteDenied with
          | error exc =>
              refine Or.inl ⟨by simp only [Outcome.ok_bind, hcheck]; rfl, ?_⟩
              intro _ cleanRole' _ hok
              obtain rfl := Except.ok.inj hok
              rw [hcheck]
              intro h
              cases h
          | ok =>
              refine Or.inr ⟨cleanRole, ⟨normalized, rfl⟩, rfl, hcheck, ?_⟩
              simp only [Outcome.ok_bind, hcheck, Outcome.pure_eq]
              split
              · exact ⟨rfl, Or.inl rfl⟩
              · split
                · exact ⟨rfl, Or.inl rfl⟩
                · rename_i invitations hinsert
                  refine ⟨rfl, Or.inr ⟨normalized, ?_, ?_⟩⟩
                  · rw [invited, (KeyedTable.insert?_eq_some_iff.mp hinsert).1, Option.map_none]
                  · exact invited_insert hinsert

theorem cancelInvitation_ok {email : String} {actor : Option RequestPrincipal} {done : Bool}
    {s' : InMemoryOrganization}
    (h : InMemoryInvitationRepository.cancelInvitation t email actor s = .ok (done, s')) :
    s'.members = s.members ∧ (s'.invited = s.invited ∨
      ∃ email entry, ManagedChange actor s.invited email entry ∧
        s'.invited = Function.update s.invited email entry) := by
  obtain ⟨normalized, -, h⟩ := ok_of_bind h
  split at h
  · cases h
    exact ⟨rfl, Or.inl rfl⟩
  · rename_i invitation hinvitation
    obtain ⟨_, hcheck, h⟩ := ok_of_bind h
    cases h
    refine ⟨rfl, Or.inr ⟨normalized, none, ⟨?_, ?_⟩, ?_⟩⟩
    · intro role' hrole'
      rw [invited, hinvitation, Option.map_some] at hrole'
      exact Option.some.inj hrole' ▸ checkRole_ok hcheck
    · intro role' hrole'
      cases hrole'
    · funext email
      rw [invited, KeyedTable.find?_deleteKey]
      by_cases hemail : email = normalized
      · subst hemail
        rw [if_pos rfl, Function.update_self, Option.map_none]
      · rw [if_neg hemail, Function.update_of_ne hemail, invited]

/-- Creating an invitation changes the privileges exactly when opening the
repository of members makes its tenant a privileged member again. -/
theorem privileges_createInvitation {p : RequestPrincipal} (hp : p.role ≠ .owner)
    (tenant : MemberTenant) (now : Timestamp) (email role : String) :
    let c := OrganizationCall.createInvitation tenant now email role (some p)
    s.privileges ≤ (call t c s).2.privileges ∧
      ((call t c s).2.privileges = s.privileges ↔ TenantKnown t s c) := by
  simp only [call, TenantKnown]
  obtain ⟨hsame, hrefused⟩ | ⟨cleanRole, hemail, hrole, hcheck, hmembers, hinvited⟩ :=
    createInvitation_effect (t := t) now email role (some p) s
  · rw [hsame]
    refine ⟨le_refl _, iff_of_true rfl fun ⟨normalized, hemail⟩ cleanRole hrole hcheck => ?_⟩
    exact absurd hcheck (hrefused normalized cleanRole hemail hrole)
  · have hinvitations : privileged (InMemoryInvitationRepository.createInvitation t now email role
        (some p) s).2.invited = privileged s.invited := by
      obtain hkept | ⟨invitedEmail, hnone, hupdate⟩ := hinvited
      · rw [hkept]
      · have hchange : ManagedChange (some p) s.invited invitedEmail (some cleanRole) :=
          ⟨fun role' hrole' => by simp [hnone] at hrole',
            fun _ hrole' => Option.some.inj hrole' ▸ checkRole_ok hcheck⟩
        rw [hupdate, hchange.privileged_eq hp]
    obtain ⟨hgrows, hiff⟩ :=
      privileged_getInMemoryMemberRepository (t := t) now s.tenant s.members
    simp only [privileges, hinvitations, hmembers, Prod.mk.injEq, and_true]
    refine ⟨⟨hgrows, le_refl _⟩, hiff.trans ⟨fun hknown _ _ _ _ => hknown, fun hknown => ?_⟩⟩
    exact hknown hemail cleanRole hrole hcheck

theorem privileges_call {c : OrganizationCall} (hc : c.ByNonOwner) (s : InMemoryOrganization) :
    s.privileges ≤ (call t c s).2.privileges ∧
      ((call t c s).2.privileges = s.privileges ↔ TenantKnown t s c) := by
  obtain ⟨p, hactor, hp⟩ := hc
  cases c with
  | member c =>
      have hsame : (call t (.member c) s).2.privileges = s.privileges := by
        simp only [call]
        split
        · rename_i members hmembers
          obtain ⟨subject, entry, hchange, hroles⟩ := MemberCall.inMemory_ok hmembers
          rw [show c.actor = some p from hactor] at hchange
          simp only [privileges, hroles, hchange.privileged_eq hp]
          rfl
        · rfl
      exact ⟨hsame.ge, iff_of_true hsame True.intro⟩
  | createInvitation tenant now email role actor =>
      obtain rfl : actor = some p := hactor
      exact privileges_createInvitation hp tenant now email role
  | cancelInvitation tenant email actor =>
      obtain rfl : actor = some p := hactor
      have hsame : (call t (.cancelInvitation tenant email (some p)) s).2.privileges =
          s.privileges := by
        simp only [call]
        split
        · rename_i hok
          obtain ⟨hmembers, hkept | ⟨invitedEmail, entry, hchange, hupdate⟩⟩ :=
            cancelInvitation_ok hok
          · rw [privileges, privileges, hmembers, hkept]
          · rw [privileges, privileges, hmembers, hupdate, hchange.privileged_eq hp]
        · rfl
      exact ⟨hsame.ge, iff_of_true hsame True.intro⟩

end InMemoryOrganization

/-- In PostgreSQL callers that are no owners change no privileges; in memory they do
exactly by an invitation that makes the tenant of the repository a member again. -/
theorem privileges_unchanged_iff (t : TextRules) (calls : List OrganizationCall)
    (hcalls : ∀ c ∈ calls, c.ByNonOwner) :
    (∀ (s : MemberTables) (org : Uuid),
      (Machine.run (MemberTables.call t) s calls).privileges org = s.privileges org) ∧
    ∀ s : InMemoryOrganization,
      (Machine.Guarded (InMemoryOrganization.call t) (InMemoryOrganization.TenantKnown t) s calls ↔
        (Machine.run (InMemoryOrganization.call t) s calls).privileges = s.privileges) := by
  constructor
  · intro s org
    induction calls generalizing s with
    | nil => rfl
    | cons c calls ih =>
        obtain ⟨hc, hcalls⟩ := List.forall_mem_cons.mp hcalls
        exact (ih hcalls _).trans (MemberTables.privileges_call t hc s org)
  · intro s
    exact Machine.guarded_iff_unchanged _ (fun _ _ (_ : True) _ => True.intro)
      (fun s _ _ hc => (InMemoryOrganization.privileges_call hc s).1)
      (fun s _ _ hc => (InMemoryOrganization.privileges_call hc s).2) True.intro hcalls

namespace PrivilegesFixture

def record (subject : String) (role : MembershipRole) : MemberRecord :=
  { id := subject, userId := subject, subject, email := none, displayName := none, role,
    createdAt := 0 }

def eva : RequestPrincipal := ⟨"oidc|eva", .admin⟩

def acmeTenant : MemberTenant := (sampleOrganization .empty .empty).tenant

/-- `eva`, an administrator, invites a viewer. -/
def invite : OrganizationCall := .createInvitation acmeTenant 1 "caio@acme.test" "viewer" (some eva)

theorem invite_byNonOwner : ∀ c ∈ [invite], c.ByNonOwner := by
  intro c hc
  obtain rfl := List.mem_singleton.mp hc
  exact ⟨eva, rfl, by decide⟩

/-- She invites him, makes a viewer a member and withdraws the invitation. -/
def administration : List OrganizationCall :=
  [invite, .member ⟨acmeTenant, some eva, 2, .updateMemberRole "oidc|leo" "member"⟩,
    .cancelInvitation acmeTenant "caio@acme.test" (some eva)]

theorem administration_byNonOwner : ∀ c ∈ administration, c.ByNonOwner := by
  intro c hc
  refine ⟨eva, ?_, by decide⟩
  simp only [administration, List.mem_cons, List.not_mem_nil, or_false] at hc
  rcases hc with rfl | rfl | rfl <;> rfl

/-- `ana` owns the organization, `eva` is an administrator and `leo` a viewer. -/
def acmeTables : MemberTables where
  users := ((KeyedTable.empty.insertNew
    { id := acmeTenant.stableUserId "oidc|ana", subject := "oidc|ana" }).insertNew
    { id := acmeTenant.stableUserId "oidc|eva", subject := "oidc|eva" }).insertNew
    { id := acmeTenant.stableUserId "oidc|leo", subject := "oidc|leo" }
  members := ((KeyedTable.empty.insertNew
    ⟨acmeTenant.organizationId, acmeTenant.stableUserId "oidc|ana", .owner, 0⟩).insertNew
    ⟨acmeTenant.organizationId, acmeTenant.stableUserId "oidc|eva", .admin, 0⟩).insertNew
    ⟨acmeTenant.organizationId, acmeTenant.stableUserId "oidc|leo", .viewer, 0⟩
  invitations := .empty

def acmeInMemory : InMemoryOrganization :=
  sampleOrganization
    (((KeyedTable.empty.insertNew (record "oidc|ana" .owner)).insertNew
      (record "oidc|eva" .admin)).insertNew (record "oidc|leo" .viewer)) .empty

/-- `ana`, who opened the repository, was revoked by another owner. -/
def anaRevoked : InMemoryOrganization :=
  sampleOrganization
    ((KeyedTable.empty.insertNew (record "oidc|bia" .owner)).insertNew (record "oidc|eva" .admin))
    .empty

end PrivilegesFixture

open PrivilegesFixture in
/-- The viewer becomes a member, and nobody gains or loses a privileged role. -/
theorem administration_changes_no_privilege :
    let run := Machine.run (MemberTables.call sampleTextRules) acmeTables administration
    run.roles acmeTenant.organizationId (acmeTenant.stableUserId "oidc|leo") = some .member ∧
      run.privileges acmeTenant.organizationId = acmeTables.privileges acmeTenant.organizationId ∧
      (Machine.run (InMemoryOrganization.call sampleTextRules) acmeInMemory
        administration).privileges = acmeInMemory.privileges := by
  obtain ⟨hpostgres, hmemory⟩ :=
    privileges_unchanged_iff sampleTextRules administration administration_byNonOwner
  refine ⟨by decide +kernel, hpostgres acmeTables acmeTenant.organizationId,
    (hmemory acmeInMemory).mp ?_⟩
  refine (Machine.guarded_cons _).mpr ⟨fun _ _ _ _ => .inl (by decide +kernel), ?_⟩
  refine (Machine.guarded_cons _).mpr ⟨True.intro, (Machine.guarded_cons _).mpr ⟨True.intro, ?_⟩⟩
  exact fun _ hnone => absurd hnone List.not_mem_nil

open PrivilegesFixture in
/-- An administrator invites a viewer, and a revoked owner is an owner again. -/
theorem revoked_owner_restored :
    ¬ ∀ (t : TextRules) (calls : List OrganizationCall), (∀ c ∈ calls, c.ByNonOwner) →
      (∀ (s : MemberTables) (org : Uuid),
        (Machine.run (MemberTables.call t) s calls).privileges org = s.privileges org) ∧
      ∀ s : InMemoryOrganization,
        (Machine.run (InMemoryOrganization.call t) s calls).privileges = s.privileges := by
  intro hall
  have hsame := (hall sampleTextRules [invite] invite_byNonOwner).2 anaRevoked
  have hin : ("oidc|ana", MembershipRole.owner) ∈ (Machine.run
      (InMemoryOrganization.call sampleTextRules) anaRevoked [invite]).privileges.1 :=
    ⟨by decide +kernel, by decide⟩
  rw [hsame] at hin
  exact absurd hin.1 (by decide)

end Orchestrator
