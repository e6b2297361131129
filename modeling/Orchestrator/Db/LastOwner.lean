import Orchestrator.Db.RoleChanges
import Orchestrator.Lib.Machine

/-!
Whether an organization that has an owner keeps one.

A mutation of the members in PostgreSQL locks the organization's row, reads and
counts, and commits later; a second one waits. `claim_organization_invitation`
takes no such lock: it waits for the row of the same member only, or for the
organization when it would insert a member. What it writes counts from its
commit on.
-/

namespace Orchestrator
open Holders

def MemberTables.HasOwner (s : MemberTables) (org : Uuid) : Prop := Held (s.roles org) .owner

theorem MemberTables.hasOwner_iff {s : MemberTables} {org : Uuid} :
    s.HasOwner org ↔ ∃ row ∈ s.members.rows, row.organizationId = org ∧ row.role = .owner := by
  constructor
  · intro ⟨userId, hrole⟩
    obtain ⟨row, hrow, howner⟩ := Option.map_eq_some_iff.mp hrole
    exact ⟨row, KeyedTable.find?_mem hrow, congrArg Prod.fst (KeyedTable.find?_key hrow), howner⟩
  · intro ⟨row, hrow, horg, howner⟩
    have hkey : row.key = (org, row.userId) := Prod.ext horg rfl
    refine ⟨row.userId, ?_⟩
    rw [roles, ← hkey, KeyedTable.find?_of_mem hrow, Option.map_some, howner]

instance (s : MemberTables) (org : Uuid) : Decidable (s.HasOwner org) :=
  decidable_of_iff _ MemberTables.hasOwner_iff.symm

namespace PostgresInvitationRepository
variable (t : TextRules)

/-- The invitation that a claim consumes. -/
def claimable? (session : SessionContext) (organizationId userId : Uuid)
    (userSubject email : String) (s : MemberTables) : Option OrganizationInvitation :=
  if session.organizationId = some organizationId ∧ session.userId = some userId ∧
      t.sqlNormalize email ≠ "" ∧
      ¬ (s.users.rows.any (fun u => u.subject = userSubject && u.id ≠ userId) &&
        (s.users.find? userId).isNone) = true then
    s.invitations.find? (organizationId, t.sqlNormalize email)
  else none

/-- The tables after a claim; one that raises leaves them. -/
def claimed (session : SessionContext) (now : Timestamp) (organizationId userId : Uuid)
    (userSubject email : String) (displayName : Option String) (s : MemberTables) :
    MemberTables :=
  match claimOrganizationInvitation t session now organizationId userId userSubject email
      displayName s with
  | .ok (_, s') => s'
  | .error _ => s

variable {t} {session : SessionContext} {now : Timestamp} {organizationId userId : Uuid}
  {userSubject email : String} {displayName : Option String} {s : MemberTables}

theorem claimed_of_none
    (h : claimable? t session organizationId userId userSubject email s = none) :
    claimed t session now organizationId userId userSubject email displayName s = s := by
  simp only [claimed, claimOrganizationInvitation]
  by_cases horg : session.organizationId = some organizationId
  · by_cases huser : session.userId = some userId
    · by_cases hemail : t.sqlNormalize email = ""
      · simp [horg, huser, hemail]
      · cases hfind : s.invitations.find? (organizationId, t.sqlNormalize email) with
        | none => simp [horg, huser, hemail]
        | some invitation =>
            simp only [claimable?, horg, huser, hemail, hfind, true_and, ne_eq, not_false_eq_true,
              ite_eq_right_iff, reduceCtorEq, imp_false, not_not] at h
            simp only [horg, huser, hemail, h, ne_eq, not_true_eq_false, if_false, if_true]
    · simp [horg, huser]
  · simp [horg]

theorem roles_claimed_of_some (now : Timestamp) (displayName : Option String)
    {invitation : OrganizationInvitation}
    (h : claimable? t session organizationId userId userSubject email s = some invitation)
    (org : Uuid) :
    (claimed t session now organizationId userId userSubject email displayName s).roles org =
      if organizationId = org then Function.update (s.roles org) userId (some invitation.role)
      else s.roles org := by
  simp only [claimable?] at h
  split at h
  · rename_i hmeets
    obtain ⟨horg, huser, hemail, hconflict⟩ := hmeets
    simp only [claimed, claimOrganizationInvitation, horg, huser, hemail, h, hconflict, ne_eq,
      not_true_eq_false, if_false, Bool.false_eq_true]
    funext user
    rw [MemberTables.roles, KeyedTable.find?_upsert]
    split
    · rename_i hkey
      obtain ⟨rfl, rfl⟩ := Prod.mk.inj hkey
      rw [if_pos rfl, Function.update_self]
      cases s.members.find? (organizationId, userId) <;> rfl
    · rename_i hkey
      by_cases ho : organizationId = org
      · have hne : user ≠ userId := fun heq => hkey (Prod.ext ho heq.symm)
        rw [if_pos ho, Function.update_of_ne hne, MemberTables.roles]
      · rw [if_neg ho, MemberTables.roles]
  · cases h

end PostgresInvitationRepository

structure MembersWorld where
  tables : MemberTables
  /-- What the transaction that holds an organization's row has written. -/
  held : (org : Uuid) → Option { write : MemberWrite // write.key.1 = org }

inductive MembersAction where
  /-- The call takes the lock of its organization, reads, and writes or raises. -/
  | request (c : MemberCall)
  | commit (org : Uuid)
  | rollback (org : Uuid)
  | claimInvitation (session : SessionContext) (now : Timestamp) (organizationId userId : Uuid)
      (userSubject email : String) (displayName : Option String)

namespace MembersWorld
variable (t : TextRules)

def request (c : MemberCall) (w : MembersWorld) : MembersWorld :=
  match w.held c.tenant.organizationId with
  | some _ => w
  | none =>
      match h : c.write w.tables with
      | .ok write =>
          { w with
            held := Function.update w.held c.tenant.organizationId
              (some ⟨write, (MemberCall.write_ok h).1⟩) }
      | .error _ => w

def commit (org : Uuid) (w : MembersWorld) : MembersWorld :=
  match w.held org with
  | some write => ⟨write.1.apply w.tables, Function.update w.held org none⟩
  | none => w

def rollback (org : Uuid) (w : MembersWorld) : MembersWorld :=
  { w with held := Function.update w.held org none }

/-- The claim of a member waits for the open transaction of the organization. -/
def waits (organizationId userId : Uuid) (w : MembersWorld) : Bool :=
  (w.held organizationId).any fun write =>
    write.1.key.2 = userId || (w.tables.members.find? (organizationId, userId)).isNone

def apply : MembersAction → MembersWorld → Unit × MembersWorld
  | .request c, w => ((), w.request c)
  | .commit org, w => ((), w.commit org)
  | .rollback org, w => ((), w.rollback org)
  | .claimInvitation session now organizationId userId userSubject email displayName, w =>
      ((), if w.waits organizationId userId then w
        else { w with
          tables := PostgresInvitationRepository.claimed t session now organizationId userId
            userSubject email displayName w.tables })

/-- An owner now, and an owner once the open transaction of the organization has
committed. -/
def KeepsOwner (org : Uuid) (w : MembersWorld) : Prop :=
  w.tables.HasOwner org ∧ (w.commit org).tables.HasOwner org

/-- Who accepts an invitation to a role below owner is not the only owner, neither
now nor once the open transaction of the organization has committed. -/
def OthersOwn (org : Uuid) (w : MembersWorld) : MembersAction → Prop
  | .claimInvitation session _ organizationId userId userSubject email _ =>
      organizationId = org → w.waits organizationId userId = false →
        ∀ invitation, PostgresInvitationRepository.claimable? t session organizationId userId
            userSubject email w.tables = some invitation → invitation.role ≠ .owner →
          HeldByOther (w.tables.roles org) .owner userId ∧
            HeldByOther ((w.commit org).tables.roles org) .owner userId
  | _ => True

/-- The register once the open transaction of the organization has committed. -/
def settled (org : Uuid) (w : MembersWorld) : Uuid → Option MembershipRole :=
  match w.held org with
  | some write =>
      Function.update (w.tables.roles org) write.1.key.2
        (write.1.entry (w.tables.roles org write.1.key.2))
  | none => w.tables.roles org

variable {t} {org : Uuid} {w w' : MembersWorld}

theorem roles_commit : (w.commit org).tables.roles org = w.settled org := by
  cases h : w.held org with
  | none => simp only [commit, settled, h]
  | some write =>
      simp only [commit, settled, h]
      exact MemberWrite.roles_apply_of_org write.2

theorem settled_congr (hroles : w'.tables.roles org = w.tables.roles org)
    (hheld : w'.held org = w.held org) : w'.settled org = w.settled org := by
  simp only [settled, hroles, hheld]

theorem settled_of_none (h : w.held org = none) : w.settled org = w.tables.roles org := by
  simp only [settled, h]

theorem keepsOwner_iff :
    KeepsOwner org w ↔ Held (w.tables.roles org) .owner ∧ Held (w.settled org) .owner := by
  rw [KeepsOwner, MemberTables.HasOwner, MemberTables.HasOwner, roles_commit]

theorem keepsOwner_of_none (h : w.held org = none) (howner : Held (w.tables.roles org) .owner) :
    KeepsOwner org w := by
  rw [keepsOwner_iff, settled_of_none h]
  exact ⟨howner, howner⟩

/-- A step that changes neither the register nor the open write. -/
theorem KeepsOwner.frame (h : KeepsOwner org w)
    (hroles : w'.tables.roles org = w.tables.roles org) (hheld : w'.held org = w.held org) :
    KeepsOwner org w' := by
  rw [keepsOwner_iff] at h ⊢
  rw [hroles, settled_congr hroles hheld]
  exact h

theorem KeepsOwner.request (h : KeepsOwner org w) (c : MemberCall) :
    KeepsOwner org (w.request c) := by
  simp only [MembersWorld.request]
  split
  · exact h
  · rename_i hfree
    split
    · rename_i write hwrite
      by_cases horg : org = c.tenant.organizationId
      · -- the write was checked against the register it will be applied to
        subst horg
        have hchange := (MemberCall.write_ok hwrite).2
        rw [keepsOwner_iff] at h ⊢
        simp only [settled, Function.update_self]
        exact ⟨h.1, hchange.held h.1⟩
      · exact h.frame rfl (Function.update_of_ne horg ..)
    · exact h

theorem KeepsOwner.commit (h : KeepsOwner org w) (org' : Uuid) :
    KeepsOwner org (w.commit org') := by
  by_cases horg : org' = org
  · subst horg
    refine keepsOwner_of_none ?_ h.2
    cases hheld : w.held org' with
    | none => simp only [MembersWorld.commit, hheld]
    | some write => simp only [MembersWorld.commit, hheld, Function.update_self]
  · cases hheld : w.held org' with
    | none => simpa only [MembersWorld.commit, hheld] using h
    | some write =>
        simp only [MembersWorld.commit, hheld]
        have hkey : write.1.key.1 ≠ org := fun heq => horg (write.2.symm.trans heq)
        exact h.frame (MemberWrite.roles_apply_of_ne hkey)
          (Function.update_of_ne (Ne.symm horg) ..)

theorem KeepsOwner.rollback (h : KeepsOwner org w) (org' : Uuid) :
    KeepsOwner org (w.rollback org') := by
  by_cases horg : org = org'
  · subst horg
    exact keepsOwner_of_none (Function.update_self ..) h.1
  · exact h.frame rfl (Function.update_of_ne horg ..)

section Claims
variable {session : SessionContext} {now : Timestamp} {organizationId userId : Uuid}
  {userSubject email : String} {displayName : Option String}

/-- A claim of a member of the organization that is not kept waiting is an entry
in both registers: the open transaction writes another member. -/
theorem claim_registers (now : Timestamp) (displayName : Option String)
    {invitation : OrganizationInvitation}
    (hwaits : w.waits organizationId userId = false)
    (h : PostgresInvitationRepository.claimable? t session organizationId userId userSubject email
      w.tables = some invitation) :
    let w' := { w with
      tables := PostgresInvitationRepository.claimed t session now organizationId userId
        userSubject email displayName w.tables }
    w'.tables.roles organizationId =
        Function.update (w.tables.roles organizationId) userId (some invitation.role) ∧
      w'.settled organizationId =
        Function.update (w.settled organizationId) userId (some invitation.role) := by
  have hroles := PostgresInvitationRepository.roles_claimed_of_some now
    displayName h organizationId
  rw [if_pos rfl] at hroles
  refine ⟨hroles, ?_⟩
  cases hheld : w.held organizationId with
  | none => simp only [settled, hheld, hroles]
  | some write =>
      have hother : userId ≠ write.1.key.2 := by
        intro heq
        simp [waits, hheld, heq] at hwaits
      simp only [settled, hheld, hroles, Function.update_of_ne hother.symm]
      exact Function.update_comm hother ..

/-- A claim keeps the organization an owner exactly when it meets the condition. -/
theorem keepsOwner_claim_iff (h : KeepsOwner org w) :
    KeepsOwner org (apply t (.claimInvitation session now organizationId userId userSubject email
        displayName) w).2 ↔
      OthersOwn t org w (.claimInvitation session now organizationId userId userSubject email
        displayName) := by
  simp only [apply, OthersOwn]
  by_cases hwaits : w.waits organizationId userId = true
  · rw [if_pos hwaits]
    exact iff_of_true h fun _ hnot => absurd hwaits (by simp [hnot])
  · rw [if_neg hwaits]
    cases hclaim : PostgresInvitationRepository.claimable? t session organizationId userId
        userSubject email w.tables with
    | none =>
        rw [PostgresInvitationRepository.claimed_of_none hclaim]
        exact iff_of_true h fun _ _ _ hsome => by cases hsome
    | some invitation =>
        by_cases horg : organizationId = org
        · subst horg
          obtain ⟨hroles, hsettled⟩ := claim_registers now displayName
            (by simpa using hwaits) hclaim
          rw [keepsOwner_iff, hroles, hsettled, held_update_iff, held_update_iff, roles_commit]
          constructor
          · intro howns _ _ invitation' hinv hrole
            obtain rfl := Option.some.inj hinv
            have hne : some invitation.role ≠ some .owner := fun heq => hrole (Option.some.inj heq)
            exact ⟨howns.1.resolve_left hne, howns.2.resolve_left hne⟩
          · intro howns
            by_cases hrole : invitation.role = .owner
            · exact ⟨Or.inl (by rw [hrole]), Or.inl (by rw [hrole])⟩
            · obtain ⟨hnow, hthen⟩ := howns rfl (by simpa using hwaits) invitation rfl hrole
              exact ⟨Or.inr hnow, Or.inr hthen⟩
        · refine iff_of_true (h.frame ?_ rfl) fun heq => absurd heq horg
          rw [PostgresInvitationRepository.roles_claimed_of_some now displayName hclaim,
            if_neg horg]

end Claims

/-- One step: the owner is kept exactly when the step meets the condition. -/
theorem keepsOwner_apply_iff (h : KeepsOwner org w) (a : MembersAction) :
    KeepsOwner org (apply t a w).2 ↔ OthersOwn t org w a := by
  cases a with
  | request c => exact iff_of_true (h.request c) True.intro
  | commit org' => exact iff_of_true (h.commit org') True.intro
  | rollback org' => exact iff_of_true (h.rollback org') True.intro
  | claimInvitation => exact keepsOwner_claim_iff h

end MembersWorld

inductive InMemoryAction where
  | request (c : MemberCall)
  | claimInvitation (now : Timestamp) (userId : Uuid) (userSubject email : String)
      (displayName : Option String)

namespace InMemoryOrganization
variable (t : TextRules)

def HasOwner (s : InMemoryOrganization) : Prop := Held (inMemoryRoles s.members) .owner

theorem hasOwner_iff {s : InMemoryOrganization} :
    s.HasOwner ↔ ∃ record ∈ s.members.rows, record.role = .owner := by
  constructor
  · intro ⟨subject, hrole⟩
    obtain ⟨record, hrecord, howner⟩ := Option.map_eq_some_iff.mp hrole
    exact ⟨record, KeyedTable.find?_mem hrecord, howner⟩
  · intro ⟨record, hrecord, howner⟩
    refine ⟨record.subject, ?_⟩
    rw [inMemoryRoles, KeyedTable.find?_of_mem hrecord, Option.map_some, howner]

instance (s : InMemoryOrganization) : Decidable s.HasOwner :=
  decidable_of_iff _ hasOwner_iff.symm

def apply : InMemoryAction → InMemoryOrganization → Unit × InMemoryOrganization
  | .request c, s =>
      ((), match c.inMemory s.members with
        | .ok members => { s with members }
        | .error _ => s)
  | .claimInvitation now userId userSubject email displayName, s =>
      ((), match InMemoryInvitationRepository.claimInvitation t now userId userSubject email
          displayName s with
        | .ok (_, s') => s'
        | .error _ => s)

/-- Who accepts an invitation to a role below owner is not the only owner, the
tenant of the repository counted in. -/
def OthersOwn (s : InMemoryOrganization) : InMemoryAction → Prop
  | .claimInvitation now _ userSubject email _ =>
      ∀ normalized, normalizeEmail t email = .ok normalized →
        ∀ invitation, s.invitations.find? normalized = some invitation →
          invitation.role ≠ .owner →
            HeldByOther (inMemoryRoles (getInMemoryMemberRepository t now s.tenant s.members))
              .owner userSubject
  | _ => True

variable {t} {s : InMemoryOrganization}

theorem roles_claim {now : Timestamp} {userId : Uuid} {userSubject email normalized : String}
    {displayName : Option String} {invitation : InvitationRecord}
    (hemail : normalizeEmail t email = .ok normalized)
    (h : s.invitations.find? normalized = some invitation) :
    inMemoryRoles (apply t (.claimInvitation now userId userSubject email displayName)
        s).2.members =
      Function.update (inMemoryRoles (getInMemoryMemberRepository t now s.tenant s.members))
        userSubject (some invitation.role) := by
  simp only [apply, InMemoryInvitationRepository.claimInvitation, hemail, Outcome.ok_bind, h,
    Outcome.pure_eq]
  funext subject
  rw [inMemoryRoles, KeyedTable.find?_upsert]
  by_cases hsubject : userSubject = subject
  · subst hsubject
    rw [if_pos rfl, Function.update_self]
    cases (getInMemoryMemberRepository t now s.tenant s.members).find? userSubject <;> rfl
  · rw [if_neg hsubject, Function.update_of_ne (Ne.symm hsubject), inMemoryRoles]

theorem hasOwner_apply_iff (h : s.HasOwner) (a : InMemoryAction) :
    (apply t a s).2.HasOwner ↔ OthersOwn t s a := by
  cases a with
  | request c =>
      refine iff_of_true ?_ True.intro
      simp only [apply]
      split
      · rename_i members hmembers
        obtain ⟨subject, entry, hchange, hroles⟩ := MemberCall.inMemory_ok hmembers
        rw [HasOwner, hroles]
        exact hchange.held h
      · exact h
  | claimInvitation now userId userSubject email displayName =>
      cases hemail : normalizeEmail t email with
      | error exc =>
          have hsame : (apply t (.claimInvitation now userId userSubject email displayName) s).2 =
              s := by
            simp only [apply, InMemoryInvitationRepository.claimInvitation, hemail]
            rfl
          rw [hsame]
          exact iff_of_true h fun normalized hok => by simp [hemail] at hok
      | ok normalized =>
          cases hfind : s.invitations.find? normalized with
          | none =>
              have hsame : (apply t (.claimInvitation now userId userSubject email displayName)
                  s).2 = s := by
                simp only [apply, InMemoryInvitationRepository.claimInvitation, hemail,
                  Outcome.ok_bind, hfind]
                rfl
              rw [hsame]
              refine iff_of_true h fun normalized' hok invitation hinv => ?_
              obtain rfl := Except.ok.inj (hemail.symm.trans hok)
              simp [hfind] at hinv
          | some invitation =>
              rw [HasOwner, roles_claim hemail hfind, held_update_iff]
              constructor
              · intro howner normalized' hok invitation' hinv hrole
                obtain rfl := Except.ok.inj (hemail.symm.trans hok)
                obtain rfl := Option.some.inj (hfind.symm.trans hinv)
                exact howner.resolve_left fun heq => hrole (Option.some.inj heq)
              · intro hothers
                by_cases hrole : invitation.role = .owner
                · exact Or.inl (by rw [hrole])
                · exact Or.inr (hothers normalized hemail invitation hfind hrole)

end InMemoryOrganization

theorem owner_kept_iff (t : TextRules) :
    (∀ (org : Uuid) (w : MembersWorld) (actions : List MembersAction),
      w.tables.HasOwner org → w.held org = none →
        (Machine.Guarded (MembersWorld.apply t) (MembersWorld.OthersOwn t org) w actions ↔
          ∀ pre post, actions = pre ++ post →
            MembersWorld.KeepsOwner org (Machine.run (MembersWorld.apply t) w pre))) ∧
    ∀ (s : InMemoryOrganization) (actions : List InMemoryAction), s.HasOwner →
      (Machine.Guarded (InMemoryOrganization.apply t) (InMemoryOrganization.OthersOwn t) s actions ↔
        ∀ pre post, actions = pre ++ post →
          (Machine.run (InMemoryOrganization.apply t) s pre).HasOwner) := by
  constructor
  · intro org w actions howner hfree
    have hstep (w : MembersWorld) (a : MembersAction) (h : MembersWorld.KeepsOwner org w)
        (hothers : MembersWorld.OthersOwn t org w a) :
        MembersWorld.KeepsOwner org (MembersWorld.apply t a w).2 :=
      (MembersWorld.keepsOwner_apply_iff h a).mpr hothers
    have hneeded (w : MembersWorld) (a : MembersAction) (h : MembersWorld.KeepsOwner org w)
        (hkept : MembersWorld.KeepsOwner org (MembersWorld.apply t a w).2) :
        MembersWorld.OthersOwn t org w a :=
      (MembersWorld.keepsOwner_apply_iff h a).mp hkept
    exact Machine.guarded_iff_prefixes _ (fun _ h => h) hstep hneeded
      (MembersWorld.keepsOwner_of_none hfree howner)
  · intro s actions howner
    have hstep (s : InMemoryOrganization) (a : InMemoryAction) (h : s.HasOwner)
        (hothers : InMemoryOrganization.OthersOwn t s a) :
        (InMemoryOrganization.apply t a s).2.HasOwner :=
      (InMemoryOrganization.hasOwner_apply_iff h a).mpr hothers
    have hneeded (s : InMemoryOrganization) (a : InMemoryAction) (h : s.HasOwner)
        (hkept : (InMemoryOrganization.apply t a s).2.HasOwner) :
        InMemoryOrganization.OthersOwn t s a :=
      (InMemoryOrganization.hasOwner_apply_iff h a).mp hkept
    exact Machine.guarded_iff_prefixes _ (fun _ h => h) hstep hneeded howner

namespace MembersFixture

def ana : UserRow := { id := "u-ana", subject := "oidc|ana", email := some "ana@acme.test" }

/-- `ana` is an owner and is invited as a member under another e-mail. -/
def tables (owners : KeyedTable OrganizationMember.key) : MemberTables where
  users := KeyedTable.empty.insertNew ana
  members := owners
  invitations := KeyedTable.empty.insertNew
    { organizationId := "acme", normalizedEmail := "a@acme.test", role := .member,
      invitedByUserId := none, createdAt := 0 }

def owner (userId : Uuid) : OrganizationMember :=
  { organizationId := "acme", userId, role := .owner, createdAt := 0 }

def oneOwner : MembersWorld :=
  ⟨tables (KeyedTable.empty.insertNew (owner "u-ana")), fun _ => none⟩

def twoOwners : MembersWorld :=
  ⟨tables ((KeyedTable.empty.insertNew (owner "u-ana")).insertNew (owner "u-bia")), fun _ => none⟩

def anaAccepts : MembersAction :=
  .claimInvitation ⟨some "acme", some "u-ana"⟩ 1 "acme" "u-ana" "oidc|ana" "A@acme.test" none

/-- The same in memory. -/
def inMemory : InMemoryOrganization :=
  sampleOrganization (KeyedTable.empty.insertNew (ana.record .owner 0))
    (KeyedTable.empty.insertNew
      { organizationId := "acme", normalizedEmail := "a@acme.test", role := .member,
        invitedByUserId := none, createdAt := 0 })

end MembersFixture

open MembersFixture in
/-- One of two owners may become a member. -/
theorem second_owner_stays :
    MembersWorld.KeepsOwner "acme"
      (Machine.run (MembersWorld.apply sampleTextRules) twoOwners [anaAccepts]) :=
  ((owner_kept_iff sampleTextRules).1 "acme" twoOwners [anaAccepts] (by decide) rfl).mp
    (by
      intro e he
      obtain rfl := List.mem_singleton.mp he
      intro _ _ _ _ _
      exact ⟨⟨"u-bia", by decide, by decide⟩, ⟨"u-bia", by decide, by decide⟩⟩)
    [anaAccepts] [] rfl

open MembersFixture in
/-- The only owner accepts an invitation as a member: nobody owns the organization
any more. -/
theorem last_owner_lost :
    (¬ ∀ (t : TextRules) (org : Uuid) (w : MembersWorld) (actions : List MembersAction),
      w.tables.HasOwner org → w.held org = none →
        (Machine.run (MembersWorld.apply t) w actions).tables.HasOwner org) ∧
    ¬ ∀ (t : TextRules) (s : InMemoryOrganization) (actions : List InMemoryAction),
      s.HasOwner → (Machine.run (InMemoryOrganization.apply t) s actions).HasOwner := by
  constructor
  · intro hall
    have howner := hall sampleTextRules "acme" oneOwner [anaAccepts] (by decide) rfl
    exact absurd howner (by decide)
  · intro hall
    have howner := hall sampleTextRules inMemory
      [.claimInvitation 1 "u-ana" "oidc|ana" "A@acme.test" none] (by decide)
    exact absurd howner (by decide +kernel)

end Orchestrator
