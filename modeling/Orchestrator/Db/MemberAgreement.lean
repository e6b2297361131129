import Orchestrator.Db.MemberSessions

/-!
Whether the member repository of PostgreSQL and the one in memory agree.

The dictionary of a slug and the tables hold the same memberships when every
person has the same record in both. Every mutation keeps them the same and
returns the same, except one: PostgreSQL refuses a new membership of a person
who already has a row in `users`, because the failed insert of the row has
aborted the transaction when the membership is inserted.
-/

namespace Orchestrator
open Holders Outcome

/-- What two records of one membership are compared by: the person and the role
at least. -/
structure RecordComparison where
  same : MemberRecord → MemberRecord → Prop
  refl : ∀ r, same r r
  subject : ∀ r r', same r r' → r'.subject = r.subject
  role : ∀ r r', same r r' → r'.role = r.role
  withRole : ∀ r r' role, same r r' → same { r with role } { r' with role }

namespace RecordComparison

/-- All fields of the records. -/
def exact : RecordComparison where
  same r r' := r = r'
  refl _ := rfl
  subject _ _ h := by rw [h]
  role _ _ h := by rw [h]
  withRole _ _ _ h := by rw [h]

/-- The person and the role, without the profile and the time. -/
def membership : RecordComparison where
  same r r' := r'.id = r.id ∧ r'.userId = r.userId ∧ r'.subject = r.subject ∧ r'.role = r.role
  refl _ := ⟨rfl, rfl, rfl, rfl⟩
  subject _ _ h := h.2.2.1
  role _ _ h := h.2.2.2
  withRole _ _ _ h := ⟨h.1, h.2.1, h.2.2.1, rfl⟩

end RecordComparison

namespace PostgresMemberRepository
variable {tenant : MemberTenant} {s s' : MemberTables} {subject : String}

theorem getMember_of_rows (row : OrganizationMember) (user : UserRow)
    (hrow : s.members.find? (tenant.organizationId, tenant.stableUserId subject) = some row)
    (huser : s.users.find? (tenant.stableUserId subject) = some user) :
    getMember tenant s subject = some (user.record row.role row.createdAt) := by
  simp [getMember, selectMember, hrow, huser]

theorem getMember_of_none
    (hrow : s.members.find? (tenant.organizationId, tenant.stableUserId subject) = none) :
    getMember tenant s subject = none := by
  simp [getMember, selectMember, hrow]

theorem getMember_congr
    (hmembers : s'.members.find? (tenant.organizationId, tenant.stableUserId subject) =
      s.members.find? (tenant.organizationId, tenant.stableUserId subject))
    (husers : s'.users.find? (tenant.stableUserId subject) =
      s.users.find? (tenant.stableUserId subject)) :
    getMember tenant s' subject = getMember tenant s subject := by
  rw [getMember, getMember, selectMember, selectMember, hmembers, husers]

end PostgresMemberRepository

/-- The tables and the dictionary hold the same memberships of an organization. -/
structure SameMembers (cmp : RecordComparison) (tenant : MemberTenant) (s : MemberTables)
    (members : KeyedTable MemberRecord.subject) : Prop where
  records : ∀ subject, Option.Rel cmp.same
    (PostgresMemberRepository.getMember tenant s subject) (members.find? subject)
  /-- The foreign key of a membership leads to the row of a person. -/
  persons : ∀ userId row, s.members.find? (tenant.organizationId, userId) = some row →
    ∃ user, s.users.find? userId = some user ∧ userId = tenant.stableUserId user.subject

namespace SameMembers
open PostgresMemberRepository
variable {cmp : RecordComparison} {tenant tenant' : MemberTenant} {s : MemberTables}
  {members : KeyedTable MemberRecord.subject}

theorem of_organization (h : SameMembers cmp tenant s members)
    (heq : tenant'.toTenantContext = tenant.toTenantContext) :
    SameMembers cmp tenant' s members := by
  have hid : ∀ subject, tenant'.stableUserId subject = tenant.stableUserId subject := by
    intro subject
    rw [MemberTenant.stableUserId, MemberTenant.stableUserId, heq]
  have horg : tenant'.organizationId = tenant.organizationId := by rw [heq]
  refine ⟨fun subject => ?_, fun userId row hrow => ?_⟩
  · simpa only [getMember, selectMember, hid, horg] using h.records subject
  · simpa only [hid] using h.persons userId row (horg ▸ hrow)

/-- A membership of the tables is its person's record in memory. -/
theorem of_row (h : SameMembers cmp tenant s members) {subject : String}
    {row : OrganizationMember}
    (hrow : s.members.find? (tenant.organizationId, tenant.stableUserId subject) = some row) :
    ∃ user record, s.users.find? (tenant.stableUserId subject) = some user ∧
      members.find? subject = some record ∧
        cmp.same (user.record row.role row.createdAt) record := by
  obtain ⟨user, huser, -⟩ := h.persons _ _ hrow
  have hrecords := h.records subject
  rw [getMember_of_rows row user hrow huser] at hrecords
  cases hfound : members.find? subject with
  | none => rw [hfound] at hrecords; cases hrecords
  | some record =>
      rw [hfound] at hrecords
      cases hrecords with
      | some hsame => exact ⟨user, record, huser, rfl, hsame⟩

theorem find?_of_none (h : SameMembers cmp tenant s members) {subject : String}
    (hrow : s.members.find? (tenant.organizationId, tenant.stableUserId subject) = none) :
    members.find? subject = none := by
  have hrecords := h.records subject
  rw [getMember_of_none hrow] at hrecords
  cases hfound : members.find? subject with
  | none => rfl
  | some record => rw [hfound] at hrecords; cases hrecords

/-- Both hold the same role for each person. -/
theorem roles (h : SameMembers cmp tenant s members) (subject : String) :
    s.roles tenant.organizationId (tenant.stableUserId subject) =
      inMemoryRoles members subject := by
  rw [MemberTables.roles, inMemoryRoles]
  cases hrow : s.members.find? (tenant.organizationId, tenant.stableUserId subject) with
  | none => rw [h.find?_of_none hrow, Option.map_none, Option.map_none]
  | some row =>
      obtain ⟨user, record, -, hfound, hsame⟩ := h.of_row hrow
      rw [hfound, Option.map_some, Option.map_some, cmp.role _ _ hsame, UserRow.record]

theorem other_owner_iff (hids : Function.Injective tenant.stableUserId)
    (h : SameMembers cmp tenant s members) (subject : String) :
    HeldByOther (s.roles tenant.organizationId) .owner (tenant.stableUserId subject) ↔
      HeldByOther (inMemoryRoles members) .owner subject := by
  constructor
  · intro ⟨userId, hne, howner⟩
    obtain ⟨row, hrow, -⟩ := Option.map_eq_some_iff.mp howner
    obtain ⟨user, -, hid⟩ := h.persons userId row hrow
    refine ⟨user.subject, fun heq => hne (by rw [hid, heq]), ?_⟩
    rw [← h.roles, ← hid, howner]
  · intro ⟨other, hne, howner⟩
    exact ⟨tenant.stableUserId other, fun heq => hne (hids heq), by rw [h.roles, howner]⟩

end SameMembers

/-- An owner is the only one exactly when nobody else is an owner. -/
theorem MemberTables.ownersOf_le_one_iff {s : MemberTables} {org userId : Uuid}
    {row : OrganizationMember} (hrow : s.members.find? (org, userId) = some row)
    (howner : row.role = .owner) :
    (s.ownersOf org).length ≤ 1 ↔ ¬ HeldByOther (s.roles org) .owner userId := by
  constructor
  · intro hfew ⟨other, hne, hrole⟩
    obtain ⟨row', hrow', howner'⟩ := Option.map_eq_some_iff.mp hrole
    have hkey := KeyedTable.find?_key hrow
    have hkey' := KeyedTable.find?_key hrow'
    have horg : row.organizationId = org := congrArg Prod.fst hkey
    have horg' : row'.organizationId = org := congrArg Prod.fst hkey'
    have hmany : 1 < (s.ownersOf org).length := by
      refine KeyedTable.one_lt_of_key_ne (KeyedTable.find?_mem hrow) (KeyedTable.find?_mem hrow')
        (by simp [horg, howner]) (by simp [horg', howner']) fun heq => hne ?_
      rw [hkey, hkey'] at heq
      exact congrArg Prod.snd heq
    omega
  · intro hnone
    by_contra hmany
    exact hnone (MemberTables.other_owner (by omega) userId)

theorem InMemoryMemberRepository.owners_le_one_iff {members : KeyedTable MemberRecord.subject}
    {subject : String} {record : MemberRecord} (hrecord : members.find? subject = some record)
    (howner : record.role = .owner) :
    (owners members).length ≤ 1 ↔ ¬ HeldByOther (inMemoryRoles members) .owner subject := by
  constructor
  · intro hfew ⟨other, hne, hrole⟩
    obtain ⟨record', hrecord', howner'⟩ := Option.map_eq_some_iff.mp hrole
    have hmany : 1 < (owners members).length := by
      refine KeyedTable.one_lt_of_key_ne (KeyedTable.find?_mem hrecord)
        (KeyedTable.find?_mem hrecord') (by simp [howner]) (by simp [howner']) fun heq => hne ?_
      rwa [KeyedTable.find?_key hrecord, KeyedTable.find?_key hrecord'] at heq
    omega
  · intro hnone
    by_contra hmany
    exact hnone (inMemory_other_owner (by omega) subject)

/-- The results of one call. -/
inductive SameResult (cmp : RecordComparison) : MemberResult → MemberResult → Prop where
  | member {r r' : MemberRecord} (h : cmp.same r r') : SameResult cmp (.member r) (.member r')
  | done (removed : Bool) : SameResult cmp (.done removed) (.done removed)

/-- What the two repositories answer to one call. -/
inductive SameAnswer (cmp : RecordComparison) :
    Except SessionError MemberResult → Except MembersError MemberResult → Prop where
  | raised (exc : MembersError) : SameAnswer cmp (.error (.raised exc)) (.error exc)
  | returned {r r' : MemberResult} (h : SameResult cmp r r') : SameAnswer cmp (.ok r) (.ok r')

/-- What the code of both repositories makes of one call: the same error, or the
same result and the same memberships. -/
inductive SameOutcome (cmp : RecordComparison) (tenant : MemberTenant) (s : MemberTables) :
    Except MembersError (MemberResult × MemberWrite) →
    Except MembersError (MemberResult × KeyedTable MemberRecord.subject) → Prop where
  | raised (exc : MembersError) : SameOutcome cmp tenant s (.error exc) (.error exc)
  | returned {r r' : MemberResult} {write : MemberWrite}
      {members' : KeyedTable MemberRecord.subject} (hresult : SameResult cmp r r')
      (hnew : ∀ user row, write = .grant user row → s.members.find? row.key = none)
      (hsame : SameMembers cmp tenant (write.apply s) members') :
      SameOutcome cmp tenant s (.ok (r, write)) (.ok (r', members'))

/-- The person has a row in `users`. -/
def MemberTables.Known (s : MemberTables) (userId : Uuid) (subject : String) : Prop :=
  ∃ user ∈ s.users.rows, user.id = userId ∨ user.subject = subject

instance (s : MemberTables) (userId : Uuid) (subject : String) :
    Decidable (s.Known userId subject) :=
  inferInstanceAs (Decidable (∃ user ∈ s.users.rows, user.id = userId ∨ user.subject = subject))

theorem MemberTables.known_iff {s : MemberTables} {userId : Uuid} {subject : String} :
    (s.users.rows.any fun u => u.id = userId || u.subject = subject) = true ↔
      s.Known userId subject := by
  simp [Known]

namespace SameMembers
open PostgresMemberRepository
variable {cmp : RecordComparison} {tenant : MemberTenant} {s : MemberTables}
  {members : KeyedTable MemberRecord.subject}

/-- A new membership of a new person. -/
theorem grant (hids : Function.Injective tenant.stableUserId)
    (h : SameMembers cmp tenant s members) {subject : String} {role : MembershipRole}
    {now : Timestamp} {email displayName : Option String}
    (hrow : s.members.find? (tenant.organizationId, tenant.stableUserId subject) = none)
    (hknown : ¬ s.Known (tenant.stableUserId subject) subject) :
    let user : UserRow := { id := tenant.stableUserId subject, subject, email, displayName }
    SameMembers cmp tenant
      ((MemberWrite.grant user
        { organizationId := tenant.organizationId, userId := tenant.stableUserId subject, role,
          createdAt := now }).apply s)
      (members.insertNew (user.record role now)) := by
  intro user
  have huser : s.users.find? user.id = none :=
    KeyedTable.find?_eq_none_iff.mpr fun u hu hid => hknown ⟨u, hu, .inl hid⟩
  have hsubject : (user.record role now).subject = subject := rfl
  constructor
  · intro other
    rw [KeyedTable.find?_insertNew, hsubject]
    by_cases heq : subject = other
    · subst heq
      rw [h.find?_of_none hrow, if_pos rfl, Option.none_or, getMember_of_rows _ user
        (KeyedTable.find?_insertNew_of_none hrow) (KeyedTable.find?_insertNew_of_none huser)]
      exact .some (cmp.refl _)
    · have hid : user.id ≠ tenant.stableUserId other := fun hid => heq (hids hid)
      rw [if_neg heq, Option.or_none, getMember_congr
        (KeyedTable.find?_insertNew_of_ne _ fun hkey => hid (congrArg Prod.snd hkey))
        (KeyedTable.find?_insertNew_of_ne _ hid)]
      exact h.records other
  · intro userId row hfind
    simp only [MemberWrite.apply] at hfind ⊢
    by_cases hid : user.id = userId
    · subst hid
      exact ⟨user, KeyedTable.find?_insertNew_of_none huser, rfl⟩
    · rw [KeyedTable.find?_insertNew_of_ne _ fun hkey => hid (congrArg Prod.snd hkey)] at hfind
      rw [KeyedTable.find?_insertNew_of_ne _ hid]
      exact h.persons userId row hfind

/-- A new role of a member. -/
theorem setRole (hids : Function.Injective tenant.stableUserId)
    (h : SameMembers cmp tenant s members) (subject : String) (role : MembershipRole) :
    SameMembers cmp tenant
      ((MemberWrite.setRole tenant.organizationId (tenant.stableUserId subject) role).apply s)
      (members.update subject ({ · with role }) (fun _ => rfl)) := by
  constructor
  · intro other
    by_cases heq : other = subject
    · subst heq
      rw [KeyedTable.find?_update, if_pos rfl]
      cases hrow : s.members.find? (tenant.organizationId, tenant.stableUserId other) with
      | none =>
          have hnone := h.find?_of_none hrow
          rw [hnone, Option.map_none, getMember_of_none]
          · exact .none
          · simp only [MemberWrite.apply]
            rw [KeyedTable.find?_update, if_pos rfl, hrow, Option.map_none]
      | some row =>
          obtain ⟨user, record, huser, hfound, hsame⟩ := h.of_row hrow
          have hget : getMember tenant ((MemberWrite.setRole tenant.organizationId
              (tenant.stableUserId other) role).apply s) other =
                some (user.record role row.createdAt) :=
            getMember_of_rows (row.withRole role) user
              (KeyedTable.find?_update_self _ (OrganizationMember.key_withRole role) hrow) huser
          rw [hfound, Option.map_some, hget]
          exact .some (cmp.withRole _ _ role hsame)
    · have hkey : (tenant.organizationId, tenant.stableUserId other) ≠
          (tenant.organizationId, tenant.stableUserId subject) :=
        fun hkey => heq (hids (congrArg Prod.snd hkey))
      have hget : getMember tenant ((MemberWrite.setRole tenant.organizationId
          (tenant.stableUserId subject) role).apply s) other = getMember tenant s other :=
        getMember_congr
          (KeyedTable.find?_update_of_ne _ _ (OrganizationMember.key_withRole role) hkey) rfl
      rw [KeyedTable.find?_update_of_ne _ _ _ heq, hget]
      exact h.records other
  · intro userId row hfind
    simp only [MemberWrite.apply] at hfind
    rw [KeyedTable.find?_update] at hfind
    split at hfind
    · obtain ⟨row', hrow', -⟩ := Option.map_eq_some_iff.mp hfind
      exact h.persons userId row' hrow'
    · exact h.persons userId row hfind

/-- A membership that is taken away. -/
theorem revoke (hids : Function.Injective tenant.stableUserId)
    (h : SameMembers cmp tenant s members) (subject : String) :
    SameMembers cmp tenant
      ((MemberWrite.revoke tenant.organizationId (tenant.stableUserId subject)).apply s)
      (members.deleteWhere (fun m => m.subject = subject)) := by
  constructor
  · intro other
    rw [KeyedTable.find?_deleteKey]
    by_cases heq : other = subject
    · subst heq
      rw [if_pos rfl, getMember_of_none]
      · exact .none
      · simp only [MemberWrite.apply, KeyedTable.find?_deleteKey, if_true]
    · have hkey : (tenant.organizationId, tenant.stableUserId other) ≠
          (tenant.organizationId, tenant.stableUserId subject) :=
        fun hkey => heq (hids (congrArg Prod.snd hkey))
      have hget : getMember tenant ((MemberWrite.revoke tenant.organizationId
          (tenant.stableUserId subject)).apply s) other = getMember tenant s other :=
        getMember_congr (by simp only [MemberWrite.apply, KeyedTable.find?_deleteKey, if_neg hkey])
          rfl
      rw [if_neg heq, hget]
      exact h.records other
  · intro userId row hfind
    simp only [MemberWrite.apply, KeyedTable.find?_deleteKey] at hfind
    split at hfind
    · cases hfind
    · exact h.persons userId row hfind

/-- Both repositories count the owners beside a member alike. -/
theorem owners_le_one_iff (hids : Function.Injective tenant.stableUserId)
    (h : SameMembers cmp tenant s members) {subject : String} {row : OrganizationMember}
    {record : MemberRecord}
    (hrow : s.members.find? (tenant.organizationId, tenant.stableUserId subject) = some row)
    (hfound : members.find? subject = some record) (hrole : record.role = row.role)
    (howner : row.role = .owner) : (s.ownersOf tenant.organizationId).length ≤ 1 ↔
      (InMemoryMemberRepository.owners members).length ≤ 1 := by
  rw [MemberTables.ownersOf_le_one_iff hrow howner,
    InMemoryMemberRepository.owners_le_one_iff hfound (hrole.trans howner), h.other_owner_iff hids]

variable {actor : Option RequestPrincipal} {subject : String}

theorem grantMember (hids : Function.Injective tenant.stableUserId)
    (h : SameMembers cmp tenant s members) {roleText : String} {now : Timestamp}
    {email displayName : Option String}
    (hknown : ∀ role, membershipRole roleText = .ok role →
      s.members.find? (tenant.organizationId, tenant.stableUserId subject) = none →
      ¬ s.Known (tenant.stableUserId subject) subject) :
    SameOutcome cmp tenant s
      ((grantMember tenant s now subject roleText email displayName actor).map
        fun r => (.member r.1, r.2))
      ((InMemoryMemberRepository.grantMember tenant members now subject roleText email displayName
        actor).map fun r => (.member r.1, r.2)) := by
  rw [PostgresMemberRepository.grantMember, InMemoryMemberRepository.grantMember]
  cases hrole : membershipRole roleText with
  | error exc => exact .raised exc
  | ok role =>
      simp only [ok_bind]
      cases checkRole actor role .grantDenied with
      | error exc => exact .raised exc
      | ok _ =>
          cases hrow : s.members.find? (tenant.organizationId, tenant.stableUserId subject) with
          | some row =>
              obtain ⟨user, record, -, hfound, -⟩ := h.of_row hrow
              rw [hfound]
              exact .raised (.existingMember subject)
          | none =>
              have hnew := hknown role hrole hrow
              simp only [h.find?_of_none hrow, MemberTables.known_iff, if_neg hnew,
                Option.isSome_none, Bool.false_eq_true, if_false]
              refine .returned (.member (cmp.refl _)) ?_ (h.grant hids hrow hnew)
              intro user row hwrite
              cases hwrite
              exact hrow

theorem updateMemberRole (hids : Function.Injective tenant.stableUserId)
    (h : SameMembers cmp tenant s members) {roleText : String} :
    SameOutcome cmp tenant s
      ((updateMemberRole tenant s subject roleText actor).map fun r => (.member r.1, r.2))
      ((InMemoryMemberRepository.updateMemberRole members subject roleText actor).map
        fun r => (.member r.1, r.2)) := by
  rw [PostgresMemberRepository.updateMemberRole, InMemoryMemberRepository.updateMemberRole]
  cases hrole : membershipRole roleText with
  | error exc => exact .raised exc
  | ok role =>
      simp only [ok_bind]
      cases hrow : s.members.find? (tenant.organizationId, tenant.stableUserId subject) with
      | none =>
          have hselect : selectMember tenant s (tenant.stableUserId subject) = none := by
            simp [selectMember, hrow]
          rw [hselect, h.find?_of_none hrow]
          exact .raised (.notFound subject)
      | some row =>
          obtain ⟨user, record, huser, hfound, hsame⟩ := h.of_row hrow
          have hselect : selectMember tenant s (tenant.stableUserId subject) =
            some (user, row) := by
            simp [selectMember, hrow, huser]
          have hcurrent : record.role = row.role := cmp.role _ _ hsame
          rw [hselect, hfound]
          simp only [hcurrent]
          cases checkRole actor row.role .changeDenied with
          | error exc => exact .raised exc
          | ok _ =>
              cases checkRole actor role .concedeDenied with
              | error exc => exact .raised exc
              | ok _ =>
                  have hiff : (row.role = .owner ∧ role ≠ .owner ∧
                      (s.ownersOf tenant.organizationId).length ≤ 1) ↔
                      (row.role = .owner ∧ role ≠ .owner ∧
                        (InMemoryMemberRepository.owners members).length ≤ 1) :=
                    and_congr_right fun howner => and_congr_right fun _ =>
                      h.owners_le_one_iff hids hrow hfound hcurrent howner
                  simp only [ok_bind, hiff]
                  split
                  · exact .raised .lastOwnerDemoted
                  · refine .returned (.member (cmp.withRole _ _ role hsame)) ?_
                      (h.setRole hids subject role)
                    intro user row hwrite
                    cases hwrite

theorem revokeMember (hids : Function.Injective tenant.stableUserId)
    (h : SameMembers cmp tenant s members) :
    SameOutcome cmp tenant s
      ((revokeMember tenant s subject actor).map fun r => (.done r.1, r.2))
      ((InMemoryMemberRepository.revokeMember members subject actor).map
        fun r => (.done r.1, r.2)) := by
  simp only [PostgresMemberRepository.revokeMember, InMemoryMemberRepository.revokeMember]
  cases hrow : s.members.find? (tenant.organizationId, tenant.stableUserId subject) with
  | none =>
      rw [h.find?_of_none hrow]
      exact .raised (.notFound subject)
  | some row =>
      obtain ⟨user, record, huser, hfound, hsame⟩ := h.of_row hrow
      have hcurrent : record.role = row.role := cmp.role _ _ hsame
      rw [hfound]
      simp only [hcurrent]
      cases checkRole actor row.role .revokeDenied with
      | error exc => exact .raised exc
      | ok _ =>
          have hiff : (row.role = .owner ∧ (s.ownersOf tenant.organizationId).length ≤ 1) ↔
              (row.role = .owner ∧ (InMemoryMemberRepository.owners members).length ≤ 1) :=
            and_congr_right fun howner => h.owners_le_one_iff hids hrow hfound hcurrent howner
          simp only [ok_bind, hiff]
          split
          · exact .raised .lastOwnerRevoked
          · refine .returned (.done true) ?_ (h.revoke hids subject)
            intro user row hwrite
            cases hwrite

end SameMembers

namespace PostgresMemberRepository
variable {tenant : MemberTenant} {s : MemberTables} {subject roleText : String}
  {role : MembershipRole} {now : Timestamp} {email displayName : Option String}
  {actor : Option RequestPrincipal}

theorem grantMember_of_new (hrole : membershipRole roleText = .ok role)
    (hcheck : checkRole actor role .grantDenied = .ok ())
    (hrow : s.members.find? (tenant.organizationId, tenant.stableUserId subject) = none)
    (hknown : ¬ s.Known (tenant.stableUserId subject) subject) :
    let user : UserRow := { id := tenant.stableUserId subject, subject, email, displayName }
    grantMember tenant s now subject roleText email displayName actor =
      .ok (user.record role now, .grant user
        { organizationId := tenant.organizationId, userId := tenant.stableUserId subject, role,
          createdAt := now }) := by
  simp only [grantMember, hrole, hcheck, ok_bind, hrow, MemberTables.known_iff, if_neg hknown,
    Option.isSome_none, Bool.false_eq_true, if_false, pure_eq]

/-- The failed insert of the user has aborted the transaction. -/
theorem grantMember_of_known (hrole : membershipRole roleText = .ok role)
    (hcheck : checkRole actor role .grantDenied = .ok ())
    (hrow : s.members.find? (tenant.organizationId, tenant.stableUserId subject) = none)
    (hknown : s.Known (tenant.stableUserId subject) subject) :
    grantMember tenant s now subject roleText email displayName actor =
      .error .transactionAborted := by
  simp only [grantMember, hrole, hcheck, ok_bind, hrow, MemberTables.known_iff, if_pos hknown,
    Option.isSome_none, Bool.false_eq_true, if_false]

end PostgresMemberRepository

namespace MemberCall
open PostgresMemberRepository

/-- The call grants a role to a person who is no member and has a row in `users`. -/
def GrantsKnownPerson (s : MemberTables) (c : MemberCall) : Prop :=
  match c.op with
  | .grantMember subject roleText _ _ =>
      (MembershipRole.ofText? roleText).isSome = true ∧
        s.roles c.tenant.organizationId (c.tenant.stableUserId subject) = none ∧
        s.Known (c.tenant.stableUserId subject) subject
  | _ => False

instance (s : MemberTables) : (c : MemberCall) → Decidable (c.GrantsKnownPerson s)
  | ⟨_, _, _, .grantMember _ _ _ _⟩ => inferInstanceAs (Decidable (_ ∧ _ ∧ _))
  | ⟨_, _, _, .updateMemberRole _ _⟩ => inferInstanceAs (Decidable False)
  | ⟨_, _, _, .revokeMember _⟩ => inferInstanceAs (Decidable False)

theorem grantsKnownPerson_iff {s : MemberTables} {c : MemberCall} :
    c.GrantsKnownPerson s ↔ ∃ subject roleText email displayName role,
      c.op = .grantMember subject roleText email displayName ∧ membershipRole roleText = .ok role ∧
      s.members.find? (c.tenant.organizationId, c.tenant.stableUserId subject) = none ∧
      s.Known (c.tenant.stableUserId subject) subject := by
  rw [GrantsKnownPerson]
  cases hop : c.op with
  | grantMember subject roleText email displayName =>
      simp only [MemberTables.roles, Option.map_eq_none_iff]
      constructor
      · rintro ⟨hrole, hrow, hperson⟩
        obtain ⟨role, hrole⟩ := Option.isSome_iff_exists.mp hrole
        exact ⟨subject, roleText, email, displayName, role, rfl, by rw [membershipRole, hrole],
          hrow,
          hperson⟩
      · rintro ⟨subject', roleText', email', displayName', role, hsame, hrole, hrow, hperson⟩
        cases hsame
        refine ⟨?_, hrow, hperson⟩
        cases hfound : MembershipRole.ofText? roleText with
        | none => simp [membershipRole, hfound] at hrole
        | some found => rfl
  | updateMemberRole subject roleText => simp
  | revokeMember subject => simp

end MemberCall

/-- A valid grant to a person who is no member succeeds and makes the person one. -/
def GrantSucceeds (e : Machine.Event MemberTables MemberCall (Except SessionError MemberResult)) :
    Prop :=
  ∀ subject roleText email displayName role,
    e.input.op = .grantMember subject roleText email displayName →
    membershipRole roleText = .ok role →
    e.before.members.find?
      (e.input.tenant.organizationId, e.input.tenant.stableUserId subject) = none →
    ∃ record, e.reply = .ok (.member record) ∧ record.subject = subject ∧ record.role = role ∧
      PostgresMemberRepository.getMember e.input.tenant e.after subject = some record

namespace ByOwner
open PostgresMemberRepository
variable {cmp : RecordComparison} {tenant : MemberTenant} {s : MemberTables}
  {members : KeyedTable MemberRecord.subject} {c : MemberCall}

theorem postgres_of_error (hc : ByOwner tenant s c) {exc : MembersError}
    (h : c.outcome s = .error exc) : c.postgres s = (.error (.raised exc), s) := by
  rw [MemberCall.postgres, hc.lockable, h]

theorem postgres_of_ok (hc : ByOwner tenant s c) {result : MemberResult} {write : MemberWrite}
    (h : c.outcome s = .ok (result, write))
    (hnew : ∀ user row, write = .grant user row → s.members.find? row.key = none) :
    c.postgres s = (.ok result, write.apply s) := by
  rw [MemberCall.postgres, hc.lockable, h]
  simp only [hc.checkPolicies hnew]

theorem injective (hc : ByOwner tenant s c) (hids : Function.Injective tenant.stableUserId) :
    Function.Injective c.tenant.stableUserId := by
  intro subject other heq
  rw [hc.stableUserId, hc.stableUserId] at heq
  exact hids heq

/-- A call of an owner, unless it grants a membership to a known person. -/
theorem outcome (hc : ByOwner tenant s c) (hids : Function.Injective tenant.stableUserId)
    (h : SameMembers cmp tenant s members) (hknown : ¬ c.GrantsKnownPerson s) :
    SameOutcome cmp c.tenant s (c.outcome s) (c.dictionaryOutcome members) := by
  have hids' := hc.injective hids
  have h' := h.of_organization hc.organization
  rw [MemberCall.outcome, MemberCall.dictionaryOutcome]
  cases hop : c.op with
  | grantMember subject roleText email displayName =>
      refine h'.grantMember hids' fun role hrole hrow hperson => hknown ?_
      exact MemberCall.grantsKnownPerson_iff.mpr
        ⟨subject, roleText, email, displayName, role, hop, hrole, hrow, hperson⟩
  | updateMemberRole subject roleText => exact h'.updateMemberRole hids'
  | revokeMember subject => exact h'.revokeMember hids'

theorem answer (hc : ByOwner tenant s c) (hids : Function.Injective tenant.stableUserId)
    (h : SameMembers cmp tenant s members) (hknown : ¬ c.GrantsKnownPerson s) :
    SameAnswer cmp (c.postgres s).1 (c.dictionary members).1 ∧
      SameMembers cmp tenant (c.postgres s).2 (c.dictionary members).2 := by
  have houtcome := hc.outcome hids h hknown
  rw [MemberCall.dictionary]
  cases hpostgres : c.outcome s with
  | error exc =>
      rw [hpostgres] at houtcome
      rw [hc.postgres_of_error hpostgres]
      cases hdictionary : c.dictionaryOutcome members with
      | error exc' =>
          rw [hdictionary] at houtcome
          cases houtcome
          exact ⟨.raised exc, h⟩
      | ok r' =>
          rw [hdictionary] at houtcome
          cases houtcome
  | ok r =>
      rw [hpostgres] at houtcome
      cases hdictionary : c.dictionaryOutcome members with
      | error exc' =>
          rw [hdictionary] at houtcome
          cases houtcome
      | ok r' =>
          rw [hdictionary] at houtcome
          cases houtcome with
          | returned hresult hnew hsame =>
              rw [hc.postgres_of_ok hpostgres hnew]
              exact ⟨.returned hresult, hsame.of_organization hc.organization.symm⟩

/-- A grant to a known person fails in PostgreSQL. -/
theorem aborted_of_known (hc : ByOwner tenant s c) (hknown : c.GrantsKnownPerson s) :
    c.postgres s = (.error (.raised .transactionAborted), s) := by
  obtain ⟨subject, roleText, email, displayName, role, hop, hrole, hrow, hperson⟩ :=
    MemberCall.grantsKnownPerson_iff.mp hknown
  refine hc.postgres_of_error ?_
  simp only [MemberCall.outcome, hop]
  rw [grantMember_of_known hrole (hc.checkRole role _) hrow hperson]
  rfl

/-- It succeeds in memory. -/
theorem granted_of_known (hc : ByOwner tenant s c) (h : SameMembers cmp tenant s members)
    (hknown : c.GrantsKnownPerson s) : ∃ result, (c.dictionary members).1 = .ok result := by
  obtain ⟨subject, roleText, email, displayName, role, hop, hrole, hrow, -⟩ :=
    MemberCall.grantsKnownPerson_iff.mp hknown
  have hnone := (h.of_organization hc.organization).find?_of_none hrow
  simp only [MemberCall.dictionary, MemberCall.dictionaryOutcome, hop,
    InMemoryMemberRepository.grantMember, hrole, hc.checkRole, ok_bind, hnone, Option.isSome_none,
    Bool.false_eq_true, if_false]
  exact ⟨_, rfl⟩

theorem not_sameAnswer (hc : ByOwner tenant s c) (h : SameMembers cmp tenant s members)
    (hknown : c.GrantsKnownPerson s) :
    ¬ SameAnswer cmp (c.postgres s).1 (c.dictionary members).1 := by
  obtain ⟨result, hresult⟩ := hc.granted_of_known h hknown
  rw [hc.aborted_of_known hknown, hresult]
  intro hsame
  cases hsame

/-- Any other valid grant to a person who is no member succeeds. -/
theorem grantSucceeds (hc : ByOwner tenant s c) (hknown : ¬ c.GrantsKnownPerson s) :
    GrantSucceeds (Machine.event MemberCall.postgres s c) := by
  intro subject roleText email displayName role hgrant hrole hnone
  have hop : c.op = .grantMember subject roleText email displayName := hgrant
  have hrow : s.members.find? (c.tenant.organizationId, c.tenant.stableUserId subject) = none :=
    hnone
  have hperson : ¬ s.Known (c.tenant.stableUserId subject) subject := fun hperson =>
    hknown (MemberCall.grantsKnownPerson_iff.mpr
      ⟨subject, roleText, email, displayName, role, hop, hrole, hrow, hperson⟩)
  have huser : s.users.find? (c.tenant.stableUserId subject) = none :=
    KeyedTable.find?_eq_none_iff.mpr fun u hu hid => hperson ⟨u, hu, .inl hid⟩
  let user : UserRow := { id := c.tenant.stableUserId subject, subject, email, displayName }
  let row : OrganizationMember :=
    { organizationId := c.tenant.organizationId, userId := c.tenant.stableUserId subject, role,
      createdAt := c.now }
  have houtcome : c.outcome s = .ok (.member (user.record role c.now), .grant user row) := by
    simp only [MemberCall.outcome, hop]
    rw [grantMember_of_new hrole (hc.checkRole role _) hrow hperson]
    rfl
  have hpostgres := hc.postgres_of_ok houtcome fun _ _ hwrite => by
    cases hwrite
    exact hrow
  refine ⟨user.record role c.now, congrArg Prod.fst hpostgres, rfl, rfl, ?_⟩
  have hafter : (Machine.event MemberCall.postgres s c).after =
      (MemberWrite.grant user row).apply s :=
    congrArg Prod.snd hpostgres
  rw [hafter]
  exact getMember_of_rows row user (KeyedTable.find?_insertNew_of_none hrow)
    (KeyedTable.find?_insertNew_of_none huser)

end ByOwner

/-- What the two repositories owe a sequence of calls: the same answers, the same
memberships in the end, and every valid grant to a person who is no member. -/
structure MembersAgree (cmp : RecordComparison) (tenant : MemberTenant) (s : MemberTables)
    (members : KeyedTable MemberRecord.subject) (calls : List MemberCall) : Prop where
  alike : Lockstep.Agree MemberCall.postgres MemberCall.dictionary (SameAnswer cmp)
    (SameMembers cmp tenant) s members calls
  granted : ∀ e ∈ Machine.log MemberCall.postgres s calls, GrantSucceeds e

section Histories
variable {cmp : RecordComparison} {tenant : MemberTenant} {s : MemberTables}
  {members : KeyedTable MemberRecord.subject} {calls : List MemberCall}

theorem alike_iff (hids : Function.Injective tenant.stableUserId)
    (h : SameMembers cmp tenant s members)
    (hcalls : Machine.Guarded MemberCall.postgres (ByOwner tenant) s calls) :
    Lockstep.Agree MemberCall.postgres MemberCall.dictionary (SameAnswer cmp)
        (SameMembers cmp tenant) s members calls ↔
      Machine.Guarded MemberCall.postgres (fun s c => ¬ c.GrantsKnownPerson s) s calls :=
  Lockstep.agree_iff_guarded MemberCall.postgres MemberCall.dictionary
    (fun _ _ _ hs hc hknown => hc.answer hids hs hknown)
    (fun _ _ _ hs hc hsame hknown => hc.not_sameAnswer hs hknown hsame) h hcalls

/-- The repositories agree on a history exactly when none of its calls grants a
membership to a person who is no member and has a row in `users`. -/
theorem members_agree_iff (hids : Function.Injective tenant.stableUserId)
    (h : SameMembers cmp tenant s members)
    (hcalls : Machine.Guarded MemberCall.postgres (ByOwner tenant) s calls) :
    MembersAgree cmp tenant s members calls ↔
      Machine.Guarded MemberCall.postgres (fun s c => ¬ c.GrantsKnownPerson s) s calls := by
  refine ⟨fun hagree => (alike_iff hids h hcalls).mp hagree.alike, fun hguarded => ?_⟩
  refine ⟨(alike_iff hids h hcalls).mpr hguarded, ?_⟩
  intro e he
  obtain ⟨pre, c, post, -, rfl⟩ := (Machine.mem_log MemberCall.postgres).mp he
  exact (hcalls _ he).grantSucceeds (hguarded _ he)

end Histories

/-- `ensure_tenant` of a new tenant. -/
def ensureTenant (tenant : MemberTenant) (now : Timestamp) (s : MemberTables) : MemberTables :=
  { s with
    users := s.users.insertNew { id := tenant.userId, subject := tenant.userSubject }
    members := s.members.insertNew
      { organizationId := tenant.organizationId, userId := tenant.userId, role := .owner,
        createdAt := now } }

theorem find?_ensureTenant_users (tenant : MemberTenant) (now : Timestamp) :
    (ensureTenant tenant now .empty).users.find? tenant.userId =
      some { id := tenant.userId, subject := tenant.userSubject } := by
  simp [ensureTenant, MemberTables.empty, KeyedTable.find?_insertNew]

theorem find?_ensureTenant_members (tenant : MemberTenant) (now : Timestamp) (userId : Uuid) :
    (ensureTenant tenant now .empty).members.find? (tenant.organizationId, userId) =
      if tenant.userId = userId then
        some { organizationId := tenant.organizationId, userId := tenant.userId, role := .owner,
               createdAt := now }
      else none := by
  simp [ensureTenant, MemberTables.empty, KeyedTable.find?_insertNew, OrganizationMember.key]

/-- A new organization has the same member in both repositories. -/
theorem sameMembers_ensureTenant (t : TextRules) {tenant : MemberTenant}
    (hids : Function.Injective tenant.stableUserId)
    (huser : tenant.userId = tenant.stableUserId tenant.userSubject)
    (hrole : tenant.role = some .owner) (now now' : Timestamp) :
    SameMembers .membership tenant (ensureTenant tenant now .empty)
      (getInMemoryMemberRepository t now' tenant .empty) := by
  constructor
  · intro subject
    rw [getInMemoryMemberRepository, KeyedTable.find?_insertNew, KeyedTable.find?_empty,
      Option.none_or]
    by_cases heq : tenant.userSubject = subject
    · subst heq
      have hrow := find?_ensureTenant_members tenant now (tenant.stableUserId tenant.userSubject)
      have hperson := find?_ensureTenant_users tenant now
      rw [if_pos huser] at hrow
      rw [huser] at hperson
      rw [PostgresMemberRepository.getMember_of_rows _ _ hrow hperson, if_pos rfl]
      exact .some ⟨huser, huser, rfl, by rw [hrole]; rfl⟩
    · have hrow := find?_ensureTenant_members tenant now (tenant.stableUserId subject)
      rw [if_neg fun hid => heq (hids (huser.symm.trans hid))] at hrow
      rw [PostgresMemberRepository.getMember_of_none hrow, if_neg heq]
      exact .none
  · intro userId row hfind
    rw [find?_ensureTenant_members] at hfind
    split at hfind
    · rename_i hid
      subst hid
      exact ⟨_, find?_ensureTenant_users tenant now, huser⟩
    · cases hfind

/-- An organization with the owner `alice`. -/
def aliceTenant : MemberTenant where
  organizationId := "7d1f2a60-4c38-4f7e-9b0a-2f6d5c1e8a90"
  uuid5 := id
  organizationSlug := "acme"
  userId := "https://ugc-orchestrator.local/tenancy/user/alice"
  userSubject := "alice"
  role := some .owner

theorem aliceTenant_injective : Function.Injective aliceTenant.stableUserId := by
  intro subject other h
  have hlist := congrArg String.toList h
  simp only [MemberTenant.stableUserId, aliceTenant, id, String.toList_append,
    List.append_cancel_left_eq] at hlist
  exact String.toList_injective hlist

/-- The call of `alice` as an owner. -/
def aliceCall (op : MemberOp) : MemberCall where
  tenant := aliceTenant
  actor := some { userId := aliceTenant.userId, role := .owner }
  now := 2
  op := op

def aliceRules : TextRules := ⟨id, id, id⟩

theorem byOwner_aliceCall {s : MemberTables} {op : MemberOp}
    (h : PostgresMemberRepository.currentActorRole aliceTenant s = some .owner) :
    ByOwner aliceTenant s (aliceCall op) where
  organization := rfl
  owner := h
  actor _ hprincipal := by
    cases hprincipal
    rfl

/-- Every call is made while `alice` is an owner. -/
theorem guarded_aliceCalls {s : MemberTables} {ops : List MemberOp}
    (h : Machine.Guarded MemberCall.postgres
      (fun s _ => PostgresMemberRepository.currentActorRole aliceTenant s = some .owner) s
      (ops.map aliceCall)) :
    Machine.Guarded MemberCall.postgres (ByOwner aliceTenant) s (ops.map aliceCall) := by
  intro e he
  obtain ⟨pre, c, post, hcalls, rfl⟩ := (Machine.mem_log MemberCall.postgres).mp he
  have hc : c ∈ ops.map aliceCall := by simp [hcalls]
  obtain ⟨op, -, rfl⟩ := List.mem_map.mp hc
  exact byOwner_aliceCall (h _ he)

def aliceTables : MemberTables := ensureTenant aliceTenant 1 .empty

def aliceMembers : KeyedTable MemberRecord.subject :=
  getInMemoryMemberRepository aliceRules 1 aliceTenant .empty

theorem sameMembers_alice : SameMembers .membership aliceTenant aliceTables aliceMembers :=
  sameMembers_ensureTenant aliceRules aliceTenant_injective rfl rfl 1 1

theorem members_agree_until_revoked :
    MembersAgree .membership aliceTenant aliceTables aliceMembers
      ([.grantMember "bob" "member" none none, .updateMemberRole "bob" "admin",
        .revokeMember "bob"].map aliceCall) :=
  (members_agree_iff aliceTenant_injective sameMembers_alice
    (guarded_aliceCalls (by decide +kernel))).mpr (by decide +kernel)

/-- A person whose membership was revoked cannot get one again. -/
theorem revoked_member_not_regranted :
    ¬ ∀ (tenant : MemberTenant) (s : MemberTables) (members : KeyedTable MemberRecord.subject)
      (calls : List MemberCall), Function.Injective tenant.stableUserId →
      SameMembers .membership tenant s members →
      Machine.Guarded MemberCall.postgres (ByOwner tenant) s calls →
      MembersAgree .membership tenant s members calls := by
  intro hall
  let calls := [.grantMember "bob" "member" none none, .revokeMember "bob",
    .grantMember "bob" "member" none none].map aliceCall
  have hcalls : Machine.Guarded MemberCall.postgres (ByOwner aliceTenant) aliceTables calls :=
    guarded_aliceCalls (by decide +kernel)
  have hagree := hall aliceTenant aliceTables aliceMembers calls aliceTenant_injective
    sameMembers_alice hcalls
  have hguarded := (alike_iff aliceTenant_injective sameMembers_alice hcalls).mp hagree.alike
  exact absurd hguarded (by decide +kernel)

end Orchestrator
