import Orchestrator.Db.Effects
import Orchestrator.Lib.Machine

/-!
What one committed ledger call can do.

`Change` lists the possible effects of a call on the two tables, with the guards
that admitted it; every invariant of the ledger is a case analysis on it. The
release of quota is singled out: only `mark_failed` with `release_quota=True`,
applied to a reserved effect, lowers a counter.
-/

namespace Orchestrator

namespace Ledger

@[simp] theorem effect?_updateQuota (s : Ledger) (org : OrganizationId) (provider : String)
    (set : Quota → Quota) (hset : ∀ q, (set q).key = q.key) (org' : OrganizationId)
    (key : String) :
    (s.updateQuota org provider set hset).effect? org' key = s.effect? org' key := rfl

@[simp] theorem quota?_updateEffect (s : Ledger) (org : OrganizationId) (key : String)
    (set : Effect → Effect) (hset : ∀ row, (set row).key = row.key)
    (org' : OrganizationId) (provider : String) :
    (s.updateEffect org key set hset).quota? org' provider = s.quota? org' provider := rfl

@[simp] theorem effects_updateEffect (s : Ledger) (org : OrganizationId) (key : String)
    (set : Effect → Effect) (hset : ∀ row, (set row).key = row.key) :
    (s.updateEffect org key set hset).effects = s.effects.update (org, key) set hset := rfl

@[simp] theorem effect?_addUsed (s : Ledger) (org : OrganizationId) (provider : String)
    (units : Int) (org' : OrganizationId) (key : String) :
    (s.addUsed org provider units).effect? org' key = s.effect? org' key := rfl

theorem effect?_updateEffect (s : Ledger) (org : OrganizationId) (key : String)
    (set : Effect → Effect) (hset : ∀ row, (set row).key = row.key)
    (org' : OrganizationId) (key' : String) :
    (s.updateEffect org key set hset).effect? org' key' =
      if (org', key') = (org, key) then (s.effect? org' key').map set
      else s.effect? org' key' :=
  KeyedTable.find?_update s.effects (org, key) (org', key') set hset

theorem effect?_updateEffect_self {s : Ledger} {org : OrganizationId} {key : String}
    {row : Effect} (set : Effect → Effect) (hset : ∀ row, (set row).key = row.key)
    (h : s.effect? org key = some row) :
    (s.updateEffect org key set hset).effect? org key = some (set row) :=
  KeyedTable.find?_update_self set hset h

theorem quota?_updateQuota (s : Ledger) (org : OrganizationId) (provider : String)
    (set : Quota → Quota) (hset : ∀ q, (set q).key = q.key)
    (org' : OrganizationId) (provider' : String) :
    (s.updateQuota org provider set hset).quota? org' provider' =
      if (org', provider') = (org, provider) then (s.quota? org' provider').map set
      else s.quota? org' provider' :=
  KeyedTable.find?_update s.quotas (org, provider) (org', provider') set hset

theorem quota?_isSome_updateQuota (s : Ledger) (org : OrganizationId) (provider : String)
    (set : Quota → Quota) (hset : ∀ q, (set q).key = q.key)
    (org' : OrganizationId) (provider' : String) :
    ((s.updateQuota org provider set hset).quota? org' provider').isSome =
      (s.quota? org' provider').isSome := by
  rw [quota?_updateQuota]
  split <;> simp

theorem effectIn?_eq_some_iff {s : Ledger} {org : OrganizationId} {key : String}
    {status : EffectStatus} {row : Effect} :
    s.effectIn? org key status = some row ↔
      s.effect? org key = some row ∧ row.status = status := by
  rw [effectIn?, Option.filter_eq_some_iff, decide_eq_true_iff]

theorem effectIn?_of_ne {s : Ledger} {org : OrganizationId} {key : String} {row : Effect}
    (hrow : s.effect? org key = some row) {status : EffectStatus} (hne : row.status ≠ status) :
    s.effectIn? org key status = none := by
  rw [effectIn?, Option.filter_eq_none_iff]
  intro row' hrow'
  rw [← Option.some.inj (hrow.symm.trans hrow')]
  simpa using hne

end Ledger

/-- The columns that identify and price an effect never change. -/
structure SameEffect (e e' : Effect) : Prop where
  organizationId : e'.organizationId = e.organizationId
  effectKey : e'.effectKey = e.effectKey
  runId : e'.runId = e.runId
  provider : e'.provider = e.provider
  units : e'.units = e.units
  request : e'.request = e.request

theorem SameEffect.refl (e : Effect) : SameEffect e e := ⟨rfl, rfl, rfl, rfl, rfl, rfl⟩

inductive StatusStep : EffectStatus → EffectStatus → Prop where
  | refl (status : EffectStatus) : StatusStep status status
  | marked : StatusStep .reserved .uncertain
  | completed : StatusStep .reserved .succeeded
  | refused : StatusStep .reserved .failed
  | bound : StatusStep .uncertain .reserved
  | reconciled : StatusStep .uncertain .succeeded

/-- A failed effect stays failed. -/
theorem StatusStep.failed_of_failed {status status' : EffectStatus}
    (h : StatusStep status status') (hfailed : status = .failed) : status' = .failed := by
  cases h with
  | refl => exact hfailed
  | marked | completed | refused | bound | reconciled => cases hfailed

/-- What an update may do to the columns that record the progress of an effect. -/
structure RowStep (e e' : Effect) : Prop where
  status : StatusStep e.status e'.status
  operationId : e'.providerOperationId = e.providerOperationId ∨
    ∃ id, id ≠ "" ∧ e'.providerOperationId = some id

/-- The effect whose transition to failed this call makes with
`release_quota=True`, if it makes one. -/
def LedgerCall.releases : LedgerCall → Ledger → Option (OrganizationId × String)
  | .effect org (.markFailed key _ true _), s =>
      (s.effectIn? org key .reserved).map Effect.key
  | _, _ => none

inductive Change (s : Ledger) : LedgerCall → Ledger → Prop where
  | same {c} (hrel : c.releases s = none) : Change s c s
  | newQuota {org provider limitUnits quotas} (hlimit : 0 ≤ limitUnits)
      (h : s.quotas.insert? { organizationId := org, provider, limitUnits } = some quotas) :
      Change s (.setQuota org provider limitUnits) { s with quotas }
  | limit {org provider limitUnits q} (hq : s.quota? org provider = some q)
      (hused : q.usedUnits ≤ limitUnits) :
      Change s (.setQuota org provider limitUnits)
        (s.updateQuota org provider (fun q => { q with limitUnits }) (fun _ => rfl))
  | reserved {org key runId provider units request q effects} (hunits : 0 < units)
      (hq : s.quota? org provider = some q) (hlimit : q.usedUnits + units ≤ q.limitUnits)
      (h : s.effects.insert?
        { organizationId := org, effectKey := key, runId, provider, units,
          status := .reserved, request } = some effects) :
      Change s (.effect org (.reserve key runId provider units request))
        (({ s with effects } : Ledger).addUsed org provider units)
  | row {org op key set row} (hop : op.effectKey = key) (hset : ∀ e, SameEffect e (set e))
      (hkey : ∀ e, (set e).key = e.key)
      (hrow : s.effect? org key = some row) (hstep : RowStep row (set row))
      (hrel : (LedgerCall.effect org op).releases s = none) :
      Change s (.effect org op) (s.updateEffect org key set hkey)
  | released {org key error errorType set row} (hset : ∀ e, SameEffect e (set e))
      (hkey : ∀ e, (set e).key = e.key)
      (hrow : s.effectIn? org key .reserved = some row) (hstatus : (set row).status = .failed)
      (hid : (set row).providerOperationId = row.providerOperationId) :
      Change s (.effect org (.markFailed key error true errorType))
        ((s.updateEffect org key set hkey).addUsed org row.provider (-row.units))

namespace PostgresEffectLedger
variable {org : OrganizationId} {s s' : Ledger} {reply : EffectReservation}

theorem get_change {key : String} (h : get org key s = .ok (reply, s')) :
    Change s (.effect org (.get key)) s' := by
  unfold get at h
  split at h
  · cases h
  · cases h
    exact .same rfl

theorem setQuota_change {provider : String} {limitUnits : Int} {u : Unit}
    (h : setQuota org provider limitUnits s = .ok (u, s')) :
    Change s (.setQuota org provider limitUnits) s' := by
  unfold setQuota at h
  split at h
  · cases h
  rename_i hlimit
  split at h
  · rename_i quotas hins
    cases h
    exact .newQuota (Int.not_lt.mp hlimit) hins
  split at h
  · cases h
  · rename_i q hq
    cases h
    obtain ⟨hq, hused⟩ := Option.filter_eq_some_iff.mp hq
    exact .limit hq (of_decide_eq_true hused)

theorem reserve_change {key runId provider : String} {units : Int} {request : Json}
    (h : reserve org key runId provider units request s = .ok (reply, s')) :
    Change s (.effect org (.reserve key runId provider units request)) s' := by
  unfold reserve at h
  split at h
  · cases h
  rename_i hunits
  split at h
  · cases h
  rename_i q hq
  split at h
  · dsimp only at h
    split at h
    · cases h
    split at h
    · cases h
    · cases h
      exact .same rfl
  split at h
  · cases h
  rename_i hlimit
  split at h
  · cases h
  · rename_i effects hins
    cases h
    exact .reserved (Int.not_le.mp hunits) hq (Int.not_lt.mp hlimit) hins

/-- The reservation that reports itself created inserted the row. -/
theorem reserve_created {key runId provider : String} {units : Int} {request : Json}
    (h : reserve org key runId provider units request s = .ok (reply, s'))
    (hcreated : reply.created = true) :
    reply.status = .reserved ∧ s.effect? org key = none ∧
      ∃ row, s'.effect? org key = some row ∧ row.status = .reserved ∧ 0 < row.units ∧
        (s'.quota? org row.provider).isSome := by
  unfold reserve at h
  split at h
  · cases h
  rename_i hunits
  split at h
  · cases h
  rename_i q hq
  split at h
  · dsimp only at h
    split at h
    · cases h
    split at h
    · cases h
    · cases h
      cases hcreated
  rename_i hnone
  split at h
  · cases h
  split at h
  · cases h
  · rename_i effects hins
    cases h
    refine ⟨rfl, hnone, _, (KeyedTable.find?_insert hins (org, key)).trans (if_pos rfl), rfl,
      Int.not_le.mp hunits, ?_⟩
    rw [Ledger.addUsed, Ledger.quota?_isSome_updateQuota]
    exact Option.isSome_iff_exists.mpr ⟨q, hq⟩

theorem markUncertain_change {key error : String} {errorType : Option String}
    (h : markUncertain org key error errorType s = .ok (reply, s')) :
    Change s (.effect org (.markUncertain key error errorType)) s' := by
  unfold markUncertain at h
  dsimp only at h
  split at h
  · rename_i row hrow
    cases h
    obtain ⟨hrow, hstatus⟩ := Ledger.effectIn?_eq_some_iff.mp hrow
    exact .row rfl (by intro; constructor <;> rfl) _ hrow
      ⟨by rw [hstatus]; exact .marked, Or.inl rfl⟩ rfl
  split at h
  · cases h
  · cases h
    exact .same rfl

theorem bindProviderOperation_change {key operationId status : String}
    (h : bindProviderOperation org key operationId status s = .ok (reply, s')) :
    Change s (.effect org (.bindProviderOperation key operationId status)) s' := by
  unfold bindProviderOperation at h
  dsimp only at h
  split at h
  · cases h
  rename_i hid
  split at h
  · cases h
  rename_i current hrow
  split at h
  · cases h
  split at h
  · cases h
  split at h
  · cases h
  · cases h
    refine .row rfl (by intro; constructor <;> rfl) _ hrow ⟨?_, Or.inr ⟨_, hid, rfl⟩⟩ rfl
    dsimp only
    split
    · rename_i huncertain
      exact huncertain ▸ .bound
    · exact .refl _

theorem updateProviderStatus_change {key status : String} {errorType : Option String}
    (h : updateProviderStatus org key status errorType s = .ok (reply, s')) :
    Change s (.effect org (.updateProviderStatus key status errorType)) s' := by
  unfold updateProviderStatus at h
  split at h
  · cases h
  rename_i current hrow
  split at h
  · cases h
  · cases h
    exact .row rfl (by intro; constructor <;> rfl) _ hrow ⟨.refl _, Or.inl rfl⟩ rfl

theorem markSucceeded_change {key : String} {result : Json}
    (h : markSucceeded org key result s = .ok (reply, s')) :
    Change s (.effect org (.markSucceeded key result)) s' := by
  unfold markSucceeded at h
  dsimp only at h
  split at h
  · rename_i row hrow
    cases h
    obtain ⟨hrow, hstatus⟩ := Ledger.effectIn?_eq_some_iff.mp hrow
    exact .row rfl (by intro; constructor <;> rfl) _ hrow
      ⟨by rw [hstatus]; exact .completed, Or.inl rfl⟩ rfl
  split at h
  · cases h
  split at h
  · cases h
  · cases h
    exact .same rfl

theorem markFailed_change {key error : String} {releaseQuota : Bool}
    {errorType : Option String}
    (h : markFailed org key error releaseQuota errorType s = .ok (reply, s')) :
    Change s (.effect org (.markFailed key error releaseQuota errorType)) s' := by
  unfold markFailed at h
  dsimp only at h
  split at h
  · rename_i row hrow
    obtain ⟨hfound, hstatus⟩ := Ledger.effectIn?_eq_some_iff.mp hrow
    cases releaseQuota with
    | true =>
        cases h
        exact .released (by intro; constructor <;> rfl) _ hrow rfl rfl
    | false =>
        cases h
        exact .row rfl (by intro; constructor <;> rfl) _ hfound
          ⟨by rw [hstatus]; exact .refused, Or.inl rfl⟩ rfl
  rename_i hnone
  split at h
  · cases h
  split at h
  · cases h
  · cases h
    refine .same ?_
    cases releaseQuota with
    | true => simp [LedgerCall.releases, hnone]
    | false => rfl

theorem markReconciled_change {key : String} {result : Json}
    (h : markReconciled org key result s = .ok (reply, s')) :
    Change s (.effect org (.markReconciled key result)) s' := by
  unfold markReconciled at h
  dsimp only at h
  split at h
  · rename_i row hrow
    cases h
    obtain ⟨hrow, hstatus⟩ := Ledger.effectIn?_eq_some_iff.mp hrow
    exact .row rfl (by intro; constructor <;> rfl) _ hrow
      ⟨by rw [hstatus]; exact .reconciled, Or.inl rfl⟩ rfl
  · cases h

end PostgresEffectLedger

open PostgresEffectLedger in
theorem LedgerCall.transact_change {c : LedgerCall} {s s' : Ledger} {value : c.Value}
    (h : c.transact s = .ok (value, s')) : Change s c s' := by
  cases c with
  | setQuota org provider limitUnits => exact setQuota_change h
  | effect org op =>
      cases op with
      | get key => exact get_change h
      | reserve key runId provider units request => exact reserve_change h
      | markUncertain key error errorType => exact markUncertain_change h
      | bindProviderOperation key operationId status => exact bindProviderOperation_change h
      | updateProviderStatus key status errorType => exact updateProviderStatus_change h
      | markSucceeded key result => exact markSucceeded_change h
      | markFailed key error releaseQuota errorType => exact markFailed_change h
      | markReconciled key result => exact markReconciled_change h

/-- A release always commits: its guard is the call's own. -/
theorem LedgerCall.transact_of_releases {c : LedgerCall} {s : Ledger}
    {k : OrganizationId × String} (h : c.releases s = some k) :
    ∃ value s', c.transact s = .ok (value, s') := by
  cases c with
  | setQuota org provider limitUnits => cases h
  | effect org op =>
      cases op with
      | markFailed key error releaseQuota errorType =>
          cases releaseQuota with
          | false => cases h
          | true =>
              obtain ⟨row, hrow, -⟩ := Option.map_eq_some_iff.mp h
              simp only [transact, EffectOp.transact, PostgresEffectLedger.markFailed, hrow]
              exact ⟨_, _, rfl⟩
      | _ => cases h

namespace LedgerCall

@[simp] theorem step_snd (c : LedgerCall) (s : Ledger) : (c.step s).2 = (c.apply s).2 := by
  unfold step
  split <;> rename_i h <;> rw [h]

theorem apply_of_error {c : LedgerCall} {s : Ledger} {exc : LedgerError}
    (h : (c.apply s).1 = .error exc) : (c.apply s).2 = s := by
  unfold apply at h ⊢
  split
  · rename_i hok
    rw [hok] at h
    cases h
  · rfl

theorem apply_of_ok {c : LedgerCall} {s : Ledger} {value : c.Value}
    (h : (c.apply s).1 = .ok value) : c.transact s = .ok (value, (c.apply s).2) := by
  unfold apply at h ⊢
  split
  · rename_i hok
    rw [hok] at h
    cases h
    exact hok
  · rename_i hok
    rw [hok] at h
    cases h

theorem step_of_error {c : LedgerCall} {s : Ledger} {exc : LedgerError}
    (h : (c.step s).1 = some exc) : (c.step s).2 = s := by
  rw [step_snd]
  unfold step at h
  split at h
  · cases h
  · rename_i exc' s' happly
    exact apply_of_error (congrArg Prod.fst happly)

/-- A call that raises leaves the ledger as it was, and releases nothing. -/
theorem change_or_unchanged (c : LedgerCall) (s : Ledger) : Change s c (c.apply s).2 := by
  cases h : (c.apply s).1 with
  | ok value => exact transact_change (apply_of_ok h)
  | error exc =>
      rw [apply_of_error h]
      refine .same ?_
      by_contra hrel
      obtain ⟨k, hk⟩ := Option.ne_none_iff_exists'.mp hrel
      obtain ⟨value, s', hok⟩ := transact_of_releases hk
      rw [apply, hok] at h
      cases h

end LedgerCall

/-- A replayed `reserve` touches nothing, whatever it answers. -/
theorem LedgerCall.apply_reserve_of_present {s : Ledger} {org : OrganizationId} {key : String}
    {row : Effect} (h : s.effect? org key = some row) (runId provider : String) (units : Int)
    (request : Json) :
    (LedgerCall.apply (.effect org (.reserve key runId provider units request)) s).2 = s := by
  simp only [LedgerCall.apply, LedgerCall.transact, EffectOp.transact,
    PostgresEffectLedger.reserve, h]
  split
  · rename_i hok
    split at hok
    · cases hok
    split at hok
    · cases hok
    split at hok
    · cases hok
    split at hok
    · cases hok
    · cases hok
      rfl
  · rfl

/-- A replay with the arguments of the reservation is answered from the row. -/
theorem LedgerCall.apply_reserve_same {s : Ledger} {org : OrganizationId} {row : Effect}
    (hrow : s.effect? org row.effectKey = some row) (hunits : 0 < row.units)
    (hquota : (s.quota? org row.provider).isSome) :
    LedgerCall.apply (.effect org
        (.reserve row.effectKey row.runId row.provider row.units row.request)) s =
      (if row.status = .uncertain then
        .error (.uncertainEffect ("efeito incerto " ++ PyStr.repr row.effectKey ++
          " exige reconciliação"))
      else .ok (reservation row false), s) := by
  obtain ⟨q, hq⟩ := Option.isSome_iff_exists.mp hquota
  simp only [LedgerCall.apply, LedgerCall.transact, EffectOp.transact,
    PostgresEffectLedger.reserve, hrow, hq, if_neg (Int.not_le.mpr hunits), reservation,
    ne_eq, not_true, if_false]
  by_cases hstatus : row.status = .uncertain <;> simp [hstatus]

/-- `mark_failed` on an effect that left `reserved` before touches nothing. -/
theorem LedgerCall.apply_markFailed_of_not_reserved {s : Ledger} {org : OrganizationId}
    {key : String}
    (h : s.effectIn? org key .reserved = none) (error : String) (releaseQuota : Bool)
    (errorType : Option String) :
    (LedgerCall.apply (.effect org (.markFailed key error releaseQuota errorType)) s).2 = s := by
  simp only [LedgerCall.apply, LedgerCall.transact, EffectOp.transact,
    PostgresEffectLedger.markFailed, h]
  split
  · rename_i hok
    split at hok
    · cases hok
    split at hok
    · cases hok
    · cases hok
      rfl
  · rfl

section Completion
variable {s : Ledger} {org : OrganizationId} {key : String} {row : Effect}

theorem LedgerCall.apply_markSucceeded_reserved (hrow : s.effect? org key = some row)
    (hstatus : row.status = .reserved) (result : Json) :
    let c := LedgerCall.effect org (.markSucceeded key result)
    ∃ reply row', (c.apply s).1 = .ok reply ∧ (c.apply s).2.effect? org key = some row' ∧
      SameEffect row row' ∧ row'.status = .succeeded ∧ row'.result = some result := by
  intro c
  have hin : s.effectIn? org key .reserved = some row :=
    Ledger.effectIn?_eq_some_iff.mpr ⟨hrow, hstatus⟩
  simp only [c, apply, transact, EffectOp.transact, PostgresEffectLedger.markSucceeded, hin]
  refine ⟨_, _, rfl, Ledger.effect?_updateEffect_self _ _ hrow, ?_, rfl, rfl⟩
  constructor <;> rfl

/-- An uncertain effect cannot be completed. -/
theorem LedgerCall.apply_markSucceeded_uncertain (hrow : s.effect? org key = some row)
    (hstatus : row.status = .uncertain) (result : Json) :
    let c := LedgerCall.effect org (.markSucceeded key result)
    (∃ message, (c.apply s).1 = .error (.uncertainEffect message)) ∧ (c.apply s).2 = s := by
  intro c
  have hin : s.effectIn? org key .reserved = none :=
    Ledger.effectIn?_of_ne hrow (by simp [hstatus])
  simp only [c, apply, transact, EffectOp.transact, PostgresEffectLedger.markSucceeded, hin,
    hrow, hstatus]
  exact ⟨⟨_, rfl⟩, rfl⟩

theorem LedgerCall.apply_markSucceeded_succeeded (hrow : s.effect? org key = some row)
    (hstatus : row.status = .succeeded) (result : Json) :
    let c := LedgerCall.effect org (.markSucceeded key result)
    (∃ reply, (c.apply s).1 = .ok reply) ∧ (c.apply s).2 = s := by
  intro c
  have hin : s.effectIn? org key .reserved = none :=
    Ledger.effectIn?_of_ne hrow (by simp [hstatus])
  simp only [c, apply, transact, EffectOp.transact, PostgresEffectLedger.markSucceeded, hin,
    hrow, hstatus]
  exact ⟨⟨_, rfl⟩, rfl⟩

theorem LedgerCall.apply_get (hrow : s.effect? org key = some row) :
    LedgerCall.apply (.effect org (.get key)) s = (.ok (reservation row false), s) := by
  simp only [apply, transact, EffectOp.transact, PostgresEffectLedger.get, hrow]

theorem mergeProviderStatus_succeeded (current : Option PredictionStatus) :
    ∃ merged, mergeProviderStatus current "succeeded" = .ok merged := by
  have hparse : PredictionStatus.ofText? (PyStr.lower (PyStr.strip "succeeded")) =
      some .succeeded := by decide
  unfold mergeProviderStatus
  dsimp only
  rw [hparse]
  cases current with
  | none => exact ⟨_, rfl⟩
  | some current =>
      dsimp only
      split
      · exact ⟨_, rfl⟩
      · exact ⟨_, rfl⟩

/-- A report of success moves no effect from its status. -/
theorem LedgerCall.apply_updateProviderStatus_succeeded (hrow : s.effect? org key = some row)
    (errorType : Option String) :
    let c := LedgerCall.effect org (.updateProviderStatus key "succeeded" errorType)
    ∃ reply row', (c.apply s).1 = .ok reply ∧ (c.apply s).2.effect? org key = some row' ∧
      row'.status = row.status := by
  intro c
  obtain ⟨merged, hmerged⟩ := mergeProviderStatus_succeeded row.providerStatus
  simp only [c, apply, transact, EffectOp.transact, PostgresEffectLedger.updateProviderStatus,
    hrow, hmerged]
  exact ⟨_, _, rfl, Ledger.effect?_updateEffect_self _ _ hrow, rfl⟩

end Completion

/-- Only `reserve` reports a reservation as created. -/
def LedgerCall.CreatedByReserve : (c : LedgerCall) → Except LedgerError c.Value → Prop
  | .effect _ (.reserve ..), _ => True
  | .effect _ _, .ok reservation => EffectReservation.created reservation = false
  | _, _ => True

theorem EffectOp.created_eq_false {op : EffectOp} {org : OrganizationId} {s s' : Ledger}
    {reply : EffectReservation} (h : op.transact org s = .ok (reply, s'))
    (hop : ∀ key runId provider units request,
      op ≠ .reserve key runId provider units request) : reply.created = false := by
  cases op with
  | reserve key runId provider units request =>
      exact absurd rfl (hop key runId provider units request)
  | get key =>
      dsimp only [transact, PostgresEffectLedger.get] at h
      split at h <;> cases h
      rfl
  | markUncertain key error errorType =>
      dsimp only [transact, PostgresEffectLedger.markUncertain] at h
      split at h
      · cases h
        rfl
      · split at h <;> cases h
        rfl
  | bindProviderOperation key operationId status =>
      dsimp only [transact, PostgresEffectLedger.bindProviderOperation] at h
      split at h
      · cases h
      split at h
      · cases h
      split at h
      · cases h
      split at h
      · cases h
      split at h <;> cases h
      rfl
  | updateProviderStatus key status errorType =>
      dsimp only [transact, PostgresEffectLedger.updateProviderStatus] at h
      split at h
      · cases h
      · split at h <;> cases h
        rfl
  | markSucceeded key result =>
      dsimp only [transact, PostgresEffectLedger.markSucceeded] at h
      split at h
      · cases h
        rfl
      · split at h
        · cases h
        · split at h <;> cases h
          rfl
  | markFailed key error releaseQuota errorType =>
      dsimp only [transact, PostgresEffectLedger.markFailed] at h
      split at h
      · cases h
        rfl
      · split at h
        · cases h
        · split at h <;> cases h
          rfl
  | markReconciled key result =>
      dsimp only [transact, PostgresEffectLedger.markReconciled] at h
      split at h <;> cases h
      rfl

theorem LedgerCall.createdByReserve_apply (c : LedgerCall) (s : Ledger) :
    c.CreatedByReserve (c.apply s).1 := by
  cases c with
  | setQuota org provider limitUnits => trivial
  | effect org op =>
      cases h : ((LedgerCall.effect org op).apply s).1 with
      | error exc => cases op <;> trivial
      | ok reservation =>
          have hok : op.transact org s = .ok (reservation, _) := apply_of_ok h
          cases op with
          | reserve => trivial
          | _ => exact EffectOp.created_eq_false hok (by intros; simp)

/-- Operation ids are bound stripped and non-empty. -/
def BoundIds (s : Ledger) : Prop :=
  ∀ e ∈ s.effects.rows, e.providerOperationId ≠ some ""

theorem BoundIds.update {s : Ledger} (h : BoundIds s) {org : OrganizationId} {key : String}
    {set : Effect → Effect} (hkey : ∀ e, (set e).key = e.key) {row : Effect}
    (hrow : s.effect? org key = some row) (hset : (set row).providerOperationId ≠ some "") :
    BoundIds (s.updateEffect org key set hkey) := by
  intro e he
  obtain ⟨e₀, he₀, rfl⟩ := List.mem_map.mp he
  split
  · rename_i hk
    have hfound := KeyedTable.find?_of_mem he₀
    rw [of_decide_eq_true hk] at hfound
    obtain rfl : row = e₀ := Option.some.inj (hrow.symm.trans hfound)
    exact hset
  · exact h e₀ he₀

theorem BoundIds.change {s s' : Ledger} {c : LedgerCall} (h : BoundIds s)
    (hc : Change s c s') : BoundIds s' := by
  cases hc with
  | same | newQuota _ _ | limit _ _ => exact h
  | reserved _ _ _ hins =>
      intro e he
      have he : e ∈ s.effects.rows ++ [_] := KeyedTable.rows_insert hins ▸ he
      rcases List.mem_append.mp he with he | he
      · exact h e he
      · rw [List.mem_singleton.mp he]
        nofun
  | row _ _ hkey hrow hstep _ =>
      refine h.update hkey hrow ?_
      rcases hstep.operationId with hsame | ⟨id, hid, hbound⟩
      · rw [hsame]
        exact h _ (KeyedTable.find?_mem hrow)
      · rw [hbound]
        exact fun heq => hid (Option.some.inj heq)
  | released _ hkey hrow _ hsame =>
      have hfound := (Ledger.effectIn?_eq_some_iff.mp hrow).1
      refine h.update hkey hfound ?_
      rw [hsame]
      exact h _ (KeyedTable.find?_mem hfound)

theorem boundIds_run (calls : List LedgerCall) :
    BoundIds (Machine.run LedgerCall.step Ledger.empty calls) := by
  have hstep : ∀ s (c : LedgerCall), BoundIds s → BoundIds (c.step s).2 := by
    intro s c h
    rw [LedgerCall.step_snd]
    exact h.change (c.change_or_unchanged s)
  exact Machine.run_invariant LedgerCall.step hstep (fun _ he => absurd he List.not_mem_nil) calls

/-- A call touches the row of no other effect. -/
theorem Change.effect?_of_ne {s s' : Ledger} {c : LedgerCall} (h : Change s c s')
    {org : OrganizationId} {key : String}
    (hne : ∀ op, c = .effect org op → op.effectKey ≠ key) :
    s'.effect? org key = s.effect? org key := by
  have hother : ∀ {ledger : OrganizationId} {op : EffectOp},
      c = .effect ledger op → ¬ (org, key) = (ledger, op.effectKey) := by
    rintro ledger op hc ⟨⟩
    exact hne op hc rfl
  cases h with
  | same | newQuota _ _ | limit _ _ => rfl
  | reserved _ _ _ hins =>
      rw [Ledger.effect?_addUsed]
      change KeyedTable.find? _ _ = _
      rw [KeyedTable.find?_insert hins, if_neg (fun heq => hother rfl heq.symm)]
      rfl
  | row hop hset hkey hrow _ _ =>
      subst hop
      rw [Ledger.effect?_updateEffect, if_neg (hother rfl)]
  | released hset hkey hrow _ _ =>
      rw [Ledger.effect?_addUsed, Ledger.effect?_updateEffect]
      exact if_neg (hother rfl)

theorem Change.quota?_isSome {s s' : Ledger} {c : LedgerCall} (h : Change s c s')
    {org : OrganizationId} {provider : String} (hsome : (s.quota? org provider).isSome) :
    (s'.quota? org provider).isSome := by
  cases h with
  | same | row _ _ _ _ _ _ => exact hsome
  | newQuota _ hins =>
      change (KeyedTable.find? _ _).isSome
      rw [KeyedTable.find?_insert hins]
      split
      · rfl
      · exact hsome
  | limit _ _ =>
      rw [Ledger.quota?_isSome_updateQuota]
      exact hsome
  | reserved _ _ _ _ | released _ _ _ _ _ =>
      rw [Ledger.addUsed, Ledger.quota?_isSome_updateQuota]
      exact hsome

/-- Rows of effects are never deleted. -/
theorem Change.effect?_isSome {s s' : Ledger} {c : LedgerCall} (h : Change s c s')
    {org : OrganizationId} {key : String} (hsome : (s.effect? org key).isSome) :
    (s'.effect? org key).isSome := by
  cases h with
  | same | newQuota _ _ | limit _ _ => exact hsome
  | reserved _ _ _ hins =>
      rw [Ledger.effect?_addUsed]
      change (KeyedTable.find? _ _).isSome
      rw [KeyedTable.find?_insert hins]
      split
      · rfl
      · exact hsome
  | row _ hset hkey hrow _ _ =>
      rw [Ledger.effect?_updateEffect]
      split <;> simpa using hsome
  | released hset hkey hrow _ _ =>
      rw [Ledger.effect?_addUsed, Ledger.effect?_updateEffect]
      split <;> simpa using hsome

end Orchestrator
