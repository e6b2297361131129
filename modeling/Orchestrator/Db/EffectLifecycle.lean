import Orchestrator.Db.EffectTransitions

/-!
The state machine of a paid effect.

`EffectStep` lists what one committed call may do to the row of one effect. The
call, the status it met and the status it leaves determine each other, except
for the calls that leave the status alone. Succeeded and failed rows are met by
none of the calls that move a status.
-/

namespace Orchestrator

namespace Effect

def markedUncertain (error : String) (errorType : Option String) (row : Effect) : Effect :=
  { row with
    status := .uncertain
    error := some (PyStr.prefixTo 2000 error)
    errorType := setErrorType errorType row.errorType }

def bound (operationId : String) (merged : PredictionStatus) (row : Effect) : Effect :=
  { row with
    providerOperationId := some operationId
    providerStatus := some merged
    status := if row.status = .uncertain then .reserved else row.status }

def reported (merged : PredictionStatus) (errorType : Option String) (row : Effect) : Effect :=
  { row with
    providerStatus := some merged
    errorType := setErrorType errorType row.errorType }

def markedSucceeded (result : Json) (row : Effect) : Effect :=
  { row with
    status := .succeeded
    result := some result
    providerStatus := some .succeeded }

def markedFailed (error : String) (errorType : Option String) (row : Effect) : Effect :=
  { row with
    status := .failed
    error := some (PyStr.prefixTo 2000 error)
    errorType := setErrorType errorType row.errorType }

end Effect

/-- The effect rows a call may insert. -/
inductive NewEffect : LedgerCall → Effect → Prop where
  | reserved {org : OrganizationId} {key runId provider : String} {units : Int} {request : Json}
      (hunits : 0 < units) :
      NewEffect (.effect org (.reserve key runId provider units request))
        { organizationId := org, effectKey := key, runId, provider, units,
          status := .reserved, request }

/-- The moves of an effect row. -/
inductive EffectStep (s : Ledger) : LedgerCall → Effect → Effect → Prop where
  | markedUncertain {error : String} {errorType : Option String} {row : Effect}
      (hstatus : row.status = .reserved) :
      EffectStep s
        (.effect row.organizationId (.markUncertain row.effectKey error errorType)) row
        (row.markedUncertain error errorType)
  | bound {operationId status : String} {merged : PredictionStatus} {row : Effect}
      (hid : row.providerOperationId = none ∨
        row.providerOperationId = some (PyStr.strip operationId))
      (hfree : ∀ other ∈ s.effects.rows, other.organizationId = row.organizationId →
        other.provider = row.provider →
        other.providerOperationId = some (PyStr.strip operationId) →
        other.effectKey = row.effectKey)
      (hmerged : mergeProviderStatus row.providerStatus status = .ok merged) :
      EffectStep s
        (.effect row.organizationId (.bindProviderOperation row.effectKey operationId status)) row
        (row.bound (PyStr.strip operationId) merged)
  | reported {status : String} {errorType : Option String} {merged : PredictionStatus}
      {row : Effect} (hmerged : mergeProviderStatus row.providerStatus status = .ok merged) :
      EffectStep s
        (.effect row.organizationId (.updateProviderStatus row.effectKey status errorType)) row
        (row.reported merged errorType)
  | markedSucceeded {result : Json} {row : Effect} (hstatus : row.status = .reserved) :
      EffectStep s (.effect row.organizationId (.markSucceeded row.effectKey result)) row
        (row.markedSucceeded result)
  | markedFailed {error : String} {releaseQuota : Bool} {errorType : Option String}
      {row : Effect} (hstatus : row.status = .reserved) :
      EffectStep s
        (.effect row.organizationId (.markFailed row.effectKey error releaseQuota errorType)) row
        (row.markedFailed error errorType)
  | reconciled {result : Json} {row : Effect} (hstatus : row.status = .uncertain) :
      EffectStep s (.effect row.organizationId (.markReconciled row.effectKey result)) row
        (row.markedSucceeded result)

/-- What a call does to the table of effects. -/
abbrev EffectChange (s : Ledger) (c : LedgerCall) (s' : Ledger) : Prop :=
  s.effects.Change (NewEffect c) (EffectStep s c) s'.effects

theorem Ledger.effect?_key {s : Ledger} {org : OrganizationId} {key : String} {row : Effect}
    (h : s.effect? org key = some row) : row.organizationId = org ∧ row.effectKey = key :=
  Prod.mk.inj (KeyedTable.find?_key (t := s.effects) h)

theorem Ledger.effect?_of_mem {s : Ledger} {row : Effect} (h : row ∈ s.effects.rows) :
    s.effect? row.organizationId row.effectKey = some row :=
  KeyedTable.find?_of_mem h

namespace PostgresEffectLedger
variable {org : OrganizationId} {key : String} {s s' : Ledger} {reply : EffectReservation}

theorem effectChange_updated {c : LedgerCall} {row : Effect} (set : Effect → Effect)
    (hkey : ∀ e, (set e).key = e.key) (hrow : s.effect? org key = some row)
    (hstep : EffectStep s c row (set row)) :
    EffectChange s c (s.updateEffect org key set hkey) :=
  KeyedTable.Change.update (t := s.effects) hkey hrow hstep

theorem reserve_effects {runId provider : String} {units : Int} {request : Json}
    (h : reserve org key runId provider units request s = .ok (reply, s')) :
    EffectChange s (.effect org (.reserve key runId provider units request)) s' := by
  unfold reserve at h
  split at h
  · cases h
  rename_i hunits
  split at h
  · cases h
  split at h
  · dsimp only at h
    split at h
    · cases h
    split at h
    · cases h
    · cases h
      exact .unchanged
  split at h
  · cases h
  split at h
  · cases h
  · rename_i effects hins
    cases h
    exact .inserted hins (.reserved (Int.not_le.mp hunits))

theorem markUncertain_effects {error : String} {errorType : Option String}
    (h : markUncertain org key error errorType s = .ok (reply, s')) :
    EffectChange s (.effect org (.markUncertain key error errorType)) s' := by
  unfold markUncertain at h
  dsimp only at h
  split at h
  · rename_i row hrow
    cases h
    obtain ⟨hrow, hstatus⟩ := Ledger.effectIn?_eq_some_iff.mp hrow
    obtain ⟨rfl, rfl⟩ := Ledger.effect?_key hrow
    exact effectChange_updated _ _ hrow (.markedUncertain hstatus)
  split at h
  · cases h
  · cases h
    exact .unchanged

theorem bindProviderOperation_effects {operationId status : String}
    (h : bindProviderOperation org key operationId status s = .ok (reply, s')) :
    EffectChange s (.effect org (.bindProviderOperation key operationId status)) s' := by
  unfold bindProviderOperation at h
  dsimp only at h
  split at h
  · cases h
  split at h
  · cases h
  rename_i current hrow
  split at h
  · cases h
  rename_i hbound
  split at h
  · cases h
  rename_i hfree
  split at h
  · cases h
  · rename_i merged hmerged
    cases h
    obtain ⟨rfl, rfl⟩ := Ledger.effect?_key hrow
    refine effectChange_updated _ _ hrow (.bound ?_ ?_ hmerged)
    · by_contra hother
      exact hbound (not_or.mp hother)
    · intro other hother horg hprovider hid
      by_contra hne
      refine hfree (List.any_eq_true.mpr ⟨other, hother, ?_⟩)
      simp [horg, hprovider, hid, hne]

theorem updateProviderStatus_effects {status : String} {errorType : Option String}
    (h : updateProviderStatus org key status errorType s = .ok (reply, s')) :
    EffectChange s (.effect org (.updateProviderStatus key status errorType)) s' := by
  unfold updateProviderStatus at h
  split at h
  · cases h
  rename_i current hrow
  split at h
  · cases h
  · rename_i merged hmerged
    cases h
    obtain ⟨rfl, rfl⟩ := Ledger.effect?_key hrow
    exact effectChange_updated _ _ hrow (.reported hmerged)

theorem markSucceeded_effects {result : Json}
    (h : markSucceeded org key result s = .ok (reply, s')) :
    EffectChange s (.effect org (.markSucceeded key result)) s' := by
  unfold markSucceeded at h
  dsimp only at h
  split at h
  · rename_i row hrow
    cases h
    obtain ⟨hrow, hstatus⟩ := Ledger.effectIn?_eq_some_iff.mp hrow
    obtain ⟨rfl, rfl⟩ := Ledger.effect?_key hrow
    exact effectChange_updated _ _ hrow (.markedSucceeded hstatus)
  split at h
  · cases h
  split at h
  · cases h
  · cases h
    exact .unchanged

theorem markFailed_effects {error : String} {releaseQuota : Bool} {errorType : Option String}
    (h : markFailed org key error releaseQuota errorType s = .ok (reply, s')) :
    EffectChange s (.effect org (.markFailed key error releaseQuota errorType)) s' := by
  unfold markFailed at h
  dsimp only at h
  split at h
  · rename_i row hrow
    cases h
    obtain ⟨hrow, hstatus⟩ := Ledger.effectIn?_eq_some_iff.mp hrow
    obtain ⟨rfl, rfl⟩ := Ledger.effect?_key hrow
    have hstep : EffectStep s
        (.effect row.organizationId (.markFailed row.effectKey error releaseQuota errorType)) row
        (row.markedFailed error errorType) := .markedFailed hstatus
    have hmarked := effectChange_updated (Effect.markedFailed error errorType) (fun _ => rfl)
      hrow hstep
    cases releaseQuota <;> exact hmarked
  split at h
  · cases h
  split at h
  · cases h
  · cases h
    exact .unchanged

theorem markReconciled_effects {result : Json}
    (h : markReconciled org key result s = .ok (reply, s')) :
    EffectChange s (.effect org (.markReconciled key result)) s' := by
  unfold markReconciled at h
  dsimp only at h
  split at h
  · rename_i row hrow
    cases h
    obtain ⟨hrow, hstatus⟩ := Ledger.effectIn?_eq_some_iff.mp hrow
    obtain ⟨rfl, rfl⟩ := Ledger.effect?_key hrow
    exact effectChange_updated _ _ hrow (.reconciled hstatus)
  · cases h

theorem get_effects (h : get org key s = .ok (reply, s')) : s'.effects = s.effects := by
  unfold get at h
  split at h <;> cases h
  rfl

theorem setQuota_effects {provider : String} {limitUnits : Int} {u : Unit}
    (h : setQuota org provider limitUnits s = .ok (u, s')) : s'.effects = s.effects := by
  cases setQuota_change h <;> rfl

end PostgresEffectLedger

open PostgresEffectLedger in
/-- Every call changes the table of effects only in the listed ways. -/
theorem LedgerCall.apply_effects (c : LedgerCall) (s : Ledger) :
    EffectChange s c (c.apply s).2 := by
  cases h : (c.apply s).1 with
  | error exc =>
      rw [apply_of_error h]
      exact .unchanged
  | ok value =>
      have h := apply_of_ok h
      cases c with
      | setQuota org provider limitUnits =>
          rw [EffectChange, setQuota_effects h]
          exact .unchanged
      | effect org op =>
          cases op with
          | get key =>
              rw [EffectChange, get_effects h]
              exact .unchanged
          | reserve key runId provider units request => exact reserve_effects h
          | markUncertain key error errorType => exact markUncertain_effects h
          | bindProviderOperation key operationId status => exact bindProviderOperation_effects h
          | updateProviderStatus key status errorType => exact updateProviderStatus_effects h
          | markSucceeded key result => exact markSucceeded_effects h
          | markFailed key error releaseQuota errorType => exact markFailed_effects h
          | markReconciled key result => exact markReconciled_effects h

/-- The status changes, each with the call that makes it. -/
inductive StatusMove : LedgerCall → Effect → Effect → Prop where
  | kept {c : LedgerCall} {e e' : Effect} (h : e'.status = e.status) : StatusMove c e e'
  | marked {e e' : Effect} {error : String} {errorType : Option String}
      (h : e.status = .reserved) (h' : e'.status = .uncertain) :
      StatusMove (.effect e.organizationId (.markUncertain e.effectKey error errorType)) e e'
  | completed {e e' : Effect} {result : Json} (h : e.status = .reserved)
      (h' : e'.status = .succeeded) :
      StatusMove (.effect e.organizationId (.markSucceeded e.effectKey result)) e e'
  | refused {e e' : Effect} {error : String} {releaseQuota : Bool} {errorType : Option String}
      (h : e.status = .reserved) (h' : e'.status = .failed) :
      StatusMove (.effect e.organizationId (.markFailed e.effectKey error releaseQuota errorType))
        e e'
  | bound {e e' : Effect} {operationId status : String} (h : e.status = .uncertain)
      (h' : e'.status = .reserved)
      (hid : e'.providerOperationId = some (PyStr.strip operationId)) :
      StatusMove (.effect e.organizationId (.bindProviderOperation e.effectKey operationId status))
        e e'
  | reconciled {e e' : Effect} {result : Json} (h : e.status = .uncertain)
      (h' : e'.status = .succeeded) :
      StatusMove (.effect e.organizationId (.markReconciled e.effectKey result)) e e'

namespace EffectStep
variable {s : Ledger} {c : LedgerCall} {e e' : Effect}

theorem key (h : EffectStep s c e e') : e'.key = e.key := by
  cases h <;> rfl

theorem provider (h : EffectStep s c e e') : e'.provider = e.provider := by
  cases h <;> rfl

/-- The call is one on this effect. -/
theorem call (h : EffectStep s c e e') :
    ∃ op : EffectOp, c = .effect e.organizationId op ∧ op.effectKey = e.effectKey := by
  cases h <;> exact ⟨_, rfl, rfl⟩

theorem statusMove (h : EffectStep s c e e') : StatusMove c e e' := by
  cases h with
  | markedUncertain hstatus => exact .marked hstatus rfl
  | bound hid hfree hmerged =>
      by_cases huncertain : e.status = .uncertain
      · exact .bound huncertain (if_pos huncertain) rfl
      · exact .kept (if_neg huncertain)
  | reported hmerged => exact .kept rfl
  | markedSucceeded hstatus => exact .completed hstatus rfl
  | markedFailed hstatus => exact .refused hstatus rfl
  | reconciled hstatus => exact .reconciled hstatus rfl

/-- An operation id that is bound stays. -/
theorem operationId (h : EffectStep s c e e') {id : String}
    (hid : e.providerOperationId = some id) :
    e'.providerOperationId = some id := by
  cases h with
  | bound hbound hfree hmerged =>
      rcases hbound with hnone | hsame
      · rw [hnone] at hid
        cases hid
      · exact hsame.symm.trans hid
  | markedUncertain | reported | markedSucceeded | markedFailed | reconciled => exact hid

/-- An operation id that was not there before is no other effect's. -/
theorem operationId_free (h : EffectStep s c e e') {id : String}
    (hid : e'.providerOperationId = some id) :
    e.providerOperationId = some id ∨ ∀ other ∈ s.effects.rows,
      other.organizationId = e.organizationId → other.provider = e.provider →
        other.providerOperationId = some id → other.effectKey = e.effectKey := by
  cases h with
  | bound hbound hfree hmerged =>
      cases hid
      exact Or.inr hfree
  | markedUncertain | reported | markedSucceeded | markedFailed | reconciled => exact Or.inl hid

end EffectStep

theorem StatusMove.absorbing {c : LedgerCall} {e e' : Effect} (h : StatusMove c e e')
    (hended : e.status = .succeeded ∨ e.status = .failed) : e'.status = e.status := by
  cases h with
  | kept h => exact h
  | marked h | completed h | refused h | bound h | reconciled h => simp [h] at hended

theorem mergeProviderStatus_terminal {p merged : PredictionStatus} {incoming : String}
    (h : mergeProviderStatus (some p) incoming = .ok merged) (hp : p.terminal) : merged = p := by
  unfold mergeProviderStatus at h
  dsimp only at h
  split at h
  · cases h
  · rw [if_pos hp] at h
    cases h
    rfl

/-- A succeeded effect has its result and the status that goes with it. -/
def Effect.Consistent (e : Effect) : Prop :=
  e.status = .succeeded → e.result ≠ none ∧ e.providerStatus = some .succeeded

theorem EffectStep.consistent {s : Ledger} {c : LedgerCall} {e e' : Effect}
    (h : EffectStep s c e e') (he : e.Consistent) : e'.Consistent := by
  intro hstatus
  cases h with
  | markedUncertain | markedFailed => cases hstatus
  | markedSucceeded | reconciled => exact ⟨by simp [Effect.markedSucceeded], rfl⟩
  | reported hmerged =>
      obtain ⟨hresult, hprovider⟩ := he hstatus
      rw [hprovider] at hmerged
      exact ⟨hresult, congrArg some (mergeProviderStatus_terminal hmerged rfl)⟩
  | bound hbound hfree hmerged =>
      have hended : e.status = .succeeded := by
        simp only [Effect.bound] at hstatus
        split at hstatus
        · cases hstatus
        · exact hstatus
      obtain ⟨hresult, hprovider⟩ := he hended
      rw [hprovider] at hmerged
      exact ⟨hresult, congrArg some (mergeProviderStatus_terminal hmerged rfl)⟩

def AllConsistent (s : Ledger) : Prop := ∀ e ∈ s.effects.rows, e.Consistent

theorem AllConsistent.apply {s : Ledger} (h : AllConsistent s) (c : LedgerCall) :
    AllConsistent (c.apply s).2 := by
  refine (c.apply_effects s).forall_rows ?_ (fun e e' he hstep => hstep.consistent he) h
  intro e hnew hstatus
  cases hnew
  cases hstatus

/-- No operation of a provider is bound to two effects of an organization. -/
def DistinctOperations (s : Ledger) : Prop :=
  ∀ e ∈ s.effects.rows, ∀ e' ∈ s.effects.rows, e'.organizationId = e.organizationId →
    e'.provider = e.provider → ∀ id, e.providerOperationId = some id →
      e'.providerOperationId = some id → e' = e

theorem DistinctOperations.apply {s : Ledger} (h : DistinctOperations s) (c : LedgerCall) :
    DistinctOperations (c.apply s).2 := by
  have hchange := c.apply_effects s
  -- the row before the call: it carried the id, or the call bound it to a free one
  have horigin {e' : Effect} (he' : e' ∈ (c.apply s).2.effects.rows) {id : String}
      (hid : e'.providerOperationId = some id) :
      ∃ e ∈ s.effects.rows, e'.key = e.key ∧ e'.provider = e.provider ∧
        (e.providerOperationId = some id ∨
          (∃ op : EffectOp, c = .effect e.organizationId op ∧ op.effectKey = e.effectKey) ∧
          ∀ other ∈ s.effects.rows, other.organizationId = e.organizationId →
            other.provider = e.provider → other.providerOperationId = some id →
              other.effectKey = e.effectKey) := by
    rcases hchange.find?_backward (KeyedTable.find?_of_mem he') with
      ⟨-, hnew⟩ | ⟨e, he, rfl | hstep⟩
    · cases hnew
      cases hid
    · exact ⟨_, KeyedTable.find?_mem he, rfl, rfl, Or.inl hid⟩
    · refine ⟨e, KeyedTable.find?_mem he, hstep.key, hstep.provider, ?_⟩
      rcases hstep.operationId_free hid with hold | hfree
      · exact Or.inl hold
      · exact Or.inr ⟨hstep.call, hfree⟩
  intro e₁' he₁' e₂' he₂' horg hprovider id hid₁ hid₂
  obtain ⟨e₁, he₁, hkey₁, hprovider₁, h₁⟩ := horigin he₁' hid₁
  obtain ⟨e₂, he₂, hkey₂, hprovider₂, h₂⟩ := horigin he₂' hid₂
  obtain ⟨horg₁, -⟩ := Prod.mk.inj hkey₁
  obtain ⟨horg₂, -⟩ := Prod.mk.inj hkey₂
  have horg : e₂.organizationId = e₁.organizationId := horg₂.symm.trans (horg.trans horg₁)
  have hprovider : e₂.provider = e₁.provider :=
    hprovider₂.symm.trans (hprovider.trans hprovider₁)
  have hkey : e₂.effectKey = e₁.effectKey := by
    rcases h₁ with hold₁ | ⟨⟨op₁, hc₁, hop₁⟩, hfree₁⟩
    · rcases h₂ with hold₂ | ⟨-, hfree₂⟩
      · rw [h e₁ he₁ e₂ he₂ horg hprovider id hold₁ hold₂]
      · exact (hfree₂ e₁ he₁ horg.symm hprovider.symm hold₁).symm
    · rcases h₂ with hold₂ | ⟨⟨op₂, hc₂, hop₂⟩, -⟩
      · exact hfree₁ e₂ he₂ horg hprovider hold₂
      · obtain ⟨-, rfl⟩ := LedgerCall.effect.inj (hc₁.symm.trans hc₂)
        exact hop₂.symm.trans hop₁
  refine (c.apply s).2.effects.eq_of_key_eq he₂' he₁' ?_
  rw [hkey₁, hkey₂, Effect.key, Effect.key, horg, hkey]

section Run
variable (calls : List LedgerCall) {s : Ledger} {org : OrganizationId} {key : String} {e : Effect}

/-- What every step keeps of a row, a run keeps. -/
theorem effect?_run {P : Effect → Prop}
    (hstep : ∀ (s : Ledger) (c : LedgerCall) (e e' : Effect), P e → EffectStep s c e e' → P e')
    (he : s.effect? org key = some e) (hP : P e) :
    ∃ e', (Machine.run LedgerCall.step s calls).effect? org key = some e' ∧ P e' := by
  induction calls generalizing s e with
  | nil => exact ⟨e, he, hP⟩
  | cons c calls ih =>
      obtain ⟨e₁, he₁, hmoved⟩ := (c.apply_effects s).find?_forward he
      rw [← LedgerCall.step_snd] at he₁
      rcases hmoved with rfl | hmoved
      · exact ih he₁ hP
      · exact ih he₁ (hstep s c e e₁ hP hmoved)

end Run

/-- What holds of the effects in every reachable state, and of every call and
every run that meets it. -/
structure EffectLifecycle (s : Ledger) : Prop where
  moves : ∀ (c : LedgerCall), ∀ e ∈ s.effects.rows,
    ∃ e', (c.apply s).2.effect? e.organizationId e.effectKey = some e' ∧ StatusMove c e e'
  starts : ∀ (c : LedgerCall), ∀ e' ∈ (c.apply s).2.effects.rows,
    s.effect? e'.organizationId e'.effectKey = none →
      e'.status = .reserved ∧ e'.providerOperationId = none
  absorbing : ∀ calls, ∀ e ∈ s.effects.rows, e.status = .succeeded ∨ e.status = .failed →
    ∃ e', (Machine.run LedgerCall.step s calls).effect? e.organizationId e.effectKey = some e' ∧
      e'.status = e.status
  bound_final : ∀ calls, ∀ e ∈ s.effects.rows, ∀ id, e.providerOperationId = some id →
    ∃ e', (Machine.run LedgerCall.step s calls).effect? e.organizationId e.effectKey = some e' ∧
      e'.providerOperationId = some id
  succeeded : ∀ e ∈ s.effects.rows, e.status = .succeeded →
    e.result ≠ none ∧ e.providerStatus = some .succeeded
  distinct : DistinctOperations s
  raised_unchanged : ∀ (c : LedgerCall) exc, (c.apply s).1 = .error exc → (c.apply s).2 = s

theorem effect_lifecycle (calls : List LedgerCall) :
    EffectLifecycle (Machine.run LedgerCall.step .empty calls) := by
  have hdistinct : DistinctOperations (Machine.run LedgerCall.step .empty calls) :=
    Machine.run_invariant LedgerCall.step
      (fun s c h => c.step_snd s ▸ DistinctOperations.apply h c)
      (fun _ he => absurd he List.not_mem_nil) calls
  have hconsistent : AllConsistent (Machine.run LedgerCall.step .empty calls) :=
    Machine.run_invariant LedgerCall.step (fun s c h => c.step_snd s ▸ AllConsistent.apply h c)
      (fun _ he => absurd he List.not_mem_nil) calls
  exact {
    moves := by
      intro c e he
      obtain ⟨e', he', rfl | hstep⟩ := (c.apply_effects _).find?_forward (Ledger.effect?_of_mem he)
      · exact ⟨_, he', .kept rfl⟩
      · exact ⟨e', he', hstep.statusMove⟩
    starts := by
      intro c e' he' hnone
      rcases (c.apply_effects _).find?_backward (KeyedTable.find?_of_mem he') with
        ⟨-, hnew⟩ | ⟨e, he, -⟩
      · cases hnew
        exact ⟨rfl, rfl⟩
      · exact absurd (hnone.symm.trans he) (by simp)
    absorbing := fun more e he hended => by
      refine effect?_run more (P := fun e' => e'.status = e.status) (fun s c e₁ e' h₁ hstep => ?_)
        (Ledger.effect?_of_mem he) rfl
      exact (hstep.statusMove.absorbing (by rw [h₁]; exact hended)).trans h₁
    bound_final := fun more e he id hid =>
      effect?_run more (P := fun e' => e'.providerOperationId = some id)
        (fun _ _ _ _ h hstep => hstep.operationId h) (Ledger.effect?_of_mem he) hid
    succeeded := fun e he => hconsistent e he
    distinct := hdistinct
    raised_unchanged := fun _ _ => LedgerCall.apply_of_error }

end Orchestrator
