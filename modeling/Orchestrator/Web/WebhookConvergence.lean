import Orchestrator.Web.ReplicateWebhook

/-!
When webhook deliveries converge.

The handler reports an event in one transaction and fails the effect in another,
and the second one refuses an effect that is uncertain or succeeded. The ids and
statuses that a report leaves are final enough for a repetition to change
nothing; the error type is only written by one of the two ways to report.
-/

namespace Orchestrator

/-- The merge of two known statuses. -/
def PredictionStatus.merge (current : Option PredictionStatus) (incoming : PredictionStatus) :
    PredictionStatus :=
  match current with
  | none => incoming
  | some current =>
      if current.terminal then current
      else if incoming.terminal then incoming
      else if incoming.order ≥ current.order then incoming else current

namespace PredictionStatus
variable (current : Option PredictionStatus) (p : PredictionStatus)

theorem mergeProviderStatus_text :
    mergeProviderStatus current p.text = .ok (merge current p) := by
  have hparse : ofText? (PyStr.lower (PyStr.strip p.text)) = some p := by cases p <;> decide
  unfold mergeProviderStatus
  dsimp only
  rw [hparse]
  cases current with
  | none => rfl
  | some current =>
      dsimp only [merge]
      split
      · rfl
      · split <;> rfl

theorem merge_merge : merge (some (merge current p)) p = merge current p := by
  cases current with
  | none => cases p <;> rfl
  | some current => cases current <;> cases p <;> rfl

theorem merge_of_terminal {q : PredictionStatus} (h : q.terminal) : merge (some q) p = q :=
  if_pos h

theorem terminal_of_lost {q : PredictionStatus} (h : q.lost) : q.terminal := by
  cases q <;> first | rfl | cases h

/-- A lost event leaves its effect lost, unless it had succeeded. -/
theorem lost_merge (h : p.lost) : (merge current p).lost ∨ current = some .succeeded := by
  cases current with
  | none => exact Or.inl h
  | some current => cases current <;> cases p <;> simp_all [lost, merge, terminal]

end PredictionStatus

/-- The row may be bound to the operation. -/
def Ledger.OpenTo (s : Ledger) (row : Effect) (id : String) : Prop :=
  (row.providerOperationId = none ∨ row.providerOperationId = some id) ∧
    ∀ other ∈ s.effects.rows, other.organizationId = row.organizationId →
      other.provider = row.provider → other.providerOperationId = some id →
        other.effectKey = row.effectKey

namespace ReplicateWebhookEvent
variable {org : OrganizationId} {key : String} {s : Ledger} {row : Effect}
  (event : ReplicateWebhookEvent)

/-- The row after a report of the event that binds it. -/
def bind (row : Effect) : Effect :=
  row.bound event.predictionId (.merge row.providerStatus event.status)

def errorType : Option String :=
  if event.status.lost then some "ReplicatePredictionError" else none

/-- The row after a report of the event to a bound effect. -/
def report (row : Effect) : Effect :=
  row.reported (.merge row.providerStatus event.status) event.errorType

def bindCall (org : OrganizationId) (key : String) : LedgerCall :=
  .effect org (.bindProviderOperation key event.predictionId event.status.text)

def reportCall (org : OrganizationId) (key : String) : LedgerCall :=
  .effect org (.updateProviderStatus key event.status.text event.errorType)

theorem apply_bindCall (hrow : s.effect? org key = some row)
    (hopen : s.OpenTo row event.predictionId) :
    ∃ s', (event.bindCall org key).apply s = (.ok (reservation (event.bind row) false), s') ∧
      s'.effect? org key = some (event.bind row) := by
  obtain ⟨hid, hfree⟩ := hopen
  obtain ⟨rfl, rfl⟩ := Ledger.effect?_key hrow
  have hbound : ¬ (row.providerOperationId ≠ none ∧
      row.providerOperationId ≠ some event.predictionId) := by
    rintro ⟨hnone, hother⟩
    exact hid.elim hnone hother
  have hany : (s.effects.rows.any fun other =>
      other.organizationId = row.organizationId && other.provider = row.provider &&
        other.providerOperationId = some event.predictionId &&
          other.effectKey ≠ row.effectKey) = false := by
    refine List.any_eq_false.mpr fun other hother => ?_
    simp only [Bool.and_eq_true, decide_eq_true_eq, ne_eq, not_and, not_not, and_imp]
    exact hfree other hother
  simp only [bindCall, LedgerCall.apply, LedgerCall.transact, EffectOp.transact,
    PostgresEffectLedger.bindProviderOperation, event.stripped, event.nonEmpty, hrow, hbound,
    hany, PredictionStatus.mergeProviderStatus_text, ↓reduceIte]
  exact ⟨_, rfl, Ledger.effect?_updateEffect_self _ _ hrow⟩

theorem apply_bindCall_refused (hrow : s.effect? org key = some row)
    (hopen : ¬ s.OpenTo row event.predictionId) :
    ∃ exc, (event.bindCall org key).apply s = (.error exc, s) := by
  have herror : ∃ exc, (event.bindCall org key).transact s = .error exc := by
    cases h : (event.bindCall org key).transact s with
    | error exc => exact ⟨exc, rfl⟩
    | ok value =>
        refine absurd ?_ hopen
        obtain ⟨rfl, rfl⟩ := Ledger.effect?_key hrow
        simp only [bindCall, LedgerCall.transact, EffectOp.transact,
          PostgresEffectLedger.bindProviderOperation, event.stripped, event.nonEmpty, hrow,
          ↓reduceIte] at h
        split at h
        · cases h
        rename_i hbound
        split at h
        · cases h
        rename_i hany
        refine ⟨Classical.byContradiction fun hother => hbound (not_or.mp hother), ?_⟩
        intro other hother horg hprovider hid
        by_contra hne
        exact hany (List.any_eq_true.mpr ⟨other, hother, by simp [horg, hprovider, hid, hne]⟩)
  obtain ⟨exc, hexc⟩ := herror
  exact ⟨exc, by simp only [LedgerCall.apply, hexc]⟩

theorem apply_reportCall (hrow : s.effect? org key = some row) :
    (event.reportCall org key).apply s = (.ok (reservation (event.report row) false),
      s.updateEffect org key
        (Effect.reported (.merge row.providerStatus event.status) event.errorType)
        (fun _ => rfl)) := by
  simp only [reportCall, LedgerCall.apply, LedgerCall.transact, EffectOp.transact,
    PostgresEffectLedger.updateProviderStatus, hrow, PredictionStatus.mergeProviderStatus_text]
  rfl

section Fail
variable (error : String) (errorType : Option String)

/-- `mark_failed` without a release of quota. -/
def failCall (org : OrganizationId) (key : String) : LedgerCall :=
  .effect org (.markFailed key error false errorType)

theorem apply_failCall_reserved (hrow : s.effect? org key = some row)
    (hstatus : row.status = .reserved) :
    ∃ reply s', (failCall error errorType org key).apply s = (.ok reply, s') ∧
      s'.effect? org key = some (row.markedFailed error errorType) := by
  have hin := Ledger.effectIn?_eq_some_iff.mpr ⟨hrow, hstatus⟩
  simp only [failCall, LedgerCall.apply, LedgerCall.transact, EffectOp.transact,
    PostgresEffectLedger.markFailed, hin]
  exact ⟨_, _, rfl, Ledger.effect?_updateEffect_self _ _ hrow⟩

theorem apply_failCall_failed (hrow : s.effect? org key = some row)
    (hstatus : row.status = .failed) :
    ∃ reply, (failCall error errorType org key).apply s = (.ok reply, s) := by
  have hin : s.effectIn? org key .reserved = none :=
    Ledger.effectIn?_of_ne hrow (by simp [hstatus])
  simp only [failCall, LedgerCall.apply, LedgerCall.transact, EffectOp.transact,
    PostgresEffectLedger.markFailed, hin, hrow, hstatus]
  exact ⟨_, rfl⟩

theorem apply_failCall_refused (hrow : s.effect? org key = some row)
    (hstatus : row.status = .uncertain ∨ row.status = .succeeded) :
    ∃ exc, (failCall error errorType org key).apply s = (.error exc, s) := by
  have hreserved : row.status ≠ .reserved := by rcases hstatus with h | h <;> simp [h]
  have hfailed : row.status ≠ .failed := by rcases hstatus with h | h <;> simp [h]
  simp only [failCall, LedgerCall.apply, LedgerCall.transact, EffectOp.transact,
    PostgresEffectLedger.markFailed, Ledger.effectIn?_of_ne hrow hreserved, hrow, if_pos hfailed]
  exact ⟨_, rfl⟩

end Fail

theorem reportOp_unbound {before : EffectReservation} (h : before.providerOperationId = none) :
    event.reportOp key before =
      .ok (.bindProviderOperation key event.predictionId event.status.text) :=
  if_pos h

theorem reportOp_bound {before : EffectReservation}
    (h : before.providerOperationId = some event.predictionId) :
    event.reportOp key before =
      .ok (.updateProviderStatus key event.status.text event.errorType) := by
  simp [reportOp, h, errorType]

theorem setErrorType_errorType (old : Option String) :
    setErrorType event.errorType old =
      if event.status.lost then some "ReplicatePredictionError" else old := by
  unfold errorType
  split
  · simp only [setErrorType]
    rw [if_neg (by decide)]
    decide
  · rfl

/-- A delivery to an effect that is bound to its prediction and settled. -/
theorem applyReplicateEvent_settled (hrow : s.effect? org key = some row)
    (hid : row.providerOperationId = some event.predictionId)
    (hmerged : row.providerStatus = some (.merge row.providerStatus event.status))
    (hsettled : row.providerStatus.any (·.lost) → row.status = .failed) :
    applyReplicateEvent org key event s = (.ok false, s) ↔
      (event.status.lost → row.errorType = some "ReplicatePredictionError") := by
  have hvalues : (event.report row).status = row.status ∧
      (event.report row).providerOperationId = row.providerOperationId ∧
      (event.report row).providerStatus = row.providerStatus := ⟨rfl, rfl, hmerged.symm⟩
  have htoFail : (reservation (event.report row) false).toFail = false := by
    rw [EffectReservation.toFail, Bool.and_eq_false_iff]
    cases hlost : row.providerStatus.any (·.lost) with
    | false => exact Or.inl ((congrArg (Option.any (·.lost)) hvalues.2.2).trans hlost)
    | true => exact Or.inr (by simp [reservation, hvalues.1, hsettled hlost])
  have happly : applyReplicateEvent org key event s = (.ok false, s.updateEffect org key
      (Effect.reported (.merge row.providerStatus event.status) event.errorType)
      (fun _ => rfl)) := by
    have hget := LedgerCall.apply_get hrow
    have hreport := event.apply_reportCall hrow
    unfold reportCall at hreport
    have hop : event.reportOp key (reservation row false) =
        .ok (.updateProviderStatus key event.status.text event.errorType) :=
      event.reportOp_bound hid
    simp only [applyReplicateEvent, hget, hop, hreport, htoFail]
    simp [EffectReservation.values, reservation, hvalues]
  rw [happly]
  constructor
  · intro hsame hlost
    have hafter := Ledger.effect?_updateEffect_self
      (Effect.reported (.merge row.providerStatus event.status) event.errorType)
      (fun _ => rfl) hrow
    rw [(Prod.mk.inj hsame).2, hrow] at hafter
    have htype : row.errorType = setErrorType event.errorType row.errorType :=
      congrArg Effect.errorType (Option.some.inj hafter)
    rw [htype, setErrorType_errorType, if_pos hlost]
  · intro htype
    have hkept : setErrorType event.errorType row.errorType = row.errorType := by
      rw [setErrorType_errorType]
      split
      · rename_i hlost
        exact (htype hlost).symm
      · rfl
    have hsame : row.reported (.merge row.providerStatus event.status) event.errorType = row := by
      rw [Effect.reported, ← hmerged, hkept]
    refine Prod.ext rfl (congrArg (Ledger.mk · s.quotas) ?_)
    exact KeyedTable.update_eq_self
      (f := Effect.reported (.merge row.providerStatus event.status) event.errorType)
      (fun _ => rfl) hrow hsame

end ReplicateWebhookEvent

/-- What a call of anyone can have made of a ledger. -/
def LedgerMoves (s s' : Ledger) : Prop := s' = s ∨ ∃ c : LedgerCall, s' = (c.apply s).2

theorem LedgerMoves.effect? {s s' : Ledger} (h : LedgerMoves s s') {org : OrganizationId}
    {key : String} {row : Effect} (hrow : s.effect? org key = some row) :
    ∃ row', s'.effect? org key = some row' ∧ (row' = row ∨ ∃ c, EffectStep s c row row') := by
  rcases h with rfl | ⟨c, rfl⟩
  · exact ⟨row, hrow, Or.inl rfl⟩
  · obtain ⟨row', hrow', hsame | hstep⟩ := (c.apply_effects s).find?_forward hrow
    · exact ⟨row', hrow', Or.inl hsame⟩
    · exact ⟨row', hrow', Or.inr ⟨c, hstep⟩⟩

namespace Delivery
variable (d : Delivery) (s : Ledger)

def key : OrganizationId × String := (d.organizationId, d.effectKey)

/-- The effect is there, failed if its prediction is lost, and the event again
changes nothing. -/
def Settled (left : Ledger) (decided : List (OrganizationId × String)) : Prop :=
  ∃ row, left.effect? d.organizationId d.effectKey = some row ∧
    (row.providerStatus.any (·.lost) → row.status = .failed ∧ d.key ∈ decided) ∧
    applyReplicateEvent d.organizationId d.effectKey d.event left = (.ok false, left)

/-- A delivery that raised wrote nothing; one that returned left its effect settled. -/
def Converged (decided : List (OrganizationId × String)) : Prop :=
  match d.stage with
  | .returned _ left => d.Settled left decided
  | .raised _ => d.wrote = false
  | _ => True

/-- What the next transaction must not meet: bound to a lost prediction, an
effect that had ended with another error type; and, to be failed after a report
that took effect, one that is uncertain or succeeded by now. -/
def Safe : Prop :=
  ∀ row, s.effect? d.organizationId d.effectKey = some row →
    match d.stage with
    | .correlated before _ => before.providerOperationId = none →
        s.OpenTo row d.event.predictionId → d.event.status.lost →
          row.status = .failed ∨ row.providerStatus = some .succeeded →
            row.errorType = some "ReplicatePredictionError"
    | .failing _ => (d.wrote → row.status = .reserved ∨ row.status = .failed) ∧
        (row.status = .failed → d.event.status.lost →
          row.errorType = some "ReplicatePredictionError")
    | _ => True

/-- What a delivery in progress relies on, whatever commits meanwhile. -/
def InFlight : Prop :=
  match d.stage with
  | .received => d.wrote = false
  | .correlated before op => d.wrote = false ∧ d.event.reportOp d.effectKey before = .ok op ∧
      ∃ row, s.effect? d.organizationId d.effectKey = some row ∧
        ∀ id, before.providerOperationId = some id → row.providerOperationId = some id
  | .failing _ => ∃ row, s.effect? d.organizationId d.effectKey = some row ∧
      row.providerOperationId = some d.event.predictionId ∧
        (row.providerStatus.any (·.lost) ∨ row.status = .succeeded)
  | .returned _ _ | .raised _ => True

variable {d s}

theorem Converged.mono {decided decided' : List (OrganizationId × String)}
    (h : d.Converged decided) (hmono : ∀ k ∈ decided, k ∈ decided') : d.Converged decided' := by
  unfold Converged at h ⊢
  split at h
  · obtain ⟨row, hrow, hlost, hagain⟩ := h
    exact ⟨row, hrow, fun h => ⟨(hlost h).1, hmono _ (hlost h).2⟩, hagain⟩
  · exact h
  · trivial

theorem lost_of_step {c : LedgerCall} {row row' : Effect} (hstep : EffectStep s c row row')
    (h : row.providerStatus.any (·.lost) ∨ row.status = .succeeded) :
    row'.providerStatus.any (·.lost) ∨ row'.status = .succeeded := by
  rcases h with hlost | hended
  · cases hstep with
    | markedUncertain | markedFailed => exact Or.inl hlost
    | markedSucceeded | reconciled => exact Or.inr rfl
    | bound _ _ hmerged | reported hmerged =>
        cases hp : row.providerStatus with
        | none => simp [hp] at hlost
        | some p =>
            rw [hp] at hmerged hlost
            obtain rfl := mergeProviderStatus_terminal hmerged
              (PredictionStatus.terminal_of_lost hlost)
            exact Or.inl hlost
  · exact Or.inr ((hstep.statusMove.absorbing (Or.inl hended)).trans hended)

theorem InFlight.mono {s' : Ledger} (h : d.InFlight s) (hmoves : LedgerMoves s s') :
    d.InFlight s' := by
  unfold InFlight at h ⊢
  split at h
  · exact h
  · obtain ⟨hwrote, hop, row, hrow, hid⟩ := h
    obtain ⟨row', hrow', rfl | ⟨c, hstep⟩⟩ := hmoves.effect? hrow
    · exact ⟨hwrote, hop, _, hrow', hid⟩
    · exact ⟨hwrote, hop, row', hrow', fun id hbefore => hstep.operationId (hid id hbefore)⟩
  · obtain ⟨row, hrow, hid, hlost⟩ := h
    obtain ⟨row', hrow', rfl | ⟨c, hstep⟩⟩ := hmoves.effect? hrow
    · exact ⟨_, hrow', hid, hlost⟩
    · exact ⟨row', hrow', hstep.operationId hid, lost_of_step hstep hlost⟩
  · trivial
  · trivial

section Advance
variable {row : Effect} {before after : EffectReservation} {op : EffectOp}
  {decided : List (OrganizationId × String)}

theorem committed_self (stage : DeliveryStage) (h : d.wrote = false) :
    (d.committed s s stage).wrote = false := by
  simp [committed, h]

theorem settled_iff {left : Ledger} (hrow : left.effect? d.organizationId d.effectKey = some row)
    (hid : row.providerOperationId = some d.event.predictionId)
    (hmerged : row.providerStatus = some (.merge row.providerStatus d.event.status))
    (hlost : row.providerStatus.any (·.lost) → row.status = .failed)
    (hdecided : row.status = .failed → d.key ∈ decided) :
    d.Settled left decided ↔
      (d.event.status.lost → row.errorType = some "ReplicatePredictionError") := by
  rw [← d.event.applyReplicateEvent_settled hrow hid hmerged hlost]
  constructor
  · rintro ⟨-, -, -, hagain⟩
    exact hagain
  · intro hagain
    exact ⟨row, hrow, fun h => ⟨hlost h, hdecided (hlost h)⟩, hagain⟩

/-- The status a report of the event leaves is the one it would leave again. -/
theorem merged_again (current : Option PredictionStatus) (p : PredictionStatus) :
    some (PredictionStatus.merge current p) =
      some (.merge (some (.merge current p)) p) :=
  congrArg some (PredictionStatus.merge_merge current p).symm

theorem toFail_eq_false {r : Effect} (h : (reservation r false).toFail = false) :
    r.providerStatus.any (·.lost) → r.status = .failed := by
  intro hlost
  have hlost' : (reservation r false).providerStatus.any (·.lost) = true := hlost
  rw [EffectReservation.toFail, hlost', Bool.true_and] at h
  exact Decidable.of_not_not (of_decide_eq_false h)

theorem advance_received (hstage : d.stage = .received) (hwrote : d.wrote = false) :
    (d.advance s).2 = s ∧ (d.advance s).1.InFlight s ∧ (d.advance s).1.Converged decided := by
  cases hrow : s.effect? d.organizationId d.effectKey with
  | none =>
      have hget : (d.call (.get d.effectKey)).apply s =
          (.error (effectMissing d.effectKey), s) := by
        simp only [call, LedgerCall.apply, LedgerCall.transact, EffectOp.transact,
          PostgresEffectLedger.get, hrow]
      simp only [advance, hstage, hget]
      exact ⟨trivial, trivial, committed_self _ hwrote⟩
  | some row =>
      have hget : (d.call (.get d.effectKey)).apply s = (.ok (reservation row false), s) :=
        LedgerCall.apply_get hrow
      cases hop : d.event.reportOp d.effectKey (reservation row false) with
      | error exc =>
          simp only [advance, hstage, hget, hop]
          exact ⟨trivial, trivial, committed_self _ hwrote⟩
      | ok op =>
          simp only [advance, hstage, hget, hop]
          exact ⟨trivial, ⟨committed_self _ hwrote, hop, row, hrow, fun _ hid => hid⟩, trivial⟩

theorem advance_refused {exc : LedgerError} (hstage : d.stage = .correlated before op)
    (hwrote : d.wrote = false) (happly : (d.call op).apply s = (.error exc, s)) :
    (d.advance s).2 = s ∧ (d.advance s).1.InFlight s ∧ (d.advance s).1.Converged decided := by
  simp only [advance, hstage, happly]
  exact ⟨trivial, trivial, committed_self _ hwrote⟩

theorem advance_report {s' : Ledger} (hstage : d.stage = .correlated before op)
    (happly : (d.call op).apply s = (.ok (reservation row false), s'))
    (hrow : s'.effect? d.organizationId d.effectKey = some row)
    (hid : row.providerOperationId = some d.event.predictionId)
    (hmerged : row.providerStatus = some (.merge row.providerStatus d.event.status)) :
    (d.advance s).2 = s' ∧ (d.advance s).1.InFlight s' ∧
      ∀ decided, (row.status = .failed → d.key ∈ decided) →
        ((d.advance s).1.Converged decided ↔ ((reservation row false).toFail = false →
          d.event.status.lost → row.errorType = some "ReplicatePredictionError")) := by
  simp only [advance, hstage, happly]
  cases htoFail : (reservation row false).toFail with
  | true =>
      have hlost : row.providerStatus.any (·.lost) = true := (Bool.and_eq_true _ _ ▸ htoFail).1
      exact ⟨rfl, ⟨row, hrow, hid, Or.inl hlost⟩, fun _ _ =>
        ⟨fun _ h => absurd h (by decide), fun _ => trivial⟩⟩
  | false =>
      refine ⟨rfl, trivial, fun decided hdecided => ?_⟩
      exact (settled_iff hrow hid hmerged (toFail_eq_false htoFail) hdecided).trans
        ⟨fun h _ => h, fun h => h rfl⟩

/-- A report that binds a lost event is not followed by `mark_failed` when the
effect had failed or succeeded. -/
theorem toFail_bind (event : ReplicateWebhookEvent) (row : Effect) (hlost : event.status.lost) :
    (reservation (event.bind row) false).toFail = false ↔
      row.status = .failed ∨ row.providerStatus = some .succeeded := by
  have hstatus : (event.bind row).status = .failed ↔ row.status = .failed := by
    simp only [ReplicateWebhookEvent.bind, Effect.bound]
    split
    · rename_i huncertain
      simp [huncertain]
    · rfl
  have htoFail : (reservation (event.bind row) false).toFail =
      ((PredictionStatus.merge row.providerStatus event.status).lost &&
        decide ((event.bind row).status ≠ .failed)) := rfl
  rw [htoFail, Bool.and_eq_false_iff, decide_eq_false_iff_not, not_not, hstatus, or_comm]
  refine or_congr_right ⟨fun hkept => ?_, fun hsucceeded => by rw [hsucceeded]; rfl⟩
  rcases PredictionStatus.lost_merge row.providerStatus event.status hlost with hmerged | hsucceeded
  · rw [hmerged] at hkept
    cases hkept
  · exact hsucceeded

theorem advance_correlated (hstage : d.stage = .correlated before op) (h : d.InFlight s)
    (hdecided : ∀ row, (d.advance s).2.effect? d.organizationId d.effectKey = some row →
      row.status = .failed → d.key ∈ decided) :
    (d.advance s).1.InFlight (d.advance s).2 ∧
      ((d.advance s).1.Converged decided ↔ d.Safe s) := by
  simp only [InFlight, hstage] at h
  obtain ⟨hwrote, hop, row, hrow, hid⟩ := h
  have hsafe : d.Safe s ↔ (before.providerOperationId = none →
      s.OpenTo row d.event.predictionId → d.event.status.lost →
        row.status = .failed ∨ row.providerStatus = some .succeeded →
          row.errorType = some "ReplicatePredictionError") := by
    simp only [Safe, hstage]
    exact ⟨fun hsafe => hsafe row hrow,
      fun hsafe row' hrow' => Option.some.inj (hrow.symm.trans hrow') ▸ hsafe⟩
  rw [hsafe]
  by_cases hbefore : before.providerOperationId = none
  · rw [d.event.reportOp_unbound hbefore, Except.ok.injEq] at hop
    subst hop
    by_cases hopen : s.OpenTo row d.event.predictionId
    · obtain ⟨s', happly, hrow'⟩ := d.event.apply_bindCall hrow hopen
      obtain ⟨hs', hin, hconverged⟩ := advance_report hstage happly hrow' rfl (merged_again _ _)
      rw [hs'] at hdecided ⊢
      refine ⟨hin, (hconverged decided (hdecided _ hrow')).trans ?_⟩
      constructor
      · intro h _ _ hlost hended
        exact h ((toFail_bind _ _ hlost).mpr hended) hlost
      · intro h htoFail hlost
        exact h hbefore hopen hlost ((toFail_bind _ _ hlost).mp htoFail)
    · obtain ⟨exc, hexc⟩ := d.event.apply_bindCall_refused hrow hopen
      obtain ⟨hs', hin, hconverged⟩ := advance_refused hstage hwrote hexc
      rw [hs']
      exact ⟨hin, fun _ _ hopen' => absurd hopen' hopen, fun _ => hconverged⟩
  · obtain ⟨id, hsome⟩ := Option.ne_none_iff_exists'.mp hbefore
    obtain rfl : id = d.event.predictionId := by
      by_contra hne
      simp [ReplicateWebhookEvent.reportOp, hsome, hne] at hop
    rw [d.event.reportOp_bound hsome, Except.ok.injEq] at hop
    subst hop
    obtain ⟨hs', hin, hconverged⟩ := advance_report hstage (d.event.apply_reportCall hrow)
      (Ledger.effect?_updateEffect_self _ _ hrow) (hid _ hsome) (merged_again _ _)
    rw [hs'] at hdecided ⊢
    refine ⟨hin, (hconverged decided (hdecided _ (Ledger.effect?_updateEffect_self _ _ hrow))).trans
      ⟨fun _ hnone => absurd hnone hbefore, fun _ _ hlost => ?_⟩⟩
    exact (d.event.setErrorType_errorType row.errorType).trans (if_pos hlost)

theorem advance_failing (hstage : d.stage = .failing after) (h : d.InFlight s)
    (hdecided : ∀ row, (d.advance s).2.effect? d.organizationId d.effectKey = some row →
      row.status = .failed → d.key ∈ decided) :
    (d.advance s).1.InFlight (d.advance s).2 ∧
      ((d.advance s).1.Converged decided ↔ d.Safe s) := by
  simp only [InFlight, hstage] at h
  obtain ⟨row, hrow, hid, hlost⟩ := h
  have hsafe : d.Safe s ↔ (d.wrote → row.status = .reserved ∨ row.status = .failed) ∧
      (row.status = .failed → d.event.status.lost →
        row.errorType = some "ReplicatePredictionError") := by
    simp only [Safe, hstage]
    exact ⟨fun hsafe => hsafe row hrow,
      fun hsafe row' hrow' => Option.some.inj (hrow.symm.trans hrow') ▸ hsafe⟩
  rw [hsafe]
  let error := "provider_" ++ (after.providerStatus.map (·.text)).getD "None"
  let errorType := some "ReplicatePredictionError"
  -- the prediction is lost and stays lost unless the effect has succeeded
  have hmerged (hstatus : row.status ≠ .succeeded) :
      row.providerStatus = some (.merge row.providerStatus d.event.status) := by
    cases hp : row.providerStatus with
    | none => simp [hp, hstatus] at hlost
    | some p =>
        have hp : p.lost := by simpa [hp, hstatus] using hlost
        rw [PredictionStatus.merge_of_terminal _ (PredictionStatus.terminal_of_lost hp)]
  have hrefused (hstatus : row.status = .uncertain ∨ row.status = .succeeded) :
      (d.advance s).1.InFlight (d.advance s).2 ∧ ((d.advance s).1.Converged decided ↔
        (d.wrote → row.status = .reserved ∨ row.status = .failed) ∧
          (row.status = .failed → d.event.status.lost →
            row.errorType = some "ReplicatePredictionError")) := by
    obtain ⟨exc, hexc⟩ :=
      ReplicateWebhookEvent.apply_failCall_refused error errorType hrow hstatus
    have happly : (d.call (ReplicateWebhookEvent.failOp d.effectKey after)).apply s =
        (.error exc, s) := hexc
    simp only [advance, hstage, happly]
    refine ⟨trivial, ?_⟩
    have hwrote : (d.committed s s (.raised (.ledger exc))).Converged decided ↔
        d.wrote = false := by simp [Converged, committed]
    rw [hwrote]
    rcases hstatus with hstatus | hstatus <;> simp [hstatus]
  cases hstatus : row.status with
  | uncertain => exact hstatus ▸ hrefused (Or.inl hstatus)
  | succeeded => exact hstatus ▸ hrefused (Or.inr hstatus)
  | reserved =>
      obtain ⟨reply, s', hok, hrow'⟩ :=
        ReplicateWebhookEvent.apply_failCall_reserved error errorType hrow hstatus
      have happly : (d.call (ReplicateWebhookEvent.failOp d.effectKey after)).apply s =
          (.ok reply, s') := hok
      simp only [advance, hstage, happly] at hdecided ⊢
      refine ⟨trivial, fun _ => ⟨fun _ => Or.inl trivial,
        fun h => absurd h (by decide)⟩, fun _ => ?_⟩
      refine (settled_iff hrow' hid (hmerged (by simp [hstatus])) (fun _ => rfl)
        (hdecided _ hrow')).mpr fun _ => ?_
      simp only [Effect.markedFailed, errorType, setErrorType]
      rw [if_neg (by decide)]
      decide
  | failed =>
      obtain ⟨reply, hok⟩ :=
        ReplicateWebhookEvent.apply_failCall_failed error errorType hrow hstatus
      have happly : (d.call (ReplicateWebhookEvent.failOp d.effectKey after)).apply s =
          (.ok reply, s) := hok
      simp only [advance, hstage, happly] at hdecided ⊢
      refine ⟨trivial, ?_⟩
      refine (settled_iff hrow hid (hmerged (by simp [hstatus])) (fun _ => hstatus)
        (hdecided _ hrow)).trans ⟨fun h => ⟨fun _ => Or.inr trivial, fun _ => h⟩,
          fun h => h.2 trivial⟩

theorem advance_ledger (d : Delivery) (s : Ledger) : LedgerMoves s (d.advance s).2 := by
  have hcall (op : EffectOp) {reply : Except LedgerError EffectReservation} {s' : Ledger}
      (h : (d.call op).apply s = (reply, s')) : LedgerMoves s s' :=
    Or.inr ⟨d.call op, (congrArg Prod.snd h).symm⟩
  unfold advance
  split
  · split
    · exact hcall _ (by assumption)
    · split
      · exact hcall _ (by assumption)
      · exact hcall _ (by assumption)
  · split
    · exact hcall _ (by assumption)
    · split
      · exact hcall _ (by assumption)
      · exact hcall _ (by assumption)
  · split
    · exact hcall _ (by assumption)
    · exact hcall _ (by assumption)
  · exact Or.inl rfl
  · exact Or.inl rfl

/-- One transaction keeps what the delivery relies on, and leaves it converged
exactly when the transaction was safe. -/
theorem advance_iff (hin : d.InFlight s) (hold : d.Converged decided)
    (hdecided : ∀ row, (d.advance s).2.effect? d.organizationId d.effectKey = some row →
      row.status = .failed → d.key ∈ decided) :
    (d.advance s).1.InFlight (d.advance s).2 ∧
      ((d.advance s).1.Converged decided ↔ d.Safe s) := by
  have htrivial (hsafe : d.Safe s) (hconverged : (d.advance s).1.Converged decided) :
      (d.advance s).1.Converged decided ↔ d.Safe s := ⟨fun _ => hsafe, fun _ => hconverged⟩
  cases hstage : d.stage with
  | received =>
      simp only [InFlight, hstage] at hin
      obtain ⟨hs', hin', hconverged⟩ : (d.advance s).2 = s ∧ (d.advance s).1.InFlight s ∧
          (d.advance s).1.Converged decided := advance_received hstage hin
      rw [hs']
      exact ⟨hin', htrivial (by simp [Safe, hstage]) hconverged⟩
  | correlated before op => exact advance_correlated hstage hin hdecided
  | failing after => exact advance_failing hstage hin hdecided
  | returned changed left =>
      have hsame : d.advance s = (d, s) := by simp only [advance, hstage]
      rw [hsame] at htrivial ⊢
      exact ⟨hin, htrivial (by simp [Safe, hstage]) hold⟩
  | raised exc =>
      have hsame : d.advance s = (d, s) := by simp only [advance, hstage]
      rw [hsame] at htrivial ⊢
      exact ⟨hin, htrivial (by simp [Safe, hstage]) hold⟩

end Advance

end Delivery

section Decided
variable {s s' : Ledger} {decided : List (OrganizationId × String)}

def Ledger.Failed (s : Ledger) (k : OrganizationId × String) : Prop :=
  ∃ row, s.effect? k.1 k.2 = some row ∧ row.status = .failed

theorem Ledger.Failed.mono {k : OrganizationId × String} (h : s.Failed k)
    (hmoves : LedgerMoves s s') : s'.Failed k := by
  obtain ⟨row, hrow, hstatus⟩ := h
  obtain ⟨row', hrow', rfl | ⟨c, hstep⟩⟩ := hmoves.effect? hrow
  · exact ⟨_, hrow', hstatus⟩
  · exact ⟨row', hrow', (hstep.statusMove.absorbing (Or.inr hstatus)).trans hstatus⟩

theorem mem_newlyFailed {k : OrganizationId × String} :
    k ∈ Webhooks.newlyFailed s s' ↔ s'.Failed k ∧ ¬ s.Failed k := by
  have hbefore : (s.effect? k.1 k.2).all (fun e => e.status ≠ .failed) ↔ ¬ s.Failed k := by
    cases hrow : s.effect? k.1 k.2 with
    | none => simp [Ledger.Failed, hrow]
    | some row => simp [Ledger.Failed, hrow]
  simp only [Webhooks.newlyFailed, List.mem_map, List.mem_filter, Bool.and_eq_true,
    decide_eq_true_eq]
  constructor
  · rintro ⟨e, ⟨he, hstatus, hnew⟩, rfl⟩
    exact ⟨⟨e, Ledger.effect?_of_mem he, hstatus⟩, hbefore.mp hnew⟩
  · rintro ⟨⟨e, he, hstatus⟩, hnew⟩
    obtain ⟨horg, hkey⟩ := Ledger.effect?_key he
    refine ⟨e, ⟨KeyedTable.find?_mem he, hstatus, ?_⟩, Prod.ext horg hkey⟩
    rw [horg, hkey]
    exact hbefore.mpr hnew

/-- Every effect that is failed now was failed once, at one commit. -/
structure DecidedOnce (s : Ledger) (decided : List (OrganizationId × String)) : Prop where
  mem_iff : ∀ k, k ∈ decided ↔ s.Failed k
  nodup : decided.Nodup

theorem DecidedOnce.commit (h : DecidedOnce s decided) (hmoves : LedgerMoves s s') :
    DecidedOnce s' (decided ++ Webhooks.newlyFailed s s') where
  mem_iff := by
    intro k
    rw [List.mem_append, h.mem_iff, mem_newlyFailed]
    constructor
    · rintro (hold | ⟨hnew, -⟩)
      · exact hold.mono hmoves
      · exact hnew
    · intro hnew
      by_cases hold : s.Failed k
      · exact Or.inl hold
      · exact Or.inr ⟨hnew, hold⟩
  nodup := by
    refine List.nodup_append.mpr ⟨h.nodup, ?_, ?_⟩
    · exact s'.effects.nodup.sublist (List.filter_sublist.map _)
    · intro k hk k' hk' heq
      subst heq
      exact (mem_newlyFailed.mp hk').2 ((h.mem_iff k).mp hk)

end Decided

/-- Every delivery that raised wrote nothing, every one that returned left its
effect settled, and no effect was failed twice. -/
structure Convergent (w : Webhooks) : Prop where
  converged : ∀ d ∈ w.deliveries, d.Converged w.decided
  decided_once : w.decided.Nodup

/-- A step of a delivery makes a safe transaction. -/
def SafeDelivery (w : Webhooks) : WebhooksCall → Prop
  | .advance i => ∀ d, w.deliveries[i]? = some d → d.Safe w.ledger
  | _ => True

structure WebhooksInvariant (w : Webhooks) : Prop where
  inFlight : ∀ d ∈ w.deliveries, d.InFlight w.ledger
  converged : ∀ d ∈ w.deliveries, d.Converged w.decided
  decided : DecidedOnce w.ledger w.decided

namespace WebhooksInvariant
variable {w : Webhooks} {s' : Ledger}

theorem empty : WebhooksInvariant .empty where
  inFlight := fun _ hd => absurd hd List.not_mem_nil
  converged := fun _ hd => absurd hd List.not_mem_nil
  decided := ⟨fun _ => ⟨fun hk => absurd hk List.not_mem_nil, fun ⟨_, hrow, _⟩ => nomatch hrow⟩,
    List.nodup_nil⟩

theorem convergent (h : WebhooksInvariant w) : Convergent w := ⟨h.converged, h.decided.nodup⟩

/-- A commit of anyone. -/
theorem commit (h : WebhooksInvariant w) (hmoves : LedgerMoves w.ledger s') :
    WebhooksInvariant (w.commit s') where
  inFlight := fun d hd => (h.inFlight d hd).mono hmoves
  converged := fun d hd => (h.converged d hd).mono fun _ => List.mem_append_left _
  decided := h.decided.commit hmoves

theorem apply_advance {i : Nat} {d : Delivery} (hd : w.deliveries[i]? = some d) :
    ((WebhooksCall.advance i).apply w).2 =
      { w.commit (d.advance w.ledger).2 with
        deliveries := w.deliveries.set i (d.advance w.ledger).1 } := by
  simp only [WebhooksCall.apply, hd]

theorem advance_iff (h : WebhooksInvariant w) {d : Delivery} (hd : d ∈ w.deliveries) :
    (d.advance w.ledger).1.InFlight (d.advance w.ledger).2 ∧
      ((d.advance w.ledger).1.Converged (w.commit (d.advance w.ledger).2).decided ↔
        d.Safe w.ledger) := by
  have hcommit := h.commit (d.advance_ledger w.ledger)
  refine Delivery.advance_iff (h.inFlight d hd) (hcommit.converged d hd) ?_
  intro row hrow hstatus
  exact (hcommit.decided.mem_iff d.key).mpr ⟨row, hrow, hstatus⟩

theorem apply (h : WebhooksInvariant w) {c : WebhooksCall} (hsafe : SafeDelivery w c) :
    WebhooksInvariant (c.apply w).2 := by
  cases c with
  | ledger c => exact h.commit (Or.inr ⟨c, rfl⟩)
  | deliver organizationId effectKey event =>
      let new : Delivery := { organizationId, effectKey, event }
      have hnew (d : Delivery) (hd : d ∈ w.deliveries ++ [new]) :
          d ∈ w.deliveries ∨ d.stage = .received ∧ d.wrote = false := by
        rcases List.mem_append.mp hd with hd | hd
        · exact Or.inl hd
        · rw [List.mem_singleton.mp hd]
          exact Or.inr ⟨rfl, rfl⟩
      refine ⟨fun d hd => ?_, fun d hd => ?_, h.decided⟩
      · rcases hnew d hd with hd | ⟨hstage, hwrote⟩
        · exact h.inFlight d hd
        · simpa only [Delivery.InFlight, hstage] using hwrote
      · rcases hnew d hd with hd | ⟨hstage, -⟩
        · exact h.converged d hd
        · simp only [Delivery.Converged, hstage]
  | advance i =>
      cases hd : w.deliveries[i]? with
      | none =>
          have hsame : ((WebhooksCall.advance i).apply w).2 = w := by
            simp only [WebhooksCall.apply, hd]
          rwa [hsame]
      | some d =>
          have hcommit := h.commit (d.advance_ledger w.ledger)
          obtain ⟨hin, hiff⟩ := h.advance_iff (List.mem_of_getElem? hd)
          rw [apply_advance hd]
          refine ⟨fun d' hd' => ?_, fun d' hd' => ?_, hcommit.decided⟩
          · rcases List.mem_or_eq_of_mem_set hd' with hd' | rfl
            · exact hcommit.inFlight d' hd'
            · exact hin
          · rcases List.mem_or_eq_of_mem_set hd' with hd' | rfl
            · exact hcommit.converged d' hd'
            · exact hiff.mpr (hsafe d hd)

theorem safe_of_convergent (h : WebhooksInvariant w) {c : WebhooksCall}
    (hafter : Convergent (c.apply w).2) : SafeDelivery w c := by
  cases c with
  | advance i =>
      intro d hd
      rw [apply_advance hd] at hafter
      have hi : i < w.deliveries.length := (List.getElem?_eq_some_iff.mp hd).1
      exact (h.advance_iff (List.mem_of_getElem? hd)).2.mp
        (hafter.converged _ (List.mem_set hi _))
  | _ => trivial

end WebhooksInvariant

/-- The deliveries of a run all converge exactly when each of their transactions
is a safe one. -/
theorem webhooks_converge_iff (calls : List WebhooksCall) :
    Machine.Guarded WebhooksCall.apply SafeDelivery .empty calls ↔
      ∀ pre post, calls = pre ++ post →
        Convergent (Machine.run WebhooksCall.apply .empty pre) :=
  Machine.guarded_iff_prefixes WebhooksCall.apply
    (fun _ (h : WebhooksInvariant _) => h.convergent)
    (fun _ _ h hsafe => h.apply hsafe) (fun _ _ h hafter => h.safe_of_convergent hafter) .empty

def failedEvent : ReplicateWebhookEvent where
  predictionId := "prediction-1"
  status := .failed
  nonEmpty := by decide
  stripped := by decide

/-- The poller lost the connection and left the bound effect uncertain; then the
provider reports the prediction failed. -/
def failureOfUncertain : List WebhooksCall :=
  [.ledger (.setQuota "org" "replicate" 10),
    .ledger (.effect "org" (.reserve "clip" "run-1" "replicate" 1 (.obj []))),
    .ledger (.effect "org" (.bindProviderOperation "clip" "prediction-1" "processing")),
    .ledger (.effect "org" (.markUncertain "clip" "ConnectError" (some "ConnectError"))),
    .deliver "org" "clip" failedEvent, .advance 0, .advance 0, .advance 0]

def Delivery.halfApplied (d : Delivery) : Bool :=
  d.wrote && match d.stage with
    | .raised _ => true
    | _ => false

/-- The status is stored and the handler raises. -/
theorem webhook_half_applied :
    ¬ ∀ calls pre post : List WebhooksCall, calls = pre ++ post →
      Convergent (Machine.run WebhooksCall.apply .empty pre) := by
  intro h
  have hhalf : (Machine.run WebhooksCall.apply .empty failureOfUncertain).deliveries.any
      Delivery.halfApplied := by decide +kernel
  obtain ⟨d, hd, hhalf⟩ := List.any_eq_true.mp hhalf
  obtain ⟨hwrote, hraised⟩ := Bool.and_eq_true_iff.mp hhalf
  have hconverged := (h _ failureOfUncertain [] (List.append_nil _).symm).converged d hd
  cases hstage : d.stage with
  | raised exc =>
      simp only [Delivery.Converged, hstage] at hconverged
      rw [hconverged] at hwrote
      cases hwrote
  | _ => simp [hstage] at hraised

end Orchestrator
