import Orchestrator.Db.EffectLifecycle

/-!
The provider status of an effect over whole runs.

`_merge_provider_status` only ever moves forward: nothing, starting, processing,
one terminal status. `mark_succeeded` and `mark_reconciled` write `succeeded`
without it, over whatever status is stored. So the column is monotone in a run
exactly when none of them completes an effect that its provider had already
reported failed or canceled.
-/

namespace Orchestrator

/-- The moves the merge rule admits. -/
inductive StatusAdvance : Option PredictionStatus → Option PredictionStatus → Prop where
  | same (p : Option PredictionStatus) : StatusAdvance p p
  | first (p : Option PredictionStatus) : StatusAdvance none p
  | begins : StatusAdvance (some .starting) (some .processing)
  | ends {p q : PredictionStatus} (hp : ¬ p.terminal) (hq : q.terminal) :
      StatusAdvance (some p) (some q)

namespace StatusAdvance
variable {p q r : Option PredictionStatus}

theorem trans (h : StatusAdvance p q) (h' : StatusAdvance q r) : StatusAdvance p r := by
  cases h with
  | same => exact h'
  | first => exact .first r
  | begins =>
      cases h' with
      | same => exact .begins
      | ends _ hq => exact .ends (by decide) hq
  | ends hp hq =>
      cases h' with
      | same => exact .ends hp hq
      | begins => cases hq
      | ends hp' _ => exact absurd hq hp'

theorem eq_of_terminal {p : PredictionStatus} (h : StatusAdvance (some p) q) (hp : p.terminal) :
    q = some p := by
  cases h with
  | same => rfl
  | begins => cases hp
  | ends hp' _ => exact absurd hp hp'

theorem ne_starting (h : StatusAdvance (some .processing) q) : q ≠ some .starting := by
  cases h with
  | same => decide
  | ends _ hq =>
      rintro ⟨⟩
      cases hq

/-- Success is a move forward unless the provider had decided otherwise. -/
theorem succeeded_iff : StatusAdvance p (some .succeeded) ↔
    p ≠ some .failed ∧ p ≠ some .canceled := by
  constructor
  · intro h
    refine ⟨?_, ?_⟩ <;> rintro rfl <;> cases h.eq_of_terminal rfl
  · rintro ⟨hfailed, hcanceled⟩
    cases p with
    | none => exact .first _
    | some p =>
        cases p with
        | starting | processing => exact .ends (by decide) (by decide)
        | succeeded => exact .same _
        | failed => exact absurd rfl hfailed
        | canceled => exact absurd rfl hcanceled

end StatusAdvance

theorem mergeProviderStatus_advance {p : Option PredictionStatus} {incoming : String}
    {merged : PredictionStatus} (h : mergeProviderStatus p incoming = .ok merged) :
    StatusAdvance p (some merged) := by
  unfold mergeProviderStatus at h
  dsimp only at h
  split at h
  · cases h
  rename_i q _
  cases p with
  | none => exact .first _
  | some p =>
      dsimp only at h
      split at h
      · cases h
        exact .same _
      rename_i hp
      split at h
      · rename_i hq
        cases h
        exact .ends hp hq
      rename_i hq
      -- both are starting or processing: the later of the two is kept
      cases h
      cases p <;> cases q <;> first
        | exact absurd rfl hp
        | exact absurd rfl hq
        | exact .same _
        | exact .begins

/-- The call completes no effect whose provider had reported it failed or canceled. -/
def KeepsVerdict (s : Ledger) : LedgerCall → Prop
  | .effect org (.markSucceeded key _) => ∀ row, s.effectIn? org key .reserved = some row →
      row.providerStatus ≠ some .failed ∧ row.providerStatus ≠ some .canceled
  | .effect org (.markReconciled key _) => ∀ row, s.effectIn? org key .uncertain = some row →
      row.providerStatus ≠ some .failed ∧ row.providerStatus ≠ some .canceled
  | _ => True

/-- The provider statuses of `s'` come after those of `s`. -/
def StatusesAdvance (s s' : Ledger) : Prop :=
  ∀ org key e, s.effect? org key = some e → ∃ e', s'.effect? org key = some e' ∧
    StatusAdvance e.providerStatus e'.providerStatus

/-- No provider status of `s` left a terminal value or went back to starting. -/
def StatusesMonotone (s s' : Ledger) : Prop :=
  ∀ org key e, s.effect? org key = some e → ∃ e', s'.effect? org key = some e' ∧
    (∀ p, e.providerStatus = some p → p.terminal → e'.providerStatus = some p) ∧
    (e.providerStatus = some .processing → e'.providerStatus ≠ some .starting)

theorem StatusesAdvance.refl (s : Ledger) : StatusesAdvance s s :=
  fun _ _ e he => ⟨e, he, .same _⟩

theorem StatusesAdvance.trans {s t u : Ledger} (h : StatusesAdvance s t)
    (h' : StatusesAdvance t u) : StatusesAdvance s u := by
  intro org key e he
  obtain ⟨e', he', hadvance⟩ := h org key e he
  obtain ⟨e'', he'', hadvance'⟩ := h' org key e' he'
  exact ⟨e'', he'', hadvance.trans hadvance'⟩

theorem StatusesAdvance.monotone {s s' : Ledger} (h : StatusesAdvance s s') :
    StatusesMonotone s s' := by
  intro org key e he
  obtain ⟨e', he', hadvance⟩ := h org key e he
  refine ⟨e', he', fun p hp hterminal => ?_, fun hp => ?_⟩
  · exact (hp ▸ hadvance).eq_of_terminal hterminal
  · exact (hp ▸ hadvance).ne_starting

section Step
variable {s : Ledger} {c : LedgerCall}

theorem EffectStep.advance {e e' : Effect} (hkept : KeepsVerdict s c) (he : e ∈ s.effects.rows)
    (h : EffectStep s c e e') : StatusAdvance e.providerStatus e'.providerStatus := by
  cases h with
  | markedUncertain | markedFailed => exact .same _
  | bound _ _ hmerged | reported hmerged => exact mergeProviderStatus_advance hmerged
  | markedSucceeded hstatus | reconciled hstatus =>
      exact StatusAdvance.succeeded_iff.mpr
        (hkept e (Ledger.effectIn?_eq_some_iff.mpr ⟨Ledger.effect?_of_mem he, hstatus⟩))

theorem KeepsVerdict.advance (hkept : KeepsVerdict s c) : StatusesAdvance s (c.step s).2 := by
  rw [LedgerCall.step_snd]
  intro org key e he
  obtain ⟨e', he', rfl | hstep⟩ := (c.apply_effects s).find?_forward he
  · exact ⟨_, he', .same _⟩
  · exact ⟨e', he', hstep.advance hkept (KeyedTable.find?_mem he)⟩

/-- An effect that a call completes has the provider status `succeeded` afterwards. -/
theorem keepsVerdict_of_completed {org : OrganizationId} {key : String} {row row' : Effect}
    (h : StatusesMonotone s (c.step s).2) (hrow : s.effect? org key = some row)
    (hrow' : (c.apply s).2.effect? org key = some row')
    (hcompleted : row'.providerStatus = some .succeeded) :
    row.providerStatus ≠ some .failed ∧ row.providerStatus ≠ some .canceled := by
  rw [LedgerCall.step_snd] at h
  obtain ⟨e', he', hterminal, -⟩ := h org key row hrow
  obtain rfl := Option.some.inj (hrow'.symm.trans he')
  refine ⟨fun hfailed => ?_, fun hcanceled => ?_⟩
  · rw [hterminal _ hfailed rfl] at hcompleted
    cases hcompleted
  · rw [hterminal _ hcanceled rfl] at hcompleted
    cases hcompleted

theorem StatusesMonotone.keepsVerdict (h : StatusesMonotone s (c.step s).2) : KeepsVerdict s c := by
  cases c with
  | setQuota => trivial
  | effect org op =>
      cases op with
      | markSucceeded key result =>
          intro row hrow
          have hfound := (Ledger.effectIn?_eq_some_iff.mp hrow).1
          have hrow' :
              (LedgerCall.apply (.effect org (.markSucceeded key result)) s).2.effect? org key =
              some (row.markedSucceeded result) := by
            simp only [LedgerCall.apply, LedgerCall.transact, EffectOp.transact,
              PostgresEffectLedger.markSucceeded, hrow]
            exact Ledger.effect?_updateEffect_self _ _ hfound
          exact keepsVerdict_of_completed h hfound hrow' rfl
      | markReconciled key result =>
          intro row hrow
          have hfound := (Ledger.effectIn?_eq_some_iff.mp hrow).1
          have hrow' :
              (LedgerCall.apply (.effect org (.markReconciled key result)) s).2.effect? org key =
              some (row.markedSucceeded result) := by
            simp only [LedgerCall.apply, LedgerCall.transact, EffectOp.transact,
              PostgresEffectLedger.markReconciled, hrow]
            exact Ledger.effect?_updateEffect_self _ _ hfound
          exact keepsVerdict_of_completed h hfound hrow' rfl
      | _ => trivial

theorem statusesAdvance_iff (s : Ledger) (c : LedgerCall) :
    StatusesAdvance s (c.step s).2 ↔ KeepsVerdict s c :=
  ⟨fun h => h.monotone.keepsVerdict, fun h => h.advance⟩

end Step

/-- The provider statuses are monotone all along a run exactly when no call of
it completes an effect that was reported failed or canceled. -/
theorem provider_status_monotone_iff (calls : List LedgerCall) :
    Machine.Guarded LedgerCall.step KeepsVerdict .empty calls ↔
      ∀ pre mid post, calls = pre ++ mid ++ post →
        StatusesMonotone (Machine.run LedgerCall.step .empty pre)
          (Machine.run LedgerCall.step .empty (pre ++ mid)) := by
  constructor
  · intro hguarded pre mid post heq
    exact ((Machine.guarded_iff_related LedgerCall.step StatusesAdvance.refl
      (fun _ _ _ h h' => h.trans h') statusesAdvance_iff .empty calls).mp hguarded
        pre mid post heq).monotone
  · intro h e he
    obtain ⟨pre, c, post, rfl, rfl⟩ := (Machine.mem_log LedgerCall.step).mp he
    have hmonotone := h pre [c] post (by simp)
    rw [Machine.run_concat] at hmonotone
    exact hmonotone.keepsVerdict

/-- A webhook reports the prediction canceled while the poller still stores the
artifact it had fetched. -/
def lateSuccess : List LedgerCall :=
  [.setQuota "org" "replicate" 10,
    .effect "org" (.reserve "clip" "run-1" "replicate" 1 (.obj [])),
    .effect "org" (.bindProviderOperation "clip" "prediction-1" "processing"),
    .effect "org" (.updateProviderStatus "clip" "canceled" none)]

def storedArtifact : List LedgerCall :=
  [.effect "org" (.markSucceeded "clip" (.obj [("artifact", .obj [])]))]

/-- The canceled prediction becomes a succeeded one. -/
theorem canceled_prediction_succeeds :
    ¬ ∀ calls pre mid post : List LedgerCall, calls = pre ++ mid ++ post →
      StatusesMonotone (Machine.run LedgerCall.step .empty pre)
        (Machine.run LedgerCall.step .empty (pre ++ mid)) := by
  intro h
  have hmonotone := h _ lateSuccess storedArtifact [] rfl
  have hbefore : ((Machine.run LedgerCall.step .empty lateSuccess).effect? "org" "clip").map
      (·.providerStatus) = some (some .canceled) := by decide +kernel
  have hafter : ((Machine.run LedgerCall.step .empty (lateSuccess ++ storedArtifact)).effect?
      "org" "clip").map (·.providerStatus) = some (some .succeeded) := by decide +kernel
  obtain ⟨e, he, hcanceled⟩ := Option.map_eq_some_iff.mp hbefore
  obtain ⟨e', he', hterminal, -⟩ := hmonotone "org" "clip" e he
  rw [he', Option.map_some, hterminal _ hcanceled rfl] at hafter
  cases hafter

end Orchestrator
