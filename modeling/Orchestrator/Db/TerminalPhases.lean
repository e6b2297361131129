import Orchestrator.Db.JobTransitions

/-!
Terminal run phases.

Cancellation only moves runs that are still going. Every other write of the
phase column (`start`, `save`, `open_gate`, `resolve_gate` and the last `fail`)
overwrites whatever phase is stored. So the terminal phases are absorbing in a
run exactly when each of these writes meets a run that is still going, or
repeats the phase it finds.
-/

namespace Orchestrator

/-- The runs that had ended are still there, in the phase they ended in. -/
def PhasesKept (s s' : JobStore) : Prop :=
  ∀ runId run, s.run? runId = some run → run.phase.terminal →
    ∃ run', s'.run? runId = some run' ∧ run'.phase = run.phase

theorem PhasesKept.refl (s : JobStore) : PhasesKept s s :=
  fun _ run hrun _ => ⟨run, hrun, rfl⟩

theorem PhasesKept.trans {s t u : JobStore} (h : PhasesKept s t) (h' : PhasesKept t u) :
    PhasesKept s u := by
  intro runId run hrun hterminal
  obtain ⟨run', hrun', hphase⟩ := h runId run hrun hterminal
  obtain ⟨run'', hrun'', hphase'⟩ := h' runId run' hrun' (hphase ▸ hterminal)
  exact ⟨run'', hrun'', hphase'.trans hphase⟩

/-- The phase the call writes is written over no other terminal phase. -/
def SparesEnded (tenant : TenantContext) (s : JobStore) (c : JobsCall) : Prop :=
  ∀ runId phase run, c.phaseWrite tenant s = some (runId, phase) → s.run? runId = some run →
    run.phase.terminal → run.phase = phase

theorem not_cancellable_of_terminal (phase : RunPhase) :
    phase.terminal → ¬ PostgresJobRepository.cancellable phase := by
  cases phase <;> decide

namespace JobsCall
variable {tenant : TenantContext} {c : JobsCall} {s : JobStore}

section Writes
variable {runId : String} {run : Run} {now : Timestamp}

theorem run?_updateRun (set : Run → Run) (hset : ∀ run, (set run).id = run.id)
    (hrun : s.run? runId = some run) : (s.updateRun runId set hset).run? runId = some (set run) :=
  KeyedTable.find?_update_self set hset hrun

/-- A phase that a call is about to write is the phase it leaves. -/
theorem run?_of_phaseWrite {phase : RunPhase}
    (hwrite : c.phaseWrite tenant s = some (runId, phase)) (hrun : s.run? runId = some run) :
    ∃ run', (c.apply tenant s).2.run? runId = some run' ∧ run'.phase = phase := by
  obtain ⟨now, op⟩ := c
  cases op with
  | startRun runId' offer platform batchSize =>
      simp only [phaseWrite, Option.ite_none_left_eq_some, Option.some.injEq,
        Prod.mk.injEq] at hwrite
      obtain ⟨hbatch, rfl, rfl⟩ := hwrite
      refine ⟨PostgresRunRepository.restarted offer platform batchSize run, ?_, rfl⟩
      simp only [apply, transact, PostgresRunRepository.start, if_neg hbatch, replying]
      exact KeyedTable.find?_upsert_of_some _ rfl hrun
  | saveRun runId' phase' state summary items error errorType =>
      simp only [phaseWrite, Option.ite_none_left_eq_some, Option.map_eq_some_iff,
        Prod.mk.injEq] at hwrite
      obtain ⟨hitems, known, hknown, rfl, rfl⟩ := hwrite
      refine ⟨PostgresRunRepository.saved known error errorType summary state run, ?_, rfl⟩
      simp only [apply, transact, PostgresRunRepository.save, hknown, if_neg hitems, replying]
      exact KeyedTable.find?_upsert_of_some _ rfl hrun
  | openGate runId' gateType payload =>
      simp only [phaseWrite, Option.ite_none_left_eq_some, Option.some.injEq,
        Prod.mk.injEq] at hwrite
      obtain ⟨hfresh, rfl, rfl⟩ := hwrite
      obtain ⟨gate, s', hok, hruns, -⟩ := PostgresJobRepository.openGate_of_fresh now hrun
        (by simpa using hfresh)
      have happly := apply_of_ok tenant ⟨now, .openGate runId' gateType payload⟩ s
        (congrArg (replying .gate) hok)
      refine ⟨run.setPhase (gatePhase gateType), ?_, rfl⟩
      rw [happly, JobStore.run?, hruns]
      exact KeyedTable.find?_update_self _ _ hrun
  | resolveGate gateId version resolution =>
      simp only [phaseWrite] at hwrite
      split at hwrite
      · cases hwrite
      · rename_i gate hgate
        split at hwrite
        · rename_i hfree
          obtain ⟨hversion, hpending, hfresh⟩ := hfree
          cases hwrite
          obtain ⟨job, s', hok, hruns⟩ := PostgresJobRepository.resolveGate_of_pending
            now resolution hgate hversion hpending hfresh
          have happly := apply_of_ok tenant ⟨now, .resolveGate gateId version resolution⟩ s
            (congrArg (replying .job) hok)
          refine ⟨run.setPhase .running, ?_, rfl⟩
          rw [happly, JobStore.run?, hruns]
          exact KeyedTable.find?_update_self _ _ hrun
        · cases hwrite
  | lease id workerId call =>
      cases call with
      | fail error errorType retryable =>
          simp only [phaseWrite] at hwrite
          split at hwrite
          · cases hwrite
          · rename_i row hrow
            split at hwrite
            · cases hwrite
            · rename_i hretry
              cases hwrite
              let failed := row.failed error errorType retryable now
              refine ⟨run.failed failed.error failed.errorType, ?_, rfl⟩
              simp only [apply, transact, PostgresJobRepository.fail, hrow, replying,
                if_neg hretry]
              exact run?_updateRun (Run.failed failed.error failed.errorType) (fun _ => rfl) hrun
      | complete | renew => cases hwrite
  | _ => cases hwrite

end Writes

/-- Of all calls exactly those that spare the ended runs keep their phases. -/
theorem phasesKept_apply_iff (tenant : TenantContext) (s : JobStore) (c : JobsCall) :
    PhasesKept s (c.apply tenant s).2 ↔ SparesEnded tenant s c := by
  constructor
  · intro hkept runId phase run hwrite hrun hterminal
    obtain ⟨run', hrun', hphase'⟩ := hkept runId run hrun hterminal
    obtain ⟨written, hwritten, hphase⟩ := run?_of_phaseWrite hwrite hrun
    rw [← hphase', ← hphase, Option.some.inj (hrun'.symm.trans hwritten)]
  · intro hspare runId run hrun hterminal
    obtain ⟨run', hrun', hstep⟩ := (apply_changes tenant c s).runs.find?_forward hrun
    refine ⟨run', hrun', ?_⟩
    rcases hstep with rfl | hstep
    · rfl
    · cases hstep with
      | written hwrite =>
          rw [KeyedTable.find?_key hrun] at hwrite
          exact (hspare runId _ run hwrite hrun hterminal).symm
      | cancelled _ hphase => exact absurd hphase (not_cancellable_of_terminal _ hterminal)

end JobsCall

/-- The terminal phases are absorbing all along a run exactly when each of its
phase writes meets a run that is still going or repeats the phase it finds. -/
theorem terminal_absorbing_iff (tenant : TenantContext) (calls : List JobsCall) :
    Machine.Guarded (JobsCall.apply tenant) (SparesEnded tenant) .empty calls ↔
      ∀ pre mid post, calls = pre ++ mid ++ post →
        PhasesKept (Machine.run (JobsCall.apply tenant) .empty pre)
          (Machine.run (JobsCall.apply tenant) .empty (pre ++ mid)) :=
  Machine.guarded_iff_related (JobsCall.apply tenant) PhasesKept.refl
    (fun _ _ _ h h' => h.trans h') (JobsCall.phasesKept_apply_iff tenant) .empty calls

/-- The worker that opened the gate died before it completed the job; the job
runs a second time when the run is cancelled, and its snapshot is saved last. -/
def cancelledRun : List JobsCall :=
  [⟨0, .enqueueRun "run-1" "offer" "tiktok" 1 (.obj []) 5⟩,
    ⟨0, .claim "runner-http" 1 []⟩,
    ⟨seconds 10, .openGate "run-1" "review_creative_plan" []⟩,
    ⟨seconds 130, .claim "runner-http" 1 []⟩,
    ⟨seconds 140, .cancelPendingTestRuns "pipeline_v2_reset"⟩]

def lateSnapshot : List JobsCall :=
  [⟨seconds 150, .saveRun "run-1" "running" (.obj []) (.obj []) [] none none⟩]

/-- The late snapshot puts the cancelled run back to `running`. -/
theorem cancelled_run_revived :
    ¬ ∀ (tenant : TenantContext) (calls pre mid post : List JobsCall),
      calls = pre ++ mid ++ post →
        PhasesKept (Machine.run (JobsCall.apply tenant) .empty pre)
          (Machine.run (JobsCall.apply tenant) .empty (pre ++ mid)) := by
  intro h
  have hkept := h sampleTenant _ cancelledRun lateSnapshot [] rfl
  have hbefore : ((Machine.run (JobsCall.apply sampleTenant) .empty cancelledRun).run?
      "run-1").map (·.phase) = some .cancelled := by decide +kernel
  have hafter : ((Machine.run (JobsCall.apply sampleTenant) .empty
      (cancelledRun ++ lateSnapshot)).run? "run-1").map (·.phase) = some .running := by
    decide +kernel
  obtain ⟨run, hrun, hphase⟩ := Option.map_eq_some_iff.mp hbefore
  obtain ⟨run', hrun', hphase'⟩ := hkept "run-1" run hrun (by rw [hphase]; rfl)
  rw [hrun', Option.map_some, hphase', hphase] at hafter
  cases hafter

end Orchestrator
