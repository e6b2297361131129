import Orchestrator.Db.Jobs
import Orchestrator.Lib.Machine

/-!
What one committed call can do to each table of the queue.

Every method has one inversion lemma; from them `apply_changes` says for each
table what any call does to it: nothing, the insertion of one row of a known
kind, or moves of rows by a step of a known kind, with the guards that admitted
it. The invariants of the queue are case analyses on these steps.
-/

namespace Orchestrator

namespace Run

@[simp] theorem setPhase_phase (phase : RunPhase) (run : Run) :
    (run.setPhase phase).phase = phase := rfl

@[simp] theorem failed_phase (error errorType : Option String) (run : Run) :
    (run.failed error errorType).phase = .error := rfl

end Run

namespace PostgresJobRepository
variable {tenant : TenantContext} {now : Timestamp} {s s' : JobStore}

section Frame
variable (row : JobModel) (offer : String) (batchSize : Int) (gate : RunGateModel)
  (workerId reason : String) (claimed : List JobModel) (runIds : List String)

@[simp] theorem announceRun_runs :
    (announceRun row offer batchSize now s).runs = s.runs := rfl

@[simp] theorem announceRun_jobs :
    (announceRun row offer batchSize now s).jobs = s.jobs := rfl

@[simp] theorem announceRun_gates :
    (announceRun row offer batchSize now s).gates = s.gates := rfl

@[simp] theorem announceResume_jobs : (announceResume gate row now s).jobs = s.jobs := rfl

@[simp] theorem announceResume_gates : (announceResume gate row now s).gates = s.gates := rfl

theorem announceResume_outbox_rows : (announceResume gate row now s).outbox.rows =
    s.outbox.rows ++ [{
      entryId := s.outbox.next, topic := "run.resume", messageKey := row.jobId
      payload := .obj [("job_id", .str row.jobId), ("run_id", .str gate.runId)]
      status := .pending, attempt := 0, leaseExpiresAt := none, workerId := none
      error := none, availableAt := now }] := rfl

theorem announceResume_events_rows : (announceResume gate row now s).events.rows =
    s.events.rows ++ [{
      seq := s.events.next, runId := gate.runId, eventType := "gate_resolved"
      data := .obj [("gate_id", .str gate.gateId), ("gate_type", .str gate.gateType),
        ("version", .nat gate.version)]
      createdAt := now }] := rfl

@[simp] theorem failRun_jobs : (failRun row now s).jobs = s.jobs := rfl

@[simp] theorem failRun_gates : (failRun row now s).gates = s.gates := rfl

@[simp] theorem failRun_outbox : (failRun row now s).outbox = s.outbox := rfl

/-- A loop that only appends events leaves every other table alone. -/
theorem foldl_frame {α β : Type} (proj : JobStore → β) (f : JobStore → α → JobStore)
    (hf : ∀ s a, proj (f s a) = proj s) (as : List α) (s : JobStore) :
    proj (as.foldl f s) = proj s := by
  induction as generalizing s with
  | nil => rfl
  | cons a as ih => rw [List.foldl_cons, ih, hf]

@[simp] theorem foldl_jobStarted_runs :
    (claimed.foldl (jobStarted workerId now) s).runs = s.runs :=
  foldl_frame JobStore.runs (jobStarted workerId now) (fun _ _ => rfl) claimed s

@[simp] theorem foldl_jobStarted_jobs :
    (claimed.foldl (jobStarted workerId now) s).jobs = s.jobs :=
  foldl_frame JobStore.jobs (jobStarted workerId now) (fun _ _ => rfl) claimed s

@[simp] theorem foldl_jobStarted_gates :
    (claimed.foldl (jobStarted workerId now) s).gates = s.gates :=
  foldl_frame JobStore.gates (jobStarted workerId now) (fun _ _ => rfl) claimed s

@[simp] theorem foldl_jobStarted_outbox :
    (claimed.foldl (jobStarted workerId now) s).outbox = s.outbox :=
  foldl_frame JobStore.outbox (jobStarted workerId now) (fun _ _ => rfl) claimed s

@[simp] theorem foldl_runCancelled_runs :
    (runIds.foldl (runCancelled reason now) s).runs = s.runs :=
  foldl_frame JobStore.runs (runCancelled reason now) (fun _ _ => rfl) runIds s

@[simp] theorem foldl_runCancelled_jobs :
    (runIds.foldl (runCancelled reason now) s).jobs = s.jobs :=
  foldl_frame JobStore.jobs (runCancelled reason now) (fun _ _ => rfl) runIds s

@[simp] theorem foldl_runCancelled_gates :
    (runIds.foldl (runCancelled reason now) s).gates = s.gates :=
  foldl_frame JobStore.gates (runCancelled reason now) (fun _ _ => rfl) runIds s

@[simp] theorem foldl_runCancelled_outbox :
    (runIds.foldl (runCancelled reason now) s).outbox = s.outbox :=
  foldl_frame JobStore.outbox (runCancelled reason now) (fun _ _ => rfl) runIds s

end Frame

section Inversion
variable {runId offer platform gateType workerId error reason : String} {batchSize : Int}
  {payload : Json} {maxAttempts version : Int} {id gateId : Uuid} {entryId : Nat}
  {fields : List (String × Json)} {resolution : Json} {errorType : Option String}
  {retryable : Bool}

/-- The run of an enqueue is there afterwards, its job is inserted once. -/
theorem enqueueRun_ok {job : Job}
    (h : enqueueRun tenant runId offer platform batchSize payload maxAttempts now s =
      .ok (job, s')) :
    0 < maxAttempts ∧
      (s' = { s with runs := s.runs.insertNew (queuedRun runId offer platform batchSize) } ∨
        ∃ jobs, s.jobs.insert? (executeRunJob tenant runId payload maxAttempts now) = some jobs ∧
          s' = announceRun (executeRunJob tenant runId payload maxAttempts now) offer batchSize
            now { s with runs := s.runs.insertNew (queuedRun runId offer platform batchSize),
                         jobs }) := by
  unfold enqueueRun at h
  split at h
  · cases h
  · rename_i hok
    refine ⟨by omega, ?_⟩
    simp only at h
    split at h
    · cases h
      exact Or.inl rfl
    · rename_i jobs hjobs
      cases h
      exact Or.inr ⟨jobs, hjobs, rfl⟩

theorem complete_ok {u : Unit} (h : complete id workerId now s = .ok (u, s')) :
    ∃ row, s.leasedJob? id workerId now = some row ∧
      s' = (s.updateJob id JobModel.succeeded (fun _ => rfl)).appendEvent row.runId
        "job_succeeded" [("job_id", .str id)] now := by
  unfold complete at h
  split at h
  · cases h
  · rename_i row hrow
    cases h
    exact ⟨row, hrow, rfl⟩

theorem renew_ok {job : Job} (h : renew id workerId now s = .ok (job, s')) :
    ∃ row, s.leasedJob? id workerId now = some row ∧
      s' = (s.updateJob id (JobModel.renewed now) (fun _ => rfl)).appendEvent row.runId
        "job_lease_renewed" [("job_id", .str id), ("worker_id", .str workerId)] now := by
  unfold renew at h
  split at h
  · cases h
  · rename_i row hrow
    cases h
    exact ⟨row, hrow, rfl⟩

/-- The event `fail` logs for the job. -/
def failEvent (id : Uuid) (failed : JobModel) : List (String × Json) :=
  [("job_id", .str id), ("attempt", .nat failed.attempt),
    ("error", .str (failed.error.getD "")), ("error_type", .str (failed.errorType.getD ""))]

theorem fail_ok {job : Job}
    (h : fail id workerId error errorType retryable now s = .ok (job, s')) :
    ∃ row, s.leasedJob? id workerId now = some row ∧
      let failed := row.failed error errorType retryable now
      let marked := s.updateJob id (JobModel.failed error errorType retryable now) (fun _ => rfl)
      s' = if row.willRetry retryable
        then marked.appendEvent failed.runId "job_retry" (failEvent id failed) now
        else failRun failed now
          (marked.appendEvent failed.runId "job_failed" (failEvent id failed) now) := by
  unfold fail at h
  split at h
  · cases h
  · rename_i row hrow
    cases h
    refine ⟨row, hrow, ?_⟩
    by_cases hr : row.willRetry retryable <;> simp [hr, failEvent]

theorem openGate_ok {gate : RunGate}
    (h : openGate tenant runId gateType fields now s = .ok (gate, s')) :
    gate = newGate tenant runId gateType (s.nextGateVersion runId gateType) fields ∧
    ∃ run gates, s.run? runId = some run ∧ s.gates.insert? { gate with } = some gates ∧
      s' = ((({ s with gates }.updateRun runId (Run.setPhase (gatePhase gateType))
          (fun _ => rfl)).appendEvent runId "gate_opened" (gateEvent gate) now).appendEvent
        runId (publicGateEvent gateType) (publicGateData gate) now) := by
  unfold openGate at h
  split at h
  · cases h
  · rename_i run hrun
    simp only at h
    split at h
    · cases h
    · rename_i gates hgates
      cases h
      exact ⟨rfl, run, gates, hrun, hgates, rfl⟩

/-- A decision is taken only at a pending gate of exactly that version. -/
theorem resolveGate_ok {job : Job}
    (h : resolveGate tenant gateId version resolution now s = .ok (job, s')) :
    ∃ gate run jobs, s.gate? gateId = some gate ∧ gate.version = version ∧
      gate.status = .pending ∧
      let row := resumeRunJob tenant gate (resumePayload gate resolution run) now
      s.jobs.insert? row = some jobs ∧ job = row.toJob ∧
      s' = announceResume gate row now
        { s.updateGate gateId (resolvedGate resolution now) (fun _ => rfl) with jobs } := by
  unfold resolveGate at h
  split at h
  · cases h
  · rename_i gate hgate
    obtain ⟨hfind, hversion⟩ := Option.filter_eq_some_iff.mp hgate
    split at h
    · cases h
    · cases h
    · rename_i hpending
      simp only at h
      split at h
      · cases h
      · rename_i jobs hjobs
        cases h
        exact ⟨gate, _, jobs, hfind, of_decide_eq_true hversion, hpending, hjobs, rfl, rfl⟩

/-- `open_gate` raises only for a missing run or a gate id that is taken. -/
theorem openGate_of_fresh (now : Timestamp) {run : Run} (hrun : s.run? runId = some run)
    (hfresh : s.gate? (newGate tenant runId gateType (s.nextGateVersion runId gateType)
      fields).gateId = none) :
    ∃ gate s', openGate tenant runId gateType fields now s = .ok (gate, s') ∧
      s'.runs = s.runs.update runId (Run.setPhase (gatePhase gateType)) (fun _ => rfl) ∧
      s'.gates.rows = s.gates.rows ++
        [{ toRunGate :=
            newGate tenant runId gateType (s.nextGateVersion runId gateType) fields }] := by
  let gate := newGate tenant runId gateType (s.nextGateVersion runId gateType) fields
  obtain ⟨gates, hgates⟩ :=
    KeyedTable.exists_insert (t := s.gates) (r := { toRunGate := gate }) hfresh
  exact ⟨_, _, by simp only [openGate, hrun]; rw [hgates], rfl, KeyedTable.rows_insert hgates⟩

/-- `resolve_gate` takes a decision at a pending gate of that version, unless
the id of the resume job is taken. -/
theorem resolveGate_of_pending (now : Timestamp) (resolution : Json) {gate : RunGateModel}
    (hgate : s.gate? gateId = some gate)
    (hversion : gate.version = version) (hpending : gate.status = .pending)
    (hfresh : s.job? (resumeJobId tenant gate) = none) :
    ∃ job s', resolveGate tenant gateId version resolution now s = .ok (job, s') ∧
      s'.runs = s.runs.update gate.runId (Run.setPhase .running) (fun _ => rfl) := by
  let marked := s.updateGate gateId (resolvedGate resolution now) (fun _ => rfl)
  let row := resumeRunJob tenant gate
    (resumePayload gate resolution ((marked.initialRunPayload? gate.runId).getD (.obj []))) now
  obtain ⟨jobs, hjobs⟩ :=
    KeyedTable.exists_insert (t := marked.jobs) (r := row) hfresh
  have hfilter : (s.gate? gateId).filter (fun gate => gate.version = version) = some gate := by
    simp [hgate, hversion]
  exact ⟨_, _, by simp only [resolveGate, hfilter, hpending]; rw [hjobs], rfl⟩

theorem markOutboxPublished_ok {u : Unit}
    (h : markOutboxPublished entryId workerId now s = .ok (u, s')) :
    ∃ row, s.leasedMessage? entryId workerId now = some row ∧
      s' = s.updateEntry entryId (OutboxModel.published now) (fun _ => rfl) := by
  unfold markOutboxPublished at h
  split at h
  · cases h
  · rename_i row hrow
    cases h
    exact ⟨row, hrow, rfl⟩

theorem failOutbox_ok {entry : OutboxEntry}
    (h : failOutbox entryId workerId error now s = .ok (entry, s')) :
    ∃ row, s.leasedMessage? entryId workerId now = some row ∧
      s' = s.updateEntry entryId (OutboxModel.failed error now) (fun _ => rfl) := by
  unfold failOutbox at h
  split at h
  · cases h
  · rename_i row hrow
    cases h
    exact ⟨row, hrow, rfl⟩

/-- Nothing was pending, or the gates, runs and jobs of the pending gates move. -/
theorem cancelPendingTestRuns_ok {summary : CancellationSummary}
    (h : cancelPendingTestRuns reason now s = .ok (summary, s')) :
    (pendingRunIds s = [] ∧ s' = s ∧ summary = ⟨0, 0, 0⟩) ∨
      (pendingRunIds s ≠ [] ∧
        s' = (pendingRunIds s).foldl (runCancelled reason now)
          { s with
            gates := s.gates.updateWhere (fun gate => gate.status = .pending)
              (cancelledGate reason now) (fun _ => rfl)
            runs := s.runs.updateWhere
              (fun run => run.id ∈ pendingRunIds s && cancellable run.phase)
              (Run.cancelled reason) (fun _ => rfl)
            jobs := s.jobs.updateWhere
              (fun row => row.runId ∈ pendingRunIds s && row.active)
              (JobModel.cancelled reason) (fun _ => rfl) }) := by
  unfold cancelPendingTestRuns at h
  simp only at h
  split at h
  · rename_i hnone
    cases h
    exact Or.inl ⟨hnone, rfl, rfl⟩
  · rename_i hsome
    cases h
    exact Or.inr ⟨hsome, rfl⟩

end Inversion

end PostgresJobRepository

namespace PostgresRunRepository
variable {runId phase : String} {offer platform error errorType : Option String}
  {batchSize : Option Int} {state summary : Json} {items : List Json} {s s' : JobStore}

theorem start_ok {u : Unit}
    (h : start runId offer platform batchSize s = .ok (u, s')) :
    ¬ batchSize.any (· < 0) ∧
      s' = { s with
        runs := s.runs.upsert { id := runId, offer, platform, batchSize, phase := .running }
          (restarted offer platform batchSize) (fun _ => rfl)
        runItems := s.runItems.deleteWhere (fun item => item.runId = runId) } := by
  unfold start at h
  split at h
  · cases h
  · rename_i hbatch
    cases h
    exact ⟨hbatch, rfl⟩

theorem save_ok {u : Unit}
    (h : save runId phase state summary items error errorType s = .ok (u, s')) :
    ∃ known, RunPhase.ofText? phase = some known ∧
      ¬ items.any (fun item => itemId item = "") ∧
      s' = { s with
        runs := s.runs.upsert { id := runId, phase := known, error, errorType, summary, state }
          (saved known error errorType summary state) (fun _ => rfl)
        runItems := (items.foldl (upsertItem runId) s.runItems).deleteWhere
          (fun row => row.runId = runId && row.itemId ∉ items.map itemId) } := by
  unfold save at h
  split at h
  · cases h
  · rename_i known hknown
    split at h
    · cases h
    · rename_i hitems
      cases h
      exact ⟨known, hknown, hitems, rfl⟩

end PostgresRunRepository

namespace JobsCall
variable (tenant : TenantContext) (c : JobsCall) (s : JobStore)

/-- A call leaves the tables it met or those its transaction commits. -/
theorem apply_cases {P : JobStore → Prop} (hraised : P s)
    (hcommitted : ∀ reply s', c.transact tenant s = .ok (reply, s') → P s') :
    P (c.apply tenant s).2 := by
  unfold apply
  split
  · rename_i reply s' h
    exact hcommitted reply s' h
  · exact hraised

theorem apply_of_ok {reply : JobsReply} {s' : JobStore}
    (h : c.transact tenant s = .ok (reply, s')) : c.apply tenant s = (.ok reply, s') := by
  rw [apply, h]

theorem replying_ok {α : Type} {reply : α → JobsReply} {r : JobsReply} {s' : JobStore}
    {x : Except JobsError (α × JobStore)} (h : replying reply x = .ok (r, s')) :
    ∃ value, x = .ok (value, s') ∧ r = reply value := by
  unfold replying at h
  split at h
  · cases h
    exact ⟨_, rfl, rfl⟩
  · cases h

/-- The job rows a call may insert. -/
inductive NewJob (s : JobStore) : JobsCall → JobModel → Prop where
  | executeRun {now : Timestamp} {runId offer platform : String} {batchSize : Int}
      {payload : Json} {maxAttempts : Int} (hmax : 0 < maxAttempts) :
      NewJob s ⟨now, .enqueueRun runId offer platform batchSize payload maxAttempts⟩
        (PostgresJobRepository.executeRunJob tenant runId payload maxAttempts now)
  | resumeRun {now : Timestamp} {gateId : Uuid} {version : Int} {resolution run : Json}
      {gate : RunGateModel} (hgate : s.gate? gateId = some gate)
      (hversion : gate.version = version) (hpending : gate.status = .pending) :
      NewJob s ⟨now, .resolveGate gateId version resolution⟩
        (PostgresJobRepository.resumeRunJob tenant gate
          (PostgresJobRepository.resumePayload gate resolution run) now)

/-- The moves of a job row. -/
inductive JobStep (s : JobStore) : JobsCall → JobModel → JobModel → Prop where
  | claimed {now : Timestamp} {workerId : String} {limit : Nat} {locked : List Uuid}
      {row : JobModel}
      (hrow : row ∈ PostgresJobRepository.claimCandidates limit locked now s) :
      JobStep s ⟨now, .claim workerId limit locked⟩ row (row.claimed workerId now)
  | completed {now : Timestamp} {workerId : String} {row : JobModel}
      (hrow : row.leasedTo workerId now) :
      JobStep s ⟨now, .lease row.jobId workerId .complete⟩ row row.succeeded
  | renewed {now : Timestamp} {workerId : String} {row : JobModel}
      (hrow : row.leasedTo workerId now) :
      JobStep s ⟨now, .lease row.jobId workerId .renew⟩ row (row.renewed now)
  | failed {now : Timestamp} {workerId error : String} {errorType : Option String}
      {retryable : Bool} {row : JobModel} (hrow : row.leasedTo workerId now) :
      JobStep s ⟨now, .lease row.jobId workerId (.fail error errorType retryable)⟩ row
        (row.failed error errorType retryable now)
  | cancelled {now : Timestamp} {reason : String} {row : JobModel} (hrow : row.active) :
      JobStep s ⟨now, .cancelPendingTestRuns reason⟩ row (row.cancelled reason)

/-- The gate rows a call may insert. -/
inductive NewGate (s : JobStore) : JobsCall → RunGateModel → Prop where
  | opened {now : Timestamp} {runId gateType : String} {payload : List (String × Json)}
      {run : Run} (hrun : s.run? runId = some run) :
      NewGate s ⟨now, .openGate runId gateType payload⟩
        { PostgresJobRepository.newGate tenant runId gateType
            (s.nextGateVersion runId gateType) payload with }

/-- The moves of a gate row: only a pending gate moves. -/
inductive GateStep : JobsCall → RunGateModel → RunGateModel → Prop where
  | resolved {now : Timestamp} {version : Int} {resolution : Json} {gate : RunGateModel}
      (hversion : gate.version = version) (hpending : gate.status = .pending) :
      GateStep ⟨now, .resolveGate gate.gateId version resolution⟩ gate
        (PostgresJobRepository.resolvedGate resolution now gate)
  | cancelled {now : Timestamp} {reason : String} {gate : RunGateModel}
      (hpending : gate.status = .pending) :
      GateStep ⟨now, .cancelPendingTestRuns reason⟩ gate
        (PostgresJobRepository.cancelledGate reason now gate)

/-- The outbox rows a call may insert. -/
inductive NewEntry : JobsCall → OutboxModel → Prop where
  | runQueued {now : Timestamp} {runId offer platform : String} {batchSize : Int}
      {payload : Json} {maxAttempts : Int} {row : OutboxModel}
      (hstatus : row.status = .pending) (hattempt : row.attempt = 0)
      (htopic : row.topic = "run.queued") :
      NewEntry ⟨now, .enqueueRun runId offer platform batchSize payload maxAttempts⟩ row
  | runResume {now : Timestamp} {gateId : Uuid} {version : Int} {resolution : Json}
      {row : OutboxModel} (hstatus : row.status = .pending) (hattempt : row.attempt = 0)
      (htopic : row.topic = "run.resume") :
      NewEntry ⟨now, .resolveGate gateId version resolution⟩ row

/-- The moves of an outbox row. -/
inductive EntryStep (s : JobStore) : JobsCall → OutboxModel → OutboxModel → Prop where
  | claimed {now : Timestamp} {workerId : String} {limit : Nat} {locked : List Nat}
      {row : OutboxModel}
      (hrow : row ∈ PostgresJobRepository.outboxCandidates limit locked now s) :
      EntryStep s ⟨now, .claimOutbox workerId limit locked⟩ row (row.claimed workerId now)
  | published {now : Timestamp} {workerId : String} {row : OutboxModel}
      (hrow : row.leasedTo workerId now) :
      EntryStep s ⟨now, .outbox row.entryId workerId .markPublished⟩ row (row.published now)
  | failed {now : Timestamp} {workerId error : String} {row : OutboxModel}
      (hrow : row.leasedTo workerId now) :
      EntryStep s ⟨now, .outbox row.entryId workerId (.fail error)⟩ row (row.failed error now)

/-- The run whose phase a call is about to write without looking at the stored
one, and the phase; nothing for a call that will raise. -/
def phaseWrite (c : JobsCall) (s : JobStore) : Option (String × RunPhase) :=
  match c.op with
  | .startRun runId _ _ batchSize =>
      if batchSize.any (· < 0) then none else some (runId, .running)
  | .saveRun runId phase _ _ items _ _ =>
      if items.any (fun item => PostgresRunRepository.itemId item = "") then none
      else (RunPhase.ofText? phase).map (fun phase => (runId, phase))
  | .openGate runId gateType payload =>
      let gate := PostgresJobRepository.newGate tenant runId gateType
        (s.nextGateVersion runId gateType) payload
      if (s.gate? gate.gateId).isSome then none else some (runId, gatePhase gateType)
  | .resolveGate gateId version _ =>
      match s.gate? gateId with
      | none => none
      | some gate =>
          if gate.version = version ∧ gate.status = .pending ∧
              s.job? (PostgresJobRepository.resumeJobId tenant gate) = none then
            some (gate.runId, .running)
          else none
  | .lease id workerId (.fail _ _ retryable) =>
      match s.leasedJob? id workerId c.now with
      | none => none
      | some row => if row.willRetry retryable then none else some (row.runId, .error)
  | _ => none

/-- The moves of the phase of a run. -/
inductive RunStep (s : JobStore) (c : JobsCall) : Run → Run → Prop where
  | written {run run' : Run} (h : c.phaseWrite tenant s = some (run.id, run'.phase)) :
      RunStep s c run run'
  | cancelled {now : Timestamp} {reason : String} {run : Run}
      (hcall : c = ⟨now, .cancelPendingTestRuns reason⟩)
      (hphase : PostgresJobRepository.cancellable run.phase) :
      RunStep s c run (run.cancelled reason)

/-- The types of the events a call logs. -/
def eventTypes (c : JobsCall) : List String :=
  match c.op with
  | .enqueueRun .. => ["run_queued", "run_start"]
  | .claim .. => ["job_started"]
  | .lease _ _ .complete => ["job_succeeded"]
  | .lease _ _ .renew => ["job_lease_renewed"]
  | .lease _ _ (.fail ..) => ["job_retry", "job_failed", "error"]
  | .openGate _ gateType _ => ["gate_opened", publicGateEvent gateType]
  | .resolveGate .. => ["gate_resolved"]
  | .cancelPendingTestRuns _ => ["run_cancelled"]
  | .claimOutbox .. | .outbox .. | .startRun .. | .saveRun .. => []

/-- Events are only ever appended, and only events of the given types. -/
def Logs (types : List String) (s s' : JobStore) : Prop :=
  ∃ logged, s'.events.rows = s.events.rows ++ logged ∧ ∀ e ∈ logged, e.eventType ∈ types

theorem Logs.refl (types : List String) (s : JobStore) : Logs types s s :=
  ⟨[], by simp, nofun⟩

theorem Logs.of_events_eq {types : List String} {s s' : JobStore} (h : s'.events = s.events) :
    Logs types s s' :=
  ⟨[], by simp [h], nofun⟩

theorem Logs.appendEvent {types : List String} {s s' : JobStore} (h : Logs types s s')
    {runId eventType : String} (data : List (String × Json)) (now : Timestamp)
    (htype : eventType ∈ types) : Logs types s (s'.appendEvent runId eventType data now) := by
  obtain ⟨logged, hrows, hlogged⟩ := h
  refine ⟨logged ++ [⟨s'.events.next, runId, eventType, .obj data, now⟩], ?_, ?_⟩
  · simp [hrows]
  · intro e he
    rcases List.mem_append.mp he with he | he
    · exact hlogged e he
    · rw [List.mem_singleton.mp he]
      exact htype

theorem Logs.foldl {α : Type} {types : List String} {f : JobStore → α → JobStore}
    (hf : ∀ s s' a, Logs types s s' → Logs types s (f s' a)) (as : List α) {s s' : JobStore}
    (h : Logs types s s') : Logs types s (as.foldl f s') := by
  induction as generalizing s' with
  | nil => exact h
  | cons a as ih => exact ih (hf s s' a h)

/-- What one call does to the tables. -/
structure Changes (s : JobStore) (c : JobsCall) (s' : JobStore) : Prop where
  jobs : s.jobs.Change (NewJob tenant s c) (JobStep s c) s'.jobs
  gates : s.gates.Change (NewGate tenant s c) (GateStep c) s'.gates
  outbox : s.outbox.toKeyedTable.Change (NewEntry c) (EntryStep s c) s'.outbox.toKeyedTable
  runs : s.runs.Change (fun _ => True) (RunStep tenant s c) s'.runs
  events : Logs c.eventTypes s s'

theorem Changes.unchanged : Changes tenant s c s :=
  ⟨.unchanged, .unchanged, .unchanged, .unchanged, .refl _ _⟩

section Candidates
variable {s} {now : Timestamp}

theorem leasedJob?_eq_some_iff {id : Uuid} {workerId : String} {row : JobModel} :
    s.leasedJob? id workerId now = some row ↔
      s.job? id = some row ∧ row.leasedTo workerId now := by
  rw [JobStore.leasedJob?, Option.filter_eq_some_iff]

theorem leasedMessage?_eq_some_iff {id : Nat} {workerId : String} {row : OutboxModel} :
    s.leasedMessage? id workerId now = some row ↔
      s.message? id = some row ∧ row.leasedTo workerId now := by
  rw [JobStore.leasedMessage?, Option.filter_eq_some_iff]

theorem mem_claimCandidates {limit : Nat} {locked : List Uuid} {row : JobModel}
    (h : row ∈ PostgresJobRepository.claimCandidates limit locked now s) :
    row ∈ s.jobs.rows ∧ row.claimable now ∧ row.jobId ∉ locked := by
  have hmem := List.mem_of_mem_take h
  simpa [List.mem_insertionSort] using hmem

theorem mem_outboxCandidates {limit : Nat} {locked : List Nat} {row : OutboxModel}
    (h : row ∈ PostgresJobRepository.outboxCandidates limit locked now s) :
    row ∈ s.outbox.rows ∧ row.claimable now ∧ row.entryId ∉ locked := by
  have hmem := List.mem_of_mem_take h
  simpa [List.mem_insertionSort] using hmem

end Candidates

section Tables
variable {c s} {s' : JobStore} {reply : JobsReply} {now : Timestamp}

theorem enqueueRun_changes {runId offer platform : String} {batchSize : Int} {payload : Json}
    {maxAttempts : Int} {job : Job}
    (h : PostgresJobRepository.enqueueRun tenant runId offer platform batchSize payload
      maxAttempts now s = .ok (job, s')) :
    Changes tenant s ⟨now, .enqueueRun runId offer platform batchSize payload maxAttempts⟩ s' := by
  have hruns (c : JobsCall) : s.runs.Change (fun _ => True) (RunStep tenant s c)
      (s.runs.insertNew (PostgresJobRepository.queuedRun runId offer platform batchSize)) :=
    .insertNew trivial
  obtain ⟨hmax, rfl | ⟨jobs, hjobs, rfl⟩⟩ := PostgresJobRepository.enqueueRun_ok h
  · exact ⟨.unchanged, .unchanged, .unchanged, hruns _, .of_events_eq rfl⟩
  · exact ⟨.inserted hjobs (.executeRun hmax), .unchanged,
      .inserted (s.outbox.insert?_append _ _) (.runQueued rfl rfl rfl), hruns _,
      ((Logs.of_events_eq rfl).appendEvent _ _ (by simp [eventTypes])).appendEvent _ _
        (by simp [eventTypes])⟩

theorem claim_changes (workerId : String) (limit : Nat) (locked : List Uuid) {jobs : List Job}
    (h : PostgresJobRepository.claim workerId limit locked now s = .ok (jobs, s')) :
    Changes tenant s ⟨now, .claim workerId limit locked⟩ s' := by
  cases h
  refine ⟨?_, ?_, ?_, ?_, ?_⟩
  · rw [PostgresJobRepository.foldl_jobStarted_jobs]
    refine .updated _ (JobModel.claimed workerId now) (fun _ => rfl) fun row hrow hmem => ?_
    obtain ⟨row', hrow', hid⟩ := List.mem_map.mp (of_decide_eq_true hmem)
    obtain rfl := s.jobs.eq_of_key_eq (mem_claimCandidates hrow').1 hrow hid
    exact .claimed hrow'
  · rw [PostgresJobRepository.foldl_jobStarted_gates]
    exact .unchanged
  · rw [PostgresJobRepository.foldl_jobStarted_outbox]
    exact .unchanged
  · rw [PostgresJobRepository.foldl_jobStarted_runs]
    exact .unchanged
  · exact Logs.foldl (fun _ _ _ h => h.appendEvent _ _ (by simp [eventTypes])) _
      (.of_events_eq rfl)

theorem complete_changes {id : Uuid} {workerId : String} {u : Unit}
    (h : PostgresJobRepository.complete id workerId now s = .ok (u, s')) :
    Changes tenant s ⟨now, .lease id workerId .complete⟩ s' := by
  obtain ⟨row, hrow, rfl⟩ := PostgresJobRepository.complete_ok h
  obtain ⟨hfind, hleased⟩ := leasedJob?_eq_some_iff.mp hrow
  obtain rfl := KeyedTable.find?_key hfind
  exact ⟨.update (f := JobModel.succeeded) (fun _ => rfl) hfind (.completed hleased),
    .unchanged, .unchanged, .unchanged,
    (Logs.of_events_eq rfl).appendEvent _ _ (by simp [eventTypes])⟩

theorem renew_changes {id : Uuid} {workerId : String} {job : Job}
    (h : PostgresJobRepository.renew id workerId now s = .ok (job, s')) :
    Changes tenant s ⟨now, .lease id workerId .renew⟩ s' := by
  obtain ⟨row, hrow, rfl⟩ := PostgresJobRepository.renew_ok h
  obtain ⟨hfind, hleased⟩ := leasedJob?_eq_some_iff.mp hrow
  obtain rfl := KeyedTable.find?_key hfind
  exact ⟨.update (f := JobModel.renewed now) (fun _ => rfl) hfind (.renewed hleased),
    .unchanged, .unchanged, .unchanged,
    (Logs.of_events_eq rfl).appendEvent _ _ (by simp [eventTypes])⟩

theorem fail_changes {id : Uuid} {workerId error : String} {errorType : Option String}
    {retryable : Bool} {job : Job}
    (h : PostgresJobRepository.fail id workerId error errorType retryable now s =
      .ok (job, s')) :
    Changes tenant s ⟨now, .lease id workerId (.fail error errorType retryable)⟩ s' := by
  obtain ⟨row, hrow, rfl⟩ := PostgresJobRepository.fail_ok h
  obtain ⟨hfind, hleased⟩ := leasedJob?_eq_some_iff.mp hrow
  obtain rfl := KeyedTable.find?_key hfind
  let c : JobsCall := ⟨now, .lease row.key workerId (.fail error errorType retryable)⟩
  have hjobs : s.jobs.Change (NewJob tenant s c) (JobStep s c)
      (s.jobs.update row.key (JobModel.failed error errorType retryable now) fun _ => rfl) :=
    .update (f := JobModel.failed error errorType retryable now) (fun _ => rfl) hfind
      (.failed hleased)
  by_cases hr : row.willRetry retryable
  · simp only [hr, ↓reduceIte]
    exact ⟨hjobs, .unchanged, .unchanged, .unchanged,
      (Logs.of_events_eq rfl).appendEvent _ _ (by simp [eventTypes])⟩
  · simp only [hr]
    refine ⟨hjobs, .unchanged, .unchanged,
      .updated _ (Run.failed _ _) (fun _ => rfl) fun run _ hid => ?_,
      ((Logs.of_events_eq rfl).appendEvent _ _ (by simp [eventTypes])).appendEvent _ _
        (by simp [eventTypes])⟩
    have hid : run.id = row.runId := of_decide_eq_true hid
    exact .written (by simp [phaseWrite, hrow, hr, hid])

theorem openGate_changes {runId gateType : String} {payload : List (String × Json)}
    {gate : RunGate}
    (h : PostgresJobRepository.openGate tenant runId gateType payload now s =
      .ok (gate, s')) :
    Changes tenant s ⟨now, .openGate runId gateType payload⟩ s' := by
  obtain ⟨rfl, run, gates, hrun, hgates, rfl⟩ := PostgresJobRepository.openGate_ok h
  refine ⟨.unchanged, .inserted hgates (.opened hrun), .unchanged,
    .updated _ (Run.setPhase _) (fun _ => rfl) fun run _ hid => ?_,
    ((Logs.of_events_eq rfl).appendEvent _ _ (by simp [eventTypes])).appendEvent _ _
      (by simp [eventTypes])⟩
  have hid : run.id = runId := of_decide_eq_true hid
  have hfresh : s.gate? _ = none := (KeyedTable.insert?_eq_some_iff.mp hgates).1
  exact .written (by simp [phaseWrite, hfresh, hid])

theorem resolveGate_changes {gateId : Uuid} {version : Int} {resolution : Json} {job : Job}
    (h : PostgresJobRepository.resolveGate tenant gateId version resolution now s =
      .ok (job, s')) :
    Changes tenant s ⟨now, .resolveGate gateId version resolution⟩ s' := by
  obtain ⟨gate, run, jobs, hgate, hversion, hpending, hjobs, -, rfl⟩ :=
    PostgresJobRepository.resolveGate_ok h
  obtain rfl := KeyedTable.find?_key hgate
  refine ⟨.inserted hjobs (.resumeRun hgate hversion hpending),
    .update (f := PostgresJobRepository.resolvedGate resolution now) (fun _ => rfl)
      hgate (.resolved hversion hpending),
    .inserted (s.outbox.insert?_append _ _) (.runResume rfl rfl rfl),
    .updated _ (Run.setPhase _) (fun _ => rfl) fun run _ hid => ?_,
    (Logs.of_events_eq rfl).appendEvent _ _ (by simp [eventTypes])⟩
  have hid : run.id = gate.runId := of_decide_eq_true hid
  have hfresh : s.job? _ = none := (KeyedTable.insert?_eq_some_iff.mp hjobs).1
  have hgate' : s.gate? gate.gateId = some gate := hgate
  have hfresh : s.job? (PostgresJobRepository.resumeJobId tenant gate) = none := hfresh
  exact .written (by simp [phaseWrite, hgate', hversion, hpending, hid, hfresh])

theorem claimOutbox_changes (workerId : String) (limit : Nat) (locked : List Nat)
    {entries : List OutboxEntry}
    (h : PostgresJobRepository.claimOutbox workerId limit locked now s = .ok (entries, s')) :
    Changes tenant s ⟨now, .claimOutbox workerId limit locked⟩ s' := by
  cases h
  refine ⟨.unchanged, .unchanged,
    .updated _ (OutboxModel.claimed workerId now) (fun _ => rfl) fun row hrow hmem => ?_,
    .unchanged, .of_events_eq rfl⟩
  obtain ⟨row', hrow', hid⟩ := List.mem_map.mp (of_decide_eq_true hmem)
  obtain rfl := s.outbox.eq_of_key_eq (mem_outboxCandidates hrow').1 hrow hid
  exact .claimed hrow'

theorem markOutboxPublished_changes {entryId : Nat} {workerId : String} {u : Unit}
    (h : PostgresJobRepository.markOutboxPublished entryId workerId now s = .ok (u, s')) :
    Changes tenant s ⟨now, .outbox entryId workerId .markPublished⟩ s' := by
  obtain ⟨row, hrow, rfl⟩ := PostgresJobRepository.markOutboxPublished_ok h
  obtain ⟨hfind, hleased⟩ := leasedMessage?_eq_some_iff.mp hrow
  obtain rfl := KeyedTable.find?_key hfind
  exact ⟨.unchanged, .unchanged, .update (f := OutboxModel.published now) (fun _ => rfl) hfind
    (.published hleased), .unchanged, .of_events_eq rfl⟩

theorem failOutbox_changes {entryId : Nat} {workerId error : String} {entry : OutboxEntry}
    (h : PostgresJobRepository.failOutbox entryId workerId error now s = .ok (entry, s')) :
    Changes tenant s ⟨now, .outbox entryId workerId (.fail error)⟩ s' := by
  obtain ⟨row, hrow, rfl⟩ := PostgresJobRepository.failOutbox_ok h
  obtain ⟨hfind, hleased⟩ := leasedMessage?_eq_some_iff.mp hrow
  obtain rfl := KeyedTable.find?_key hfind
  exact ⟨.unchanged, .unchanged, .update (f := OutboxModel.failed error now) (fun _ => rfl) hfind
    (.failed hleased), .unchanged, .of_events_eq rfl⟩

theorem cancelPendingTestRuns_changes {reason : String} {summary : CancellationSummary}
    (h : PostgresJobRepository.cancelPendingTestRuns reason now s = .ok (summary, s')) :
    Changes tenant s ⟨now, .cancelPendingTestRuns reason⟩ s' := by
  obtain ⟨-, rfl, -⟩ | ⟨-, rfl⟩ := PostgresJobRepository.cancelPendingTestRuns_ok h
  · exact .unchanged ..
  · refine ⟨?_, ?_, ?_, ?_, ?_⟩
    · rw [PostgresJobRepository.foldl_runCancelled_jobs]
      refine .updated _ (JobModel.cancelled reason) (fun _ => rfl) fun row _ hp => .cancelled ?_
      exact (Bool.and_eq_true _ _ ▸ hp).2
    · rw [PostgresJobRepository.foldl_runCancelled_gates]
      exact .updated _ (PostgresJobRepository.cancelledGate reason now) (fun _ => rfl)
        fun gate _ hp => .cancelled (of_decide_eq_true hp)
    · rw [PostgresJobRepository.foldl_runCancelled_outbox]
      exact .unchanged
    · rw [PostgresJobRepository.foldl_runCancelled_runs]
      refine .updated _ (Run.cancelled reason) (fun _ => rfl) fun run _ hp => .cancelled rfl ?_
      exact (Bool.and_eq_true _ _ ▸ hp).2
    · exact Logs.foldl (fun _ _ _ h => h.appendEvent _ _ (by simp [eventTypes])) _
        (.of_events_eq rfl)

theorem startRun_changes {runId : String} {offer platform : Option String}
    {batchSize : Option Int} {u : Unit}
    (h : PostgresRunRepository.start runId offer platform batchSize s = .ok (u, s')) :
    Changes tenant s ⟨now, .startRun runId offer platform batchSize⟩ s' := by
  obtain ⟨hbatch, rfl⟩ := PostgresRunRepository.start_ok h
  refine ⟨.unchanged, .unchanged, .unchanged,
    .upsert (f := PostgresRunRepository.restarted offer platform batchSize) (fun _ => rfl)
      trivial fun run hrun => ?_, .of_events_eq rfl⟩
  have hid : run.id = runId := KeyedTable.find?_key hrun
  exact .written (by simp [phaseWrite, hbatch, hid, PostgresRunRepository.restarted])

theorem saveRun_changes {runId phase : String} {state summary : Json} {items : List Json}
    {error errorType : Option String} {u : Unit}
    (h : PostgresRunRepository.save runId phase state summary items error errorType s =
      .ok (u, s')) :
    Changes tenant s ⟨now, .saveRun runId phase state summary items error errorType⟩ s' := by
  obtain ⟨known, hknown, hitems, rfl⟩ := PostgresRunRepository.save_ok h
  refine ⟨.unchanged, .unchanged, .unchanged,
    .upsert (f := PostgresRunRepository.saved known error errorType summary state)
      (fun _ => rfl) trivial fun run hrun => ?_, .of_events_eq rfl⟩
  have hid : run.id = runId := KeyedTable.find?_key hrun
  refine .written ?_
  simp only [phaseWrite, if_neg hitems, hknown, Option.map_some, hid]
  rfl

end Tables

/-- Every call changes each table only in the listed ways. -/
theorem apply_changes : Changes tenant s c (c.apply tenant s).2 := by
  refine apply_cases tenant c s (P := Changes tenant s c) (.unchanged ..) ?_
  intro reply s' h
  obtain ⟨now, op⟩ := c
  cases op with
  | enqueueRun runId offer platform batchSize payload maxAttempts =>
      obtain ⟨job, h, -⟩ := replying_ok h
      exact enqueueRun_changes tenant h
  | claim workerId limit locked =>
      obtain ⟨jobs, h, -⟩ := replying_ok
        (x := PostgresJobRepository.claim workerId limit locked now s) h
      exact claim_changes tenant workerId limit locked h
  | lease id workerId call =>
      cases call with
      | complete =>
          obtain ⟨u, h, -⟩ := replying_ok h
          exact complete_changes tenant h
      | renew =>
          obtain ⟨job, h, -⟩ := replying_ok h
          exact renew_changes tenant h
      | fail error errorType retryable =>
          obtain ⟨job, h, -⟩ := replying_ok h
          exact fail_changes tenant h
  | openGate runId gateType payload =>
      obtain ⟨gate, h, -⟩ := replying_ok h
      exact openGate_changes tenant h
  | resolveGate gateId version resolution =>
      obtain ⟨job, h, -⟩ := replying_ok h
      exact resolveGate_changes tenant h
  | claimOutbox workerId limit locked =>
      obtain ⟨entries, h, -⟩ := replying_ok
        (x := PostgresJobRepository.claimOutbox workerId limit locked now s) h
      exact claimOutbox_changes tenant workerId limit locked h
  | outbox entryId workerId call =>
      cases call with
      | markPublished =>
          obtain ⟨u, h, -⟩ := replying_ok h
          exact markOutboxPublished_changes tenant h
      | fail error =>
          obtain ⟨entry, h, -⟩ := replying_ok h
          exact failOutbox_changes tenant h
  | cancelPendingTestRuns reason =>
      obtain ⟨summary, h, -⟩ := replying_ok h
      exact cancelPendingTestRuns_changes tenant h
  | startRun runId offer platform batchSize =>
      obtain ⟨u, h, -⟩ := replying_ok h
      exact startRun_changes tenant h
  | saveRun runId phase state summary items error errorType =>
      obtain ⟨u, h, -⟩ := replying_ok h
      exact saveRun_changes tenant h

section Claimed
variable {s} {now : Timestamp} (workerId : String) {limit : Nat}

/-- The rows a claim selects are the rows it moves. -/
theorem job?_claim (locked : List Uuid) {row : JobModel}
    (h : row ∈ PostgresJobRepository.claimCandidates limit locked now s) :
    (apply tenant ⟨now, .claim workerId limit locked⟩ s).2.job? row.jobId =
      some (row.claimed workerId now) := by
  let taken (row' : JobModel) : Bool :=
    row'.jobId ∈ (PostgresJobRepository.claimCandidates limit locked now s).map (·.jobId)
  have hfind : s.jobs.find? row.jobId = some row :=
    KeyedTable.find?_of_mem (mem_claimCandidates h).1
  have hjobs : (apply tenant ⟨now, .claim workerId limit locked⟩ s).2.jobs =
      s.jobs.updateWhere taken (JobModel.claimed workerId now) (fun _ => rfl) :=
    PostgresJobRepository.foldl_jobStarted_jobs ..
  have hupdate := KeyedTable.find?_updateWhere s.jobs taken (JobModel.claimed workerId now)
    (fun _ => rfl) row.jobId
  rw [hfind, Option.map_some, if_pos (decide_eq_true (List.mem_map_of_mem h))] at hupdate
  exact (congrArg (fun t => t.find? row.jobId) hjobs).trans hupdate

theorem message?_claimOutbox (locked : List Nat) {row : OutboxModel}
    (h : row ∈ PostgresJobRepository.outboxCandidates limit locked now s) :
    (apply tenant ⟨now, .claimOutbox workerId limit locked⟩ s).2.message? row.entryId =
      some (row.claimed workerId now) := by
  let taken (row' : OutboxModel) : Bool :=
    row'.entryId ∈ (PostgresJobRepository.outboxCandidates limit locked now s).map (·.entryId)
  have hfind : s.outbox.find? row.entryId = some row :=
    KeyedTable.find?_of_mem (mem_outboxCandidates h).1
  have hupdate := KeyedTable.find?_updateWhere s.outbox.toKeyedTable taken
    (OutboxModel.claimed workerId now) (fun _ => rfl) row.entryId
  rw [hfind, Option.map_some, if_pos (decide_eq_true (List.mem_map_of_mem h))] at hupdate
  exact hupdate

end Claimed

end JobsCall

end Orchestrator
