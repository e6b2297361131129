import Orchestrator.Db.Runs

/-!
The durable queue: jobs, human gates, public events and the transactional
outbox.

Every method is one transaction: it returns its reply with the new tables or
raises, and then nothing was written. A claim meets an arbitrary set of rows
that other transactions hold locked and skips them. That a job, gate or event
never refers to a missing run follows from the order of the writes and is not
tested here.
-/

namespace Orchestrator

def leaseSeconds : Nat := 120
def outboxMaxAttempts : Nat := 5

structure CancellationSummary where
  gates : Nat
  runs : Nat
  jobs : Nat
  deriving DecidableEq, Repr

def jobId (tenant : TenantContext) (runId kind : String) : Uuid :=
  tenant.uuid5 ("orchestrator:" ++ tenant.organizationId ++ ":" ++ runId ++ ":" ++ kind)

/-- `min(5 * (2 ** (attempt - 1)), 300)`; `attempt` is positive once claimed. -/
def retryDelay (attempt : Nat) : Nat := min (5 * 2 ^ (attempt - 1)) 300

/-- `error_type or "Error"` -/
def orError : Option String → String
  | none | some "" => "Error"
  | some text => text

/-- `ORDER BY available_at, created_at, id` -/
def JobModel.before (a b : JobModel) : Bool :=
  a.availableAt < b.availableAt ||
    a.availableAt = b.availableAt &&
      (a.createdAt < b.createdAt || a.createdAt = b.createdAt && a.jobId ≤ b.jobId)

/-- `ORDER BY available_at, id` -/
def OutboxModel.before (a b : OutboxModel) : Bool :=
  a.availableAt < b.availableAt || a.availableAt = b.availableAt && a.entryId ≤ b.entryId

/-- The rows `claim` may take: due ones and running ones whose lease expired. -/
def JobModel.claimable (now : Timestamp) (row : JobModel) : Bool :=
  (row.status = .queued || row.status = .retry) && row.availableAt ≤ now ||
    row.status = .running && row.leaseExpiresAt.any (· ≤ now)

/-- The guard of `complete`, `renew` and `fail`. -/
def JobModel.leasedTo (workerId : String) (now : Timestamp) (row : JobModel) : Bool :=
  row.status = .running && row.workerId = some workerId && row.leaseExpiresAt.any (now < ·)

def OutboxModel.claimable (now : Timestamp) (row : OutboxModel) : Bool :=
  row.status = .pending && row.availableAt ≤ now ||
    row.status = .publishing && row.leaseExpiresAt.any (· ≤ now)

/-- The guard of `mark_outbox_published` and `fail_outbox`. -/
def OutboxModel.leasedTo (workerId : String) (now : Timestamp) (row : OutboxModel) : Bool :=
  row.status = .publishing && row.workerId = some workerId && row.leaseExpiresAt.any (now < ·)

namespace JobModel

def claimed (workerId : String) (now : Timestamp) (row : JobModel) : JobModel :=
  { row with
    status := .running
    attempt := row.attempt + 1
    workerId := some workerId
    leaseExpiresAt := some (now + seconds leaseSeconds)
    error := none
    errorType := none }

def succeeded (row : JobModel) : JobModel :=
  { row with status := .succeeded, leaseExpiresAt := none }

def renewed (now : Timestamp) (row : JobModel) : JobModel :=
  { row with leaseExpiresAt := some (now + seconds leaseSeconds) }

def willRetry (retryable : Bool) (row : JobModel) : Bool :=
  retryable && row.attempt < row.maxAttempts

/-- The row `fail` leaves, whichever way `will_retry` went. -/
def failed (error : String) (errorType : Option String) (retryable : Bool)
    (now : Timestamp) (row : JobModel) : JobModel :=
  let willRetry := row.willRetry retryable
  { row with
    status := if willRetry then .retry else .failed
    availableAt := now + seconds (if willRetry then retryDelay row.attempt else 0)
    leaseExpiresAt := none
    workerId := none
    error := some (PyStr.prefixTo 2000 error)
    errorType := some (PyStr.prefixTo 200 (orError errorType)) }

def active (row : JobModel) : Bool :=
  row.status = .queued || row.status = .running || row.status = .retry

def cancelled (reason : String) (row : JobModel) : JobModel :=
  { row with status := .cancelled, error := some reason, leaseExpiresAt := none, workerId := none }

end JobModel

namespace OutboxModel

def claimed (workerId : String) (now : Timestamp) (row : OutboxModel) : OutboxModel :=
  { row with
    status := .publishing
    attempt := row.attempt + 1
    workerId := some workerId
    leaseExpiresAt := some (now + seconds leaseSeconds)
    error := none }

def published (now : Timestamp) (row : OutboxModel) : OutboxModel :=
  { row with
    status := .published, publishedAt := some now, leaseExpiresAt := none, workerId := none }

def willRetry (row : OutboxModel) : Bool := row.attempt < outboxMaxAttempts

def failed (error : String) (now : Timestamp) (row : OutboxModel) : OutboxModel :=
  { row with
    status := if row.willRetry then .pending else .failed
    availableAt := now + seconds (if row.willRetry then retryDelay row.attempt else 0)
    leaseExpiresAt := none
    workerId := none
    error := some (PyStr.prefixTo 2000 error) }

end OutboxModel

namespace Run

def setPhase (phase : RunPhase) (run : Run) : Run := { run with phase }

def failed (error errorType : Option String) (run : Run) : Run :=
  { run with phase := .error, error, errorType }

def cancelled (reason : String) (run : Run) : Run :=
  { run with phase := .cancelled, error := some reason }

end Run

def leaseLostJob (jobId : Uuid) : JobsError :=
  .leaseLost ("lease perdido para job " ++ jobId)

def leaseLostOutbox (entryId : Nat) : JobsError :=
  .leaseLost ("lease perdido para outbox " ++ toString entryId)

/-- The phase `open_gate` gives the run. -/
def gatePhase (gateType : String) : RunPhase :=
  if gateType = "edit_concepts" then .editing
  else if gateType = "review_creative_plan" then .review
  else .awaiting

/-- `public_type` -/
def publicGateEvent (gateType : String) : String :=
  if gateType = "edit_concepts" then "awaiting_concept_edit"
  else if gateType = "review_creative_plan" then "awaiting_review"
  else "awaiting_approval"

namespace JobStore

def leasedJob? (s : JobStore) (jobId : Uuid) (workerId : String) (now : Timestamp) :
    Option JobModel :=
  (s.job? jobId).filter (JobModel.leasedTo workerId now)

def leasedMessage? (s : JobStore) (entryId : Nat) (workerId : String) (now : Timestamp) :
    Option OutboxModel :=
  (s.message? entryId).filter (OutboxModel.leasedTo workerId now)

/-- The payload of the run's first `execute_run` job. -/
def initialRunPayload? (s : JobStore) (runId : String) : Option Json :=
  let initial := s.jobs.rows.filter (fun row => row.runId = runId && row.kind = .executeRun)
  (initial.insertionSort (fun a b => a.createdAt ≤ b.createdAt)).head?.map (·.payload)

def gatesOf (s : JobStore) (runId gateType : String) : List RunGateModel :=
  s.gates.rows.filter (fun gate => gate.runId = runId && gate.gateType = gateType)

/-- `coalesce(max(version), 0) + 1` -/
def nextGateVersion (s : JobStore) (runId gateType : String) : Nat :=
  (((s.gatesOf runId gateType).map (·.version)).foldl max 0) + 1

def pendingGates (s : JobStore) (runId : String) : List RunGateModel :=
  s.gates.rows.filter (fun gate => gate.runId = runId && gate.status = .pending)

end JobStore
namespace PostgresJobRepository
variable (tenant : TenantContext)

/-- The row `enqueue_run` inserts. -/
def executeRunJob (runId : String) (payload : Json) (maxAttempts : Int) (now : Timestamp) :
    JobModel where
  jobId := jobId tenant runId "execute_run"
  runId := runId
  kind := .executeRun
  status := .queued
  payload := payload
  attempt := 0
  maxAttempts := maxAttempts.toNat
  availableAt := now
  leaseExpiresAt := none
  workerId := none
  error := none
  errorType := none
  createdAt := now

/-- The row `enqueue_run` inserts for a run that is not there yet. -/
def queuedRun (runId offer platform : String) (batchSize : Int) : Run where
  id := runId
  offer := some offer
  platform := some platform
  batchSize := some batchSize
  phase := .running

/-- The events and the outbox row of a job that was inserted. -/
def announceRun (row : JobModel) (offer : String) (batchSize : Int) (now : Timestamp)
    (s : JobStore) : JobStore :=
  let s := s.appendEvent row.runId "run_queued" [("job_id", .str row.jobId)] now
  let s := s.appendEvent row.runId "run_start"
    [("run_id", .str row.runId), ("offer", .str offer), ("batch", .num batchSize)] now
  s.appendOutbox "run.queued" row.jobId
    [("job_id", .str row.jobId), ("run_id", .str row.runId)] now

def enqueueRun (runId offer platform : String) (batchSize : Int) (payload : Json)
    (maxAttempts : Int) (now : Timestamp) (s : JobStore) :
    Except JobsError (Job × JobStore) :=
  -- ck_runs_batch_size and ck_jobs_max_attempts hold before ON CONFLICT is looked at
  if batchSize < 0 ∨ maxAttempts ≤ 0 then .error .checkViolation
  else
    let s := { s with runs := s.runs.insertNew (queuedRun runId offer platform batchSize) }
    let row := executeRunJob tenant runId payload maxAttempts now
    match s.jobs.insert? row with
    | none => .ok (((s.job? row.jobId).getD row).toJob, s)
    | some jobs => .ok (row.toJob, announceRun row offer batchSize now { s with jobs })

def claimCandidates (limit : Nat) (locked : List Uuid) (now : Timestamp) (s : JobStore) :
    List JobModel :=
  ((s.jobs.rows.filter (fun row => row.claimable now && row.jobId ∉ locked)).insertionSort
    (fun a b => a.before b)).take limit

def jobStarted (workerId : String) (now : Timestamp) (s : JobStore) (claimed : JobModel) :
    JobStore :=
  s.appendEvent claimed.runId "job_started"
    [("job_id", .str claimed.jobId), ("attempt", .nat claimed.attempt),
      ("worker_id", .str workerId)] now

def claim (workerId : String) (limit : Nat) (locked : List Uuid) (now : Timestamp)
    (s : JobStore) : Except JobsError (List Job × JobStore) :=
  let candidates := claimCandidates limit locked now s
  let claimed := candidates.map (JobModel.claimed workerId now)
  let s := { s with
    jobs := s.jobs.updateWhere (fun row => row.jobId ∈ candidates.map (·.jobId))
      (JobModel.claimed workerId now) (fun _ => rfl) }
  .ok (claimed.map (·.toJob), claimed.foldl (jobStarted workerId now) s)

def complete (jobId : Uuid) (workerId : String) (now : Timestamp) (s : JobStore) :
    Except JobsError (Unit × JobStore) :=
  match s.leasedJob? jobId workerId now with
  | none => .error (leaseLostJob jobId)
  | some row =>
      .ok ((), (s.updateJob jobId JobModel.succeeded (fun _ => rfl)).appendEvent row.runId
        "job_succeeded" [("job_id", .str jobId)] now)

def renew (jobId : Uuid) (workerId : String) (now : Timestamp) (s : JobStore) :
    Except JobsError (Job × JobStore) :=
  match s.leasedJob? jobId workerId now with
  | none => .error (leaseLostJob jobId)
  | some row =>
      .ok ((row.renewed now).toJob,
        (s.updateJob jobId (JobModel.renewed now) (fun _ => rfl)).appendEvent row.runId
          "job_lease_renewed" [("job_id", .str jobId), ("worker_id", .str workerId)] now)

/-- The last attempt failed: the run ends in `error`. -/
def failRun (failed : JobModel) (now : Timestamp) (s : JobStore) : JobStore :=
  (s.updateRun failed.runId (Run.failed failed.error failed.errorType)
    (fun _ => rfl)).appendEvent failed.runId "error"
      [("message", .str (match failed.error with
        | none | some "" => "job failed"
        | some message => message))] now

def fail (jobId : Uuid) (workerId error : String) (errorType : Option String)
    (retryable : Bool) (now : Timestamp) (s : JobStore) :
    Except JobsError (Job × JobStore) :=
  match s.leasedJob? jobId workerId now with
  | none => .error (leaseLostJob jobId)
  | some current =>
      let willRetry := current.willRetry retryable
      let failed := current.failed error errorType retryable now
      let s := s.updateJob jobId (JobModel.failed error errorType retryable now) (fun _ => rfl)
      let s := s.appendEvent failed.runId (if willRetry then "job_retry" else "job_failed")
        [("job_id", .str jobId), ("attempt", .nat failed.attempt),
          ("error", .str (failed.error.getD "")),
          ("error_type", .str (failed.errorType.getD ""))] now
      .ok (failed.toJob, if willRetry then s else failRun failed now s)

/-- The row `open_gate` inserts. -/
def newGate (runId gateType : String) (version : Nat) (payload : List (String × Json)) :
    RunGate where
  gateId := jobId tenant runId ("gate:" ++ gateType ++ ":" ++ toString version)
  runId := runId
  gateType := gateType
  version := version
  status := .pending
  payload := payload
  resolution := none

def gateEvent (gate : RunGate) : List (String × Json) :=
  [("gate_id", .str gate.gateId), ("gate_type", .str gate.gateType),
    ("version", .nat gate.version), ("payload", .obj gate.payload)]

def publicGateData (gate : RunGate) : List (String × Json) :=
  Json.merge
    [("run_id", .str gate.runId), ("gate_id", .str gate.gateId),
      ("version", .nat gate.version), ("gate_type", .str gate.gateType)]
    (gate.payload.filter (fun field => field.1 ≠ "type"))

def openGate (runId gateType : String) (payload : List (String × Json)) (now : Timestamp)
    (s : JobStore) : Except JobsError (RunGate × JobStore) :=
  match s.run? runId with
  | none => .error (.valueError ("run " ++ PyStr.repr runId ++ " inexistente"))
  | some _ =>
      let gate := newGate tenant runId gateType (s.nextGateVersion runId gateType) payload
      match s.gates.insert? { gate with } with
      | none => .error .uniqueViolation
      | some gates =>
          let s := { s with gates }.updateRun runId (Run.setPhase (gatePhase gateType))
            (fun _ => rfl)
          let s := s.appendEvent runId "gate_opened" (gateEvent gate) now
          .ok (gate, s.appendEvent runId (publicGateEvent gateType) (publicGateData gate) now)

/-- `get_pending_gate`: the pending gate with the highest version. -/
def getPendingGate (runId : String) (s : JobStore) : Option RunGate :=
  ((s.pendingGates runId).insertionSort (fun a b => b.version ≤ a.version)).head?.map
    (·.toRunGate)

def staleGate (gateId : Uuid) (version : Int) : JobsError :=
  .staleGate ("gate " ++ gateId ++ " versão " ++ toString version ++ " está stale")

/-- `payload` of the resume job: the decision and the gate it was made at. -/
def resumePayload (gate : RunGateModel) (resolution run : Json) : Json :=
  .obj [("gate_id", .str gate.gateId), ("gate_version", .nat gate.version),
    ("gate_type", .str gate.gateType), ("gate", .obj gate.payload),
    ("resolution", resolution), ("run", run)]

def resumeJobId (gate : RunGateModel) : Uuid :=
  jobId tenant gate.runId ("resume:" ++ gate.gateId ++ ":" ++ toString gate.version)

/-- The row `resolve_gate` inserts; `max_attempts` is the column's default. -/
def resumeRunJob (gate : RunGateModel) (payload : Json) (now : Timestamp) : JobModel where
  jobId := resumeJobId tenant gate
  runId := gate.runId
  kind := .resumeRun
  status := .queued
  payload := payload
  attempt := 0
  maxAttempts := 5
  availableAt := now
  leaseExpiresAt := none
  workerId := none
  error := none
  errorType := none
  createdAt := now

def resolvedGate (resolution : Json) (now : Timestamp) (gate : RunGateModel) : RunGateModel :=
  { gate with status := .resolved, resolution := some resolution, resolvedAt := some now }

/-- What follows the insertion of the resume job in the same transaction. -/
def announceResume (gate : RunGateModel) (row : JobModel) (now : Timestamp) (s : JobStore) :
    JobStore :=
  let s := s.appendOutbox "run.resume" row.jobId
    [("job_id", .str row.jobId), ("run_id", .str gate.runId)] now
  let s := s.updateRun gate.runId (Run.setPhase .running) (fun _ => rfl)
  s.appendEvent gate.runId "gate_resolved"
    [("gate_id", .str gate.gateId), ("gate_type", .str gate.gateType),
      ("version", .nat gate.version)] now

def resolveGate (gateId : Uuid) (version : Int) (resolution : Json) (now : Timestamp)
    (s : JobStore) : Except JobsError (Job × JobStore) :=
  match (s.gate? gateId).filter (fun gate => gate.version = version) with
  | none => .error (staleGate gateId version)
  | some gate =>
      match gate.status with
      | .cancelled =>
          .error (.cancelledGate
            ("gate " ++ gateId ++ " versão " ++ toString version ++ " foi cancelado"))
      | .resolved => .error (staleGate gateId version)
      | .pending =>
          let s := s.updateGate gateId (resolvedGate resolution now) (fun _ => rfl)
          let initial := (s.initialRunPayload? gate.runId).getD (.obj [])
          let row := resumeRunJob tenant gate (resumePayload gate resolution initial) now
          match s.jobs.insert? row with
          | none => .error .uniqueViolation
          | some jobs => .ok (row.toJob, announceResume gate row now { s with jobs })

def outboxCandidates (limit : Nat) (locked : List Nat) (now : Timestamp) (s : JobStore) :
    List OutboxModel :=
  ((s.outbox.rows.filter (fun row => row.claimable now && row.entryId ∉ locked)).insertionSort
    (fun a b => a.before b)).take limit

def claimOutbox (workerId : String) (limit : Nat) (locked : List Nat) (now : Timestamp)
    (s : JobStore) : Except JobsError (List OutboxEntry × JobStore) :=
  let candidates := outboxCandidates limit locked now s
  .ok ((candidates.map (OutboxModel.claimed workerId now)).map (·.toOutboxEntry),
    { s with
      outbox := s.outbox.updateWhere (fun row => row.entryId ∈ candidates.map (·.entryId))
        (OutboxModel.claimed workerId now) (fun _ => rfl) })

def markOutboxPublished (entryId : Nat) (workerId : String) (now : Timestamp)
    (s : JobStore) : Except JobsError (Unit × JobStore) :=
  match s.leasedMessage? entryId workerId now with
  | none => .error (leaseLostOutbox entryId)
  | some _ => .ok ((), s.updateEntry entryId (OutboxModel.published now) (fun _ => rfl))

def failOutbox (entryId : Nat) (workerId error : String) (now : Timestamp)
    (s : JobStore) : Except JobsError (OutboxEntry × JobStore) :=
  match s.leasedMessage? entryId workerId now with
  | none => .error (leaseLostOutbox entryId)
  | some current =>
      .ok ((current.failed error now).toOutboxEntry,
        s.updateEntry entryId (OutboxModel.failed error now) (fun _ => rfl))

/-- The phases `cancel_pending_test_runs` still moves. -/
def cancellable (phase : RunPhase) : Bool :=
  phase = .running || phase = .editing || phase = .awaiting || phase = .review

def cancelledGate (reason : String) (now : Timestamp) (gate : RunGateModel) : RunGateModel :=
  { gate with
    status := .cancelled
    resolution := some (.obj [("reason", .str reason)])
    resolvedAt := some now }

/-- `sorted({str(row[0]) for row in gate_rows})` -/
def pendingRunIds (s : JobStore) : List String :=
  (((s.gates.rows.filter (fun gate => gate.status = .pending)).map (·.runId)).dedup).insertionSort
    (· ≤ ·)

def runCancelled (reason : String) (now : Timestamp) (s : JobStore) (runId : String) :
    JobStore :=
  s.appendEvent runId "run_cancelled" [("reason", .str reason)] now

/-- Cancel every currently pending gate and its non-terminal run/jobs. -/
def cancelPendingTestRuns (reason : String) (now : Timestamp) (s : JobStore) :
    Except JobsError (CancellationSummary × JobStore) :=
  let runIds := pendingRunIds s
  if runIds = [] then .ok ({ gates := 0, runs := 0, jobs := 0 }, s)
  else
    let pending (gate : RunGateModel) : Bool := gate.status = .pending
    let ofPhase (run : Run) : Bool := run.id ∈ runIds && cancellable run.phase
    let ofStatus (row : JobModel) : Bool := row.runId ∈ runIds && row.active
    let s' := { s with
      gates := s.gates.updateWhere pending (cancelledGate reason now) (fun _ => rfl)
      runs := s.runs.updateWhere ofPhase (Run.cancelled reason) (fun _ => rfl)
      jobs := s.jobs.updateWhere ofStatus (JobModel.cancelled reason) (fun _ => rfl) }
    .ok ({ gates := (s.gates.rows.filter pending).length
           runs := (s.runs.rows.filter ofPhase).length
           jobs := (s.jobs.rows.filter ofStatus).length },
      runIds.foldl (runCancelled reason now) s')

end PostgresJobRepository

/-- The calls a worker makes for a job it claimed. -/
inductive LeaseCall where
  | complete
  | renew
  | fail (error : String) (errorType : Option String) (retryable : Bool)
  deriving DecidableEq

/-- The calls a publisher makes for an outbox row it claimed. -/
inductive OutboxCall where
  | markPublished
  | fail (error : String)
  deriving DecidableEq

/-- The writing methods of the two repositories. -/
inductive JobsOp where
  | enqueueRun (runId offer platform : String) (batchSize : Int) (payload : Json)
      (maxAttempts : Int)
  | claim (workerId : String) (limit : Nat) (locked : List Uuid)
  | lease (jobId : Uuid) (workerId : String) (call : LeaseCall)
  | openGate (runId gateType : String) (payload : List (String × Json))
  | resolveGate (gateId : Uuid) (version : Int) (resolution : Json)
  | claimOutbox (workerId : String) (limit : Nat) (locked : List Nat)
  | outbox (entryId : Nat) (workerId : String) (call : OutboxCall)
  | cancelPendingTestRuns (reason : String)
  | startRun (runId : String) (offer platform : Option String) (batchSize : Option Int)
  | saveRun (runId phase : String) (state summary : Json) (items : List Json)
      (error errorType : Option String)
  deriving DecidableEq

inductive JobsReply where
  | none
  | job (job : Job)
  | jobs (jobs : List Job)
  | gate (gate : RunGate)
  | entry (entry : OutboxEntry)
  | entries (entries : List OutboxEntry)
  | cancellation (summary : CancellationSummary)
  deriving DecidableEq

/-- One method call and the time it passes as `now`. -/
structure JobsCall where
  now : Timestamp
  op : JobsOp
  deriving DecidableEq

namespace JobsCall
variable (tenant : TenantContext)

/-- A transaction whose value is wrapped as a reply. -/
def replying {α : Type} (reply : α → JobsReply) :
    Except JobsError (α × JobStore) → Except JobsError (JobsReply × JobStore)
  | .ok (value, s) => .ok (reply value, s)
  | .error exc => .error exc

def transact (c : JobsCall) (s : JobStore) : Except JobsError (JobsReply × JobStore) :=
  match c.op with
  | .enqueueRun runId offer platform batchSize payload maxAttempts =>
      replying .job (PostgresJobRepository.enqueueRun tenant runId offer platform batchSize
        payload maxAttempts c.now s)
  | .claim workerId limit locked =>
      replying .jobs (PostgresJobRepository.claim workerId limit locked c.now s)
  | .lease jobId workerId .complete =>
      replying (fun _ => .none) (PostgresJobRepository.complete jobId workerId c.now s)
  | .lease jobId workerId .renew =>
      replying .job (PostgresJobRepository.renew jobId workerId c.now s)
  | .lease jobId workerId (.fail error errorType retryable) =>
      replying .job
        (PostgresJobRepository.fail jobId workerId error errorType retryable c.now s)
  | .openGate runId gateType payload =>
      replying .gate (PostgresJobRepository.openGate tenant runId gateType payload c.now s)
  | .resolveGate gateId version resolution =>
      replying .job
        (PostgresJobRepository.resolveGate tenant gateId version resolution c.now s)
  | .claimOutbox workerId limit locked =>
      replying .entries (PostgresJobRepository.claimOutbox workerId limit locked c.now s)
  | .outbox entryId workerId .markPublished =>
      replying (fun _ => .none)
        (PostgresJobRepository.markOutboxPublished entryId workerId c.now s)
  | .outbox entryId workerId (.fail error) =>
      replying .entry (PostgresJobRepository.failOutbox entryId workerId error c.now s)
  | .cancelPendingTestRuns reason =>
      replying .cancellation (PostgresJobRepository.cancelPendingTestRuns reason c.now s)
  | .startRun runId offer platform batchSize =>
      replying (fun _ => .none) (PostgresRunRepository.start runId offer platform batchSize s)
  | .saveRun runId phase state summary items error errorType =>
      replying (fun _ => .none)
        (PostgresRunRepository.save runId phase state summary items error errorType s)

/-- The call as its caller sees it: the reply or the exception, and the tables
after the commit or the rollback. -/
def apply (c : JobsCall) (s : JobStore) : Except JobsError JobsReply × JobStore :=
  match c.transact tenant s with
  | .ok (reply, s') => (.ok reply, s')
  | .error exc => (.error exc, s)

end JobsCall

end Orchestrator
