import Mathlib.Data.List.Sort
import Mathlib.Data.String.Basic
import Mathlib.Tactic.Simps.Basic
import Orchestrator.Lib.Json
import Orchestrator.Lib.PyStr
import Orchestrator.Lib.SerialTable

/-!
The tables behind the durable queue, as one organization sees them.

Every statement of the two repositories filters by the organization of its
tenant, so the rows of other organizations are no part of the state. Times are
microseconds. Columns that no statement reads (`created_at` of runs and events
aside from the jobs' own, `updated_at`, `position`) are left out.
-/

namespace Orchestrator

/-- The canonical text of a UUID; PostgreSQL orders UUIDs as their texts. -/
abbrev Uuid := String

abbrev Timestamp := Nat

def seconds (n : Nat) : Nat := n * 1000000

/-- The organization of a repository and `uuid5(NAMESPACE_URL, ·)`. -/
structure TenantContext where
  organizationId : Uuid
  uuid5 : String → Uuid

/-- A tenant with the job and gate ids of its run `run-1`. -/
def sampleTenant : TenantContext where
  organizationId := "7d1f2a60-4c38-4f7e-9b0a-2f6d5c1e8a90"
  uuid5 name :=
    let run := "orchestrator:7d1f2a60-4c38-4f7e-9b0a-2f6d5c1e8a90:run-1:"
    if name = run ++ "execute_run" then "696068ec-7393-53f2-a0e9-f3780ea33d7f"
    else if name = run ++ "gate:review_creative_plan:1" then
      "8eec9612-78b0-5d3c-9c39-9709b65b8285"
    else if name = run ++ "gate:review_creative_plan:2" then
      "33d7483f-90d5-5569-8912-bac09f1694e2"
    else if name = run ++ "resume:8eec9612-78b0-5d3c-9c39-9709b65b8285:1" then
      "22abaa67-94bc-56a1-8733-93e4c45eab4c"
    else name

inductive RunPhase where
  | running
  | editing
  | awaiting
  | review
  | done
  | error
  | cancelled
  deriving DecidableEq, Repr

namespace RunPhase

def ofText? : String → Option RunPhase
  | "running" => some .running
  | "editing" => some .editing
  | "awaiting" => some .awaiting
  | "review" => some .review
  | "done" => some .done
  | "error" => some .error
  | "cancelled" => some .cancelled
  | _ => none

/-- The phases a run ends in. -/
def terminal : RunPhase → Bool
  | .done | .error | .cancelled => true
  | _ => false

end RunPhase

structure Run where
  id : String
  offer : Option String := none
  platform : Option String := none
  batchSize : Option Int := none
  phase : RunPhase
  error : Option String := none
  errorType : Option String := none
  summary : Json := .obj []
  state : Json := .obj []
  deriving DecidableEq

structure RunItem where
  runId : String
  itemId : String
  payload : Json
  deriving DecidableEq

abbrev RunItem.key (item : RunItem) : String × String := (item.runId, item.itemId)

inductive JobKind where
  | executeRun
  | resumeRun
  deriving DecidableEq, Repr

inductive JobStatus where
  | queued
  | running
  | retry
  | succeeded
  | failed
  | cancelled
  deriving DecidableEq, Repr

structure Job where
  jobId : Uuid
  runId : String
  kind : JobKind
  status : JobStatus
  payload : Json
  attempt : Nat
  maxAttempts : Nat
  availableAt : Timestamp
  leaseExpiresAt : Option Timestamp
  workerId : Option String
  error : Option String
  errorType : Option String
  deriving DecidableEq

/-- A row of `jobs`: what `_JOB_COLUMNS` reads and the time it was created. -/
structure JobModel extends Job where
  createdAt : Timestamp
  deriving DecidableEq

abbrev JobModel.key (row : JobModel) : Uuid := row.jobId

inductive GateStatus where
  | pending
  | resolved
  | cancelled
  deriving DecidableEq, Repr

structure RunGate where
  gateId : Uuid
  runId : String
  gateType : String
  version : Nat
  status : GateStatus
  payload : List (String × Json)
  resolution : Option Json
  deriving DecidableEq

structure RunGateModel extends RunGate where
  resolvedAt : Option Timestamp := none
  deriving DecidableEq

abbrev RunGateModel.key (row : RunGateModel) : Uuid := row.gateId

structure RunEvent where
  seq : Nat
  runId : String
  eventType : String
  data : Json
  createdAt : Timestamp
  deriving DecidableEq

inductive OutboxStatus where
  | pending
  | publishing
  | published
  | failed
  deriving DecidableEq, Repr

structure OutboxEntry where
  entryId : Nat
  topic : String
  messageKey : String
  payload : Json
  status : OutboxStatus
  attempt : Nat
  leaseExpiresAt : Option Timestamp
  workerId : Option String
  error : Option String
  deriving DecidableEq

structure OutboxModel extends OutboxEntry where
  availableAt : Timestamp
  publishedAt : Option Timestamp := none
  deriving DecidableEq

abbrev OutboxModel.key (row : OutboxModel) : Nat := row.entryId

structure JobStore where
  runs : KeyedTable Run.id
  runItems : KeyedTable RunItem.key
  jobs : KeyedTable JobModel.key
  gates : KeyedTable RunGateModel.key
  events : SerialTable RunEvent.seq
  outbox : SerialTable OutboxModel.key
  deriving DecidableEq

namespace JobStore

def empty : JobStore := ⟨.empty, .empty, .empty, .empty, .empty, .empty⟩

def run? (s : JobStore) (runId : String) : Option Run := s.runs.find? runId

def job? (s : JobStore) (jobId : Uuid) : Option JobModel := s.jobs.find? jobId

def gate? (s : JobStore) (gateId : Uuid) : Option RunGateModel := s.gates.find? gateId

def message? (s : JobStore) (entryId : Nat) : Option OutboxModel :=
  s.outbox.toKeyedTable.find? entryId

@[simps runs runItems jobs gates events outbox]
def appendEvent (s : JobStore) (runId eventType : String) (data : List (String × Json))
    (now : Timestamp) : JobStore :=
  { s with
    events := s.events.append
      (fun seq => { seq, runId, eventType, data := .obj data, createdAt := now })
      (fun _ => rfl) }

@[simps runs runItems jobs gates events outbox]
def appendOutbox (s : JobStore) (topic messageKey : String) (payload : List (String × Json))
    (now : Timestamp) : JobStore :=
  { s with
    outbox := s.outbox.append
      (fun entryId =>
        { entryId, topic, messageKey, payload := .obj payload, status := .pending,
          attempt := 0, leaseExpiresAt := none, workerId := none, error := none,
          availableAt := now })
      (fun _ => rfl) }

@[simps runs runItems jobs gates events outbox]
def updateRun (s : JobStore) (runId : String) (set : Run → Run)
    (hset : ∀ run, (set run).id = run.id) : JobStore :=
  { s with runs := s.runs.update runId set hset }

@[simps runs runItems jobs gates events outbox]
def updateJob (s : JobStore) (jobId : Uuid) (set : JobModel → JobModel)
    (hset : ∀ row, (set row).key = row.key) : JobStore :=
  { s with jobs := s.jobs.update jobId set hset }

@[simps runs runItems jobs gates events outbox]
def updateGate (s : JobStore) (gateId : Uuid) (set : RunGateModel → RunGateModel)
    (hset : ∀ row, (set row).key = row.key) : JobStore :=
  { s with gates := s.gates.update gateId set hset }

@[simps runs runItems jobs gates events outbox]
def updateEntry (s : JobStore) (entryId : Nat) (set : OutboxModel → OutboxModel)
    (hset : ∀ row, (set row).key = row.key) : JobStore :=
  { s with outbox := s.outbox.update entryId set hset }

end JobStore

end Orchestrator
