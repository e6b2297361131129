import Orchestrator.Db.Jobs
import Orchestrator.Lib.Checkpointer
import Orchestrator.Lib.Machine

/-!
The workers that execute durable jobs.

An execution claims a job, drives the graph of its run, reads where the graph
stopped, saves the run, opens the gate of the interrupt it found and completes
the job. Queue, gates and checkpoints are written by separate transactions;
other executions and callers act in between, and an execution may raise or die
before each of its steps. What the nodes compute and where they stop is free:
the graph is known only through the checkpoints it stores.
-/

namespace Orchestrator

inductive Stage where
  | claimed
  /-- the graph runs on from a checkpoint, with an answer for its interrupt or without -/
  | driving (checkpoint : Nat) (answering : Bool)
  | returned
  | inspected (interrupt : Option (Nat × List (String × Json)))
  | opening (interrupt : Nat) (payload : List (String × Json))
  | completing
  | failing
  | ended
  deriving DecidableEq

namespace Stage

def active : Stage → Bool
  | .driving .. | .returned | .inspected _ | .opening .. => true
  | .claimed | .completing | .failing | .ended => false

end Stage

namespace Job

/-- `payload.get("gate_id")` of a resume job. -/
def gateId (job : Job) : Uuid :=
  match job.payload.get? "gate_id" with
  | some (.str gateId) => gateId
  | _ => ""

/-- `payload.get("resolution")` -/
def resolution (job : Job) : Json := (job.payload.get? "resolution").getD .null

end Job

structure JobExecution where
  workerId : String
  job : Job
  stage : Stage := .claimed
  /-- The graph stopped at an interrupt while this execution drove it. -/
  stopped : Bool := false
  deriving DecidableEq

/-- Tables, checkpoints and executions, with a record of what happened: the
interrupt each gate was opened for, the decisions that were handed to the graph
and those that a node finished with. -/
structure Runner where
  store : JobStore
  checkpointer : Checkpointer String (List (String × Json))
  executions : List JobExecution
  origins : List (Uuid × Nat)
  deliveries : List (Uuid × Nat)
  applied : List (Uuid × Nat)

namespace JobsOp

def outside : JobsOp → Bool
  | .claim .. | .lease .. | .openGate .. | .saveRun .. => false
  | _ => true

end JobsOp

inductive RunnerOp where
  | claim (workerId : String) (locked : List Uuid)
  | invoke (i : Nat)
  | nodeEnds (i : Nat)
  | nodeStops (i : Nat) (payload : List (String × Json))
  | graphEnds (i : Nat)
  | inspect (i : Nat)
  | save (i : Nat) (state summary : Json) (items : List Json)
  | openGate (i : Nat)
  | complete (i : Nat)
  | fail (i : Nat) (error : String) (errorType : Option String) (retryable : Bool)
  | renew (i : Nat)
  | raise (i : Nat)
  | die (i : Nat)
  | other (op : { op : JobsOp // op.outside })

structure RunnerCall where
  now : Timestamp
  op : RunnerOp

/-- `str(interrupt.get("type") or "unknown")` -/
def gateType (payload : List (String × Json)) : String :=
  match (Json.obj payload).get? "type" with
  | some value => if value.truthy then PyStr.str value else "unknown"
  | none => "unknown"

namespace Runner

def empty : Runner := ⟨.empty, .empty, [], [], [], []⟩

def advance (r : Runner) (i : Nat) (e : JobExecution) (stage : Stage) : Runner :=
  { r with executions := r.executions.set i { e with stage } }

/-- `run_pipeline` starts the thread over; `resume_pipeline` answers the
interrupt it waits at, whichever that is. -/
def invoke (r : Runner) (i : Nat) (e : JobExecution) : Runner :=
  match e.stage, e.job.kind with
  | .claimed, .executeRun =>
      { r with checkpointer := r.checkpointer.put e.job.runId }.advance i e
        (.driving r.checkpointer.next false)
  | .claimed, .resumeRun =>
      match r.checkpointer.head e.job.runId with
      | none => r.advance i e .failing
      | some checkpoint =>
          if (r.checkpointer.interrupts checkpoint).isSome ∧ e.job.resolution ≠ .null then
            { r with deliveries := r.deliveries ++ [(e.job.gateId, checkpoint)] }.advance i e
              (.driving checkpoint true)
          else r.advance i e (.driving checkpoint false)
  | _, _ => r

/-- A node ends and its checkpoint is stored; the node that stopped at an
interrupt needs an answer. -/
def nodeEnds (r : Runner) (i : Nat) (e : JobExecution) : Runner :=
  match e.stage with
  | .driving checkpoint true =>
      { r with
        checkpointer := r.checkpointer.put e.job.runId
        applied := r.applied ++ [(e.job.gateId, checkpoint)] }.advance i e
          (.driving r.checkpointer.next false)
  | .driving checkpoint false =>
      if (r.checkpointer.interrupts checkpoint).isSome then r
      else { r with checkpointer := r.checkpointer.put e.job.runId }.advance i e
        (.driving r.checkpointer.next false)
  | _ => r

def nodeStops (r : Runner) (i : Nat) (e : JobExecution) (payload : List (String × Json)) :
    Runner :=
  match e.stage with
  | .driving checkpoint false =>
      { r with checkpointer := r.checkpointer.stop checkpoint payload }.advance i
        { e with stopped := true } .returned
  | _ => r

def graphEnds (r : Runner) (i : Nat) (e : JobExecution) : Runner :=
  match e.stage with
  | .driving checkpoint false =>
      if (r.checkpointer.interrupts checkpoint).isSome then r else r.advance i e .returned
  | _ => r

/-- `get_interrupt` -/
def inspect (r : Runner) (i : Nat) (e : JobExecution) : Runner :=
  match e.stage with
  | .returned => r.advance i e (.inspected (r.checkpointer.pending? e.job.runId))
  | _ => r

section Calls
variable (tenant : TenantContext) (now : Timestamp)

/-- A repository call; its exception is an exception of the execution. -/
def call (r : Runner) (op : JobsOp) : Except JobsError JobsReply × Runner :=
  let result := JobsCall.apply tenant ⟨now, op⟩ r.store
  (result.1, { r with store := result.2 })

/-- Each job that was claimed begins an execution. -/
def claim (r : Runner) (workerId : String) (locked : List Uuid) : Runner :=
  let (reply, r) := r.call tenant now (.claim workerId 1 locked)
  match reply with
  | .ok (.jobs jobs) =>
      { r with executions := r.executions ++ jobs.map fun job => { workerId, job } }
  | _ => r

def save (r : Runner) (i : Nat) (e : JobExecution) (state summary : Json) (items : List Json) :
    Runner :=
  match e.stage with
  | .inspected interrupt =>
      let phase := if interrupt.isSome then "running" else "done"
      let (reply, r) := r.call tenant now
        (.saveRun e.job.runId phase state summary items none none)
      match reply, interrupt with
      | .error _, _ => r.advance i e .failing
      | .ok _, some (checkpoint, payload) => r.advance i e (.opening checkpoint payload)
      | .ok _, none => r.advance i e .completing
  | _ => r

/-- `publicPayload` stands for `_public_gate_payload`. -/
def openGate (publicPayload : List (String × Json) → List (String × Json)) (r : Runner) (i : Nat)
    (e : JobExecution) : Runner :=
  match e.stage with
  | .opening checkpoint payload =>
      let (reply, r) := r.call tenant now
        (.openGate e.job.runId (gateType payload) (publicPayload payload))
      match reply with
      | .ok (.gate gate) =>
          { r with origins := r.origins ++ [(gate.gateId, checkpoint)] }.advance i e .completing
      | _ => r.advance i e .failing
  | _ => r

/-- `complete` or `fail`; with its job the execution is over, also when the
lease turns out to be lost. -/
def finish (r : Runner) (i : Nat) (e : JobExecution) (due : Stage) (call : LeaseCall) : Runner :=
  if e.stage = due then
    (r.call tenant now (.lease e.job.jobId e.workerId call)).2.advance i e .ended
  else r

/-- The heartbeat: a lost lease cancels the execution. -/
def renew (r : Runner) (i : Nat) (e : JobExecution) : Runner :=
  if e.stage = .ended then r
  else
    let (reply, r) := r.call tenant now (.lease e.job.jobId e.workerId .renew)
    match reply with
    | .error _ => r.advance i e .ended
    | .ok _ => r

end Calls

def raise (r : Runner) (i : Nat) (e : JobExecution) : Runner :=
  match e.stage with
  | .claimed | .driving .. | .returned | .inspected _ | .opening .. => r.advance i e .failing
  | .completing | .failing | .ended => r

def withExecution (r : Runner) (i : Nat) (f : JobExecution → Runner) : Runner :=
  match r.executions[i]? with
  | some e => f e
  | none => r

end Runner

namespace RunnerCall

def apply (tenant : TenantContext) (publicPayload : List (String × Json) → List (String × Json))
    (c : RunnerCall) (r : Runner) : Unit × Runner :=
  ((), match c.op with
    | .claim workerId locked => r.claim tenant c.now workerId locked
    | .invoke i => r.withExecution i (r.invoke i)
    | .nodeEnds i => r.withExecution i (r.nodeEnds i)
    | .nodeStops i payload => r.withExecution i (r.nodeStops i · payload)
    | .graphEnds i => r.withExecution i (r.graphEnds i)
    | .inspect i => r.withExecution i (r.inspect i)
    | .save i state summary items => r.withExecution i (r.save tenant c.now i · state summary items)
    | .openGate i => r.withExecution i (r.openGate tenant c.now publicPayload i)
    | .complete i => r.withExecution i (r.finish tenant c.now i · .completing .complete)
    | .fail i error errorType retryable =>
        r.withExecution i (r.finish tenant c.now i · .failing (.fail error errorType retryable))
    | .renew i => r.withExecution i (r.renew tenant c.now i)
    | .raise i => r.withExecution i (r.raise i)
    | .die i => r.withExecution i (r.advance i · .ended)
    | .other op => (r.call tenant c.now op.val).2)

end RunnerCall

end Orchestrator
