import Orchestrator.Db.Models

/-!
The read model of runs. `save` is an upsert of the whole snapshot: it fences
nothing, neither by the stored phase nor by a lease.
-/

namespace Orchestrator

inductive JobsError where
  | valueError (message : String)
  | leaseLost (message : String)
  | staleGate (message : String)
  | cancelledGate (message : String)
  | checkViolation
  | uniqueViolation
  deriving DecidableEq, Repr

namespace PostgresRunRepository

/-- The `DO UPDATE` of `start`. -/
def restarted (offer platform : Option String) (batchSize : Option Int) (run : Run) : Run :=
  { run with
    offer, platform, batchSize
    phase := .running
    error := none
    errorType := none
    summary := .obj []
    state := .obj [] }

/-- The `DO UPDATE` of `save`. -/
def saved (phase : RunPhase) (error errorType : Option String) (summary state : Json)
    (run : Run) : Run :=
  { run with phase, error, errorType, summary, state }

def start (runId : String) (offer platform : Option String) (batchSize : Option Int)
    (s : JobStore) : Except JobsError (Unit × JobStore) :=
  -- ck_runs_batch_size
  if batchSize.any (· < 0) then .error .checkViolation
  else
    .ok ((), { s with
      runs := s.runs.upsert { id := runId, offer, platform, batchSize, phase := .running }
        (restarted offer platform batchSize) (fun _ => rfl)
      runItems := s.runItems.deleteWhere (fun item => item.runId = runId) })

/-- `str(item.get("id") or "").strip()` -/
def itemId (item : Json) : String :=
  PyStr.strip <| match item.get? "id" with
    | some value => if value.truthy then PyStr.str value else ""
    | none => ""

def upsertItem (runId : String) (items : KeyedTable RunItem.key) (item : Json) :
    KeyedTable RunItem.key :=
  items.upsert { runId, itemId := itemId item, payload := item }
    (fun row => { row with payload := item }) (fun _ => rfl)

def save (runId phase : String) (state summary : Json) (items : List Json)
    (error errorType : Option String) (s : JobStore) :
    Except JobsError (Unit × JobStore) :=
  match RunPhase.ofText? phase with
  | none => .error (.valueError ("unknown run phase " ++ PyStr.repr phase))
  | some phase =>
      if items.any (fun item => itemId item = "") then
        .error (.valueError "run item must have a non-empty id")
      else
        .ok ((), { s with
          runs := s.runs.upsert { id := runId, phase, error, errorType, summary, state }
            (saved phase error errorType summary state) (fun _ => rfl)
          runItems := (items.foldl (upsertItem runId) s.runItems).deleteWhere
            (fun row => row.runId = runId && row.itemId ∉ items.map itemId) })

end PostgresRunRepository

end Orchestrator
