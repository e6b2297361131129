import Mathlib.Data.List.Dedup
import Mathlib.Logic.Function.Basic
import Orchestrator.Db.Models
import Orchestrator.Lib.Entries

/-!
The progress snapshot that the server builds from the public events of a run.

The loop over the events keeps counters for each stage, the operations that have
started and not ended, the units that each stage has counted, and the items. What
the loop leaves is settled with what is still active, adjusted to the phase of
the run, and the two parent stages take their status from their children.
-/

namespace Orchestrator

inductive StageId where
  | setup
  | creativePlan
  | concepts
  | scripts
  | creatorProfiles
  | creatorPreviews
  | review
  | production
  | talkingHead
  | productDemo
  | qc
  | assembly
  deriving DecidableEq

namespace StageId

def text : StageId → String
  | .setup => "setup"
  | .creativePlan => "creative_plan"
  | .concepts => "concepts"
  | .scripts => "scripts"
  | .creatorProfiles => "creator_profiles"
  | .creatorPreviews => "creator_previews"
  | .review => "review"
  | .production => "production"
  | .talkingHead => "talking_head"
  | .productDemo => "product_demo"
  | .qc => "qc"
  | .assembly => "assembly"

/-- `STAGES`, in its order. -/
def all : List StageId :=
  [.setup, .creativePlan, .concepts, .scripts, .creatorProfiles, .creatorPreviews, .review,
    .production, .talkingHead, .productDemo, .qc, .assembly]

def ofText? (s : String) : Option StageId := all.find? (·.text = s)

def parent : StageId → Option StageId
  | .concepts | .scripts | .creatorProfiles | .creatorPreviews => some .creativePlan
  | .talkingHead | .productDemo | .qc => some .production
  | _ => none

/-- The stages whose units are the items of the batch. -/
def countsItems : StageId → Bool
  | .production | .talkingHead | .productDemo | .qc | .assembly => true
  | _ => false

def terminalNode : StageId → Option String
  | .concepts => some "concepts"
  | .scripts => some "scripts"
  | .creatorProfiles => some "creator_profiles"
  | .creatorPreviews => some "roster"
  | .review => some "review"
  | .production => some "process_item"
  | .productDemo => some "product_demo"
  | .qc => some "qc"
  | .assembly => some "upscale"
  | _ => none

theorem ofText?_text (s : StageId) : ofText? s.text = some s := by
  cases s <;> decide

end StageId

/-- The stage of a node that is no tier, from `NODE_SPECS`. -/
def fixedStage : String → Option StageId
  | "concepts" => some .concepts
  | "scripts" => some .scripts
  | "creator_profiles" => some .creatorProfiles
  | "roster" => some .creatorPreviews
  | "review" => some .review
  | "process_item" => some .production
  | "voiceover" => some .assembly
  | "product_demo" => some .productDemo
  | "qc" => some .qc
  | "assembly" => some .assembly
  | "upscale" => some .assembly
  | "drop" => some .qc
  | _ => none

/-- `topology_for_tiers`: the configured tiers are the nodes of the talking head. -/
structure PipelineTopology where
  tiers : List String
  nodup : tiers.Nodup
  noConflict : ∀ tier ∈ tiers, fixedStage tier = none

namespace PipelineTopology
variable (topology : PipelineTopology)

def nodeStage (node : String) : Option StageId :=
  if node ∈ topology.tiers then some .talkingHead else fixedStage node

/-- The node ends the work of a stage. -/
def Terminal (s : StageId) (node : String) : Prop := s = .talkingHead ∨ s.terminalNode = some node

instance (s : StageId) (node : String) : Decidable (Terminal s node) :=
  inferInstanceAs (Decidable (_ ∨ _))

end PipelineTopology

inductive EventType where
  | nodeStart
  | nodeEnd
  | progressEvent
  | runStart
  | runQueued
  | jobStarted
  | other
  deriving DecidableEq

/-- What the snapshot reads of a public event; a missing text is empty. -/
structure PublicEvent where
  type : EventType
  node : String := ""
  stageId : String := ""
  status : String := ""
  itemId : String := ""
  operationId : String := ""
  attempt : Int := 0
  completedUnits : Option Int := none
  totalUnits : Option Int := none
  batch : Int := 0
  occurredAt : Option String := none

inductive Lifecycle where
  | progress
  | started
  | waiting
  | failed
  | completed
  | other
  deriving DecidableEq

def Lifecycle.ofText : String → Lifecycle
  | "progress" => .progress
  | "started" | "running" | "retrying" => .started
  | "waiting" | "waiting_for_user" => .waiting
  | "failed" | "error" => .failed
  | "completed" | "done" => .completed
  | _ => .other

namespace PublicEvent
variable (e : PublicEvent)

def item? : Option String := if e.itemId = "" then none else some e.itemId

def operation : String :=
  if e.operationId = "" then e.node ++ ":" ++ e.item?.getD "batch" else e.operationId

def lifecycle : Lifecycle :=
  match e.type with
  | .progressEvent => .ofText e.status
  | .nodeStart => .started
  | _ => .completed

/-- The stage whose counters the event may change. -/
def stage? (topology : PipelineTopology) : Option StageId :=
  if e.type = .nodeStart ∨ e.type = .nodeEnd ∨ e.type = .progressEvent then
    if e.stageId = "" then topology.nodeStage e.node else StageId.ofText? e.stageId
  else none

end PublicEvent

inductive StageStatus where
  | pending
  | running
  | waiting
  | failed
  | completed
  deriving DecidableEq

structure ProgressStage where
  status : StageStatus := .pending
  completedUnits : Int := 0
  activeUnits : Nat := 0
  failedUnits : Nat := 0
  totalUnits : Int
  updatedAt : Option String := none

inductive ItemStatus where
  | running
  | completed
  | dropped
  | failed
  deriving DecidableEq

structure ItemProgress where
  stageId : String
  status : ItemStatus
  attempt : Int
  updatedAt : Option String

/-- The variables of the loop over the events. -/
structure Tally where
  stages : StageId → ProgressStage
  /-- The operations that are active, each with its stage and its item. -/
  operations : List (String × (StageId × Option String)) := []
  /-- The units that each stage has counted. -/
  counted : StageId → List String := fun _ => []
  items : List (String × ItemProgress) := []

namespace Tally
variable (t : Tally)

def start (totalItems : Int) : Tally where
  stages s := { totalUnits := if s.countsItems then totalItems else 1 }

def setStage (s : StageId) (stage : ProgressStage) : Tally :=
  { t with stages := Function.update t.stages s stage }

@[simp] theorem setStage_stages_self (s : StageId) (stage : ProgressStage) :
    (t.setStage s stage).stages s = stage := Function.update_self ..

theorem setStage_stages_of_ne {s s' : StageId} (h : s' ≠ s) (stage : ProgressStage) :
    (t.setStage s stage).stages s' = t.stages s' := Function.update_of_ne h ..

@[simp] theorem setStage_setStage (s : StageId) (stage stage' : ProgressStage) :
    (t.setStage s stage).setStage s stage' = t.setStage s stage' := by
  simp [setStage]

@[simp] theorem setStage_operations (s : StageId) (stage : ProgressStage) :
    (t.setStage s stage).operations = t.operations := rfl

@[simp] theorem setStage_counted (s : StageId) (stage : ProgressStage) :
    (t.setStage s stage).counted = t.counted := rfl

def setItem (e : PublicEvent) (s : StageId) (status : ItemStatus) : Tally :=
  match e.item? with
  | some id => { t with items := Entries.set t.items id ⟨s.text, status, e.attempt, e.occurredAt⟩ }
  | none => t

@[simp] theorem setItem_stages (e : PublicEvent) (s : StageId) (status : ItemStatus) :
    (t.setItem e s status).stages = t.stages := by
  rw [setItem]
  split <;> rfl

@[simp] theorem setItem_operations (e : PublicEvent) (s : StageId) (status : ItemStatus) :
    (t.setItem e s status).operations = t.operations := by
  rw [setItem]
  split <;> rfl

@[simp] theorem setItem_counted (e : PublicEvent) (s : StageId) (status : ItemStatus) :
    (t.setItem e s status).counted = t.counted := by
  rw [setItem]
  split <;> rfl

/-- `completed_units[stage_id].add(unit)`. -/
def addUnit (s : StageId) (unit : String) : Tally :=
  let units := if unit ∈ t.counted s then t.counted s else t.counted s ++ [unit]
  { t with counted := Function.update t.counted s units }

/-- The end of the node that ends a stage: all units if it is no item's, one more
unit otherwise. -/
def complete (s : StageId) (e : PublicEvent) : Tally :=
  if e.item? = none ∧ 1 < (t.stages s).totalUnits then
    t.setStage s { t.stages s with completedUnits := (t.stages s).totalUnits }
  else
    let added := t.addUnit s (e.item?.getD "batch")
    added.setStage s { t.stages s with completedUnits := (added.counted s).length }

/-- What an event changes besides the time of its stage. -/
def count (s : StageId) (e : PublicEvent) : Tally :=
  match e.lifecycle with
  | .progress =>
      match e.completedUnits, e.totalUnits with
      | some completed, some total =>
          t.setStage s { t.stages s with
            completedUnits := completed
            totalUnits := total
            status := if total ≤ completed then .completed else .running }
      | _, _ => t
  | .started =>
      ({ t with operations := Entries.set t.operations e.operation (s, e.item?) }.setStage s
        { t.stages s with status := .running }).setItem e s .running
  | .waiting => t.setStage s { t.stages s with status := .waiting }
  | .failed =>
      { t with operations := Entries.pop t.operations e.operation }.setStage s
        { t.stages s with status := .failed, failedUnits := (t.stages s).failedUnits + 1 }
  | .completed =>
      let ended := { t with operations := Entries.pop t.operations e.operation }
      if PipelineTopology.Terminal s e.node then
        (ended.complete s e).setItem e s (if s = .production then .completed else .running)
      else ended
  | .other => t

/-- One turn of the loop. -/
def note (topology : PipelineTopology) (e : PublicEvent) : Tally :=
  match e.stage? topology with
  | some s =>
      (t.setStage s { t.stages s with
        updatedAt := e.occurredAt.or (t.stages s).updatedAt }).count s e
  | none => t

/-- The loop over the events. -/
def notes (topology : PipelineTopology) (events : List PublicEvent) : Tally :=
  events.foldl (fun t e => t.note topology e) t

/-- The distinct items, or operations without an item, that are active at a stage. -/
def activeUnits (s : StageId) : Nat :=
  ((t.operations.filter (·.2.1 = s)).map fun op => op.2.2.getD op.1).dedup.length

/-- A stage after the loop: what is active runs, what has all its units is complete. -/
def settle (s : StageId) : ProgressStage :=
  let stage := { t.stages s with activeUnits := t.activeUnits s }
  if stage.status = .failed then stage
  else if stage.activeUnits ≠ 0 then { stage with status := .running }
  else if stage.completedUnits ≠ 0 ∧ (stage.totalUnits = 0 ∨ stage.totalUnits = 1
      ∨ stage.totalUnits ≤ stage.completedUnits) then { stage with status := .completed }
  else stage

end Tally

/-- What the snapshot reads of a final item. -/
structure FinalItem where
  id : String
  dropped : Bool := false
  assembled : Bool := false
  error : Bool := false
  /-- `failure["stage"]` without surrounding space, when there is any. -/
  failureStage : Option String := none
  attempts : Int := 0
  deriving DecidableEq

namespace FinalItem

def talkingFailed (items : List FinalItem) : List FinalItem :=
  items.filter (·.failureStage = some "talking_head")

def productCandidates (items : List FinalItem) : List FinalItem :=
  items.filter (· ∉ talkingFailed items)

def productFailed (items : List FinalItem) : List FinalItem :=
  (productCandidates items).filter (·.failureStage = some "product_demo")

def qcCandidates (items : List FinalItem) : List FinalItem :=
  items.filter (· ∉ talkingFailed items ++ productFailed items)

def assemblyCandidates (items : List FinalItem) : List FinalItem :=
  items.filter fun item => !item.dropped &&
    (!item.error || item.failureStage = none || item.failureStage = some "assembly")

/-- `terminal`. -/
def ended (items : List FinalItem) : List FinalItem :=
  items.filter fun item => item.assembled || item.dropped || item.error

def progress (item : FinalItem) : ItemProgress where
  stageId :=
    if item.dropped then "qc"
    else ((item.failureStage.bind StageId.ofText?).map (·.text)).getD "assembly"
  status := if item.dropped then .dropped else if item.error then .failed else .completed
  attempt := item.attempts
  updatedAt := none

end FinalItem

namespace ProgressStage

/-- A stage with the counters of its final items. -/
def finish (stage : ProgressStage) (total completed failed : Nat)
    (status : StageStatus := .completed) : ProgressStage :=
  { stage with
    status := status
    totalUnits := total
    completedUnits := completed
    activeUnits := 0
    failedUnits := failed }

/-- One completed unit and nothing active, as for each step of the plan in a run
that is done. -/
def one (stage : ProgressStage) : ProgressStage :=
  { stage with status := .completed, completedUnits := 1, activeUnits := 0 }

/-- All units, when there are any. -/
def all (stage : ProgressStage) : ProgressStage :=
  { stage with
    status := .completed
    completedUnits := if stage.totalUnits = 0 then stage.completedUnits else stage.totalUnits
    activeUnits := 0 }

/-- A stage that still ran or waited has failed. -/
def abort (stage : ProgressStage) : ProgressStage :=
  if stage.status = .running ∨ stage.status = .waiting then
    { stage with status := .failed, activeUnits := 0 }
  else stage

end ProgressStage

/-- The stages of a run that is done, with its final items. -/
def finishStages (items : List FinalItem) (stages : StageId → ProgressStage) :
    StageId → ProgressStage
  | .talkingHead =>
      (stages .talkingHead).finish items.length
        (items.length - (FinalItem.talkingFailed items).length)
        (FinalItem.talkingFailed items).length
  | .productDemo =>
      (stages .productDemo).finish (FinalItem.productCandidates items).length
        ((FinalItem.productCandidates items).length - (FinalItem.productFailed items).length)
        (FinalItem.productFailed items).length
  | .qc =>
      (stages .qc).finish (FinalItem.qcCandidates items).length
        (FinalItem.qcCandidates items).length (items.filter (·.dropped)).length
  | .assembly =>
      let candidates := FinalItem.assemblyCandidates items
      let assembled := (candidates.filter (·.assembled)).length
      let failed := (candidates.filter (·.error)).length
      (stages .assembly).finish candidates.length assembled failed
        (if candidates.length ≤ assembled + failed then .completed else .failed)
  | .production =>
      (stages .production).finish items.length (FinalItem.ended items).length
        (items.filter (·.error)).length
  | s => (stages s).one

/-- The stages adjusted to the phase of the run; no phase is `idle`. -/
def adjustStages (phase : Option RunPhase) (items : List FinalItem)
    (stages : StageId → ProgressStage) : StageId → ProgressStage :=
  let waiting (s : StageId) := Function.update stages s { stages s with status := .waiting }
  match phase with
  | some .editing => waiting .scripts
  | some .awaiting => waiting .creatorPreviews
  | some .review => waiting .review
  | some .done => if items = [] then fun s => (stages s).all else finishStages items stages
  | some .error | some .cancelled => fun s => (stages s).abort
  | some .running | none => stages

/-- The status that a parent takes from its children, or keeps. -/
def parentStatus (children : List StageStatus) (own : StageStatus) : StageStatus :=
  if .failed ∈ children then .failed
  else if .running ∈ children then .running
  else if ∀ child ∈ children, child = .completed then .completed
  else own

def childrenOf (s : StageId) : List StageId := StageId.all.filter (·.parent = some s)

/-- The parents take their status from their children. -/
def deriveParents (stages : StageId → ProgressStage) (s : StageId) : ProgressStage :=
  if childrenOf s = [] then stages s
  else { stages s with
    status := parentStatus ((childrenOf s).map fun child => (stages child).status)
      (stages s).status }

inductive ExecutionStatus where
  | queued
  | running
  | waitingForUser
  | completed
  | failed
  | cancelled
  deriving DecidableEq

def executionStatus (phase : Option RunPhase) (events : List PublicEvent) : ExecutionStatus :=
  match phase with
  | some .error => .failed
  | some .done => .completed
  | some .editing | some .awaiting | some .review => .waitingForUser
  | some .cancelled => .cancelled
  | some .running | none =>
      if (events.any (·.type = .runQueued)) ∧ ¬ events.any (·.type = .jobStarted) then .queued
      else .running

/-- The snapshot; its stages stand in the order of `StageId.all`. -/
structure RunProgress where
  executionStatus : ExecutionStatus
  stages : StageId → ProgressStage
  items : List (String × ItemProgress)
  activeStageIds : List String
  updatedAt : Option String

def shownActive (stages : StageId → ProgressStage) : List StageId :=
  let shown := StageId.all.filter fun s =>
    (stages s).status = .running ∨ (stages s).status = .waiting
  if shown.filter (·.parent ≠ none) = [] then shown.filter (·.parent = none)
  else shown.filter (·.parent ≠ none)

/-- The units of the stages that count items. -/
def totalItems (events : List PublicEvent) (items : List FinalItem) (batchSize : Option Int) :
    Int :=
  let given := if batchSize.getD 0 = 0 then (items.length : Int) else batchSize.getD 0
  if given = 0 then ((events.find? (·.type = .runStart)).map (·.batch)).getD 0 else given

/-- The tally after the events of a run. -/
def tally (topology : PipelineTopology) (events : List PublicEvent) (items : List FinalItem)
    (batchSize : Option Int) : Tally :=
  (Tally.start (totalItems events items batchSize)).notes topology events

/-- The stages as the loop left them, with the setup that any event or phase completes. -/
def settledStages (topology : PipelineTopology) (events : List PublicEvent)
    (phase : Option RunPhase) (items : List FinalItem) (batchSize : Option Int) :
    StageId → ProgressStage :=
  let settled := (tally topology events items batchSize).settle
  if events ≠ [] ∨ phase ≠ none then
    Function.update settled .setup
      { settled .setup with status := .completed, completedUnits := 1 }
  else settled

def buildProgress (topology : PipelineTopology) (events : List PublicEvent)
    (phase : Option RunPhase) (items : List FinalItem) (batchSize : Option Int) : RunProgress :=
  let stages := deriveParents
    (adjustStages phase items (settledStages topology events phase items batchSize))
  { executionStatus := executionStatus phase events
    stages := stages
    items := if phase = some .done ∧ items ≠ [] then
        ((items.filter (·.id ≠ "")).foldl
          (fun entries item => Entries.set entries item.id item.progress) [])
      else (tally topology events items batchSize).items
    activeStageIds := (shownActive stages).map (·.text)
    updatedAt := events.reverse.findSome? (·.occurredAt) }

end Orchestrator
