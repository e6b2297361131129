import Orchestrator.Progress.Snapshot

/-!
The run page: the reducer that follows the event stream of a run.

The page starts from nothing, or takes over the server's detail of the run, and
then follows the events. A progress event moves the counters of its own stage and
is skipped when the activity list, which is cut to its last entries, has its id.
-/

namespace Orchestrator

def maxSafeInteger : Int := 9007199254740991

namespace ProgressStage
variable (stage : ProgressStage) (e : PublicEvent)

/-- A progress event with both counters. -/
def report (completed total : Int) : ProgressStage :=
  { stage with
    status := if total ≤ completed then .completed else .running
    activeUnits := if total ≤ completed then 0 else 1
    completedUnits := completed
    totalUnits := total
    updatedAt := e.occurredAt.or stage.updatedAt }

/-- Any other progress event. -/
def step : ProgressStage :=
  let active :=
    if e.status = "started" then stage.activeUnits + 1
    else if e.status = "completed" ∨ e.status = "failed" then stage.activeUnits - 1
    else stage.activeUnits
  let completed :=
    if e.status = "completed" then
      min (if stage.totalUnits = 0 then maxSafeInteger else stage.totalUnits)
        (stage.completedUnits + 1)
    else stage.completedUnits
  { stage with
    status :=
      if e.status = "failed" then .failed
      else if e.status = "waiting" then .waiting
      else if 0 < active then .running
      else if stage.totalUnits ≤ completed ∧ 0 < stage.totalUnits then .completed
      else stage.status
    activeUnits := active
    completedUnits := completed
    failedUnits := if e.status = "failed" then stage.failedUnits + 1 else stage.failedUnits
    updatedAt := e.occurredAt.or stage.updatedAt }

/-- What a progress event of the stage does to it. -/
def follow : ProgressStage :=
  if e.status = "progress" then
    match e.completedUnits, e.totalUnits with
    | some completed, some total => stage.report e completed total
    | _, _ => stage.step e
  else stage.step e

end ProgressStage

def followStages (stages : StageId → ProgressStage) (e : PublicEvent) (s : StageId) :
    ProgressStage :=
  if s.text = e.stageId then (stages s).follow e else stages s

def applyProgressEvent (progress : RunProgress) (e : PublicEvent) : RunProgress where
  executionStatus := if e.status = "failed" then .failed else .running
  stages := followStages progress.stages e
  items :=
    match e.item? with
    | some id =>
        let status : ItemStatus :=
          if e.status = "failed" then .failed
          else if e.status = "completed" ∧ e.stageId = StageId.production.text then .completed
          else .running
        progress.items.filter (·.1 ≠ id) ++ [(id, ⟨e.stageId, status, e.attempt, e.occurredAt⟩)]
    | none => progress.items
  activeStageIds := (shownActive (followStages progress.stages e)).map (·.text)
  updatedAt := e.occurredAt.or progress.updatedAt

/-- `setProgressStage` for a gate. -/
def setProgressStage (progress : RunProgress) (stageId : String) (occurredAt : Option String) :
    RunProgress :=
  { progress with
    executionStatus := .waitingForUser
    stages := fun s =>
      if s.text = stageId then
        { progress.stages s with
          status := .waiting
          activeUnits := 0
          updatedAt := occurredAt.or (progress.stages s).updatedAt }
      else progress.stages s
    activeStageIds := [stageId]
    updatedAt := occurredAt.or progress.updatedAt }

/-- A concept or a creator of a run: its id and its other fields. -/
structure PageRecord where
  id : String
  fields : List (String × String) := []
  deriving DecidableEq

structure ReviewPayload where
  concepts : List PageRecord
  creators : List PageRecord
  deriving DecidableEq

inductive GateType where
  | editConcepts
  | approveCreators
  | reviewCreativePlan
  deriving DecidableEq

structure GateRef where
  gateId : String
  version : Int
  gateType : GateType
  deriving DecidableEq

/-- An entry of the timeline; only its id decides anything. -/
structure RunActivity where
  eventId : String
  status : String := ""
  stageId : String := ""
  itemId : Option String := none
  occurredAt : Option String := none
  deriving DecidableEq

/-- What an event that opens a gate brings besides its payload. -/
structure GateEvent where
  eventId : Option String := none
  occurredAt : Option String := none
  /-- `gateRef` of the event. -/
  gate : Option GateRef := none
  deriving DecidableEq

inductive StreamEvent where
  | runStart (batch : Int)
  | nodeStart (node : String)
  | nodeEnd (node : String)
  | progressEvent (eventId : Option String) (event : PublicEvent)
  | itemUpdate
  | awaitingConceptEdit (event : GateEvent) (concepts : List PageRecord)
  | awaitingApproval (event : GateEvent) (creators : List PageRecord)
  | awaitingReview (event : GateEvent) (payload : ReviewPayload)
  | creatorUpdate (creator : PageRecord)
  | runEnd
  | error
  /-- An event that changes neither the phase, nor a gate, nor the progress. -/
  | other

/-- What the page keeps of a run; no phase is `idle`. -/
structure RunStreamState where
  phase : Option RunPhase := none
  editConcepts : List PageRecord := []
  awaiting : List PageRecord := []
  review : Option ReviewPayload := none
  gate : Option GateRef := none
  progress : Option RunProgress := none
  activity : List RunActivity := []

/-- The server's detail of a run. -/
structure RunDetail where
  phase : Option RunPhase
  editConcepts : List PageRecord := []
  awaiting : List PageRecord := []
  review : Option ReviewPayload := none
  gate : Option GateRef := none
  progress : Option RunProgress := none
  activity : List RunActivity := []

/-- The values of a `Map` filled with one list and then the other. -/
def mergeBy {α : Type} (key : α → String) (hydrated live : List α) : List α :=
  ((hydrated ++ live).foldl (fun entries x => Entries.set entries (key x) x) []).map Prod.snd

theorem mem_mergeBy {α : Type} {key : α → String} {hydrated live : List α} {x : α}
    (h : x ∈ mergeBy key hydrated live) : x ∈ hydrated ∨ x ∈ live := by
  have hfold (entries : List (String × α)) (xs : List α) (e : String × α)
      (he : e ∈ xs.foldl (fun entries x => Entries.set entries (key x) x) entries) :
      e ∈ entries ∨ e.2 ∈ xs := by
    induction xs generalizing entries with
    | nil => exact .inl he
    | cons x xs ih =>
        obtain he | he := ih (Entries.set entries (key x) x) he
        · obtain he | rfl := Entries.mem_set he
          · exact .inl he
          · exact .inr (.head _)
        · exact .inr (.tail _ he)
  obtain ⟨e, he, rfl⟩ := List.mem_map.mp h
  obtain he | he := hfold [] _ e he
  · cases he
  · exact List.mem_append.mp he

/-- The keys of a `Map` after one more. -/
def addKey (keys : List String) (k : String) : List String := if k ∈ keys then keys else keys ++ [k]

theorem map_key_mergeBy {α : Type} (key : α → String) (hydrated live : List α) :
    (mergeBy key hydrated live).map key = ((hydrated ++ live).map key).foldl addKey [] := by
  have hfold (xs : List α) (entries : List (String × α))
      (hentries : ∀ e ∈ entries, e.1 = key e.2) :
      let after := xs.foldl (fun entries x => Entries.set entries (key x) x) entries
      (∀ e ∈ after, e.1 = key e.2) ∧
        after.map Prod.fst = (xs.map key).foldl addKey (entries.map Prod.fst) := by
    induction xs generalizing entries with
    | nil => exact ⟨hentries, rfl⟩
    | cons x xs ih =>
        have hset := ih (Entries.set entries (key x) x) fun e he => by
          obtain he | rfl := Entries.mem_set he
          · exact hentries e he
          · rfl
        refine ⟨hset.1, hset.2.trans ?_⟩
        rw [Entries.map_fst_set]
        rfl
  obtain ⟨hkeys, hfst⟩ := hfold (hydrated ++ live) [] fun _ he => by cases he
  rw [mergeBy, List.map_map]
  exact (List.map_congr_left fun e he => (hkeys e he).symm).trans hfst

theorem nodup_addKey {keys : List String} (h : keys.Nodup) (k : String) :
    (addKey keys k).Nodup := by
  rw [addKey]
  split
  · exact h
  next hnew => exact h.append (List.nodup_singleton k) (List.disjoint_singleton.mpr hnew)

def mergeById : List PageRecord → List PageRecord → List PageRecord := mergeBy (·.id)

def mergeActivity (hydrated live : List RunActivity) : List RunActivity :=
  let merged := mergeBy (·.eventId) hydrated live
  merged.drop (merged.length - 100)

/-- The ids of a timeline that takes in others. -/
def mergeIds (hydrated live : List String) : List String :=
  let merged := (hydrated ++ live).foldl addKey []
  merged.drop (merged.length - 100)

theorem map_eventId_mergeActivity (hydrated live : List RunActivity) :
    (mergeActivity hydrated live).map (·.eventId) =
      mergeIds (hydrated.map (·.eventId)) (live.map (·.eventId)) := by
  have hkeys := map_key_mergeBy (·.eventId) hydrated live
  rw [List.map_append] at hkeys
  simp only [mergeActivity, mergeIds, ← hkeys, List.map_drop, List.length_map]

theorem mem_mergeActivity {hydrated live : List RunActivity} {a : RunActivity}
    (h : a ∈ mergeActivity hydrated live) : a ∈ hydrated ∨ a ∈ live :=
  mem_mergeBy (List.mem_of_mem_drop h)

/-- `newerProgress`; `dateParse` gives no number where `Date.parse` gives `NaN`. -/
def newerProgress (dateParse : String → Option Int) (current hydrated : Option RunProgress) :
    Option RunProgress :=
  match hydrated with
  | none => current
  | some detail =>
      match (current.bind (·.updatedAt)).filter (· ≠ ""), detail.updatedAt.filter (· ≠ "") with
      | some live, some stored =>
          match dateParse live, dateParse stored with
          | some a, some b => if b < a then current else hydrated
          | _, _ => hydrated
      | _, _ => hydrated

def progressActivity (eventId : Option String) (e : PublicEvent) : RunActivity where
  eventId := eventId.getD (e.operationId ++ ":" ++ e.status)
  status := e.status
  stageId := e.stageId
  itemId := e.item?
  occurredAt := e.occurredAt

def gateActivity (e : GateEvent) (stageId : String) : RunActivity where
  eventId := e.eventId.getD ("gate:" ++ stageId ++ ":waiting")
  status := "waiting"
  stageId := stageId
  occurredAt := e.occurredAt

namespace RunStreamState
variable (st : RunStreamState)

def clearGateOnResume : RunStreamState :=
  if st.phase = some .editing ∨ st.phase = some .awaiting ∨ st.phase = some .review then
    { st with
      phase := some .running
      editConcepts := []
      awaiting := []
      review := none
      gate := none }
  else st

/-- What every event that opens a gate does; `stageId` is the stage that waits. -/
def openGate (phase : RunPhase) (stageId : String) (e : GateEvent) : RunStreamState :=
  { st with
    phase := some phase
    gate := e.gate
    progress := st.progress.map fun progress => setProgressStage progress stageId e.occurredAt
    activity := mergeActivity st.activity [gateActivity e stageId] }

def hydrate (dateParse : String → Option Int) (detail : RunDetail) : RunStreamState where
  phase :=
    if st.phase = none ∨ (st.phase = some .running ∧ detail.phase ≠ none) then detail.phase
    else st.phase
  editConcepts := mergeById detail.editConcepts st.editConcepts
  awaiting := mergeById detail.awaiting st.awaiting
  review := detail.review.or st.review
  gate := detail.gate.or st.gate
  progress := newerProgress dateParse st.progress detail.progress
  activity := mergeActivity detail.activity st.activity

end RunStreamState

def reduceRunStreamEvent (st : RunStreamState) : StreamEvent → RunStreamState
  | .runStart _ =>
      { st with
        phase := some .running
        progress := st.progress.map fun progress => { progress with executionStatus := .running } }
  | .nodeStart _ => st.clearGateOnResume
  | .nodeEnd _ => st
  | .progressEvent eventId e =>
      if st.activity.any (·.eventId = (progressActivity eventId e).eventId) then st
      else
        { st with
          progress := st.progress.map fun progress => applyProgressEvent progress e
          activity := mergeActivity st.activity [progressActivity eventId e] }
  | .itemUpdate => st.clearGateOnResume
  | .awaitingConceptEdit e concepts =>
      { st.openGate .editing "scripts" e with editConcepts := concepts }
  | .awaitingApproval e creators =>
      { st.openGate .awaiting "creators" e with awaiting := creators }
  | .awaitingReview e payload =>
      { st.openGate .review "review" e with review := some payload }
  | .creatorUpdate creator =>
      { st with awaiting := st.awaiting.map fun a => if a.id = creator.id then creator else a }
  | .runEnd =>
      { st with
        phase := some .done
        progress := st.progress.map fun progress =>
          { progress with executionStatus := .completed, activeStageIds := [] } }
  | .error =>
      { st with
        phase := some .error
        progress := st.progress.map fun progress =>
          { progress with executionStatus := .failed, activeStageIds := [] } }
  | .other => st

end Orchestrator
