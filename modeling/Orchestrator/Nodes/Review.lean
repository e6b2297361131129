import Mathlib.Data.List.Sort
import Orchestrator.Graph.BatchState

/-!
The human gate: what a decision may change and when it is refused.

The two update functions are the ones the web endpoint applies to the public payload
of the gate and the node applies to the state.
-/

namespace Orchestrator

def reviewConceptFields : List String :=
  ["id", "offer", "hook", "angle", "audience_problem", "product_mechanism", "evidence_basis",
    "format", "hook_style", "script", "script_draft"]

def editableConceptFields : List String :=
  reviewConceptFields.filter (· ∉ ["id", "offer", "script_draft"])

def reviewCreatorFields : List String :=
  ["id", "archetype", "visual_brief", "voice_brief", "performance_style", "exclusions",
    "image_uri", "voice_ref", "voice_preview_uri", "selected_voice_candidate_id", "image", "voice",
    "angles", "run_id", "offer", "status"]

def editableCreatorFields : List String :=
  ["archetype", "visual_brief", "voice_brief", "performance_style", "exclusions",
    "selected_voice_candidate_id"]

/-- Every id is there, no update is given twice, and the updates are for the same ids. -/
def preservesIds (existing updates : List Dict) : Bool :=
  let existingIds := existing.map idText
  let updateIds := updates.map idText
  (existingIds.all (· ≠ "")) && updateIds.Nodup &&
    (updateIds.all (· ∈ existingIds)) && (existingIds.all (· ∈ updateIds))

def unknownFields (known : List String) (update : Dict) : List String :=
  ((update.map Prod.fst).filter (· ∉ known)).insertionSort (· ≤ ·)

/-- The first update with a field that is not part of the contract is refused. -/
def checkFields (what : String) (known : List String) (updates : List Dict) :
    Except StageError Unit :=
  match updates.find? (fun update => unknownFields known update ≠ []) with
  | some update =>
      .error (.valueError ("unsupported " ++ what ++ " review fields: " ++
        ", ".intercalate (unknownFields known update)))
  | none => .ok ()

/-- `by_id[str(existing["id"])]`. -/
def updateFor (updates : List Dict) (existing : Dict) : Dict :=
  (updates.find? (fun update => idText update = idText existing)).getD []

/-- The fields of an update a reviewer may change. -/
def editable (known : List String) (update : Dict) : Dict := update.filter (·.1 ∈ known)

def applyReviewConceptUpdates (concepts updates : List Dict) :
    Except StageError (List Dict) :=
  if preservesIds concepts updates then do
    checkFields "concept" reviewConceptFields updates
    return concepts.map fun concept =>
      Json.merge concept (editable editableConceptFields (updateFor updates concept))
  else .error (.valueError "review must preserve the same concept IDs")

/-- The candidates of a creator that are dictionaries, as every reader takes them. -/
def voiceCandidates (creator : Dict) : List Dict :=
  Json.dictsOf (Json.itemsOf (Json.field? creator "voice_candidates"))

def candidateIds (creator : Dict) : List String :=
  (voiceCandidates creator).map fun candidate =>
    Json.textOr (Json.field? candidate "candidate_id") ""

/-- `str(creator.get("selected_voice_candidate_id") or "")`. -/
def selectedId (creator : Dict) : String :=
  Json.textOr (Json.field? creator "selected_voice_candidate_id") ""

/-- The design history with the current candidates appended, when there are any: as
their batch, or as a bare list. -/
def designHistory (creator : Dict) : List Json :=
  let previousCandidates := Json.itemsOf (Json.field? creator "voice_candidates")
  let history := Json.itemsOf (Json.field? creator "voice_design_history")
  if previousCandidates = [] then history
  else history ++ [match Json.field? creator "voice_design_batch" with
    | some (.obj batch) => .obj batch
    | _ => .arr previousCandidates]

/-- The update changes the direction the voices were designed from. -/
def briefChanged (creator update : Dict) : Bool :=
  Json.hasField update "voice_brief" &&
    (Json.field? update "voice_brief").getD .null ≠
      (Json.field? creator "voice_brief").getD .null

/-- A creator whose candidates no longer fit its brief. -/
def discardCandidates (history : List Json) (merged : Dict) : Dict :=
  let merged := Json.setField merged "voice_design_history" (.arr history)
  let merged := Json.setField merged "voice_candidates" (.arr [])
  let merged := Json.dropField merged "voice_design_batch"
  Json.setField merged "selected_voice_candidate_id" .null

def reviewedCreator (creator update : Dict) : Except StageError Dict :=
  let merged := Json.merge creator (editable editableCreatorFields update)
  if briefChanged creator update then .ok (discardCandidates (designHistory creator) merged)
  else if Json.hasField update "selected_voice_candidate_id" ∧ selectedId update ≠ "" ∧
      selectedId update ∉ candidateIds creator then
    .error (.valueError ("selected voice candidate must belong to creator " ++
      Json.textOr (Json.field? creator "id") "unknown"))
  else .ok merged

def applyReviewCreatorUpdates (roster updates : List Dict) : Except StageError (List Dict) :=
  if roster.length = 2 ∧ preservesIds roster updates then do
    checkFields "creator" reviewCreatorFields updates
    roster.mapM fun creator => reviewedCreator creator (updateFor updates creator)
  else .error (.valueError "review must preserve exactly two creator IDs")

/-- The creator has one of its own candidates selected. -/
def hasSelection (creator : Dict) : Bool :=
  selectedId creator ≠ "" && selectedId creator ∈ candidateIds creator

def validateVoiceSelections (roster : List Dict) : Except StageError Unit :=
  match roster.find? (fun creator => !hasSelection creator) with
  | some creator =>
      .error (.valueError ("select one voice candidate belonging to creator " ++
        Json.textOr (Json.field? creator "id") "unknown"))
  | none => .ok ()

/-- What the interrupt shows of the state. -/
def reviewInterrupt (st : BatchState) : Dict :=
  [("type", .str "review_creative_plan"), ("concepts", .arr (st.concepts.map .obj)),
    ("creators", .arr (st.roster.map .obj))]

/-- `interrupt(...) or {}`, as the dictionary it is read as. -/
def decisionFields (decision : Json) : Except StageError Dict :=
  match decision with
  | .obj fields => .ok fields
  | decision => if decision.truthy then .error .attributeError else .ok []

/-- The updates of a list, each read as a dictionary. -/
def updatesOf (items : List Json) : Except StageError (List Dict) :=
  items.mapM fun
    | .obj fields => .ok fields
    | _ => .error .attributeError

/-- `apply(existing, updates) if isinstance(updates, list) else existing`. -/
def applyIfList (apply : List Dict → List Dict → Except StageError (List Dict))
    (existing : List Dict) : Option Json → Except StageError (List Dict)
  | some (.arr items) => do
      let updates ← updatesOf items
      apply existing updates
  | _ => .ok existing

def reviewTargets : List String := ["concepts", "scripts", "creators", "voices"]

/-- `decision.get("target")`, when it is one of the four. -/
def targetOf (decision : Dict) : Option String :=
  match Json.field? decision "target" with
  | some (.str target) => if target ∈ reviewTargets then some target else none
  | _ => none

def requestRevision (decision : Dict) (target : String) (st : BatchState) :
    Except StageError BatchState := do
  let roster ← applyIfList applyReviewCreatorUpdates st.roster
    (if target ∈ ["creators", "voices"] then Json.field? decision "creators" else none)
  let concepts ← applyIfList applyReviewConceptUpdates st.concepts
    (if target ∈ ["concepts", "scripts"] then Json.field? decision "concepts" else none)
  return { st with
    roster
    concepts
    reviewApproved := false
    revisionRequest := some
      { target
        ids := Json.itemsOf (Json.field? decision "ids")
        feedback := Json.textOr (Json.field? decision "feedback") "" } }

def approvePlan (decision : Dict) (st : BatchState) : Except StageError BatchState := do
  let roster ← applyIfList applyReviewCreatorUpdates st.roster (Json.field? decision "creators")
  validateVoiceSelections roster
  let concepts ← applyIfList applyReviewConceptUpdates st.concepts
    (Json.field? decision "concepts")
  return { st with roster, concepts, reviewApproved := true, revisionRequest := none }

def nodeReview (cfg : BatchConfig) (decision : Json) (st : BatchState) :
    Except StageError BatchState :=
  if !cfg.reviewPlan then .ok { st with reviewApproved := true, revisionRequest := none }
  else do
    let decision ← decisionFields decision
    let action := (Json.field? decision "action").getD (.str "approve")
    if action = .str "regenerate" then
      match targetOf decision with
      | some target => requestRevision decision target st
      | none => .error (.valueError
          "regenerate target must be concepts, scripts, creators, or voices")
    else if action = .str "approve" then approvePlan decision st
    else .error (.valueError "review action must be approve or regenerate")

end Orchestrator
