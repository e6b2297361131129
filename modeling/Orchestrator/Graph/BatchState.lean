import Orchestrator.Graph.State
import Orchestrator.Lib.Fields

/-!
The state of the batch graph, and what its nodes are configured with.

A channel that no node has written yet is empty here, which is what every node reads
it as. The campaign and the texts the generators start from are left to the generators.
-/

namespace Orchestrator

inductive StageError where
  | valueError (message : String)
  | attributeError
  | generator
  deriving DecidableEq, Repr

/-- A request for a new plan; its ids are as the decision gave them. -/
structure RevisionRequest where
  target : String
  ids : List Json
  feedback : String
  deriving DecidableEq

structure CreatorProfile where
  archetype : String
  visualBrief : String
  voiceBrief : String
  performanceStyle : String
  exclusions : List String
  id : String
  deriving DecidableEq

def CreatorProfile.modelDump (p : CreatorProfile) : Dict :=
  [("archetype", .str p.archetype), ("visual_brief", .str p.visualBrief),
    ("voice_brief", .str p.voiceBrief), ("performance_style", .str p.performanceStyle),
    ("exclusions", .arr (p.exclusions.map .str)), ("id", .str p.id)]

structure CreatorAssignment where
  conceptId : String
  creatorId : String
  deriving DecidableEq

structure BatchState where
  concepts : List Dict := []
  creatorProfiles : List CreatorProfile := []
  creatorAssignments : List CreatorAssignment := []
  roster : List Dict := []
  reviewApproved : Bool := false
  revisionRequest : Option RevisionRequest := none
  results : List Item := []
  totalCostUsd : Rat := 0
  deriving DecidableEq

/-- A creator without a trace of voice designs, as an adapter builds it and as the
public payload of a stored creator shows it. -/
structure Undesigned (fields : Dict) : Prop where
  history : Json.field? fields "voice_design_history" = none
  batch : Json.field? fields "voice_design_batch" = none

structure SeedCreator where
  fields : Dict
  undesigned : Undesigned fields

structure BatchConfig where
  /-- `run["review_plan"]`. -/
  reviewPlan : Bool
  /-- `run["seed_creator"]`. -/
  seedCreator : Option SeedCreator := none
  /-- `roster["creators"]`. -/
  creators : Nat := 2
  /-- `voice["max_rerolls_per_creator"]`. -/
  maxRerolls : Int := 2
  /-- `voice["selection_without_review"]`. -/
  selectionWithoutReview : String := "first"

def idText (fields : Dict) : String := Json.textOr (Json.field? fields "id") ""

end Orchestrator
