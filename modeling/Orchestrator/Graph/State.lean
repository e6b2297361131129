import Orchestrator.Tools.Runtime

/-!
The state of the item subgraph, and the items the fan-out sends to it.

Amounts of money are exact here; what adding and rounding floats gives is left
to the services a run is given.
-/

namespace Orchestrator

structure QCResult where
  passed : Bool
  score : Rat
  reasons : List String := []
  deriving DecidableEq

/-- The description of an expected failure of one item. -/
structure FailureDetail where
  code : String
  type : String
  message : String
  stage : String
  provider : String
  itemId : String
  effectKey : String
  retryable : Bool
  uncertain : Bool
  deriving DecidableEq

structure Item where
  id : String
  concept : List (String × Json)
  creatorRef : Option String := none
  creatorVoiceRef : Option String := none
  creatorImageUri : Option String := none
  creatorImageLocalPath : Option String := none
  script : Option String := none
  tier : Option String := none
  clips : List Artifact := []
  qc : Option QCResult := none
  attempts : Int := 0
  voiceover : Option Artifact := none
  assembled : Option Artifact := none
  dropped : Bool := false
  error : Option String := none
  failure : Option FailureDetail := none
  costUsd : Rat := 0
  deriving DecidableEq

/-- `a or b` of two optional strings. -/
def orElse (a b : Option String) : Option String := if a.any (· ≠ "") then a else b

/-- What the fan-out reads of a creator of the roster. -/
structure RosterCreator where
  id : Option String := none
  voiceModelRef : Option String := none
  voiceRef : Option String := none
  voiceId : Option String := none
  imageSourceUri : Option String := none
  upscaledBase : Option String := none
  imageLocalPath : Option String := none

/-- A concept with its script, which is kept apart from the other fields. -/
structure ScriptedConcept where
  id : Option String := none
  fields : List (String × Json)
  script : Option String

def newItem (freshId : String) (concept : List (String × Json))
    (creatorRef creatorVoiceRef creatorImageUri creatorImageLocalPath : Option String) : Item :=
  { id := freshId, concept, creatorRef, creatorVoiceRef, creatorImageUri, creatorImageLocalPath }

/-- The item that `fan_out` sends for a concept and the creator assigned to it;
`freshId` is the id of an item whose concept has none. -/
def fanOutItem (freshId : String) (concept : ScriptedConcept) (creator : RosterCreator) : Item :=
  let item := newItem freshId concept.fields creator.id
    (orElse creator.voiceModelRef (orElse creator.voiceRef creator.voiceId))
    (orElse creator.imageSourceUri creator.upscaledBase) creator.imageLocalPath
  { item with
    script := concept.script
    id := if concept.id.any (· ≠ "") then concept.id.getD freshId else freshId }

end Orchestrator
