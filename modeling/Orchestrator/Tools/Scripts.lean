import Orchestrator.Lib.PyWords
import Orchestrator.Nodes.ScriptReaders

/-!
The tool that writes a script: it takes a draft, or has a text written and reads
beats from its labelled lines, and checks how many words the beats say.

What is synthesised is the narration of the script. It says the words of the beats
where the script holds nothing beside them: no line that the beats leave out, no
label inside a beat and no call to action that no beat says.
-/

namespace Orchestrator
open Outcome PyStr

/-- What the tool reads of a concept; a field that is missing is empty. -/
structure ConceptBrief where
  id : String
  format : String
  hook : String

/-- The arguments of `LanguageRuntime.write_script`. -/
structure ScriptPrompt where
  concept : ConceptBrief
  creatorRef : String
  platform : String
  revision : Option String
  persona : Option String

structure BeatInput where
  beatSection : String
  text : String
  seconds : Nat

structure DraftInput where
  spokenBeats : List BeatInput
  visualBeats : List String
  onScreenText : List String
  callToAction : String
  estimatedDuration : Nat

structure SpokenLimits where
  targetDurationSeconds : Option Int := none
  minSpokenWords : Option Int := none
  maxSpokenWords : Option Int := none

/-- The arguments of `write_script_tool`. -/
structure ScriptArgs where
  concept : ConceptBrief
  creatorRef : String
  platform : String
  revision : Option String := none
  persona : Option String := none
  draft : Option DraftInput := none
  revisionFeedback : Option String := none
  agentSubmission : Bool := false
  limits : SpokenLimits := {}

inductive ScriptToolError where
  | contract (error : ScriptError)
  | runtimeError (text : String)
  | toolOutputError (text : String)
  deriving DecidableEq

/-- A beat as the contract admits it; what is not a section fails at its literal. -/
def BeatInput.validate {m : StrictModel} (beat : BeatInput) : Except ScriptError (SpokenBeat m) :=
  match BeatSection.ofText? beat.beatSection with
  | some b => SpokenBeat.validate b beat.text beat.seconds
  | none => .error (.validationError "SpokenBeat" ["section"])

/-- `ScriptSubmission.model_validate`; the error is that of the first model that fails. -/
def DraftInput.validate {m : StrictModel} (draft : DraftInput) :
    Except ScriptError (ScriptSubmission m) := do
  let beats ← draft.spokenBeats.mapM BeatInput.validate
  ScriptSubmission.validate beats draft.visualBeats draft.onScreenText draft.callToAction
    draft.estimatedDuration

section Limits
variable {m : StrictModel} (submission : ScriptSubmission m) (limits : SpokenLimits)

def spokenSeconds : Nat := (submission.spokenBeats.map (·.seconds)).sum

def beatWords (beats : List (SpokenBeat m)) : List String :=
  beats.flatMap fun beat => words beat.text.text

def spokenWords : Nat :=
  (submission.spokenBeats.map fun beat => (words beat.text.text).length).sum

def checkLimit (limit : Option Int) (broken : Int → Bool) (text : Int → String) :
    Except ScriptError Unit :=
  match limit with
  | some bound => if broken bound then .error (.valueError (text bound)) else .ok ()
  | none => .ok ()

def validateScriptSubmission : Except ScriptError Unit := do
  checkLimit limits.targetDurationSeconds
    (fun target => (max (spokenSeconds submission) submission.estimatedDuration : Int) > target)
    fun target => "narration exceeds " ++ toString target ++ " seconds"
  checkLimit limits.minSpokenWords (fun least => (spokenWords submission : Int) < least)
    fun least => "narration requires at least " ++ toString least ++ " spoken words (got "
      ++ toString (spokenWords submission) ++ ")"
  checkLimit limits.maxSpokenWords (fun most => (spokenWords submission : Int) > most)
    fun most => "narration exceeds " ++ toString most ++ " spoken words (got "
      ++ toString (spokenWords submission) ++ ")"

theorem kept_of_checkLimit {limit : Option Int} {broken : Int → Bool} {text : Int → String}
    (h : checkLimit limit broken text = .ok ()) : ∀ bound ∈ limit, broken bound = false := by
  intro bound hbound
  rw [Option.mem_def.mp hbound] at h
  simp only [checkLimit] at h
  cases hbroken : broken bound with
  | false => rfl
  | true =>
      rw [hbroken] at h
      exact absurd h (by simp)

theorem spokenWords_eq : spokenWords submission = (beatWords submission.spokenBeats).length := by
  rw [spokenWords, beatWords, List.length_flatMap]

/-- A submission that passes says words within the limits. -/
theorem within_limits (h : validateScriptSubmission submission limits = .ok ()) :
    (∀ least ∈ limits.minSpokenWords, least ≤ ((beatWords submission.spokenBeats).length : Int)) ∧
      ∀ most ∈ limits.maxSpokenWords, ((beatWords submission.spokenBeats).length : Int) ≤ most := by
  rw [← spokenWords_eq]
  obtain ⟨_, _, h⟩ := ok_of_bind h
  obtain ⟨_, hleast, hmost⟩ := ok_of_bind h
  constructor
  · intro least hlimit
    simpa using kept_of_checkLimit hleast least hlimit
  · intro most hlimit
    simpa using kept_of_checkLimit hmost most hlimit

end Limits

section Tool
variable (t : CaseTables) (digest8 : ByteArray → String) (m : StrictModel)

/-- The label of a line whose colon follows one. -/
def lineLabel (line : String) : Option BeatSection :=
  if ':' ∈ line.toList then BeatSection.ofText? (t.lower (strip (partitionHead ':' line))) else none

/-- The section and the text of a line that says something after a label. -/
def labelledLine (line : String) : Option (BeatSection × String) :=
  match lineLabel t line with
  | some b =>
      if strip (partitionTail ':' line) = "" then none else some (b, strip (partitionTail ':' line))
  | none => none

/-- The beats of the labelled lines, or the text as one beat of ten seconds;
`round(len(spoken.split()) / 2.5)` is never halfway. -/
def sectionsFromText (script : String) : Except ScriptError (List (SpokenBeat m)) :=
  match (splitLines script).filterMap (labelledLine t) with
  | [] => do return [← SpokenBeat.validate .body script 10]
  | read => read.mapM fun (b, spoken) =>
      SpokenBeat.validate b spoken (max 1 ((4 * wordCount spoken + 5) / 10))

def submissionFromText (script : String) (concept : ConceptBrief) :
    Except ScriptError (ScriptSubmission m) := do
  let sections ← sectionsFromText t m script
  let cta := match sections.find? (·.beatSection = .cta) with
    | some beat => beat.text.text
    | none => "See the offer"
  ScriptSubmission.validate sections
    ["Creator performs a " ++ (if concept.format = "" then "talking_head" else concept.format)
      ++ " scene"]
    (if concept.hook = "" then [] else [concept.hook]) cta (sections.map (·.seconds)).sum

def generatedScript (languageRuntime : Option (ScriptPrompt → String)) (args : ScriptArgs) :
    Except ScriptToolError String :=
  match languageRuntime with
  | none => .error (.runtimeError "write_script requires LanguageRuntime in ToolContext")
  | some writeScript =>
      let revision := if args.revisionFeedback.getD "" = "" then args.revision
        else args.revisionFeedback
      let generated := writeScript
        ⟨args.concept, args.creatorRef, args.platform, revision, args.persona⟩
      if strip generated = "" then
        .error (.toolOutputError "write_script_tool expected non-empty str from adapter")
      else .ok generated

/-- The submission and, where no draft is given, the text it is read from. -/
def submittedScript (languageRuntime : Option (ScriptPrompt → String)) (args : ScriptArgs) :
    Except ScriptToolError (ScriptSubmission m × Option String) :=
  match args.draft with
  | none => do
      if args.agentSubmission then
        throw (.contract (.valueError "agent must submit a structured draft"))
      let script ← generatedScript languageRuntime args
      let submission ← (submissionFromText t m script args.concept).mapError .contract
      return (submission, some script)
  | some draft => do
      let submission ← draft.validate.mapError .contract
      return (submission, none)

def writeScriptTool (runId : String) (languageRuntime : Option (ScriptPrompt → String))
    (args : ScriptArgs) : Except ScriptToolError (CreativeContracts.ScriptResult m) := do
  let (submission, script) ← submittedScript t m languageRuntime args
  (validateScriptSubmission submission args.limits).mapError .contract
  if args.concept.id = "" then throw (.contract (.valueError "concept id is required"))
  let materialized ←
    (materializeScript t digest8 submission runId args.concept.id).mapError .contract
  let rendered := script.getD materialized.renderText
  if h : m.strip (m.strip rendered) = m.strip rendered ∧ 1 ≤ (m.strip rendered).length then
    return ⟨m.strip rendered, materialized, h⟩
  else throw (.contract (.validationError "ScriptResult" ["script"]))

end Tool

end Orchestrator
