import Orchestrator.Lib.Machine
import Orchestrator.Nodes.BatchStages

/-!
Runs of the batch graph.

A node that raises leaves the run where it was, with its state; the job that drove it
may be repeated. An event that is not for the node at hand does nothing.
-/

namespace Orchestrator

inductive BatchNode where
  | concepts
  | scripts
  | creatorProfiles
  | roster
  | voiceCandidates
  | review
  | finalizeVoices
  | processItem (pending : Nat)
  | feedback
  | ended
  deriving DecidableEq, Repr

structure BatchRun where
  node : BatchNode := .concepts
  state : BatchState := {}

/-- What a node gets from outside, one event for each execution of a node. -/
inductive BatchEvent where
  | concepts (concepts : List Dict)
  | scripts (write : Dict → ScriptResult)
  | creatorProfiles (submission : CreatorRosterSubmission)
  | roster (seedImage : Option String) (build : Nat → Option BuiltCreator)
  | voiceCandidates (design : Dict → Int → Option StoredDesign)
  | review (decision : Json)
  | finalizeVoices (finalize : Dict → Option FinalizedVoice)
  | processItem (item : Item)
  | feedback

def routeAfterReview (st : BatchState) : BatchNode :=
  if st.reviewApproved then .finalizeVoices
  else match st.revisionRequest.map (·.target) with
    | some "concepts" => .concepts
    | some "scripts" => .scripts
    | some "creators" => .creatorProfiles
    | some "voices" => .voiceCandidates
    | _ => .review

/-- The fan-out sends one item for each concept. -/
def fanOut (st : BatchState) : BatchNode :=
  if st.concepts = [] then .ended else .processItem st.concepts.length

/-- The reducers: the item joins the results and its cost the total. -/
def reduceItem (item : Item) (st : BatchState) : BatchState :=
  { st with
    results := st.results ++ [item]
    totalCostUsd := st.totalCostUsd + item.costUsd }

namespace BatchRun

def proceed (r : BatchRun) (result : Except StageError BatchState)
    (next : BatchState → BatchNode) : Option StageError × BatchRun :=
  match result with
  | .ok st => (none, ⟨next st, st⟩)
  | .error exc => (some exc, r)

def step (cfg : BatchConfig) (e : BatchEvent) (r : BatchRun) : Option StageError × BatchRun :=
  match e, r.node with
  | .concepts concepts, .concepts =>
      r.proceed (.ok (nodeConcepts concepts r.state)) fun _ => .scripts
  | .scripts write, .scripts =>
      r.proceed (.ok (nodeScripts write r.state)) fun _ => .creatorProfiles
  | .creatorProfiles submission, .creatorProfiles =>
      r.proceed (nodeCreatorProfiles submission r.state) fun _ => .roster
  | .roster seedImage build, .roster =>
      r.proceed (nodeRoster cfg seedImage build r.state) fun _ => .voiceCandidates
  | .voiceCandidates design, .voiceCandidates =>
      r.proceed (nodeVoiceCandidates cfg design r.state) fun _ => .review
  | .review decision, .review =>
      r.proceed (nodeReview cfg decision r.state) routeAfterReview
  | .finalizeVoices finalize, .finalizeVoices =>
      r.proceed (nodeFinalizeVoices finalize r.state) fanOut
  | .processItem item, .processItem (pending + 1) =>
      (none, ⟨if pending = 0 then .feedback else .processItem pending, reduceItem item r.state⟩)
  | .feedback, .feedback => (none, ⟨.ended, r.state⟩)
  | _, _ => (none, r)

abbrev after (cfg : BatchConfig) (events : List BatchEvent) : BatchRun :=
  Machine.run (step cfg) {} events

end BatchRun

end Orchestrator
