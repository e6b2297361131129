import Mathlib.Tactic.Push
import Orchestrator.Graph.ItemMoves

/-!
How a run of the item subgraph ends.

The verdicts of a run are read from its visits. Between two verdicts the item
gains the clips of one take; a failed verdict leads to the next take while the
budget lasts. A run that is not aborted by an exception ends, in one way.
-/

namespace Orchestrator
open Outcome

/-- A take has a talking head and a product demo. -/
abbrev requiredClips : Nat := 2

inductive ItemOutcome where
  | assembly | dropped | error
  deriving DecidableEq, Repr

/-- The nodes after which an error ends the item. -/
def ItemNode.stopsOnError : ItemNode → Bool
  | .voiceover | .tier _ | .productDemo => true
  | _ => false

namespace ItemGraph
variable (g : ItemGraph) (u : UnicodeTables) (env : Nat → ItemServices) (item : Item)
  (k : ItemRun)

def verdicts : List QCResult :=
  k.visits.filterMap fun visit => if visit.node = .qc then visit.left.bind Item.qc else none

def evaluations : Nat := (verdicts k).length

def failedVerdicts : Nat := (verdicts k).countP fun verdict => !verdict.passed

def Ends : ItemOutcome → Prop
  | .assembly => ∃ visit ∈ k.visits, visit.node = .assembly
  | .dropped => k.state.dropped = true
  | .error => k.state.error.isSome = true ∧
      ∃ visit, k.visits.getLast? = some visit ∧ visit.node.stopsOnError = true

/-- A provider call of a node fails in a way the node turns into the item's error. -/
def ProviderFails (s : ItemServices) (before : Item) : ItemNode → Prop
  | .voiceover => narrationMissing u before = none ∧ ∃ exc,
      s.synthesizeVoiceover (PyStr.strip (before.creatorVoiceRef.getD ""))
        (narrationText u (before.script.getD "")) before.id = .error exc
  | .tier name => ∃ exc,
      s.generateClip (talkingHeadRequest g.cfg before name) = .error (.videoEffect exc)
  | .productDemo => ∃ exc,
      s.generateClip (productDemoRequest g.cfg before) = .error (.videoEffect exc)
  | _ => False

def NoProviderFails : Prop :=
  ∀ n visit, k.visits[n]? = some visit → ¬ ProviderFails g u (env n) visit.before visit.node

/-- How a run ended, by its counts, its outcome and the item it leaves. -/
structure OneOutcome : Prop where
  evaluations_le : (evaluations k : Int) ≤ max 1 g.cfg.maxAttempts
  one : ∃! outcome, Ends k outcome
  dropped_iff : k.state.dropped = true ↔ ∃ verdict, (verdicts k).getLast? = some verdict ∧
    verdict.passed = false ∧ g.cfg.maxAttempts ≤ k.state.attempts
  not_both : ¬ (k.state.dropped = true ∧ k.state.assembled.isSome = true)
  attempts_eq : k.state.attempts = failedVerdicts k
  clips_eq : NoProviderFails g u env k →
    k.state.clips.length = requiredClips * evaluations k

variable {g} {u} {env} {item} {k} {node : ItemNode} {left : Item} {next : Option ItemNode}

theorem verdicts_moved (hnode : node ≠ .qc) : verdicts (k.moved node left next) = verdicts k := by
  simp [verdicts, GraphWalk.moved, hnode]

theorem verdicts_moved_qc {qc : QCResult} (hqc : left.qc = some qc) :
    verdicts (k.moved .qc left next) = verdicts k ++ [qc] := by
  simp [verdicts, GraphWalk.moved, hqc]

theorem last_moved : (k.moved node left next).visits.getLast? = some ⟨node, k.state, some left⟩ :=
  List.getLast?_concat ..

theorem not_assembly_moved (hnode : node ≠ .assembly)
    (hvisits : ∀ visit ∈ k.visits, visit.node ≠ .assembly) :
    ∀ visit ∈ (k.moved node left next).visits, visit.node ≠ .assembly := by
  intro visit hvisit
  cases List.mem_append.mp hvisit with
  | inl hold => exact hvisits visit hold
  | inr hnew =>
      rw [List.mem_singleton.mp hnew]
      exact hnode

theorem not_noProviderFails_moved
    (hfails : ProviderFails g u (env k.visits.length) k.state node) :
    ¬ NoProviderFails g u env (k.moved node left next) := by
  intro hnone
  exact hnone k.visits.length _ (List.getElem?_concat_length ..) hfails

/-- The counts of a run, with the clips of a take that is not judged yet. -/
structure Tally (g : ItemGraph) (k : ItemRun) (extra : Nat) : Prop where
  evaluations_le : (evaluations k : Int) ≤ max 1 g.cfg.maxAttempts
  attempts_eq : k.state.attempts = failedVerdicts k
  clips_eq : k.state.clips.length = requiredClips * evaluations k + extra
  kept : k.state.dropped = false

/-- A take is under way: all verdicts so far failed and the budget lasts. -/
structure Producing (g : ItemGraph) (k : ItemRun) (extra : Nat) : Prop extends Tally g k extra where
  all_failed : failedVerdicts k = evaluations k
  budget : evaluations k = 0 ∨ k.state.attempts < g.cfg.maxAttempts
  healthy : k.state.error = none
  unassembled : k.state.assembled = none
  not_visited : ∀ visit ∈ k.visits, visit.node ≠ .assembly

/-- The last verdict decided where the item goes. -/
structure Judged (g : ItemGraph) (k : ItemRun) (passed : Bool) : Prop extends Tally g k 0 where
  last : ∃ verdict, (verdicts k).getLast? = some verdict ∧ verdict.passed = passed
  spent : passed = false → g.cfg.maxAttempts ≤ k.state.attempts
  unassembled : passed = false → k.state.assembled = none
  not_visited : passed = false → ∀ visit ∈ k.visits, visit.node ≠ .assembly

/-- An error ends the item after a node that may fail. -/
theorem OneOutcome.ofError {extra : Nat} (h : Tally g k extra)
    (hends : Ends k .error) (hvisits : ∀ visit ∈ k.visits, visit.node ≠ .assembly)
    (hbudget : evaluations k = 0 ∨ k.state.attempts < g.cfg.maxAttempts)
    (hclips : NoProviderFails g u env k → extra = 0) : OneOutcome g u env k where
  evaluations_le := h.evaluations_le
  one := by
    refine ⟨.error, hends, fun outcome houtcome => ?_⟩
    cases outcome with
    | error => rfl
    | assembly =>
        obtain ⟨visit, hvisit, hnode⟩ := houtcome
        exact absurd hnode (hvisits visit hvisit)
    | dropped => exact absurd (h.kept.symm.trans houtcome) (by decide)
  dropped_iff := by
    rw [h.kept]
    refine ⟨fun hdropped => absurd hdropped (by decide), fun hlast => ?_⟩
    obtain ⟨verdict, hverdict, -, hspent⟩ := hlast
    cases hbudget with
    | inl hzero =>
        rw [List.eq_nil_of_length_eq_zero hzero] at hverdict
        cases hverdict
    | inr hlt => omega
  not_both := fun hboth => absurd (h.kept.symm.trans hboth.1) (by decide)
  attempts_eq := h.attempts_eq
  clips_eq := fun hnone => by rw [h.clips_eq, hclips hnone, Nat.add_zero]

theorem Tally.moved {extra : Nat} (h : Tally g k extra) (hnode : node ≠ .qc) {more : Nat}
    (hattempts : left.attempts = k.state.attempts) (hdropped : left.dropped = k.state.dropped)
    (hclips : left.clips.length = k.state.clips.length + more) :
    Tally g (k.moved node left next) (extra + more) := by
  have hverdicts : verdicts (k.moved node left next) = verdicts k := verdicts_moved hnode
  constructor
  · rw [evaluations, hverdicts]
    exact h.evaluations_le
  · rw [failedVerdicts, hverdicts]
    exact hattempts.trans h.attempts_eq
  · rw [evaluations, hverdicts]
    exact (hclips.trans (congrArg (· + more) h.clips_eq)).trans (Nat.add_assoc ..)
  · exact hdropped.trans h.kept

/-- A paid clip goes on with one clip more, or ends the item. -/
theorem Producing.generated {extra : Nat} (h : Producing g k extra) {request : ClipRequest}
    {onward : ItemNode} (hgenerated : Generated (env k.visits.length) k.state request left)
    (hstops : node.stopsOnError = true)
    (hfails : ∀ exc, (env k.visits.length).generateClip request = .error (.videoEffect exc) →
      ProviderFails g u (env k.visits.length) k.state node) :
    (afterVideo left onward = some onward ∧
      Producing g (k.moved node left (some onward)) (extra + 1)) ∨
    (afterVideo left onward = none ∧ OneOutcome g u env (k.moved node left none)) := by
  have hqc : node ≠ .qc := by
    intro hnode
    rw [hnode] at hstops
    cases hstops
  have hassembly : node ≠ .assembly := by
    intro hnode
    rw [hnode] at hstops
    cases hstops
  cases hgenerated with
  | @appended clip clips costUsd tier hclip hclips =>
      refine .inl ⟨afterVideo_ok (by exact h.healthy), ?_⟩
      let left : Item := { k.state with clips, costUsd, tier }
      have htally : Tally g (k.moved node left (some onward)) (extra + 1) :=
        h.toTally.moved hqc rfl rfl hclips
      have hverdicts : verdicts (k.moved node left (some onward)) = verdicts k :=
        verdicts_moved hqc
      exact {
        toTally := htally
        all_failed := by rw [failedVerdicts, evaluations, hverdicts]; exact h.all_failed
        budget := by rw [evaluations, hverdicts]; exact h.budget
        healthy := h.healthy
        unassembled := h.unassembled
        not_visited := not_assembly_moved hassembly h.not_visited }
  | @failed exc hraised =>
      refine .inr ⟨afterVideo_error rfl exc.text_ne, ?_⟩
      let left := videoFailureUpdate k.state exc request.stage
      have hclips : left.clips.length = k.state.clips.length + 0 := rfl
      have htally : Tally g (k.moved node left none) (extra + 0) :=
        h.toTally.moved hqc rfl rfl hclips
      have hverdicts : verdicts (k.moved node left none) = verdicts k := verdicts_moved hqc
      refine .ofError htally ⟨rfl, _, last_moved, hstops⟩
        (not_assembly_moved hassembly h.not_visited) ?_ ?_
      · rw [evaluations, hverdicts]
        exact h.budget
      · intro hnone
        exact absurd hnone (not_noProviderFails_moved (hfails exc hraised))

/-- A verdict leads to the assembly, to the next take or to the drop. -/
theorem Producing.judged (h : Producing g k requiredClips) (next : Option ItemNode) {qc : QCResult}
    (hleft : left = { k.state with
      qc := some qc
      attempts := if qc.passed then k.state.attempts else k.state.attempts + 1 }) :
    (g.afterQc qc left = .assembly ∧ Judged g (k.moved .qc left next) true) ∨
    (g.afterQc qc left = .tier g.firstTier ∧ Producing g (k.moved .qc left next) 0) ∨
    (g.afterQc qc left = .drop ∧ Judged g (k.moved .qc left next) false) := by
  have hverdicts : verdicts (k.moved .qc left next) = verdicts k ++ [qc] :=
    verdicts_moved_qc (by rw [hleft])
  have hevaluations : evaluations (k.moved .qc left next) = evaluations k + 1 := by
    rw [evaluations, hverdicts, List.length_append]
    rfl
  have hfailed : failedVerdicts (k.moved .qc left next) =
      failedVerdicts k + if qc.passed then 0 else 1 := by
    rw [failedVerdicts, hverdicts, List.countP_append]
    cases hpassed : qc.passed <;> simp [failedVerdicts, hpassed]
  have hlast : ∃ verdict, (verdicts (k.moved .qc left next)).getLast? = some verdict ∧
      verdict.passed = qc.passed := ⟨qc, by rw [hverdicts, List.getLast?_concat], rfl⟩
  have hvisits : ∀ visit ∈ (k.moved .qc left next).visits, visit.node ≠ .assembly :=
    not_assembly_moved ItemNode.noConfusion h.not_visited
  have hattempts := h.attempts_eq
  have hall := h.all_failed
  have htally : Tally g (k.moved .qc left next) 0 := by
    constructor
    · rw [hevaluations]
      cases h.budget with
      | inl hzero => omega
      | inr hlt => omega
    · rw [hfailed]
      change left.attempts = _
      rw [hleft]
      cases hpassed : qc.passed <;> simp [h.attempts_eq]
    · rw [hevaluations]
      change left.clips.length = _
      rw [hleft]
      exact h.clips_eq
    · change left.dropped = _
      rw [hleft]
      exact h.kept
  have hunassembled : left.assembled = none := by
    rw [hleft]
    exact h.unassembled
  cases hpassed : qc.passed with
  | true =>
      refine .inl ⟨by simp [afterQc, hpassed], ?_⟩
      exact {
        toTally := htally
        last := hpassed ▸ hlast
        spent := fun h => absurd h (by decide)
        unassembled := fun h => absurd h (by decide)
        not_visited := fun h => absurd h (by decide) }
  | false =>
      by_cases hbudget : left.attempts < g.cfg.maxAttempts
      · refine .inr (.inl ⟨by simp [afterQc, hpassed, hbudget], ?_⟩)
        exact {
          toTally := htally
          all_failed := by rw [hfailed, hevaluations, hall, hpassed]; rfl
          budget := .inr hbudget
          healthy := by change left.error = none; rw [hleft]; exact h.healthy
          unassembled := hunassembled
          not_visited := hvisits }
      · refine .inr (.inr ⟨by simp [afterQc, hpassed, hbudget], ?_⟩)
        exact {
          toTally := htally
          last := hpassed ▸ hlast
          spent := fun _ => Int.not_lt.mp hbudget
          unassembled := fun _ => hunassembled
          not_visited := fun _ => hvisits }

/-- The nodes after the verdict touch the final video and the cost alone. -/
theorem Judged.moved {passed : Bool} (h : Judged g k passed) (hqc : node ≠ .qc)
    {assembled : Option Artifact} {error : Option String} {costUsd : Rat}
    (hleft : left = { k.state with assembled, error, costUsd }) (hpassed : passed = true) :
    Judged g (k.moved node left next) passed := by
  have hverdicts : verdicts (k.moved node left next) = verdicts k := verdicts_moved hqc
  have hclips : left.clips.length = k.state.clips.length + 0 := by rw [hleft]; rfl
  have htally : Tally g (k.moved node left next) (0 + 0) :=
    h.toTally.moved hqc (by rw [hleft]) (by rw [hleft]) hclips
  exact {
    toTally := htally
    last := by rw [hverdicts]; exact h.last
    spent := fun hfailed => absurd (hpassed.symm.trans hfailed) (by decide)
    unassembled := fun hfailed => absurd (hpassed.symm.trans hfailed) (by decide)
    not_visited := fun hfailed => absurd (hpassed.symm.trans hfailed) (by decide) }

/-- An item whose last verdict passed ends assembled. -/
theorem Judged.assembled (h : Judged g k true) (hvisited : Ends k .assembly)
    (hlast : ¬ Ends k .error) : OneOutcome g u env k where
  evaluations_le := h.evaluations_le
  one := by
    refine ⟨.assembly, hvisited, fun outcome houtcome => ?_⟩
    cases outcome with
    | assembly => rfl
    | error => exact absurd houtcome hlast
    | dropped => exact absurd (h.kept.symm.trans houtcome) (by decide)
  dropped_iff := by
    rw [h.kept]
    refine ⟨fun hdropped => absurd hdropped (by decide), fun hlast => ?_⟩
    obtain ⟨verdict, hverdict, hfailed, -⟩ := hlast
    obtain ⟨last, hlast, hpassed⟩ := h.last
    rw [Option.some.inj (hlast.symm.trans hverdict), hfailed] at hpassed
    exact hpassed
  not_both := fun hboth => absurd (h.kept.symm.trans hboth.1) (by decide)
  attempts_eq := h.attempts_eq
  clips_eq := fun _ => h.clips_eq

/-- An item whose last verdict failed with the budget spent ends dropped. -/
theorem Judged.dropped (h : Judged g k false) (hleft : left = { k.state with dropped := true }) :
    OneOutcome g u env (k.moved .drop left none) := by
  have hverdicts : verdicts (k.moved .drop left none) = verdicts k :=
    verdicts_moved ItemNode.noConfusion
  have hdropped : left.dropped = true := by rw [hleft]
  have hattempts : left.attempts = k.state.attempts := by rw [hleft]
  constructor
  · rw [evaluations, hverdicts]
    exact h.evaluations_le
  · refine ⟨.dropped, hdropped, fun outcome houtcome => ?_⟩
    cases outcome with
    | dropped => rfl
    | assembly =>
        obtain ⟨visit, hvisit, hnode⟩ := houtcome
        exact absurd hnode
          (not_assembly_moved ItemNode.noConfusion (h.not_visited rfl) visit hvisit)
    | error =>
        obtain ⟨-, visit, hvisit, hstops⟩ := houtcome
        rw [← Option.some.inj (last_moved.symm.trans hvisit)] at hstops
        cases hstops
  · refine ⟨fun _ => ?_, fun _ => hdropped⟩
    obtain ⟨verdict, hverdict, hfailed⟩ := h.last
    exact ⟨verdict, by rw [hverdicts]; exact hverdict, hfailed, hattempts ▸ h.spent rfl⟩
  · intro hboth
    have hassembled : left.assembled = none := by
      rw [hleft]
      exact h.unassembled rfl
    exact absurd (hboth.2.symm.trans (congrArg Option.isSome hassembled)) (by decide)
  · rw [failedVerdicts, hverdicts]
    exact hattempts.trans h.attempts_eq
  · intro _
    rw [evaluations, hverdicts]
    change left.clips.length = _
    rw [hleft]
    exact h.clips_eq

/-- What the fan-out leaves unset. -/
structure Fresh (item : Item) : Prop where
  attempts_eq : item.attempts = 0
  no_clips : item.clips = []
  kept : item.dropped = false
  unvoiced : item.voiceover = none
  unassembled : item.assembled = none

theorem fresh_fanOutItem (freshId : String) (concept : ScriptedConcept) (creator : RosterCreator) :
    Fresh (fanOutItem freshId concept creator) := ⟨rfl, rfl, rfl, rfl, rfl⟩

/-- The run after a narration that failed, at the tier it goes to all the same. -/
def strayRun (g : ItemGraph) (item : Item) (error : String) : ItemRun :=
  (GraphWalk.start .voiceover item).moved .voiceover
    { item with voiceover := none, error := some error } (some (.tier g.firstTier))

/-- The narration that is meant to go on does, and an item that cannot be narrated
gets no clip. -/
structure Orderly (g : ItemGraph) (u : UnicodeTables) (env : Nat → ItemServices) (item : Item) :
    Prop where
  enters : g.firstTier = "end" → ∃ error, Unvoiced u (env 0) item error
  stops : narrationMissing u item ≠ none → g.firstTier = "end" ∨ ∃ exc,
    (env 1).generateClip (talkingHeadRequest g.cfg item g.firstTier) = .error (.videoEffect exc)

def Course (g : ItemGraph) (u : UnicodeTables) (env : Nat → ItemServices) (item : Item)
    (k : ItemRun) : Prop :=
  match k.position with
  | .running .voiceover => k = GraphWalk.start .voiceover item
  | .running (.tier name) => name = g.firstTier ∧ (Producing g k 0 ∨
      g.firstTier ≠ "end" ∧ ∃ error, Unvoiced u (env 0) item error ∧ k = strayRun g item error)
  | .running .productDemo => Producing g k 1
  | .running .qc => Producing g k requiredClips
  | .running .assembly => Judged g k true
  | .running .upscale => Judged g k true ∧ Ends k .assembly
  | .running .drop => Judged g k false
  | .ended => OneOutcome g u env k
  | .aborted _ => True

theorem Fresh.tally (h : Fresh item) {error : Option String} {voiceover : Option Artifact}
    {costUsd : Rat} : Tally g ((GraphWalk.start .voiceover item).moved .voiceover
      { item with voiceover, error, costUsd } next) 0 where
  evaluations_le := Int.le_trans (Int.ofNat_le.mpr (Nat.zero_le 1)) (Int.le_max_left 1 _)
  attempts_eq := h.attempts_eq
  clips_eq := congrArg List.length h.no_clips
  kept := h.kept

theorem not_assembly_start : ∀ visit ∈ ((GraphWalk.start .voiceover item).moved .voiceover
    left next : ItemRun).visits, visit.node ≠ .assembly :=
  not_assembly_moved ItemNode.noConfusion fun _ h => absurd h List.not_mem_nil

theorem course_voiceover (hfresh : Fresh item) (horderly : Orderly g u env item)
    (hexec : g.execute u env 0 .voiceover item = .ok (left, next)) :
    Course g u env item ((GraphWalk.start .voiceover item).moved .voiceover left next) := by
  rw [execute_voiceover] at hexec
  obtain ⟨narrated, hnarrated, hedge⟩ := ok_of_map hexec
  obtain ⟨rfl, rfl⟩ := Prod.mk.inj hedge
  unfold afterVoiceover
  by_cases hfirst : g.firstTier = "end"
  · rw [if_pos hfirst]
    cases nodeVoiceover_ok hnarrated with
    | inl hfailed =>
        obtain ⟨error, hunvoiced, rfl⟩ := hfailed
        exact .ofError hfresh.tally ⟨rfl, _, last_moved, rfl⟩ not_assembly_start (.inl rfl)
          fun _ => rfl
    | inr hvoiced =>
        obtain ⟨art, costUsd, hvoiced, -⟩ := hvoiced
        obtain ⟨error, hunvoiced⟩ := horderly.enters hfirst
        exact absurd hunvoiced (hvoiced error)
  · rw [if_neg hfirst]
    refine ⟨rfl, ?_⟩
    cases nodeVoiceover_ok hnarrated with
    | inl hfailed =>
        obtain ⟨error, hunvoiced, rfl⟩ := hfailed
        exact .inr ⟨hfirst, error, hunvoiced, rfl⟩
    | inr hvoiced =>
        obtain ⟨art, costUsd, -, rfl⟩ := hvoiced
        exact .inl {
          toTally := hfresh.tally
          all_failed := rfl
          budget := .inl rfl
          healthy := rfl
          unassembled := hfresh.unassembled
          not_visited := not_assembly_start }

/-- The failed narration leaves what the talking head is asked for. -/
theorem strayRun_request (hfresh : Fresh item) (error name : String) :
    talkingHeadRequest g.cfg (strayRun g item error).state name =
      talkingHeadRequest g.cfg item name := by
  change ClipRequest.mk .. = ClipRequest.mk ..
  rw [hfresh.unvoiced]
  rfl

/-- A stray item ends at the tier, with a clip only if a provider failed before. -/
theorem course_stray (hfresh : Fresh item) (horderly : Orderly g u env item) {error : String}
    (hunvoiced : Unvoiced u (env 0) item error) (hfirst : g.firstTier ≠ "end")
    (hgenerated : Generated (env 1) (strayRun g item error).state
      (talkingHeadRequest g.cfg (strayRun g item error).state g.firstTier) left) :
    afterVideo left .productDemo = none ∧
      OneOutcome g u env ((strayRun g item error).moved (.tier g.firstTier) left none) := by
  have htally : Tally g (strayRun g item error) 0 := hfresh.tally
  have hvisits : ∀ visit ∈ ((strayRun g item error).moved (.tier g.firstTier) left none).visits,
      visit.node ≠ .assembly := not_assembly_moved ItemNode.noConfusion not_assembly_start
  cases hgenerated with
  | @appended clip clips costUsd tier hclip hclips =>
      refine ⟨afterVideo_error rfl hunvoiced.error_ne, ?_⟩
      have htally' : Tally g ((strayRun g item error).moved (.tier g.firstTier)
          { (strayRun g item error).state with clips, costUsd, tier } none) (0 + 1) :=
        htally.moved ItemNode.noConfusion rfl rfl hclips
      refine .ofError htally' ⟨rfl, _, last_moved, rfl⟩ hvisits (.inl rfl) fun hnone => ?_
      cases hunvoiced with
      | missing hmissing =>
          cases horderly.stops (by rw [hmissing]; exact Option.some_ne_none _) with
          | inl hend => exact absurd hend hfirst
          | inr hfails =>
              obtain ⟨exc, hfails⟩ := hfails
              rw [strayRun_request hfresh, hfails] at hclip
              cases hclip
      | raised hnarrated hraised => exact absurd ⟨hnarrated, _, hraised⟩ (hnone 0 _ rfl)
  | @failed exc hraised =>
      refine ⟨afterVideo_error rfl exc.text_ne, ?_⟩
      let left := videoFailureUpdate (strayRun g item error).state exc ClipStage.talkingHead
      have hclips : left.clips.length = (strayRun g item error).state.clips.length + 0 := rfl
      have htally' : Tally g ((strayRun g item error).moved (.tier g.firstTier) left none)
          (0 + 0) := htally.moved ItemNode.noConfusion rfl rfl hclips
      exact .ofError htally' ⟨rfl, _, last_moved, rfl⟩ hvisits (.inl rfl) fun _ => rfl

/-- A step lemma for each kind of node. -/
theorem course_tier (hfresh : Fresh item) (horderly : Orderly g u env item)
    (hk : Producing g k 0 ∨
      g.firstTier ≠ "end" ∧ ∃ error, Unvoiced u (env 0) item error ∧ k = strayRun g item error)
    (hexec : g.execute u env k.visits.length (.tier g.firstTier) k.state = .ok (left, next)) :
    Course g u env item (k.moved (.tier g.firstTier) left next) := by
  rw [execute_tier] at hexec
  obtain ⟨generated, hgenerated, hedge⟩ := ok_of_map hexec
  obtain ⟨rfl, rfl⟩ := Prod.mk.inj hedge
  cases hk with
  | inl hproducing =>
      have hstops : (ItemNode.tier g.firstTier).stopsOnError = true := rfl
      have hfails : ∀ exc, (env k.visits.length).generateClip
          (talkingHeadRequest g.cfg k.state g.firstTier) = .error (.videoEffect exc) →
          ProviderFails g u (env k.visits.length) k.state (.tier g.firstTier) :=
        fun exc h => ⟨exc, h⟩
      cases hproducing.generated (nodeGen_ok hgenerated) hstops hfails with
      | inl honward =>
          rw [honward.1]
          exact honward.2
      | inr hended =>
          rw [hended.1]
          exact hended.2
  | inr hstray =>
      obtain ⟨hfirst, error, hunvoiced, rfl⟩ := hstray
      have hended := course_stray hfresh horderly hunvoiced hfirst (nodeGen_ok hgenerated)
      rw [hended.1]
      exact hended.2

theorem course_productDemo (hk : Producing g k 1)
    (hexec : g.execute u env k.visits.length .productDemo k.state = .ok (left, next)) :
    Course g u env item (k.moved .productDemo left next) := by
  rw [execute_productDemo] at hexec
  obtain ⟨generated, hgenerated, hedge⟩ := ok_of_map hexec
  obtain ⟨rfl, rfl⟩ := Prod.mk.inj hedge
  have hstops : ItemNode.productDemo.stopsOnError = true := rfl
  have hfails : ∀ exc, (env k.visits.length).generateClip
      (productDemoRequest g.cfg k.state) = .error (.videoEffect exc) →
      ProviderFails g u (env k.visits.length) k.state .productDemo := fun exc h => ⟨exc, h⟩
  cases hk.generated (nodeProductDemo_ok hgenerated) hstops hfails with
  | inl honward =>
      rw [honward.1]
      exact honward.2
  | inr hended =>
      rw [hended.1]
      exact hended.2

theorem course_qc (hk : Producing g k requiredClips)
    (hexec : g.execute u env k.visits.length .qc k.state = .ok (left, next)) :
    Course g u env item (k.moved .qc left next) := by
  obtain ⟨qc, hleft, rfl⟩ := execute_qc_ok hexec
  rcases hk.judged (some (g.afterQc qc left)) hleft with
    ⟨hgoes, hpassed⟩ | ⟨hgoes, hretry⟩ | ⟨hgoes, hdrop⟩
  · rw [hgoes] at hpassed ⊢
    exact hpassed
  · rw [hgoes] at hretry ⊢
    exact ⟨rfl, .inl hretry⟩
  · rw [hgoes] at hdrop ⊢
    exact hdrop

theorem course_assembly (hk : Judged g k true)
    (hexec : g.execute u env k.visits.length .assembly k.state = .ok (left, next)) :
    Course g u env item (k.moved .assembly left next) := by
  obtain ⟨hassembly, rfl⟩ := execute_assembly_ok hexec
  obtain ⟨assembled, error, costUsd, hleft⟩ := nodeAssembly_ok hassembly
  exact ⟨hk.moved ItemNode.noConfusion hleft rfl, _,
    List.mem_append_right _ (List.mem_singleton_self _), rfl⟩

theorem course_upscale (hk : Judged g k true ∧ Ends k .assembly)
    (hexec : g.execute u env k.visits.length .upscale k.state = .ok (left, next)) :
    Course g u env item (k.moved .upscale left next) := by
  obtain ⟨hupscale, rfl⟩ := execute_upscale_ok hexec
  obtain ⟨assembled, hleft⟩ := nodeUpscale_ok hupscale
  obtain ⟨visit, hvisit, hnode⟩ := hk.2
  have hleft' : left = { k.state with
      assembled, error := k.state.error, costUsd := k.state.costUsd } := hleft
  have hjudged : Judged g (k.moved .upscale left none) true :=
    hk.1.moved ItemNode.noConfusion hleft' rfl
  refine hjudged.assembled ⟨visit, List.mem_append_left _ hvisit, hnode⟩ fun herror => ?_
  obtain ⟨-, last, hlast, hstops⟩ := herror
  rw [← Option.some.inj (last_moved.symm.trans hlast)] at hstops
  cases hstops

/-- The course is kept from one node to the next. -/
theorem course_moved (hfresh : Fresh item) (horderly : Orderly g u env item)
    (hk : Course g u env item k) (hrunning : k.position = .running node)
    (hexec : g.execute u env k.visits.length node k.state = .ok (left, next)) :
    Course g u env item (k.moved node left next) := by
  rw [Course, hrunning] at hk
  cases node with
  | voiceover =>
      subst hk
      exact course_voiceover hfresh horderly hexec
  | tier name =>
      obtain ⟨rfl, hk⟩ := hk
      exact course_tier hfresh horderly hk hexec
  | productDemo => exact course_productDemo hk hexec
  | qc => exact course_qc hk hexec
  | assembly => exact course_assembly hk hexec
  | upscale => exact course_upscale hk hexec
  | drop =>
      obtain ⟨hdrop, rfl⟩ := execute_drop_ok hexec
      exact hk.dropped (nodeDrop_ok hdrop)

theorem run_course (hfresh : Fresh item) (horderly : Orderly g u env item) (n : Nat) :
    Course g u env item (g.run u env item n) := by
  have hstart : Course g u env item (GraphWalk.start .voiceover item) := rfl
  exact GraphWalk.steps_invariant
    (fun _ _ _ _ hk hrunning hexec => course_moved hfresh horderly hk hrunning hexec)
    (fun _ _ _ _ _ _ => True.intro) hstart n

/-- What is left of a run: the takes of the budget and the nodes of the current take. -/
def rank (g : ItemGraph) (node : ItemNode) (item : Item) : Nat :=
  let takes := (g.cfg.maxAttempts - item.attempts).toNat
  match node with
  | .voiceover => 3 * takes + 6
  | .tier _ => 3 * takes + 5
  | .productDemo => 3 * takes + 4
  | .qc => 3 * takes + 3
  | .assembly => 2
  | .upscale | .drop => 1

theorem rank_decreases {n : Nat} {before : Item} {onward : ItemNode}
    (hexec : g.execute u env n node before = .ok (left, some onward)) :
    rank g onward left < rank g node before := by
  cases node with
  | voiceover =>
      rw [execute_voiceover] at hexec
      obtain ⟨narrated, hnarrated, hedge⟩ := ok_of_map hexec
      obtain ⟨rfl, hnext⟩ := Prod.mk.inj hedge
      have hattempts : narrated.attempts = before.attempts := by
        cases nodeVoiceover_ok hnarrated with
        | inl h => obtain ⟨_, -, rfl⟩ := h; rfl
        | inr h => obtain ⟨_, _, -, rfl⟩ := h; rfl
      unfold afterVoiceover at hnext
      split at hnext
      · cases hnext
      · cases hnext
        simp only [rank, hattempts]
        omega
  | tier name =>
      rw [execute_tier] at hexec
      obtain ⟨generated, hgenerated, hedge⟩ := ok_of_map hexec
      obtain ⟨rfl, hnext⟩ := Prod.mk.inj hedge
      have hattempts := (nodeGen_ok hgenerated).attempts_eq
      obtain rfl := afterVideo_some hnext
      simp only [rank, hattempts]
      omega
  | productDemo =>
      rw [execute_productDemo] at hexec
      obtain ⟨generated, hgenerated, hedge⟩ := ok_of_map hexec
      obtain ⟨rfl, hnext⟩ := Prod.mk.inj hedge
      have hattempts := (nodeProductDemo_ok hgenerated).attempts_eq
      obtain rfl := afterVideo_some hnext
      simp only [rank, hattempts]
      omega
  | qc =>
      obtain ⟨qc, rfl, hnext⟩ := execute_qc_ok hexec
      cases hnext
      unfold afterQc
      cases hpassed : qc.passed with
      | true => simp [rank]
      | false =>
          simp only [Bool.false_eq_true, if_false]
          split
          · simp only [rank]
            omega
          · simp [rank]
  | assembly =>
      obtain ⟨-, hnext⟩ := execute_assembly_ok hexec
      cases hnext
      simp [rank]
  | upscale =>
      obtain ⟨-, hnext⟩ := execute_upscale_ok hexec
      cases hnext
  | drop =>
      obtain ⟨-, hnext⟩ := execute_drop_ok hexec
      cases hnext

/-- Every run settles: it ends or an exception aborts it. -/
theorem run_settles (g : ItemGraph) (u : UnicodeTables) (env : Nat → ItemServices) (item : Item) :
    ∃ n, ¬ (g.run u env item n).Running :=
  ⟨_, GraphWalk.settles (rank g) (fun _ _ _ _ _ hexec => rank_decreases hexec) rfl
    (Nat.lt_succ_self _)⟩

theorem execute_voiceover_error {exc : StageExc}
    (h : nodeVoiceover u g.cfg (env 0) item = .error exc) :
    (g.run u env item 1).position = .aborted exc := by
  have hexec : g.execute u env 0 .voiceover item = .error exc := by
    rw [execute_voiceover, h]
    rfl
  change ((GraphWalk.start .voiceover item).step (g.execute u env)).position = _
  rw [GraphWalk.step_error (k := GraphWalk.start ItemNode.voiceover item) rfl hexec]
  rfl

/-- Where the first tier is named as the end, an item that was narrated ends
nowhere. -/
theorem not_oneOutcome_end (hfresh : Fresh item) (hfirst : g.firstTier = "end")
    (hvoiced : ∀ error, ¬ Unvoiced u (env 0) item error)
    (hcaught : ∀ n exc, (g.run u env item n).position ≠ .aborted exc) :
    (g.run u env item 1).position = .ended ∧ ¬ OneOutcome g u env (g.run u env item 1) := by
  cases hnarrated : nodeVoiceover u g.cfg (env 0) item with
  | error exc => exact absurd (execute_voiceover_error hnarrated) (hcaught 1 exc)
  | ok left =>
      rw [run_one hnarrated, afterVoiceover, if_pos hfirst]
      refine ⟨rfl, fun hone => ?_⟩
      cases nodeVoiceover_ok hnarrated with
      | inl hfailed =>
          obtain ⟨error, hunvoiced, -⟩ := hfailed
          exact hvoiced error hunvoiced
      | inr hleft =>
          obtain ⟨art, costUsd, -, rfl⟩ := hleft
          obtain ⟨outcome, houtcome, -⟩ := hone.one
          cases outcome with
          | assembly =>
              obtain ⟨visit, hvisit, hnode⟩ := houtcome
              exact absurd hnode (not_assembly_start visit hvisit)
          | dropped => exact absurd (hfresh.kept.symm.trans houtcome) (by decide)
          | error => cases houtcome.1

/-- An item that cannot be narrated gets a clip all the same. -/
theorem not_oneOutcome_stray (hfresh : Fresh item) (hfirst : g.firstTier ≠ "end")
    (hmissing : narrationMissing u item ≠ none)
    (hpaid : ∀ exc, (env 1).generateClip (talkingHeadRequest g.cfg item g.firstTier) ≠
      .error (.videoEffect exc))
    (hcaught : ∀ n exc, (g.run u env item n).position ≠ .aborted exc) :
    (g.run u env item 2).position = .ended ∧ ¬ OneOutcome g u env (g.run u env item 2) := by
  obtain ⟨error, herror⟩ := Option.ne_none_iff_exists'.mp hmissing
  have hunvoiced : Unvoiced u (env 0) item error := .missing herror
  have hone : g.run u env item 1 = strayRun g item error := by
    rw [run_one (nodeVoiceover_unvoiced hunvoiced), afterVoiceover, if_neg hfirst]
    rfl
  have htwo : g.run u env item 2 = (strayRun g item error).step (g.execute u env) :=
    congrArg (GraphWalk.step (g.execute u env)) hone
  have hexec : g.execute u env 1 (.tier g.firstTier) (strayRun g item error).state = _ :=
    execute_tier ..
  cases hgen : nodeGen g.cfg (env 1) (strayRun g item error).state g.firstTier with
  | error exc =>
      rw [hgen] at hexec
      rw [GraphWalk.step_error (k := strayRun g item error) rfl hexec] at htwo
      exact absurd (by rw [htwo]; rfl) (hcaught 2 exc)
  | ok left =>
      rw [hgen] at hexec
      rw [htwo, GraphWalk.step_ok (k := strayRun g item error) rfl hexec]
      cases nodeGen_ok hgen with
      | @failed exc hraised =>
          rw [strayRun_request hfresh] at hraised
          exact absurd hraised (hpaid exc)
      | @appended clip clips costUsd tier hclip hclips =>
          refine ⟨by rw [afterVideo_error rfl hunvoiced.error_ne]; rfl, fun hone => ?_⟩
          have hlength : clips.length = 0 + 1 := hclips.trans (by
            rw [show (strayRun g item error).state.clips = [] from hfresh.no_clips]
            rfl)
          have hnone := hone.clips_eq fun n visit hvisit hfails => by
            cases n with
            | zero =>
                cases hvisit
                exact hmissing hfails.1
            | succ n =>
                cases n with
                | zero =>
                    cases hvisit
                    obtain ⟨exc, hfails⟩ := hfails
                    rw [strayRun_request hfresh] at hfails
                    exact hpaid exc hfails
                | succ n => cases hvisit
          exact Nat.succ_ne_zero 0 (hlength.symm.trans hnone)

/-- A run that no exception aborts ends in one way, with the counts of its
verdicts, exactly when a first tier named as the end is met only by items whose
narration failed, and an item that cannot be narrated gets no clip. -/
theorem one_outcome_iff (g : ItemGraph) (u : UnicodeTables) (env : Nat → ItemServices)
    (freshId : String) (concept : ScriptedConcept) (creator : RosterCreator)
    (hcaught : ∀ n exc,
      (g.run u env (fanOutItem freshId concept creator) n).position ≠ .aborted exc) :
    (∃ n, (g.run u env (fanOutItem freshId concept creator) n).position = .ended ∧
      OneOutcome g u env (g.run u env (fanOutItem freshId concept creator) n)) ↔
      Orderly g u env (fanOutItem freshId concept creator) := by
  have hfresh := fresh_fanOutItem freshId concept creator
  constructor
  · intro hends
    obtain ⟨n, hended, hone⟩ := hends
    constructor
    · intro hfirst
      by_contra hvoiced
      obtain ⟨hended', hnot⟩ := not_oneOutcome_end hfresh hfirst (not_exists.mp hvoiced) hcaught
      have hsame := GraphWalk.settled_unique (GraphWalk.not_running_of_ended hended)
        (GraphWalk.not_running_of_ended hended')
      rw [show g.run u env _ n = _ from hsame] at hone
      exact hnot hone
    · intro hmissing
      by_contra hpaid
      obtain ⟨hfirst, hpaid⟩ := not_or.mp hpaid
      obtain ⟨hended', hnot⟩ :=
        not_oneOutcome_stray hfresh hfirst hmissing (not_exists.mp hpaid) hcaught
      have hsame := GraphWalk.settled_unique (GraphWalk.not_running_of_ended hended)
        (GraphWalk.not_running_of_ended hended')
      rw [show g.run u env _ n = _ from hsame] at hone
      exact hnot hone
  · intro horderly
    obtain ⟨n, hsettled⟩ := run_settles g u env (fanOutItem freshId concept creator)
    have hcourse := run_course hfresh horderly n
    cases hposition : (g.run u env (fanOutItem freshId concept creator) n).position with
    | running node => exact absurd ⟨node, hposition⟩ hsettled
    | aborted exc => exact absurd hposition (hcaught n exc)
    | ended =>
        rw [Course, hposition] at hcourse
        exact ⟨n, hposition, hcourse⟩

def narratedConcept : ScriptedConcept where
  id := some "concept-1"
  fields := []
  script := some "HOOK: Try it"

def voicedCreator : RosterCreator where
  voiceId := some "voice-1"

/-- Services that all work, whose first take is judged bad. -/
def secondTakeServices (n : Nat) : ItemServices :=
  { workingServices with
    qcCheck := fun _ _ => .ok (if n < 4 then { passed := false, score := 0 }
      else { passed := true, score := 1 }) }

/-- An item that is narrated and judged good in its second take ends assembled. -/
theorem retaken_item_one_outcome :
    let k := ltxGraph.run asciiTables secondTakeServices
      (fanOutItem "item" narratedConcept voicedCreator) 9
    k.position = .ended ∧ OneOutcome ltxGraph asciiTables secondTakeServices k ∧
      failedVerdicts k = 1 ∧ k.state.assembled.isSome = true := by
  intro k
  have hended : k.position = .ended := by decide +kernel
  obtain ⟨n, hended', hone⟩ := (one_outcome_iff ltxGraph asciiTables secondTakeServices "item"
    narratedConcept voicedCreator (GraphWalk.not_aborted_of_ended hended)).mpr
    ⟨fun hfirst => absurd hfirst (by decide), fun hmissing => absurd (by decide) hmissing⟩
  have hsame := GraphWalk.settled_unique (GraphWalk.not_running_of_ended hended)
    (GraphWalk.not_running_of_ended hended')
  rw [show ltxGraph.run _ _ _ n = k from hsame.symm] at hone
  exact ⟨hended, hone, by decide +kernel, by decide +kernel⟩

/-- A script without spoken text: no provider fails, and the item ends with a
clip and without a verdict. -/
theorem unspoken_item_one_clip :
    ¬ ∀ (g : ItemGraph) (u : UnicodeTables) (env : Nat → ItemServices) (freshId : String)
      (concept : ScriptedConcept) (creator : RosterCreator),
      (∀ n exc, (g.run u env (fanOutItem freshId concept creator) n).position ≠ .aborted exc) →
        ∃ n, (g.run u env (fanOutItem freshId concept creator) n).position = .ended ∧
          OneOutcome g u env (g.run u env (fanOutItem freshId concept creator) n) := by
  intro h
  let concept : ScriptedConcept := { narratedConcept with script := some "HOOK:" }
  have hended : (ltxGraph.run asciiTables (fun _ => workingServices)
      (fanOutItem "item" concept voicedCreator) 2).position = .ended := by decide +kernel
  have hcaught := GraphWalk.not_aborted_of_ended hended
  obtain ⟨n, hended', hone⟩ :=
    h ltxGraph asciiTables (fun _ => workingServices) "item" concept voicedCreator hcaught
  have hfirst : ltxGraph.firstTier ≠ "end" := by decide
  have hmissing :
      narrationMissing asciiTables (fanOutItem "item" concept voicedCreator) ≠ none := by decide
  obtain ⟨-, hnot⟩ := not_oneOutcome_stray (fresh_fanOutItem ..) hfirst hmissing
    (fun exc hfails => by cases hfails) hcaught
  have hsame := GraphWalk.settled_unique (GraphWalk.not_running_of_ended hended')
    (GraphWalk.not_running_of_ended hended)
  rw [show ltxGraph.run asciiTables (fun _ => workingServices) _ n = _ from hsame] at hone
  exact hnot hone

end ItemGraph

end Orchestrator
