import Mathlib.Tactic.IntervalCases
import Orchestrator.Graph.BatchPlan

/-!
How often a run does its work.

The planning stages follow each other up to the review, a request for another plan
goes back to the stage it names, and past the approval nothing goes back. So a stage
is run once, and once more for each accepted request that names it or a stage before
it; failures and repeated events run nothing.
-/

namespace Orchestrator

/-- The place of a node on the way from the concepts to the end. -/
def BatchNode.place : BatchNode → Nat
  | .concepts => 0
  | .scripts => 1
  | .creatorProfiles => 2
  | .roster => 3
  | .voiceCandidates => 4
  | .review => 5
  | .finalizeVoices => 6
  | .processItem _ => 7
  | .feedback => 8
  | .ended => 9

/-- A node that returned and let the run go on. -/
def executed (k : Nat) (before after : BatchNode) : Bool :=
  before.place = k && after ≠ before

/-- A decision that sent the run back to this place or to one before it. -/
def sentBack (k : Nat) (before after : BatchNode) : Bool :=
  before = .review && after.place ≤ k

def approved (before after : BatchNode) : Bool :=
  before = .review && after = .finalizeVoices

/-- The number of the steps of a run from a node to a node of this kind. -/
def stepsOf (cfg : BatchConfig) (events : List BatchEvent)
    (kind : BatchNode → BatchNode → Bool) : Nat :=
  (Machine.log (BatchRun.step cfg) {} events).countP fun e => kind e.before.node e.after.node

/-- The number of executions of the node at a place. -/
abbrev executions (cfg : BatchConfig) (events : List BatchEvent) (k : Nat) : Nat :=
  stepsOf cfg events (executed k)

/-- The number of accepted requests for the stage at a place or for one before it. -/
abbrev requests (cfg : BatchConfig) (events : List BatchEvent) (k : Nat) : Nat :=
  stepsOf cfg events (sentBack k)

abbrev approvals (cfg : BatchConfig) (events : List BatchEvent) : Nat :=
  stepsOf cfg events approved

/-- The results are those of the items that are done. -/
def Collected (r : BatchRun) : Prop :=
  match r.node with
  | .processItem pending => r.state.results.length + pending = r.state.concepts.length
  | .feedback | .ended => r.state.results.length = r.state.concepts.length
  | _ => r.state.results = []

/-- What the run did so far, as far as the reviewer asked for it. -/
structure RunsAsRequested (cfg : BatchConfig) (events : List BatchEvent) (r : BatchRun) :
    Prop where
  planning : ∀ k < 5,
    executions cfg events k = requests cfg events k + if k < r.node.place then 1 else 0
  reviews : executions cfg events 5 = requests cfg events 4 + approvals cfg events
  approval : approvals cfg events = if 5 < r.node.place then 1 else 0
  finalized : executions cfg events 6 = if 6 < r.node.place then 1 else 0
  items : executions cfg events 7 = r.state.results.length
  collected : Collected r

section Steps
variable {cfg : BatchConfig} {events : List BatchEvent} {e : BatchEvent} {r r' : BatchRun}

theorem stepsOf_concat (cfg : BatchConfig) (events : List BatchEvent) (e : BatchEvent)
    (kind : BatchNode → BatchNode → Bool) :
    stepsOf cfg (events ++ [e]) kind = stepsOf cfg events kind +
      (kind (BatchRun.after cfg events).node (BatchRun.after cfg (events ++ [e])).node).toNat := by
  rw [BatchRun.after, BatchRun.after, Machine.run_concat]
  simp only [stepsOf, Machine.log_concat, List.countP_append, List.countP_singleton, Bool.toNat,
    Bool.cond_eq_ite]
  rfl

/-- What the counts gain by a step is what the places of its nodes promise. -/
structure StepAccounted (before after : BatchNode) : Prop where
  planning : ∀ k < 5, (executed k before after).toNat + (if k < before.place then 1 else 0) =
    (sentBack k before after).toNat + if k < after.place then 1 else 0
  reviews : (executed 5 before after).toNat =
    (sentBack 4 before after).toNat + (approved before after).toNat
  approval : (approved before after).toNat + (if 5 < before.place then 1 else 0) =
    if 5 < after.place then 1 else 0
  finalized : (executed 6 before after).toNat + (if 6 < before.place then 1 else 0) =
    if 6 < after.place then 1 else 0

theorem StepAccounted.refl (node : BatchNode) : StepAccounted node node where
  planning k hk := by
    cases node <;> interval_cases k <;> simp [executed, sentBack, BatchNode.place]
  reviews := by cases node <;> simp [executed, sentBack, approved, BatchNode.place]
  approval := by cases node <;> simp [approved]
  finalized := by cases node <;> simp [executed]

theorem RunsAsRequested.count (h : RunsAsRequested cfg events r)
    (hbefore : (BatchRun.after cfg events).node = r.node)
    (hafter : (BatchRun.after cfg (events ++ [e])).node = r'.node)
    (hpair : StepAccounted r.node r'.node)
    (hitems : r'.state.results.length =
      r.state.results.length + (executed 7 r.node r'.node).toNat)
    (hcollected : Collected r') : RunsAsRequested cfg (events ++ [e]) r' where
  planning k hk := by
    have hsofar := h.planning k hk
    have hstep := hpair.planning k hk
    simp only [executions, requests, stepsOf_concat, hbefore, hafter] at hsofar ⊢
    omega
  reviews := by
    have hsofar := h.reviews
    have hstep := hpair.reviews
    simp only [executions, requests, approvals, stepsOf_concat, hbefore, hafter] at hsofar ⊢
    omega
  approval := by
    have hsofar := h.approval
    have hstep := hpair.approval
    simp only [approvals, stepsOf_concat, hbefore, hafter] at hsofar ⊢
    omega
  finalized := by
    have hsofar := h.finalized
    have hstep := hpair.finalized
    simp only [executions, stepsOf_concat, hbefore, hafter] at hsofar ⊢
    omega
  items := by
    rw [executions, stepsOf_concat, hbefore, hafter, hitems, ← h.items]
  collected := hcollected

/-- The nodes to which a review may lead. -/
theorem routeAfterReview_cases (st : BatchState) :
    routeAfterReview st ∈ [.finalizeVoices, .concepts, .scripts, .creatorProfiles,
      .voiceCandidates, .review] := by
  unfold routeAfterReview
  split
  · simp
  · split <;> simp

/-- A review leads to the voices or back to a stage of the plan, and makes no item. -/
theorem review_accounted {decision : Json} {st st' : BatchState}
    (hreview : nodeReview cfg decision st = .ok st') (hresults : st.results = []) :
    StepAccounted .review (routeAfterReview st') ∧
      executed 7 .review (routeAfterReview st') = false ∧
      Collected ⟨routeAfterReview st', st'⟩ := by
  have hkept : st'.results = [] := (nodeReview_ok hreview).results.trans hresults
  have hroute := routeAfterReview_cases st'
  simp only [List.mem_cons, List.not_mem_nil, or_false] at hroute
  rcases hroute with hroute | hroute | hroute | hroute | hroute | hroute <;>
    rw [hroute] <;> exact ⟨⟨by decide, rfl, rfl, rfl⟩, rfl, hkept⟩

/-- The approved voices lead to one item for each concept, or to the end of a run
without concepts. -/
theorem finalizeVoices_accounted (st : BatchState) (hresults : st.results = []) :
    StepAccounted .finalizeVoices (fanOut st) ∧
      executed 7 .finalizeVoices (fanOut st) = false ∧ Collected ⟨fanOut st, st⟩ := by
  by_cases hnone : st.concepts = []
  · have hroute : fanOut st = .ended := if_pos hnone
    rw [hroute]
    refine ⟨⟨by decide, rfl, rfl, rfl⟩, rfl, ?_⟩
    simp [Collected, hresults, hnone]
  · have hroute : fanOut st = .processItem st.concepts.length := if_neg hnone
    rw [hroute]
    refine ⟨⟨fun k hk => by interval_cases k <;> rfl, rfl, rfl, rfl⟩, rfl, ?_⟩
    simp [Collected, hresults]

/-- An item that is done leads to the next, the last one to the feedback. -/
theorem processItem_accounted (item : Item) (pending : Nat) (st : BatchState)
    (hcollected : Collected ⟨.processItem (pending + 1), st⟩) :
    let next := if pending = 0 then BatchNode.feedback else .processItem pending
    StepAccounted (.processItem (pending + 1)) next ∧
      executed 7 (.processItem (pending + 1)) next = true ∧
      Collected ⟨next, reduceItem item st⟩ := by
  have hdone : st.results.length + (pending + 1) = st.concepts.length := hcollected
  by_cases hlast : pending = 0
  · subst hlast
    refine ⟨⟨by decide, rfl, rfl, rfl⟩, rfl, ?_⟩
    simpa [Collected, reduceItem] using hdone
  · simp only [if_neg hlast]
    refine ⟨⟨fun k hk => by interval_cases k <;> rfl, rfl, rfl, rfl⟩, ?_, ?_⟩
    · simp [executed, BatchNode.place]
    · simp only [Collected, reduceItem, List.length_append, List.length_singleton]
      omega

theorem RunsAsRequested.advance (h : RunsAsRequested cfg events r) (hplanned : Planned cfg r)
    (hbefore : (BatchRun.after cfg events).node = r.node)
    (hafter : (BatchRun.after cfg (events ++ [e])).node = r'.node)
    (hadvance : Advance cfg e r r') : RunsAsRequested cfg (events ++ [e]) r' := by
  have hcollected := h.collected
  cases hadvance with
  | concepts concepts st =>
      have hpair : StepAccounted .concepts .scripts := ⟨by decide, rfl, rfl, rfl⟩
      exact h.count hbefore hafter hpair rfl hcollected
  | scripts write st =>
      have hpair : StepAccounted .scripts .creatorProfiles := ⟨by decide, rfl, rfl, rfl⟩
      exact h.count hbefore hafter hpair rfl hcollected
  | creatorProfiles hprofiles =>
      obtain ⟨-, assignments, rfl⟩ := nodeCreatorProfiles_ok hprofiles
      have hpair : StepAccounted .creatorProfiles .roster := ⟨by decide, rfl, rfl, rfl⟩
      exact h.count hbefore hafter hpair rfl hcollected
  | roster hroster =>
      obtain ⟨-, -, submission, hprofiles⟩ := hplanned
      obtain ⟨-, -, roster, assignments, rfl⟩ := nodeRoster_ok hprofiles hroster
      have hpair : StepAccounted .roster .voiceCandidates := ⟨by decide, rfl, rfl, rfl⟩
      exact h.count hbefore hafter hpair rfl hcollected
  | voiceCandidates hdesign =>
      obtain ⟨-, designed, -, rfl⟩ := nodeVoiceCandidates_ok hdesign
      have hpair : StepAccounted .voiceCandidates .review := ⟨by decide, rfl, rfl, rfl⟩
      exact h.count hbefore hafter hpair rfl hcollected
  | @review decision st st' hreview =>
      obtain ⟨hpair, hnone, hempty⟩ := review_accounted hreview hcollected
      refine h.count hbefore hafter hpair ?_ hempty
      simp only [hnone, Bool.toNat_false, add_zero, (nodeReview_ok hreview).results]
  | @finalizeVoices finalize st st' hfinalize =>
      obtain ⟨roster, -, rfl⟩ := nodeFinalizeVoices_ok hfinalize
      obtain ⟨hpair, hnone, hready⟩ :=
        finalizeVoices_accounted { st with roster } hcollected
      refine h.count hbefore hafter hpair ?_ hready
      simp only [hnone, Bool.toNat_false, add_zero]
  | processItem item pending st =>
      obtain ⟨hpair, hone, hcounted⟩ := processItem_accounted item pending st hcollected
      refine h.count hbefore hafter hpair ?_ hcounted
      simp only [hone, Bool.toNat_true, reduceItem, List.length_append, List.length_singleton]
  | feedback st =>
      have hpair : StepAccounted .feedback .ended := ⟨by decide, rfl, rfl, rfl⟩
      exact h.count hbefore hafter hpair rfl hcollected

end Steps

/-- In every run a planning stage is executed once for the plan it is part of and once
more for each accepted request that names it or a stage before it; the plan is approved
and its voices are finalized at most once, and every concept gets one result. -/
theorem stages_run_as_requested (cfg : BatchConfig) (events : List BatchEvent) :
    RunsAsRequested cfg events (BatchRun.after cfg events) := by
  induction events using List.reverseRecOn with
  | nil => exact ⟨fun k _ => rfl, rfl, rfl, rfl, rfl, rfl⟩
  | append_singleton events e ih =>
      have hnext : BatchRun.after cfg (events ++ [e]) =
          (BatchRun.step cfg e (BatchRun.after cfg events)).2 := Machine.run_concat ..
      rcases BatchRun.step_cases cfg e (BatchRun.after cfg events) with hstays | hadvance
      · have hsame := hnext.trans hstays
        rw [hsame]
        refine ih.count rfl (congrArg BatchRun.node hsame) (StepAccounted.refl _) ?_ ih.collected
        simp [executed]
      · rw [← hnext] at hadvance
        exact ih.advance (planned_after cfg events) rfl rfl hadvance

end Orchestrator
