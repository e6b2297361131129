import Orchestrator.Graph.ReviewGate
import Orchestrator.Nodes.ReviewFrame

/-!
What a request for another plan changes until the next gate.

A request goes back to the node of its target and from there through all that follow.
Voices are designed for the creators the request names and for no other. The other
targets are made anew as a whole, and so is all that depends on them.
-/

namespace Orchestrator
open Json Outcome

/-- The fields that a re-roll of voices writes. -/
def rerolledFields : List String :=
  ["voice_design_history", "voice_reroll_count", "voice_ref", "voice_id", "voice", "voice_spec",
    "voice_candidates", "voice_design_batch", "selected_voice_candidate_id", "voice_preview_uri"]

/-- A creator with new voices: what was on the table went to the end of its history. -/
structure Rerolled (cfg : BatchConfig) (creator out : Dict) : Prop where
  kept : ∀ name ∉ rerolledFields, field? out name = field? creator name
  history : field? out "voice_design_history" = some (.arr
    (itemsOf (field? creator "voice_design_history") ++ previousBatch creator))
  counted : rerollCount out = rerollCount creator + 1
  limited : rerollCount creator < cfg.maxRerolls
  offered : candidateIds out ≠ []

/-- Only a creator that was named has new voices. -/
structure Revoiced (cfg : BatchConfig) (ids : List String) (creator out : Dict) : Prop where
  spared : voiceCreatorId creator ∉ ids → out = creator
  named : voiceCreatorId creator ∈ ids → Rerolled cfg creator out

/-- A concept whose script was written anew. -/
def Rescripted (concept out : Dict) : Prop :=
  ∀ name, name ≠ "script" → name ≠ "script_draft" → field? out name = field? concept name

/-- What a request keeps of the plan that the reviewer left, on the whole way. -/
structure Redone (request : RevisionRequest) (plan st : BatchState) : Prop where
  results : st.results = plan.results
  asked : st.revisionRequest = some request
  pending : st.reviewApproved = false
  scripts : request.target = "scripts" → List.Forall₂ Rescripted plan.concepts st.concepts
  creators : request.target = "creators" → st.concepts = plan.concepts

/-- The plan at the next gate, against the one that the reviewer left. -/
structure Regenerated (cfg : BatchConfig) (request : RevisionRequest) (plan st : BatchState) :
    Prop extends Redone request plan st where
  voices : request.target = "voices" → st.concepts = plan.concepts ∧
    st.creatorProfiles = plan.creatorProfiles ∧
    st.creatorAssignments = plan.creatorAssignments ∧
    List.Forall₂ (Revoiced cfg (request.ids.map PyStr.str)) plan.roster st.roster

section Turns
variable {cfg : BatchConfig} {creator : Dict}

theorem rerolled_offer (d : StoredDesign) (hlimit : rerollCount creator < cfg.maxRerolls) :
    Rerolled cfg creator (offerVoices cfg d (rerollCount creator + 1)
      (archiveVoice (rerollCount creator + 1) creator)) where
  kept := by
    intro name hname
    have hne : ∀ other ∈ rerolledFields, other ≠ name := by
      rintro other hother rfl
      exact hname hother
    rw [offerVoices_frame _ _ _ _ (hne _ (by decide)) (hne _ (by decide)) (hne _ (by decide))
      (hne _ (by decide)) (hne _ (by decide)), archiveVoice,
      field?_dropField_of_ne _ (hne _ (by decide)), field?_dropField_of_ne _ (hne _ (by decide)),
      field?_dropField_of_ne _ (hne _ (by decide)), field?_setField_of_ne _ _ (hne _ (by decide)),
      field?_setField_of_ne _ _ (hne _ (by decide))]
  history := by rw [offerVoices_history, archiveVoice_history, previousBatch_eq]
  counted := by rw [offerVoices_rerollCount, archiveVoice_rerollCount]
  limited := hlimit
  offered := offerVoices_candidateIds d _ _

theorem voiceTurn_revoiced {design : Dict → Int → Option StoredDesign} {ids : List String}
    {out : Dict × Rat} (h : voiceTurn cfg design (some ids) creator = .ok out) :
    Revoiced cfg ids creator out.1 := by
  rcases voiceTurn_some h with ⟨hspared, rfl⟩ | ⟨hnamed, hlimit, d, rfl⟩
  · exact ⟨fun _ => rfl, fun hnamed => absurd hnamed hspared⟩
  · exact ⟨fun hspared => absurd hnamed hspared, fun _ => rerolled_offer d hlimit⟩

theorem rescripted_nodeScripts (write : Dict → ScriptResult) (st : BatchState) :
    List.Forall₂ Rescripted st.concepts (nodeScripts write st).concepts := by
  rw [nodeScripts, List.forall₂_map_right_iff, List.forall₂_same]
  intro concept _ name hscript hdraft
  rw [merge_cons, merge_cons, merge_nil, field?_setField_of_ne _ _ hdraft.symm,
    field?_setField_of_ne _ _ hscript.symm]

end Turns

/-- A run on its way from a request to the next gate. -/
structure Remaking (cfg : BatchConfig) (request : RevisionRequest) (plan : BatchState)
    (r : BatchRun) : Prop extends Redone request plan r.state where
  unapproved : r.node.produces = false
  concepts : r.node = .concepts → request.target = "concepts"
  written : r.node = .scripts → request.target = "concepts" ∨ request.target = "scripts"
  voices : request.target = "voices" → r = ⟨.voiceCandidates, plan⟩ ∨
    r.node = .review ∧ Regenerated cfg request plan r.state

section Way
variable {cfg : BatchConfig} {request : RevisionRequest} {plan : BatchState} {r r' : BatchRun}
  {e : BatchEvent}

theorem Remaking.start (hpending : plan.reviewApproved = false)
    (hrequest : plan.revisionRequest = some request) (htarget : request.target ∈ reviewTargets) :
    Remaking cfg request plan ⟨routeAfterReview plan, plan⟩ := by
  have hredone : Redone request plan plan :=
    ⟨rfl, hrequest, hpending, fun _ => List.forall₂_same.mpr fun _ _ _ _ _ => rfl, fun _ => rfl⟩
  simp only [reviewTargets, List.mem_cons, List.not_mem_nil, or_false] at htarget
  rcases htarget with heq | heq | heq | heq
  · have hroute : routeAfterReview plan = .concepts := by
      simp [routeAfterReview, hpending, hrequest, heq]
    rw [hroute]
    exact ⟨hredone, rfl, fun _ => heq, fun _ => Or.inl heq, by simp [heq]⟩
  · have hroute : routeAfterReview plan = .scripts := by
      simp [routeAfterReview, hpending, hrequest, heq]
    rw [hroute]
    exact ⟨hredone, rfl, (fun h => by cases h), fun _ => Or.inr heq, by simp [heq]⟩
  · have hroute : routeAfterReview plan = .creatorProfiles := by
      simp [routeAfterReview, hpending, hrequest, heq]
    rw [hroute]
    exact ⟨hredone, rfl, (fun h => by cases h), (fun h => by cases h), by simp [heq]⟩
  · have hroute : routeAfterReview plan = .voiceCandidates := by
      simp [routeAfterReview, hpending, hrequest, heq]
    rw [hroute]
    exact ⟨hredone, rfl, (fun h => by cases h), (fun h => by cases h), fun _ => Or.inl rfl⟩

theorem Remaking.not_voices (h : Remaking cfg request plan r) (hvoices : r.node ≠ .voiceCandidates)
    (hreview : r.node ≠ .review) : request.target ≠ "voices" := by
  intro htarget
  rcases h.voices htarget with rfl | ⟨hnode, -⟩
  · exact hvoices rfl
  · exact hreview hnode

theorem Remaking.design {st st' : BatchState} {design : Dict → Int → Option StoredDesign}
    (h : Remaking cfg request plan ⟨.voiceCandidates, st⟩)
    (hdesign : nodeVoiceCandidates cfg design st = .ok st') :
    Remaking cfg request plan ⟨.review, st'⟩ := by
  obtain ⟨-, designed, hdesigned, rfl⟩ := nodeVoiceCandidates_ok hdesign
  have hredone : Redone request plan
      { st with
        roster := designed.map Prod.fst
        totalCostUsd := st.totalCostUsd + (designed.map Prod.snd).sum } :=
    ⟨h.results, h.asked, h.pending, h.scripts, h.creators⟩
  refine ⟨hredone, rfl, (fun h => by cases h), (fun h => by cases h),
    fun htarget => Or.inr ⟨rfl, hredone, fun _ => ?_⟩⟩
  rcases h.voices htarget with hplan | ⟨hnode, -⟩
  · obtain rfl : st = plan := congrArg BatchRun.state hplan
    have hrequested : requestedVoices st = some (request.ids.map PyStr.str) := by
      have hasked : st.revisionRequest = some request := h.asked
      simp [requestedVoices, hasked, htarget]
    rw [hrequested] at hdesigned
    refine ⟨rfl, rfl, rfl, List.forall₂_map_right_iff.mpr (hdesigned.imp fun _ _ hturn => ?_)⟩
    exact voiceTurn_revoiced hturn
  · cases hnode

theorem Remaking.advance (h : Remaking cfg request plan r) (hplanned : Planned cfg r)
    (hquiet : ∀ decision, e ≠ .review decision) (hadvance : Advance cfg e r r') :
    Remaking cfg request plan r' := by
  cases hadvance with
  | concepts concepts st =>
      have htarget := h.concepts rfl
      exact ⟨⟨h.results, h.asked, h.pending, by simp [htarget], by simp [htarget]⟩, rfl,
        (fun h => by cases h), fun _ => Or.inl htarget, by simp [htarget]⟩
  | scripts write st =>
      have hother : request.target ≠ "creators" ∧ request.target ≠ "voices" := by
        rcases h.written rfl with htarget | htarget <;> simp [htarget]
      refine ⟨⟨h.results, h.asked, h.pending, fun htarget => ?_, fun h => absurd h hother.1⟩, rfl,
        (fun h => by cases h), (fun h => by cases h), fun h => absurd h hother.2⟩
      refine forall₂_comp (fun _ _ _ hbefore hwritten name hscript hdraft => ?_)
        (h.scripts htarget) (rescripted_nodeScripts write st)
      rw [hwritten name hscript hdraft, hbefore name hscript hdraft]
  | creatorProfiles hprofiles =>
      have hother := h.not_voices (by simp) (by simp)
      obtain ⟨-, assignments, rfl⟩ := nodeCreatorProfiles_ok hprofiles
      exact ⟨⟨h.results, h.asked, h.pending, h.scripts, h.creators⟩, rfl, (fun h => by cases h),
        (fun h => by cases h), fun h => absurd h hother⟩
  | roster hroster =>
      have hother := h.not_voices (by simp) (by simp)
      obtain ⟨-, -, submission, hprofiles⟩ := hplanned
      obtain ⟨-, -, roster, assignments, rfl⟩ := nodeRoster_ok hprofiles hroster
      exact ⟨⟨h.results, h.asked, h.pending, h.scripts, h.creators⟩, rfl, (fun h => by cases h),
        (fun h => by cases h), fun h => absurd h hother⟩
  | voiceCandidates hdesign => exact h.design hdesign
  | review hdecided => exact absurd rfl (hquiet _)
  | finalizeVoices hfinalize => cases h.unapproved
  | processItem item pending st => cases h.unapproved
  | feedback st => cases h.unapproved

theorem Remaking.step (h : Planned cfg r ∧ Remaking cfg request plan r)
    (hquiet : ∀ decision, e ≠ .review decision) :
    Planned cfg (BatchRun.step cfg e r).2 ∧
      Remaking cfg request plan (BatchRun.step cfg e r).2 := by
  refine ⟨Planned.step e r h.1, ?_⟩
  rcases BatchRun.step_cases cfg e r with hstays | hadvance
  · rw [hstays]
    exact h.2
  · exact h.2.advance h.1 hquiet hadvance

theorem Remaking.regenerated (h : Remaking cfg request plan r) (hgate : r.node = .review) :
    Regenerated cfg request plan r.state := by
  refine ⟨h.toRedone, fun htarget => ?_⟩
  rcases h.voices htarget with rfl | ⟨-, hregenerated⟩
  · cases hgate
  · exact hregenerated.voices htarget

/-- From a request to the next gate, however often its nodes fail on the way: nobody but
the named creators gets new voices, and each keeps what was on the table in its history;
new creators leave the concepts and new scripts the rest of the concepts. -/
theorem regeneration_confined (events : List BatchEvent)
    (hgate : (BatchRun.after cfg events).node = .review) {decision : Json}
    (hdecided : nodeReview cfg decision (BatchRun.after cfg events).state = .ok plan)
    (hpending : plan.reviewApproved = false) (more : List BatchEvent)
    (hquiet : ∀ e ∈ more, ∀ decision, e ≠ .review decision)
    (hnext : (BatchRun.after cfg (events ++ .review decision :: more)).node = .review) :
    ∃ request, plan.revisionRequest = some request ∧
      Regenerated cfg request plan
        (BatchRun.after cfg (events ++ .review decision :: more)).state := by
  have hfirst : (BatchRun.step cfg (.review decision) (BatchRun.after cfg events)).2 =
      ⟨routeAfterReview plan, plan⟩ := by
    generalize BatchRun.after cfg events = r at hgate hdecided
    obtain ⟨node, st⟩ := r
    obtain rfl : node = .review := hgate
    change (BatchRun.proceed _ (nodeReview cfg decision st) routeAfterReview).2 = _
    rw [hdecided]
    rfl
  have hafter : BatchRun.after cfg (events ++ .review decision :: more) =
      Machine.run (BatchRun.step cfg) ⟨routeAfterReview plan, plan⟩ more := by
    rw [BatchRun.after, Machine.run_append, Machine.run, hfirst]
  have hplanned := Planned.step (.review decision) _ (planned_after cfg events)
  rw [hfirst] at hplanned
  rcases (nodeReview_ok hdecided).revision with happroved | ⟨-, request, hrequest, htarget⟩
  · rw [hpending] at happroved
    cases happroved
  · have hguarded : Machine.Guarded (BatchRun.step cfg)
        (fun _ e => ∀ decision, e ≠ .review decision) ⟨routeAfterReview plan, plan⟩ more := by
      intro event hevent
      obtain ⟨before, e, later, rfl, rfl⟩ := (Machine.mem_log _).mp hevent
      exact hquiet e (by simp)
    have hstep : ∀ r e, Planned cfg r ∧ Remaking cfg request plan r →
        (∀ decision, e ≠ .review decision) → Planned cfg (BatchRun.step cfg e r).2 ∧
          Remaking cfg request plan (BatchRun.step cfg e r).2 := fun _ _ => Remaking.step
    have hremade := Machine.run_invariant_of_guarded (BatchRun.step cfg) hstep
      ⟨hplanned, Remaking.start hpending hrequest htarget⟩ hguarded
    rw [hafter] at hnext ⊢
    exact ⟨request, hrequest, hremade.2.regenerated hnext⟩

end Way

def otherVoicesDecision : Json :=
  .obj [("action", .str "regenerate"), ("target", .str "voices"),
    ("ids", .arr [.str "creator-1"]), ("feedback", .str "")]

def designedTwice : List BatchEvent :=
  [.voiceCandidates fun _ _ => none, .voiceCandidates fun _ _ => some sampleDesign]

/-- The plan of the reviewed batch once the voices were asked for. -/
def awaitingVoices : BatchState :=
  { (BatchRun.after { reviewPlan := true } (reviewedBatch.take 5)).state with
    revisionRequest := some { target := "voices", ids := [.str "creator-1"], feedback := "" } }

theorem second_creator_revoiced :
    ∃ request, awaitingVoices.revisionRequest = some request ∧
      Regenerated { reviewPlan := true } request awaitingVoices
        (BatchRun.after { reviewPlan := true }
          (reviewedBatch.take 5 ++ .review otherVoicesDecision :: designedTwice)).state :=
  regeneration_confined (reviewedBatch.take 5) (by decide +kernel) (by decide +kernel) rfl
    designedTwice (by simp [designedTwice]) (by decide +kernel)

end Orchestrator
