import Orchestrator.Graph.BatchRun
import Orchestrator.Nodes.StageOutcomes

/-!
What holds of the plan at each node of the batch graph, over every run.
-/

namespace Orchestrator
open Json Outcome

/-- A step that goes on from the node at hand. -/
inductive Advance (cfg : BatchConfig) : BatchEvent → BatchRun → BatchRun → Prop
  | concepts (concepts : List Dict) (st : BatchState) :
      Advance cfg (.concepts concepts) ⟨.concepts, st⟩ ⟨.scripts, nodeConcepts concepts st⟩
  | scripts (write : Dict → ScriptResult) (st : BatchState) :
      Advance cfg (.scripts write) ⟨.scripts, st⟩ ⟨.creatorProfiles, nodeScripts write st⟩
  | creatorProfiles {submission : CreatorRosterSubmission} {st st' : BatchState}
      (h : nodeCreatorProfiles submission st = .ok st') :
      Advance cfg (.creatorProfiles submission) ⟨.creatorProfiles, st⟩ ⟨.roster, st'⟩
  | roster {seedImage : Option String} {build : Nat → Option BuiltCreator} {st st' : BatchState}
      (h : nodeRoster cfg seedImage build st = .ok st') :
      Advance cfg (.roster seedImage build) ⟨.roster, st⟩ ⟨.voiceCandidates, st'⟩
  | voiceCandidates {design : Dict → Int → Option StoredDesign} {st st' : BatchState}
      (h : nodeVoiceCandidates cfg design st = .ok st') :
      Advance cfg (.voiceCandidates design) ⟨.voiceCandidates, st⟩ ⟨.review, st'⟩
  | review {decision : Json} {st st' : BatchState} (h : nodeReview cfg decision st = .ok st') :
      Advance cfg (.review decision) ⟨.review, st⟩ ⟨routeAfterReview st', st'⟩
  | finalizeVoices {finalize : Dict → Option FinalizedVoice} {st st' : BatchState}
      (h : nodeFinalizeVoices finalize st = .ok st') :
      Advance cfg (.finalizeVoices finalize) ⟨.finalizeVoices, st⟩ ⟨fanOut st', st'⟩
  | processItem (item : Item) (pending : Nat) (st : BatchState) :
      Advance cfg (.processItem item) ⟨.processItem (pending + 1), st⟩
        ⟨if pending = 0 then .feedback else .processItem pending, reduceItem item st⟩
  | feedback (st : BatchState) : Advance cfg .feedback ⟨.feedback, st⟩ ⟨.ended, st⟩

namespace BatchRun
variable {cfg : BatchConfig}

/-- A node that raised leaves the run, one that returned goes on. -/
theorem proceed_cases {e : BatchEvent} {r : BatchRun} {result : Except StageError BatchState}
    {next : BatchState → BatchNode}
    (hreturned : ∀ st, result = .ok st → Advance cfg e r ⟨next st, st⟩) :
    (r.proceed result next).2 = r ∨ Advance cfg e r (r.proceed result next).2 := by
  cases result with
  | ok st => exact Or.inr (hreturned st rfl)
  | error exc => exact Or.inl rfl

/-- A step either leaves the run where it is or goes on from its node. -/
theorem step_cases (cfg : BatchConfig) (e : BatchEvent) (r : BatchRun) :
    (step cfg e r).2 = r ∨ Advance cfg e r (step cfg e r).2 := by
  obtain ⟨node, st⟩ := r
  unfold step
  dsimp only
  split
  · exact Or.inr (.concepts _ st)
  · exact Or.inr (.scripts _ st)
  · exact proceed_cases fun st' h => .creatorProfiles h
  · exact proceed_cases fun st' h => .roster h
  · exact proceed_cases fun st' h => .voiceCandidates h
  · exact proceed_cases fun st' h => .review h
  · exact proceed_cases fun st' h => .finalizeVoices h
  · exact Or.inr (.processItem _ _ st)
  · exact Or.inr (.feedback st)
  · exact Or.inl rfl

end BatchRun

/-- The creators are told apart and each carries the record of its voices. -/
structure VoicedRoster (roster : List Dict) : Prop where
  nodup : (roster.map idText).Nodup
  voiced : ∀ creator ∈ roster, Voiced creator

/-- Every concept has an id. -/
def Identified (concepts : List Dict) : Prop :=
  ∀ concept ∈ concepts, (field? concept "id").isSome = true

/-- Before the roster is built: no re-roll is open and the previous roster is intact. -/
structure Drafting (st : BatchState) : Prop where
  unrequested : requestedVoices st = none
  roster : VoicedRoster st.roster

/-- The plan is complete but for the voices. -/
structure Casting (cfg : BatchConfig) (st : BatchState) : Prop where
  cast : Cast cfg st.roster
  identified : Identified st.concepts
  undesigned : requestedVoices st = none → ∀ creator ∈ st.roster, Undesigned creator
  voiced : requestedVoices st ≠ none → ∀ creator ∈ st.roster, Voiced creator

/-- The plan is complete. -/
structure Complete (cfg : BatchConfig) (st : BatchState) : Prop where
  cast : Cast cfg st.roster
  identified : Identified st.concepts
  voiced : ∀ creator ∈ st.roster, Voiced creator

/-- What holds of the run at its node. -/
def Planned (cfg : BatchConfig) (r : BatchRun) : Prop :=
  match r.node with
  | .concepts | .scripts | .creatorProfiles => Drafting r.state
  | .roster => Drafting r.state ∧ Identified r.state.concepts ∧
      ∃ submission : CreatorRosterSubmission, r.state.creatorProfiles = submission.creators
  | .voiceCandidates => Casting cfg r.state
  | _ => Complete cfg r.state

theorem Planned.complete {cfg : BatchConfig} {r : BatchRun} (h : Planned cfg r)
    (hnode : r.node = .review ∨ r.node = .finalizeVoices) : Complete cfg r.state := by
  unfold Planned at h
  rcases hnode with hnode | hnode <;> rwa [hnode] at h

theorem Complete.rosterOf {cfg : BatchConfig} {st : BatchState} (h : Complete cfg st) :
    VoicedRoster st.roster := ⟨h.cast.nodup, h.voiced⟩

section Reviewed
variable {cfg : BatchConfig} {roster reviewed : List Dict}

theorem RosterReviewed.ids (h : RosterReviewed roster reviewed) :
    reviewed.map idText = roster.map idText := by
  rcases h with rfl | ⟨-, hreviewed⟩
  · rfl
  · refine map_eq_of_forall₂ ?_ hreviewed
    rintro creator out ⟨update, hupdate⟩
    exact congrArg (textOr · "") (reviewedCreator_id hupdate)

theorem RosterReviewed.voiced (h : RosterReviewed roster reviewed)
    (hvoiced : ∀ creator ∈ roster, Voiced creator) : ∀ creator ∈ reviewed, Voiced creator := by
  rcases h with rfl | ⟨-, hreviewed⟩
  · exact hvoiced
  · intro out hout
    obtain ⟨creator, hcreator, update, hupdate⟩ := exists_left hreviewed hout
    exact (hvoiced creator hcreator).review hupdate

theorem ConceptsReviewed.identified {concepts reviewed : List Dict}
    (h : ConceptsReviewed concepts reviewed) (hid : Identified concepts) :
    Identified reviewed := by
  rcases h with rfl | ⟨update, rfl⟩
  · exact hid
  · intro out hout
    obtain ⟨concept, hconcept, rfl⟩ := List.mem_map.mp hout
    rw [merge_editable_of_notMem _ _ (by decide)]
    exact hid concept hconcept

end Reviewed

section Step
variable {cfg : BatchConfig} {st st' : BatchState}

/-- The voices of a cast leave it complete. -/
theorem Casting.design (h : Casting cfg st) {design : Dict → Int → Option StoredDesign}
    (hdesign : nodeVoiceCandidates cfg design st = .ok st') : Complete cfg st' := by
  obtain ⟨-, designed, hdesigned, rfl⟩ := nodeVoiceCandidates_ok hdesign
  have hids : (designed.map Prod.fst).map idText = st.roster.map idText := by
    rw [List.map_map]
    exact map_eq_of_forall₂ (fun creator out hturn => congrArg (textOr · "") (voiceTurn_id hturn))
      hdesigned
  refine ⟨h.cast.of_ids_eq hids, h.identified, fun creator hcreator => ?_⟩
  obtain ⟨out, hout, rfl⟩ := List.mem_map.mp hcreator
  obtain ⟨before, hbefore, hturn⟩ := exists_left hdesigned hout
  cases hrequested : requestedVoices st with
  | none =>
      rw [hrequested] at hturn
      obtain ⟨d, rfl⟩ := voiceTurn_none hturn
      exact .first (h.undesigned hrequested before hbefore) cfg d
  | some ids =>
      have hvoiced := h.voiced (by simp [hrequested]) before hbefore
      rw [hrequested] at hturn
      rcases voiceTurn_some hturn with ⟨-, rfl⟩ | ⟨-, -, d, rfl⟩
      · exact hvoiced
      · exact hvoiced.reroll cfg d

theorem Complete.finalize (h : Complete cfg st) {finalize : Dict → Option FinalizedVoice}
    (hfinalize : nodeFinalizeVoices finalize st = .ok st') : Complete cfg st' := by
  obtain ⟨roster, hroster, rfl⟩ := nodeFinalizeVoices_ok hfinalize
  have hids : roster.map idText = st.roster.map idText :=
    map_eq_of_forall₂ (fun creator out hturn =>
      congrArg (textOr · "") (Voiced.finalizeTurn_frame hturn (by decide))) hroster
  refine ⟨h.cast.of_ids_eq hids, h.identified, fun creator hcreator => ?_⟩
  obtain ⟨before, hbefore, hturn⟩ := exists_left hroster hcreator
  exact (h.voiced before hbefore).finalize hturn

theorem Complete.review (h : Complete cfg st) (hreview : ReviewOutcome st st') :
    Complete cfg st' where
  cast := h.cast.of_ids_eq hreview.roster.ids
  identified := hreview.concepts.identified h.identified
  voiced := hreview.roster.voiced h.voiced

/-- The node a review sends the run to finds what it needs. -/
theorem Complete.route (h : Complete cfg st') (hreview : ReviewOutcome st st') :
    Planned cfg ⟨routeAfterReview st', st'⟩ := by
  rcases hreview.revision with happroved | ⟨hrejected, request, hrequest, htarget⟩
  · simpa [Planned, routeAfterReview, happroved] using h
  · have hdrafting : request.target ≠ "voices" → Drafting st' := fun hne =>
      ⟨by simp [requestedVoices, hrequest, hne], h.rosterOf⟩
    simp only [reviewTargets, List.mem_cons, List.not_mem_nil, or_false] at htarget
    rcases htarget with heq | heq | heq | heq
    · simpa [Planned, routeAfterReview, hrejected, hrequest, heq] using
        hdrafting (by simp [heq])
    · simpa [Planned, routeAfterReview, hrejected, hrequest, heq] using
        hdrafting (by simp [heq])
    · simpa [Planned, routeAfterReview, hrejected, hrequest, heq] using
        hdrafting (by simp [heq])
    · have hrequested : requestedVoices st' ≠ none := by
        simp [requestedVoices, hrequest, heq]
      simpa [Planned, routeAfterReview, hrejected, hrequest, heq] using
        (⟨h.cast, h.identified, fun hnone => absurd hnone hrequested, fun _ => h.voiced⟩ :
          Casting cfg st')

theorem Planned.advance {e : BatchEvent} {r r' : BatchRun} (h : Planned cfg r)
    (hadvance : Advance cfg e r r') : Planned cfg r' := by
  cases hadvance with
  | concepts concepts st => exact ⟨h.unrequested, h.roster⟩
  | scripts write st => exact ⟨h.unrequested, h.roster⟩
  | creatorProfiles hprofiles =>
      obtain ⟨hidentified, assignments, rfl⟩ := nodeCreatorProfiles_ok hprofiles
      exact ⟨⟨h.unrequested, h.roster⟩, hidentified, _, rfl⟩
  | roster hroster =>
      obtain ⟨hdrafting, hidentified, submission, hprofiles⟩ := h
      obtain ⟨hcast, hundesigned, roster, assignments, rfl⟩ := nodeRoster_ok hprofiles hroster
      exact ⟨hcast, hidentified, fun _ => hundesigned,
        fun hrequested => absurd hdrafting.unrequested hrequested⟩
  | voiceCandidates hdesign => exact Casting.design h hdesign
  | review hreview =>
      exact (Complete.review h (nodeReview_ok hreview)).route (nodeReview_ok hreview)
  | finalizeVoices hfinalize =>
      have hcomplete := Complete.finalize h hfinalize
      unfold fanOut
      split <;> exact hcomplete
  | processItem item pending st =>
      have hcomplete : Complete cfg (reduceItem item st) := ⟨h.cast, h.identified, h.voiced⟩
      by_cases hlast : pending = 0
      · rwa [if_pos hlast]
      · rwa [if_neg hlast]
  | feedback st => exact h

theorem Planned.step (e : BatchEvent) (r : BatchRun) (h : Planned cfg r) :
    Planned cfg (BatchRun.step cfg e r).2 := by
  rcases BatchRun.step_cases cfg e r with hsame | hadvance
  · rwa [hsame]
  · exact h.advance hadvance

/-- Every run is planned at the node it reached. -/
theorem planned_after (cfg : BatchConfig) (events : List BatchEvent) :
    Planned cfg (BatchRun.after cfg events) := by
  have hstart : Planned cfg {} := Drafting.mk rfl
    ⟨List.nodup_nil, fun _ h => absurd h List.not_mem_nil⟩
  exact Machine.run_invariant (BatchRun.step cfg) (fun r e => Planned.step e r) hstart events

end Step

end Orchestrator
