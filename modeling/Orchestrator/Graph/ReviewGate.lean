import Orchestrator.Graph.FanOut

/-!
What the human gate guarantees of every run that has one.

A plan of less than two creators never gets past the gate: its creators cannot be
edited, and no design selects a voice for them. So what is produced was approved, by
two creators who each have a voice of their own.
-/

namespace Orchestrator
open Json Outcome

/-- The ids the server gives to the creators of the profiles. -/
def profileIds : List String := ["creator-0", "creator-1"]

/-- The concepts are assigned to creators of these ids. -/
def AssignedTo (ids : List String) (st : BatchState) : Prop :=
  ∀ a ∈ st.creatorAssignments, a.creatorId ∈ ids

/-- A roster that cannot be edited has no voice selected. -/
def LoneUnselected (roster : List Dict) : Prop :=
  roster.length ≠ 2 → ∀ creator ∈ roster, selectedId creator = ""

/-- The plan of a run that waits for a decision, or makes another plan after one. -/
structure OpenPlan (cfg : BatchConfig) (st : BatchState) : Prop where
  pending : st.reviewApproved = false
  assigned : AssignedTo (castIds cfg) st
  lone : LoneUnselected st.roster

/-- The plan that a human approved. -/
structure ApprovedPlan (st : BatchState) : Prop where
  approved : st.reviewApproved = true
  unrevised : st.revisionRequest = none
  pair : st.roster.map idText = profileIds
  assigned : AssignedTo profileIds st
  selected : ∀ creator ∈ st.roster, hasSelection creator = true

/-- An approved plan whose creators have their voices. -/
structure VoicedPlan (st : BatchState) : Prop extends ApprovedPlan st where
  voiced : ∀ creator ∈ st.roster, (orNone (field? creator "voice_ref")).isSome = true

/-- What the gate guarantees of the run at its node. -/
def Gated (cfg : BatchConfig) (r : BatchRun) : Prop :=
  match r.node with
  | .concepts | .scripts | .creatorProfiles => r.state.reviewApproved = false
  | .roster => r.state.reviewApproved = false ∧ AssignedTo profileIds r.state
  | .voiceCandidates => r.state.reviewApproved = false ∧ AssignedTo (castIds cfg) r.state ∧
      (requestedVoices r.state ≠ none → LoneUnselected r.state.roster)
  | .review => OpenPlan cfg r.state
  | .finalizeVoices => ApprovedPlan r.state
  | _ => VoicedPlan r.state

section Nodes
variable {cfg : BatchConfig} {st st' : BatchState}

theorem nodeCreatorProfiles_assigned {submission : CreatorRosterSubmission}
    (h : nodeCreatorProfiles submission st = .ok st') : AssignedTo profileIds st' := by
  obtain ⟨ids, -, hrest⟩ := ok_of_bind h
  obtain ⟨⟨profiles, assignments⟩, hmaterialized, heq⟩ := ok_of_bind hrest
  cases heq
  unfold materializeCreatorRoster at hmaterialized
  dsimp only at hmaterialized
  split at hmaterialized
  · cases hmaterialized
    intro a ha
    obtain ⟨submitted, -, rfl⟩ := List.mem_map.mp ha
    by_cases hfirst : submitted.creatorIndex = 0
    · simp [CreatorRosterSubmission.creatorId, hfirst, profileIds]
    · simp [CreatorRosterSubmission.creatorId, hfirst, profileIds]
  · cases hmaterialized

/-- The roster assigns to those it is cast from, or leaves the assignments. -/
theorem nodeRoster_assigned {seedImage : Option String} {build : Nat → Option BuiltCreator}
    (hassigned : AssignedTo profileIds st) (h : nodeRoster cfg seedImage build st = .ok st') :
    AssignedTo (castIds cfg) st' := by
  unfold nodeRoster at h
  cases hbind : cfg.seedCreator.bind (fun seed => normalizeSeedCreator seed.fields) with
  | some seed =>
      have hseed : cfg.seed = some seed := hbind
      rw [hbind] at h
      cases h
      intro a ha
      obtain ⟨concept, -, rfl⟩ := List.mem_map.mp ha
      have hid : idText (ensureSeedReferenceImage seedImage seed) = idText seed :=
        congrArg (textOr · "") (ensureSeedReferenceImage_frame _ _ (by decide))
      simp [castIds, hseed, hid]
  | none =>
      have hseed : cfg.seed = none := hbind
      have hcast : castIds cfg = profileIds := by rw [castIds, hseed]; rfl
      rw [hbind] at h
      obtain ⟨concepts, profiles, assignments, roster, approved, revision, results, cost⟩ := st
      dsimp only at h
      generalize hn : (if profiles = [] then cfg.creators else profiles.length) = n at h
      split at h
      · cases h
      · cases h
        rw [hcast]
        exact hassigned

/-- With a review no design selects a voice. -/
theorem voiceTurn_unselected (hreview : cfg.reviewPlan = true)
    {design : Dict → Int → Option StoredDesign} {requested : Option (List String)}
    {creator : Dict} {out : Dict × Rat}
    (hbefore : requested ≠ none → selectedId creator = "")
    (h : voiceTurn cfg design requested creator = .ok out) : selectedId out.1 = "" := by
  cases requested with
  | none =>
      obtain ⟨d, rfl⟩ := voiceTurn_none h
      exact offerVoices_selectedId hreview d _ _
  | some ids =>
      rcases voiceTurn_some h with ⟨-, rfl⟩ | ⟨-, -, d, rfl⟩
      · exact hbefore (by simp)
      · exact offerVoices_selectedId hreview d _ _

theorem nodeVoiceCandidates_lone (hreview : cfg.reviewPlan = true)
    {design : Dict → Int → Option StoredDesign}
    (hbefore : requestedVoices st ≠ none → LoneUnselected st.roster)
    (h : nodeVoiceCandidates cfg design st = .ok st') : LoneUnselected st'.roster := by
  obtain ⟨-, designed, hdesigned, rfl⟩ := nodeVoiceCandidates_ok h
  intro hlength out hout
  obtain ⟨turn, hturn, rfl⟩ := List.mem_map.mp hout
  obtain ⟨creator, hcreator, hvoices⟩ := exists_left hdesigned hturn
  have hsame : st.roster.length ≠ 2 := by
    rwa [hdesigned.length_eq, ← List.length_map (f := Prod.fst)]
  exact voiceTurn_unselected hreview
    (fun hrequested => hbefore hrequested hsame creator hcreator) hvoices

theorem offerVoices_candidateIds (d : StoredDesign) (rerolls : Int) (creator : Dict) :
    candidateIds (offerVoices cfg d rerolls creator) ≠ [] := by
  rw [candidateIds, voiceCandidates, offerVoices_candidates]
  obtain ⟨first, rest, heq⟩ := List.exists_cons_of_ne_nil d.candidates_ne
  rw [heq]
  exact List.cons_ne_nil _ _

theorem voiceCreatorId_eq {creator : Dict} (h : idText creator ≠ "") :
    voiceCreatorId creator = idText creator := by
  obtain ⟨value, hvalue, -⟩ := orNone_of_idText h
  unfold voiceCreatorId idText textOr
  rw [hvalue]

/-- With a provider that answers, a re-roll only fails at its limit. -/
theorem nodeVoiceCandidates_rerolls {design : Dict → Int → Option StoredDesign}
    (hanswers : ∀ creator rerolls, (design creator rerolls).isSome = true) {ids : List String}
    (hrequested : requestedVoices st = some ids) (hne : ids ≠ [])
    (hids : ∀ id ∈ ids, id ∈ st.roster.map idText)
    (hnames : ∀ creator ∈ st.roster, idText creator ≠ "") :
    (∃ st', nodeVoiceCandidates cfg design st = .ok st') ↔
      ∀ creator ∈ st.roster, idText creator ∈ ids → rerollCount creator < cfg.maxRerolls := by
  constructor
  · rintro ⟨st', h⟩ creator hcreator hid
    obtain ⟨-, designed, hdesigned, -⟩ := nodeVoiceCandidates_ok h
    obtain ⟨out, -, hturn⟩ := exists_right hdesigned hcreator
    rw [hrequested] at hturn
    rcases voiceTurn_some hturn with ⟨hnot, -⟩ | ⟨-, hlimit, -⟩
    · exact absurd (voiceCreatorId_eq (hnames creator hcreator) ▸ hid) hnot
    · exact hlimit
  · intro hlimits
    have hturns : ∀ creator ∈ st.roster, ∃ out,
        voiceTurn cfg design (requestedVoices st) creator = .ok out := by
      intro creator hcreator
      have hname := voiceCreatorId_eq (hnames creator hcreator)
      rw [hrequested]
      unfold voiceTurn
      dsimp only
      by_cases hid : voiceCreatorId creator ∈ ids
      · obtain ⟨d, hd⟩ := Option.isSome_iff_exists.mp
          (hanswers creator (rerollCount creator + 1))
        rw [if_neg (not_not.mpr hid), if_neg (not_le.mpr (hlimits creator hcreator (hname ▸ hid))),
          hd]
        exact ⟨_, rfl⟩
      · exact ⟨_, if_pos hid⟩
    obtain ⟨designed, hdesigned⟩ := mapM_ok_of_forall hturns
    refine ⟨{ st with
      roster := designed.map Prod.fst
      totalCostUsd := st.totalCostUsd + (designed.map Prod.snd).sum }, ?_⟩
    unfold nodeVoiceCandidates
    dsimp only
    have hknown : ¬ (requestedVoices st).any
        (fun ids => ids = [] ∨ ∃ id ∈ ids, id ∉ st.roster.map idText) = true := by
      rw [hrequested]
      simpa [hne] using hids
    rw [if_neg hknown, hdesigned, ok_bind]
    rfl

/-- A review leaves the ids and the counts of re-rolls. -/
theorem RosterReviewed.rerollCounts {roster reviewed : List Dict}
    (h : RosterReviewed roster reviewed) :
    List.Forall₂ (fun creator out => field? out "id" = field? creator "id" ∧
      rerollCount out = rerollCount creator) roster reviewed := by
  rcases h with rfl | ⟨-, hreviewed⟩
  · exact List.forall₂_same.mpr fun _ _ => ⟨rfl, rfl⟩
  · refine hreviewed.imp ?_
    rintro creator out ⟨update, hupdate⟩
    exact ⟨reviewedCreator_id hupdate, reviewedCreator_rerollCount hupdate⟩

/-- A review edits two creators or none. -/
theorem RosterReviewed.lone {roster reviewed : List Dict} (h : RosterReviewed roster reviewed)
    (hlone : LoneUnselected roster) : LoneUnselected reviewed := by
  rcases h with rfl | ⟨htwo, hreviewed⟩
  · exact hlone
  · exact fun hlength => absurd (hreviewed.length_eq ▸ htwo) hlength

/-- A review that returned approved the plan or asked for another one. -/
theorem nodeReview_cases (hreview : cfg.reviewPlan = true) {decision : Json}
    (h : nodeReview cfg decision st = .ok st') :
    ∃ fields, decisionFields decision = .ok fields ∧
      (approvePlan fields st = .ok st' ∨
        ∃ target, targetOf fields = some target ∧ requestRevision fields target st = .ok st') := by
  unfold nodeReview at h
  rw [if_neg (by simp [hreview])] at h
  obtain ⟨fields, hfields, hrest⟩ := ok_of_bind h
  refine ⟨fields, hfields, ?_⟩
  dsimp only at hrest
  split at hrest
  · split at hrest
    · rename_i target htarget
      exact Or.inr ⟨target, htarget, hrest⟩
    · cases hrest
  · split at hrest
    · exact Or.inl hrest
    · cases hrest

theorem nodeReview_approves (hreview : cfg.reviewPlan = true) {fields : Dict}
    (haction : field? fields "action" = some (.str "approve")) :
    nodeReview cfg (.obj fields) st = approvePlan fields st := by
  unfold nodeReview
  rw [if_neg (by simp [hreview])]
  change (if (field? fields "action").getD (.str "approve") = .str "regenerate" then _ else _) = _
  rw [haction, if_neg (by decide)]
  exact if_pos rfl

theorem nodeReview_regenerates (hreview : cfg.reviewPlan = true) {fields : Dict}
    {target : String} (haction : field? fields "action" = some (.str "regenerate"))
    (htarget : targetOf fields = some target) :
    nodeReview cfg (.obj fields) st = requestRevision fields target st := by
  unfold nodeReview
  rw [if_neg (by simp [hreview])]
  change (if (field? fields "action").getD (.str "approve") = .str "regenerate" then _ else _) = _
  rw [haction, htarget]
  exact if_pos rfl

/-- Whoever approves has two creators before them. -/
theorem OpenPlan.approve (hcast : Cast cfg st.roster) (h : OpenPlan cfg st) {decision : Dict}
    (happroved : approvePlan decision st = .ok st') : ApprovedPlan st' := by
  obtain ⟨roster, concepts, hroster, hvalid, -, rfl⟩ := approvePlan_ok happroved
  have hselected := validateVoiceSelections_ok_iff.mp hvalid
  have hreviewed := rosterReviewed_of_applyIfList hroster
  have hlength : roster.length = 2 := by
    by_contra hne
    obtain ⟨creator, rest, rfl⟩ := List.exists_cons_of_ne_nil (hcast.of_ids_eq hreviewed.ids).ne_nil
    have hnone := hreviewed.lone h.lone hne creator List.mem_cons_self
    have hsome := hselected creator List.mem_cons_self
    simp [hasSelection, hnone] at hsome
  obtain ⟨hseed, hpair⟩ := (hcast.of_ids_eq hreviewed.ids).ids_of_two hlength
  have hassigned := h.assigned
  rw [castIds, hseed] at hassigned
  exact ⟨rfl, rfl, hpair, hassigned, hselected⟩

/-- The fields that a finalized voice writes. -/
def finalizedVoiceFields : List String :=
  ["voice_ref", "voice_id", "voice", "voice_preview_uri", "voice_provider", "voice_design_model",
    "voice_tts_model", "voice_design_hash", "voice_status"]

/-- The creator of a plan with its voice finalized, or not yet. -/
def FinalizedFrom (planned creator : Dict) : Prop :=
  ∀ name ∉ finalizedVoiceFields, field? creator name = field? planned name

theorem finalizeTurn_finalizedFrom {finalize : Dict → Option FinalizedVoice} {creator out : Dict}
    (h : finalizeTurn finalize creator = .ok out) : FinalizedFrom creator out := by
  intro name hname
  cases hneeds : needsVoice creator with
  | false =>
      unfold needsVoice at hneeds
      obtain ⟨ref, href⟩ := Option.isSome_iff_exists.mp (Option.isNone_eq_false_iff.mp hneeds)
      unfold finalizeTurn at h
      dsimp only at h
      rw [href] at h
      cases h
      split
      · rfl
      · refine field?_setField_of_ne _ _ ?_
        rintro rfl
        exact hname (by decide)
  | true =>
      have houtcome : FinalizeOutcome creator (finalizeTurn finalize creator) :=
        finalizeTurn_outcome hneeds
      rw [h] at houtcome
      cases houtcome with
      | finalized _ _ _ batch previewUri =>
          refine field?_merge_of_notMem _ _ fun f hf heq => hname ?_
          exact heq ▸ List.mem_map_of_mem (f := Prod.fst) hf

theorem FinalizedFrom.hasSelection_eq {planned creator : Dict}
    (h : FinalizedFrom planned creator) : hasSelection creator = hasSelection planned := by
  unfold hasSelection selectedId candidateIds voiceCandidates
  rw [h _ (by decide), h _ (by decide)]

theorem FinalizedFrom.id_eq {planned creator : Dict} (h : FinalizedFrom planned creator) :
    idText creator = idText planned :=
  congrArg (textOr · "") (h "id" (by decide))

theorem ApprovedPlan.finalize {finalize : Dict → Option FinalizedVoice} (h : ApprovedPlan st)
    (hfinalize : nodeFinalizeVoices finalize st = .ok st') : VoicedPlan st' := by
  obtain ⟨roster, hroster, rfl⟩ := nodeFinalizeVoices_ok hfinalize
  have hids : roster.map idText = st.roster.map idText :=
    map_eq_of_forall₂ (fun _ _ hturn => (finalizeTurn_finalizedFrom hturn).id_eq) hroster
  refine ⟨⟨h.approved, h.unrevised, hids.trans h.pair, h.assigned, fun out hout => ?_⟩,
    fun out hout => ?_⟩
  · obtain ⟨creator, hcreator, hturn⟩ := exists_left hroster hout
    rw [(finalizeTurn_finalizedFrom hturn).hasSelection_eq]
    exact h.selected creator hcreator
  · obtain ⟨creator, -, hturn⟩ := exists_left hroster hout
    exact finalizeTurn_voice hturn

/-- An approved plan is finalized, if the provider accepts everyone. -/
theorem ApprovedPlan.finalizes {finalize : Dict → Option FinalizedVoice} (h : ApprovedPlan st)
    (hcomplete : Complete cfg st) (haccepts : AcceptsRoster finalize st) :
    ∃ st', nodeFinalizeVoices finalize st = .ok st' := by
  obtain ⟨roster, hturns⟩ := finalizeTurns_ok hcomplete h.selected haccepts
  have hids : roster.map idText = profileIds := h.pair ▸
    map_eq_of_forall₂ (fun _ _ hturn => (finalizeTurn_finalizedFrom hturn).id_eq) hturns
  have hvoiced : ∀ creator ∈ roster, (orNone (field? creator "voice_ref")).isSome = true := by
    intro out hout
    obtain ⟨before, -, hturn⟩ := exists_left hturns hout
    exact finalizeTurn_voice hturn
  have hrequired : ∀ id ∈ requiredCreatorIds st, id ∈ roster.map idText := by
    intro id hid
    rw [hids]
    unfold requiredCreatorIds at hid
    dsimp only at hid
    split at hid
    · rwa [← h.pair]
    · obtain ⟨a, ha, rfl⟩ := List.mem_map.mp hid
      exact h.assigned a ha
  refine ⟨{ st with roster }, ?_⟩
  unfold nodeFinalizeVoices
  rw [mapM_of_forall₂ hturns, ok_bind]
  exact if_pos ((missingVoices_eq_nil_iff hvoiced).mpr hrequired)

end Nodes

section Run
variable {cfg : BatchConfig} {e : BatchEvent} {r r' : BatchRun}

/-- The node a request for another plan goes to. -/
theorem routeAfterReview_request {st : BatchState} {request : RevisionRequest}
    (hpending : st.reviewApproved = false) (hrequest : st.revisionRequest = some request)
    (htarget : request.target ∈ reviewTargets) :
    (routeAfterReview st = .concepts ∨ routeAfterReview st = .scripts ∨
      routeAfterReview st = .creatorProfiles) ∧ requestedVoices st = none ∨
    routeAfterReview st = .voiceCandidates ∧ request.target = "voices" := by
  simp only [reviewTargets, List.mem_cons, List.not_mem_nil, or_false] at htarget
  rcases htarget with heq | heq | heq | heq <;>
    simp [routeAfterReview, requestedVoices, hpending, hrequest, heq]

theorem Gated.review (hreview : cfg.reviewPlan = true) {st st' : BatchState}
    (hcast : Cast cfg st.roster) (h : OpenPlan cfg st) {decision : Json}
    (hdecided : nodeReview cfg decision st = .ok st') :
    Gated cfg ⟨routeAfterReview st', st'⟩ := by
  obtain ⟨fields, -, happroved | ⟨target, htarget, hrequested⟩⟩ := nodeReview_cases hreview hdecided
  · have hplan := h.approve hcast happroved
    have hroute : routeAfterReview st' = .finalizeVoices := by
      rw [routeAfterReview, if_pos hplan.approved]
    rw [hroute]
    exact hplan
  · obtain ⟨roster, concepts, hroster, -, heq⟩ := requestRevision_ok hrequested
    have hpending : st'.reviewApproved = false := congrArg BatchState.reviewApproved heq
    have hrequest := congrArg BatchState.revisionRequest heq
    rcases routeAfterReview_request hpending hrequest (targetOf_some htarget) with
      ⟨hroute | hroute | hroute, -⟩ | ⟨hroute, -⟩
    · rwa [hroute]
    · rwa [hroute]
    · rwa [hroute]
    · rw [hroute, heq]
      exact ⟨rfl, h.assigned, fun _ => (rosterReviewed_of_applyIfList hroster).lone h.lone⟩

theorem Gated.advance (hreview : cfg.reviewPlan = true) (hplanned : Planned cfg r)
    (h : Gated cfg r) (hadvance : Advance cfg e r r') : Gated cfg r' := by
  cases hadvance with
  | concepts concepts st => exact h
  | scripts write st => exact h
  | creatorProfiles hprofiles =>
      obtain ⟨-, assignments, heq⟩ := nodeCreatorProfiles_ok hprofiles
      refine ⟨?_, nodeCreatorProfiles_assigned hprofiles⟩
      rw [heq]
      exact h
  | roster hroster =>
      obtain ⟨hpending, hassigned⟩ := h
      obtain ⟨hdrafting, -, submission, hprofiles⟩ := hplanned
      have hcastAssigned := nodeRoster_assigned hassigned hroster
      obtain ⟨-, -, roster, assignments, rfl⟩ := nodeRoster_ok hprofiles hroster
      exact ⟨hpending, hcastAssigned, fun hrequested => absurd hdrafting.unrequested hrequested⟩
  | voiceCandidates hdesign =>
      obtain ⟨hpending, hassigned, hlone⟩ := h
      have hnext := nodeVoiceCandidates_lone hreview hlone hdesign
      obtain ⟨-, designed, -, rfl⟩ := nodeVoiceCandidates_ok hdesign
      exact ⟨hpending, hassigned, hnext⟩
  | review hdecided => exact Gated.review hreview (Complete.cast hplanned) h hdecided
  | finalizeVoices hfinalize =>
      have hplan := ApprovedPlan.finalize h hfinalize
      unfold fanOut
      split <;> exact hplan
  | processItem item pending st =>
      have hplan : VoicedPlan (reduceItem item st) :=
        ⟨⟨h.approved, h.unrevised, h.pair, h.assigned, h.selected⟩, h.voiced⟩
      by_cases hlast : pending = 0
      · rwa [if_pos hlast]
      · rwa [if_neg hlast]
  | feedback st => exact h

theorem Gated.step (hreview : cfg.reviewPlan = true) (hplanned : Planned cfg r)
    (h : Gated cfg r) (e : BatchEvent) : Gated cfg (BatchRun.step cfg e r).2 := by
  rcases BatchRun.step_cases cfg e r with hsame | hadvance
  · rwa [hsame]
  · exact h.advance hreview hplanned hadvance

theorem gated_after (hreview : cfg.reviewPlan = true) (events : List BatchEvent) :
    Gated cfg (BatchRun.after cfg events) := by
  have hstep : ∀ r e, Planned cfg r ∧ Gated cfg r →
      Planned cfg (BatchRun.step cfg e r).2 ∧ Gated cfg (BatchRun.step cfg e r).2 :=
    fun r e h => ⟨Planned.step e r h.1, h.2.step hreview h.1 e⟩
  exact (Machine.run_invariant _ hstep ⟨planned_after cfg [], rfl⟩ events).2

/-- The nodes behind the gate. -/
def BatchNode.produces : BatchNode → Bool
  | .finalizeVoices | .processItem _ | .feedback | .ended => true
  | _ => false

/-- What is produced is the plan: its concepts, its assignments, and its creators, who at
most got their voices. -/
structure Implements (plan st : BatchState) : Prop where
  concepts : st.concepts = plan.concepts
  assignments : st.creatorAssignments = plan.creatorAssignments
  creators : List.Forall₂ FinalizedFrom plan.roster st.roster

theorem Implements.refl (plan : BatchState) : Implements plan plan :=
  ⟨rfl, rfl, List.forall₂_same.mpr fun _ _ _ _ => rfl⟩

/-- Production goes on with the plan it has. -/
theorem Implements.advance {plan : BatchState} (h : Implements plan r.state)
    (hnode : r.node.produces = true) (hadvance : Advance cfg e r r') :
    Implements plan r'.state := by
  cases hadvance with
  | finalizeVoices hfinalize =>
      obtain ⟨roster, hroster, rfl⟩ := nodeFinalizeVoices_ok hfinalize
      refine ⟨h.concepts, h.assignments,
        forall₂_comp (fun _ _ _ hplanned hturn name hname => ?_) h.creators hroster⟩
      rw [finalizeTurn_finalizedFrom hturn name hname, hplanned name hname]
  | processItem item pending st => exact ⟨h.concepts, h.assignments, h.creators⟩
  | feedback st => exact h
  | _ => cases hnode

/-- Only a review leads behind the gate. -/
theorem Advance.enters (hadvance : Advance cfg e r r') (hbefore : r.node.produces = false)
    (hafter : r'.node.produces = true) :
    ∃ decision, e = .review decision ∧ r.node = .review ∧
      nodeReview cfg decision r.state = .ok r'.state := by
  cases hadvance with
  | review hdecided => exact ⟨_, rfl, rfl, hdecided⟩
  | finalizeVoices hfinalize => cases hbefore
  | processItem item pending st => cases hbefore
  | feedback st => cases hbefore
  | _ => cases hafter

theorem Gated.behind (h : Gated cfg r) (hnode : r.node.produces = true) :
    ApprovedPlan r.state ∧ (r.node = .finalizeVoices ∨
      ∀ creator ∈ r.state.roster, (orNone (field? creator "voice_ref")).isSome = true) := by
  obtain ⟨node, st⟩ := r
  cases node with
  | finalizeVoices => exact ⟨h, Or.inl rfl⟩
  | processItem pending => exact ⟨VoicedPlan.toApprovedPlan h, Or.inr (VoicedPlan.voiced h)⟩
  | feedback => exact ⟨VoicedPlan.toApprovedPlan h, Or.inr (VoicedPlan.voiced h)⟩
  | ended => exact ⟨VoicedPlan.toApprovedPlan h, Or.inr (VoicedPlan.voiced h)⟩
  | _ => cases hnode

/-- A review of the history approved the plan that the state implements. -/
def PassedGate (cfg : BatchConfig) (events : List BatchEvent) (st : BatchState) : Prop :=
  ∃ before decision later plan, events = before ++ .review decision :: later ∧
    (BatchRun.after cfg before).node = .review ∧
    nodeReview cfg decision (BatchRun.after cfg before).state = .ok plan ∧
    ApprovedPlan plan ∧ Implements plan st

theorem PassedGate.concat {events : List BatchEvent} {st st' : BatchState}
    (h : PassedGate cfg events st) (e : BatchEvent)
    (hkept : ∀ plan, Implements plan st → Implements plan st') :
    PassedGate cfg (events ++ [e]) st' := by
  obtain ⟨before, decision, later, plan, rfl, hgate, hdecided, happroved, himplements⟩ := h
  exact ⟨before, decision, later ++ [e], plan, by simp, hgate, hdecided, happroved,
    hkept plan himplements⟩

theorem passedGate_after (hreview : cfg.reviewPlan = true) (events : List BatchEvent)
    (hnode : (BatchRun.after cfg events).node.produces = true) :
    PassedGate cfg events (BatchRun.after cfg events).state := by
  induction events using List.reverseRecOn with
  | nil => cases hnode
  | append_singleton events e ih =>
      have happroved := ((gated_after hreview (events ++ [e])).behind hnode).1
      have hrun : BatchRun.after cfg (events ++ [e]) =
          (BatchRun.step cfg e (BatchRun.after cfg events)).2 := Machine.run_concat _ _ _ _
      rw [hrun] at hnode happroved ⊢
      rcases BatchRun.step_cases cfg e (BatchRun.after cfg events) with hstays | hadvance
      · rw [hstays] at hnode ⊢
        exact (ih hnode).concat e fun _ himplements => himplements
      · cases hbefore : (BatchRun.after cfg events).node.produces with
        | true =>
            exact (ih hbefore).concat e fun _ himplements => himplements.advance hbefore hadvance
        | false =>
            obtain ⟨decision, rfl, hgate, hdecided⟩ := hadvance.enters hbefore hnode
            exact ⟨events, decision, [], _, rfl, hgate, hdecided, happroved, .refl _⟩

/-- Behind the gate a run implements the plan that its last review approved, with a voice
for each of its creators once the voices are finalized. -/
theorem production_after_approval (hreview : cfg.reviewPlan = true) (events : List BatchEvent)
    (hnode : (BatchRun.after cfg events).node.produces = true) :
    PassedGate cfg events (BatchRun.after cfg events).state ∧
      ((BatchRun.after cfg events).node = .finalizeVoices ∨
        ∀ creator ∈ (BatchRun.after cfg events).state.roster,
          (orNone (field? creator "voice_ref")).isSome = true) :=
  ⟨passedGate_after hreview events hnode, ((gated_after hreview events).behind hnode).2⟩

end Run

theorem undesigned_nil : Undesigned [] := ⟨rfl, rfl⟩

def builtCreator (_ : Nat) : Option BuiltCreator :=
  some { fields := [], undesigned := undesigned_nil }

def selectBoth : Json :=
  .obj [("action", .str "approve"), ("creators", .arr [
    .obj [("id", .str "creator-0"), ("selected_voice_candidate_id", .str "v-1")],
    .obj [("id", .str "creator-1"), ("selected_voice_candidate_id", .str "v-1")]])]

def reviewedBatch : List BatchEvent :=
  [.concepts [[("id", .str "c-0")]],
    .scripts fun _ => { script := "HOOK: hi", scriptDraft := [] },
    .creatorProfiles { first := plainProfile, second := plainProfile
                       assignments := [{ conceptId := "c-0", creatorIndex := ⟨0, Nat.two_pos⟩ }] },
    .roster none builtCreator,
    .voiceCandidates fun _ _ => some sampleDesign,
    .review selectBoth,
    .finalizeVoices acceptedVoice]

theorem reviewedBatch_passes_gate :
    (BatchRun.after { reviewPlan := true } reviewedBatch).node.produces = true ∧
    PassedGate { reviewPlan := true } reviewedBatch
      (BatchRun.after { reviewPlan := true } reviewedBatch).state :=
  ⟨by decide +kernel, (production_after_approval rfl reviewedBatch (by decide +kernel)).1⟩

end Orchestrator
