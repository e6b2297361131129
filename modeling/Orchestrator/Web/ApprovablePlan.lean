import Orchestrator.Nodes.ReviewFrame
import Orchestrator.Web.ReviewRequest

/-!
Which plans a human can still approve.

A reviewer who keeps the creators can select among their candidates and ask for other
voices. That ends in an approval exactly if there are two creators, each with
candidates on the table or with a re-roll left.
-/

namespace Orchestrator
open Json Outcome

/-- There are two creators to select voices for, or to ask for other voices of. -/
def Approvable (cfg : BatchConfig) (st : BatchState) : Prop :=
  st.roster.length = 2 ∧ ∀ creator ∈ st.roster,
    candidateIds creator ≠ [] ∨ rerollCount creator < cfg.maxRerolls

/-- The endpoint accepts the request for whatever the gate shows of the plan. -/
structure AcceptedAt (checkNetloc : String → Except String Unit) (st : BatchState)
    (req : ReviewV2Request) : Prop where
  valid : req.Valid
  accepted : ∀ payload, publicGatePayload checkNetloc (reviewInterrupt st) = .ok payload →
    validatedReviewResolution req payload = .ok req.resolution

/-- A step of a review that keeps the creators: an accepted request, or the voices
that the provider designs. -/
def Negotiates (checkNetloc : String → Except String Unit)
    (design : Dict → Int → Option StoredDesign) (r : BatchRun) : BatchEvent → Prop
  | .review decision => ∃ req, AcceptedAt checkNetloc r.state req ∧ decision = .obj req.resolution
  | .voiceCandidates d => d = design
  | _ => False

section Stuck
variable {cfg : BatchConfig} {st st' : BatchState}

theorem candidateIds_review {creator update out : Dict}
    (h : reviewedCreator creator update = .ok out) :
    candidateIds out = candidateIds creator ∨ candidateIds out = [] := by
  rcases reviewedCreator_ok h with ⟨-, rfl⟩ | ⟨-, rfl⟩
  · right
    simp [candidateIds, voiceCandidates, discardCandidates, dictsOf]
  · exact Or.inl candidateIds_merged

theorem Approvable.of_review (hreviewed : RosterReviewed st.roster st'.roster)
    (h : Approvable cfg st') : Approvable cfg st := by
  unfold Approvable at h ⊢
  rcases hreviewed with heq | ⟨hlength, hreviewed⟩
  · rwa [heq] at h
  · refine ⟨hlength, fun creator hcreator => ?_⟩
    obtain ⟨out, hout, update, hupdate⟩ := exists_right hreviewed hcreator
    rcases h.2 out hout with hcandidates | hlimit
    · rcases candidateIds_review hupdate with hsame | hnone
      · exact Or.inl (hsame ▸ hcandidates)
      · exact absurd hnone hcandidates
    · exact Or.inr (reviewedCreator_rerollCount hupdate ▸ hlimit)

/-- A re-roll spends what made the plan approvable. -/
theorem Approvable.of_reroll {design : Dict → Int → Option StoredDesign}
    (hrequested : requestedVoices st ≠ none) (hdesign : nodeVoiceCandidates cfg design st = .ok st')
    (h : Approvable cfg st') : Approvable cfg st := by
  obtain ⟨-, designed, hdesigned, rfl⟩ := nodeVoiceCandidates_ok hdesign
  obtain ⟨ids, hids⟩ := Option.ne_none_iff_exists'.mp hrequested
  obtain ⟨hlength, hcreators⟩ := h
  refine ⟨by rwa [List.length_map, ← hdesigned.length_eq] at hlength, fun creator hcreator => ?_⟩
  obtain ⟨out, hout, hturn⟩ := exists_right hdesigned hcreator
  rw [hids] at hturn
  rcases voiceTurn_some hturn with ⟨-, rfl⟩ | ⟨-, hlimit, -⟩
  · exact hcreators creator (List.mem_map.mpr ⟨_, hout, rfl⟩)
  · exact Or.inr hlimit

theorem approvable_of_selected (hlength : st.roster.length = 2)
    (h : ∀ creator ∈ st.roster, hasSelection creator = true) : Approvable cfg st := by
  refine ⟨hlength, fun creator hcreator => Or.inl fun hnone => ?_⟩
  have hselected := h creator hcreator
  simp [hasSelection, hnone] at hselected

/-- Where a review is that cannot end in an approval. -/
structure Stuck (cfg : BatchConfig) (r : BatchRun) : Prop where
  planned : Planned cfg r
  gated : Gated cfg r
  dead : ¬ Approvable cfg r.state
  unapproved : r.node.produces = false
  reroll : r.node = .voiceCandidates → requestedVoices r.state ≠ none

variable {checkNetloc : String → Except String Unit}
  {design : Dict → Int → Option StoredDesign}

theorem Stuck.review (hreview : cfg.reviewPlan = true) {r : BatchRun} (h : Stuck cfg r)
    (hgate : r.node = .review) {decision : Json}
    (hplanned : Planned cfg ⟨routeAfterReview st', st'⟩)
    (hdecided : nodeReview cfg decision r.state = .ok st') :
    Stuck cfg ⟨routeAfterReview st', st'⟩ := by
  obtain ⟨node, st⟩ := r
  obtain rfl : node = .review := hgate
  have hcomplete : Complete cfg st := h.planned
  have hopen : OpenPlan cfg st := h.gated
  have houtcome := nodeReview_ok hdecided
  have hdead : ¬ Approvable cfg st' := fun hlive => h.dead (.of_review houtcome.roster hlive)
  have hgated : Gated cfg ⟨routeAfterReview st', st'⟩ :=
    Gated.review hreview hcomplete.cast hopen hdecided
  obtain ⟨fields, -, happroved | ⟨target, htarget, hrequested⟩⟩ := nodeReview_cases hreview hdecided
  · have hplan := hopen.approve hcomplete.cast happroved
    have hlength : st'.roster.length = 2 := by
      rw [← List.length_map (f := idText), hplan.pair]
      rfl
    exact absurd (approvable_of_selected hlength hplan.selected) hdead
  · obtain ⟨roster, concepts, -, -, heq⟩ := requestRevision_ok hrequested
    have hpending : st'.reviewApproved = false := congrArg BatchState.reviewApproved heq
    have hrequest := congrArg BatchState.revisionRequest heq
    rcases routeAfterReview_request hpending hrequest (targetOf_some htarget) with
      ⟨hroute | hroute | hroute, -⟩ | ⟨hroute, hvoices⟩
    · exact ⟨hplanned, hgated, hdead, by simp [hroute, BatchNode.produces],
        fun hvoices => by simp [hroute] at hvoices⟩
    · exact ⟨hplanned, hgated, hdead, by simp [hroute, BatchNode.produces],
        fun hvoices => by simp [hroute] at hvoices⟩
    · exact ⟨hplanned, hgated, hdead, by simp [hroute, BatchNode.produces],
        fun hvoices => by simp [hroute] at hvoices⟩
    · refine ⟨hplanned, hgated, hdead, by simp [hroute, BatchNode.produces], fun _ => ?_⟩
      simp only at hvoices
      simp [requestedVoices, hrequest, hvoices]

theorem Stuck.step (hreview : cfg.reviewPlan = true) (r : BatchRun) (e : BatchEvent)
    (h : Stuck cfg r) (hmove : Negotiates checkNetloc design r e) :
    Stuck cfg (BatchRun.step cfg e r).2 := by
  have hplanned := Planned.step e r h.planned
  rcases BatchRun.step_cases cfg e r with hstays | hadvance
  · rwa [hstays]
  · generalize (BatchRun.step cfg e r).2 = r' at hplanned hadvance ⊢
    cases hadvance with
    | review hdecided => exact h.review hreview rfl hplanned hdecided
    | voiceCandidates hdesign =>
        exact ⟨hplanned, h.gated.advance hreview h.planned (.voiceCandidates hdesign),
          fun hlive => h.dead (.of_reroll (h.reroll rfl) hdesign hlive), rfl,
          fun hnode => by cases hnode⟩
    | _ => exact hmove.elim

end Stuck

/-- Select the first candidate of everyone. -/
def selectFirst (roster : List Dict) : ReviewV2Request where
  action := "approve"
  creators := some (roster.map fun creator =>
    { id := idText creator, selectedVoiceCandidateId := (candidateIds creator).head? })

/-- Ask for voices for everyone who has no candidates. -/
def askForVoices (roster : List Dict) : ReviewV2Request where
  action := "regenerate"
  target := some "voices"
  ids := (roster.filter fun creator => candidateIds creator = []).map idText

section Select
variable {roster : List Dict}

theorem preservesIds_of_ids {existing updates : List Dict}
    (hids : updates.map idText = existing.map idText) (hnodup : (existing.map idText).Nodup)
    (hne : ∀ fields ∈ existing, idText fields ≠ "") : preservesIds existing updates = true := by
  unfold preservesIds
  rw [hids]
  simp only [ne_eq, hnodup, decide_true, Bool.and_true, Bool.and_eq_true, List.all_eq_true,
    decide_eq_true_eq]
  exact ⟨⟨by simpa using hne, fun _ hid => hid⟩, fun _ hid => hid⟩

/-- The update for a creator is the one made from it. -/
theorem updateFor_map {f : Dict → Dict}
    (hf : ∀ creator ∈ roster, idText (f creator) = idText creator)
    (hnodup : (roster.map idText).Nodup) {creator : Dict} (hcreator : creator ∈ roster) :
    updateFor (roster.map f) creator = f creator := by
  have hfind : (roster.map f).find? (fun update => idText update = idText creator) =
      some (f creator) := by
    induction roster with
    | nil => cases hcreator
    | cons first roster ih =>
        obtain ⟨hnew, hrest⟩ := List.nodup_cons.mp hnodup
        obtain ⟨hfirst, hothers⟩ := List.forall_mem_cons.mp hf
        rw [List.map_cons, List.find?_cons]
        rcases List.mem_cons.mp hcreator with rfl | hcreator
        · simp [hfirst]
        · have hne : idText (f first) ≠ idText creator := fun heq =>
            hnew (List.mem_map.mpr ⟨creator, hcreator, (hfirst.symm.trans heq).symm⟩)
          simpa [hne] using ih hothers hrest hcreator
  rw [updateFor, hfind]
  rfl

/-- What a selection dumps to. -/
def selectionUpdate (id selected : String) : Dict :=
  [("id", .str id), ("selected_voice_candidate_id", .str selected)]

theorem reviewedCreator_selects {creator : Dict} {id selected : String} (hne : selected ≠ "")
    (hmem : selected ∈ candidateIds creator) :
    ∃ out, reviewedCreator creator (selectionUpdate id selected) = .ok out ∧
      hasSelection out = true := by
  have hbrief : briefChanged creator (selectionUpdate id selected) = false := by
    simp [briefChanged, selectionUpdate, hasField]
  have hselected : selectedId (selectionUpdate id selected) = selected := by
    simp [selectedId, selectionUpdate, hne]
  refine ⟨merge creator (editable editableCreatorFields (selectionUpdate id selected)), ?_, ?_⟩
  · unfold reviewedCreator
    dsimp only
    rw [if_neg (by simp [hbrief]), if_neg]
    rw [hselected]
    exact fun h => h.2.2 hmem
  · unfold hasSelection
    rw [candidateIds_merged, selectedId_merged (by simp [selectionUpdate]), if_pos (by
      simp [hasField, selectionUpdate]), hselected]
    simp [hne, hmem]

/-- Everyone has a candidate to select. -/
def Offered (roster : List Dict) : Prop :=
  ∀ creator ∈ roster, ∃ selected, (candidateIds creator).head? = some selected ∧ selected ≠ ""

theorem selectFirst_applies (hlength : roster.length = 2) (hnodup : (roster.map idText).Nodup)
    (hne : ∀ creator ∈ roster, idText creator ≠ "") (hoffered : Offered roster) :
    ∃ out, ReviewV2Request.applyGiven applyReviewCreatorUpdates roster
        (selectFirst roster).creatorUpdates = .ok out ∧ validateVoiceSelections out = .ok () := by
  generalize hupdate : (fun creator : Dict => ({ id := idText creator, selectedVoiceCandidateId :=
    (candidateIds creator).head? } : ReviewCreatorPatch).modelDump) = update
  have hupdates : (selectFirst roster).creatorUpdates = some (roster.map update) := by
    simp [ReviewV2Request.creatorUpdates, selectFirst, ← hupdate]
  have hselects : ∀ creator ∈ roster, ∃ selected ∈ candidateIds creator, selected ≠ "" ∧
      update creator = selectionUpdate (idText creator) selected := by
    intro creator hcreator
    obtain ⟨selected, hhead, hselected⟩ := hoffered creator hcreator
    refine ⟨selected, List.mem_of_head? hhead, hselected, ?_⟩
    rw [← hupdate]
    simp [ReviewCreatorPatch.modelDump, given, hhead, selectionUpdate]
  have hids : ∀ creator ∈ roster, idText (update creator) = idText creator := by
    intro creator hcreator
    obtain ⟨selected, -, -, hdump⟩ := hselects creator hcreator
    rw [hdump]
    simp [idText, selectionUpdate]
  have hturns : ∀ creator ∈ roster, ∃ out,
      reviewedCreator creator (updateFor (roster.map update) creator) = .ok out ∧
        hasSelection out = true := by
    intro creator hcreator
    obtain ⟨selected, hmem, hselected, hdump⟩ := hselects creator hcreator
    rw [updateFor_map hids hnodup hcreator, hdump]
    exact reviewedCreator_selects hselected hmem
  obtain ⟨out, hout⟩ := mapM_ok_of_forall fun creator hcreator =>
    (hturns creator hcreator).imp fun _ h => h.1
  refine ⟨out, ?_, ?_⟩
  · rw [hupdates]
    change applyReviewCreatorUpdates roster (roster.map update) = _
    unfold applyReviewCreatorUpdates
    have hpreserves : preservesIds roster (roster.map update) = true :=
      preservesIds_of_ids (by rw [List.map_map]; exact List.map_congr_left hids) hnodup hne
    have hfields : checkFields "creator" reviewCreatorFields (roster.map update) = .ok () := by
      unfold checkFields
      have hknown : (roster.map update).find? (fun update =>
          unknownFields reviewCreatorFields update ≠ []) = none := by
        rw [List.find?_eq_none]
        intro fields hfields
        obtain ⟨creator, hcreator, rfl⟩ := List.mem_map.mp hfields
        obtain ⟨selected, -, -, hdump⟩ := hselects creator hcreator
        rw [hdump]
        simp [unknownFields, selectionUpdate, reviewCreatorFields]
      rw [hknown]
    rw [if_pos ⟨hlength, hpreserves⟩, hfields, ok_bind, hout]
  · rw [validateVoiceSelections_ok_iff]
    intro creator hcreator
    obtain ⟨before, hbefore, hturn⟩ := exists_left (forall₂_of_mapM hout) hcreator
    obtain ⟨other, hother, hselected⟩ := hturns before hbefore
    rw [hturn] at hother
    cases hother
    exact hselected

end Select

section Requests
variable {cfg : BatchConfig} {st : BatchState} {checkNetloc : String → Except String Unit}

theorem VoiceRecord.Describes.candidateIds_eq {v : VoiceRecord} {creator : Dict}
    (h : v.Describes creator) :
    candidateIds creator = v.current.toList.flatMap fun d => d.candidates.map (·.candidateId) := by
  have hid : ∀ c : StoredCandidate,
      textOr (field? c.modelDump "candidate_id") "" = c.candidateId := fun c => by
    simp [StoredCandidate.modelDump]
  rw [candidateIds, h.voiceCandidates_eq, List.map_flatMap]
  refine List.flatMap_congr fun d _ => ?_
  rw [List.map_map]
  exact List.map_congr_left fun c _ => hid c

theorem Voiced.candidate_fits {creator : Dict} (h : Voiced creator) {id : String}
    (hid : id ∈ candidateIds creator) : fitsId id = true := by
  obtain ⟨v, hdescribes, -⟩ := h
  rw [hdescribes.candidateIds_eq] at hid
  obtain ⟨d, -, hid⟩ := List.mem_flatMap.mp hid
  obtain ⟨c, -, rfl⟩ := List.mem_map.mp hid
  exact decide_eq_true c.id_length

theorem ne_of_fitsId {id : String} (h : fitsId id = true) : id ≠ "" := by
  rintro rfl
  cases h

theorem Complete.offered (hcomplete : Complete cfg st)
    (h : ∀ creator ∈ st.roster, candidateIds creator ≠ []) : Offered st.roster := by
  intro creator hcreator
  obtain ⟨selected, rest, heq⟩ := List.exists_cons_of_ne_nil (h creator hcreator)
  refine ⟨selected, by rw [heq]; rfl, ne_of_fitsId ?_⟩
  exact (hcomplete.voiced creator hcreator).candidate_fits (heq ▸ List.mem_cons_self)

/-- A request that is accepted of all that looks like the plan. -/
theorem acceptedAt_of_checked (hcomplete : Complete cfg st) {req : ReviewV2Request}
    (hvalid : req.Valid) (hchecked : ∀ shown, List.Forall₂ SameToReview shown st.roster →
      req.checkAgainst st.concepts shown = .ok ()) : AcceptedAt checkNetloc st req := by
  refine ⟨hvalid, fun payload hpayload => ?_⟩
  obtain ⟨shown, hconcepts, hcreators, hsame⟩ := gate_shows_plan hcomplete hpayload
  unfold validatedReviewResolution
  rw [hconcepts, hcreators]
  dsimp only
  rw [dictsOf_map_obj, dictsOf_map_obj, hchecked shown hsame]

theorem profileId_fits {creator : Dict} (hpair : st.roster.map idText = profileIds)
    (hcreator : creator ∈ st.roster) : fitsId (idText creator) = true := by
  have hid := List.mem_map_of_mem (f := idText) hcreator
  rw [hpair] at hid
  simp only [profileIds, List.mem_cons, List.not_mem_nil, or_false] at hid
  rcases hid with hid | hid <;> rw [hid] <;> decide

theorem selectFirst_accepted (checkNetloc : String → Except String Unit)
    (hcomplete : Complete cfg st) (hlength : st.roster.length = 2)
    (hcandidates : ∀ creator ∈ st.roster, candidateIds creator ≠ []) :
    AcceptedAt checkNetloc st (selectFirst st.roster) ∧
    ∃ st', approvePlan (selectFirst st.roster).resolution st = .ok st' := by
  have hpair : st.roster.map idText = profileIds := (hcomplete.cast.ids_of_two hlength).2
  obtain ⟨out, hout, hvalid⟩ := selectFirst_applies hlength hcomplete.cast.nodup
    (fun _ hcreator => hcomplete.cast.idText_ne hcreator) (hcomplete.offered hcandidates)
  constructor
  · refine acceptedAt_of_checked hcomplete ⟨by simp [selectFirst], ?_, by simp [selectFirst],
      by simp [selectFirst, fits], by simp [selectFirst], by simp [selectFirst], by
        simp [ReviewV2Request.validateAction, selectFirst]⟩ fun shown hsame => ?_
    · intro patches hpatches p hp
      obtain rfl := Option.mem_some_iff.mp hpatches
      obtain ⟨creator, hcreator, rfl⟩ := List.mem_map.mp hp
      have hid := profileId_fits hpair hcreator
      have hselected : (candidateIds creator).head?.all fitsId = true := by
        rw [Option.all_eq_true]
        exact fun id hhead => (hcomplete.voiced creator hcreator).candidate_fits
          (List.mem_of_head? hhead)
      simp [ReviewCreatorPatch.wellFormed, fits, hid, hselected]
    · have hback : List.Forall₂ SameToReview st.roster shown :=
        hsame.flip.imp fun _ _ h => h.symm
      obtain ⟨reviewed, hreviewed, hrelated⟩ := applyGiven_same hback hout
      unfold ReviewV2Request.checkAgainst
      rw [if_pos (by rfl)]
      change (ReviewV2Request.applyGiven applyReviewCreatorUpdates shown _ >>= _) = _
      rw [hreviewed, ok_bind, validateVoiceSelections_same hrelated hvalid]
  · refine ⟨{ st with
      roster := out, concepts := st.concepts, reviewApproved := true, revisionRequest := none }, ?_⟩
    unfold approvePlan
    rw [ReviewV2Request.resolution_creators, ReviewV2Request.resolution_concepts,
      applyIfList_given, applyIfList_given, hout, ok_bind, hvalid, ok_bind]
    rfl

theorem askForVoices_valid (hcomplete : Complete cfg st) (hlength : st.roster.length = 2)
    (hids : (askForVoices st.roster).ids ≠ []) : (askForVoices st.roster).Valid := by
  have hnodup : (askForVoices st.roster).ids.Nodup :=
    hcomplete.cast.nodup.sublist (List.filter_sublist.map idText)
  have hfew : (askForVoices st.roster).ids.length ≤ 48 := by
    have hle := List.length_filter_le (fun creator => candidateIds creator = []) st.roster
    change ((st.roster.filter _).map idText).length ≤ 48
    rw [List.length_map]
    omega
  refine ⟨by simp [askForVoices], by simp [askForVoices], hfew, by simp [askForVoices, fits],
    by simp [askForVoices], by simp [askForVoices], ?_⟩
  unfold ReviewV2Request.validateAction
  rw [if_neg (by simp [askForVoices]), if_pos (by rfl),
    if_neg (by simp [askForVoices, reviewTargets]), if_neg (by simp [hids, hnodup]),
    if_neg (by simp [askForVoices]),
    if_neg (by simp [askForVoices])]

theorem askForVoices_checked (hcomplete : Complete cfg st)
    (hids : (askForVoices st.roster).ids ≠ []) {shown : List Dict}
    (hsame : List.Forall₂ SameToReview shown st.roster) :
    (askForVoices st.roster).checkAgainst st.concepts shown = .ok () := by
  have havailable : ∀ id ∈ (askForVoices st.roster).ids,
      id ∈ ReviewV2Request.availableIds shown := by
    intro id hid
    obtain ⟨creator, hcreator, rfl⟩ := List.mem_map.mp hid
    have hmem : creator ∈ st.roster := (List.mem_filter.mp hcreator).1
    obtain ⟨other, hother, hlike⟩ := exists_left hsame hmem
    obtain ⟨value, hvalue, -⟩ := orNone_of_idText
      (hlike.id ▸ hcomplete.cast.idText_ne hmem : idText other ≠ "")
    exact List.mem_map.mpr ⟨other, List.mem_filter.mpr ⟨hother, by simp [hvalue]⟩, hlike.id⟩
  unfold ReviewV2Request.checkAgainst
  rw [if_neg (by simp [askForVoices]), if_pos hids]
  change (if ∃ id ∈ (askForVoices st.roster).ids, id ∉ ReviewV2Request.availableIds shown then _
    else _) = _
  rw [if_neg fun ⟨id, hid, hnot⟩ => hnot (havailable id hid)]
  rfl

/-- The request for voices goes to the node that designs them, with the creators as
they are. -/
theorem askForVoices_resumes (hreview : cfg.reviewPlan = true) (hcomplete : Complete cfg st)
    (hids : (askForVoices st.roster).ids ≠ []) :
    ∃ st', nodeReview cfg (.obj (askForVoices st.roster).resolution) st = .ok st' ∧
      routeAfterReview st' = .voiceCandidates ∧
      requestedVoices st' = some (askForVoices st.roster).ids ∧ st'.roster = st.roster := by
  have hself : List.Forall₂ SameToReview st.roster st.roster :=
    List.forall₂_same.mpr fun _ _ => ⟨rfl, rfl, rfl, rfl⟩
  have haction : (askForVoices st.roster).action = "regenerate" := rfl
  have htarget : (askForVoices st.roster).target = some "voices" := rfl
  obtain ⟨-, st', hrequested⟩ := regenerate_accepted haction hids (by decide) htarget
    (fun _ => rfl) (fun _ => rfl) hself (askForVoices_checked hcomplete hids hself)
  obtain ⟨hpending, hrequest, -⟩ := requestRevision_state haction hrequested
  have hroster : st'.roster = st.roster := by
    obtain ⟨roster, concepts, hroster, -, rfl⟩ := requestRevision_ok hrequested
    rw [if_pos (by decide), ReviewV2Request.resolution_creators] at hroster
    cases hroster
    rfl
  refine ⟨st', ?_, ?_, ?_, hroster⟩
  · rw [nodeReview_regenerates hreview (ReviewV2Request.resolution_action _)
      (targetOf_resolution haction (by decide) htarget), hrequested]
  · simp [routeAfterReview, hpending, hrequest]
  · simp [requestedVoices, hrequest, PyStr.str, Function.comp_def]

end Requests

section Ends
variable {cfg : BatchConfig} {checkNetloc : String → Except String Unit}
  {design : Dict → Int → Option StoredDesign}

/-- With candidates for both creators one request ends the review. -/
theorem approves_at_once (checkNetloc : String → Except String Unit)
    (design : Dict → Int → Option StoredDesign) (hreview : cfg.reviewPlan = true) {st : BatchState}
    (hcomplete : Complete cfg st) (hlength : st.roster.length = 2)
    (hcandidates : ∀ creator ∈ st.roster, candidateIds creator ≠ []) :
    ∃ moves, Machine.Guarded (BatchRun.step cfg) (Negotiates checkNetloc design)
        ⟨.review, st⟩ moves ∧
      (Machine.run (BatchRun.step cfg) ⟨.review, st⟩ moves).node = .finalizeVoices := by
  obtain ⟨haccepted, st', happroved⟩ :=
    selectFirst_accepted checkNetloc hcomplete hlength hcandidates
  refine ⟨[.review (.obj (selectFirst st.roster).resolution)], ?_, ?_⟩
  · exact (Machine.guarded_cons _).mpr ⟨⟨_, haccepted, rfl⟩, fun _ h => absurd h List.not_mem_nil⟩
  · have hreviewed : nodeReview cfg (.obj (selectFirst st.roster).resolution) st =
        approvePlan (selectFirst st.roster).resolution st :=
      nodeReview_approves hreview (ReviewV2Request.resolution_action _)
    have hplan : st'.reviewApproved = true := by
      obtain ⟨roster, concepts, -, -, -, rfl⟩ := approvePlan_ok happroved
      rfl
    change (BatchRun.proceed _ (nodeReview cfg _ st) routeAfterReview).2.node = _
    rw [hreviewed, happroved]
    change routeAfterReview st' = _
    rw [routeAfterReview, if_pos hplan]

/-- After the voices that were asked for everyone has candidates. -/
theorem askForVoices_designed {st st' : BatchState}
    (hnames : ∀ creator ∈ st.roster, idText creator ≠ "")
    (hrequested : requestedVoices st = some (askForVoices st.roster).ids)
    (hdesign : nodeVoiceCandidates cfg design st = .ok st') :
    st'.roster.length = st.roster.length ∧
      ∀ creator ∈ st'.roster, candidateIds creator ≠ [] := by
  obtain ⟨-, designed, hdesigned, rfl⟩ := nodeVoiceCandidates_ok hdesign
  refine ⟨by rw [List.length_map, hdesigned.length_eq], fun out hout => ?_⟩
  obtain ⟨turn, hturn, rfl⟩ := List.mem_map.mp hout
  obtain ⟨creator, hcreator, hvoices⟩ := exists_left hdesigned hturn
  rw [hrequested] at hvoices
  rcases voiceTurn_some hvoices with ⟨hnot, rfl⟩ | ⟨-, -, d, rfl⟩
  · rw [voiceCreatorId_eq (hnames creator hcreator)] at hnot
    intro hnone
    exact hnot (List.mem_map_of_mem (List.mem_filter.mpr ⟨hcreator, decide_eq_true hnone⟩))
  · exact offerVoices_candidateIds d _ _

/-- Otherwise one request for voices comes before it. -/
theorem approves_after_reroll (hreview : cfg.reviewPlan = true)
    (hanswers : ∀ creator rerolls, (design creator rerolls).isSome = true) {st : BatchState}
    (hcomplete : Complete cfg st) (hlength : st.roster.length = 2)
    (hcreators : ∀ creator ∈ st.roster,
      candidateIds creator ≠ [] ∨ rerollCount creator < cfg.maxRerolls)
    (hnone : ¬ ∀ creator ∈ st.roster, candidateIds creator ≠ []) :
    ∃ moves, Machine.Guarded (BatchRun.step cfg) (Negotiates checkNetloc design)
        ⟨.review, st⟩ moves ∧
      (Machine.run (BatchRun.step cfg) ⟨.review, st⟩ moves).node = .finalizeVoices := by
  have hids : (askForVoices st.roster).ids ≠ [] := by
    intro hnil
    refine hnone fun creator hcreator hempty => ?_
    have hmem : idText creator ∈ (askForVoices st.roster).ids :=
      List.mem_map_of_mem (List.mem_filter.mpr ⟨hcreator, decide_eq_true hempty⟩)
    rw [hnil] at hmem
    cases hmem
  have hlimits : ∀ creator ∈ st.roster, idText creator ∈ (askForVoices st.roster).ids →
      rerollCount creator < cfg.maxRerolls := by
    intro creator hcreator hid
    obtain ⟨other, hother, hsame⟩ := List.mem_map.mp hid
    obtain ⟨hmem, hempty⟩ := List.mem_filter.mp hother
    obtain rfl := List.inj_on_of_nodup_map hcomplete.cast.nodup hmem hcreator hsame
    exact (hcreators other hcreator).resolve_left (not_not.mpr (of_decide_eq_true hempty))
  obtain ⟨st', hreviewed, hroute, hrequested, hroster⟩ :=
    askForVoices_resumes hreview hcomplete hids
  have hcasting : Planned cfg ⟨routeAfterReview st', st'⟩ :=
    (hcomplete.review (nodeReview_ok hreviewed)).route (nodeReview_ok hreviewed)
  rw [hroute] at hcasting
  have hnames : ∀ creator ∈ st'.roster, idText creator ≠ "" :=
    fun creator hcreator => (Casting.cast hcasting).idText_ne hcreator
  obtain ⟨st'', hdesign⟩ := (nodeVoiceCandidates_rerolls hanswers hrequested hids
    (fun id hid => hroster ▸ (List.filter_sublist.map idText).subset hid) hnames).mpr
      (by rw [hroster]; exact hlimits)
  obtain ⟨hlength', hcandidates⟩ :=
    askForVoices_designed hnames (hroster.symm ▸ hrequested) hdesign
  obtain ⟨moves, hmoves, hends⟩ := approves_at_once checkNetloc design hreview
    (Casting.design hcasting hdesign) (hlength'.trans (hroster ▸ hlength)) hcandidates
  have hfirst : (BatchRun.step cfg (.review (.obj (askForVoices st.roster).resolution))
      ⟨.review, st⟩).2 = ⟨.voiceCandidates, st'⟩ := by
    change (BatchRun.proceed _ (nodeReview cfg _ st) routeAfterReview).2 = _
    rw [hreviewed, ← hroute]
    rfl
  have hsecond : (BatchRun.step cfg (.voiceCandidates design) ⟨.voiceCandidates, st'⟩).2 =
      ⟨.review, st''⟩ := by
    change (BatchRun.proceed _ (nodeVoiceCandidates cfg design st') _).2 = _
    rw [hdesign]
    rfl
  refine ⟨.review (.obj (askForVoices st.roster).resolution) :: .voiceCandidates design :: moves,
    ?_, ?_⟩
  · rw [Machine.guarded_cons, hfirst, Machine.guarded_cons, hsecond]
    refine ⟨⟨_, ?_, rfl⟩, rfl, hmoves⟩
    exact acceptedAt_of_checked hcomplete (askForVoices_valid hcomplete hlength hids)
      fun _ hsame => askForVoices_checked hcomplete hids hsame
  · rw [Machine.run, hfirst, Machine.run, hsecond, hends]

/-- At the gate of a run a reviewer who keeps the creators gets to an approval, whatever
voices are designed, exactly if there are two and each has candidates or a re-roll left. -/
theorem approvable_iff (hreview : cfg.reviewPlan = true) (events : List BatchEvent)
    (hgate : (BatchRun.after cfg events).node = .review)
    (hanswers : ∀ creator rerolls, (design creator rerolls).isSome = true) :
    (∃ moves, Machine.Guarded (BatchRun.step cfg) (Negotiates checkNetloc design)
        (BatchRun.after cfg events) moves ∧
      (Machine.run (BatchRun.step cfg) (BatchRun.after cfg events) moves).node =
        .finalizeVoices) ↔
      Approvable cfg (BatchRun.after cfg events).state := by
  have hplanned := planned_after cfg events
  have hgated := gated_after hreview events
  generalize BatchRun.after cfg events = r at *
  obtain ⟨node, st⟩ := r
  obtain rfl : node = .review := hgate
  constructor
  · rintro ⟨moves, hmoves, hends⟩
    by_contra hdead
    have hstuck := Machine.run_invariant_of_guarded (BatchRun.step cfg) (Stuck.step hreview)
      ⟨hplanned, hgated, hdead, rfl, fun h => by cases h⟩ hmoves
    have hopen := hstuck.unapproved
    rw [hends] at hopen
    cases hopen
  · rintro ⟨hlength, hcreators⟩
    have hcomplete : Complete cfg st := hplanned
    by_cases hall : ∀ creator ∈ st.roster, candidateIds creator ≠ []
    · exact approves_at_once checkNetloc design hreview hcomplete hlength hall
    · exact approves_after_reroll hreview hanswers hcomplete hlength hcreators hall

end Ends

/-- The two creators of the reviewed batch have their candidates. -/
theorem reviewedBatch_approvable :
    ∃ moves, Machine.Guarded (BatchRun.step { reviewPlan := true })
        (Negotiates (fun _ => .ok ()) fun _ _ => some sampleDesign)
        (BatchRun.after { reviewPlan := true } (reviewedBatch.take 5)) moves ∧
      (Machine.run (BatchRun.step { reviewPlan := true })
        (BatchRun.after { reviewPlan := true } (reviewedBatch.take 5)) moves).node =
          .finalizeVoices :=
  (approvable_iff rfl (reviewedBatch.take 5) (by decide +kernel) fun _ _ => rfl).mpr
    ⟨by decide +kernel, by decide +kernel⟩

end Orchestrator
