import Orchestrator.Lib.Outcome
import Orchestrator.Nodes.VoiceRecord

/-!
What a node that returned did to the state.
-/

namespace Orchestrator
open Json Outcome

section Review
variable {cfg : BatchConfig} {st st' : BatchState} {decision : Dict}

theorem applyReviewConceptUpdates_ok {concepts updates out : List Dict}
    (h : applyReviewConceptUpdates concepts updates = .ok out) :
    out = concepts.map fun concept =>
      merge concept (editable editableConceptFields (updateFor updates concept)) := by
  unfold applyReviewConceptUpdates at h
  split at h
  · obtain ⟨-, -, heq⟩ := ok_of_bind h
    cases heq
    rfl
  · cases h

theorem applyReviewCreatorUpdates_ok {roster updates out : List Dict}
    (h : applyReviewCreatorUpdates roster updates = .ok out) :
    roster.length = 2 ∧ List.Forall₂ (fun creator reviewed =>
      reviewedCreator creator (updateFor updates creator) = .ok reviewed) roster out := by
  unfold applyReviewCreatorUpdates at h
  split at h
  · rename_i hids
    obtain ⟨-, -, hreviewed⟩ := ok_of_bind h
    exact ⟨hids.1, forall₂_of_mapM hreviewed⟩
  · cases h

theorem applyIfList_ok {apply : List Dict → List Dict → Except StageError (List Dict)}
    {existing out : List Dict} {value : Option Json}
    (h : applyIfList apply existing value = .ok out) :
    out = existing ∨ ∃ updates, apply existing updates = .ok out := by
  unfold applyIfList at h
  split at h
  · obtain ⟨updates, -, hupdates⟩ := ok_of_bind h
    exact Or.inr ⟨updates, hupdates⟩
  · cases h
    exact Or.inl rfl

/-- The roster after a review: untouched, or two creators each taken with an update. -/
def RosterReviewed (roster reviewed : List Dict) : Prop :=
  reviewed = roster ∨ roster.length = 2 ∧ List.Forall₂ (fun creator reviewed =>
    ∃ update, reviewedCreator creator update = .ok reviewed) roster reviewed

/-- The concepts after a review. -/
def ConceptsReviewed (concepts reviewed : List Dict) : Prop :=
  reviewed = concepts ∨ ∃ update : Dict → Dict, reviewed = concepts.map fun concept =>
    merge concept (editable editableConceptFields (update concept))

theorem rosterReviewed_of_applyIfList {roster out : List Dict} {value : Option Json}
    (h : applyIfList applyReviewCreatorUpdates roster value = .ok out) :
    RosterReviewed roster out := by
  rcases applyIfList_ok h with rfl | ⟨updates, hupdates⟩
  · exact Or.inl rfl
  · obtain ⟨hlength, hreviewed⟩ := applyReviewCreatorUpdates_ok hupdates
    exact Or.inr ⟨hlength, hreviewed.imp fun _ _ h => ⟨_, h⟩⟩

theorem conceptsReviewed_of_applyIfList {concepts out : List Dict} {value : Option Json}
    (h : applyIfList applyReviewConceptUpdates concepts value = .ok out) :
    ConceptsReviewed concepts out := by
  rcases applyIfList_ok h with rfl | ⟨updates, hupdates⟩
  · exact Or.inl rfl
  · exact Or.inr ⟨updateFor updates, applyReviewConceptUpdates_ok hupdates⟩

/-- A review that returned: what it left alone, and where the run goes next. -/
structure ReviewOutcome (st st' : BatchState) : Prop where
  roster : RosterReviewed st.roster st'.roster
  concepts : ConceptsReviewed st.concepts st'.concepts
  results : st'.results = st.results
  totalCostUsd : st'.totalCostUsd = st.totalCostUsd
  revision : st'.reviewApproved = true ∨ st'.reviewApproved = false ∧
    ∃ request, st'.revisionRequest = some request ∧ request.target ∈ reviewTargets

theorem requestRevision_ok {target : String} (h : requestRevision decision target st = .ok st') :
    ∃ roster concepts,
      applyIfList applyReviewCreatorUpdates st.roster
        (if target ∈ ["creators", "voices"] then field? decision "creators" else none) =
          .ok roster ∧
      applyIfList applyReviewConceptUpdates st.concepts
        (if target ∈ ["concepts", "scripts"] then field? decision "concepts" else none) =
          .ok concepts ∧
      st' = { st with
        roster
        concepts
        reviewApproved := false
        revisionRequest := some
          { target
            ids := itemsOf (field? decision "ids")
            feedback := textOr (field? decision "feedback") "" } } := by
  obtain ⟨roster, hroster, hrest⟩ := ok_of_bind h
  obtain ⟨concepts, hconcepts, heq⟩ := ok_of_bind hrest
  cases heq
  exact ⟨roster, concepts, hroster, hconcepts, rfl⟩

theorem approvePlan_ok (h : approvePlan decision st = .ok st') :
    ∃ roster concepts,
      applyIfList applyReviewCreatorUpdates st.roster (field? decision "creators") =
        .ok roster ∧
      validateVoiceSelections roster = .ok () ∧
      applyIfList applyReviewConceptUpdates st.concepts (field? decision "concepts") =
        .ok concepts ∧
      st' = { st with roster, concepts, reviewApproved := true, revisionRequest := none } := by
  obtain ⟨roster, hroster, hrest⟩ := ok_of_bind h
  obtain ⟨_, hvalid, hrest⟩ := ok_of_bind hrest
  obtain ⟨concepts, hconcepts, heq⟩ := ok_of_bind hrest
  cases heq
  exact ⟨roster, concepts, hroster, hvalid, hconcepts, rfl⟩

theorem validateVoiceSelections_ok_iff {roster : List Dict} :
    validateVoiceSelections roster = .ok () ↔ ∀ creator ∈ roster, hasSelection creator = true := by
  unfold validateVoiceSelections
  cases hfind : roster.find? (fun creator => !hasSelection creator) with
  | none => simpa using hfind
  | some creator =>
      have hnone := List.find?_some hfind
      have hmem := List.mem_of_find?_eq_some hfind
      simp only [reduceCtorEq, false_iff, not_forall]
      exact ⟨creator, hmem, by simpa using hnone⟩

theorem targetOf_some {target : String} (h : targetOf decision = some target) :
    target ∈ reviewTargets := by
  unfold targetOf at h
  split at h
  · split at h
    · rename_i htarget
      cases h
      exact htarget
    · cases h
  · cases h

theorem nodeReview_ok {decision : Json} (h : nodeReview cfg decision st = .ok st') :
    ReviewOutcome st st' := by
  unfold nodeReview at h
  split at h
  · cases h
    exact ⟨Or.inl rfl, Or.inl rfl, rfl, rfl, Or.inl rfl⟩
  · obtain ⟨fields, -, hrest⟩ := ok_of_bind h
    dsimp only at hrest
    split at hrest
    · split at hrest
      · rename_i target htarget
        obtain ⟨roster, concepts, hroster, hconcepts, rfl⟩ := requestRevision_ok hrest
        exact ⟨rosterReviewed_of_applyIfList hroster, conceptsReviewed_of_applyIfList hconcepts,
          rfl, rfl, Or.inr ⟨rfl, _, rfl, targetOf_some htarget⟩⟩
      · cases hrest
    · split at hrest
      · obtain ⟨roster, concepts, hroster, -, hconcepts, rfl⟩ := approvePlan_ok hrest
        exact ⟨rosterReviewed_of_applyIfList hroster, conceptsReviewed_of_applyIfList hconcepts,
          rfl, rfl, Or.inl rfl⟩
      · cases hrest

end Review

section Creators
variable {cfg : BatchConfig} {st st' : BatchState}

theorem materializeCreatorRoster_ok {submission : CreatorRosterSubmission}
    {conceptIds : List String} {profiles : List CreatorProfile}
    {assignments : List CreatorAssignment}
    (h : materializeCreatorRoster submission conceptIds = .ok (profiles, assignments)) :
    profiles = submission.creators := by
  unfold materializeCreatorRoster at h
  dsimp only at h
  split at h
  · cases h
    rfl
  · cases h

theorem conceptId_ok {concept : Dict} {id : String} (h : conceptId concept = .ok id) :
    (field? concept "id").isSome = true := by
  unfold conceptId at h
  split at h
  · rename_i hid
    rw [hid]
    rfl
  · cases h

theorem nodeCreatorProfiles_ok {submission : CreatorRosterSubmission}
    (h : nodeCreatorProfiles submission st = .ok st') :
    (∀ concept ∈ st.concepts, (field? concept "id").isSome = true) ∧
    ∃ assignments, st' = { st with
      creatorProfiles := submission.creators
      creatorAssignments := assignments } := by
  obtain ⟨ids, hids, hrest⟩ := ok_of_bind h
  obtain ⟨⟨profiles, assignments⟩, hmaterialized, heq⟩ := ok_of_bind hrest
  cases heq
  refine ⟨fun concept hconcept => ?_, assignments, ?_⟩
  · obtain ⟨id, -, hid⟩ := exists_right (forall₂_of_mapM hids) hconcept
    exact conceptId_ok hid
  · rw [materializeCreatorRoster_ok hmaterialized]

/-- The creator every run of the configuration reuses. -/
def BatchConfig.seed (cfg : BatchConfig) : Option Dict :=
  cfg.seedCreator.bind fun seed => normalizeSeedCreator seed.fields

/-- The ids a full roster has, in its order. -/
def castIds (cfg : BatchConfig) : List String :=
  match cfg.seed with
  | some seed => [idText seed]
  | none => ["creator-0", "creator-1"]

/-- A roster that was built: at least one of the creators, each once and in order. -/
structure Cast (cfg : BatchConfig) (roster : List Dict) : Prop where
  ne_nil : roster ≠ []
  sublist : (roster.map idText).Sublist (castIds cfg)

theorem nodup_castIds (cfg : BatchConfig) : (castIds cfg).Nodup := by
  unfold castIds
  split
  · exact List.nodup_singleton _
  · decide

theorem ne_of_mem_castIds {id : String} (h : id ∈ castIds cfg) : id ≠ "" := by
  unfold castIds at h
  split at h
  · rename_i seed hseed
    obtain ⟨creator, -, hnormalized⟩ := Option.bind_eq_some_iff.mp hseed
    obtain rfl := List.mem_singleton.mp h
    exact normalizeSeedCreator_idText hnormalized
  · simp only [List.mem_cons, List.not_mem_nil, or_false] at h
    rcases h with rfl | rfl <;> decide

namespace Cast
variable {roster : List Dict}

theorem nodup (h : Cast cfg roster) : (roster.map idText).Nodup :=
  (nodup_castIds cfg).sublist h.sublist

theorem idText_ne (h : Cast cfg roster) {creator : Dict} (hcreator : creator ∈ roster) :
    idText creator ≠ "" :=
  ne_of_mem_castIds (h.sublist.subset (List.mem_map_of_mem hcreator))

/-- Two creators are the two of the profiles. -/
theorem ids_of_two (h : Cast cfg roster) (hlength : roster.length = 2) :
    cfg.seed = none ∧ roster.map idText = ["creator-0", "creator-1"] := by
  have hsublist := h.sublist
  have hle := hsublist.length_le
  rw [List.length_map, hlength] at hle
  unfold castIds at hsublist hle
  split at hsublist
  · rename_i seed hseed
    simp [hseed] at hle
  · rename_i hseed
    exact ⟨hseed, hsublist.eq_of_length (by rw [List.length_map, hlength]; rfl)⟩

/-- The roster is known by its ids. -/
theorem of_ids_eq (h : Cast cfg roster) {other : List Dict}
    (hids : other.map idText = roster.map idText) : Cast cfg other where
  ne_nil := by
    rintro rfl
    exact h.ne_nil (List.map_eq_nil_iff.mp hids.symm)
  sublist := hids ▸ h.sublist

end Cast

/-- A tolerated failure only leaves its creator out. -/
theorem builtRoster_sublist (submission : CreatorRosterSubmission)
    (build : Nat → Option BuiltCreator) :
    (((List.range submission.creators.length).filterMap fun i =>
      (build i).map (rosterCreator submission.creators[i]?)).map idText).Sublist
        ["creator-0", "creator-1"] := by
  have hid : ∀ (p : CreatorProfileSubmission) (id : String) (built : BuiltCreator), id ≠ "" →
      idText (rosterCreator (some (p.withId id)) built) = id := by
    intro p id built hne
    rw [idText, rosterCreator_id, textOr_str]
    exact if_neg hne
  have hrange : List.range submission.creators.length = [0, 1] := rfl
  rw [hrange]
  cases hfirst : build 0 with
  | none =>
      cases hsecond : build 1 with
      | none => simp [hfirst, hsecond]
      | some second =>
          simp [hfirst, hsecond, CreatorRosterSubmission.creators, hid]
  | some first =>
      cases hsecond : build 1 with
      | none => simp [hfirst, hsecond, CreatorRosterSubmission.creators, hid]
      | some second => simp [hfirst, hsecond, CreatorRosterSubmission.creators, hid]

theorem nodeRoster_ok {seedImage : Option String} {build : Nat → Option BuiltCreator}
    {submission : CreatorRosterSubmission} (hprofiles : st.creatorProfiles = submission.creators)
    (h : nodeRoster cfg seedImage build st = .ok st') :
    Cast cfg st'.roster ∧ (∀ creator ∈ st'.roster, Undesigned creator) ∧
    ∃ roster assignments, st' = { st with roster, creatorAssignments := assignments } := by
  unfold nodeRoster at h
  change (match cfg.seed with
    | some seed => _
    | none => _) = Except.ok st' at h
  split at h
  · rename_i seed hseed
    cases h
    obtain ⟨creator, hcreator, hnormalized⟩ := Option.bind_eq_some_iff.mp hseed
    refine ⟨⟨List.cons_ne_nil _ _, ?_⟩, ?_, _, _, rfl⟩
    · have hid : idText (ensureSeedReferenceImage seedImage seed) = idText seed :=
        congrArg (textOr · "") (ensureSeedReferenceImage_frame _ _ (by decide))
      simp [castIds, hseed, hid]
    · intro creator' hcreator'
      obtain rfl := List.mem_singleton.mp hcreator'
      have hundesigned := normalizeSeedCreator_undesigned hnormalized creator.undesigned
      constructor
      · rw [ensureSeedReferenceImage_frame _ _ (by decide), hundesigned.history]
      · rw [ensureSeedReferenceImage_frame _ _ (by decide), hundesigned.batch]
  · rename_i hseed
    have hne : submission.creators ≠ [] := List.cons_ne_nil _ _
    obtain ⟨concepts, profiles, assignments, roster, approved, revision, results, cost⟩ := st
    obtain rfl : profiles = submission.creators := hprofiles
    dsimp only at h
    rw [if_neg hne] at h
    split at h
    · cases h
    · rename_i hbuilt
      cases h
      refine ⟨⟨fun hnil => hbuilt ⟨hnil, Nat.succ_ne_zero 1⟩, ?_⟩, ?_, _, _, rfl⟩
      · rw [castIds, hseed]
        exact builtRoster_sublist submission build
      · intro creator hcreator
        obtain ⟨i, -, hi⟩ := List.mem_filterMap.mp hcreator
        obtain ⟨built, -, rfl⟩ := Option.map_eq_some_iff.mp hi
        exact rosterCreator_undesigned _ built

end Creators

section Voices
variable {cfg : BatchConfig} {st st' : BatchState}

/-- Without a re-roll every creator gets its first voices. -/
theorem voiceTurn_none {design : Dict → Int → Option StoredDesign} {creator : Dict}
    {out : Dict × Rat} (h : voiceTurn cfg design none creator = .ok out) :
    ∃ d, out = (offerVoices cfg d (rerollCount creator) creator, d.costUsd) := by
  unfold voiceTurn at h
  dsimp only at h
  split at h
  · cases h
  · rename_i d _
    cases h
    exact ⟨d, rfl⟩

/-- A re-roll that was asked for is within the limit. -/
theorem voiceTurn_some {design : Dict → Int → Option StoredDesign} {ids : List String}
    {creator : Dict} {out : Dict × Rat} (h : voiceTurn cfg design (some ids) creator = .ok out) :
    (voiceCreatorId creator ∉ ids ∧ out = (creator, 0)) ∨
    (voiceCreatorId creator ∈ ids ∧ rerollCount creator < cfg.maxRerolls ∧
      ∃ d, out = (offerVoices cfg d (rerollCount creator + 1)
        (archiveVoice (rerollCount creator + 1) creator), d.costUsd)) := by
  unfold voiceTurn at h
  dsimp only at h
  split at h
  · rename_i hid
    cases h
    exact Or.inl ⟨hid, rfl⟩
  · rename_i hid
    split at h
    · cases h
    · rename_i hlimit
      split at h
      · cases h
      · rename_i d _
        cases h
        exact Or.inr ⟨not_not.mp hid, not_le.mp hlimit, d, rfl⟩

theorem voiceTurn_id {design : Dict → Int → Option StoredDesign}
    {requested : Option (List String)} {creator : Dict} {out : Dict × Rat}
    (h : voiceTurn cfg design requested creator = .ok out) :
    field? out.1 "id" = field? creator "id" := by
  cases requested with
  | none =>
      obtain ⟨d, rfl⟩ := voiceTurn_none h
      exact offerVoices_id cfg d _ _
  | some ids =>
      rcases voiceTurn_some h with ⟨-, rfl⟩ | ⟨-, -, d, rfl⟩
      · rfl
      · rw [offerVoices_id, archiveVoice_id]

theorem nodeVoiceCandidates_ok {design : Dict → Int → Option StoredDesign}
    (h : nodeVoiceCandidates cfg design st = .ok st') :
    (∀ ids, requestedVoices st = some ids →
      ids ≠ [] ∧ ∀ id ∈ ids, id ∈ st.roster.map idText) ∧
    ∃ designed, List.Forall₂ (fun creator out =>
        voiceTurn cfg design (requestedVoices st) creator = .ok out) st.roster designed ∧
      st' = { st with
        roster := designed.map Prod.fst
        totalCostUsd := st.totalCostUsd + (designed.map Prod.snd).sum } := by
  unfold nodeVoiceCandidates at h
  dsimp only at h
  split at h
  · cases h
  · rename_i hids
    obtain ⟨designed, hdesigned, heq⟩ := ok_of_bind h
    cases heq
    refine ⟨fun ids hrequested => ?_, designed, forall₂_of_mapM hdesigned, rfl⟩
    rw [hrequested] at hids
    simpa using hids

theorem nodeFinalizeVoices_ok {finalize : Dict → Option FinalizedVoice}
    (h : nodeFinalizeVoices finalize st = .ok st') :
    ∃ roster, List.Forall₂ (fun creator finalized =>
        finalizeTurn finalize creator = .ok finalized) st.roster roster ∧
      st' = { st with roster } := by
  obtain ⟨roster, hroster, hrest⟩ := ok_of_bind h
  dsimp only at hrest
  split at hrest
  · cases hrest
    exact ⟨roster, forall₂_of_mapM hroster, rfl⟩
  · cases hrest

end Voices

end Orchestrator
