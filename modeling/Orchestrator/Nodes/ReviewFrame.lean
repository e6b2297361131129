import Orchestrator.Nodes.StageOutcomes

/-!
What a review may change of the plan.

An update sets the editable fields of the concept or creator it is for. Everything else
belongs to the server, except that a changed brief puts the voice design of its creator
aside.
-/

namespace Orchestrator
open Json Outcome

def voiceDesignFields : List String :=
  ["voice_design_history", "voice_candidates", "voice_design_batch"]

/-- No selection, or one of the creator's own candidates. -/
def SelectsOwn (creator : Dict) : Prop :=
  selectedId creator = "" ∨ selectedId creator ∈ candidateIds creator

/-- The design that is on the table: its batch, or the bare candidates. -/
def previousBatch (creator : Dict) : List Json :=
  if itemsOf (field? creator "voice_candidates") = [] then []
  else [match field? creator "voice_design_batch" with
    | some (.obj batch) => .obj batch
    | _ => .arr (itemsOf (field? creator "voice_candidates"))]

def ConceptKept (concept reviewed : Dict) : Prop :=
  ∀ name ∉ editableConceptFields, field? reviewed name = field? concept name

/-- What a review leaves and does of one creator. -/
structure CreatorKept (creator update reviewed : Dict) : Prop where
  kept : ∀ name ∉ editableCreatorFields, name ∉ voiceDesignFields →
    field? reviewed name = field? creator name
  selectsOwn : SelectsOwn creator → SelectsOwn reviewed
  sameBrief : briefChanged creator update = false →
    (∀ name ∈ voiceDesignFields, field? reviewed name = field? creator name) ∧
    (hasField update "selected_voice_candidate_id" = false →
      selectedId reviewed = selectedId creator)
  changedBrief : briefChanged creator update = true →
    field? reviewed "voice_candidates" = some (.arr []) ∧
    field? reviewed "voice_design_batch" = none ∧ selectedId reviewed = "" ∧
    field? reviewed "voice_design_history" =
      some (.arr (itemsOf (field? creator "voice_design_history") ++ previousBatch creator))

section Creator
variable {creator update reviewed : Dict}

/-- An update that leaves the brief is taken when it selects a candidate of the creator. -/
theorem reviewedCreator_sameBrief (hbrief : briefChanged creator update = false)
    (h : reviewedCreator creator update = .ok reviewed) :
    reviewed = merge creator (editable editableCreatorFields update) ∧
      (hasField update "selected_voice_candidate_id" = true →
        selectedId update = "" ∨ selectedId update ∈ candidateIds creator) := by
  unfold reviewedCreator at h
  dsimp only at h
  rw [if_neg (by simp [hbrief])] at h
  split at h
  · cases h
  · rename_i hrefused
    cases h
    refine ⟨rfl, fun hchosen => ?_⟩
    by_contra hforeign
    obtain ⟨hne, hnotMem⟩ := not_or.mp hforeign
    exact hrefused ⟨hchosen, hne, hnotMem⟩

theorem field?_editable {known : List String} {name : String} (h : name ∈ known) :
    field? (editable known update) name = field? update name := by
  induction update with
  | nil => rfl
  | cons f update ih =>
      by_cases hknown : f.1 ∈ known
      · have hkept : editable known (f :: update) = f :: editable known update :=
          List.filter_cons_of_pos (by simpa using hknown)
        rw [hkept, field?_cons, field?_cons, ih]
      · have hdropped : editable known (f :: update) = editable known update :=
          List.filter_cons_of_neg (by simpa using hknown)
        have hne : f.1 ≠ name := fun heq => hknown (heq ▸ h)
        rw [hdropped, field?_cons, if_neg hne, ih]

theorem candidateIds_merged :
    candidateIds (merge creator (editable editableCreatorFields update)) =
      candidateIds creator := by
  unfold candidateIds voiceCandidates
  rw [merge_editable_of_notMem _ _ (by decide)]

/-- The selection after an update is the one it makes, or the one there was. -/
theorem selectedId_merged (hdict : (update.map Prod.fst).Nodup) :
    selectedId (merge creator (editable editableCreatorFields update)) =
      if hasField update "selected_voice_candidate_id" then selectedId update
      else selectedId creator := by
  have hnodup : ((editable editableCreatorFields update).map Prod.fst).Nodup :=
    hdict.sublist (List.filter_sublist.map _)
  unfold selectedId
  rw [field?_merge _ _ _ hnodup, field?_editable (by decide), hasField_eq_isSome]
  cases field? update "selected_voice_candidate_id" with
  | none => rfl
  | some value => rfl

theorem previousBatch_eq (creator : Dict) : designHistory creator =
    itemsOf (field? creator "voice_design_history") ++ previousBatch creator := by
  unfold designHistory previousBatch
  dsimp only
  split
  · rw [List.append_nil]
  · rfl

theorem reviewedCreator_kept (hdict : (update.map Prod.fst).Nodup)
    (h : reviewedCreator creator update = .ok reviewed) : CreatorKept creator update reviewed := by
  have hmerged : ∀ name ∉ editableCreatorFields,
      field? (merge creator (editable editableCreatorFields update)) name = field? creator name :=
    fun name hname => merge_editable_of_notMem creator update hname
  cases hbrief : briefChanged creator update with
  | false =>
      obtain ⟨rfl, hchosen⟩ := reviewedCreator_sameBrief hbrief h
      refine ⟨fun name hname _ => hmerged name hname, fun hselects => ?_, fun _ => ⟨?_, ?_⟩,
        fun hchanged => absurd (hbrief.symm.trans hchanged) (by decide)⟩
      · unfold SelectsOwn
        rw [selectedId_merged hdict, candidateIds_merged]
        split
        · rename_i hfield
          exact hchosen hfield
        · exact hselects
      · intro name hname
        refine hmerged name fun hmem => ?_
        exact absurd ⟨name, hname, hmem⟩
          (by decide : ¬ ∃ name ∈ voiceDesignFields, name ∈ editableCreatorFields)
      · intro hfield
        rw [selectedId_merged hdict, hfield]
        rfl
  | true =>
      obtain ⟨-, rfl⟩ | ⟨hsame, -⟩ := reviewedCreator_ok h
      · refine ⟨fun name hname hdesign => ?_, fun _ => Or.inl ?_,
          fun hsame => absurd (hbrief.symm.trans hsame) (by decide), fun _ => ⟨?_, ?_, ?_, ?_⟩⟩
        · have hne : ∀ other ∈ "selected_voice_candidate_id" :: voiceDesignFields,
              other ≠ name := by
            intro other hother heq
            subst heq
            rcases List.mem_cons.mp hother with rfl | hother
            · exact hname (by decide)
            · exact hdesign hother
          rw [discardCandidates, field?_setField_of_ne _ _ (hne _ (by decide)),
            field?_dropField_of_ne _ (hne _ (by decide)),
            field?_setField_of_ne _ _ (hne _ (by decide)),
            field?_setField_of_ne _ _ (hne _ (by decide)), hmerged name hname]
        · simp [discardCandidates, selectedId]
        · simp [discardCandidates]
        · simp [discardCandidates]
        · simp [discardCandidates, selectedId]
        · rw [← previousBatch_eq]
          simp [discardCandidates]
      · exact absurd (hbrief.symm.trans hsame) (by decide)

end Creator

theorem updateFor_nodup {updates : List Dict} (hdicts : ∀ u ∈ updates, (u.map Prod.fst).Nodup)
    (existing : Dict) : ((updateFor updates existing).map Prod.fst).Nodup := by
  unfold updateFor
  cases hfind : updates.find? (fun update => idText update = idText existing) with
  | none => exact List.nodup_nil
  | some update => exact hdicts update (List.mem_of_find?_eq_some hfind)

theorem concepts_kept {concepts updates out : List Dict}
    (h : applyReviewConceptUpdates concepts updates = .ok out) :
    List.Forall₂ ConceptKept concepts out := by
  rw [applyReviewConceptUpdates_ok h, List.forall₂_map_right_iff, List.forall₂_same]
  exact fun concept _ name hname => merge_editable_of_notMem _ _ hname

theorem creators_kept {roster updates out : List Dict}
    (hdicts : ∀ u ∈ updates, (u.map Prod.fst).Nodup)
    (h : applyReviewCreatorUpdates roster updates = .ok out) :
    List.Forall₂ (fun creator reviewed =>
      CreatorKept creator (updateFor updates creator) reviewed) roster out :=
  (applyReviewCreatorUpdates_ok h).2.imp fun creator _ hreviewed =>
    reviewedCreator_kept (updateFor_nodup hdicts creator) hreviewed

/-- An applied review keeps the ids and all that is not its to edit. -/
theorem review_edits_confined (updates : List Dict)
    (hdicts : ∀ u ∈ updates, (u.map Prod.fst).Nodup) :
    (∀ concepts out, applyReviewConceptUpdates concepts updates = .ok out →
      out.map idText = concepts.map idText ∧ List.Forall₂ ConceptKept concepts out) ∧
    (∀ roster out, applyReviewCreatorUpdates roster updates = .ok out →
      out.map idText = roster.map idText ∧ List.Forall₂ (fun creator reviewed =>
        CreatorKept creator (updateFor updates creator) reviewed) roster out) := by
  constructor
  · intro concepts out h
    have hkept := concepts_kept h
    exact ⟨map_eq_of_forall₂ (fun _ _ hkept => congrArg (textOr · "") (hkept "id" (by decide)))
      hkept, hkept⟩
  · intro roster out h
    have hkept := creators_kept hdicts h
    exact ⟨map_eq_of_forall₂ (fun _ _ hkept =>
      congrArg (textOr · "") (hkept.kept "id" (by decide) (by decide))) hkept, hkept⟩

def briefUpdates : List Dict :=
  [[("id", .str "creator-0"), ("voice_brief", .str "calm")], [("id", .str "creator-1")]]

def designedRoster : List Dict :=
  [[("id", .str "creator-0"), ("voice_brief", .str "warm"),
      ("voice_candidates", .arr [.obj [("candidate_id", .str "v-1")]]),
      ("voice_design_batch", .obj [("cost_usd", .num 1)])],
    [("id", .str "creator-1")]]

def rebriefedRoster : List Dict :=
  [[("id", .str "creator-0"), ("voice_brief", .str "calm"), ("voice_candidates", .arr []),
      ("voice_design_history", .arr [.obj [("cost_usd", .num 1)]]),
      ("selected_voice_candidate_id", .null)],
    [("id", .str "creator-1")]]

theorem rebriefed_roster_confined :
    (∀ u ∈ briefUpdates, (u.map Prod.fst).Nodup) ∧
    applyReviewCreatorUpdates designedRoster briefUpdates = .ok rebriefedRoster ∧
    List.Forall₂ (fun creator reviewed =>
      CreatorKept creator (updateFor briefUpdates creator) reviewed)
        designedRoster rebriefedRoster :=
  ⟨by decide, by decide +kernel,
    ((review_edits_confined briefUpdates (by decide)).2 _ _ (by decide +kernel)).2⟩

/-- An unchanged brief leaves the voice data of the creator as they were. -/
def VoiceKept (creator update reviewed : Dict) : Prop :=
  briefChanged creator update = false →
    selectedId reviewed = selectedId creator ∧
      ∀ name ∈ voiceDesignFields, field? reviewed name = field? creator name

/-- A changed brief appends the batch that the creator has to its history. -/
def BatchArchived (creator update reviewed : Dict) : Prop :=
  briefChanged creator update = true →
    ∀ batch, field? creator "voice_design_batch" = some (.obj batch) →
      itemsOf (field? reviewed "voice_design_history") =
        itemsOf (field? creator "voice_design_history") ++ [.obj batch]

/-- The voices of the second candidates. -/
def secondVoices : List Dict :=
  [[("id", .str "creator-0"), ("selected_voice_candidate_id", .str "v-2")],
    [("id", .str "creator-1"), ("selected_voice_candidate_id", .str "v-2")]]

/-- A creator as its voice was designed for the review. -/
def designedCreator (id : String) (selected : Json) : Dict :=
  let candidates : Json :=
    .arr [.obj [("candidate_id", .str "v-1")], .obj [("candidate_id", .str "v-2")]]
  [("id", .str id), ("voice_brief", .str "warm"), ("voice_candidates", candidates),
    ("voice_design_batch", .obj [("candidates", candidates), ("cost_usd", .num 1),
      ("reroll_count", .num 0)]),
    ("selected_voice_candidate_id", selected)]

/-- A batch without candidates is dropped. -/
def emptiedRoster : List Dict :=
  [[("id", .str "creator-0"), ("voice_brief", .str "warm"), ("voice_candidates", .arr []),
      ("voice_design_batch", .obj [("cost_usd", .num 1)])],
    [("id", .str "creator-1")]]

/-- Under an unchanged brief an update selects a voice, and under a changed one a batch
without candidates is dropped. -/
theorem review_selects_and_drops :
    (¬ ∀ roster updates out, applyReviewCreatorUpdates roster updates = .ok out →
      List.Forall₂ (fun creator reviewed =>
        VoiceKept creator (updateFor updates creator) reviewed) roster out) ∧
    ¬ ∀ roster updates out, applyReviewCreatorUpdates roster updates = .ok out →
      List.Forall₂ (fun creator reviewed =>
        BatchArchived creator (updateFor updates creator) reviewed) roster out := by
  constructor
  · intro h
    have hout : applyReviewCreatorUpdates
        [designedCreator "creator-0" .null, designedCreator "creator-1" .null] secondVoices = .ok
        [designedCreator "creator-0" (.str "v-2"), designedCreator "creator-1" (.str "v-2")] := by
      decide +kernel
    have hfirst := (List.forall₂_cons.mp (h _ _ _ hout)).1
    exact absurd (hfirst (by decide +kernel)).1 (by decide +kernel)
  · intro h
    have hout : applyReviewCreatorUpdates emptiedRoster briefUpdates = .ok
        [[("id", .str "creator-0"), ("voice_brief", .str "calm"), ("voice_candidates", .arr []),
          ("voice_design_history", .arr []), ("selected_voice_candidate_id", .null)],
        [("id", .str "creator-1")]] := by decide +kernel
    have hfirst := (List.forall₂_cons.mp (h _ _ _ hout)).1
    exact absurd (hfirst (by decide +kernel) _ rfl) (by decide +kernel)

end Orchestrator
