import Orchestrator.Graph.BatchPlan
import Orchestrator.Lib.UrlParse

/-!
What a gate shows of the plan it was opened from.

The creators are projected into their public fields. The projection keeps all a review
reads of a creator, so that a decision means the same at the gate and in the graph.
-/

namespace Orchestrator
open Json Outcome

def audioExtensions : List String := [".mp3", ".wav", ".m4a", ".ogg"]

def hasAudioExtension (path : String) : Bool :=
  audioExtensions.any fun ext => ext.toList.isSuffixOf (PyStr.lower path).toList

section Payload
variable (checkNetloc : String → Except String Unit)

def isPlayableVoiceUri (uri : Json) : Except StageError Bool :=
  match uri with
  | .str uri =>
      if uri = "" then .ok false
      else if "data:audio/".toList.isPrefixOf (PyStr.lower uri).toList then .ok true
      else
        match UrlParse.urlparse checkNetloc uri with
        | .error message => .error (.valueError message)
        | .ok parsed =>
            if parsed.scheme ∈ ["http", "https", "r2"] then .ok (hasAudioExtension parsed.path)
            else if parsed.scheme ≠ "" then .ok false
            else if ["/", "./", "../"].any (fun p => p.toList.isPrefixOf uri.toList) then
              .ok (hasAudioExtension parsed.path)
            else .ok false
  | _ => .ok false

structure CreatorFields where
  imageUri : Json
  voiceRef : Json
  voicePreviewUri : Json
  angles : List Json

def normalizeCreatorFields (creator : Dict) : Except StageError CreatorFields := do
  let imageUri := orFields creator ["image_uri", "image", "upscaled_base"]
  let voiceRef := orFields creator ["voice_model_ref", "voice_ref", "voice", "voice_id"]
  let voicePreviewUri := orFields creator ["voice_preview_uri", "voice_preview", "preview_uri"]
  let playable ← if voicePreviewUri = .null then isPlayableVoiceUri checkNetloc voiceRef
    else pure false
  return {
    imageUri
    voiceRef
    voicePreviewUri := if playable then voiceRef else voicePreviewUri
    angles := itemsOf (field? creator "angles") }

/-- The URI of a candidate's preview, when it has one to play. -/
def previewUriOf (candidate : Dict) : Option String :=
  match field? candidate "preview" with
  | some (.obj preview) =>
      match field? preview "uri" with
      | some (.str uri) => if uri = "" then none else some uri
      | _ => none
  | _ => none

/-- A candidate as the gate shows it. -/
def publicCandidate (candidate : Dict) (previewUri : String) : Except StageError Json := do
  let renderable ← isPlayableVoiceUri checkNetloc (.str previewUri)
  return .obj [("candidate_id", (field? candidate "candidate_id").getD .null),
    ("preview", .obj [("kind", .str "voice_preview"), ("uri", .str previewUri),
      ("media_type", .str "audio"), ("renderable", .bool renderable)]),
    ("duration_seconds", .num (numberOf (field? candidate "duration_seconds"))),
    ("media_type", .str (textOr (field? candidate "media_type") "audio/mpeg"))]

/-- The candidates with a preview, in order. -/
def publicCandidates (creator : Dict) : Except StageError (List Json) :=
  ((voiceCandidates creator).filterMap fun candidate =>
    (previewUriOf candidate).map fun uri => (candidate, uri)).mapM fun p =>
      publicCandidate checkNetloc p.1 p.2

/-- `for key in (...): if key in creator: normalized[key] = creator[key]`. -/
def castingFields (creator : Dict) : Dict :=
  ["archetype", "visual_brief", "voice_brief", "performance_style", "exclusions"].filterMap
    fun key => (field? creator key).map fun value => (key, value)

def normalizeCreatorPayload (creator : Dict) : Except StageError Dict := do
  let fields ← normalizeCreatorFields checkNetloc creator
  let candidates ← publicCandidates checkNetloc creator
  let normalized : Dict := [("id", orFields creator ["id", "creator_id"]),
    ("image_uri", fields.imageUri), ("voice_ref", fields.voiceRef),
    ("voice_preview_uri", fields.voicePreviewUri), ("image", fields.imageUri),
    ("voice", fields.voiceRef), ("angles", .arr fields.angles)] ++ castingFields creator
  let normalized := if candidates = [] then normalized
    else normalized ++ [("voice_candidates", .arr candidates)]
  return if candidates ≠ [] ∨ hasField creator "selected_voice_candidate_id" then
    normalized ++ [("selected_voice_candidate_id",
      (field? creator "selected_voice_candidate_id").getD .null)]
  else normalized

/-- `_public_gate_payload`; the interrupt is plain already. -/
def publicGatePayload (interrupt : Dict) : Except StageError Dict :=
  match field? interrupt "creators" with
  | some (.arr creators) => do
      let normalized ← (dictsOf creators).mapM (normalizeCreatorPayload checkNetloc)
      return setField interrupt "creators" (.arr (normalized.map .obj))
  | _ => .ok interrupt

end Payload

/-- A review takes the two creators for the same. -/
structure SameToReview (shown creator : Dict) : Prop where
  id : idText shown = idText creator
  brief : field? shown "voice_brief" = field? creator "voice_brief"
  candidates : candidateIds shown = candidateIds creator
  selected : selectedId shown = selectedId creator

namespace SameToReview
variable {shown creator update : Dict}

theorem symm (h : SameToReview shown creator) : SameToReview creator shown :=
  ⟨h.id.symm, h.brief.symm, h.candidates.symm, h.selected.symm⟩

theorem hasSelection_eq (h : SameToReview shown creator) :
    hasSelection shown = hasSelection creator := by
  unfold hasSelection
  rw [h.selected, h.candidates]

theorem merged (h : SameToReview shown creator) (update : Dict) :
    SameToReview (merge shown (editable editableCreatorFields update))
      (merge creator (editable editableCreatorFields update)) where
  id := by
    have hframe : ∀ fields : Dict,
        idText (merge fields (editable editableCreatorFields update)) = idText fields :=
      fun fields => congrArg (textOr · "") (merge_editable_of_notMem _ _ (by decide))
    rw [hframe, hframe, h.id]
  brief := field?_merge_congr _ h.brief
  candidates := by
    have hframe : ∀ fields : Dict,
        candidateIds (merge fields (editable editableCreatorFields update)) =
          candidateIds fields := fun fields => by
      unfold candidateIds voiceCandidates
      rw [merge_editable_of_notMem _ _ (by decide)]
    rw [hframe, hframe, h.candidates]
  selected := by
    by_cases hupdated : hasField (editable editableCreatorFields update)
        "selected_voice_candidate_id" = true
    · exact congrArg (textOr · "") (field?_merge_of_hasField hupdated _ _)
    · have hothers := ne_of_not_hasField hupdated
      have hframe : ∀ fields : Dict,
          selectedId (merge fields (editable editableCreatorFields update)) =
            selectedId fields :=
        fun fields => congrArg (textOr · "") (field?_merge_of_notMem _ _ hothers)
      rw [hframe, hframe, h.selected]

theorem discarded (h : SameToReview shown creator) (history other : List Json) :
    SameToReview (discardCandidates history shown) (discardCandidates other creator) where
  id := by
    have hframe : ∀ (history : List Json) (fields : Dict),
        idText (discardCandidates history fields) = idText fields :=
      fun history fields => congrArg (textOr · "") (field?_id_discardCandidates history fields)
    rw [hframe, hframe, h.id]
  brief := by simpa [discardCandidates] using h.brief
  candidates := by simp [candidateIds, voiceCandidates, discardCandidates]
  selected := by simp [selectedId, discardCandidates]

/-- An update is taken of both or of neither. -/
theorem review (h : SameToReview shown creator) {reviewed : Dict}
    (hreviewed : reviewedCreator shown update = .ok reviewed) :
    ∃ other, reviewedCreator creator update = .ok other ∧ SameToReview reviewed other := by
  have hbrief : briefChanged shown update = briefChanged creator update := by
    unfold briefChanged
    rw [h.brief]
  unfold reviewedCreator at hreviewed ⊢
  dsimp only at hreviewed ⊢
  rw [← hbrief, ← h.candidates]
  split at hreviewed
  · cases hreviewed
    rename_i hchanged
    exact ⟨_, if_pos hchanged, (h.merged update).discarded _ _⟩
  · rename_i hchanged
    split at hreviewed
    · cases hreviewed
    · rename_i hselected
      cases hreviewed
      exact ⟨_, by rw [if_neg hchanged, if_neg hselected], h.merged update⟩

end SameToReview

section Rosters
variable {shown roster updates : List Dict}

theorem ids_eq_of_same (h : List.Forall₂ SameToReview shown roster) :
    roster.map idText = shown.map idText :=
  map_eq_of_forall₂ (fun _ _ hsame => hsame.id.symm) h

theorem validateVoiceSelections_same (h : List.Forall₂ SameToReview shown roster)
    (hvalid : validateVoiceSelections shown = .ok ()) :
    validateVoiceSelections roster = .ok () := by
  rw [validateVoiceSelections_ok_iff] at hvalid ⊢
  intro creator hcreator
  obtain ⟨a, ha, hsame⟩ := exists_left h hcreator
  rw [← hsame.hasSelection_eq]
  exact hvalid a ha

/-- The updates of a roster are taken of what the gate shows or of neither. -/
theorem applyReviewCreatorUpdates_same (h : List.Forall₂ SameToReview shown roster)
    {reviewed : List Dict} (hreviewed : applyReviewCreatorUpdates shown updates = .ok reviewed) :
    ∃ others, applyReviewCreatorUpdates roster updates = .ok others ∧
      List.Forall₂ SameToReview reviewed others := by
  have hids := ids_eq_of_same h
  have hpreserves : preservesIds roster updates = preservesIds shown updates := by
    unfold preservesIds
    rw [hids]
  unfold applyReviewCreatorUpdates at hreviewed ⊢
  split at hreviewed
  · rename_i hboth
    rw [if_pos ⟨h.length_eq ▸ hboth.1, hpreserves ▸ hboth.2⟩]
    obtain ⟨_, hfields, hmapped⟩ := ok_of_bind hreviewed
    rw [hfields, ok_bind]
    have hexists : ∃ others, List.Forall₂ (fun creator reviewed =>
        reviewedCreator creator (updateFor updates creator) = .ok reviewed) roster others ∧
          List.Forall₂ SameToReview reviewed others := by
      replace hmapped := forall₂_of_mapM hmapped
      clear hreviewed hboth hpreserves hids hfields
      induction h generalizing reviewed with
      | nil =>
          cases hmapped
          exact ⟨[], .nil, .nil⟩
      | cons hsame _ ih =>
          cases hmapped with
          | cons hfirst hrest =>
              obtain ⟨others, hothers, hrelated⟩ := ih hrest
              have hupdate := hsame.review hfirst
              rw [updateFor, hsame.id] at hupdate
              obtain ⟨other, hother, hsame'⟩ := hupdate
              exact ⟨other :: others, .cons hother hothers, .cons hsame' hrelated⟩
    obtain ⟨others, hothers, hrelated⟩ := hexists
    exact ⟨others, mapM_of_forall₂ hothers, hrelated⟩
  · cases hreviewed

end Rosters

end Orchestrator
