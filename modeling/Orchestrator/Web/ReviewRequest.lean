import Orchestrator.Graph.ReviewGate
import Orchestrator.Web.GatePayload

/-!
The request that resolves the human gate, as the endpoint checks it.

The endpoint reads the public payload of the gate and the node the state, each with the
same update functions. What a review can tell of a creator is the same on both sides, so
what the endpoint lets through the node takes.
-/

namespace Orchestrator
open Json Outcome

structure HttpError where
  status : Nat
  detail : String
  deriving DecidableEq, Repr

structure ReviewConceptPatch where
  id : String
  offer : Option String := none
  hook : Option String := none
  angle : Option String := none
  audienceProblem : Option String := none
  productMechanism : Option String := none
  evidenceBasis : Option String := none
  format : Option String := none
  hookStyle : Option String := none
  script : Option String := none
  scriptDraft : Option Dict := none

structure ReviewCreatorPatch where
  id : String
  archetype : Option String := none
  visualBrief : Option String := none
  voiceBrief : Option String := none
  performanceStyle : Option String := none
  exclusions : Option (List String) := none
  selectedVoiceCandidateId : Option String := none

structure ReviewV2Request where
  action : String
  concepts : Option (List ReviewConceptPatch) := none
  creators : Option (List ReviewCreatorPatch) := none
  target : Option String := none
  ids : List String := []
  feedback : Option String := none
  gateId : Option String := none
  version : Option Int := none
  gateType : Option String := none

/-- A text of at most so many characters, when there is one. -/
def fits (maxLength : Nat) (text : Option String) : Bool := text.all (·.length ≤ maxLength)

def fitsId (id : String) : Bool := 1 ≤ id.length ∧ id.length ≤ 200

def ReviewConceptPatch.wellFormed (p : ReviewConceptPatch) : Bool :=
  fitsId p.id && fits 8000 p.offer && fits 500 p.hook && fits 1000 p.angle &&
    fits 1000 p.audienceProblem && fits 1000 p.productMechanism &&
    p.evidenceBasis.all (· ∈ ["provided_fact", "performance", "cold_test"]) &&
    fits 200 p.format && fits 200 p.hookStyle && fits 12000 p.script

def ReviewCreatorPatch.wellFormed (p : ReviewCreatorPatch) : Bool :=
  fitsId p.id && fits 500 p.archetype && fits 2000 p.visualBrief && fits 2000 p.voiceBrief &&
    fits 1000 p.performanceStyle && p.exclusions.all (·.length ≤ 20) &&
    p.selectedVoiceCandidateId.all fitsId

/-- The fields that are given: `model_dump(exclude_none=True)`. -/
def given (fields : List (String × Option Json)) : Dict :=
  fields.filterMap fun f => f.2.map fun value => (f.1, value)

def ReviewConceptPatch.modelDump (p : ReviewConceptPatch) : Dict :=
  given [("id", some (.str p.id)), ("offer", p.offer.map .str), ("hook", p.hook.map .str),
    ("angle", p.angle.map .str), ("audience_problem", p.audienceProblem.map .str),
    ("product_mechanism", p.productMechanism.map .str),
    ("evidence_basis", p.evidenceBasis.map .str), ("format", p.format.map .str),
    ("hook_style", p.hookStyle.map .str), ("script", p.script.map .str),
    ("script_draft", p.scriptDraft.map .obj)]

def ReviewCreatorPatch.modelDump (p : ReviewCreatorPatch) : Dict :=
  given [("id", some (.str p.id)), ("archetype", p.archetype.map .str),
    ("visual_brief", p.visualBrief.map .str), ("voice_brief", p.voiceBrief.map .str),
    ("performance_style", p.performanceStyle.map .str),
    ("exclusions", p.exclusions.map fun texts => .arr (texts.map .str)),
    ("selected_voice_candidate_id", p.selectedVoiceCandidateId.map .str)]

namespace ReviewV2Request
variable (req : ReviewV2Request)

def validateAction : Except String Unit :=
  if req.action = "approve" then
    if req.target ≠ none ∨ req.ids ≠ [] ∨ req.feedback ≠ none then
      .error "approve does not accept regeneration fields"
    else .ok ()
  else if req.action = "regenerate" then
    if !req.target.any (· ∈ reviewTargets) then
      .error "regenerate requires target concepts, scripts, creators, or voices"
    else if req.ids = [] ∨ ¬ req.ids.Nodup then .error "regenerate requires unique IDs"
    else if req.target.any (· ∈ ["concepts", "scripts"]) ∧ req.creators.isSome then
      .error "concept regeneration does not accept creator edits"
    else if req.target.any (· ∈ ["creators", "voices"]) ∧ req.concepts.isSome then
      .error "creator regeneration does not accept concept edits"
    else .ok ()
  else .error "action must be approve or regenerate"

/-- The model accepts the body of the request. -/
structure Valid : Prop where
  concepts : ∀ patches ∈ req.concepts, ∀ p ∈ patches, p.wellFormed = true
  creators : ∀ patches ∈ req.creators, ∀ p ∈ patches, p.wellFormed = true
  ids : req.ids.length ≤ 48
  feedback : fits 4000 req.feedback = true
  version : ∀ version ∈ req.version, 1 ≤ version
  gateType : ∀ gateType ∈ req.gateType, gateType = "review_creative_plan"
  action : req.validateAction = .ok ()

def conceptUpdates : Option (List Dict) :=
  req.concepts.map fun patches => patches.map (·.modelDump)

def creatorUpdates : Option (List Dict) :=
  req.creators.map fun patches => patches.map (·.modelDump)

def resolution : Dict :=
  given [("action", some (.str req.action)),
    ("concepts", req.conceptUpdates.map fun updates => .arr (updates.map .obj)),
    ("creators", req.creatorUpdates.map fun updates => .arr (updates.map .obj))] ++
  if req.action = "regenerate" then
    [("target", (req.target.map .str).getD .null), ("ids", .arr (req.ids.map .str)),
      ("feedback", .str (req.feedback.getD ""))]
  else []

/-- The updates applied, when there are any. -/
def applyGiven (apply : List Dict → List Dict → Except StageError (List Dict))
    (existing : List Dict) : Option (List Dict) → Except StageError (List Dict)
  | some updates => apply existing updates
  | none => .ok existing

/-- The ids of the review a regeneration may name. -/
def availableIds (items : List Dict) : List String :=
  (items.filter fun item => (orNone (field? item "id")).isSome).map idText

def checkAgainst (concepts creators : List Dict) : Except StageError Unit :=
  if req.action = "approve" then do
    let _ ← applyGiven applyReviewConceptUpdates concepts req.conceptUpdates
    let reviewed ← applyGiven applyReviewCreatorUpdates creators req.creatorUpdates
    validateVoiceSelections reviewed
  else if req.ids ≠ [] then
    let available := availableIds
      (if req.target.any (· ∈ ["creators", "voices"]) then creators else concepts)
    if ∃ id ∈ req.ids, id ∉ available then
      .error (.valueError "regeneration IDs must belong to the pending review")
    else do
      let _ ← applyGiven applyReviewCreatorUpdates creators req.creatorUpdates
      let _ ← applyGiven applyReviewConceptUpdates concepts req.conceptUpdates
      return ()
  else .ok ()

end ReviewV2Request

/-- `_validated_review_resolution`. The gates are opened with dictionaries only. -/
def validatedReviewResolution (req : ReviewV2Request) (pendingReview : Dict) :
    Except HttpError Dict :=
  match field? pendingReview "concepts", field? pendingReview "creators" with
  | some (.arr concepts), some (.arr creators) =>
      match req.checkAgainst (dictsOf concepts) (dictsOf creators) with
      | .ok _ => .ok req.resolution
      | .error (.valueError message) => .error ⟨422, message⟩
      | .error _ => .error ⟨500, "Internal Server Error"⟩
  | _, _ => .error ⟨409, "payload canônico da revisão indisponível"⟩

theorem eq_some_of_orNone {value : Option Json} {v : Json} (h : orNone value = some v) :
    value = some v := by
  cases value with
  | none => cases h
  | some w =>
      simp only [orNone] at h
      split at h
      · exact h
      · cases h

section Shown
variable {checkNetloc : String → Except String Unit}

theorem textOr_getD_null (value : Option Json) :
    textOr (some (value.getD .null)) "" = textOr value "" := by
  cases value <;> rfl

theorem publicCandidate_id {candidate : Dict} {uri : String} {shown : Json}
    (h : publicCandidate checkNetloc candidate uri = .ok shown) :
    ∃ fields, shown = .obj fields ∧ textOr (field? fields "candidate_id") "" =
      textOr (field? candidate "candidate_id") "" := by
  obtain ⟨renderable, -, heq⟩ := ok_of_bind h
  cases heq
  exact ⟨_, rfl, by simp [textOr_getD_null]⟩

/-- Every candidate has a preview to play. -/
def Previewed (creator : Dict) : Prop :=
  ∀ candidate ∈ voiceCandidates creator, (previewUriOf candidate).isSome = true

theorem publicCandidates_ids {creator : Dict} {candidates : List Json}
    (hpreviewed : Previewed creator) (h : publicCandidates checkNetloc creator = .ok candidates) :
    (dictsOf candidates).map (fun c => textOr (field? c "candidate_id") "") =
      candidateIds creator := by
  have hpairs : ∀ offered : List Dict, (∀ c ∈ offered, (previewUriOf c).isSome = true) →
      (offered.filterMap fun c => (previewUriOf c).map fun uri => (c, uri)).map Prod.fst =
        offered := by
    intro offered hsome
    induction offered with
    | nil => rfl
    | cons c offered ih =>
        obtain ⟨hc, hrest⟩ := List.forall_mem_cons.mp hsome
        obtain ⟨uri, huri⟩ := Option.isSome_iff_exists.mp hc
        rw [List.filterMap_cons_some (by rw [huri]; rfl), List.map_cons, ih hrest]
  have hids : ∀ {pairs : List (Dict × String)} {shown : List Json},
      List.Forall₂ (fun p out => publicCandidate checkNetloc p.1 p.2 = .ok out) pairs shown →
      (dictsOf shown).map (fun c => textOr (field? c "candidate_id") "") =
        (pairs.map Prod.fst).map (fun c => textOr (field? c "candidate_id") "") := by
    intro pairs shown hshown
    induction hshown with
    | nil => rfl
    | cons hfirst _ ih =>
        obtain ⟨fields, rfl, hid⟩ := publicCandidate_id hfirst
        rw [List.map_cons, List.map_cons, ← ih, ← hid]
        rfl
  rw [hids (forall₂_of_mapM h), hpairs _ hpreviewed]
  rfl

@[simp] theorem given_nil : given [] = [] := rfl

@[simp] theorem field?_given_cons (f : String × Option Json)
    (fields : List (String × Option Json)) (name : String) :
    field? (given (f :: fields)) name =
      (if f.1 = name then f.2 else none).or (field? (given fields) name) := by
  obtain ⟨key, value⟩ := f
  cases value with
  | none => simp [given]
  | some value =>
      change field? ((key, value) :: given fields) name = _
      rw [field?_cons]
      split <;> rfl

theorem castingFields_eq (creator : Dict) :
    castingFields creator = given (["archetype", "visual_brief", "voice_brief",
      "performance_style", "exclusions"].map fun key => (key, field? creator key)) := by
  rw [given, List.filterMap_map]
  rfl

theorem sameToReview_normalized {creator shown : Dict} (hid : idText creator ≠ "")
    (hpreviewed : Previewed creator)
    (h : normalizeCreatorPayload checkNetloc creator = .ok shown) : SameToReview shown creator := by
  obtain ⟨fields, -, hrest⟩ := ok_of_bind h
  obtain ⟨candidates, hcandidates, heq⟩ := ok_of_bind hrest
  have hids := publicCandidates_ids hpreviewed hcandidates
  cases heq
  refine ⟨?_, ?_, ?_, ?_⟩
  · obtain ⟨value, hvalue, htext⟩ := orNone_of_idText hid
    have hshown : textOr (some value) "" = idText creator := by
      rw [idText, eq_some_of_orNone hvalue]
    split <;> split <;> simp [idText, orFields, hvalue, hshown]
  · split <;> split <;> simp [field?_append, castingFields_eq]
  · have hoffered : ∀ fields : Dict, itemsOf (field? fields "voice_candidates") = candidates →
        candidateIds fields = candidateIds creator := fun fields hfields => by
      rw [candidateIds, voiceCandidates, hfields, hids]
    refine hoffered _ ?_
    by_cases hnone : candidates = []
    · split <;> simp [field?_append, castingFields_eq, hnone]
    · simp [field?_append, castingFields_eq, hnone]
  · unfold selectedId
    split
    · split <;> simp [field?_append, castingFields_eq, textOr_getD_null]
    · rename_i hnone
      obtain ⟨hnone, hfield⟩ := not_or.mp hnone
      rw [hasField_eq_isSome, Bool.not_eq_true, Option.isSome_eq_false_iff,
        Option.isNone_iff_eq_none] at hfield
      rw [if_pos (not_not.mp hnone), hfield]
      simp [castingFields_eq]

/-- What is on the table are the candidates of the current design. -/
theorem VoiceRecord.Describes.voiceCandidates_eq {v : VoiceRecord} {creator : Dict}
    (h : v.Describes creator) :
    voiceCandidates creator = v.current.toList.flatMap fun d => d.candidates.map (·.modelDump) := by
  rw [voiceCandidates, h.candidates, VoiceRecord.offered]
  cases v.current with
  | none => rfl
  | some d =>
      dsimp only [Option.toList_some]
      rw [List.flatMap_singleton, ← dictsOf_map_obj (d.candidates.map (·.modelDump)),
        List.map_map]
      rfl

/-- A candidate was stored with its preview. -/
theorem Voiced.previewed {creator : Dict} (h : Voiced creator) : Previewed creator := by
  obtain ⟨v, hdescribes, -⟩ := h
  intro candidate hcandidate
  rw [hdescribes.voiceCandidates_eq] at hcandidate
  obtain ⟨d, -, hcandidate⟩ := List.mem_flatMap.mp hcandidate
  obtain ⟨c, -, rfl⟩ := List.mem_map.mp hcandidate
  simp [previewUriOf, StoredCandidate.modelDump, c.uri_ne]

/-- The payload of a gate shows the concepts as they are and the creators to be told
apart as in the state. -/
theorem gate_shows_plan {cfg : BatchConfig} {st : BatchState} (h : Complete cfg st)
    {payload : Dict} (hpayload : publicGatePayload checkNetloc (reviewInterrupt st) = .ok payload) :
    ∃ shown, field? payload "concepts" = some (.arr (st.concepts.map .obj)) ∧
      field? payload "creators" = some (.arr (shown.map .obj)) ∧
      List.Forall₂ SameToReview shown st.roster := by
  have hcreators : field? (reviewInterrupt st) "creators" = some (.arr (st.roster.map .obj)) := rfl
  rw [publicGatePayload, hcreators] at hpayload
  dsimp only at hpayload
  obtain ⟨shown, hshown, heq⟩ := ok_of_bind hpayload
  cases heq
  rw [dictsOf_map_obj] at hshown
  refine ⟨shown, ?_, field?_setField_self _ _ _, ?_⟩
  · rw [field?_setField_of_ne _ _ (by decide)]
    rfl
  · refine (forall₂_mem (forall₂_of_mapM hshown)).flip.imp fun out creator hturn => ?_
    exact sameToReview_normalized (h.cast.idText_ne hturn.1)
      (h.voiced creator hturn.1).previewed hturn.2

end Shown

theorem updatesOf_map_obj (updates : List Dict) :
    updatesOf (updates.map .obj) = .ok updates := by
  refine mapM_of_forall₂ ?_
  rw [List.forall₂_map_left_iff, List.forall₂_same]
  exact fun _ _ => rfl

/-- The node applies the updates that the request gives. -/
theorem applyIfList_given (apply : List Dict → List Dict → Except StageError (List Dict))
    (existing : List Dict) (updates : Option (List Dict)) :
    applyIfList apply existing (updates.map fun updates => .arr (updates.map .obj)) =
      ReviewV2Request.applyGiven apply existing updates := by
  cases updates with
  | none => rfl
  | some updates =>
      change updatesOf (updates.map .obj) >>= _ = _
      rw [updatesOf_map_obj, ok_bind]
      rfl

namespace ReviewV2Request
variable (req : ReviewV2Request)

@[simp] theorem resolution_action :
    field? req.resolution "action" = some (.str req.action) := by
  simp [resolution, field?_append]

@[simp] theorem resolution_concepts : field? req.resolution "concepts" =
    req.conceptUpdates.map fun updates => .arr (updates.map .obj) := by
  rw [resolution, field?_append]
  split <;> simp

@[simp] theorem resolution_creators : field? req.resolution "creators" =
    req.creatorUpdates.map fun updates => .arr (updates.map .obj) := by
  rw [resolution, field?_append]
  split <;> simp

theorem resolution_request (h : req.action = "regenerate") :
    field? req.resolution "target" = some ((req.target.map .str).getD .null) ∧
    field? req.resolution "ids" = some (.arr (req.ids.map .str)) ∧
    field? req.resolution "feedback" = some (.str (req.feedback.getD "")) := by
  simp [resolution, field?_append, h]

/-- The node an accepted request sends the run to. -/
def destination : BatchNode :=
  if req.action = "approve" then .finalizeVoices
  else match req.target with
    | some "concepts" => .concepts
    | some "scripts" => .scripts
    | some "creators" => .creatorProfiles
    | _ => .voiceCandidates

variable {req}

theorem Valid.cases (h : req.Valid) : req.action = "approve" ∨
    req.action = "regenerate" ∧ req.ids ≠ [] ∧ ∃ target ∈ reviewTargets,
      req.target = some target ∧
      (target ∈ ["concepts", "scripts"] → req.creators = none) ∧
      (target ∈ ["creators", "voices"] → req.concepts = none) := by
  have haction := h.action
  unfold validateAction at haction
  split at haction
  · rename_i happrove
    exact Or.inl happrove
  · split at haction
    · rename_i hregenerate
      split at haction
      · cases haction
      · rename_i htarget
        split at haction
        · cases haction
        · rename_i hids
          split at haction
          · cases haction
          · rename_i hcreators
            split at haction
            · cases haction
            · rename_i hconcepts
              cases hreq : req.target with
              | none => simp [hreq] at htarget
              | some target =>
                  rw [hreq] at htarget hcreators hconcepts
                  refine Or.inr ⟨hregenerate, fun hnil => hids (Or.inl hnil), target,
                    by simpa using htarget, rfl, ?_, ?_⟩
                  · simpa using hcreators
                  · simpa using hconcepts
    · cases haction

end ReviewV2Request

section Accepted
variable {req : ReviewV2Request} {payload resolution : Dict} {st : BatchState} {shown : List Dict}

theorem validatedReviewResolution_ok
    (hconcepts : field? payload "concepts" = some (.arr (st.concepts.map .obj)))
    (hcreators : field? payload "creators" = some (.arr (shown.map .obj)))
    (h : validatedReviewResolution req payload = .ok resolution) :
    resolution = req.resolution ∧ req.checkAgainst st.concepts shown = .ok () := by
  unfold validatedReviewResolution at h
  rw [hconcepts, hcreators] at h
  dsimp only at h
  rw [dictsOf_map_obj, dictsOf_map_obj] at h
  split at h
  · rename_i hchecked
    cases h
    exact ⟨rfl, hchecked⟩
  · cases h
  · cases h

theorem applyGiven_same {roster : List Dict} (hsame : List.Forall₂ SameToReview shown roster)
    {updates : Option (List Dict)} {reviewed : List Dict}
    (h : ReviewV2Request.applyGiven applyReviewCreatorUpdates shown updates = .ok reviewed) :
    ∃ others, ReviewV2Request.applyGiven applyReviewCreatorUpdates roster updates =
      .ok others ∧ List.Forall₂ SameToReview reviewed others := by
  cases updates with
  | none =>
      cases h
      exact ⟨_, rfl, hsame⟩
  | some updates => exact applyReviewCreatorUpdates_same hsame h

theorem approve_accepted (haction : req.action = "approve")
    (hsame : List.Forall₂ SameToReview shown st.roster)
    (h : req.checkAgainst st.concepts shown = .ok ()) :
    ∃ st', approvePlan req.resolution st = .ok st' := by
  unfold ReviewV2Request.checkAgainst at h
  rw [if_pos haction] at h
  obtain ⟨concepts, hconcepts, hrest⟩ := ok_of_bind h
  obtain ⟨reviewed, hreviewed, hvalid⟩ := ok_of_bind hrest
  obtain ⟨roster, hroster, hrelated⟩ := applyGiven_same hsame hreviewed
  refine ⟨{ st with roster, concepts, reviewApproved := true, revisionRequest := none }, ?_⟩
  unfold approvePlan
  rw [req.resolution_creators, req.resolution_concepts, applyIfList_given, applyIfList_given,
    hroster, hconcepts, ok_bind, validateVoiceSelections_same hrelated hvalid, ok_bind]
  rfl

/-- What a request for another plan needs is there. -/
theorem regenerate_accepted {target : String} (haction : req.action = "regenerate")
    (hids : req.ids ≠ []) (hmem : target ∈ reviewTargets) (htarget : req.target = some target)
    (hnoCreators : target ∈ ["concepts", "scripts"] → req.creators = none)
    (hnoConcepts : target ∈ ["creators", "voices"] → req.concepts = none)
    (hsame : List.Forall₂ SameToReview shown st.roster)
    (h : req.checkAgainst st.concepts shown = .ok ()) :
    (target ∈ ["creators", "voices"] → ∀ id ∈ req.ids, id ∈ st.roster.map idText) ∧
    ∃ st', requestRevision req.resolution target st = .ok st' := by
  unfold ReviewV2Request.checkAgainst at h
  rw [if_neg (by simp [haction]), if_pos hids, htarget] at h
  dsimp only [Option.any_some] at h
  by_cases havailable : ∃ id ∈ req.ids, id ∉ ReviewV2Request.availableIds
      (if decide (target ∈ ["creators", "voices"]) = true then shown else st.concepts)
  · rw [if_pos havailable] at h
    cases h
  · rw [if_neg havailable] at h
    obtain ⟨reviewed, hreviewed, hrest⟩ := ok_of_bind h
    obtain ⟨concepts, hconcepts, -⟩ := ok_of_bind hrest
    obtain ⟨roster, hroster, -⟩ := applyGiven_same hsame hreviewed
    constructor
    · intro hvoices id hid
      have hin : id ∈ ReviewV2Request.availableIds shown := by
        by_contra hnot
        exact havailable ⟨id, hid, by rwa [if_pos (decide_eq_true hvoices)]⟩
      rw [ids_eq_of_same hsame]
      exact (List.filter_sublist.map idText).subset hin
    · have hcreators : applyIfList applyReviewCreatorUpdates st.roster
          (if target ∈ ["creators", "voices"] then field? req.resolution "creators" else none) =
            .ok roster := by
        split
        · rw [req.resolution_creators, applyIfList_given, hroster]
        · rename_i hother
          have hnone := hnoCreators (by
            simp only [reviewTargets, List.mem_cons, List.not_mem_nil, or_false] at hmem hother ⊢
            tauto)
          rw [ReviewV2Request.creatorUpdates, hnone] at hroster
          exact hroster
      have hconceptsOf : applyIfList applyReviewConceptUpdates st.concepts
          (if target ∈ ["concepts", "scripts"] then field? req.resolution "concepts" else none) =
            .ok concepts := by
        split
        · rw [req.resolution_concepts, applyIfList_given, hconcepts]
        · rename_i hother
          have hnone := hnoConcepts (by
            simp only [reviewTargets, List.mem_cons, List.not_mem_nil, or_false] at hmem hother ⊢
            tauto)
          rw [ReviewV2Request.conceptUpdates, hnone] at hconcepts
          exact hconcepts
      refine ⟨{ st with
        roster
        concepts
        reviewApproved := false
        revisionRequest := some
          { target
            ids := itemsOf (field? req.resolution "ids")
            feedback := textOr (field? req.resolution "feedback") "" } }, ?_⟩
      unfold requestRevision
      rw [hcreators, hconceptsOf, ok_bind, ok_bind]
      rfl

theorem targetOf_resolution {target : String} (haction : req.action = "regenerate")
    (hmem : target ∈ reviewTargets) (htarget : req.target = some target) :
    targetOf req.resolution = some target := by
  unfold targetOf
  rw [(req.resolution_request haction).1, htarget]
  exact if_pos hmem

/-- The state of a plan that is to be made anew. -/
theorem requestRevision_state {target : String} {st' : BatchState}
    (haction : req.action = "regenerate") (h : requestRevision req.resolution target st = .ok st') :
    st'.reviewApproved = false ∧ st'.revisionRequest = some
        { target, ids := req.ids.map .str, feedback := req.feedback.getD "" } ∧
      RosterReviewed st.roster st'.roster := by
  obtain ⟨roster, concepts, hroster, -, rfl⟩ := requestRevision_ok h
  obtain ⟨-, hids, hfeedback⟩ := req.resolution_request haction
  refine ⟨rfl, ?_, rosterReviewed_of_applyIfList hroster⟩
  simp [hids, hfeedback]

end Accepted

/-- What the endpoint accepts of a request on the gate of a run, the graph takes: the
review returns and the run goes where the request sends it. A re-roll of voices then
fails, with a provider that answers, exactly for a creator without re-rolls left, and an
approved plan is finalized. -/
theorem accepted_review_resumes {cfg : BatchConfig} (hreview : cfg.reviewPlan = true)
    (events : List BatchEvent) (hgate : (BatchRun.after cfg events).node = .review)
    {checkNetloc : String → Except String Unit} {payload : Dict}
    (hpayload : publicGatePayload checkNetloc
      (reviewInterrupt (BatchRun.after cfg events).state) = .ok payload)
    {req : ReviewV2Request} (hvalid : req.Valid) {resolution : Dict}
    (haccepted : validatedReviewResolution req payload = .ok resolution) :
    ∃ st, nodeReview cfg (.obj resolution) (BatchRun.after cfg events).state = .ok st ∧
      routeAfterReview st = req.destination ∧
      (req.destination = .voiceCandidates →
        ∀ design, (∀ creator rerolls, (design creator rerolls).isSome = true) →
        ((∃ designed, nodeVoiceCandidates cfg design st = .ok designed) ↔
          ∀ creator ∈ (BatchRun.after cfg events).state.roster,
            idText creator ∈ req.ids → rerollCount creator < cfg.maxRerolls)) ∧
      (req.destination = .finalizeVoices → ∀ finalize, AcceptsRoster finalize st →
        ∃ finalized, nodeFinalizeVoices finalize st = .ok finalized) := by
  have hcomplete := (planned_after cfg events).complete (Or.inl hgate)
  have hopen := gated_after hreview events
  unfold Gated at hopen
  rw [hgate] at hopen
  dsimp only at hopen
  generalize (BatchRun.after cfg events).state = st at *
  obtain ⟨shown, hconcepts, hcreators, hsame⟩ := gate_shows_plan hcomplete hpayload
  obtain ⟨rfl, hchecked⟩ := validatedReviewResolution_ok hconcepts hcreators haccepted
  have hnode : ∀ st', nodeReview cfg (.obj req.resolution) st = .ok st' →
      Complete cfg st' := fun st' h => hcomplete.review (nodeReview_ok h)
  rcases hvalid.cases with haction | ⟨haction, hids, target, hmem, htarget, hcreators, hconcepts⟩
  · obtain ⟨st', happroved⟩ := approve_accepted haction hsame hchecked
    have hreviewed : nodeReview cfg (.obj req.resolution) st = .ok st' := by
      rw [nodeReview_approves hreview (by rw [req.resolution_action, haction]), happroved]
    have hdestination : req.destination = .finalizeVoices := by
      rw [ReviewV2Request.destination, if_pos haction]
    have hplan := hopen.approve hcomplete.cast happroved
    refine ⟨st', hreviewed, ?_, ?_, ?_⟩
    · rw [hdestination, routeAfterReview, if_pos hplan.approved]
    · rw [hdestination]
      exact fun h => absurd h (by decide)
    · exact fun _ finalize haccepts => hplan.finalizes (hnode st' hreviewed) haccepts
  · obtain ⟨hknown, st', hrequested⟩ :=
      regenerate_accepted haction hids hmem htarget hcreators hconcepts hsame hchecked
    obtain ⟨hpending, hrequest, hroster⟩ := requestRevision_state haction hrequested
    have hreviewed : nodeReview cfg (.obj req.resolution) st = .ok st' := by
      rw [nodeReview_regenerates hreview (by rw [req.resolution_action, haction])
        (targetOf_resolution haction hmem htarget), hrequested]
    have hroute : routeAfterReview st' = req.destination ∧
        (req.destination = .voiceCandidates ↔ target = "voices") ∧
        req.destination ≠ .finalizeVoices := by
      simp only [reviewTargets, List.mem_cons, List.not_mem_nil, or_false] at hmem
      rcases hmem with rfl | rfl | rfl | rfl <;>
        simp [routeAfterReview, ReviewV2Request.destination, hpending, hrequest, haction, htarget]
    refine ⟨st', hreviewed, hroute.1, fun hvoices design hanswers => ?_,
      fun hfinalize => absurd hfinalize hroute.2.2⟩
    obtain rfl := hroute.2.1.mp hvoices
    have hasked : requestedVoices st' = some req.ids := by
      simp [requestedVoices, hrequest, PyStr.str, Function.comp_def]
    have hrerolls := hroster.rerollCounts
    rw [nodeVoiceCandidates_rerolls hanswers hasked hids
      (fun id hid => hroster.ids ▸ hknown (by decide) id hid)
      (fun creator hcreator => (hnode st' hreviewed).cast.idText_ne hcreator)]
    constructor
    · intro hlimits creator hcreator hid
      obtain ⟨out, hout, hfield, hcount⟩ := exists_right hrerolls hcreator
      have hname : idText out = idText creator := congrArg (textOr · "") hfield
      exact hcount ▸ hlimits out hout (hname ▸ hid)
    · intro hlimits out hout hid
      obtain ⟨creator, hcreator, hfield, hcount⟩ := exists_left hrerolls hout
      have hname : idText out = idText creator := congrArg (textOr · "") hfield
      exact hcount ▸ hlimits creator hcreator (hname ▸ hid)

def shownCreator (id : String) : Dict :=
  [("id", .str id), ("image_uri", .null), ("voice_ref", .null),
    ("voice_preview_uri", .str "/media/v-1.mp3"), ("image", .null), ("voice", .null),
    ("angles", .arr []), ("archetype", .str "host"), ("visual_brief", .str "kitchen"),
    ("voice_brief", .str "warm"), ("performance_style", .str "calm"), ("exclusions", .arr []),
    ("voice_candidates", .arr [.obj [("candidate_id", .str "v-1"),
      ("preview", .obj [("kind", .str "voice_preview"), ("uri", .str "/media/v-1.mp3"),
        ("media_type", .str "audio"), ("renderable", .bool true)]),
      ("duration_seconds", .num 0), ("media_type", .str "audio/mpeg")]]),
    ("selected_voice_candidate_id", .null)]

def shownPlan : Dict :=
  [("type", .str "review_creative_plan"),
    ("concepts", .arr [.obj [("id", .str "c-0"), ("script", .str "HOOK: hi"),
      ("script_draft", .obj [])]]),
    ("creators", .arr [.obj (shownCreator "creator-0"), .obj (shownCreator "creator-1")])]

def otherVoices : ReviewV2Request where
  action := "regenerate"
  target := some "voices"
  ids := ["creator-1"]

theorem otherVoices_valid : otherVoices.Valid where
  concepts := by simp [otherVoices]
  creators := by simp [otherVoices]
  ids := by decide
  feedback := by decide
  version := by simp [otherVoices]
  gateType := by simp [otherVoices]
  action := by decide +kernel

/-- The first candidate of either creator, and the plan is approved. -/
def firstVoices : ReviewV2Request where
  action := "approve"
  creators := some [{ id := "creator-0", selectedVoiceCandidateId := some "v-1" },
    { id := "creator-1", selectedVoiceCandidateId := some "v-1" }]

theorem firstVoices_valid : firstVoices.Valid where
  concepts := by simp [firstVoices]
  creators := by
    intro patches hpatches
    obtain rfl := Option.some.inj hpatches
    decide +kernel
  ids := by decide
  feedback := by decide
  version := by simp [firstVoices]
  gateType := by simp [firstVoices]
  action := by decide +kernel

/-- A re-roll of one voice goes back to the voices, an approval goes on to finalize them. -/
theorem sampleRequests_resume :
    (validatedReviewResolution otherVoices shownPlan = .ok otherVoices.resolution ∧
      ∃ st, nodeReview { reviewPlan := true } (.obj otherVoices.resolution)
          (BatchRun.after { reviewPlan := true } (reviewedBatch.take 5)).state = .ok st ∧
        routeAfterReview st = .voiceCandidates) ∧
    validatedReviewResolution firstVoices shownPlan = .ok firstVoices.resolution ∧
      ∃ st, nodeReview { reviewPlan := true } (.obj firstVoices.resolution)
          (BatchRun.after { reviewPlan := true } (reviewedBatch.take 5)).state = .ok st ∧
        routeAfterReview st = .finalizeVoices := by
  have hpayload : publicGatePayload (fun _ => .ok ()) (reviewInterrupt
      (BatchRun.after { reviewPlan := true } (reviewedBatch.take 5)).state) = .ok shownPlan := by
    decide +kernel
  constructor
  · have haccepted :
        validatedReviewResolution otherVoices shownPlan = .ok otherVoices.resolution := by
      decide +kernel
    obtain ⟨st, hreviewed, hroute, -⟩ := accepted_review_resumes rfl (reviewedBatch.take 5)
      (by decide +kernel) hpayload otherVoices_valid haccepted
    exact ⟨haccepted, st, hreviewed, hroute⟩
  · have haccepted :
        validatedReviewResolution firstVoices shownPlan = .ok firstVoices.resolution := by
      decide +kernel
    obtain ⟨st, hreviewed, hroute, -⟩ := accepted_review_resumes rfl (reviewedBatch.take 5)
      (by decide +kernel) hpayload firstVoices_valid haccepted
    exact ⟨haccepted, st, hreviewed, hroute⟩

end Orchestrator
