import Orchestrator.Graph.BatchPlan
import Orchestrator.Graph.State
import Orchestrator.Nodes.VoiceSpending

/-!
The fan-out of the concepts over a roster that may lack some of its creators.

The fan-out falls back to another creator for a concept whose own is missing; the
finalization of the voices before it does not let such a plan through.
-/

namespace Orchestrator
open Json Outcome

/-- A field that holds a text. -/
def textField? (fields : Dict) (name : String) : Option String :=
  match field? fields name with
  | some (.str s) => some s
  | _ => none

/-- `str(fields.get(name))`. -/
def strGet (fields : Dict) (name : String) : String :=
  PyStr.str ((field? fields name).getD .null)

/-- What the fan-out reads of a creator. -/
def rosterCreatorOf (creator : Dict) : RosterCreator where
  id := textField? creator "id"
  voiceModelRef := textField? creator "voice_model_ref"
  voiceRef := textField? creator "voice_ref"
  voiceId := textField? creator "voice_id"
  imageSourceUri := textField? creator "image_source_uri"
  upscaledBase := textField? creator "upscaled_base"
  imageLocalPath := textField? creator "image_local_path"

/-- The concept without its script, which moves to the item. -/
def scriptedConceptOf (concept : Dict) : ScriptedConcept where
  id := (orNone (field? concept "id")).map PyStr.str
  fields := dropField concept "script"
  script := textField? concept "script"

/-- `assignments.get(str(concept.get("id")))`; the last assignment counts. -/
def assignedTo (st : BatchState) (concept : Dict) : Option String :=
  (st.creatorAssignments.reverse.find? (·.conceptId = strGet concept "id")).map (·.creatorId)

/-- `creators_by_id.get(id)`. -/
def creatorById (roster : List Dict) (id : String) : Option Dict :=
  roster.reverse.find? fun creator =>
    decide ((field? creator "id").getD .null ≠ .null) && decide (strGet creator "id" = id)

/-- The creator of the concept at a place: the assigned one, or the next in turn. -/
def creatorFor (st : BatchState) (i : Nat) (concept : Dict) : Dict :=
  let roster := if st.roster = [] then [[]] else st.roster
  (creatorById roster ((assignedTo st concept).getD "None")).getD
    (roster[i % roster.length]?.getD [])

/-- The items sent for concepts that start at a place. -/
def sendsFrom (freshId : Nat → String) (st : BatchState) : Nat → List Dict → List Item
  | _, [] => []
  | i, concept :: concepts =>
      fanOutItem (freshId i) (scriptedConceptOf concept) (rosterCreatorOf (creatorFor st i concept))
        :: sendsFrom freshId st (i + 1) concepts

/-- `fan_out`: one item for each concept. -/
def fanOutSends (freshId : Nat → String) (st : BatchState) : List Item :=
  sendsFrom freshId st 0 st.concepts

/-- The item is that of the concept, with its script, and a creator of the roster: the
assigned one when it is there. -/
structure ServesConcept (st : BatchState) (concept : Dict) (item : Item) : Prop where
  id : item.id = idText concept
  script : item.script = textField? concept "script"
  fields : item.concept = dropField concept "script"
  creator : ∃ creator ∈ st.roster, item.creatorRef = textField? creator "id" ∧
    ∀ id ∈ assignedTo st concept, id ∈ st.roster.map idText → idText creator = id

theorem orNone_of_idText {fields : Dict} (h : idText fields ≠ "") :
    ∃ value, orNone (field? fields "id") = some value ∧ PyStr.str value = idText fields := by
  unfold idText textOr at h ⊢
  split at h
  · rename_i value hvalue
    exact ⟨value, hvalue, rfl⟩
  · exact absurd rfl h

theorem strGet_id {fields : Dict} (h : idText fields ≠ "") :
    strGet fields "id" = idText fields ∧ (field? fields "id").getD .null ≠ .null := by
  obtain ⟨value, hvalue, htext⟩ := orNone_of_idText h
  cases hfield : field? fields "id" with
  | none => simp [hfield, orNone] at hvalue
  | some value' =>
      rw [hfield] at hvalue
      simp only [orNone] at hvalue
      split at hvalue
      · rename_i htruthy
        obtain rfl := Option.some.inj hvalue
        refine ⟨by rw [strGet, hfield, ← htext]; rfl, ?_⟩
        rintro rfl
        simp [truthy] at htruthy
      · cases hvalue

section Serves
variable {st : BatchState} {concept : Dict}

theorem creatorFor_serves (hne : st.roster ≠ [])
    (hids : ∀ creator ∈ st.roster, idText creator ≠ "") (i : Nat)
    (concept : Dict) : creatorFor st i concept ∈ st.roster ∧
      ∀ id ∈ assignedTo st concept, id ∈ st.roster.map idText →
        idText (creatorFor st i concept) = id := by
  unfold creatorFor
  dsimp only
  rw [if_neg hne]
  have hturn : st.roster[i % st.roster.length]?.getD [] ∈ st.roster := by
    have hlt : i % st.roster.length < st.roster.length :=
      Nat.mod_lt _ (List.length_pos_iff.mpr hne)
    rw [List.getElem?_eq_getElem hlt]
    exact List.getElem_mem hlt
  cases hfound : creatorById st.roster ((assignedTo st concept).getD "None") with
  | some creator =>
      have hmem : creator ∈ st.roster := List.mem_reverse.mp (List.mem_of_find?_eq_some hfound)
      refine ⟨hmem, fun id hassigned _ => ?_⟩
      have hkey := List.find?_some hfound
      rw [Option.mem_def.mp hassigned] at hkey
      simp only [Bool.and_eq_true, decide_eq_true_eq, Option.getD_some] at hkey
      exact (strGet_id (hids creator hmem)).1.symm.trans hkey.2
  | none =>
      refine ⟨hturn, fun id hassigned hroster => ?_⟩
      obtain ⟨creator, hcreator, rfl⟩ := List.mem_map.mp hroster
      rw [Option.mem_def.mp hassigned] at hfound
      have hnot := List.find?_eq_none.mp hfound creator (List.mem_reverse.mpr hcreator)
      obtain ⟨hkey, hnull⟩ := strGet_id (hids creator hcreator)
      simp [hkey, hnull] at hnot

theorem fanOutItem_serves (freshId : String) (hid : idText concept ≠ "") {creator : Dict}
    (hcreator : creator ∈ st.roster) (hassigned : ∀ id ∈ assignedTo st concept,
      id ∈ st.roster.map idText → idText creator = id) :
    ServesConcept st concept
      (fanOutItem freshId (scriptedConceptOf concept) (rosterCreatorOf creator)) where
  id := by
    obtain ⟨value, hvalue, htext⟩ := orNone_of_idText hid
    have hconceptId : (scriptedConceptOf concept).id = some (idText concept) := by
      rw [← htext]
      simp [scriptedConceptOf, hvalue]
    simp [fanOutItem, hconceptId, hid]
  script := rfl
  fields := rfl
  creator := ⟨creator, hcreator, rfl, hassigned⟩

/-- Every concept is sent once, in order, to a creator of the roster. -/
theorem fanOutSends_serve (hne : st.roster ≠ [])
    (hids : ∀ creator ∈ st.roster, idText creator ≠ "")
    (hconcepts : ∀ concept ∈ st.concepts, idText concept ≠ "") (freshId : Nat → String) :
    List.Forall₂ (ServesConcept st) st.concepts (fanOutSends freshId st) := by
  have hfrom : ∀ (concepts : List Dict) (i : Nat), (∀ concept ∈ concepts, idText concept ≠ "") →
      List.Forall₂ (ServesConcept st) concepts (sendsFrom freshId st i concepts) := by
    intro concepts
    induction concepts with
    | nil => exact fun _ _ => .nil
    | cons concept concepts ih =>
        intro i hconcepts
        obtain ⟨hconcept, hrest⟩ := List.forall_mem_cons.mp hconcepts
        obtain ⟨hcreator, hassigned⟩ := creatorFor_serves hne hids i concept
        exact .cons (fanOutItem_serves _ hconcept hcreator hassigned) (ih (i + 1) hrest)
  exact hfrom st.concepts 0 hconcepts

end Serves

/-- A creator with a selected candidate has all that its finalization needs. -/
theorem Voiced.ready {creator : Dict} (h : Voiced creator)
    (hselected : hasSelection creator = true) :
    finalizable creator = true ∧ hasPreview creator = true := by
  obtain ⟨v, hdescribes, -⟩ := h
  obtain ⟨-, hmem⟩ := Bool.and_eq_true_iff.mp hselected
  obtain ⟨candidate, hcandidate, hid⟩ := List.mem_map.mp (of_decide_eq_true hmem)
  have hsome : (selectedCandidate creator).isSome = true := by
    rw [selectedCandidate, List.find?_isSome]
    exact ⟨candidate, hcandidate, by simpa using hid⟩
  obtain ⟨selected, hselected⟩ := Option.isSome_iff_exists.mp hsome
  have hoffered : selected ∈ voiceCandidates creator := List.mem_of_find?_eq_some hselected
  unfold voiceCandidates at hoffered
  rw [hdescribes.candidates, VoiceRecord.offered] at hoffered
  cases hcurrent : v.current with
  | none => simp [hcurrent, dictsOf] at hoffered
  | some d =>
      have hbatch := hdescribes.batch
      rw [hcurrent] at hbatch
      have hdicts : dictsOf (d.candidates.map fun c => .obj c.modelDump) =
          d.candidates.map (·.modelDump) := by
        rw [← dictsOf_map_obj (d.candidates.map (·.modelDump)), List.map_map]
        rfl
      rw [hcurrent] at hoffered
      dsimp only at hoffered
      rw [hdicts] at hoffered
      obtain ⟨c, -, rfl⟩ := List.mem_map.mp hoffered
      constructor
      · simp [finalizable, hselected, hasDesignBatch, hbatch]
      · simp [hasPreview, hselected, StoredCandidate.modelDump, Json.get?, truthy, c.uri_ne]

section Partial
variable {cfg : BatchConfig} {finalize : Dict → Option FinalizedVoice} {st : BatchState}

/-- The provider accepts the finalization of everyone of the roster. -/
def AcceptsRoster (finalize : Dict → Option FinalizedVoice) (st : BatchState) : Prop :=
  ∀ creator ∈ st.roster, ∃ voice, finalize creator = some voice ∧ PyStr.strip voice.voiceRef ≠ ""

theorem finalizeTurns_ok (hcomplete : Complete cfg st)
    (hselected : ∀ creator ∈ st.roster, hasSelection creator = true)
    (haccepts : AcceptsRoster finalize st) :
    ∃ roster, List.Forall₂ (fun creator finalized =>
      finalizeTurn finalize creator = .ok finalized) st.roster roster := by
  have hturn : ∀ creator ∈ st.roster, ∃ out, finalizeTurn finalize creator = .ok out := by
    intro creator hcreator
    cases hneeds : needsVoice creator with
    | false => exact finalizeTurn_voiced finalize hneeds
    | true =>
        obtain ⟨hfinalizable, hpreview⟩ :=
          (hcomplete.voiced creator hcreator).ready (hselected creator hcreator)
        obtain ⟨voice, hvoice, href⟩ := haccepts creator hcreator
        exact (finalizeTurn_accepted hneeds hfinalizable hvoice href).1 hpreview
  obtain ⟨roster, hroster⟩ := mapM_ok_of_forall hturn
  exact ⟨roster, forall₂_of_mapM hroster⟩

/-- A plan whose roster may be partial is finalized and every concept served exactly when
each creator a concept was assigned to was built. -/
theorem partial_roster_serves_iff (hcomplete : Complete cfg st)
    (hconcepts : ∀ concept ∈ st.concepts, idText concept ≠ "")
    (hselected : ∀ creator ∈ st.roster, hasSelection creator = true)
    (haccepts : AcceptsRoster finalize st) (freshId : Nat → String) :
    (∃ st', nodeFinalizeVoices finalize st = .ok st' ∧ st'.concepts = st.concepts ∧
        List.Forall₂ (ServesConcept st') st.concepts (fanOutSends freshId st')) ↔
      ∀ id ∈ requiredCreatorIds st, id ∈ st.roster.map idText := by
  obtain ⟨roster, hturns⟩ := finalizeTurns_ok hcomplete hselected haccepts
  have hids : roster.map idText = st.roster.map idText :=
    map_eq_of_forall₂ (fun _ _ hturn =>
      congrArg (textOr · "") (Voiced.finalizeTurn_frame hturn (by decide))) hturns
  have hvoiced : ∀ creator ∈ roster, (orNone (field? creator "voice_ref")).isSome = true := by
    intro out hout
    obtain ⟨before, -, hturn⟩ := exists_left hturns hout
    exact finalizeTurn_voice hturn
  have hmissing : missingVoices (requiredCreatorIds st) roster = [] ↔
      ∀ id ∈ requiredCreatorIds st, id ∈ st.roster.map idText :=
    hids ▸ missingVoices_eq_nil_iff hvoiced
  have hnode : nodeFinalizeVoices finalize st =
      if missingVoices (requiredCreatorIds st) roster = [] then .ok { st with roster }
      else .error (.valueError ("assigned creators without voice_ref: " ++
        ", ".intercalate (missingVoices (requiredCreatorIds st) roster))) := by
    unfold nodeFinalizeVoices
    rw [mapM_of_forall₂ hturns, ok_bind]
    rfl
  constructor
  · rintro ⟨st', hst', -⟩
    by_contra hnot
    rw [hnode, if_neg (mt hmissing.mp hnot)] at hst'
    cases hst'
  · intro hassigned
    have hserve : ∀ st' : BatchState, st'.concepts = st.concepts → Cast cfg st'.roster →
        List.Forall₂ (ServesConcept st') st.concepts (fanOutSends freshId st') := by
      intro st' hsame hcast
      rw [← hsame] at hconcepts ⊢
      exact fanOutSends_serve hcast.ne_nil (fun _ hcreator => hcast.idText_ne hcreator)
        hconcepts freshId
    exact ⟨{ st with roster }, by rw [hnode, if_pos (hmissing.mpr hassigned)], rfl,
      hserve _ rfl (hcomplete.cast.of_ids_eq hids)⟩

end Partial

def plainProfile : CreatorProfileSubmission where
  archetype := "host"
  visualBrief := "kitchen"
  voiceBrief := "warm"
  performanceStyle := "calm"

def firstCreatorOnly (i : Nat) : Option BuiltCreator :=
  if i = 0 then some { fields := [], undesigned := ⟨rfl, rfl⟩ } else none

def partialBatch (assigned : Fin 2) : List BatchEvent :=
  [.concepts [[("id", .str "c-0")]],
    .scripts fun _ => { script := "HOOK: hi", scriptDraft := [] },
    .creatorProfiles { first := plainProfile, second := plainProfile
                       assignments := [{ conceptId := "c-0", creatorIndex := assigned }] },
    .roster none firstCreatorOnly,
    .voiceCandidates fun _ _ => some sampleDesign,
    .review .null]

def acceptedVoice (_ : Dict) : Option FinalizedVoice := some { voiceRef := "voice-1" }

theorem partialBatch_finalizes (assigned : Fin 2) :
    (BatchRun.after { reviewPlan := false } (partialBatch assigned)).node = .finalizeVoices ∧
    ∀ creator ∈ (BatchRun.after { reviewPlan := false } (partialBatch assigned)).state.roster,
      hasSelection creator = true := by
  revert assigned
  decide +kernel

/-- The concept is the first creator's, who was built. -/
theorem partial_roster_serves_first :
    ∃ st', nodeFinalizeVoices acceptedVoice
        (BatchRun.after { reviewPlan := false } (partialBatch 0)).state = .ok st' ∧
      st'.concepts = (BatchRun.after { reviewPlan := false } (partialBatch 0)).state.concepts ∧
      List.Forall₂ (ServesConcept st')
        (BatchRun.after { reviewPlan := false } (partialBatch 0)).state.concepts
        (fanOutSends (fun _ => "item") st') := by
  obtain ⟨hnode, hselected⟩ := partialBatch_finalizes 0
  exact (partial_roster_serves_iff ((planned_after _ _).complete (Or.inr hnode))
    (by decide +kernel) hselected (fun _ _ => ⟨_, rfl, by decide⟩) _).mpr (by decide +kernel)

/-- The concept is the second creator's, who was not. -/
theorem assigned_creator_not_built :
    ¬ ∀ cfg events finalize, (BatchRun.after cfg events).node = .finalizeVoices →
      (∀ creator ∈ (BatchRun.after cfg events).state.roster, hasSelection creator = true) →
      AcceptsRoster finalize (BatchRun.after cfg events).state →
        ∃ st', nodeFinalizeVoices finalize (BatchRun.after cfg events).state = .ok st' := by
  intro h
  obtain ⟨hnode, hselected⟩ := partialBatch_finalizes 1
  obtain ⟨st', hst'⟩ := h _ _ acceptedVoice hnode hselected fun _ _ => ⟨_, rfl, by decide⟩
  have herror : nodeFinalizeVoices acceptedVoice
      (BatchRun.after { reviewPlan := false } (partialBatch 1)).state =
        .error (.valueError "assigned creators without voice_ref: creator-1") := by
    decide +kernel
  rw [herror] at hst'
  cases hst'

end Orchestrator
