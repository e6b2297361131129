import Mathlib.Algebra.Ring.Rat
import Orchestrator.Nodes.Review

/-!
The nodes that make the creative plan, from the concepts to the finalized voices.

What a generator, an adapter or the storage returns is an argument. A contract that the
code validates on it is a field of the argument's type.
-/

namespace Orchestrator
open Json

/-- `Step 1`: the whole batch of concepts is the generator's. -/
def nodeConcepts (concepts : List Dict) (st : BatchState) : BatchState := { st with concepts }

structure ScriptResult where
  script : String
  scriptDraft : Dict

/-- `Step 2`: every concept gets the script written for it. -/
def nodeScripts (write : Dict → ScriptResult) (st : BatchState) : BatchState :=
  { st with
    concepts := st.concepts.map fun concept =>
      merge concept [("script", .str (write concept).script),
        ("script_draft", .obj (write concept).scriptDraft)] }

structure CreatorProfileSubmission where
  archetype : String
  visualBrief : String
  voiceBrief : String
  performanceStyle : String
  exclusions : List String := []

structure CreatorAssignmentSubmission where
  conceptId : String
  creatorIndex : Fin 2

/-- Exactly two creators, and who presents which concept. -/
structure CreatorRosterSubmission where
  first : CreatorProfileSubmission
  second : CreatorProfileSubmission
  assignments : List CreatorAssignmentSubmission

def CreatorProfileSubmission.withId (p : CreatorProfileSubmission) (id : String) :
    CreatorProfile where
  archetype := p.archetype
  visualBrief := p.visualBrief
  voiceBrief := p.voiceBrief
  performanceStyle := p.performanceStyle
  exclusions := p.exclusions
  id := id

/-- The ids come from the server: `creator-0` and `creator-1`. -/
def CreatorRosterSubmission.creators (submission : CreatorRosterSubmission) :
    List CreatorProfile :=
  [submission.first.withId "creator-0", submission.second.withId "creator-1"]

def CreatorRosterSubmission.creatorId (index : Fin 2) : String :=
  if index = 0 then "creator-0" else "creator-1"

def materializeCreatorRoster (submission : CreatorRosterSubmission) (conceptIds : List String) :
    Except StageError (List CreatorProfile × List CreatorAssignment) :=
  let assigned := submission.assignments.map (·.conceptId)
  if assigned.Nodup ∧ (∀ id ∈ assigned, id ∈ conceptIds) ∧ ∀ id ∈ conceptIds, id ∈ assigned then
    .ok (submission.creators, submission.assignments.map fun a =>
      { conceptId := a.conceptId, creatorId := CreatorRosterSubmission.creatorId a.creatorIndex })
  else .error (.valueError "creator assignments must cover each known concept exactly once")

/-- `str(concept["id"])`; a concept without an id does not come this far. -/
def conceptId (concept : Dict) : Except StageError String :=
  match field? concept "id" with
  | some id => .ok (PyStr.str id)
  | none => .error .generator

def nodeCreatorProfiles (submission : CreatorRosterSubmission) (st : BatchState) :
    Except StageError BatchState := do
  let conceptIds ← st.concepts.mapM conceptId
  let (creatorProfiles, creatorAssignments) ← materializeCreatorRoster submission conceptIds
  return { st with creatorProfiles, creatorAssignments }

structure StoredMedia where
  uri : String
  localPath : String

/-- The media pointers of a creator after its image and its voice were stored. -/
def persistCreatorMedia (image voice : Option StoredMedia) (creator : Dict) : Dict :=
  let out := match field? creator "upscaled_base", image with
    | some (.str uri), some stored =>
        let out := setField creator "upscaled_base" (.str stored.uri)
        let out := setField out "image_source_uri" (.str uri)
        setField out "image_local_path" (.str stored.localPath)
    | _, _ => creator
  match field? out "voice_id", voice with
  | some (.str uri), some stored =>
      let ref := (orNone (field? out "voice_model_ref")).getD (.str stored.uri)
      let out := setField out "voice_id" (.str stored.uri)
      let out := setField out "voice_ref" ref
      let out := setField out "voice" ref
      let out := setField out "voice_preview_uri" (.str stored.uri)
      setField out "voice_source_uri" (.str uri)
  | _, _ => out

/-- What the adapter and the storage give for one creator. -/
structure BuiltCreator where
  fields : Dict
  image : Option StoredMedia := none
  voice : Option StoredMedia := none
  preview : Option String := none
  undesigned : Undesigned fields

def previewField (preview : Option String) : Json :=
  match preview with
  | some uri => .str uri
  | none => .null

/-- The creator the roster keeps: the adapter's fields under those of its profile. -/
def rosterCreator (profile : Option CreatorProfile) (built : BuiltCreator) : Dict :=
  let creator := match profile with
    | some profile => setField (merge built.fields profile.modelDump) "id" (.str profile.id)
    | none => built.fields
  let creator := persistCreatorMedia built.image built.voice creator
  setField creator "voice_preview_uri" (previewField built.preview)

/-- `a.get(first) or a.get(second) or ...`: the first that counts, else the last. -/
def orFields (fields : Dict) : List String → Json
  | [] => .null
  | [name] => (field? fields name).getD .null
  | name :: names => (orNone (field? fields name)).getD (orFields fields names)

/-- The fields set to a value, unless there is none. -/
def setUnlessNull (fields : Dict) (names : List String) (value : Json) : Dict :=
  if value = .null then fields
  else names.foldl (fun fields name => setField fields name value) fields

def normalizeSeedCreator (creator : Dict) : Option Dict :=
  let creatorId := orFields creator ["id", "creator_id"]
  if !creatorId.truthy then none
  else
    let imageUri := orFields creator ["image_uri", "image", "upscaled_base", "image_source_uri"]
    let voiceRef := orFields creator ["voice_id", "voice_ref", "voice"]
    let previewUri := orFields creator ["voice_preview_uri", "voice_preview", "preview_uri"]
    let normalized := setField creator "id" (.str (PyStr.str creatorId))
    let normalized := setUnlessNull normalized ["upscaled_base", "image_uri", "image"] imageUri
    let normalized := setUnlessNull normalized ["image_source_uri"]
      (if imageUri = .null then .null
      else (orNone (field? creator "image_source_uri")).getD imageUri)
    let normalized := setUnlessNull normalized ["voice_id", "voice_ref", "voice"] voiceRef
    let normalized := setUnlessNull normalized ["voice_preview_uri"] previewUri
    some (setField normalized "angles" (.arr (itemsOf (field? creator "angles"))))

/-- The reference image read from the stored file, when the creator's own cannot be fetched. -/
def ensureSeedReferenceImage (dataUri : Option String) (creator : Dict) : Dict :=
  match dataUri with
  | some uri => setField creator "image_source_uri" (.str uri)
  | none => creator

/-- `Step 3`: a reused creator alone, or those of the profiles that could be built. -/
def nodeRoster (cfg : BatchConfig) (seedImage : Option String)
    (build : Nat → Option BuiltCreator) (st : BatchState) : Except StageError BatchState :=
  match cfg.seedCreator.bind (fun seed => normalizeSeedCreator seed.fields) with
  | some seed =>
      let seed := ensureSeedReferenceImage seedImage seed
      .ok { st with
        roster := [seed]
        creatorAssignments :=
          (st.concepts.filter fun concept => (orNone (field? concept "id")).isSome).map
            fun concept => { conceptId := idText concept, creatorId := idText seed } }
  | none =>
      let n := if st.creatorProfiles = [] then cfg.creators else st.creatorProfiles.length
      let roster := (List.range n).filterMap fun i =>
        (build i).map (rosterCreator st.creatorProfiles[i]?)
      if roster = [] ∧ n ≠ 0 then .error .generator else .ok { st with roster }

/-- A `VoiceCandidate` whose preview was stored. -/
structure StoredCandidate where
  candidateId : String
  previewUri : String
  previewMeta : Dict := []
  durationSeconds : Rat := 0
  id_length : 1 ≤ candidateId.length ∧ candidateId.length ≤ 200
  uri_ne : previewUri ≠ ""

def StoredCandidate.modelDump (c : StoredCandidate) : Dict :=
  [("candidate_id", .str c.candidateId),
    ("preview", .obj [("kind", .str "voice_preview"), ("uri", .str c.previewUri),
      ("meta", .obj c.previewMeta)]),
    ("duration_seconds", .num c.durationSeconds), ("media_type", .str "audio/mpeg")]

/-- A voice spec and the `VoiceDesignBatch` designed from it. -/
structure StoredDesign where
  spec : Dict
  designModel : String := "eleven_ttv_v3"
  descriptionHash : String
  promptVersion : String := "voice-match-v1"
  candidates : List StoredCandidate
  costUsd : Rat
  candidates_ne : candidates ≠ []
  cost_nonneg : 0 ≤ costUsd

/-- `batch_dict` as the node keeps it. -/
def StoredDesign.batch (d : StoredDesign) (rerollCount : Int) : Dict :=
  [("provider", .str "elevenlabs"), ("design_model", .str d.designModel),
    ("description_hash", .str d.descriptionHash), ("prompt_version", .str d.promptVersion),
    ("candidates", .arr (d.candidates.map fun c => .obj c.modelDump)),
    ("cost_usd", .num d.costUsd), ("cost_source", .str "estimate"),
    ("reroll_count", .num rerollCount)]

def rerollCount (creator : Dict) : Int := intOf (field? creator "voice_reroll_count")

/-- The previous candidates go to the history, and the voice made from them goes. -/
def archiveVoice (rerolls : Int) (creator : Dict) : Dict :=
  let archived := setField creator "voice_design_history" (.arr (designHistory creator))
  let archived := setField archived "voice_reroll_count" (.num rerolls)
  dropField (dropField (dropField archived "voice_ref") "voice_id") "voice"

/-- `creator_dict["selected_voice_candidate_id"]` after a design. -/
def selectCandidate (cfg : BatchConfig) (d : StoredDesign) (creator : Dict) : Dict :=
  if cfg.reviewPlan then setField creator "selected_voice_candidate_id" .null
  else match d.candidates with
    | first :: _ =>
        if cfg.selectionWithoutReview = "first" then
          setField creator "selected_voice_candidate_id" (.str first.candidateId)
        else creator
    | [] => creator

/-- The creator with the designed candidates on the table. -/
def offerVoices (cfg : BatchConfig) (d : StoredDesign) (rerolls : Int) (creator : Dict) : Dict :=
  let creator := setField creator "voice_spec" (.obj d.spec)
  let creator := setField creator "voice_candidates"
    (.arr (d.candidates.map fun c => .obj c.modelDump))
  let creator := setField creator "voice_design_batch" (.obj (d.batch rerolls))
  let creator := selectCandidate cfg d creator
  match d.candidates with
  | first :: _ => setField creator "voice_preview_uri" (.str first.previewUri)
  | [] => creator

/-- `str(creator.get("id") or "creator")`. -/
def voiceCreatorId (creator : Dict) : String := textOr (field? creator "id") "creator"

/-- One turn of the loop over the roster; the cost is what the design cost. `design` is
asked with the creator and the count of its re-rolls. -/
def voiceTurn (cfg : BatchConfig) (design : Dict → Int → Option StoredDesign)
    (requested : Option (List String)) (creator : Dict) : Except StageError (Dict × Rat) :=
  match requested with
  | none =>
      match design creator (rerollCount creator) with
      | none => .error .generator
      | some d => .ok (offerVoices cfg d (rerollCount creator) creator, d.costUsd)
  | some ids =>
      if voiceCreatorId creator ∉ ids then .ok (creator, 0)
      else if cfg.maxRerolls ≤ rerollCount creator then
        .error (.valueError
          ("voice reroll limit reached for creator " ++ voiceCreatorId creator))
      else
        let rerolls := rerollCount creator + 1
        match design creator rerolls with
        | none => .error .generator
        | some d => .ok (offerVoices cfg d rerolls (archiveVoice rerolls creator), d.costUsd)

/-- The ids of a voice re-roll; `none` when every creator gets its first voices. -/
def requestedVoices (st : BatchState) : Option (List String) :=
  match st.revisionRequest with
  | some revision =>
      if revision.target = "voices" then some (revision.ids.map PyStr.str) else none
  | none => none

def nodeVoiceCandidates (cfg : BatchConfig) (design : Dict → Int → Option StoredDesign)
    (st : BatchState) : Except StageError BatchState :=
  let requested := requestedVoices st
  if requested.any (fun ids => ids = [] ∨ ∃ id ∈ ids, id ∉ st.roster.map idText) then
    .error (.valueError "voice reroll IDs must belong to the current creator roster")
  else do
    let designed ← st.roster.mapM (voiceTurn cfg design requested)
    return { st with
      roster := designed.map Prod.fst
      totalCostUsd := st.totalCostUsd + (designed.map Prod.snd).sum }

structure FinalizedVoice where
  voiceRef : String
  provider : String := "elevenlabs"
  designModel : String := ""
  ttsModel : String := ""

/-- The fields a finalized voice sets. -/
def finalizedFields (voice : FinalizedVoice) (batch : Dict) (previewUri : Json) : Dict :=
  [("voice_ref", .str (PyStr.strip voice.voiceRef)),
    ("voice_id", .str (PyStr.strip voice.voiceRef)),
    ("voice", .str (PyStr.strip voice.voiceRef)),
    ("voice_preview_uri", .str (PyStr.str previewUri)),
    ("voice_provider", .str (if voice.provider ≠ "" then voice.provider
      else textOr (field? batch "provider") "elevenlabs")),
    ("voice_design_model", .str (if voice.designModel ≠ "" then voice.designModel
      else textOr (field? batch "design_model") "")),
    ("voice_tts_model", .str voice.ttsModel),
    ("voice_design_hash", .str (textOr (field? batch "description_hash") "")),
    ("voice_status", .str "selected")]

def finalizeTurn (finalize : Dict → Option FinalizedVoice) (creator : Dict) :
    Except StageError Dict :=
  let name := textOr (field? creator "id") "unknown"
  match orNone (field? creator "voice_ref") with
  | some ref => .ok (if hasField creator "voice_id" then creator
      else setField creator "voice_id" ref)
  | none =>
      match (voiceCandidates creator).find? (fun candidate =>
          textOr (field? candidate "candidate_id") "" = selectedId creator) with
      | none => .error (.valueError ("creator " ++ name ++ " has no selected voice candidate"))
      | some selected =>
          match field? creator "voice_design_batch" with
          | some (.obj batch) =>
              match finalize creator with
              | none => .error .generator
              | some voice =>
                  let previewUri :=
                    ((field? selected "preview").bind (·.get? "uri")).getD .null
                  if PyStr.strip voice.voiceRef = "" then
                    .error (.valueError ("creator " ++ name ++ " returned empty voice_ref"))
                  else if !previewUri.truthy then
                    .error (.valueError ("creator " ++ name ++ " has no voice preview URI"))
                  else .ok (merge creator (finalizedFields voice batch previewUri))
          | _ => .error (.valueError ("creator " ++ name ++ " has no voice design batch"))

/-- The ids whose creators need a voice: those assigned, or the whole roster. -/
def requiredCreatorIds (st : BatchState) : List String :=
  let assigned := st.creatorAssignments.map (·.creatorId)
  if assigned = [] then st.roster.map idText else assigned

/-- The required ids whose creator has no voice, in order. -/
def missingVoices (required : List String) (roster : List Dict) : List String :=
  ((required.filter fun id =>
    !((roster.reverse.find? fun creator => idText creator = id).any fun creator =>
      (orNone (field? creator "voice_ref")).isSome)).dedup).insertionSort (· ≤ ·)

def nodeFinalizeVoices (finalize : Dict → Option FinalizedVoice) (st : BatchState) :
    Except StageError BatchState := do
  let roster ← st.roster.mapM (finalizeTurn finalize)
  let missing := missingVoices (requiredCreatorIds st) roster
  if missing = [] then return { st with roster }
  else .error (.valueError
    ("assigned creators without voice_ref: " ++ ", ".intercalate missing))

end Orchestrator
