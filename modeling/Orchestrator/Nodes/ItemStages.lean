import Orchestrator.Graph.State
import Orchestrator.Tools.EffectKeys

/-!
The nodes of the item subgraph, from the narration to the final video.

A node gives the item it leaves or raises. What the nodes await is a parameter:
the tools over the adapters, the media storage and the retention of clips. The
tool that assembles also resolves the URIs of the item it is given. `putFromUrl`
downloads, stores and records; it gives `none` for what it cannot download.
-/

namespace Orchestrator

structure VideoEffectError where
  code : String
  retryable : Bool
  uncertain : Bool
  errorType : String := "VideoEffectError"
  effectKey : String := "unknown"
  provider : String := "replicate"
  deriving DecidableEq, Repr

/-- An exception as the nodes tell it apart. -/
inductive StageExc where
  | videoEffect (exc : VideoEffectError)
  | other (text : String)
  deriving DecidableEq, Repr

def VideoEffectError.text (exc : VideoEffectError) : String :=
  "video provider operation failed (" ++ exc.code ++ ")"

/-- `str(exc)`. -/
def StageExc.text : StageExc → String
  | .videoEffect exc => exc.text
  | .other text => text

structure ClipRequest where
  itemId : String
  tier : String
  seconds : Int
  attempt : Int
  systemPrompt : String
  referenceImageUri : Option String
  audioUri : Option String := none
  stage : ClipStage

/-- What the assembler returns: bytes it rendered or an artifact. -/
inductive AssembledMedia where
  | rendered (data : ByteArray) (contentType : String) (metadata : Json)
  | artifact (art : Artifact)

def AssembledMedia.metadata : AssembledMedia → Json
  | .rendered _ _ metadata => metadata
  | .artifact art => art.metadata

structure StoredObject where
  uri : String
  key : String
  backend : String

structure ItemServices where
  synthesizeVoiceover : (voiceRef text itemId : String) → Except StageExc Artifact
  generateClip : ClipRequest → Except StageExc Artifact
  qcCheck : (item : Item) → (failRate : Rat) → Except StageExc QCResult
  assembleVideo : (item : Item) → (platform systemPrompt : String) →
    Except StageExc AssembledMedia
  mockAssemble : (item : Item) → (platform systemPrompt : String) → Except StageExc Artifact
  upscaleVideo : (mediaUri : String) → Except StageExc String
  putFromUrl : (url keyBase : String) → Except StageExc (Option StoredObject)
  putBytes : (data : ByteArray) → (keyBase contentType : String) → Except StageExc StoredObject
  classifyItemRetention : Item → Except StageExc Unit
  /-- `round(total + float(meta.get("cost_usd", 0.0)), digits)`. -/
  addCost : (total : Rat) → (metadata : Json) → (digits : Nat) → Except StageExc Rat

/-- What the nodes read of the run and of the pipeline configuration. -/
structure ItemConfig where
  runId : String
  platform : String := "tiktok"
  videoPrompt : Option String := none
  durationSeconds : Int := 8
  tiers : List String
  productDemoTier : Option String := none
  failRate : Rat := 34 / 100
  maxAttempts : Int := 3
  assemblyMockFallback : Bool := false

namespace ItemServices
variable (s : ItemServices)

def updateMeta (metadata : Json) (updates : List (String × Json)) : Json :=
  match metadata with
  | .obj fields => .obj (Json.merge fields updates)
  | _ => .obj updates

def storeArtifact (keyBase : String) (art : Artifact) : Except StageExc Artifact := do
  match ← s.putFromUrl art.uri keyBase with
  | none => return art
  | some stored =>
      return { art with
        uri := stored.uri
        metadata := updateMeta art.metadata [("source_uri", .str art.uri),
          ("storage_key", .str stored.key), ("storage_backend", .str stored.backend)] }

/-- The clip a lip sync started from is stored beside its result. -/
def storeBaseClip (keyBase : String) (clip : Artifact) : Except StageExc Artifact := do
  match clip.metadata.get? "base_clip_uri" with
  | some (.str baseUri) =>
      match ← s.putFromUrl baseUri keyBase with
      | none => return clip
      | some stored =>
          return { clip with
            metadata := updateMeta clip.metadata [("base_clip_source_uri", .str baseUri),
              ("base_clip_uri", .str stored.uri), ("base_clip_storage_key", .str stored.key),
              ("base_clip_storage_backend", .str stored.backend)] }
  | _ => return clip

def persistClips (keyBase : String) : List Artifact → Nat → Except StageExc (List Artifact)
  | [], _ => return []
  | clip :: clips, n => do
      let stored ← s.storeArtifact (keyBase ++ "/clip-" ++ toString n) clip
      let stored ← s.storeBaseClip (keyBase ++ "/base-clip-" ++ toString n) stored
      let rest ← persistClips keyBase clips (n + 1)
      return stored :: rest

def persistOptional (keyBase : String) : Option Artifact → Except StageExc (Option Artifact)
  | none => return none
  | some art => do
      let stored ← s.storeArtifact keyBase art
      return some stored

def persistItemMedia (runId : String) (item : Item) : Except StageExc Item := do
  let keyBase := runId ++ "/items/" ++ (if item.id = "" then "item" else item.id)
  let clips ← s.persistClips keyBase item.clips 0
  let voiceover ← s.persistOptional (keyBase ++ "/voiceover") item.voiceover
  let assembled ← s.persistOptional (keyBase ++ "/assembled") item.assembled
  return { item with clips, voiceover, assembled }

def persistArtifactBytes (runId itemId : String) (data : ByteArray) (contentType : String)
    (metadata : Json) : Except StageExc Artifact := do
  let stored ← s.putBytes data (runId ++ "/items/" ++ itemId ++ "/assembled") contentType
  let provider := ((metadata.get? "provider").filter Json.truthy).elim "local" PyStr.str
  return {
    kind := "video"
    uri := stored.uri
    metadata := updateMeta metadata [("source_uri", .str ("generated:" ++ provider)),
      ("storage_key", .str stored.key), ("storage_backend", .str stored.backend)] }

end ItemServices

/-- `if value: parts.append(...)`. -/
def promptPart (label : String) (value : Option String) : List String :=
  ((value.filter (· ≠ "")).map (label ++ ·)).toList

def conceptBits (item : Item) : Option String :=
  let bits := ["hook", "angle", "hook_style", "offer", "format"].filterMap fun key =>
    (((Json.obj item.concept).get? key).filter Json.truthy).map
      fun value => key ++ ": " ++ PyStr.str value
  if bits = [] then none else some ("; ".intercalate bits)

def runPromptPart (runPrompt : Option String) : List String :=
  ((runPrompt.filter (· ≠ "")).map PyStr.strip).toList

def videoPrompt (item : Item) (runPrompt : Option String) (stage : String) : String :=
  "\n\n".intercalate (runPromptPart runPrompt
    ++ ["Generate a silent vertical UGC " ++ stage ++ " video."]
    ++ promptPart "Script context:\n" item.script
    ++ promptPart "Concept context: " (conceptBits item)
    ++ ["No audio. No captions burned into the video."])

def assemblyPrompt (item : Item) (runPrompt : Option String) (platform : String) : String :=
  "\n\n".intercalate (runPromptPart runPrompt
    ++ ["Final vertical UGC ad for " ++ platform ++ ".",
      "Use the creator reference image as the consistent on-camera creator.",
      "Create one polished final video from the approved script and concept."]
    ++ promptPart "Script:\n" item.script
    ++ promptPart "Concept context: " (conceptBits item)
    ++ ["No mock footage. No placeholder frames. No captions burned into the video."])

/-- One line of the script as it is spoken. -/
def narrationLine (u : UnicodeTables) (rawLine : String) : String :=
  let label := String.ofList (rawLine.toList.takeWhile (· ≠ ':'))
  let content := String.ofList ((rawLine.toList.dropWhile (· ≠ ':')).drop 1)
  if ':' ∈ rawLine.toList ∧ u.casefold (PyStr.strip label) ∈ ["hook", "body", "cta"] then
    PyStr.strip content
  else PyStr.strip rawLine

def narrationText (u : UnicodeTables) (script : String) : String :=
  " ".intercalate (((PyStr.splitLines script).map (narrationLine u)).filter (· ≠ ""))

section Nodes
variable (u : UnicodeTables) (cfg : ItemConfig) (s : ItemServices) (item : Item)

/-- The error of an item that has nothing to narrate with or nothing to say. -/
def narrationMissing : Option String :=
  if PyStr.strip (item.creatorVoiceRef.getD "") = "" then
    some "voiceover: approved creator voice is missing"
  else if narrationText u (item.script.getD "") = "" then
    some "voiceover: approved script is missing"
  else none

def nodeVoiceover : Except StageExc Item :=
  match narrationMissing u item with
  | some error => return { item with voiceover := none, error := some error }
  | none =>
      match s.synthesizeVoiceover (PyStr.strip (item.creatorVoiceRef.getD ""))
          (narrationText u (item.script.getD "")) item.id with
      | .error exc =>
          return { item with voiceover := none, error := some ("voiceover: " ++ exc.text) }
      | .ok art => do
          let costUsd ← s.addCost item.costUsd art.metadata 6
          let persisted ← s.persistItemMedia cfg.runId
            { item with voiceover := some art, costUsd, error := none }
          return { item with
            voiceover := persisted.voiceover, costUsd := persisted.costUsd, error := none }

/-- `_video_failure_update`: the expected failure of a paid clip. -/
def videoFailureUpdate (exc : VideoEffectError) (stage : ClipStage) : Item :=
  { item with
    error := some exc.text
    failure := some {
      code := exc.code
      type := exc.errorType
      message := exc.text
      stage := stage.text
      provider := exc.provider
      itemId := item.id
      effectKey := exc.effectKey
      retryable := exc.retryable
      uncertain := exc.uncertain } }

/-- The call of `make_gen_node` for a tier. -/
def talkingHeadRequest (tier : String) : ClipRequest where
  itemId := item.id
  tier := tier
  seconds := cfg.durationSeconds
  attempt := item.attempts
  systemPrompt := videoPrompt item cfg.videoPrompt "talking-head"
  referenceImageUri := item.creatorImageUri
  audioUri := item.voiceover.map Artifact.uri
  stage := .talkingHead

def productDemoTier : String := orElse cfg.productDemoTier cfg.tiers.head? |>.getD "ltx"

def productDemoRequest : ClipRequest where
  itemId := item.id ++ ":demo"
  tier := productDemoTier cfg
  seconds := cfg.durationSeconds
  attempt := item.attempts
  systemPrompt := videoPrompt item cfg.videoPrompt "product-demo"
  referenceImageUri := item.creatorImageUri
  stage := .productDemo

/-- Generate a clip and append it to the item; `update` is what else the node
writes. -/
def generateClip (request : ClipRequest) (update : Item → Item) : Except StageExc Item :=
  match s.generateClip request with
  | .error (.videoEffect exc) => return videoFailureUpdate item exc request.stage
  | .error exc => .error exc
  | .ok clip => do
      let costUsd ← s.addCost item.costUsd clip.metadata 4
      let persisted ← s.persistItemMedia cfg.runId { item with clips := item.clips ++ [clip] }
      return update { item with clips := persisted.clips, costUsd }

/-- The node of `make_gen_node(tier)`. -/
def nodeGen (tier : String) : Except StageExc Item :=
  generateClip cfg s item (talkingHeadRequest cfg item tier) ({ · with tier := some tier })

def nodeProductDemo : Except StageExc Item :=
  generateClip cfg s item (productDemoRequest cfg item) id

def nodeQc : Except StageExc Item := do
  let qc ← s.qcCheck item cfg.failRate
  if qc.passed then
    s.classifyItemRetention { item with qc := some qc }
    return { item with qc := some qc }
  else return { item with qc := some qc, attempts := item.attempts + 1 }

/-- The video of the assembler, or the degraded one where that is allowed. -/
def assembledMedia : Except StageExc (Except String AssembledMedia) :=
  let prompt := assemblyPrompt item cfg.videoPrompt cfg.platform
  match s.assembleVideo item cfg.platform prompt with
  | .ok media => return .ok media
  | .error exc =>
      if cfg.assemblyMockFallback then do
        let mock ← s.mockAssemble item cfg.platform prompt
        return .ok (.artifact { mock with
          metadata := ItemServices.updateMeta mock.metadata [("provider", .str "mock"),
            ("fallback_reason", .str "assembly_gateway_rejected")] })
      else return .error exc.text

/-- Rendered bytes are stored; an artifact stays as it is. -/
def canonicalArtifact : AssembledMedia → Except StageExc Artifact
  | .rendered data contentType metadata =>
      s.persistArtifactBytes cfg.runId item.id data contentType metadata
  | .artifact art => return art

def nodeAssembly : Except StageExc Item := do
  match ← assembledMedia cfg s item with
  | .error reason => return { item with assembled := none, error := some ("assembly: " ++ reason) }
  | .ok media =>
      let costUsd ← s.addCost item.costUsd media.metadata 4
      let canonical ← canonicalArtifact cfg s item media
      let persisted ← s.persistItemMedia cfg.runId
        { item with assembled := some canonical, costUsd }
      return { item with
        assembled := persisted.assembled, costUsd := persisted.costUsd, error := none }

def nodeUpscale : Except StageExc Item :=
  match item.assembled with
  | none => return item
  | some assembled =>
      match s.upscaleVideo assembled.uri with
      | .error _ => return item
      | .ok upscaledUri =>
          if upscaledUri = "" ∨ upscaledUri = assembled.uri then return item
          else do
            let persisted ← s.persistItemMedia cfg.runId
              { item with
                assembled := some { assembled with
                  uri := upscaledUri
                  metadata := ItemServices.updateMeta assembled.metadata
                    [("upscaled", .bool true), ("upscaled_from", .str assembled.uri)] } }
            return { item with assembled := persisted.assembled }

def nodeDrop : Except StageExc Item := do
  s.classifyItemRetention { item with dropped := true }
  return { item with dropped := true }

end Nodes

end Orchestrator
