import Orchestrator.Lib.Delimited
import Orchestrator.Tools.Video

/-!
The effect keys of the six kinds of paid calls, with the request and the units
each of them reserves.

A paid call holds what its tool was given and what it read from the
configuration; its key, its request and its provider input are functions of
these. Only the LatentSync call also depends on the result of an earlier effect,
the base clip.
-/

namespace Orchestrator

/-- An id of a run, an item, a voice candidate or a voice: text without the
separator of the keys. -/
structure KeyId where
  text : String
  noColon : ':' ∉ text.toList

theorem KeyId.ext_text {a b : KeyId} (h : a.text = b.text) : a = b := by
  cases a; cases b; cases h; rfl

/-- A hash without collisions. -/
structure Hash where
  digest : ByteArray → String
  injective : Function.Injective digest
  noColon : ∀ bytes, ':' ∉ (digest bytes).toList

/-- `hexdigest()`, `hexdigest()[:16]` and `hexdigest()[:10]`. -/
structure Sha256 where
  full : Hash
  short16 : Hash
  short10 : Hash

/-- What the language knows of the code points outside the code. -/
structure UnicodeTables where
  casefold : String → String
  isAlnum : Char → Bool

inductive ConcreteGender where
  | female | male
  deriving DecidableEq, Repr

def ConcreteGender.text : ConcreteGender → String
  | .female => "female"
  | .male => "male"

namespace Gender

def femaleTokens : List String :=
  ["female", "feminina", "feminino", "woman", "women", "mulher", "girl", "moça", "garota",
    "ela", "her"]

def maleTokens : List String :=
  ["male", "masculina", "masculino", "man", "men", "homem", "boy", "rapaz", "moço", "garoto",
    "ele", "his"]

/-- `re.findall(r"[^\W_]+", text)`. -/
def words (u : UnicodeTables) (text : String) : List String :=
  ((text.toList.splitOnP (fun c => !u.isAlnum c)).filter (· ≠ [])).map String.ofList

/-- `infer_gender`; `none` is the preset `"neutral"`. -/
def inferGender (u : UnicodeTables) (text : String) : Option ConcreteGender :=
  let found := words u (u.casefold text)
  if femaleTokens.any (· ∈ found) then some .female
  else if maleTokens.any (· ∈ found) then some .male
  else none

def byParity (index : Nat) : ConcreteGender := if index % 2 = 0 then .female else .male

/-- The preset of `assign_voice_profile(system_prompt, None, index=index)`. -/
def assignPreset (u : UnicodeTables) (systemPrompt : Option String) (index : Nat) :
    ConcreteGender :=
  let prompt := PyStr.strip (systemPrompt.getD "")
  let inferred := if prompt = "" then none else inferGender u prompt
  inferred.getD (byParity index)

end Gender

/-- The call of `build_creator_tool`; `model` is the image model it resolves. -/
structure CreatorImage where
  runId : KeyId
  index : Nat
  systemPrompt : Option String
  preset : ConcreteGender
  model : String

/-- The call of `design_creator_voice_tool`: `description` is
`voice_description(spec)`, the preview text is the default one. -/
structure VoiceDesign where
  runId : KeyId
  creatorId : String
  description : String
  designModel : String
  rerollCount : Int

structure VoiceFinalize where
  runId : KeyId
  creatorId : String
  candidateId : KeyId
  descriptionHash : String

structure Voiceover where
  runId : KeyId
  itemId : KeyId
  voiceRef : KeyId
  script : String
  ttsModel : String

inductive ClipStage where
  | talkingHead | productDemo
  deriving DecidableEq, Repr

def ClipStage.text : ClipStage → String
  | .talkingHead => "talking_head"
  | .productDemo => "product_demo"

structure Clip where
  runId : KeyId
  itemId : KeyId
  stage : ClipStage
  tier : String
  seconds : Int
  attempt : Int
  systemPrompt : Option String
  referenceImageUri : Option String
  /-- `adapter.clip_model(tier)`. -/
  model : String

/-- The second call of a talking head with audio. -/
structure LatentSync where
  runId : KeyId
  itemId : KeyId
  seconds : Int
  attempt : Int
  model : String
  resolution : String
  videoUri : String
  audioUri : String

inductive PaidCall where
  | creatorImage (call : CreatorImage)
  | voiceDesign (call : VoiceDesign)
  | voiceFinalize (call : VoiceFinalize)
  | voiceover (call : Voiceover)
  | clip (call : Clip)
  | latentSync (call : LatentSync)

/-- The call `node_roster` makes for one creator. -/
def rosterCall (u : UnicodeTables) (runId : KeyId) (index : Nat) (profilePrompt : Option String)
    (model : String) : CreatorImage where
  runId := runId
  index := index
  systemPrompt := profilePrompt
  preset := Gender.assignPreset u profilePrompt index
  model := model

/-- The LatentSync call that follows the base clip of a talking head. -/
def Clip.latentSync (c : Clip) (model resolution audioUri : String) (base : Artifact) :
    LatentSync where
  runId := c.runId
  itemId := c.itemId
  seconds := c.seconds
  attempt := c.attempt
  model := model
  resolution := resolution
  videoUri := base.uri
  audioUri := audioUri

/-- `model.replace("/", "_").replace(":", "_").replace(".", "_")`. -/
def modelSlug (model : String) : String :=
  String.ofList (model.toList.map fun c => if c = '/' ∨ c = ':' ∨ c = '.' then '_' else c)

def CreatorImage.creatorId (c : CreatorImage) : String := "creator-" ++ toString c.index

/-- `f"{item.id}:demo"` for a product demo. -/
def Clip.toolItemId (c : Clip) : List String :=
  match c.stage with
  | .talkingHead => [c.itemId.text]
  | .productDemo => [c.itemId.text, "demo"]

/-- `(preview_text or DEFAULT_PREVIEW_TEXT).strip()`. -/
def previewSample : String :=
  "Olá! Este é um exemplo de demonstração da minha nova voz sintética gerada " ++
    "por inteligência artificial para vídeos criativos de UGC."

namespace Sha256
variable (sha : Sha256)

/-- `_sha256(value)`. -/
def ofText (value : Option String) : String := sha.full.digest (value.getD "").toByteArray

def promptHash (c : CreatorImage) : String :=
  sha.short16.digest ((c.systemPrompt.getD "").toByteArray ++ c.preset.text.toByteArray)

def descriptionHash (description : String) : String := sha.short10.digest description.toByteArray

def scriptHash (text : String) : String := sha.short16.digest text.toByteArray

open Delimited (Value)

/-- `base_request`, its fields in sorted order. -/
def baseRequest (c : Clip) : List (String × Value) :=
  [("attempt", .int c.attempt), ("model", .str c.model),
    ("prompt_hash", .str (sha.ofText c.systemPrompt)),
    ("reference_hash", .str (sha.ofText c.referenceImageUri)),
    ("seconds", .int c.seconds), ("tier", .str c.tier)]

/-- `ls_request`, its fields in sorted order. -/
def lsRequest (c : LatentSync) : List (String × Value) :=
  [("attempt", .int c.attempt), ("audio_hash", .str (sha.ofText (some c.audioUri))),
    ("model", .str c.model), ("resolution", .str c.resolution), ("seconds", .int c.seconds),
    ("video_hash", .str (sha.ofText (some c.videoUri)))]

/-- `_sha256(json.dumps(request, sort_keys=True, separators=(",", ":")))`. -/
def requestHash (request : List (String × Value)) : String :=
  sha.ofText (some (Delimited.dumps request))

/-- The fields that the colons of an effect key stand between. -/
def keyFields : PaidCall → List String
  | .creatorImage c =>
      ["creator-image", c.runId.text, c.creatorId, modelSlug c.model, sha.promptHash c]
  | .voiceDesign c =>
      ["voice-design", c.runId.text, c.creatorId, sha.descriptionHash c.description,
        toString c.rerollCount]
  | .voiceFinalize c => ["voice-finalize", c.runId.text, c.creatorId, c.candidateId.text]
  | .voiceover c =>
      ["voiceover", c.runId.text, c.itemId.text, sha.scriptHash c.script, c.voiceRef.text]
  | .clip c =>
      ["video", c.runId.text] ++ c.toolItemId ++
        [c.stage.text, toString c.attempt, sha.requestHash (sha.baseRequest c)]
  | .latentSync c =>
      ["latentsync", c.runId.text, c.itemId.text, ClipStage.talkingHead.text,
        toString c.attempt, sha.requestHash (sha.lsRequest c)]

def effectKey (c : PaidCall) : String := Delimited.join ':' (sha.keyFields c)

end Sha256

/-- The same dictionary as a document of the ledger. -/
def flatObject (fields : List (String × Delimited.Value)) : Json :=
  .obj (fields.map fun f => (f.1, match f.2 with
    | .int n => .num n
    | .str s => .str s))

namespace PaidCall

def runId : PaidCall → KeyId
  | .creatorImage c => c.runId
  | .voiceDesign c => c.runId
  | .voiceFinalize c => c.runId
  | .voiceover c => c.runId
  | .clip c => c.runId
  | .latentSync c => c.runId

/-- The arguments of `ledger.reserve` besides the key: run, provider, units and
request. -/
def terms (sha : Sha256) (c : PaidCall) : String × String × Int × Json :=
  (c.runId.text, match c with
    | .creatorImage c =>
        ("openai_image_units", 1, .obj [("creator_id", .str c.creatorId),
          ("index", .nat c.index), ("prompt_hash", .str (sha.promptHash c)),
          ("gender", .str c.preset.text), ("model", .str c.model)])
    | .voiceDesign c =>
        ("elevenlabs_voice_design_chars", previewSample.length,
          .obj [("creator_id", .str c.creatorId),
            ("description_hash", .str (sha.descriptionHash c.description)),
            ("model", .str c.designModel),
            ("preview_characters", .nat previewSample.length),
            ("reroll", .num c.rerollCount)])
    | .voiceFinalize c =>
        ("elevenlabs_voice_slots", 1, .obj [("creator_id", .str c.creatorId),
          ("candidate_id", .str c.candidateId.text),
          ("description_hash", .str c.descriptionHash)])
    | .voiceover c =>
        ("elevenlabs_tts_chars", c.script.length, .obj [("item_id", .str c.itemId.text),
          ("script_hash", .str (sha.scriptHash c.script)), ("voice_ref", .str c.voiceRef.text),
          ("characters", .nat c.script.length), ("model", .str c.ttsModel)])
    | .clip c =>
        ("replicate_video_seconds", c.seconds, flatObject (sha.baseRequest c))
    | .latentSync c =>
        ("replicate_video_seconds", c.seconds, flatObject (sha.lsRequest c)))

end PaidCall

end Orchestrator
