import Orchestrator.Lib.Traced
import Orchestrator.Nodes.ItemStages

/-!
Where the clips of an item are stored.

The durable clip tool stores what it is paid for under the number of the attempt;
every node that stores the media of an item stores what is left under the places
of the clips. Each computation here is one of a node, with the objects it stores.
-/

namespace Orchestrator
open Outcome

/-- `fetch_media` and `put_bytes_with_ext` over a backend. A fetch gives the extension of the
media; it gives none for a URI that is no download and for a download that fails. -/
structure DownloadStorage where
  fetchMedia : (uri : String) → Option String
  putBytesWithExt : (key : String) → Except StageExc StoredObject
  key_eq : ∀ key stored, putBytesWithExt key = .ok stored → stored.key = key

/-- An object that was stored. -/
structure MediaPut where
  ext : String
  key : String
  deriving DecidableEq

/-- `clip.model_copy` with the pointer to what was stored. -/
def pointedArtifact (art : Artifact) (stored : StoredObject) : Artifact :=
  { art with
    uri := stored.uri
    metadata := ItemServices.updateMeta art.metadata [("source_uri", .str art.uri),
      ("storage_key", .str stored.key), ("storage_backend", .str stored.backend)] }

def storedBaseClip (clip : Artifact) (baseUri : String) (stored : StoredObject) : Artifact :=
  { clip with
    metadata := ItemServices.updateMeta clip.metadata [("base_clip_source_uri", .str baseUri),
      ("base_clip_uri", .str stored.uri), ("base_clip_storage_key", .str stored.key),
      ("base_clip_storage_backend", .str stored.backend)] }

namespace DownloadStorage
variable (st : DownloadStorage)

def putFromUrl (uri keyBase : String) : Except StageExc (Option StoredObject) :=
  match st.fetchMedia uri with
  | none => .ok none
  | some ext => (st.putBytesWithExt (keyBase ++ "." ++ ext)).map some

def tracedPut (uri keyBase : String) : List MediaPut × Except StageExc (Option StoredObject) :=
  match st.fetchMedia uri with
  | none => ([], .ok none)
  | some ext =>
      match st.putBytesWithExt (keyBase ++ "." ++ ext) with
      | .error exc => ([], .error exc)
      | .ok stored => ([⟨ext, stored.key⟩], .ok (some stored))

def tracedStore (keyBase : String) (art : Artifact) : List MediaPut × Except StageExc Artifact :=
  Traced.bind (st.tracedPut art.uri keyBase) fun
    | none => Traced.quiet (.ok art)
    | some stored => Traced.quiet (.ok (pointedArtifact art stored))

def tracedStoreBase (keyBase : String) (clip : Artifact) :
    List MediaPut × Except StageExc Artifact :=
  match clip.metadata.get? "base_clip_uri" with
  | some (.str baseUri) =>
      Traced.bind (st.tracedPut baseUri keyBase) fun
        | none => Traced.quiet (.ok clip)
        | some stored => Traced.quiet (.ok (storedBaseClip clip baseUri stored))
  | _ => Traced.quiet (.ok clip)

end DownloadStorage

/-- What is stored of a clip: the clip, and the one a lip sync started from. -/
inductive ClipPart where
  | clip | baseClip
  deriving DecidableEq, Repr

def ClipPart.text : ClipPart → String
  | .clip => "clip-"
  | .baseClip => "base-clip-"

/-- What `generate_clip_tool` meets: the configuration of the run, the effects with the provider's
artifacts as they complete, and the storage as it answers when they do. -/
structure ClipTool where
  /-- `ctx.durable` with an adapter that submits predictions. -/
  durable : Bool
  /-- `ctx.storage` or `ctx.videos_root` is set. -/
  stores : Bool
  latentsyncRequired : Bool
  latentsyncEnabled : Bool
  /-- What a paid adapter that is switched off, or has no ledger, raises. -/
  refusal : Option StageExc
  effectKey : ClipRequest → String
  clipEffect : ClipRequest → Except StageExc Artifact
  syncEffect : ClipRequest → (base : Artifact) → Except StageExc Artifact
  adapterClip : ClipRequest → Except StageExc Artifact
  storage : DownloadStorage

namespace ClipTool
variable (tool : ClipTool) (runId : String) (request : ClipRequest)

def latentsyncError (code : String) : StageExc := .videoEffect {
  code
  retryable := false
  uncertain := false
  errorType := "LatentSyncRequiredError"
  effectKey := tool.effectKey request }

/-- What the durable path raises before it pays. -/
def blocked : Option StageExc :=
  match tool.refusal with
  | some exc => some exc
  | none =>
      if tool.latentsyncRequired ∧ request.stage ≠ .productDemo then
        if ¬ request.audioUri.any (· ≠ "") then
          some (tool.latentsyncError request "latentsync_audio_missing")
        else if ¬ tool.latentsyncEnabled then
          some (tool.latentsyncError request "latentsync_disabled")
        else none
      else none

/-- `has_latentsync`. -/
def synced : Bool := request.audioUri.any (· ≠ "") && tool.latentsyncEnabled

/-- `persist_artifact_from_url` under the number of the attempt. -/
def persist (part : ClipPart) (art : Artifact) :
    List (ClipPart × MediaPut) × Except StageExc Artifact :=
  if tool.stores then
    Traced.tag (part, ·) (tool.storage.tracedStore
      (runId ++ "/items/" ++ request.itemId ++ "/" ++ part.text ++ toString request.attempt) art)
  else Traced.quiet (.ok art)

def withBaseClip (base art : Artifact) : Artifact :=
  if (art.metadata.get? "base_clip_uri").isSome then art
  else { art with
    metadata := ItemServices.updateMeta art.metadata [("base_clip_uri", .str base.uri)] }

/-- The second stage, with the lip sync of the base clip. -/
def syncClip (base : Artifact) : List (ClipPart × MediaPut) × Except StageExc Artifact :=
  Traced.bind (Traced.quiet (tool.syncEffect request base)) fun art =>
    Traced.bind (tool.persist runId request .clip (withBaseClip base art)) fun stored =>
      Traced.quiet (.ok (withBaseClip base stored))

/-- `_durable_replicate_clip`. -/
def durableClip : List (ClipPart × MediaPut) × Except StageExc Artifact :=
  match tool.blocked request with
  | some exc => Traced.quiet (.error exc)
  | none =>
      Traced.bind (Traced.quiet (tool.clipEffect request)) fun art =>
        if tool.synced request then
          Traced.bind (tool.persist runId request .baseClip art) (tool.syncClip runId request)
        else tool.persist runId request .clip art

/-- `generate_clip_tool`. -/
def generateClip : List (ClipPart × MediaPut) × Except StageExc Artifact :=
  if tool.durable then tool.durableClip runId request
  else Traced.quiet (tool.adapterClip request)

end ClipTool

/-- How a stored clip is named. -/
inductive ClipName where
  | attempt (stage : ClipStage) (attempt : Int)
  | place
  deriving DecidableEq

/-- A stored object of the clip at a place of the list. -/
structure ClipPut where
  place : Nat
  part : ClipPart
  name : ClipName
  media : MediaPut
  deriving DecidableEq

/-- The services of one execution of a node. -/
structure ClipServices where
  others : ItemServices
  storage : DownloadStorage
  tool : ClipTool

namespace ClipServices
variable (c : ClipServices) (u : UnicodeTables) (cfg : ItemConfig) (item : Item)

def services (runId : String) : ItemServices :=
  { c.others with
    generateClip := fun request => (c.tool.generateClip runId request).2
    putFromUrl := c.storage.putFromUrl }

def tracedPersistClips (keyBase : String) :
    List Artifact → Nat → List ClipPut × Except StageExc (List Artifact)
  | [], _ => Traced.quiet (.ok [])
  | clip :: clips, n =>
      Traced.bind (Traced.tag (⟨n, .clip, .place, ·⟩)
        (c.storage.tracedStore (keyBase ++ "/clip-" ++ toString n) clip)) fun stored =>
      Traced.bind (Traced.tag (⟨n, .baseClip, .place, ·⟩)
        (c.storage.tracedStoreBase (keyBase ++ "/base-clip-" ++ toString n) stored)) fun stored =>
      Traced.bind (tracedPersistClips keyBase clips (n + 1)) fun rest =>
        Traced.quiet (.ok (stored :: rest))

def mediaFolder (runId : String) (item : Item) : String :=
  runId ++ "/items/" ++ (if item.id = "" then "item" else item.id)

def tracedPersistItemMedia (runId : String) (item : Item) :
    List ClipPut × Except StageExc Item :=
  Traced.bind (c.tracedPersistClips (mediaFolder runId item) item.clips 0) fun clips =>
    Traced.quiet do
      let voiceover ← (c.services runId).persistOptional
        (mediaFolder runId item ++ "/voiceover") item.voiceover
      let assembled ← (c.services runId).persistOptional
        (mediaFolder runId item ++ "/assembled") item.assembled
      return { item with clips, voiceover, assembled }

def tracedVoiceover : List ClipPut × Except StageExc Item :=
  match narrationMissing u item with
  | some error => Traced.quiet (.ok { item with voiceover := none, error := some error })
  | none =>
      match c.others.synthesizeVoiceover (PyStr.strip (item.creatorVoiceRef.getD ""))
          (narrationText u (item.script.getD "")) item.id with
      | .error exc => Traced.quiet
          (.ok { item with voiceover := none, error := some ("voiceover: " ++ exc.text) })
      | .ok art =>
          Traced.bind (Traced.quiet (c.others.addCost item.costUsd art.metadata 6)) fun costUsd =>
          Traced.bind (c.tracedPersistItemMedia cfg.runId
            { item with voiceover := some art, costUsd, error := none }) fun persisted =>
          Traced.quiet (.ok { item with
            voiceover := persisted.voiceover, costUsd := persisted.costUsd, error := none })

/-- What the clip tool stored for a request of an item. -/
def paidPuts (request : ClipRequest) : List ClipPut :=
  (c.tool.generateClip cfg.runId request).1.map fun p =>
    ⟨item.clips.length, p.1, .attempt request.stage request.attempt, p.2⟩

def tracedGenerateClip (request : ClipRequest) (update : Item → Item) :
    List ClipPut × Except StageExc Item :=
  match (c.tool.generateClip cfg.runId request).2 with
  | .error (.videoEffect exc) =>
      (c.paidPuts cfg item request, .ok (videoFailureUpdate item exc request.stage))
  | .error exc => (c.paidPuts cfg item request, .error exc)
  | .ok clip =>
      Traced.bind (c.paidPuts cfg item request, c.others.addCost item.costUsd clip.metadata 4)
        fun costUsd =>
      Traced.bind (c.tracedPersistItemMedia cfg.runId { item with clips := item.clips ++ [clip] })
        fun persisted =>
      Traced.quiet (.ok (update { item with clips := persisted.clips, costUsd }))

def tracedAssembly : List ClipPut × Except StageExc Item :=
  Traced.bind (Traced.quiet (assembledMedia cfg (c.services cfg.runId) item)) fun
    | .error reason => Traced.quiet
        (.ok { item with assembled := none, error := some ("assembly: " ++ reason) })
    | .ok media =>
        Traced.bind (Traced.quiet (c.others.addCost item.costUsd media.metadata 4)) fun costUsd =>
        Traced.bind (Traced.quiet (canonicalArtifact cfg (c.services cfg.runId) item media))
          fun canonical =>
        Traced.bind (c.tracedPersistItemMedia cfg.runId
          { item with assembled := some canonical, costUsd }) fun persisted =>
        Traced.quiet (.ok { item with
          assembled := persisted.assembled, costUsd := persisted.costUsd, error := none })

def tracedUpscale : List ClipPut × Except StageExc Item :=
  match item.assembled with
  | none => Traced.quiet (.ok item)
  | some assembled =>
      match c.others.upscaleVideo assembled.uri with
      | .error _ => Traced.quiet (.ok item)
      | .ok upscaledUri =>
          if upscaledUri = "" ∨ upscaledUri = assembled.uri then Traced.quiet (.ok item)
          else
            Traced.bind (c.tracedPersistItemMedia cfg.runId
              { item with
                assembled := some { assembled with
                  uri := upscaledUri
                  metadata := ItemServices.updateMeta assembled.metadata
                    [("upscaled", .bool true), ("upscaled_from", .str assembled.uri)] } })
              fun persisted =>
            Traced.quiet (.ok { item with assembled := persisted.assembled })

variable {c u cfg item} (runId : String) {keyBase : String}

theorem tracedPut_result (st : DownloadStorage) (uri keyBase : String) :
    (st.tracedPut uri keyBase).2 = st.putFromUrl uri keyBase := by
  rw [DownloadStorage.tracedPut, DownloadStorage.putFromUrl]
  cases st.fetchMedia uri with
  | none => rfl
  | some ext =>
      dsimp only
      cases st.putBytesWithExt (keyBase ++ "." ++ ext) <;> rfl

theorem tracedStore_result (art : Artifact) :
    (c.storage.tracedStore keyBase art).2 = (c.services runId).storeArtifact keyBase art := by
  rw [DownloadStorage.tracedStore, Traced.bind_result, tracedPut_result, ItemServices.storeArtifact]
  change c.storage.putFromUrl art.uri keyBase >>= _ = c.storage.putFromUrl art.uri keyBase >>= _
  congr 1
  funext stored
  cases stored <;> rfl

theorem tracedStoreBase_result (clip : Artifact) :
    (c.storage.tracedStoreBase keyBase clip).2 = (c.services runId).storeBaseClip keyBase clip := by
  rw [DownloadStorage.tracedStoreBase, ItemServices.storeBaseClip]
  cases clip.metadata.get? "base_clip_uri" with
  | none => rfl
  | some value =>
      cases value with
      | str baseUri =>
          dsimp only
          rw [Traced.bind_result, tracedPut_result]
          change c.storage.putFromUrl baseUri keyBase >>= _
            = c.storage.putFromUrl baseUri keyBase >>= _
          congr 1
          funext stored
          cases stored <;> rfl
      | null | bool _ | num _ | arr _ | obj _ => rfl

theorem tracedPersistClips_result (clips : List Artifact) (n : Nat) :
    (c.tracedPersistClips keyBase clips n).2
      = (c.services runId).persistClips keyBase clips n := by
  induction clips generalizing n with
  | nil => rfl
  | cons clip clips ih =>
      rw [tracedPersistClips, Traced.bind_result, ItemServices.persistClips]
      change (c.storage.tracedStore _ clip).2 >>= _ = _
      rw [tracedStore_result runId]
      congr 1
      funext stored
      rw [Traced.bind_result]
      change (c.storage.tracedStoreBase _ stored).2 >>= _ = _
      rw [tracedStoreBase_result runId]
      congr 1
      funext stored
      rw [Traced.bind_result, ih]
      rfl

theorem tracedPersistItemMedia_result (item : Item) :
    (c.tracedPersistItemMedia runId item).2 = (c.services runId).persistItemMedia runId item := by
  rw [tracedPersistItemMedia, Traced.bind_result, tracedPersistClips_result runId]
  rfl

theorem tracedVoiceover_result :
    (c.tracedVoiceover u cfg item).2 = nodeVoiceover u cfg (c.services cfg.runId) item := by
  rw [tracedVoiceover, nodeVoiceover]
  cases narrationMissing u item with
  | some error => rfl
  | none =>
      change _ = (match c.others.synthesizeVoiceover _ _ item.id with | .error _ => _ | .ok _ => _)
      dsimp only
      cases c.others.synthesizeVoiceover (PyStr.strip (item.creatorVoiceRef.getD ""))
          (narrationText u (item.script.getD "")) item.id with
      | error exc => rfl
      | ok art =>
          dsimp only
          rw [Traced.bind_result]
          change c.others.addCost item.costUsd art.metadata 6 >>= _ = _
          congr 1
          funext costUsd
          rw [Traced.bind_result, tracedPersistItemMedia_result]
          rfl

theorem tracedGenerateClip_result (request : ClipRequest) (update : Item → Item) :
    (c.tracedGenerateClip cfg item request update).2
      = Orchestrator.generateClip cfg (c.services cfg.runId) item request update := by
  rw [tracedGenerateClip, Orchestrator.generateClip]
  change _ = (match (c.tool.generateClip cfg.runId request).2 with
    | .error (.videoEffect _) => _ | .error _ => _ | .ok _ => _)
  cases (c.tool.generateClip cfg.runId request).2 with
  | error exc => cases exc <;> rfl
  | ok clip =>
      dsimp only
      rw [Traced.bind_result]
      change c.others.addCost item.costUsd clip.metadata 4 >>= _ = _
      congr 1
      funext costUsd
      rw [Traced.bind_result, tracedPersistItemMedia_result]
      rfl

theorem tracedAssembly_result :
    (c.tracedAssembly cfg item).2 = nodeAssembly cfg (c.services cfg.runId) item := by
  rw [tracedAssembly, nodeAssembly, Traced.bind_result]
  change assembledMedia cfg (c.services cfg.runId) item >>= _ = _
  congr 1
  funext media
  cases media with
  | error reason => rfl
  | ok media =>
      dsimp only
      rw [Traced.bind_result]
      change c.others.addCost item.costUsd media.metadata 4 >>= _ = _
      congr 1
      funext costUsd
      rw [Traced.bind_result]
      change canonicalArtifact cfg (c.services cfg.runId) item media >>= _ = _
      congr 1
      funext canonical
      rw [Traced.bind_result, tracedPersistItemMedia_result]
      rfl

theorem tracedUpscale_result :
    (c.tracedUpscale cfg item).2 = nodeUpscale cfg (c.services cfg.runId) item := by
  rw [tracedUpscale, nodeUpscale]
  cases item.assembled with
  | none => rfl
  | some assembled =>
      change _ = (match c.others.upscaleVideo assembled.uri with | .error _ => _ | .ok _ => _)
      dsimp only
      cases c.others.upscaleVideo assembled.uri with
      | error exc => rfl
      | ok upscaledUri =>
          dsimp only
          split
          next => rfl
          next =>
              rw [Traced.bind_result, tracedPersistItemMedia_result]
              rfl

end ClipServices

end Orchestrator
