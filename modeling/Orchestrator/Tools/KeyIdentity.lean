import Orchestrator.Tools.EffectKeys

/-!
Which paid calls an effect key identifies.

The fields of a key are read back from its colons: every field but the id of a
creator holds none, and that id stands between fields that do not. What the
fields say of the call is then read back from the hashes. Four kinds of pairs
are left that differ and share their key, and they are named here.
-/

namespace Orchestrator

/-- What the provider is asked to make. -/
structure ProviderInput where
  prompt : Option String := none
  text : Option String := none
  reference : Option String := none
  voice : Option String := none
  model : Option String := none
  seconds : Option Int := none

namespace PaidCall

def kind : PaidCall → String
  | .creatorImage _ => "creator-image"
  | .voiceDesign _ => "voice-design"
  | .voiceFinalize _ => "voice-finalize"
  | .voiceover _ => "voiceover"
  | .clip _ => "video"
  | .latentSync _ => "latentsync"

/-- The creator or the item the call is for. -/
def subject : PaidCall → String
  | .creatorImage c => c.creatorId
  | .voiceDesign c => c.creatorId
  | .voiceFinalize c => c.creatorId
  | .voiceover c => c.itemId.text
  | .clip c => c.itemId.text
  | .latentSync c => c.itemId.text

def stage : PaidCall → Option ClipStage
  | .clip c => some c.stage
  | .latentSync _ => some .talkingHead
  | _ => none

/-- The attempt of a clip, the re-roll of a voice. -/
def attempt : PaidCall → Option Int
  | .voiceDesign c => some c.rerollCount
  | .clip c => some c.attempt
  | .latentSync c => some c.attempt
  | _ => none

/-- The provider does not see an empty prompt or reference. -/
def providerInput : PaidCall → ProviderInput
  | .creatorImage c =>
      { prompt := c.systemPrompt.filter (· ≠ ""), voice := some c.preset.text
        model := some c.model }
  | .voiceDesign c =>
      { prompt := some c.description, text := some previewSample, model := some c.designModel }
  | .voiceFinalize c =>
      { voice := some c.candidateId.text, text := some c.descriptionHash }
  | .voiceover c =>
      { text := some c.script, voice := some c.voiceRef.text, model := some c.ttsModel }
  | .clip c =>
      { prompt := c.systemPrompt.filter (· ≠ "")
        reference := c.referenceImageUri.filter (· ≠ ""), model := some c.model
        seconds := some c.seconds }
  | .latentSync c =>
      { reference := some c.videoUri, voice := some c.audioUri, model := some c.model }

end PaidCall

structure SameOperation (a b : PaidCall) : Prop where
  kind : a.kind = b.kind
  run : a.runId = b.runId
  subject : a.subject = b.subject
  stage : a.stage = b.stage
  attempt : a.attempt = b.attempt
  input : a.providerInput = b.providerInput

variable (sha : Sha256)

/-- One key means one operation, reserved on the same terms. -/
def KeyIdentifies (a b : PaidCall) : Prop :=
  sha.effectKey a = sha.effectKey b → SameOperation a b ∧ a.terms sha = b.terms sha

/-- The key of a LatentSync call stays when its base clip is read back from the
ledger instead of made. -/
def ReplayKeepsKey : Prop :=
  ∀ (c : Clip) (model resolution audioUri : String) (e : VideoEffect)
    (predictionId kind uri : String) (fields : List (String × Json)),
    let base : Artifact := { kind, uri, metadata := .obj fields }
    (do
      let replayed ← e.replayArtifact (some (.obj
        [("provider_prediction_id", .str predictionId), ("artifact", base.modelDump)]))
      return sha.effectKey (.latentSync (c.latentSync model resolution audioUri replayed))) =
      (pure (sha.effectKey (.latentSync (c.latentSync model resolution audioUri base))) :
        Py String)

/-- What the keys are for, of two calls. -/
def KeyContract (a b : PaidCall) : Prop := KeyIdentifies sha a b ∧ ReplayKeepsKey sha

/-- Two images of one creator whose models have one slug, and whose models differ
or whose prompts end so that each reads like the other with its preset. -/
def ImageClash (a b : CreatorImage) : Prop :=
  a.runId = b.runId ∧ a.index = b.index ∧ modelSlug a.model = modelSlug b.model ∧
    let prompt (c : CreatorImage) := c.systemPrompt.getD ""
    (prompt a = prompt b ∧ a.preset = b.preset ∧ a.model ≠ b.model ∨
      a.preset = .female ∧ b.preset = .male ∧ prompt b = prompt a ++ "fe" ∨
      a.preset = .male ∧ b.preset = .female ∧ prompt a = prompt b ++ "fe")

/-- One voice designed by two models. -/
def DesignClash (a b : VoiceDesign) : Prop :=
  a.runId = b.runId ∧ a.creatorId = b.creatorId ∧ a.description = b.description ∧
    a.rerollCount = b.rerollCount ∧ a.designModel ≠ b.designModel

/-- One candidate kept under two descriptions. -/
def FinalizeClash (a b : VoiceFinalize) : Prop :=
  a.runId = b.runId ∧ a.creatorId = b.creatorId ∧ a.candidateId = b.candidateId ∧
    a.descriptionHash ≠ b.descriptionHash

/-- One script spoken by two models. -/
def VoiceoverClash (a b : Voiceover) : Prop :=
  a.runId = b.runId ∧ a.itemId = b.itemId ∧ a.script = b.script ∧ a.voiceRef = b.voiceRef ∧
    a.ttsModel ≠ b.ttsModel

def Clash : PaidCall → PaidCall → Prop
  | .creatorImage a, .creatorImage b => ImageClash a b
  | .voiceDesign a, .voiceDesign b => DesignClash a b
  | .voiceFinalize a, .voiceFinalize b => FinalizeClash a b
  | .voiceover a, .voiceover b => VoiceoverClash a b
  | _, _ => False

section
open Delimited

theorem int_noColon (n : Int) : ':' ∉ (toString n).toList := fun h =>
  absurd (intText_isIntChar h) (by decide)

theorem creatorId_noColon (c : CreatorImage) : ':' ∉ c.creatorId.toList := fun h => by
  rw [CreatorImage.creatorId, String.toList_append, List.mem_append] at h
  rcases h with h | h
  · exact absurd h (by decide)
  · exact absurd (natText_isIntChar h) (by decide)

theorem creatorId_injective {a b : CreatorImage} (h : a.creatorId = b.creatorId) :
    a.index = b.index := by
  have hlist := congrArg String.toList h
  rw [CreatorImage.creatorId, CreatorImage.creatorId, String.toList_append,
    String.toList_append] at hlist
  exact natText_injective (String.toList_inj.mp (List.append_cancel_left hlist))

theorem modelSlug_noColon (model : String) : ':' ∉ (modelSlug model).toList := by
  rw [modelSlug, String.toList_ofList, List.mem_map]
  rintro ⟨c, -, hc⟩
  split_ifs at hc with hsep
  · exact absurd hc (by decide)
  · exact hsep (.inr (.inl hc))

/-- What can be read back from a key. -/
def keyParts (c : PaidCall) : List (List Char) := (sha.keyFields c).flatMap (parts ':')

theorem key_eq_iff (a b : PaidCall) :
    sha.effectKey a = sha.effectKey b ↔ keyParts sha a = keyParts sha b := by
  have hparts : ∀ c, parts ':' (sha.effectKey c) = keyParts sha c := fun c => by
    cases c <;> exact parts_join _ _
  rw [← hparts, ← hparts, (parts_injective ':').eq_iff]

theorem parts_id (k : KeyId) : parts ':' k.text = [k.text.toList] := parts_of_notMem k.noColon

theorem parts_hash (h : Hash) (bytes : ByteArray) :
    parts ':' (h.digest bytes) = [(h.digest bytes).toList] := parts_of_notMem (h.noColon bytes)

theorem parts_int (n : Int) : parts ':' (toString n) = [(toString n).toList] :=
  parts_of_notMem (int_noColon n)

theorem parts_creatorId (c : CreatorImage) : parts ':' c.creatorId = [c.creatorId.toList] :=
  parts_of_notMem (creatorId_noColon c)

theorem parts_modelSlug (model : String) :
    parts ':' (modelSlug model) = [(modelSlug model).toList] :=
  parts_of_notMem (modelSlug_noColon model)

theorem parts_kind (c : PaidCall) : parts ':' c.kind = [c.kind.toList] :=
  parts_of_notMem (by cases c <;> simp [PaidCall.kind])

theorem parts_stage (st : ClipStage) : parts ':' st.text = [st.text.toList] :=
  parts_of_notMem (by cases st <;> decide)

/-- The first field names the kind. -/
theorem keyParts_head (c : PaidCall) : ∃ rest, keyParts sha c = c.kind.toList :: rest := by
  have hfields : ∃ rest, sha.keyFields c = c.kind :: rest := by
    cases c <;> exact ⟨_, rfl⟩
  obtain ⟨rest, hrest⟩ := hfields
  exact ⟨rest.flatMap (parts ':'), by rw [keyParts, hrest, List.flatMap_cons, parts_kind]; rfl⟩

theorem kind_of_key_eq {a b : PaidCall} (h : sha.effectKey a = sha.effectKey b) :
    a.kind = b.kind := by
  rw [key_eq_iff] at h
  obtain ⟨restA, ha⟩ := keyParts_head sha a
  obtain ⟨restB, hb⟩ := keyParts_head sha b
  rw [ha, hb] at h
  exact String.toList_inj.mp (List.cons.inj h).1

theorem ofText_inj {v w : Option String} (h : sha.ofText v = sha.ofText w) :
    v.getD "" = w.getD "" :=
  String.toByteArray_inj.mp (sha.full.injective h)

/-- A missing text and an empty one hash alike and are one for the provider. -/
theorem filter_eq_of_getD {v w : Option String} (h : v.getD "" = w.getD "") :
    v.filter (· ≠ "") = w.filter (· ≠ "") := by
  have hfilter : ∀ u : Option String, u.filter (· ≠ "") =
      if u.getD "" = "" then none else some (u.getD "") := fun u => by
    cases u with
    | none => rfl
    | some text => by_cases htext : text = "" <;> simp [htext]
  rw [hfilter v, hfilter w, h]

theorem requestHash_inj {request other : List (String × Value)}
    (h : sha.requestHash request = sha.requestHash other) : request = other :=
  dumps_injective (ofText_inj sha h)

theorem promptHash_inj {a b : CreatorImage} (h : sha.promptHash a = sha.promptHash b) :
    a.systemPrompt.getD "" ++ a.preset.text = b.systemPrompt.getD "" ++ b.preset.text := by
  refine String.toByteArray_inj.mp ?_
  rw [String.toByteArray_append, String.toByteArray_append]
  exact sha.short16.injective h

theorem append_right_inj {p q s : String} : p ++ s = q ++ s ↔ p = q := by
  rw [← String.toList_inj, String.toList_append, String.toList_append, List.append_left_inj,
    String.toList_inj]

/-- `"female"` ends with `"male"`: nothing separates the prompt from the preset. -/
theorem prompt_preset_iff (p q : String) (g k : ConcreteGender) :
    p ++ g.text = q ++ k.text ↔
      p = q ∧ g = k ∨ g = .female ∧ k = .male ∧ q = p ++ "fe" ∨
        g = .male ∧ k = .female ∧ p = q ++ "fe" := by
  have hfemale : ∀ r : String, r ++ "female" = (r ++ "fe") ++ "male" := fun r => by
    rw [String.append_assoc]; rfl
  cases g <;> cases k
  · simp [ConcreteGender.text]
  · simp only [ConcreteGender.text]
    rw [hfemale, append_right_inj]
    simp [eq_comm]
  · simp only [ConcreteGender.text]
    rw [hfemale, append_right_inj]
    simp
  · simp [ConcreteGender.text]

theorem creatorImage_key {a b : CreatorImage}
    (h : sha.effectKey (.creatorImage a) = sha.effectKey (.creatorImage b)) :
    a.runId = b.runId ∧ a.index = b.index ∧ modelSlug a.model = modelSlug b.model ∧
      sha.promptHash a = sha.promptHash b := by
  rw [key_eq_iff] at h
  simp only [keyParts, Sha256.keyFields, List.flatMap_cons, List.flatMap_nil, Sha256.promptHash,
    parts_id, parts_creatorId, parts_modelSlug, parts_hash, List.append_cancel_left_eq,
    List.singleton_append, List.cons.injEq, String.toList_inj, and_true] at h
  exact ⟨KeyId.ext_text h.1, creatorId_injective h.2.1, h.2.2.1, h.2.2.2⟩

theorem voiceDesign_key {a b : VoiceDesign}
    (h : sha.effectKey (.voiceDesign a) = sha.effectKey (.voiceDesign b)) :
    a.runId = b.runId ∧ a.creatorId = b.creatorId ∧ a.description = b.description ∧
      a.rerollCount = b.rerollCount := by
  rw [key_eq_iff] at h
  simp only [keyParts, Sha256.keyFields, List.flatMap_cons, List.flatMap_nil,
    Sha256.descriptionHash, parts_id, parts_int, parts_hash, List.append_cancel_left_eq,
    List.singleton_append, List.cons.injEq, List.append_nil] at h
  -- the id of the creator is what the other fields leave
  obtain ⟨hcreator, hrest⟩ := List.append_inj' h.2 rfl
  simp only [List.cons.injEq, String.toList_inj, and_true] at hrest
  exact ⟨KeyId.ext_text (String.toList_inj.mp h.1), parts_injective ':' hcreator,
    String.toByteArray_inj.mp (sha.short10.injective hrest.1),
    intText_injective (String.toList_inj.mpr hrest.2)⟩

theorem voiceFinalize_key {a b : VoiceFinalize}
    (h : sha.effectKey (.voiceFinalize a) = sha.effectKey (.voiceFinalize b)) :
    a.runId = b.runId ∧ a.creatorId = b.creatorId ∧ a.candidateId = b.candidateId := by
  rw [key_eq_iff] at h
  simp only [keyParts, Sha256.keyFields, List.flatMap_cons, List.flatMap_nil, parts_id,
    List.append_cancel_left_eq, List.singleton_append, List.cons.injEq, List.append_nil] at h
  obtain ⟨hcreator, hrest⟩ := List.append_inj' h.2 rfl
  simp only [List.cons.injEq, String.toList_inj, and_true] at hrest
  exact ⟨KeyId.ext_text (String.toList_inj.mp h.1), parts_injective ':' hcreator,
    KeyId.ext_text hrest⟩

theorem voiceover_key {a b : Voiceover}
    (h : sha.effectKey (.voiceover a) = sha.effectKey (.voiceover b)) :
    a.runId = b.runId ∧ a.itemId = b.itemId ∧ a.script = b.script ∧
      a.voiceRef = b.voiceRef := by
  rw [key_eq_iff] at h
  simp only [keyParts, Sha256.keyFields, List.flatMap_cons, List.flatMap_nil, Sha256.scriptHash,
    parts_id, parts_hash, List.append_cancel_left_eq, List.singleton_append, List.cons.injEq,
    String.toList_inj, and_true] at h
  exact ⟨KeyId.ext_text h.1, KeyId.ext_text h.2.1,
    String.toByteArray_inj.mp (sha.short16.injective h.2.2.1), KeyId.ext_text h.2.2.2⟩

theorem clip_key {a b : Clip} (h : sha.effectKey (.clip a) = sha.effectKey (.clip b)) :
    a.runId = b.runId ∧ a.itemId = b.itemId ∧ a.stage = b.stage ∧
      sha.baseRequest a = sha.baseRequest b := by
  have hhash : ∀ c : Clip, parts ':' (sha.requestHash (sha.baseRequest c)) =
      [(sha.requestHash (sha.baseRequest c)).toList] := fun c => parts_hash _ _
  have hdemo : parts ':' "demo" = ["demo".toList] := parts_of_notMem (by decide)
  rw [key_eq_iff] at h
  -- a product demo has one field more than a talking head
  cases ha : a.stage <;> cases hb : b.stage <;>
    simp only [keyParts, Sha256.keyFields, Clip.toolItemId, ha, hb,
      List.flatMap_cons, List.flatMap_nil, parts_id, parts_stage, parts_int, hhash, hdemo,
      List.append_nil, List.append_cancel_left_eq, List.cons_append, List.nil_append,
      List.cons.injEq, String.toList_inj, and_true, reduceCtorEq, and_false, true_and] at h
  · exact ⟨KeyId.ext_text h.1, KeyId.ext_text h.2.1, rfl, requestHash_inj sha h.2.2.2⟩
  · exact ⟨KeyId.ext_text h.1, KeyId.ext_text h.2.1, rfl, requestHash_inj sha h.2.2.2⟩

theorem latentSync_key {a b : LatentSync}
    (h : sha.effectKey (.latentSync a) = sha.effectKey (.latentSync b)) :
    a.runId = b.runId ∧ a.itemId = b.itemId ∧ sha.lsRequest a = sha.lsRequest b := by
  have hhash : ∀ c : LatentSync, parts ':' (sha.requestHash (sha.lsRequest c)) =
      [(sha.requestHash (sha.lsRequest c)).toList] := fun c => parts_hash _ _
  rw [key_eq_iff] at h
  simp only [keyParts, Sha256.keyFields, List.flatMap_cons, List.flatMap_nil, parts_id,
    parts_stage, parts_int, hhash, List.append_cancel_left_eq, List.singleton_append,
    List.cons.injEq, String.toList_inj, and_true, true_and] at h
  exact ⟨KeyId.ext_text h.1, KeyId.ext_text h.2.1, requestHash_inj sha h.2.2.2⟩

theorem ImageClash.key_eq {a b : CreatorImage} (h : ImageClash a b) :
    sha.effectKey (.creatorImage a) = sha.effectKey (.creatorImage b) := by
  obtain ⟨hrun, hindex, hslug, hclash⟩ := h
  have htext : a.systemPrompt.getD "" ++ a.preset.text =
      b.systemPrompt.getD "" ++ b.preset.text := by
    rw [prompt_preset_iff]
    rcases hclash with ⟨hprompt, hpreset, -⟩ | hclash | hclash
    · exact .inl ⟨hprompt, hpreset⟩
    · exact .inr (.inl hclash)
    · exact .inr (.inr hclash)
  have hhash : sha.promptHash a = sha.promptHash b := by
    rw [Sha256.promptHash, Sha256.promptHash, ← String.toByteArray_append, htext,
      String.toByteArray_append]
  rw [Sha256.effectKey, Sha256.effectKey, Sha256.keyFields, Sha256.keyFields, hrun, hslug,
    hhash, CreatorImage.creatorId, CreatorImage.creatorId, hindex]

theorem creatorImage_identifies_iff (a b : CreatorImage) :
    KeyIdentifies sha (.creatorImage a) (.creatorImage b) ↔ ¬ImageClash a b := by
  constructor
  · intro hsame hclash
    have hkey := hclash.key_eq sha
    obtain ⟨hrun, hindex, hslug, hclash⟩ := hclash
    have hinput := (hsame hkey).1.input
    injection hinput with hprompt htext hreference hvoice hmodel
    rcases hclash with ⟨-, -, hmodels⟩ | ⟨ha, hb, -⟩ | ⟨ha, hb, -⟩
    · exact hmodels (Option.some.inj hmodel)
    · rw [ha, hb] at hvoice
      exact absurd hvoice (by decide)
    · rw [ha, hb] at hvoice
      exact absurd hvoice (by decide)
  · intro hclash hkey
    obtain ⟨hrun, hindex, hslug, hhash⟩ := creatorImage_key sha hkey
    rcases (prompt_preset_iff _ _ _ _).mp (promptHash_inj sha hhash) with
      ⟨hprompt, hpreset⟩ | hclash' | hclash'
    · have hmodel : a.model = b.model := by
        by_contra hne
        exact hclash ⟨hrun, hindex, hslug, .inl ⟨hprompt, hpreset, hne⟩⟩
      have hcreator : a.creatorId = b.creatorId := by
        rw [CreatorImage.creatorId, CreatorImage.creatorId, hindex]
      refine ⟨⟨rfl, hrun, hcreator, rfl, rfl, ?_⟩, ?_⟩
      · simp only [PaidCall.providerInput, filter_eq_of_getD hprompt, hpreset, hmodel]
      · simp only [PaidCall.terms, PaidCall.runId, hrun, hcreator, hindex, hhash, hpreset, hmodel]
    · exact absurd ⟨hrun, hindex, hslug, .inr (.inl hclash')⟩ hclash
    · exact absurd ⟨hrun, hindex, hslug, .inr (.inr hclash')⟩ hclash

theorem voiceDesign_identifies_iff (a b : VoiceDesign) :
    KeyIdentifies sha (.voiceDesign a) (.voiceDesign b) ↔ ¬DesignClash a b := by
  constructor
  · rintro hsame ⟨hrun, hcreator, hdescription, hreroll, hmodel⟩
    have hkey : sha.effectKey (.voiceDesign a) = sha.effectKey (.voiceDesign b) := by
      simp only [Sha256.effectKey, Sha256.keyFields, hrun, hcreator, hdescription, hreroll]
    have hinput := congrArg ProviderInput.model (hsame hkey).1.input
    exact hmodel (Option.some.inj hinput)
  · intro hclash hkey
    obtain ⟨hrun, hcreator, hdescription, hreroll⟩ := voiceDesign_key sha hkey
    have hmodel : a.designModel = b.designModel := by
      by_contra hne
      exact hclash ⟨hrun, hcreator, hdescription, hreroll, hne⟩
    refine ⟨⟨rfl, hrun, hcreator, rfl, congrArg some hreroll, ?_⟩, ?_⟩
    · simp only [PaidCall.providerInput, hdescription, hmodel]
    · simp only [PaidCall.terms, PaidCall.runId, hrun, hcreator, hdescription, hreroll, hmodel]

theorem voiceFinalize_identifies_iff (a b : VoiceFinalize) :
    KeyIdentifies sha (.voiceFinalize a) (.voiceFinalize b) ↔ ¬FinalizeClash a b := by
  constructor
  · rintro hsame ⟨hrun, hcreator, hcandidate, hdescription⟩
    have hkey : sha.effectKey (.voiceFinalize a) = sha.effectKey (.voiceFinalize b) := by
      simp only [Sha256.effectKey, Sha256.keyFields, hrun, hcreator, hcandidate]
    have hinput := congrArg ProviderInput.text (hsame hkey).1.input
    exact hdescription (Option.some.inj hinput)
  · intro hclash hkey
    obtain ⟨hrun, hcreator, hcandidate⟩ := voiceFinalize_key sha hkey
    have hdescription : a.descriptionHash = b.descriptionHash := by
      by_contra hne
      exact hclash ⟨hrun, hcreator, hcandidate, hne⟩
    refine ⟨⟨rfl, hrun, hcreator, rfl, rfl, ?_⟩, ?_⟩
    · simp only [PaidCall.providerInput, hcandidate, hdescription]
    · simp only [PaidCall.terms, PaidCall.runId, hrun, hcreator, hcandidate, hdescription]

theorem voiceover_identifies_iff (a b : Voiceover) :
    KeyIdentifies sha (.voiceover a) (.voiceover b) ↔ ¬VoiceoverClash a b := by
  constructor
  · rintro hsame ⟨hrun, hitem, hscript, hvoice, hmodel⟩
    have hkey : sha.effectKey (.voiceover a) = sha.effectKey (.voiceover b) := by
      simp only [Sha256.effectKey, Sha256.keyFields, hrun, hitem, hscript, hvoice]
    have hinput := congrArg ProviderInput.model (hsame hkey).1.input
    exact hmodel (Option.some.inj hinput)
  · intro hclash hkey
    obtain ⟨hrun, hitem, hscript, hvoice⟩ := voiceover_key sha hkey
    have hmodel : a.ttsModel = b.ttsModel := by
      by_contra hne
      exact hclash ⟨hrun, hitem, hscript, hvoice, hne⟩
    refine ⟨⟨rfl, hrun, congrArg KeyId.text hitem, rfl, rfl, ?_⟩, ?_⟩
    · simp only [PaidCall.providerInput, hscript, hvoice, hmodel]
    · simp only [PaidCall.terms, PaidCall.runId, hrun, hitem, hscript, hvoice, hmodel]

/-- The key of a clip holds all that its request says. -/
theorem clip_identifies (a b : Clip) : KeyIdentifies sha (.clip a) (.clip b) := by
  intro hkey
  obtain ⟨hrun, hitem, hstage, hrequest⟩ := clip_key sha hkey
  have hfields := hrequest
  simp only [Sha256.baseRequest, List.cons.injEq, Prod.mk.injEq, Value.int.injEq,
    Value.str.injEq, true_and, and_true] at hfields
  obtain ⟨hattempt, hmodel, hprompt, hreference, hseconds, -⟩ := hfields
  refine ⟨⟨rfl, hrun, congrArg KeyId.text hitem, congrArg some hstage, congrArg some hattempt,
    ?_⟩, ?_⟩
  · simp only [PaidCall.providerInput, filter_eq_of_getD (ofText_inj sha hprompt),
      filter_eq_of_getD (ofText_inj sha hreference), hmodel, hseconds]
  · simp only [PaidCall.terms, PaidCall.runId, hrun, hseconds, hrequest]

theorem latentSync_identifies (a b : LatentSync) :
    KeyIdentifies sha (.latentSync a) (.latentSync b) := by
  intro hkey
  obtain ⟨hrun, hitem, hrequest⟩ := latentSync_key sha hkey
  have hfields := hrequest
  simp only [Sha256.lsRequest, List.cons.injEq, Prod.mk.injEq, Value.int.injEq,
    Value.str.injEq, true_and, and_true] at hfields
  obtain ⟨hattempt, haudio, hmodel, -, hseconds, hvideo⟩ := hfields
  refine ⟨⟨rfl, hrun, congrArg KeyId.text hitem, rfl, congrArg some hattempt, ?_⟩, ?_⟩
  · have hvideoUri : a.videoUri = b.videoUri := ofText_inj sha hvideo
    have haudioUri : a.audioUri = b.audioUri := ofText_inj sha haudio
    simp only [PaidCall.providerInput, hvideoUri, haudioUri, hmodel]
  · simp only [PaidCall.terms, PaidCall.runId, hrun, hseconds, hrequest]

/-- Two calls of different kinds have different keys. -/
theorem identifies_of_kind_ne {a b : PaidCall} (h : a.kind ≠ b.kind) : KeyIdentifies sha a b :=
  fun hkey => absurd (kind_of_key_eq sha hkey) h

/-- A stored base clip is read back as it was stored. -/
theorem replay_keeps_key : ReplayKeepsKey sha := fun _ _ _ _ _ _ _ _ _ => rfl

theorem identifies_iff (a b : PaidCall) : KeyIdentifies sha a b ↔ ¬Clash a b := by
  by_cases hkind : a.kind = b.kind
  · cases a <;> cases b <;> simp only [PaidCall.kind, String.reduceEq] at hkind
    case creatorImage.creatorImage a b => exact creatorImage_identifies_iff sha a b
    case voiceDesign.voiceDesign a b => exact voiceDesign_identifies_iff sha a b
    case voiceFinalize.voiceFinalize a b => exact voiceFinalize_identifies_iff sha a b
    case voiceover.voiceover a b => exact voiceover_identifies_iff sha a b
    case clip.clip a b => exact ⟨fun _ h => h, fun _ => clip_identifies sha a b⟩
    case latentSync.latentSync a b => exact ⟨fun _ h => h, fun _ => latentSync_identifies sha a b⟩
  · have hclash : ¬Clash a b := by
      cases a <;> cases b <;> first | exact absurd rfl hkind | exact fun h => h
    exact ⟨fun _ => hclash, fun _ => identifies_of_kind_ne sha hkind⟩

/-- Two calls with one key are one operation, except in the four clashes. -/
theorem effect_keys_identify_iff (a b : PaidCall) : KeyContract sha a b ↔ ¬Clash a b := by
  rw [KeyContract, identifies_iff]
  exact ⟨And.left, fun h => ⟨h, replay_keeps_key sha⟩⟩

end

def spell (b : UInt8) : Char := Char.ofNat (256 + b.toNat)

theorem toNat_spell (b : UInt8) : (spell b).toNat = 256 + b.toNat := by
  have hb := b.toNat_lt
  have hvalid : Nat.isValidChar (256 + b.toNat) := .inl (by omega)
  rw [spell, Char.ofNat, dif_pos hvalid]
  rfl

/-- A hash that writes every byte as one character beyond the Latin ones. -/
def spelledHash : Hash where
  digest bytes := String.ofList (bytes.data.toList.map spell)
  injective := fun x y h => by
    have hspell : Function.Injective spell := fun b c hbc => by
      have htoNat := congrArg Char.toNat hbc
      rw [toNat_spell, toNat_spell] at htoNat
      exact UInt8.toNat_inj.mp (by omega)
    have hlist := List.map_injective_iff.mpr hspell (String.ofList_injective h)
    exact ByteArray.ext (Array.toList_inj.mp hlist)
  noColon := fun bytes h => by
    rw [String.toList_ofList, List.mem_map] at h
    obtain ⟨b, -, hb⟩ := h
    have htoNat := toNat_spell b
    rw [hb] at htoNat
    have hcolon : ':'.toNat = 58 := rfl
    omega

def spelledSha256 : Sha256 := ⟨spelledHash, spelledHash, spelledHash⟩

def asciiTables : UnicodeTables := ⟨PyStr.lower, Char.isAlphanum⟩

/-- The casting of the second creator, before and after a revision. -/
def mulherCall (profilePrompt : String) : PaidCall :=
  .creatorImage (rosterCall asciiTables ⟨"run-1", by decide⟩ 1 (some profilePrompt) "gpt-image-2")

/-- The images of two prompts, one of a woman and one of a man, share their key. -/
theorem creator_images_share_key :
    spelledSha256.effectKey (mulherCall "Retrato de uma mulher") =
        spelledSha256.effectKey (mulherCall "Retrato de uma mulherfe") ∧
      ¬KeyContract spelledSha256 (mulherCall "Retrato de uma mulher")
        (mulherCall "Retrato de uma mulherfe") := by
  have hfemale : Gender.assignPreset asciiTables (some "Retrato de uma mulher") 1 = .female := by
    decide
  have hmale : Gender.assignPreset asciiTables (some "Retrato de uma mulherfe") 1 = .male := by
    decide
  have hclash : Clash (mulherCall "Retrato de uma mulher")
      (mulherCall "Retrato de uma mulherfe") :=
    ⟨rfl, rfl, rfl, .inr (.inl ⟨hfemale, hmale, rfl⟩)⟩
  exact ⟨ImageClash.key_eq spelledSha256 hclash,
    fun h => (identifies_iff spelledSha256 _ _).mp h.1 hclash⟩

end Orchestrator
