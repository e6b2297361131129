import Orchestrator.Graph.State
import Orchestrator.Lib.Outcome
import Orchestrator.Lib.UrlParse

/-!
The integrity check of an item before its assembly.

The check reads every clip the item ever got; what is assembled are the last
ones. `checkNetloc` is what the URL parser refuses in a network location.
-/

namespace Orchestrator

open Outcome

def videoExtensions : List String := [".mp4", ".webm", ".mov", ".m4v"]

def canonicalStorageSchemes : List String := ["r2", "s3"]

section Check
variable (checkNetloc : String → Except String Unit)

def isVideoUri (uri : String) : Except String Bool := do
  if uri = "" then return false
  if "data:video/".toList.isPrefixOf (PyStr.lower uri).toList then return true
  let parsed ← UrlParse.urlparse checkNetloc uri
  let suffix := PyStr.lower (UrlParse.suffix parsed.path)
  return if parsed.scheme ∈ ["http", "https"] then suffix = "" || suffix ∈ videoExtensions
    else if parsed.scheme ∈ canonicalStorageSchemes then
      (PyStr.strip parsed.netloc ≠ "" && parsed.path.toList.any (· ≠ '/')) &&
        suffix ∈ videoExtensions
    else if parsed.scheme ≠ "" then false
    else videoExtensions.any (fun ext => ext.toList.isSuffixOf (PyStr.lower parsed.path).toList)

/-- The field of the metadata, unless it is falsy. -/
def metaField (clip : Artifact) (name : String) : Option Json :=
  (clip.metadata.get? name).filter Json.truthy

/-- The provider of a clip; the Kelvin sign lower-cases to `k`. -/
def clipProvider (clip : Artifact) : String :=
  let provider := PyStr.strip ((metaField clip "provider").elim "" PyStr.str)
  PyStr.lower (provider.map fun c => if c.toNat = 0x212a then 'k' else c)

/-- What one clip has against it, under the name of its place. -/
def clipReasons (idx : Nat) (clip : Artifact) : Except String (List String) := do
  let name := "clip_" ++ toString idx
  let video ← isVideoUri checkNetloc clip.uri
  return (if clip.kind ≠ "clip" then [name ++ "_invalid_kind:" ++ clip.kind] else []) ++
    (if video then [] else [name ++ "_invalid_video_uri"]) ++
    (if clipProvider clip = "mock" then [name ++ "_mock_provider"] else []) ++
    (match metaField clip "fallback_reason" with
      | some fallback => [name ++ "_fallback_reason:" ++ PyStr.str fallback]
      | none => [])

def clipsReasons (idx : Nat) : List Artifact → Except String (List String)
  | [] => .ok []
  | clip :: clips => do
      let reasons ← clipReasons checkNetloc idx clip
      let later ← clipsReasons (idx + 1) clips
      return reasons ++ later

def missingClips (requiredClipCount : Int) (clips : List Artifact) : List String :=
  if clips.length < requiredClipCount then
    ["missing_clips:" ++ toString clips.length ++ "/" ++ toString requiredClipCount]
  else []

/-- `IntegrityQCAdapter.qc_check`; the fail rate is not read. -/
def integrityQcCheck (requiredClipCount : Int) (item : Item) (_failRate : Rat) :
    Except String QCResult := do
  let judged ← clipsReasons checkNetloc 0 item.clips
  let reasons := missingClips requiredClipCount item.clips ++ judged
  return { passed := reasons.isEmpty, score := if reasons.isEmpty then 1 else 0, reasons }

structure ValidClip (clip : Artifact) : Prop where
  kind : clip.kind = "clip"
  video : isVideoUri checkNetloc clip.uri = .ok true
  provider : clipProvider clip ≠ "mock"
  fallback : metaField clip "fallback_reason" = none

/-- The URI of the clip is one that the parser takes apart. -/
def Parses (clip : Artifact) : Prop := ∃ video, isVideoUri checkNetloc clip.uri = .ok video

end Check

/-- `item.clips[-count:]`; the assembly takes the last two. -/
def latestClips (count : Nat) (item : Item) : List Artifact :=
  item.clips.drop (item.clips.length - count)

def supersededClips (count : Nat) (item : Item) : List Artifact :=
  item.clips.take (item.clips.length - count)

theorem mem_clips_iff (count : Nat) (item : Item) (clip : Artifact) :
    clip ∈ item.clips ↔ clip ∈ supersededClips count item ∨ clip ∈ latestClips count item := by
  rw [supersededClips, latestClips, ← List.mem_append, List.take_append_drop]

section Check
variable {checkNetloc : String → Except String Unit}

theorem clipReasons_ok_iff (idx : Nat) (clip : Artifact) :
    (∃ reasons, clipReasons checkNetloc idx clip = .ok reasons) ↔ Parses checkNetloc clip := by
  constructor
  · rintro ⟨reasons, h⟩
    obtain ⟨video, hvideo, -⟩ := ok_of_bind h
    exact ⟨video, hvideo⟩
  · rintro ⟨video, hvideo⟩
    exact ⟨_, by rw [clipReasons, hvideo]; rfl⟩

theorem clipReasons_eq_nil_iff (idx : Nat) (clip : Artifact) :
    clipReasons checkNetloc idx clip = .ok [] ↔ ValidClip checkNetloc clip := by
  constructor
  · intro h
    obtain ⟨video, hvideo, hreasons⟩ := ok_of_bind h
    have hnil := Except.ok.inj hreasons
    simp only [List.append_eq_nil_iff] at hnil
    obtain ⟨⟨⟨hkind, huri⟩, hprovider⟩, hfallback⟩ := hnil
    refine ⟨by simpa using hkind, ?_, by simpa using hprovider, ?_⟩
    · cases video with
      | true => exact hvideo
      | false => simp at huri
    · cases hfield : metaField clip "fallback_reason" with
      | none => rfl
      | some fallback => simp [hfield] at hfallback
  · intro h
    rw [clipReasons, h.video, h.fallback, ok_bind]
    simp [h.kind, h.provider, pure, Except.pure]

theorem clipsReasons_ok_iff (idx : Nat) (clips : List Artifact) :
    (∃ reasons, clipsReasons checkNetloc idx clips = .ok reasons) ↔
      ∀ clip ∈ clips, Parses checkNetloc clip := by
  induction clips generalizing idx with
  | nil => simp [clipsReasons]
  | cons clip clips ih =>
      rw [List.forall_mem_cons, ← clipReasons_ok_iff idx clip, ← ih (idx + 1)]
      constructor
      · rintro ⟨reasons, h⟩
        obtain ⟨first, hfirst, hrest⟩ := ok_of_bind h
        obtain ⟨later, hlater, -⟩ := ok_of_bind hrest
        exact ⟨⟨first, hfirst⟩, later, hlater⟩
      · rintro ⟨⟨first, hfirst⟩, later, hlater⟩
        exact ⟨first ++ later, by rw [clipsReasons, hfirst, ok_bind, hlater]; rfl⟩

theorem clipsReasons_eq_nil_iff (idx : Nat) (clips : List Artifact) :
    clipsReasons checkNetloc idx clips = .ok [] ↔ ∀ clip ∈ clips, ValidClip checkNetloc clip := by
  induction clips generalizing idx with
  | nil => simp [clipsReasons]
  | cons clip clips ih =>
      rw [List.forall_mem_cons, ← clipReasons_eq_nil_iff idx clip, ← ih (idx + 1)]
      constructor
      · intro h
        obtain ⟨first, hfirst, hrest⟩ := ok_of_bind h
        obtain ⟨later, hlater, hnil⟩ := ok_of_bind hrest
        obtain ⟨rfl, rfl⟩ := List.append_eq_nil_iff.mp (Except.ok.inj hnil)
        exact ⟨hfirst, hlater⟩
      · rintro ⟨hfirst, hlater⟩
        rw [clipsReasons, hfirst, ok_bind, hlater]
        rfl

variable {required : Int} {item : Item} {failRate : Rat}

theorem missingClips_eq_nil_iff {clips : List Artifact} :
    missingClips required clips = [] ↔ required ≤ clips.length := by
  rw [missingClips]
  split <;> simp <;> omega

/-- The check passes an item exactly when it has enough clips and all are valid. -/
theorem integrityQcCheck_passed_iff :
    (∃ qc, integrityQcCheck checkNetloc required item failRate = .ok qc ∧ qc.passed = true) ↔
      required ≤ item.clips.length ∧ ∀ clip ∈ item.clips, ValidClip checkNetloc clip := by
  rw [← missingClips_eq_nil_iff, ← clipsReasons_eq_nil_iff 0]
  constructor
  · rintro ⟨qc, h, hpassed⟩
    obtain ⟨judged, hjudged, hqc⟩ := ok_of_bind h
    obtain rfl := Except.ok.inj hqc
    obtain ⟨hmissing, rfl⟩ := List.append_eq_nil_iff.mp (List.isEmpty_iff.mp hpassed)
    exact ⟨hmissing, hjudged⟩
  · rintro ⟨hmissing, hjudged⟩
    exact ⟨_, by rw [integrityQcCheck, hjudged]; rfl, by simp [hmissing]⟩

/-- The check gives a verdict exactly when it can parse every URI. -/
theorem integrityQcCheck_ok_iff (required : Int) (failRate : Rat) :
    (∃ qc, integrityQcCheck checkNetloc required item failRate = .ok qc) ↔
      ∀ clip ∈ item.clips, Parses checkNetloc clip := by
  rw [← clipsReasons_ok_iff 0]
  constructor
  · rintro ⟨qc, h⟩
    obtain ⟨judged, hjudged, -⟩ := ok_of_bind h
    exact ⟨judged, hjudged⟩
  · rintro ⟨judged, hjudged⟩
    exact ⟨_, by rw [integrityQcCheck, hjudged]; rfl⟩

end Check

/-- The verdict is about the latest clips: the item passes when they are enough and
valid, and fails when one of them is invalid. -/
def JudgesLatest (checkNetloc : String → Except String Unit) (required : Int) (item : Item)
    (failRate : Rat) : Prop :=
  let latest := latestClips required.toNat item
  (required ≤ item.clips.length → (∀ clip ∈ latest, ValidClip checkNetloc clip) →
    ∃ qc, integrityQcCheck checkNetloc required item failRate = .ok qc ∧ qc.passed = true) ∧
  ((∃ clip ∈ latest, ¬ ValidClip checkNetloc clip) →
    ∃ qc, integrityQcCheck checkNetloc required item failRate = .ok qc ∧ qc.passed = false)

/-- The verdict is about the latest clips exactly when no superseded clip is invalid
beside a valid latest take, and every URI parses when the latest take is invalid. -/
theorem judgesLatest_iff (checkNetloc : String → Except String Unit) (required : Int)
    (item : Item) (failRate : Rat) :
    JudgesLatest checkNetloc required item failRate ↔
      (required ≤ item.clips.length →
        (∀ clip ∈ latestClips required.toNat item, ValidClip checkNetloc clip) →
          ∀ clip ∈ supersededClips required.toNat item, ValidClip checkNetloc clip) ∧
      ((∃ clip ∈ latestClips required.toNat item, ¬ ValidClip checkNetloc clip) →
        ∀ clip ∈ item.clips, Parses checkNetloc clip) := by
  rw [JudgesLatest, integrityQcCheck_passed_iff]
  refine and_congr (forall_congr' fun hrequired => forall_congr' fun hlatest => ?_)
    (forall_congr' fun hinvalid => ?_)
  · constructor
    · exact fun h clip hclip => h.2 clip ((mem_clips_iff _ item clip).mpr (.inl hclip))
    · intro h
      refine ⟨hrequired, fun clip hclip => ?_⟩
      exact ((mem_clips_iff _ item clip).mp hclip).elim (h clip) (hlatest clip)
  · rw [← integrityQcCheck_ok_iff required failRate]
    constructor
    · rintro ⟨qc, hqc, -⟩
      exact ⟨qc, hqc⟩
    · rintro ⟨qc, hqc⟩
      refine ⟨qc, hqc, ?_⟩
      cases hpassed : qc.passed with
      | false => rfl
      | true =>
          obtain ⟨clip, hclip, hclipInvalid⟩ := hinvalid
          have hall := (integrityQcCheck_passed_iff.mp ⟨qc, hqc, hpassed⟩).2
          exact absurd (hall clip ((mem_clips_iff _ item clip).mpr (.inr hclip))) hclipInvalid

def storedClip (uri provider : String) : Artifact where
  kind := "clip"
  uri := uri
  metadata := .obj [("provider", .str provider)]

/-- A mock take and, after it, two takes the provider made. -/
def regeneratedItem : Item where
  id := "item"
  concept := []
  clips := [storedClip "mock://clip" "mock", storedClip "r2://media/clip-1.mp4" "replicate",
    storedClip "r2://media/clip-2.mp4" "replicate"]

/-- The superseded mock take fails the item. -/
theorem superseded_take_fails_item :
    ¬ ∀ (checkNetloc : String → Except String Unit) (required : Int) (item : Item)
        (failRate : Rat), JudgesLatest checkNetloc required item failRate := by
  intro h
  have hiff := (judgesLatest_iff (fun _ => .ok ()) 2 regeneratedItem 0).mp (h _ _ _ _)
  have hvalid : ∀ clip ∈ latestClips 2 regeneratedItem, ValidClip (fun _ => .ok ()) clip := by
    simp only [latestClips, regeneratedItem, List.length_cons, List.length_nil, List.drop,
      List.forall_mem_cons, List.not_mem_nil, false_implies, implies_true, and_true]
    constructor <;> exact ⟨rfl, by decide +kernel, by decide +kernel, by decide⟩
  have hmock := hiff.1 (by decide) hvalid (storedClip "mock://clip" "mock") (by decide)
  exact absurd hmock.provider (by decide +kernel)

end Orchestrator
