import Orchestrator.Graph.Builder
import Orchestrator.Lib.Outcome

/-!
What each node of the item subgraph can do to an item, and where the graph goes
from there. Everything else about runs of the subgraph follows from this.
-/
namespace Orchestrator
open Outcome

namespace ItemServices
variable {s : ItemServices}

theorem persistClips_length {keyBase : String} {clips stored : List Artifact} {n : Nat}
    (h : s.persistClips keyBase clips n = .ok stored) : stored.length = clips.length := by
  induction clips generalizing n stored with
  | nil =>
      cases h
      rfl
  | cons clip clips ih =>
      obtain ⟨first, -, h⟩ := ok_of_bind h
      obtain ⟨second, -, h⟩ := ok_of_bind h
      obtain ⟨rest, hrest, h⟩ := ok_of_bind h
      cases h
      exact congrArg (· + 1) (ih hrest)

theorem persistOptional_isSome {keyBase : String} {art stored : Option Artifact}
    (h : s.persistOptional keyBase art = .ok stored) : stored.isSome = art.isSome := by
  cases art with
  | none =>
      cases h
      rfl
  | some art =>
      obtain ⟨kept, -, h⟩ := ok_of_bind h
      cases h
      rfl

theorem persistItemMedia_ok {runId : String} {item persisted : Item}
    (h : s.persistItemMedia runId item = .ok persisted) :
    persisted.clips.length = item.clips.length ∧
      persisted.voiceover.isSome = item.voiceover.isSome ∧
      persisted.costUsd = item.costUsd := by
  obtain ⟨clips, hclips, h⟩ := ok_of_bind h
  obtain ⟨voiceover, hvoiceover, h⟩ := ok_of_bind h
  obtain ⟨assembled, -, h⟩ := ok_of_bind h
  cases h
  exact ⟨persistClips_length hclips, persistOptional_isSome hvoiceover, rfl⟩

end ItemServices

section Nodes
variable {u : UnicodeTables} {cfg : ItemConfig} {s : ItemServices} {item left : Item}

/-- The narration of an item fails: it has no voice or no text, or the synthesis
raises. -/
inductive Unvoiced (u : UnicodeTables) (s : ItemServices) (item : Item) : String → Prop where
  | missing {error : String} (hmissing : narrationMissing u item = some error) :
      Unvoiced u s item error
  | raised {exc : StageExc} (hnarrated : narrationMissing u item = none)
      (hraised : s.synthesizeVoiceover (PyStr.strip (item.creatorVoiceRef.getD ""))
        (narrationText u (item.script.getD "")) item.id = .error exc) :
      Unvoiced u s item ("voiceover: " ++ exc.text)

theorem Unvoiced.error_ne {error : String} (h : Unvoiced u s item error) : error ≠ "" := by
  cases h with
  | missing hmissing =>
      unfold narrationMissing at hmissing
      split at hmissing
      · cases hmissing
        decide
      · split at hmissing
        · cases hmissing
          decide
        · cases hmissing
  | raised _ _ =>
      intro hempty
      exact absurd (String.append_eq_empty_iff.mp hempty).1 (by decide)

theorem nodeVoiceover_ok (h : nodeVoiceover u cfg s item = .ok left) :
    (∃ error, Unvoiced u s item error ∧
      left = { item with voiceover := none, error := some error }) ∨
    (∃ art costUsd, (∀ error, ¬ Unvoiced u s item error) ∧
      left = { item with voiceover := some art, costUsd, error := none }) := by
  unfold nodeVoiceover at h
  cases hmissing : narrationMissing u item with
  | some error =>
      rw [hmissing] at h
      cases h
      exact .inl ⟨error, .missing hmissing, rfl⟩
  | none =>
      rw [hmissing] at h
      cases hsynthesized : s.synthesizeVoiceover (PyStr.strip (item.creatorVoiceRef.getD ""))
          (narrationText u (item.script.getD "")) item.id with
      | error exc =>
          simp only [hsynthesized] at h
          cases h
          exact .inl ⟨_, .raised hmissing hsynthesized, rfl⟩
      | ok art =>
          simp only [hsynthesized] at h
          obtain ⟨costUsd, -, h⟩ := ok_of_bind h
          obtain ⟨persisted, hpersisted, h⟩ := ok_of_bind h
          cases h
          obtain ⟨-, hvoiced, -⟩ := ItemServices.persistItemMedia_ok hpersisted
          obtain ⟨kept, hkept⟩ := Option.isSome_iff_exists.mp hvoiced
          refine .inr ⟨kept, persisted.costUsd, ?_, by rw [hkept]⟩
          intro error hunvoiced
          cases hunvoiced with
          | missing hsome => exact absurd (hmissing.symm.trans hsome) (by simp)
          | raised hnone hraised => exact absurd (hsynthesized.symm.trans hraised) (by simp)

theorem nodeVoiceover_unvoiced {error : String} (h : Unvoiced u s item error) :
    nodeVoiceover u cfg s item = .ok { item with voiceover := none, error := some error } := by
  unfold nodeVoiceover
  cases h with
  | missing hmissing => rw [hmissing]; rfl
  | raised hnarrated hraised => rw [hnarrated, hraised]; rfl

/-- A paid clip is appended, or its expected failure becomes the item's error. -/
inductive Generated (s : ItemServices) (item : Item) (request : ClipRequest) : Item → Prop where
  | appended {clip : Artifact} {clips : List Artifact} {costUsd : Rat} {tier : Option String}
      (hgenerated : s.generateClip request = .ok clip)
      (hclips : clips.length = item.clips.length + 1) :
      Generated s item request { item with clips, costUsd, tier }
  | failed {exc : VideoEffectError} (hraised : s.generateClip request = .error (.videoEffect exc)) :
      Generated s item request (videoFailureUpdate item exc request.stage)

theorem Generated.attempts_eq {request : ClipRequest} (h : Generated s item request left) :
    left.attempts = item.attempts := by
  cases h <;> rfl

theorem generateClip_ok (tier : Option String) {request : ClipRequest} {update : Item → Item}
    (hupdate : ∀ item, update item = { item with tier := tier.or item.tier })
    (h : generateClip cfg s item request update = .ok left) : Generated s item request left := by
  unfold generateClip at h
  cases hgenerated : s.generateClip request with
  | error exc =>
      rw [hgenerated] at h
      cases exc with
      | videoEffect exc =>
          cases h
          exact .failed hgenerated
      | other text => cases h
  | ok clip =>
      simp only [hgenerated] at h
      obtain ⟨costUsd, -, h⟩ := ok_of_bind h
      obtain ⟨persisted, hpersisted, h⟩ := ok_of_bind h
      cases h
      rw [hupdate]
      obtain ⟨hlength, -, -⟩ := ItemServices.persistItemMedia_ok hpersisted
      exact .appended hgenerated (hlength.trans (List.length_append.trans rfl))

theorem nodeGen_ok {tier : String} (h : nodeGen cfg s item tier = .ok left) :
    Generated s item (talkingHeadRequest cfg item tier) left :=
  generateClip_ok (some tier) (fun _ => rfl) h

theorem nodeProductDemo_ok (h : nodeProductDemo cfg s item = .ok left) :
    Generated s item (productDemoRequest cfg item) left :=
  generateClip_ok none (fun _ => rfl) h

theorem VideoEffectError.text_ne (exc : VideoEffectError) : exc.text ≠ "" := by
  intro hempty
  exact absurd (String.append_eq_empty_iff.mp hempty).2 (by decide)

theorem nodeQc_ok (h : nodeQc cfg s item = .ok left) :
    ∃ qc, s.qcCheck item cfg.failRate = .ok qc ∧
      left = { item with
        qc := some qc
        attempts := if qc.passed then item.attempts else item.attempts + 1 } := by
  obtain ⟨qc, hqc, h⟩ := ok_of_bind h
  refine ⟨qc, hqc, ?_⟩
  cases hpassed : qc.passed with
  | false =>
      simp only [hpassed, Bool.false_eq_true, if_false] at h ⊢
      cases h
      rfl
  | true =>
      simp only [hpassed, if_true] at h ⊢
      obtain ⟨_, -, h⟩ := ok_of_bind h
      cases h
      rfl

theorem nodeAssembly_ok (h : nodeAssembly cfg s item = .ok left) :
    ∃ assembled error costUsd, left = { item with assembled, error, costUsd } := by
  obtain ⟨media, -, h⟩ := ok_of_bind h
  cases media with
  | error reason =>
      cases h
      exact ⟨none, _, item.costUsd, rfl⟩
  | ok media =>
      obtain ⟨costUsd, -, h⟩ := ok_of_bind h
      obtain ⟨canonical, -, h⟩ := ok_of_bind h
      obtain ⟨persisted, -, h⟩ := ok_of_bind h
      cases h
      exact ⟨persisted.assembled, none, persisted.costUsd, rfl⟩

theorem nodeUpscale_ok (h : nodeUpscale cfg s item = .ok left) :
    ∃ assembled, left = { item with assembled } := by
  unfold nodeUpscale at h
  cases hassembled : item.assembled with
  | none =>
      rw [hassembled] at h
      cases h
      exact ⟨item.assembled, rfl⟩
  | some assembled =>
      simp only [hassembled] at h
      split at h
      · cases h
        exact ⟨item.assembled, rfl⟩
      · split at h
        · cases h
          exact ⟨item.assembled, rfl⟩
        · obtain ⟨persisted, -, h⟩ := ok_of_bind h
          cases h
          exact ⟨persisted.assembled, rfl⟩

theorem nodeDrop_ok (h : nodeDrop s item = .ok left) : left = { item with dropped := true } := by
  obtain ⟨_, -, h⟩ := ok_of_bind h
  cases h
  rfl

end Nodes

namespace ItemGraph
variable (g : ItemGraph) (u : UnicodeTables) (env : Nat → ItemServices) (n : Nat) (item : Item)

def firstTier : String := g.cfg.tiers.headD ""

theorem tiers_eq : ∃ rest, g.cfg.tiers = g.firstTier :: rest := by
  cases htiers : g.cfg.tiers with
  | nil =>
      have hvalid := g.valid
      rw [htiers] at hvalid
      exact absurd hvalid (by decide)
  | cons tier rest => exact ⟨rest, by rw [firstTier, htiers]; rfl⟩

/-- No tier takes the name of another node. -/
theorem firstTier_notMem_fixed : g.firstTier ∉ fixedSpecs.map Prod.fst := by
  obtain ⟨rest, htiers⟩ := g.tiers_eq
  obtain ⟨specs, hspecs, -⟩ := ok_of_bind g.valid
  rw [if_neg (by rw [htiers]; exact List.cons_ne_nil _ _)] at hspecs
  unfold topologyForTiers at hspecs
  split at hspecs
  · cases hspecs
  · intro hfixed
    have hconflict : g.firstTier ∈ (fixedSpecs.map Prod.fst).filter (· ∈ g.cfg.tiers) :=
      List.mem_filter.mpr ⟨hfixed, decide_eq_true (htiers ▸ List.mem_cons_self)⟩
    rw [if_pos (List.ne_nil_of_mem hconflict)] at hspecs
    cases hspecs

/-- Where the graph goes after the narration, whatever came of it. -/
def afterVoiceover : Option ItemNode :=
  if g.firstTier = "end" then none else some (.tier g.firstTier)

theorem execute_voiceover : g.execute u env n .voiceover item =
    (nodeVoiceover u g.cfg (env n) item).map fun left => (left, g.afterVoiceover) := by
  obtain ⟨rest, htiers⟩ := g.tiers_eq
  have hfollow : follow (tierRoutingMap g.cfg.tiers) g.firstTier = .ok g.afterVoiceover := by
    unfold follow tierRoutingMap afterVoiceover
    by_cases hend : g.firstTier = "end"
    · simp [hend]
    · simp [hend, htiers]
  cases hvoiceover : nodeVoiceover u g.cfg (env n) item with
  | error exc => simp only [execute, hvoiceover]; rfl
  | ok left =>
      have hroute : routeAfterScript left g.cfg.tiers = .ok g.firstTier := by
        rw [htiers]
        rfl
      simp only [execute, hvoiceover, ok_bind, hroute, hfollow]
      rfl

/-- Where a video node goes: on, unless the item has an error. -/
def afterVideo (left : Item) (onward : ItemNode) : Option ItemNode :=
  if left.error.any (· ≠ "") then none else some onward

theorem follow_video (left : Item) (onward : ItemNode) :
    follow (videoRoutingMap onward) (routeAfterVideoNode left) = .ok (afterVideo left onward) := by
  unfold routeAfterVideoNode afterVideo
  split <;> rfl

theorem afterVideo_error {left : Item} {onward : ItemNode} {error : String}
    (herror : left.error = some error) (hne : error ≠ "") : afterVideo left onward = none := by
  simp [afterVideo, herror, hne]

theorem afterVideo_ok {left : Item} {onward : ItemNode} (herror : left.error = none) :
    afterVideo left onward = some onward := by
  simp [afterVideo, herror]

theorem execute_tier (name : String) : g.execute u env n (.tier name) item =
    (nodeGen g.cfg (env n) item name).map fun left => (left, afterVideo left .productDemo) := by
  cases hgen : nodeGen g.cfg (env n) item name with
  | error exc => simp only [execute, hgen]; rfl
  | ok left =>
      simp only [execute, hgen, ok_bind, follow_video]
      rfl

theorem execute_productDemo : g.execute u env n .productDemo item =
    (nodeProductDemo g.cfg (env n) item).map fun left => (left, afterVideo left .qc) := by
  cases hdemo : nodeProductDemo g.cfg (env n) item with
  | error exc => simp only [execute, hdemo]; rfl
  | ok left =>
      simp only [execute, hdemo, ok_bind, follow_video]
      rfl

theorem afterVideo_some {left : Item} {onward next : ItemNode}
    (h : afterVideo left onward = some next) : onward = next := by
  unfold afterVideo at h
  split at h
  · cases h
  · exact Option.some.inj h

/-- Where the graph goes after a verdict on an item. -/
def afterQc (qc : QCResult) (left : Item) : ItemNode :=
  if qc.passed then .assembly
  else if left.attempts < g.cfg.maxAttempts then .tier g.firstTier
  else .drop

theorem follow_qc {qc : QCResult} {left : Item} (hqc : left.qc = some qc) :
    (do let route ← routeAfterQc left g.cfg.maxAttempts g.cfg.tiers
        follow (qcMap g.cfg.tiers) route) = .ok (some (g.afterQc qc left)) := by
  obtain ⟨rest, htiers⟩ := g.tiers_eq
  have hassembly : g.firstTier ≠ "assembly" := fun h =>
    g.firstTier_notMem_fixed (by rw [h]; decide)
  have hdrop : g.firstTier ≠ "drop" := fun h => g.firstTier_notMem_fixed (by rw [h]; decide)
  unfold routeAfterQc afterQc
  rw [hqc]
  cases hpassed : qc.passed with
  | true => simp [hpassed, ok_bind, follow, qcMap]
  | false =>
      by_cases hattempts : left.attempts < g.cfg.maxAttempts
      · simp [hpassed, hattempts, htiers, selectTier, ok_bind, follow, qcMap, hassembly, hdrop]
      · simp [hpassed, hattempts, ok_bind, follow, qcMap]

variable {g} {u} {env} {n} {item} {left : Item} {next : Option ItemNode}

theorem execute_qc_ok (h : g.execute u env n .qc item = .ok (left, next)) :
    ∃ qc, left = { item with
        qc := some qc
        attempts := if qc.passed then item.attempts else item.attempts + 1 } ∧
      next = some (g.afterQc qc left) := by
  obtain ⟨judged, hjudged, h⟩ := ok_of_bind h
  obtain ⟨qc, -, hleft⟩ := nodeQc_ok hjudged
  have hqc : judged.qc = some qc := by rw [hleft]
  have hfollow := g.follow_qc hqc
  obtain ⟨route, hroute, hnext⟩ := ok_of_bind hfollow
  simp only [hroute, hnext, ok_bind] at h
  cases h
  exact ⟨qc, hleft, rfl⟩

theorem execute_assembly_ok (h : g.execute u env n .assembly item = .ok (left, next)) :
    nodeAssembly g.cfg (env n) item = .ok left ∧ next = some .upscale := by
  obtain ⟨assembled, hassembled, h⟩ := ok_of_bind h
  cases h
  exact ⟨hassembled, rfl⟩

theorem execute_upscale_ok (h : g.execute u env n .upscale item = .ok (left, next)) :
    nodeUpscale g.cfg (env n) item = .ok left ∧ next = none := by
  obtain ⟨upscaled, hupscaled, h⟩ := ok_of_bind h
  cases h
  exact ⟨hupscaled, rfl⟩

theorem execute_drop_ok (h : g.execute u env n .drop item = .ok (left, next)) :
    nodeDrop (env n) item = .ok left ∧ next = none := by
  obtain ⟨dropped, hdropped, h⟩ := ok_of_bind h
  cases h
  exact ⟨hdropped, rfl⟩

/-- The first execution is the narration. -/
theorem run_one (h : nodeVoiceover u g.cfg (env 0) item = .ok left) :
    g.run u env item 1 = (GraphWalk.start .voiceover item : ItemRun).moved
      .voiceover left g.afterVoiceover := by
  refine GraphWalk.step_ok (k := GraphWalk.start ItemNode.voiceover item) rfl ?_
  change g.execute u env 0 .voiceover item = _
  rw [execute_voiceover, h]
  rfl

end ItemGraph

end Orchestrator
