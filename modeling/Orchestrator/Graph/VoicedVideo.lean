import Orchestrator.Graph.ItemMoves

/-!
Paid video and the voiceover of the item.

A tier node is meant to run only on an item that carries a voiceover and no
error. The edge after the narration goes to the first tier whatever came of it,
so this holds exactly where the narration does not fail, or the tier's name
leads to the end of the graph.
-/

namespace Orchestrator
open Outcome

def Item.Voiced (item : Item) : Prop := item.voiceover.isSome = true ∧ item.error = none

theorem routeAfterVoiceover_voiced {item : Item} (h : item.Voiced) :
    routeAfterVoiceover item = "continue" := by
  rw [routeAfterVoiceover, if_pos ⟨h.1, by simp [h.2]⟩]

/-- The nodes between the narration and a verdict. -/
def ItemNode.produces : ItemNode → Bool
  | .tier _ | .productDemo | .qc => true
  | _ => false

theorem Generated.voiced {s : ItemServices} {before left : Item} {request : ClipRequest}
    {onward next : ItemNode} (h : Generated s before request left) (hbefore : before.Voiced)
    (hnext : ItemGraph.afterVideo left onward = some next) : next = onward ∧ left.Voiced := by
  cases h with
  | appended hgenerated hclips =>
      have honward : some onward = some next :=
        (ItemGraph.afterVideo_ok (by exact hbefore.2)).symm.trans hnext
      cases honward
      exact ⟨rfl, hbefore⟩
  | failed hraised =>
      have hstopped : none = some next :=
        (ItemGraph.afterVideo_error rfl (VideoEffectError.text_ne _)).symm.trans hnext
      cases hstopped

namespace ItemGraph
variable (g : ItemGraph) (u : UnicodeTables) (env : Nat → ItemServices) (item : Item)

/-- Every tier node that runs meets a voiced item, and an item whose voiceover
failed ends with the clips it had. -/
structure VideosVoiced : Prop where
  voiced : ∀ n, ∀ visit ∈ (g.run u env item n).visits, ∀ name, visit.node = .tier name →
    visit.before.Voiced
  stopped : (∃ error, Unvoiced u (env 0) item error) →
    ∃ n, (g.run u env item n).position = .ended ∧ (g.run u env item n).state.clips = item.clips

structure OnlyVoiced (k : ItemRun) : Prop where
  visits : ∀ visit ∈ k.visits, ∀ name, visit.node = .tier name → visit.before.Voiced
  entry : k.position = .running .voiceover → k.visits = [] ∧ k.state = item
  producing : ∀ node, k.position = .running node → node.produces = true → k.state.Voiced

variable {g} {u} {env} {item}

/-- An edge into production is taken with a voiced item, when the narration only
goes on with one. -/
theorem voiced_of_edge {n : Nat} {node next : ItemNode} {before left : Item}
    (hexec : g.execute u env n node before = .ok (left, some next))
    (hentry : node = .voiceover → g.firstTier ≠ "end" →
      ∀ error, ¬ Unvoiced u (env n) before error)
    (hbefore : node.produces = true → before.Voiced) :
    next ≠ .voiceover ∧ (next.produces = true → left.Voiced) := by
  cases node with
  | voiceover =>
      rw [execute_voiceover] at hexec
      obtain ⟨narrated, hnarrated, hedge⟩ := ok_of_map hexec
      obtain ⟨rfl, hafter⟩ := Prod.mk.inj hedge
      unfold afterVoiceover at hafter
      split at hafter
      · cases hafter
      · next hfirst =>
          cases hafter
          refine ⟨ItemNode.noConfusion, fun _ => ?_⟩
          cases nodeVoiceover_ok hnarrated with
          | inl hfailed =>
              obtain ⟨error, hunvoiced, -⟩ := hfailed
              exact absurd hunvoiced (hentry rfl hfirst error)
          | inr hvoiced =>
              obtain ⟨art, costUsd, -, rfl⟩ := hvoiced
              exact ⟨rfl, rfl⟩
  | tier name =>
      rw [execute_tier] at hexec
      obtain ⟨generated, hgenerated, hedge⟩ := ok_of_map hexec
      obtain ⟨rfl, hafter⟩ := Prod.mk.inj hedge
      obtain ⟨rfl, hleft⟩ := (nodeGen_ok hgenerated).voiced (hbefore rfl) hafter
      exact ⟨ItemNode.noConfusion, fun _ => hleft⟩
  | productDemo =>
      rw [execute_productDemo] at hexec
      obtain ⟨generated, hgenerated, hedge⟩ := ok_of_map hexec
      obtain ⟨rfl, hafter⟩ := Prod.mk.inj hedge
      obtain ⟨rfl, hleft⟩ := (nodeProductDemo_ok hgenerated).voiced (hbefore rfl) hafter
      exact ⟨ItemNode.noConfusion, fun _ => hleft⟩
  | qc =>
      obtain ⟨qc, rfl, hnext⟩ := execute_qc_ok hexec
      cases hnext
      refine ⟨?_, fun _ => hbefore rfl⟩
      unfold afterQc
      split
      · exact ItemNode.noConfusion
      · split <;> exact ItemNode.noConfusion
  | assembly =>
      obtain ⟨-, hnext⟩ := execute_assembly_ok hexec
      cases hnext
      exact ⟨ItemNode.noConfusion, fun h => absurd h (by decide)⟩
  | upscale =>
      obtain ⟨-, hnext⟩ := execute_upscale_ok hexec
      cases hnext
  | drop =>
      obtain ⟨-, hnext⟩ := execute_drop_ok hexec
      cases hnext

theorem OnlyVoiced.append {k : ItemRun} (h : OnlyVoiced item k) {node : ItemNode}
    (hrunning : k.position = .running node) (left : Option Item) :
    ∀ visit ∈ k.visits ++ [⟨node, k.state, left⟩], ∀ name, visit.node = .tier name →
      visit.before.Voiced := by
  intro visit hvisit name hnode
  cases List.mem_append.mp hvisit with
  | inl hold => exact h.visits visit hold name hnode
  | inr hnew =>
      rw [List.mem_singleton.mp hnew] at hnode ⊢
      exact h.producing node hrunning (congrArg ItemNode.produces hnode)

theorem run_onlyVoiced
    (hguard : (∃ error, Unvoiced u (env 0) item error) → g.firstTier = "end") (n : Nat) :
    OnlyVoiced item (g.run u env item n) := by
  refine GraphWalk.steps_invariant ?_ ?_ ⟨fun _ h => absurd h List.not_mem_nil,
    fun _ => ⟨rfl, rfl⟩, ?_⟩ n
  · intro k node left next hk hrunning hexec
    have hedge : ∀ onward, next = some onward →
        onward ≠ .voiceover ∧ (onward.produces = true → left.Voiced) := by
      intro onward hnext
      subst hnext
      refine voiced_of_edge hexec ?_ (hk.producing node hrunning)
      intro hnode hfirst error hunvoiced
      obtain ⟨hvisits, hstate⟩ := hk.entry (hnode ▸ hrunning)
      rw [hvisits, hstate] at hunvoiced
      exact hfirst (hguard ⟨error, hunvoiced⟩)
    refine ⟨hk.append hrunning (some left), ?_, ?_⟩
    · intro hposition
      cases next with
      | none => cases hposition
      | some onward =>
          cases hposition
          exact absurd rfl (hedge _ rfl).1
    · intro onward hposition
      cases next with
      | none => cases hposition
      | some onward =>
          cases hposition
          exact (hedge _ rfl).2
  · intro k node exc hk hrunning _
    exact ⟨hk.append hrunning none, fun h => (by cases h), fun node h => (by cases h)⟩
  · intro node hposition hproduces
    cases hposition
    cases hproduces

/-- A narration that failed leads to the first tier. -/
theorem not_videosVoiced {error : String} (h : Unvoiced u (env 0) item error)
    (hfirst : g.firstTier ≠ "end") : ¬ VideosVoiced g u env item := by
  intro hvoiced
  have hone := run_one (g := g) (nodeVoiceover_unvoiced h)
  rw [afterVoiceover, if_neg hfirst] at hone
  have hrunning : (g.run u env item 1).position = .running (.tier g.firstTier) := by rw [hone]; rfl
  have hstep : ∃ left, ((g.run u env item 1).step (g.execute u env)).visits =
      (g.run u env item 1).visits ++ [⟨.tier g.firstTier, (g.run u env item 1).state, left⟩] :=
    GraphWalk.step_visits hrunning
  obtain ⟨left, hvisits⟩ := hstep
  have hmem : ⟨.tier g.firstTier, (g.run u env item 1).state, left⟩ ∈
      (g.run u env item 2).visits := by
    change _ ∈ ((g.run u env item 1).step (g.execute u env)).visits
    rw [hvisits]
    exact List.mem_append_right _ (List.mem_singleton_self _)
  have hbefore := (hvoiced.voiced 2 _ hmem g.firstTier rfl).1
  rw [hone] at hbefore
  cases hbefore

/-- Paid videos are voiced exactly where the narration does not fail or the
first tier is named as the end of the graph. -/
theorem videos_voiced_iff (g : ItemGraph) (u : UnicodeTables) (env : Nat → ItemServices)
    (item : Item) :
    VideosVoiced g u env item ↔
      ((∃ error, Unvoiced u (env 0) item error) → g.firstTier = "end") := by
  constructor
  · intro hvoiced hunvoiced
    obtain ⟨error, hunvoiced⟩ := hunvoiced
    by_contra hfirst
    exact not_videosVoiced hunvoiced hfirst hvoiced
  · intro hguard
    refine ⟨fun n => (run_onlyVoiced hguard n).visits, fun hunvoiced => ⟨1, ?_⟩⟩
    have hfirst := hguard hunvoiced
    obtain ⟨error, hunvoiced⟩ := hunvoiced
    rw [run_one (nodeVoiceover_unvoiced hunvoiced), afterVoiceover, if_pos hfirst]
    exact ⟨rfl, rfl⟩

def speechOutage : ItemServices :=
  { workingServices with synthesizeVoiceover := fun _ _ _ => .error (.other "connection refused") }

def scriptedItem : Item :=
  fanOutItem "item" { id := some "concept-1", fields := [], script := some "HOOK: Try it" }
    { voiceId := some "voice-1" }

/-- The speech provider is down: the first tier runs on an item without a
voiceover and with an error. -/
theorem unvoiced_item_filmed :
    ¬ ∀ (g : ItemGraph) (u : UnicodeTables) (env : Nat → ItemServices) (item : Item),
      VideosVoiced g u env item := by
  intro h
  have hnarrated : narrationMissing asciiTables scriptedItem = none := by decide
  have hunvoiced : Unvoiced asciiTables speechOutage scriptedItem
      ("voiceover: " ++ (StageExc.other "connection refused").text) := .raised hnarrated rfl
  have hfirst : ltxGraph.firstTier ≠ "end" := by decide
  have hvoiced := h ltxGraph asciiTables (fun _ => speechOutage) scriptedItem
  exact not_videosVoiced hunvoiced hfirst hvoiced

end ItemGraph

end Orchestrator
