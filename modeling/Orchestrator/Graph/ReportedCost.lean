import Mathlib.Algebra.Order.BigOperators.Group.List
import Mathlib.Algebra.Order.Ring.Rat
import Mathlib.Tactic.Ring
import Orchestrator.Graph.BatchPlan

/-!
The cost that the report of a run recomputes from the state, against the one that the
reducers accumulated.

The report finds the designs of a voice in the record its creator carries, so it knows
every design of the creators that are in the roster, each once. The reducers know all
that were ever paid for. What lies between the two is what was designed for rosters
that were built anew. Sums are exact here: neither the rounding of float additions nor
that of the report to four places is part of the two totals.
-/

namespace Orchestrator
open Json Outcome

/-- The id of the creator, the hash of the description and the count of re-rolls. -/
abbrev DesignKey := String × String × Int

/-- The batches of a creator that are dictionaries, those of the history first. -/
def designBatches (creator : Dict) : List Dict :=
  dictsOf (itemsOf (field? creator "voice_design_history") ++
    (field? creator "voice_design_batch").toList)

def designKey (creator batch : Dict) : DesignKey :=
  (idText creator, textOr (field? batch "description_hash") "",
    intOf (field? batch "reroll_count"))

def batchCost (batch : Dict) : Rat := numberOf (field? batch "cost_usd")

/-- A design whose key was seen is not counted again. -/
def countDesign (acc : List DesignKey × Rat) (creator batch : Dict) : List DesignKey × Rat :=
  if designKey creator batch ∈ acc.1 then acc
  else (designKey creator batch :: acc.1, acc.2 + batchCost batch)

/-- `stage_cost["voice_design"]`. -/
def voiceDesignCost (roster : List Dict) : Rat :=
  (roster.foldl (fun acc creator =>
    (designBatches creator).foldl (fun acc batch => countDesign acc creator batch) acc) ([], 0)).2

/-- The exact sum that `summarize` adds up in floats and rounds to `total_cost_usd`. -/
def summarizedCost (st : BatchState) : Rat :=
  (st.results.map (·.costUsd)).sum + voiceDesignCost st.roster

theorem countDesign_all (pairs : List (Dict × Dict)) (acc : List DesignKey × Rat)
    (hnodup : (pairs.map fun p => designKey p.1 p.2).Nodup)
    (hnew : ∀ p ∈ pairs, designKey p.1 p.2 ∉ acc.1) :
    (pairs.foldl (fun acc p => countDesign acc p.1 p.2) acc).2 =
      acc.2 + (pairs.map fun p => batchCost p.2).sum := by
  induction pairs generalizing acc with
  | nil => simp
  | cons p pairs ih =>
      obtain ⟨hfirst, hrest⟩ := List.nodup_cons.mp hnodup
      obtain ⟨hp, hpairs⟩ := List.forall_mem_cons.mp hnew
      rw [List.foldl_cons, countDesign, if_neg hp, ih _ hrest fun q hq => ?_]
      · rw [List.map_cons, List.sum_cons, add_assoc]
      · refine List.not_mem_cons_of_ne_of_not_mem (fun heq => hfirst ?_) (hpairs q hq)
        exact List.mem_map.mpr ⟨q, hq, heq⟩

/-- The designs a creator shows, each with its count. -/
def Shows (creator : Dict) (designs : List (StoredDesign × Int)) : Prop :=
  designBatches creator = designs.map fun p => p.1.batch p.2

/-- A creator shows designs whose counts increase. -/
def Documented (creator : Dict) : Prop :=
  ∃ designs, Shows creator designs ∧ (designs.map Prod.snd).Pairwise (· < ·)

def designsCost (creator : Dict) : Rat := ((designBatches creator).map batchCost).sum

@[simp] theorem batchCost_batch (d : StoredDesign) (n : Int) :
    batchCost (d.batch n) = d.costUsd := rfl

theorem designKey_batch (creator : Dict) (d : StoredDesign) (n : Int) :
    designKey creator (d.batch n) =
      (idText creator, textOr (some (.str d.descriptionHash)) "", n) := by
  have hcount : field? (d.batch n) "reroll_count" = some (.num n) := rfl
  rw [designKey, hcount, intOf_num]
  rfl

theorem Documented.nodup {creator : Dict} (h : Documented creator) :
    ((designBatches creator).map (designKey creator)).Nodup := by
  obtain ⟨designs, hshows, hincreasing⟩ := h
  rw [hshows, List.map_map]
  refine List.Nodup.of_map (fun key : DesignKey => key.2.2) ?_
  rw [List.map_map]
  have hcounts : (fun key : DesignKey => key.2.2) ∘ designKey creator ∘
      (fun p : StoredDesign × Int => p.1.batch p.2) = Prod.snd := by
    funext p
    exact congrArg (fun key : DesignKey => key.2.2) (designKey_batch creator p.1 p.2)
  rw [hcounts]
  exact hincreasing.imp fun hlt => hlt.ne

/-- With creators that are told apart the report counts every design once. -/
theorem voiceDesignCost_eq {roster : List Dict} (hids : (roster.map idText).Nodup)
    (h : ∀ creator ∈ roster, Documented creator) :
    voiceDesignCost roster = (roster.map designsCost).sum := by
  have hloop : voiceDesignCost roster =
      ((roster.flatMap fun creator => (designBatches creator).map (creator, ·)).foldl
        (fun acc p => countDesign acc p.1 p.2) ([], 0)).2 := by
    rw [voiceDesignCost, List.foldl_flatMap]
    simp only [List.foldl_map]
  have hkeys : ((roster.flatMap fun creator => (designBatches creator).map (creator, ·)).map
      fun p => designKey p.1 p.2).Nodup := by
    rw [List.map_flatMap]
    refine List.nodup_flatMap.mpr ⟨fun creator hcreator => ?_, ?_⟩
    · rw [List.map_map]
      exact (h creator hcreator).nodup
    · refine (List.pairwise_map.mp hids).imp fun hne key hkey hkey' => hne ?_
      simp only [List.map_map, List.mem_map, Function.comp_apply] at hkey hkey'
      obtain ⟨batch, -, rfl⟩ := hkey
      obtain ⟨batch', -, hsame⟩ := hkey'
      exact (congrArg Prod.fst hsame).symm
  have hcosts : ∀ creator, (((designBatches creator).map (creator, ·)).map
      fun p => batchCost p.2).sum = designsCost creator := fun creator => by
    rw [List.map_map]
    rfl
  rw [hloop, countDesign_all _ _ hkeys fun _ _ => List.not_mem_nil, zero_add, List.map_flatMap,
    List.flatMap_def, List.sum_flatten, List.map_map]
  exact congrArg List.sum (List.map_congr_left fun creator _ => hcosts creator)

theorem VoiceRecord.Describes.shows {v : VoiceRecord} {creator : Dict}
    (h : v.Describes creator) : Shows creator (v.designs (rerollCount creator)) := by
  have hitems : itemsOf (field? creator "voice_design_history") ++
      (field? creator "voice_design_batch").toList =
        ((v.designs (rerollCount creator)).map fun p => p.1.batch p.2).map .obj := by
    rw [h.history, h.batch, VoiceRecord.designs, List.map_append, List.map_append, List.map_map]
    cases v.current <;> rfl
  rw [Shows, designBatches, hitems, dictsOf_map_obj]

theorem Voiced.documented {creator : Dict} (h : Voiced creator) : Documented creator := by
  obtain ⟨v, hdescribes, hcounted⟩ := h
  exact ⟨_, hdescribes.shows, hcounted.increasing⟩

theorem Undesigned.batches {creator : Dict} (h : Undesigned creator) :
    designBatches creator = [] := by
  rw [designBatches, h.history, h.batch]
  rfl

theorem Undesigned.documented {creator : Dict} (h : Undesigned creator) : Documented creator :=
  ⟨[], h.batches, List.Pairwise.nil⟩

theorem Documented.cost_nonneg {creator : Dict} (h : Documented creator) :
    ∀ cost ∈ (designBatches creator).map batchCost, 0 ≤ cost := by
  obtain ⟨designs, hshows, -⟩ := h
  rw [hshows, List.map_map]
  intro cost hcost
  obtain ⟨p, -, rfl⟩ := List.mem_map.mp hcost
  exact p.1.cost_nonneg

theorem Documented.designsCost_nonneg {creator : Dict} (h : Documented creator) :
    0 ≤ designsCost creator :=
  List.sum_nonneg h.cost_nonneg

section Operations
variable {cfg : BatchConfig} {creator out : Dict}

/-- A review keeps the designs of a creator, on the table or put aside. -/
theorem Voiced.batches_review (h : Voiced creator) {update : Dict}
    (hreviewed : reviewedCreator creator update = .ok out) :
    designBatches out = designBatches creator := by
  obtain ⟨v, hdescribes, -⟩ := h
  have hdesigns : (if briefChanged creator update then v.archived (rerollCount creator)
      else v).designs (rerollCount creator) = v.designs (rerollCount creator) := by
    split
    · simp [VoiceRecord.archived, VoiceRecord.designs]
    · rfl
  have hshows := (hdescribes.review hreviewed).shows
  rw [reviewedCreator_rerollCount hreviewed, hdesigns] at hshows
  rw [hshows, hdescribes.shows]

theorem batches_finalize {finalize : Dict → Option FinalizedVoice}
    (h : finalizeTurn finalize creator = .ok out) :
    designBatches out = designBatches creator := by
  rw [designBatches, designBatches, Voiced.finalizeTurn_frame h (by decide),
    Voiced.finalizeTurn_frame h (by decide)]

theorem Undesigned.batches_first (h : Undesigned creator) (d : StoredDesign) :
    designBatches (offerVoices cfg d (rerollCount creator) creator) =
      [d.batch (rerollCount creator)] := by
  have hshows := (VoiceRecord.Describes.first h cfg d).shows
  rw [offerVoices_rerollCount] at hshows
  exact hshows

theorem Voiced.batches_reroll (h : Voiced creator) (d : StoredDesign) :
    designBatches (offerVoices cfg d (rerollCount creator + 1)
        (archiveVoice (rerollCount creator + 1) creator)) =
      designBatches creator ++ [d.batch (rerollCount creator + 1)] := by
  obtain ⟨v, hdescribes, -⟩ := h
  have hshows := (hdescribes.reroll cfg d (rerollCount creator + 1)).shows
  rw [offerVoices_rerollCount, archiveVoice_rerollCount] at hshows
  rw [hshows, hdescribes.shows, VoiceRecord.designs, List.map_append]
  rfl

/-- A turn adds what its design cost. -/
theorem designsCost_voiceTurn {design : Dict → Int → Option StoredDesign}
    {requested : Option (List String)} {turn : Dict × Rat}
    (hundesigned : requested = none → Undesigned creator)
    (hvoiced : requested ≠ none → Voiced creator)
    (h : voiceTurn cfg design requested creator = .ok turn) :
    designsCost turn.1 = designsCost creator + turn.2 := by
  cases requested with
  | none =>
      obtain ⟨d, rfl⟩ := voiceTurn_none h
      have hcreator := hundesigned rfl
      simp [designsCost, hcreator.batches_first, hcreator.batches]
  | some ids =>
      rcases voiceTurn_some h with ⟨-, rfl⟩ | ⟨-, -, d, rfl⟩
      · exact (add_zero _).symm
      · have hcreator := hvoiced (by simp)
        simp [designsCost, hcreator.batches_reroll]

end Operations

/-- What was paid for and is not in the report. -/
def lostCost (r : BatchRun) : Rat := r.state.totalCostUsd - summarizedCost r.state

def rosterCost (roster : List Dict) : Rat := (roster.map designsCost).sum

section Run
variable {cfg : BatchConfig} {e : BatchEvent} {r r' : BatchRun}

theorem VoicedRoster.documented {roster : List Dict} (h : VoicedRoster roster) :
    (roster.map idText).Nodup ∧ ∀ creator ∈ roster, Documented creator :=
  ⟨h.nodup, fun creator hcreator => (h.voiced creator hcreator).documented⟩

theorem Casting.documented {st : BatchState} (h : Casting cfg st) :
    (st.roster.map idText).Nodup ∧ ∀ creator ∈ st.roster, Documented creator := by
  refine ⟨h.cast.nodup, fun creator hcreator => ?_⟩
  by_cases hrequested : requestedVoices st = none
  · exact (h.undesigned hrequested creator hcreator).documented
  · exact (h.voiced hrequested creator hcreator).documented

theorem Planned.documented (h : Planned cfg r) :
    (r.state.roster.map idText).Nodup ∧ ∀ creator ∈ r.state.roster, Documented creator := by
  unfold Planned at h
  split at h
  · exact h.roster.documented
  · exact h.roster.documented
  · exact h.roster.documented
  · exact h.1.roster.documented
  · exact Casting.documented h
  · exact h.rosterOf.documented

theorem Planned.lostCost_eq (h : Planned cfg r) :
    lostCost r = r.state.totalCostUsd -
      ((r.state.results.map (·.costUsd)).sum + rosterCost r.state.roster) := by
  obtain ⟨hids, hdocumented⟩ := h.documented
  rw [lostCost, summarizedCost, voiceDesignCost_eq hids hdocumented]
  rfl

theorem rosterCost_nonneg (h : Planned cfg r) : 0 ≤ rosterCost r.state.roster := by
  refine List.sum_nonneg fun cost hcost => ?_
  obtain ⟨creator, hcreator, rfl⟩ := List.mem_map.mp hcost
  exact (h.documented.2 creator hcreator).designsCost_nonneg

theorem rosterCost_review {roster reviewed : List Dict} (h : RosterReviewed roster reviewed)
    (hvoiced : ∀ creator ∈ roster, Voiced creator) : rosterCost reviewed = rosterCost roster := by
  rcases h with rfl | ⟨-, hreviewed⟩
  · rfl
  · refine congrArg List.sum (map_eq_of_forall₂ ?_ (forall₂_mem hreviewed))
    rintro creator out ⟨hcreator, update, hupdate⟩
    rw [designsCost, designsCost, (hvoiced creator hcreator).batches_review hupdate]

/-- Voices cost what they add to the record of their creators. -/
theorem rosterCost_voices {st : BatchState} (h : Casting cfg st)
    {design : Dict → Int → Option StoredDesign} {designed : List (Dict × Rat)}
    (hdesigned : List.Forall₂ (fun creator out =>
      voiceTurn cfg design (requestedVoices st) creator = .ok out) st.roster designed) :
    rosterCost (designed.map Prod.fst) =
      rosterCost st.roster + (designed.map Prod.snd).sum := by
  have hturns : designed.map (fun out => designsCost out.1 - out.2) =
      st.roster.map designsCost := by
    refine map_eq_of_forall₂ ?_ (forall₂_mem hdesigned)
    rintro creator out ⟨hcreator, hturn⟩
    rw [designsCost_voiceTurn (fun hnone => h.undesigned hnone creator hcreator)
      (fun hsome => h.voiced hsome creator hcreator) hturn, add_sub_cancel_right]
  rw [rosterCost, rosterCost, ← hturns, List.map_map, ← List.sum_map_add]
  refine congrArg List.sum (List.map_congr_left fun out _ => ?_)
  exact (sub_add_cancel (designsCost out.1) out.2).symm

/-- Only a roster that is built anew takes designs out of the report. -/
theorem lostCost_advance (h : Planned cfg r) (hadvance : Advance cfg e r r') :
    lostCost r' =
      lostCost r + if r.node = .roster then rosterCost r.state.roster else 0 := by
  have hnext := h.advance hadvance
  rw [hnext.lostCost_eq, h.lostCost_eq]
  cases hadvance with
  | concepts concepts st => simp [nodeConcepts]
  | scripts write st => simp [nodeScripts]
  | creatorProfiles hprofiles =>
      obtain ⟨-, assignments, rfl⟩ := nodeCreatorProfiles_ok hprofiles
      simp
  | roster hroster =>
      obtain ⟨-, -, submission, hprofiles⟩ := h
      obtain ⟨-, hundesigned, roster, assignments, rfl⟩ := nodeRoster_ok hprofiles hroster
      have hnone : rosterCost roster = 0 := List.sum_eq_zero fun cost hcost => by
        obtain ⟨creator, hcreator, rfl⟩ := List.mem_map.mp hcost
        rw [designsCost, (hundesigned creator hcreator).batches]
        rfl
      simp only [hnone, if_true]
      ring
  | voiceCandidates hdesign =>
      obtain ⟨-, designed, hdesigned, rfl⟩ := nodeVoiceCandidates_ok hdesign
      simp only [rosterCost_voices h hdesigned, reduceCtorEq, if_false]
      ring
  | review hreview =>
      have houtcome := nodeReview_ok hreview
      simp only [rosterCost_review houtcome.roster (Complete.rosterOf h).voiced,
        houtcome.results, houtcome.totalCostUsd, reduceCtorEq, if_false, add_zero]
  | finalizeVoices hfinalize =>
      obtain ⟨roster, hroster, rfl⟩ := nodeFinalizeVoices_ok hfinalize
      have hsame : rosterCost roster = rosterCost _ :=
        congrArg List.sum (map_eq_of_forall₂ (fun creator out hturn =>
          congrArg (fun batches => (batches.map batchCost).sum) (batches_finalize hturn)) hroster)
      simp only [hsame, reduceCtorEq, if_false, add_zero]
  | processItem item pending st =>
      simp only [reduceItem, List.map_append, List.sum_append, List.map_cons, List.map_nil,
        List.sum_singleton, reduceCtorEq, if_false]
      ring
  | feedback st => simp

/-- The step builds the roster anew. -/
def Rebuilds (cfg : BatchConfig) (r : BatchRun) (e : BatchEvent) : Prop :=
  r.node = .roster ∧ ∃ seedImage build st,
    e = .roster seedImage build ∧ nodeRoster cfg seedImage build r.state = .ok st

/-- No design of the roster had to be paid for. -/
def CostFree (roster : List Dict) : Prop :=
  ∀ creator ∈ roster, ∀ batch ∈ designBatches creator, batchCost batch = 0

/-- A roster is built anew only over one that cost nothing. -/
def RebuildsCostFree (cfg : BatchConfig) (r : BatchRun) (e : BatchEvent) : Prop :=
  Rebuilds cfg r e → CostFree r.state.roster

theorem sum_eq_zero_iff_of_nonneg {costs : List Rat} (h : ∀ cost ∈ costs, 0 ≤ cost) :
    costs.sum = 0 ↔ ∀ cost ∈ costs, cost = 0 :=
  ⟨fun hsum _ hcost => List.all_zero_of_le_zero_le_of_sum_eq_zero h hsum hcost,
    List.sum_eq_zero⟩

theorem rosterCost_eq_zero_iff (h : Planned cfg r) :
    rosterCost r.state.roster = 0 ↔ CostFree r.state.roster := by
  have hdocumented := h.documented.2
  have hcosts : ∀ cost ∈ r.state.roster.map designsCost, 0 ≤ cost := fun cost hcost => by
    obtain ⟨creator, hcreator, rfl⟩ := List.mem_map.mp hcost
    exact (hdocumented creator hcreator).designsCost_nonneg
  rw [rosterCost, sum_eq_zero_iff_of_nonneg hcosts, List.forall_mem_map]
  refine forall₂_congr fun creator hcreator => ?_
  rw [designsCost, sum_eq_zero_iff_of_nonneg (hdocumented creator hcreator).cost_nonneg,
    List.forall_mem_map]

theorem lostCost_step (h : Planned cfg r) (e : BatchEvent) :
    lostCost r ≤ lostCost (BatchRun.step cfg e r).2 ∧
      (lostCost (BatchRun.step cfg e r).2 = lostCost r ↔ RebuildsCostFree cfg r e) := by
  have hnonneg := rosterCost_nonneg h
  by_cases hrebuilds : Rebuilds cfg r e
  · obtain ⟨hnode, seedImage, build, st, rfl, hroster⟩ := hrebuilds
    obtain ⟨node, state⟩ := r
    obtain rfl : node = .roster := hnode
    have hstep : (BatchRun.step cfg (.roster seedImage build) ⟨.roster, state⟩).2 =
        ⟨.voiceCandidates, st⟩ := by
      change (BatchRun.proceed _ (nodeRoster cfg seedImage build state) _).2 = _
      rw [show nodeRoster cfg seedImage build state = .ok st from hroster]
      rfl
    have hlost := lostCost_advance h (.roster hroster)
    rw [if_pos rfl] at hlost
    rw [hstep, hlost, add_eq_left, rosterCost_eq_zero_iff h]
    exact ⟨le_add_of_nonneg_right hnonneg,
      fun hfree _ => hfree, fun hfree => hfree ⟨rfl, _, _, st, rfl, hroster⟩⟩
  · have hsame : lostCost (BatchRun.step cfg e r).2 = lostCost r := by
      rcases BatchRun.step_cases cfg e r with hstays | hadvance
      · rw [hstays]
      · rw [lostCost_advance h hadvance, if_neg fun hnode => ?_, add_zero]
        generalize (BatchRun.step cfg e r).2 = r' at hadvance
        cases hadvance with
        | roster hroster => exact hrebuilds ⟨rfl, _, _, _, rfl, hroster⟩
        | _ => cases hnode
    exact ⟨hsame.ge, fun _ hrebuilds' => absurd hrebuilds' hrebuilds, fun _ => hsame⟩

end Run

/-- After a run the report adds up what the reducers accumulated exactly if no roster was
built anew over designs that were paid for. -/
theorem summarizedCost_eq_total_iff (cfg : BatchConfig) (events : List BatchEvent) :
    summarizedCost (BatchRun.after cfg events).state =
        (BatchRun.after cfg events).state.totalCostUsd ↔
      Machine.Guarded (BatchRun.step cfg) (RebuildsCostFree cfg) {} events := by
  have hunchanged : Machine.Guarded (BatchRun.step cfg) (RebuildsCostFree cfg) {} events ↔
      lostCost (BatchRun.after cfg events) = lostCost {} :=
    Machine.guarded_iff_unchanged _ (fun r e h (_ : True) => Planned.step e r h)
      (fun r e h _ => (lostCost_step h e).1) (fun r e h _ => (lostCost_step h e).2)
      (planned_after cfg []) fun _ _ => True.intro
  have hstart : lostCost {} = 0 := by decide +kernel
  rw [hunchanged, hstart, lostCost, sub_eq_zero, eq_comm]

end Orchestrator
