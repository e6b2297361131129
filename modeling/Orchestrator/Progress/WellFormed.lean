import Mathlib.Data.List.Nodup
import Orchestrator.Progress.Snapshot

/-!
What the counters and the status of a stage say together, in every snapshot.

The loop over the events keeps a stage that counts items at the items it has
counted, and a step of the plan within the units that it last reported. Settling
and the adjustment to the phase keep the counters in their bounds. A parent takes
its status from its children and keeps counters of its own.
-/

namespace Orchestrator

/-- A node of an item; its events name the item. -/
def tracksItem (topology : PipelineTopology) (node : String) : Prop :=
  node ∈ topology.tiers ∨
    node ∈ ["process_item", "voiceover", "product_demo", "qc", "assembly", "upscale", "drop"]

/-- The stages whose nodes report how many of their units are done. -/
def StageId.reportsUnits : StageId → Bool
  | .scripts | .creatorPreviews => true
  | _ => false

namespace PublicEvent
variable (topology : PipelineTopology) (e : PublicEvent)

/-- `ProgressEventTranslator` for the start and the end of a node. -/
def Translated : Prop :=
  ∃ s, topology.nodeStage e.node = some s ∧ e.stageId = s.text ∧
    (e.status = "started" ∨ e.status = "completed") ∧
    (e.itemId ≠ "" → tracksItem topology e.node)

/-- `ProgressEventTranslator` for what a node reports. -/
def Reported : Prop :=
  ∃ s completed total, StageId.reportsUnits s = true ∧ e.stageId = s.text ∧ e.node = s.text ∧
    e.status = "progress" ∧ e.completedUnits = some completed ∧ e.totalUnits = some total ∧
    0 ≤ completed ∧ completed ≤ total ∧ 1 ≤ total

/-- The events of a run: those of the translator, the starts and ends of its nodes,
which name no item, and others that count nothing. -/
def Emitted : Prop :=
  match e.type with
  | .progressEvent => e.Translated topology ∨ e.Reported
  | .nodeStart | .nodeEnd => e.stageId = "" ∧ e.itemId = ""
  | _ => 0 ≤ e.batch

/-- An event that ends the work of a stage that counts items names the item. -/
def NamesItem : Prop :=
  ∀ s, e.stage? topology = some s → s.countsItems = true → e.lifecycle = .completed →
    PipelineTopology.Terminal s e.node → e.item? ≠ none

end PublicEvent

theorem tracksItem_iff {topology : PipelineTopology} {node : String} {s : StageId}
    (h : topology.nodeStage node = some s) : tracksItem topology node ↔ s.countsItems = true := by
  rw [PipelineTopology.nodeStage] at h
  split at h
  next htier =>
      obtain rfl := Option.some.inj h
      exact iff_of_true (.inl htier) rfl
  next htier =>
      rw [tracksItem]
      simp only [htier, false_or]
      unfold fixedStage at h
      split at h <;> cases h <;> decide

/-- No node stands for the setup or for the whole plan. -/
theorem nodeStage_ne {topology : PipelineTopology} {node : String} {s : StageId}
    (h : topology.nodeStage node = some s) : s ≠ .setup ∧ s ≠ .creativePlan := by
  rw [PipelineTopology.nodeStage] at h
  split at h
  next =>
      obtain rfl := Option.some.inj h
      decide
  next =>
      unfold fixedStage at h
      split at h <;> cases h <;> decide

namespace PublicEvent
variable {topology : PipelineTopology} {e : PublicEvent}

/-- What an event of a run that counts does: a node starts or ends, or it reports. -/
inductive Counts (topology : PipelineTopology) (e : PublicEvent) (s : StageId) : Prop
  | node (hnode : topology.nodeStage e.node = some s)
      (hlife : e.lifecycle = .started ∨ e.lifecycle = .completed)
      (hitem : s.countsItems = false → e.item? = none)
  | report (completed total : Int) (hreports : s.reportsUnits = true)
      (hlife : e.lifecycle = .progress) (hcompleted : e.completedUnits = some completed)
      (htotal : e.totalUnits = some total) (hnonneg : 0 ≤ completed) (hle : completed ≤ total)
      (hpos : 1 ≤ total)

theorem item?_eq_none_iff : e.item? = none ↔ e.itemId = "" := by
  rw [item?]
  split <;> simp [*]

theorem Emitted.counts {s : StageId} (h : e.Emitted topology) (hs : e.stage? topology = some s) :
    e.Counts topology s := by
  rw [Emitted] at h
  cases htype : e.type with
  | progressEvent =>
      simp only [htype] at h
      rcases h with ⟨s', hnode, hstage, hstatus, hitem⟩
        | ⟨s', completed, total, hreports, hstage, -, hstatus, hcompleted, htotal, hnonneg, hle,
          hpos⟩
      · have hsame : s' = s := by
          have hne : s'.text ≠ "" := by cases s' <;> decide
          simpa [stage?, htype, hstage, hne, StageId.ofText?_text] using hs
        subst hsame
        refine .node hnode ?_ fun hcounts => ?_
        · rw [lifecycle, htype]
          rcases hstatus with hstatus | hstatus <;> simp [hstatus, Lifecycle.ofText]
        · rw [item?_eq_none_iff]
          by_contra hne
          have := (tracksItem_iff hnode).mp (hitem hne)
          simp [hcounts] at this
      · have hsame : s' = s := by
          have hne : s'.text ≠ "" := by cases s' <;> decide
          simpa [stage?, htype, hstage, hne, StageId.ofText?_text] using hs
        subst hsame
        exact .report completed total hreports (by rw [lifecycle, htype, hstatus]; rfl) hcompleted
          htotal hnonneg hle hpos
  | nodeStart =>
      simp only [htype] at h
      rw [stage?, htype, if_pos (by simp), if_pos h.1] at hs
      exact .node hs (.inl (by rw [lifecycle, htype])) fun _ => item?_eq_none_iff.mpr h.2
  | nodeEnd =>
      simp only [htype] at h
      rw [stage?, htype, if_pos (by simp), if_pos h.1] at hs
      exact .node hs (.inr (by rw [lifecycle, htype])) fun _ => item?_eq_none_iff.mpr h.2
  | runStart => simp [stage?, htype] at hs
  | runQueued => simp [stage?, htype] at hs
  | jobStarted => simp [stage?, htype] at hs
  | other => simp [stage?, htype] at hs

end PublicEvent

/-- The items that the events of a run name, each once. -/
def eventItems (events : List PublicEvent) : List String :=
  (events.filterMap PublicEvent.item?).dedup

/-- The units that a stage may count when the events name the items `ids`. -/
def unitNames (ids : List String) (s : StageId) : List String :=
  if s.countsItems then ids else ["batch"]

/-- What the loop keeps for a stage in a batch of `n` items of which the events
name `ids`. -/
structure StageSound (n : Int) (ids : List String) (s : StageId) (stage : ProgressStage)
    (units : List String) : Prop where
  failedUnits : stage.failedUnits = 0
  nonneg : 0 ≤ stage.completedUnits
  le : stage.completedUnits ≤ stage.totalUnits
  full : stage.status = .completed → stage.totalUnits ≤ stage.completedUnits
  unsettled : s.countsItems = true → stage.status ≠ .completed
  fixed : s.reportsUnits = false → stage.totalUnits = if s.countsItems then n else 1
  unitNames_le : ((unitNames ids s).length : Int) ≤ stage.totalUnits
  nodup : units.Nodup
  mem_unitNames : ∀ unit ∈ units, unit ∈ unitNames ids s

namespace StageSound
variable {n : Int} {ids : List String} {s : StageId} {stage : ProgressStage} {units : List String}

theorem length_units_le (h : StageSound n ids s stage units) :
    (units.length : Int) ≤ stage.totalUnits := by
  have hle : units.length ≤ (unitNames ids s).length :=
    h.nodup.length_le_of_subset h.mem_unitNames
  have := h.unitNames_le
  omega

theorem totalUnits_nonneg (h : StageSound n ids s stage units) : 0 ≤ stage.totalUnits :=
  h.nonneg.trans h.le

theorem touch (h : StageSound n ids s stage units) (time : Option String) :
    StageSound n ids s { stage with updatedAt := time } units :=
  { h with }

theorem run (h : StageSound n ids s stage units) :
    StageSound n ids s { stage with status := .running } units :=
  { h with
    full := fun hstatus => by cases hstatus
    unsettled := fun _ hstatus => by cases hstatus }

/-- The counters become those that the node reports. -/
theorem report (h : StageSound n ids s stage units) (hreports : s.reportsUnits = true)
    {completed total : Int} (hnonneg : 0 ≤ completed) (hle : completed ≤ total)
    (hpos : 1 ≤ total) (status : StageStatus) (hfull : status = .completed → total ≤ completed) :
    StageSound n ids s
      { stage with completedUnits := completed, totalUnits := total, status := status } units := by
  have hitems : s.countsItems = false := by cases s <;> first | rfl | cases hreports
  exact
    { h with
      nonneg := hnonneg
      le := hle
      full := hfull
      unsettled := fun hcounts => by simp [hitems] at hcounts
      fixed := fun hfixed => by simp [hfixed] at hreports
      unitNames_le := by simpa [unitNames, hitems] using hpos }

/-- All units of the stage are done. -/
theorem completeAll (h : StageSound n ids s stage units) :
    StageSound n ids s { stage with completedUnits := stage.totalUnits } units :=
  { h with
    nonneg := h.totalUnits_nonneg
    le := le_refl stage.totalUnits
    full := fun _ => le_refl stage.totalUnits }

end StageSound

/-- What the loop keeps over the events. -/
structure Sound (n : Int) (ids : List String) (t : Tally) : Prop where
  stage (s : StageId) : StageSound n ids s (t.stages s) (t.counted s)
  operation : ∀ op ∈ t.operations, op.2.1 ≠ .setup

namespace Sound
variable {n : Int} {ids : List String} {t : Tally} {s : StageId}

theorem start (hn : (ids.length : Int) ≤ n) : Sound n ids (Tally.start n) where
  stage s := by
    have hnonneg : 0 ≤ n := by omega
    have htotal : 0 ≤ ((Tally.start n).stages s).totalUnits := by
      simp only [Tally.start]
      split <;> omega
    exact
      { failedUnits := rfl
        nonneg := le_refl (0 : Int)
        le := htotal
        full := fun hstatus => by cases hstatus
        unsettled := fun _ hstatus => by cases hstatus
        fixed := fun _ => rfl
        unitNames_le := by
          simp only [Tally.start, unitNames]
          split
          · exact hn
          · simp
        nodup := List.nodup_nil
        mem_unitNames := fun _ hunit => by cases hunit }
  operation _ hop := by cases hop

theorem setStage (h : Sound n ids t) {stage : ProgressStage}
    (hstage : StageSound n ids s stage (t.counted s)) : Sound n ids (t.setStage s stage) where
  stage s' := by
    by_cases hs : s' = s
    · subst hs
      simpa using hstage
    · simpa [t.setStage_stages_of_ne hs] using h.stage s'
  operation := h.operation

theorem setItem (h : Sound n ids t) (e : PublicEvent) (status : ItemStatus) :
    Sound n ids (t.setItem e s status) where
  stage s' := by simpa using h.stage s'
  operation := by simpa using h.operation

theorem begin (h : Sound n ids t) (hs : s ≠ .setup) (op : String)
    (item : Option String) :
    Sound n ids { t with operations := Entries.set t.operations op (s, item) } where
  stage := h.stage
  operation op hop := by
    obtain hop | rfl := Entries.mem_set hop
    · exact h.operation op hop
    · exact hs

theorem finish (h : Sound n ids t) (op : String) :
    Sound n ids { t with operations := Entries.pop t.operations op } where
  stage := h.stage
  operation op hop := h.operation op (List.mem_of_mem_filter hop)

theorem addUnit (h : Sound n ids t) {unit : String} (hunit : unit ∈ unitNames ids s) :
    Sound n ids (t.addUnit s unit) where
  stage s' := by
    by_cases hs : s' = s
    · subst hs
      have hsound := h.stage s'
      simp only [Tally.addUnit, Function.update_self]
      split
      · exact hsound
      next hnew =>
          exact
            { hsound with
              nodup := hsound.nodup.append (List.nodup_singleton unit)
                (List.disjoint_singleton.mpr hnew)
              mem_unitNames := fun u hu => by
                obtain hu | hu := List.mem_append.mp hu
                · exact hsound.mem_unitNames u hu
                · exact List.mem_singleton.mp hu ▸ hunit }
    · simpa [Tally.addUnit, Function.update_of_ne hs] using h.stage s'
  operation := h.operation

/-- The stage counts the units it has, which are all when it was complete. -/
theorem countUnits (h : Sound n ids t) (hfull : (t.stages s).status = .completed →
    (t.stages s).totalUnits ≤ (t.counted s).length) :
    Sound n ids (t.setStage s { t.stages s with completedUnits := (t.counted s).length }) :=
  h.setStage
    { h.stage s with
      nonneg := Int.natCast_nonneg _
      le := (h.stage s).length_units_le
      full := hfull }

/-- The end of a terminal node; an item stage counts the node itself only next to
other items. -/
theorem complete (h : Sound n ids t) {e : PublicEvent}
    (hitem : s.countsItems = false → e.item? = none)
    (hids : ∀ id, e.item? = some id → id ∈ ids)
    (hnames : s.countsItems = true → e.item? = none → 1 < (t.stages s).totalUnits) :
    Sound n ids (t.complete s e) := by
  rw [Tally.complete]
  split
  · exact h.setStage (h.stage s).completeAll
  next hone =>
      have hunit : e.item?.getD "batch" ∈ unitNames ids s := by
        rw [unitNames]
        split
        next hcounts =>
            cases hid : e.item? with
            | none => exact absurd ⟨hid, hnames hcounts hid⟩ hone
            | some id => exact hids id hid
        next hcounts => simp [hitem (by simpa using hcounts)]
      have hadded : e.item?.getD "batch" ∈ (t.addUnit s (e.item?.getD "batch")).counted s := by
        simp only [Tally.addUnit, Function.update_self]
        split
        · assumption
        · simp
      refine (h.addUnit hunit).countUnits (s := s) fun hstatus => ?_
      have hplan : s.countsItems = false := by
        by_contra hcounts
        exact (h.stage s).unsettled (by simpa using hcounts) hstatus
      have htotal : ¬ 1 < (t.stages s).totalUnits := fun hlt => hone ⟨hitem hplan, hlt⟩
      have hlength := List.length_pos_of_mem hadded
      change (t.stages s).totalUnits ≤ _
      omega

theorem count (h : Sound n ids t) {topology : PipelineTopology} {e : PublicEvent}
    (hcounts : e.Counts topology s) (hids : ∀ id, e.item? = some id → id ∈ ids)
    (hnames : 1 < n ∨ (s.countsItems = true → e.lifecycle = .completed →
      PipelineTopology.Terminal s e.node → e.item? ≠ none)) :
    Sound n ids (t.count s e) := by
  cases hcounts with
  | node hnode hlife hitem =>
      obtain hlife | hlife := hlife
      · simp only [Tally.count, hlife]
        exact ((h.begin (nodeStage_ne hnode).1 ..).setStage (h.stage s).run).setItem ..
      · simp only [Tally.count, hlife]
        split
        next hterminal =>
            refine ((h.finish _).complete hitem hids fun hitems hnone => ?_).setItem ..
            have htotal := (h.stage s).fixed (by cases s <;> first | rfl | cases hitems)
            obtain hn | hnames := hnames
            · change 1 < (t.stages s).totalUnits
              simpa [htotal, hitems] using hn
            · exact absurd hnone (hnames hitems hlife hterminal)
        · exact h.finish _
  | report completed total hreports hlife hcompleted htotal hnonneg hle hpos =>
      simp only [Tally.count, hlife, hcompleted, htotal]
      refine h.setStage ((h.stage s).report hreports hnonneg hle hpos _ fun hstatus => ?_)
      by_contra hlt
      simp [hlt] at hstatus

theorem note (h : Sound n ids t) {topology : PipelineTopology} {e : PublicEvent}
    (hemitted : e.Emitted topology) (hids : ∀ id, e.item? = some id → id ∈ ids)
    (hnames : 1 < n ∨ e.NamesItem topology) : Sound n ids (t.note topology e) := by
  rw [Tally.note]
  split
  next s hs =>
      refine Sound.count (h.setStage ((h.stage s).touch _)) (hemitted.counts hs) hids ?_
      exact hnames.imp_right fun hnames => hnames s hs
  · exact h

theorem notes (h : Sound n ids t) {topology : PipelineTopology} {events : List PublicEvent}
    (hemitted : ∀ e ∈ events, e.Emitted topology)
    (hids : ∀ e ∈ events, ∀ id, e.item? = some id → id ∈ ids)
    (hnames : 1 < n ∨ ∀ e ∈ events, e.NamesItem topology) :
    Sound n ids (t.notes topology events) := by
  induction events generalizing t with
  | nil => exact h
  | cons e rest ih =>
      refine ih (h.note (hemitted e (.head _)) (hids e (.head _)) ?_)
        (fun e' he' => hemitted e' (.tail _ he')) (fun e' he' => hids e' (.tail _ he')) ?_
      · exact hnames.imp_right fun hnames => hnames e (.head _)
      · exact hnames.imp_right fun hnames e' he' => hnames e' (.tail _ he')

end Sound

namespace ProgressStage

/-- The completed and the failed units of a stage are among its units. -/
structure Bounded (stage : ProgressStage) : Prop where
  nonneg : 0 ≤ stage.completedUnits
  le : stage.completedUnits ≤ stage.totalUnits
  failed_le : (stage.failedUnits : Int) ≤ stage.totalUnits

/-- No unit of the stage is left. -/
def Exhausted (stage : ProgressStage) : Prop :=
  stage.totalUnits ≤ stage.completedUnits + stage.failedUnits ∧ stage.activeUnits = 0

end ProgressStage

/-- What settling leaves of the stages of a run. -/
structure Settled (stages : StageId → ProgressStage) : Prop where
  bounded (s : StageId) : (stages s).Bounded
  exhausted (s : StageId) : (stages s).status = .completed → (stages s).Exhausted
  pos (s : StageId) : s.countsItems = false → 1 ≤ (stages s).totalUnits
  fixed (s : StageId) : s.countsItems = false → s.reportsUnits = false →
    (stages s).totalUnits = 1
  idle : (stages .setup).activeUnits = 0

/-- Another status and other completed units keep the stages settled. -/
theorem Settled.update {stages : StageId → ProgressStage} (h : Settled stages) (s : StageId)
    (status : StageStatus) {completed : Int} (hnonneg : 0 ≤ completed)
    (hle : completed ≤ (stages s).totalUnits)
    (hexhausted : status = .completed →
      (stages s).totalUnits ≤ completed + (stages s).failedUnits ∧ (stages s).activeUnits = 0) :
    Settled (Function.update stages s
      { stages s with status := status, completedUnits := completed }) := by
  have hsame (s' : StageId) (hs : s' ≠ s) := Function.update_of_ne hs
    { stages s with status := status, completedUnits := completed } stages
  refine ⟨fun s' => ?_, fun s' => ?_, fun s' => ?_, fun s' => ?_, ?_⟩
  · by_cases hs : s' = s
    · subst hs
      simp only [Function.update_self]
      exact ⟨hnonneg, hle, (h.bounded s').failed_le⟩
    · rw [hsame s' hs]
      exact h.bounded s'
  · by_cases hs : s' = s
    · subst hs
      simp only [Function.update_self]
      exact hexhausted
    · rw [hsame s' hs]
      exact h.exhausted s'
  · by_cases hs : s' = s
    · subst hs
      simpa using h.pos s'
    · rw [hsame s' hs]
      exact h.pos s'
  · by_cases hs : s' = s
    · subst hs
      simpa using h.fixed s'
    · rw [hsame s' hs]
      exact h.fixed s'
  · by_cases hs : .setup = s
    · subst hs
      simpa using h.idle
    · rw [hsame _ hs]
      exact h.idle

namespace Tally
variable (t : Tally) (s : StageId)

@[simp] theorem settle_completedUnits :
    (t.settle s).completedUnits = (t.stages s).completedUnits := by
  simp only [settle]
  split_ifs <;> rfl

@[simp] theorem settle_totalUnits : (t.settle s).totalUnits = (t.stages s).totalUnits := by
  simp only [settle]
  split_ifs <;> rfl

@[simp] theorem settle_failedUnits : (t.settle s).failedUnits = (t.stages s).failedUnits := by
  simp only [settle]
  split_ifs <;> rfl

@[simp] theorem settle_activeUnits : (t.settle s).activeUnits = t.activeUnits s := by
  simp only [settle]
  split_ifs <;> rfl

variable {t s}

/-- A settled stage that is complete has nothing active, and had all its units or
was complete before. -/
theorem settle_completed (h : (t.settle s).status = .completed) :
    t.activeUnits s = 0 ∧ ((t.stages s).status = .completed ∨
      ((t.stages s).completedUnits ≠ 0 ∧ ((t.stages s).totalUnits = 0 ∨
        (t.stages s).totalUnits = 1 ∨ (t.stages s).totalUnits ≤ (t.stages s).completedUnits))) := by
  simp only [settle] at h
  split_ifs at h with hfailed hactive hall
  · simp [hfailed] at h
  · exact ⟨not_not.mp hactive, .inr hall⟩
  · exact ⟨not_not.mp hactive, .inl h⟩

end Tally

namespace Sound
variable {n : Int} {ids : List String} {t : Tally}

theorem activeUnits_setup (h : Sound n ids t) : t.activeUnits .setup = 0 := by
  have hnone : t.operations.filter (·.2.1 = .setup) = [] :=
    List.filter_eq_nil_iff.mpr fun op hop => by simpa using h.operation op hop
  simp [Tally.activeUnits, hnone]

theorem settled (h : Sound n ids t) : Settled t.settle where
  bounded s :=
    { nonneg := by simpa using (h.stage s).nonneg
      le := by simpa using (h.stage s).le
      failed_le := by simpa [(h.stage s).failedUnits] using (h.stage s).totalUnits_nonneg }
  exhausted s hstatus := by
    obtain ⟨hactive, hall⟩ := Tally.settle_completed hstatus
    have hsound := h.stage s
    have hnonneg := hsound.nonneg
    have hle : (t.stages s).totalUnits ≤ (t.stages s).completedUnits := by
      obtain hcompleted | ⟨hne, htotal⟩ := hall
      · exact hsound.full hcompleted
      · omega
    refine ⟨?_, by simpa using hactive⟩
    simpa [hsound.failedUnits] using hle
  pos s hplan := by
    have := (h.stage s).unitNames_le
    simpa [unitNames, hplan] using this
  fixed s hplan hreports := by
    have := (h.stage s).fixed hreports
    simpa [hplan] using this
  idle := by simpa using h.activeUnits_setup

end Sound

/-- The events of a run, which name no more items than its batch has. -/
structure RunEvents (topology : PipelineTopology) (events : List PublicEvent)
    (batchSize : Option Int) : Prop where
  emitted : ∀ e ∈ events, e.Emitted topology
  batch_le : ((eventItems events).length : Int) ≤ batchSize.getD 0

theorem eventItems_length_le {topology : PipelineTopology} {events : List PublicEvent}
    {batchSize : Option Int} (h : RunEvents topology events batchSize) (items : List FinalItem) :
    ((eventItems events).length : Int) ≤ totalItems events items batchSize := by
  have hbatch := h.batch_le
  rw [totalItems]
  split_ifs
  · have hstart : 0 ≤ ((events.find? (·.type = .runStart)).map (·.batch)).getD 0 := by
      cases hfind : events.find? (·.type = .runStart) with
      | none => simp
      | some e =>
          have he := h.emitted e (List.mem_of_find?_eq_some hfind)
          have htype : e.type = .runStart := by simpa using List.find?_some hfind
          simpa [PublicEvent.Emitted, htype] using he
    omega
  · omega
  · omega

/-- A single item is counted by its own events alone. -/
def CountedByItem (topology : PipelineTopology) (events : List PublicEvent)
    (items : List FinalItem) (batchSize : Option Int) : Prop :=
  1 < totalItems events items batchSize ∨ ∀ e ∈ events, e.NamesItem topology

theorem tally_sound {topology : PipelineTopology} {events : List PublicEvent}
    {items : List FinalItem} {batchSize : Option Int} (h : RunEvents topology events batchSize)
    (hcounted : CountedByItem topology events items batchSize) :
    Sound (totalItems events items batchSize) (eventItems events)
      (tally topology events items batchSize) := by
  refine (Sound.start (eventItems_length_le h items)).notes h.emitted ?_ hcounted
  intro e he id hid
  exact List.mem_dedup.mpr (List.mem_filterMap.mpr ⟨e, he, hid⟩)

theorem settledStages_settled {topology : PipelineTopology} {events : List PublicEvent}
    {items : List FinalItem} {batchSize : Option Int} (h : RunEvents topology events batchSize)
    (hcounted : CountedByItem topology events items batchSize) (phase : Option RunPhase) :
    Settled (settledStages topology events phase items batchSize) := by
  have hsettled := (tally_sound h hcounted).settled
  simp only [settledStages]
  split
  · have hone := hsettled.fixed .setup rfl rfl
    exact hsettled.update .setup .completed Int.one_nonneg hone.ge fun _ =>
      ⟨by omega, hsettled.idle⟩
  · exact hsettled

namespace Settled
variable {stages : StageId → ProgressStage}

theorem wait (h : Settled stages) (s : StageId) :
    Settled (Function.update stages s { stages s with status := .waiting }) :=
  h.update s .waiting (h.bounded s).nonneg (h.bounded s).le fun hstatus => by cases hstatus

theorem abort (h : Settled stages) : Settled fun s => (stages s).abort := by
  have hcounters (s : StageId) : (stages s).abort = stages s ∨
      (stages s).abort = { stages s with status := .failed, activeUnits := 0 } := by
    rw [ProgressStage.abort]
    split
    · exact .inr rfl
    · exact .inl rfl
  refine ⟨fun s => ?_, fun s => ?_, fun s => ?_, fun s => ?_, ?_⟩
  · obtain hs | hs := hcounters s <;> rw [hs]
    · exact h.bounded s
    · exact { h.bounded s with }
  · obtain hs | hs := hcounters s <;> rw [hs]
    · exact h.exhausted s
    · exact fun hstatus => by cases hstatus
  · obtain hs | hs := hcounters s <;> rw [hs] <;> exact h.pos s
  · obtain hs | hs := hcounters s <;> rw [hs] <;> exact h.fixed s
  · obtain hs | hs := hcounters .setup <;> rw [hs]
    exact h.idle

theorem bounded_all (h : Settled stages) (s : StageId) : (stages s).all.Bounded := by
  have hbounded := h.bounded s
  rw [ProgressStage.all]
  split
  · exact { hbounded with }
  · exact
      { hbounded with
        nonneg := hbounded.nonneg.trans hbounded.le
        le := le_refl (stages s).totalUnits }

theorem exhausted_all (h : Settled stages) (s : StageId) : (stages s).all.Exhausted := by
  have hbounded := h.bounded s
  refine ⟨?_, rfl⟩
  simp only [ProgressStage.all]
  split
  next hzero =>
      have := hbounded.nonneg
      omega
  · omega

theorem bounded_one (h : Settled stages) {s : StageId} (hs : s.countsItems = false) :
    (stages s).one.Bounded :=
  { h.bounded s with
    nonneg := Int.one_nonneg
    le := h.pos s hs }

theorem exhausted_one (h : Settled stages) {s : StageId} (hs : s.countsItems = false)
    (hreports : s.reportsUnits = false) : (stages s).one.Exhausted := by
  refine ⟨?_, rfl⟩
  have := h.fixed s hs hreports
  simp only [ProgressStage.one]
  omega

end Settled

namespace FinalItem

/-- What failed before the clips were checked was not dropped by the check. -/
def DroppedByCheck (items : List FinalItem) : Prop :=
  ∀ item ∈ items, item.dropped = true →
    item.failureStage ≠ some "talking_head" ∧ item.failureStage ≠ some "product_demo"

variable {items : List FinalItem}

theorem length_talkingFailed_add (items : List FinalItem) :
    (talkingFailed items).length + (productCandidates items).length = items.length := by
  have hsplit : productCandidates items =
      items.filter fun item => ¬ item.failureStage = some "talking_head" := by
    refine List.filter_congr fun item hitem => ?_
    simp [talkingFailed, hitem]
  rw [hsplit, talkingFailed]
  simpa using (List.length_eq_length_filter_add (l := items)
    fun item => decide (item.failureStage = some "talking_head")).symm

theorem length_productFailed_add (items : List FinalItem) :
    (productFailed items).length + (qcCandidates items).length =
      (productCandidates items).length := by
  have hsplit : qcCandidates items = (productCandidates items).filter fun item =>
      ¬ item.failureStage = some "product_demo" := by
    rw [qcCandidates, productCandidates, List.filter_filter]
    refine List.filter_congr fun item hitem => ?_
    simp only [productFailed, productCandidates, talkingFailed, List.mem_append, List.mem_filter,
      hitem, true_and]
    grind
  rw [hsplit, productFailed]
  simpa using (List.length_eq_length_filter_add (l := productCandidates items)
    fun item => decide (item.failureStage = some "product_demo")).symm

theorem length_dropped_le (h : DroppedByCheck items) :
    (items.filter (·.dropped)).length ≤ (qcCandidates items).length := by
  rw [qcCandidates, ← List.countP_eq_length_filter, ← List.countP_eq_length_filter]
  refine List.countP_mono_left fun item hitem hdropped => ?_
  obtain ⟨htalking, hproduct⟩ := h item hitem hdropped
  simp [talkingFailed, productFailed, productCandidates, htalking, hproduct]

/-- The work of the item came to an end. -/
def Ended (item : FinalItem) : Prop :=
  item.assembled = true ∨ item.dropped = true ∨ item.error = true

theorem ended_eq_self (h : ∀ item ∈ items, item.Ended) : ended items = items :=
  List.filter_eq_self.mpr fun item hitem => by simpa [Ended, or_assoc] using h item hitem

end FinalItem

theorem ProgressStage.finish_bounded (stage : ProgressStage) {total completed failed : Nat}
    (hcompleted : completed ≤ total) (hfailed : failed ≤ total) (status : StageStatus) :
    (stage.finish total completed failed status).Bounded where
  nonneg := Int.natCast_nonneg _
  le := Int.ofNat_le.mpr hcompleted
  failed_le := Int.ofNat_le.mpr hfailed

theorem ProgressStage.finish_exhausted (stage : ProgressStage) {total completed failed : Nat}
    (hall : total ≤ completed + failed) (status : StageStatus) :
    (stage.finish total completed failed status).Exhausted := by
  refine ⟨?_, rfl⟩
  simp only [ProgressStage.finish]
  omega

/-- In a run that is done with items the stage counts all it had: it reported no
units of its own, and for the production every item ended. -/
def StageId.CountedAtEnd (items : List FinalItem) (s : StageId) : Prop :=
  s.reportsUnits = false ∧ (s = .production → ∀ item ∈ items, item.Ended)

namespace Settled
variable {stages : StageId → ProgressStage} {items : List FinalItem}

theorem finish_bounded (h : Settled stages) (hdropped : FinalItem.DroppedByCheck items)
    (s : StageId) : (finishStages items stages s).Bounded := by
  have htalking := FinalItem.length_talkingFailed_add items
  have hproduct := FinalItem.length_productFailed_add items
  cases s with
  | setup | creativePlan | concepts | scripts | creatorProfiles | creatorPreviews | review =>
      exact h.bounded_one rfl
  | talkingHead => exact ProgressStage.finish_bounded _ (Nat.sub_le ..) (by omega) _
  | productDemo => exact ProgressStage.finish_bounded _ (Nat.sub_le ..) (by omega) _
  | qc => exact ProgressStage.finish_bounded _ le_rfl (FinalItem.length_dropped_le hdropped) _
  | assembly =>
      exact ProgressStage.finish_bounded _ (List.length_filter_le ..) (List.length_filter_le ..) _
  | production =>
      exact ProgressStage.finish_bounded _ (List.length_filter_le ..) (List.length_filter_le ..) _

theorem finish_exhausted (h : Settled stages) {s : StageId} (hcounted : s.CountedAtEnd items)
    (hstatus : childrenOf s = [] → (finishStages items stages s).status = .completed) :
    (finishStages items stages s).Exhausted := by
  have htalking := FinalItem.length_talkingFailed_add items
  have hproduct := FinalItem.length_productFailed_add items
  cases s with
  | setup | creativePlan | concepts | creatorProfiles | review => exact h.exhausted_one rfl rfl
  | scripts | creatorPreviews => cases hcounted.1
  | talkingHead => exact ProgressStage.finish_exhausted _ (by omega) _
  | productDemo => exact ProgressStage.finish_exhausted _ (by omega) _
  | qc => exact ProgressStage.finish_exhausted _ (Nat.le_add_right ..) _
  | assembly =>
      refine ProgressStage.finish_exhausted _ ?_ _
      have hcompleted := hstatus rfl
      by_contra hmore
      simp [finishStages, ProgressStage.finish, hmore] at hcompleted
  | production =>
      refine ProgressStage.finish_exhausted _ ?_ _
      rw [FinalItem.ended_eq_self (hcounted.2 rfl)]
      exact Nat.le_add_right ..

end Settled

theorem deriveParents_bounded {stages : StageId → ProgressStage} {s : StageId}
    (h : (stages s).Bounded) : (deriveParents stages s).Bounded := by
  rw [deriveParents]
  split
  · exact h
  · exact { h with }

theorem deriveParents_exhausted {stages : StageId → ProgressStage} {s : StageId}
    (h : (stages s).Exhausted) : (deriveParents stages s).Exhausted := by
  rw [deriveParents]
  split
  · exact h
  · exact h

theorem childrenOf_child {s child : StageId} (h : child ∈ childrenOf s) :
    childrenOf child = [] := by
  cases s <;> cases child <;> first | rfl | cases (by simpa [childrenOf, StageId.all] using h)

theorem deriveParents_of_leaf {stages : StageId → ProgressStage} {s : StageId}
    (h : childrenOf s = []) : deriveParents stages s = stages s := if_pos h

/-- A parent has the status that its children give it. -/
theorem deriveParents_status (stages : StageId → ProgressStage) {s : StageId}
    (h : childrenOf s ≠ []) :
    (deriveParents stages s).status =
      parentStatus ((childrenOf s).map fun child => (deriveParents stages child).status)
        (stages s).status := by
  have hchildren : (childrenOf s).map (fun child => (deriveParents stages child).status) =
      (childrenOf s).map fun child => (stages child).status :=
    List.map_congr_left fun child hchild => by
      rw [deriveParents_of_leaf (childrenOf_child hchild)]
  rw [hchildren, deriveParents, if_neg h]

/-- A snapshot is well formed for the stages whose counters go with their status. -/
structure RunProgress.WellFormed (progress : RunProgress) (phase : Option RunPhase)
    (items : List FinalItem) (counting : StageId → Prop) : Prop where
  bounded (s : StageId) : (progress.stages s).Bounded
  exhausted (s : StageId) : counting s → (progress.stages s).status = .completed →
    (progress.stages s).Exhausted
  funnel : phase = some .done → items ≠ [] →
    (progress.stages .productDemo).totalUnits = (progress.stages .talkingHead).completedUnits ∧
      (progress.stages .qc).totalUnits = (progress.stages .productDemo).completedUnits

/-- The stage's status goes with its own counters: a parent's does when the run is
done, and a run that is done with items counts these at the stage. -/
def StageId.CountsOwn (phase : Option RunPhase) (items : List FinalItem) (s : StageId) : Prop :=
  (childrenOf s = [] ∨ phase = some .done) ∧
    (phase = some .done → items ≠ [] → s.CountedAtEnd items)

theorem Settled.adjusted {stages : StageId → ProgressStage} (h : Settled stages)
    {phase : Option RunPhase} {items : List FinalItem} (hphase : phase ≠ some .done) :
    Settled (adjustStages phase items stages) := by
  rw [adjustStages.eq_def]
  split
  · exact h.wait .scripts
  · exact h.wait .creatorPreviews
  · exact h.wait .review
  · exact absurd rfl hphase
  · exact h.abort
  · exact h.abort
  · exact h
  · exact h

theorem Settled.adjusted_bounded {stages : StageId → ProgressStage} (h : Settled stages)
    {phase : Option RunPhase} {items : List FinalItem}
    (hdropped : FinalItem.DroppedByCheck items) (s : StageId) :
    (adjustStages phase items stages s).Bounded := by
  by_cases hphase : phase = some .done
  · subst hphase
    simp only [adjustStages]
    split
    · exact h.bounded_all s
    · exact h.finish_bounded hdropped s
  · exact (h.adjusted hphase).bounded s

theorem Settled.adjusted_exhausted {stages : StageId → ProgressStage} (h : Settled stages)
    {phase : Option RunPhase} {items : List FinalItem} {s : StageId}
    (hs : s.CountsOwn phase items)
    (hstatus : childrenOf s = [] → (adjustStages phase items stages s).status = .completed) :
    (adjustStages phase items stages s).Exhausted := by
  by_cases hphase : phase = some .done
  · subst hphase
    simp only [adjustStages] at hstatus ⊢
    split
    · exact h.exhausted_all s
    next hitems =>
        rw [if_neg hitems] at hstatus
        exact h.finish_exhausted (hs.2 rfl hitems) hstatus
  · exact (h.adjusted hphase).exhausted s (hstatus (hs.1.resolve_right hphase))

/-- No event of the translator counts at the production, whose status follows its
children: the one clip of a batch passed its checks and is still being assembled. -/
theorem production_completed_ahead :
    ¬ ∀ (topology : PipelineTopology) (events : List PublicEvent) (phase : Option RunPhase)
        (items : List FinalItem) (batchSize : Option Int),
      RunEvents topology events batchSize → (items.map (·.id)).Nodup →
        (buildProgress topology events phase items batchSize).WellFormed phase items
          fun _ => True := by
  intro h
  let topology : PipelineTopology := ⟨["ltx"], by decide, by decide⟩
  let passed (s : StageId) (node : String) : PublicEvent :=
    { type := .progressEvent, node := node, stageId := s.text, status := "completed",
      itemId := "clip", operationId := node }
  let events := [passed .talkingHead "ltx", passed .productDemo "product_demo", passed .qc "qc"]
  have hrun : RunEvents topology events (some 1) := by
    refine ⟨fun e he => ?_, by decide +kernel⟩
    obtain rfl | rfl | rfl : e = _ ∨ e = _ ∨ e = _ := by simpa [events] using he
    · exact Or.inl ⟨.talkingHead, rfl, rfl, .inr rfl, fun _ => .inl (by decide)⟩
    · exact Or.inl ⟨.productDemo, rfl, rfl, .inr rfl, fun _ => .inr (by decide)⟩
    · exact Or.inl ⟨.qc, rfl, rfl, .inr rfl, fun _ => .inr (by decide)⟩
  have hproduction := (h topology events (some .running) [] (some 1) hrun .nil).exhausted
    .production trivial (by decide +kernel)
  exact absurd hproduction.1 (by decide +kernel)

/-- Every snapshot of a run is well formed at the stages whose status goes with their
counters; a parent takes its status from its children. -/
theorem progress_well_formed (topology : PipelineTopology) (events : List PublicEvent)
    (phase : Option RunPhase) (items : List FinalItem) (batchSize : Option Int)
    (hrun : RunEvents topology events batchSize)
    (hcounted : CountedByItem topology events items batchSize)
    (hdropped : FinalItem.DroppedByCheck items) :
    (buildProgress topology events phase items batchSize).WellFormed phase items
        (StageId.CountsOwn phase items) ∧
      ∀ s, childrenOf s ≠ [] → ∃ own,
        ((buildProgress topology events phase items batchSize).stages s).status =
          parentStatus ((childrenOf s).map fun child =>
            ((buildProgress topology events phase items batchSize).stages child).status) own := by
  have hsettled : Settled (settledStages topology events phase items batchSize) :=
    settledStages_settled hrun hcounted phase
  refine ⟨⟨fun s => deriveParents_bounded ?_, fun s hs hstatus => ?_, ?_⟩,
    fun s hs => ⟨_, deriveParents_status _ hs⟩⟩
  · exact hsettled.adjusted_bounded hdropped s
  · refine deriveParents_exhausted (hsettled.adjusted_exhausted hs fun hleaf => ?_)
    simpa [buildProgress, deriveParents_of_leaf hleaf] using hstatus
  · intro hphase hitems
    have htalking := FinalItem.length_talkingFailed_add items
    have hproduct := FinalItem.length_productFailed_add items
    have hadjusted : adjustStages phase items
        (settledStages topology events phase items batchSize) =
          finishStages items (settledStages topology events phase items batchSize) := by
      subst hphase
      exact if_neg hitems
    have hleaf (s : StageId) (hs : childrenOf s = []) :
        (buildProgress topology events phase items batchSize).stages s =
          finishStages items (settledStages topology events phase items batchSize) s := by
      rw [← hadjusted]
      exact deriveParents_of_leaf hs
    rw [hleaf .talkingHead rfl, hleaf .productDemo rfl, hleaf .qc rfl]
    simp only [finishStages, ProgressStage.finish]
    omega

/-- Two clips, one of which has no talking head in the end. -/
theorem progress_well_formed_two_clips :
    (buildProgress ⟨["ltx"], by decide, by decide⟩
      [{ type := .runStart, batch := 2 },
        { type := .progressEvent, node := "scripts", stageId := "scripts", status := "progress",
          completedUnits := some 1, totalUnits := some 2 },
        { type := .progressEvent, node := "ltx", stageId := "talking_head",
          status := "completed", itemId := "a", operationId := "call" },
        { type := .nodeEnd, node := "process_item" }]
      (some .done)
      [{ id := "a", assembled := true },
        { id := "b", error := true, failureStage := some "talking_head" }]
      (some 2)).WellFormed (some .done)
        [{ id := "a", assembled := true },
          { id := "b", error := true, failureStage := some "talking_head" }]
        (StageId.CountsOwn (some .done)
          [{ id := "a", assembled := true },
            { id := "b", error := true, failureStage := some "talking_head" }]) := by
  refine (progress_well_formed _ _ _ _ _ ⟨fun e he => ?_, by decide +kernel⟩
    (.inl (by decide +kernel)) fun item hitem hdropped => ?_).1
  · obtain rfl | rfl | rfl | rfl : e = _ ∨ e = _ ∨ e = _ ∨ e = _ := by simpa using he
    · exact (by decide : (0 : Int) ≤ 2)
    · exact Or.inr ⟨.scripts, 1, 2, rfl, rfl, rfl, rfl, rfl, rfl, by decide, by decide, by decide⟩
    · exact Or.inl ⟨.talkingHead, rfl, rfl, .inr rfl, fun _ => .inl (by decide)⟩
    · exact ⟨rfl, rfl⟩
  · obtain rfl | rfl : item = _ ∨ item = _ := by simpa using hitem
    · cases hdropped
    · cases hdropped

end Orchestrator
