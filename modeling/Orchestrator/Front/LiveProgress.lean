import Mathlib.Data.Finset.Card
import Orchestrator.Front.RunStream
import Orchestrator.Progress.WellFormed

/-!
The counters of the page beside those of the server.

The server counts the distinct units of the operations that are active and the
distinct units that a stage has counted, and derives the status of the parents.
The page only adds and subtracts one at the stage of an event. The two agree as
long as every event adds one unit, ends one or counts one, and leaves the parents
as they are.
-/

namespace Orchestrator

/-- The fields of a stage that both sides show. -/
structure ProgressStage.Agrees (a b : ProgressStage) : Prop where
  status : a.status = b.status
  completedUnits : a.completedUnits = b.completedUnits
  totalUnits : a.totalUnits = b.totalUnits
  activeUnits : a.activeUnits = b.activeUnits

namespace Tally
variable (t : Tally)

/-- The unit that an active operation works for. -/
def unitOf (op : String × (StageId × Option String)) : String := op.2.2.getD op.1

/-- The settled stages of a run that is running. -/
def settledRun : StageId → ProgressStage :=
  Function.update t.settle .setup
    { t.settle .setup with status := .completed, completedUnits := 1 }

/-- The stages that the snapshot of a running run shows. -/
def shownRun : StageId → ProgressStage := deriveParents t.settledRun

/-- The start of an operation that is not active, for a unit that is not active at
the stage. -/
structure Starts (s : StageId) (e : PublicEvent) : Prop where
  operation : ∀ op ∈ t.operations, op.1 ≠ e.operation
  unit : ∀ op ∈ t.operations, op.2.1 = s → unitOf op ≠ e.item?.getD e.operation

/-- The end of an operation that is active at the stage, alone for its unit. -/
def Ends (s : StageId) (e : PublicEvent) : Prop :=
  ∃ op ∈ t.operations, op.1 = e.operation ∧ op.2.1 = s ∧
    ∀ other ∈ t.operations, other.2.1 = s → unitOf other = unitOf op → other = op

/-- The end counts an item for the first time, or brings a stage without items to
its last unit. -/
def CountsOne (s : StageId) (e : PublicEvent) : Prop :=
  match e.item? with
  | some unit => unit ∉ t.counted s
  | none => s.countsItems = false ∧ (t.stages s).totalUnits ≤ (t.stages s).completedUnits + 1

/-- Work is left at the stage after the end of one unit. -/
def WorkLeft (s : StageId) : Prop :=
  1 < t.activeUnits s ∨ (t.stages s).completedUnits + 1 < (t.stages s).totalUnits

/-- The counter of the stage has reached its total. -/
def Full (s : StageId) : Prop :=
  (t.stages s).completedUnits ≠ 0 ∧ ((t.stages s).totalUnits = 0 ∨ (t.stages s).totalUnits = 1 ∨
    (t.stages s).totalUnits ≤ (t.stages s).completedUnits)

/-- A unit of the stage is active, or the stage was begun and is not full. -/
def Runs (s : StageId) : Prop :=
  t.activeUnits s ≠ 0 ∨ ¬ t.Full s ∧ (t.stages s).status = .running

/-- No unit of the stage is active, and it is full or was reported full. -/
def Finished (s : StageId) : Prop :=
  t.activeUnits s = 0 ∧ (t.Full s ∨ (t.stages s).status = .completed)

instance (s : StageId) : Decidable (t.Full s) := inferInstanceAs (Decidable (_ ∧ _))

instance (s : StageId) : Decidable (t.Runs s) := inferInstanceAs (Decidable (_ ∨ _))

instance (s : StageId) : Decidable (t.Finished s) := inferInstanceAs (Decidable (_ ∧ _))

/-- A stage of the parent runs, or the parent itself, with some stage left to finish. -/
def ParentRuns (s : StageId) : Prop :=
  ∀ p, s.parent = some p →
    (∃ child ∈ childrenOf p, t.Runs child) ∨
      (∃ child ∈ childrenOf p, ¬ t.Finished child) ∧ t.Runs p

/-- The end of the stage leaves the parent as it is: another stage of the parent runs, or
what is left to the parent is what it is already. -/
def ParentKeeps (s : StageId) : Prop :=
  ∀ p, s.parent = some p →
    (∃ child ∈ childrenOf p, child ≠ s ∧ t.Runs child) ∨
      if ∀ child ∈ childrenOf p, child ≠ s → t.Finished child then
        t.Finished s ∨ ¬ t.Runs s ∧ t.Finished p
      else t.Runs s → t.Runs p

/-- The statuses of the stages of the production. -/
def productionStages : List StageStatus :=
  (childrenOf .production).map fun child => (t.settledRun child).status

/-- The event moves the counters of both sides alike. -/
def InStep (s : StageId) (e : PublicEvent) : Prop :=
  match e.lifecycle with
  | .started =>
      t.Starts s e ∧ t.ParentRuns s ∧
        (s = .production → ∃ child ∈ childrenOf .production, ¬ t.Finished child)
  | .completed =>
      PipelineTopology.Terminal s e.node ∧ t.Ends s e ∧ t.CountsOne s e ∧
        (t.WorkLeft s ∨ t.ParentKeeps s) ∧
        (s = .production →
          ((∃ child ∈ childrenOf .production, t.Runs child) → t.WorkLeft .production) ∧
          ((∀ child ∈ childrenOf .production, t.Finished child) →
            t.activeUnits .production = 1))
  | .progress =>
      if e.totalUnits.getD 0 ≤ e.completedUnits.getD 0 then t.activeUnits s = 0 ∧ t.ParentKeeps s
      else t.activeUnits s = 1 ∧ t.ParentRuns s
  | _ => False

end Tally

theorem buildProgress_running (topology : PipelineTopology) (events : List PublicEvent)
    (items : List FinalItem) (batchSize : Option Int) :
    (buildProgress topology events (some .running) items batchSize).stages =
      (tally topology events items batchSize).shownRun := by
  simp [buildProgress, adjustStages, settledStages, Tally.shownRun, Tally.settledRun]

namespace Tally
variable {t : Tally} {s : StageId} {e : PublicEvent}

theorem activeUnits_eq_card (t : Tally) (s : StageId) :
    t.activeUnits s = ((t.operations.filter (·.2.1 = s)).map unitOf).toFinset.card := by
  rw [List.card_toFinset]
  rfl

theorem Starts.activeUnits (h : t.Starts s e) (s' : StageId) :
    Tally.activeUnits
        { t with operations := Entries.set t.operations e.operation (s, e.item?) } s' =
      t.activeUnits s' + if s' = s then 1 else 0 := by
  rw [activeUnits_eq_card, activeUnits_eq_card]
  simp only [Entries.set_of_new h.operation, List.filter_append, List.map_append]
  by_cases hs : s' = s
  · subst hs
    have hnew : e.item?.getD e.operation ∉
        ((t.operations.filter (·.2.1 = s')).map unitOf).toFinset := by
      intro hmem
      obtain ⟨op, hop, hunit⟩ := List.mem_map.mp (List.mem_toFinset.mp hmem)
      obtain ⟨hop, hstage⟩ := List.mem_filter.mp hop
      exact h.unit op hop (by simpa using hstage) hunit
    have hunit : unitOf (e.operation, (s', e.item?)) = e.item?.getD e.operation := rfl
    simp [List.toFinset_append, hunit, Finset.union_comm _ {_}, Finset.card_insert_of_notMem hnew]
  · simp [hs, Ne.symm hs]

theorem Ends.activeUnits (h : t.Ends s e) (hkeys : (t.operations.map Prod.fst).Nodup)
    (s' : StageId) :
    Tally.activeUnits { t with operations := Entries.pop t.operations e.operation } s' +
      (if s' = s then 1 else 0) = t.activeUnits s' := by
  obtain ⟨op, hop, hkey, hstage, halone⟩ := h
  have hsame (other) (hother : other ∈ t.operations) (heq : other.1 = e.operation) :
      other = op := List.inj_on_of_nodup_map hkeys hother hop (heq.trans hkey.symm)
  rw [activeUnits_eq_card, activeUnits_eq_card]
  by_cases hs : s' = s
  · subst hs
    have hmem : unitOf op ∈ ((t.operations.filter (·.2.1 = s')).map unitOf).toFinset :=
      List.mem_toFinset.mpr (List.mem_map_of_mem (List.mem_filter.mpr ⟨hop, by simpa using hstage⟩))
    have herase : (((Entries.pop t.operations e.operation).filter (·.2.1 = s')).map
        unitOf).toFinset =
        ((t.operations.filter (·.2.1 = s')).map unitOf).toFinset.erase (unitOf op) := by
      ext unit
      simp only [List.mem_toFinset, List.mem_map, List.mem_filter, Entries.pop, Finset.mem_erase]
      grind
    rw [herase, if_pos rfl, Finset.card_erase_add_one hmem]
  · have hrest : (Entries.pop t.operations e.operation).filter (·.2.1 = s') =
        t.operations.filter (·.2.1 = s') := by
      rw [Entries.pop, List.filter_filter]
      refine List.filter_congr fun other hother => ?_
      grind
    simp [hrest, hs]

variable {topology : PipelineTopology}

theorem complete_operations (t : Tally) (s : StageId) (e : PublicEvent) :
    (t.complete s e).operations = t.operations := by
  rw [complete]
  split <;> rfl

theorem complete_frame {s' : StageId} (h : s' ≠ s) :
    (t.complete s e).stages s' = t.stages s' ∧ (t.complete s e).counted s' = t.counted s' := by
  rw [complete]
  split
  · exact ⟨setStage_stages_of_ne _ h _, rfl⟩
  · exact ⟨setStage_stages_of_ne _ h _, Function.update_of_ne h ..⟩

/-- An event leaves the other stages alone. -/
theorem note_frame (hs : e.stage? topology = some s) {s' : StageId} (h : s' ≠ s) :
    (t.note topology e).stages s' = t.stages s' ∧
      (t.note topology e).counted s' = t.counted s' := by
  simp only [note, hs, count]
  split
  · split <;> simp [setStage_stages_of_ne _ h]
  · simp [setStage_stages_of_ne _ h]
  · simp [setStage_stages_of_ne _ h]
  · simp [setStage_stages_of_ne _ h]
  · split
    · simp [complete_frame h, setStage_stages_of_ne _ h]
    · simp [setStage_stages_of_ne _ h]
  · simp [setStage_stages_of_ne _ h]

theorem note_started (hs : e.stage? topology = some s) (hlife : e.lifecycle = .started) :
    (t.note topology e).operations = Entries.set t.operations e.operation (s, e.item?) ∧
      (t.note topology e).counted = t.counted ∧
      (t.note topology e).stages s =
        { t.stages s with
          status := .running
          updatedAt := e.occurredAt.or (t.stages s).updatedAt } := by
  simp [note, hs, count, hlife]

theorem note_report (hs : e.stage? topology = some s) (hlife : e.lifecycle = .progress)
    {completed total : Int} (hcompleted : e.completedUnits = some completed)
    (htotal : e.totalUnits = some total) :
    (t.note topology e).operations = t.operations ∧ (t.note topology e).counted = t.counted ∧
      (t.note topology e).stages s =
        { t.stages s with
          status := if total ≤ completed then .completed else .running
          completedUnits := completed
          totalUnits := total
          updatedAt := e.occurredAt.or (t.stages s).updatedAt } := by
  simp [note, hs, count, hlife, hcompleted, htotal]

/-- The stage after the end of a terminal node. -/
theorem note_completed (hs : e.stage? topology = some s) (hlife : e.lifecycle = .completed)
    (hterminal : PipelineTopology.Terminal s e.node) :
    (t.note topology e).operations = Entries.pop t.operations e.operation ∧
      ∃ completed, (t.note topology e).stages s =
          { t.stages s with
            completedUnits := completed
            updatedAt := e.occurredAt.or (t.stages s).updatedAt } ∧
        ((e.item? = none ∧ 1 < (t.stages s).totalUnits ∧ completed = (t.stages s).totalUnits) ∨
          (¬ (e.item? = none ∧ 1 < (t.stages s).totalUnits) ∧
            completed = ((t.note topology e).counted s).length ∧
            (t.note topology e).counted s = (t.addUnit s (e.item?.getD "batch")).counted s)) := by
  simp only [note, hs, count, hlife, if_pos hterminal, setItem_operations, setItem_stages,
    setItem_counted, complete_operations]
  refine ⟨rfl, ?_⟩
  rw [complete]
  split
  next hall =>
      have hall : e.item? = none ∧ 1 < (t.stages s).totalUnits := by simpa using hall
      exact ⟨(t.stages s).totalUnits, by simp, .inl ⟨hall.1, hall.2, rfl⟩⟩
  next hone =>
      have hone : ¬ (e.item? = none ∧ 1 < (t.stages s).totalUnits) := by simpa using hone
      exact ⟨((t.addUnit s (e.item?.getD "batch")).counted s).length,
        by rw [setStage_stages_self, setStage_stages_self]; rfl, .inr ⟨hone, rfl, rfl⟩⟩

end Tally

namespace PublicEvent
variable {topology : PipelineTopology} {e : PublicEvent}

/-- A progress event belongs to the stage that it names, and its status says what
became of the operation. -/
theorem Emitted.named (h : e.Emitted topology) (htype : e.type = .progressEvent) :
    ∃ s, e.stage? topology = some s ∧ e.stageId = s.text ∧
      ((e.lifecycle = .started ∧ e.status = "started") ∨
        (e.lifecycle = .completed ∧ e.status = "completed") ∨
        (e.lifecycle = .progress ∧ e.status = "progress")) := by
  have hstage (s : StageId) (hs : e.stageId = s.text) : e.stage? topology = some s := by
    have hne : s.text ≠ "" := by cases s <;> decide
    simp [stage?, htype, hs, hne, StageId.ofText?_text]
  rw [Emitted] at h
  simp only [htype] at h
  obtain ⟨s, -, hs, hstatus | hstatus, -⟩ | ⟨s, -, -, -, hs, -, hstatus, -⟩ := h
  · exact ⟨s, hstage s hs, hs, .inl ⟨by rw [lifecycle, htype, hstatus]; rfl, hstatus⟩⟩
  · exact ⟨s, hstage s hs, hs, .inr (.inl ⟨by rw [lifecycle, htype, hstatus]; rfl, hstatus⟩)⟩
  · exact ⟨s, hstage s hs, hs, .inr (.inr ⟨by rw [lifecycle, htype, hstatus]; rfl, hstatus⟩)⟩

end PublicEvent

/-- What the loop keeps over events that move both sides alike. -/
structure Mirrored (t : Tally) : Prop where
  calm (s : StageId) : (t.stages s).status ≠ .failed
  running (s : StageId) : t.activeUnits s ≠ 0 → (t.stages s).status = .running
  items (s : StageId) : s.countsItems = true →
    (t.stages s).completedUnits = (t.counted s).length
  keys : (t.operations.map Prod.fst).Nodup

namespace Mirrored
variable {t : Tally} {s : StageId} {e : PublicEvent} {topology : PipelineTopology}

theorem start (n : Int) : Mirrored (Tally.start n) where
  calm _ hfailed := by cases hfailed
  running _ hactive := absurd rfl hactive
  items _ _ := rfl
  keys := List.nodup_nil

/-- The units that are active after an event that moves both sides alike. -/
theorem activeUnits_note (h : Mirrored t) (hs : e.stage? topology = some s)
    (hcounts : e.Counts topology s) (hstep : t.InStep s e) (s' : StageId) :
    (e.lifecycle = .started ∧
        (t.note topology e).activeUnits s' = t.activeUnits s' + if s' = s then 1 else 0) ∨
      (e.lifecycle = .completed ∧
        (t.note topology e).activeUnits s' + (if s' = s then 1 else 0) = t.activeUnits s') ∨
      (e.lifecycle = .progress ∧ (t.note topology e).activeUnits s' = t.activeUnits s') := by
  have hunits (t' : Tally) (ops) (hops : t'.operations = ops) :
      t'.activeUnits s' = Tally.activeUnits { t with operations := ops } s' := by
    simp [Tally.activeUnits, hops]
  cases hcounts with
  | node _ hlife _ =>
      obtain hlife | hlife := hlife
      · simp only [Tally.InStep, hlife] at hstep
        have hops := (Tally.note_started (t := t) hs hlife).1
        exact .inl ⟨hlife, by rw [hunits _ _ hops, hstep.1.activeUnits s']⟩
      · simp only [Tally.InStep, hlife] at hstep
        have hops := (Tally.note_completed (t := t) hs hlife hstep.1).1
        exact .inr (.inl ⟨hlife, by rw [hunits _ _ hops, hstep.2.1.activeUnits h.keys s']⟩)
  | report completed total _ hlife hcompleted htotal =>
      have hops := (Tally.note_report (t := t) hs hlife hcompleted htotal).1
      exact .inr (.inr ⟨hlife, by rw [hunits _ _ hops]⟩)

/-- An event leaves the units that are active elsewhere. -/
theorem activeUnits_frame (h : Mirrored t) (hs : e.stage? topology = some s)
    (hcounts : e.Counts topology s) (hstep : t.InStep s e) {s' : StageId} (hne : s' ≠ s) :
    (t.note topology e).activeUnits s' = t.activeUnits s' := by
  obtain ⟨-, hunits⟩ | ⟨-, hunits⟩ | ⟨-, hunits⟩ := h.activeUnits_note hs hcounts hstep s' <;>
    simpa [hne] using hunits

theorem note (h : Mirrored t) (hs : e.stage? topology = some s)
    (hcounts : e.Counts topology s) (hstep : t.InStep s e) : Mirrored (t.note topology e) := by
  have hframe (s' : StageId) (hne : s' ≠ s) :
      (t.note topology e).stages s' = t.stages s' := (Tally.note_frame hs hne).1
  have hitems (s' : StageId) (hne : s' ≠ s) :
      (t.note topology e).counted s' = t.counted s' := (Tally.note_frame hs hne).2
  have hactive := h.activeUnits_note hs hcounts hstep
  have hself : ((t.note topology e).stages s).status ≠ .failed ∧
      ((t.note topology e).activeUnits s ≠ 0 → ((t.note topology e).stages s).status = .running) ∧
      (s.countsItems = true →
        ((t.note topology e).stages s).completedUnits = ((t.note topology e).counted s).length) ∧
      ((t.note topology e).operations.map Prod.fst).Nodup := by
    cases hcounts with
    | node _ hlife hitem =>
        obtain hlife | hlife := hlife
        · obtain ⟨hops, hcounted, hstage⟩ := Tally.note_started (t := t) hs hlife
          simp only [Tally.InStep, hlife] at hstep
          refine ⟨by simp [hstage], fun _ => by simp [hstage], fun hc => ?_, ?_⟩
          · simpa [hstage, hcounted] using h.items s hc
          · rw [hops, Entries.set_of_new hstep.1.operation, List.map_append]
            refine h.keys.append (List.nodup_singleton _) (List.disjoint_singleton.mpr ?_)
            intro hmem
            obtain ⟨op, hop, hkey⟩ := List.mem_map.mp hmem
            exact hstep.1.operation op hop hkey
        · simp only [Tally.InStep, hlife] at hstep
          obtain ⟨hops, completed, hstage, hcompleted⟩ :=
            Tally.note_completed (t := t) hs hlife hstep.1
          have hunits : (t.note topology e).activeUnits s + 1 = t.activeUnits s := by
            simpa [hlife] using hactive s
          refine ⟨by simpa [hstage] using h.calm s, fun _ => ?_, fun hc => ?_, ?_⟩
          · simpa [hstage] using h.running s (by omega)
          · obtain ⟨hnone, -⟩ | ⟨-, hlength, -⟩ := hcompleted
            · have hcount := hstep.2.2.1
              simp [Tally.CountsOne, hnone, hc] at hcount
            · simpa [hstage] using hlength
          · rw [hops]
            exact h.keys.sublist (List.filter_sublist.map _)
    | report completed total hreports hlife hcompleted htotal =>
        obtain ⟨hops, hcounted, hstage⟩ :=
          Tally.note_report (t := t) hs hlife hcompleted htotal
        have hunits : (t.note topology e).activeUnits s = t.activeUnits s := by
          simpa [hlife] using hactive s
        have hplan : s.countsItems ≠ true := by cases s <;> simp_all [StageId.reportsUnits,
          StageId.countsItems]
        simp only [Tally.InStep, hlife, hcompleted, htotal, Option.getD_some] at hstep
        refine ⟨?_, fun hne => ?_, fun hc => absurd hc hplan, by rw [hops]; exact h.keys⟩
        · rw [hstage]
          dsimp only
          split <;> simp
        · rw [hunits] at hne
          split_ifs at hstep with hfull
          · exact absurd hstep.1 hne
          · simp [hstage, hfull]
  obtain ⟨hcalm, hrunning, hlength, hkeys⟩ := hself
  refine ⟨fun s' => ?_, fun s' => ?_, fun s' => ?_, hkeys⟩
  · by_cases hne : s' = s
    · exact hne ▸ hcalm
    · exact hframe s' hne ▸ h.calm s'
  · by_cases hne : s' = s
    · exact hne ▸ hrunning
    · rw [hframe s' hne, h.activeUnits_frame hs hcounts hstep hne]
      exact h.running s'
  · by_cases hne : s' = s
    · exact hne ▸ hlength
    · rw [hframe s' hne, hitems s' hne]
      exact h.items s'

end Mirrored

namespace ProgressStage
variable {stage : ProgressStage} {e : PublicEvent}

theorem follow_started (h : e.status = "started") :
    stage.follow e =
      { stage with
        status := .running
        activeUnits := stage.activeUnits + 1
        updatedAt := e.occurredAt.or stage.updatedAt } := by
  simp [follow, step, h]

theorem follow_completed (h : e.status = "completed") (hpos : 1 ≤ stage.totalUnits) :
    stage.follow e =
      { stage with
        status :=
          if 1 < stage.activeUnits then .running
          else if stage.totalUnits ≤ stage.completedUnits + 1 then .completed
          else stage.status
        activeUnits := stage.activeUnits - 1
        completedUnits := min stage.totalUnits (stage.completedUnits + 1)
        updatedAt := e.occurredAt.or stage.updatedAt } := by
  have hne : stage.totalUnits ≠ 0 := by omega
  have hlt : 0 < stage.totalUnits := by omega
  have hactive : 0 < stage.activeUnits - 1 ↔ 1 < stage.activeUnits := by omega
  simp [follow, step, h, hne, hlt, hactive]

theorem follow_progress (h : e.status = "progress") {completed total : Int}
    (hcompleted : e.completedUnits = some completed) (htotal : e.totalUnits = some total) :
    stage.follow e = stage.report e completed total := by
  simp [follow, h, hcompleted, htotal]

end ProgressStage

namespace Mirrored
variable {t : Tally} {s : StageId} {e : PublicEvent} {topology : PipelineTopology}
  {n : Int} {ids : List String}

theorem settle_status (h : Mirrored t) (s : StageId) :
    (t.settle s).status =
      if t.activeUnits s ≠ 0 then .running
      else if (t.stages s).completedUnits ≠ 0 ∧ ((t.stages s).totalUnits = 0
          ∨ (t.stages s).totalUnits = 1 ∨ (t.stages s).totalUnits ≤ (t.stages s).completedUnits)
        then .completed
      else (t.stages s).status := by
  simp only [Tally.settle, if_neg (h.calm s)]
  split_ifs <;> rfl

theorem settle_calm (h : Mirrored t) (s : StageId) : (t.settle s).status ≠ .failed := by
  rw [h.settle_status]
  split_ifs
  · decide
  · decide
  · exact h.calm s

theorem settle_running (h : Mirrored t) (hactive : t.activeUnits s ≠ 0) :
    (t.settle s).status = .running := by
  rw [h.settle_status, if_pos hactive]

theorem settle_status_of_full (h : Mirrored t) (s : StageId) :
    (t.settle s).status =
      if t.activeUnits s ≠ 0 then .running
      else if t.Full s then .completed
      else (t.stages s).status :=
  h.settle_status s

theorem settle_running_iff (h : Mirrored t) (s : StageId) :
    (t.settle s).status = .running ↔ t.Runs s := by
  rw [h.settle_status_of_full, Tally.Runs]
  split_ifs with hactive hfull
  · simp [hactive]
  · simp [not_not.mp hactive, hfull]
  · simp [not_not.mp hactive, hfull]

theorem settle_completed_iff (h : Mirrored t) (s : StageId) :
    (t.settle s).status = .completed ↔ t.Finished s := by
  rw [h.settle_status_of_full, Tally.Finished]
  split_ifs with hactive hfull
  · simp [hactive]
  · simp [not_not.mp hactive, hfull]
  · simp [not_not.mp hactive, hfull]

/-- The end of a terminal node that counts one unit. -/
theorem completed_units (hsound : Sound n ids t) (hsound' : Sound n ids (t.note topology e))
    (h : Mirrored t) (hs : e.stage? topology = some s) (hlife : e.lifecycle = .completed)
    (hitem : s.countsItems = false → e.item? = none) (hstep : t.InStep s e) :
    1 ≤ (t.stages s).totalUnits ∧ ∃ time, (t.note topology e).stages s =
      { t.stages s with
        completedUnits := min (t.stages s).totalUnits ((t.stages s).completedUnits + 1)
        updatedAt := time } := by
  simp only [Tally.InStep, hlife] at hstep
  obtain ⟨hterminal, -, hcount, -⟩ := hstep
  obtain ⟨-, completed, hstage, hcompleted⟩ := Tally.note_completed (t := t) hs hlife hterminal
  have hbound : (((t.note topology e).counted s).length : Int) ≤ (t.stages s).totalUnits := by
    simpa [hstage] using (hsound'.stage s).length_units_le
  have hnonneg := (hsound.stage s).nonneg
  suffices hmin : 1 ≤ (t.stages s).totalUnits ∧
      completed = min (t.stages s).totalUnits ((t.stages s).completedUnits + 1) from
    ⟨hmin.1, _, by rw [hstage, hmin.2]⟩
  rw [Tally.CountsOne.eq_def] at hcount
  cases hid : e.item? with
  | some unit =>
      rw [hid] at hcount
      have hcounts : s.countsItems = true := by
        by_contra hplan
        simp [hitem (by simpa using hplan)] at hid
      have hunits := h.items s hcounts
      obtain ⟨hnone, -⟩ | ⟨-, hlength, hadd⟩ := hcompleted
      · simp [hid] at hnone
      · simp only [Tally.addUnit, hid, Option.getD_some, if_neg hcount,
          Function.update_self] at hadd
        rw [hadd, List.length_append, List.length_singleton] at hlength hbound
        omega
  | none =>
      rw [hid] at hcount
      have hpos : 1 ≤ (t.stages s).totalUnits := by
        simpa [unitNames, hcount.1] using (hsound.stage s).unitNames_le
      obtain ⟨-, -, hall⟩ | ⟨hone, hlength, hadd⟩ := hcompleted
      · omega
      · have hmem : "batch" ∈ (t.note topology e).counted s := by
          rw [hadd, hid]
          simp only [Tally.addUnit, Option.getD_none, Function.update_self]
          split
          · assumption
          · simp
        have := List.length_pos_of_mem hmem
        have : ¬ 1 < (t.stages s).totalUnits := fun hlt => hone ⟨hid, hlt⟩
        omega

/-- At the stage of the event the page does what the loop and the settling do. -/
theorem settle_follow (hsound : Sound n ids t) (hsound' : Sound n ids (t.note topology e))
    (h : Mirrored t) (hs : e.stage? topology = some s) (hcounts : e.Counts topology s)
    (hstatus : (e.lifecycle = .started ∧ e.status = "started") ∨
      (e.lifecycle = .completed ∧ e.status = "completed") ∨
      (e.lifecycle = .progress ∧ e.status = "progress")) (hstep : t.InStep s e) :
    ((t.note topology e).settle s).Agrees ((t.settle s).follow e) := by
  have h' := h.note hs hcounts hstep
  have hactive := h.activeUnits_note hs hcounts hstep s
  obtain ⟨hlife, htext⟩ | ⟨hlife, htext⟩ | ⟨hlife, htext⟩ := hstatus
  · have hstage := (Tally.note_started (t := t) hs hlife).2.2
    have hunits : (t.note topology e).activeUnits s = t.activeUnits s + 1 := by
      simpa [hlife] using hactive
    rw [ProgressStage.follow_started htext]
    exact
      { status := h'.settle_running (by omega)
        completedUnits := by simp [hstage]
        totalUnits := by simp [hstage]
        activeUnits := by simp [hunits] }
  · have hitem : s.countsItems = false → e.item? = none := by
      cases hcounts with
      | node _ _ hitem => exact hitem
      | report _ _ _ hreport => simp [hlife] at hreport
    obtain ⟨hpos, time, hstage⟩ := completed_units hsound hsound' h hs hlife hitem hstep
    have hunits : (t.note topology e).activeUnits s + 1 = t.activeUnits s := by
      simpa [hlife] using hactive
    have hrunning := h.running s (by omega)
    have hnonneg := (hsound.stage s).nonneg
    rw [ProgressStage.follow_completed htext (by simpa using hpos)]
    refine ⟨?_, by simp [hstage], by simp [hstage], ?_⟩
    · rw [h'.settle_status, h.settle_running (by omega)]
      simp only [hstage, Tally.settle_activeUnits, Tally.settle_totalUnits,
        Tally.settle_completedUnits, hrunning]
      split_ifs <;> first | rfl | omega
    · simp only [Tally.settle_activeUnits]
      omega
  · cases hcounts with
    | node _ hnode => simp [hlife] at hnode
    | report completed total hreports _ hcompleted htotal hnonneg hle hpos =>
        have hstage := (Tally.note_report (t := t) hs hlife hcompleted htotal).2.2
        have hunits : (t.note topology e).activeUnits s = t.activeUnits s := by
          simpa [hlife] using hactive
        simp only [Tally.InStep, hlife, hcompleted, htotal, Option.getD_some] at hstep
        rw [ProgressStage.follow_progress htext hcompleted htotal]
        refine ⟨?_, by simp [hstage, ProgressStage.report], by simp [hstage, ProgressStage.report],
          ?_⟩
        · rw [h'.settle_status, hunits]
          simp only [hstage, ProgressStage.report]
          split_ifs at hstep ⊢ <;> first | rfl | omega
        · simp only [Tally.settle_activeUnits, hunits, ProgressStage.report]
          split_ifs at hstep ⊢ <;> exact hstep.1

end Mirrored

theorem mem_childrenOf {p child : StageId} : child ∈ childrenOf p ↔ child.parent = some p := by
  cases p <;> cases child <;> decide

theorem parentStatus_running {children : List StageStatus} {own : StageStatus}
    (hcalm : .failed ∉ children) (hrunning : .running ∈ children) :
    parentStatus children own = .running := by
  rw [parentStatus, if_neg hcalm, if_pos hrunning]

theorem parentStatus_completed {children : List StageStatus} {own : StageStatus}
    (hall : ∀ child ∈ children, child = .completed) : parentStatus children own = .completed := by
  have hcalm : .failed ∉ children := fun hmem => by cases hall _ hmem
  have hidle : .running ∉ children := fun hmem => by cases hall _ hmem
  rw [parentStatus, if_neg hcalm, if_neg hidle, if_pos hall]

theorem parentStatus_own {children : List StageStatus} {own : StageStatus}
    (hcalm : .failed ∉ children) (hidle : .running ∉ children)
    (hleft : ¬ ∀ child ∈ children, child = .completed) : parentStatus children own = own := by
  rw [parentStatus, if_neg hcalm, if_neg hidle, if_neg hleft]

section
variable {stages stages' : StageId → ProgressStage} {s p : StageId}

theorem deriveParents_parent (hp : childrenOf p ≠ []) : (deriveParents stages p).status =
    parentStatus ((childrenOf p).map fun child => (stages child).status) (stages p).status := by
  rw [deriveParents, if_neg hp]

theorem failed_notMem (hcalm : ∀ s, (stages s).status ≠ .failed) :
    .failed ∉ (childrenOf p).map fun child => (stages child).status := by
  intro hmem
  obtain ⟨child, -, hchild⟩ := List.mem_map.mp hmem
  exact hcalm child hchild

/-- A parent runs while one of its stages runs. -/
theorem parent_running (hcalm : ∀ s, (stages s).status ≠ .failed) (hs : s.parent = some p)
    (hrunning : (stages s).status = .running) : (deriveParents stages p).status = .running := by
  have hmem := mem_childrenOf.mpr hs
  rw [deriveParents_parent (List.ne_nil_of_mem hmem)]
  exact parentStatus_running (failed_notMem hcalm) (List.mem_map.mpr ⟨s, hmem, hrunning⟩)

/-- A parent whose stage completes keeps its status when another of its stages runs,
or when it has the status that is left to it. -/
theorem parent_keeps (hcalm : ∀ s, (stages s).status ≠ .failed)
    (hcalm' : ∀ s, (stages' s).status ≠ .failed)
    (hframe : ∀ s', s' ≠ s → stages' s' = stages s') (hs : s.parent = some p)
    (hcompleted : (stages' s).status = .completed)
    (hkeeps : (∃ child ∈ childrenOf p, child ≠ s ∧ (stages child).status = .running) ∨
      if ∀ child ∈ childrenOf p, child ≠ s → (stages child).status = .completed then
        (deriveParents stages p).status = .completed
      else (deriveParents stages p).status = (stages p).status) :
    (deriveParents stages' p).status = (deriveParents stages p).status := by
  have hne : p ≠ s := by
    rintro rfl
    cases p <;> cases hs
  by_cases hrunning : ∃ child ∈ childrenOf p, child ≠ s ∧ (stages child).status = .running
  · obtain ⟨child, hchild, hother, hstatus⟩ := hrunning
    have hparent := mem_childrenOf.mp hchild
    rw [parent_running hcalm hparent hstatus,
      parent_running hcalm' hparent (by rw [hframe child hother, hstatus])]
  · replace hkeeps := hkeeps.resolve_left hrunning
    have hmem := mem_childrenOf.mpr hs
    rw [deriveParents_parent (List.ne_nil_of_mem hmem)]
    split_ifs at hkeeps with hall
    · rw [hkeeps]
      refine parentStatus_completed fun status hstatus => ?_
      obtain ⟨child, hchild, rfl⟩ := List.mem_map.mp hstatus
      by_cases hsame : child = s
      · exact hsame ▸ hcompleted
      · rw [hframe child hsame]
        exact hall child hchild hsame
    · rw [hkeeps, ← hframe p hne]
      refine parentStatus_own (failed_notMem hcalm') (fun hmem => ?_) fun hdone => hall ?_
      · obtain ⟨child, hchild, hstatus⟩ := List.mem_map.mp hmem
        have hsame : child ≠ s := by
          rintro rfl
          simp [hcompleted] at hstatus
        exact hrunning ⟨child, hchild, hsame, by rw [← hframe child hsame, hstatus]⟩
      · intro child hchild hsame
        rw [← hframe child hsame]
        exact hdone _ (List.mem_map.mpr ⟨child, hchild, rfl⟩)

/-- The stages with the statuses of the parents follow an event that leaves these
alone. -/
theorem deriveParents_follow {e : PublicEvent} (hstage : e.stageId = s.text)
    (hframe : ∀ s', s' ≠ s → stages' s' = stages s')
    (hparent : ∀ p, s.parent = some p →
      (deriveParents stages' p).status = (deriveParents stages p).status)
    (hself : (deriveParents stages' s).Agrees ((deriveParents stages s).follow e))
    (s' : StageId) :
    (deriveParents stages' s').Agrees (followStages (deriveParents stages) e s') := by
  have htext : s'.text = e.stageId ↔ s' = s := by
    rw [hstage]
    constructor
    · intro htext
      exact Option.some.inj (by rw [← StageId.ofText?_text s', htext, StageId.ofText?_text])
    · exact congrArg _
  by_cases hs : s' = s
  · subst hs
    simpa only [followStages, hstage, if_true] using hself
  · have hstages := hframe s' hs
    rw [followStages, if_neg (fun h => hs (htext.mp h))]
    have hstatus : (deriveParents stages' s').status = (deriveParents stages s').status := by
      by_cases hchild : s.parent = some s'
      · exact hparent s' hchild
      · have hchildren : (childrenOf s').map (fun child => (stages' child).status) =
            (childrenOf s').map fun child => (stages child).status :=
          List.map_congr_left fun child hmem => by
            rw [hframe child fun hsame => hchild (hsame ▸ mem_childrenOf.mp hmem)]
        simp only [deriveParents, hstages, hchildren]
    refine ⟨hstatus, ?_, ?_, ?_⟩ <;>
      · simp only [deriveParents, hstages]
        split <;> rfl

end

theorem PublicEvent.Counts.ne_setup {topology : PipelineTopology} {e : PublicEvent} {s : StageId}
    (h : e.Counts topology s) : s ≠ .setup := by
  rintro rfl
  cases h with
  | node hnode => exact (nodeStage_ne hnode).1 rfl
  | report _ _ hreports => cases hreports

namespace Mirrored
variable {t : Tally} {s : StageId} {e : PublicEvent} {topology : PipelineTopology}
  {n : Int} {ids : List String}

theorem settledRun_calm (h : Mirrored t) (s : StageId) : (t.settledRun s).status ≠ .failed := by
  by_cases hs : s = .setup
  · subst hs
    simp [Tally.settledRun]
  · simpa only [Tally.settledRun, Function.update_of_ne hs] using h.settle_calm s

theorem settledRun_frame (h : Mirrored t) (hs : e.stage? topology = some s)
    (hcounts : e.Counts topology s) (hstep : t.InStep s e) (s' : StageId) (hne : s' ≠ s) :
    (t.note topology e).settledRun s' = t.settledRun s' := by
  have hsettle : (t.note topology e).settle s' = t.settle s' := by
    simp only [Tally.settle, (Tally.note_frame (t := t) hs hne).1,
      h.activeUnits_frame hs hcounts hstep hne]
  by_cases hsetup : s' = .setup
  · subst hsetup
    simp only [Tally.settledRun, Function.update_self, hsettle]
  · simpa only [Tally.settledRun, Function.update_of_ne hsetup] using hsettle

theorem settledRun_child (t : Tally) {p child : StageId} (hchild : child ∈ childrenOf p) :
    t.settledRun child = t.settle child :=
  Function.update_of_ne (by
    rintro rfl
    exact absurd (mem_childrenOf.mp hchild) (by simp [StageId.parent])) ..

theorem settledRun_parent (t : Tally) {p : StageId} (hp : s.parent = some p) :
    t.settledRun p = t.settle p :=
  Function.update_of_ne (by
    rintro rfl
    cases s <;> cases hp) ..

/-- A parent that runs is shown running. -/
theorem shown_running (h : Mirrored t) (hruns : t.ParentRuns s) {p : StageId}
    (hp : s.parent = some p) : (t.shownRun p).status = .running := by
  by_cases hsome : ∃ child ∈ childrenOf p, t.Runs child
  · obtain ⟨child, hchild, hruns⟩ := hsome
    refine parent_running h.settledRun_calm (mem_childrenOf.mp hchild) ?_
    rw [settledRun_child t hchild, h.settle_running_iff]
    exact hruns
  · obtain ⟨⟨child, hchild, hleft⟩, hown⟩ := (hruns p hp).resolve_left hsome
    rw [Tally.shownRun, deriveParents_parent (List.ne_nil_of_mem hchild), settledRun_parent t hp]
    rw [← h.settle_running_iff] at hown
    rw [hown]
    refine parentStatus_own (failed_notMem h.settledRun_calm) (fun hmem => ?_) fun hall => hleft ?_
    · obtain ⟨other, hother, hstatus⟩ := List.mem_map.mp hmem
      rw [settledRun_child t hother, h.settle_running_iff] at hstatus
      exact hsome ⟨other, hother, hstatus⟩
    · have hstatus := hall _ (List.mem_map.mpr ⟨child, hchild, rfl⟩)
      rwa [settledRun_child t hchild, h.settle_completed_iff] at hstatus

/-- What the end of a stage leaves to a parent is what it is shown with. -/
theorem shown_kept (h : Mirrored t) (hkeeps : t.ParentKeeps s) {p : StageId}
    (hp : s.parent = some p) :
    (∃ child ∈ childrenOf p, child ≠ s ∧ (t.settledRun child).status = .running) ∨
      if ∀ child ∈ childrenOf p, child ≠ s → (t.settledRun child).status = .completed then
        (t.shownRun p).status = .completed
      else (t.shownRun p).status = (t.settledRun p).status := by
  have hmem := mem_childrenOf.mpr hp
  have hruns (child : StageId) (hchild : child ∈ childrenOf p) :
      (t.settledRun child).status = .running ↔ t.Runs child := by
    rw [settledRun_child t hchild, h.settle_running_iff]
  have hfinished (child : StageId) (hchild : child ∈ childrenOf p) :
      (t.settledRun child).status = .completed ↔ t.Finished child := by
    rw [settledRun_child t hchild, h.settle_completed_iff]
  by_cases hother : ∃ child ∈ childrenOf p, child ≠ s ∧ (t.settledRun child).status = .running
  · exact .inl hother
  refine .inr ?_
  have hnone : ¬ ∃ child ∈ childrenOf p, child ≠ s ∧ t.Runs child :=
    fun ⟨child, hchild, hne, hrun⟩ => hother ⟨child, hchild, hne, (hruns child hchild).mpr hrun⟩
  have hkeeps := (hkeeps p hp).resolve_left hnone
  have hcalm := failed_notMem (p := p) h.settledRun_calm
  have hidle : ¬ t.Runs s →
      .running ∉ (childrenOf p).map fun child => (t.settledRun child).status := by
    intro hstill hrunning
    obtain ⟨child, hchild, hstatus⟩ := List.mem_map.mp hrunning
    by_cases hsame : child = s
    · exact hstill (hsame ▸ (hruns child hchild).mp hstatus)
    · exact hother ⟨child, hchild, hsame, hstatus⟩
  rw [Tally.shownRun, deriveParents_parent (List.ne_nil_of_mem hmem)]
  by_cases hall : ∀ child ∈ childrenOf p, child ≠ s → t.Finished child
  · rw [if_pos hall] at hkeeps
    rw [if_pos fun child hchild hne => (hfinished child hchild).mpr (hall child hchild hne)]
    by_cases hself : t.Finished s
    · refine parentStatus_completed fun status hstatus => ?_
      obtain ⟨child, hchild, rfl⟩ := List.mem_map.mp hstatus
      rw [hfinished child hchild]
      by_cases hsame : child = s
      · exact hsame ▸ hself
      · exact hall child hchild hsame
    · obtain ⟨hstill, hparent⟩ := hkeeps.resolve_left hself
      rw [← h.settle_completed_iff, ← settledRun_parent t hp] at hparent
      rw [hparent]
      refine parentStatus_own hcalm (hidle hstill) fun hdone => hself ?_
      exact (hfinished s hmem).mp (hdone _ (List.mem_map.mpr ⟨s, hmem, rfl⟩))
  · rw [if_neg hall] at hkeeps
    rw [if_neg fun hdone => hall fun child hchild hne =>
      (hfinished child hchild).mp (hdone child hchild hne)]
    by_cases hself : t.Runs s
    · have hparent := hkeeps hself
      rw [← h.settle_running_iff, ← settledRun_parent t hp] at hparent
      rw [hparent]
      exact parentStatus_running hcalm (List.mem_map.mpr ⟨s, hmem, (hruns s hmem).mpr hself⟩)
    · refine parentStatus_own hcalm (hidle hself) fun hdone => hall fun child hchild _ => ?_
      exact (hfinished child hchild).mp (hdone _ (List.mem_map.mpr ⟨child, hchild, rfl⟩))

theorem shownRun_production (t : Tally) :
    t.shownRun .production =
      { t.settle .production with
        status := parentStatus t.productionStages (t.settle .production).status } := by
  have hsettle : t.settledRun .production = t.settle .production :=
    settledRun_parent (s := .talkingHead) t rfl
  rw [Tally.shownRun, deriveParents, if_neg (by decide), hsettle]
  rfl

theorem productionStages_note (h : Mirrored t) (hs : e.stage? topology = some .production)
    (hcounts : e.Counts topology .production) (hstep : t.InStep .production e) :
    (t.note topology e).productionStages = t.productionStages :=
  List.map_congr_left fun child hchild => by
    rw [h.settledRun_frame hs hcounts hstep child]
    rintro rfl
    exact absurd hchild (by decide)

theorem running_mem_productionStages (h : Mirrored t) (hrunning : .running ∈ t.productionStages) :
    ∃ child ∈ childrenOf .production, t.Runs child := by
  obtain ⟨child, hchild, hstatus⟩ := List.mem_map.mp hrunning
  refine ⟨child, hchild, ?_⟩
  rw [← h.settle_running_iff, ← settledRun_child t hchild, hstatus]

theorem productionStages_completed (h : Mirrored t)
    (hall : ∀ status ∈ t.productionStages, status = .completed) :
    ∀ child ∈ childrenOf .production, t.Finished child := by
  intro child hchild
  rw [← h.settle_completed_iff, ← settledRun_child t hchild]
  exact hall _ (List.mem_map.mpr ⟨child, hchild, rfl⟩)

/-- A production that runs is shown running while a stage of it is left. -/
theorem production_status_running (h : Mirrored t)
    (hleft : ∃ child ∈ childrenOf .production, ¬ t.Finished child) :
    parentStatus t.productionStages .running = .running := by
  obtain ⟨child, hchild, hleft⟩ := hleft
  by_cases hrunning : .running ∈ t.productionStages
  · exact parentStatus_running (failed_notMem h.settledRun_calm) hrunning
  · exact parentStatus_own (failed_notMem h.settledRun_calm) hrunning fun hall =>
      hleft (h.productionStages_completed hall child hchild)

/-- What the stages make of the end of a unit of the production is what the page makes of
it: work is left to the production while a stage runs, and none when all are finished. -/
theorem production_status_completed (h : Mirrored t)
    (hwork : (∃ child ∈ childrenOf .production, t.Runs child) → t.WorkLeft .production)
    (hdone : (∀ child ∈ childrenOf .production, t.Finished child) →
      t.activeUnits .production = 1) :
    parentStatus t.productionStages
        (if 1 < t.activeUnits .production then .running
          else if (t.stages .production).totalUnits ≤ (t.stages .production).completedUnits + 1
          then .completed else .running) =
      if 1 < t.activeUnits .production then .running
      else if (t.stages .production).totalUnits ≤ (t.stages .production).completedUnits + 1
      then .completed else parentStatus t.productionStages .running := by
  have hcalm : .failed ∉ t.productionStages := failed_notMem h.settledRun_calm
  by_cases hrunning : .running ∈ t.productionStages
  · rw [parentStatus_running hcalm hrunning, parentStatus_running hcalm hrunning]
    have hleft := hwork (h.running_mem_productionStages hrunning)
    rw [Tally.WorkLeft] at hleft
    split_ifs <;> first | rfl | omega
  by_cases hall : ∀ status ∈ t.productionStages, status = .completed
  · rw [parentStatus_completed hall, parentStatus_completed hall]
    have hlast := hdone (h.productionStages_completed hall)
    simp [hlast]
  · rw [parentStatus_own hcalm hrunning hall, parentStatus_own hcalm hrunning hall]

/-- The production, whose status its stages may decide. -/
theorem production_follow (hsound : Sound n ids t) (hsound' : Sound n ids (t.note topology e))
    (h : Mirrored t) (hs : e.stage? topology = some .production)
    (hcounts : e.Counts topology .production)
    (hstatus : (e.lifecycle = .started ∧ e.status = "started") ∨
      (e.lifecycle = .completed ∧ e.status = "completed") ∨
      (e.lifecycle = .progress ∧ e.status = "progress")) (hstep : t.InStep .production e) :
    ((t.note topology e).shownRun .production).Agrees ((t.shownRun .production).follow e) := by
  have hfollow := settle_follow hsound hsound' h hs hcounts hstatus hstep
  rw [shownRun_production, shownRun_production, h.productionStages_note hs hcounts hstep]
  obtain ⟨hlife, htext⟩ | ⟨hlife, htext⟩ | ⟨hlife, htext⟩ := hstatus
  · simp only [Tally.InStep, hlife] at hstep
    rw [ProgressStage.follow_started htext] at hfollow ⊢
    refine ⟨?_, hfollow.completedUnits, hfollow.totalUnits, hfollow.activeUnits⟩
    have hown : ((t.note topology e).settle .production).status = .running := hfollow.status
    simp only [hown]
    exact h.production_status_running (hstep.2.2 trivial)
  · have hitem : StageId.production.countsItems = false → e.item? = none := fun hc => by cases hc
    obtain ⟨hpos, -⟩ := completed_units hsound hsound' h hs hlife hitem hstep
    have hunits : (t.note topology e).activeUnits .production + 1 = t.activeUnits .production := by
      simpa [hlife] using h.activeUnits_note hs hcounts hstep .production
    have hown : (t.settle .production).status = .running := h.settle_running (by omega)
    simp only [Tally.InStep, hlife] at hstep
    obtain ⟨hwork, hdone⟩ := hstep.2.2.2.2 trivial
    have hpos : 1 ≤ (t.settle .production).totalUnits := by simpa using hpos
    rw [ProgressStage.follow_completed htext hpos] at hfollow
    rw [ProgressStage.follow_completed htext (by exact hpos)]
    refine ⟨?_, hfollow.completedUnits, hfollow.totalUnits, hfollow.activeUnits⟩
    have hstatus := hfollow.status
    simp only [Tally.settle_activeUnits, Tally.settle_totalUnits, Tally.settle_completedUnits,
      hown] at hstatus ⊢
    rw [hstatus]
    exact h.production_status_completed hwork hdone
  · cases hcounts with
    | node _ hnode => simp [hlife] at hnode
    | report _ _ hreports => cases hreports

/-- The status of the stage after an event that moves both sides alike. -/
theorem status_note (hsound : Sound n ids t) (hsound' : Sound n ids (t.note topology e))
    (h : Mirrored t) (hs : e.stage? topology = some s) (hcounts : e.Counts topology s)
    (hstatus : (e.lifecycle = .started ∧ e.status = "started") ∨
      (e.lifecycle = .completed ∧ e.status = "completed") ∨
      (e.lifecycle = .progress ∧ e.status = "progress")) (hstep : t.InStep s e) :
    (((t.note topology e).settle s).status = .running ∧
        (t.ParentRuns s ∨ (t.settle s).status = .running)) ∨
      (((t.note topology e).settle s).status = .completed ∧ t.ParentKeeps s) := by
  have hfollow := (settle_follow hsound hsound' h hs hcounts hstatus hstep).status
  obtain ⟨hlife, htext⟩ | ⟨hlife, htext⟩ | ⟨hlife, htext⟩ := hstatus
  · simp only [Tally.InStep, hlife] at hstep
    rw [ProgressStage.follow_started htext] at hfollow
    exact .inl ⟨hfollow, .inl hstep.2.1⟩
  · have hitem : s.countsItems = false → e.item? = none := by
      cases hcounts with
      | node _ _ hitem => exact hitem
      | report _ _ _ hreport => simp [hlife] at hreport
    obtain ⟨hpos, -⟩ := completed_units hsound hsound' h hs hlife hitem hstep
    have hunits : (t.note topology e).activeUnits s + 1 = t.activeUnits s := by
      simpa [hlife] using h.activeUnits_note hs hcounts hstep s
    have hown : (t.settle s).status = .running := h.settle_running (by omega)
    simp only [Tally.InStep, hlife] at hstep
    have hpos : 1 ≤ (t.settle s).totalUnits := by simpa using hpos
    rw [ProgressStage.follow_completed htext hpos] at hfollow
    simp only [Tally.settle_activeUnits, Tally.settle_totalUnits, Tally.settle_completedUnits,
      hown] at hfollow
    by_cases hwork : t.WorkLeft s
    · refine .inl ⟨?_, .inr hown⟩
      rw [Tally.WorkLeft] at hwork
      rw [hfollow]
      split_ifs <;> first | rfl | omega
    · refine .inr ⟨?_, hstep.2.2.2.1.resolve_left hwork⟩
      rw [Tally.WorkLeft] at hwork
      rw [hfollow, if_neg (by omega), if_pos (by omega)]
  · cases hcounts with
    | node _ hnode => simp [hlife] at hnode
    | report completed total _ _ hcompleted htotal =>
        simp only [Tally.InStep, hlife, hcompleted, htotal, Option.getD_some] at hstep
        rw [ProgressStage.follow_progress htext hcompleted htotal] at hfollow
        simp only [ProgressStage.report] at hfollow
        split_ifs at hstep hfollow with hfull
        · exact .inr ⟨hfollow, hstep.2⟩
        · exact .inl ⟨hfollow, .inl hstep.2⟩

/-- An event that moves both sides alike: the page follows the snapshot. -/
theorem shownRun_follow (hsound : Sound n ids t) (hsound' : Sound n ids (t.note topology e))
    (h : Mirrored t) (hs : e.stage? topology = some s) (hcounts : e.Counts topology s)
    (hname : e.stageId = s.text)
    (hstatus : (e.lifecycle = .started ∧ e.status = "started") ∨
      (e.lifecycle = .completed ∧ e.status = "completed") ∨
      (e.lifecycle = .progress ∧ e.status = "progress")) (hstep : t.InStep s e) (s' : StageId) :
    ((t.note topology e).shownRun s').Agrees (followStages t.shownRun e s') := by
  have h' := h.note hs hcounts hstep
  have hframe := h.settledRun_frame hs hcounts hstep
  have hsettle (t' : Tally) : t'.settledRun s = t'.settle s :=
    Function.update_of_ne hcounts.ne_setup ..
  refine deriveParents_follow hname hframe (fun p hp => ?_) ?_ s'
  · obtain ⟨hrunning, hbefore⟩ | ⟨hcompleted, hkeeps⟩ :=
      status_note hsound hsound' h hs hcounts hstatus hstep
    · rw [parent_running h'.settledRun_calm hp (by rw [hsettle, hrunning])]
      obtain hbefore | hbefore := hbefore
      · exact (h.shown_running hbefore hp).symm
      · exact (parent_running h.settledRun_calm hp (by rw [hsettle, hbefore])).symm
    · exact parent_keeps h.settledRun_calm h'.settledRun_calm hframe hp
        (by rw [hsettle, hcompleted]) (h.shown_kept hkeeps hp)
  · by_cases hproduction : s = .production
    · subst hproduction
      exact production_follow hsound hsound' h hs hcounts hstatus hstep
    · have hleaf : childrenOf s = [] := by
        cases hcounts with
        | node hnode =>
            have hplan := (nodeStage_ne hnode).2
            cases s <;> first | rfl | exact absurd rfl hproduction | exact absurd rfl hplan
        | report _ _ hreports => cases s <;> first | rfl | cases hreports
      rw [deriveParents_of_leaf hleaf, deriveParents_of_leaf hleaf, hsettle, hsettle]
      exact settle_follow hsound hsound' h hs hcounts hstatus hstep

end Mirrored

theorem ProgressStage.Agrees.refl (a : ProgressStage) : a.Agrees a := ⟨rfl, rfl, rfl, rfl⟩

theorem ProgressStage.Agrees.trans {a b c : ProgressStage} (h : a.Agrees b) (h' : b.Agrees c) :
    a.Agrees c :=
  ⟨h.status.trans h'.status, h.completedUnits.trans h'.completedUnits,
    h.totalUnits.trans h'.totalUnits, h.activeUnits.trans h'.activeUnits⟩

/-- What the page does with an event depends on the fields that both sides show. -/
theorem ProgressStage.Agrees.follow {a b : ProgressStage} (h : a.Agrees b) (e : PublicEvent) :
    (a.follow e).Agrees (b.follow e) := by
  have hstep : (a.step e).Agrees (b.step e) := by
    constructor <;> simp only [step, h.status, h.completedUnits, h.totalUnits, h.activeUnits]
  have hreport (completed total : Int) :
      (a.report e completed total).Agrees (b.report e completed total) := ⟨rfl, rfl, rfl, rfl⟩
  rw [ProgressStage.follow, ProgressStage.follow]
  split
  · split
    · exact hreport ..
    · exact hstep
  · exact hstep

theorem followStages_agrees {stages stages' : StageId → ProgressStage}
    (h : ∀ s, (stages s).Agrees (stages' s)) (e : PublicEvent) (s : StageId) :
    (followStages stages e s).Agrees (followStages stages' e s) := by
  rw [followStages, followStages]
  split
  · exact (h s).follow e
  · exact h s

/-- The events move the counters of both sides alike, one after the other. -/
def Tally.AllInStep (topology : PipelineTopology) (t : Tally) (events : List PublicEvent) : Prop :=
  ∀ before e after, events = before ++ e :: after → ∀ s, e.stage? topology = some s →
    (t.notes topology before).InStep s e

theorem Tally.AllInStep.tail {topology : PipelineTopology} {t : Tally} {e : PublicEvent}
    {events : List PublicEvent} (h : t.AllInStep topology (e :: events)) :
    (t.note topology e).AllInStep topology events :=
  fun before e' after hsplit => h (e :: before) e' after (by rw [hsplit]; rfl)

theorem Tally.AllInStep.nil {topology : PipelineTopology} {t : Tally} :
    t.AllInStep topology [] := by
  intro before e after hsplit
  cases before <;> cases hsplit

theorem Tally.AllInStep.cons {topology : PipelineTopology} {t : Tally} {e : PublicEvent}
    {s : StageId} {events : List PublicEvent} (hs : e.stage? topology = some s)
    (h : t.InStep s e) (hrest : (t.note topology e).AllInStep topology events) :
    t.AllInStep topology (e :: events) := by
  intro before e' after hsplit s' hs'
  cases before with
  | nil =>
      obtain ⟨rfl, -⟩ := List.cons.inj hsplit
      obtain rfl := Option.some.inj (hs.symm.trans hs')
      exact h
  | cons first before =>
      obtain ⟨rfl, htail⟩ := List.cons.inj hsplit
      exact hrest before e' after htail s' hs'

theorem Tally.AllInStep.append {topology : PipelineTopology} {t : Tally}
    {events events' : List PublicEvent} (h : t.AllInStep topology (events ++ events')) :
    t.AllInStep topology events ∧ (t.notes topology events).AllInStep topology events' := by
  refine ⟨fun before e after hsplit s hs => ?_, fun before e after hsplit s hs => ?_⟩
  · exact h before e (after ++ events') (by simp [hsplit]) s hs
  · have := h (events ++ before) e after (by simp [hsplit]) s hs
    rwa [Tally.notes, List.foldl_append] at this

/-- Over events that move both sides alike the page follows the snapshot. -/
theorem notes_follow {topology : PipelineTopology} {n : Int} {ids : List String} {t : Tally}
    {events : List PublicEvent} {stages : StageId → ProgressStage} (hsound : Sound n ids t)
    (hmirrored : Mirrored t) (hstages : ∀ s, (t.shownRun s).Agrees (stages s))
    (hprogress : ∀ e ∈ events, e.type = .progressEvent)
    (hemitted : ∀ e ∈ events, e.Emitted topology)
    (hids : ∀ e ∈ events, ∀ id, e.item? = some id → id ∈ ids)
    (hsteps : t.AllInStep topology events) :
    Sound n ids (t.notes topology events) ∧ Mirrored (t.notes topology events) ∧
      ∀ s, ((t.notes topology events).shownRun s).Agrees (events.foldl followStages stages s) := by
  induction events generalizing t stages with
  | nil => exact ⟨hsound, hmirrored, hstages⟩
  | cons e events ih =>
      obtain ⟨s, hs, hname, hstatus⟩ :=
        (hemitted e (.head _)).named (hprogress e (.head _))
      have hcounts := (hemitted e (.head _)).counts hs
      have hstep : t.InStep s e := hsteps [] e events rfl s hs
      have hnames : e.NamesItem topology := by
        intro s' hs' hitems hlife hterminal hnone
        obtain rfl : s = s' := Option.some.inj (hs.symm.trans hs')
        simp only [Tally.InStep, hlife] at hstep
        have hcount := hstep.2.2.1
        simp [Tally.CountsOne, hnone, hitems] at hcount
      have hsound' := hsound.note (hemitted e (.head _)) (hids e (.head _)) (.inr hnames)
      refine ih hsound' (hmirrored.note hs hcounts hstep) (fun s' => ?_)
        (fun e' he' => hprogress e' (.tail _ he')) (fun e' he' => hemitted e' (.tail _ he'))
        (fun e' he' => hids e' (.tail _ he')) hsteps.tail
      exact (hmirrored.shownRun_follow hsound hsound' hs hcounts hname hstatus hstep s').trans
        (followStages_agrees hstages e s')

/-- Progress events as the page receives them: each may have an id. -/
abbrev ProgressStream := List (Option String × PublicEvent)

namespace ProgressStream

/-- The ids under which the page remembers the events. -/
def keys (stream : ProgressStream) : List String :=
  stream.map fun r => (progressActivity r.1 r.2).eventId

/-- The page follows the events. -/
def follow (stream : ProgressStream) (st : RunStreamState) : RunStreamState :=
  stream.foldl (fun st r => reduceRunStreamEvent st (.progressEvent r.1 r.2)) st

/-- New events all reach the stages of the page. -/
theorem follow_stages {stream : ProgressStream} {st : RunStreamState} {progress : RunProgress}
    (hprogress : st.progress = some progress)
    (hnew : ∀ a ∈ st.activity, a.eventId ∉ stream.keys) (hkeys : stream.keys.Nodup) :
    ∃ after, (stream.follow st).progress = some after ∧
      after.stages = (stream.map Prod.snd).foldl followStages progress.stages := by
  induction stream generalizing st progress with
  | nil => exact ⟨progress, hprogress, rfl⟩
  | cons r stream ih =>
      obtain ⟨hr, hkeys⟩ := List.nodup_cons.mp hkeys
      have hunseen : (st.activity.any
          (·.eventId = (progressActivity r.1 r.2).eventId)) = false := by
        refine List.any_eq_false.mpr fun a ha heq => hnew a ha ?_
        exact List.mem_cons.mpr (.inl (by simpa using heq))
      have hreduce : reduceRunStreamEvent st (.progressEvent r.1 r.2) =
          { st with
            progress := some (applyProgressEvent progress r.2)
            activity := mergeActivity st.activity [progressActivity r.1 r.2] } := by
        simp [reduceRunStreamEvent, hunseen, hprogress]
      have hafter : (reduceRunStreamEvent st (.progressEvent r.1 r.2)).progress =
          some (applyProgressEvent progress r.2) := by rw [hreduce]
      refine ih hafter (fun a ha => ?_) hkeys
      rw [hreduce] at ha
      obtain ha | ha := mem_mergeActivity ha
      · exact fun hmem => hnew a ha (.tail _ hmem)
      · exact List.mem_singleton.mp ha ▸ hr

end ProgressStream

/-- The progress events of a run, each with an id of its own. -/
structure ProgressRun (topology : PipelineTopology) (stream : ProgressStream)
    (batchSize : Option Int) : Prop where
  progress : ∀ e ∈ stream.map Prod.snd, e.type = .progressEvent
  run : RunEvents topology (stream.map Prod.snd) batchSize
  keys : stream.keys.Nodup

/-- The page has the snapshot of the first `k` events and remembers only these. -/
structure LoadedAt (topology : PipelineTopology) (stream : ProgressStream)
    (items : List FinalItem) (batchSize : Option Int) (k : Nat) (st : RunStreamState) : Prop where
  progress : st.progress = some
    (buildProgress topology ((stream.map Prod.snd).take k) (some .running) items batchSize)
  activity : ∀ a ∈ st.activity, a.eventId ∈ stream.keys.take k

/-- Both sides show the same counters and the same status at every stage. -/
def SameProgress (topology : PipelineTopology) (stream : ProgressStream)
    (items : List FinalItem) (batchSize : Option Int) (st : RunStreamState) : Prop :=
  ∃ after, st.progress = some after ∧ ∀ s,
    ((buildProgress topology (stream.map Prod.snd) (some .running) items batchSize).stages s).Agrees
      (after.stages s)

/-- The end of a node that does not end its stage counts a unit on the page alone. -/
theorem voiceover_counted_by_page :
    ¬ ∀ (topology : PipelineTopology) (stream : ProgressStream) (items : List FinalItem)
        (batchSize : Option Int) (k : Nat) (st : RunStreamState),
      ProgressRun topology stream batchSize → LoadedAt topology stream items batchSize k st →
        SameProgress topology stream items batchSize
          (ProgressStream.follow (stream.drop k) st) := by
  intro h
  let topology : PipelineTopology := ⟨["ltx"], by decide, by decide⟩
  let voiceover (status : String) : PublicEvent :=
    { type := .progressEvent, node := "voiceover", stageId := "assembly", status := status,
      itemId := "clip", operationId := "voice" }
  let stream : ProgressStream :=
    [(some "1", voiceover "started"), (some "2", voiceover "completed")]
  have hrun : ProgressRun topology stream (some 1) := by
    refine ⟨by decide +kernel, ⟨fun e he => ?_, by decide +kernel⟩, by decide +kernel⟩
    obtain rfl | rfl : e = _ ∨ e = _ := by simpa [stream] using he
    · exact Or.inl ⟨.assembly, rfl, rfl, .inl rfl, fun _ => .inr (by decide)⟩
    · exact Or.inl ⟨.assembly, rfl, rfl, .inr rfl, fun _ => .inr (by decide)⟩
  obtain ⟨after, hafter, hsame⟩ := h topology stream [] (some 1) 0
    { progress := some (buildProgress topology [] (some .running) [] (some 1)) } hrun
    ⟨rfl, fun _ ha => by cases ha⟩
  obtain rfl := Option.some.inj hafter
  exact absurd (hsame .assembly).completedUnits (by decide +kernel)

theorem totalItems_of_progress {events : List PublicEvent}
    (h : ∀ e ∈ events, e.type = .progressEvent) (items : List FinalItem)
    (batchSize : Option Int) :
    totalItems events items batchSize = totalItems [] items batchSize := by
  have hfind : events.find? (·.type = .runStart) = none :=
    List.find?_eq_none.mpr fun e he => by simp [h e he]
  simp [totalItems, hfind]

/-- As long as every event moves both sides alike, the page shows what the snapshot of
all events shows, from whichever snapshot it started. -/
theorem live_progress_follows (topology : PipelineTopology) (stream : ProgressStream)
    (items : List FinalItem) (batchSize : Option Int) (k : Nat) (st : RunStreamState)
    (hrun : ProgressRun topology stream batchSize)
    (hsteps : (tally topology [] items batchSize).AllInStep topology (stream.map Prod.snd))
    (hloaded : LoadedAt topology stream items batchSize k st) :
    SameProgress topology stream items batchSize (ProgressStream.follow (stream.drop k) st) := by
  set events := stream.map Prod.snd with hevents
  have hsplit : events.take k ++ events.drop k = events := List.take_append_drop k events
  have hmem (e : PublicEvent) (he : e ∈ events.take k ∨ e ∈ events.drop k) : e ∈ events :=
    he.elim List.mem_of_mem_take List.mem_of_mem_drop
  have hids (e : PublicEvent) (he : e ∈ events) (id : String) (hid : e.item? = some id) :
      id ∈ eventItems events :=
    List.mem_dedup.mpr (List.mem_filterMap.mpr ⟨e, he, hid⟩)
  have htally (part : List PublicEvent) (hpart : ∀ e ∈ part, e ∈ events) :
      tally topology part items batchSize =
        (tally topology [] items batchSize).notes topology part := by
    rw [tally, tally, totalItems_of_progress fun e he => hrun.progress e (hpart e he)]
    rfl
  have hstart : Sound (totalItems [] items batchSize) (eventItems events)
      (tally topology [] items batchSize) := by
    refine Sound.start ?_
    rw [← totalItems_of_progress hrun.progress items batchSize]
    exact eventItems_length_le hrun.run items
  rw [← hsplit] at hsteps
  obtain ⟨hfirst, hrest⟩ := hsteps.append
  obtain ⟨hsound, hmirrored, -⟩ := notes_follow hstart (Mirrored.start _)
    (fun s => .refl _) (fun e he => hrun.progress e (hmem e (.inl he)))
    (fun e he => hrun.run.emitted e (hmem e (.inl he)))
    (fun e he => hids e (hmem e (.inl he))) hfirst
  have hfollow := (notes_follow hsound hmirrored (fun s => .refl _)
    (fun e he => hrun.progress e (hmem e (.inr he)))
    (fun e he => hrun.run.emitted e (hmem e (.inr he)))
    (fun e he => hids e (hmem e (.inr he))) hrest).2.2
  have hdrop : (ProgressStream.keys (stream.drop k)) = stream.keys.drop k := List.map_drop
  have hdisjoint := List.disjoint_take_drop hrun.keys (le_refl k)
  obtain ⟨after, hafter, hstages⟩ := ProgressStream.follow_stages hloaded.progress
    (fun a ha => by
      rw [hdrop]
      exact hdisjoint (hloaded.activity a ha))
    (by
      rw [hdrop]
      exact hrun.keys.sublist (List.drop_sublist ..))
  refine ⟨after, hafter, fun s => ?_⟩
  rw [hstages, List.map_drop, buildProgress_running, buildProgress_running,
    htally events fun e he => he, htally (events.take k) fun e he => hmem e (.inl he)]
  have hnotes : (tally topology [] items batchSize).notes topology events =
      ((tally topology [] items batchSize).notes topology (events.take k)).notes topology
        (events.drop k) := by
    rw [Tally.notes, Tally.notes, Tally.notes, ← List.foldl_append, hsplit]
  rw [hnotes]
  exact hfollow s

/-- The production of one of two clips starts and ends on a page that was loaded
before. -/
theorem live_progress_follows_one_clip :
    SameProgress ⟨["ltx"], by decide, by decide⟩
      [(some "1",
          { type := .progressEvent, node := "process_item", stageId := "production",
            status := "started", itemId := "a", operationId := "call" }),
        (some "2",
          { type := .progressEvent, node := "process_item", stageId := "production",
            status := "completed", itemId := "a", operationId := "call" })] [] (some 2)
      (ProgressStream.follow
        [(some "1",
            { type := .progressEvent, node := "process_item", stageId := "production",
              status := "started", itemId := "a", operationId := "call" }),
          (some "2",
            { type := .progressEvent, node := "process_item", stageId := "production",
              status := "completed", itemId := "a", operationId := "call" })]
        { progress := some
            (buildProgress ⟨["ltx"], by decide, by decide⟩ [] (some .running) [] (some 2)) }) := by
  refine live_progress_follows _ _ _ _ 0 _ ⟨by decide +kernel, ⟨fun e he => ?_, by decide +kernel⟩,
    by decide +kernel⟩ ?_ ⟨rfl, fun _ ha => by cases ha⟩
  · obtain rfl | rfl : e = _ ∨ e = _ := by simpa using he
    · exact Or.inl ⟨.production, rfl, rfl, .inl rfl, fun _ => .inr (by decide)⟩
    · exact Or.inl ⟨.production, rfl, rfl, .inr rfl, fun _ => .inr (by decide)⟩
  · have hfirst : (tally ⟨["ltx"], by decide, by decide⟩ [] [] (some 2)).InStep .production
        { type := .progressEvent, node := "process_item", stageId := "production",
          status := "started", itemId := "a", operationId := "call" } :=
      ⟨⟨by decide +kernel, by decide +kernel⟩, fun _ hparent => (by cases hparent),
        fun _ => ⟨.talkingHead, by decide, by decide +kernel⟩⟩
    refine .cons rfl hfirst (.cons rfl (s := .production) ?_ .nil)
    exact ⟨.inr rfl, ⟨("call", .production, some "a"), by decide +kernel, rfl, rfl,
      by decide +kernel⟩, List.not_mem_nil, .inl (.inr (by decide +kernel)),
      fun _ => ⟨fun _ => .inr (by decide +kernel), by decide +kernel⟩⟩

end Orchestrator
