import Mathlib.Data.List.Induction
import Orchestrator.Db.JobTransitions

/-!
The gate table over whole runs: a settled gate never changes again, a gate
belongs to a run that exists, and the versions of the gates of one run and type
count up from one in the order in which they were opened.
-/

namespace Orchestrator

namespace JobsCall
variable {tenant : TenantContext} {c : JobsCall} {s : JobStore}

theorem apply_error {exc : JobsError} (h : (c.apply tenant s).1 = .error exc) :
    (c.apply tenant s).2 = s := by
  unfold apply at h ⊢
  split
  · rename_i heq
    rw [heq] at h
    cases h
  · rfl

theorem GateStep.pending {gate gate' : RunGateModel} (h : GateStep c gate gate') :
    gate.status = .pending := by
  cases h <;> assumption

/-- The columns that identify a gate never change. -/
theorem GateStep.same {gate gate' : RunGateModel} (h : GateStep c gate gate') :
    gate'.gateId = gate.gateId ∧ gate'.runId = gate.runId ∧ gate'.gateType = gate.gateType ∧
      gate'.version = gate.version := by
  cases h <;> exact ⟨rfl, rfl, rfl, rfl⟩

theorem GateStep.resolve_id {now : Timestamp} {gateId : Uuid} {version : Int}
    {resolution : Json} {gate gate' : RunGateModel}
    (h : GateStep ⟨now, .resolveGate gateId version resolution⟩ gate gate') :
    gate.gateId = gateId := by
  cases h
  rfl

theorem GateStep.settles {gate gate' : RunGateModel} (h : GateStep c gate gate') :
    gate'.status ≠ .pending := by
  cases h <;> nofun

theorem gate?_apply_of_settled {id : Uuid} {gate : RunGateModel} (h : s.gate? id = some gate)
    (hsettled : gate.status ≠ .pending) : (c.apply tenant s).2.gate? id = some gate := by
  obtain ⟨gate', hgate', rfl | hstep⟩ := (apply_changes tenant c s).gates.find?_forward h
  · exact hgate'
  · exact absurd hstep.pending hsettled

/-- What settled a gate is final in every run that follows. -/
theorem gate?_run_of_settled (calls : List JobsCall) {id : Uuid} {gate : RunGateModel}
    (h : s.gate? id = some gate) (hsettled : gate.status ≠ .pending) :
    (Machine.run (JobsCall.apply tenant) s calls).gate? id = some gate := by
  induction calls generalizing s with
  | nil => exact h
  | cons c calls ih => exact ih (gate?_apply_of_settled h hsettled)

end JobsCall

/-- The gates of one run and type carry the versions 1, 2, ..., n in the order
in which they were opened. -/
def VersionsCount (s : JobStore) : Prop :=
  ∀ runId gateType, ∃ n, (s.gatesOf runId gateType).map (·.version) = List.range' 1 n

theorem foldl_max_range' (n : Nat) : (List.range' 1 n).foldl max 0 = n := by
  induction n with
  | zero => rfl
  | succ n ih =>
      rw [List.range'_1_concat, List.foldl_append, ih, List.foldl_cons, List.foldl_nil]
      omega

theorem VersionsCount.apply {tenant : TenantContext} {c : JobsCall} {s : JobStore}
    (h : VersionsCount s) : VersionsCount (c.apply tenant s).2 := by
  intro runId gateType
  obtain ⟨n, hn⟩ := h runId gateType
  rcases (JobsCall.apply_changes tenant c s).gates.filter_rows (g := (·.version))
      (p := fun gate => gate.runId = runId && gate.gateType = gateType)
      (fun gate gate' hstep => by
        obtain ⟨-, hrun, htype, hversion⟩ := hstep.same
        exact ⟨by rw [hrun, htype], hversion⟩) with heq | ⟨gate, hnew, -, heq⟩
  · exact ⟨n, heq.trans hn⟩
  · split at heq
    · -- the new gate is of this run and type, so it takes the next version
      rename_i hof
      cases hnew with
      | @opened now runId' gateType' payload run hrun =>
          obtain ⟨rfl, rfl⟩ : runId' = runId ∧ gateType' = gateType := by
            simpa [PostgresJobRepository.newGate] using hof
          refine ⟨n + 1, heq.trans ?_⟩
          have hnext : s.nextGateVersion runId' gateType' = n + 1 := by
            rw [JobStore.nextGateVersion, hn, foldl_max_range']
          rw [List.range'_1_concat, ← hn, Nat.add_comm 1 n, ← hnext]
          rfl
    · exact ⟨n, (heq.trans (List.append_nil _)).trans hn⟩

/-- Every gate belongs to a run that exists. -/
def GatesRefer (s : JobStore) : Prop :=
  ∀ gate ∈ s.gates.rows, ∃ run, s.run? gate.runId = some run

theorem GatesRefer.apply {tenant : TenantContext} {c : JobsCall} {s : JobStore}
    (h : GatesRefer s) : GatesRefer (c.apply tenant s).2 := by
  have hchanges := JobsCall.apply_changes tenant c s
  have hkept {runId : String} (hrun : ∃ run, s.run? runId = some run) :
      ∃ run, (c.apply tenant s).2.run? runId = some run := by
    obtain ⟨run, hrun⟩ := hrun
    obtain ⟨run', hrun', -⟩ := hchanges.runs.find?_forward hrun
    exact ⟨run', hrun'⟩
  intro gate' hgate'
  rcases hchanges.gates.find?_backward (KeyedTable.find?_of_mem hgate') with
    ⟨-, hnew⟩ | ⟨gate, hgate, rfl | hstep⟩
  · cases hnew with
    | opened hrun => exact hkept ⟨_, hrun⟩
  · exact hkept (h _ (KeyedTable.find?_mem hgate))
  · rw [hstep.same.2.1]
    exact hkept (h _ (KeyedTable.find?_mem hgate))

section Run
variable (tenant : TenantContext) (calls : List JobsCall)

theorem versionsCount_run : VersionsCount (Machine.run (JobsCall.apply tenant) .empty calls) :=
  Machine.run_invariant (JobsCall.apply tenant) (fun _ _ hs => hs.apply) (fun _ _ => ⟨0, rfl⟩)
    calls

end Run

end Orchestrator
