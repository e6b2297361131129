import Orchestrator.Db.Gates
import Orchestrator.Worker.Execution

/-!
Which interrupt a human decision reaches.

A resume job carries the decision but not the interrupt it answers: the graph
takes it for whatever interrupt its thread waits at. That is the interrupt of
the gate as long as no execution drives a run beside another one, no resume job
is executed again after it drove the graph to an interrupt, and no run is
started over while it has gates.
-/

namespace Orchestrator

/-- Every decision was handed to the interrupt its gate was opened for, and a
node finished with it once at most. -/
structure OwnInterrupts (r : Runner) : Prop where
  one_origin : (r.origins.map Prod.fst).Nodup
  to_own : ∀ d ∈ r.deliveries, d ∈ r.origins
  applied_delivered : ∀ a ∈ r.applied, a ∈ r.deliveries
  applied_once : (r.applied.map Prod.fst).Nodup

/-- Nobody drives the run. -/
def Idle (r : Runner) (runId : String) : Prop :=
  ∀ e ∈ r.executions, e.job.runId = runId → ¬ e.stage.active

/-- The run is idle and, for a first job, without gates; a resume job has not led
to an interrupt yet. -/
def MayDrive (r : Runner) (e : JobExecution) : Prop :=
  Idle r e.job.runId ∧
    (e.job.kind = .executeRun → ∀ gate ∈ r.store.gates.rows, gate.runId ≠ e.job.runId) ∧
    (e.job.kind = .resumeRun →
      ∀ e' ∈ r.executions, e'.job.jobId = e.job.jobId → ¬ e'.stopped)

/-- An execution begins to drive the graph only when it may. -/
def DrivesInOrder (r : Runner) (c : RunnerCall) : Prop :=
  match c.op with
  | .invoke i => ∀ e ∈ r.executions[i]?, e.stage = .claimed → MayDrive r e
  | _ => True

instance (r : Runner) (runId : String) : Decidable (Idle r runId) :=
  inferInstanceAs (Decidable (∀ e ∈ r.executions, _))

instance (r : Runner) (e : JobExecution) : Decidable (MayDrive r e) :=
  inferInstanceAs (Decidable (_ ∧ _ ∧ _))

instance (r : Runner) : (c : RunnerCall) → Decidable (DrivesInOrder r c)
  | ⟨_, .invoke i⟩ => inferInstanceAs (Decidable (∀ e ∈ r.executions[i]?, _))
  | ⟨_, .claim ..⟩ | ⟨_, .nodeEnds _⟩ | ⟨_, .nodeStops ..⟩ | ⟨_, .graphEnds _⟩
  | ⟨_, .inspect _⟩ | ⟨_, .save ..⟩ | ⟨_, .openGate _⟩ | ⟨_, .complete _⟩ | ⟨_, .fail ..⟩
  | ⟨_, .renew _⟩ | ⟨_, .raise _⟩ | ⟨_, .die _⟩ | ⟨_, .other _⟩ => isTrue trivial

/-- The gate with that id belongs to the run. -/
def JobStore.HasGate (s : JobStore) (gateId : Uuid) (runId : String) : Prop :=
  ∃ gate, s.gate? gateId = some gate ∧ gate.runId = runId

/-- A resume job belongs to the run of its gate and is the only job of the gate. -/
def Resumes (tenant : TenantContext) (s : JobStore) (job : Job) : Prop :=
  job.kind = .resumeRun → ∃ gate, s.gate? job.gateId = some gate ∧ gate.runId = job.runId ∧
    job.jobId = PostgresJobRepository.resumeJobId tenant gate

section Store
variable {tenant : TenantContext} {c : JobsCall} {s : JobStore}

theorem gate?_apply {id : Uuid} {gate : RunGateModel} (h : s.gate? id = some gate) :
    ∃ gate', (c.apply tenant s).2.gate? id = some gate' ∧ gate'.gateId = gate.gateId ∧
      gate'.runId = gate.runId ∧ gate'.version = gate.version := by
  obtain ⟨gate', hgate', rfl | hstep⟩ := (JobsCall.apply_changes tenant c s).gates.find?_forward h
  · exact ⟨gate', hgate', rfl, rfl, rfl⟩
  · exact ⟨gate', hgate', hstep.same.1, hstep.same.2.1, hstep.same.2.2.2⟩

theorem hasGate_apply {id : Uuid} {runId : String} (h : s.HasGate id runId) :
    (c.apply tenant s).2.HasGate id runId := by
  obtain ⟨gate, hgate, hrun⟩ := h
  obtain ⟨gate', hgate', -, hrun', -⟩ := gate?_apply hgate
  exact ⟨gate', hgate', hrun'.trans hrun⟩

/-- Only `open_gate` makes gates. -/
theorem hasGate_of_apply
    (hop : ∀ runId gateType payload, c.op ≠ .openGate runId gateType payload) {id : Uuid}
    {runId : String} (h : (c.apply tenant s).2.HasGate id runId) : s.HasGate id runId := by
  obtain ⟨gate', hgate', hrun'⟩ := h
  rcases (JobsCall.apply_changes tenant c s).gates.find?_backward hgate' with
    ⟨-, hnew⟩ | ⟨gate, hgate, rfl | hstep⟩
  · cases hnew
    exact absurd rfl (hop _ _ _)
  · exact ⟨gate', hgate, hrun'⟩
  · exact ⟨gate, hgate, hstep.same.2.1.symm.trans hrun'⟩

theorem Resumes.apply {job : Job} (h : Resumes tenant s job) :
    Resumes tenant (c.apply tenant s).2 job := by
  intro hkind
  obtain ⟨gate, hgate, hrun, hid⟩ := h hkind
  obtain ⟨gate', hgate', hsame, hrun', hversion⟩ := gate?_apply hgate
  refine ⟨gate', hgate', hrun'.trans hrun, hid.trans ?_⟩
  simp only [PostgresJobRepository.resumeJobId, hsame, hrun', hversion]

theorem Resumes.of_eq {job job' : Job} (h : Resumes tenant s job) (hid : job'.jobId = job.jobId)
    (hrun : job'.runId = job.runId) (hkind : job'.kind = job.kind)
    (hpayload : job'.payload = job.payload) : Resumes tenant s job' := by
  have hgate : job'.gateId = job.gateId := by simp only [Job.gateId, hpayload]
  intro hresume
  rw [hid, hrun, hgate]
  exact h (hkind.symm.trans hresume)

theorem gateId_resumeRunJob (tenant : TenantContext) (gate : RunGateModel)
    (resolution run : Json) (now : Timestamp) :
    (PostgresJobRepository.resumeRunJob tenant gate
      (PostgresJobRepository.resumePayload gate resolution run) now).gateId = gate.gateId := by
  simp [Job.gateId, Json.get?, PostgresJobRepository.resumeRunJob,
    PostgresJobRepository.resumePayload]

/-- The resume job of a gate is made when the gate is there. -/
theorem resumes_apply (h : ∀ row ∈ s.jobs.rows, Resumes tenant s row.toJob) :
    ∀ row ∈ (c.apply tenant s).2.jobs.rows,
      Resumes tenant (c.apply tenant s).2 row.toJob := by
  refine (JobsCall.apply_changes tenant c s).jobs.forall_rows ?_ ?_ fun row hrow =>
    (h row hrow).apply
  · intro row hnew
    cases hnew with
    | executeRun hmax => nofun
    | @resumeRun now gateId version resolution run gate hgate hversion hpending =>
        obtain rfl : gate.key = gateId := KeyedTable.find?_key hgate
        have hresumes : Resumes tenant s
            (PostgresJobRepository.resumeRunJob tenant gate
              (PostgresJobRepository.resumePayload gate resolution run) now).toJob :=
          fun _ => ⟨gate, gateId_resumeRunJob tenant gate .. ▸ hgate, rfl, rfl⟩
        exact hresumes.apply
  · intro row row' hrow hstep
    refine hrow.of_eq ?_ ?_ ?_ ?_ <;> cases hstep <;> rfl

end Store

namespace Runner

/-- A resume job of the gate drove the graph to an interrupt. -/
def Reached (r : Runner) (gateId : Uuid) : Prop :=
  ∃ e ∈ r.executions, e.job.kind = .resumeRun ∧ e.job.gateId = gateId ∧ e.stopped

/-- Every gate of the run was reached, up to the one the execution resumes. -/
def OthersReached (r : Runner) (e : JobExecution) : Prop :=
  ∀ gateId, r.store.HasGate gateId e.job.runId →
    r.Reached gateId ∨ e.job.kind = .resumeRun ∧ e.job.gateId = gateId

/-- Where an active execution stands with respect to its thread. -/
def Placed (r : Runner) (e : JobExecution) : Prop :=
  match e.stage with
  | .driving checkpoint answering =>
      r.checkpointer.head e.job.runId = some checkpoint ∧
        (answering → (e.job.gateId, checkpoint) ∈ r.deliveries)
  | .returned => e.stopped ∨ r.checkpointer.pending? e.job.runId = none
  | .inspected (some (checkpoint, _)) | .opening checkpoint _ =>
      e.stopped ∧ r.checkpointer.head e.job.runId = some checkpoint
  | _ => True

end Runner

/-- One execution at a time drives a run, every gate but the latest has led to a
further interrupt, and the thread of the run waits at the interrupt of the
latest gate or at none. -/
structure Orderly (tenant : TenantContext) (r : Runner) : Prop where
  numbered : r.checkpointer.Numbered
  rows : ∀ row ∈ r.store.jobs.rows, Resumes tenant r.store row.toJob
  jobs : ∀ e ∈ r.executions, Resumes tenant r.store e.job
  opened : ∀ o ∈ r.origins, (∃ runId, r.store.HasGate o.1 runId) ∧ o.2 < r.checkpointer.next
  one_origin : (r.origins.map Prod.fst).Nodup
  alone : ∀ (i j : Nat) (e e' : JobExecution),
    r.executions[i]? = some e → r.executions[j]? = some e' →
    e.stage.active → e'.stage.active → e.job.runId = e'.job.runId → i = j
  placed : ∀ e ∈ r.executions, e.stage.active → r.Placed e ∧ r.OthersReached e
  waiting : ∀ gateId runId, r.store.HasGate gateId runId →
    r.Reached gateId ∨ (∃ checkpoint, (gateId, checkpoint) ∈ r.origins ∧
      r.checkpointer.head runId = some checkpoint) ∨ r.checkpointer.pending? runId = none
  last : ∀ gateId gateId' runId, r.store.HasGate gateId runId → r.store.HasGate gateId' runId →
    gateId ≠ gateId' → r.Reached gateId ∨ r.Reached gateId'
  to_own : ∀ d ∈ r.deliveries, d ∈ r.origins
  applied_delivered : ∀ a ∈ r.applied, a ∈ r.deliveries
  applied_once : (r.applied.map Prod.fst).Nodup
  passed : ∀ a ∈ r.applied, ∀ runId, r.checkpointer.head runId ≠ some a.2

namespace Orderly
variable {tenant : TenantContext} {r : Runner} {i : Nat} {e : JobExecution}

theorem empty : Orderly tenant .empty where
  numbered := .empty
  rows _ hrow := absurd hrow List.not_mem_nil
  jobs _ he := absurd he List.not_mem_nil
  opened _ ho := absurd ho List.not_mem_nil
  one_origin := .nil
  alone _ _ _ _ he := absurd he (by simp [Runner.empty])
  placed _ he := absurd he List.not_mem_nil
  waiting := by
    rintro gateId runId ⟨gate, hgate, -⟩
    exact absurd (KeyedTable.find?_mem hgate) List.not_mem_nil
  last := by
    rintro gateId gateId' runId ⟨gate, hgate, -⟩
    exact absurd (KeyedTable.find?_mem hgate) List.not_mem_nil
  to_own _ hd := absurd hd List.not_mem_nil
  applied_delivered _ ha := absurd ha List.not_mem_nil
  applied_once := .nil
  passed _ ha := absurd ha List.not_mem_nil

theorem ownInterrupts (h : Orderly tenant r) : OwnInterrupts r :=
  ⟨h.one_origin, h.to_own, h.applied_delivered, h.applied_once⟩

/-- What an execution knows survives what happens to other runs. -/
theorem frame {r' : Runner} (hplaced : r.Placed e ∧ r.OthersReached e)
    (hhead : r'.checkpointer.head e.job.runId = r.checkpointer.head e.job.runId)
    (hpending : r'.checkpointer.pending? e.job.runId = r.checkpointer.pending? e.job.runId)
    (hdeliveries : ∀ d ∈ r.deliveries, d ∈ r'.deliveries)
    (hgates : ∀ gateId, r'.store.HasGate gateId e.job.runId → r.store.HasGate gateId e.job.runId)
    (hreached : ∀ gateId, r.Reached gateId → r'.Reached gateId) :
    r'.Placed e ∧ r'.OthersReached e := by
  obtain ⟨hplaced, hothers⟩ := hplaced
  constructor
  · unfold Runner.Placed at hplaced ⊢
    rw [hhead, hpending]
    split at hplaced
    · exact ⟨hplaced.1, fun ha => hdeliveries _ (hplaced.2 ha)⟩
    · exact hplaced
    · exact hplaced
    · exact hplaced
    · trivial
  · intro gateId hgate
    exact (hothers gateId (hgates gateId hgate)).imp_left (hreached gateId)

section Call

/-- A repository call that opens no gate. -/
theorem call (h : Orderly tenant r) (now : Timestamp) (op : JobsOp)
    (hop : ∀ runId gateType payload, op ≠ .openGate runId gateType payload) :
    Orderly tenant (r.call tenant now op).2 where
  numbered := h.numbered
  rows := resumes_apply h.rows
  jobs e he := (h.jobs e he).apply
  opened o ho := by
    obtain ⟨⟨runId, hgate⟩, hlt⟩ := h.opened o ho
    exact ⟨⟨runId, hasGate_apply hgate⟩, hlt⟩
  one_origin := h.one_origin
  alone := h.alone
  placed e he hactive :=
    frame (h.placed e he hactive) rfl rfl (fun _ hd => hd)
      (fun gateId hgate => hasGate_of_apply hop hgate) fun _ hreached => hreached
  waiting gateId runId hgate := h.waiting gateId runId (hasGate_of_apply hop hgate)
  last gateId gateId' runId hgate hgate' :=
    h.last gateId gateId' runId (hasGate_of_apply hop hgate) (hasGate_of_apply hop hgate')
  to_own := h.to_own
  applied_delivered := h.applied_delivered
  applied_once := h.applied_once
  passed := h.passed

end Call

section Executions
variable {e' : JobExecution}

theorem reached_set (hi : r.executions[i]? = some e) (hjob : e'.job = e.job)
    (hstopped : e.stopped → e'.stopped) {gateId : Uuid} (h : r.Reached gateId) :
    Runner.Reached { r with executions := r.executions.set i e' } gateId := by
  obtain ⟨x, hx, hkind, hgate, hstop⟩ := h
  obtain ⟨j, hj⟩ := List.mem_iff_getElem?.mp hx
  by_cases hij : i = j
  · subst hij
    obtain rfl := Option.some.inj (hi.symm.trans hj)
    have hmem : e' ∈ r.executions.set i e' :=
      List.mem_set (List.getElem?_eq_some_iff.mp hi).1 e'
    exact ⟨e', hmem, hjob ▸ hkind, hjob ▸ hgate, hstopped hstop⟩
  · have hmem : x ∈ r.executions.set i e' :=
      List.mem_of_getElem? ((List.getElem?_set_ne hij).trans hj)
    exact ⟨x, hmem, hkind, hgate, hstop⟩

/-- An execution moves on; it becomes active only alone and where it belongs. -/
theorem set (h : Orderly tenant r) (hi : r.executions[i]? = some e) (e' : JobExecution)
    (hjob : e'.job = e.job)
    (hstopped : e.stopped → e'.stopped)
    (halone : e'.stage.active → ∀ j e'', r.executions[j]? = some e'' → e''.stage.active →
      e''.job.runId = e.job.runId → j = i)
    (hplaced : e'.stage.active → r.Placed e' ∧ r.OthersReached e') :
    Orderly tenant { r with executions := r.executions.set i e' } := by
  have hreached (gateId : Uuid) (h : r.Reached gateId) :
      Runner.Reached { r with executions := r.executions.set i e' } gateId :=
    reached_set hi hjob hstopped h
  have hmem {x : JobExecution} (hx : x ∈ r.executions.set i e') : x ∈ r.executions ∨ x = e' :=
    List.mem_or_eq_of_mem_set hx
  refine { h with jobs := ?_, alone := ?_, placed := ?_, waiting := ?_, last := ?_ }
  · intro x hx
    rcases hmem hx with hx | rfl
    · exact h.jobs x hx
    · exact hjob ▸ h.jobs e (List.mem_of_getElem? hi)
  · intro j k x y hx hy hxa hya hrun
    by_cases hj : i = j <;> by_cases hk : i = k
    · exact hj.symm.trans hk
    · subst hj
      rw [List.getElem?_set_self (List.getElem?_eq_some_iff.mp hi).1] at hx
      obtain rfl := Option.some.inj hx
      rw [List.getElem?_set_ne hk] at hy
      exact (halone hxa k y hy hya (hrun.symm.trans (congrArg Job.runId hjob))).symm
    · subst hk
      rw [List.getElem?_set_self (List.getElem?_eq_some_iff.mp hi).1] at hy
      obtain rfl := Option.some.inj hy
      rw [List.getElem?_set_ne hj] at hx
      exact halone hya j x hx hxa (hrun.trans (congrArg Job.runId hjob))
    · rw [List.getElem?_set_ne hj] at hx
      rw [List.getElem?_set_ne hk] at hy
      exact h.alone j k x y hx hy hxa hya hrun
  · intro x hx hactive
    rcases hmem hx with hx | rfl
    · exact frame (h.placed x hx hactive) rfl rfl (fun _ hd => hd) (fun _ hg => hg) hreached
    · exact frame (hplaced hactive) rfl rfl (fun _ hd => hd) (fun _ hg => hg) hreached
  · exact fun gateId runId hgate => (h.waiting gateId runId hgate).imp_left (hreached gateId)
  · exact fun gateId gateId' runId hgate hgate' hne =>
      (h.last gateId gateId' runId hgate hgate' hne).imp (hreached gateId) (hreached gateId')

/-- New executions begin inactive. -/
theorem begin (h : Orderly tenant r) {es : List JobExecution}
    (hes : ∀ e ∈ es, e.stage = .claimed ∧ Resumes tenant r.store e.job) :
    Orderly tenant { r with executions := r.executions ++ es } := by
  have hreached (gateId : Uuid) (h : r.Reached gateId) :
      Runner.Reached { r with executions := r.executions ++ es } gateId := by
    obtain ⟨x, hx, hgate⟩ := h
    exact ⟨x, List.mem_append_left es hx, hgate⟩
  have hold {j : Nat} {x : JobExecution} (hx : (r.executions ++ es)[j]? = some x)
      (hactive : x.stage.active) : r.executions[j]? = some x := by
    rcases lt_or_ge j r.executions.length with hlt | hge
    · rwa [List.getElem?_append_left hlt] at hx
    · rw [List.getElem?_append_right hge] at hx
      have hclaimed := (hes x (List.mem_of_getElem? hx)).1
      simp [hclaimed, Stage.active] at hactive
  refine { h with jobs := ?_, alone := ?_, placed := ?_, waiting := ?_, last := ?_ }
  · intro x hx
    rcases List.mem_append.mp hx with hx | hx
    · exact h.jobs x hx
    · exact (hes x hx).2
  · exact fun j k x y hx hy hxa hya => h.alone j k x y (hold hx hxa) (hold hy hya) hxa hya
  · intro x hx hactive
    obtain ⟨j, hj⟩ := List.mem_iff_getElem?.mp hx
    exact frame (h.placed x (List.mem_of_getElem? (hold hj hactive)) hactive) rfl rfl
      (fun _ hd => hd) (fun _ hg => hg) hreached
  · exact fun gateId runId hgate => (h.waiting gateId runId hgate).imp_left (hreached gateId)
  · exact fun gateId gateId' runId hgate hgate' hne =>
      (h.last gateId gateId' runId hgate hgate' hne).imp (hreached gateId) (hreached gateId')

end Executions

section Checkpoints
variable {runId : String}

theorem pending?_put_self (h : r.checkpointer.Numbered) :
    (r.checkpointer.put runId).pending? runId = none := by
  simp [Checkpointer.pending?, h.fresh _ le_rfl]

theorem pending?_put_of_ne {runId' : String} (h : runId' ≠ runId) :
    (r.checkpointer.put runId).pending? runId' = r.checkpointer.pending? runId' := by
  simp [Checkpointer.pending?, Checkpointer.put_head_of_ne h]

/-- The thread of an idle run goes on to a checkpoint that is no interrupt yet. -/
theorem put (h : Orderly tenant r) (hidle : Idle r runId) :
    Orderly tenant { r with checkpointer := r.checkpointer.put runId } := by
  refine { h with numbered := h.numbered.put, opened := ?_, placed := ?_, waiting := ?_,
                  passed := ?_ }
  · intro o ho
    exact ⟨(h.opened o ho).1, Nat.lt_succ_of_lt (h.opened o ho).2⟩
  · intro x hx hactive
    have hne : x.job.runId ≠ runId := fun hrun => hidle x hx hrun hactive
    exact frame (h.placed x hx hactive) (Checkpointer.put_head_of_ne hne)
      (pending?_put_of_ne hne) (fun _ hd => hd) (fun _ hg => hg) fun _ hreached => hreached
  · intro gateId runId' hgate
    by_cases hrun : runId' = runId
    · subst hrun
      exact Or.inr (Or.inr (pending?_put_self h.numbered))
    · simp only [Checkpointer.put_head_of_ne hrun, pending?_put_of_ne hrun]
      exact h.waiting gateId runId' hgate
  · intro a ha runId' hhead
    have hold := h.opened a (h.to_own a (h.applied_delivered a ha))
    by_cases hrun : runId' = runId
    · subst hrun
      exact absurd hold.2 (by simp [← Option.some.inj
        (Checkpointer.put_head_self.symm.trans hhead)])
    · exact h.passed a ha runId' ((Checkpointer.put_head_of_ne hrun).symm.trans hhead)

/-- The thread of an idle run all of whose gates were reached stops. -/
theorem stop (h : Orderly tenant r) {checkpoint : Nat} (payload : List (String × Json))
    (hhead : r.checkpointer.head runId = some checkpoint) (hidle : Idle r runId)
    (hreached : ∀ gateId, r.store.HasGate gateId runId → r.Reached gateId) :
    Orderly tenant { r with checkpointer := r.checkpointer.stop checkpoint payload } := by
  have hpending {runId' : String} (hne : runId' ≠ runId) :
      (r.checkpointer.stop checkpoint payload).pending? runId' =
        r.checkpointer.pending? runId' := by
    unfold Checkpointer.pending?
    rw [Checkpointer.stop_head]
    cases hhead' : r.checkpointer.head runId' with
    | none => rfl
    | some c =>
        have hc : c ≠ checkpoint := by
          rintro rfl
          exact hne (h.numbered.head_inj _ _ _ hhead' hhead)
        simp [Checkpointer.stop_interrupts_of_ne hc]
  refine { h with numbered := h.numbered.stop (h.numbered.head_lt _ _ hhead), opened := ?_,
                  placed := ?_, waiting := ?_, passed := ?_ }
  · intro o ho
    exact ⟨(h.opened o ho).1, by simpa using (h.opened o ho).2⟩
  · intro x hx hactive
    have hne : x.job.runId ≠ runId := fun hrun => hidle x hx hrun hactive
    exact frame (h.placed x hx hactive) (by simp) (hpending hne) (fun _ hd => hd)
      (fun _ hg => hg) fun _ hreached => hreached
  · intro gateId runId' hgate
    by_cases hrun : runId' = runId
    · subst hrun
      exact Or.inl (hreached gateId hgate)
    · simp only [Checkpointer.stop_head, hpending hrun]
      exact h.waiting gateId runId' hgate
  · intro a ha runId'
    simpa using h.passed a ha runId'

end Checkpoints

section Decisions

theorem deliver (h : Orderly tenant r) {d : Uuid × Nat} (hd : d ∈ r.origins) :
    Orderly tenant { r with deliveries := r.deliveries ++ [d] } := by
  refine { h with placed := ?_, to_own := ?_, applied_delivered := ?_ }
  · intro x hx hactive
    exact frame (h.placed x hx hactive) rfl rfl (fun _ hd => List.mem_append_left _ hd)
      (fun _ hg => hg) fun _ hreached => hreached
  · intro d' hd'
    rcases List.mem_append.mp hd' with hd' | hd'
    · exact h.to_own d' hd'
    · exact List.mem_singleton.mp hd' ▸ hd
  · exact fun a ha => List.mem_append_left _ (h.applied_delivered a ha)

theorem applied (h : Orderly tenant r) {a : Uuid × Nat} (ha : a ∈ r.deliveries)
    (hnew : a.1 ∉ r.applied.map Prod.fst)
    (hpassed : ∀ runId, r.checkpointer.head runId ≠ some a.2) :
    Orderly tenant { r with applied := r.applied ++ [a] } := by
  refine { h with applied_delivered := ?_, applied_once := ?_, passed := ?_ }
  · intro a' ha'
    rcases List.mem_append.mp ha' with ha' | ha'
    · exact h.applied_delivered a' ha'
    · exact List.mem_singleton.mp ha' ▸ ha
  · rw [List.map_append, List.map_singleton, ← List.concat_eq_append]
    exact h.applied_once.concat hnew
  · intro a' ha'
    rcases List.mem_append.mp ha' with ha' | ha'
    · exact h.passed a' ha'
    · exact List.mem_singleton.mp ha' ▸ hpassed

end Decisions

section Steps
variable {e' : JobExecution}

/-- An execution may stop, fail or complete at any time. -/
theorem retire (h : Orderly tenant r) (hi : r.executions[i]? = some e) (stage : Stage)
    (hstage : ¬ stage.active) : Orderly tenant (r.advance i e stage) :=
  h.set hi _ rfl id (fun hactive => absurd hactive hstage) (fun hactive => absurd hactive hstage)

/-- Without the execution that drives it a run is idle. -/
theorem idle_set (h : Orderly tenant r) (hi : r.executions[i]? = some e) (e' : JobExecution)
    (hactive : e.stage.active) (hrest : ¬ e'.stage.active) :
    Idle { r with executions := r.executions.set i e' } e.job.runId := by
  intro x hx hrun hxactive
  obtain ⟨j, hj⟩ := List.mem_iff_getElem?.mp hx
  by_cases hij : i = j
  · subst hij
    rw [List.getElem?_set_self (List.getElem?_eq_some_iff.mp hi).1] at hj
    obtain rfl := Option.some.inj hj
    exact hrest hxactive
  · rw [List.getElem?_set_ne hij] at hj
    exact hij (h.alone i j e x hi hj hactive hxactive hrun.symm)

/-- The execution that was put aside goes on with its idle run. -/
theorem resume (h : Orderly tenant r) (e e' : JobExecution) {es : List JobExecution}
    (hes : r.executions = es.set i e) (hlt : i < es.length) (hjob : e'.job = e.job)
    (hstopped : e.stopped → e'.stopped) (hidle : Idle r e.job.runId)
    (hplaced : r.Placed e' ∧ r.OthersReached e') :
    Orderly tenant { r with executions := es.set i e' } := by
  have hget : r.executions[i]? = some e := by rw [hes, List.getElem?_set_self hlt]
  have hset := h.set hget e' hjob hstopped
    (fun _ j x hj hactive hrun => absurd hactive (hidle x (List.mem_of_getElem? hj) hrun))
    fun _ => hplaced
  rwa [hes, List.set_set] at hset

theorem othersReached_set (hi : r.executions[i]? = some e) (e' : JobExecution)
    (hjob : e'.job = e.job)
    (hstopped : e.stopped → e'.stopped) (h : r.OthersReached e) :
    Runner.OthersReached { r with executions := r.executions.set i e' } e' := by
  intro gateId hgate
  rw [hjob] at hgate ⊢
  exact (h gateId hgate).imp_left (reached_set hi hjob hstopped)

/-- All gates of the run of an execution that stopped were reached. -/
theorem reached_of_stopped (he : e ∈ r.executions) (hstopped : e.stopped)
    (hothers : r.OthersReached e) (gateId : Uuid) (hgate : r.store.HasGate gateId e.job.runId) :
    r.Reached gateId := by
  rcases hothers gateId hgate with hreached | ⟨hkind, rfl⟩
  · exact hreached
  · exact ⟨e, he, hkind, rfl, hstopped⟩

theorem nodeEnds (h : Orderly tenant r) (hi : r.executions[i]? = some e) :
    Orderly tenant (r.nodeEnds i e) := by
  have he := List.mem_of_getElem? hi
  have hlt := (List.getElem?_eq_some_iff.mp hi).1
  unfold Runner.nodeEnds
  split
  · rename_i checkpoint hstage
    have hactive : e.stage.active := by rw [hstage]; rfl
    obtain ⟨hplaced, hothers⟩ := h.placed e he hactive
    simp only [Runner.Placed, hstage] at hplaced
    obtain ⟨hhead, hdelivered⟩ := hplaced
    have hdelivered := hdelivered trivial
    have hnew : e.job.gateId ∉ r.applied.map Prod.fst := by
      intro hmem
      obtain ⟨a, ha, hgate⟩ := List.mem_map.mp hmem
      have horigin := h.to_own a (h.applied_delivered a ha)
      have heq : a = (e.job.gateId, checkpoint) :=
        List.inj_on_of_nodup_map h.one_origin horigin (h.to_own _ hdelivered) hgate
      exact h.passed a ha e.job.runId (by rw [hhead, heq])
    have hpassed : ∀ runId, (r.checkpointer.put e.job.runId).head runId ≠ some checkpoint := by
      intro runId hrun
      by_cases hne : runId = e.job.runId
      · subst hne
        have hlt := h.numbered.head_lt _ _ hhead
        exact absurd (Option.some.inj (Checkpointer.put_head_self.symm.trans hrun)) (by omega)
      · rw [Checkpointer.put_head_of_ne hne] at hrun
        exact hne (h.numbered.head_inj _ _ _ hrun hhead)
    have hidle := h.idle_set hi { e with stage := .ended } hactive nofun
    have hput := (h.retire hi .ended nofun).put hidle
    have hdone := hput.applied (a := (e.job.gateId, checkpoint)) hdelivered hnew hpassed
    exact hdone.resume _ { e with stage := .driving r.checkpointer.next false } rfl hlt rfl id
      hidle ⟨⟨Checkpointer.put_head_self, nofun⟩,
        othersReached_set hi { e with stage := .ended } rfl id hothers⟩
  · rename_i checkpoint hstage
    have hactive : e.stage.active := by rw [hstage]; rfl
    split
    · exact h
    · have hidle := h.idle_set hi { e with stage := .ended } hactive nofun
      have hput := (h.retire hi .ended nofun).put hidle
      exact hput.resume _ { e with stage := .driving r.checkpointer.next false } rfl hlt rfl id
        hidle ⟨⟨Checkpointer.put_head_self, nofun⟩,
          othersReached_set hi { e with stage := .ended } rfl id
            (h.placed e he hactive).2⟩
  · exact h

theorem nodeStops (h : Orderly tenant r) (hi : r.executions[i]? = some e)
    (payload : List (String × Json)) : Orderly tenant (r.nodeStops i e payload) := by
  have he := List.mem_of_getElem? hi
  have hlt := (List.getElem?_eq_some_iff.mp hi).1
  unfold Runner.nodeStops
  split
  · rename_i checkpoint hstage
    have hactive : e.stage.active := by rw [hstage]; rfl
    obtain ⟨hplaced, hothers⟩ := h.placed e he hactive
    simp only [Runner.Placed, hstage] at hplaced
    let e₁ : JobExecution := { e with stage := .ended, stopped := true }
    have haside : Orderly tenant { r with executions := r.executions.set i e₁ } :=
      h.set hi _ rfl (fun _ => rfl) nofun nofun
    have hidle := h.idle_set hi e₁ hactive nofun
    have hothers₁ := othersReached_set hi e₁ rfl (fun _ => rfl) hothers
    have hstop := haside.stop payload hplaced.1 hidle
      (reached_of_stopped (e := e₁) (List.mem_set hlt e₁) rfl hothers₁)
    exact hstop.resume e₁ { e with stage := .returned, stopped := true } rfl hlt rfl
      (fun _ => rfl) hidle ⟨Or.inl rfl, hothers₁⟩
  · exact h

theorem graphEnds (h : Orderly tenant r) (hi : r.executions[i]? = some e) :
    Orderly tenant (r.graphEnds i e) := by
  have he := List.mem_of_getElem? hi
  unfold Runner.graphEnds
  split
  · rename_i checkpoint hstage
    have hactive : e.stage.active := by rw [hstage]; rfl
    obtain ⟨hplaced, hothers⟩ := h.placed e he hactive
    simp only [Runner.Placed, hstage] at hplaced
    split
    · exact h
    · rename_i hnone
      have hpending : r.checkpointer.pending? e.job.runId = none := by
        simpa [Checkpointer.pending?, hplaced.1] using hnone
      exact h.set hi _ rfl id (fun _ j x hj hxactive hrun =>
        h.alone j i x e hj hi hxactive hactive hrun)
        fun _ => ⟨Or.inr hpending, hothers⟩
  · exact h

theorem inspect (h : Orderly tenant r) (hi : r.executions[i]? = some e) :
    Orderly tenant (r.inspect i e) := by
  have he := List.mem_of_getElem? hi
  unfold Runner.inspect
  split
  · rename_i hstage
    have hactive : e.stage.active := by rw [hstage]; rfl
    obtain ⟨hplaced, hothers⟩ := h.placed e he hactive
    simp only [Runner.Placed, hstage] at hplaced
    refine h.set hi _ rfl id (fun _ j x hj hxactive hrun =>
      h.alone j i x e hj hi hxactive hactive hrun)
      fun _ => ⟨?_, hothers⟩
    cases hpending : r.checkpointer.pending? e.job.runId with
    | none => trivial
    | some p =>
        have hstopped := hplaced.resolve_right (by simp [hpending])
        exact ⟨hstopped, (Checkpointer.pending?_eq_some_iff.mp hpending).1⟩
  · exact h

theorem raise (h : Orderly tenant r) (hi : r.executions[i]? = some e) :
    Orderly tenant (r.raise i e) := by
  unfold Runner.raise
  split
  · exact h.retire hi _ nofun
  · exact h.retire hi _ nofun
  · exact h.retire hi _ nofun
  · exact h.retire hi _ nofun
  · exact h.retire hi _ nofun
  · exact h
  · exact h
  · exact h

theorem invoke (h : Orderly tenant r) (hi : r.executions[i]? = some e)
    (hguard : e.stage = .claimed → MayDrive r e) :
    Orderly tenant (r.invoke i e) := by
  have he := List.mem_of_getElem? hi
  have hlt := (List.getElem?_eq_some_iff.mp hi).1
  unfold Runner.invoke
  split
  · rename_i hstage hkind
    obtain ⟨hidle, hnone, -⟩ := hguard hstage
    have hothers : r.OthersReached e := by
      rintro gateId ⟨gate, hgate, hrun⟩
      exact absurd hrun (hnone hkind gate (KeyedTable.find?_mem hgate))
    exact (h.put hidle).set hi _ rfl id
      (fun _ j x hj hactive hrun => absurd hactive (hidle x (List.mem_of_getElem? hj) hrun))
      fun _ => ⟨⟨Checkpointer.put_head_self, nofun⟩, hothers⟩
  · rename_i hstage hkind
    obtain ⟨hidle, -, hfirst⟩ := hguard hstage
    have halone : ∀ j x, r.executions[j]? = some x → x.stage.active →
        x.job.runId = e.job.runId → j = i :=
      fun j x hj hactive hrun => absurd hactive (hidle x (List.mem_of_getElem? hj) hrun)
    obtain ⟨gate, hgate, hrun, hid⟩ := h.jobs e he hkind
    have hown : r.store.HasGate e.job.gateId e.job.runId := ⟨gate, hgate, hrun⟩
    -- an execution of the same gate is one of the same job
    have hnot : ¬ r.Reached e.job.gateId := by
      rintro ⟨x, hx, hxkind, hxgate, hstopped⟩
      obtain ⟨gate', hgate', -, hid'⟩ := h.jobs x hx hxkind
      obtain rfl := Option.some.inj ((hxgate ▸ hgate').symm.trans hgate)
      exact hfirst hkind x hx (hid'.trans hid.symm) hstopped
    have hothers : r.OthersReached e := by
      intro gateId hother
      by_cases hne : e.job.gateId = gateId
      · exact Or.inr ⟨hkind, hne⟩
      · exact Or.inl ((h.last _ _ _ hown hother hne).resolve_left hnot)
    split
    · exact h.retire hi _ nofun
    · rename_i checkpoint hhead
      split
      · rename_i hanswer
        have horigin : (e.job.gateId, checkpoint) ∈ r.origins := by
          rcases h.waiting _ _ hown with hreached | ⟨c, hc, hhead'⟩ | hpending
          · exact absurd hreached hnot
          · rwa [Option.some.inj (hhead.symm.trans hhead')]
          · have hnone : r.checkpointer.interrupts checkpoint = none := by
              simpa [Checkpointer.pending?, hhead] using hpending
            simp [hnone] at hanswer
        exact (h.deliver horigin).set hi _ rfl id (fun _ => halone)
          fun _ => ⟨⟨hhead, fun _ => List.mem_append_right _ (List.mem_singleton.mpr rfl)⟩,
            hothers⟩
      · exact h.set hi _ rfl id (fun _ => halone) fun _ => ⟨⟨hhead, nofun⟩, hothers⟩
  · exact h

end Steps

section Tables
variable {now : Timestamp}

theorem claim (h : Orderly tenant r) (workerId : String) (locked : List Uuid) :
    Orderly tenant (r.claim tenant now workerId locked) := by
  have hcall := h.call now (.claim workerId 1 locked) nofun
  unfold Runner.claim
  simp only
  split
  · rename_i jobs hreply
    refine hcall.begin fun e he => ?_
    obtain ⟨job, hjob, rfl⟩ := List.mem_map.mp he
    have hjobs : ((PostgresJobRepository.claimCandidates 1 locked now r.store).map
        (JobModel.claimed workerId now)).map (·.toJob) = jobs := by
      cases hreply
      rfl
    rw [← hjobs, List.map_map] at hjob
    obtain ⟨row, hrow, rfl⟩ := List.mem_map.mp hjob
    have hclaimed := KeyedTable.find?_mem
      (JobsCall.job?_claim tenant workerId locked hrow)
    exact ⟨rfl, hcall.rows _ hclaimed⟩
  · exact hcall

theorem finish (h : Orderly tenant r) (hi : r.executions[i]? = some e) (due : Stage)
    (call : LeaseCall) : Orderly tenant (r.finish tenant now i e due call) := by
  unfold Runner.finish
  split
  · exact (h.call now (.lease e.job.jobId e.workerId call) nofun).retire hi _ nofun
  · exact h

theorem renew (h : Orderly tenant r) (hi : r.executions[i]? = some e) :
    Orderly tenant (r.renew tenant now i e) := by
  unfold Runner.renew
  split
  · exact h
  · have hcall := h.call now (.lease e.job.jobId e.workerId .renew) nofun
    simp only
    split
    · exact hcall.retire hi _ nofun
    · exact hcall

theorem save (h : Orderly tenant r) (hi : r.executions[i]? = some e) (state summary : Json)
    (items : List Json) : Orderly tenant (r.save tenant now i e state summary items) := by
  have he := List.mem_of_getElem? hi
  unfold Runner.save
  split
  · rename_i interrupt hstage
    have hcall := h.call now (.saveRun e.job.runId
      (if interrupt.isSome then "running" else "done") state summary items none none) nofun
    simp only
    split
    · exact hcall.retire hi _ nofun
    · rename_i checkpoint payload
      have hactive : e.stage.active := by rw [hstage]; rfl
      obtain ⟨hplaced, hothers⟩ := hcall.placed e he hactive
      simp only [Runner.Placed, hstage] at hplaced
      exact hcall.set hi _ rfl id
        (fun _ j x hj hxactive hrun => hcall.alone j i x e hj hi hxactive hactive hrun)
        fun _ => ⟨hplaced, hothers⟩
    · exact hcall.retire hi _ nofun
  · exact h

theorem call_openGate (tenant : TenantContext) (now : Timestamp) (r : Runner)
    (runId gateType : String) (payload : List (String × Json)) :
    (∃ gate, (r.call tenant now (.openGate runId gateType payload)).1 = .ok (.gate gate) ∧
      PostgresJobRepository.openGate tenant runId gateType payload now r.store =
        .ok (gate, (r.call tenant now (.openGate runId gateType payload)).2.store)) ∨
      (∃ exc, (r.call tenant now (.openGate runId gateType payload)).1 = .error exc) ∧
        (r.call tenant now (.openGate runId gateType payload)).2 = r := by
  cases hopen : PostgresJobRepository.openGate tenant runId gateType payload now r.store with
  | ok opened =>
      obtain ⟨gate, s'⟩ := opened
      have happly := JobsCall.apply_of_ok tenant ⟨now, .openGate runId gateType payload⟩ r.store
        (congrArg (JobsCall.replying .gate) hopen)
      exact Or.inl ⟨gate, congrArg Prod.fst happly,
        congrArg (fun s => Except.ok (gate, s)) (congrArg Prod.snd happly).symm⟩
  | error exc =>
      have htransact := congrArg (JobsCall.replying .gate) hopen
      have happly : JobsCall.apply tenant ⟨now, .openGate runId gateType payload⟩ r.store =
          (.error exc, r.store) := by
        simp only [JobsCall.apply, JobsCall.transact, hopen, JobsCall.replying]
      exact Or.inr ⟨⟨exc, congrArg Prod.fst happly⟩,
        congrArg (fun s => { r with store := s }) (congrArg Prod.snd happly)⟩

theorem hasGate_opened {s s' : JobStore} {runId gateType : String} {gate : RunGate}
    {payload : List (String × Json)}
    (hopen : PostgresJobRepository.openGate tenant runId gateType payload now s = .ok (gate, s')) :
    s.gate? gate.gateId = none ∧ s'.HasGate gate.gateId runId ∧
      ∀ id runId', s'.HasGate id runId' →
        id = gate.gateId ∧ runId' = runId ∨ s.HasGate id runId' := by
  obtain ⟨rfl, run, gates, hrun, hgates, rfl⟩ := PostgresJobRepository.openGate_ok hopen
  refine ⟨(KeyedTable.insert?_eq_some_iff.mp hgates).1,
    ⟨_, (KeyedTable.find?_insert hgates _).trans (if_pos rfl), rfl⟩, ?_⟩
  · rintro id runId' ⟨gate', hgate', rfl⟩
    have hfind := (KeyedTable.find?_insert hgates id).symm.trans hgate'
    split at hfind
    · rename_i hid
      obtain rfl := Option.some.inj hfind
      exact Or.inl ⟨hid.symm, rfl⟩
    · exact Or.inr ⟨gate', hfind, rfl⟩

/-- A new gate is the only one of its run that was not reached. -/
theorem openedGate (h : Orderly tenant r) {s' : JobStore} {runId gateType : String}
    {gate : RunGate} {payload : List (String × Json)} {checkpoint : Nat}
    (hopen : PostgresJobRepository.openGate tenant runId gateType payload now r.store =
      .ok (gate, s'))
    (hhead : r.checkpointer.head runId = some checkpoint) (hidle : Idle r runId)
    (hreached : ∀ gateId, r.store.HasGate gateId runId → r.Reached gateId) :
    Orderly tenant
      { r with store := s', origins := r.origins ++ [(gate.gateId, checkpoint)] } := by
  obtain ⟨hfresh, hnew, hback⟩ := hasGate_opened hopen
  have hs : (JobsCall.apply tenant ⟨now, .openGate runId gateType payload⟩ r.store).2 = s' :=
    congrArg Prod.snd (JobsCall.apply_of_ok tenant ⟨now, .openGate runId gateType payload⟩ r.store
      (congrArg (JobsCall.replying .gate) hopen))
  refine { h with rows := ?_, jobs := ?_, opened := ?_, one_origin := ?_, placed := ?_,
                  waiting := ?_, last := ?_, to_own := ?_ }
  · exact hs ▸ resumes_apply h.rows
  · exact fun x hx => hs ▸ (h.jobs x hx).apply
  · intro o ho
    rcases List.mem_append.mp ho with ho | ho
    · obtain ⟨⟨runId', hgate⟩, hlt⟩ := h.opened o ho
      exact ⟨⟨runId', hs ▸ hasGate_apply hgate⟩, hlt⟩
    · obtain rfl := List.mem_singleton.mp ho
      exact ⟨⟨runId, hnew⟩, h.numbered.head_lt _ _ hhead⟩
  · rw [List.map_append, List.map_singleton, ← List.concat_eq_append]
    refine h.one_origin.concat fun hmem => ?_
    obtain ⟨o, ho, hid⟩ := List.mem_map.mp hmem
    obtain ⟨⟨runId', gate', hgate', -⟩, -⟩ := h.opened o ho
    exact Option.some_ne_none gate' (hgate'.symm.trans ((congrArg r.store.gate? hid).trans hfresh))
  · intro x hx hactive
    have hne : x.job.runId ≠ runId := fun hrun => hidle x hx hrun hactive
    exact frame (h.placed x hx hactive) rfl rfl (fun _ hd => hd)
      (fun gateId hgate => (hback gateId _ hgate).resolve_left fun hown => hne hown.2)
      fun _ hreached => hreached
  · intro gateId runId' hgate
    rcases hback gateId runId' hgate with ⟨rfl, rfl⟩ | hold
    · exact Or.inr (Or.inl ⟨checkpoint,
        List.mem_append_right _ (List.mem_singleton.mpr rfl), hhead⟩)
    · refine (h.waiting gateId runId' hold).imp_right (Or.imp_left ?_)
      rintro ⟨c, hc, hhead'⟩
      exact ⟨c, List.mem_append_left _ hc, hhead'⟩
  · intro gateId gateId' runId' hgate hgate' hne
    rcases hback gateId runId' hgate with ⟨rfl, rfl⟩ | hold <;>
      rcases hback gateId' runId' hgate' with ⟨rfl, hrun⟩ | hold'
    · exact absurd rfl hne
    · exact Or.inr (hreached gateId' hold')
    · exact Or.inl (hreached gateId (hrun ▸ hold))
    · exact h.last gateId gateId' runId' hold hold' hne
  · exact fun d hd => List.mem_append_left _ (h.to_own d hd)

theorem openGate (h : Orderly tenant r) (hi : r.executions[i]? = some e)
    (publicPayload : List (String × Json) → List (String × Json)) :
    Orderly tenant (r.openGate tenant now publicPayload i e) := by
  have he := List.mem_of_getElem? hi
  have hlt := (List.getElem?_eq_some_iff.mp hi).1
  unfold Runner.openGate
  split
  · rename_i checkpoint payload hstage
    have hactive : e.stage.active := by rw [hstage]; rfl
    obtain ⟨hplaced, hothers⟩ := h.placed e he hactive
    simp only [Runner.Placed, hstage] at hplaced
    simp only
    rcases call_openGate tenant now r e.job.runId (gateType payload)
      (publicPayload payload) with ⟨gate, hreply, hopen⟩ | ⟨⟨exc, hreply⟩, hsame⟩
    · rw [hreply]
      let e₁ : JobExecution := { e with stage := .completing }
      have haside : Orderly tenant { r with executions := r.executions.set i e₁ } :=
        h.set hi _ rfl id nofun nofun
      have hothers₁ := othersReached_set hi e₁ rfl id hothers
      exact haside.openedGate hopen hplaced.2 (h.idle_set hi e₁ hactive nofun)
        (reached_of_stopped (e := e₁) (List.mem_set hlt e₁) hplaced.1 hothers₁)
    · rw [hreply, hsame]
      exact h.retire hi _ nofun
  · exact h

end Tables

theorem withExecution (h : Orderly tenant r) {f : JobExecution → Runner}
    (hf : ∀ e, r.executions[i]? = some e → Orderly tenant (f e)) :
    Orderly tenant (r.withExecution i f) := by
  unfold Runner.withExecution
  split
  · rename_i e hi
    exact hf e hi
  · exact h

theorem apply {publicPayload : List (String × Json) → List (String × Json)} {c : RunnerCall}
    (h : Orderly tenant r) (hguard : DrivesInOrder r c) :
    Orderly tenant (c.apply tenant publicPayload r).2 := by
  obtain ⟨now, op⟩ := c
  cases op with
  | claim workerId locked => exact h.claim workerId locked
  | invoke i =>
      exact h.withExecution fun e hi => h.invoke hi fun hstage => hguard e hi hstage
  | nodeEnds i => exact h.withExecution fun e hi => h.nodeEnds hi
  | nodeStops i payload => exact h.withExecution fun e hi => h.nodeStops hi payload
  | graphEnds i => exact h.withExecution fun e hi => h.graphEnds hi
  | inspect i => exact h.withExecution fun e hi => h.inspect hi
  | save i state summary items =>
      exact h.withExecution fun e hi => h.save hi state summary items
  | openGate i => exact h.withExecution fun e hi => h.openGate hi publicPayload
  | complete i => exact h.withExecution fun e hi => h.finish hi .completing .complete
  | fail i error errorType retryable =>
      exact h.withExecution fun e hi => h.finish hi .failing (.fail error errorType retryable)
  | renew i => exact h.withExecution fun e hi => h.renew hi
  | raise i => exact h.withExecution fun e hi => h.raise hi
  | die i => exact h.withExecution fun e hi => h.retire hi _ nofun
  | other op =>
      refine h.call now op.val fun runId gateType payload hop => ?_
      have houtside := op.property
      simp [hop, JobsOp.outside] at houtside

end Orderly

/-- Whatever crashes and is executed again: as long as the graph is driven in
order, every decision reaches the interrupt its gate was opened for and no other
one, and is applied at most once. -/
theorem decisions_reach_own_interrupt (tenant : TenantContext)
    (publicPayload : List (String × Json) → List (String × Json)) (calls : List RunnerCall)
    (hguard : Machine.Guarded (RunnerCall.apply tenant publicPayload) DrivesInOrder .empty calls)
    (pre post : List RunnerCall) (hcalls : calls = pre ++ post) :
    OwnInterrupts (Machine.run (RunnerCall.apply tenant publicPayload) .empty pre) := by
  subst hcalls
  have hpre := ((Machine.guarded_append (RunnerCall.apply tenant publicPayload)).mp hguard).1
  exact (Machine.run_invariant_of_guarded (RunnerCall.apply tenant publicPayload)
    (fun r c (h : Orderly tenant r) hstep => h.apply hstep) Orderly.empty hpre).ownInterrupts

/-- A run up to its first review, the decision about it, and the first steps of
the worker that takes it up. -/
def resumedRun : List RunnerCall :=
  [⟨0, .other ⟨.enqueueRun "run-1" "offer" "tiktok" 1 (.obj []) 5, rfl⟩⟩,
    ⟨0, .claim "runner-1" []⟩, ⟨0, .invoke 0⟩,
    ⟨0, .nodeStops 0 [("type", .str "review_creative_plan")]⟩, ⟨0, .inspect 0⟩,
    ⟨0, .save 0 (.obj []) (.obj []) []⟩, ⟨0, .openGate 0⟩, ⟨0, .complete 0⟩,
    ⟨seconds 60, .other ⟨.resolveGate "8eec9612-78b0-5d3c-9c39-9709b65b8285" 1
      (.obj [("action", .str "regenerate")]), rfl⟩⟩,
    ⟨seconds 60, .claim "runner-1" []⟩, ⟨seconds 60, .invoke 1⟩, ⟨seconds 60, .nodeEnds 1⟩]

/-- That worker dies between two nodes, and the next one takes over. -/
def takenOver : List RunnerCall :=
  resumedRun ++ [⟨seconds 60, .die 1⟩, ⟨seconds 180, .claim "runner-2" []⟩,
    ⟨seconds 180, .invoke 2⟩, ⟨seconds 180, .nodeEnds 2⟩]

theorem takenOver_own_interrupts :
    OwnInterrupts (Machine.run (RunnerCall.apply sampleTenant id) .empty takenOver) :=
  decisions_reach_own_interrupt sampleTenant id takenOver (by decide +kernel) takenOver []
    (List.append_nil _).symm

/-- That worker reaches the next review and dies; the next one hands it the
decision about the first. -/
def redelivered : List RunnerCall :=
  resumedRun ++ [⟨seconds 60, .nodeStops 1 [("type", .str "review_creative_plan")]⟩,
    ⟨seconds 60, .die 1⟩, ⟨seconds 180, .claim "runner-2" []⟩, ⟨seconds 180, .invoke 2⟩]

/-- The decision about the first review answers the second one. -/
theorem decision_answers_later_review :
    ¬ ∀ (tenant : TenantContext) (publicPayload : List (String × Json) → List (String × Json))
      (calls : List RunnerCall),
      OwnInterrupts (Machine.run (RunnerCall.apply tenant publicPayload) .empty calls) := by
  intro h
  have hown := (h sampleTenant id redelivered).to_own
  revert hown
  decide +kernel

end Orchestrator
