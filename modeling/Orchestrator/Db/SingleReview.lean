import Mathlib.Data.List.Pairwise
import Orchestrator.Db.Gates

/-!
One open review per run.

`open_gate` does not look at the gates that are already pending, of its own or
of another type. A run keeps a single open review, and only its newest gate can
be resolved, exactly as long as no gate is opened beside a pending one.
-/

namespace Orchestrator

/-- `gate'` was opened after `gate`. -/
def OpenedAfter (s : JobStore) (gate gate' : RunGateModel) : Prop :=
  List.Sublist [gate, gate'] s.gates.rows

/-- A review that was opened later, or with a later version of the same type. -/
def SupersededBy (s : JobStore) (gate gate' : RunGateModel) : Prop :=
  gate' ∈ s.gates.rows ∧ gate'.runId = gate.runId ∧
    (OpenedAfter s gate gate' ∨
      gate'.gateType = gate.gateType ∧ gate.version < gate'.version)

/-- One pending gate per run at most, and a decision is only ever taken at a
gate that no other one supersedes. -/
structure SingleReview (tenant : TenantContext) (s : JobStore) : Prop where
  pending_le : ∀ runId, (s.pendingGates runId).length ≤ 1
  not_superseded : ∀ now gateId (version : Int) resolution job s',
    PostgresJobRepository.resolveGate tenant gateId version resolution now s = .ok (job, s') →
      ∀ gate gate', s.gate? gateId = some gate → ¬ SupersededBy s gate gate'

/-- A gate is opened only while no gate of its run is pending. -/
def OpensAlone (tenant : TenantContext) (s : JobStore) (c : JobsCall) : Prop :=
  match c.op with
  | .openGate runId gateType payload =>
      s.gate? (PostgresJobRepository.newGate tenant runId gateType
        (s.nextGateVersion runId gateType) payload).gateId = none → s.pendingGates runId = []
  | _ => True

/-- Nothing of the same run was opened after a pending gate. -/
def PendingLast (s : JobStore) : Prop :=
  s.gates.rows.Pairwise fun gate gate' => gate.status = .pending → gate'.runId ≠ gate.runId

section Order

theorem sublist_pair_total {α : Type} {l : List α} {a b : α} (ha : a ∈ l) (hb : b ∈ l)
    (hne : a ≠ b) : List.Sublist [a, b] l ∨ List.Sublist [b, a] l := by
  have hpairs : l.Pairwise fun a b => List.Sublist [a, b] l ∨ List.Sublist [b, a] l :=
    List.pairwise_iff_forall_sublist.mpr fun h => Or.inl h
  have : Std.Symm fun a b => List.Sublist [a, b] l ∨ List.Sublist [b, a] l :=
    ⟨fun _ _ h => h.symm⟩
  exact hpairs.forall ha hb hne

theorem length_le_one_of_pairwise {α : Type} {l : List α} (h : l.Pairwise fun _ _ => False) :
    l.length ≤ 1 := by
  match l with
  | [] | [_] => simp
  | a :: b :: l => exact (List.rel_of_pairwise_cons h List.mem_cons_self).elim

variable {s : JobStore} {gate gate' : RunGateModel}

/-- Of two gates of one run and type the one opened later has the later version. -/
theorem VersionsCount.version_lt (h : VersionsCount s) (hafter : OpenedAfter s gate gate')
    (hrun : gate'.runId = gate.runId) (htype : gate'.gateType = gate.gateType) :
    gate.version < gate'.version := by
  obtain ⟨n, hn⟩ := h gate.runId gate.gateType
  have hlt : ((s.gatesOf gate.runId gate.gateType).map (·.version)).Pairwise (· < ·) :=
    hn ▸ List.pairwise_lt_range'
  rw [List.pairwise_map, JobStore.gatesOf, List.pairwise_filter] at hlt
  exact List.pairwise_iff_forall_sublist.mp hlt hafter (by simp) (by simp [hrun, htype])

theorem PendingLast.pending_le (h : PendingLast s) (runId : String) :
    (s.pendingGates runId).length ≤ 1 := by
  have hlast : (s.pendingGates runId).Pairwise
      fun gate gate' => gate.status = .pending → gate'.runId ≠ gate.runId :=
    List.Pairwise.filter _ h
  refine length_le_one_of_pairwise (hlast.imp_of_mem fun hmem hmem' hlast => ?_)
  simp only [JobStore.pendingGates, List.mem_filter, Bool.and_eq_true,
    decide_eq_true_eq] at hmem hmem'
  exact hlast hmem.2.2 (hmem'.2.1.trans hmem.2.1.symm)

theorem PendingLast.not_superseded (h : PendingLast s) (hversions : VersionsCount s)
    (hgate : gate ∈ s.gates.rows) (hpending : gate.status = .pending) :
    ¬ SupersededBy s gate gate' := by
  rintro ⟨hgate', hrun, hlater⟩
  have hlast (hafter : OpenedAfter s gate gate') : False :=
    List.pairwise_iff_forall_sublist.mp h hafter hpending hrun
  rcases hlater with hafter | ⟨htype, hversion⟩
  · exact hlast hafter
  · have hne : gate ≠ gate' := fun heq => by simp [heq] at hversion
    rcases sublist_pair_total hgate hgate' hne with hafter | hbefore
    · exact hlast hafter
    · exact absurd (hversions.version_lt hbefore hrun.symm htype.symm) (by omega)

end Order

structure Reviewable (s : JobStore) : Prop where
  refer : GatesRefer s
  versions : VersionsCount s
  last : PendingLast s

theorem Reviewable.empty : Reviewable .empty := ⟨nofun, fun _ _ => ⟨0, rfl⟩, .nil⟩

section Step
variable {tenant : TenantContext} {c : JobsCall} {s : JobStore}

theorem Reviewable.singleReview (h : Reviewable s) : SingleReview tenant s where
  pending_le := h.last.pending_le
  not_superseded := by
    intro now gateId version resolution job s' hok gate gate' hgate
    obtain ⟨found, run, jobs, hfound, hversion, hpending, -⟩ :=
      PostgresJobRepository.resolveGate_ok hok
    obtain rfl := Option.some.inj (hfound.symm.trans hgate)
    exact h.last.not_superseded h.versions (KeyedTable.find?_mem hfound) hpending

/-- A gate opened beside no pending gate of its run comes after none. -/
theorem PendingLast.apply (h : PendingLast s) (hopens : OpensAlone tenant s c) :
    PendingLast (c.apply tenant s).2 := by
  refine (JobsCall.apply_changes tenant c s).gates.pairwise_rows ?_ ?_ h
  · intro gate hnew hfresh gate₀ hgate₀ hpending hrun
    cases hnew with
    | @opened now runId gateType payload run _ =>
        have hnone : s.pendingGates runId = [] := hopens hfresh
        refine List.filter_eq_nil_iff.mp hnone gate₀ hgate₀ ?_
        simp only [hpending, decide_true, Bool.and_true, decide_eq_true_eq]
        exact hrun.symm
  · intro gate gate₁ gate' gate₁' hlast hgate hgate' hpending
    -- a step settles the gate it moves, and no step moves a gate to another run
    have hkept : gate₁ = gate := hgate.resolve_right fun hstep => hstep.settles hpending
    have hrun : gate₁'.runId = gate'.runId := by
      rcases hgate' with rfl | hstep
      · rfl
      · exact hstep.same.2.1
    rw [hrun, hkept]
    exact hlast (hkept ▸ hpending)

theorem Reviewable.apply (h : Reviewable s) (hopens : OpensAlone tenant s c) :
    Reviewable (c.apply tenant s).2 :=
  ⟨h.refer.apply, h.versions.apply, h.last.apply hopens⟩

/-- Opening a gate beside a pending one leaves two open reviews. -/
theorem opensAlone_of_singleReview (h : Reviewable s)
    (hafter : SingleReview tenant (c.apply tenant s).2) : OpensAlone tenant s c := by
  obtain ⟨now, op⟩ := c
  cases op with
  | openGate runId gateType payload =>
      intro hfresh
      by_contra hne
      obtain ⟨gate, hgate⟩ := List.exists_mem_of_ne_nil _ hne
      simp only [JobStore.pendingGates, List.mem_filter, Bool.and_eq_true,
        decide_eq_true_eq] at hgate
      obtain ⟨run, hrun⟩ := h.refer gate hgate.1
      rw [hgate.2.1] at hrun
      obtain ⟨opened, s', hok, -, hrows⟩ :=
        PostgresJobRepository.openGate_of_fresh now hrun hfresh
      have happly := JobsCall.apply_of_ok tenant ⟨now, .openGate runId gateType payload⟩ s
        (congrArg (JobsCall.replying .gate) hok)
      have hle := hafter.pending_le runId
      have hopened : (s.pendingGates runId).length + 1 ≤ 1 := by
        simpa [happly, JobStore.pendingGates, hrows, PostgresJobRepository.newGate] using hle
      exact hne (List.length_eq_zero_iff.mp (by omega))
  | _ => trivial

end Step

/-- Each run has a single open review all along, and only its newest gate is
ever resolved, exactly when every gate is opened while none is pending. -/
theorem singleReview_iff_opensAlone (tenant : TenantContext) (calls : List JobsCall) :
    Machine.Guarded (JobsCall.apply tenant) (OpensAlone tenant) .empty calls ↔
      ∀ pre post, calls = pre ++ post →
        SingleReview tenant (Machine.run (JobsCall.apply tenant) .empty pre) :=
  Machine.guarded_iff_prefixes (JobsCall.apply tenant)
    (fun s (h : Reviewable s) => (h.singleReview : SingleReview tenant s))
    (fun _ _ h hopens => h.apply hopens)
    (fun _ _ h hafter => opensAlone_of_singleReview h hafter) Reviewable.empty

/-- The worker that opened the gate dies before it completes the job, and the
next one opens the gate of the same interrupt again. -/
def reopenedReview : List JobsCall :=
  [⟨0, .enqueueRun "run-1" "offer" "tiktok" 1 (.obj []) 5⟩,
    ⟨0, .claim "runner-http" 1 []⟩,
    ⟨seconds 10, .openGate "run-1" "review_creative_plan" []⟩,
    ⟨seconds 130, .claim "runner-http" 1 []⟩,
    ⟨seconds 140, .openGate "run-1" "review_creative_plan" []⟩]

/-- Both gates are pending: the run has two open reviews. -/
theorem two_open_reviews :
    ¬ ∀ (tenant : TenantContext) (calls : List JobsCall),
      SingleReview tenant (Machine.run (JobsCall.apply tenant) .empty calls) := by
  intro h
  have hle := (h sampleTenant reopenedReview).pending_le "run-1"
  revert hle
  decide +kernel

end Orchestrator
