import Orchestrator.Db.BoundedAttempts

/-!
Fencing of the workers that execute a durable job.

`complete`, `renew` and `fail` recognise their caller by its worker id and the
time of the lease, not by the claim it made. The services run all their workers
under one id, so an execution that lost its lease is taken for the one that
claimed the job after it. The fence holds exactly as long as no job is claimed
twice under the same worker id.
-/

namespace Orchestrator

namespace JobsOp

/-- A call that no worker makes for a job it claimed. -/
def foreign : JobsOp → Bool
  | .claim .. | .lease .. => false
  | _ => true

end JobsOp

namespace LeaseCall

/-- The call hands the job back, done or failed. -/
def finishes : LeaseCall → Bool
  | .renew => false
  | .complete | .fail .. => true

end LeaseCall

/-- A claim of a job and the id its worker goes by. -/
structure JobClaim where
  jobId : Uuid
  workerId : String
  deriving DecidableEq

/-- The tables, every claim made so far and the claims that were finished; the
claims of a job are numbered from zero. -/
structure Workers where
  store : JobStore
  claims : List JobClaim
  finished : List (Uuid × Nat)
  deriving DecidableEq

/-- What happens next: somebody claims jobs, the execution that made the claim
number `k` of a job calls for it, or another caller uses the tables. -/
inductive WorkersOp where
  | claim (workerId : String) (limit : Nat) (locked : List Uuid)
  | lease (jobId : Uuid) (k : Nat) (call : LeaseCall)
  | other (op : { op : JobsOp // op.foreign })

structure WorkersCall where
  now : Timestamp
  op : WorkersOp

namespace Workers

def empty : Workers := ⟨.empty, [], []⟩

/-- The ids of the workers that claimed the job, in order. -/
def claimants (w : Workers) (jobId : Uuid) : List String :=
  (w.claims.filter (fun claim => claim.jobId = jobId)).map (·.workerId)

/-- Nobody has claimed the job after its claim number `k`. -/
def Latest (w : Workers) (jobId : Uuid) (k : Nat) : Prop := k + 1 = (w.claimants jobId).length

/-- The call, made now by the execution of claim number `k`, is not rejected. -/
def TakesEffect (tenant : TenantContext) (w : Workers) (now : Timestamp) (jobId : Uuid)
    (k : Nat) (call : LeaseCall) : Prop :=
  ∃ workerId, (w.claimants jobId)[k]? = some workerId ∧ ∃ reply s',
    JobsCall.transact tenant ⟨now, .lease jobId workerId call⟩ w.store = .ok (reply, s')

end Workers

/-- The claims that a claim query made. -/
def claimsMade (op : JobsOp) (reply : Except JobsError JobsReply) : List JobClaim :=
  match op, reply with
  | .claim workerId _ _, .ok (.jobs jobs) => jobs.map fun job => ⟨job.jobId, workerId⟩
  | _, _ => []

namespace WorkersCall

/-- The repository call that is made. -/
def jobsOp? (c : WorkersCall) (w : Workers) : Option JobsOp :=
  match c.op with
  | .claim workerId limit locked => some (.claim workerId limit locked)
  | .lease jobId k call =>
      (w.claimants jobId)[k]?.map fun workerId => .lease jobId workerId call
  | .other op => some op.val

def finishedBy (c : WorkersCall) (reply : Except JobsError JobsReply) : List (Uuid × Nat) :=
  match c.op, reply with
  | .lease jobId k call, .ok _ => if call.finishes then [(jobId, k)] else []
  | _, _ => []

def apply (tenant : TenantContext) (c : WorkersCall) (w : Workers) :
    Option (Except JobsError JobsReply) × Workers :=
  match c.jobsOp? w with
  | none => (none, w)
  | some op =>
      let call := JobsCall.apply tenant ⟨c.now, op⟩ w.store
      (some call.1,
        { store := call.2
          claims := w.claims ++ claimsMade op call.1
          finished := w.finished ++ c.finishedBy call.1 })

end WorkersCall

/-- Only the execution of the latest claim can change the job, only under its
unexpired lease, and each claim was finished at most once. -/
structure Fenced (tenant : TenantContext) (w : Workers) : Prop where
  latest : ∀ now jobId k call, w.TakesEffect tenant now jobId k call → w.Latest jobId k
  unexpired : ∀ now jobId k call, w.TakesEffect tenant now jobId k call →
    ∃ row, w.store.job? jobId = some row ∧ row.leaseExpiresAt.any (now < ·)
  alone : ∀ now now' jobId k k' call call', w.TakesEffect tenant now jobId k call →
    w.TakesEffect tenant now' jobId k' call' → k = k'
  finished_once : w.finished.Nodup

/-- Nobody claims a job again under an id that claimed it before. -/
def DistinctClaimants (w : Workers) (c : WorkersCall) : Prop :=
  match c.op with
  | .claim workerId limit locked =>
      ∀ row ∈ PostgresJobRepository.claimCandidates limit locked c.now w.store,
        workerId ∉ w.claimants row.jobId
  | _ => True

section Effect
variable {tenant : TenantContext} {w : Workers} {now : Timestamp} {id : Uuid} {k : Nat}
  {call : LeaseCall}

/-- The three methods share their guard. -/
theorem lease_ok_iff {workerId : String} {s : JobStore} :
    (∃ reply s', JobsCall.transact tenant ⟨now, .lease id workerId call⟩ s = .ok (reply, s')) ↔
      ∃ row, s.leasedJob? id workerId now = some row := by
  cases hrow : s.leasedJob? id workerId now with
  | none =>
      cases call <;>
        simp [JobsCall.transact, PostgresJobRepository.complete, PostgresJobRepository.renew,
          PostgresJobRepository.fail, JobsCall.replying, hrow]
  | some row =>
      cases call <;>
        simp [JobsCall.transact, PostgresJobRepository.complete, PostgresJobRepository.renew,
          PostgresJobRepository.fail, JobsCall.replying, hrow]

theorem Workers.takesEffect_iff :
    w.TakesEffect tenant now id k call ↔ ∃ workerId row,
      (w.claimants id)[k]? = some workerId ∧
        w.store.leasedJob? id workerId now = some row := by
  simp only [TakesEffect, lease_ok_iff, exists_and_left]

end Effect

section Claimants
variable {tenant : TenantContext} {s : JobStore} {c : JobsCall} {id : Uuid}

/-- The ids under which a call claims the job. -/
def newClaimants (tenant : TenantContext) (c : JobsCall) (s : JobStore) (id : Uuid) :
    List String :=
  ((claimsMade c.op (c.apply tenant s).1).filter (fun claim => claim.jobId = id)).map
    (·.workerId)

theorem map_workerId_filter_claims (workerId : String) (rows : List JobModel) :
    ((rows.map fun row => JobClaim.mk row.jobId workerId).filter
        (fun claim => claim.jobId = id)).map (·.workerId) =
      List.replicate ((rows.map (·.jobId)).count id) workerId := by
  induction rows with
  | nil => rfl
  | cons row rows ih =>
      by_cases hid : row.jobId = id
      · simp [hid, ih, List.replicate_succ]
      · simp [hid, ih]

theorem newClaimants_claim (now : Timestamp) (workerId : String) (limit : Nat)
    (locked : List Uuid) :
    newClaimants tenant ⟨now, .claim workerId limit locked⟩ s id =
      List.replicate (((PostgresJobRepository.claimCandidates limit locked now s).map
        (·.jobId)).count id) workerId := by
  rw [← map_workerId_filter_claims]
  simp [newClaimants, JobsCall.apply, JobsCall.transact, JobsCall.replying,
    PostgresJobRepository.claim, claimsMade, JobModel.claimed, Function.comp_def]

theorem nodup_claimCandidates (limit : Nat) (locked : List Uuid) (now : Timestamp)
    (s : JobStore) :
    ((PostgresJobRepository.claimCandidates limit locked now s).map (·.jobId)).Nodup := by
  have hrows : ((s.jobs.rows.filter fun row =>
      row.claimable now && row.jobId ∉ locked).map (·.jobId)).Nodup :=
    s.jobs.nodup.sublist (List.filter_sublist.map _)
  have hsorted := ((List.perm_insertionSort (fun a b => JobModel.before a b) _).map
    (·.jobId)).nodup_iff.mpr hrows
  exact hsorted.sublist ((List.take_sublist _ _).map _)

/-- A job that a claim selects gets one new claimant, any other job none. -/
theorem newClaimants_of_mem {now : Timestamp} {workerId : String} {limit : Nat}
    {locked : List Uuid} {row : JobModel}
    (h : row ∈ PostgresJobRepository.claimCandidates limit locked now s) :
    newClaimants tenant ⟨now, .claim workerId limit locked⟩ s row.jobId = [workerId] := by
  rw [newClaimants_claim, List.count_eq_one_of_mem (nodup_claimCandidates limit locked now s)
    (List.mem_map_of_mem h)]
  rfl

theorem newClaimants_of_not_mem
    (h : ∀ now workerId limit locked, c = ⟨now, .claim workerId limit locked⟩ →
      ∀ row ∈ PostgresJobRepository.claimCandidates limit locked now s, row.jobId ≠ id) :
    newClaimants tenant c s id = [] := by
  obtain ⟨now, op⟩ := c
  cases op with
  | claim workerId limit locked =>
      have hid : id ∉ (PostgresJobRepository.claimCandidates limit locked now s).map
          (·.jobId) := by
        simpa using h now workerId limit locked rfl
      rw [newClaimants_claim, List.count_eq_zero_of_not_mem hid]
      rfl
  | _ => rfl

theorem newClaimants_ne_nil (h : newClaimants tenant c s id ≠ []) :
    ∃ now workerId limit locked, c = ⟨now, .claim workerId limit locked⟩ ∧
      ∃ row ∈ PostgresJobRepository.claimCandidates limit locked now s, row.jobId = id := by
  by_contra hnone
  exact h (newClaimants_of_not_mem fun now workerId limit locked hc row hmem hid =>
    hnone ⟨now, workerId, limit, locked, hc, row, hmem, hid⟩)

theorem newClaimants_of_none (h : s.job? id = none) : newClaimants tenant c s id = [] := by
  by_contra hsome
  obtain ⟨now, workerId, limit, locked, -, row, hmem, rfl⟩ := newClaimants_ne_nil hsome
  have hfind : s.job? row.jobId = some row :=
    KeyedTable.find?_of_mem (JobsCall.mem_claimCandidates hmem).1
  exact Option.some_ne_none row (hfind.symm.trans h)

variable {claimants : List String} {row row' : JobModel}

/-- One call extends the takers of a job by those it lets claim it. -/
theorem takenBy_apply
    (htaken : ∀ row, s.job? id = some row →
      Lease.TakenBy (claimants.map some) row.cell)
    (hnone : s.job? id = none → claimants = [])
    (h : (c.apply tenant s).2.job? id = some row') :
    Lease.TakenBy ((claimants ++ newClaimants tenant c s id).map some) row'.cell := by
  rcases (JobsCall.apply_changes tenant c s).jobs.find?_backward h with
    ⟨hfresh, hnew⟩ | ⟨row, hrow, hmoved⟩
  · rw [newClaimants_of_none hfresh, hnone hfresh]
    cases hnew with
    | executeRun | resumeRun => exact ⟨rfl, nofun⟩
  · obtain rfl := KeyedTable.find?_key hrow
    have hold := htaken row hrow
    rcases hmoved with rfl | hstep
    · have hquiet : newClaimants tenant c s row'.key = [] := by
        refine newClaimants_of_not_mem fun now workerId limit locked hc row hmem hid => ?_
        subst hc
        have hclaimed := JobsCall.job?_claim tenant workerId locked hmem
        rw [hid] at hclaimed
        obtain rfl := s.jobs.eq_of_key_eq (JobsCall.mem_claimCandidates hmem).1
          (KeyedTable.find?_mem hrow) hid
        have hattempt := congrArg (·.attempt) (Option.some.inj (h.symm.trans hclaimed))
        simp [JobModel.claimed] at hattempt
      simpa [hquiet] using hold
    · obtain ⟨a, hlease, htaker⟩ := hstep.lease
      have hnext := hold.step hlease
      rw [htaker] at hnext
      cases hstep with
      | claimed hmem => simpa [newClaimants_of_mem hmem, JobsOp.jobTaker?] using hnext
      | completed | renewed | failed | cancelled =>
          simpa [newClaimants, claimsMade, JobsOp.jobTaker?] using hnext

end Claimants

/-- The row a successful call leaves. -/
def LeaseCall.outcome (call : LeaseCall) (now : Timestamp) (row : JobModel) : JobModel :=
  match call with
  | .complete => row.succeeded
  | .renew => row.renewed now
  | .fail error errorType retryable => row.failed error errorType retryable now

section Outcome
variable (tenant : TenantContext) {s : JobStore} {now : Timestamp} {id : Uuid} {call : LeaseCall}
  {row : JobModel} {workerId : String}

theorem LeaseCall.outcome_key (call : LeaseCall) (now : Timestamp) (row : JobModel) :
    (call.outcome now row).key = row.key := by
  cases call <;> rfl

theorem job?_lease (h : s.leasedJob? id workerId now = some row) :
    (JobsCall.apply tenant ⟨now, .lease id workerId call⟩ s).2.job? id =
      some (call.outcome now row) := by
  obtain ⟨hfind, -⟩ := JobsCall.leasedJob?_eq_some_iff.mp h
  have hjobs : (JobsCall.apply tenant ⟨now, .lease id workerId call⟩ s).2.jobs =
      s.jobs.update id (call.outcome now) (call.outcome_key now) := by
    cases call with
    | complete =>
        simp only [JobsCall.apply, JobsCall.transact, PostgresJobRepository.complete, h]
        rfl
    | renew =>
        simp only [JobsCall.apply, JobsCall.transact, PostgresJobRepository.renew, h]
        rfl
    | fail error errorType retryable =>
        simp only [JobsCall.apply, JobsCall.transact, PostgresJobRepository.fail, h]
        by_cases hr : row.willRetry retryable <;> simp [JobsCall.replying, hr] <;> rfl
  rw [JobStore.job?] at hfind ⊢
  rw [hjobs, KeyedTable.find?_update, if_pos rfl, hfind]
  rfl

/-- A finished claim is spent. -/
theorem LeaseCall.spent_outcome {k : Nat} (hk : k + 1 = row.attempt) (hfin : call.finishes) :
    (call.outcome now row).cell.Spent k := by
  cases call with
  | renew => cases hfin
  | complete => exact ⟨hk.le, fun _ => nofun⟩
  | fail error errorType retryable =>
      refine ⟨hk.le, fun _ => ?_⟩
      by_cases hr : row.willRetry retryable <;>
        simp [LeaseCall.outcome, JobModel.failed, JobModel.cell, hr]

end Outcome

/-- The claims made so far are the takes of the stored jobs, by distinct
workers, and a finished claim is spent. -/
structure Tracked (w : Workers) : Prop where
  taken : ∀ id row, w.store.job? id = some row →
    Lease.TakenBy ((w.claimants id).map some) row.cell
  known : ∀ id, w.store.job? id = none → w.claimants id = []
  distinct : ∀ id, (w.claimants id).Nodup
  spent : ∀ claim ∈ w.finished, ∃ row,
    w.store.job? claim.1 = some row ∧ row.cell.Spent claim.2
  once : w.finished.Nodup

theorem Tracked.empty : Tracked .empty :=
  ⟨nofun, fun _ _ => rfl, fun _ => .nil, nofun, .nil⟩

namespace Tracked
variable {tenant : TenantContext} {w : Workers} {c : WorkersCall} {now : Timestamp} {id : Uuid}
  {k : Nat} {call : LeaseCall} {workerId : String} {row : JobModel} {op : JobsOp}

/-- Whoever holds the lease made the latest claim. -/
theorem latest_of_leased (h : Tracked w) (hk : (w.claimants id)[k]? = some workerId)
    (hrow : w.store.leasedJob? id workerId now = some row) :
    k + 1 = row.attempt ∧ w.Latest id k := by
  obtain ⟨hfind, hleased⟩ := JobsCall.leasedJob?_eq_some_iff.mp hrow
  have htaken := h.taken id row hfind
  have hdistinct : ((w.claimants id).map some).Nodup :=
    (h.distinct id).map (Option.some_injective _)
  have hattempt : k + 1 = row.attempt :=
    htaken.latest hdistinct (JobModel.cell_live hleased) (by simp [hk])
  have hlength := htaken.length_eq
  rw [List.length_map] at hlength
  exact ⟨hattempt, hattempt.trans hlength.symm⟩

theorem fenced (h : Tracked w) : Fenced tenant w where
  latest := by
    intro now id k call heffect
    obtain ⟨workerId, row, hk, hrow⟩ := Workers.takesEffect_iff.mp heffect
    exact (h.latest_of_leased hk hrow).2
  unexpired := by
    intro now id k call heffect
    obtain ⟨workerId, row, hk, hrow⟩ := Workers.takesEffect_iff.mp heffect
    obtain ⟨hfind, hleased⟩ := JobsCall.leasedJob?_eq_some_iff.mp hrow
    exact ⟨row, hfind, (Bool.and_eq_true _ _ ▸ hleased).2⟩
  alone := by
    intro now now' id k k' call call' heffect heffect'
    obtain ⟨workerId, row, hk, hrow⟩ := Workers.takesEffect_iff.mp heffect
    obtain ⟨workerId', row', hk', hrow'⟩ := Workers.takesEffect_iff.mp heffect'
    have hlatest := (h.latest_of_leased hk hrow).2
    exact Nat.succ.inj (hlatest.trans (h.latest_of_leased hk' hrow').2.symm)
  finished_once := h.once

theorem claimants_append (tenant : TenantContext) (w : Workers) (id : Uuid) (store : JobStore)
    (finished : List (Uuid × Nat)) (s : JobStore) (c : JobsCall) :
    Workers.claimants ⟨store, w.claims ++ claimsMade c.op (c.apply tenant s).1, finished⟩ id =
      w.claimants id ++ newClaimants tenant c s id := by
  simp [Workers.claimants, newClaimants]

/-- A claim that keeps to new workers keeps the claimants of a job distinct. -/
theorem distinct_append (h : Tracked w) (hd : DistinctClaimants w c)
    (hop : c.jobsOp? w = some op) (id : Uuid) :
    (w.claimants id ++ newClaimants tenant ⟨c.now, op⟩ w.store id).Nodup := by
  by_cases hquiet : newClaimants tenant ⟨c.now, op⟩ w.store id = []
  · simpa [hquiet] using h.distinct id
  · obtain ⟨now, workerId, limit, locked, hcall, row, hmem, rfl⟩ := newClaimants_ne_nil hquiet
    cases hcall
    have hnew : workerId ∉ w.claimants row.jobId := by
      cases hc : c.op with
      | claim workerId' limit' locked' =>
          simp only [WorkersCall.jobsOp?, hc, Option.some.injEq, JobsOp.claim.injEq] at hop
          obtain ⟨rfl, rfl, rfl⟩ := hop
          simp only [DistinctClaimants, hc] at hd
          exact hd row hmem
      | lease id k call => simp [WorkersCall.jobsOp?, hc] at hop
      | other op =>
          have hforeign := op.property
          simp only [WorkersCall.jobsOp?, hc, Option.some.injEq] at hop
          simp [hop, JobsOp.foreign] at hforeign
    rw [newClaimants_of_mem hmem, ← List.concat_eq_append]
    exact (h.distinct _).concat hnew

/-- The calls of a run leave what is spent spent. -/
theorem spent_apply {s : JobStore} {c : JobsCall} (hfind : s.job? id = some row)
    (hspent : row.cell.Spent k) :
    ∃ row', (c.apply tenant s).2.job? id = some row' ∧ row'.cell.Spent k := by
  obtain ⟨row', hrow', rfl | hstep⟩ :=
    (JobsCall.apply_changes tenant c s).jobs.find?_forward hfind
  · exact ⟨row', hrow', hspent⟩
  · obtain ⟨a, hlease, -⟩ := hstep.lease
    exact ⟨row', hrow', hspent.step hlease⟩

theorem finishedBy_lease {claim : Uuid × Nat} {s : JobStore} (hc : c.op = .lease id k call)
    (hmem : claim ∈ c.finishedBy (JobsCall.apply tenant ⟨now, op⟩ s).1) :
    call.finishes ∧ (∃ reply s', JobsCall.transact tenant ⟨now, op⟩ s = .ok (reply, s')) ∧
      claim = (id, k) := by
  simp only [WorkersCall.finishedBy, hc, JobsCall.apply] at hmem
  cases htransact : JobsCall.transact tenant ⟨now, op⟩ s with
  | error exc => simp [htransact] at hmem
  | ok committed =>
      obtain ⟨reply, s'⟩ := committed
      simp only [htransact] at hmem
      split at hmem
      · rename_i hfin
        exact ⟨hfin, ⟨reply, s', rfl⟩, List.mem_singleton.mp hmem⟩
      · exact absurd hmem List.not_mem_nil

theorem nodup_finishedBy (c : WorkersCall) (reply : Except JobsError JobsReply) :
    (c.finishedBy reply).Nodup := by
  unfold WorkersCall.finishedBy
  split
  · split
    · exact List.nodup_singleton _
    · exact .nil
  · exact .nil

/-- A finished claim is the latest one and spent from then on. -/
theorem spent_finishedBy (h : Tracked w) (hop : c.jobsOp? w = some op) {claim : Uuid × Nat}
    (hmem : claim ∈ c.finishedBy (JobsCall.apply tenant ⟨c.now, op⟩ w.store).1) :
    claim ∉ w.finished ∧ ∃ row,
      (JobsCall.apply tenant ⟨c.now, op⟩ w.store).2.job? claim.1 = some row ∧
        row.cell.Spent claim.2 := by
  cases hc : c.op with
  | claim workerId limit locked => simp [WorkersCall.finishedBy, hc] at hmem
  | other op => simp [WorkersCall.finishedBy, hc] at hmem
  | lease id k call =>
      simp only [WorkersCall.jobsOp?, hc, Option.map_eq_some_iff] at hop
      obtain ⟨workerId, hk, rfl⟩ := hop
      obtain ⟨hfin, hreply, rfl⟩ := finishedBy_lease hc hmem
      obtain ⟨row, hrow⟩ := lease_ok_iff.mp hreply
      have hattempt := (h.latest_of_leased hk hrow).1
      refine ⟨fun hold => ?_, call.outcome c.now row, job?_lease tenant hrow,
        call.spent_outcome hattempt hfin⟩
      obtain ⟨row', hfind', hspent⟩ := h.spent _ hold
      obtain ⟨hfind, hleased⟩ := JobsCall.leasedJob?_eq_some_iff.mp hrow
      obtain rfl := Option.some.inj (hfind'.symm.trans hfind)
      exact hspent.not_live (h.taken id row' hfind)
        ((h.distinct id).map (Option.some_injective _)) (by simp [hk])
        (JobModel.cell_live hleased)

theorem apply (h : Tracked w) (hd : DistinctClaimants w c) :
    Tracked (c.apply tenant w).2 := by
  unfold WorkersCall.apply
  cases hop : c.jobsOp? w with
  | none => exact h
  | some op =>
      simp only
      refine ⟨fun id row hrow => ?_, fun id hnone => ?_, fun id => ?_, fun claim hmem => ?_, ?_⟩
      · rw [claimants_append tenant w id _ _ _ ⟨c.now, op⟩]
        exact takenBy_apply (fun row hrow => h.taken id row hrow) (h.known id) hrow
      · have hold : w.store.job? id = none := by
          by_contra hsome
          obtain ⟨row, hrow⟩ := Option.ne_none_iff_exists'.mp hsome
          obtain ⟨row', hrow', -⟩ :=
            (JobsCall.apply_changes tenant ⟨c.now, op⟩ w.store).jobs.find?_forward hrow
          exact Option.some_ne_none row' (hrow'.symm.trans hnone)
        rw [claimants_append tenant w id _ _ _ ⟨c.now, op⟩, h.known id hold,
          newClaimants_of_none hold]
        rfl
      · rw [claimants_append tenant w id _ _ _ ⟨c.now, op⟩]
        exact h.distinct_append hd hop id
      · rcases List.mem_append.mp hmem with hold | hnew
        · obtain ⟨row, hfind, hspent⟩ := h.spent claim hold
          exact spent_apply hfind hspent
        · exact (h.spent_finishedBy hop hnew).2
      · exact h.once.append (nodup_finishedBy c _) fun claim hold hnew =>
          (h.spent_finishedBy hop hnew).1 hold

end Tracked

theorem seconds_pos {n : Nat} (h : 0 < n) : 0 < seconds n := Nat.mul_pos h (by decide)

theorem JobModel.leasedTo_iff {workerId : String} {now : Timestamp} {row : JobModel} :
    row.leasedTo workerId now ↔ row.status = .running ∧ row.workerId = some workerId ∧
      ∃ expiry, row.leaseExpiresAt = some expiry ∧ now < expiry := by
  simp [leasedTo, Option.any_eq_true, and_assoc]

theorem JobModel.leasedTo_claimed (workerId : String) (now : Timestamp) (row : JobModel) :
    (row.claimed workerId now).leasedTo workerId now :=
  leasedTo_iff.mpr ⟨rfl, rfl, now + seconds leaseSeconds, rfl,
    Nat.lt_add_of_pos_right (seconds_pos (Nat.succ_pos 119))⟩

/-- After a second claim under the same id, the first execution still passes
for the holder of the lease. -/
theorem distinctClaimants_of_fenced {tenant : TenantContext} {w : Workers} {c : WorkersCall}
    (hafter : Fenced tenant (c.apply tenant w).2) : DistinctClaimants w c := by
  obtain ⟨now, op⟩ := c
  cases op with
  | claim workerId limit locked =>
      intro row hmem hold
      let claim : JobsCall := ⟨now, .claim workerId limit locked⟩
      obtain ⟨k, hlt, hk⟩ := List.getElem_of_mem hold
      have hafter : Fenced tenant
          ⟨(claim.apply tenant w.store).2,
            w.claims ++ claimsMade claim.op (claim.apply tenant w.store).1, w.finished ++ []⟩ :=
        hafter
      have hclaimants := (Tracked.claimants_append tenant w row.jobId
        (claim.apply tenant w.store).2 (w.finished ++ []) w.store claim).trans
          (congrArg _ (newClaimants_of_mem hmem))
      have hleased : (claim.apply tenant w.store).2.leasedJob? row.jobId workerId now =
          some (row.claimed workerId now) :=
        JobsCall.leasedJob?_eq_some_iff.mpr
          ⟨JobsCall.job?_claim tenant workerId locked hmem, row.leasedTo_claimed workerId now⟩
      have hlatest := hafter.latest now row.jobId k .complete
        (Workers.takesEffect_iff.mpr ⟨workerId, _, by
          rw [hclaimants, List.getElem?_append_left hlt, List.getElem?_eq_getElem hlt, hk],
          hleased⟩)
      rw [Workers.Latest, hclaimants, List.length_append, List.length_singleton] at hlatest
      omega
  | lease id k call => trivial
  | other op => trivial

/-- A lost lease is lost for good all along a run exactly when no job of the run
is claimed twice under one worker id. -/
theorem fenced_iff_distinctClaimants (tenant : TenantContext) (calls : List WorkersCall) :
    Machine.Guarded (WorkersCall.apply tenant) DistinctClaimants .empty calls ↔
      ∀ pre post, calls = pre ++ post →
        Fenced tenant (Machine.run (WorkersCall.apply tenant) .empty pre) :=
  Machine.guarded_iff_prefixes (WorkersCall.apply tenant)
    (fun w (h : Tracked w) => (h.fenced : Fenced tenant w))
    (fun _ _ h hd => h.apply hd)
    (fun _ _ _ hafter => distinctClaimants_of_fenced hafter) Tracked.empty

/-- Two requests to the runner service: the second one claims the job after
the lease of the first has expired. -/
def sharedWorkerId : List WorkersCall :=
  [⟨0, .other ⟨.enqueueRun "run-1" "offer" "tiktok" 1 (.obj []) 5, rfl⟩⟩,
    ⟨0, .claim "runner-http" 1 []⟩,
    ⟨seconds 120, .claim "runner-http" 1 []⟩]

/-- The first execution can complete the job although it lost its lease. -/
theorem stale_execution_completes :
    ¬ ∀ (tenant : TenantContext) (calls : List WorkersCall),
      calls.Pairwise (fun c c' => c.now ≤ c'.now) →
        Fenced tenant (Machine.run (WorkersCall.apply tenant) .empty calls) := by
  intro h
  have hfenced := h sampleTenant sharedWorkerId (by decide +kernel)
  let w := Machine.run (WorkersCall.apply sampleTenant) .empty sharedWorkerId
  let id := jobId sampleTenant "run-1" "execute_run"
  have hleased : (w.store.leasedJob? id "runner-http" (seconds 130)).isSome := by decide +kernel
  obtain ⟨row, hrow⟩ := Option.isSome_iff_exists.mp hleased
  have heffect : w.TakesEffect sampleTenant (seconds 130) id 0 .complete :=
    Workers.takesEffect_iff.mpr ⟨"runner-http", row, by decide +kernel, hrow⟩
  have hlatest := hfenced.latest _ _ _ _ heffect
  revert hlatest
  unfold Workers.Latest
  decide +kernel

end Orchestrator
