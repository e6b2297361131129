import Mathlib.Data.List.Induction
import Orchestrator.Db.JobTransitions
import Orchestrator.Lib.Lease

/-!
Attempts of jobs and outbox rows.

Both tables are queues of leased entries, so each move of a row is a step of
its `Lease.Cell`. `fail` and `fail_outbox` look at the number of attempts, the
two claim queries do not: the bound holds in a run exactly when no claim of the
run takes over an expired row that has used up its attempts.
-/

namespace Orchestrator

/-- A job as an entry of a leased queue; the holder is its `worker_id`. -/
def JobModel.cell (row : JobModel) : Lease.Cell (Option String) where
  attempt := row.attempt
  limit := row.maxAttempts
  phase :=
    match row.status with
    | .queued | .retry => .waiting
    | .running => .held row.workerId (row.leaseExpiresAt.getD 0)
    | .succeeded | .failed | .cancelled => .ended

def OutboxModel.cell (row : OutboxModel) : Lease.Cell (Option String) where
  attempt := row.attempt
  limit := outboxMaxAttempts
  phase :=
    match row.status with
    | .pending => .waiting
    | .publishing => .held row.workerId (row.leaseExpiresAt.getD 0)
    | .published | .failed => .ended

namespace JobModel
variable {row : JobModel} {workerId : String} {now : Timestamp}

theorem cell_free (h : row.claimable now) : row.cell.Free now := by
  simp only [claimable, Bool.or_eq_true, Bool.and_eq_true, decide_eq_true_eq,
    Option.any_eq_true] at h
  rcases h with ⟨hs | hs, -⟩ | ⟨hs, expiry, he, hle⟩
  · simp [Lease.Cell.Free, cell, hs]
  · simp [Lease.Cell.Free, cell, hs]
  · simpa [Lease.Cell.Free, cell, hs, he] using hle

theorem cell_live (h : row.leasedTo workerId now) : row.cell.Live now (some workerId) := by
  simp only [leasedTo, Bool.and_eq_true, decide_eq_true_eq, Option.any_eq_true] at h
  obtain ⟨⟨hs, hw⟩, expiry, he, hlt⟩ := h
  exact ⟨expiry, by simp [cell, hs, hw, he], hlt⟩

theorem attempt_lt_of_willRetry {retryable : Bool} (h : row.willRetry retryable) :
    row.attempt < row.maxAttempts := by
  simp only [willRetry, Bool.and_eq_true, decide_eq_true_eq] at h
  exact h.2

end JobModel

namespace OutboxModel
variable {row : OutboxModel} {workerId : String} {now : Timestamp}

theorem cell_free (h : row.claimable now) : row.cell.Free now := by
  simp only [claimable, Bool.or_eq_true, Bool.and_eq_true, decide_eq_true_eq,
    Option.any_eq_true] at h
  rcases h with ⟨hs, -⟩ | ⟨hs, expiry, he, hle⟩
  · simp [Lease.Cell.Free, cell, hs]
  · simpa [Lease.Cell.Free, cell, hs, he] using hle

theorem cell_live (h : row.leasedTo workerId now) : row.cell.Live now (some workerId) := by
  simp only [leasedTo, Bool.and_eq_true, decide_eq_true_eq, Option.any_eq_true] at h
  obtain ⟨⟨hs, hw⟩, expiry, he, hlt⟩ := h
  exact ⟨expiry, by simp [cell, hs, hw, he], hlt⟩

end OutboxModel

namespace JobsOp

/-- The worker a call makes the holder of the jobs it moves. -/
def jobTaker? : JobsOp → Option (Option String)
  | .claim workerId _ _ => some (some workerId)
  | _ => none

def entryTaker? : JobsOp → Option (Option String)
  | .claimOutbox workerId _ _ => some (some workerId)
  | _ => none

end JobsOp

namespace JobsCall
variable {c : JobsCall} {s : JobStore}

/-- Every move of a job row is a step of the leased queue. -/
theorem JobStep.lease {row row' : JobModel} (h : JobStep s c row row') :
    ∃ a, Lease.Step c.now a row.cell row'.cell ∧ a.taker? = c.op.jobTaker? := by
  cases h with
  | @claimed now workerId limit locked _ hrow =>
      have hfree := JobModel.cell_free (mem_claimCandidates hrow).2.1
      exact ⟨.take (some workerId), .take _ _ hfree, rfl⟩
  | @completed now workerId _ hrow =>
      exact ⟨.finish (some workerId), .finish (JobModel.cell_live hrow), rfl⟩
  | @renewed now workerId _ hrow =>
      refine ⟨.extend (some workerId), ?_, rfl⟩
      have hlive := JobModel.cell_live hrow
      simp only [JobModel.leasedTo, Bool.and_eq_true, decide_eq_true_eq] at hrow
      simpa [JobModel.cell, JobModel.renewed, hrow.1.1, hrow.1.2] using
        Lease.Step.extend (now + seconds leaseSeconds) hlive
  | @failed now workerId error errorType retryable _ hrow =>
      have hlive := JobModel.cell_live hrow
      by_cases hr : row.willRetry retryable
      · refine ⟨.retry (some workerId), ?_, rfl⟩
        simpa [JobModel.cell, JobModel.failed, hr] using
          Lease.Step.retry hlive (JobModel.attempt_lt_of_willRetry hr)
      · refine ⟨.finish (some workerId), ?_, rfl⟩
        simpa [JobModel.cell, JobModel.failed, hr] using Lease.Step.finish hlive
  | cancelled hrow => exact ⟨.drop, .drop, rfl⟩

/-- Every move of an outbox row is a step of the leased queue. -/
theorem EntryStep.lease {row row' : OutboxModel} (h : EntryStep s c row row') :
    ∃ a, Lease.Step c.now a row.cell row'.cell ∧ a.taker? = c.op.entryTaker? := by
  cases h with
  | @claimed now workerId limit locked _ hrow =>
      have hfree := OutboxModel.cell_free (mem_outboxCandidates hrow).2.1
      exact ⟨.take (some workerId), .take _ _ hfree, rfl⟩
  | @published now workerId _ hrow =>
      exact ⟨.finish (some workerId), .finish (OutboxModel.cell_live hrow), rfl⟩
  | @failed now workerId error _ hrow =>
      have hlive := OutboxModel.cell_live hrow
      by_cases hr : row.willRetry
      · refine ⟨.retry (some workerId), ?_, rfl⟩
        simpa [OutboxModel.cell, OutboxModel.failed, hr] using
          Lease.Step.retry hlive (of_decide_eq_true hr)
      · refine ⟨.finish (some workerId), ?_, rfl⟩
        simpa [OutboxModel.cell, OutboxModel.failed, hr] using Lease.Step.finish hlive

end JobsCall

/-- Attempts are within their limits, and rows that wait have one left. -/
structure QueueBounded (s : JobStore) : Prop where
  jobs : ∀ row ∈ s.jobs.rows, row.cell.Bounded
  outbox : ∀ row ∈ s.outbox.rows, row.cell.Bounded

/-- No claim takes over an expired row that has used up its attempts. -/
def SparesExhausted (s : JobStore) (c : JobsCall) : Prop :=
  match c.op with
  | .claim _ limit locked =>
      ∀ row ∈ PostgresJobRepository.claimCandidates limit locked c.now s,
        row.status = .running → row.attempt < row.maxAttempts
  | .claimOutbox _ limit locked =>
      ∀ row ∈ PostgresJobRepository.outboxCandidates limit locked c.now s,
        row.status = .publishing → row.attempt < outboxMaxAttempts
  | _ => True

def AttemptsBounded (s : JobStore) : Prop :=
  (∀ row ∈ s.jobs.rows, row.attempt ≤ row.maxAttempts) ∧
    ∀ row ∈ s.outbox.rows, row.attempt ≤ outboxMaxAttempts

theorem QueueBounded.empty : QueueBounded .empty := ⟨nofun, nofun⟩

theorem QueueBounded.attemptsBounded {s : JobStore} (h : QueueBounded s) : AttemptsBounded s :=
  ⟨fun row hrow => (h.jobs row hrow).attempt_le, fun row hrow => (h.outbox row hrow).attempt_le⟩

namespace JobsCall
variable {tenant : TenantContext} {c : JobsCall} {s : JobStore}

theorem NewJob.bounded {row : JobModel} (h : NewJob tenant s c row) : row.cell.Bounded := by
  cases h with
  | executeRun hmax =>
      refine ⟨Nat.zero_le _, fun _ => ?_⟩
      simpa [JobModel.cell, PostgresJobRepository.executeRunJob] using hmax
  | resumeRun => exact ⟨Nat.zero_le _, fun _ => Nat.succ_pos 4⟩

theorem NewEntry.bounded {row : OutboxModel} (h : NewEntry c row) : row.cell.Bounded := by
  have hattempt : row.attempt = 0 := by cases h <;> assumption
  exact ⟨by simp [OutboxModel.cell, hattempt],
    fun _ => by simp [OutboxModel.cell, hattempt, outboxMaxAttempts]⟩

/-- A claim that spares the exhausted rows leaves the row it takes bounded. -/
theorem JobStep.bounded {row row' : JobModel} (h : JobStep s c row row')
    (hspare : SparesExhausted s c) (hrow : row.cell.Bounded) : row'.cell.Bounded := by
  obtain ⟨a, hstep, htaker⟩ := h.lease
  refine (hstep.bounded_iff hrow).mpr fun htake => ?_
  rw [htaker] at htake
  cases h with
  | claimed hmem =>
      by_contra hlt
      obtain ⟨holder, expiry, hheld⟩ :=
        hrow.held_of_exhausted (JobModel.cell_free (mem_claimCandidates hmem).2.1) hlt
      refine hlt (hspare row hmem ?_)
      cases hs : row.status <;> simp_all [JobModel.cell]
  | completed | renewed | failed | cancelled => cases htake

theorem EntryStep.bounded {row row' : OutboxModel} (h : EntryStep s c row row')
    (hspare : SparesExhausted s c) (hrow : row.cell.Bounded) : row'.cell.Bounded := by
  obtain ⟨a, hstep, htaker⟩ := h.lease
  refine (hstep.bounded_iff hrow).mpr fun htake => ?_
  rw [htaker] at htake
  cases h with
  | claimed hmem =>
      by_contra hlt
      obtain ⟨holder, expiry, hheld⟩ :=
        hrow.held_of_exhausted (OutboxModel.cell_free (mem_outboxCandidates hmem).2.1) hlt
      refine hlt (hspare row hmem ?_)
      cases hs : row.status <;> simp_all [OutboxModel.cell]
  | published | failed => cases htake

theorem queueBounded_apply (h : QueueBounded s) (hspare : SparesExhausted s c) :
    QueueBounded (c.apply tenant s).2 := by
  have hchanges := apply_changes tenant c s
  exact ⟨hchanges.jobs.forall_rows (fun _ hnew => hnew.bounded)
      (fun _ _ hrow hstep => hstep.bounded hspare hrow) h.jobs,
    hchanges.outbox.forall_rows (fun _ hnew => hnew.bounded)
      (fun _ _ hrow hstep => hstep.bounded hspare hrow) h.outbox⟩

/-- Whoever takes over an exhausted row breaks the bound at once. -/
theorem sparesExhausted_of_bounded (h : AttemptsBounded (c.apply tenant s).2) :
    SparesExhausted s c := by
  obtain ⟨now, op⟩ := c
  cases op with
  | claim workerId limit locked =>
      intro row hmem _
      exact h.1 _ (KeyedTable.find?_mem (job?_claim tenant workerId locked hmem))
  | claimOutbox workerId limit locked =>
      intro row hmem _
      exact h.2 _ (KeyedTable.find?_mem (message?_claimOutbox tenant workerId locked hmem))
  | _ => trivial

end JobsCall

section Claims
variable (tenant : TenantContext)

/-- The call handed the job to a worker. -/
def claimsJob (id : Uuid) : Except JobsError JobsReply → Bool
  | .ok (.jobs jobs) => jobs.any (fun job => job.jobId = id)
  | _ => false

def claimsEntry (id : Nat) : Except JobsError JobsReply → Bool
  | .ok (.entries entries) => entries.any (fun entry => entry.entryId = id)
  | _ => false

/-- How often a run of calls handed out the job. -/
def jobClaims (calls : List JobsCall) (id : Uuid) : Nat :=
  (Machine.log (JobsCall.apply tenant) .empty calls).countP (fun e => claimsJob id e.reply)

def entryClaims (calls : List JobsCall) (id : Nat) : Nat :=
  (Machine.log (JobsCall.apply tenant) .empty calls).countP (fun e => claimsEntry id e.reply)

namespace JobsCall
variable {tenant} (c : JobsCall) (s : JobStore)

/-- Only `claim` answers with jobs, and it answers with its candidates. -/
theorem claimsJob_apply (id : Uuid) :
    claimsJob id (c.apply tenant s).1 =
      match c.op with
      | .claim _ limit locked =>
          (PostgresJobRepository.claimCandidates limit locked c.now s).any (·.jobId = id)
      | _ => false := by
  obtain ⟨now, op⟩ := c
  cases op with
  | claim workerId limit locked =>
      simp [apply, transact, replying, PostgresJobRepository.claim, claimsJob, List.any_map,
        Function.comp_def, JobModel.claimed]
  | lease id' workerId call =>
      cases call <;> (simp only [apply, transact]; split <;> rename_i h) <;>
        first
        | (obtain ⟨_, -, rfl⟩ := replying_ok h; rfl)
        | rfl
  | outbox entryId workerId call =>
      cases call <;> (simp only [apply, transact]; split <;> rename_i h) <;>
        first
        | (obtain ⟨_, -, rfl⟩ := replying_ok h; rfl)
        | rfl
  | claimOutbox workerId limit locked => rfl
  | _ =>
      simp only [apply, transact]
      split
      · rename_i h
        obtain ⟨_, -, rfl⟩ := replying_ok h
        rfl
      · rfl

/-- Only `claim_outbox` answers with outbox entries, and with its candidates. -/
theorem claimsEntry_apply (id : Nat) :
    claimsEntry id (c.apply tenant s).1 =
      match c.op with
      | .claimOutbox _ limit locked =>
          (PostgresJobRepository.outboxCandidates limit locked c.now s).any (·.entryId = id)
      | _ => false := by
  obtain ⟨now, op⟩ := c
  cases op with
  | claimOutbox workerId limit locked =>
      simp [apply, transact, replying, PostgresJobRepository.claimOutbox, claimsEntry,
        List.any_map, Function.comp_def, OutboxModel.claimed]
  | lease id' workerId call =>
      cases call <;> (simp only [apply, transact]; split <;> rename_i h) <;>
        first
        | (obtain ⟨_, -, rfl⟩ := replying_ok h; rfl)
        | rfl
  | outbox entryId workerId call =>
      cases call <;> (simp only [apply, transact]; split <;> rename_i h) <;>
        first
        | (obtain ⟨_, -, rfl⟩ := replying_ok h; rfl)
        | rfl
  | claim workerId limit locked => rfl
  | _ =>
      simp only [apply, transact]
      split
      · rename_i h
        obtain ⟨_, -, rfl⟩ := replying_ok h
        rfl
      · rfl

variable {c s}

/-- A job row is taken only by a call that hands the job out. -/
theorem JobStep.claimsJob_of_taker {row row' : JobModel} (h : JobStep s c row row')
    (htaker : c.op.jobTaker?.isSome) : claimsJob row.jobId (c.apply tenant s).1 := by
  rw [claimsJob_apply]
  cases h with
  | claimed hmem => exact List.any_eq_true.mpr ⟨row, hmem, decide_eq_true rfl⟩
  | completed | renewed | failed | cancelled => cases htaker

theorem EntryStep.claimsEntry_of_taker {row row' : OutboxModel} (h : EntryStep s c row row')
    (htaker : c.op.entryTaker?.isSome) : claimsEntry row.entryId (c.apply tenant s).1 := by
  rw [claimsEntry_apply]
  cases h with
  | claimed hmem => exact List.any_eq_true.mpr ⟨row, hmem, decide_eq_true rfl⟩
  | published | failed => cases htaker

theorem claimed_of_claimsJob {id : Uuid} (h : claimsJob id (c.apply tenant s).1) :
    ∃ row row', s.jobs.find? id = some row ∧
      (c.apply tenant s).2.jobs.find? id = some row' ∧
      row'.cell.attempt = row.cell.attempt + 1 := by
  rw [claimsJob_apply] at h
  obtain ⟨now, op⟩ := c
  cases op with
  | claim workerId limit locked =>
      obtain ⟨row, hmem, hid⟩ := List.any_eq_true.mp h
      obtain rfl := of_decide_eq_true hid
      exact ⟨row, row.claimed workerId now,
        KeyedTable.find?_of_mem (mem_claimCandidates hmem).1,
        job?_claim tenant workerId locked hmem, rfl⟩
  | _ => cases h

theorem claimed_of_claimsEntry {id : Nat} (h : claimsEntry id (c.apply tenant s).1) :
    ∃ row row', s.outbox.find? id = some row ∧
      (c.apply tenant s).2.outbox.find? id = some row' ∧
      row'.cell.attempt = row.cell.attempt + 1 := by
  rw [claimsEntry_apply] at h
  obtain ⟨now, op⟩ := c
  cases op with
  | claimOutbox workerId limit locked =>
      obtain ⟨row, hmem, hid⟩ := List.any_eq_true.mp h
      obtain rfl := of_decide_eq_true hid
      exact ⟨row, row.claimed workerId now,
        KeyedTable.find?_of_mem (mem_outboxCandidates hmem).1,
        message?_claimOutbox tenant workerId locked hmem, rfl⟩
  | _ => cases h

/-- The attempt column counts the calls that handed the job out. -/
theorem jobAttempts_apply (id : Uuid) :
    Lease.attempts JobModel.cell (c.apply tenant s).2.jobs id =
      Lease.attempts JobModel.cell s.jobs id +
        if claimsJob id (c.apply tenant s).1 then 1 else 0 := by
  refine Lease.attempts_change JobModel.cell c.now
    (fun id => claimsJob id (c.apply tenant s).1) (apply_changes tenant c s).jobs
    (fun row hnew => by cases hnew <;> rfl) (fun row row' hstep => ?_)
    (fun id hid => claimed_of_claimsJob hid) id
  obtain ⟨a, hlease, htaker⟩ := hstep.lease
  exact ⟨a, hlease, fun h => hstep.claimsJob_of_taker (htaker ▸ h)⟩

theorem entryAttempts_apply (id : Nat) :
    Lease.attempts OutboxModel.cell (c.apply tenant s).2.outbox.toKeyedTable id =
      Lease.attempts OutboxModel.cell s.outbox.toKeyedTable id +
        if claimsEntry id (c.apply tenant s).1 then 1 else 0 := by
  refine Lease.attempts_change OutboxModel.cell c.now
    (fun id => claimsEntry id (c.apply tenant s).1) (apply_changes tenant c s).outbox
    (fun row hnew => by cases hnew <;> assumption) (fun row row' hstep => ?_)
    (fun id hid => claimed_of_claimsEntry hid) id
  obtain ⟨a, hlease, htaker⟩ := hstep.lease
  exact ⟨a, hlease, fun h => hstep.claimsEntry_of_taker (htaker ▸ h)⟩

end JobsCall

theorem jobClaims_eq (calls : List JobsCall) (id : Uuid) :
    jobClaims tenant calls id =
      Lease.attempts JobModel.cell (Machine.run (JobsCall.apply tenant) .empty calls).jobs id := by
  induction calls using List.reverseRecOn with
  | nil => rfl
  | append_singleton calls c ih =>
      rw [jobClaims] at ih
      rw [jobClaims, Machine.log_concat, Machine.run_concat, List.countP_append, ih,
        JobsCall.jobAttempts_apply, List.countP_singleton]
      rfl

theorem entryClaims_eq (calls : List JobsCall) (id : Nat) :
    entryClaims tenant calls id =
      Lease.attempts OutboxModel.cell
        (Machine.run (JobsCall.apply tenant) .empty calls).outbox.toKeyedTable id := by
  induction calls using List.reverseRecOn with
  | nil => rfl
  | append_singleton calls c ih =>
      rw [entryClaims] at ih
      rw [entryClaims, Machine.log_concat, Machine.run_concat, List.countP_append, ih,
        JobsCall.entryAttempts_apply, List.countP_singleton]
      rfl

/-- After these calls no job and no message has been tried, or was handed out,
more often than its limit. -/
def WithinLimits (calls : List JobsCall) : Prop :=
  let s := Machine.run (JobsCall.apply tenant) .empty calls
  (∀ row ∈ s.jobs.rows,
      row.attempt ≤ row.maxAttempts ∧ jobClaims tenant calls row.jobId ≤ row.maxAttempts) ∧
    ∀ row ∈ s.outbox.rows,
      row.attempt ≤ outboxMaxAttempts ∧ entryClaims tenant calls row.entryId ≤ outboxMaxAttempts

theorem withinLimits_iff (calls : List JobsCall) :
    WithinLimits tenant calls ↔
      AttemptsBounded (Machine.run (JobsCall.apply tenant) .empty calls) := by
  have hjobs {row : JobModel}
      (hrow : row ∈ (Machine.run (JobsCall.apply tenant) .empty calls).jobs.rows) :
      jobClaims tenant calls row.jobId = row.attempt := by
    rw [jobClaims_eq, Lease.attempts, KeyedTable.find?_of_mem hrow]
    rfl
  have hentries {row : OutboxModel}
      (hrow : row ∈ (Machine.run (JobsCall.apply tenant) .empty calls).outbox.rows) :
      entryClaims tenant calls row.entryId = row.attempt := by
    rw [entryClaims_eq, Lease.attempts, KeyedTable.find?_of_mem hrow]
    rfl
  constructor
  · exact fun h => ⟨fun row hrow => (h.1 row hrow).1, fun row hrow => (h.2 row hrow).1⟩
  · exact fun h => ⟨fun row hrow => ⟨h.1 row hrow, hjobs hrow ▸ h.1 row hrow⟩,
      fun row hrow => ⟨h.2 row hrow, hentries hrow ▸ h.2 row hrow⟩⟩

/-- The limits hold all along a run exactly when none of its claims takes over
an expired row that has used up its attempts. -/
theorem withinLimits_iff_sparesExhausted (calls : List JobsCall) :
    Machine.Guarded (JobsCall.apply tenant) SparesExhausted .empty calls ↔
      ∀ pre post, calls = pre ++ post → WithinLimits tenant pre := by
  simp only [withinLimits_iff]
  exact Machine.guarded_iff_prefixes (JobsCall.apply tenant)
    (fun _ h => h.attemptsBounded)
    (fun _ _ h hspare => JobsCall.queueBounded_apply h hspare)
    (fun _ _ _ hbounded => JobsCall.sparesExhausted_of_bounded hbounded) QueueBounded.empty

end Claims

/-- The last worker that may try the job died: its lease has run out. -/
def JobModel.Abandoned (row : JobModel) (now : Timestamp) : Prop :=
  row.status = .running ∧ row.maxAttempts ≤ row.attempt ∧
    ∃ expiry, row.leaseExpiresAt = some expiry ∧ expiry ≤ now

section Abandoned
variable {tenant : TenantContext} {s : JobStore} {row : JobModel} {now : Timestamp}

theorem JobModel.Abandoned.not_leasedTo (h : row.Abandoned now) {later : Timestamp}
    (hlater : now ≤ later) (workerId : String) : row.leasedTo workerId later = false := by
  obtain ⟨-, -, expiry, hexpiry, hpast⟩ := h
  have hdead : ¬ later < expiry := Nat.not_lt.mpr (hpast.trans hlater)
  simp [leasedTo, hexpiry, hdead]

/-- Within the limits an abandoned job is never ended: it stays running as it was left. -/
theorem JobModel.Abandoned.stays (h : row.Abandoned now) (hrow : s.job? row.jobId = some row)
    {calls : List JobsCall} (hlater : ∀ c ∈ calls, now ≤ c.now)
    (hkept : ∀ c ∈ calls, ∀ reason, c.op ≠ .cancelPendingTestRuns reason)
    (hspare : Machine.Guarded (JobsCall.apply tenant) SparesExhausted s calls) :
    (Machine.run (JobsCall.apply tenant) s calls).job? row.jobId = some row := by
  induction calls generalizing s with
  | nil => exact hrow
  | cons c calls ih =>
      obtain ⟨hfirst, hrest⟩ := (Machine.guarded_cons _).mp hspare
      refine ih ?_ (fun d hd => hlater d (List.mem_cons_of_mem c hd))
        (fun d hd => hkept d (List.mem_cons_of_mem c hd)) hrest
      obtain ⟨row', hrow', hsame | hstep⟩ :=
        (JobsCall.apply_changes tenant c s).jobs.find?_forward hrow
      · rw [← hsame]
        exact hsame ▸ hrow'
      · have hpast := hlater c List.mem_cons_self
        cases hstep with
        | claimed hmem => exact absurd (hfirst row hmem h.1) (Nat.not_lt.mpr h.2.1)
        | completed hlive => rw [h.not_leasedTo hpast] at hlive; cases hlive
        | renewed hlive => rw [h.not_leasedTo hpast] at hlive; cases hlive
        | failed hlive => rw [h.not_leasedTo hpast] at hlive; cases hlive
        | cancelled => exact absurd rfl (hkept _ List.mem_cons_self _)

end Abandoned

/-- A worker that dies in every one of `n` attempts: the lease runs out and the
job is claimed again. -/
def crashingClaims (n : Nat) : List JobsCall :=
  (List.range n).map fun k => ⟨k * seconds leaseSeconds, .claim "runner-http" 1 []⟩

/-- With `max_attempts` five the job is handed out a sixth time. -/
theorem attempts_exceed_limit :
    ¬ ∀ (tenant : TenantContext) (calls : List JobsCall), WithinLimits tenant calls := by
  intro h
  have hrun := (h sampleTenant
    (⟨0, .enqueueRun "run-1" "offer" "tiktok" 1 (.obj []) 5⟩ :: crashingClaims 6)).1
  revert hrun
  decide +kernel

end Orchestrator
