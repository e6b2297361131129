import Orchestrator.Db.GateResolution

/-!
The transactional outbox.

A job is inserted by `enqueue_run` or by `resolve_gate`, and the transaction
that inserts it writes its message and its event too. So the outbox and the
events that announce jobs are projections of the job table, row by row in the
order of the insertions. No later call touches the columns they project.
-/

namespace Orchestrator

namespace JobsOp

/-- The calls that queue jobs. -/
def queues : JobsOp → Bool
  | .enqueueRun .. | .resolveGate .. => true
  | _ => false

/-- The calls that move jobs on. -/
def movesJobs : JobsOp → Bool
  | .claim .. | .lease .. | .cancelPendingTestRuns _ => true
  | _ => false

end JobsOp

/-- What a job is and what it was queued for. -/
def Job.order (job : Job) : Uuid × String × JobKind × Json × Nat :=
  (job.jobId, job.runId, job.kind, job.payload, job.maxAttempts)

namespace JobModel
variable (row : JobModel)

def message : String × String × Json :=
  ((match row.kind with
    | .executeRun => "run.queued"
    | .resumeRun => "run.resume"),
    row.jobId, .obj [("job_id", .str row.jobId), ("run_id", .str row.runId)])

/-- The event of a first job names the job, that of a resume job its gate. -/
def announcement : String × String × Option Json :=
  match row.kind with
  | .executeRun => ("run_queued", row.runId, some (.str row.jobId))
  | .resumeRun => ("gate_resolved", row.runId, row.payload.get? "gate_id")

end JobModel

def OutboxModel.message (entry : OutboxModel) : String × String × Json :=
  (entry.topic, entry.messageKey, entry.payload)

def RunEvent.announcement (event : RunEvent) : String × String × Option Json :=
  (event.eventType, event.runId,
    event.data.get? (if event.eventType = "run_queued" then "job_id" else "gate_id"))

/-- The types of the events that announce jobs. -/
def announces (eventType : String) : Bool :=
  eventType = "run_queued" || eventType = "gate_resolved"

namespace JobStore

def announcements (s : JobStore) : List RunEvent :=
  s.events.rows.filter (fun event => announces event.eventType)

def messagesOf (s : JobStore) (jobId : Uuid) : List OutboxModel :=
  s.outbox.rows.filter (fun entry => entry.messageKey = jobId)

def announcementsOf (s : JobStore) (row : JobModel) : List RunEvent :=
  s.announcements.filter (fun event => event.announcement = row.announcement)

end JobStore

/-- The messages and the announcing events are those of the jobs. -/
structure Announced (s : JobStore) : Prop where
  messages : s.outbox.rows.map OutboxModel.message = s.jobs.rows.map JobModel.message
  events : s.announcements.map RunEvent.announcement = s.jobs.rows.map JobModel.announcement

theorem Announced.empty : Announced .empty := ⟨rfl, rfl⟩

namespace PostgresJobRepository
variable (row : JobModel) (offer : String) (batchSize : Int) (now : Timestamp) (s : JobStore)

theorem announceRun_outbox_rows : (announceRun row offer batchSize now s).outbox.rows =
    s.outbox.rows ++ [{
      entryId := s.outbox.next, topic := "run.queued", messageKey := row.jobId
      payload := .obj [("job_id", .str row.jobId), ("run_id", .str row.runId)]
      status := .pending, attempt := 0, leaseExpiresAt := none, workerId := none
      error := none, availableAt := now }] := rfl

theorem announceRun_announcements : (announceRun row offer batchSize now s).announcements =
    s.announcements ++ [{
      seq := s.events.next, runId := row.runId, eventType := "run_queued"
      data := .obj [("job_id", .str row.jobId)], createdAt := now }] := by
  simp [JobStore.announcements, announceRun, announces]

theorem announceResume_announcements (gate : RunGateModel) :
    (announceResume gate row now s).announcements = s.announcements ++ [{
      seq := s.events.next, runId := gate.runId, eventType := "gate_resolved"
      data := .obj [("gate_id", .str gate.gateId), ("gate_type", .str gate.gateType),
        ("version", .nat gate.version)]
      createdAt := now }] := by
  rw [JobStore.announcements, announceResume_events_rows, List.filter_append]
  rfl

end PostgresJobRepository

namespace JobsCall
variable {tenant : TenantContext} {c : JobsCall} {s s' : JobStore}

theorem JobStep.order {row row' : JobModel} (h : JobStep s c row row') :
    row'.order = row.order := by
  cases h <;> rfl

theorem JobStep.message {row row' : JobModel} (h : JobStep s c row row') :
    row'.message = row.message := by
  cases h <;> rfl

theorem JobStep.announcement {row row' : JobModel} (h : JobStep s c row row') :
    row'.announcement = row.announcement := by
  cases h <;> rfl

theorem JobStep.moves {row row' : JobModel} (h : JobStep s c row row') :
    c.op.movesJobs := by
  cases h <;> rfl

theorem EntryStep.message {row row' : OutboxModel} (h : EntryStep s c row row') :
    row'.message = row.message := by
  cases h <;> rfl

theorem NewJob.queues {row : JobModel} (h : NewJob tenant s c row) : c.op.queues := by
  cases h <;> rfl

theorem NewEntry.queues {row : OutboxModel} (h : NewEntry c row) : c.op.queues := by
  cases h <;> rfl

theorem not_announces_publicGateEvent (gateType : String) :
    announces (publicGateEvent gateType) = false := by
  unfold publicGateEvent
  split
  · decide
  · split <;> decide

theorem not_announces_eventTypes (hop : c.op.queues = false) :
    ∀ eventType ∈ c.eventTypes, announces eventType = false := by
  obtain ⟨now, op⟩ := c
  cases op with
  | enqueueRun | resolveGate => cases hop
  | lease id workerId call => cases call <;> simp [eventTypes, announces]
  | openGate runId gateType payload =>
      simp only [eventTypes, List.mem_cons, List.not_mem_nil, or_false, forall_eq_or_imp,
        forall_eq, not_announces_publicGateEvent, and_true]
      decide
  | _ => simp [eventTypes, announces]

end JobsCall

namespace Announced
variable {tenant : TenantContext} {c : JobsCall} {s s' : JobStore}

/-- A call that queues no job adds neither a message nor an announcing event. -/
theorem of_changes (h : Announced s) (hchanges : JobsCall.Changes tenant s c s')
    (hop : c.op.queues = false) : Announced s' := by
  have hjobs {β : Type} {g : JobModel → β}
      (hg : ∀ row row', JobsCall.JobStep s c row row' → g row' = g row) :
      s'.jobs.rows.map g = s.jobs.rows.map g := by
    rcases hchanges.jobs.map_rows hg with heq | ⟨row, hnew, -⟩
    · exact heq
    · exact absurd hnew.queues (by simp [hop])
  have houtbox : s'.outbox.rows.map OutboxModel.message =
      s.outbox.rows.map OutboxModel.message := by
    rcases hchanges.outbox.map_rows (fun _ _ hstep => hstep.message) with heq | ⟨row, hnew, -⟩
    · exact heq
    · exact absurd hnew.queues (by simp [hop])
  obtain ⟨logged, hrows, hlogged⟩ := hchanges.events
  have hnone : logged.filter (fun event => announces event.eventType) = [] := by
    refine List.filter_eq_nil_iff.mpr fun event hevent => ?_
    simp [JobsCall.not_announces_eventTypes hop _ (hlogged event hevent)]
  refine ⟨?_, ?_⟩
  · rw [houtbox, hjobs fun _ _ hstep => hstep.message]
    exact h.messages
  · rw [hjobs fun _ _ hstep => hstep.announcement, JobStore.announcements, hrows,
      List.filter_append, hnone, List.append_nil]
    exact h.events

/-- A transaction that inserts a job with its message and its event. -/
theorem queued (h : Announced s) {row : JobModel} {entry : OutboxModel} {event : RunEvent}
    (hjobs : s'.jobs.rows = s.jobs.rows ++ [row])
    (houtbox : s'.outbox.rows = s.outbox.rows ++ [entry]) (hentry : entry.message = row.message)
    (hevents : s'.announcements = s.announcements ++ [event])
    (hevent : event.announcement = row.announcement) : Announced s' where
  messages := by
    rw [houtbox, hjobs, List.map_append, List.map_append, h.messages, List.map_singleton,
      List.map_singleton, hentry]
  events := by
    rw [hevents, hjobs, List.map_append, List.map_append, h.events, List.map_singleton,
      List.map_singleton, hevent]

theorem of_enqueueRun (h : Announced s) {runId offer platform : String} {batchSize : Int}
    {payload : Json} {maxAttempts : Int} {now : Timestamp} {job : Job}
    (hok : PostgresJobRepository.enqueueRun tenant runId offer platform batchSize payload
      maxAttempts now s = .ok (job, s')) : Announced s' := by
  obtain ⟨-, rfl | ⟨jobs, hjobs, rfl⟩⟩ := PostgresJobRepository.enqueueRun_ok hok
  · exact ⟨h.messages, h.events⟩
  · exact h.queued (KeyedTable.rows_insert hjobs)
      (PostgresJobRepository.announceRun_outbox_rows ..) rfl
      (PostgresJobRepository.announceRun_announcements ..) rfl

theorem of_resolveGate (h : Announced s) {gateId : Uuid} {version : Int} {resolution : Json}
    {now : Timestamp} {job : Job}
    (hok : PostgresJobRepository.resolveGate tenant gateId version resolution now s =
      .ok (job, s')) : Announced s' := by
  obtain ⟨gate, run, jobs, -, -, -, hjobs, -, rfl⟩ := PostgresJobRepository.resolveGate_ok hok
  exact h.queued (KeyedTable.rows_insert hjobs)
    (PostgresJobRepository.announceResume_outbox_rows ..) rfl
    (PostgresJobRepository.announceResume_announcements ..) rfl

theorem apply (h : Announced s) (c : JobsCall) : Announced (c.apply tenant s).2 := by
  cases hop : c.op.queues with
  | false => exact h.of_changes (JobsCall.apply_changes tenant c s) hop
  | true =>
      refine JobsCall.apply_cases tenant c s h fun reply s' hok => ?_
      obtain ⟨now, op⟩ := c
      cases op with
      | enqueueRun runId offer platform batchSize payload maxAttempts =>
          obtain ⟨job, hok, -⟩ := JobsCall.replying_ok hok
          exact h.of_enqueueRun hok
      | resolveGate gateId version resolution =>
          obtain ⟨job, hok, -⟩ := JobsCall.replying_ok hok
          exact h.of_resolveGate hok
      | _ => cases hop

end Announced

section Unique
variable {tenant : TenantContext} {s : JobStore} {ds : List Decision}

/-- Resume jobs of one gate come from one decision. -/
theorem Decided.resumeJob_unique (h : Decided tenant s ds) {row row' : JobModel}
    (hrow : row ∈ s.resumeJobs) (hrow' : row' ∈ s.resumeJobs)
    (hgate : row.payload.get? "gate_id" = row'.payload.get? "gate_id") :
    row.jobId = row'.jobId := by
  have hdecision {row : JobModel} (hrow : row ∈ s.resumeJobs) : ∃ d ∈ ds,
      d.jobId tenant = row.jobId ∧ row.payload.get? "gate_id" = some (.str d.gate.gateId) := by
    have hmem := List.mem_map_of_mem (f := fun row : JobModel =>
      (row.jobId, row.runId, row.payload)) hrow
    rw [h.jobs] at hmem
    obtain ⟨d, hd, hjob⟩ := List.mem_map.mp hmem
    have hpayload : (d.job tenant).2.2 = row.payload := congrArg (·.2.2) hjob
    exact ⟨d, hd, congrArg Prod.fst hjob, hpayload ▸ (job_gate_id d _).mpr rfl⟩
  obtain ⟨d, hd, hjob, hid⟩ := hdecision hrow
  obtain ⟨d', hd', hjob', hid'⟩ := hdecision hrow'
  have hsame : d.gate.gateId = d'.gate.gateId := by simpa [hid, hid'] using hgate
  obtain rfl := List.inj_on_of_nodup_map h.nodup hd hd' hsame
  exact hjob.symm.trans hjob'

/-- No two jobs are announced by the same event. -/
theorem Decided.nodup_announcement (h : Decided tenant s ds) :
    (s.jobs.rows.map JobModel.announcement).Nodup := by
  refine List.Nodup.map_on ?_ s.jobs.nodup.of_map
  intro row hrow row' hrow' heq
  refine s.jobs.eq_of_key_eq hrow hrow' ?_
  cases hkind : row.kind <;> cases hkind' : row'.kind <;>
    simp only [JobModel.announcement, hkind, hkind', Prod.mk.injEq, Option.some.injEq,
      Json.str.injEq] at heq
  case executeRun.executeRun => exact heq.2.2
  case resumeRun.resumeRun =>
    exact h.resumeJob_unique (List.mem_filter.mpr ⟨hrow, by simp [hkind]⟩)
      (List.mem_filter.mpr ⟨hrow', by simp [hkind']⟩) heq.2.2
  case executeRun.resumeRun => simp at heq
  case resumeRun.executeRun => simp at heq

variable {row : JobModel} (h : Announced s) (hrow : row ∈ s.jobs.rows)
include h hrow

theorem Announced.message :
    ∃ entry, s.messagesOf row.jobId = [entry] ∧ entry.message = row.message :=
  exists_singleton_of_map_eq h.messages (fun view => view.2.1 = row.jobId)
    (filter_eq_singleton s.jobs.nodup hrow)

theorem Announced.event (hdecided : Decided tenant s ds) :
    ∃ event, s.announcementsOf row = [event] ∧ event.announcement = row.announcement :=
  exists_singleton_of_map_eq h.events (fun view => view = row.announcement)
    (filter_eq_singleton hdecided.nodup_announcement hrow)

end Unique

namespace PostgresJobRepository
variable {tenant : TenantContext} {runId : String} {s s' : JobStore}

/-- An enqueue that returns leaves its run and replies with the stored job. -/
theorem enqueueRun_stored {offer platform : String} {batchSize : Int} {payload : Json}
    {maxAttempts : Int} {now : Timestamp} {job : Job}
    (h : enqueueRun tenant runId offer platform batchSize payload maxAttempts now s =
      .ok (job, s')) :
    ∃ row run, s'.job? (jobId tenant runId "execute_run") = some row ∧ row.toJob = job ∧
      s'.run? runId = some run := by
  have hrun := s.runs.exists_find?_insertNew (queuedRun runId offer platform batchSize)
  unfold enqueueRun at h
  split at h
  · cases h
  · simp only at h
    split at h
    · rename_i hjobs
      obtain ⟨row, hrow⟩ := Option.isSome_iff_exists.mp (KeyedTable.insert?_eq_none_iff.mp hjobs)
      cases h
      refine ⟨row, hrun.choose, hrow, ?_, hrun.choose_spec⟩
      exact congrArg JobModel.toJob (Option.getD_eq_iff.mpr (Or.inl hrow)).symm
    · rename_i jobs hjobs
      cases h
      exact ⟨_, hrun.choose, (KeyedTable.find?_insert hjobs _).trans (if_pos rfl), rfl,
        hrun.choose_spec⟩

/-- With the job and the run there, an enqueue changes nothing. -/
theorem enqueueRun_repeated {row : JobModel} {run : Run}
    (hrow : s.job? (jobId tenant runId "execute_run") = some row) (hrun : s.run? runId = some run)
    (offer platform : String) (batchSize : Int) (payload : Json) (maxAttempts : Int)
    (now : Timestamp) :
    enqueueRun tenant runId offer platform batchSize payload maxAttempts now s =
      if batchSize < 0 ∨ maxAttempts ≤ 0 then .error .checkViolation else .ok (row.toJob, s) := by
  have hruns : s.runs.insertNew (queuedRun runId offer platform batchSize) = s.runs :=
    KeyedTable.insertNew_of_some hrun
  have hjobs : s.jobs.insert? (executeRunJob tenant runId payload maxAttempts now) = none :=
    KeyedTable.insert?_eq_none_iff.mpr (Option.isSome_iff_exists.mpr ⟨row, hrow⟩)
  have hfound : s.job? (executeRunJob tenant runId payload maxAttempts now).jobId = some row := hrow
  simp only [enqueueRun, hruns, hjobs, hfound, Option.getD_some]

end PostgresJobRepository

namespace JobsCall
variable {tenant : TenantContext} {s : JobStore}

variable (tenant) in
/-- A job stays what it is; it stays as it is unless a call moves it. -/
theorem job?_run (more : List JobsCall) {id : Uuid} {row : JobModel} (h : s.job? id = some row) :
    ∃ row', (Machine.run (apply tenant) s more).job? id = some row' ∧ row'.order = row.order ∧
      ((∀ c ∈ more, c.op.movesJobs = false) → row' = row) := by
  induction more generalizing s row with
  | nil => exact ⟨row, h, rfl, fun _ => rfl⟩
  | cons c more ih =>
      obtain ⟨row₁, hrow₁, hstep⟩ := (apply_changes tenant c s).jobs.find?_forward h
      obtain ⟨row', hrow', horder, hquiet⟩ := ih hrow₁
      rcases hstep with rfl | hstep
      · exact ⟨row', hrow', horder, fun hmore =>
          hquiet fun c hc => hmore c (List.mem_cons_of_mem _ hc)⟩
      · refine ⟨row', hrow', horder.trans hstep.order, fun hmore => ?_⟩
        have hquiet := hmore c List.mem_cons_self
        rw [hstep.moves] at hquiet
        cases hquiet

variable (tenant) in
theorem exists_run?_run (more : List JobsCall) {runId : String} {run : Run}
    (h : s.run? runId = some run) :
    ∃ run', (Machine.run (apply tenant) s more).run? runId = some run' := by
  induction more generalizing s run with
  | nil => exact ⟨run, h⟩
  | cons c more ih =>
      obtain ⟨run₁, hrun₁, -⟩ := (apply_changes tenant c s).runs.find?_forward h
      exact ih hrun₁

end JobsCall

/-- An enqueue of the run replies `job` and changes nothing; one whose rows
break a check of their tables raises. -/
def EnqueueReplies (tenant : TenantContext) (s : JobStore) (runId : String) (job : Job) : Prop :=
  ∀ offer platform (batchSize : Int) payload (maxAttempts : Int) now,
    JobsCall.apply tenant ⟨now, .enqueueRun runId offer platform batchSize payload maxAttempts⟩ s =
      (if batchSize < 0 ∨ maxAttempts ≤ 0 then .error .checkViolation else .ok (.job job), s)

/-- What holds of the jobs, their messages and their events in every reachable
state, and of every call that meets it. -/
structure TransactionalOutbox (tenant : TenantContext) (s : JobStore) : Prop where
  message : ∀ row ∈ s.jobs.rows,
    ∃ entry, s.messagesOf row.jobId = [entry] ∧ entry.message = row.message
  event : ∀ row ∈ s.jobs.rows,
    ∃ event, s.announcementsOf row = [event] ∧ event.announcement = row.announcement
  /-- There is no message and no announcing event beside those of the jobs. -/
  announced : Announced s
  /-- The job that a call queues or finds is in the tables when the call returns. -/
  stored : ∀ (c : JobsCall) job, c.op.queues → (c.apply tenant s).1 = .ok (.job job) →
    ∃ row ∈ (c.apply tenant s).2.jobs.rows, row.toJob = job
  raised_unchanged : ∀ (c : JobsCall) exc,
    (c.apply tenant s).1 = .error exc → (c.apply tenant s).2 = s
  /-- Whatever followed the first enqueue of a run, the next one returns its job. -/
  repeated : ∀ runId offer platform (batchSize : Int) payload (maxAttempts : Int) now job s',
    JobsCall.apply tenant ⟨now, .enqueueRun runId offer platform batchSize payload maxAttempts⟩ s =
      (.ok (.job job), s') →
    ∀ more, ∃ job', EnqueueReplies tenant (Machine.run (JobsCall.apply tenant) s' more) runId job' ∧
      job'.order = job.order ∧ ((∀ c ∈ more, c.op.movesJobs = false) → job' = job)

namespace JobsCall
variable {tenant : TenantContext} {s : JobStore} {runId : String}

theorem enqueueReplies {row : JobModel} {run : Run}
    (hrow : s.job? (jobId tenant runId "execute_run") = some row)
    (hrun : s.run? runId = some run) : EnqueueReplies tenant s runId row.toJob := by
  intro offer platform batchSize payload maxAttempts now
  have henqueue := PostgresJobRepository.enqueueRun_repeated hrow hrun offer platform batchSize
    payload maxAttempts now
  by_cases hbad : batchSize < 0 ∨ maxAttempts ≤ 0
  · rw [if_pos hbad] at henqueue ⊢
    simp only [apply, transact, henqueue, replying]
  · rw [if_neg hbad] at henqueue ⊢
    simp only [apply, transact, henqueue, replying]

theorem enqueueReplies_run {offer platform : String} {batchSize : Int} {payload : Json}
    {maxAttempts : Int} {now : Timestamp} {job : Job} {s' : JobStore}
    (h : apply tenant ⟨now, .enqueueRun runId offer platform batchSize payload maxAttempts⟩ s =
      (.ok (.job job), s')) (more : List JobsCall) :
    ∃ job', EnqueueReplies tenant (Machine.run (apply tenant) s' more) runId job' ∧
      job'.order = job.order ∧ ((∀ c ∈ more, c.op.movesJobs = false) → job' = job) := by
  cases henqueue : PostgresJobRepository.enqueueRun tenant runId offer platform batchSize payload
      maxAttempts now s with
  | error exc => simp [apply, transact, henqueue, replying] at h
  | ok value =>
      obtain ⟨rfl, rfl⟩ : value.1 = job ∧ value.2 = s' := by
        simpa [apply, transact, henqueue, replying] using h
      obtain ⟨row, run, hrow, hjob, hrun⟩ := PostgresJobRepository.enqueueRun_stored henqueue
      obtain ⟨row', hrow', horder, hquiet⟩ := job?_run tenant more hrow
      obtain ⟨run', hrun'⟩ := exists_run?_run tenant more hrun
      rw [← hjob]
      exact ⟨row'.toJob, enqueueReplies hrow' hrun', horder,
        fun hmore => congrArg JobModel.toJob (hquiet hmore)⟩

end JobsCall

namespace JobsCall
variable {tenant : TenantContext} {s : JobStore}

theorem stored_of_apply {c : JobsCall} {job : Job} (hop : c.op.queues)
    (h : (c.apply tenant s).1 = .ok (.job job)) :
    ∃ row ∈ (c.apply tenant s).2.jobs.rows, row.toJob = job := by
  have htransact := transact_of_apply_ok (Prod.ext h rfl)
  obtain ⟨now, op⟩ := c
  cases op with
  | enqueueRun runId offer platform batchSize payload maxAttempts =>
      obtain ⟨stored, hok, hreply⟩ := replying_ok htransact
      obtain rfl := JobsReply.job.inj hreply
      obtain ⟨row, -, hrow, hjob, -⟩ := PostgresJobRepository.enqueueRun_stored hok
      exact ⟨row, KeyedTable.find?_mem hrow, hjob⟩
  | resolveGate gateId version resolution =>
      obtain ⟨stored, hok, hreply⟩ := replying_ok htransact
      obtain rfl := JobsReply.job.inj hreply
      obtain ⟨gate, run, jobs, -, -, -, hjobs, hjob, hstore⟩ :=
        PostgresJobRepository.resolveGate_ok hok
      have hrows := (congrArg (fun s' : JobStore => s'.jobs.rows) hstore).trans
        (KeyedTable.rows_insert hjobs)
      exact ⟨_, hrows ▸ List.mem_append_right _ (List.mem_singleton_self _), hjob.symm⟩
  | _ => cases hop

end JobsCall

theorem transactional_outbox (tenant : TenantContext) (calls : List JobsCall) :
    TransactionalOutbox tenant (Machine.run (JobsCall.apply tenant) .empty calls) := by
  obtain ⟨ds, hdecided⟩ := Decided.exists_run tenant calls
  have h : Announced (Machine.run (JobsCall.apply tenant) .empty calls) :=
    Machine.run_invariant (JobsCall.apply tenant) (fun _ c hs => hs.apply c) .empty calls
  exact {
    message := fun _ hrow => h.message hrow
    event := fun _ hrow => h.event hrow hdecided
    announced := h
    stored := fun _ _ hop hreply => JobsCall.stored_of_apply hop hreply
    raised_unchanged := fun _ _ hraised => JobsCall.apply_error hraised
    repeated := fun _ _ _ _ _ _ _ _ _ hfirst => JobsCall.enqueueReplies_run hfirst }

end Orchestrator
