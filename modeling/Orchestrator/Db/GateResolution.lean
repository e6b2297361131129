import Mathlib.Data.List.Dedup
import Orchestrator.Db.Gates

/-!
Exactly one resolution per gate.

The abstract state of the gate protocol is the list of the decisions taken so
far. The resume jobs, the `run.resume` messages and the `gate_resolved` events
are three projections of that one list: they only grow together, by the one
transaction that takes a decision, and the decided gates are the resolved ones.
-/

namespace Orchestrator

/-- A decision: the pending gate it was taken at, what was decided, and the
payload of the run's first job. -/
structure Decision where
  gate : RunGateModel
  resolution : Json
  run : Json

namespace Decision
variable (tenant : TenantContext) (d : Decision)

def jobId : Uuid := PostgresJobRepository.resumeJobId tenant d.gate

/-- What identifies the resume job and what it is to do. -/
def job : Uuid × String × Json :=
  (d.jobId tenant, d.gate.runId,
    PostgresJobRepository.resumePayload d.gate d.resolution d.run)

def message : String × Json :=
  (d.jobId tenant,
    .obj [("job_id", .str (d.jobId tenant)), ("run_id", .str d.gate.runId)])

def event : String × Json :=
  (d.gate.runId,
    .obj [("gate_id", .str d.gate.gateId), ("gate_type", .str d.gate.gateType),
      ("version", .nat d.gate.version)])

end Decision

namespace JobStore

def resumeJobs (s : JobStore) : List JobModel :=
  s.jobs.rows.filter (fun row => row.kind = .resumeRun)

def resumeMessages (s : JobStore) : List OutboxModel :=
  s.outbox.rows.filter (fun entry => entry.topic = "run.resume")

def resolvedEvents (s : JobStore) : List RunEvent :=
  s.events.rows.filter (fun event => event.eventType = "gate_resolved")

end JobStore

/-- The tables hold exactly the decisions `ds`. -/
structure Decided (tenant : TenantContext) (s : JobStore) (ds : List Decision) : Prop where
  jobs : s.resumeJobs.map (fun row => (row.jobId, row.runId, row.payload)) =
    ds.map (Decision.job tenant)
  messages : s.resumeMessages.map (fun entry => (entry.messageKey, entry.payload)) =
    ds.map (Decision.message tenant)
  events : s.resolvedEvents.map (fun event => (event.runId, event.data)) =
    ds.map Decision.event
  gates : ∀ d ∈ ds, ∃ now, s.gate? d.gate.gateId =
    some (PostgresJobRepository.resolvedGate d.resolution now d.gate)
  resolved : ∀ gate ∈ s.gates.rows, gate.status = .resolved →
    ∃ d ∈ ds, ∃ now, gate = PostgresJobRepository.resolvedGate d.resolution now d.gate
  nodup : (ds.map (fun d => d.gate.gateId)).Nodup

theorem Decided.empty (tenant : TenantContext) : Decided tenant .empty [] :=
  ⟨rfl, rfl, rfl, nofun, nofun, List.nodup_nil⟩

namespace Decided
variable {tenant : TenantContext} {s s' : JobStore} {c : JobsCall} {ds : List Decision}

theorem not_mem_eventTypes
    (hop : ∀ gateId version resolution, c.op ≠ .resolveGate gateId version resolution) :
    "gate_resolved" ∉ c.eventTypes := by
  obtain ⟨now, op⟩ := c
  cases op with
  | resolveGate gateId version resolution => exact absurd rfl (hop gateId version resolution)
  | lease id workerId call => cases call <;> simp [JobsCall.eventTypes]
  | openGate runId gateType payload =>
      have hpublic : publicGateEvent gateType ≠ "gate_resolved" := by
        unfold publicGateEvent
        split
        · decide
        · split <;> decide
      simpa [JobsCall.eventTypes] using hpublic.symm
  | _ => simp [JobsCall.eventTypes]

/-- A call that is no `resolve_gate` takes no decision. -/
theorem of_changes (h : Decided tenant s ds) (hchanges : JobsCall.Changes tenant s c s')
    (hop : ∀ gateId version resolution, c.op ≠ .resolveGate gateId version resolution) :
    Decided tenant s' ds where
  jobs := by
    rcases hchanges.jobs.filter_rows (p := fun row => row.kind = .resumeRun)
        (g := fun row => (row.jobId, row.runId, row.payload))
        (fun row row' hstep => by cases hstep <;> exact ⟨rfl, rfl⟩) with heq | ⟨row, hnew, -, heq⟩
    · exact heq.trans h.jobs
    · cases hnew with
      | executeRun => exact (heq.trans (List.append_nil _)).trans h.jobs
      | resumeRun => exact absurd rfl (hop _ _ _)
  messages := by
    rcases hchanges.outbox.filter_rows (p := fun entry => entry.topic = "run.resume")
        (g := fun entry => (entry.messageKey, entry.payload))
        (fun row row' hstep => by cases hstep <;> exact ⟨rfl, rfl⟩) with heq | ⟨row, hnew, -, heq⟩
    · exact heq.trans h.messages
    · cases hnew with
      | runQueued hstatus hattempt htopic =>
          rw [htopic] at heq
          exact (heq.trans (List.append_nil _)).trans h.messages
      | runResume => exact absurd rfl (hop _ _ _)
  events := by
    obtain ⟨logged, hrows, hlogged⟩ := hchanges.events
    have hnone : logged.filter (fun event => event.eventType = "gate_resolved") = [] := by
      refine List.filter_eq_nil_iff.mpr fun e he htype => ?_
      have hmem := hlogged e he
      rw [of_decide_eq_true htype] at hmem
      exact absurd hmem (not_mem_eventTypes hop)
    rw [JobStore.resolvedEvents, hrows, List.filter_append, hnone, List.append_nil]
    exact h.events
  gates := by
    intro d hd
    obtain ⟨now, hgate⟩ := h.gates d hd
    obtain ⟨gate', hgate', rfl | hstep⟩ := hchanges.gates.find?_forward hgate
    · exact ⟨now, hgate'⟩
    · cases hstep.pending
  resolved := by
    intro gate' hgate' hresolved
    rcases hchanges.gates.find?_backward (KeyedTable.find?_of_mem hgate') with
      ⟨-, hnew⟩ | ⟨gate, hgate, rfl | hstep⟩
    · cases hnew with
      | opened => cases hresolved
    · exact h.resolved _ (KeyedTable.find?_mem hgate) hresolved
    · cases hstep with
      | resolved => exact absurd rfl (hop _ _ _)
      | cancelled => cases hresolved
  nodup := h.nodup

/-- A `resolve_gate` that returns takes one more decision, at a gate that was
pending, and writes it to all four tables. -/
theorem of_resolveGate (h : Decided tenant s ds) {gateId : Uuid} {version : Int}
    {resolution : Json} {now : Timestamp} {job : Job}
    (hok : PostgresJobRepository.resolveGate tenant gateId version resolution now s =
      .ok (job, s')) :
    ∃ d, Decided tenant s' (ds ++ [d]) := by
  have hchanges := JobsCall.resolveGate_changes tenant hok
  obtain ⟨gate, run, jobs, hgate, hversion, hpending, hjobs, -, rfl⟩ :=
    PostgresJobRepository.resolveGate_ok hok
  obtain rfl := KeyedTable.find?_key hgate
  have hfresh (d : Decision) (hd : d ∈ ds) : d.gate.gateId ≠ gate.gateId := by
    intro heq
    obtain ⟨at_, hd⟩ := h.gates d hd
    rw [heq] at hd
    rw [Option.some.inj (hgate.symm.trans hd)] at hpending
    cases hpending
  have hmarked := KeyedTable.find?_update_self
    (PostgresJobRepository.resolvedGate resolution now) (fun _ => rfl) hgate
  let d : Decision := ⟨gate, resolution, run⟩
  refine ⟨d, ?_, ?_, ?_, ?_, ?_, ?_⟩
  · rw [JobStore.resumeJobs, PostgresJobRepository.announceResume_jobs,
      KeyedTable.rows_insert hjobs, List.filter_append, List.map_append, List.map_append]
    exact congrArg (· ++ [d.job tenant]) h.jobs
  · rw [JobStore.resumeMessages, PostgresJobRepository.announceResume_outbox_rows,
      List.filter_append, List.map_append, List.map_append]
    exact congrArg (· ++ [d.message tenant]) h.messages
  · rw [JobStore.resolvedEvents, PostgresJobRepository.announceResume_events_rows,
      List.filter_append, List.map_append, List.map_append]
    exact congrArg (· ++ [d.event]) h.events
  · intro d' hd'
    rcases List.mem_append.mp hd' with hd' | hd'
    · obtain ⟨at_, hgate'⟩ := h.gates d' hd'
      obtain ⟨gate', hafter, rfl | hstep⟩ := hchanges.gates.find?_forward hgate'
      · exact ⟨at_, hafter⟩
      · cases hstep.pending
    · rw [List.mem_singleton.mp hd']
      exact ⟨now, hmarked⟩
  · intro gate' hgate' hresolved
    by_cases hid : gate'.gateId = gate.gateId
    · exact ⟨d, by simp, now,
        KeyedTable.eq_of_key_eq _ hgate' (KeyedTable.find?_mem hmarked) hid⟩
    · rcases hchanges.gates.find?_backward (KeyedTable.find?_of_mem hgate') with
        ⟨-, hnew⟩ | ⟨gate₀, hgate₀, rfl | hstep⟩
      · cases hnew
      · obtain ⟨d', hd', hgate''⟩ := h.resolved _ (KeyedTable.find?_mem hgate₀) hresolved
        exact ⟨d', by simp [hd'], hgate''⟩
      · exact absurd (hstep.same.1.trans hstep.resolve_id) hid
  · rw [List.map_append, List.nodup_append]
    refine ⟨h.nodup, List.nodup_singleton _, ?_⟩
    intro id hid id' hid'
    obtain ⟨d', hd', rfl⟩ := List.mem_map.mp hid
    rw [List.mem_singleton.mp hid']
    exact hfresh d' hd'

theorem apply (h : Decided tenant s ds) (c : JobsCall) :
    ∃ ds, Decided tenant (c.apply tenant s).2 ds := by
  by_cases hop : ∃ gateId version resolution, c.op = .resolveGate gateId version resolution
  · refine JobsCall.apply_cases tenant c s (P := fun t => ∃ ds, Decided tenant t ds) ⟨ds, h⟩ ?_
    intro reply s' hok
    obtain ⟨gateId, version, resolution, hop⟩ := hop
    obtain ⟨now, op⟩ := c
    obtain rfl : op = .resolveGate gateId version resolution := hop
    obtain ⟨job, hok, -⟩ := JobsCall.replying_ok hok
    obtain ⟨d, hd⟩ := h.of_resolveGate hok
    exact ⟨_, hd⟩
  · exact ⟨ds, h.of_changes (JobsCall.apply_changes tenant c s)
      fun gateId version resolution heq => hop ⟨gateId, version, resolution, heq⟩⟩

/-- In every run the tables hold one list of decisions. -/
theorem exists_run (tenant : TenantContext) (calls : List JobsCall) :
    ∃ ds, Decided tenant (Machine.run (JobsCall.apply tenant) .empty calls) ds := by
  induction calls using List.reverseRecOn with
  | nil => exact ⟨[], .empty tenant⟩
  | append_singleton calls c ih =>
      obtain ⟨ds, h⟩ := ih
      rw [Machine.run_concat]
      exact h.apply c

end Decided

section Projection
variable {α β δ κ : Type} {as : List α} {ds : List δ} {f : α → β} {g : δ → β}

/-- What two projections onto the same list select is the same. -/
theorem map_filter_of_map_eq (h : as.map f = ds.map g) (q : β → Bool) :
    (as.filter (fun a => q (f a))).map f = (ds.filter (fun d => q (g d))).map g := by
  have ha : (as.filter (fun a => q (f a))).map f = (as.map f).filter q := by
    rw [List.filter_map]
    rfl
  have hd : (ds.filter (fun d => q (g d))).map g = (ds.map g).filter q := by
    rw [List.filter_map]
    rfl
  rw [ha, hd, h]

theorem filter_eq_singleton [DecidableEq κ] {key : δ → κ} (hn : (ds.map key).Nodup) {d : δ}
    (hd : d ∈ ds) : ds.filter (fun d' => key d' = key d) = [d] := by
  induction ds with
  | nil => cases hd
  | cons d₀ ds ih =>
      obtain ⟨hnot, hn⟩ := List.nodup_cons.mp hn
      by_cases heq : key d₀ = key d
      · have hnone : ds.filter (fun d' => key d' = key d) = [] := by
          refine List.filter_eq_nil_iff.mpr fun d' hd' hkey => hnot ?_
          rw [heq, ← of_decide_eq_true hkey]
          exact List.mem_map_of_mem hd'
        have hhead : d₀ = d := by
          rcases List.mem_cons.mp hd with rfl | hd
          · rfl
          · exact absurd (heq ▸ List.mem_map_of_mem hd) hnot
        rw [List.filter_cons, if_pos (decide_eq_true heq), hnone, hhead]
      · have hd : d ∈ ds := by
          rcases List.mem_cons.mp hd with rfl | hd
          · exact absurd rfl heq
          · exact hd
        rw [List.filter_cons, if_neg (by simpa using heq), ih hn hd]

/-- Exactly one row projects to the one entry that was selected. -/
theorem exists_singleton_of_map_eq (h : as.map f = ds.map g) (q : β → Bool) {d : δ}
    (hd : ds.filter (fun d' => q (g d')) = [d]) :
    ∃ a, as.filter (fun a => q (f a)) = [a] ∧ f a = g d := by
  have hmap := map_filter_of_map_eq h q
  rw [hd, List.map_singleton] at hmap
  obtain ⟨a, ha, hf⟩ := List.map_eq_singleton_iff.mp hmap
  exact ⟨a, ha, hf⟩

end Projection

namespace JobStore

def resumeJobsOf (s : JobStore) (gateId : Uuid) : List JobModel :=
  s.resumeJobs.filter (fun row => row.payload.get? "gate_id" = some (.str gateId))

def resumeMessagesOf (s : JobStore) (jobId : Uuid) : List OutboxModel :=
  s.resumeMessages.filter (fun entry => entry.messageKey = jobId)

def resolvedEventsOf (s : JobStore) (gateId : Uuid) : List RunEvent :=
  s.resolvedEvents.filter (fun event => event.data.get? "gate_id" = some (.str gateId))

end JobStore

/-- The gate has one resume job, one message for that job and one event, and
they carry the decision stored with the gate. -/
def ResolvedOnce (s : JobStore) (gate : RunGateModel) : Prop :=
  ∃ row message event,
    s.resumeJobsOf gate.gateId = [row] ∧ s.resumeMessagesOf row.jobId = [message] ∧
      s.resolvedEventsOf gate.gateId = [event] ∧
      row.runId = gate.runId ∧ event.runId = gate.runId ∧
      row.payload.get? "resolution" = gate.resolution ∧
      row.payload.get? "gate_version" = some (.nat gate.version)

namespace Decided
variable {tenant : TenantContext} {s : JobStore} {ds : List Decision}

theorem jobIds_nodup (h : Decided tenant s ds) : (ds.map (Decision.jobId tenant)).Nodup := by
  have hids : s.resumeJobs.map (·.jobId) = ds.map (Decision.jobId tenant) := by
    simpa [List.map_map, Function.comp_def, Decision.job] using congrArg (List.map Prod.fst) h.jobs
  rw [← hids]
  exact s.jobs.nodup.sublist (List.filter_sublist.map _)

theorem job_gate_id (d : Decision) (gateId : Uuid) :
    ((d.job tenant).2.2.get? "gate_id" = some (.str gateId)) ↔ d.gate.gateId = gateId := by
  simp [Decision.job, PostgresJobRepository.resumePayload, Json.get?]

theorem event_gate_id (d : Decision) (gateId : Uuid) :
    (d.event.2.get? "gate_id" = some (.str gateId)) ↔ d.gate.gateId = gateId := by
  simp [Decision.event, Json.get?]

theorem resolvedOnce (h : Decided tenant s ds) {gate : RunGateModel} (hgate : gate ∈ s.gates.rows)
    (hresolved : gate.status = .resolved) : ResolvedOnce s gate := by
  obtain ⟨d, hd, now, rfl⟩ := h.resolved gate hgate hresolved
  have hone := filter_eq_singleton h.nodup hd
  obtain ⟨row, hrow, hjob⟩ := exists_singleton_of_map_eq h.jobs
    (fun view => view.2.2.get? "gate_id" = some (.str d.gate.gateId))
    (by simpa only [job_gate_id] using hone)
  obtain ⟨message, hmessage, -⟩ := exists_singleton_of_map_eq h.messages
    (fun view => view.1 = d.jobId tenant) (filter_eq_singleton h.jobIds_nodup hd)
  obtain ⟨event, hevent, hview⟩ := exists_singleton_of_map_eq h.events
    (fun view => view.2.get? "gate_id" = some (.str d.gate.gateId))
    (by simpa only [event_gate_id] using hone)
  obtain ⟨hid, hrun, hpayload⟩ : row.jobId = d.jobId tenant ∧ row.runId = d.gate.runId ∧
      row.payload = PostgresJobRepository.resumePayload d.gate d.resolution d.run := by
    simpa [Decision.job] using hjob
  refine ⟨row, message, event, hrow, hid ▸ hmessage, hevent, hrun, congrArg Prod.fst hview, ?_, ?_⟩
  · simp [hpayload, PostgresJobRepository.resumePayload, Json.get?,
      PostgresJobRepository.resolvedGate]
  · simp [hpayload, PostgresJobRepository.resumePayload, Json.get?,
      PostgresJobRepository.resolvedGate]

theorem unresolved (h : Decided tenant s ds) {gate : RunGateModel} (hgate : gate ∈ s.gates.rows)
    (hopen : gate.status ≠ .resolved) :
    s.resumeJobsOf gate.gateId = [] ∧ s.resolvedEventsOf gate.gateId = [] := by
  have hnone : ds.filter (fun d => d.gate.gateId = gate.gateId) = [] := by
    refine List.filter_eq_nil_iff.mpr fun d hd hid => hopen ?_
    obtain ⟨now, hd⟩ := h.gates d hd
    rw [of_decide_eq_true hid, JobStore.gate?, KeyedTable.find?_of_mem hgate] at hd
    rw [Option.some.inj hd]
    rfl
  have hjobs := map_filter_of_map_eq h.jobs
    (fun view => view.2.2.get? "gate_id" = some (.str gate.gateId))
  have hevents := map_filter_of_map_eq h.events
    (fun view => view.2.get? "gate_id" = some (.str gate.gateId))
  simp only [job_gate_id, event_gate_id, hnone, List.map_nil, List.map_eq_nil_iff] at hjobs hevents
  exact ⟨hjobs, hevents⟩

end Decided

/-- What holds of the gates in every reachable state, and of every call that
meets it. -/
structure GatesSettleOnce (tenant : TenantContext) (s : JobStore) : Prop where
  /-- A gate that left `pending` stays as it is, whatever follows. -/
  settled_final : ∀ calls id gate, s.gate? id = some gate → gate.status ≠ .pending →
    (Machine.run (JobsCall.apply tenant) s calls).gate? id = some gate
  resolved : ∀ gate ∈ s.gates.rows, gate.status = .resolved → ResolvedOnce s gate
  unresolved : ∀ gate ∈ s.gates.rows, gate.status ≠ .resolved →
    s.resumeJobsOf gate.gateId = [] ∧ s.resolvedEventsOf gate.gateId = []
  raised_unchanged : ∀ (c : JobsCall) exc,
    (c.apply tenant s).1 = .error exc → (c.apply tenant s).2 = s
  late_resolve : ∀ now gateId (version : Int) resolution,
    (∀ gate, s.gate? gateId = some gate → gate.version = version → gate.status ≠ .pending) →
    ∃ exc, JobsCall.apply tenant ⟨now, .resolveGate gateId version resolution⟩ s = (.error exc, s)
  late_cancel : ∀ now reason, (∀ gate ∈ s.gates.rows, gate.status ≠ .pending) →
    JobsCall.apply tenant ⟨now, .cancelPendingTestRuns reason⟩ s =
      (.ok (.cancellation ⟨0, 0, 0⟩), s)
  versions : ∀ runId gateType, ∃ n,
    (s.gatesOf runId gateType).map (·.version) = List.range' 1 n
  distinct : (s.gates.rows.map (·.gateId)).Nodup
  /-- The caller to whom `resolve_gate` returns has decided the gate. -/
  won : ∀ now gateId (version : Int) resolution reply s',
    JobsCall.apply tenant ⟨now, .resolveGate gateId version resolution⟩ s = (.ok reply, s') →
    ∃ gate row, s.gate? gateId = some gate ∧ gate.version = version ∧ gate.status = .pending ∧
      s'.gate? gateId = some (PostgresJobRepository.resolvedGate resolution now gate) ∧
      ResolvedOnce s' (PostgresJobRepository.resolvedGate resolution now gate) ∧
      s'.resumeJobsOf gateId = [row] ∧ reply = .job row.toJob
  answered : ∀ now gateId (version : Int) resolution gate, s.gate? gateId = some gate →
    gate.version = version → gate.status = .pending →
    s.job? (PostgresJobRepository.resumeJobId tenant gate) = none →
    ∃ reply s', JobsCall.apply tenant ⟨now, .resolveGate gateId version resolution⟩ s =
      (.ok reply, s')
  opened : ∀ now runId gateType payload reply s',
    JobsCall.apply tenant ⟨now, .openGate runId gateType payload⟩ s = (.ok reply, s') →
    ∃ gate : RunGate, reply = .gate gate ∧ gate.runId = runId ∧ gate.gateType = gateType ∧
      gate.status = .pending ∧ s'.gates.rows = s.gates.rows ++ [{ toRunGate := gate }]
  cancelled : ∀ now reason reply s',
    JobsCall.apply tenant ⟨now, .cancelPendingTestRuns reason⟩ s = (.ok reply, s') →
    ∀ gateId gate, s.gate? gateId = some gate → gate.status = .pending →
      s'.gate? gateId = some (PostgresJobRepository.cancelledGate reason now gate)

namespace JobsCall
variable (tenant : TenantContext) (s : JobStore) (now : Timestamp)

/-- What a call returned was the value of a transaction that was committed. -/
theorem transact_of_apply_ok {tenant : TenantContext} {s s' : JobStore} {c : JobsCall}
    {reply : JobsReply} (h : c.apply tenant s = (.ok reply, s')) :
    c.transact tenant s = .ok (reply, s') := by
  unfold apply at h
  split at h
  · rename_i htransact
    cases h
    exact htransact
  · cases h

theorem apply_resolve_pending {gateId : Uuid} {gate : RunGateModel} (resolution : Json)
    (hgate : s.gate? gateId = some gate) (hpending : gate.status = .pending)
    (hfresh : s.job? (PostgresJobRepository.resumeJobId tenant gate) = none) :
    ∃ reply s', apply tenant ⟨now, .resolveGate gateId gate.version resolution⟩ s =
      (.ok reply, s') := by
  obtain ⟨job, s', hok, -⟩ := PostgresJobRepository.resolveGate_of_pending now resolution
    hgate rfl hpending hfresh
  exact ⟨_, _, apply_of_ok tenant _ s (congrArg (replying .job) hok)⟩

theorem apply_open {runId gateType : String} {payload : List (String × Json)}
    {reply : JobsReply} {s' : JobStore}
    (h : apply tenant ⟨now, .openGate runId gateType payload⟩ s = (.ok reply, s')) :
    ∃ gate : RunGate, reply = .gate gate ∧ gate.runId = runId ∧ gate.gateType = gateType ∧
      gate.status = .pending ∧ s'.gates.rows = s.gates.rows ++ [{ toRunGate := gate }] := by
  obtain ⟨gate, hok, rfl⟩ := replying_ok (transact_of_apply_ok h)
  obtain ⟨rfl, run, gates, -, hgates, rfl⟩ := PostgresJobRepository.openGate_ok hok
  exact ⟨_, rfl, rfl, rfl, rfl, KeyedTable.rows_insert hgates⟩

theorem apply_cancel {reason : String} {reply : JobsReply} {s' : JobStore}
    (h : apply tenant ⟨now, .cancelPendingTestRuns reason⟩ s = (.ok reply, s'))
    {gateId : Uuid} {gate : RunGateModel} (hgate : s.gate? gateId = some gate)
    (hpending : gate.status = .pending) :
    s'.gate? gateId = some (PostgresJobRepository.cancelledGate reason now gate) := by
  obtain ⟨summary, hok, rfl⟩ := replying_ok (transact_of_apply_ok h)
  have hrun : gate.runId ∈ PostgresJobRepository.pendingRunIds s := by
    rw [PostgresJobRepository.pendingRunIds, List.mem_insertionSort, List.mem_dedup]
    exact List.mem_map_of_mem (List.mem_filter.mpr ⟨KeyedTable.find?_mem hgate, by simp [hpending]⟩)
  obtain ⟨hnone, -, -⟩ | ⟨-, rfl⟩ := PostgresJobRepository.cancelPendingTestRuns_ok hok
  · rw [hnone] at hrun
    cases hrun
  · rw [JobStore.gate?, PostgresJobRepository.foldl_runCancelled_gates]
    refine (KeyedTable.find?_updateWhere s.gates (fun gate => gate.status = .pending)
      (PostgresJobRepository.cancelledGate reason now) (fun _ => rfl) gateId).trans ?_
    rw [JobStore.gate?] at hgate
    simp [hgate, hpending]

theorem apply_late_resolve {gateId : Uuid} {version : Int} (resolution : Json)
    (h : ∀ gate, s.gate? gateId = some gate → gate.version = version → gate.status ≠ .pending) :
    ∃ exc, apply tenant ⟨now, .resolveGate gateId version resolution⟩ s = (.error exc, s) := by
  cases hresolve : PostgresJobRepository.resolveGate tenant gateId version resolution now s with
  | error exc =>
      refine ⟨exc, ?_⟩
      simp only [apply, transact, hresolve, replying]
  | ok value =>
      obtain ⟨gate, run, jobs, hgate, hversion, hpending, -⟩ :=
        PostgresJobRepository.resolveGate_ok hresolve
      exact absurd hpending (h gate hgate hversion)

theorem apply_late_cancel (reason : String) (h : ∀ gate ∈ s.gates.rows, gate.status ≠ .pending) :
    apply tenant ⟨now, .cancelPendingTestRuns reason⟩ s =
      (.ok (.cancellation ⟨0, 0, 0⟩), s) := by
  have hnone : s.gates.rows.filter (fun gate => gate.status = .pending) = [] :=
    List.filter_eq_nil_iff.mpr fun gate hgate hpending => h gate hgate (of_decide_eq_true hpending)
  have hruns : PostgresJobRepository.pendingRunIds s = [] := by
    rw [PostgresJobRepository.pendingRunIds, hnone]
    rfl
  simp only [apply, transact, PostgresJobRepository.cancelPendingTestRuns, hruns, ↓reduceIte,
    replying]

end JobsCall

/-- A returning `resolve_gate` leaves its decision in the tables, and returns its job. -/
theorem Decided.apply_won {tenant : TenantContext} {s s' : JobStore} {ds : List Decision}
    (h : Decided tenant s ds) {now : Timestamp} {gateId : Uuid} {version : Int}
    {resolution : Json} {reply : JobsReply}
    (hwon : JobsCall.apply tenant ⟨now, .resolveGate gateId version resolution⟩ s =
      (.ok reply, s')) :
    ∃ gate row, s.gate? gateId = some gate ∧ gate.version = version ∧ gate.status = .pending ∧
      s'.gate? gateId = some (PostgresJobRepository.resolvedGate resolution now gate) ∧
      ResolvedOnce s' (PostgresJobRepository.resolvedGate resolution now gate) ∧
      s'.resumeJobsOf gateId = [row] ∧ reply = .job row.toJob := by
  obtain ⟨job, hok, rfl⟩ := JobsCall.replying_ok (JobsCall.transact_of_apply_ok hwon)
  obtain ⟨d, hd⟩ := h.of_resolveGate hok
  obtain ⟨gate, run, jobs, hgate, hversion, hpending, hjobs, rfl, hs'⟩ :=
    PostgresJobRepository.resolveGate_ok hok
  obtain rfl := KeyedTable.find?_key hgate
  have hmarked : s'.gate? gate.gateId =
      some (PostgresJobRepository.resolvedGate resolution now gate) := by
    rw [hs']
    exact KeyedTable.find?_update_self (PostgresJobRepository.resolvedGate resolution now)
      (fun _ => rfl) hgate
  have honce := hd.resolvedOnce (KeyedTable.find?_mem hmarked) rfl
  obtain ⟨row, -, -, (hrow : s'.resumeJobsOf gate.gateId = [row]), -⟩ := id honce
  -- the inserted row is a resume job of this gate, hence the only one
  let inserted := PostgresJobRepository.resumeRunJob tenant gate
    (PostgresJobRepository.resumePayload gate resolution run) now
  have hmem : inserted ∈ s'.jobs.rows := by
    rw [hs', PostgresJobRepository.announceResume_jobs, KeyedTable.rows_insert hjobs]
    exact List.mem_append_right _ (List.mem_singleton_self _)
  have hinserted : inserted ∈ s'.resumeJobsOf gate.gateId :=
    List.mem_filter.mpr ⟨List.mem_filter.mpr ⟨hmem, rfl⟩, by
      simp [inserted, PostgresJobRepository.resumeRunJob, PostgresJobRepository.resumePayload,
        Json.get?]⟩
  rw [hrow] at hinserted
  exact ⟨gate, row, hgate, hversion, hpending, hmarked, honce, hrow,
    by rw [← List.mem_singleton.mp hinserted]⟩

theorem gates_settle_once (tenant : TenantContext) (calls : List JobsCall) :
    GatesSettleOnce tenant (Machine.run (JobsCall.apply tenant) .empty calls) := by
  obtain ⟨ds, h⟩ := Decided.exists_run tenant calls
  exact {
    settled_final := fun more _ _ hgate hsettled =>
      JobsCall.gate?_run_of_settled more hgate hsettled
    resolved := fun _ hgate hresolved => h.resolvedOnce hgate hresolved
    unresolved := fun _ hgate hopen => h.unresolved hgate hopen
    raised_unchanged := fun _ _ hraised => JobsCall.apply_error hraised
    late_resolve := fun now _ _ resolution hlate =>
      JobsCall.apply_late_resolve tenant _ now resolution hlate
    late_cancel := fun now reason hlate => JobsCall.apply_late_cancel tenant _ now reason hlate
    versions := versionsCount_run tenant calls
    distinct := (Machine.run (JobsCall.apply tenant) .empty calls).gates.nodup
    won := fun _ _ _ _ _ _ hwon => h.apply_won hwon
    answered := fun now _ _ resolution _ hgate hversion hpending hfresh => hversion ▸
      JobsCall.apply_resolve_pending tenant _ now resolution hgate hpending hfresh
    opened := fun now _ _ _ _ _ hopened => JobsCall.apply_open tenant _ now hopened
    cancelled := fun now _ _ _ hcancelled _ _ hgate hpending =>
      JobsCall.apply_cancel tenant _ now hcancelled hgate hpending }

end Orchestrator
