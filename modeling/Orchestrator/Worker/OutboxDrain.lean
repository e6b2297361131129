import Orchestrator.Lib.Alone
import Orchestrator.Lib.ScopedTable
import Orchestrator.Worker.WakeQueue

/-!
The outbox as a queue.

What publishers have still to do is the list of the unsettled rows in the order of
the claims. When they are all due, nobody else is about and the broker accepts,
each publisher takes the head of that list, hands its message over and drops it.
-/

namespace Orchestrator

namespace OutboxModel

/-- The row is neither published nor given up. -/
def unsettled (row : OutboxModel) : Bool := row.status = .pending || row.status = .publishing

theorem key_claimed (workerId : String) (now : Timestamp) (row : OutboxModel) :
    (row.claimed workerId now).key = row.key := rfl

theorem key_published (now : Timestamp) (row : OutboxModel) :
    (row.published now).key = row.key := rfl

theorem unsettled_of_claimable {row : OutboxModel} {now : Timestamp} (h : row.claimable now) :
    row.unsettled := by
  simp only [claimable, Bool.or_eq_true, Bool.and_eq_true] at h
  rw [unsettled, Bool.or_eq_true]
  exact h.imp And.left And.left

theorem claimable_mono {row : OutboxModel} {now later : Timestamp} (h : row.claimable now)
    (hle : now ≤ later) : row.claimable later := by
  simp only [claimable, Bool.or_eq_true, Bool.and_eq_true, decide_eq_true_eq,
    Option.any_eq_true] at h ⊢
  rcases h with ⟨hs, hav⟩ | ⟨hs, expiry, he, hex⟩
  · exact Or.inl ⟨hs, hav.trans hle⟩
  · exact Or.inr ⟨hs, expiry, he, hex.trans hle⟩

theorem leasedTo_of_lease {row : OutboxModel} {workerId : String} {now expiry : Timestamp}
    (hstatus : row.status = .publishing) (hworker : row.workerId = some workerId)
    (hexpiry : row.leaseExpiresAt = some expiry) (hlt : now < expiry) :
    row.leasedTo workerId now := by
  simp [leasedTo, hstatus, hworker, hexpiry, hlt]

/-- `ORDER BY available_at, id` is the order of pairs. -/
theorem before_iff (a b : OutboxModel) :
    a.before b = true ↔
      toLex (a.availableAt, a.entryId) ≤ toLex (b.availableAt, b.entryId) := by
  rw [Prod.Lex.le_iff]
  simp [before]

instance : IsTrans OutboxModel (fun a b => a.before b) where
  trans a b c hab hbc := (before_iff a c).mpr <|
    ((before_iff a b).mp hab).trans ((before_iff b c).mp hbc)

instance : Std.Total (fun a b : OutboxModel => a.before b) where
  total a b := (le_total _ _).imp (before_iff a b).mpr (before_iff b a).mpr

end OutboxModel

namespace JobStore

/-- The rows that are to be published, in the order in which they are claimed. -/
def unsettled (s : JobStore) : List OutboxModel :=
  (s.outbox.rows.filter OutboxModel.unsettled).insertionSort (fun a b => a.before b)

variable {s s' : JobStore} {head : OutboxModel} {rest : List OutboxModel} {now : Timestamp}

theorem mem_unsettled {row : OutboxModel} :
    row ∈ s.unsettled ↔ row ∈ s.outbox.rows ∧ row.unsettled := by
  rw [unsettled, List.mem_insertionSort, List.mem_filter]

theorem unsettled_ids_nodup (s : JobStore) : (s.unsettled.map (·.entryId)).Nodup := by
  have hperm := (List.perm_insertionSort (fun a b : OutboxModel => a.before b)
    (s.outbox.rows.filter OutboxModel.unsettled)).map (·.entryId)
  exact hperm.nodup_iff.mpr (s.outbox.nodup.sublist (List.filter_sublist.map _))

/-- With all unsettled rows due, the next claim takes the first of them. -/
theorem outboxCandidates_unsettled (hdue : ∀ row ∈ s.unsettled, row.claimable now) :
    PostgresJobRepository.outboxCandidates 1 [] now s = s.unsettled.take 1 := by
  have hrows : s.outbox.rows.filter (fun row => row.claimable now && row.entryId ∉ []) =
      s.outbox.rows.filter OutboxModel.unsettled := by
    refine List.filter_congr fun row hrow => ?_
    have hiff : row.claimable now ↔ row.unsettled :=
      ⟨OutboxModel.unsettled_of_claimable, fun h => hdue row (mem_unsettled.mpr ⟨hrow, h⟩)⟩
    simpa using Bool.eq_iff_iff.mpr hiff
  rw [PostgresJobRepository.outboxCandidates, hrows, unsettled]

/-- A row that is settled leaves the queue, and nothing else does. -/
theorem unsettled_settle (set : OutboxModel → OutboxModel)
    (hset : ∀ row, (set row).unsettled = false) (hhead : s.unsettled = head :: rest)
    (hrows : s'.outbox.rows = s.outbox.rows.map fun row =>
      if row.entryId = head.entryId then set row else row) :
    s'.unsettled = rest := by
  have hfilter : s'.outbox.rows.filter OutboxModel.unsettled =
      (s.outbox.rows.filter OutboxModel.unsettled).filter
        (fun row => row.entryId ≠ head.entryId) := by
    rw [hrows]
    induction s.outbox.rows with
    | nil => rfl
    | cons row rows ih =>
        by_cases hid : row.entryId = head.entryId <;>
          by_cases hunsettled : row.unsettled <;> simp_all
  have hnodup := s.unsettled_ids_nodup
  rw [hhead, List.map_cons, List.nodup_cons] at hnodup
  have hothers : ∀ row ∈ rest, row.entryId ≠ head.entryId := fun row hrow heq =>
    hnodup.1 (heq ▸ List.mem_map_of_mem hrow)
  rw [unsettled, hfilter, ← ScopedTable.filter_insertionSort]
  change s.unsettled.filter _ = rest
  rw [hhead, List.filter_cons_of_neg (by simp)]
  exact List.filter_eq_self.mpr fun row hrow => decide_eq_true (hothers row hrow)

end JobStore

/-- Nobody holds a lock, the clock reads nothing before the start, the broker accepts. -/
structure Calm (start : Timestamp) (answers : Nat → (c : WakeCall) → c.Answer) : Prop where
  unlocked : ∀ n, Moment.locked (answers n .transaction) = []
  begun : ∀ n, start ≤ Moment.now (answers n .transaction)
  accepts : ∀ n message, answers n (.publish message) = Except.ok ()

/-- A publisher whose turn begins with call `n` marks its row while it holds the lease. -/
def InLease (answers : Nat → (c : WakeCall) → c.Answer) (n : Nat) : Prop :=
  Moment.now (answers (n + 2) .transaction) <
    Moment.now (answers n .transaction) + seconds leaseSeconds

/-- What happened to the outbox when the messages of `done` were delivered: these
rows are published, each after one more attempt, and nothing else changed. -/
structure Drained (s s' : JobStore) (done : List OutboxModel) : Prop where
  published : ∀ row ∈ done, ∃ workerId now later,
    s'.message? row.entryId = some ((row.claimed workerId now).published later)
  others : ∀ row, s.message? row.entryId = some row → row ∉ done →
    s'.message? row.entryId = some row
  frame : s' = { s with outbox := s'.outbox }

section Turn
variable {tenant : TenantContext} {s : JobStore} {head : OutboxModel} {rest : List OutboxModel}
  {workerId : String} {now later : Timestamp}

/-- The tables after a claim of this one message. -/
def taken (workerId : String) (now : Timestamp) (entryId : Nat) (s : JobStore) : JobStore :=
  { s with
    outbox := s.outbox.updateWhere (fun row => row.entryId ∈ [entryId])
      (OutboxModel.claimed workerId now) (OutboxModel.key_claimed workerId now) }

/-- The tables after a turn that published it. -/
def settle (workerId : String) (now later : Timestamp) (entryId : Nat) (s : JobStore) : JobStore :=
  (taken workerId now entryId s).updateEntry entryId (OutboxModel.published later)
    (OutboxModel.key_published later)

theorem message?_taken (entryId id : Nat) :
    (taken workerId now entryId s).message? id = (s.message? id).map fun row =>
      if row.entryId = entryId then row.claimed workerId now else row := by
  refine (KeyedTable.find?_updateWhere s.outbox.toKeyedTable
    (fun row => row.entryId ∈ [entryId]) (OutboxModel.claimed workerId now)
    (fun _ => rfl) id).trans ?_
  simp [JobStore.message?]

theorem message?_settle (entryId id : Nat) :
    (settle workerId now later entryId s).message? id = (s.message? id).map fun row =>
      if row.entryId = entryId then (row.claimed workerId now).published later else row := by
  refine (KeyedTable.find?_updateWhere (taken workerId now entryId s).outbox.toKeyedTable
    (fun row => row.entryId = entryId) (OutboxModel.published later) (fun _ => rfl) id).trans ?_
  change ((taken workerId now entryId s).message? id).map _ = _
  rw [message?_taken, Option.map_map]
  refine Option.map_congr fun row _ => ?_
  by_cases hid : row.entryId = entryId <;> simp [hid, OutboxModel.claimed]

theorem settle_rows (entryId : Nat) :
    (settle workerId now later entryId s).outbox.rows = s.outbox.rows.map fun row =>
      if row.entryId = entryId then (row.claimed workerId now).published later else row := by
  change List.map _ (List.map _ s.outbox.rows) = _
  rw [List.map_map]
  refine List.map_congr_left fun row _ => ?_
  by_cases hid : row.entryId = entryId <;> simp [hid, OutboxModel.key, OutboxModel.claimed]

/-- The head of the queue is published and nothing else happens. -/
theorem drained_settle (hhead : s.unsettled = head :: rest) :
    Drained s (settle workerId now later head.entryId s) [head] where
  published row hrow := by
    obtain rfl := List.mem_singleton.mp hrow
    have hmem : row ∈ s.outbox.rows := (JobStore.mem_unsettled.mp (hhead ▸ List.mem_cons_self)).1
    have hfind : s.message? row.entryId = some row := KeyedTable.find?_of_mem hmem
    exact ⟨workerId, now, later, by rw [message?_settle, hfind]; simp⟩
  others row hrow hother := by
    have hid : row.entryId ≠ head.entryId := by
      intro heq
      have hmem : head ∈ s.outbox.rows :=
        (JobStore.mem_unsettled.mp (hhead ▸ List.mem_cons_self)).1
      obtain rfl := s.outbox.eq_of_key_eq (KeyedTable.find?_mem hrow) hmem heq
      exact hother List.mem_cons_self
    rw [message?_settle, hrow]
    simp [hid]
  frame := rfl

theorem claim_head (tenant : TenantContext) (workerId : String) (hhead : s.unsettled = head :: rest)
    (hdue : ∀ row ∈ s.unsettled, row.claimable now) :
    JobsCall.apply tenant ⟨now, .claimOutbox workerId 1 []⟩ s =
      (.ok (.entries [(head.claimed workerId now).toOutboxEntry]),
        taken workerId now head.entryId s) := by
  have hcandidates := JobStore.outboxCandidates_unsettled hdue
  rw [hhead, List.take_succ_cons, List.take_zero] at hcandidates
  simp only [JobsCall.apply, JobsCall.transact, JobsCall.replying,
    PostgresJobRepository.claimOutbox, hcandidates, List.map_cons, List.map_nil, taken]

/-- A publisher that finds nothing to do changes nothing. -/
theorem claim_none (tenant : TenantContext) (workerId : String) (now : Timestamp)
    (hnone : s.unsettled = []) :
    ∃ s', JobsCall.apply tenant ⟨now, .claimOutbox workerId 1 []⟩ s =
      (.ok (.entries []), s') ∧ s'.unsettled = [] ∧ Drained s s' [] := by
  have hcandidates : PostgresJobRepository.outboxCandidates 1 [] now s = [] := by
    rw [JobStore.outboxCandidates_unsettled (by simp [hnone]), hnone]
    rfl
  have hrows : (s.outbox.updateWhere (fun row => row.entryId ∈ ([] : List Nat))
      (OutboxModel.claimed workerId now) (fun _ => rfl)).rows = s.outbox.rows :=
    (SerialTable.rows_updateWhere ..).trans (by simp)
  refine ⟨{ s with
    outbox := s.outbox.updateWhere (fun row => row.entryId ∈ ([] : List Nat))
      (OutboxModel.claimed workerId now) (fun _ => rfl) }, ?_, ?_, ?_⟩
  · simp only [JobsCall.apply, JobsCall.transact, JobsCall.replying,
      PostgresJobRepository.claimOutbox, hcandidates, List.map_nil]
  · rw [JobStore.unsettled, hrows]
    exact hnone
  · refine ⟨fun row hrow => absurd hrow List.not_mem_nil, fun row hrow _ => ?_, rfl⟩
    exact KeyedTable.find?_of_mem (hrows ▸ KeyedTable.find?_mem hrow)

theorem mark_head (tenant : TenantContext) (workerId : String) (now later : Timestamp)
    (hhead : s.unsettled = head :: rest)
    (hleased : later < now + seconds leaseSeconds) :
    JobsCall.apply tenant ⟨later, .outbox head.entryId workerId .markPublished⟩
        (taken workerId now head.entryId s) =
      (.ok .none, settle workerId now later head.entryId s) := by
  have hmem : head ∈ s.outbox.rows := (JobStore.mem_unsettled.mp (hhead ▸ List.mem_cons_self)).1
  have hfind : s.message? head.entryId = some head := KeyedTable.find?_of_mem hmem
  have hheld : (taken workerId now head.entryId s).leasedMessage? head.entryId workerId later =
      some (head.claimed workerId now) := by
    refine JobsCall.leasedMessage?_eq_some_iff.mpr
      ⟨?_, OutboxModel.leasedTo_of_lease rfl rfl rfl hleased⟩
    rw [message?_taken, hfind, Option.map_some, if_pos rfl]
  simp only [JobsCall.apply, JobsCall.transact, JobsCall.replying,
    PostgresJobRepository.markOutboxPublished, hheld, settle]

end Turn

/-- A published row is not in the queue, so later turns leave it. -/
theorem Drained.trans {s s₁ s' : JobStore} {done more : List OutboxModel}
    (hmore : ∀ row ∈ more, row.unsettled) (h₁ : Drained s s₁ done) (h₂ : Drained s₁ s' more) :
    Drained s s' (done ++ more) where
  published row hrow := by
    rcases List.mem_append.mp hrow with hrow | hrow
    · obtain ⟨workerId, now, later, hfound⟩ := h₁.published row hrow
      refine ⟨workerId, now, later,
        h₂.others ((row.claimed workerId now).published later) hfound fun hmem => ?_⟩
      cases hmore _ hmem
    · exact h₂.published row hrow
  others row hrow hother := by
    rw [List.mem_append, not_or] at hother
    exact h₂.others row (h₁.others row hrow hother.1) hother.2
  frame := by
    rw [h₂.frame, h₁.frame]

namespace Publisher

/-- Publishers that run one after the other, and what they return. -/
def publishInTurn : List String → Prog wakeSignature (List (Except WakeError Bool))
  | [] => .ret []
  | workerId :: workerIds =>
      (publishOutboxOnce workerId none).bind fun result =>
        (publishInTurn workerIds).bind fun results => .ret (result :: results)

end Publisher

section Drain
variable {tenant : TenantContext} {start : Timestamp}
  {answers : Nat → (c : WakeCall) → c.Answer} {s : JobStore}

/-- The messages among the calls of a run. -/
def handed (calls : List WakeCall) : List WakeMessage :=
  calls.filterMap fun
    | .publish message => some message
    | .transaction => none

open Publisher in
/-- The turn of one publisher that has the tables for itself. -/
theorem publishOutboxOnce_turn (tenant : TenantContext) (hcalm : Calm start answers)
    (workerId : String)
    (hdue : ∀ row ∈ s.unsettled, row.claimable start) (n : Nat)
    (hleased : s.unsettled ≠ [] → InLease answers n) :
    ∃ (s' : JobStore) (calls : List WakeCall),
      (publishOutboxOnce workerId none).runAlone (fun c => JobsCall.apply tenant c) answers s n =
        (some (.ok !s.unsettled.isEmpty), s', calls) ∧
      handed calls = (s.unsettled.take 1).map (·.message) ∧
      s'.unsettled = s.unsettled.drop 1 ∧ Drained s s' (s.unsettled.take 1) ∧
      (s.unsettled ≠ [] → calls.length = 3) := by
  have hlocked := hcalm.unlocked
  cases hqueue : s.unsettled with
  | nil =>
      obtain ⟨s', hclaim, hnone, hdrained⟩ := claim_none tenant workerId
        (Moment.now (answers n .transaction)) hqueue
      refine ⟨s', [.transaction], ?_, rfl, hnone, hdrained, fun hsome => absurd rfl hsome⟩
      simp only [publishOutboxOnce, transaction, Prog.runAlone, Option.getD_none, hlocked, hclaim,
        List.isEmpty_nil, Bool.not_true]
  | cons head rest =>
      have hbegun := hcalm.begun n
      have hclaim := claim_head tenant workerId hqueue fun row hrow =>
        OutboxModel.claimable_mono (hdue row hrow) hbegun
      have hmark := mark_head tenant workerId (Moment.now (answers n .transaction))
        (Moment.now (answers (n + 1 + 1) .transaction)) hqueue
        (hleased (by simp [hqueue]))
      refine ⟨settle workerId (Moment.now (answers n .transaction))
        (Moment.now (answers (n + 1 + 1) .transaction)) head.entryId s,
        [.transaction, .publish head.message, .transaction], ?_, rfl, ?_, ?_, fun _ => rfl⟩
      · simp only [publishOutboxOnce, transaction, Prog.runAlone, Option.getD_none, hlocked, hclaim,
          hcalm.accepts, afterPublish, hmark, OutboxModel.claimed, List.isEmpty_cons,
          Bool.not_false]
        rfl
      · exact JobStore.unsettled_settle _ (fun _ => rfl) hqueue (settle_rows _)
      · exact drained_settle hqueue

theorem handed_append (calls more : List WakeCall) :
    handed (calls ++ more) = handed calls ++ handed more :=
  List.filterMap_append

/-- Publishers in turn, with the tables for themselves, a broker that accepts and all
unsettled rows due, take these rows in the order of the claims, if each of them is done
within its lease: each hands over the message of one row and publishes it, and whoever
finds none left returns false. -/
theorem outbox_drained_in_order (tenant : TenantContext) {start : Timestamp}
    {answers : Nat → (c : WakeCall) → c.Answer} (hcalm : Calm start answers) (s : JobStore)
    (hdue : ∀ row ∈ s.unsettled, row.claimable start) (workerIds : List String) (n : Nat)
    (hleased : ∀ turn < min workerIds.length s.unsettled.length,
      InLease answers (n + 3 * turn)) :
    ∃ (s' : JobStore) (calls : List WakeCall),
      (Publisher.publishInTurn workerIds).runAlone (fun c => JobsCall.apply tenant c) answers s n =
        (some (List.replicate (min workerIds.length s.unsettled.length) (.ok true) ++
          List.replicate (workerIds.length - s.unsettled.length) (.ok false)), s', calls) ∧
      handed calls = (s.unsettled.take workerIds.length).map (·.message) ∧
      s'.unsettled = s.unsettled.drop workerIds.length ∧
      Drained s s' (s.unsettled.take workerIds.length) := by
  induction workerIds generalizing s n with
  | nil =>
      refine ⟨s, [], ?_, rfl, rfl, fun row hrow => absurd hrow List.not_mem_nil,
        fun _ hrow _ => hrow, rfl⟩
      simp [Publisher.publishInTurn, Prog.runAlone]
  | cons workerId workerIds ih =>
      obtain ⟨s₁, first, hfirst, hhanded₁, hleft₁, hdrained₁, hcalls⟩ :=
        publishOutboxOnce_turn tenant hcalm workerId hdue n fun hsome =>
          hleased 0 (by simpa [List.length_pos_iff] using hsome)
      have hlater : ∀ turn < min workerIds.length s₁.unsettled.length,
          InLease answers (n + first.length + 3 * turn) := by
        intro turn hturn
        rw [hleft₁, List.length_drop] at hturn
        have hsome : s.unsettled ≠ [] := List.length_pos_iff.mp (by omega)
        have hshift : n + 3 + 3 * turn = n + 3 * (turn + 1) := by omega
        rw [hcalls hsome, hshift]
        exact hleased (turn + 1) (by rw [List.length_cons]; omega)
      obtain ⟨s', more, hmore, hhanded, hleft, hdrained⟩ := ih s₁
        (fun row hrow => hdue row (List.mem_of_mem_drop (hleft₁ ▸ hrow))) (n + first.length) hlater
      rw [hleft₁] at hmore hhanded hleft hdrained
      rw [List.length_cons, Nat.add_comm, List.take_add]
      refine ⟨s', first ++ more, ?_, ?_, ?_, ?_⟩
      · rw [Publisher.publishInTurn, Prog.runAlone_bind _ _ hfirst]
        dsimp only
        rw [Prog.runAlone_bind _ _ hmore]
        cases s.unsettled with
        | nil => simp [Prog.runAlone, Nat.add_comm 1, List.replicate_succ]
        | cons head rest =>
            simp [Prog.runAlone, Nat.add_comm 1, List.replicate_succ, Nat.add_min_add_right]
      · rw [handed_append, hhanded₁, hhanded, List.map_append]
      · rw [hleft, List.drop_drop]
      · refine hdrained₁.trans (fun row hrow => ?_) hdrained
        exact (JobStore.mem_unsettled.mp
          (List.mem_of_mem_drop (List.mem_of_mem_take hrow))).2

end Drain

/-- Two runs are queued, the second one a moment later. -/
def twoQueued : JobStore :=
  Machine.run (JobsCall.apply sampleTenant) .empty
    [⟨0, .enqueueRun "run-1" "offer" "tiktok" 1 (.obj []) 5⟩,
      ⟨1, .enqueueRun "run-2" "offer" "tiktok" 1 (.obj []) 5⟩]

/-- The clock stands at one, nothing is locked and the broker accepts. -/
def calmAnswers : Nat → (c : WakeCall) → c.Answer
  | _, .transaction => (⟨1, []⟩ : Moment)
  | _, .publish _ => Except.ok ()

/-- Of three publishers the last one finds nothing to do. -/
theorem two_messages_drained : ∃ (s' : JobStore) (calls : List WakeCall),
    (Publisher.publishInTurn ["a", "b", "a"]).runAlone (fun c => JobsCall.apply sampleTenant c)
      calmAnswers twoQueued 0 = (some [.ok true, .ok true, .ok false], s', calls) ∧
    handed calls = twoQueued.outbox.rows.map (·.message) ∧ s'.unsettled = [] := by
  have hunsettled : twoQueued.unsettled = twoQueued.outbox.rows := by decide +kernel
  have hlength : twoQueued.unsettled.length = 2 := by decide +kernel
  have hcalm : Calm 1 calmAnswers :=
    ⟨fun _ => rfl, fun _ => le_rfl, fun _ _ => rfl⟩
  obtain ⟨s', calls, hrun, hhanded, hleft, -⟩ := outbox_drained_in_order sampleTenant hcalm
    twoQueued (by decide +kernel) ["a", "b", "a"] 0
    fun _ _ => (by decide : 1 < 1 + seconds leaseSeconds)
  have hall : twoQueued.unsettled.take 3 = twoQueued.unsettled :=
    List.take_of_length_le (by omega)
  refine ⟨s', calls, ?_, ?_, ?_⟩
  · rw [hlength] at hrun
    exact hrun
  · rw [hhanded, ← hunsettled]
    exact congrArg (List.map (·.message)) hall
  · rw [hleft]
    exact List.drop_of_length_le (by simp [hlength])

end Orchestrator
