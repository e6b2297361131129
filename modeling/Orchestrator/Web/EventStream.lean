import Orchestrator.Db.Models
import Orchestrator.Lib.Machine
import Orchestrator.Lib.SerialLog

/-!
The durable event stream of a run, against the transactions that append events.

Any number of transactions insert events and write phases; what they wrote is
seen by others when they commit. The stream reads the events above its cursor
and then, in another snapshot, the phase. A client that connects later with
`Last-Event-ID` is a stream whose first read comes later. A stream that a client
or an unavailable database cuts off takes no further step here.
-/

namespace Orchestrator

inductive StreamStage where
  | listing
  | checking
  | ended
  deriving DecidableEq, Repr

/-- The generator `generate_persisted` for one request. -/
structure EventStream where
  cursor : Int
  stage : StreamStage
  sent : List RunEvent

structure EventWorld where
  log : SerialLog RunEvent.seq
  /-- Phases written by open transactions: transaction, run and phase. -/
  written : List (Nat × String × RunPhase)
  phase : String → Option RunPhase
  stream : EventStream

inductive EventAction where
  | appendEvent (tx : Nat) (runId eventType : String) (data : Json) (now : Timestamp)
  | setPhase (tx : Nat) (runId : String) (phase : RunPhase)
  | commit (tx : Nat)
  | rollback (tx : Nat)
  | advance

namespace EventWorld
variable (runId : String) (w : EventWorld)

/-- A stream for the events of a run above `afterSeq`, before anything is written. -/
def initial (afterSeq : Int) : EventWorld :=
  ⟨.empty, [], fun _ => none, ⟨afterSeq, .listing, []⟩⟩

/-- `list_events(run_id, after_seq=cursor)`. -/
def listEvents : List RunEvent :=
  w.log.above (fun event => event.runId = runId) w.stream.cursor

def sendEvents : EventWorld :=
  let events := w.listEvents runId
  let cursor : Int := (events.getLast?.map fun event => (event.seq : Int)).getD w.stream.cursor
  { w with stream := { cursor, stage := .checking, sent := w.stream.sent ++ events } }

def checkPhase : EventWorld :=
  let stage : StreamStage := if (w.phase runId).any RunPhase.terminal then .ended else .listing
  { w with stream := { w.stream with stage } }

def advance : EventWorld :=
  match w.stream.stage with
  | .listing => w.sendEvents runId
  | .checking => w.checkPhase runId
  | .ended => w

def commit (tx : Nat) : EventWorld :=
  { w with
    log := w.log.commit tx
    written := w.written.filter (fun p => p.1 ≠ tx)
    phase := (w.written.filter (fun p => p.1 = tx)).foldr
      (fun p phase => Function.update phase p.2.1 (some p.2.2)) w.phase }

def rollback (tx : Nat) : EventWorld :=
  { w with log := w.log.rollback tx, written := w.written.filter (fun p => p.1 ≠ tx) }

/-- The row of `_append_event`, written by a transaction that is still open. -/
def appendEvent (tx : Nat) (eventRun eventType : String) (data : Json) (now : Timestamp) :
    EventWorld :=
  { w with
    log := w.log.insert tx
      (fun seq => { seq, runId := eventRun, eventType, data, createdAt := now })
      (fun _ => rfl) }

def apply : EventAction → EventWorld → Unit × EventWorld
  | .appendEvent tx eventRun eventType data now, w =>
      ((), w.appendEvent tx eventRun eventType data now)
  | .setPhase tx phaseRun phase, w => ((), { w with written := (tx, phaseRun, phase) :: w.written })
  | .commit tx, w => ((), w.commit tx)
  | .rollback tx, w => ((), w.rollback tx)
  | .advance, w => ((), w.advance runId)

/-- The events a stream for what follows `afterSeq` owes its client. -/
def Owed (afterSeq : Int) (event : RunEvent) : Prop :=
  event ∈ w.log.committed ∧ event.runId = runId ∧ afterSeq < event.seq

/-- What was sent is owed and in increasing order, so no event is sent twice; and
every owed event has been sent or is sent by the next read of an open stream. -/
structure Faithful (afterSeq : Int) : Prop where
  increasing : w.stream.sent.Pairwise (fun e e' => e.seq < e'.seq)
  owed : ∀ event ∈ w.stream.sent, w.Owed runId afterSeq event
  complete : ∀ event, w.Owed runId afterSeq event →
    event ∈ w.stream.sent ∨ w.stream.stage ≠ .ended ∧ event ∈ w.listEvents runId

/-- A commit makes no owed event visible below the cursor or after the end, and no
event was committed above the cursor when a terminal phase is read. -/
def Timely (afterSeq : Int) (w : EventWorld) : EventAction → Prop
  | .commit tx => ∀ event ∈ w.log.rowsOf tx, event.runId = runId → afterSeq < event.seq →
      w.stream.stage ≠ .ended ∧ w.stream.cursor < event.seq
  | .advance => w.stream.stage = .checking → (w.phase runId).any RunPhase.terminal = true →
      w.listEvents runId = []
  | _ => True

/-- The invariant of a stream whose steps were all timely. -/
structure Tracked (afterSeq : Int) : Prop extends Faithful runId w afterSeq where
  cursor_ge : afterSeq ≤ w.stream.cursor
  sent_le : ∀ event ∈ w.stream.sent, (event.seq : Int) ≤ w.stream.cursor

variable {runId} {w} {afterSeq : Int}

theorem mem_listEvents {event : RunEvent} : event ∈ w.listEvents runId ↔
    event ∈ w.log.committed ∧ event.runId = runId ∧ w.stream.cursor < event.seq := by
  rw [listEvents, SerialLog.mem_above, decide_eq_true_iff]

theorem owed_of_mem_listEvents (h : Tracked runId w afterSeq) {event : RunEvent}
    (hmem : event ∈ w.listEvents runId) : w.Owed runId afterSeq event := by
  obtain ⟨hcommitted, hrun, hcursor⟩ := mem_listEvents.mp hmem
  exact ⟨hcommitted, hrun, Int.lt_of_le_of_lt h.cursor_ge hcursor⟩

/-- The next read of the events by a faithful stream sends all that it owes. -/
theorem Faithful.sends_owed (h : Faithful runId w afterSeq) (hstage : w.stream.stage = .listing)
    {event : RunEvent} (howed : w.Owed runId afterSeq event) :
    event ∈ (w.advance runId).stream.sent := by
  rw [EventWorld.advance, hstage]
  cases h.complete event howed with
  | inl hsent => exact List.mem_append_left _ hsent
  | inr hlisted => exact List.mem_append_right _ hlisted.2

/-- So it is after the phase, unless that phase was terminal. -/
theorem Faithful.sends_owed_after_phase (h : Faithful runId w afterSeq)
    (hstage : w.stream.stage = .checking)
    (hopen : (w.phase runId).any RunPhase.terminal = false) {event : RunEvent}
    (howed : w.Owed runId afterSeq event) :
    event ∈ ((w.advance runId).advance runId).stream.sent := by
  have hnext : w.advance runId = { w with stream := { w.stream with stage := .listing } } := by
    simp [EventWorld.advance, hstage, EventWorld.checkPhase, hopen]
  have hfaithful : Faithful runId (w.advance runId) afterSeq := by
    rw [hnext]
    refine ⟨h.increasing, h.owed, fun event howed => ?_⟩
    exact (h.complete event howed).imp id fun hlisted => ⟨nofun, hlisted.2⟩
  refine hfaithful.sends_owed (by rw [hnext]) ?_
  rw [hnext]
  exact howed

theorem Tracked.initial : Tracked runId (EventWorld.initial afterSeq) afterSeq where
  increasing := List.Pairwise.nil
  owed _ h := absurd h List.not_mem_nil
  complete _ h := absurd h.1 List.not_mem_nil
  cursor_ge := Int.le_refl _
  sent_le _ h := absurd h List.not_mem_nil

/-- Nothing changes for the stream while nothing becomes visible. -/
theorem Tracked.frame {w' : EventWorld} (h : Tracked runId w afterSeq)
    (hstream : w'.stream = w.stream) (hlog : w'.log.committed = w.log.committed) :
    Tracked runId w' afterSeq where
  increasing := hstream ▸ h.increasing
  owed event hmem := by
    obtain ⟨hcommitted, hrun⟩ := h.owed event (hstream ▸ hmem)
    exact ⟨hlog ▸ hcommitted, hrun⟩
  complete event howed := by
    have howed' : w.Owed runId afterSeq event := ⟨hlog ▸ howed.1, howed.2⟩
    rw [hstream, mem_listEvents, hlog, hstream, ← mem_listEvents]
    exact h.complete event howed'
  cursor_ge := hstream ▸ h.cursor_ge
  sent_le event hmem := hstream ▸ h.sent_le event (hstream ▸ hmem)

theorem Tracked.commit (h : Tracked runId w afterSeq) {tx : Nat}
    (htimely : Timely runId afterSeq w (.commit tx)) : Tracked runId (w.commit tx) afterSeq where
  increasing := h.increasing
  owed event hmem := by
    obtain ⟨hcommitted, hrun⟩ := h.owed event hmem
    exact ⟨SerialLog.mem_commit.mpr (.inr hcommitted), hrun⟩
  complete event howed := by
    obtain ⟨hcommitted, hrun, hafter⟩ := howed
    cases SerialLog.mem_commit.mp hcommitted with
    | inl hnew =>
        obtain ⟨hopen, hcursor⟩ := htimely event hnew hrun hafter
        exact .inr ⟨hopen, mem_listEvents.mpr ⟨hcommitted, hrun, hcursor⟩⟩
    | inr hold =>
        cases h.complete event ⟨hold, hrun, hafter⟩ with
        | inl hsent => exact .inl hsent
        | inr hlisted =>
            exact .inr ⟨hlisted.1,
              mem_listEvents.mpr ⟨hcommitted, hrun, (mem_listEvents.mp hlisted.2).2.2⟩⟩
  cursor_ge := h.cursor_ge
  sent_le := h.sent_le

/-- The last of the events in order is the greatest. -/
theorem le_getLast {events : List RunEvent}
    (hsorted : events.Pairwise (fun e e' => e.seq < e'.seq)) (cursor : Int)
    {event : RunEvent} (hmem : event ∈ events) :
    (event.seq : Int) ≤ (events.getLast?.map fun event => (event.seq : Int)).getD cursor := by
  induction events using List.reverseRecOn with
  | nil => exact absurd hmem List.not_mem_nil
  | append_singleton front last _ =>
      rw [List.getLast?_concat, Option.map_some, Option.getD_some]
      cases List.mem_append.mp hmem with
      | inl hfront =>
          have hbefore := (List.pairwise_append.mp hsorted).2.2
          have hlt := hbefore event hfront last (List.mem_singleton_self last)
          omega
      | inr hlast => rw [List.mem_singleton.mp hlast]

/-- The cursor does not go back. -/
theorem cursor_le_getLast (hlisted : ∀ event ∈ w.listEvents runId, w.stream.cursor < event.seq) :
    w.stream.cursor ≤ (w.sendEvents runId).stream.cursor := by
  cases hlast : (w.listEvents runId).getLast? with
  | none => simp [sendEvents, hlast]
  | some last =>
      have hlt := hlisted last (List.mem_of_getLast? hlast)
      simp only [sendEvents, hlast, Option.map_some, Option.getD_some]
      omega

theorem Tracked.sendEvents (h : Tracked runId w afterSeq) :
    Tracked runId (w.sendEvents runId) afterSeq := by
  have hsorted : (w.listEvents runId).Pairwise (fun e e' => e.seq < e'.seq) :=
    SerialLog.pairwise_above _ _ _
  have hcursor : w.stream.cursor ≤ (w.sendEvents runId).stream.cursor :=
    cursor_le_getLast fun event hmem => (mem_listEvents.mp hmem).2.2
  constructor
  · constructor
    · refine List.pairwise_append.mpr ⟨h.increasing, hsorted, fun e he e' he' => ?_⟩
      have hle := h.sent_le e he
      have hlt := (mem_listEvents.mp he').2.2
      omega
    · intro event hmem
      cases List.mem_append.mp hmem with
      | inl hsent => exact h.owed event hsent
      | inr hlisted => exact owed_of_mem_listEvents h hlisted
    · intro event howed
      cases h.complete event howed with
      | inl hsent => exact .inl (List.mem_append_left _ hsent)
      | inr hlisted => exact .inl (List.mem_append_right _ hlisted.2)
  · exact Int.le_trans h.cursor_ge hcursor
  · intro event hmem
    cases List.mem_append.mp hmem with
    | inl hsent => exact Int.le_trans (h.sent_le event hsent) hcursor
    | inr hlisted => exact le_getLast hsorted w.stream.cursor hlisted

theorem Tracked.checkPhase (h : Tracked runId w afterSeq)
    (hnone : (w.phase runId).any RunPhase.terminal = true → w.listEvents runId = []) :
    Tracked runId (w.checkPhase runId) afterSeq where
  increasing := h.increasing
  owed := h.owed
  complete event howed := by
    cases h.complete event howed with
    | inl hsent => exact .inl hsent
    | inr hlisted =>
        refine .inr ⟨?_, hlisted.2⟩
        intro hended
        have hterminal : (w.phase runId).any RunPhase.terminal = true := by
          by_contra hrunning
          rw [EventWorld.checkPhase] at hended
          simp [hrunning] at hended
        rw [hnone hterminal] at hlisted
        exact absurd hlisted.2 List.not_mem_nil
  cursor_ge := h.cursor_ge
  sent_le := h.sent_le

/-- A timely step keeps the invariant. -/
theorem Tracked.apply (h : Tracked runId w afterSeq) (a : EventAction)
    (htimely : Timely runId afterSeq w a) :
    Tracked runId (EventWorld.apply runId a w).2 afterSeq := by
  cases a with
  | appendEvent tx eventRun eventType data now => exact h.frame rfl rfl
  | setPhase tx phaseRun phase => exact h.frame rfl rfl
  | commit tx => exact h.commit htimely
  | rollback tx => exact h.frame rfl rfl
  | advance =>
      change Tracked runId (w.advance runId) afterSeq
      unfold EventWorld.advance
      cases hstage : w.stream.stage with
      | listing => exact h.sendEvents
      | checking => exact h.checkPhase (htimely hstage)
      | ended => exact h

/-- A step that leaves the stream faithful was timely. -/
theorem Tracked.timely (h : Tracked runId w afterSeq) (a : EventAction)
    (hfaithful : Faithful runId (EventWorld.apply runId a w).2 afterSeq) :
    Timely runId afterSeq w a := by
  cases a with
  | appendEvent tx eventRun eventType data now => trivial
  | setPhase tx phaseRun phase => trivial
  | rollback tx => trivial
  | commit tx =>
      intro event hnew hrun hafter
      have hcommitted : event ∈ (w.log.commit tx).committed :=
        SerialLog.mem_commit.mpr (.inl hnew)
      cases hfaithful.complete event ⟨hcommitted, hrun, hafter⟩ with
      | inl hsent =>
          exact absurd rfl (SerialLog.key_ne_of_mem_rowsOf hnew (h.owed event hsent).1)
      | inr hlisted => exact ⟨hlisted.1, (mem_listEvents.mp hlisted.2).2.2⟩
  | advance =>
      intro hstage hterminal
      refine List.eq_nil_iff_forall_not_mem.mpr fun event hmem => ?_
      have hended : (EventWorld.apply runId .advance w).2.stream =
          { w.stream with stage := .ended } := by
        simp [EventWorld.apply, EventWorld.advance, hstage, EventWorld.checkPhase, hterminal]
      have hlog : (EventWorld.apply runId .advance w).2.log = w.log := by
        simp [EventWorld.apply, EventWorld.advance, hstage, EventWorld.checkPhase]
      obtain ⟨hcommitted, howed⟩ := owed_of_mem_listEvents h hmem
      cases hfaithful.complete event ⟨hlog ▸ hcommitted, howed⟩ with
      | inl hsent =>
          rw [hended] at hsent
          have hle := h.sent_le event hsent
          have hlt := (mem_listEvents.mp hmem).2.2
          omega
      | inr hlisted => exact absurd (by rw [hended]) hlisted.1

/-- The stream is faithful in every state of a run exactly when all steps of the
run are timely. -/
theorem stream_faithful_iff (runId : String) (afterSeq : Int) (actions : List EventAction) :
    (∀ pre post, actions = pre ++ post →
        Faithful runId (Machine.run (EventWorld.apply runId) (.initial afterSeq) pre) afterSeq) ↔
      Machine.Guarded (EventWorld.apply runId) (Timely runId afterSeq) (.initial afterSeq)
        actions := by
  have hstep : ∀ w a, Tracked runId w afterSeq → Timely runId afterSeq w a →
      Tracked runId (EventWorld.apply runId a w).2 afterSeq := fun _ a h => h.apply a
  have hnecessary : ∀ w a, Tracked runId w afterSeq →
      Faithful runId (EventWorld.apply runId a w).2 afterSeq → Timely runId afterSeq w a :=
    fun _ a h => h.timely a
  have hinitial : Tracked runId (.initial afterSeq) afterSeq := .initial
  exact (Machine.guarded_iff_prefixes (EventWorld.apply runId)
    (fun w (h : Tracked runId w afterSeq) => h.toFaithful) hstep hnecessary hinitial).symm

/-- A worker saves the phase `done` before it appends `run_end`, in another
transaction; a stream that reads between the two ends without the event. -/
theorem run_end_lost :
    ¬ ∀ (runId : String) (afterSeq : Int) (actions : List EventAction),
      Faithful runId (Machine.run (EventWorld.apply runId) (.initial afterSeq) actions)
        afterSeq := by
  intro h
  have hended := h "run" 0 [.setPhase 1 "run" .done, .commit 1, .advance, .advance,
    .appendEvent 2 "run" "run_end" (.obj [("run_id", .str "run"), ("summary", .obj [])]) 0,
    .commit 2]
  have howed := hended.complete
    { seq := 1, runId := "run", eventType := "run_end"
      data := .obj [("run_id", .str "run"), ("summary", .obj [])], createdAt := 0 }
    ⟨List.mem_cons_self, rfl, by decide⟩
  cases howed with
  | inl hsent => exact absurd hsent List.not_mem_nil
  | inr hlisted => exact hlisted.1 rfl

end EventWorld

end Orchestrator
