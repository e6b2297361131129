import Orchestrator.Lib.Json
import Orchestrator.Lib.Machine
import Mathlib.Data.List.Range

/-!
The event stream of a run that the server executes itself.

Each subscriber has a bounded queue. The executor, the route that replays the
buffer and the final broadcast put into it without waiting; the generator of the
subscriber takes from it. The number of an event is the one behind `local-` in
its id, and a Last-Event-ID is its number; none of the events of the executor
brings an id of its own.
-/

namespace Orchestrator

structure LocalEvent where
  sequence : Nat
  payload : Json
  deriving DecidableEq

/-- `maxsize` of the queue of a subscriber. -/
def queueSize : Nat := 500

/-- `none` in a queue is the sentinel that closes the stream. -/
structure LocalSubscriber where
  lastEventId : Int
  joined : Nat
  queue : List (Option LocalEvent)
  received : List (Option LocalEvent) := []
  registered : Bool
  left : Bool := false
  /-- What was emitted while its queue was full; the code keeps no record of it. -/
  missed : List LocalEvent := []
  deriving DecidableEq

namespace LocalSubscriber
variable (s : LocalSubscriber)

def stream : List (Option LocalEvent) := s.received ++ s.queue

def put (entry : Option LocalEvent) : LocalSubscriber := { s with queue := s.queue ++ [entry] }

/-- `put_nowait` of an event, whose `QueueFull` is passed over. -/
def offer (event : LocalEvent) : LocalSubscriber :=
  if s.registered = false then s
  else if queueSize ≤ s.queue.length then { s with missed := s.missed ++ [event] }
  else s.put (some event)

/-- The generator sends the next entry, and ends with the sentinel. -/
def take : LocalSubscriber :=
  match s.queue with
  | [] => s
  | entry :: rest =>
      if s.left then s
      else
        { s with
          queue := rest
          received := s.received ++ [entry]
          registered := s.registered && entry.isSome }

def leave : LocalSubscriber := { s with left := true, registered := false }

end LocalSubscriber

structure LocalRun where
  eventSequence : Nat := 0
  buffer : List LocalEvent := []
  done : Bool := false
  subscribers : List LocalSubscriber := []

inductive LocalAction where
  | emit (payload : Json)
  | connect (lastEventId : Int)
  | take (i : Nat)
  | leave (i : Nat)
  | finish

namespace LocalRun
variable (w : LocalRun)

def emitSync (payload : Json) : LocalRun :=
  let sequence := (if w.eventSequence ≠ 0 then w.eventSequence else w.buffer.length) + 1
  let event : LocalEvent := { sequence, payload }
  { w with
    eventSequence := sequence
    buffer := w.buffer ++ [event]
    subscribers := w.subscribers.map (·.offer event) }

def replay (lastEventId : Int) : List (Option LocalEvent) :=
  (w.buffer.filter (fun e => lastEventId < e.sequence)).map some ++ if w.done then [none] else []

/-- A replay that does not fit the queue raises, and there is no subscriber. -/
def connect (lastEventId : Int) : LocalRun :=
  if (w.replay lastEventId).length ≤ queueSize then
    { w with
      subscribers := w.subscribers ++ [{
        lastEventId
        joined := w.buffer.length
        queue := w.replay lastEventId
        registered := !w.done }] }
  else w

/-- The sentinel for every registered queue, up to the first that is full. -/
def broadcastSentinel : List LocalSubscriber → List LocalSubscriber
  | [] => []
  | s :: rest =>
      if s.registered = false then s :: broadcastSentinel rest
      else if queueSize ≤ s.queue.length then s :: rest
      else s.put none :: broadcastSentinel rest

def finish : LocalRun :=
  { w with done := true, subscribers := broadcastSentinel w.subscribers }

/-- The executor emits nothing after its end, and ends once. -/
def apply : LocalAction → LocalRun → Unit × LocalRun
  | .emit payload, w => ((), if w.done then w else w.emitSync payload)
  | .connect lastEventId, w => ((), w.connect lastEventId)
  | .take i, w => ((), { w with subscribers := w.subscribers.modify i .take })
  | .leave i, w => ((), { w with subscribers := w.subscribers.modify i .leave })
  | .finish, w => ((), if w.done then w else w.finish)

/-- The events a subscriber is sent: those above its Last-Event-ID, or above the
last event there was when it connected, but for the ones it missed. -/
def owed (s : LocalSubscriber) : List LocalEvent :=
  w.buffer.filter fun e => min s.lastEventId s.joined < e.sequence && e ∉ s.missed

/-- No registered queue is full when the sentinel is put. -/
def SentinelFits (w : LocalRun) : LocalAction → Prop
  | .finish => ∀ s ∈ w.subscribers, s.registered = true → s.queue.length < queueSize
  | _ => True

instance (w : LocalRun) : DecidablePred w.SentinelFits := fun a => by
  cases a <;> unfold SentinelFits <;> infer_instance

/-- A subscriber that did not go away gets what it is owed, and the sentinel once the
run is done. -/
def Delivers (s : LocalSubscriber) : Prop :=
  s.left = false → s.stream = (w.owed s).map some ++ if w.done then [none] else []

structure Served (s : LocalSubscriber) : Prop where
  delivers : w.Delivers s
  registered : s.left = false → w.done = false → s.registered = true
  joined : s.joined ≤ w.buffer.length
  missed : ∀ e ∈ s.missed, e.sequence ≤ w.buffer.length

structure Numbered : Prop where
  next : w.eventSequence = w.buffer.length
  buffer : w.buffer.map (·.sequence) = List.range' 1 w.buffer.length

structure Consistent : Prop extends Numbered w where
  served : ∀ s ∈ w.subscribers, w.Served s

variable {w}

theorem Numbered.sequence_le (h : w.Numbered) {e : LocalEvent} (he : e ∈ w.buffer) :
    e.sequence ≤ w.buffer.length := by
  have hmem : e.sequence ∈ w.buffer.map (·.sequence) := List.mem_map_of_mem he
  rw [h.buffer, List.mem_range'_1] at hmem
  omega

theorem Numbered.emitSync_buffer (h : w.Numbered) (payload : Json) :
    (w.emitSync payload).buffer = w.buffer ++ [⟨w.buffer.length + 1, payload⟩] := by
  rw [emitSync, h.next]
  simp

theorem Numbered.emitSync (h : w.Numbered) (payload : Json) : (w.emitSync payload).Numbered := by
  have hbuffer := h.emitSync_buffer payload
  constructor
  · rw [hbuffer, List.length_append, LocalRun.emitSync, h.next]
    simp
  · rw [hbuffer, List.map_append, h.buffer, List.length_append, List.length_singleton,
      List.range'_concat]
    simp [Nat.add_comm]

/-- A property of every entry survives the change of one entry that keeps it. -/
theorem forall_mem_modify {α : Type} {P : α → Prop} {f : α → α} (hf : ∀ a, P a → P (f a)) :
    ∀ (l : List α) (i : Nat), (∀ a ∈ l, P a) → ∀ a ∈ l.modify i f, P a := by
  intro l
  induction l with
  | nil => simp
  | cons b l ih =>
      intro i h
      obtain ⟨hb, hl⟩ := List.forall_mem_cons.mp h
      cases i with
      | zero =>
          rw [List.modify_zero_cons]
          exact List.forall_mem_cons.mpr ⟨hf b hb, hl⟩
      | succ i =>
          rw [List.modify_succ_cons]
          exact List.forall_mem_cons.mpr ⟨hb, ih i hl⟩

/-- What a subscriber is owed after an event that it did not miss. -/
theorem owed_emitSync (hnumbered : w.Numbered) {s : LocalSubscriber} (h : w.Served s)
    (payload : Json) :
    (w.emitSync payload).owed s = w.owed s ++ [⟨w.buffer.length + 1, payload⟩] := by
  have hjoined := h.joined
  have habove : min s.lastEventId s.joined < ((w.buffer.length + 1 : Nat) : Int) := by omega
  have hmissed : (⟨w.buffer.length + 1, payload⟩ : LocalEvent) ∉ s.missed := fun hmem => by
    have hle := h.missed _ hmem
    exact absurd hle (Nat.not_succ_le_self _)
  have howed : (decide (min s.lastEventId s.joined < ((w.buffer.length + 1 : Nat) : Int)) &&
      decide ((⟨w.buffer.length + 1, payload⟩ : LocalEvent) ∉ s.missed)) = true := by
    rw [Bool.and_eq_true, decide_eq_true_iff, decide_eq_true_iff]
    exact ⟨habove, hmissed⟩
  rw [owed, hnumbered.emitSync_buffer, List.filter_append, owed]
  exact congrArg _ (List.filter_cons_of_pos howed)

/-- What it is owed when it missed the event. -/
theorem owed_emitSync_missed (hnumbered : w.Numbered) (s : LocalSubscriber) (payload : Json) :
    (w.emitSync payload).owed
        { s with missed := s.missed ++ [⟨w.buffer.length + 1, payload⟩] } = w.owed s := by
  rw [owed, hnumbered.emitSync_buffer, List.filter_append, owed]
  have hlast : List.filter (fun e : LocalEvent =>
      decide (min s.lastEventId s.joined < e.sequence) &&
        decide (e ∉ s.missed ++ [⟨w.buffer.length + 1, payload⟩]))
      [⟨w.buffer.length + 1, payload⟩] = [] := by
    simp
  rw [hlast, List.append_nil]
  refine List.filter_congr fun e he => ?_
  have hne : e ≠ ⟨w.buffer.length + 1, payload⟩ := by
    rintro rfl
    exact absurd (hnumbered.sequence_le he) (Nat.not_succ_le_self _)
  simp [hne]

/-- Who is connected beside a subscriber does not matter to it. -/
theorem Served.frame {s : LocalSubscriber} (h : w.Served s) (subscribers : List LocalSubscriber) :
    ({ w with subscribers } : LocalRun).Served s :=
  ⟨h.delivers, h.registered, h.joined, h.missed⟩

theorem Served.offer (hnumbered : w.Numbered) {s : LocalSubscriber} (h : w.Served s)
    (hdone : w.done = false) (payload : Json) :
    (w.emitSync payload).Served (s.offer ⟨w.buffer.length + 1, payload⟩) := by
  have hlength : (w.emitSync payload).buffer.length = w.buffer.length + 1 := by
    rw [hnumbered.emitSync_buffer, List.length_append, List.length_singleton]
  have hdone' : (w.emitSync payload).done = false := hdone
  have hjoined : s.joined ≤ (w.emitSync payload).buffer.length := by
    have hle := h.joined
    omega
  have hmissed : ∀ e ∈ s.missed, e.sequence ≤ (w.emitSync payload).buffer.length := by
    intro e he
    have hle := h.missed e he
    omega
  rw [LocalSubscriber.offer]
  split
  · rename_i hregistered
    have hleft : s.left ≠ false := fun hleft => by
      simp [h.registered hleft hdone] at hregistered
    exact ⟨fun hl => absurd hl hleft, fun hl => absurd hl hleft, hjoined, hmissed⟩
  · split
    · refine ⟨fun hleft => ?_, h.registered, hjoined, ?_⟩
      · rw [owed_emitSync_missed hnumbered, hdone']
        have hstream := h.delivers hleft
        rwa [hdone] at hstream
      · intro e he
        cases List.mem_append.mp he with
        | inl hold => exact hmissed e hold
        | inr hnew => rw [List.mem_singleton.mp hnew, hlength]
    · refine ⟨fun hleft => ?_, h.registered, hjoined, hmissed⟩
      have hstream := h.delivers hleft
      have howed : (w.emitSync payload).owed (s.put (some ⟨w.buffer.length + 1, payload⟩)) =
          w.owed s ++ [⟨w.buffer.length + 1, payload⟩] := owed_emitSync hnumbered h payload
      rw [hdone, if_neg Bool.false_ne_true, List.append_nil] at hstream
      rw [howed, hdone', if_neg Bool.false_ne_true, List.append_nil, List.map_append, ← hstream]
      simp [LocalSubscriber.stream, LocalSubscriber.put]

theorem Served.take {s : LocalSubscriber} (h : w.Served s) : w.Served s.take := by
  rw [LocalSubscriber.take]
  split
  · exact h
  · rename_i entry rest hqueue
    split
    · exact h
    · rename_i hleft
      have hstream := h.delivers (by simpa using hleft)
      refine ⟨fun _ => ?_, fun _ hdone => ?_, h.joined, h.missed⟩
      · rw [LocalSubscriber.stream, hqueue] at hstream
        rw [LocalSubscriber.stream, List.append_assoc]
        exact hstream
      · -- before the end no entry of the stream is the sentinel
        have hentry : entry ∈ (w.owed s).map some := by
          rw [hdone, if_neg Bool.false_ne_true, List.append_nil] at hstream
          rw [← hstream, LocalSubscriber.stream, hqueue]
          simp
        obtain ⟨event, -, rfl⟩ := List.mem_map.mp hentry
        simpa using h.registered (by simpa using hleft) hdone

theorem Served.leave {s : LocalSubscriber} (h : w.Served s) : w.Served s.leave :=
  ⟨fun hleft => absurd hleft (by simp [LocalSubscriber.leave]),
    fun hleft => absurd hleft (by simp [LocalSubscriber.leave]), h.joined, h.missed⟩

theorem Numbered.served_connect (h : w.Numbered) (lastEventId : Int) :
    w.Served {
      lastEventId
      joined := w.buffer.length
      queue := w.replay lastEventId
      registered := !w.done } := by
  refine ⟨fun _ => ?_, fun _ hdone => by simp [hdone], Nat.le_refl _, by simp⟩
  have howed : ∀ e ∈ w.buffer, (decide (lastEventId < e.sequence) =
      (decide (min lastEventId w.buffer.length < e.sequence) && decide (e ∉ []))) := by
    intro e he
    have hle := h.sequence_le he
    rw [decide_eq_true (List.not_mem_nil), Bool.and_true, decide_eq_decide]
    omega
  rw [LocalSubscriber.stream, List.nil_append, replay, owed, List.filter_congr howed]

theorem broadcastSentinel_eq {l : List LocalSubscriber}
    (h : ∀ s ∈ l, s.registered = true → s.queue.length < queueSize) :
    broadcastSentinel l = l.map fun s => if s.registered = false then s else s.put none := by
  induction l with
  | nil => rfl
  | cons s l ih =>
      obtain ⟨hs, hl⟩ := List.forall_mem_cons.mp h
      rw [broadcastSentinel, List.map_cons, ih hl]
      split
      · rfl
      · rename_i hregistered
        rw [if_neg (Nat.not_le.mpr (hs (by simpa using hregistered)))]

theorem Served.finish {s : LocalSubscriber} (h : w.Served s) (hdone : w.done = false) :
    w.finish.Served (if s.registered = false then s else s.put none) := by
  split
  · rename_i hregistered
    have hleft : s.left ≠ false := fun hleft => by
      simp [h.registered hleft hdone] at hregistered
    exact ⟨fun hl => absurd hl hleft, fun hl => absurd hl hleft, h.joined, h.missed⟩
  · refine ⟨fun hleft => ?_, fun _ hend => absurd hend (by simp [LocalRun.finish]), h.joined,
      h.missed⟩
    have hstream := h.delivers hleft
    have howed : w.finish.owed (s.put none) = w.owed s := rfl
    have hend : w.finish.done = true := rfl
    rw [hdone, if_neg Bool.false_ne_true, List.append_nil] at hstream
    rw [howed, hend, if_pos rfl, ← hstream, LocalSubscriber.stream, LocalSubscriber.stream,
      List.append_assoc]
    rfl

theorem consistent_step (action : LocalAction) (h : w.Consistent) (hfits : w.SentinelFits action) :
    (apply action w).2.Consistent := by
  cases action with
  | emit payload =>
      simp only [apply]
      split
      · exact h
      · rename_i hdone
        refine ⟨h.toNumbered.emitSync payload, fun s hs => ?_⟩
        have hevent : (w.emitSync payload).subscribers =
            w.subscribers.map (·.offer ⟨w.buffer.length + 1, payload⟩) := by
          simp [LocalRun.emitSync, h.next]
        rw [hevent] at hs
        obtain ⟨s₀, hs₀, rfl⟩ := List.mem_map.mp hs
        exact (h.served s₀ hs₀).offer h.toNumbered (by simpa using hdone) payload
  | connect lastEventId =>
      simp only [apply, connect]
      split
      · refine ⟨⟨h.next, h.buffer⟩, fun s hs => ?_⟩
        cases List.mem_append.mp hs with
        | inl hold => exact (h.served s hold).frame _
        | inr hnew =>
            rw [List.mem_singleton.mp hnew]
            exact (h.served_connect lastEventId).frame _
      · exact h
  | take i =>
      have hall := forall_mem_modify (P := w.Served) (fun _ => Served.take) _ i h.served
      exact ⟨⟨h.next, h.buffer⟩, fun s hs => (hall s hs).frame _⟩
  | leave i =>
      have hall := forall_mem_modify (P := w.Served) (fun _ => Served.leave) _ i h.served
      exact ⟨⟨h.next, h.buffer⟩, fun s hs => (hall s hs).frame _⟩
  | finish =>
      simp only [apply]
      split
      · exact h
      · rename_i hdone
        refine ⟨⟨h.next, h.buffer⟩, fun s hs => ?_⟩
        have hsubscribers : w.finish.subscribers = broadcastSentinel w.subscribers := rfl
        rw [hsubscribers, broadcastSentinel_eq hfits] at hs
        obtain ⟨s₀, hs₀, rfl⟩ := List.mem_map.mp hs
        exact (h.served s₀ hs₀).finish (by simpa using hdone)

/-- What every subscriber keeps when it is offered an event, all keep while events
are emitted. -/
theorem run_emits {P : LocalSubscriber → Prop} (hP : ∀ s e, P s → P (s.offer e)) (payload : Json)
    (n : Nat) (w : LocalRun) (hdone : w.done = false) (h : ∀ s ∈ w.subscribers, P s) :
    let w' := Machine.run apply w (List.replicate n (.emit payload))
    w'.buffer.length = w.buffer.length + n ∧
      w'.subscribers.length = w.subscribers.length ∧ ∀ s ∈ w'.subscribers, P s := by
  induction n generalizing w with
  | zero => exact ⟨rfl, rfl, h⟩
  | succ n ih =>
      have hstep : (apply (.emit payload) w).2 = w.emitSync payload := by simp [apply, hdone]
      have hmap : ∃ e, (w.emitSync payload).subscribers = w.subscribers.map (·.offer e) :=
        ⟨_, rfl⟩
      have hbuffer : (w.emitSync payload).buffer.length = w.buffer.length + 1 := by
        simp [LocalRun.emitSync]
      obtain ⟨e, hmap⟩ := hmap
      have hall : ∀ s ∈ (w.emitSync payload).subscribers, P s := by
        intro s hs
        rw [hmap] at hs
        obtain ⟨s₀, hs₀, rfl⟩ := List.mem_map.mp hs
        exact hP s₀ e (h s₀ hs₀)
      obtain ⟨hlength, hcount, hend⟩ := ih (w.emitSync payload) hdone hall
      rw [List.replicate_succ, Machine.run, hstep]
      refine ⟨?_, ?_, hend⟩
      · rw [hlength, hbuffer]
        omega
      · rw [hcount, hmap, List.length_map]

end LocalRun

open LocalRun in
/-- The events of a run are numbered in their order, and every subscriber that stays
gets those it is owed, once each and in order, and the sentinel at the end, when no
queue is full at that moment. -/
theorem local_stream_delivers (actions : List LocalAction)
    (h : Machine.Guarded apply (fun w a => w.SentinelFits a) {} actions) :
    let w := Machine.run apply {} actions
    w.buffer.map (·.sequence) = List.range' 1 w.buffer.length ∧
      ∀ s ∈ w.subscribers, w.Delivers s := by
  have hstart : ({} : LocalRun).Consistent := ⟨⟨rfl, rfl⟩, by simp⟩
  have hend : (Machine.run apply {} actions).Consistent :=
    Machine.run_invariant_of_guarded apply (fun _ a hs ha => consistent_step a hs ha) hstart h
  exact ⟨hend.buffer, fun s hs => (hend.served s hs).delivers⟩

/-- One subscriber from the start, one that comes back after the first event. -/
theorem two_subscribers_served :
    let w := Machine.run LocalRun.apply {}
      [.connect 0, .emit .null, .take 0, .connect 1, .emit .null, .finish, .take 0, .take 1]
    w.buffer.map (·.sequence) = List.range' 1 w.buffer.length ∧
      ∀ s ∈ w.subscribers, w.Delivers s :=
  local_stream_delivers _ (by decide +kernel)

/-- The subscriber stays, asked for everything and took nothing. -/
structure Untaken (s : LocalSubscriber) : Prop where
  left : s.left = false
  lastEventId : s.lastEventId = 0
  received : s.received = []
  queue : s.queue.length ≤ queueSize

theorem Untaken.offer (s : LocalSubscriber) (e : LocalEvent) (h : Untaken s) :
    Untaken (s.offer e) := by
  rw [LocalSubscriber.offer]
  split
  · exact h
  · split
    · exact ⟨h.left, h.lastEventId, h.received, h.queue⟩
    · rename_i hfull
      refine ⟨h.left, h.lastEventId, h.received, ?_⟩
      rw [LocalSubscriber.put, List.length_append, List.length_singleton]
      omega

/-- A subscriber that takes nothing while `n` events are emitted. -/
def slowSubscriber (n : Nat) : List LocalAction :=
  .connect 0 :: List.replicate n (.emit .null)

theorem slowSubscriber_consistent (n : Nat) :
    (Machine.run LocalRun.apply {} (slowSubscriber n)).Consistent := by
  refine Machine.run_invariant_of_guarded LocalRun.apply
    (fun _ a hs ha => LocalRun.consistent_step a hs ha) ⟨⟨rfl, rfl⟩, by simp⟩ ?_
  intro e he
  obtain ⟨pre, i, post, hi, rfl⟩ := (Machine.mem_log _).mp he
  have hmem : i ∈ slowSubscriber n := hi ▸ List.mem_append_right pre List.mem_cons_self
  cases List.mem_cons.mp hmem with
  | inl hconnect => exact hconnect ▸ trivial
  | inr hemit => exact List.eq_of_mem_replicate hemit ▸ trivial

/-- There is a subscriber whose stream is shorter than what was emitted. -/
theorem slowSubscriber_missed {n : Nat} (hn : queueSize < n) :
    ∃ s ∈ (Machine.run LocalRun.apply {} (slowSubscriber n)).subscribers, Untaken s ∧
      s.stream.length < (Machine.run LocalRun.apply {} (slowSubscriber n)).buffer.length := by
  have hstart : ∀ s ∈ (LocalRun.apply (.connect 0) {}).2.subscribers, Untaken s := by
    intro s hs
    obtain rfl := List.mem_singleton.mp hs
    exact ⟨rfl, rfl, rfl, Nat.zero_le _⟩
  have hrun : Machine.run LocalRun.apply {} (slowSubscriber n) =
      Machine.run LocalRun.apply (LocalRun.apply (.connect 0) {}).2
        (List.replicate n (.emit .null)) := rfl
  obtain ⟨hlength, hcount, huntaken⟩ :=
    LocalRun.run_emits Untaken.offer .null n _ rfl hstart
  rw [← hrun] at hlength hcount huntaken
  obtain ⟨s, hs⟩ := List.exists_mem_of_length_pos (Nat.lt_of_lt_of_eq Nat.zero_lt_one hcount.symm)
  refine ⟨s, hs, huntaken s hs, ?_⟩
  have hempty : (LocalRun.apply (.connect 0) {}).2.buffer.length = 0 := rfl
  have hqueue := (huntaken s hs).queue
  rw [LocalSubscriber.stream, (huntaken s hs).received, List.nil_append, hlength, hempty]
  omega

/-- The last event passes the slow subscriber by. -/
theorem slow_subscriber_misses_event :
    ¬ ∀ (actions : List LocalAction),
      let w := Machine.run LocalRun.apply {} actions
      ∀ s ∈ w.subscribers, s.left = false →
        s.stream = (w.buffer.filter (fun e => s.lastEventId < e.sequence)).map some ++
          if w.done then [none] else [] := by
  intro h
  obtain ⟨s, hs, huntaken, hshort⟩ :=
    slowSubscriber_missed (n := queueSize + 1) (Nat.lt_succ_self _)
  have hstream := congrArg List.length (h (slowSubscriber _) s hs huntaken.left)
  have hall : ∀ e ∈ (Machine.run LocalRun.apply {} (slowSubscriber (queueSize + 1))).buffer,
      decide (s.lastEventId < e.sequence) = true := by
    intro e he
    have hmem : e.sequence ∈ (Machine.run LocalRun.apply {}
      (slowSubscriber (queueSize + 1))).buffer.map (·.sequence) := List.mem_map_of_mem he
    rw [(slowSubscriber_consistent _).buffer, List.mem_range'_1] at hmem
    rw [decide_eq_true_eq, huntaken.lastEventId]
    omega
  rw [List.filter_eq_self.mpr hall, List.length_append, List.length_map] at hstream
  omega

end Orchestrator
