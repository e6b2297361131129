import Mathlib.Algebra.Order.Group.MinMax
import Mathlib.Algebra.Order.Ring.Rat
import Mathlib.Tactic.Linarith
import Orchestrator.Lib.Double
import Orchestrator.Lib.Machine

/-!
The throttle that all Replicate calls share, under any interleaving of its calls.

A call waits for a permit, reserves the next start without another await, sleeps
until then and runs what it wraps; the permit is given back however that ends.
The tasks of one event loop take turns at these points. The clock and the interval
are finite doubles, and a sleep ends when the clock reads the double sum of the time
it began and its duration.
-/

namespace Orchestrator

structure AsyncThrottle where
  minInterval : Double
  concurrency : Nat
  nextStart : Option Double := none
  /-- The permits left; there is no semaphore before the first call. -/
  sem : Option Nat := none

namespace AsyncThrottle
variable (t : AsyncThrottle)

/-- `AsyncThrottle(min_interval, concurrency)`. -/
def new (minInterval : Double) (concurrency : Int) : AsyncThrottle where
  minInterval := minInterval
  concurrency := (max 1 concurrency).toNat

/-- `_semaphore`. -/
def permits : Nat := t.sem.getD t.concurrency

def startAt (now : Double) : Double :=
  match t.nextStart with
  | some next => if next.val > now.val then next else now
  | none => now

def reserve (now : Double) : AsyncThrottle :=
  { t with
    nextStart := some ((t.startAt now).add t.minInterval)
    sem := some (t.permits - 1) }

def release : AsyncThrottle := { t with sem := some (t.permits + 1) }

theorem le_startAt (now : Double) : now.val ≤ (t.startAt now).val := by
  rw [startAt]
  split
  next next hnext =>
      split
      next hlater => exact hlater.le
      next => exact le_rfl
  next => exact le_rfl

theorem next_le_startAt {next : Double} (h : next ∈ t.nextStart) (now : Double) :
    next.val ≤ (t.startAt now).val := by
  rw [startAt, Option.mem_def.mp h]
  simp only
  split
  next => exact le_rfl
  next hearlier => exact not_lt.mp hearlier

end AsyncThrottle

structure ThrottleTurn where
  id : Nat
  now : Double
  start : Double

namespace ThrottleTurn
variable (turn : ThrottleTurn)

/-- The clock at the end of `self._sleep(start - now)`. -/
def wake : Double := turn.now.add (turn.start.sub turn.now)

end ThrottleTurn

inductive ThrottledEnd where
  | returned
  | raised
  | cancelled
  deriving DecidableEq

structure ThrottleWorld where
  throttle : AsyncThrottle
  clock : Double
  calls : Nat := 0
  waiting : List Nat := []
  sleeping : List ThrottleTurn := []
  running : List Nat := []
  /-- The wrapped calls in the order they were started, each with its time. -/
  starts : List (ThrottleTurn × Double) := []
  ended : List (Nat × ThrottledEnd) := []

inductive ThrottleEvent where
  | call
  | acquire (id : Nat)
  | wake (id : Nat)
  /-- What a call wraps returns or raises. -/
  | finish (id : Nat) (raised : Bool)
  | cancel (id : Nat)
  /-- The clock moves on, past the end of no sleep. -/
  | tick (time : Double)

namespace ThrottleWorld

def start (w : ThrottleWorld) (turn : ThrottleTurn) : ThrottleWorld :=
  { w with running := w.running ++ [turn.id], starts := w.starts ++ [(turn, w.clock)] }

def leave (w : ThrottleWorld) (id : Nat) (ending : ThrottledEnd) : ThrottleWorld :=
  { w with throttle := w.throttle.release, ended := w.ended ++ [(id, ending)] }

/-- What `run` does with its permit up to its next await. -/
def reserve (w : ThrottleWorld) (id : Nat) : ThrottleWorld :=
  let reserved : ThrottleWorld :=
    { w with throttle := w.throttle.reserve w.clock, waiting := w.waiting.erase id }
  let turn : ThrottleTurn := ⟨id, w.clock, w.throttle.startAt w.clock⟩
  if turn.start.val > w.clock.val then { reserved with sleeping := w.sleeping ++ [turn] }
  else reserved.start turn

/-- One step of the event loop; what cannot happen changes nothing. -/
def step (w : ThrottleWorld) : ThrottleEvent → ThrottleWorld
  | .call =>
      { w with
        throttle := { w.throttle with sem := some w.throttle.permits }
        calls := w.calls + 1
        waiting := w.waiting ++ [w.calls] }
  | .acquire id => if id ∈ w.waiting ∧ 0 < w.throttle.permits then w.reserve id else w
  | .wake id =>
      match w.sleeping.find? (·.id = id) with
      | some turn =>
          if turn.wake.val ≤ w.clock.val then
            { w with sleeping := w.sleeping.eraseP (·.id = id) }.start turn
          else w
      | none => w
  | .finish id raised =>
      if id ∈ w.running then
        { w with running := w.running.erase id }.leave id (if raised then .raised else .returned)
      else w
  | .cancel id =>
      if id ∈ w.waiting then
        { w with
          waiting := w.waiting.erase id
          ended := w.ended ++ [(id, .cancelled)] }
      else if w.sleeping.any (·.id = id) then
        { w with sleeping := w.sleeping.eraseP (·.id = id) }.leave id .cancelled
      else if id ∈ w.running then
        { w with running := w.running.erase id }.leave id .cancelled
      else w
  | .tick time =>
      if w.clock.val ≤ time.val ∧ ∀ turn ∈ w.sleeping, time.val ≤ turn.wake.val then
        { w with clock := time }
      else w

def run (w : ThrottleWorld) (events : List ThrottleEvent) : ThrottleWorld :=
  Machine.run (fun event w => ((), w.step event)) w events

def begin (minInterval : Double) (concurrency : Int) (clock : Double) : ThrottleWorld where
  throttle := .new minInterval concurrency
  clock := clock

end ThrottleWorld

namespace ThrottleTurn
variable (turn : ThrottleTurn)

theorem now_le_wake (h : turn.now.val ≤ turn.start.val) : turn.now.val ≤ turn.wake.val := by
  have hsleep : (Double.ofRat 0).val ≤ (turn.start.sub turn.now).val :=
    Double.le_sub (by simpa using h)
  refine Double.le_add ?_
  rw [Double.ofRat_zero] at hsleep
  linarith

variable {turn}

theorem wake_of_start_eq (h : turn.start = turn.now) : turn.wake = turn.now := by
  rw [wake, h, Double.sub_self, Double.add_zero]

/-- A call starts when it was to start, up to four roundings of the times around. -/
theorem abs_wake_sub_start_le {bound : Rat} (hstart : turn.now.val ≤ turn.start.val)
    (hnow : |turn.now.val| ≤ bound) (hwake : |turn.wake.val| ≤ bound) :
    |turn.wake.val - turn.start.val| ≤ 4 * bound / 2 ^ 53 := by
  have hsub := Double.abs_sub_sub_le turn.start turn.now
  have hadd := Double.abs_add_sub_le turn.now (turn.start.sub turn.now)
  rw [← wake] at hadd
  rw [abs_of_nonneg (sub_nonneg.mpr hstart)] at hsub
  have hsum := abs_sub_abs_le_abs_sub (turn.now.val + (turn.start.sub turn.now).val) turn.wake.val
  rw [abs_sub_comm] at hsum
  obtain ⟨hnow₁, hnow₂⟩ := abs_le.mp hnow
  obtain ⟨hsub₁, hsub₂⟩ := abs_le.mp hsub
  have hself := le_abs_self (turn.now.val + (turn.start.sub turn.now).val)
  obtain ⟨hadd₁, hadd₂⟩ := abs_le.mp hadd
  rw [abs_le]
  constructor <;> linarith

end ThrottleTurn

namespace ThrottleWorld

def turns (w : ThrottleWorld) : List ThrottleTurn := w.starts.map Prod.fst ++ w.sleeping

/-- One of the two reserved its start when the other had reserved its own. -/
def Apart (minInterval : Double) (a b : ThrottleTurn) : Prop :=
  (a.start.add minInterval).val ≤ b.start.val ∨ (b.start.add minInterval).val ≤ a.start.val

theorem Apart.symm {minInterval : Double} {a b : ThrottleTurn} (h : Apart minInterval a b) :
    Apart minInterval b a :=
  Or.symm h

structure Spaced (begun : Double) (throttle : AsyncThrottle) (turns : List ThrottleTurn) :
    Prop where
  apart : 0 ≤ throttle.minInterval.val → turns.Pairwise (Apart throttle.minInterval)
  reserved : 0 ≤ throttle.minInterval.val → ∀ turn ∈ turns, ∃ next ∈ throttle.nextStart,
    (turn.start.add throttle.minInterval).val ≤ next.val
  began : ∀ turn ∈ turns, begun.val ≤ turn.now.val ∧ turn.now.val ≤ turn.start.val

namespace Spaced
variable {begun : Double} {throttle : AsyncThrottle} {turns turns' : List ThrottleTurn}
  (h : Spaced begun throttle turns)
include h

theorem sublist (hsub : turns'.Sublist turns) : Spaced begun throttle turns' where
  apart hinterval := (h.apart hinterval).sublist hsub
  reserved hinterval turn hturn := h.reserved hinterval turn (hsub.subset hturn)
  began turn hturn := h.began turn (hsub.subset hturn)

theorem perm (hperm : turns.Perm turns') : Spaced begun throttle turns' where
  apart hinterval := (hperm.pairwise_iff Apart.symm).mp (h.apart hinterval)
  reserved hinterval turn hturn := h.reserved hinterval turn (hperm.mem_iff.mpr hturn)
  began turn hturn := h.began turn (hperm.mem_iff.mpr hturn)

/-- A call reserves its start after all that were reserved. -/
theorem reserve {now : Double} (hnow : begun.val ≤ now.val) (id : Nat) :
    Spaced begun (throttle.reserve now) (turns ++ [⟨id, now, throttle.startAt now⟩]) := by
  have hbefore (hinterval : 0 ≤ throttle.minInterval.val) (turn : ThrottleTurn)
      (hturn : turn ∈ turns) :
      (turn.start.add throttle.minInterval).val ≤ (throttle.startAt now).val := by
    obtain ⟨next, hnext, hle⟩ := h.reserved hinterval turn hturn
    exact hle.trans (throttle.next_le_startAt hnext now)
  refine ⟨fun hinterval => ?_, fun hinterval turn hturn => ⟨_, rfl, ?_⟩, fun turn hturn => ?_⟩
  · rw [List.pairwise_append]
    refine ⟨h.apart hinterval, List.pairwise_singleton _ _, fun turn hturn last hlast => ?_⟩
    rw [List.mem_singleton.mp hlast]
    exact Or.inl (hbefore hinterval turn hturn)
  · obtain hturn | hlast := List.mem_append.mp hturn
    · refine (hbefore hinterval turn hturn).trans (Double.le_add ?_)
      have hinterval : 0 ≤ throttle.minInterval.val := hinterval
      linarith
    · rw [List.mem_singleton.mp hlast]
      exact le_rfl
  · obtain hturn | hlast := List.mem_append.mp hturn
    · exact h.began turn hturn
    · rw [List.mem_singleton.mp hlast]
      exact ⟨hnow, throttle.le_startAt now⟩

end Spaced

structure Paced (begun : Double) (w : ThrottleWorld) : Prop where
  permits : w.throttle.permits + w.sleeping.length + w.running.length = w.throttle.concurrency
  spaced : Spaced begun w.throttle w.turns
  ahead : ∀ turn ∈ w.sleeping, w.clock.val ≤ turn.wake.val
  woken : ∀ started ∈ w.starts, started.2.val = started.1.wake.val
  ordered : w.starts.Pairwise fun first second => first.2.val ≤ second.2.val
  past : ∀ started ∈ w.starts, started.2.val ≤ w.clock.val
  begun : begun.val ≤ w.clock.val

theorem paced_begin (minInterval : Double) (concurrency : Int) (clock : Double) :
    (begin minInterval concurrency clock).Paced clock where
  permits := rfl
  spaced := ⟨fun _ => List.Pairwise.nil, by simp [turns, begin], by simp [turns, begin]⟩
  ahead := by simp [begin]
  woken := by simp [begin]
  ordered := List.Pairwise.nil
  past := by simp [begin]
  begun := le_rfl

namespace Paced
variable {begun : Double} {w : ThrottleWorld} (h : w.Paced begun)
include h

theorem start_ordered {turn : ThrottleTurn} :
    (w.starts ++ [(turn, w.clock)]).Pairwise (fun first second => first.2.val ≤ second.2.val) ∧
      ∀ started ∈ w.starts ++ [(turn, w.clock)], started.2.val ≤ w.clock.val := by
  refine ⟨List.pairwise_append.mpr ⟨h.ordered, List.pairwise_singleton _ _, ?_⟩, ?_⟩
  · intro started hstarted last hlast
    rw [List.mem_singleton.mp hlast]
    exact h.past started hstarted
  · intro started hstarted
    obtain hstarted | hlast := List.mem_append.mp hstarted
    · exact h.past started hstarted
    · rw [List.mem_singleton.mp hlast]

theorem start_woken {turn : ThrottleTurn} (hnow : w.clock.val = turn.wake.val) :
    ∀ started ∈ w.starts ++ [(turn, w.clock)], started.2.val = started.1.wake.val := by
  intro started hstarted
  obtain hstarted | hlast := List.mem_append.mp hstarted
  · exact h.woken started hstarted
  · rw [List.mem_singleton.mp hlast]
    exact hnow

theorem reserve {id : Nat} (hpermit : 0 < w.throttle.permits) : (w.reserve id).Paced begun := by
  let turn : ThrottleTurn := ⟨id, w.clock, w.throttle.startAt w.clock⟩
  have hspaced : Spaced begun (w.throttle.reserve w.clock) (w.turns ++ [turn]) :=
    h.spaced.reserve h.begun id
  have hpermits := h.permits
  have hstart : w.clock.val ≤ turn.start.val := w.throttle.le_startAt w.clock
  simp only [ThrottleWorld.reserve]
  split
  next hlater =>
      refine ⟨?_, ?_, ?_, h.woken, h.ordered, h.past, h.begun⟩
      · simp only [AsyncThrottle.reserve, AsyncThrottle.permits, Option.getD_some,
          List.length_append, List.length_singleton] at hpermits hpermit ⊢
        omega
      · rw [turns, ← List.append_assoc]
        exact hspaced
      · intro sleeper hsleeper
        obtain hsleeper | hlast := List.mem_append.mp hsleeper
        · exact h.ahead sleeper hsleeper
        · rw [List.mem_singleton.mp hlast]
          exact turn.now_le_wake hstart
  next hnow =>
      have hsame : turn.start = turn.now := Double.ext (le_antisymm (not_lt.mp hnow) hstart)
      have hwake : w.clock.val = turn.wake.val := by
        rw [ThrottleTurn.wake_of_start_eq hsame]
      refine ⟨?_, ?_, h.ahead, h.start_woken hwake, h.start_ordered.1, h.start_ordered.2,
        h.begun⟩
      · simp only [start, AsyncThrottle.reserve, AsyncThrottle.permits, Option.getD_some,
          List.length_append, List.length_singleton] at hpermits hpermit ⊢
        omega
      · refine hspaced.perm ?_
        simp only [turns, start, List.map_append, List.map_singleton, List.append_assoc]
        exact (List.perm_append_comm).append_left _

/-- Whoever wakes has slept until the time that the clock reads. -/
theorem wake {id : Nat} {turn : ThrottleTurn}
    (hfound : w.sleeping.find? (·.id = id) = some turn) (hdue : turn.wake.val ≤ w.clock.val) :
    Paced begun (start { w with sleeping := w.sleeping.eraseP (·.id = id) } turn) := by
  obtain ⟨hid, earlier, later, hsplit, hothers⟩ := List.find?_eq_some_iff_append.mp hfound
  have herase : w.sleeping.eraseP (·.id = id) = earlier ++ later := by
    rw [hsplit, List.eraseP_append_right _ (by simpa using hothers)]
    exact congrArg (earlier ++ ·) (List.eraseP_cons_of_pos hid)
  have hpermits := h.permits
  have hwake := le_antisymm (h.ahead turn (List.mem_of_find?_eq_some hfound)) hdue
  rw [herase]
  refine ⟨?_, ?_, ?_, h.start_woken hwake, h.start_ordered.1, h.start_ordered.2, h.begun⟩
  · rw [hsplit] at hpermits
    simp only [start, List.length_cons, List.length_append, List.length_nil] at hpermits ⊢
    omega
  · refine h.spaced.perm ?_
    simp only [turns, start, hsplit, List.map_append, List.map_singleton, List.append_assoc]
    exact List.perm_middle.append_left _
  · intro sleeper hsleeper
    refine h.ahead sleeper ?_
    rw [hsplit]
    obtain hsleeper | hsleeper := List.mem_append.mp hsleeper
    · exact List.mem_append_left _ hsleeper
    · exact List.mem_append_right _ (List.mem_cons_of_mem _ hsleeper)

/-- A call that gives its permit back leaves the others as they were. -/
theorem leave {id : Nat} {ending : ThrottledEnd} {sleeping : List ThrottleTurn}
    {running : List Nat} (hsleeping : sleeping.Sublist w.sleeping)
    (hheld : sleeping.length + running.length + 1 = w.sleeping.length + w.running.length) :
    Paced begun
      (ThrottleWorld.leave { w with sleeping := sleeping, running := running } id ending) := by
  have hspaced := h.spaced.sublist (hsleeping.append_left (w.starts.map Prod.fst))
  have hpermits := h.permits
  refine ⟨?_, ⟨hspaced.apart, hspaced.reserved, hspaced.began⟩,
    fun turn hturn => h.ahead turn (hsleeping.subset hturn), h.woken, h.ordered, h.past, h.begun⟩
  simp only [ThrottleWorld.leave, AsyncThrottle.release, AsyncThrottle.permits, Option.getD_some]
    at hpermits ⊢
  omega

theorem tick {time : Double} (hlater : w.clock.val ≤ time.val)
    (hsleeping : ∀ turn ∈ w.sleeping, time.val ≤ turn.wake.val) :
    Paced begun { w with clock := time } where
  permits := h.permits
  spaced := h.spaced
  ahead := hsleeping
  woken := h.woken
  ordered := h.ordered
  past started hstarted := (h.past started hstarted).trans hlater
  begun := h.begun.trans hlater

theorem step (event : ThrottleEvent) : (w.step event).Paced begun := by
  cases event with
  | call =>
      exact ⟨h.permits, ⟨h.spaced.apart, h.spaced.reserved, h.spaced.began⟩, h.ahead, h.woken,
        h.ordered, h.past, h.begun⟩
  | acquire id =>
      simp only [ThrottleWorld.step]
      split
      next hacquire => exact h.reserve hacquire.2
      next => exact h
  | wake id =>
      simp only [ThrottleWorld.step]
      split
      next turn hfound =>
          split
          next hdue => exact h.wake hfound hdue
          next => exact h
      next => exact h
  | finish id raised =>
      simp only [ThrottleWorld.step]
      split
      next hrunning =>
          refine h.leave (List.Sublist.refl _) ?_
          have hlength := List.length_pos_of_mem hrunning
          rw [List.length_erase_of_mem hrunning]
          omega
      next => exact h
  | cancel id =>
      simp only [ThrottleWorld.step]
      split
      next => exact ⟨h.permits, h.spaced, h.ahead, h.woken, h.ordered, h.past, h.begun⟩
      next =>
          split
          next hsleeping =>
              obtain ⟨turn, hmem, hid⟩ := List.any_eq_true.mp hsleeping
              refine h.leave List.eraseP_sublist ?_
              have hlength := List.length_pos_of_mem hmem
              rw [List.length_eraseP_of_mem hmem hid]
              omega
          next =>
              split
              next hrunning =>
                  refine h.leave (List.Sublist.refl _) ?_
                  have hlength := List.length_pos_of_mem hrunning
                  rw [List.length_erase_of_mem hrunning]
                  omega
              next => exact h
  | tick time =>
      simp only [ThrottleWorld.step]
      split
      next htick => exact h.tick htick.1 htick.2
      next => exact h

end Paced

theorem paced_run (minInterval : Double) (concurrency : Int) (clock : Double)
    (events : List ThrottleEvent) :
    ((begin minInterval concurrency clock).run events).Paced clock := by
  have hstep : ∀ (w : ThrottleWorld) event, w.Paced clock → (w.step event).Paced clock :=
    fun w event h => h.step event
  exact Machine.run_invariant (fun event w => ((), w.step event)) hstep
    (paced_begin minInterval concurrency clock) events

def MadeWith (minInterval : Double) (concurrency : Nat) (w : ThrottleWorld) : Prop :=
  w.throttle.minInterval = minInterval ∧ w.throttle.concurrency = concurrency

theorem MadeWith.step {w : ThrottleWorld} {minInterval : Double} {concurrency : Nat}
    (h : w.MadeWith minInterval concurrency) (event : ThrottleEvent) :
    (w.step event).MadeWith minInterval concurrency := by
  have hreserve : ∀ id, (w.reserve id).MadeWith minInterval concurrency := by
    intro id
    simp only [ThrottleWorld.reserve]
    split <;> exact h
  cases event with
  | call => exact h
  | acquire id =>
      simp only [ThrottleWorld.step]
      split
      · exact hreserve id
      · exact h
  | wake id =>
      simp only [ThrottleWorld.step]
      split
      · split <;> exact h
      · exact h
  | finish id raised =>
      simp only [ThrottleWorld.step]
      split <;> exact h
  | cancel id =>
      simp only [ThrottleWorld.step]
      split
      · exact h
      · split
        · exact h
        · split <;> exact h
  | tick time =>
      simp only [ThrottleWorld.step]
      split <;> exact h

theorem madeWith_run (minInterval : Double) (concurrency : Int) (clock : Double)
    (events : List ThrottleEvent) :
    ((begin minInterval concurrency clock).run events).MadeWith minInterval
      (AsyncThrottle.new minInterval concurrency).concurrency := by
  have hstep : ∀ (w : ThrottleWorld) event,
      w.MadeWith minInterval (AsyncThrottle.new minInterval concurrency).concurrency →
      (w.step event).MadeWith minInterval (AsyncThrottle.new minInterval concurrency).concurrency :=
    fun w event h => h.step event
  exact Machine.run_invariant (fun event (w : ThrottleWorld) => ((), w.step event)) hstep
    (s := begin minInterval concurrency clock) ⟨rfl, rfl⟩ events

/-- A start reserved behind another one, both within a bound, is the interval away
but for the rounding. -/
theorem gap_le {minInterval : Double} {first second : ThrottleTurn} {bound : Rat}
    (hafter : (first.start.add minInterval).val ≤ second.start.val)
    (hfirst : |first.wake.val - first.start.val| ≤ 4 * bound / 2 ^ 53)
    (hsecond : |second.wake.val - second.start.val| ≤ 4 * bound / 2 ^ 53)
    (hwake₁ : |first.wake.val| ≤ bound) (hwake₂ : |second.wake.val| ≤ bound) :
    minInterval.val - bound / 2 ^ 49 ≤ second.wake.val - first.wake.val := by
  have hround := Double.abs_add_sub_le first.start minInterval
  obtain ⟨hfirst₁, hfirst₂⟩ := abs_le.mp hfirst
  obtain ⟨hsecond₁, hsecond₂⟩ := abs_le.mp hsecond
  obtain ⟨hwake₁₁, hwake₁₂⟩ := abs_le.mp hwake₁
  obtain ⟨hwake₂₁, hwake₂₂⟩ := abs_le.mp hwake₂
  obtain ⟨hround₁, hround₂⟩ := abs_le.mp hround
  obtain hpos | hneg := le_total 0 (first.start.val + minInterval.val)
  · rw [abs_of_nonneg hpos] at hround₁ hround₂
    linarith
  · rw [abs_of_nonpos hneg] at hround₁ hround₂
    linarith

/-- What the clock read bounds the rounding of every call up to then. -/
theorem Paced.abs_le {begun : Double} {w : ThrottleWorld} (h : w.Paced begun)
    {first second : ThrottleTurn × Double} (hfirst : first ∈ w.starts)
    (hle : first.2.val ≤ second.2.val) :
    |first.1.wake.val| ≤ max |begun.val| |second.2.val| ∧
      |first.1.wake.val - first.1.start.val| ≤ 4 * max |begun.val| |second.2.val| / 2 ^ 53 := by
  obtain ⟨hbegun, hstart⟩ := h.spaced.began first.1
    (List.mem_append_left _ (List.mem_map_of_mem hfirst))
  have hwoken := h.woken first hfirst
  have hnow := first.1.now_le_wake hstart
  rw [hwoken] at hle
  have hbound : |first.1.now.val| ≤ max |begun.val| |second.2.val| :=
    abs_le_max_abs_abs hbegun (hnow.trans hle)
  have hwake : |first.1.wake.val| ≤ max |begun.val| |second.2.val| :=
    abs_le_max_abs_abs (hbegun.trans hnow) hle
  exact ⟨hwake, ThrottleTurn.abs_wake_sub_start_le hstart hbound hwake⟩

/-- However the calls come and end, the wrapped calls start the interval apart, up to
the rounding of the sums, and no more of them run than the throttle was made for. -/
theorem throttle_paces_calls (minInterval : Double) (concurrency : Int) (clock : Double)
    (events : List ThrottleEvent) :
    ((begin minInterval concurrency clock).run events).starts.Pairwise (fun first second =>
        first.2.val ≤ second.2.val ∧
          minInterval.val - max |clock.val| |second.2.val| / 2 ^ 49 ≤
            second.2.val - first.2.val) ∧
      ((begin minInterval concurrency clock).run events).running.length
        ≤ (AsyncThrottle.new minInterval concurrency).concurrency := by
  obtain ⟨hinterval, hconcurrency⟩ := madeWith_run minInterval concurrency clock events
  have hpaced := paced_run minInterval concurrency clock events
  generalize (begin minInterval concurrency clock).run events = w at *
  constructor
  · obtain hpos | hneg := le_or_gt 0 minInterval.val
    · have hapart : w.starts.Pairwise fun first second => Apart minInterval first.1 second.1 := by
        rw [← hinterval] at hpos ⊢
        exact List.pairwise_map.mp
          ((hpaced.spaced.apart hpos).sublist (List.sublist_append_left _ _))
      refine (hpaced.ordered.and hapart).imp_of_mem fun {first second} hfirst hsecond hboth => ?_
      obtain ⟨hle, hapart⟩ := hboth
      refine ⟨hle, ?_⟩
      obtain ⟨hwake₁, hstart₁⟩ := hpaced.abs_le hfirst hle
      obtain ⟨hwake₂, hstart₂⟩ := hpaced.abs_le hsecond (le_refl second.2.val)
      have hwoken₁ := hpaced.woken first hfirst
      have hwoken₂ := hpaced.woken second hsecond
      -- calls may start in the other order than they reserved when the rounding eats the interval
      obtain hafter | hbefore := hapart
      · have hgap := gap_le hafter hstart₁ hstart₂ hwake₁ hwake₂
        rwa [← hwoken₁, ← hwoken₂] at hgap
      · have hgap := gap_le hbefore hstart₂ hstart₁ hwake₂ hwake₁
        rw [← hwoken₁, ← hwoken₂] at hgap
        linarith
    · refine hpaced.ordered.imp fun {first second} hle => ⟨hle, ?_⟩
      have hbound : 0 ≤ max |clock.val| |second.2.val| :=
        (abs_nonneg clock.val).trans (le_max_left _ _)
      linarith
  · rw [← hconcurrency, ← hpaced.permits]
    exact Nat.le_add_left _ _

/-- The double sum of 0.7 and 0.1 is less than 0.1 away from 0.7. -/
theorem double_sum_within_interval :
    ¬ ∀ (minInterval : Double) (concurrency : Int) (clock : Double) (events : List ThrottleEvent),
      ((begin minInterval concurrency clock).run events).starts.IsChain
          (fun first second => minInterval.val ≤ second.2.val - first.2.val) ∧
        ((begin minInterval concurrency clock).run events).running.length
          ≤ (AsyncThrottle.new minInterval concurrency).concurrency := by
  intro hclaim
  have hgap := (hclaim (.ofRat 0.1) 1 (.ofRat 0.7)
    [.call, .call, .acquire 0, .finish 0 true, .acquire 1,
      .tick ((Double.ofRat 0.7).add (.ofRat 0.1)), .wake 1]).1
  revert hgap
  decide +kernel

/-- Two calls come at once: the second sleeps, though the first has raised. -/
example : (((begin (.ofRat 10) 1 (.ofRat 0)).run [.call, .call, .acquire 0, .acquire 1,
    .finish 0 true, .acquire 1, .tick (.ofRat 5), .wake 1, .tick (.ofRat 10), .wake 1]).starts.map
      fun started => (started.1.id, started.2.val)) = [(0, 0), (1, 10)] := by
  decide +kernel

end ThrottleWorld
end Orchestrator
