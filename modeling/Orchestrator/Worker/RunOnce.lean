import Orchestrator.Db.Jobs
import Orchestrator.Lib.Machine

/-!
One call of the worker for the job that it claimed.

The executor and the heartbeat are tasks of their own and the call waits for the
first of them to end; then it completes the job or fails it, and stops the
heartbeat before it returns. Every await is a place where the others go on, so a
run is any order of the steps of the three. The calls to the job repository are
kept in order; what they answer is free.
-/

namespace Orchestrator

/-- What the worker tells apart of an exception. -/
inductive WorkerExcKind where
  | leaseLost
  | runtimeContract
  /-- The read and write errors of a request that may have been sent. -/
  | ambiguousPostSend
  | replicate (status : Option Int)
  | httpStatus (status : Int)
  | other
  deriving DecidableEq

structure WorkerExc where
  kind : WorkerExcKind
  typeName : String
  text : String
  deriving DecidableEq

namespace WorkerExc
variable (exc : WorkerExc)

/-- `_job_failure_is_retryable` for a status. -/
def retryableStatus (status : Int) : Bool :=
  if status = 429 ∨ 500 ≤ status then true else !(400 ≤ status && status < 500)

/-- `_job_failure_is_retryable`. -/
def retryable : Bool :=
  match exc.kind with
  | .runtimeContract | .ambiguousPostSend => false
  | .replicate (some status) | .httpStatus status => retryableStatus status
  | .replicate none | .leaseLost | .other => true

/-- `fail` with the fields of `_job_error_fields`. -/
def failCall : LeaseCall :=
  .fail (if PyStr.strip exc.text = "" then exc.typeName else PyStr.strip exc.text)
    (some exc.typeName) exc.retryable

def isLeaseLost : Bool := exc.kind = .leaseLost

end WorkerExc

inductive ExecutorOutcome where
  | returned
  | raised (exc : WorkerExc)
  | cancelled
  deriving DecidableEq

inductive ExecutionTask where
  | running
  | done (outcome : ExecutorOutcome)
  deriving DecidableEq

inductive HeartbeatTask where
  | sleeping
  /-- Its interval has passed. -/
  | due
  | renewing
  /-- It has ended, with an error or stopped. -/
  | done (exc : Option WorkerExc)
  deriving DecidableEq

inductive CallResult where
  | worked
  | raised (exc : WorkerExc)
  | cancelled
  deriving DecidableEq

/-- Where the call itself is. -/
inductive CallPhase where
  /-- `asyncio.wait` for the first of the two tasks. -/
  | racing
  /-- `await execution` after the heartbeat has ended without an error. -/
  | awaiting
  /-- The execution was cancelled and has to end first. -/
  | cancelling (exc : WorkerExc)
  | failing (exc : WorkerExc)
  | completing
  /-- The heartbeat is told to stop and both tasks have to end. -/
  | stopping (result : CallResult)
  | ended (result : CallResult)
  deriving DecidableEq

/-- A call that has claimed a job; `calls` are those made for the job. -/
structure RunOnce where
  execution : ExecutionTask := .running
  heartbeat : HeartbeatTask := .sleeping
  stop : Bool := false
  phase : CallPhase := .racing
  calls : List LeaseCall := []
  deriving DecidableEq

inductive RunOnceStep where
  | executorEnds (outcome : ExecutorOutcome)
  /-- The interval of the heartbeat passes. -/
  | timer
  | heartbeatRuns
  /-- `renew` returns or raises. -/
  | renewEnds (exc : Option WorkerExc)
  | callRuns
  /-- `complete` or `fail` returns or raises. -/
  | finishEnds (exc : Option WorkerExc)
  deriving DecidableEq

namespace RunOnce

section Tasks
variable (s : RunOnce)

def executorEnds (outcome : ExecutorOutcome) : RunOnce :=
  match s.execution with
  | .running => { s with execution := .done outcome }
  | .done _ => s

/-- The timer may fire when the heartbeat has been told to stop and has not gone on yet. -/
def timer : RunOnce :=
  match s.heartbeat with
  | .sleeping => { s with heartbeat := .due }
  | _ => s

def renew : RunOnce := { s with heartbeat := .renewing, calls := s.calls ++ [.renew] }

/-- The heartbeat goes on. After an interval of zero it looks again whether it has to stop. -/
def heartbeatRuns (positiveInterval : Bool) : RunOnce :=
  match s.heartbeat with
  | .sleeping => if s.stop then { s with heartbeat := .done none } else s
  | .due =>
      if positiveInterval then s.renew
      else if s.stop then { s with heartbeat := .done none } else s.renew
  | .renewing | .done _ => s

def renewEnds (exc : Option WorkerExc) : RunOnce :=
  match s.heartbeat, exc with
  | .renewing, some exc => { s with heartbeat := .done (some exc) }
  | .renewing, none => { s with heartbeat := if s.stop then .done none else .sleeping }
  | _, _ => s

end Tasks

section Call
variable (s : RunOnce)

/-- The `finally` block. -/
def stopWith (result : CallResult) : RunOnce := { s with stop := true, phase := .stopping result }

/-- `await execution`. -/
def awaitExecution : RunOnce :=
  match s.execution with
  | .running => { s with phase := .awaiting }
  | .done .returned => { s with phase := .completing, calls := s.calls ++ [.complete] }
  | .done (.raised exc) => { s with phase := .cancelling exc }
  | .done .cancelled => s.stopWith .cancelled

/-- What follows the wait for the first task. -/
def inspect : RunOnce :=
  match s.heartbeat with
  | .done (some exc) => { s with phase := .cancelling exc }
  | _ => s.awaitExecution

/-- What follows the end of the cancelled execution. -/
def handle (exc : WorkerExc) : RunOnce :=
  if exc.isLeaseLost then s.stopWith (.raised exc)
  else { s with phase := .failing exc, calls := s.calls ++ [exc.failCall] }

def someDone : Bool :=
  match s.execution, s.heartbeat with
  | .done _, _ | _, .done _ => true
  | _, _ => false

def allDone : Bool :=
  match s.execution, s.heartbeat with
  | .done _, .done _ => true
  | _, _ => false

def executionDone : Bool := s.execution ≠ .running

def callRuns : RunOnce :=
  match s.phase with
  | .racing => if s.someDone then s.inspect else s
  | .awaiting => if s.executionDone then s.awaitExecution else s
  | .cancelling exc => if s.executionDone then s.handle exc else s
  | .stopping result => if s.allDone then { s with phase := .ended result } else s
  | .failing _ | .completing | .ended _ => s

/-- The result of a call whose last word to the repository raised or not. -/
def finishResult : Option WorkerExc → CallResult
  | none => .worked
  | some exc => .raised exc

def finishEnds (exc : Option WorkerExc) : RunOnce :=
  match s.phase with
  | .completing | .failing _ => s.stopWith (finishResult exc)
  | _ => s

end Call

def apply (positiveInterval : Bool) (step : RunOnceStep) (s : RunOnce) : Unit × RunOnce :=
  ((), match step with
    | .executorEnds outcome => s.executorEnds outcome
    | .timer => s.timer
    | .heartbeatRuns => s.heartbeatRuns positiveInterval
    | .renewEnds exc => s.renewEnds exc
    | .callRuns => s.callRuns
    | .finishEnds exc => s.finishEnds exc)

/-- The call after some steps. -/
def after (positiveInterval : Bool) (steps : List RunOnceStep) : RunOnce :=
  Machine.run (apply positiveInterval) {} steps

/-- The calls that finish the job. -/
def finishes (s : RunOnce) : List LeaseCall := s.calls.filter (· ≠ .renew)

/-- The exception came from one of the two tasks. -/
def Cause (s : RunOnce) (exc : WorkerExc) : Prop :=
  s.execution = .done (.raised exc) ∨ s.heartbeat = .done (some exc)

/-- The ways in which a call ends for its job. -/
inductive Ending (s : RunOnce) (result : CallResult) : Prop where
  | completed (hreturned : s.execution = .done .returned) (hcalls : s.finishes = [.complete])
  | failed (exc : WorkerExc) (hheld : exc.isLeaseLost = false) (hcause : s.Cause exc)
      (hcalls : s.finishes = [exc.failCall])
  | leaseLost (exc : WorkerExc) (hlost : exc.isLeaseLost = true) (hcause : s.Cause exc)
      (hcalls : s.finishes = []) (hresult : result = .raised exc)
  | cancelled (hcancelled : s.execution = .done .cancelled) (hcalls : s.finishes = [])
      (hresult : result = .cancelled)

/-- What holds at each place of the call. -/
def Consistent (s : RunOnce) : Prop :=
  match s.phase with
  | .racing | .awaiting => s.finishes = []
  | .cancelling exc => s.finishes = [] ∧ s.Cause exc
  | .failing exc => s.finishes = [exc.failCall] ∧ exc.isLeaseLost = false ∧ s.Cause exc
  | .completing => s.finishes = [.complete] ∧ s.execution = .done .returned
  | .stopping result => s.Ending result
  | .ended result => s.Ending result ∧ s.allDone = true

/-- The job has the same finishing calls, and what has ended stays so. -/
structure Keeps (s s' : RunOnce) : Prop where
  finishes : s'.finishes = s.finishes
  execution : ∀ outcome, s.execution = .done outcome → s'.execution = .done outcome
  heartbeat : ∀ exc, s.heartbeat = .done exc → s'.heartbeat = .done exc

namespace Keeps
variable {s s' : RunOnce}

theorem phase (s : RunOnce) (phase : CallPhase) : Keeps s { s with phase } :=
  ⟨rfl, fun _ h => h, fun _ h => h⟩

theorem cause (h : Keeps s s') {exc : WorkerExc} (hcause : s.Cause exc) : s'.Cause exc :=
  hcause.imp (h.execution _) (h.heartbeat _)

theorem ending (h : Keeps s s') {result : CallResult} (hending : s.Ending result) :
    s'.Ending result := by
  cases hending with
  | completed hreturned hcalls =>
      exact .completed (h.execution _ hreturned) (h.finishes.trans hcalls)
  | failed exc hheld hcause hcalls =>
      exact .failed exc hheld (h.cause hcause) (h.finishes.trans hcalls)
  | leaseLost exc hlost hcause hcalls hresult =>
      exact .leaseLost exc hlost (h.cause hcause) (h.finishes.trans hcalls) hresult
  | cancelled hcancelled hcalls hresult =>
      exact .cancelled (h.execution _ hcancelled) (h.finishes.trans hcalls) hresult

theorem allDone (h : Keeps s s') (hdone : s.allDone = true) : s'.allDone = true := by
  rw [RunOnce.allDone] at hdone
  split at hdone
  · rename_i hexecution hheartbeat
    rw [RunOnce.allDone, h.execution _ hexecution, h.heartbeat _ hheartbeat]
  · cases hdone

end Keeps

/-- A step of one of the tasks: the call stays where it is. -/
structure Extends (s s' : RunOnce) : Prop extends Keeps s s' where
  phase : s'.phase = s.phase

namespace Extends
variable {s s' : RunOnce}

theorem refl (s : RunOnce) : Extends s s := ⟨⟨rfl, fun _ h => h, fun _ h => h⟩, rfl⟩

theorem consistent (h : Extends s s') (hs : s.Consistent) : s'.Consistent := by
  rw [Consistent, h.phase]
  rw [Consistent] at hs
  cases hphase : s.phase with
  | racing | awaiting =>
      rw [hphase] at hs
      exact h.finishes.trans hs
  | cancelling exc =>
      rw [hphase] at hs
      exact ⟨h.finishes.trans hs.1, h.cause hs.2⟩
  | failing exc =>
      rw [hphase] at hs
      exact ⟨h.finishes.trans hs.1, hs.2.1, h.cause hs.2.2⟩
  | completing =>
      rw [hphase] at hs
      exact ⟨h.finishes.trans hs.1, h.execution _ hs.2⟩
  | stopping result =>
      rw [hphase] at hs
      exact h.ending hs
  | ended result =>
      rw [hphase] at hs
      exact ⟨h.ending hs.1, h.allDone hs.2⟩

end Extends

section Steps
variable (s : RunOnce)

theorem executorEnds_extends (outcome : ExecutorOutcome) : Extends s (s.executorEnds outcome) := by
  rw [executorEnds]
  split
  · rename_i hrunning
    refine ⟨⟨rfl, fun o h => ?_, fun _ h => h⟩, rfl⟩
    rw [hrunning] at h
    cases h
  · exact Extends.refl s

/-- A change of a heartbeat that has not ended, which makes no call but a renewal. -/
theorem heartbeat_extends {s' : RunOnce} (hlive : ∀ exc, s.heartbeat ≠ .done exc)
    (hphase : s'.phase = s.phase) (hexecution : s'.execution = s.execution)
    (hcalls : s'.finishes = s.finishes) : Extends s s' :=
  ⟨⟨hcalls, fun _ h => hexecution.trans h, fun exc h => absurd h (hlive exc)⟩, hphase⟩

theorem timer_extends : Extends s s.timer := by
  rw [timer]
  split
  · rename_i hsleeping
    exact heartbeat_extends s (by simp [hsleeping]) rfl rfl rfl
  · exact Extends.refl s

theorem finishes_renew : s.renew.finishes = s.finishes := by
  rw [finishes, renew, List.filter_append, finishes]
  exact List.append_nil _

theorem heartbeatRuns_extends (positiveInterval : Bool) :
    Extends s (s.heartbeatRuns positiveInterval) := by
  rw [heartbeatRuns]
  split
  · rename_i hsleeping
    split
    · exact heartbeat_extends s (by simp [hsleeping]) rfl rfl rfl
    · exact Extends.refl s
  · rename_i hdue
    have hrenew : Extends s s.renew :=
      heartbeat_extends s (by simp [hdue]) rfl rfl s.finishes_renew
    split
    · exact hrenew
    · split
      · exact heartbeat_extends s (by simp [hdue]) rfl rfl rfl
      · exact hrenew
  · exact Extends.refl s
  · exact Extends.refl s

theorem renewEnds_extends (exc : Option WorkerExc) : Extends s (s.renewEnds exc) := by
  rw [renewEnds.eq_def]
  split
  · rename_i hrenewing
    exact heartbeat_extends s (by simp [hrenewing]) rfl rfl rfl
  · rename_i hrenewing
    exact heartbeat_extends s (by simp [hrenewing]) rfl rfl rfl
  · exact Extends.refl s

end Steps

section CallSteps
variable {s : RunOnce}

theorem finishes_concat (s : RunOnce) {call : LeaseCall} (hcall : call ≠ .renew) :
    ({ s with calls := s.calls ++ [call] } : RunOnce).finishes = s.finishes ++ [call] := by
  rw [finishes, List.filter_append, finishes, List.filter_cons_of_pos (by simpa using hcall),
    List.filter_nil]

theorem failCall_ne_renew (exc : WorkerExc) : exc.failCall ≠ .renew := by
  rw [WorkerExc.failCall]
  exact fun h => by cases h

theorem awaitExecution_consistent (hnone : s.finishes = []) : s.awaitExecution.Consistent := by
  rw [awaitExecution]
  split
  · exact hnone
  · rename_i hreturned
    refine ⟨?_, hreturned⟩
    have hcalls := finishes_concat s (show LeaseCall.complete ≠ .renew from fun h => by cases h)
    rw [hnone] at hcalls
    exact hcalls
  · rename_i exc hraised
    exact ⟨hnone, .inl hraised⟩
  · rename_i hcancelled
    exact .cancelled hcancelled hnone rfl

theorem inspect_consistent (hnone : s.finishes = []) : s.inspect.Consistent := by
  rw [inspect]
  split
  · rename_i exc hraised
    exact ⟨hnone, .inr hraised⟩
  · exact awaitExecution_consistent hnone

theorem handle_consistent {exc : WorkerExc} (hnone : s.finishes = []) (hcause : s.Cause exc) :
    (s.handle exc).Consistent := by
  rw [handle]
  split
  · rename_i hlost
    exact .leaseLost exc hlost hcause hnone rfl
  · rename_i hheld
    refine ⟨?_, Bool.not_eq_true _ ▸ hheld, hcause⟩
    have hcalls := finishes_concat s (failCall_ne_renew exc)
    rw [hnone] at hcalls
    exact hcalls

theorem callRuns_consistent (hs : s.Consistent) : s.callRuns.Consistent := by
  rw [callRuns]
  rw [Consistent] at hs
  split <;> rename_i hphase <;> rw [hphase] at hs
  · split
    · exact inspect_consistent hs
    · rwa [Consistent, hphase]
  · split
    · exact awaitExecution_consistent hs
    · rwa [Consistent, hphase]
  · split
    · exact handle_consistent hs.1 hs.2
    · rwa [Consistent, hphase]
  · split
    · rename_i hdone
      exact ⟨(Keeps.phase s _).ending hs, hdone⟩
    · rwa [Consistent, hphase]
  · rwa [Consistent, hphase]
  · rwa [Consistent, hphase]
  · rwa [Consistent, hphase]

theorem finishEnds_consistent (hs : s.Consistent) (exc : Option WorkerExc) :
    (s.finishEnds exc).Consistent := by
  rw [finishEnds]
  rw [Consistent] at hs
  split
  · rename_i hphase
    rw [hphase] at hs
    exact .completed hs.2 hs.1
  · rename_i hphase
    rw [hphase] at hs
    exact .failed _ hs.2.1 hs.2.2 hs.1
  · rwa [Consistent]

theorem apply_consistent (positiveInterval : Bool) (s : RunOnce) (step : RunOnceStep)
    (hs : s.Consistent) : (apply positiveInterval step s).2.Consistent := by
  cases step with
  | executorEnds outcome => exact (s.executorEnds_extends outcome).consistent hs
  | timer => exact s.timer_extends.consistent hs
  | heartbeatRuns => exact (s.heartbeatRuns_extends positiveInterval).consistent hs
  | renewEnds exc => exact (s.renewEnds_extends exc).consistent hs
  | callRuns => exact callRuns_consistent hs
  | finishEnds exc => exact finishEnds_consistent hs exc

theorem after_consistent (positiveInterval : Bool) (steps : List RunOnceStep) :
    (after positiveInterval steps).Consistent :=
  Machine.run_invariant (apply positiveInterval) (apply_consistent positiveInterval)
    (show Consistent {} from rfl) steps

theorem Ending.finishes_length {result : CallResult} (h : s.Ending result) :
    s.finishes.length ≤ 1 := by
  cases h with
  | completed _ hcalls | failed _ _ _ hcalls => rw [hcalls]; rfl
  | leaseLost _ _ _ hcalls _ | cancelled _ hcalls _ => rw [hcalls]; exact Nat.zero_le 1

theorem Consistent.finishes_length (hs : s.Consistent) : s.finishes.length ≤ 1 := by
  rw [Consistent] at hs
  split at hs
  · rw [hs]; exact Nat.zero_le 1
  · rw [hs]; exact Nat.zero_le 1
  · rw [hs.1]; exact Nat.zero_le 1
  · rw [hs.1]; rfl
  · rw [hs.1]; rfl
  · exact hs.finishes_length
  · exact hs.1.finishes_length

/-- A call that has ended takes no further step, nor does any of its tasks. -/
theorem apply_ended (positiveInterval : Bool) (step : RunOnceStep) {result : CallResult}
    (hphase : s.phase = .ended result) (hdone : s.allDone = true) :
    (apply positiveInterval step s).2 = s := by
  rw [allDone] at hdone
  split at hdone
  · rename_i hexecution hheartbeat
    cases step <;> simp only [apply, executorEnds, timer, heartbeatRuns, renewEnds, callRuns,
      finishEnds, hexecution, hheartbeat, hphase]
  · cases hdone

end CallSteps

end RunOnce

end Orchestrator
