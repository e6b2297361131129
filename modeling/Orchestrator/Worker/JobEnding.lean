import Mathlib.Order.Basic
import Orchestrator.Worker.RunOnce

/-!
The end of the call for a claimed job.

The call, the executor and the heartbeat each have a few steps left, and no step of
one of them gives another one back. Whatever has to happen next is a step of a task
or an answer that is due, so rounds in which all tasks go on and all questions are
answered bring every call to its end, in one of the ways that its places allow.
-/

namespace Orchestrator
namespace RunOnce

section Rank
variable (s : RunOnce)

/-- How many places the call still goes through. -/
def placesLeft : Nat :=
  match s.phase with
  | .racing => 5
  | .awaiting => 4
  | .cancelling _ => 3
  | .failing _ | .completing => 2
  | .stopping _ => 1
  | .ended _ => 0

def executionLeft : Nat :=
  match s.execution with
  | .running => 1
  | .done _ => 0

/-- The steps of the heartbeat that are left once it is told to stop. -/
def heartbeatLeft : Nat :=
  if s.stop then
    match s.heartbeat with
    | .sleeping => 3
    | .due => 2
    | .renewing => 1
    | .done _ => 0
  else 3

def rank : Nat := s.placesLeft + s.executionLeft + s.heartbeatLeft

/-- The steps without which nothing goes on. -/
def Needs : RunOnceStep → Prop
  | .executorEnds _ => s.executionLeft = 1
  | .timer => False
  | .heartbeatRuns => s.placesLeft = 1 ∧ 2 ≤ s.heartbeatLeft
  | .renewEnds _ => s.placesLeft = 1 ∧ s.heartbeatLeft = 1
  | .callRuns => s.executionLeft = 0 ∧ (3 ≤ s.placesLeft ∨ s.placesLeft = 1 ∧ s.heartbeatLeft = 0)
  | .finishEnds _ => s.placesLeft = 2

end Rank

/-- No component of the rank grows. -/
structure Advances (s s' : RunOnce) : Prop where
  places : s'.placesLeft ≤ s.placesLeft
  execution : s'.executionLeft ≤ s.executionLeft
  heartbeat : s'.heartbeatLeft ≤ s.heartbeatLeft

section Advance
variable {s s' : RunOnce}

theorem Advances.refl (s : RunOnce) : Advances s s := ⟨Nat.le_refl _, Nat.le_refl _, Nat.le_refl _⟩

theorem Advances.rank_le (h : Advances s s') : s'.rank ≤ s.rank :=
  Nat.add_le_add (Nat.add_le_add h.places h.execution) h.heartbeat

theorem heartbeatLeft_le_three (s : RunOnce) : s.heartbeatLeft ≤ 3 := by
  rw [heartbeatLeft]
  split
  · split <;> decide
  · exact Nat.le_refl 3

/-- The call goes to a later place. -/
theorem Advances.to_phase (phase : CallPhase) (calls : List LeaseCall)
    (hplaces : ({ s with phase, calls } : RunOnce).placesLeft < s.placesLeft) :
    Advances s { s with phase, calls } :=
  ⟨hplaces.le, Nat.le_refl _, Nat.le_refl _⟩

theorem stopWith_advances (hplaces : 1 ≤ s.placesLeft) (result : CallResult) :
    Advances s (s.stopWith result) := by
  refine ⟨hplaces, Nat.le_refl _, ?_⟩
  by_cases hstop : s.stop = true
  · rw [heartbeatLeft, heartbeatLeft, stopWith, if_pos rfl, if_pos hstop]
  · exact (heartbeatLeft_le_three _).trans (by rw [heartbeatLeft, if_neg hstop])

theorem executorEnds_advances (outcome : ExecutorOutcome) :
    Advances s (s.executorEnds outcome) := by
  rw [executorEnds]
  split
  · exact ⟨Nat.le_refl _, Nat.zero_le _, Nat.le_refl _⟩
  · exact Advances.refl s

theorem execution_done (h : s.executionLeft = 0) : ∃ outcome, s.execution = .done outcome := by
  rw [executionLeft] at h
  split at h
  · cases h
  · rename_i outcome hdone
    exact ⟨outcome, hdone⟩

theorem executionDone_of_left (h : s.executionLeft = 0) : s.executionDone = true := by
  obtain ⟨outcome, hdone⟩ := execution_done h
  rw [executionDone, hdone]
  rfl

theorem heartbeat_done (h : s.heartbeatLeft = 0) : ∃ exc, s.heartbeat = .done exc := by
  rw [heartbeatLeft] at h
  split at h
  · split at h
    any_goals cases h
    rename_i exc hdone
    exact ⟨exc, hdone⟩
  · cases h

theorem awaitExecution_places (s : RunOnce) : s.awaitExecution.placesLeft ≤ 4 := by
  rw [awaitExecution]
  split <;> simp [placesLeft, stopWith]

theorem awaitExecution_advances (hplaces : 4 ≤ s.placesLeft) :
    Advances s s.awaitExecution ∧
      (s.executionLeft = 0 → s.awaitExecution.placesLeft < s.placesLeft) := by
  rw [awaitExecution]
  split
  · rename_i hrunning
    refine ⟨⟨hplaces, Nat.le_refl _, Nat.le_refl _⟩, fun hdone => ?_⟩
    rw [executionLeft, hrunning] at hdone
    cases hdone
  · have hlater : 2 < s.placesLeft := by omega
    exact ⟨.to_phase .completing _ hlater, fun _ => hlater⟩
  · rename_i exc _
    have hlater : 3 < s.placesLeft := by omega
    exact ⟨.to_phase (.cancelling exc) s.calls hlater, fun _ => hlater⟩
  · have hlater : 1 < s.placesLeft := by omega
    exact ⟨stopWith_advances hlater.le _, fun _ => hlater⟩

theorem inspect_advances (hplaces : s.placesLeft = 5) :
    Advances s s.inspect ∧ s.inspect.placesLeft < s.placesLeft := by
  rw [inspect]
  split
  · rename_i exc _
    have hlater : 3 < s.placesLeft := by omega
    exact ⟨.to_phase (.cancelling exc) s.calls hlater, hlater⟩
  · have hlater := awaitExecution_places s
    exact ⟨(awaitExecution_advances (by omega)).1, by omega⟩

theorem handle_advances {exc : WorkerExc} (hplaces : s.placesLeft = 3) :
    Advances s (s.handle exc) ∧ (s.handle exc).placesLeft < s.placesLeft := by
  rw [handle]
  split
  · have hlater : 1 < s.placesLeft := by omega
    exact ⟨stopWith_advances hlater.le _, hlater⟩
  · have hlater : 2 < s.placesLeft := by omega
    exact ⟨.to_phase (.failing exc) _ hlater, hlater⟩

theorem callRuns_advances (s : RunOnce) :
    Advances s s.callRuns ∧ (s.Needs .callRuns → s.callRuns.placesLeft < s.placesLeft) := by
  rw [callRuns]
  split <;> rename_i hphase
  · have hplaces : s.placesLeft = 5 := by rw [placesLeft, hphase]
    split
    · obtain ⟨hadvances, hlater⟩ := inspect_advances hplaces
      exact ⟨hadvances, fun _ => hlater⟩
    · rename_i hnone
      refine ⟨Advances.refl s, fun hneeds => absurd ?_ hnone⟩
      obtain ⟨outcome, hdone⟩ := execution_done hneeds.1
      rw [someDone, hdone]
  · have hplaces : s.placesLeft = 4 := by rw [placesLeft, hphase]
    split
    · obtain ⟨hadvances, hlater⟩ := awaitExecution_advances (s := s) (by omega)
      exact ⟨hadvances, fun hneeds => hlater hneeds.1⟩
    · rename_i hnone
      exact ⟨Advances.refl s, fun hneeds => absurd (executionDone_of_left hneeds.1) hnone⟩
  · have hplaces : s.placesLeft = 3 := by rw [placesLeft, hphase]
    split
    · obtain ⟨hadvances, hlater⟩ := handle_advances hplaces
      exact ⟨hadvances, fun _ => hlater⟩
    · rename_i hnone
      exact ⟨Advances.refl s, fun hneeds => absurd (executionDone_of_left hneeds.1) hnone⟩
  · rename_i result
    have hplaces : s.placesLeft = 1 := by rw [placesLeft, hphase]
    split
    · have hlater : 0 < s.placesLeft := by omega
      exact ⟨.to_phase (.ended result) s.calls hlater, fun _ => hlater⟩
    · rename_i hnone
      refine ⟨Advances.refl s, fun hneeds => absurd ?_ hnone⟩
      obtain ⟨outcome, hexecution⟩ := execution_done hneeds.1
      obtain ⟨exc, hheartbeat⟩ := heartbeat_done (s := s) (by
        have hleft := hneeds.2
        omega)
      rw [allDone, hexecution, hheartbeat]
  all_goals
    refine ⟨Advances.refl s, fun hneeds => absurd hneeds.2 ?_⟩
    simp [placesLeft, hphase]

theorem finishEnds_advances (s : RunOnce) (exc : Option WorkerExc) :
    Advances s (s.finishEnds exc) ∧
      (s.Needs (.finishEnds exc) → (s.finishEnds exc).placesLeft < s.placesLeft) := by
  rw [finishEnds]
  split
  · rename_i hphase
    have hplaces : s.placesLeft = 2 := by rw [placesLeft, hphase]
    have hlater : 1 < s.placesLeft := by omega
    exact ⟨stopWith_advances hlater.le _, fun _ => hlater⟩
  · rename_i hphase
    have hplaces : s.placesLeft = 2 := by rw [placesLeft, hphase]
    have hlater : 1 < s.placesLeft := by omega
    exact ⟨stopWith_advances hlater.le _, fun _ => hlater⟩
  · rename_i hcompleting hfailing
    refine ⟨Advances.refl s, fun hneeds => ?_⟩
    rw [Needs, placesLeft] at hneeds
    split at hneeds
    any_goals cases hneeds
    · rename_i exc hphase
      exact absurd hphase (hfailing exc)
    · rename_i hphase
      exact absurd hphase hcompleting

theorem executorEnds_needed {outcome : ExecutorOutcome} (hneeds : s.Needs (.executorEnds outcome)) :
    (s.executorEnds outcome).executionLeft < s.executionLeft := by
  rw [Needs, executionLeft] at hneeds
  split at hneeds
  · rename_i hrunning
    rw [executorEnds, executionLeft, executionLeft, hrunning]
    exact Nat.zero_lt_one
  · cases hneeds

/-- A step of a heartbeat that was not told to stop leaves it all its steps. -/
theorem heartbeat_advances {heartbeat : HeartbeatTask} (calls : List LeaseCall)
    (hless : s.stop = true → ({ s with heartbeat, calls } : RunOnce).heartbeatLeft
      ≤ s.heartbeatLeft) : Advances s { s with heartbeat, calls } := by
  refine ⟨Nat.le_refl _, Nat.le_refl _, ?_⟩
  by_cases hstop : s.stop = true
  · exact hless hstop
  · exact (heartbeatLeft_le_three _).trans (by rw [heartbeatLeft, if_neg hstop])

theorem timer_advances (s : RunOnce) : Advances s s.timer := by
  rw [timer]
  split
  · rename_i hsleeping
    refine heartbeat_advances s.calls fun hstop => ?_
    simp [heartbeatLeft, hstop, hsleeping]
  · exact Advances.refl s

theorem heartbeatRuns_advances (s : RunOnce) (positiveInterval : Bool) :
    Advances s (s.heartbeatRuns positiveInterval) ∧
      (s.stop = true → 2 ≤ s.heartbeatLeft →
        (s.heartbeatRuns positiveInterval).heartbeatLeft < s.heartbeatLeft) := by
  rw [heartbeatRuns]
  split <;> rename_i hheartbeat
  · split
    · rename_i hstop
      refine ⟨heartbeat_advances s.calls fun _ => ?_, fun _ _ => ?_⟩ <;>
        simp [heartbeatLeft, hstop, hheartbeat]
    · rename_i hgoes
      exact ⟨Advances.refl s, fun hstop => absurd hstop hgoes⟩
  · have hrenew : Advances s s.renew ∧
        (s.stop = true → 2 ≤ s.heartbeatLeft → s.renew.heartbeatLeft < s.heartbeatLeft) := by
      refine ⟨heartbeat_advances _ fun hstop => ?_, fun hstop _ => ?_⟩ <;>
        simp [renew, heartbeatLeft, hstop, hheartbeat]
    split
    · exact hrenew
    · split
      · rename_i hstop
        refine ⟨heartbeat_advances s.calls fun _ => ?_, fun _ _ => ?_⟩ <;>
          simp [heartbeatLeft, hstop, hheartbeat]
      · exact hrenew
  all_goals
    refine ⟨Advances.refl s, fun hstop hleft => absurd hleft ?_⟩
    simp [heartbeatLeft, hstop, hheartbeat]

theorem renewEnds_advances (s : RunOnce) (exc : Option WorkerExc) :
    Advances s (s.renewEnds exc) ∧
      (s.stop = true → s.heartbeatLeft = 1 →
        (s.renewEnds exc).heartbeatLeft < s.heartbeatLeft) := by
  rw [renewEnds.eq_def]
  split
  · rename_i hrenewing
    refine ⟨heartbeat_advances s.calls fun hstop => ?_, fun hstop _ => ?_⟩ <;>
      simp [heartbeatLeft, hstop, hrenewing]
  · rename_i hrenewing
    refine ⟨heartbeat_advances s.calls fun hstop => ?_, fun hstop _ => ?_⟩ <;>
      simp [heartbeatLeft, hstop, hrenewing]
  · rename_i exc _ _ hsome hnone
    refine ⟨Advances.refl s, fun hstop hleft => ?_⟩
    rw [heartbeatLeft, if_pos hstop] at hleft
    split at hleft
    any_goals cases hleft
    rename_i hrenewing
    cases exc with
    | none => exact absurd rfl (hnone hrenewing)
    | some exc => exact absurd rfl (hsome exc hrenewing)

/-- The heartbeat was told to stop when the call waits for it. -/
def ToldToStop (s : RunOnce) : Prop := s.placesLeft ≤ 1 → s.stop = true

theorem apply_advances (positiveInterval : Bool) (s : RunOnce) (step : RunOnceStep) :
    Advances s (apply positiveInterval step s).2 := by
  cases step with
  | executorEnds outcome => exact executorEnds_advances outcome
  | timer => exact timer_advances s
  | heartbeatRuns => exact (heartbeatRuns_advances s positiveInterval).1
  | renewEnds exc => exact (renewEnds_advances s exc).1
  | callRuns => exact (callRuns_advances s).1
  | finishEnds exc => exact (finishEnds_advances s exc).1

/-- A needed step lowers the component that it is needed for. -/
theorem apply_needed (positiveInterval : Bool) (s : RunOnce) (step : RunOnceStep)
    (hstop : s.ToldToStop) (hneeds : s.Needs step) :
    (apply positiveInterval step s).2.rank < s.rank := by
  have hadvances := apply_advances positiveInterval s step
  have hplaces := hadvances.places
  have hexecution := hadvances.execution
  have hheartbeat := hadvances.heartbeat
  rw [rank, rank]
  cases step with
  | executorEnds outcome =>
      have hless := executorEnds_needed hneeds
      exact Nat.add_lt_add_of_lt_of_le (Nat.add_lt_add_of_le_of_lt hplaces hless) hheartbeat
  | timer => cases hneeds
  | heartbeatRuns =>
      have hless := (heartbeatRuns_advances s positiveInterval).2 (hstop hneeds.1.le) hneeds.2
      exact Nat.add_lt_add_of_le_of_lt (Nat.add_le_add hplaces hexecution) hless
  | renewEnds exc =>
      have hless := (renewEnds_advances s exc).2 (hstop hneeds.1.le) hneeds.2
      exact Nat.add_lt_add_of_le_of_lt (Nat.add_le_add hplaces hexecution) hless
  | callRuns =>
      have hless := (callRuns_advances s).2 hneeds
      exact Nat.add_lt_add_of_lt_of_le (Nat.add_lt_add_of_lt_of_le hless hexecution) hheartbeat
  | finishEnds exc =>
      have hless := (finishEnds_advances s exc).2 hneeds
      exact Nat.add_lt_add_of_lt_of_le (Nat.add_lt_add_of_lt_of_le hless hexecution) hheartbeat

/-- What is needed depends on the components alone. -/
theorem Advances.needs (h : Advances s s') (hrank : s'.rank = s.rank) {step : RunOnceStep}
    (hneeds : s.Needs step) : s'.Needs step := by
  have hplaces := h.places
  have hexecution := h.execution
  have hheartbeat := h.heartbeat
  rw [rank, rank] at hrank
  cases step <;> simp only [Needs] at hneeds ⊢ <;> omega

/-- A place before the last two asks for nothing. -/
theorem toldToStop_of_places (hplaces : 2 ≤ s.placesLeft) : s.ToldToStop :=
  fun hlast => absurd hlast (by omega)

theorem stopWith_toldToStop (s : RunOnce) (result : CallResult) :
    (s.stopWith result).ToldToStop := fun _ => rfl

theorem awaitExecution_toldToStop (s : RunOnce) : s.awaitExecution.ToldToStop := by
  rw [awaitExecution]
  split
  · exact toldToStop_of_places (by simp [placesLeft])
  · exact toldToStop_of_places (by simp [placesLeft])
  · exact toldToStop_of_places (by simp [placesLeft])
  · exact stopWith_toldToStop s _

theorem callRuns_toldToStop (hstop : s.ToldToStop) : s.callRuns.ToldToStop := by
  rw [callRuns]
  split <;> rename_i hphase
  · split
    · rw [inspect]
      split
      · exact toldToStop_of_places (by simp [placesLeft])
      · exact awaitExecution_toldToStop s
    · exact hstop
  · split
    · exact awaitExecution_toldToStop s
    · exact hstop
  · split
    · rw [handle]
      split
      · exact stopWith_toldToStop s _
      · exact toldToStop_of_places (by simp [placesLeft])
    · exact hstop
  · split
    · exact fun _ => hstop (by rw [placesLeft, hphase])
    · exact hstop
  all_goals exact hstop

theorem toldToStop_of_extends (h : Extends s s') (hsame : s'.stop = s.stop)
    (hstop : s.ToldToStop) : s'.ToldToStop := by
  rw [ToldToStop, placesLeft, h.phase, hsame]
  exact hstop

theorem apply_toldToStop (positiveInterval : Bool) (s : RunOnce) (step : RunOnceStep)
    (hstop : s.ToldToStop) : (apply positiveInterval step s).2.ToldToStop := by
  cases step with
  | executorEnds outcome =>
      refine toldToStop_of_extends (s.executorEnds_extends outcome) ?_ hstop
      simp only [apply, executorEnds]
      split <;> rfl
  | timer =>
      refine toldToStop_of_extends s.timer_extends ?_ hstop
      simp only [apply, timer]
      split <;> rfl
  | heartbeatRuns =>
      refine toldToStop_of_extends (s.heartbeatRuns_extends positiveInterval) ?_ hstop
      simp only [apply, heartbeatRuns]
      repeat' split
      all_goals rfl
  | renewEnds exc =>
      refine toldToStop_of_extends (s.renewEnds_extends exc) ?_ hstop
      simp only [apply, renewEnds.eq_def]
      split <;> rfl
  | callRuns => exact callRuns_toldToStop hstop
  | finishEnds exc =>
      simp only [apply, finishEnds]
      split
      · exact stopWith_toldToStop s _
      · exact stopWith_toldToStop s _
      · exact hstop

theorem ranked (positiveInterval : Bool) :
    Machine.Ranked (apply positiveInterval) (fun s => s.Consistent ∧ s.ToldToStop) rank Needs where
  closed s step hs := ⟨apply_consistent positiveInterval s step hs.1,
    apply_toldToStop positiveInterval s step hs.2⟩
  mono s step _ := (apply_advances positiveInterval s step).rank_le
  needed s step hs hneeds := apply_needed positiveInterval s step hs.2 hneeds
  stays s step _ _ hsame hneeds := (apply_advances positiveInterval s step).needs hsame hneeds

theorem executionLeft_le_one (s : RunOnce) : s.executionLeft ≤ 1 := by
  rw [executionLeft]
  split <;> decide

theorem rank_le (s : RunOnce) : s.rank ≤ 9 := by
  have hplaces : s.placesLeft ≤ 5 := by
    rw [placesLeft]
    split <;> decide
  have hexecution := executionLeft_le_one s
  have hheartbeat := heartbeatLeft_le_three s
  rw [rank]
  omega

end Advance

/-- The executor, the heartbeat and the call have gone on, and the repository has answered
what it was asked. -/
structure Answered (round : List RunOnceStep) : Prop where
  executor : ∃ outcome, .executorEnds outcome ∈ round
  heartbeat : .heartbeatRuns ∈ round
  renewal : ∃ exc, .renewEnds exc ∈ round
  call : .callRuns ∈ round
  finish : ∃ exc, .finishEnds exc ∈ round

theorem ended_of_placesLeft {s : RunOnce} (h : s.placesLeft = 0) :
    ∃ result, s.phase = .ended result := by
  rw [placesLeft] at h
  split at h
  any_goals cases h
  rename_i result hphase
  exact ⟨result, hphase⟩

/-- Nothing is left of a call that has ended. -/
theorem rank_of_ended {s : RunOnce} (hs : s.Consistent) (hstop : s.ToldToStop)
    (h : s.placesLeft = 0) : s.rank = 0 := by
  obtain ⟨result, hphase⟩ := ended_of_placesLeft h
  have htold : s.stop = true := hstop (by omega)
  rw [Consistent, hphase] at hs
  have hdone := hs.2
  rw [allDone] at hdone
  split at hdone
  · rename_i hexecution hheartbeat
    simp [rank, h, executionLeft, heartbeatLeft, htold, hexecution, hheartbeat]
  · cases hdone

/-- What a call needs to go on is in every such round. -/
theorem Answered.exists_needed {round : List RunOnceStep} (h : Answered round) {s : RunOnce}
    (hs : s.Consistent) (hstop : s.ToldToStop) (hrank : 0 < s.rank) :
    ∃ step ∈ round, s.Needs step := by
  obtain ⟨outcome, hexecutor⟩ := h.executor
  obtain ⟨renewal, hrenewal⟩ := h.renewal
  obtain ⟨answer, hfinish⟩ := h.finish
  have hplaces : s.placesLeft ≠ 0 := fun h => absurd hrank (by rw [rank_of_ended hs hstop h]; simp)
  have hone := executionLeft_le_one s
  by_cases hexecution : s.executionLeft = 0
  · -- the call waits for itself, for the repository or for the heartbeat
    obtain hearly | hlast | hfinishing :
        3 ≤ s.placesLeft ∨ s.placesLeft = 1 ∨ s.placesLeft = 2 := by
      omega
    · exact ⟨_, h.call, hexecution, Or.inl hearly⟩
    · obtain hrest | hrenewing | hgoes : s.heartbeatLeft = 0 ∨ s.heartbeatLeft = 1 ∨
          2 ≤ s.heartbeatLeft := by
        omega
      · exact ⟨_, h.call, hexecution, Or.inr ⟨hlast, hrest⟩⟩
      · exact ⟨_, hrenewal, hlast, hrenewing⟩
      · exact ⟨_, h.heartbeat, hlast, hgoes⟩
    · exact ⟨_, hfinish, hfinishing⟩
  · refine ⟨_, hexecutor, ?_⟩
    rw [Needs]
    omega

/-- Nine rounds bring a call to its end, wherever it is. -/
theorem ended_of_rounds (positiveInterval : Bool) {s : RunOnce} (hs : s.Consistent)
    (hstop : s.ToldToStop) {rounds : List (List RunOnceStep)} (hlength : 9 ≤ rounds.length)
    (hrounds : ∀ round ∈ rounds, Answered round) :
    ∃ result, (Machine.run (apply positiveInterval) s rounds.flatten).phase = .ended result := by
  have hzero := (ranked positiveInterval).rank_run_flatten ⟨hs, hstop⟩
    (fun round hround s hs hrank => (hrounds round hround).exists_needed hs.1 hs.2 hrank)
    ((rank_le s).trans hlength)
  rw [rank] at hzero
  exact ended_of_placesLeft (by omega)

/-- At most one of `complete` and `fail` is called, and once. A call that ends has completed the
job after the executor returned, or failed it with the error of the executor or of the heartbeat,
or raised a lost lease or the cancellation of the executor with neither called; no task of it calls
the repository again. And a call ends, once the executor and the heartbeat have gone on and the
repository has answered often enough. -/
theorem job_finished_once (positiveInterval : Bool) (steps : List RunOnceStep) :
    (after positiveInterval steps).finishes.length ≤ 1 ∧
    (∀ result, (after positiveInterval steps).phase = .ended result →
      (after positiveInterval steps).Ending result ∧
      ∀ later, after positiveInterval (steps ++ later) = after positiveInterval steps) ∧
    ∀ rounds : List (List RunOnceStep), 9 ≤ rounds.length → (∀ round ∈ rounds, Answered round) →
      ∃ result, (after positiveInterval (steps ++ rounds.flatten)).phase = .ended result := by
  have hs := after_consistent positiveInterval steps
  refine ⟨hs.finishes_length, ?_, ?_⟩
  · intro result hphase
    rw [Consistent, hphase] at hs
    refine ⟨hs.1, ?_⟩
    intro later
    rw [after, Machine.run_append]
    exact Machine.run_invariant (apply positiveInterval)
      (fun s step (h : s = after positiveInterval steps) => by
        rw [h, apply_ended positiveInterval step hphase hs.2]) rfl later
  · intro rounds hlength hrounds
    have hstop : (after positiveInterval steps).ToldToStop :=
      Machine.run_invariant (apply positiveInterval) (apply_toldToStop positiveInterval)
        (show ToldToStop {} from toldToStop_of_places (by simp [placesLeft])) steps
    rw [after, Machine.run_append]
    exact ended_of_rounds positiveInterval hs hstop hlength hrounds

/-- Completed after the executor's return, failed with its error, or a lost lease with neither. -/
def EndsAsExecutor (s : RunOnce) (result : CallResult) : Prop :=
  (s.execution = .done .returned ∧ s.finishes = [.complete]) ∨
  (∃ exc, s.execution = .done (.raised exc) ∧ s.finishes = [exc.failCall]) ∨
  (∃ exc, exc.isLeaseLost = true ∧ s.finishes = [] ∧ result = .raised exc)

/-- No renewal comes behind a call that finishes the job. -/
def QuietWhenFinished (s : RunOnce) : Prop :=
  ∀ before later, s.calls = before ++ later → before.any (· ≠ .renew) → .renew ∉ later

/-- The executor is cancelled. -/
def cancelledCall : List RunOnceStep :=
  [.executorEnds .cancelled, .callRuns, .heartbeatRuns, .callRuns]

def connectionLost : WorkerExc := ⟨.other, "OperationalError", "connection lost"⟩

/-- A renewal raises while the executor is at work. -/
def failedRenewal : List RunOnceStep :=
  [.timer, .heartbeatRuns, .renewEnds (some connectionLost), .callRuns, .executorEnds .cancelled,
    .callRuns, .finishEnds none, .callRuns]

/-- The interval of the heartbeat passes while the job is being completed. -/
def renewedWhileCompleting : List RunOnceStep :=
  [.executorEnds .returned, .callRuns, .timer, .heartbeatRuns, .finishEnds none, .renewEnds none,
    .callRuns]

theorem job_ends_otherwise :
    (after true cancelledCall).phase = .ended .cancelled ∧
    ¬ EndsAsExecutor (after true cancelledCall) .cancelled ∧
    (after true failedRenewal).phase = .ended .worked ∧
    ¬ EndsAsExecutor (after true failedRenewal) .worked ∧
    (after true renewedWhileCompleting).phase = .ended .worked ∧
    ¬ QuietWhenFinished (after true renewedWhileCompleting) := by
  refine ⟨by decide, ?_, by decide, ?_, by decide, ?_⟩
  · rintro (⟨h, -⟩ | ⟨exc, h, -⟩ | ⟨exc, -, -, h⟩) <;> cases h
  · rintro (⟨h, -⟩ | ⟨exc, h, -⟩ | ⟨exc, -, -, h⟩) <;> cases h
  · intro h
    exact h [.complete] [.renew] (by decide) (by decide) (List.mem_singleton_self _)

end RunOnce

end Orchestrator
