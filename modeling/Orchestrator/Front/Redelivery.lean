import Mathlib.Data.List.Infix
import Orchestrator.Front.LiveProgress

/-!
The page under repeated deliveries and a late hydrate.

The stream delivers the events of a run in order; when the browser reconnects it
delivers a block of them again, and the detail that the page asked for arrives at
some point. What the page shows is compared with a page that took over the detail
first and then received every event once.
-/

namespace Orchestrator

namespace StreamEvent

/-- The event as the snapshot reads it. -/
def toPublic : StreamEvent → PublicEvent
  | .runStart batch => { type := .runStart, batch := batch }
  | .nodeStart node => { type := .nodeStart, node := node }
  | .nodeEnd node => { type := .nodeEnd, node := node }
  | .progressEvent _ e => e
  | _ => { type := .other }

/-- The event leaves the phase, the gate, the review and the progress alone. -/
def Neutral : StreamEvent → Prop
  | .nodeEnd _ | .creatorUpdate _ | .other => True
  | _ => False

end StreamEvent

/-- The counters of a stage that the page shows. -/
structure ProgressStage.SameCounters (a b : ProgressStage) : Prop extends a.Agrees b where
  failedUnits : a.failedUnits = b.failedUnits

/-- Both pages show progress with the same counters, or neither shows any. -/
def SameCounters : Option RunProgress → Option RunProgress → Prop
  | some a, some b => ∀ s, (a.stages s).SameCounters (b.stages s)
  | none, none => True
  | _, _ => False

namespace RunStreamState

/-- Both pages show the same phase, gate, review and counters. -/
structure ShowsSame (a b : RunStreamState) : Prop where
  phase : a.phase = b.phase
  gate : a.gate = b.gate
  review : a.review = b.review
  progress : SameCounters a.progress b.progress

variable (st : RunStreamState)

/-- The ids of the timeline. -/
def remembered : List String := st.activity.map (·.eventId)

def AtGate : Prop :=
  st.phase = some .editing ∨ st.phase = some .awaiting ∨ st.phase = some .review

/-- The page still shows the gate that the event opens. -/
structure StaysAt (phase : RunPhase) (stageId : String) (e : GateEvent) : Prop where
  phase : st.phase = some phase
  gate : st.gate = e.gate
  waiting : ∀ progress, st.progress = some progress → ∀ s : StageId, s.text = stageId →
    (progress.stages s).status = .waiting ∧ (progress.stages s).activeUnits = 0
  remembered : (gateActivity e stageId).eventId ∈ st.remembered

/-- The page is already where the event would put it. -/
def Absorbs : StreamEvent → Prop
  | .runStart _ => st.phase = some .running
  | .nodeStart _ | .itemUpdate => ¬ st.AtGate
  | .progressEvent eventId e => (progressActivity eventId e).eventId ∈ st.remembered
  | .awaitingConceptEdit e _ => st.StaysAt .editing "scripts" e
  | .awaitingApproval e _ => st.StaysAt .awaiting "creators" e
  | .awaitingReview e payload => st.StaysAt .review "review" e ∧ st.review = some payload
  | .runEnd => st.phase = some .done
  | .error => st.phase = some .error
  | .nodeEnd _ | .creatorUpdate _ | .other => True

end RunStreamState

namespace RunDetail
variable (detail : RunDetail)

/-- The ids that a page remembers when it takes over the detail. -/
def remembered : List String := mergeIds (detail.activity.map (·.eventId)) []

/-- The detail shows the gate's stage waiting and has the gate in its timeline. -/
structure CoversGate (stageId : String) (e : GateEvent) : Prop where
  waiting : ∀ progress, detail.progress = some progress → ∀ s : StageId, s.text = stageId →
    (progress.stages s).status = .waiting ∧ (progress.stages s).activeUnits = 0
  remembered : (gateActivity e stageId).eventId ∈ detail.remembered

/-- What the event changes of the progress and the timeline is in the detail. -/
def CoversEvent : StreamEvent → Prop
  | .progressEvent eventId e => (progressActivity eventId e).eventId ∈ detail.remembered
  | .awaitingConceptEdit e _ => detail.CoversGate "scripts" e
  | .awaitingApproval e _ => detail.CoversGate "creators" e
  | .awaitingReview e _ => detail.CoversGate "review" e
  | _ => True

/-- The detail is not behind the page that it arrives at: what the page has received
is in it, and it brings no phase, gate or review that the page has left. -/
structure UpToDate (delivered : List StreamEvent) (st : RunStreamState) : Prop where
  events : ∀ e ∈ delivered, detail.CoversEvent e
  idle : st.phase = none → ∀ e ∈ delivered, e.Neutral
  phase : st.phase = some .running → detail.phase = none ∨ detail.phase = some .running
  gate : st.phase ≠ none → detail.gate = none ∨ detail.gate = st.gate
  review : st.phase ≠ none → detail.review = none ∨ detail.review = st.review

end RunDetail

/-- What arrives besides the next event. -/
inductive Arrival where
  | replay (events : List StreamEvent)
  | hydrate (detail : RunDetail)

/-- A replay that the page absorbs, or a detail that is not behind it. -/
def Steady (delivered : List StreamEvent) (st : RunStreamState) : Arrival → Prop
  | .replay events => ∀ e ∈ events, st.Absorbs e
  | .hydrate detail => detail.UpToDate delivered st

section
variable (dateParse : String → Option Int)

/-- The page after the deliveries of a run: which events it has received, in order,
and whether the detail has arrived. Replays and the detail arrive when they may. -/
inductive Delivers (may : List StreamEvent → RunStreamState → Arrival → Prop)
    (detail : RunDetail) : Bool → List StreamEvent → RunStreamState → Prop
  | start : Delivers may detail false [] {}
  | next {hydrated : Bool} {delivered : List StreamEvent} {st : RunStreamState} (e : StreamEvent)
      (h : Delivers may detail hydrated delivered st) :
      Delivers may detail hydrated (delivered ++ [e]) (reduceRunStreamEvent st e)
  | replay {hydrated : Bool} {delivered : List StreamEvent} {st : RunStreamState}
      (events : List StreamEvent) (h : Delivers may detail hydrated delivered st)
      (hblock : events <:+: delivered) (hmay : may delivered st (.replay events)) :
      Delivers may detail hydrated delivered (events.foldl reduceRunStreamEvent st)
  | hydrate {delivered : List StreamEvent} {st : RunStreamState}
      (h : Delivers may detail false delivered st) (hmay : may delivered st (.hydrate detail)) :
      Delivers may detail true delivered (st.hydrate dateParse detail)

/-- The page that hydrates first and then receives every event once. -/
def hydratedFirst (detail : RunDetail) (events : List StreamEvent) : RunStreamState :=
  events.foldl reduceRunStreamEvent (RunStreamState.hydrate {} dateParse detail)

end

section
variable {keys ids live : List String}

theorem foldl_addKey_of_subset (h : ∀ k ∈ live, k ∈ keys) : live.foldl addKey keys = keys := by
  induction live with
  | nil => rfl
  | cons k live ih =>
      rw [List.foldl_cons, addKey, if_pos (h k (.head _))]
      exact ih fun k' hk' => h k' (.tail _ hk')

theorem foldl_addKey_of_nodup (h : (keys ++ live).Nodup) :
    live.foldl addKey keys = keys ++ live := by
  induction live generalizing keys with
  | nil => simp
  | cons k live ih =>
      have hnew : k ∉ keys := fun hmem =>
        (List.nodup_append.mp h).2.2 k hmem k (.head _) rfl
      rw [List.foldl_cons, addKey, if_neg hnew, ih (by simpa using h), List.append_assoc]
      rfl

theorem nodup_foldl_addKey (h : keys.Nodup) : (live.foldl addKey keys).Nodup := by
  induction live generalizing keys with
  | nil => exact h
  | cons k live ih => exact ih (nodup_addKey h k)

/-- A timeline has every id once and is no longer than it is cut to. -/
def Tidy (ids : List String) : Prop := ids.Nodup ∧ ids.length ≤ 100

theorem tidy_mergeIds (ids live : List String) : Tidy (mergeIds ids live) := by
  refine ⟨(nodup_foldl_addKey List.nodup_nil).sublist (List.drop_sublist ..), ?_⟩
  simp only [mergeIds, List.length_drop]
  omega

theorem mergeIds_of_mem (h : Tidy ids) (hlive : ∀ k ∈ live, k ∈ ids) :
    mergeIds ids live = ids := by
  have hids : ids.foldl addKey [] = ids := foldl_addKey_of_nodup h.1
  have hkeys : (ids ++ live).foldl addKey [] = ids := by
    rw [List.foldl_append, hids, foldl_addKey_of_subset hlive]
  have hlength := h.2
  simp [mergeIds, hkeys, Nat.sub_eq_zero_of_le hlength]

theorem mergeIds_of_covered (hlive : ∀ k ∈ live, k ∈ mergeIds ids []) :
    mergeIds ids live = mergeIds ids [] := by
  have hkeys : (ids ++ live).foldl addKey [] = (ids ++ []).foldl addKey [] := by
    rw [List.foldl_append, List.append_nil]
    refine foldl_addKey_of_subset fun k hk => ?_
    simpa using List.mem_of_mem_drop (hlive k hk)
  rw [mergeIds, mergeIds, hkeys]

end

namespace SameCounters
variable {a b c : Option RunProgress}

theorem refl (a : Option RunProgress) : SameCounters a a := by
  cases a with
  | none => trivial
  | some progress => exact fun s => ⟨.refl _, rfl⟩

theorem symm (h : SameCounters a b) : SameCounters b a := by
  cases a <;> cases b <;> first | trivial | cases h | skip
  exact fun s =>
    ⟨⟨(h s).status.symm, (h s).completedUnits.symm, (h s).totalUnits.symm, (h s).activeUnits.symm⟩,
      (h s).failedUnits.symm⟩

theorem status (h : SameCounters a b) (s : StageId) :
    a.map (fun p => (p.stages s).status) = b.map fun p => (p.stages s).status := by
  cases a <;> cases b <;> first | rfl | cases h | skip
  exact congrArg some (h s).status

theorem trans (h : SameCounters a b) (h' : SameCounters b c) : SameCounters a c := by
  cases a <;> cases b <;> cases c <;> first | trivial | cases h | cases h' | skip
  exact fun s => ⟨(h s).toAgrees.trans (h' s).toAgrees, (h s).failedUnits.trans (h' s).failedUnits⟩

theorem map (h : SameCounters a b) {f g : RunProgress → RunProgress}
    (hfg : ∀ p q, (∀ s, (p.stages s).SameCounters (q.stages s)) →
      ∀ s, ((f p).stages s).SameCounters ((g q).stages s)) :
    SameCounters (a.map f) (b.map g) := by
  cases a <;> cases b <;> first | trivial | cases h | skip
  exact hfg _ _ h

/-- What leaves the stages leaves the counters. -/
theorem map_left {f : RunProgress → RunProgress} (h : SameCounters a b)
    (hf : ∀ p, a = some p → ∀ s, ((f p).stages s).SameCounters (p.stages s)) :
    SameCounters (a.map f) b := by
  refine SameCounters.trans ?_ h
  cases a with
  | none => trivial
  | some p => exact hf p rfl

end SameCounters

theorem ProgressStage.SameCounters.follow {a b : ProgressStage} (h : a.SameCounters b)
    (e : PublicEvent) : (a.follow e).SameCounters (b.follow e) := by
  refine ⟨h.toAgrees.follow e, ?_⟩
  have hstep : (a.step e).failedUnits = (b.step e).failedUnits := by
    simp only [ProgressStage.step, h.failedUnits]
  rw [ProgressStage.follow, ProgressStage.follow]
  split
  · split
    · exact h.failedUnits
    · exact hstep
  · exact hstep

theorem applyProgressEvent_same {p q : RunProgress} (e : PublicEvent)
    (h : ∀ s, (p.stages s).SameCounters (q.stages s)) (s : StageId) :
    ((applyProgressEvent p e).stages s).SameCounters ((applyProgressEvent q e).stages s) := by
  simp only [applyProgressEvent, followStages]
  split
  · exact (h s).follow e
  · exact h s

theorem setProgressStage_same {p q : RunProgress} (stageId : String) (time : Option String)
    (h : ∀ s, (p.stages s).SameCounters (q.stages s)) (s : StageId) :
    ((setProgressStage p stageId time).stages s).SameCounters
      ((setProgressStage q stageId time).stages s) := by
  simp only [setProgressStage]
  split
  · exact ⟨⟨rfl, (h s).completedUnits, (h s).totalUnits, rfl⟩, (h s).failedUnits⟩
  · exact h s

/-- A gate that waits already changes no counter. -/
theorem setProgressStage_waiting {p : RunProgress} (stageId : String) (time : Option String)
    (h : ∀ s : StageId, s.text = stageId →
      (p.stages s).status = .waiting ∧ (p.stages s).activeUnits = 0) (s : StageId) :
    ((setProgressStage p stageId time).stages s).SameCounters (p.stages s) := by
  simp only [setProgressStage]
  split
  next hs => exact ⟨⟨(h s hs).1.symm, rfl, rfl, (h s hs).2.symm⟩, rfl⟩
  · exact ⟨.refl _, rfl⟩

namespace RunStreamState
variable {a b c st : RunStreamState} {e : StreamEvent}

/-- The pages show the same and remember the same ids, so that they go on alike. -/
structure Alike (a b : RunStreamState) : Prop extends ShowsSame a b where
  remembered : a.remembered = b.remembered

theorem Alike.refl (a : RunStreamState) : Alike a a := ⟨⟨rfl, rfl, rfl, .refl _⟩, rfl⟩

theorem Alike.symm (h : Alike a b) : Alike b a :=
  ⟨⟨h.phase.symm, h.gate.symm, h.review.symm, h.progress.symm⟩, h.remembered.symm⟩

theorem Alike.trans (h : Alike a b) (h' : Alike b c) : Alike a c :=
  ⟨⟨h.phase.trans h'.phase, h.gate.trans h'.gate, h.review.trans h'.review,
    h.progress.trans h'.progress⟩, h.remembered.trans h'.remembered⟩

theorem atGate_congr (h : a.phase = b.phase) : a.AtGate ↔ b.AtGate := by
  rw [AtGate, AtGate, h]

theorem remembered_openGate (phase : RunPhase) (stageId : String) (e : GateEvent) :
    (st.openGate phase stageId e).remembered =
      mergeIds st.remembered [(gateActivity e stageId).eventId] :=
  map_eventId_mergeActivity ..

theorem clearGateOnResume_of_atGate (h : st.AtGate) : st.clearGateOnResume =
    { st with
      phase := some .running
      editConcepts := []
      awaiting := []
      review := none
      gate := none } := if_pos h

theorem clearGateOnResume_eq (h : ¬ st.AtGate) : st.clearGateOnResume = st := if_neg h

theorem any_eq_true_iff (k : String) :
    st.activity.any (·.eventId = k) = true ↔ k ∈ st.remembered := by
  simp [remembered]

theorem Alike.openGate (h : Alike a b) (phase : RunPhase) (stageId : String) (e : GateEvent) :
    Alike (a.openGate phase stageId e) (b.openGate phase stageId e) where
  phase := rfl
  gate := rfl
  review := h.review
  progress := h.progress.map fun _ _ => setProgressStage_same stageId e.occurredAt
  remembered := by rw [remembered_openGate, remembered_openGate, h.remembered]

theorem Alike.clearGateOnResume (h : Alike a b) :
    Alike a.clearGateOnResume b.clearGateOnResume := by
  by_cases hgate : a.AtGate
  · rw [clearGateOnResume_of_atGate hgate,
      clearGateOnResume_of_atGate ((atGate_congr h.phase).mp hgate)]
    exact ⟨⟨rfl, rfl, rfl, h.progress⟩, h.remembered⟩
  · rw [clearGateOnResume_eq hgate,
      clearGateOnResume_eq fun hb => hgate ((atGate_congr h.phase).mpr hb)]
    exact h

/-- Pages that are alike stay so under an event. -/
theorem Alike.reduce (h : Alike a b) (e : StreamEvent) :
    Alike (reduceRunStreamEvent a e) (reduceRunStreamEvent b e) := by
  have hkeep {f : RunProgress → RunProgress} (hf : ∀ p, (f p).stages = p.stages) :
      SameCounters (a.progress.map f) (b.progress.map f) :=
    h.progress.map fun p q hpq s => by rw [hf, hf]; exact hpq s
  cases e with
  | runStart _ => exact ⟨⟨rfl, h.gate, h.review, hkeep fun _ => rfl⟩, h.remembered⟩
  | runEnd => exact ⟨⟨rfl, h.gate, h.review, hkeep fun _ => rfl⟩, h.remembered⟩
  | error => exact ⟨⟨rfl, h.gate, h.review, hkeep fun _ => rfl⟩, h.remembered⟩
  | nodeStart _ => exact h.clearGateOnResume
  | itemUpdate => exact h.clearGateOnResume
  | nodeEnd _ => exact h
  | other => exact h
  | creatorUpdate _ => exact ⟨⟨h.phase, h.gate, h.review, h.progress⟩, h.remembered⟩
  | progressEvent eventId e =>
      have hseen : (a.activity.any (·.eventId = (progressActivity eventId e).eventId)) =
          b.activity.any (·.eventId = (progressActivity eventId e).eventId) := by
        rw [Bool.eq_iff_iff, any_eq_true_iff, any_eq_true_iff, h.remembered]
      have hmerge : (mergeActivity a.activity [progressActivity eventId e]).map (·.eventId) =
          (mergeActivity b.activity [progressActivity eventId e]).map (·.eventId) := by
        rw [map_eventId_mergeActivity, map_eventId_mergeActivity]
        exact congrArg (mergeIds · _) h.remembered
      simp only [reduceRunStreamEvent, hseen]
      split
      · exact h
      · exact
          ⟨⟨h.phase, h.gate, h.review, h.progress.map fun _ _ => applyProgressEvent_same e⟩,
            hmerge⟩
  | awaitingConceptEdit e concepts =>
      have hgate := h.openGate .editing "scripts" e
      exact ⟨⟨hgate.phase, hgate.gate, hgate.review, hgate.progress⟩, hgate.remembered⟩
  | awaitingApproval e creators =>
      have hgate := h.openGate .awaiting "creators" e
      exact ⟨⟨hgate.phase, hgate.gate, hgate.review, hgate.progress⟩, hgate.remembered⟩
  | awaitingReview e payload =>
      have hgate := h.openGate .review "review" e
      exact ⟨⟨hgate.phase, hgate.gate, rfl, hgate.progress⟩, hgate.remembered⟩

theorem StaysAt.openGate (htidy : Tidy st.remembered) {phase : RunPhase} {stageId : String}
    {e : GateEvent} (h : st.StaysAt phase stageId e) :
    Alike (st.openGate phase stageId e) st where
  phase := h.phase.symm
  gate := h.gate.symm
  review := rfl
  progress := (SameCounters.refl st.progress).map_left fun p hp =>
    setProgressStage_waiting stageId e.occurredAt (h.waiting p hp)
  remembered := by
    rw [remembered_openGate]
    exact mergeIds_of_mem htidy (by simpa using h.remembered)

/-- An event that the page absorbs leaves it alike. -/
theorem Absorbs.reduce (htidy : Tidy st.remembered) (h : st.Absorbs e) :
    Alike (reduceRunStreamEvent st e) st := by
  have hkeep {f : RunProgress → RunProgress} (hf : ∀ p, (f p).stages = p.stages) :
      SameCounters (st.progress.map f) st.progress :=
    (SameCounters.refl st.progress).map_left fun p _ s => by rw [hf]; exact ⟨.refl _, rfl⟩
  cases e with
  | runStart _ => exact ⟨⟨h.symm, rfl, rfl, hkeep fun _ => rfl⟩, rfl⟩
  | runEnd => exact ⟨⟨h.symm, rfl, rfl, hkeep fun _ => rfl⟩, rfl⟩
  | error => exact ⟨⟨h.symm, rfl, rfl, hkeep fun _ => rfl⟩, rfl⟩
  | nodeStart _ | itemUpdate =>
      have hsame : st.clearGateOnResume = st := clearGateOnResume_eq h
      simp only [reduceRunStreamEvent, hsame]
      exact .refl st
  | nodeEnd _ => exact .refl st
  | other => exact .refl st
  | creatorUpdate _ => exact ⟨⟨rfl, rfl, rfl, .refl _⟩, rfl⟩
  | progressEvent eventId e =>
      have hseen : st.activity.any (·.eventId = (progressActivity eventId e).eventId) = true :=
        (any_eq_true_iff _).mpr h
      simp only [reduceRunStreamEvent, hseen, if_true]
      exact .refl st
  | awaitingConceptEdit e concepts =>
      have hgate := h.openGate htidy
      exact ⟨⟨hgate.phase, hgate.gate, hgate.review, hgate.progress⟩, hgate.remembered⟩
  | awaitingApproval e creators =>
      have hgate := h.openGate htidy
      exact ⟨⟨hgate.phase, hgate.gate, hgate.review, hgate.progress⟩, hgate.remembered⟩
  | awaitingReview e payload =>
      have hgate := h.1.openGate htidy
      exact ⟨⟨hgate.phase, hgate.gate, h.2.symm, hgate.progress⟩, hgate.remembered⟩

theorem StaysAt.congr {phase : RunPhase} {stageId : String} {e : GateEvent} (hab : Alike a b)
    (h : a.StaysAt phase stageId e) : b.StaysAt phase stageId e where
  phase := hab.phase ▸ h.phase
  gate := hab.gate ▸ h.gate
  waiting q hq s hs := by
    have hsame := hab.progress
    rw [hq] at hsame
    cases hp : a.progress with
    | none => rw [hp] at hsame; cases hsame
    | some p =>
        rw [hp] at hsame
        obtain ⟨hstatus, hactive⟩ := h.waiting p hp s hs
        exact ⟨(hsame s).status ▸ hstatus, (hsame s).activeUnits ▸ hactive⟩
  remembered := hab.remembered ▸ h.remembered

theorem Absorbs.congr (hab : Alike a b) (h : a.Absorbs e) : b.Absorbs e := by
  cases e with
  | runStart _ | runEnd | error => exact hab.phase.symm.trans h
  | nodeStart _ | itemUpdate => exact fun hgate => h ((atGate_congr hab.phase).mpr hgate)
  | progressEvent eventId e =>
      have hseen : (progressActivity eventId e).eventId ∈ a.remembered := h
      rw [hab.remembered] at hseen
      exact hseen
  | awaitingConceptEdit _ _ | awaitingApproval _ _ => exact StaysAt.congr hab h
  | awaitingReview _ _ => exact ⟨h.1.congr hab, hab.review ▸ h.2⟩
  | nodeEnd _ | creatorUpdate _ | other => trivial

theorem tidy_openGate (phase : RunPhase) (stageId : String) (e : GateEvent) :
    Tidy (st.openGate phase stageId e).remembered := by
  rw [remembered_openGate]
  exact tidy_mergeIds ..

theorem tidy_reduce (h : Tidy st.remembered) (e : StreamEvent) :
    Tidy (reduceRunStreamEvent st e).remembered := by
  have hclear : Tidy st.clearGateOnResume.remembered := by
    rw [RunStreamState.clearGateOnResume]
    split <;> exact h
  cases e with
  | nodeStart _ | itemUpdate => exact hclear
  | awaitingConceptEdit e _ => exact tidy_openGate .editing "scripts" e
  | awaitingApproval e _ => exact tidy_openGate .awaiting "creators" e
  | awaitingReview e _ => exact tidy_openGate .review "review" e
  | progressEvent eventId e =>
      simp only [reduceRunStreamEvent]
      split
      · exact h
      · rw [RunStreamState.remembered, map_eventId_mergeActivity]
        exact tidy_mergeIds ..
  | runStart _ | runEnd | error | nodeEnd _ | creatorUpdate _ | other => exact h

/-- A replay of events that the page absorbs leaves it alike. -/
theorem replay_alike {events : List StreamEvent} (htidy : Tidy st.remembered)
    (h : ∀ e ∈ events, st.Absorbs e) :
    Alike (events.foldl reduceRunStreamEvent st) st ∧
      Tidy (events.foldl reduceRunStreamEvent st).remembered := by
  induction events generalizing st with
  | nil => exact ⟨.refl st, htidy⟩
  | cons e events ih =>
      have hfirst := (h e (.head _)).reduce htidy
      have hrest := ih (tidy_reduce htidy e) fun e' he' => (h e' (.tail _ he')).congr hfirst.symm
      exact ⟨hrest.1.trans hfirst, hrest.2⟩

end RunStreamState

/-- The id under which the page remembers an event, if it does. -/
def StreamEvent.key? : StreamEvent → Option String
  | .progressEvent eventId e => some (progressActivity eventId e).eventId
  | .awaitingConceptEdit e _ => some (gateActivity e "scripts").eventId
  | .awaitingApproval e _ => some (gateActivity e "creators").eventId
  | .awaitingReview e _ => some (gateActivity e "review").eventId
  | _ => none

theorem RunDetail.CoversEvent.key_mem {detail : RunDetail} {e : StreamEvent} {k : String}
    (h : detail.CoversEvent e) (hk : e.key? = some k) : k ∈ detail.remembered := by
  cases e with
  | progressEvent _ _ =>
      obtain rfl := Option.some.inj hk
      exact h
  | awaitingConceptEdit _ _ | awaitingApproval _ _ | awaitingReview _ _ =>
      obtain rfl := Option.some.inj hk
      exact h.remembered
  | runStart _ | nodeStart _ | nodeEnd _ | itemUpdate | creatorUpdate _ | runEnd | error | other =>
      cases hk

namespace RunStreamState
variable {st : RunStreamState} {e : StreamEvent}

theorem mem_mergeIds {ids live : List String} {k : String} (h : k ∈ mergeIds ids live) :
    k ∈ ids ∨ k ∈ live := by
  have hfold (xs keys : List String) (hk : k ∈ xs.foldl addKey keys) : k ∈ keys ∨ k ∈ xs := by
    induction xs generalizing keys with
    | nil => exact .inl hk
    | cons x xs ih =>
        obtain hk | hk := ih (addKey keys x) hk
        · rw [addKey] at hk
          split at hk
          · exact .inl hk
          · obtain hk | hk := List.mem_append.mp hk
            · exact .inl hk
            · exact .inr (List.mem_cons.mpr (.inl (List.mem_singleton.mp hk)))
        · exact .inr (.tail _ hk)
  obtain hk | hk := hfold _ [] (List.mem_of_mem_drop h)
  · cases hk
  · exact List.mem_append.mp hk

/-- The page remembers no more than it did and the id of the event. -/
theorem mem_remembered_reduce {k : String} (h : k ∈ (reduceRunStreamEvent st e).remembered) :
    k ∈ st.remembered ∨ e.key? = some k := by
  have hclear (hk : k ∈ st.clearGateOnResume.remembered) : k ∈ st.remembered := by
    rw [RunStreamState.clearGateOnResume] at hk
    split at hk <;> exact hk
  have hgate (phase : RunPhase) (stageId : String) (e : GateEvent)
      (hk : k ∈ (st.openGate phase stageId e).remembered) :
      k ∈ st.remembered ∨ some (gateActivity e stageId).eventId = some k := by
    rw [remembered_openGate] at hk
    exact (mem_mergeIds hk).imp_right fun hk => congrArg some (List.mem_singleton.mp hk).symm
  cases e with
  | nodeStart _ | itemUpdate => exact .inl (hclear h)
  | awaitingConceptEdit e _ => exact hgate .editing "scripts" e h
  | awaitingApproval e _ => exact hgate .awaiting "creators" e h
  | awaitingReview e _ => exact hgate .review "review" e h
  | progressEvent eventId e =>
      simp only [reduceRunStreamEvent] at h
      split at h
      · exact .inl h
      · rw [RunStreamState.remembered, map_eventId_mergeActivity] at h
        exact (mem_mergeIds h).imp_right fun hk => congrArg some (List.mem_singleton.mp hk).symm
  | runStart _ | runEnd | error | nodeEnd _ | creatorUpdate _ | other => exact .inl h

end RunStreamState

/-- What a page without the detail has in common with one that took it over first. -/
structure Ahead (detail : RunDetail) (delivered : List StreamEvent) (st other : RunStreamState) :
    Prop where
  progress : st.progress = none
  idle : st.phase = none → st.gate = none ∧ st.review = none
  phase : st.phase ≠ none → other.phase = st.phase
  gate : other.gate = st.gate ∨ (st.gate = none ∧ other.gate = detail.gate)
  review : other.review = st.review ∨ (st.review = none ∧ other.review = detail.review)
  remembered : ∀ k ∈ st.remembered, ∃ e ∈ delivered, e.key? = some k

namespace Ahead
variable {detail : RunDetail} {delivered : List StreamEvent} {st st' other : RunStreamState}

theorem congr (h : Ahead detail delivered st other) (hst : RunStreamState.Alike st' st) :
    Ahead detail delivered st' other where
  progress := by
    have hsame := hst.progress
    rw [h.progress] at hsame
    cases hprogress : st'.progress with
    | none => rfl
    | some p =>
        rw [hprogress] at hsame
        cases hsame
  idle hphase := by
    rw [hst.gate, hst.review]
    exact h.idle (hst.phase ▸ hphase)
  phase hphase := (h.phase (hst.phase ▸ hphase)).trans hst.phase.symm
  gate := by
    rw [hst.gate]
    exact h.gate
  review := by
    rw [hst.review]
    exact h.review
  remembered k hk := h.remembered k (hst.remembered ▸ hk)

theorem clearGateOnResume (h : Ahead detail delivered st other) :
    Ahead detail delivered st.clearGateOnResume other.clearGateOnResume := by
  by_cases hgate : st.AtGate
  · have hphase : st.phase ≠ none := by
      intro hnone
      simp [RunStreamState.AtGate, hnone] at hgate
    have hother : other.AtGate := (RunStreamState.atGate_congr (h.phase hphase)).mpr hgate
    rw [RunStreamState.clearGateOnResume_of_atGate hgate,
      RunStreamState.clearGateOnResume_of_atGate hother]
    exact ⟨h.progress, fun _ => ⟨rfl, rfl⟩, fun _ => rfl, .inl rfl, .inl rfl, h.remembered⟩
  · rw [RunStreamState.clearGateOnResume_eq hgate]
    by_cases hother : other.AtGate
    · have hidle : st.phase = none := by
        by_contra hphase
        exact hgate ((RunStreamState.atGate_congr (h.phase hphase)).mp hother)
      obtain ⟨hnogate, hnoreview⟩ := h.idle hidle
      rw [RunStreamState.clearGateOnResume_of_atGate hother]
      exact ⟨h.progress, h.idle, fun hphase => absurd hidle hphase, .inl hnogate.symm,
        .inl hnoreview.symm, h.remembered⟩
    · rw [RunStreamState.clearGateOnResume_eq hother]
      exact h

/-- Both pages receive the next event. -/
theorem next (h : Ahead detail delivered st other) (e : StreamEvent) :
    Ahead detail (delivered ++ [e]) (reduceRunStreamEvent st e) (reduceRunStreamEvent other e) := by
  have hremembered (k : String) (hk : k ∈ (reduceRunStreamEvent st e).remembered) :
      ∃ e' ∈ delivered ++ [e], e'.key? = some k := by
    obtain hk | hk := RunStreamState.mem_remembered_reduce hk
    · obtain ⟨e', he', hkey⟩ := h.remembered k hk
      exact ⟨e', List.mem_append_left _ he', hkey⟩
    · exact ⟨e, by simp, hk⟩
  have hnone (f : RunProgress → RunProgress) : st.progress.map f = none := by simp [h.progress]
  cases e with
  | nodeStart _ | itemUpdate => exact { h.clearGateOnResume with remembered := hremembered }
  | nodeEnd _ | other => exact { h with remembered := hremembered }
  | creatorUpdate _ =>
      exact ⟨h.progress, h.idle, h.phase, h.gate, h.review, hremembered⟩
  | runStart _ | runEnd | error =>
      exact ⟨hnone _, fun hphase => (by cases hphase), fun _ => rfl, h.gate, h.review, hremembered⟩
  | awaitingConceptEdit _ _ | awaitingApproval _ _ =>
      exact ⟨hnone _, fun hphase => (by cases hphase), fun _ => rfl, .inl rfl, h.review,
        hremembered⟩
  | awaitingReview _ _ =>
      exact ⟨hnone _, fun hphase => (by cases hphase), fun _ => rfl, .inl rfl, .inl rfl,
        hremembered⟩
  | progressEvent eventId e =>
      have hst : (reduceRunStreamEvent st (.progressEvent eventId e)).progress = none ∧
          (reduceRunStreamEvent st (.progressEvent eventId e)).phase = st.phase ∧
          (reduceRunStreamEvent st (.progressEvent eventId e)).gate = st.gate ∧
          (reduceRunStreamEvent st (.progressEvent eventId e)).review = st.review := by
        simp only [reduceRunStreamEvent]
        split
        · exact ⟨h.progress, rfl, rfl, rfl⟩
        · exact ⟨hnone _, rfl, rfl, rfl⟩
      have hother : (reduceRunStreamEvent other (.progressEvent eventId e)).phase = other.phase ∧
          (reduceRunStreamEvent other (.progressEvent eventId e)).gate = other.gate ∧
          (reduceRunStreamEvent other (.progressEvent eventId e)).review = other.review := by
        simp only [reduceRunStreamEvent]
        split <;> exact ⟨rfl, rfl, rfl⟩
      obtain ⟨hprogress, hphase, hgate, hreview⟩ := hst
      obtain ⟨hphase', hgate', hreview'⟩ := hother
      refine ⟨hprogress, ?_, ?_, ?_, ?_, hremembered⟩
      · rw [hphase, hgate, hreview]
        exact h.idle
      · rw [hphase, hphase']
        exact h.phase
      · rw [hgate, hgate']
        exact h.gate
      · rw [hreview, hreview']
        exact h.review

end Ahead

section
variable {dateParse : String → Option Int} {detail : RunDetail} {delivered : List StreamEvent}
  {st : RunStreamState}

theorem hydratedFirst_append (events : List StreamEvent) (e : StreamEvent) :
    hydratedFirst dateParse detail (events ++ [e]) =
      reduceRunStreamEvent (hydratedFirst dateParse detail events) e := by
  rw [hydratedFirst, List.foldl_append]
  rfl

theorem newerProgress_none (hydrated : Option RunProgress) :
    newerProgress dateParse none hydrated = hydrated := by
  cases hydrated <;> rfl

theorem remembered_hydrate :
    (st.hydrate dateParse detail).remembered =
      mergeIds (detail.activity.map (·.eventId)) st.remembered :=
  map_eventId_mergeActivity ..

/-- An event that the detail covers leaves its counters and its timeline. -/
theorem RunDetail.CoversEvent.reduce {e : StreamEvent} (h : detail.CoversEvent e)
    (hprogress : SameCounters st.progress detail.progress)
    (hremembered : st.remembered = detail.remembered) :
    SameCounters (reduceRunStreamEvent st e).progress detail.progress ∧
      (reduceRunStreamEvent st e).remembered = detail.remembered := by
  have htidy : Tidy st.remembered := hremembered ▸ tidy_mergeIds ..
  have hkeep {f : RunProgress → RunProgress} (hf : ∀ p, (f p).stages = p.stages) :
      SameCounters (st.progress.map f) detail.progress :=
    hprogress.map_left fun p _ s => by rw [hf]; exact ⟨.refl _, rfl⟩
  have hgate (phase : RunPhase) (stageId : String) (e : GateEvent)
      (hcovers : detail.CoversGate stageId e) :
      SameCounters (st.openGate phase stageId e).progress detail.progress ∧
        (st.openGate phase stageId e).remembered = detail.remembered := by
    refine ⟨hprogress.map_left fun p hp => ?_, ?_⟩
    · refine setProgressStage_waiting stageId e.occurredAt fun s hs => ?_
      cases hdetail : detail.progress with
      | none =>
          rw [hp, hdetail] at hprogress
          cases hprogress
      | some q =>
          rw [hp, hdetail] at hprogress
          obtain ⟨hstatus, hactive⟩ := hcovers.waiting q hdetail s hs
          exact ⟨(hprogress s).status.trans hstatus, (hprogress s).activeUnits.trans hactive⟩
    · rw [RunStreamState.remembered_openGate, mergeIds_of_mem htidy, hremembered]
      intro k hk
      rw [List.mem_singleton.mp hk, hremembered]
      exact hcovers.remembered
  have hclear : SameCounters st.clearGateOnResume.progress detail.progress ∧
      st.clearGateOnResume.remembered = detail.remembered := by
    rw [RunStreamState.clearGateOnResume]
    split <;> exact ⟨hprogress, hremembered⟩
  cases e with
  | nodeStart _ | itemUpdate => exact hclear
  | awaitingConceptEdit e _ => exact hgate .editing "scripts" e h
  | awaitingApproval e _ => exact hgate .awaiting "creators" e h
  | awaitingReview e _ => exact hgate .review "review" e h
  | runStart _ | runEnd | error => exact ⟨hkeep fun _ => rfl, hremembered⟩
  | nodeEnd _ | creatorUpdate _ | other => exact ⟨hprogress, hremembered⟩
  | progressEvent eventId e =>
      have hseen : (progressActivity eventId e).eventId ∈ st.remembered := hremembered ▸ h
      have hany := (RunStreamState.any_eq_true_iff _).mpr hseen
      simp only [reduceRunStreamEvent, hany, if_true]
      exact ⟨hprogress, hremembered⟩

theorem hydratedFirst_covered (dateParse : String → Option Int)
    (h : ∀ e ∈ delivered, detail.CoversEvent e) :
    SameCounters (hydratedFirst dateParse detail delivered).progress detail.progress ∧
      (hydratedFirst dateParse detail delivered).remembered = detail.remembered := by
  induction delivered using List.reverseRecOn with
  | nil =>
      refine ⟨?_, remembered_hydrate⟩
      simp only [hydratedFirst, List.foldl_nil, RunStreamState.hydrate, newerProgress_none]
      exact .refl _
  | append_singleton events e ih =>
      obtain ⟨hprogress, hremembered⟩ := ih fun e' he' => h e' (List.mem_append_left _ he')
      rw [hydratedFirst_append]
      exact (h e (by simp)).reduce hprogress hremembered

/-- Events that change nothing leave the page that hydrated first as it was. -/
theorem hydratedFirst_neutral (dateParse : String → Option Int) (detail : RunDetail)
    (h : ∀ e ∈ delivered, e.Neutral) :
    (hydratedFirst dateParse detail delivered).phase = detail.phase ∧
      (hydratedFirst dateParse detail delivered).gate = detail.gate ∧
      (hydratedFirst dateParse detail delivered).review = detail.review := by
  induction delivered using List.reverseRecOn with
  | nil => simp [hydratedFirst, RunStreamState.hydrate]
  | append_singleton events e ih =>
      have hrest := ih fun e' he' => h e' (List.mem_append_left _ he')
      have hneutral := h e (by simp)
      rw [hydratedFirst_append]
      cases e with
      | nodeEnd _ | creatorUpdate _ | other => exact hrest
      | runStart _ | nodeStart _ | itemUpdate | progressEvent _ _ | awaitingConceptEdit _ _
        | awaitingApproval _ _ | awaitingReview _ _ | runEnd | error => cases hneutral

/-- What the detail brings, or what the page has, when the detail has nothing else. -/
theorem or_eq_of_left {α : Type} {brought has other : Option α}
    (hbrought : brought = none ∨ brought = has)
    (hother : other = has ∨ (has = none ∧ other = brought)) : brought.or has = other := by
  obtain rfl | rfl := hbrought
  · obtain rfl | ⟨rfl, rfl⟩ := hother <;> simp
  · obtain rfl | ⟨-, rfl⟩ := hother <;> simp

/-- A detail that is not behind the page brings it where the other page is. -/
theorem Ahead.hydrate
    (h : Ahead detail delivered st (hydratedFirst dateParse detail delivered))
    (hdetail : detail.UpToDate delivered st) :
    RunStreamState.Alike (st.hydrate dateParse detail)
      (hydratedFirst dateParse detail delivered) := by
  obtain ⟨hprogress, hremembered⟩ := hydratedFirst_covered dateParse hdetail.events
  have htimeline : (st.hydrate dateParse detail).remembered = detail.remembered := by
    rw [remembered_hydrate]
    refine mergeIds_of_covered fun k hk => ?_
    obtain ⟨e, he, hkey⟩ := h.remembered k hk
    exact (hdetail.events e he).key_mem hkey
  have hshown : SameCounters (st.hydrate dateParse detail).progress
      (hydratedFirst dateParse detail delivered).progress := by
    simp only [RunStreamState.hydrate, h.progress, newerProgress_none]
    exact hprogress.symm
  by_cases hidle : st.phase = none
  · obtain ⟨hphase, hgate, hreview⟩ :=
      hydratedFirst_neutral dateParse detail (hdetail.idle hidle)
    obtain ⟨hnogate, hnoreview⟩ := h.idle hidle
    exact
      ⟨⟨by simp [RunStreamState.hydrate, hidle, hphase],
        by simp [RunStreamState.hydrate, hnogate, hgate],
        by simp [RunStreamState.hydrate, hnoreview, hreview], hshown⟩,
        htimeline.trans hremembered.symm⟩
  · refine ⟨⟨?_, ?_, ?_, hshown⟩, htimeline.trans hremembered.symm⟩
    · rw [h.phase hidle]
      simp only [RunStreamState.hydrate, hidle, false_or]
      split
      next hrunning =>
          exact ((hdetail.phase hrunning.1).resolve_left hrunning.2).trans hrunning.1.symm
      · rfl
    · exact or_eq_of_left (hdetail.gate hidle) h.gate
    · exact or_eq_of_left (hdetail.review hidle) h.review

/-- What steady deliveries keep: before the detail arrives the page is ahead of the
other, after it both go on alike. -/
theorem Delivers.alike {hydrated : Bool}
    (h : Delivers dateParse Steady detail hydrated delivered st) :
    Tidy st.remembered ∧
      match hydrated with
      | false => Ahead detail delivered st (hydratedFirst dateParse detail delivered)
      | true => RunStreamState.Alike st (hydratedFirst dateParse detail delivered) := by
  induction h with
  | start =>
      refine ⟨⟨List.nodup_nil, Nat.zero_le _⟩, rfl, fun _ => ⟨rfl, rfl⟩, fun h => absurd rfl h,
        .inr ⟨rfl, ?_⟩, .inr ⟨rfl, ?_⟩, fun _ hk => by cases hk⟩ <;>
        simp [hydratedFirst, RunStreamState.hydrate]
  | @next hydrated delivered st e _ ih =>
      refine ⟨RunStreamState.tidy_reduce ih.1 e, ?_⟩
      rw [hydratedFirst_append]
      cases hydrated with
      | false => exact ih.2.next e
      | true => exact ih.2.reduce e
  | @replay hydrated delivered st events _ _ hmay ih =>
      obtain ⟨hsame, htidy⟩ := RunStreamState.replay_alike ih.1 hmay
      refine ⟨htidy, ?_⟩
      cases hydrated with
      | false => exact ih.2.congr hsame
      | true => exact hsame.trans ih.2
  | hydrate _ hmay ih =>
      refine ⟨?_, ih.2.hydrate hmay⟩
      rw [remembered_hydrate]
      exact tidy_mergeIds ..

end

/-- The detail that the server has when the run has produced these events. -/
structure RunDetail.TakenAt (topology : PipelineTopology) (items : List FinalItem)
    (batchSize : Option Int) (taken : List StreamEvent) (detail : RunDetail) : Prop where
  phase : detail.phase = (taken.foldl reduceRunStreamEvent {}).phase
  gate : detail.gate = (taken.foldl reduceRunStreamEvent {}).gate
  review : detail.review = (taken.foldl reduceRunStreamEvent {}).review
  progress : detail.progress = some
    (buildProgress topology (taken.map StreamEvent.toPublic) detail.phase items batchSize)
  activity : ∀ a ∈ detail.activity, ∃ e ∈ taken, e.key? = some a.eventId

/-- Any replay, and the server's detail of an earlier or equal part of the run. -/
def Served (topology : PipelineTopology) (items : List FinalItem) (batchSize : Option Int)
    (delivered : List StreamEvent) (_ : RunStreamState) : Arrival → Prop
  | .replay _ => True
  | .hydrate detail =>
      ∃ taken, taken <+: delivered ∧ detail.TakenAt topology items batchSize taken

/-- A detail from before the first progress event arrives after it: the event is lost. -/
theorem stale_detail_loses_event :
    ¬ ∀ (dateParse : String → Option Int) (topology : PipelineTopology) (items : List FinalItem)
        (batchSize : Option Int) (detail : RunDetail) (events : List StreamEvent)
        (st : RunStreamState),
      Delivers dateParse (Served topology items batchSize) detail true events st →
        st.ShowsSame (hydratedFirst dateParse detail events) := by
  intro h
  let topology : PipelineTopology := ⟨["ltx"], by decide, by decide⟩
  let started : StreamEvent := .progressEvent (some "2")
    { type := .progressEvent, node := "concepts", stageId := "concepts", status := "started",
      operationId := "call" }
  let detail : RunDetail :=
    { phase := some .running
      progress := some (buildProgress topology [{ type := .runStart, batch := 1 }]
        (some .running) [] (some 1)) }
  have hrun : Delivers (fun _ => none) (Served topology [] (some 1)) detail true
      [.runStart 1, started] _ :=
    .hydrate (.next started (.next (.runStart 1) .start))
      ⟨[.runStart 1], ⟨[started], rfl⟩, rfl, rfl, rfl, rfl, fun _ ha => by cases ha⟩
  have hsame := (h (fun _ => none) topology [] (some 1) detail _ _ hrun).progress
  exact absurd (hsame.status .concepts) (by decide +kernel)

/-- Replays that the page absorbs and a detail that is not behind it change nothing. -/
theorem redelivery_shows_same (dateParse : String → Option Int) (detail : RunDetail)
    (events : List StreamEvent) (st : RunStreamState)
    (h : Delivers dateParse Steady detail true events st) :
    st.ShowsSame (hydratedFirst dateParse detail events) :=
  h.alike.2.toShowsSame

/-- The last event is delivered again, and then a detail that has it arrives. -/
theorem redelivery_shows_same_started :
    (RunStreamState.hydrate
      ([StreamEvent.progressEvent (some "2")
          { type := .progressEvent, stageId := "concepts", status := "started" }].foldl
        reduceRunStreamEvent
        (reduceRunStreamEvent (reduceRunStreamEvent {} (.runStart 1))
          (.progressEvent (some "2")
            { type := .progressEvent, stageId := "concepts", status := "started" })))
      (fun _ => none) { phase := some .running, activity := [{ eventId := "2" }] }).ShowsSame
        (hydratedFirst (fun _ => none)
          { phase := some .running, activity := [{ eventId := "2" }] }
          [.runStart 1, .progressEvent (some "2")
            { type := .progressEvent, stageId := "concepts", status := "started" }]) := by
  let started : StreamEvent := .progressEvent (some "2")
    { type := .progressEvent, stageId := "concepts", status := "started" }
  let detail : RunDetail := { phase := some .running, activity := [{ eventId := "2" }] }
  have hreplay : Delivers (fun _ => none) Steady detail false [.runStart 1, started] _ :=
    .replay [started] (.next started (.next (.runStart 1) .start)) ⟨[.runStart 1], [], rfl⟩ (by
      intro e he
      obtain rfl := List.mem_singleton.mp he
      exact (by decide : "2" ∈ ["2"]))
  refine redelivery_shows_same _ _ _ _ (.hydrate hreplay ⟨fun e he => ?_, fun hphase => ?_,
    fun _ => .inr rfl, fun _ => .inl rfl, fun _ => .inl rfl⟩)
  · obtain rfl | rfl : e = .runStart 1 ∨ e = started := by simpa using he
    · trivial
    · exact (by decide : "2" ∈ ["2"])
  · cases hphase

end Orchestrator
