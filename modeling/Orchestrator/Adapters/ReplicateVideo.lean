import Orchestrator.Lib.Retry
import Orchestrator.Lib.Traced
import Orchestrator.Tools.Runtime

/-!
The creations of the video adapter and how they are retried.

A run-style call of the client creates a prediction and polls it before it
returns, so what it raises may come from a poll; a submit creates and returns.
The transport retry repeats what is known not to have been sent and what was
throttled, the idempotent one every transport error, throttle and server error.
-/

namespace Orchestrator
open Outcome

namespace ExternalError

def isRetryable (exc : ExternalError) : Bool :=
  if exc.cls.unreachable then true
  else if exc.cause.any (·.unreachable) then true
  else if exc.cls = .httpStatusError then exc.responseStatus = 429
  else if exc.statusCode = some (some 429) then true
  else if exc.cls = .replicateError then exc.status = some 429
  else false

/-- `isinstance(exc, httpx.TransportError)`. -/
def transport (exc : ExternalError) : Bool :=
  match exc.cls with
  | .connectError | .connectTimeout | .poolTimeout | .readError | .readTimeout | .writeError
  | .writeTimeout | .transportError => true
  | .httpStatusError | .replicateError | .runtimeError | .other => false

def isIdempotentRetryable (exc : ExternalError) : Bool :=
  if exc.transport then true
  else if exc.cls = .httpStatusError then exc.responseStatus = 429 ∨ 500 ≤ exc.responseStatus
  else if exc.cls = .replicateError then exc.status.any fun status => status = 429 ∨ 500 ≤ status
  else false

/-- A connection failure before the request was sent, by itself or behind the error. -/
def Unsent (exc : ExternalError) : Prop :=
  exc.cls.unreachable = true ∨ ∃ cause ∈ exc.cause, cause.unreachable = true

def Throttled (exc : ExternalError) : Prop :=
  (exc.cls = .httpStatusError ∧ exc.responseStatus = 429)
    ∨ (exc.cls ≠ .httpStatusError ∧ exc.statusCode = some (some 429))
    ∨ (exc.cls = .replicateError ∧ exc.status = some 429)

/-- An error that guarantees that the request it answers was not accepted. -/
def NotAccepted (exc : ExternalError) : Prop := exc.Unsent ∨ exc.Throttled

def Ambiguous (exc : ExternalError) : Prop :=
  ¬ exc.NotAccepted ∧ (exc.transport = true
    ∨ (exc.cls = .httpStatusError ∧ 500 ≤ exc.responseStatus)
    ∨ (exc.cls = .replicateError ∧ ∃ status ∈ exc.status, 500 ≤ status))

/-- The transport retry repeats what was not accepted and nothing else. -/
theorem isRetryable_iff (exc : ExternalError) : exc.isRetryable = true ↔ exc.NotAccepted := by
  have hcause : exc.cause.any (·.unreachable) = true ↔
      ∃ cause ∈ exc.cause, cause.unreachable = true := by
    cases exc.cause <;> simp
  rw [isRetryable, NotAccepted, Unsent, Throttled, ← hcause]
  by_cases hunreachable : exc.cls.unreachable = true
  · simp [hunreachable]
  · by_cases hbehind : exc.cause.any (·.unreachable) = true
    · simp [hbehind]
    · by_cases hhttp : exc.cls = .httpStatusError
      · simp [hbehind, hhttp]
      · by_cases hcode : exc.statusCode = some (some 429)
        · simp [hhttp, hcode]
        · simp [hunreachable, hbehind, hhttp, hcode]

end ExternalError

/-- One call of the client: what the creation in it raised, and what the call raised or gave. -/
structure ProviderCall (α : Type) where
  creation : Option ExternalError
  outcome : Except ExternalError α
  raised : ∀ exc, creation = some exc → outcome = .error exc

namespace ProviderCall
variable {α : Type}

def Refused (call : ProviderCall α) : Prop := ∃ exc, call.creation = some exc ∧ exc.NotAccepted

/-- `predictions.async_create(wait=False)`. -/
def create (reply : Except ExternalError α) : ProviderCall α where
  creation := match reply with
    | .error exc => some exc
    | .ok _ => none
  outcome := reply
  raised exc h := by
    cases reply with
    | error exc' => exact congrArg Except.error (Option.some.inj h)
    | ok a => exact absurd h (by simp)

end ProviderCall

/-- The replies to the requests of one run-style call: to its creation, to its polls in order,
and what the call makes of the last of them. -/
structure RunReplies where
  creation : Option ExternalError
  polls : List (Option ExternalError)
  output : Except ExternalError Json

/-- `replicate.async_run`: what its creation or else its first failing poll raises, or the
output. -/
def asyncRun (replies : RunReplies) : ProviderCall Json where
  creation := replies.creation
  outcome := match replies.creation, replies.polls.findSome? id with
    | some exc, _ => .error exc
    | none, some exc => .error exc
    | none, none => replies.output
  raised exc h := by rw [h]

section Retries
variable {α : Type}

/-- `with_transport_retry`; a negative budget allows no retry. -/
def withTransportRetry (maxRetries : Int) (calls : Nat → ProviderCall α) :
    List (ProviderCall α) × Except ExternalError α :=
  Retry.run ExternalError.isRetryable ProviderCall.outcome calls maxRetries.toNat 0

def withIdempotentRetry (maxRetries : Int) (calls : Nat → ProviderCall α) :
    List (ProviderCall α) × Except ExternalError α :=
  Retry.run ExternalError.isIdempotentRetryable ProviderCall.outcome calls maxRetries.toNat 0

end Retries

structure ReplicateVideoAdapter where
  tiers : List (String × String)
  /-- What the mock generator gives where it may stand in for a model. -/
  mockFallback : Option (Except ExternalError String) := none
  latentsyncEnabled : Bool := true
  latentsyncRequired : Bool := false
  assemblyModel : String := "prunaai/p-video"
  maxRetries : Int := 3
  latentsyncMaxRetries : Int := 3

namespace ReplicateVideoAdapter

def runtimeError (text : String) : ExternalError :=
  { cls := .runtimeError, typeName := "RuntimeError", text }

def firstUri (value : Json) (emptyMsg : String) : Except ExternalError String :=
  match value with
  | .arr [] => .error (runtimeError emptyMsg)
  | .arr (first :: _) => .ok (PyStr.str first)
  | value => .ok (PyStr.str value)

def coerceOutput (output : Json) : Except ExternalError String :=
  match output with
  | .null => .error (runtimeError "Replicate video output is empty")
  | .arr items => firstUri (.arr items) "Replicate video output list is empty"
  | .obj [] => .error (runtimeError "Replicate video output dict is empty")
  | .obj (first :: rest) =>
      let given := ["video", "video_url", "output"].findSome? fun key =>
        ((Json.obj (first :: rest)).get? key).bind fun value =>
          if value.truthy then some (key, value) else none
      match given with
      | some (key, value) =>
          firstUri value ("Replicate video output key " ++ PyStr.repr key ++ " is empty")
      | none => firstUri first.2 "Replicate video output fallback list is empty"
  | output =>
      let uri := PyStr.strip (PyStr.str output)
      if uri = "" then .error (runtimeError "Replicate video output is empty") else .ok uri

def snapshot (prediction : VideoPrediction) : Except ExternalError VideoPrediction :=
  let id := PyStr.strip prediction.id
  let status := PyStr.lower (PyStr.strip prediction.status)
  if id = "" ∨ status = "" then
    .error (runtimeError "Replicate returned a prediction without id/status")
  else .ok { prediction with id, status }

variable (adapter : ReplicateVideoAdapter)

def runClip (replies : Nat → RunReplies) : List (ProviderCall Json) × Except ExternalError Json :=
  withTransportRetry adapter.maxRetries fun n => asyncRun (replies n)

def runLatentsync (replies : Nat → RunReplies) :
    List (ProviderCall Json) × Except ExternalError Json :=
  withIdempotentRetry adapter.latentsyncMaxRetries fun n => asyncRun (replies n)

def runAssembly (replies : Nat → RunReplies) :
    List (ProviderCall Json) × Except ExternalError Json :=
  withTransportRetry adapter.maxRetries fun n => asyncRun (replies n)

def createClip (replies : Nat → Except ExternalError VideoPrediction) :
    List (ProviderCall VideoPrediction) × Except ExternalError VideoPrediction :=
  withTransportRetry adapter.maxRetries fun n => ProviderCall.create (replies n)

def createLatentsync (replies : Nat → Except ExternalError VideoPrediction) :
    List (ProviderCall VideoPrediction) × Except ExternalError VideoPrediction :=
  withTransportRetry (max adapter.maxRetries 5) fun n => ProviderCall.create (replies n)

/-- The model of a tier, where the adapter can create for it. -/
def clipModel (tier : String) : Except ExternalError String :=
  match adapter.tiers.lookup tier with
  | none => .error { cls := .other, typeName := "KeyError", text := PyStr.repr tier }
  | some model =>
      if model ∈ ["lightricks/ltx-2.3-fast", "prunaai/p-video"] then .ok model
      else .error (runtimeError
        ("Replicate prediction lifecycle does not support model " ++ PyStr.repr model))

def submitClipPrediction (tier : String) (replies : Nat → Except ExternalError VideoPrediction) :
    List (ProviderCall VideoPrediction) × Except ExternalError VideoPrediction :=
  Traced.bind (Traced.quiet (adapter.clipModel tier)) fun _ =>
    Traced.bind (adapter.createClip replies) fun prediction => Traced.quiet (snapshot prediction)

def submitLatentsyncPrediction (replies : Nat → Except ExternalError VideoPrediction) :
    List (ProviderCall VideoPrediction) × Except ExternalError VideoPrediction :=
  Traced.bind (adapter.createLatentsync replies) fun prediction =>
    Traced.quiet (snapshot prediction)

def assemble (replies : Nat → RunReplies) :
    List (ProviderCall Json) × Except ExternalError String :=
  if adapter.assemblyModel = "prunaai/p-video" then
    Traced.bind (adapter.runAssembly replies) fun output => Traced.quiet (coerceOutput output)
  else Traced.quiet
    (.error (runtimeError ("Replicate assembly requires model 'prunaai/p-video'; got "
    ++ PyStr.repr adapter.assemblyModel)))

/-- What `generate_clip` checks before it looks at the tier. -/
def latentsyncMissing (audioUri : Option String) (stage : Option String) : Option ExternalError :=
  if adapter.latentsyncRequired ∧ stage ≠ some "product_demo" then
    if !adapter.latentsyncEnabled then
      some (runtimeError "LatentSync is required but latentsync is disabled")
    else if audioUri.getD "" = "" then
      some (runtimeError "LatentSync is required for talking head but audio_uri is missing")
    else none
  else none

/-- The uri of a clip with a runner: the mock's where the model is not supported, else the
clip's, or that of its LatentSync where there is an audio; the calls of each kind. -/
def generateClip (tier : String) (audioUri stage : Option String)
    (clipReplies latentsyncReplies : Nat → RunReplies) :
    List (ProviderCall Json ⊕ ProviderCall Json) × Except ExternalError String :=
  match adapter.latentsyncMissing audioUri stage, adapter.tiers.lookup tier with
  | some exc, _ => Traced.quiet (.error exc)
  | none, none =>
      Traced.quiet (.error { cls := .other, typeName := "KeyError", text := PyStr.repr tier })
  | none, some model =>
      if model ∈ ["lightricks/ltx-2.3-fast", "prunaai/p-video"] then
        Traced.bind (Traced.tag .inl (adapter.runClip clipReplies)) fun output =>
        Traced.bind (Traced.quiet (coerceOutput output)) fun uri =>
          if audioUri.getD "" ≠ "" ∧ adapter.latentsyncEnabled then
            Traced.bind (Traced.tag .inr (adapter.runLatentsync latentsyncReplies)) fun output =>
              Traced.quiet (coerceOutput output)
          else Traced.quiet (.ok uri)
      else Traced.quiet (adapter.mockFallback.getD (.error (runtimeError
        ("Replicate video mock fallback disabled for tier=" ++ PyStr.repr tier
          ++ "; configure a real model adapter before live run"))))

end ReplicateVideoAdapter

section Creations
variable {α : Type}

/-- The creations of a path within its budget: each that another follows was refused, there is
at most one more than the retries, and an ambiguous error is raised and ends them. -/
structure SentOnce (budget : Nat) (made : List (ProviderCall α) × Except ExternalError α) :
    Prop where
  again : ∀ call ∈ made.1.dropLast, call.Refused
  budget : made.1.length ≤ budget + 1
  raised : ∀ earlier call later exc, made.1 = earlier ++ call :: later →
    call.outcome = .error exc → exc.Ambiguous → later = [] ∧ made.2 = .error exc

/-- While retries are left, a call that is retried is one whose creation was refused. -/
def RetriesRefused (retryable : ExternalError → Bool) (budget : Nat)
    (calls : Nat → ProviderCall α) : Prop :=
  ∀ n < budget, (∀ i ≤ n, Retry.Retried retryable ProviderCall.outcome (calls i)) →
    (calls n).Refused

theorem sentOnce_iff (retryable : ExternalError → Bool) (budget : Nat)
    (calls : Nat → ProviderCall α) :
    SentOnce budget (Retry.run retryable ProviderCall.outcome calls budget 0) ↔
      RetriesRefused retryable budget calls := by
  constructor
  · exact fun h => Retry.forall_earlier_iff.mp h.again
  · intro h
    have hagain := Retry.forall_earlier_iff.mpr h
    refine ⟨hagain, Retry.length_attempts_le _ _ _ _ _, ?_⟩
    intro earlier call later exc hmade houtcome hambiguous
    have hlast : later = [] := by
      by_contra hne
      have hmem : call ∈ (earlier ++ call :: later).dropLast := by
        rw [List.dropLast_append_of_ne_nil (List.cons_ne_nil _ _), List.dropLast_cons_of_ne_nil hne]
        exact List.mem_append_right _ List.mem_cons_self
      obtain ⟨refusal, hcreation, hrefused⟩ := hagain call (hmade ▸ hmem)
      have hsame := (call.raised refusal hcreation).symm.trans houtcome
      rw [Except.error.inj hsame] at hrefused
      exact hambiguous.1 hrefused
    subst hlast
    obtain ⟨front, last, hattempts, hresult⟩ :=
      Retry.result_of_last retryable ProviderCall.outcome calls budget 0
    have hcall : call = last := by
      have hends := congrArg List.getLast? (hmade.symm.trans hattempts)
      rw [List.getLast?_concat, List.getLast?_concat] at hends
      exact Option.some.inj hends
    exact ⟨rfl, by rw [hresult, ← hcall, houtcome]⟩

/-- While retries are left, no run-style call that is retried failed in its polls. -/
def PollsNotRetried (budget : Nat) (replies : Nat → RunReplies) : Prop :=
  ∀ n < budget,
    (∀ i ≤ n, Retry.Retried ExternalError.isRetryable ProviderCall.outcome (asyncRun (replies i))) →
    (replies n).creation ≠ none

/-- What the transport retry repeats of a creation was refused. -/
theorem refused_of_retried {call : ProviderCall α} (hcreation : call.creation ≠ none)
    (h : Retry.Retried ExternalError.isRetryable ProviderCall.outcome call) : call.Refused := by
  obtain ⟨exc, hraised⟩ := Option.ne_none_iff_exists'.mp hcreation
  obtain ⟨exc', houtcome, hretryable⟩ := h
  have hsame := (call.raised exc hraised).symm.trans houtcome
  refine ⟨exc, hraised, ?_⟩
  rw [Except.error.inj hsame]
  exact (ExternalError.isRetryable_iff exc').mp hretryable

theorem retriesRefused_iff (budget : Nat) (replies : Nat → RunReplies) :
    RetriesRefused ExternalError.isRetryable budget (fun n => asyncRun (replies n)) ↔
      PollsNotRetried budget replies := by
  constructor
  · intro h n hn hretried
    obtain ⟨exc, hcreation, -⟩ := h n hn hretried
    have hraised : (replies n).creation = some exc := hcreation
    rw [hraised]
    exact Option.some_ne_none exc
  · exact fun h n hn hretried => refused_of_retried (h n hn hretried) (hretried n (Nat.le_refl n))

/-- A creation that is made on its own is repeated only when it was refused. -/
theorem retriesRefused_create (budget : Nat) (replies : Nat → Except ExternalError α) :
    RetriesRefused ExternalError.isRetryable budget fun n => ProviderCall.create (replies n) := by
  intro n _ hretried
  have hlast := hretried n (Nat.le_refl n)
  refine refused_of_retried ?_ hlast
  obtain ⟨exc, houtcome, -⟩ := hlast
  have hreply : replies n = .error exc := houtcome
  simp [ProviderCall.create, hreply]

end Creations

namespace ReplicateVideoAdapter
variable (adapter : ReplicateVideoAdapter)

/-- The submits send a creation again only when it was refused. The run-style clip and assembly
do exactly where no retried call failed in its polls, LatentSync where each retried call failed
at a creation that was refused. -/
theorem creations_sent_once_iff :
    (∀ replies, SentOnce adapter.maxRetries.toNat (adapter.runClip replies) ↔
      PollsNotRetried adapter.maxRetries.toNat replies) ∧
    (∀ replies, SentOnce adapter.latentsyncMaxRetries.toNat (adapter.runLatentsync replies) ↔
      RetriesRefused ExternalError.isIdempotentRetryable adapter.latentsyncMaxRetries.toNat
        fun n => asyncRun (replies n)) ∧
    (∀ replies, SentOnce adapter.maxRetries.toNat (adapter.runAssembly replies) ↔
      PollsNotRetried adapter.maxRetries.toNat replies) ∧
    (∀ replies, SentOnce adapter.maxRetries.toNat (adapter.createClip replies)) ∧
    (∀ replies, SentOnce (max adapter.maxRetries 5).toNat (adapter.createLatentsync replies)) :=
  ⟨fun replies => (sentOnce_iff _ _ _).trans (retriesRefused_iff _ replies),
    fun _ => sentOnce_iff _ _ _,
    fun replies => (sentOnce_iff _ _ _).trans (retriesRefused_iff _ replies),
    fun replies => (sentOnce_iff _ _ _).mpr (retriesRefused_create _ replies),
    fun replies => (sentOnce_iff _ _ _).mpr (retriesRefused_create _ replies)⟩

/-- A LatentSync that is accepted, though its answer is lost. -/
def lostAnswer : RunReplies where
  creation := some { cls := .readTimeout, typeName := "ReadTimeout" }
  polls := []
  output := .ok .null

theorem latentsync_created_again :
    ¬ ∀ adapter : ReplicateVideoAdapter,
      (∀ replies, SentOnce adapter.maxRetries.toNat (adapter.runClip replies)) ∧
      (∀ replies, SentOnce adapter.latentsyncMaxRetries.toNat (adapter.runLatentsync replies)) ∧
      (∀ replies, SentOnce adapter.maxRetries.toNat (adapter.runAssembly replies)) ∧
      (∀ replies, SentOnce adapter.maxRetries.toNat (adapter.createClip replies)) ∧
      (∀ replies, SentOnce (max adapter.maxRetries 5).toNat
        (adapter.createLatentsync replies)) := by
  intro h
  have honce := (h { tiers := [] }).2.1 fun _ => lostAnswer
  have hmade : asyncRun lostAnswer
      ∈ [asyncRun lostAnswer, asyncRun lostAnswer, asyncRun lostAnswer] := List.mem_cons_self
  obtain ⟨exc, hcreation, hrefused⟩ := honce.again (asyncRun lostAnswer) hmade
  obtain rfl : { cls := .readTimeout, typeName := "ReadTimeout" } = exc := Option.some.inj hcreation
  rw [← ExternalError.isRetryable_iff] at hrefused
  exact absurd hrefused (by decide)

theorem submitClipPrediction_calls (tier : String)
    (replies : Nat → Except ExternalError VideoPrediction) :
    (adapter.submitClipPrediction tier replies).1 = [] ∨
      (adapter.submitClipPrediction tier replies).1 = (adapter.createClip replies).1 := by
  rw [submitClipPrediction, Traced.bind]
  cases adapter.clipModel tier with
  | error exc => exact .inl rfl
  | ok model => exact .inr (Traced.bind_quiet_calls _ _)

theorem submitLatentsyncPrediction_calls (replies : Nat → Except ExternalError VideoPrediction) :
    (adapter.submitLatentsyncPrediction replies).1 = (adapter.createLatentsync replies).1 :=
  Traced.bind_quiet_calls _ _

theorem assemble_calls (replies : Nat → RunReplies) :
    (adapter.assemble replies).1 = [] ∨
      (adapter.assemble replies).1 = (adapter.runAssembly replies).1 := by
  rw [assemble]
  split
  next => exact .inr (Traced.bind_quiet_calls _ _)
  next => exact .inl rfl

theorem generateClip_calls (tier : String) (audioUri stage : Option String)
    (clipReplies latentsyncReplies : Nat → RunReplies) :
    (adapter.generateClip tier audioUri stage clipReplies latentsyncReplies).1 = [] ∨
      (adapter.generateClip tier audioUri stage clipReplies latentsyncReplies).1
        = (adapter.runClip clipReplies).1.map .inl ∨
      (adapter.generateClip tier audioUri stage clipReplies latentsyncReplies).1
        = (adapter.runClip clipReplies).1.map .inl
          ++ (adapter.runLatentsync latentsyncReplies).1.map .inr := by
  rw [generateClip]
  split
  next => exact .inl rfl
  next => exact .inl rfl
  next model _ _ =>
      split
      next =>
          refine .inr ?_
          cases hclip : (adapter.runClip clipReplies).2 with
          | error exc => exact .inl (Traced.bind_calls_of_error hclip)
          | ok output =>
              have htag : (Traced.tag (Sum.inl (β := ProviderCall Json))
                  (adapter.runClip clipReplies)).2 = .ok output := hclip
              rw [Traced.bind_calls_of_ok htag]
              cases huri : coerceOutput output with
              | error exc => exact .inl (List.append_nil _)
              | ok uri =>
                  have hquiet : (Traced.quiet (κ := ProviderCall Json ⊕ ProviderCall Json)
                      (Except.ok (ε := ExternalError) uri)).2 = .ok uri := rfl
                  rw [Traced.bind_calls_of_ok hquiet]
                  split
                  next =>
                      rw [Traced.bind_quiet_calls]
                      exact .inr rfl
                  next => exact .inl (List.append_nil _)
      next => exact .inl rfl

end ReplicateVideoAdapter

end Orchestrator
