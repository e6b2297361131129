import Orchestrator.Db.EffectLifecycle

/-!
The Replicate webhook: one event applied to the ledger.

The handler makes up to three ledger transactions. Between them any other caller
may commit, so a delivery advances by one transaction at a time;
`applyReplicateEvent` is the handler that nobody interrupts. The signature of a
request is taken as checked: an event is what an authentic body parses to.
-/

namespace Orchestrator

/-- Membership in `{"failed", "canceled"}`. -/
def PredictionStatus.lost : PredictionStatus → Bool
  | .failed | .canceled => true
  | _ => false

/-- `ReplicateWebhookEvent`; the parser hands out no other prediction ids. -/
structure ReplicateWebhookEvent where
  predictionId : String
  status : PredictionStatus
  nonEmpty : predictionId ≠ ""
  stripped : PyStr.strip predictionId = predictionId

inductive WebhookError where
  | webhook (message : String)
  | ledger (exc : LedgerError)
  deriving DecidableEq

/-- `str(payload.get(name) or "").strip()` -/
def strippedField (payload : Json) (name : String) : String :=
  PyStr.strip <| match payload.get? name with
    | some value => if value.truthy then PyStr.str value else ""
    | none => ""

/-- The end of `parse_and_verify_replicate_event`: the event in a signed body. -/
def parseReplicateEvent (payload : Json) : Except WebhookError ReplicateWebhookEvent :=
  match payload with
  | .obj _ =>
      let predictionId := strippedField payload "id"
      let status := PyStr.lower (strippedField payload "status")
      let status := if status = "cancelled" then "canceled" else status
      if h : predictionId = "" then .error (.webhook "webhook prediction id is missing")
      else
        match PredictionStatus.ofText? status with
        | none => .error (.webhook "webhook prediction status is invalid")
        | some status => .ok ⟨predictionId, status, h, PyStr.strip_strip _⟩
  | _ => .error (.webhook "invalid webhook JSON object")

/-- `before_values`, and what `after` is compared with. -/
def EffectReservation.values (r : EffectReservation) :
    EffectStatus × Option String × Option PredictionStatus :=
  (r.status, r.providerOperationId, r.providerStatus)

/-- `provider_status in {"failed", "canceled"} and status != "failed"` -/
def EffectReservation.toFail (r : EffectReservation) : Bool :=
  r.providerStatus.any (·.lost) && r.status ≠ .failed

namespace ReplicateWebhookEvent
variable (key : String) (event : ReplicateWebhookEvent)

/-- The second transaction, which reports the event, or the mismatch. -/
def reportOp (before : EffectReservation) : Except WebhookError EffectOp :=
  if before.providerOperationId = none then
    .ok (.bindProviderOperation key event.predictionId event.status.text)
  else if before.providerOperationId ≠ some event.predictionId then
    .error (.webhook "prediction id does not match correlated effect")
  else
    .ok (.updateProviderStatus key event.status.text
      (if event.status.lost then some "ReplicatePredictionError" else none))

/-- The third transaction: `f"provider_{after.provider_status}"`. -/
def failOp (after : EffectReservation) : EffectOp :=
  .markFailed key ("provider_" ++ (after.providerStatus.map (·.text)).getD "None") false
    (some "ReplicatePredictionError")

end ReplicateWebhookEvent

/-- Apply one event without regressing state; return whether state changed. -/
def applyReplicateEvent (org : OrganizationId) (key : String) (event : ReplicateWebhookEvent)
    (s : Ledger) : Except WebhookError Bool × Ledger :=
  match LedgerCall.apply (.effect org (.get key)) s with
  | (.error exc, s) => (.error (.ledger exc), s)
  | (.ok before, s) =>
      match event.reportOp key before with
      | .error exc => (.error exc, s)
      | .ok op =>
          match LedgerCall.apply (.effect org op) s with
          | (.error exc, s) => (.error (.ledger exc), s)
          | (.ok after, s) =>
              if after.toFail then
                match LedgerCall.apply (.effect org (ReplicateWebhookEvent.failOp key after)) s with
                | (.error exc, s) => (.error (.ledger exc), s)
                | (.ok _, s) => (.ok true, s)
              else (.ok (decide (before.values ≠ after.values)), s)

inductive DeliveryStage where
  | received
  | correlated (before : EffectReservation) (op : EffectOp)
  | failing (after : EffectReservation)
  /-- It returned, leaving the ledger as recorded. -/
  | returned (changed : Bool) (left : Ledger)
  | raised (exc : WebhookError)

/-- One delivery of an event; `wrote` records whether it changed the ledger. -/
structure Delivery where
  organizationId : OrganizationId
  effectKey : String
  event : ReplicateWebhookEvent
  stage : DeliveryStage := .received
  wrote : Bool := false

namespace Delivery

def committed (d : Delivery) (s s' : Ledger) (stage : DeliveryStage) : Delivery :=
  { d with stage, wrote := d.wrote || decide (s' ≠ s) }

def call (d : Delivery) (op : EffectOp) : LedgerCall := .effect d.organizationId op

def advance (d : Delivery) (s : Ledger) : Delivery × Ledger :=
  match d.stage with
  | .received =>
      match (d.call (.get d.effectKey)).apply s with
      | (.error exc, s') => (d.committed s s' (.raised (.ledger exc)), s')
      | (.ok before, s') =>
          match d.event.reportOp d.effectKey before with
          | .error exc => (d.committed s s' (.raised exc), s')
          | .ok op => (d.committed s s' (.correlated before op), s')
  | .correlated before op =>
      match (d.call op).apply s with
      | (.error exc, s') => (d.committed s s' (.raised (.ledger exc)), s')
      | (.ok after, s') =>
          if after.toFail then (d.committed s s' (.failing after), s')
          else
            (d.committed s s' (.returned (decide (before.values ≠ after.values)) s'), s')
  | .failing after =>
      match (d.call (ReplicateWebhookEvent.failOp d.effectKey after)).apply s with
      | (.error exc, s') => (d.committed s s' (.raised (.ledger exc)), s')
      | (.ok _, s') => (d.committed s s' (.returned true s'), s')
  | .returned _ _ | .raised _ => (d, s)

end Delivery

/-- What the handler gave its caller, once it is through. -/
def DeliveryStage.outcome? : DeliveryStage → Option (Except WebhookError Bool)
  | .returned changed _ => some (.ok changed)
  | .raised exc => some (.error exc)
  | _ => none

namespace Delivery
variable (d : Delivery) (s : Ledger)

def finish : Delivery × Ledger :=
  let first := d.advance s
  let second := first.1.advance first.2
  second.1.advance second.2

@[simp] theorem committed_stage (s' : Ledger) (stage : DeliveryStage) :
    (d.committed s s' stage).stage = stage := rfl

@[simp] theorem committed_organizationId (s' : Ledger) (stage : DeliveryStage) :
    (d.committed s s' stage).organizationId = d.organizationId := rfl

@[simp] theorem committed_effectKey (s' : Ledger) (stage : DeliveryStage) :
    (d.committed s s' stage).effectKey = d.effectKey := rfl

variable {d s}

theorem finish_of_steps {d₁ d₂ d₃ : Delivery} {s₁ s₂ s₃ : Ledger}
    (h₁ : d.advance s = (d₁, s₁)) (h₂ : d₁.advance s₁ = (d₂, s₂))
    (h₃ : d₂.advance s₂ = (d₃, s₃)) : d.finish s = (d₃, s₃) := by
  simp only [finish, h₁, h₂, h₃]

/-- A delivery that nobody interrupts is the handler. -/
theorem finish_eq (h : d.stage = .received) :
    (d.finish s).1.stage.outcome? =
        some (applyReplicateEvent d.organizationId d.effectKey d.event s).1 ∧
      (d.finish s).2 = (applyReplicateEvent d.organizationId d.effectKey d.event s).2 := by
  rcases hget : LedgerCall.apply (.effect d.organizationId (.get d.effectKey)) s with
    ⟨exc | before, s₁⟩
  · have h₁ : d.advance s = (d.committed s s₁ (.raised (.ledger exc)), s₁) := by
      simp only [advance, h, call, hget]
    rw [finish_of_steps h₁ rfl rfl]
    simp only [applyReplicateEvent, hget, committed_stage, DeliveryStage.outcome?, and_self]
  rcases hop : d.event.reportOp d.effectKey before with exc | op
  · have h₁ : d.advance s = (d.committed s s₁ (.raised exc), s₁) := by
      simp only [advance, h, call, hget, hop]
    rw [finish_of_steps h₁ rfl rfl]
    simp only [applyReplicateEvent, hget, hop, committed_stage, DeliveryStage.outcome?, and_self]
  have h₁ : d.advance s = (d.committed s s₁ (.correlated before op), s₁) := by
    simp only [advance, h, call, hget, hop]
  rcases hreport : LedgerCall.apply (.effect d.organizationId op) s₁ with ⟨exc | after, s₂⟩
  · have h₂ : (d.committed s s₁ (.correlated before op)).advance s₁ =
        ((d.committed s s₁ (.correlated before op)).committed s₁ s₂
          (.raised (.ledger exc)), s₂) := by
      simp only [advance, committed_stage, call, committed_organizationId, hreport]
    rw [finish_of_steps h₁ h₂ rfl]
    simp only [applyReplicateEvent, hget, hop, hreport, committed_stage, DeliveryStage.outcome?,
      and_self]
  cases htoFail : after.toFail with
  | false =>
      have h₂ : (d.committed s s₁ (.correlated before op)).advance s₁ =
          ((d.committed s s₁ (.correlated before op)).committed s₁ s₂
            (.returned (decide (before.values ≠ after.values)) s₂), s₂) := by
        simp only [advance, committed_stage, call, committed_organizationId, hreport, htoFail]
        rfl
      rw [finish_of_steps h₁ h₂ rfl]
      simp only [applyReplicateEvent, hget, hop, hreport, htoFail, committed_stage,
        DeliveryStage.outcome?]
      exact ⟨rfl, rfl⟩
  | true =>
      let d₂ := (d.committed s s₁ (.correlated before op)).committed s₁ s₂ (.failing after)
      have h₂ : (d.committed s s₁ (.correlated before op)).advance s₁ = (d₂, s₂) := by
        simp only [advance, committed_stage, call, committed_organizationId, hreport, htoFail,
          ↓reduceIte, d₂]
      rcases hfail : LedgerCall.apply (.effect d.organizationId
        (ReplicateWebhookEvent.failOp d.effectKey after)) s₂ with ⟨exc | reply, s₃⟩
      · have h₃ : d₂.advance s₂ = (d₂.committed s₂ s₃ (.raised (.ledger exc)), s₃) := by
          simp only [advance, d₂, committed_stage, call, committed_organizationId,
            committed_effectKey, hfail]
        rw [finish_of_steps h₁ h₂ h₃]
        simp only [applyReplicateEvent, hget, hop, hreport, htoFail, hfail, committed_stage,
          DeliveryStage.outcome?, ↓reduceIte, and_self]
      · have h₃ : d₂.advance s₂ = (d₂.committed s₂ s₃ (.returned true s₃), s₃) := by
          simp only [advance, d₂, committed_stage, call, committed_organizationId,
            committed_effectKey, hfail]
        rw [finish_of_steps h₁ h₂ h₃]
        simp only [applyReplicateEvent, hget, hop, hreport, htoFail, hfail, committed_stage,
          DeliveryStage.outcome?, ↓reduceIte, and_self]

end Delivery

/-- The ledger with the deliveries in progress, and a ghost: the effects that
were failed, once for every time. -/
structure Webhooks where
  ledger : Ledger
  deliveries : List Delivery
  decided : List (OrganizationId × String)

inductive WebhooksCall where
  /-- A call of anyone else: the poller, a node, an operator. -/
  | ledger (c : LedgerCall)
  | deliver (organizationId : OrganizationId) (effectKey : String)
      (event : ReplicateWebhookEvent)
  | advance (i : Nat)

namespace Webhooks

def empty : Webhooks := ⟨.empty, [], []⟩

/-- The effects that are failed in `s'` and were not in `s`. -/
def newlyFailed (s s' : Ledger) : List (OrganizationId × String) :=
  (s'.effects.rows.filter (fun e => e.status = .failed &&
    (s.effect? e.organizationId e.effectKey).all (fun e => e.status ≠ .failed))).map Effect.key

def commit (w : Webhooks) (s' : Ledger) : Webhooks :=
  { w with ledger := s', decided := w.decided ++ newlyFailed w.ledger s' }

end Webhooks

namespace WebhooksCall

def apply (c : WebhooksCall) (w : Webhooks) : Unit × Webhooks :=
  match c with
  | .ledger c => ((), w.commit (c.apply w.ledger).2)
  | .deliver organizationId effectKey event =>
      ((), { w with deliveries := w.deliveries ++ [{ organizationId, effectKey, event }] })
  | .advance i =>
      match w.deliveries[i]? with
      | none => ((), w)
      | some d =>
          let moved := d.advance w.ledger
          ((), { w.commit moved.2 with deliveries := w.deliveries.set i moved.1 })

end WebhooksCall

end Orchestrator
