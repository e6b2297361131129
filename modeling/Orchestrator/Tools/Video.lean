import Orchestrator.Tools.Runtime

/-!
The durable lifecycle of one video prediction: reserve, submit, bind, poll,
cancel on timeout, store the artifact.

The two polling loops take fuel. A loop whose fuel ends is still running, so a
statement about every history is one about every fuel.
-/

namespace Orchestrator

/-- `Artifact.model_validate`; a missing `meta` is an empty dictionary. -/
def Artifact.modelValidate (document : Json) : Except ExternalError Artifact :=
  match document.get? "kind", document.get? "uri", (document.get? "meta").getD (.obj []) with
  | some (.str kind), some (.str uri), .obj fields =>
      .ok { kind, uri, metadata := .obj fields }
  | _, _, _ => .error { cls := .other, typeName := "ValidationError" }

def PyExc.providerOutage : PyExc → Bool
  | .external exc => exc.cls.providerOutage
  | _ => false

/-- `prediction.status in TERMINAL_PREDICTION_STATUSES`. -/
def VideoPrediction.terminal (p : VideoPrediction) : Bool :=
  p.status ∈ ["succeeded", "failed", "canceled"]

/-- The first slug that is not empty. -/
def ToolContext.organizationSlug (ctx : ToolContext) : String :=
  PyStr.strip
    (if ctx.runOrganizationSlug ≠ "" then ctx.runOrganizationSlug
    else if ctx.ledgerOrganizationSlug ≠ "" then ctx.ledgerOrganizationSlug
    else ctx.environOrganizationSlug)

@[irreducible] def webhookUrl (ctx : ToolContext) (effectKey : String) : Py String :=
  let baseUrl := PyStr.rstripChar '/' (PyStr.strip ctx.publicApiBaseUrl)
  let secret := PyStr.strip ctx.webhookCorrelationSecret
  let organizationSlug := ctx.organizationSlug
  if baseUrl = "" ∨ secret = "" ∨ organizationSlug = "" then
    Py.raise (.runtimeError
      "durable Replicate video requires public URL, organization and correlation secret")
  else
    return baseUrl ++ "/webhooks/replicate/" ++ organizationSlug ++ "/" ++
      ctx.buildEffectRef organizationSlug effectKey secret

def videoTimeoutSeconds (ctx : ToolContext) : Rat :=
  max (ctx.timeoutMs.getD 900000 / 1000) (1 / 1000)

def videoPollSeconds (ctx : ToolContext) : Rat := max (ctx.reconciliationPollSeconds.getD 1) 0

/-- The loop of `wait_for_provider_operation`. -/
def waitLoop (ledger : OrganizationId) (effectKey : String) (deadline interval : Rat) :
    Nat → Py EffectReservation
  | 0 => Py.stillRunning
  | fuel + 1 => do
      let reservation ← Py.ledger ledger (.get effectKey)
      if reservation.providerOperationId.any (· ≠ "") then return reservation
      else
        let now ← Py.monotonic
        if deadline ≤ now then return reservation
        else
          let _ ← Py.sleep (max interval 0)
          waitLoop ledger effectKey deadline interval fuel

def waitForProviderOperation (fuel : Nat) (ledger : OrganizationId) (effectKey : String)
    (timeoutSeconds pollIntervalSeconds : Rat) : Py EffectReservation := do
  let now ← Py.monotonic
  waitLoop ledger effectKey (now + max timeoutSeconds 0) pollIntervalSeconds fuel

/-- The arguments of `_durable_prediction_lifecycle`; `persists` tells whether a
`persist_fn` was passed. -/
structure VideoEffect where
  effectKey : String
  provider : String
  units : Int
  request : Json
  artifactFn : VideoPrediction → Except ExternalError Artifact
  persists : Bool

namespace VideoEffect
variable (e : VideoEffect) (ctx : ToolContext) (ledger : OrganizationId) (fuel : Nat)

def error (code : String) (retryable uncertain : Bool) (errorType : String) : PyExc :=
  .videoEffect code retryable uncertain errorType e.effectKey "replicate"

/-- The wait after an ambiguous creation, or for an unbound reservation. -/
def waitForId (deadline : Rat) : Py (Option String) := do
  let now ← Py.monotonic
  let reservation ← waitForProviderOperation fuel ledger e.effectKey
    (max (deadline - now) 0) (videoPollSeconds ctx)
  return reservation.providerOperationId

/-- `error_msg` of a rejected creation. -/
def rejectionMessage (exc : ExternalError) : String :=
  let ofAttribute := exc.detail.filter (· ≠ "")
  let ofBody := if exc.cls = .httpStatusError then exc.responseDetail.filter (· ≠ "") else none
  let ofText := if PyStr.strip exc.text = "" then none else some exc.text
  match (ofAttribute.or ofBody).or ofText with
  | some detail => exc.typeName ++ ": " ++ detail
  | none => exc.typeName

/-- What follows the submission of a new prediction: its id, and the error type
under which an unresolved id is reported. -/
def afterSubmit (ambiguityErrorType : Option String) (deadline : Rat) :
    Except PyExc VideoPrediction → Py (Option String × Option String)
  | .ok prediction => do
      let _ ← Py.ledger ledger
        (.bindProviderOperation e.effectKey prediction.id prediction.status)
      return (some prediction.id, ambiguityErrorType)
  | .error (.external exc) =>
      if exc.cls.unreachable then do
        let _ ← Py.ledger ledger
          (.markFailed e.effectKey exc.typeName true (some exc.typeName))
        Py.raise (e.error "provider_unreachable" true false exc.typeName)
      else if exc.cls.rejection then
        let status := if exc.cls = .httpStatusError then some exc.responseStatus else exc.status
        if status.any (fun status => 400 ≤ status && status < 500) then do
          let _ ← Py.ledger ledger
            (.markFailed e.effectKey (rejectionMessage exc) true (some exc.typeName))
          Py.raise (e.error "provider_rejected" (status = some 429) false exc.typeName)
        else do
          let _ ← Py.ledger ledger
            (.markUncertain e.effectKey (rejectionMessage exc) (some exc.typeName))
          let predictionId ← e.waitForId ctx ledger fuel deadline
          return (predictionId, some exc.typeName)
      else if exc.cls.ambiguousCreate then do
        let _ ← Py.ledger ledger (.markUncertain e.effectKey exc.typeName (some exc.typeName))
        let predictionId ← e.waitForId ctx ledger fuel deadline
        return (predictionId, some exc.typeName)
      else Py.raise (.external exc)
  | .error exc => Py.raise exc

/-- `await submit_fn(_webhook_url(ctx, effect_key))`. -/
def submitFn : Py VideoPrediction := do
  let url ← webhookUrl ctx e.effectKey
  Py.submit ledger e.effectKey url

def submitNew (ambiguityErrorType : Option String) (deadline : Rat) :
    Py (Option String × Option String) := do
  let result ← (e.submitFn ctx ledger).attempt
  e.afterSubmit ctx ledger fuel ambiguityErrorType deadline result

def poll (predictionId : String) : Py VideoPrediction := do
  match ← (Py.getVideoPrediction predictionId).attempt with
  | .error exc =>
      if exc.providerOutage then do
        let _ ← Py.ledger ledger (.markUncertain e.effectKey exc.typeName (some exc.typeName))
        Py.raise (e.error "prediction_poll_unavailable" true true exc.typeName)
      else Py.raise exc
  | .ok prediction => do
      let _ ← Py.ledger ledger (.updateProviderStatus e.effectKey prediction.status none)
      return prediction

/-- Poll until the prediction is terminal or the deadline has passed. -/
def pollLoop (predictionId : String) (deadline : Rat) :
    Nat → Option VideoPrediction → Py (Option VideoPrediction)
  | 0, _ => Py.stillRunning
  | fuel + 1, prediction => do
      let now ← Py.monotonic
      if now < deadline then
        let prediction ← e.poll ledger predictionId
        if prediction.terminal then return some prediction
        else
          let _ ← Py.sleep (videoPollSeconds ctx)
          pollLoop predictionId deadline fuel (some prediction)
      else return prediction

/-- The body of the `try` that cancels a prediction after the deadline. -/
def cancel (predictionId : String) (prediction : Option VideoPrediction) :
    Py (Option VideoPrediction) := do
  let canceled ← Py.cancelVideoPrediction predictionId
  let _ ← Py.ledger ledger
    (.updateProviderStatus e.effectKey canceled.status (some "PredictionTimeout"))
  if canceled.status = "failed" ∨ canceled.status = "canceled" then
    let _ ← Py.ledger ledger (.markFailed e.effectKey ("provider_" ++ canceled.status) false
      (some "PredictionTimeout"))
    Py.raise (e.error ("prediction_" ++ canceled.status) false false "PredictionTimeout")
  else if canceled.status = "succeeded" then return some canceled
  else return prediction

/-- `persist_fn`, when there is one. -/
def persistFn (artifact : Artifact) : Py Artifact :=
  if e.persists then Py.persist e.effectKey artifact else return artifact

/-- Turn a succeeded prediction into its stored artifact and complete the effect. -/
def storeArtifact (prediction : VideoPrediction) : Py Artifact := do
  match e.artifactFn prediction with
  | .error exc =>
      if exc.cls = .runtimeError then do
        let _ ← Py.ledger ledger
          (.markFailed e.effectKey exc.typeName false (some exc.typeName))
        Py.raise (e.error "invalid_prediction_output" false false exc.typeName)
      else Py.raise (.external exc)
  | .ok artifact => do
      let artifact ← e.persistFn artifact
      let _ ← Py.ledger ledger (.markSucceeded e.effectKey
        (.obj [("provider_prediction_id", .str prediction.id),
          ("artifact", artifact.modelDump)]))
      return artifact

/-- The `except` clauses around the cancellation. -/
def cancelOrKeep (predictionId : String) (prediction : Option VideoPrediction) :
    Py (Option VideoPrediction) := do
  match ← (e.cancel ledger predictionId prediction).attempt with
  | .ok prediction => return prediction
  | .error exc => if exc.providerOutage then return prediction else Py.raise exc

/-- What happens when the deadline passed without a terminal status. -/
def afterDeadline (predictionId : String) (prediction : Option VideoPrediction) :
    Py Artifact := do
  let prediction ← e.cancelOrKeep ledger predictionId prediction
  match prediction.filter (·.status = "succeeded") with
  | some prediction => e.storeArtifact ledger prediction
  | none => do
      let _ ← Py.ledger ledger
        (.markUncertain e.effectKey "PredictionTimeout" (some "PredictionTimeout"))
      Py.raise (e.error "prediction_timeout" false true "PredictionTimeout")

def afterTerminal (prediction : VideoPrediction) : Py Artifact :=
  if prediction.status ≠ "succeeded" then do
    let error := (prediction.error.filter (· ≠ "")).getD ("provider_" ++ prediction.status)
    let _ ← Py.ledger ledger
      (.markFailed e.effectKey error false (some "ReplicatePredictionError"))
    Py.raise (e.error ("prediction_" ++ prediction.status) false false
      "ReplicatePredictionError")
  else e.storeArtifact ledger prediction

/-- From a known prediction id to the artifact. -/
def pollAndStore (predictionId : String) (deadline : Rat) : Py Artifact := do
  match ← e.pollLoop ctx ledger predictionId deadline fuel none with
  | some prediction =>
      if prediction.terminal then e.afterTerminal ledger prediction
      else e.afterDeadline ledger predictionId (some prediction)
  | none => e.afterDeadline ledger predictionId none

def replayArtifact (result : Option Json) : Py Artifact :=
  match ((result.bind (·.get? "artifact")).filter Json.truthy) with
  | none => Py.raise (.runtimeError
      ("paid video effect " ++ PyStr.repr e.effectKey ++ " has no replay artifact"))
  | some document =>
      match Artifact.modelValidate document with
      | .ok artifact => return artifact
      | .error exc => Py.raise (.external exc)

/-- `prediction_id` and `ambiguity_error_type` before the polling starts. -/
def resolveId (reservation : EffectReservation) (deadline : Rat) :
    Py (Option String × Option String) :=
  if reservation.created then
    e.submitNew ctx ledger fuel reservation.errorType deadline
  else if reservation.providerOperationId.any (· ≠ "") then
    return (reservation.providerOperationId, reservation.errorType)
  else do
    let predictionId ← e.waitForId ctx ledger fuel deadline
    return (predictionId, reservation.errorType)

def afterResolved (deadline : Rat) (resolved : Option String × Option String) :
    Py Artifact :=
  match resolved.1.filter (· ≠ "") with
  | none => Py.raise (e.error "prediction_id_unresolved" false true
      ((resolved.2.filter (· ≠ "")).getD "PredictionIdUnresolved"))
  | some predictionId => e.pollAndStore ctx ledger fuel predictionId deadline

def resumeFrom (reservation : EffectReservation) (deadline : Rat) : Py Artifact :=
  if reservation.status = .succeeded then e.replayArtifact reservation.result
  else do
    let resolved ← e.resolveId ctx ledger fuel reservation deadline
    e.afterResolved ctx ledger fuel deadline resolved

/-- The reservation of an uncertain effect is read instead of made. -/
def resumeUncertain (deadline : Rat) : Py Artifact := do
  let reservation ← Py.ledger ledger (.get e.effectKey)
  e.resumeFrom ctx ledger fuel reservation deadline

end VideoEffect

def durablePredictionLifecycle (fuel : Nat) (ctx : ToolContext) (e : VideoEffect) :
    Py Artifact :=
  match ctx.effectLedger with
  | none => Py.raise (.runtimeError "durable paid adapters require PostgresEffectLedger")
  | some ledger => do
      let now ← Py.monotonic
      let deadline := now + videoTimeoutSeconds ctx
      match ← (Py.ledger ledger
          (.reserve e.effectKey ctx.runId e.provider e.units e.request)).attempt with
      | .ok reservation => e.resumeFrom ctx ledger fuel reservation deadline
      | .error exc =>
          if exc.typeName ≠ "UncertainEffectError" then Py.raise exc
          else e.resumeUncertain ctx ledger fuel deadline

end Orchestrator
