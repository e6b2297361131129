import Orchestrator.Tools.Runtime

/-!
`execute_paid_effect`: one durable paid effect through quota reservation and
replay. The closures `operation` and `reconcile` are awaited calls named after
the effect they belong to.
-/

namespace Orchestrator

def definitelyNotBilled : PyExc → Bool
  | .external exc =>
      if exc.cls.unreachable then true
      else if exc.cause.any ExternalClass.unreachable then true
      else
        match exc.statusCode with
        | some (some status) => 400 ≤ status && status < 500
        | some none => false
        | none => exc.cls = .httpStatusError && 400 ≤ exc.responseStatus &&
            exc.responseStatus < 500
  | _ => false

/-- The arguments of one call of `execute_paid_effect`; `reconcile` tells
whether a reconciliation was passed. -/
structure PaidEffect where
  effectKey : String
  provider : String
  units : Int
  request : Json
  reconcile : Bool

namespace PaidEffect

/-- `reconciled = await reconcile(); await ledger.mark_reconciled(...)`. -/
def reconcileAndMark (e : PaidEffect) (ledger : OrganizationId) : Py Json := do
  let reconciled ← Py.reconcile e.effectKey
  let _ ← Py.ledger ledger (.markReconciled e.effectKey reconciled)
  return reconciled

/-- The part of `execute_paid_effect` that this execution alone may run: it
created the reservation. -/
def payAndMark (e : PaidEffect) (ledger : OrganizationId) : Py Json := do
  match ← (Py.operation ledger e.effectKey).attempt with
  | .error exc => do
      if definitelyNotBilled exc then
        let _ ← Py.ledger ledger (.markFailed e.effectKey exc.typeName true none)
        Py.raise exc
      else
        let _ ← Py.ledger ledger (.markUncertain e.effectKey exc.typeName none)
        Py.raise exc
  | .ok result => do
      let _ ← Py.ledger ledger (.markSucceeded e.effectKey result)
      return result

end PaidEffect

def noReplayResult (effectKey : String) : PyExc :=
  .runtimeError ("paid effect " ++ PyStr.repr effectKey ++ " has no replay result")

/-- What follows the reservation, by its status. -/
def PaidEffect.replayOrPay (e : PaidEffect) (ledger : OrganizationId)
    (reservation : EffectReservation) : Py Json :=
  if reservation.status = .succeeded then
    match reservation.result.filter Json.isNonEmptyDict with
    | none => Py.raise (noReplayResult e.effectKey)
    | some result => return result
  else if reservation.status = .uncertain ∧ e.reconcile then
    e.reconcileAndMark ledger
  else if ¬ reservation.created then do
    let _ ← Py.ledger ledger (.markUncertain e.effectKey
      "reserved effect replayed without a completed result" none)
    Py.raise (.runtimeError ("paid effect " ++ PyStr.repr e.effectKey ++ " is ambiguous"))
  else e.payAndMark ledger

def executePaidEffect (ctx : ToolContext) (e : PaidEffect) : Py Json :=
  if ¬ ctx.durable then Py.operation ctx.effectLedger e.effectKey
  else if ¬ ctx.paidAdaptersEnabled then
    Py.raise (.runtimeError
      "durable paid adapters require ORCH_ENABLE_PAID_ADAPTERS=true")
  else
    match ctx.effectLedger with
    | none => Py.raise (.runtimeError "durable paid adapters require PostgresEffectLedger")
    | some ledger => do
        match ← (Py.ledger ledger
            (.reserve e.effectKey ctx.runId e.provider e.units e.request)).attempt with
        | .error exc =>
            if exc.typeName ≠ "UncertainEffectError" ∨ ¬ e.reconcile then Py.raise exc
            else e.reconcileAndMark ledger
        | .ok reservation => e.replayOrPay ledger reservation

end Orchestrator
