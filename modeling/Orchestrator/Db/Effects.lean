import Orchestrator.Lib.Json
import Orchestrator.Lib.KeyedTable
import Orchestrator.Lib.PyStr

/-!
The paid-effect ledger: provider quotas and idempotent external effects.

Every method is one transaction on the two tables. A transaction that raises is
rolled back, so a method returns either an exception or a reply with the new
ledger. The column constraints of the tables are not tested here: that no
method ever violates them is proved from the guards alone.
-/

namespace Orchestrator

abbrev OrganizationId := String

/-- The canonical status vocabulary of provider predictions. -/
inductive PredictionStatus where
  | starting | processing | succeeded | failed | canceled
  deriving DecidableEq, Repr

namespace PredictionStatus

def text : PredictionStatus → String
  | .starting => "starting"
  | .processing => "processing"
  | .succeeded => "succeeded"
  | .failed => "failed"
  | .canceled => "canceled"

def ofText? (s : String) : Option PredictionStatus :=
  [starting, processing, succeeded, failed, canceled].find? (fun p => p.text = s)

/-- Membership in `TERMINAL_PREDICTION_STATUSES`. -/
def terminal : PredictionStatus → Bool
  | .succeeded | .failed | .canceled => true
  | .starting | .processing => false

/-- `_PROVIDER_STATUS_ORDER`; the terminal statuses have no entry there and are
never compared. -/
def order : PredictionStatus → Nat
  | .starting => 0
  | _ => 1

end PredictionStatus

inductive EffectStatus where
  | reserved | succeeded | uncertain | failed
  deriving DecidableEq, Repr

def EffectStatus.text : EffectStatus → String
  | .reserved => "reserved"
  | .succeeded => "succeeded"
  | .uncertain => "uncertain"
  | .failed => "failed"

structure Effect where
  organizationId : OrganizationId
  effectKey : String
  runId : String
  provider : String
  units : Int
  status : EffectStatus
  request : Json
  result : Option Json := none
  error : Option String := none
  errorType : Option String := none
  providerOperationId : Option String := none
  providerStatus : Option PredictionStatus := none
  deriving DecidableEq

/-- The primary key of `external_effects`. -/
abbrev Effect.key (e : Effect) : OrganizationId × String := (e.organizationId, e.effectKey)

structure Quota where
  organizationId : OrganizationId
  provider : String
  limitUnits : Int
  usedUnits : Int := 0
  deriving DecidableEq

/-- The primary key of `provider_quotas`. -/
abbrev Quota.key (q : Quota) : OrganizationId × String := (q.organizationId, q.provider)

structure Ledger where
  effects : KeyedTable Effect.key
  quotas : KeyedTable Quota.key
  deriving DecidableEq

def Ledger.empty : Ledger := ⟨.empty, .empty⟩

structure EffectReservation where
  effectKey : String
  runId : String
  provider : String
  units : Int
  status : EffectStatus
  request : Json
  created : Bool
  result : Option Json := none
  error : Option String := none
  errorType : Option String := none
  providerOperationId : Option String := none
  providerStatus : Option PredictionStatus := none
  deriving DecidableEq

inductive LedgerError where
  | valueError (message : String)
  | quotaExceeded (message : String)
  | uncertainEffect (message : String)
  | uniqueViolation
  deriving DecidableEq, Repr

/-- `type(exc).__name__`. -/
def LedgerError.typeName : LedgerError → String
  | .valueError _ => "ValueError"
  | .quotaExceeded _ => "QuotaExceededError"
  | .uncertainEffect _ => "UncertainEffectError"
  | .uniqueViolation => "UniqueViolation"

def reservation (row : Effect) (created : Bool) : EffectReservation where
  effectKey := row.effectKey
  runId := row.runId
  provider := row.provider
  units := row.units
  status := row.status
  request := row.request
  created := created
  result := row.result
  error := row.error
  errorType := row.errorType
  providerOperationId := row.providerOperationId
  providerStatus := row.providerStatus

def mergeProviderStatus (current : Option PredictionStatus) (incoming : String) :
    Except LedgerError PredictionStatus :=
  let text := PyStr.lower (PyStr.strip incoming)
  match PredictionStatus.ofText? text with
  | none => .error (.valueError ("provider status inválido: " ++ PyStr.repr text))
  | some incoming =>
      match current with
      | none => .ok incoming
      | some current =>
          if current.terminal then .ok current
          else if incoming.terminal then .ok incoming
          else .ok (if incoming.order ≥ current.order then incoming else current)

/-- `**({"error_type": error_type[:200]} if error_type else {})`. -/
def setErrorType (errorType old : Option String) : Option String :=
  match errorType with
  | some text => if text = "" then old else some (PyStr.prefixTo 200 text)
  | none => old

def effectMissing (effectKey : String) : LedgerError :=
  .valueError ("efeito " ++ PyStr.repr effectKey ++ " inexistente")

namespace Ledger

/-- The row of one effect of the tenant, as `SELECT ... WHERE` finds it. -/
def effect? (s : Ledger) (org : OrganizationId) (effectKey : String) : Option Effect :=
  s.effects.find? (org, effectKey)

/-- The row an `UPDATE ... WHERE status = ... RETURNING` touches. -/
def effectIn? (s : Ledger) (org : OrganizationId) (effectKey : String)
    (status : EffectStatus) : Option Effect :=
  (s.effect? org effectKey).filter (fun row => row.status = status)

def quota? (s : Ledger) (org : OrganizationId) (provider : String) : Option Quota :=
  s.quotas.find? (org, provider)

def updateEffect (s : Ledger) (org : OrganizationId) (effectKey : String)
    (set : Effect → Effect) (hset : ∀ row, (set row).key = row.key) : Ledger :=
  { s with effects := s.effects.update (org, effectKey) set hset }

def updateQuota (s : Ledger) (org : OrganizationId) (provider : String)
    (set : Quota → Quota) (hset : ∀ q, (set q).key = q.key) : Ledger :=
  { s with quotas := s.quotas.update (org, provider) set hset }

def addUsed (s : Ledger) (org : OrganizationId) (provider : String) (units : Int) : Ledger :=
  s.updateQuota org provider (fun q => { q with usedUnits := q.usedUnits + units })
    (fun _ => rfl)

end Ledger

namespace PostgresEffectLedger

def get (org : OrganizationId) (effectKey : String) (s : Ledger) :
    Except LedgerError (EffectReservation × Ledger) :=
  match s.effect? org effectKey with
  | none => .error (effectMissing effectKey)
  | some row => .ok (reservation row false, s)

def setQuota (org : OrganizationId) (provider : String) (limitUnits : Int) (s : Ledger) :
    Except LedgerError (Unit × Ledger) :=
  if limitUnits < 0 then .error (.valueError "quota não pode ser negativa")
  else
    match s.quotas.insert? { organizationId := org, provider, limitUnits } with
    | some quotas => .ok ((), { s with quotas })
    | none =>
        -- ON CONFLICT DO UPDATE ... WHERE used_units <= limit_units
        match (s.quota? org provider).filter (fun q => q.usedUnits ≤ limitUnits) with
        | none =>
            .error (.quotaExceeded ("quota " ++ toString limitUnits ++
              " menor que o consumo atual de " ++ provider))
        | some _ =>
            .ok ((), s.updateQuota org provider (fun q => { q with limitUnits }) (fun _ => rfl))

def reserve (org : OrganizationId) (effectKey runId provider : String) (units : Int)
    (request : Json) (s : Ledger) : Except LedgerError (EffectReservation × Ledger) :=
  if units ≤ 0 then .error (.valueError "units deve ser positivo")
  else
    match s.quota? org provider with
    | none =>
        .error (.quotaExceeded
          ("quota não configurada para provider " ++ PyStr.repr provider))
    | some quota =>
        match s.effect? org effectKey with
        | some row =>
            let existing := reservation row false
            if (existing.runId, existing.provider, existing.units, existing.request) ≠
                (runId, provider, units, request) then
              .error (.valueError ("effect_key " ++ PyStr.repr effectKey ++
                " reutilizada com payload diferente"))
            else if existing.status = .uncertain then
              .error (.uncertainEffect ("efeito incerto " ++ PyStr.repr effectKey ++
                " exige reconciliação"))
            else .ok (existing, s)
        | none =>
            if quota.usedUnits + units > quota.limitUnits then
              .error (.quotaExceeded ("quota de " ++ PyStr.repr provider ++ " excedida: " ++
                toString (quota.usedUnits + units) ++ "/" ++ toString quota.limitUnits))
            else
              match s.effects.insert?
                  { organizationId := org, effectKey, runId, provider, units,
                    status := .reserved, request } with
              | none => .error .uniqueViolation
              | some effects =>
                  .ok ({ effectKey, runId, provider, units, status := .reserved, request,
                         created := true },
                    ({ s with effects } : Ledger).addUsed org provider units)

def markUncertain (org : OrganizationId) (effectKey error : String)
    (errorType : Option String) (s : Ledger) :
    Except LedgerError (EffectReservation × Ledger) :=
  let set (row : Effect) : Effect :=
    { row with
      status := .uncertain
      error := some (PyStr.prefixTo 2000 error)
      errorType := setErrorType errorType row.errorType }
  match s.effectIn? org effectKey .reserved with
  | some row =>
      .ok (reservation (set row) false,
        s.updateEffect org effectKey set (fun _ => rfl))
  | none =>
      match s.effect? org effectKey with
      | none => .error (effectMissing effectKey)
      | some row => .ok (reservation row false, s)

def bindProviderOperation (org : OrganizationId)
    (effectKey providerOperationId providerStatus : String) (s : Ledger) :
    Except LedgerError (EffectReservation × Ledger) :=
  let operationId := PyStr.strip providerOperationId
  if operationId = "" then .error (.valueError "provider_operation_id não pode ser vazio")
  else
    match s.effect? org effectKey with
    | none => .error (effectMissing effectKey)
    | some current =>
        if current.providerOperationId ≠ none ∧
            current.providerOperationId ≠ some operationId then
          .error (.valueError ("efeito " ++ PyStr.repr effectKey ++ " já vinculado a " ++
            PyStr.repr (current.providerOperationId.getD "")))
        else if s.effects.rows.any (fun other =>
            other.organizationId = org && other.provider = current.provider &&
            other.providerOperationId = some operationId && other.effectKey ≠ effectKey) then
          .error (.valueError ("provider operation " ++ PyStr.repr operationId ++
            " já vinculada a outro efeito"))
        else
          match mergeProviderStatus current.providerStatus providerStatus with
          | .error exc => .error exc
          | .ok merged =>
              let set (row : Effect) : Effect :=
                { row with
                  providerOperationId := some operationId
                  providerStatus := some merged
                  status := if current.status = .uncertain then .reserved
                    else current.status }
              .ok (reservation (set current) false,
                s.updateEffect org effectKey set (fun _ => rfl))

def updateProviderStatus (org : OrganizationId) (effectKey providerStatus : String)
    (errorType : Option String) (s : Ledger) :
    Except LedgerError (EffectReservation × Ledger) :=
  match s.effect? org effectKey with
  | none => .error (effectMissing effectKey)
  | some current =>
      match mergeProviderStatus current.providerStatus providerStatus with
      | .error exc => .error exc
      | .ok merged =>
          let set (row : Effect) : Effect :=
            { row with
              providerStatus := some merged
              errorType := setErrorType errorType row.errorType }
          .ok (reservation (set current) false,
            s.updateEffect org effectKey set (fun _ => rfl))

def markSucceeded (org : OrganizationId) (effectKey : String) (result : Json)
    (s : Ledger) : Except LedgerError (EffectReservation × Ledger) :=
  let set (row : Effect) : Effect :=
    { row with
      status := .succeeded
      result := some result
      providerStatus := some .succeeded }
  match s.effectIn? org effectKey .reserved with
  | some row =>
      .ok (reservation (set row) false,
        s.updateEffect org effectKey set (fun _ => rfl))
  | none =>
      match s.effect? org effectKey with
      | none => .error (effectMissing effectKey)
      | some row =>
          if row.status ≠ .succeeded then
            .error (.uncertainEffect ("efeito " ++ PyStr.repr effectKey ++
              " não pode ser concluído a partir de " ++ PyStr.repr row.status.text))
          else .ok (reservation row false, s)

/-- Mark a definitive failure; release quota at most once when unbilled. -/
def markFailed (org : OrganizationId) (effectKey error : String) (releaseQuota : Bool)
    (errorType : Option String) (s : Ledger) :
    Except LedgerError (EffectReservation × Ledger) :=
  let set (row : Effect) : Effect :=
    { row with
      status := .failed
      error := some (PyStr.prefixTo 2000 error)
      errorType := setErrorType errorType row.errorType }
  match s.effectIn? org effectKey .reserved with
  | some row =>
      let marked := s.updateEffect org effectKey set (fun _ => rfl)
      .ok (reservation (set row) false,
        if releaseQuota then marked.addUsed org row.provider (-row.units) else marked)
  | none =>
      match s.effect? org effectKey with
      | none => .error (effectMissing effectKey)
      | some row =>
          if row.status ≠ .failed then
            .error (.uncertainEffect ("efeito " ++ PyStr.repr effectKey ++
              " não pode falhar a partir de " ++ PyStr.repr row.status.text))
          else .ok (reservation row false, s)

/-- Resolve an uncertain effect only from a unique provider-side match. -/
def markReconciled (org : OrganizationId) (effectKey : String) (result : Json)
    (s : Ledger) : Except LedgerError (EffectReservation × Ledger) :=
  let set (row : Effect) : Effect :=
    { row with
      status := .succeeded
      result := some result
      providerStatus := some .succeeded }
  match s.effectIn? org effectKey .uncertain with
  | some row =>
      .ok (reservation (set row) false,
        s.updateEffect org effectKey set (fun _ => rfl))
  | none =>
      .error (.uncertainEffect ("efeito " ++ PyStr.repr effectKey ++
        " não está disponível para reconciliação"))

end PostgresEffectLedger

/-- The methods of `PostgresEffectLedger` that run one transaction on an effect. -/
inductive EffectOp where
  | get (effectKey : String)
  | reserve (effectKey runId provider : String) (units : Int) (request : Json)
  | markUncertain (effectKey error : String) (errorType : Option String)
  | bindProviderOperation (effectKey providerOperationId providerStatus : String)
  | updateProviderStatus (effectKey providerStatus : String) (errorType : Option String)
  | markSucceeded (effectKey : String) (result : Json)
  | markFailed (effectKey error : String) (releaseQuota : Bool) (errorType : Option String)
  | markReconciled (effectKey : String) (result : Json)
  deriving DecidableEq

/-- The effect a method is called for. -/
def EffectOp.effectKey : EffectOp → String
  | .get key | .reserve key .. | .markUncertain key .. | .bindProviderOperation key ..
  | .updateProviderStatus key .. | .markSucceeded key _ | .markFailed key ..
  | .markReconciled key _ => key

def EffectOp.transact (org : OrganizationId) :
    EffectOp → Ledger → Except LedgerError (EffectReservation × Ledger)
  | .get key => PostgresEffectLedger.get org key
  | .reserve key runId provider units request =>
      PostgresEffectLedger.reserve org key runId provider units request
  | .markUncertain key error errorType =>
      PostgresEffectLedger.markUncertain org key error errorType
  | .bindProviderOperation key operationId status =>
      PostgresEffectLedger.bindProviderOperation org key operationId status
  | .updateProviderStatus key status errorType =>
      PostgresEffectLedger.updateProviderStatus org key status errorType
  | .markSucceeded key result => PostgresEffectLedger.markSucceeded org key result
  | .markFailed key error releaseQuota errorType =>
      PostgresEffectLedger.markFailed org key error releaseQuota errorType
  | .markReconciled key result => PostgresEffectLedger.markReconciled org key result

/-- One method call on the ledger of one tenant. -/
inductive LedgerCall where
  | setQuota (organizationId : OrganizationId) (provider : String) (limitUnits : Int)
  | effect (organizationId : OrganizationId) (op : EffectOp)
  deriving DecidableEq

namespace LedgerCall

/-- `set_quota` returns nothing, every other method a reservation. -/
abbrev Value : LedgerCall → Type
  | .setQuota _ _ _ => Unit
  | .effect _ _ => EffectReservation

def transact : (c : LedgerCall) → Ledger → Except LedgerError (c.Value × Ledger)
  | .setQuota org provider limitUnits =>
      PostgresEffectLedger.setQuota org provider limitUnits
  | .effect org op => op.transact org

/-- The call as its caller sees it: the value or the exception, and the ledger
after the commit or the rollback. -/
def apply (c : LedgerCall) (s : Ledger) : Except LedgerError c.Value × Ledger :=
  match c.transact s with
  | .ok (value, s') => (.ok value, s')
  | .error exc => (.error exc, s)

/-- The same call in a run that only keeps whether it raised. -/
def step (c : LedgerCall) (s : Ledger) : Option LedgerError × Ledger :=
  match c.apply s with
  | (.ok _, s') => (none, s')
  | (.error exc, s') => (some exc, s')

end LedgerCall

end Orchestrator
