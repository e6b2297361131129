import Mathlib.Algebra.Order.Ring.Unbundled.Rat
import Orchestrator.Db.Effects
import Orchestrator.Lib.Alone

/-!
What the tools run on: exceptions, awaited calls and the tool context.

A tool is a program over the ledger. Every `await` on the ledger is one atomic
call, every other `await` is a call whose answer comes from outside. Clock
readings are awaited calls too, so nothing is assumed about time.
-/

namespace Orchestrator

/-- The classes of foreign exceptions that `except` clauses tell apart. -/
inductive ExternalClass where
  | connectError | connectTimeout | poolTimeout
  | readError | readTimeout | writeError | writeTimeout
  /-- Any other `httpx.TransportError`. -/
  | transportError
  | httpStatusError | replicateError
  | runtimeError
  | other
  deriving DecidableEq, Repr

namespace ExternalClass

/-- `isinstance(exc, (ConnectError, ConnectTimeout, PoolTimeout))`. -/
def unreachable : ExternalClass → Bool
  | .connectError | .connectTimeout | .poolTimeout => true
  | _ => false

/-- `_AMBIGUOUS_CREATE_ERRORS`. -/
def ambiguousCreate : ExternalClass → Bool
  | .readError | .readTimeout | .writeError | .writeTimeout => true
  | _ => false

/-- `isinstance(exc, (HTTPStatusError, ReplicateError))`. -/
def rejection : ExternalClass → Bool
  | .httpStatusError | .replicateError => true
  | _ => false

/-- `isinstance(exc, (TransportError, HTTPStatusError, ReplicateError))`. -/
def providerOutage (c : ExternalClass) : Bool :=
  c.unreachable || c.ambiguousCreate || c.rejection || c = .transportError

end ExternalClass

structure ExternalError where
  cls : ExternalClass
  typeName : String
  text : String := ""
  cause : Option ExternalClass := none
  /-- The attribute `status_code`, whose value need not be an integer. -/
  statusCode : Option (Option Int) := none
  /-- The attribute `status` of a `ReplicateError`, when it is an integer. -/
  status : Option Int := none
  /-- `exc.response.status_code` of an `HTTPStatusError`. -/
  responseStatus : Int := 0
  detail : Option String := none
  /-- What the body of an `HTTPStatusError` yields as its detail. -/
  responseDetail : Option String := none
  deriving DecidableEq, Repr

inductive PyExc where
  | ledger (exc : LedgerError)
  | runtimeError (message : String)
  | videoEffect (code : String) (retryable uncertain : Bool)
      (errorType effectKey provider : String)
  | external (exc : ExternalError)
  deriving DecidableEq, Repr

/-- `type(exc).__name__`. -/
def PyExc.typeName : PyExc → String
  | .ledger exc => exc.typeName
  | .runtimeError _ => "RuntimeError"
  | .videoEffect .. => "VideoEffectError"
  | .external exc => exc.typeName

structure Artifact where
  kind : String
  uri : String
  metadata : Json := .obj []
  deriving DecidableEq

/-- `artifact.model_dump(mode="json")`. -/
def Artifact.modelDump (a : Artifact) : Json :=
  .obj [("kind", .str a.kind), ("uri", .str a.uri), ("meta", a.metadata)]

structure VideoPrediction where
  id : String
  status : String
  output : Json := .null
  error : Option String := none
  deriving DecidableEq

inductive ToolCall where
  | operation (ledger : Option OrganizationId) (effectKey : String)
  | reconcile (effectKey : String)
  | submit (ledger : OrganizationId) (effectKey webhookUrl : String)
  | getVideoPrediction (predictionId : String)
  | cancelVideoPrediction (predictionId : String)
  | persist (effectKey : String) (artifact : Artifact)
  | monotonic
  | sleep (seconds : Rat)
  deriving DecidableEq

/-- What a call gives back; an awaited call may raise. -/
abbrev ToolCall.Answer : ToolCall → Type
  | .operation _ _ | .reconcile _ => Except ExternalError Json
  | .submit _ _ _ | .getVideoPrediction _ | .cancelVideoPrediction _ =>
      Except ExternalError VideoPrediction
  | .persist _ _ => Except ExternalError Artifact
  | .monotonic => Rat
  | .sleep _ => Unit

abbrev toolSignature : Signature where
  Op := LedgerCall
  Reply c := Except LedgerError c.Value
  Call := ToolCall
  Answer := ToolCall.Answer

/-- A coroutine: it returns or raises. -/
def Py (α : Type) : Type := Prog toolSignature (Except PyExc α)

namespace Py
variable {α β : Type}

def raise (exc : PyExc) : Py α := Prog.ret (.error exc)

instance : Monad Py where
  pure a := Prog.ret (.ok a)
  bind p f := Prog.bind p fun
    | .ok a => f a
    | .error exc => Prog.ret (.error exc)

/-- `try: ... except Exception as exc`, as a value to match on. -/
def attempt (p : Py α) : Py (Except PyExc α) := Prog.bind p (fun r => Prog.ret (.ok r))

/-- A loop that is still running when its fuel ends: the program has not
finished, and is not observed any further. -/
def stillRunning : Py α := Prog.hang

def ledger (org : OrganizationId) (op : EffectOp) : Py EffectReservation :=
  Prog.op (.effect org op) fun (r : Except LedgerError EffectReservation) =>
    Prog.ret (r.mapError .ledger)

def await (c : ToolCall) (decode : c.Answer → Except PyExc α) : Py α :=
  Prog.call c fun (a : c.Answer) => Prog.ret (decode a)

/-- A foreign exception passes through as it is. -/
def foreign (r : Except ExternalError α) : Except PyExc α := r.mapError .external

def operation (ledger : Option OrganizationId) (effectKey : String) : Py Json :=
  await (.operation ledger effectKey) foreign

def reconcile (effectKey : String) : Py Json := await (.reconcile effectKey) foreign

def submit (ledger : OrganizationId) (effectKey webhookUrl : String) : Py VideoPrediction :=
  await (.submit ledger effectKey webhookUrl) foreign

def getVideoPrediction (predictionId : String) : Py VideoPrediction :=
  await (.getVideoPrediction predictionId) foreign

def cancelVideoPrediction (predictionId : String) : Py VideoPrediction :=
  await (.cancelVideoPrediction predictionId) foreign

def persist (effectKey : String) (artifact : Artifact) : Py Artifact :=
  await (.persist effectKey artifact) foreign

def monotonic : Py Rat := await .monotonic .ok

def sleep (seconds : Rat) : Py Unit := await (.sleep seconds) .ok

end Py

section Rules
universe u
variable {γ : Type u} {α β : Type} (P : Protocol toolSignature γ)
  (post : γ → Except PyExc α → Prop) (g : γ)

@[simp] theorem follows_pure (a : α) : P.Follows (pure a : Py α) post g ↔ post g (.ok a) :=
  Iff.rfl

@[simp] theorem follows_raise (exc : PyExc) :
    P.Follows (Py.raise exc : Py α) post g ↔ post g (.error exc) :=
  Iff.rfl

theorem follows_ite (c : Prop) [Decidable c] (p q : Py α) :
    P.Follows (if c then p else q : Py α) post g ↔
      (c → P.Follows p post g) ∧ (¬ c → P.Follows q post g) := by
  split <;> rename_i h <;> simp [h]

theorem follows_bind_py (p : Py β) (f : β → Py α) :
    P.Follows (p >>= f : Py α) post g ↔
      P.Follows p (fun g' r =>
        (∀ a, r = .ok a → P.Follows (f a) post g') ∧
        ∀ exc, r = .error exc → post g' (.error exc)) g := by
  have h := P.follows_bind p (fun
    | .ok a => f a
    | .error exc => Prog.ret (.error exc)) post g
  refine h.trans ⟨fun h' => h'.mono ?_, fun h' => h'.mono ?_⟩
  · intro g' r hr
    refine ⟨?_, ?_⟩
    · rintro a rfl
      exact hr
    · rintro exc rfl
      exact hr
  · intro g' r hr
    cases r with
    | ok a => exact hr.1 a rfl
    | error exc => exact hr.2 exc rfl

theorem follows_attempt (p : Py β) (post : γ → Except PyExc (Except PyExc β) → Prop) :
    P.Follows p.attempt post g ↔ P.Follows p (fun g' r => post g' (.ok r)) g :=
  P.follows_bind p _ post g

theorem follows_ledger (org : OrganizationId) (op : EffectOp)
    (post : γ → Except PyExc EffectReservation → Prop) :
    P.Follows (Py.ledger org op) post g ↔
      P.mayOp g (.effect org op) ∧ ∀ r : Except LedgerError EffectReservation,
        P.mayReply (.effect org op) r →
        post (P.afterOp g (.effect org op) r) (r.mapError .ledger) :=
  Iff.rfl

theorem follows_await (c : ToolCall) (decode : c.Answer → Except PyExc α) :
    P.Follows (Py.await c decode) post g ↔
      P.mayCall g c ∧ ∀ a, post (P.afterAnswer (P.afterCall g c) c a) (decode a) :=
  Iff.rfl

end Rules

section Alone
variable {α β : Type}

section
variable (answers : Nat → (c : ToolCall) → c.Answer)

/-- One coroutine alone on the ledger, with the calls it made. -/
abbrev Py.alone (p : Py α) (s : Ledger) (n : Nat) :
    Option (Except PyExc α) × Ledger × List ToolCall :=
  Prog.runAlone LedgerCall.apply answers p s n

theorem alone_attempt_ledger (org : OrganizationId) (op : EffectOp)
    (f : Except PyExc EffectReservation → Py α) (s : Ledger) (n : Nat) :
    Py.alone answers ((Py.ledger org op).attempt >>= f) s n =
      Py.alone answers (f (((LedgerCall.effect org op).apply s).1.mapError .ledger))
        ((LedgerCall.effect org op).apply s).2 n := rfl

end

/-- What the world may answer while one coroutine runs, and what it may be asked. -/
structure World where
  allowed : ToolCall → Prop
  may : (c : ToolCall) → c.Answer → Prop

namespace World
variable (W : World) (s : Ledger)

/-- Alone in the world the coroutine ends with a result in `post`. -/
def Ensures (p : Py α) (post : Except PyExc α → Ledger → Prop) : Prop :=
  Prog.Ensures LedgerCall.apply W.allowed W.may p post s

variable {W s} {post : Except PyExc α → Ledger → Prop}

theorem Ensures.mono {p : Py α} {post' : Except PyExc α → Ledger → Prop}
    (h : W.Ensures s p post) (hpost : ∀ r s', post r s' → post' r s') :
    W.Ensures s p post' :=
  Prog.Ensures.mono h hpost

theorem ensures_pure {a : α} (h : post (.ok a) s) : W.Ensures s (pure a) post := h

theorem ensures_bind {p : Py β} {f : β → Py α}
    (h : W.Ensures s p fun r s' =>
      match r with
      | .ok b => W.Ensures s' (f b) post
      | .error exc => post (.error exc) s') : W.Ensures s (p >>= f) post := by
  refine (Prog.ensures_bind _ _ _ _ _ _ _).mpr (Prog.Ensures.mono h ?_)
  intro r s' hr
  cases r with
  | ok b => exact hr
  | error exc => exact hr

theorem ensures_attempt {p : Py β} {post : Except PyExc (Except PyExc β) → Ledger → Prop}
    (h : W.Ensures s p fun r s' => post (.ok r) s') : W.Ensures s p.attempt post :=
  (Prog.ensures_bind _ _ _ _ _ _ _).mpr h

theorem ensures_ledger {org : OrganizationId} {op : EffectOp}
    {post : Except PyExc EffectReservation → Ledger → Prop}
    (h : post (((LedgerCall.effect org op).apply s).1.mapError .ledger)
      ((LedgerCall.effect org op).apply s).2) : W.Ensures s (Py.ledger org op) post := h

theorem ensures_ledger_bind {org : OrganizationId} {op : EffectOp}
    {f : EffectReservation → Py α}
    (hok : ∀ reply : EffectReservation, ((LedgerCall.effect org op).apply s).1 = .ok reply →
      W.Ensures ((LedgerCall.effect org op).apply s).2 (f reply) post)
    (herror : ∀ exc, ((LedgerCall.effect org op).apply s).1 = .error exc →
      post (.error (.ledger exc)) ((LedgerCall.effect org op).apply s).2) :
    W.Ensures s (Py.ledger org op >>= f) post := by
  refine ensures_bind (ensures_ledger ?_)
  cases hr : ((LedgerCall.effect org op).apply s).1 with
  | ok reply => exact hok reply hr
  | error exc => exact herror exc hr

theorem ensures_await {c : ToolCall} {decode : c.Answer → Except PyExc α}
    (hc : W.allowed c) (h : ∀ a, W.may c a → post (decode a) s) :
    W.Ensures s (Py.await c decode) post :=
  ⟨hc, h⟩

end World

end Alone

/-- The part of `ToolContext`, of the pipeline and of the process environment
that the paid tools read. The ledger is named by its tenant. -/
structure ToolContext where
  runId : String
  effectLedger : Option OrganizationId
  durable : Bool
  /-- `ORCH_ENABLE_PAID_ADAPTERS`. -/
  enablePaidAdapters : String := ""
  /-- `pipeline["clip"]["timeout_ms"]`. -/
  timeoutMs : Option Rat := none
  /-- `pipeline["video"]["reconciliation_poll_seconds"]`. -/
  reconciliationPollSeconds : Option Rat := none
  publicApiBaseUrl : String := ""
  webhookCorrelationSecret : String := ""
  /-- The slugs of the run, of the ledger and of the environment. -/
  runOrganizationSlug : String := ""
  ledgerOrganizationSlug : String := ""
  environOrganizationSlug : String := ""
  buildEffectRef : (organizationSlug effectKey secret : String) → String

def ToolContext.paidAdaptersEnabled (ctx : ToolContext) : Bool :=
  PyStr.lower ctx.enablePaidAdapters ∈ ["1", "true", "yes"]

end Orchestrator
