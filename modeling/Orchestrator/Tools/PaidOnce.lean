import Orchestrator.Db.EffectTransitions
import Orchestrator.Tools.Base
import Orchestrator.Tools.Video

/-!
At most one paid submission per effect key.

The protocol has one bit: whether the program holds the right to pay for one
effect. Only a reservation that was created grants it, paying uses it up, and a
program without it may not pay. Both paid lifecycles follow the protocol. The
ledger creates the row of an effect at most once, so the right is granted at
most once over all programs and the whole history.
-/

namespace Orchestrator

/-- The calls that submit paid work for one effect of one tenant. -/
def ToolCall.paysFor (org : OrganizationId) (key : String) : ToolCall → Bool
  | .operation ledger effectKey => ledger = some org ∧ effectKey = key
  | .submit ledger effectKey _ => ledger = org ∧ effectKey = key
  | _ => false

/-- The reply tells its caller that it created the reservation of the effect. -/
def grants (org : OrganizationId) (key : String) :
    (c : LedgerCall) → Except LedgerError c.Value → Bool
  | .effect ledger (.reserve effectKey _ _ _ _), .ok reservation =>
      (ledger = org ∧ effectKey = key) && EffectReservation.created reservation
  | _, _ => false

def payProtocol (org : OrganizationId) (key : String) : Protocol toolSignature Bool where
  start := false
  mayReply := LedgerCall.CreatedByReserve
  mayHang _ := True
  mayOp _ _ := True
  afterOp g c r := g || grants org key c r
  mayCall g c := c.paysFor org key → g
  afterCall g c := g && !c.paysFor org key
  afterAnswer g _ _ := g

section Programs
variable (org : OrganizationId) (key : String)

/-- The program follows the protocol whether or not it holds the right. -/
def Unpaid {α : Type} (p : Py α) : Prop :=
  ∀ g, (payProtocol org key).Follows p (fun _ _ => True) g

variable {org key} {α β : Type}

theorem unpaid_pure (a : α) : Unpaid org key (pure a : Py α) := fun _ => trivial

theorem unpaid_raise (exc : PyExc) : Unpaid org key (Py.raise exc : Py α) := fun _ => trivial

theorem unpaid_stillRunning : Unpaid org key (Py.stillRunning : Py α) := fun _ => trivial

theorem unpaid_bind {p : Py β} {f : β → Py α} (hp : Unpaid org key p)
    (hf : ∀ b, Unpaid org key (f b)) : Unpaid org key (p >>= f) := by
  intro g
  rw [follows_bind_py]
  exact (hp g).mono fun g' r _ => ⟨fun b _ => hf b g', fun _ _ => trivial⟩

theorem unpaid_attempt {p : Py α} (hp : Unpaid org key p) : Unpaid org key p.attempt := by
  intro g
  rw [follows_attempt]
  exact hp g

theorem unpaid_ledger (ledger : OrganizationId) (op : EffectOp) :
    Unpaid org key (Py.ledger ledger op) :=
  fun _ => ⟨trivial, fun _ _ => trivial⟩

theorem unpaid_await {c : ToolCall} {decode : c.Answer → Except PyExc α}
    (hc : c.paysFor org key = false) : Unpaid org key (Py.await c decode) := by
  intro g
  refine ⟨?_, fun _ => trivial⟩
  intro hpays
  rw [hc] at hpays
  cases hpays

theorem unpaid_ite {c : Prop} [Decidable c] {p q : Py α} (hp : Unpaid org key p)
    (hq : Unpaid org key q) : Unpaid org key (if c then p else q) := by
  split
  · exact hp
  · exact hq

theorem unpaid_waitLoop (ledger : OrganizationId) (effectKey : String)
    (deadline interval : Rat) (fuel : Nat) :
    Unpaid org key (waitLoop ledger effectKey deadline interval fuel) := by
  induction fuel with
  | zero => exact unpaid_stillRunning
  | succ fuel ih =>
      refine unpaid_bind (unpaid_ledger ledger _) fun reservation => ?_
      refine unpaid_ite (unpaid_pure _) ?_
      refine unpaid_bind (unpaid_await rfl) fun now => ?_
      refine unpaid_ite (unpaid_pure _) ?_
      exact unpaid_bind (unpaid_await rfl) fun _ => ih

theorem unpaid_waitForProviderOperation (fuel : Nat) (ledger : OrganizationId)
    (effectKey : String) (timeout interval : Rat) :
    Unpaid org key (waitForProviderOperation fuel ledger effectKey timeout interval) :=
  unpaid_bind (unpaid_await rfl) fun _ => unpaid_waitLoop ledger effectKey _ _ fuel

section Video
variable (e : VideoEffect) (ctx : ToolContext) (ledger : OrganizationId) (fuel : Nat)

theorem unpaid_waitForId (deadline : Rat) :
    Unpaid org key (e.waitForId ctx ledger fuel deadline) := by
  refine unpaid_bind (unpaid_await rfl) fun now => ?_
  refine unpaid_bind (unpaid_waitForProviderOperation fuel ledger _ _ _) fun reservation => ?_
  exact unpaid_pure _

theorem unpaid_poll (predictionId : String) : Unpaid org key (e.poll ledger predictionId) := by
  refine unpaid_bind (unpaid_attempt (unpaid_await rfl)) fun r => ?_
  cases r with
  | error exc =>
      refine unpaid_ite ?_ (unpaid_raise exc)
      exact unpaid_bind (unpaid_ledger ledger _) fun _ => unpaid_raise _
  | ok prediction => exact unpaid_bind (unpaid_ledger ledger _) fun _ => unpaid_pure _

theorem unpaid_pollLoop (predictionId : String) (deadline : Rat)
    (prediction : Option VideoPrediction) :
    Unpaid org key (e.pollLoop ctx ledger predictionId deadline fuel prediction) := by
  induction fuel generalizing prediction with
  | zero => exact unpaid_stillRunning
  | succ fuel ih =>
      refine unpaid_bind (unpaid_await rfl) fun now => ?_
      refine unpaid_ite ?_ (unpaid_pure _)
      refine unpaid_bind (unpaid_poll e ledger predictionId) fun prediction => ?_
      refine unpaid_ite (unpaid_pure _) ?_
      exact unpaid_bind (unpaid_await rfl) fun _ => ih _

theorem unpaid_cancel (predictionId : String) (prediction : Option VideoPrediction) :
    Unpaid org key (e.cancel ledger predictionId prediction) := by
  refine unpaid_bind (unpaid_await rfl) fun canceled => ?_
  refine unpaid_bind (unpaid_ledger ledger _) fun _ => ?_
  refine unpaid_ite ?_ (unpaid_ite (unpaid_pure _) (unpaid_pure _))
  exact unpaid_bind (unpaid_ledger ledger _) fun _ => unpaid_raise _

theorem unpaid_persistFn (artifact : Artifact) : Unpaid org key (e.persistFn artifact) :=
  unpaid_ite (unpaid_await rfl) (unpaid_pure _)

theorem unpaid_storeArtifact (prediction : VideoPrediction) :
    Unpaid org key (e.storeArtifact ledger prediction) := by
  unfold VideoEffect.storeArtifact
  split
  · refine unpaid_ite ?_ (unpaid_raise _)
    exact unpaid_bind (unpaid_ledger ledger _) fun _ => unpaid_raise _
  · refine unpaid_bind (unpaid_persistFn e _) fun artifact => ?_
    exact unpaid_bind (unpaid_ledger ledger _) fun _ => unpaid_pure _

theorem unpaid_cancelOrKeep (predictionId : String) (prediction : Option VideoPrediction) :
    Unpaid org key (e.cancelOrKeep ledger predictionId prediction) := by
  refine unpaid_bind (unpaid_attempt (unpaid_cancel e ledger _ _)) fun r => ?_
  cases r with
  | ok prediction => exact unpaid_pure prediction
  | error exc => exact unpaid_ite (unpaid_pure prediction) (unpaid_raise exc)

theorem unpaid_afterDeadline (predictionId : String) (prediction : Option VideoPrediction) :
    Unpaid org key (e.afterDeadline ledger predictionId prediction) := by
  refine unpaid_bind (unpaid_cancelOrKeep e ledger _ _) fun prediction => ?_
  split
  · exact unpaid_storeArtifact e ledger _
  · exact unpaid_bind (unpaid_ledger ledger _) fun _ => unpaid_raise _

theorem unpaid_afterTerminal (prediction : VideoPrediction) :
    Unpaid org key (e.afterTerminal ledger prediction) := by
  refine unpaid_ite ?_ (unpaid_storeArtifact e ledger prediction)
  exact unpaid_bind (unpaid_ledger ledger _) fun _ => unpaid_raise _

theorem unpaid_pollAndStore (predictionId : String) (deadline : Rat) :
    Unpaid org key (e.pollAndStore ctx ledger fuel predictionId deadline) := by
  refine unpaid_bind (unpaid_pollLoop e ctx ledger fuel _ _ _) fun prediction => ?_
  cases prediction with
  | none => exact unpaid_afterDeadline e ledger predictionId none
  | some prediction =>
      refine unpaid_ite (unpaid_afterTerminal e ledger prediction) ?_
      exact unpaid_afterDeadline e ledger predictionId (some prediction)

theorem unpaid_replayArtifact (result : Option Json) :
    Unpaid org key (e.replayArtifact result) := by
  unfold VideoEffect.replayArtifact
  split
  · exact unpaid_raise _
  · split
    · exact unpaid_pure _
    · exact unpaid_raise _

theorem unpaid_afterResolved (deadline : Rat) (resolved : Option String × Option String) :
    Unpaid org key (e.afterResolved ctx ledger fuel deadline resolved) := by
  unfold VideoEffect.afterResolved
  split
  · exact unpaid_raise _
  · exact unpaid_pollAndStore e ctx ledger fuel _ deadline

theorem unpaid_afterSubmit (ambiguityErrorType : Option String) (deadline : Rat)
    (r : Except PyExc VideoPrediction) :
    Unpaid org key (e.afterSubmit ctx ledger fuel ambiguityErrorType deadline r) := by
  unfold VideoEffect.afterSubmit
  split
  · exact unpaid_bind (unpaid_ledger ledger _) fun _ => unpaid_pure _
  · refine unpaid_ite (unpaid_bind (unpaid_ledger ledger _) fun _ => unpaid_raise _) ?_
    refine unpaid_ite (unpaid_ite ?_ ?_) (unpaid_ite ?_ (unpaid_raise _))
    · exact unpaid_bind (unpaid_ledger ledger _) fun _ => unpaid_raise _
    · refine unpaid_bind (unpaid_ledger ledger _) fun _ => ?_
      exact unpaid_bind (unpaid_waitForId e ctx ledger fuel deadline) fun _ => unpaid_pure _
    · refine unpaid_bind (unpaid_ledger ledger _) fun _ => ?_
      exact unpaid_bind (unpaid_waitForId e ctx ledger fuel deadline) fun _ => unpaid_pure _
  · exact unpaid_raise _

end Video

theorem unpaid_reconcileAndMark (e : PaidEffect) (ledger : OrganizationId) :
    Unpaid org key (e.reconcileAndMark ledger) := by
  refine unpaid_bind (unpaid_await rfl) fun reconciled => ?_
  exact unpaid_bind (unpaid_ledger ledger _) fun _ => unpaid_pure _

section Paying
variable {ledger : OrganizationId} {g : Bool}

theorem payAndMark_follows (e : PaidEffect)
    (hg : ledger = org ∧ e.effectKey = key → g = true) :
    (payProtocol org key).Follows (e.payAndMark ledger) (fun _ _ => True) g := by
  unfold PaidEffect.payAndMark
  rw [follows_bind_py, follows_attempt, Py.operation, follows_await]
  refine ⟨?_, ?_⟩
  · intro hpays
    apply hg
    simpa [ToolCall.paysFor] using hpays
  · intro a
    refine ⟨?_, fun _ _ => trivial⟩
    intro r _
    cases r with
    | error exc =>
        refine unpaid_ite ?_ ?_ _ <;>
          exact unpaid_bind (unpaid_ledger ledger _) fun _ => unpaid_raise _
    | ok result => exact unpaid_bind (unpaid_ledger ledger _) (fun _ => unpaid_pure _) _

/-- The webhook address costs no await. -/
theorem webhookUrl_cases (ctx : ToolContext) (effectKey : String) :
    (∃ message, webhookUrl ctx effectKey = Py.raise (.runtimeError message)) ∨
      ∃ url, webhookUrl ctx effectKey = pure url := by
  unfold webhookUrl
  dsimp only
  split
  · exact Or.inl ⟨_, rfl⟩
  · exact Or.inr ⟨_, rfl⟩

theorem submitFn_follows (e : VideoEffect) (ctx : ToolContext)
    (hg : ledger = org ∧ e.effectKey = key → g = true) :
    (payProtocol org key).Follows (e.submitFn ctx ledger) (fun _ _ => True) g := by
  rw [VideoEffect.submitFn, follows_bind_py]
  obtain ⟨exc, h⟩ | ⟨url, h⟩ := webhookUrl_cases ctx e.effectKey
  · rw [h]
    exact ⟨fun _ h' => (by cases h'), fun _ _ => trivial⟩
  · rw [h]
    refine ⟨fun url' _ => ⟨?_, fun _ => trivial⟩, fun _ _ => trivial⟩
    intro hpays
    apply hg
    simpa [ToolCall.paysFor] using hpays

theorem submitNew_follows (e : VideoEffect) (ctx : ToolContext) (fuel : Nat)
    (ambiguityErrorType : Option String) (deadline : Rat)
    (hg : ledger = org ∧ e.effectKey = key → g = true) :
    (payProtocol org key).Follows (e.submitNew ctx ledger fuel ambiguityErrorType deadline)
      (fun _ _ => True) g := by
  rw [VideoEffect.submitNew, follows_bind_py, follows_attempt]
  refine (submitFn_follows e ctx hg).mono fun g' r _ => ⟨fun r' _ => ?_, fun _ _ => trivial⟩
  exact unpaid_afterSubmit e ctx ledger fuel ambiguityErrorType deadline r' g'

theorem replayOrPay_follows (e : PaidEffect) (reservation : EffectReservation)
    (hg : ledger = org ∧ e.effectKey = key → reservation.created = true → g = true) :
    (payProtocol org key).Follows (e.replayOrPay ledger reservation) (fun _ _ => True) g := by
  unfold PaidEffect.replayOrPay
  split
  · split
    · exact unpaid_raise _ g
    · exact unpaid_pure _ g
  split
  · exact unpaid_reconcileAndMark e ledger g
  split
  · exact unpaid_bind (unpaid_ledger ledger _) (fun _ => unpaid_raise _) g
  · rename_i hcreated
    exact payAndMark_follows e fun hkey => hg hkey (by simpa using hcreated)

theorem resumeFrom_follows (e : VideoEffect) (ctx : ToolContext) (fuel : Nat)
    (reservation : EffectReservation) (deadline : Rat)
    (hg : ledger = org ∧ e.effectKey = key → reservation.created = true → g = true) :
    (payProtocol org key).Follows (e.resumeFrom ctx ledger fuel reservation deadline)
      (fun _ _ => True) g := by
  unfold VideoEffect.resumeFrom
  split
  · exact unpaid_replayArtifact e _ g
  rw [follows_bind_py]
  have hresolve : (payProtocol org key).Follows
      (e.resolveId ctx ledger fuel reservation deadline) (fun _ _ => True) g := by
    unfold VideoEffect.resolveId
    split
    · rename_i hcreated
      exact submitNew_follows e ctx fuel _ deadline fun hkey => hg hkey hcreated
    split
    · exact unpaid_pure _ g
    · exact unpaid_bind (unpaid_waitForId e ctx ledger fuel deadline) (fun _ => unpaid_pure _) g
  refine hresolve.mono fun g' r _ => ⟨fun resolved _ => ?_, fun _ _ => trivial⟩
  exact unpaid_afterResolved e ctx ledger fuel deadline resolved g'

/-- A reservation that was only read grants nothing. -/
theorem unpaid_resumeUncertain (e : VideoEffect) (ctx : ToolContext)
    (ledger : OrganizationId) (fuel : Nat) (deadline : Rat) :
    Unpaid org key (e.resumeUncertain ctx ledger fuel deadline) := by
  intro g
  rw [VideoEffect.resumeUncertain, follows_bind_py, follows_ledger]
  refine ⟨trivial, fun r hr => ⟨?_, fun _ _ => trivial⟩⟩
  intro reservation hok
  refine resumeFrom_follows e ctx fuel reservation _ fun _ hcreated => ?_
  cases r with
  | error exc => cases hok
  | ok reservation' =>
      cases hok
      rw [show reservation.created = false from hr] at hcreated
      cases hcreated

/-- The reply to `reserve` is what decides whether the program may pay. -/
theorem granted_of_created {reservation : EffectReservation} {effectKey runId provider : String}
    {units : Int} {request : Json} (hkey : ledger = org ∧ effectKey = key)
    (hcreated : reservation.created = true) :
    (payProtocol org key).afterOp g
      (.effect ledger (.reserve effectKey runId provider units request))
      (.ok reservation : Except LedgerError EffectReservation) = true := by
  simp [payProtocol, grants, hkey, hcreated]

theorem executePaidEffect_follows (ctx : ToolContext) (e : PaidEffect)
    (hdurable : ctx.durable = true) :
    (payProtocol org key).Follows (executePaidEffect ctx e) (fun _ _ => True) g := by
  unfold executePaidEffect
  rw [if_neg (by simp [hdurable])]
  split
  · exact unpaid_raise _ g
  split
  · exact unpaid_raise _ g
  · rename_i ledger _
    rw [follows_bind_py, follows_attempt, follows_ledger]
    refine ⟨trivial, fun r _ => ⟨?_, fun _ _ => trivial⟩⟩
    rintro _ ⟨⟩
    cases r with
    | error exc =>
        exact unpaid_ite (unpaid_raise _) (unpaid_reconcileAndMark e ledger) _
    | ok reservation =>
        exact replayOrPay_follows e reservation fun hkey hcreated =>
          granted_of_created hkey hcreated

theorem durablePredictionLifecycle_follows (fuel : Nat) (ctx : ToolContext)
    (e : VideoEffect) :
    (payProtocol org key).Follows (durablePredictionLifecycle fuel ctx e)
      (fun _ _ => True) g := by
  unfold durablePredictionLifecycle
  split
  · exact unpaid_raise _ g
  · rename_i ledger _
    rw [follows_bind_py, Py.monotonic, follows_await]
    refine ⟨(by simp [payProtocol, ToolCall.paysFor]), fun now => ⟨?_, fun _ _ => trivial⟩⟩
    intro now' _
    rw [follows_bind_py, follows_attempt, follows_ledger]
    refine ⟨trivial, fun r _ => ⟨?_, fun _ _ => trivial⟩⟩
    rintro _ ⟨⟩
    cases r with
    | ok reservation =>
        exact resumeFrom_follows e ctx fuel reservation _ fun hkey hcreated =>
          granted_of_created hkey hcreated
    | error exc =>
        exact unpaid_ite (unpaid_raise _) (unpaid_resumeUncertain e ctx ledger fuel _) _

end Paying

end Programs

/-- An execution of `execute_paid_effect` in durable mode. -/
structure PaidExecution where
  ctx : ToolContext
  effect : PaidEffect
  durable : ctx.durable = true

def PaidExecution.prog (x : PaidExecution) : Prog toolSignature (Except PyExc Json) :=
  executePaidEffect x.ctx x.effect

/-- The executions that share the ledger: the two paid lifecycles, and any other
client of the ledger. -/
inductive Execution where
  | paidEffect (x : PaidExecution)
  | videoPrediction (fuel : Nat) (ctx : ToolContext) (e : VideoEffect)
  | ledgerCall (c : LedgerCall)

def Execution.prog : Execution → Prog toolSignature Unit
  | .paidEffect x => x.prog.bind fun _ => .ret ()
  | .videoPrediction fuel ctx e =>
      Prog.bind (durablePredictionLifecycle fuel ctx e) fun _ => .ret ()
  | .ledgerCall c => .op c fun _ => .ret ()

theorem Execution.prog_follows (org : OrganizationId) (key : String) (x : Execution) :
    (payProtocol org key).Follows x.prog (fun _ _ => True) false := by
  cases x with
  | paidEffect x =>
      exact (Protocol.follows_bind _ _ _ _ _).mpr
        (executePaidEffect_follows x.ctx x.effect x.durable)
  | videoPrediction fuel ctx e =>
      exact (Protocol.follows_bind _ _ _ _ _).mpr (durablePredictionLifecycle_follows fuel ctx e)
  | ledgerCall c => exact ⟨trivial, fun _ _ => trivial⟩

theorem of_grants {org : OrganizationId} {key : String} {c : LedgerCall}
    {r : Except LedgerError c.Value} (h : grants org key c r = true) :
    ∃ runId provider units request, ∃ reservation : EffectReservation,
      c = .effect org (.reserve key runId provider units request) ∧
        HEq r (.ok reservation : Except LedgerError EffectReservation) ∧
        reservation.created = true := by
  unfold grants at h
  split at h
  · rename_i ledger effectKey runId provider units request reservation
    simp only [Bool.and_eq_true, decide_eq_true_eq] at h
    obtain ⟨⟨rfl, rfl⟩, hcreated⟩ := h
    exact ⟨runId, provider, units, request, reservation, rfl, HEq.rfl, hcreated⟩
  · cases h

/-- A created reservation inserted the row. -/
theorem grants_apply {org : OrganizationId} {key : String} {c : LedgerCall} {s : Ledger}
    (h : grants org key c (c.apply s).1 = true) :
    s.effect? org key = none ∧ ∃ row, (c.apply s).2.effect? org key = some row ∧
      row.status = .reserved ∧ 0 < row.units ∧
        ((c.apply s).2.quota? org row.provider).isSome := by
  obtain ⟨runId, provider, units, request, reservation, rfl, hr, hcreated⟩ := of_grants h
  exact (PostgresEffectLedger.reserve_created
    (LedgerCall.apply_of_ok (eq_of_heq hr)) hcreated).2

/-- The invocations of paid work for one effect in a history. -/
def paidInvocations (org : OrganizationId) (key : String) (notes : List (Note toolSignature)) :
    Nat :=
  notes.countP fun
    | .invoked _ c => c.paysFor org key
    | _ => false

structure PaidInv (org : OrganizationId) (key : String) (s : Ledger) (phase : Nat → Bool)
    (notes : List (Note toolSignature)) : Prop where
  absent : s.effect? org key = none →
    paidInvocations org key notes = 0 ∧ ∀ i, phase i = false
  spent : paidInvocations org key notes = 0 ∨
    (paidInvocations org key notes = 1 ∧ ∀ i, phase i = false)
  unique : ∀ i j, phase i = true → phase j = true → i = j

namespace PaidInv
variable {org : OrganizationId} {key : String} {s : Ledger} {phase : Nat → Bool}
  {notes : List (Note toolSignature)}

theorem initial (s : Ledger) : PaidInv org key s (fun _ => false) [] where
  absent _ := ⟨rfl, fun _ => rfl⟩
  spent := Or.inl rfl
  unique _ _ h := by cases h

/-- A step that pays nothing and moves no right. -/
theorem frame (h : PaidInv org key s phase notes) {note : Note toolSignature} {s' : Ledger}
    (hnote : paidInvocations org key [note] = 0)
    (hrow : (s.effect? org key).isSome → (s'.effect? org key).isSome) :
    PaidInv org key s' phase (notes ++ [note]) := by
  have hcount : paidInvocations org key (notes ++ [note]) = paidInvocations org key notes := by
    rw [paidInvocations, List.countP_append]
    exact congrArg (paidInvocations org key notes + ·) hnote
  refine ⟨?_, ?_, h.unique⟩
  · intro hnone
    rw [hcount]
    apply h.absent
    by_contra hne
    have := hrow (Option.isSome_iff_ne_none.mpr hne)
    rw [hnone] at this
    cases this
  · rw [hcount]
    exact h.spent

theorem granted (h : PaidInv org key s phase notes) {i : Nat} {c : LedgerCall}
    {r : Except LedgerError c.Value} {s' : Ledger} (hnone : s.effect? org key = none)
    (hsome : (s'.effect? org key).isSome) :
    PaidInv org key s' (Function.update phase i true)
      (notes ++ [(.committed i c r : Note toolSignature)]) := by
  obtain ⟨hzero, hfree⟩ := h.absent hnone
  have hcount : paidInvocations org key
      (notes ++ [(.committed i c r : Note toolSignature)]) = 0 := by
    rw [paidInvocations, List.countP_append]
    exact hzero
  have honly : ∀ j, Function.update phase i true j = true → j = i := by
    intro j hj
    by_contra hji
    rw [Function.update_of_ne hji, hfree j] at hj
    cases hj
  refine ⟨?_, Or.inl hcount, ?_⟩
  · intro hnone'
    rw [hnone'] at hsome
    cases hsome
  · intro j k hj hk
    rw [honly j hj, honly k hk]

theorem paid (h : PaidInv org key s phase notes) {i : Nat} {c : ToolCall}
    (hpays : c.paysFor org key = true) (hright : phase i = true) :
    PaidInv org key s (Function.update phase i false)
      (notes ++ [(.invoked i c : Note toolSignature)]) := by
  have hzero : paidInvocations org key notes = 0 := by
    rcases h.spent with hzero | ⟨-, hfree⟩
    · exact hzero
    · rw [hfree i] at hright
      cases hright
  have hcount : paidInvocations org key
      (notes ++ [(.invoked i c : Note toolSignature)]) = 1 := by
    rw [paidInvocations, List.countP_append, List.countP_singleton, if_pos hpays]
    exact congrArg (· + 1) hzero
  have hfree : ∀ j, Function.update phase i false j = false := by
    intro j
    by_cases hji : j = i
    · rw [hji, Function.update_self]
    · rw [Function.update_of_ne hji]
      by_contra hj
      exact hji (h.unique j i (Bool.not_eq_false _ ▸ hj) hright)
  refine ⟨?_, Or.inr ⟨hcount, hfree⟩, ?_⟩
  · intro hnone
    rw [(h.absent hnone).2 i] at hright
    cases hright
  · intro j k hj
    rw [hfree j] at hj
    cases hj

theorem step (h : PaidInv org key s phase notes) {note : Note toolSignature} {s' : Ledger}
    (hstep : (payProtocol org key).Step LedgerCall.apply phase s note s') :
    PaidInv org key s' ((payProtocol org key).advance phase note) (notes ++ [note]) := by
  cases hstep with
  | silent => exact h.frame rfl id
  | committed i c _ =>
      have hrow : (s.effect? org key).isSome → ((c.apply s).2.effect? org key).isSome :=
        (c.change_or_unchanged s).effect?_isSome
      cases hg : grants org key c (c.apply s).1 with
      | true =>
          obtain ⟨hnone, row, hrow, -⟩ := grants_apply hg
          have hsome := Option.isSome_iff_exists.mpr ⟨row, hrow⟩
          simpa [Protocol.advance, payProtocol, hg] using h.granted hnone hsome
      | false => simpa [Protocol.advance, payProtocol, hg] using h.frame rfl hrow
  | invoked i c hmay =>
      cases hpays : c.paysFor org key with
      | true => simpa [Protocol.advance, payProtocol, hpays] using h.paid hpays (hmay hpays)
      | false =>
          have hnote : paidInvocations org key [(.invoked i c : Note toolSignature)] = 0 := by
            simp [paidInvocations, hpays]
          simpa [Protocol.advance, payProtocol, hpays] using h.frame hnote id
  | answered i c a _ => simpa [Protocol.advance, payProtocol] using h.frame rfl id

end PaidInv

/-- Over any interleaving of executions with crashes, from any ledger, the work
of an effect is submitted at most once. -/
theorem paid_submission_at_most_once (ledger : Ledger)
    (choices : List (Choice Execution toolSignature)) (org : OrganizationId) (key : String) :
    paidInvocations org key
      (System.notes LedgerCall.apply Execution.prog ledger choices) ≤ 1 := by
  have h := (Protocol.run_invariant (P := payProtocol org key)
    LedgerCall.createdByReserve_apply (Execution.prog_follows org key)
    (PaidInv.initial ledger) (fun _ _ _ _ h hstep => h.step hstep) choices).1.spent
  omega

end Orchestrator
