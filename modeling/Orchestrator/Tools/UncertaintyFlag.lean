import Orchestrator.Db.EffectLifecycle
import Orchestrator.Lib.Beside
import Orchestrator.Tools.PaidOnce
import Orchestrator.Tools.Recovery

/-!
The uncertainty flag of a video error against the ledger.

A webhook may bind and report on the effect while the lifecycle awaits a call, and
any other effect may change; nobody else decides how this one ends. From a row that
is reserved or uncertain every error of the lifecycle has the flag of the stored
status. A replayed reservation breaks this in two ways: a failed row is polled again,
and a reserved row that never got its id is waited for without being marked.
-/

namespace Orchestrator

def Effect.identified (row : Effect) : Bool := row.providerOperationId.any (· ≠ "")

/-- Still open: reserved or uncertain. -/
def Effect.Unsettled (row : Effect) : Prop := row.status = .reserved ∨ row.status = .uncertain

/-- Uncertain, unless an id is there to be found. -/
def Effect.Awaiting (row : Effect) : Prop :=
  row.status = .uncertain ∨ row.status = .reserved ∧ row.identified

def Ledger.Holds (s : Ledger) (org : OrganizationId) (key : String) (P : Effect → Prop) :
    Prop :=
  ∃ row, s.effect? org key = some row ∧ P row

/-- The calls that decide how the effect ends, as its lifecycle and a reconciliation do. -/
def LedgerCall.closes (org : OrganizationId) (key : String) : LedgerCall → Bool
  | .effect ledger (.markUncertain effectKey _ _) | .effect ledger (.markSucceeded effectKey _)
  | .effect ledger (.markFailed effectKey _ _ _) | .effect ledger (.markReconciled effectKey _) =>
      ledger = org ∧ effectKey = key
  | _ => false

/-- What the others may do to the ledger while a call is awaited. Reading the
clock is not awaited. -/
def meanwhile (org : OrganizationId) (key : String) : ToolCall → Ledger → Ledger → Prop
  | .monotonic, s, s' => s' = s
  | _, s, s' => ∃ calls, (∀ c ∈ calls, c.closes org key = false) ∧
      s' = Machine.run LedgerCall.step s calls

/-- What a call that does not settle an effect does to its row. -/
inductive Effect.Carried (row row' : Effect) : Prop where
  | kept (hstatus : row'.status = row.status) (hid : row.identified → row'.identified)
  | bound (hstatus : row.status = .uncertain) (hstatus' : row'.status = .reserved)
      (hid : row'.identified)

namespace Effect.Carried
variable {row row' : Effect} (h : row.Carried row')
include h

theorem reserved (hrow : row.status = .reserved) : row'.status = .reserved := by
  cases h with
  | kept hstatus hid => exact hstatus.trans hrow
  | bound hstatus hstatus' hid => exact hstatus'

theorem unsettled (hrow : row.Unsettled) : row'.Unsettled := by
  cases h with
  | kept hstatus hid => exact hrow.imp hstatus.trans hstatus.trans
  | bound hstatus hstatus' hid => exact Or.inl hstatus'

theorem awaiting (hrow : row.Awaiting) : row'.Awaiting := by
  cases h with
  | kept hstatus hid =>
      exact hrow.imp hstatus.trans fun hbound => ⟨hstatus.trans hbound.1, hid hbound.2⟩
  | bound hstatus hstatus' hid => exact Or.inr ⟨hstatus', hid⟩

end Effect.Carried

section Ledger
variable {s : Ledger} {org : OrganizationId} {key : String} {row : Effect}

theorem strip_ne_empty_of_bind {operationId status : String} {reply : EffectReservation}
    (h : ((LedgerCall.effect org (.bindProviderOperation key operationId status)).apply s).1 =
      .ok reply) : PyStr.strip operationId ≠ "" := by
  intro hempty
  have hraised : (LedgerCall.effect org (.bindProviderOperation key operationId status)).apply s =
      (.error (.valueError "provider_operation_id não pode ser vazio"), s) := by
    simp only [LedgerCall.apply, LedgerCall.transact, EffectOp.transact,
      PostgresEffectLedger.bindProviderOperation, hempty, if_true]
  rw [hraised] at h
  cases h

theorem LedgerCall.apply_carried {c : LedgerCall} (hc : c.closes org key = false)
    (hrow : s.effect? org key = some row) :
    ∃ row', (c.apply s).2.effect? org key = some row' ∧ row.Carried row' := by
  cases hr : (c.apply s).1 with
  | error exc =>
      rw [apply_of_error hr]
      exact ⟨row, hrow, .kept rfl id⟩
  | ok reply =>
      obtain ⟨row', hrow', rfl | hstep⟩ := (c.apply_effects s).find?_forward hrow
      · exact ⟨row', hrow', .kept rfl id⟩
      refine ⟨row', hrow', ?_⟩
      obtain ⟨rfl, rfl⟩ := Ledger.effect?_key hrow
      cases hstep with
      | reported hmerged => exact .kept rfl id
      | @bound operationId status merged _ hid hfree hmerged =>
          have hidentified : (row.bound (PyStr.strip operationId) merged).identified := by
            simpa [Effect.identified, Effect.bound] using strip_ne_empty_of_bind hr
          by_cases huncertain : row.status = .uncertain
          · exact .bound huncertain (if_pos huncertain) hidentified
          · exact .kept (if_neg huncertain) fun _ => hidentified
      | markedUncertain hstatus | markedSucceeded hstatus | markedFailed hstatus
      | reconciled hstatus => simp [closes] at hc

namespace Ledger.Holds
variable {P : Effect → Prop}

theorem apply {c : LedgerCall} (h : s.Holds org key P)
    (hP : ∀ row row', Effect.Carried row row' → P row → P row')
    (hc : c.closes org key = false) : (c.apply s).2.Holds org key P := by
  obtain ⟨row, hrow, hrowP⟩ := h
  obtain ⟨row', hrow', hcarried⟩ := c.apply_carried hc hrow
  exact ⟨row', hrow', hP row row' hcarried hrowP⟩

theorem run {calls : List LedgerCall} (h : s.Holds org key P)
    (hP : ∀ row row', Effect.Carried row row' → P row → P row')
    (hcalls : ∀ c ∈ calls, c.closes org key = false) :
    (Machine.run LedgerCall.step s calls).Holds org key P := by
  induction calls generalizing s with
  | nil => exact h
  | cons c calls ih =>
      refine ih ?_ fun c' hc' => hcalls c' (List.mem_cons_of_mem c hc')
      rw [c.step_snd]
      exact h.apply hP (hcalls c List.mem_cons_self)

/-- What the moves of the others keep stays while a call is awaited. -/
theorem awaited {c : ToolCall} {s' : Ledger} (h : s.Holds org key P)
    (hP : ∀ row row', Effect.Carried row row' → P row → P row')
    (hothers : meanwhile org key c s s') : s'.Holds org key P := by
  cases c with
  | monotonic =>
      cases hothers
      exact h
  | operation _ _ | reconcile _ | submit _ _ _ | getVideoPrediction _ | cancelVideoPrediction _
  | persist _ _ | sleep _ =>
      obtain ⟨calls, hcalls, rfl⟩ := hothers
      exact h.run hP hcalls

end Ledger.Holds

/-- The effect is uncertain. -/
abbrev Ledger.Uncertain (s : Ledger) (org : OrganizationId) (key : String) : Prop :=
  s.Holds org key (·.status = .uncertain)

theorem LedgerCall.apply_markUncertain_unsettled (h : s.Holds org key Effect.Unsettled)
    (error : String) (errorType : Option String) :
    ((LedgerCall.effect org (.markUncertain key error errorType)).apply s).2.Uncertain org key := by
  obtain ⟨row, hrow, hreserved | huncertain⟩ := h
  · have hin : s.effectIn? org key .reserved = some row :=
      Ledger.effectIn?_eq_some_iff.mpr ⟨hrow, hreserved⟩
    simp only [apply, transact, EffectOp.transact, PostgresEffectLedger.markUncertain, hin]
    exact ⟨_, Ledger.effect?_updateEffect_self _ _ hrow, rfl⟩
  · have hin : s.effectIn? org key .reserved = none :=
      Ledger.effectIn?_of_ne hrow (by simp [huncertain])
    simp only [apply, transact, EffectOp.transact, PostgresEffectLedger.markUncertain, hin, hrow]
    exact ⟨row, hrow, huncertain⟩

/-- An uncertain mark leaves a failed row alone. -/
theorem LedgerCall.apply_markUncertain_failed (hrow : s.effect? org key = some row)
    (hfailed : row.status = .failed) (error : String) (errorType : Option String) :
    (LedgerCall.effect org (.markUncertain key error errorType)).apply s =
      (.ok (reservation row false), s) := by
  have hin : s.effectIn? org key .reserved = none :=
    Ledger.effectIn?_of_ne hrow (by simp [hfailed])
  simp only [apply, transact, EffectOp.transact, PostgresEffectLedger.markUncertain, hin, hrow]

theorem LedgerCall.apply_markFailed_ok {error : String} {releaseQuota : Bool}
    {errorType : Option String} {reply : EffectReservation}
    (h : ((LedgerCall.effect org (.markFailed key error releaseQuota errorType)).apply s).1 =
      .ok reply) :
    ((LedgerCall.effect org (.markFailed key error releaseQuota errorType)).apply s).2.Holds
      org key (·.status = .failed) := by
  have hcommit := LedgerCall.apply_of_ok h
  generalize ((LedgerCall.effect org (.markFailed key error releaseQuota errorType)).apply s).2 =
    s' at hcommit ⊢
  simp only [transact, EffectOp.transact, PostgresEffectLedger.markFailed] at hcommit
  split at hcommit
  · rename_i row hrow
    cases hcommit
    obtain ⟨hrow, -⟩ := Ledger.effectIn?_eq_some_iff.mp hrow
    have hmarked := Ledger.effect?_updateEffect_self
      (fun row => Effect.markedFailed error errorType row) (fun _ => rfl) hrow
    cases releaseQuota <;> exact ⟨_, hmarked, rfl⟩
  split at hcommit
  · cases hcommit
  split at hcommit
  · cases hcommit
  · rename_i row hrow hfailed
    cases hcommit
    exact ⟨row, hrow, not_not.mp hfailed⟩

/-- The row a reservation with these arguments is answered from. -/
structure Replays (ctx : ToolContext) (e : VideoEffect) (org : OrganizationId) (s : Ledger)
    (row : Effect) : Prop where
  found : s.effect? org e.effectKey = some row
  quota : (s.quota? org e.provider).isSome
  units : 0 < e.units
  sameRun : row.runId = ctx.runId
  sameProvider : row.provider = e.provider
  sameUnits : row.units = e.units
  sameRequest : row.request = e.request

/-- How a reservation comes out. -/
inductive ReserveOutcome (ctx : ToolContext) (e : VideoEffect) (org : OrganizationId)
    (s : Ledger) : Except LedgerError EffectReservation × Ledger → Prop where
  | created {reply : EffectReservation} {s' : Ledger} (hcreated : reply.created = true)
      (hstatus : reply.status = .reserved)
      (hrow : s'.Holds org e.effectKey (·.status = .reserved)) :
      ReserveOutcome ctx e org s (.ok reply, s')
  | replayed {row : Effect} (hrow : Replays ctx e org s row) (hopen : row.status ≠ .uncertain) :
      ReserveOutcome ctx e org s (.ok (reservation row false), s)
  | uncertain {message : String} (hrow : s.Uncertain org e.effectKey) :
      ReserveOutcome ctx e org s (.error (.uncertainEffect message), s)
  | refused {exc : LedgerError} (hexc : exc.typeName ≠ "UncertainEffectError") :
      ReserveOutcome ctx e org s (.error exc, s)

theorem reserve_outcome (ctx : ToolContext) (e : VideoEffect) (org : OrganizationId)
    (s : Ledger) :
    ReserveOutcome ctx e org s ((LedgerCall.effect org
      (.reserve e.effectKey ctx.runId e.provider e.units e.request)).apply s) := by
  by_cases hunits : e.units ≤ 0
  · simp only [LedgerCall.apply, LedgerCall.transact, EffectOp.transact,
      PostgresEffectLedger.reserve, if_pos hunits]
    exact .refused (by decide)
  simp only [LedgerCall.apply, LedgerCall.transact, EffectOp.transact,
    PostgresEffectLedger.reserve, if_neg hunits]
  cases hquota : s.quota? org e.provider with
  | none => exact .refused (by simp [LedgerError.typeName])
  | some quota =>
      dsimp only
      cases hrow : s.effect? org e.effectKey with
      | some row =>
          dsimp only
          by_cases hsame : ((reservation row false).runId, (reservation row false).provider,
              (reservation row false).units, (reservation row false).request) =
              (ctx.runId, e.provider, e.units, e.request)
          · rw [if_neg (not_not.mpr hsame)]
            obtain ⟨hrun, hprovider, hunits', hrequest⟩ := by
              simpa only [Prod.mk.injEq] using hsame
            by_cases huncertain : row.status = .uncertain
            · rw [if_pos (show (reservation row false).status = .uncertain from huncertain)]
              exact .uncertain ⟨row, hrow, huncertain⟩
            · rw [if_neg (show (reservation row false).status ≠ .uncertain from huncertain)]
              exact .replayed ⟨hrow, by simp [hquota], Int.not_le.mp hunits, hrun, hprovider,
                hunits', hrequest⟩ huncertain
          · rw [if_pos hsame]
            exact .refused (by simp [LedgerError.typeName])
      | none =>
          dsimp only
          by_cases hlimit : quota.usedUnits + e.units > quota.limitUnits
          · rw [if_pos hlimit]
            exact .refused (by simp [LedgerError.typeName])
          rw [if_neg hlimit]
          split
          · rename_i hins
            split at hins <;> cases hins
            rename_i effects hins
            have hfound := (KeyedTable.find?_insert hins (org, e.effectKey)).trans (if_pos rfl)
            exact .created rfl rfl ⟨_, hfound, rfl⟩
          · rename_i hins
            split at hins <;> cases hins
            exact .refused (by simp [LedgerError.typeName])

end Ledger

/-- What the ledger holds when the exception leaves the lifecycle. -/
def PyExc.Flagged (org : OrganizationId) (key : String) (s : Ledger) : PyExc → Prop
  | .videoEffect _ _ uncertain _ _ _ =>
      s.Holds org key (·.status = if uncertain then .uncertain else .failed)
  | _ => True

def Flagged {α : Type} (org : OrganizationId) (key : String) (ok : α → Ledger → Prop) :
    Except PyExc α → Ledger → Prop
  | .ok a, s => ok a s
  | .error exc, s => exc.Flagged org key s

section Rules
variable {α β : Type} {org : OrganizationId} {key : String} {s : Ledger}

/-- Partial correctness of a coroutine on the effect, the others beside it. -/
abbrev Py.Gives (org : OrganizationId) (key : String) (p : Py α)
    (post : Except PyExc α → Ledger → Prop) (s : Ledger) : Prop :=
  Prog.Gives LedgerCall.apply (meanwhile org key) p post s

/-- It returns as `ok` says, or raises with a flag that agrees with the ledger. -/
abbrev Py.Meets (org : OrganizationId) (key : String) (p : Py α) (ok : α → Ledger → Prop)
    (s : Ledger) : Prop :=
  Py.Gives org key p (Flagged org key ok) s

variable {ok : α → Ledger → Prop} {post : Except PyExc α → Ledger → Prop}

theorem Py.Gives.bind {p : Py β} {f : β → Py α}
    (h : p.Gives org key (fun r s' =>
      match r with
      | .ok b => (f b).Gives org key post s'
      | .error exc => post (.error exc) s') s) : (p >>= f).Gives org key post s := by
  refine (Prog.gives_bind _ _ _ _).mpr (Prog.Gives.mono h ?_)
  intro r s' hr
  cases r with
  | ok b => exact hr
  | error exc => exact hr

/-- A call that raises leaves the ledger as it was. -/
theorem gives_ledger {ledger : OrganizationId} {op : EffectOp}
    {post : Except PyExc EffectReservation → Ledger → Prop}
    (hok : ∀ reply : EffectReservation, ((LedgerCall.effect ledger op).apply s).1 = .ok reply →
      post (.ok reply) ((LedgerCall.effect ledger op).apply s).2)
    (herror : ∀ exc, post (.error (.ledger exc)) s) :
    (Py.ledger ledger op).Gives org key post s := by
  change post (((LedgerCall.effect ledger op).apply s).1.mapError .ledger)
    ((LedgerCall.effect ledger op).apply s).2
  cases hr : ((LedgerCall.effect ledger op).apply s).1 with
  | ok reply => exact hok reply hr
  | error exc =>
      rw [LedgerCall.apply_of_error hr]
      exact herror exc

theorem Py.Meets.bind {p : Py β} {f : β → Py α}
    (h : p.Meets org key (fun b s' => (f b).Meets org key ok s') s) :
    (p >>= f).Meets org key ok s := by
  refine Py.Gives.bind (Prog.Gives.mono h ?_)
  intro r s' hr
  cases r with
  | ok b => exact hr
  | error exc => exact hr

theorem Py.Meets.mono {p : Py α} {ok' : α → Ledger → Prop} (h : p.Meets org key ok s)
    (hok : ∀ a s', ok a s' → ok' a s') : p.Meets org key ok' s := by
  refine Prog.Gives.mono h ?_
  intro r s' hr
  cases r with
  | ok a => exact hok a s' hr
  | error exc => exact hr

theorem Py.Meets.attempt_bind {p : Py β} {f : Except PyExc β → Py α}
    (h : p.Gives org key (fun r s' => (f r).Meets org key ok s') s) :
    (p.attempt >>= f).Meets org key ok s :=
  Py.Meets.bind ((Prog.gives_bind _ _ _ _).mpr h)

theorem Py.Meets.ite {c : Prop} [Decidable c] {p q : Py α} (hp : c → p.Meets org key ok s)
    (hq : ¬ c → q.Meets org key ok s) : (if c then p else q).Meets org key ok s := by
  split
  · exact hp ‹_›
  · exact hq ‹_›

/-- An exception of the ledger carries no flag. -/
theorem meets_ledger {ledger : OrganizationId} {op : EffectOp}
    {ok : EffectReservation → Ledger → Prop}
    (h : ∀ reply : EffectReservation, ((LedgerCall.effect ledger op).apply s).1 = .ok reply →
      ok reply ((LedgerCall.effect ledger op).apply s).2) :
    (Py.ledger ledger op).Meets org key ok s :=
  gives_ledger h fun _ => trivial

theorem meets_attempt_ledger {ledger : OrganizationId} {op : EffectOp}
    {f : Except PyExc EffectReservation → Py α}
    (h : ∀ (r : Except LedgerError EffectReservation) s',
      (LedgerCall.effect ledger op).apply s = (r, s') →
        (f (r.mapError .ledger)).Meets org key ok s') :
    ((Py.ledger ledger op).attempt >>= f).Meets org key ok s :=
  h _ _ rfl

/-- A foreign exception carries no flag either. -/
theorem flagged_foreign {r : Except ExternalError α} (h : ∀ a, r = .ok a → ok a s) :
    Flagged org key ok (Py.foreign r) s := by
  cases r with
  | ok a => exact h a rfl
  | error exc => trivial

/-- After the clock is read the ledger is where it was. -/
theorem meets_monotonic {ok : Rat → Ledger → Prop} (h : ∀ now, ok now s) :
    Py.monotonic.Meets org key ok s := by
  intro now s₁ hothers
  cases hothers
  exact h now

theorem meets_raise_external (exc : ExternalError) :
    (Py.raise (.external exc) : Py α).Meets org key ok s := trivial

end Rules

section Lifecycle
variable {e : VideoEffect} {ctx : ToolContext} {org : OrganizationId} {s : Ledger}

theorem raise_uncertain {α : Type} {ok : α → Ledger → Prop} {code errorType : String}
    {retryable : Bool} (h : s.Uncertain org e.effectKey) :
    (Py.raise (e.error code retryable true errorType) : Py α).Meets org e.effectKey ok s := h

/-- Failing the effect and raising with the flag down agree. -/
theorem failAndRaise_meets {α : Type} {ok : α → Ledger → Prop}
    (code errorType error : String) (retryable releaseQuota : Bool)
    (storedType : Option String) :
    (do let _ ← Py.ledger org (.markFailed e.effectKey error releaseQuota storedType)
        Py.raise (e.error code retryable false errorType) : Py α).Meets org e.effectKey ok s :=
  Py.Meets.bind (meets_ledger fun _ hr => LedgerCall.apply_markFailed_ok hr)

/-- Marking an open effect uncertain and raising with the flag up agree. -/
theorem markAndRaise_meets {α : Type} {ok : α → Ledger → Prop}
    (h : s.Holds org e.effectKey Effect.Unsettled) (code errorType error : String)
    (retryable : Bool) (storedType : Option String) :
    (do let _ ← Py.ledger org (.markUncertain e.effectKey error storedType)
        Py.raise (e.error code retryable true errorType) : Py α).Meets org e.effectKey ok s :=
  Py.Meets.bind (meets_ledger fun _ _ => LedgerCall.apply_markUncertain_unsettled h _ _)

/-- A call that settles nothing leaves an open effect open. -/
theorem unsettled_ledger {op : EffectOp}
    (h : s.Holds org e.effectKey Effect.Unsettled)
    (hop : (LedgerCall.effect org op).closes org e.effectKey = false) :
    (Py.ledger org op).Meets org e.effectKey
      (fun _ s' => s'.Holds org e.effectKey Effect.Unsettled) s :=
  meets_ledger fun _ _ => h.apply (fun _ _ => Effect.Carried.unsettled) hop

theorem poll_meets (predictionId : String) (h : s.Holds org e.effectKey Effect.Unsettled) :
    (e.poll org predictionId).Meets org e.effectKey
      (fun _ s' => s'.Holds org e.effectKey Effect.Unsettled) s := by
  refine Py.Meets.attempt_bind fun answer s₁ hothers => ?_
  have h₁ := h.awaited (fun _ _ => Effect.Carried.unsettled) hothers
  cases answer with
  | error exc =>
      refine Py.Meets.ite (fun _ => ?_) (fun _ => meets_raise_external exc)
      exact markAndRaise_meets h₁ _ _ _ _ _
  | ok prediction => exact Py.Meets.bind ((unsettled_ledger h₁ rfl).mono fun _ _ h₂ => h₂)

theorem pollLoop_meets (predictionId : String) (deadline : Rat) (fuel : Nat)
    (prediction : Option VideoPrediction) (h : s.Holds org e.effectKey Effect.Unsettled) :
    (e.pollLoop ctx org predictionId deadline fuel prediction).Meets org e.effectKey
      (fun _ s' => s'.Holds org e.effectKey Effect.Unsettled) s := by
  induction fuel generalizing s prediction with
  | zero => trivial
  | succ fuel ih =>
      refine Py.Meets.bind (meets_monotonic fun now => ?_)
      refine Py.Meets.ite (fun _ => ?_) (fun _ => h)
      refine Py.Meets.bind ((poll_meets predictionId h).mono fun prediction s' hr => ?_)
      refine Py.Meets.ite (fun _ => hr) (fun _ => ?_)
      refine Py.Meets.bind fun answer s₁ hothers => ?_
      exact ih _ (hr.awaited (fun _ _ => Effect.Carried.unsettled) hothers)

theorem persistFn_meets (artifact : Artifact) :
    (e.persistFn artifact).Meets org e.effectKey (fun _ _ => True) s := by
  refine Py.Meets.ite (fun _ => ?_) (fun _ => trivial)
  exact fun answer s₁ _ => flagged_foreign fun _ _ => trivial

theorem storeArtifact_meets (prediction : VideoPrediction) :
    (e.storeArtifact org prediction).Meets org e.effectKey (fun _ _ => True) s := by
  unfold VideoEffect.storeArtifact
  split
  · rename_i exc hexc
    refine Py.Meets.ite (fun _ => ?_) (fun _ => meets_raise_external exc)
    exact failAndRaise_meets _ _ _ _ _ _
  · refine Py.Meets.bind ((persistFn_meets _).mono fun artifact s' _ => ?_)
    exact Py.Meets.bind (meets_ledger fun _ _ => trivial)

/-- What the `except` clauses around the cancellation meet: a provider outage
comes before the effect is settled. -/
def Canceled (org : OrganizationId) (key : String) :
    Except PyExc (Option VideoPrediction) → Ledger → Prop
  | .ok _, s => s.Holds org key Effect.Unsettled
  | .error exc, s =>
      exc.Flagged org key s ∧ (exc.providerOutage → s.Holds org key Effect.Unsettled)

theorem canceled_error {exc : PyExc} (hflag : exc.Flagged org e.effectKey s)
    (hexc : exc.providerOutage = false) : Canceled org e.effectKey (.error exc) s :=
  ⟨hflag, fun houtage => absurd houtage (by simp [hexc])⟩

theorem cancel_gives (predictionId : String) (prediction : Option VideoPrediction)
    (h : s.Holds org e.effectKey Effect.Unsettled) :
    (e.cancel org predictionId prediction).Gives org e.effectKey (Canceled org e.effectKey) s := by
  refine Py.Gives.bind fun answer s₁ hothers => ?_
  have h₁ := h.awaited (fun _ _ => Effect.Carried.unsettled) hothers
  cases answer with
  | error exc => exact ⟨trivial, fun _ => h₁⟩
  | ok canceled =>
      refine Py.Gives.bind (gives_ledger (fun _ _ => ?_) fun _ => canceled_error trivial rfl)
      have h₂ := h₁.apply (fun _ _ => Effect.Carried.unsettled) (c := .effect org
        (.updateProviderStatus e.effectKey canceled.status (some "PredictionTimeout"))) rfl
      dsimp only
      split
      · refine Py.Gives.bind (gives_ledger (fun _ hr => ?_) fun _ => canceled_error trivial rfl)
        exact canceled_error (LedgerCall.apply_markFailed_ok hr) rfl
      · split
        · exact h₂
        · exact h₂

theorem cancelOrKeep_meets (predictionId : String) (prediction : Option VideoPrediction)
    (h : s.Holds org e.effectKey Effect.Unsettled) :
    (e.cancelOrKeep org predictionId prediction).Meets org e.effectKey
      (fun _ s' => s'.Holds org e.effectKey Effect.Unsettled) s := by
  refine Py.Meets.attempt_bind ((cancel_gives predictionId prediction h).mono ?_)
  intro r s' hr
  cases r with
  | ok prediction => exact hr
  | error exc => exact Py.Meets.ite hr.2 fun _ => hr.1

theorem afterDeadline_meets (predictionId : String) (prediction : Option VideoPrediction)
    (h : s.Holds org e.effectKey Effect.Unsettled) :
    (e.afterDeadline org predictionId prediction).Meets org e.effectKey (fun _ _ => True) s := by
  refine Py.Meets.bind ((cancelOrKeep_meets predictionId prediction h).mono ?_)
  intro prediction s' h'
  split
  · exact storeArtifact_meets _
  · exact markAndRaise_meets h' _ _ _ _ _

theorem afterTerminal_meets (prediction : VideoPrediction) :
    (e.afterTerminal org prediction).Meets org e.effectKey (fun _ _ => True) s :=
  Py.Meets.ite (fun _ => failAndRaise_meets _ _ _ _ _ _) fun _ => storeArtifact_meets prediction

theorem pollAndStore_meets (predictionId : String) (deadline : Rat) (fuel : Nat)
    (h : s.Holds org e.effectKey Effect.Unsettled) :
    (e.pollAndStore ctx org fuel predictionId deadline).Meets org e.effectKey
      (fun _ _ => True) s := by
  refine Py.Meets.bind ((pollLoop_meets predictionId deadline fuel none h).mono ?_)
  intro prediction s' h'
  cases prediction with
  | none => exact afterDeadline_meets predictionId none h'
  | some prediction =>
      refine Py.Meets.ite (fun _ => afterTerminal_meets prediction) fun _ => ?_
      exact afterDeadline_meets predictionId (some prediction) h'

/-- The id the waiting ends with: when there is none the effect is uncertain. -/
def Resolved (org : OrganizationId) (key : String) (id : Option String) (s : Ledger) : Prop :=
  if id.any (· ≠ "") then s.Holds org key Effect.Unsettled else s.Uncertain org key

theorem Effect.Awaiting.unsettled {row : Effect} (h : row.Awaiting) : row.Unsettled :=
  h.symm.imp_left And.left

theorem waitLoop_meets {key : String} (deadline interval : Rat) (fuel : Nat)
    (h : s.Holds org key Effect.Awaiting) :
    (waitLoop org key deadline interval fuel).Meets org key
      (fun reply s' => Resolved org key reply.providerOperationId s') s := by
  induction fuel generalizing s with
  | zero => trivial
  | succ fuel ih =>
      obtain ⟨row, hrow, hawaiting⟩ := h
      have hget := LedgerCall.apply_get hrow
      refine Py.Meets.bind (meets_ledger fun reply hr => ?_)
      rw [hget] at hr ⊢
      cases hr
      refine Py.Meets.ite (fun hid => ?_) fun hid => ?_
      · exact (if_pos hid).mpr ⟨row, hrow, hawaiting.unsettled⟩
      · have huncertain : row.status = .uncertain :=
          hawaiting.resolve_right fun hbound => hid hbound.2
        refine Py.Meets.bind (meets_monotonic fun now => ?_)
        refine Py.Meets.ite (fun _ => (if_neg hid).mpr ⟨row, hrow, huncertain⟩) fun _ => ?_
        refine Py.Meets.bind fun answer s₁ hothers => ?_
        have h₁ : s.Holds org key Effect.Awaiting := ⟨row, hrow, hawaiting⟩
        exact ih (h₁.awaited (fun _ _ => Effect.Carried.awaiting) hothers)

theorem waitForId_meets (deadline : Rat) (fuel : Nat)
    (h : s.Holds org e.effectKey Effect.Awaiting) :
    (e.waitForId ctx org fuel deadline).Meets org e.effectKey
      (fun id s' => Resolved org e.effectKey id s') s := by
  refine Py.Meets.bind (meets_monotonic fun now => ?_)
  refine Py.Meets.bind (Py.Meets.bind (meets_monotonic fun now' => ?_))
  exact (waitLoop_meets _ _ fuel h).mono fun reply s' hresolved => hresolved

theorem afterResolved_meets (deadline : Rat) (fuel : Nat)
    (resolved : Option String × Option String) (h : Resolved org e.effectKey resolved.1 s) :
    (e.afterResolved ctx org fuel deadline resolved).Meets org e.effectKey (fun _ _ => True) s := by
  unfold VideoEffect.afterResolved
  unfold Resolved at h
  have hid : (resolved.1.filter (· ≠ "")).isSome = resolved.1.any (· ≠ "") := by
    cases resolved.1 with
    | none => rfl
    | some id => by_cases hid : id = "" <;> simp [hid]
  cases hfound : resolved.1.filter (· ≠ "") with
  | none =>
      rw [← hid, hfound, if_neg (by simp)] at h
      exact raise_uncertain h
  | some id =>
      rw [← hid, hfound, if_pos (by simp)] at h
      exact pollAndStore_meets id deadline fuel h

/-- What a submission leaves: the row still reserved, and no flag. -/
def Submitted (org : OrganizationId) (key : String) (r : Except PyExc VideoPrediction)
    (s : Ledger) : Prop :=
  s.Holds org key (·.status = .reserved) ∧ ∀ exc, r = .error exc → exc.Flagged org key s

theorem submitFn_gives (h : s.Holds org e.effectKey (·.status = .reserved)) :
    (e.submitFn ctx org).Gives org e.effectKey (Submitted org e.effectKey) s := by
  rw [VideoEffect.submitFn]
  rcases webhookUrl_cases ctx e.effectKey with ⟨message, hurl⟩ | ⟨url, hurl⟩
  · rw [hurl]
    exact ⟨h, fun exc hexc => by cases hexc; trivial⟩
  · rw [hurl]
    intro answer s₁ hothers
    have h₁ := h.awaited (fun _ _ => Effect.Carried.reserved) hothers
    cases answer with
    | ok prediction => exact ⟨h₁, fun exc hexc => by cases hexc⟩
    | error exc => exact ⟨h₁, fun exc' hexc => by cases hexc; trivial⟩

/-- After an ambiguous creation the id is waited for. -/
theorem markAndWait_meets (h : s.Holds org e.effectKey Effect.Unsettled) (error : String)
    (errorType : String) (deadline : Rat) (fuel : Nat) :
    (do let _ ← Py.ledger org (.markUncertain e.effectKey error (some errorType))
        let predictionId ← e.waitForId ctx org fuel deadline
        return (predictionId, some errorType) : Py (Option String × Option String)).Meets
      org e.effectKey (fun resolved s' => Resolved org e.effectKey resolved.1 s') s := by
  refine Py.Meets.bind (meets_ledger fun _ _ => ?_)
  obtain ⟨row, hrow, huncertain⟩ :=
    LedgerCall.apply_markUncertain_unsettled h error (some errorType)
  refine Py.Meets.bind ((waitForId_meets deadline fuel ⟨row, hrow, Or.inl huncertain⟩).mono ?_)
  exact fun id s' hresolved => hresolved

theorem submitNew_meets (ambiguityErrorType : Option String) (deadline : Rat) (fuel : Nat)
    (h : s.Holds org e.effectKey (·.status = .reserved)) :
    (e.submitNew ctx org fuel ambiguityErrorType deadline).Meets org e.effectKey
      (fun resolved s' => Resolved org e.effectKey resolved.1 s') s := by
  refine Py.Meets.attempt_bind ((submitFn_gives h).mono ?_)
  rintro r s' ⟨⟨row, hrow, hreserved⟩, hflag⟩
  have hunsettled : s'.Holds org e.effectKey Effect.Unsettled := ⟨row, hrow, Or.inl hreserved⟩
  unfold VideoEffect.afterSubmit
  split
  · rename_i prediction
    refine Py.Meets.bind (meets_ledger fun _ hr => ?_)
    have hid : prediction.id ≠ "" := fun hempty =>
      strip_ne_empty_of_bind hr (by rw [hempty]; rfl)
    refine (if_pos (by simpa using hid)).mpr ?_
    exact hunsettled.apply (fun _ _ => Effect.Carried.unsettled) rfl
  · rename_i exc
    refine Py.Meets.ite (fun _ => failAndRaise_meets _ _ _ _ _ _) fun _ => ?_
    refine Py.Meets.ite (fun _ => ?_) fun _ => ?_
    · refine Py.Meets.ite (fun _ => failAndRaise_meets _ _ _ _ _ _) fun _ => ?_
      exact markAndWait_meets hunsettled _ _ deadline fuel
    · refine Py.Meets.ite (fun _ => ?_) fun _ => meets_raise_external exc
      exact markAndWait_meets hunsettled _ _ deadline fuel
  · exact hflag _ rfl

theorem replayArtifact_meets (result : Option Json) :
    (e.replayArtifact result).Meets org e.effectKey (fun _ _ => True) s := by
  unfold VideoEffect.replayArtifact
  split
  · trivial
  · split <;> trivial

/-- From a row that is settled by success, or that is uncertain, or reserved with
its id, the lifecycle ends with a flag that agrees. -/
theorem resumeRow_meets {row : Effect} (deadline : Rat) (fuel : Nat)
    (hrow : s.effect? org e.effectKey = some row)
    (h : row.status = .succeeded ∨ row.Awaiting) :
    (e.resumeFrom ctx org fuel (reservation row false) deadline).Meets org e.effectKey
      (fun _ _ => True) s := by
  refine Py.Meets.ite (fun _ => replayArtifact_meets _) fun hopen => ?_
  have hawaiting : row.Awaiting := h.resolve_left hopen
  refine Py.Meets.bind (Py.Meets.mono ?_ fun resolved _ =>
    afterResolved_meets deadline fuel resolved)
  refine Py.Meets.ite (fun hcreated => by cases hcreated) fun _ => ?_
  refine Py.Meets.ite (fun hid => ?_) fun _ => ?_
  · exact (if_pos hid).mpr ⟨row, hrow, hawaiting.unsettled⟩
  · exact Py.Meets.bind (waitForId_meets deadline fuel ⟨row, hrow, hawaiting⟩)

theorem resumeCreated_meets {reply : EffectReservation} (deadline : Rat) (fuel : Nat)
    (hcreated : reply.created = true) (hstatus : reply.status = .reserved)
    (h : s.Holds org e.effectKey (·.status = .reserved)) :
    (e.resumeFrom ctx org fuel reply deadline).Meets org e.effectKey (fun _ _ => True) s := by
  refine Py.Meets.ite (fun hdone => by simp [hstatus] at hdone) fun _ => ?_
  refine Py.Meets.bind (Py.Meets.mono ?_ fun resolved _ =>
    afterResolved_meets deadline fuel resolved)
  exact Py.Meets.ite (fun _ => submitNew_meets _ deadline fuel h) fun h => absurd hcreated h

end Lifecycle

theorem lifecycle_meets {ctx : ToolContext} {e : VideoEffect} {org : OrganizationId} {s : Ledger}
    (hledger : ctx.effectLedger = some org) (fuel : Nat)
    (hreplays : ∀ row, Replays ctx e org s row → row.status = .succeeded ∨ row.Awaiting) :
    (durablePredictionLifecycle fuel ctx e).Meets org e.effectKey (fun _ _ => True) s := by
  unfold durablePredictionLifecycle
  simp only [hledger]
  refine Py.Meets.bind (meets_monotonic fun now => ?_)
  refine meets_attempt_ledger fun r s' hr => ?_
  have houtcome := reserve_outcome ctx e org s
  rw [hr] at houtcome
  cases houtcome with
  | created hcreated hstatus hrow => exact resumeCreated_meets _ fuel hcreated hstatus hrow
  | replayed hrow hopen => exact resumeRow_meets _ fuel hrow.found (hreplays _ hrow)
  | uncertain hrow =>
      obtain ⟨row, hrow, huncertain⟩ := hrow
      refine Py.Meets.ite (fun hother => absurd rfl hother) fun _ => ?_
      refine Py.Meets.bind (meets_ledger fun reply hget => ?_)
      rw [LedgerCall.apply_get hrow] at hget ⊢
      cases hget
      exact resumeRow_meets _ fuel hrow (Or.inr (Or.inl huncertain))
  | refused hexc => exact Py.Meets.ite (fun _ => trivial) fun hsame => absurd hexc hsame

/-- A replayed row that is never polled to an agreeing end: a failed one, or a
reserved one without the id. -/
def Effect.Stale (row : Effect) : Prop :=
  row.status = .failed ∨ row.status = .reserved ∧ row.identified = false

theorem Effect.stale_or (row : Effect) :
    row.Stale ∨ row.status = .succeeded ∨ row.Awaiting := by
  unfold Effect.Stale Effect.Awaiting
  cases row.status <;> cases row.identified <;> simp

theorem Effect.Stale.not_uncertain {row : Effect} (h : row.Stale) : row.status ≠ .uncertain := by
  rintro huncertain
  rcases h with hfailed | ⟨hreserved, -⟩
  · cases hfailed.symm.trans huncertain
  · cases hreserved.symm.trans huncertain

theorem videoTimeoutSeconds_pos (ctx : ToolContext) : 0 < videoTimeoutSeconds ctx :=
  lt_max_of_lt_right (by decide +kernel)

section Stale
variable {α β : Type} {ctx : ToolContext} {e : VideoEffect} {org : OrganizationId} {key : String}
  {s : Ledger} {row : Effect}

theorem Py.Gives.of_bind {p : Py β} {f : β → Py α} {post : Except PyExc α → Ledger → Prop}
    (h : (p >>= f).Gives org key post s) :
    p.Gives org key (fun r s' =>
      match r with
      | .ok b => (f b).Gives org key post s'
      | .error exc => post (.error exc) s') s := by
  refine Prog.Gives.mono ((Prog.gives_bind _ _ _ _).mp h) ?_
  intro r s' hr
  cases r with
  | ok b => exact hr
  | error exc => exact hr

theorem gives_of_ledger {op : EffectOp} {r : Except LedgerError EffectReservation} {s' : Ledger}
    {post : Except PyExc EffectReservation → Ledger → Prop}
    (h : (Py.ledger org op).Gives org key post s)
    (hr : (LedgerCall.effect org op).apply s = (r, s')) : post (r.mapError .ledger) s' := by
  have h : post (((LedgerCall.effect org op).apply s).1.mapError .ledger)
    ((LedgerCall.effect org op).apply s).2 := h
  rw [hr] at h
  exact h

theorem gives_of_monotonic {post : Except PyExc Rat → Ledger → Prop}
    (h : Py.monotonic.Gives org key post s) (now : Rat) : post (.ok now) s :=
  h now s rfl

/-- One turn of the waiting, the clock past the deadline. -/
theorem waitLoop_unresolved {post : Except PyExc EffectReservation → Ledger → Prop}
    {deadline interval : Rat} (hrow : s.effect? org key = some row) (hid : row.identified = false)
    (h : (waitLoop org key deadline interval 1).Gives org key post s) :
    post (.ok (reservation row false)) s := by
  have h := gives_of_ledger h.of_bind (LedgerCall.apply_get hrow)
  dsimp only [Except.mapError] at h
  rw [if_neg (show ¬ (reservation row false).providerOperationId.any (· ≠ "") = true from
    fun hany => by cases hid.symm.trans hany)] at h
  have h := gives_of_monotonic h.of_bind deadline
  dsimp only at h
  rw [if_pos le_rfl] at h
  exact h

theorem waitForId_unresolved {post : Except PyExc (Option String) → Ledger → Prop}
    (deadline : Rat) (hrow : s.effect? org e.effectKey = some row) (hid : row.identified = false)
    (h : (e.waitForId ctx org 1 deadline).Gives org e.effectKey post s) :
    post (.ok row.providerOperationId) s := by
  have h := (gives_of_monotonic h.of_bind deadline).of_bind
  have h := gives_of_monotonic h.of_bind deadline
  exact waitLoop_unresolved hrow hid h

/-- An id that is not there is reported as uncertain, whatever the row says. -/
theorem unresolved_raised {post : Except PyExc Artifact → Ledger → Prop} (deadline : Rat)
    (hrow : s.effect? org e.effectKey = some row) (hid : row.identified = false)
    (hopen : row.status ≠ .succeeded)
    (h : (e.resumeFrom ctx org 1 (reservation row false) deadline).Gives org e.effectKey post s) :
    ∃ errorType, post (.error (e.error "prediction_id_unresolved" false true errorType)) s := by
  unfold VideoEffect.resumeFrom VideoEffect.resolveId at h
  rw [if_neg (show (reservation row false).status ≠ .succeeded from hopen),
    if_neg (by simp [reservation]),
    if_neg (show ¬ (reservation row false).providerOperationId.any (· ≠ "") = true from
      fun hany => by cases hid.symm.trans hany)] at h
  have h := waitForId_unresolved deadline hrow hid h.of_bind.of_bind
  have hnone : row.providerOperationId.filter (· ≠ "") = none := by
    unfold Effect.identified at hid
    cases hoperation : row.providerOperationId with
    | none => rfl
    | some id => simpa [hoperation] using hid
  have h : (e.afterResolved ctx org 1 deadline
    (row.providerOperationId, (reservation row false).errorType)).Gives org e.effectKey post s := h
  unfold VideoEffect.afterResolved at h
  rw [hnone] at h
  exact ⟨_, h⟩

/-- A failed prediction is polled again, and an outage is reported as uncertain. -/
theorem outage_raised {post : Except PyExc Artifact → Ledger → Prop} {deadline : Rat}
    (hdeadline : 0 < deadline) (hrow : s.effect? org e.effectKey = some row)
    (hid : row.identified = true) (hfailed : row.status = .failed)
    (h : (e.resumeFrom ctx org 1 (reservation row false) deadline).Gives org e.effectKey post s) :
    ∃ errorType, post (.error (e.error "prediction_poll_unavailable" true true errorType)) s := by
  unfold VideoEffect.resumeFrom VideoEffect.resolveId at h
  rw [if_neg (show (reservation row false).status ≠ .succeeded by simp [reservation, hfailed]),
    if_neg (by simp [reservation]),
    if_pos (show (reservation row false).providerOperationId.any (· ≠ "") = true from hid)] at h
  have h : (e.afterResolved ctx org 1 deadline
    (row.providerOperationId, (reservation row false).errorType)).Gives org e.effectKey post s :=
    h.of_bind
  obtain ⟨id, hoperation, hne⟩ : ∃ id, row.providerOperationId = some id ∧ id ≠ "" := by
    simpa [Effect.identified, Option.any_eq_true] using hid
  unfold VideoEffect.afterResolved at h
  rw [hoperation, show (some id).filter (· ≠ "") = some id by simp [hne]] at h
  have h := gives_of_monotonic h.of_bind.of_bind 0
  dsimp only at h
  rw [if_pos hdeadline] at h
  have h := h.of_bind.of_bind (.error { cls := .readTimeout, typeName := "ReadTimeout" }) s
    ⟨[], fun _ hc => absurd hc List.not_mem_nil, rfl⟩
  have h := gives_of_ledger (Py.Gives.of_bind h)
    (LedgerCall.apply_markUncertain_failed hrow hfailed _ _)
  exact ⟨_, h⟩

end Stale

/-- An error of the lifecycle that says how the effect ended agrees with its row. -/
def FlagAgrees (org : OrganizationId) (effectKey : String) (r : Except PyExc Artifact)
    (s : Ledger) : Prop :=
  ∀ code retryable uncertain errorType key provider,
    r = .error (.videoEffect code retryable uncertain errorType key provider) →
      ∃ row, s.effect? org effectKey = some row ∧
        row.status = if uncertain then .uncertain else .failed

theorem flagAgrees_of_flagged {org : OrganizationId} {key : String} {r : Except PyExc Artifact}
    {s : Ledger} (h : Flagged org key (fun _ _ => True) r s) : FlagAgrees org key r s := by
  rintro code retryable uncertain errorType key' provider rfl
  exact h

theorem Replays.apply_reserve {ctx : ToolContext} {e : VideoEffect} {org : OrganizationId}
    {s : Ledger} {row : Effect} (h : Replays ctx e org s row) (hopen : row.status ≠ .uncertain) :
    (LedgerCall.effect org (.reserve e.effectKey ctx.runId e.provider e.units e.request)).apply s =
      (.ok (reservation row false), s) := by
  obtain ⟨-, hkey⟩ := Ledger.effect?_key h.found
  have hreserve := LedgerCall.apply_reserve_same (hkey ▸ h.found) (h.sameUnits ▸ h.units)
    (h.sameProvider ▸ h.quota)
  rw [hkey, h.sameRun, h.sameProvider, h.sameUnits, h.sameRequest, if_neg hopen] at hreserve
  exact hreserve

theorem flag_disagrees_of_stale {ctx : ToolContext} {e : VideoEffect} {org : OrganizationId}
    {s : Ledger} {row : Effect} (hledger : ctx.effectLedger = some org)
    (hrow : Replays ctx e org s row) (hstale : row.Stale) :
    ¬ ∀ r s', (durablePredictionLifecycle 1 ctx e).Ends LedgerCall.apply
      (meanwhile org e.effectKey) s r s' → FlagAgrees org e.effectKey r s' := by
  intro hagrees
  have h : (durablePredictionLifecycle 1 ctx e).Gives org e.effectKey
    (FlagAgrees org e.effectKey) s := Prog.gives_iff.mpr hagrees
  unfold durablePredictionLifecycle at h
  simp only [hledger] at h
  have h := gives_of_monotonic h.of_bind 0
  have h := gives_of_ledger ((Prog.gives_bind _ _ _ _).mp h.of_bind)
    (hrow.apply_reserve hstale.not_uncertain)
  have hdeadline : 0 < 0 + videoTimeoutSeconds ctx := by
    rw [zero_add]
    exact videoTimeoutSeconds_pos ctx
  have hraised : ∃ code retryable errorType, FlagAgrees org e.effectKey
      (.error (e.error code retryable true errorType)) s := by
    cases hid : row.identified with
    | false =>
        have hopen : row.status ≠ .succeeded := by
          rcases hstale with hfailed | ⟨hreserved, -⟩
          · simp [hfailed]
          · simp [hreserved]
        obtain ⟨errorType, h⟩ := unresolved_raised _ hrow.found hid hopen h
        exact ⟨_, _, errorType, h⟩
    | true =>
        have hfailed : row.status = .failed :=
          hstale.resolve_right fun hreserved => by cases hid.symm.trans hreserved.2
        obtain ⟨errorType, h⟩ := outage_raised hdeadline hrow.found hid hfailed h
        exact ⟨_, _, errorType, h⟩
  obtain ⟨code, retryable, errorType, h⟩ := hraised
  obtain ⟨row', hrow', huncertain⟩ := h _ _ _ _ _ _ rfl
  cases hrow.found.symm.trans hrow'
  exact hstale.not_uncertain huncertain

/-- An error of the durable lifecycle has the flag of the stored effect exactly
when the reservation does not replay a failed effect or one without its id. -/
theorem videoError_flag_agrees_iff (ctx : ToolContext) (e : VideoEffect) (org : OrganizationId)
    (s : Ledger) (hledger : ctx.effectLedger = some org) :
    (∀ fuel r s', (durablePredictionLifecycle fuel ctx e).Ends LedgerCall.apply
        (meanwhile org e.effectKey) s r s' → FlagAgrees org e.effectKey r s') ↔
      ¬ ∃ row, Replays ctx e org s row ∧ row.Stale := by
  constructor
  · rintro h ⟨row, hrow, hstale⟩
    exact flag_disagrees_of_stale hledger hrow hstale (h 1)
  · intro h fuel r s' hend
    have hreplays (row : Effect) (hrow : Replays ctx e org s row) :
        row.status = .succeeded ∨ row.Awaiting :=
      row.stale_or.resolve_left fun hstale => h ⟨row, hrow, hstale⟩
    exact flagAgrees_of_flagged
      (Prog.gives_iff.mp (lifecycle_meets hledger fuel hreplays) r s' hend)

/-- The clip was refused by the network before it was made, and its units released. -/
def refusedClip : List LedgerCall :=
  clipLedger ++
    [.effect "org" (.reserve "video" "run" "replicate_video_seconds" 8 (.obj [])),
      .effect "org" (.markFailed "video" "ConnectError" true (some "ConnectError"))]

def refusedRow : Effect :=
  { boundRow with
    status := .failed
    error := some "ConnectError"
    errorType := some "ConnectError"
    providerOperationId := none
    providerStatus := none }

/-- The replay of the refused clip waits for an id and reports it as uncertain. -/
theorem refused_clip_reported_uncertain :
    ¬ ∀ calls fuel r s', (durablePredictionLifecycle fuel clipContext finishedClip.effect).Ends
      LedgerCall.apply (meanwhile "org" "video")
      (Machine.run LedgerCall.step Ledger.empty calls) r s' → FlagAgrees "org" "video" r s' := by
  intro h
  have hrow : Replays clipContext finishedClip.effect "org"
      (Machine.run LedgerCall.step Ledger.empty refusedClip) refusedRow :=
    ⟨by decide +kernel, by decide +kernel, by decide, rfl, rfl, rfl, rfl⟩
  exact flag_disagrees_of_stale rfl hrow (Or.inl rfl) (h refusedClip 1)

/-- A clip that was never reserved has no such row. -/
theorem new_clip_flag_agrees : clipContext.effectLedger = some "org" ∧
    ∀ fuel r s', (durablePredictionLifecycle fuel clipContext finishedClip.effect).Ends
      LedgerCall.apply (meanwhile "org" "video")
      (Machine.run LedgerCall.step Ledger.empty clipLedger) r s' →
        FlagAgrees "org" "video" r s' := by
  refine ⟨rfl, (videoError_flag_agrees_iff clipContext finishedClip.effect "org" _ rfl).mpr ?_⟩
  rintro ⟨row, hrow, -⟩
  have hnone : (Machine.run LedgerCall.step Ledger.empty clipLedger).effect? "org" "video" =
      none := by
    decide +kernel
  cases hrow.found.symm.trans hnone

end Orchestrator
