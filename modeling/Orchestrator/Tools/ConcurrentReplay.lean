import Orchestrator.Tools.PaidOnce

/-!
What a replay does to a paid effect whose operation is still in flight.

A replay that finds the effect reserved and unfinished marks it uncertain, and
the completion of the owner is guarded on the status. The protocol follows one
effect through the phases of `execute_paid_effect`; at most one execution ever
leaves the first phase. What the owner gets back is then decided by whether some
replay marked the effect before the owner completed it.
-/

namespace Orchestrator

/-- How far one execution is with one effect. -/
inductive PaidPhase where
  /-- It has not created the reservation. -/
  | outside
  | owner
  | paying
  | paid (result : Json)
  /-- Its operation raised. -/
  | raised
  | recorded (result : Json)
  | conflicted (result : Json) (exc : LedgerError)
  deriving DecidableEq

namespace PaidPhase

/-- The operation was invoked. -/
def submitted : PaidPhase → Bool
  | .outside | .owner => false
  | _ => true

/-- The result the operation gave. -/
def result? : PaidPhase → Option Json
  | .paid r | .recorded r | .conflicted r _ => some r
  | _ => none

/-- The phase after the operation came back. -/
def afterOperation : Except ExternalError Json → PaidPhase
  | .ok result => .paid result
  | .error _ => .raised

/-- The phase after the completion of a paid effect. -/
def afterCompletion {α : Type} (result : Json) : Except LedgerError α → PaidPhase
  | .ok _ => .recorded result
  | .error exc => .conflicted result exc

end PaidPhase

/-- The transitions an effect makes only for the execution that owns it. -/
def LedgerCall.settles (org : OrganizationId) (key : String) : LedgerCall → Bool
  | .effect _ (.get _) | .effect _ (.reserve ..) | .effect _ (.markUncertain ..)
  | .effect _ (.markReconciled ..) => false
  | .effect ledger op => ledger = org ∧ op.effectKey = key
  | .setQuota .. => false

/-- A created reservation is a reserved one. -/
def LedgerCall.CreatedReserved : (c : LedgerCall) → Except LedgerError c.Value → Prop
  | .effect _ (.reserve ..), .ok reservation =>
      EffectReservation.created reservation = true →
        EffectReservation.status reservation = .reserved
  | _, _ => True

def replayProtocol (org : OrganizationId) (key : String) :
    Protocol toolSignature PaidPhase where
  start := .outside
  mayReply := LedgerCall.CreatedReserved
  mayHang _ := False
  mayOp
    | .outside, c => c.settles org key = false
    | .paid r, c => c = .effect org (.markSucceeded key r)
    | .raised, _ => True
    | _, _ => False
  afterOp
    | .outside, c, r => if grants org key c r then .owner else .outside
    | .paid result, _, r => .afterCompletion result r
    | g, _, _ => g
  mayCall
    | .outside, c => c.paysFor org key = false
    | .owner, c => c = .operation (some org) key
    | _, _ => False
  afterCall
    | .owner, _ => .paying
    | g, _ => g
  afterAnswer
    | .paying, .operation _ _, a => .afterOperation a
    | g, _, _ => g

/-- How an execution may end in each phase. -/
def replayPost : PaidPhase → Except PyExc Json → Prop
  | .outside, _ | .raised, _ => True
  | .recorded result, out => out = .ok result
  | .conflicted _ exc, out => out = .error (.ledger exc)
  | _, _ => False

section Programs
variable {org : OrganizationId} {key : String} {α β : Type}

/-- The program never takes up the effect. -/
def Outside (org : OrganizationId) (key : String) (p : Py α) : Prop :=
  (replayProtocol org key).Follows p (fun g _ => g = .outside) .outside

theorem outside_pure (a : α) : Outside org key (pure a : Py α) := rfl

theorem outside_raise (exc : PyExc) : Outside org key (Py.raise exc : Py α) := rfl

theorem outside_bind {p : Py β} {f : β → Py α} (hp : Outside org key p)
    (hf : ∀ b, Outside org key (f b)) : Outside org key (p >>= f) := by
  rw [Outside, follows_bind_py]
  refine Protocol.Follows.mono hp fun g r hg => ⟨fun b _ => ?_, fun _ _ => hg⟩
  subst hg
  exact hf b

theorem outside_attempt {p : Py α} (hp : Outside org key p) : Outside org key p.attempt := by
  rw [Outside, follows_attempt]
  exact hp

theorem outside_ite {c : Prop} [Decidable c] {p q : Py α} (hp : Outside org key p)
    (hq : Outside org key q) : Outside org key (if c then p else q) := by
  split
  · exact hp
  · exact hq

theorem outside_ledger {ledger : OrganizationId} {op : EffectOp}
    (hsettles : (LedgerCall.effect ledger op).settles org key = false)
    (hgrants : ∀ r : Except LedgerError EffectReservation,
      grants org key (.effect ledger op) r = false) :
    Outside org key (Py.ledger ledger op) := by
  rw [Outside, follows_ledger]
  refine ⟨hsettles, fun r _ => ?_⟩
  simp only [replayProtocol, hgrants]
  rfl

theorem outside_await {c : ToolCall} {decode : c.Answer → Except PyExc α}
    (hc : c.paysFor org key = false) : Outside org key (Py.await c decode) :=
  ⟨hc, fun _ => rfl⟩

theorem outside_other {ledger : OrganizationId} {op : EffectOp}
    (hne : ¬ (ledger = org ∧ op.effectKey = key)) : Outside org key (Py.ledger ledger op) := by
  refine outside_ledger ?_ ?_
  · unfold LedgerCall.settles
    split <;> simp_all
  · intro r
    unfold grants
    split
    · rename_i heq
      simp_all [EffectOp.effectKey]
    · rfl

theorem Outside.follows {p : Py Json} (hp : Outside org key p) :
    (replayProtocol org key).Follows p replayPost .outside := by
  refine Protocol.Follows.mono hp fun g r hg => ?_
  subst hg
  trivial

theorem outside_reconcileAndMark (e : PaidEffect) (ledger : OrganizationId) :
    Outside org key (e.reconcileAndMark ledger) := by
  refine outside_bind (outside_await rfl) fun reconciled => ?_
  exact outside_bind (outside_ledger rfl fun _ => rfl) fun _ => outside_pure _

theorem outside_payAndMark (e : PaidEffect) {ledger : OrganizationId}
    (hne : ¬ (ledger = org ∧ e.effectKey = key)) :
    Outside org key (e.payAndMark ledger) := by
  have hpays : (ToolCall.operation (some ledger) e.effectKey).paysFor org key = false := by
    simpa [ToolCall.paysFor] using hne
  refine outside_bind (outside_attempt (outside_await hpays)) fun r => ?_
  cases r with
  | error exc =>
      refine outside_ite ?_ ?_ <;>
        exact outside_bind (outside_other hne) fun _ => outside_raise _
  | ok result => exact outside_bind (outside_other hne) fun _ => outside_pure _

/-- The owner pays, and its completion decides how it ends. -/
theorem payAndMark_owner (e : PaidEffect) :
    (replayProtocol org e.effectKey).Follows (e.payAndMark org) replayPost .owner := by
  rw [PaidEffect.payAndMark, follows_bind_py, follows_attempt, Py.operation, follows_await]
  refine ⟨rfl, fun a => ⟨?_, fun _ h => by cases h⟩⟩
  rintro _ ⟨⟩
  cases a with
  | error exc =>
      refine (follows_ite _ _ _ _ _ _).mpr ⟨fun _ => ?_, fun _ => ?_⟩ <;>
        · rw [follows_bind_py, follows_ledger]
          exact ⟨trivial, fun _ _ => ⟨fun _ _ => trivial, fun _ _ => trivial⟩⟩
  | ok result =>
      refine (follows_bind_py _ _ _ _ _).mpr ((follows_ledger _ _ _ _ _).mpr ⟨rfl, ?_⟩)
      rintro (exc | reservation) -
      · refine ⟨fun _ h => (by cases h), fun exc' h => ?_⟩
        cases h
        rfl
      · exact ⟨fun _ _ => rfl, fun _ h => by cases h⟩

/-- An execution that did not create the reservation does not take up the effect. -/
theorem outside_replayOrPay (e : PaidEffect) {ledger : OrganizationId}
    {reservation : EffectReservation}
    (h : ledger = org ∧ e.effectKey = key → reservation.created = false) :
    Outside org key (e.replayOrPay ledger reservation) := by
  unfold PaidEffect.replayOrPay
  split
  · split
    · exact outside_raise _
    · exact outside_pure _
  split
  · exact outside_reconcileAndMark e ledger
  split
  · exact outside_bind (outside_ledger rfl fun _ => rfl) fun _ => outside_raise _
  · rename_i hcreated
    refine outside_payAndMark e fun hkey => ?_
    rw [h hkey] at hcreated
    exact hcreated Bool.false_ne_true

theorem replayOrPay_owner (e : PaidEffect) {reservation : EffectReservation}
    (hcreated : reservation.created = true) (hstatus : reservation.status = .reserved) :
    (replayProtocol org e.effectKey).Follows (e.replayOrPay org reservation) replayPost
      .owner := by
  unfold PaidEffect.replayOrPay
  rw [if_neg (by simp [hstatus]), if_neg (by simp [hstatus]), if_neg (by simp [hcreated])]
  exact payAndMark_owner e

theorem executePaidEffect_replay (ctx : ToolContext) (e : PaidEffect)
    (hdurable : ctx.durable = true) :
    (replayProtocol org key).Follows (executePaidEffect ctx e) replayPost .outside := by
  unfold executePaidEffect
  rw [if_neg (by simp [hdurable])]
  split
  · trivial
  split
  · trivial
  rename_i ledger _
  rw [follows_bind_py, follows_attempt, follows_ledger]
  refine ⟨rfl, fun r hr => ⟨?_, fun _ h => by cases h⟩⟩
  rintro _ ⟨⟩
  cases r with
  | error exc =>
      exact (outside_ite (outside_raise _) (outside_reconcileAndMark e ledger)).follows
  | ok reservation =>
      by_cases hown : (ledger = org ∧ e.effectKey = key) ∧ reservation.created = true
      · obtain ⟨⟨rfl, rfl⟩, hcreated⟩ := hown
        simp only [replayProtocol, grants, hcreated]
        exact replayOrPay_owner e hcreated (hr hcreated)
      · have hgrants : grants org key
            (.effect ledger (.reserve e.effectKey ctx.runId e.provider e.units e.request))
            (.ok reservation : Except LedgerError EffectReservation) = false := by
          simpa [grants] using hown
        simp only [replayProtocol, hgrants]
        refine (outside_replayOrPay e fun hkey => ?_).follows
        simpa [hkey] using hown

end Programs

/-- The call left the effect uncertain and said so: the effect is now marked. -/
def reportsUncertain (org : OrganizationId) (key : String) :
    (c : LedgerCall) → Except LedgerError c.Value → Bool
  | .effect ledger (.markUncertain effectKey _ _), .ok reservation =>
      (ledger = org ∧ effectKey = key) && EffectReservation.status reservation = .uncertain
  | _, _ => false

/-- What a call of a replay can do to the row of an effect. -/
inductive ReplayStep (org : OrganizationId) (key : String) (c : LedgerCall)
    (r : Except LedgerError c.Value) (row : Effect) : Effect → Prop where
  | same (h : reportsUncertain org key c r = true → row.status = .uncertain) :
      ReplayStep org key c r row row
  | marked {row'} (hsame : SameEffect row row') (hbefore : row.status = .reserved)
      (hafter : row'.status = .uncertain) (h : reportsUncertain org key c r = true) :
      ReplayStep org key c r row row'
  | reconciled {row'} (hsame : SameEffect row row') (result : Json) (reply : EffectReservation)
      (hbefore : row.status = .uncertain) (hafter : row'.status = .succeeded)
      (hresult : row'.result = some result)
      (hc : (⟨c, r⟩ : (c : LedgerCall) × Except LedgerError c.Value) =
        ⟨.effect org (.markReconciled key result), .ok reply⟩) :
      ReplayStep org key c r row row'

section ReplaySteps
variable {org : OrganizationId} {key : String} {s : Ledger} {row : Effect}

theorem markUncertain_step (hrow : s.effect? org key = some row) (error : String)
    (errorType : Option String) :
    let c := LedgerCall.effect org (.markUncertain key error errorType)
    ∃ row', (c.apply s).2.effect? org key = some row' ∧
      ReplayStep org key c (c.apply s).1 row row' := by
  intro c
  by_cases hstatus : row.status = .reserved
  · have hin : s.effectIn? org key .reserved = some row :=
      Ledger.effectIn?_eq_some_iff.mpr ⟨hrow, hstatus⟩
    simp only [c, LedgerCall.apply, LedgerCall.transact, EffectOp.transact,
      PostgresEffectLedger.markUncertain, hin]
    refine ⟨_, Ledger.effect?_updateEffect_self _ _ hrow, .marked ?_ hstatus rfl ?_⟩
    · constructor <;> rfl
    · simp [reportsUncertain, reservation]
  · have hin : s.effectIn? org key .reserved = none := Ledger.effectIn?_of_ne hrow hstatus
    simp only [c, LedgerCall.apply, LedgerCall.transact, EffectOp.transact,
      PostgresEffectLedger.markUncertain, hin, hrow]
    refine ⟨row, rfl, .same fun h => ?_⟩
    simp only [reportsUncertain, reservation, Bool.and_eq_true, decide_eq_true_eq] at h
    exact of_decide_eq_true h.2

theorem markReconciled_step (hrow : s.effect? org key = some row) (result : Json) :
    let c := LedgerCall.effect org (.markReconciled key result)
    ∃ row', (c.apply s).2.effect? org key = some row' ∧
      ReplayStep org key c (c.apply s).1 row row' := by
  intro c
  by_cases hstatus : row.status = .uncertain
  · have hin : s.effectIn? org key .uncertain = some row :=
      Ledger.effectIn?_eq_some_iff.mpr ⟨hrow, hstatus⟩
    simp only [c, LedgerCall.apply, LedgerCall.transact, EffectOp.transact,
      PostgresEffectLedger.markReconciled, hin]
    refine ⟨_, Ledger.effect?_updateEffect_self _ _ hrow,
      .reconciled ?_ result _ hstatus rfl rfl rfl⟩
    constructor <;> rfl
  · have hin : s.effectIn? org key .uncertain = none := Ledger.effectIn?_of_ne hrow hstatus
    simp only [c, LedgerCall.apply, LedgerCall.transact, EffectOp.transact,
      PostgresEffectLedger.markReconciled, hin]
    exact ⟨row, hrow, .same (by simp [reportsUncertain])⟩

/-- Whatever a replay calls, it keeps the row, marks it or reconciles it. -/
theorem replay_step {c : LedgerCall} (hsettles : c.settles org key = false)
    (hrow : s.effect? org key = some row) :
    ∃ row', (c.apply s).2.effect? org key = some row' ∧
      ReplayStep org key c (c.apply s).1 row row' := by
  by_cases hown : ∃ op, c = .effect org op ∧ op.effectKey = key
  · obtain ⟨op, rfl, rfl⟩ := hown
    cases op with
    | get key =>
        have hget : ((LedgerCall.effect org (.get key)).apply s).2 = s := by
          simp only [LedgerCall.apply, LedgerCall.transact, EffectOp.transact,
            PostgresEffectLedger.get]
          split <;> rename_i h <;> split at h <;> cases h <;> rfl
        exact ⟨row, by rw [hget]; exact hrow, .same (by simp [reportsUncertain])⟩
    | reserve key runId provider units request =>
        change s.effect? org key = some row at hrow
        refine ⟨row, ?_, .same (by simp [reportsUncertain])⟩
        change ((LedgerCall.effect org _).apply s).2.effect? org key = some row
        rw [LedgerCall.apply_reserve_of_present hrow]
        exact hrow
    | markUncertain key error errorType => exact markUncertain_step hrow error errorType
    | markReconciled key result => exact markReconciled_step hrow result
    | _ => simp [LedgerCall.settles] at hsettles
  · have hne : ∀ op, c = .effect org op → op.effectKey ≠ key :=
      fun op hc hkey => hown ⟨op, hc, hkey⟩
    refine ⟨row, ((c.change_or_unchanged s).effect?_of_ne hne).trans hrow, .same ?_⟩
    intro hreports
    unfold reportsUncertain at hreports
    split at hreports
    · rename_i ledger effectKey error errorType reservation heq
      simp only [Bool.and_eq_true, decide_eq_true_eq] at hreports
      obtain ⟨⟨rfl, rfl⟩, -⟩ := hreports
      exact absurd rfl (hne _ rfl)
    · cases hreports

theorem row_of_reportsUncertain {c : LedgerCall}
    (h : reportsUncertain org key c (c.apply s).1 = true) : (s.effect? org key).isSome := by
  by_contra hnone
  have hnone : s.effect? org key = none := by simpa using hnone
  unfold reportsUncertain at h
  split at h
  · rename_i ledger effectKey error errorType reservation hreply
    simp only [Bool.and_eq_true, decide_eq_true_eq] at h
    obtain ⟨⟨rfl, rfl⟩, -⟩ := h
    simp [LedgerCall.apply, LedgerCall.transact, EffectOp.transact,
      PostgresEffectLedger.markUncertain, Ledger.effectIn?, hnone] at hreply
  · cases h

theorem ReplayStep.sameEffect {c : LedgerCall} {r : Except LedgerError c.Value}
    {row' : Effect} (h : ReplayStep org key c r row row') : SameEffect row row' := by
  cases h with
  | same _ => exact .refl row
  | marked hsame _ _ _ => exact hsame
  | reconciled hsame _ _ _ _ _ _ => exact hsame

end ReplaySteps

/-- Some call in the history left the effect uncertain. -/
def markedUncertain (org : OrganizationId) (key : String) (notes : List (Note toolSignature)) :
    Bool :=
  notes.any fun
    | .committed _ c r => reportsUncertain org key c r
    | _ => false

/-- The effect was completed by a reconciliation, with the reconciled result. -/
def Reconciled (org : OrganizationId) (key : String) (notes : List (Note toolSignature))
    (row : Effect) : Prop :=
  row.status = .succeeded ∧ ∃ i result, ∃ reply : EffectReservation,
    (.committed i (.effect org (.markReconciled key result)) (.ok reply) :
      Note toolSignature) ∈ notes ∧ row.result = some result

/-- A later reservation of the row is answered from the row. -/
def Replayable (org : OrganizationId) (s : Ledger) (row : Effect) : Prop :=
  0 < row.units ∧ (s.quota? org row.provider).isSome

theorem Replayable.change {org : OrganizationId} {s s' : Ledger} {c : LedgerCall}
    {row row' : Effect} (h : Replayable org s row) (hchange : Change s c s')
    (hsame : SameEffect row row') : Replayable org s' row' := by
  obtain ⟨hunits, hquota⟩ := h
  refine ⟨hsame.units ▸ hunits, ?_⟩
  rw [hsame.provider]
  exact hchange.quota?_isSome hquota

/-- The row of an effect that was marked: uncertain still, or reconciled. -/
def Disputed (org : OrganizationId) (key : String) (notes : List (Note toolSignature))
    (row : Effect) : Prop :=
  markedUncertain org key notes = true ∧
    (row.status = .uncertain ∨ Reconciled org key notes row)

/-- The row of the effect as a phase of its owner needs it. -/
def RowAt (org : OrganizationId) (key : String) (notes : List (Note toolSignature))
    (row : Effect) : PaidPhase → Prop
  | .owner | .paying | .paid _ =>
      (markedUncertain org key notes = false ∧ row.status = .reserved) ∨
        Disputed org key notes row
  | .recorded result =>
      row.status = .succeeded ∧
        ((markedUncertain org key notes = false ∧ row.result = some result) ∨
          Disputed org key notes row)
  | .conflicted _ exc =>
      (∃ message, exc = .uncertainEffect message) ∧ Disputed org key notes row
  | .outside | .raised => True

structure ReplayInv (org : OrganizationId) (key : String) (s : Ledger)
    (phase : Nat → PaidPhase) (notes : List (Note toolSignature)) : Prop where
  unique : ∀ i j, phase i ≠ .outside → phase j ≠ .outside → i = j
  present : ∀ i, phase i ≠ .outside → (s.effect? org key).isSome
  marked : markedUncertain org key notes = true → (s.effect? org key).isSome
  row : ∀ i, phase i ≠ .outside → phase i ≠ .raised →
    ∃ row, s.effect? org key = some row ∧ Replayable org s row ∧
      RowAt org key notes row (phase i)
  unpaid : (∀ i, (phase i).submitted = false) → paidInvocations org key notes = 0
  paid : ∀ i, (phase i).submitted = true → paidInvocations org key notes = 1
  answered : ∀ i result, (.answered i (.operation (some org) key) (.ok result) :
    Note toolSignature) ∈ notes → (phase i).result? = some result

section Histories
variable {org : OrganizationId} {key : String} {notes : List (Note toolSignature)}
  {note : Note toolSignature} {row : Effect}

theorem paidInvocations_concat :
    paidInvocations org key (notes ++ [note]) =
      paidInvocations org key notes + paidInvocations org key [note] := by
  rw [paidInvocations, List.countP_append]
  rfl

theorem markedUncertain_concat :
    markedUncertain org key (notes ++ [note]) =
      (markedUncertain org key notes || markedUncertain org key [note]) := by
  rw [markedUncertain, List.any_append]
  rfl

theorem markedUncertain_committed {i : Nat} {c : LedgerCall} {r : Except LedgerError c.Value} :
    markedUncertain org key [(.committed i c r : Note toolSignature)] =
      reportsUncertain org key c r := by
  simp [markedUncertain]

theorem Reconciled.concat (h : Reconciled org key notes row) (note : Note toolSignature) :
    Reconciled org key (notes ++ [note]) row := by
  obtain ⟨hstatus, i, result, reply, hmem, hresult⟩ := h
  exact ⟨hstatus, i, result, reply, List.mem_append_left _ hmem, hresult⟩

theorem Disputed.concat (h : Disputed org key notes row) (note : Note toolSignature) :
    Disputed org key (notes ++ [note]) row := by
  refine ⟨?_, h.2.imp_right (·.concat note)⟩
  rw [markedUncertain_concat, h.1, Bool.true_or]

/-- A note that marks nothing leaves what is known of the row. -/
theorem RowAt.concat {phase : PaidPhase} (h : RowAt org key notes row phase)
    (hnote : markedUncertain org key [note] = false) :
    RowAt org key (notes ++ [note]) row phase := by
  have hkeep : markedUncertain org key notes = false →
      markedUncertain org key (notes ++ [note]) = false := by
    intro hm
    rw [markedUncertain_concat, hnote, hm, Bool.or_false]
  cases phase with
  | outside | raised => trivial
  | owner | paying | paid _ => exact h.imp (fun hm => ⟨hkeep hm.1, hm.2⟩) (·.concat note)
  | recorded result =>
      exact ⟨h.1, h.2.imp (fun hm => ⟨hkeep hm.1, hm.2⟩) (·.concat note)⟩
  | conflicted result exc => exact ⟨h.1, h.2.concat note⟩

section Replay
variable {i : Nat} {c : LedgerCall} {r : Except LedgerError c.Value} {row' : Effect}

theorem ReplayStep.of_succeeded (h : ReplayStep org key c r row row')
    (hstatus : row.status = .succeeded) :
    row' = row ∧ reportsUncertain org key c r = false := by
  cases h with
  | same h =>
      refine ⟨rfl, Bool.eq_false_iff.mpr fun hreports => ?_⟩
      rw [h hreports] at hstatus
      cases hstatus
  | marked _ hbefore _ _ =>
      rw [hbefore] at hstatus
      cases hstatus
  | reconciled _ _ _ hbefore _ _ _ =>
      rw [hbefore] at hstatus
      cases hstatus

theorem Disputed.replay (h : Disputed org key notes row)
    (hstep : ReplayStep org key c r row row') :
    Disputed org key (notes ++ [(.committed i c r : Note toolSignature)]) row' := by
  obtain ⟨hmarked, hrow⟩ := h
  have hmarked' : markedUncertain org key
      (notes ++ [(.committed i c r : Note toolSignature)]) = true := by
    rw [markedUncertain_concat, hmarked, Bool.true_or]
  cases hstep with
  | same _ => exact ⟨hmarked', hrow.imp_right (·.concat _)⟩
  | marked _ _ hafter _ => exact ⟨hmarked', Or.inl hafter⟩
  | reconciled _ result reply _ hafter hresult hc =>
      obtain ⟨rfl, hr⟩ := Sigma.mk.inj hc
      cases hr
      refine ⟨hmarked', Or.inr ⟨hafter, i, result, reply, ?_, hresult⟩⟩
      exact List.mem_append_right _ List.mem_cons_self

/-- A replay keeps what is known of the row, or marks the effect while it is open. -/
theorem RowAt.replay {phase : PaidPhase} (h : RowAt org key notes row phase)
    (hstep : ReplayStep org key c r row row') :
    RowAt org key (notes ++ [(.committed i c r : Note toolSignature)]) row' phase := by
  cases phase with
  | outside | raised => trivial
  | owner | paying | paid _ =>
      rcases h with ⟨hmarked, hreserved⟩ | h
      · cases hstep with
        | same hreports =>
            refine RowAt.concat (Or.inl ⟨hmarked, hreserved⟩) ?_
            rw [markedUncertain_committed]
            refine Bool.eq_false_iff.mpr fun htrue => ?_
            rw [hreports htrue] at hreserved
            cases hreserved
        | marked _ _ hafter hreports =>
            refine Or.inr ⟨?_, Or.inl hafter⟩
            rw [markedUncertain_concat, markedUncertain_committed, hreports, Bool.or_true]
        | reconciled _ _ _ hbefore _ _ _ =>
            rw [hbefore] at hreserved
            cases hreserved
      · exact Or.inr (h.replay hstep)
  | recorded result =>
      obtain ⟨rfl, hreports⟩ := hstep.of_succeeded h.1
      exact RowAt.concat h (markedUncertain_committed.trans hreports)
  | conflicted result exc => exact ⟨h.1, h.2.replay hstep⟩

end Replay

end Histories

namespace ReplayInv
variable {org : OrganizationId} {key : String} {s s' : Ledger} {phase : Nat → PaidPhase}
  {notes : List (Note toolSignature)} {note : Note toolSignature}

theorem initial (s : Ledger) : ReplayInv org key s (fun _ => .outside) [] where
  unique _ _ h := absurd rfl h
  present _ h := absurd rfl h
  marked h := by cases h
  row _ h := absurd rfl h
  unpaid _ := rfl
  paid _ h := by cases h
  answered _ _ h := by cases h

/-- A step that moves no phase. -/
theorem keep (h : ReplayInv org key s phase notes)
    (hpaid : paidInvocations org key [note] = 0)
    (hanswer : ∀ i result, note ≠ .answered i (.operation (some org) key) (.ok result))
    (hpresent : (s.effect? org key).isSome → (s'.effect? org key).isSome)
    (hmarked : markedUncertain org key [note] = true → (s.effect? org key).isSome)
    (hrow : ∀ i row, phase i ≠ .outside → phase i ≠ .raised → s.effect? org key = some row →
      Replayable org s row → RowAt org key notes row (phase i) →
      ∃ row', s'.effect? org key = some row' ∧ Replayable org s' row' ∧
        RowAt org key (notes ++ [note]) row' (phase i)) :
    ReplayInv org key s' phase (notes ++ [note]) := by
  have hcount : paidInvocations org key (notes ++ [note]) = paidInvocations org key notes := by
    rw [paidInvocations_concat, hpaid, Nat.add_zero]
  refine ⟨h.unique, fun i hi => hpresent (h.present i hi), ?_, ?_, ?_, ?_, ?_⟩
  · intro hm
    rw [markedUncertain_concat, Bool.or_eq_true] at hm
    exact hpresent (hm.elim h.marked hmarked)
  · intro i hi hraised
    obtain ⟨row, hfound, hreplay, hat⟩ := h.row i hi hraised
    exact hrow i row hi hraised hfound hreplay hat
  · intro hall
    exact hcount.trans (h.unpaid hall)
  · intro i hi
    exact hcount.trans (h.paid i hi)
  · intro i result hmem
    rcases List.mem_append.mp hmem with hmem | hmem
    · exact h.answered i result hmem
    · exact absurd (List.mem_singleton.mp hmem).symm (hanswer i result)

/-- A step that moves the one execution that has taken up the effect, or takes it up. -/
theorem move {i : Nat} {g : PaidPhase} (honly : ∀ j, phase j ≠ .outside → j = i)
    (hpresent : (s'.effect? org key).isSome)
    (hcount : paidInvocations org key (notes ++ [note]) = if g.submitted then 1 else 0)
    (hrow : g ≠ .raised → ∃ row, s'.effect? org key = some row ∧
      Replayable org s' row ∧ RowAt org key (notes ++ [note]) row g)
    (hanswered : ∀ j result, (.answered j (.operation (some org) key) (.ok result) :
      Note toolSignature) ∈ notes ++ [note] → j = i ∧ g.result? = some result) :
    ReplayInv org key s' (Function.update phase i g) (notes ++ [note]) := by
  have hother : ∀ j, j ≠ i → Function.update phase i g j = .outside := by
    intro j hj
    rw [Function.update_of_ne hj]
    by_contra hne
    exact hj (honly j hne)
  have hall : ∀ j, Function.update phase i g j ≠ .outside → j = i := by
    intro j hj
    by_contra hji
    exact hj (hother j hji)
  refine ⟨?_, fun _ _ => hpresent, fun _ => hpresent, ?_, ?_, ?_, ?_⟩
  · intro j k hj hk
    rw [hall j hj, hall k hk]
  · intro j hj hraised
    obtain rfl := hall j hj
    rw [Function.update_self] at hraised ⊢
    exact hrow hraised
  · intro hnone
    have hi := hnone i
    rw [Function.update_self] at hi
    rw [hcount, hi]
    rfl
  · intro j hj
    obtain rfl : j = i := hall j fun houtside => by rw [houtside] at hj; cases hj
    rw [Function.update_self] at hj
    rw [hcount, hj]
    rfl
  · intro j result hmem
    obtain ⟨rfl, hresult⟩ := hanswered j result hmem
    rw [Function.update_self]
    exact hresult

/-- What was answered before is known of the one execution that has taken up the effect. -/
theorem answered_of_only (h : ReplayInv org key s phase notes) {i : Nat}
    (honly : ∀ j, phase j ≠ .outside → j = i) {j : Nat} {result : Json}
    (hmem : (.answered j (.operation (some org) key) (.ok result) : Note toolSignature) ∈ notes) :
    j = i ∧ (phase i).result? = some result := by
  have hresult := h.answered j result hmem
  have hj : j = i := honly j fun houtside => by rw [houtside] at hresult; cases hresult
  exact ⟨hj, hj ▸ hresult⟩

theorem only (h : ReplayInv org key s phase notes) {i : Nat} (hi : phase i ≠ .outside) :
    ∀ j, phase j ≠ .outside → j = i :=
  fun j hj => h.unique j i hj hi

/-- An execution creates the reservation of the effect. -/
theorem create (h : ReplayInv org key s phase notes) {i : Nat} {c : LedgerCall}
    (hgrants : grants org key c (c.apply s).1 = true) :
    ReplayInv org key (c.apply s).2 (Function.update phase i .owner)
      (notes ++ [(.committed i c (c.apply s).1 : Note toolSignature)]) := by
  have hunreported : reportsUncertain org key c (c.apply s).1 = false := by
    obtain ⟨_, _, _, _, _, rfl, -⟩ := of_grants hgrants
    rfl
  obtain ⟨hnone, row, hrow, hstatus, hunits, hquota⟩ := grants_apply hgrants
  have hall : ∀ j, phase j = .outside := by
    intro j
    by_contra hj
    have hsome := h.present j hj
    rw [hnone] at hsome
    cases hsome
  have hunmarked : markedUncertain org key notes = false := by
    refine Bool.eq_false_iff.mpr fun hm => ?_
    have hsome := h.marked hm
    rw [hnone] at hsome
    cases hsome
  refine move (fun j hj => absurd (hall j) hj) ?_ ?_ (fun _ => ⟨row, hrow, ⟨hunits, hquota⟩, ?_⟩) ?_
  · exact Option.isSome_iff_exists.mpr ⟨row, hrow⟩
  · rw [paidInvocations_concat, h.unpaid fun j => by rw [hall j]; rfl]
    rfl
  · refine Or.inl ⟨?_, hstatus⟩
    rw [markedUncertain_concat, hunmarked, markedUncertain_committed, hunreported]
    rfl
  · intro j result hmem
    rcases List.mem_append.mp hmem with hmem | hmem
    · have hresult := h.answered j result hmem
      rw [hall j] at hresult
      cases hresult
    · cases List.mem_singleton.mp hmem

/-- A call of an execution that has not taken up the effect. -/
theorem replay (h : ReplayInv org key s phase notes) {i : Nat} {c : LedgerCall}
    (hsettles : c.settles org key = false) :
    ReplayInv org key (c.apply s).2 phase
      (notes ++ [(.committed i c (c.apply s).1 : Note toolSignature)]) := by
  have hchange := c.change_or_unchanged s
  refine h.keep rfl (fun _ _ => by simp) hchange.effect?_isSome ?_ ?_
  · rw [markedUncertain_committed]
    exact row_of_reportsUncertain
  · intro j row _ _ hrow hreplay hat
    obtain ⟨row', hrow', hstep⟩ := replay_step hsettles hrow
    exact ⟨row', hrow', hreplay.change hchange hstep.sameEffect, hat.replay hstep⟩

/-- An execution whose operation raised settles the effect as it likes. -/
theorem settleRaised (h : ReplayInv org key s phase notes) {i : Nat} (hi : phase i = .raised)
    (c : LedgerCall) :
    ReplayInv org key (c.apply s).2 phase
      (notes ++ [(.committed i c (c.apply s).1 : Note toolSignature)]) := by
  have hne : phase i ≠ .outside := by
    rw [hi]
    nofun
  refine h.keep rfl (fun _ _ => by simp) (c.change_or_unchanged s).effect?_isSome ?_ ?_
  · exact fun _ => h.present i hne
  · intro j row hj hraised
    rw [h.only hne j hj] at hraised
    exact absurd hi hraised

theorem pay (h : ReplayInv org key s phase notes) {i : Nat} (hi : phase i = .owner) :
    ReplayInv org key s (Function.update phase i .paying)
      (notes ++ [(.invoked i (.operation (some org) key) : Note toolSignature)]) := by
  have hne : phase i ≠ .outside := by
    rw [hi]
    nofun
  have honly := h.only hne
  obtain ⟨row, hrow, hreplay, hat⟩ := h.row i hne (by rw [hi]; nofun)
  rw [hi] at hat
  have hnone : ∀ j, (phase j).submitted = false := by
    intro j
    by_cases hj : phase j = .outside
    · rw [hj]
      rfl
    · rw [honly j hj, hi]
      rfl
  refine move honly (h.present i hne) ?_ (fun _ => ⟨row, hrow, hreplay, ?_⟩) fun j r hmem => ?_
  · rw [paidInvocations_concat, h.unpaid hnone]
    simp [paidInvocations, ToolCall.paysFor, PaidPhase.submitted]
  · exact RowAt.concat (show RowAt org key notes row .paying from hat) rfl
  · rcases List.mem_append.mp hmem with hmem | hmem
    · have hr := (h.answered_of_only honly hmem).2
      rw [hi] at hr
      cases hr
    · cases List.mem_singleton.mp hmem

/-- The answer to the owner's operation. -/
theorem answer (h : ReplayInv org key s phase notes) {i : Nat} (hi : phase i = .paying)
    (a : Except ExternalError Json) :
    ReplayInv org key s
      (Function.update phase i (.afterOperation a))
      (notes ++ [(.answered i (.operation (some org) key) a : Note toolSignature)]) := by
  have hne : phase i ≠ .outside := by
    rw [hi]
    nofun
  have honly := h.only hne
  obtain ⟨row, hrow, hreplay, hat⟩ := h.row i hne (by rw [hi]; nofun)
  rw [hi] at hat
  have hpaid : paidInvocations org key
      (notes ++ [(.answered i (.operation (some org) key) a : Note toolSignature)]) = 1 := by
    rw [paidInvocations_concat, h.paid i (by rw [hi]; rfl)]
    rfl
  have hold : ∀ j r, (.answered j (.operation (some org) key) (.ok r) :
      Note toolSignature) ∉ notes := by
    intro j r hmem
    have hr := (h.answered_of_only honly hmem).2
    rw [hi] at hr
    cases hr
  cases a with
  | error exc =>
      refine move honly (h.present i hne) hpaid (fun hg => absurd rfl hg) fun j r hmem => ?_
      rcases List.mem_append.mp hmem with hmem | hmem
      · exact absurd hmem (hold j r)
      · cases List.mem_singleton.mp hmem
  | ok result =>
      refine move honly (h.present i hne) hpaid (fun _ => ⟨row, hrow, hreplay, ?_⟩)
        fun j r hmem => ?_
      · exact RowAt.concat (show RowAt org key notes row (.paid result) from hat) rfl
      · rcases List.mem_append.mp hmem with hmem | hmem
        · exact absurd hmem (hold j r)
        · cases List.mem_singleton.mp hmem
          exact ⟨rfl, rfl⟩

/-- The completion by the owner. -/
theorem complete (h : ReplayInv org key s phase notes) {i : Nat} {result : Json}
    (hi : phase i = .paid result) :
    let c := LedgerCall.effect org (.markSucceeded key result)
    ReplayInv org key (c.apply s).2
      (Function.update phase i (.afterCompletion result (c.apply s).1))
      (notes ++ [(.committed i c (c.apply s).1 : Note toolSignature)]) := by
  intro c
  have hne : phase i ≠ .outside := by
    rw [hi]
    nofun
  have honly := h.only hne
  obtain ⟨row, hrow, hreplay, hat⟩ := h.row i hne (by rw [hi]; nofun)
  rw [hi] at hat
  have hpaid : paidInvocations org key
      (notes ++ [(.committed i c (c.apply s).1 : Note toolSignature)]) = 1 := by
    rw [paidInvocations_concat, h.paid i (by rw [hi]; rfl)]
    rfl
  have hanswered : ∀ j r, (.answered j (.operation (some org) key) (.ok r) :
      Note toolSignature) ∈ notes ++ [(.committed i c (c.apply s).1 : Note toolSignature)] →
      j = i ∧ result = r := by
    intro j r hmem
    rcases List.mem_append.mp hmem with hmem | hmem
    · obtain ⟨hj, hr⟩ := h.answered_of_only honly hmem
      rw [hi] at hr
      exact ⟨hj, Option.some.inj hr⟩
    · cases List.mem_singleton.mp hmem
  have hnote : markedUncertain org key
      [(.committed i c (c.apply s).1 : Note toolSignature)] = false := rfl
  have hpresent := (c.change_or_unchanged s).effect?_isSome (h.present i hne)
  have hreplayed : ∀ {row'}, SameEffect row row' → Replayable org (c.apply s).2 row' :=
    fun hsame => hreplay.change (c.change_or_unchanged s) hsame
  rcases hat with ⟨hmarked, hstatus⟩ | hdisputed
  · obtain ⟨reply, row', hr, hrow', hsame, hstatus', hresult'⟩ :=
      LedgerCall.apply_markSucceeded_reserved hrow hstatus result
    rw [hr] at hpaid hanswered hnote ⊢
    refine move honly hpresent hpaid (fun _ => ⟨row', hrow', hreplayed hsame, ?_⟩)
      fun j r hmem => ?_
    · refine ⟨hstatus', Or.inl ⟨?_, hresult'⟩⟩
      rw [markedUncertain_concat, hmarked, hnote]
      rfl
    · obtain ⟨hj, rfl⟩ := hanswered j r hmem
      exact ⟨hj, rfl⟩
  · rcases hdisputed.2 with hstatus | hreconciled
    · obtain ⟨⟨message, hr⟩, hs⟩ :=
        LedgerCall.apply_markSucceeded_uncertain hrow hstatus result
      rw [hr] at hpaid hanswered ⊢
      refine move honly hpresent hpaid
        (fun _ => ⟨row, (by rw [hs]; exact hrow), hreplayed (.refl row), ?_⟩)
        fun j r hmem => ?_
      · exact ⟨⟨message, rfl⟩, hdisputed.concat _⟩
      · obtain ⟨hj, rfl⟩ := hanswered j r hmem
        exact ⟨hj, rfl⟩
    · obtain ⟨⟨reply, hr⟩, hs⟩ :=
        LedgerCall.apply_markSucceeded_succeeded hrow hreconciled.1 result
      rw [hr] at hpaid hanswered ⊢
      refine move honly hpresent hpaid
        (fun _ => ⟨row, (by rw [hs]; exact hrow), hreplayed (.refl row), ?_⟩)
        fun j r hmem => ?_
      · exact ⟨hreconciled.1, Or.inr (hdisputed.concat _)⟩
      · obtain ⟨hj, rfl⟩ := hanswered j r hmem
        exact ⟨hj, rfl⟩

theorem step (h : ReplayInv org key s phase notes)
    (hstep : (replayProtocol org key).Step LedgerCall.apply phase s note s') :
    ReplayInv org key s' ((replayProtocol org key).advance phase note) (notes ++ [note]) := by
  cases hstep with
  | silent =>
      refine h.keep rfl (fun _ _ => by simp) id (by intro hm; cases hm) ?_
      exact fun _ row _ _ hrow hreplay hat => ⟨row, hrow, hreplay, hat.concat rfl⟩
  | committed i c hmay =>
      cases hi : phase i with
      | outside =>
          rw [hi] at hmay
          cases hgrants : grants org key c (c.apply s).1 with
          | true => simpa [Protocol.advance, replayProtocol, hi, hgrants] using h.create hgrants
          | false =>
              have hsame : Function.update phase i .outside = phase := by
                rw [← hi, Function.update_eq_self]
              simpa [Protocol.advance, replayProtocol, hi, hgrants, hsame] using h.replay hmay
      | paid result =>
          rw [hi] at hmay
          cases hmay
          simp only [Protocol.advance, replayProtocol, hi]
          exact h.complete hi
      | raised =>
          have hsame : Function.update phase i .raised = phase := by
            rw [← hi, Function.update_eq_self]
          simpa [Protocol.advance, replayProtocol, hi, hsame] using h.settleRaised hi c
      | owner | paying | recorded | conflicted =>
          rw [hi] at hmay
          cases hmay
  | invoked i c hmay =>
      cases hi : phase i with
      | outside =>
          rw [hi] at hmay
          have hsame : Function.update phase i .outside = phase := by
            rw [← hi, Function.update_eq_self]
          have hpaid : paidInvocations org key [(.invoked i c : Note toolSignature)] = 0 := by
            simpa [paidInvocations, replayProtocol] using hmay
          simp only [Protocol.advance, replayProtocol, hi, hsame]
          refine h.keep hpaid (fun _ _ => by simp) id (by intro hm; cases hm) ?_
          exact fun _ row _ _ hrow hreplay hat => ⟨row, hrow, hreplay, hat.concat rfl⟩
      | owner =>
          rw [hi] at hmay
          cases hmay
          simp only [Protocol.advance, replayProtocol, hi]
          exact h.pay hi
      | paying | paid | raised | recorded | conflicted =>
          rw [hi] at hmay
          cases hmay
  | answered i c a hawaited =>
      obtain ⟨g, hmay, hi⟩ := hawaited
      cases g with
      | outside =>
          have hi : phase i = .outside := hi
          have hsame : Function.update phase i .outside = phase := by
            rw [← hi, Function.update_eq_self]
          have hother : ∀ j result, (.answered i c a : Note toolSignature) ≠
              .answered j (.operation (some org) key) (.ok result) := by
            rintro j result ⟨⟩
            simp [replayProtocol, ToolCall.paysFor] at hmay
          simp only [Protocol.advance, replayProtocol, hi, hsame]
          refine h.keep rfl hother id (by intro hm; cases hm) ?_
          exact fun _ row _ _ hrow hreplay hat => ⟨row, hrow, hreplay, hat.concat rfl⟩
      | owner =>
          cases hmay
          have hi : phase i = .paying := hi
          simp only [Protocol.advance, replayProtocol, hi]
          exact h.answer hi a
      | paying | paid | raised | recorded | conflicted => cases hmay

end ReplayInv

theorem LedgerCall.createdReserved_apply (c : LedgerCall) (s : Ledger) :
    c.CreatedReserved (c.apply s).1 := by
  unfold CreatedReserved
  split
  · rename_i hr
    intro hcreated
    exact (PostgresEffectLedger.reserve_created (apply_of_ok hr) hcreated).1
  · trivial

theorem PaidExecution.prog_follows (org : OrganizationId) (key : String) (x : PaidExecution) :
    (replayProtocol org key).Follows x.prog replayPost .outside :=
  executePaidEffect_replay x.ctx x.effect x.durable

section Owner
variable {org : OrganizationId} {key : String} {result : Json}

/-- Once the completion is over, nothing is left to do. -/
theorem ended_of_follows {p : Prog toolSignature (Except PyExc Json)} {g : PaidPhase}
    (h : (replayProtocol org key).Follows p replayPost g)
    (hg : g.result? = some result) (hne : g ≠ .paid result) :
    ∃ out, p = .ret out ∧ replayPost g out := by
  have hg' : g = .recorded result ∨ ∃ exc, g = .conflicted result exc := by
    cases g <;> simp_all [PaidPhase.result?]
  obtain rfl | ⟨exc, rfl⟩ := hg' <;>
    cases p with
    | ret out => exact ⟨out, rfl, h⟩
    | hang => cases h
    | op o next => cases h.1
    | call c next => cases h.1

/-- The owner stands at its completion, or has ended. -/
theorem owner_stands {t : Thread toolSignature (Except PyExc Json)} {g : PaidPhase}
    (h : (replayProtocol org key).ThreadFollows replayPost g t) (hg : g.result? = some result) :
    (g = .paid result ∧ ∃ next, t = .ready (.op (.effect org (.markSucceeded key result)) next)) ∨
      (g ≠ .paid result ∧ ∃ out, t = .ready (.ret out) ∧ replayPost g out) := by
  cases t with
  | waiting c next =>
      obtain ⟨g₀, hmay, rfl⟩ := h.1
      cases g₀ <;> simp_all [replayProtocol, PaidPhase.result?]
  | ready p =>
      by_cases hpaid : g = .paid result
      · subst hpaid
        refine Or.inl ⟨rfl, ?_⟩
        cases p with
        | ret out => cases h
        | hang => cases h
        | op o next =>
            obtain rfl : o = .effect org (.markSucceeded key result) := h.1
            exact ⟨next, rfl⟩
        | call c next => cases h.1
      · obtain ⟨out, rfl, hout⟩ := ended_of_follows h hg hpaid
        exact Or.inr ⟨hpaid, out, rfl, hout⟩

/-- The state of a system of executions after a history. -/
abbrev PaidExecution.after (ledger : Ledger)
    (choices : List (Choice PaidExecution toolSignature)) :
    System Ledger toolSignature (Except PyExc Json) :=
  System.after LedgerCall.apply PaidExecution.prog ledger choices

abbrev PaidExecution.notes (ledger : Ledger)
    (choices : List (Choice PaidExecution toolSignature)) : List (Note toolSignature) :=
  System.notes LedgerCall.apply PaidExecution.prog ledger choices

variable (org key) in
theorem replayInv_run (ledger : Ledger) (choices : List (Choice PaidExecution toolSignature)) :
    let notes := PaidExecution.notes ledger choices
    let phase := (replayProtocol org key).phases notes
    ReplayInv org key (PaidExecution.after ledger choices).store phase notes ∧
      (replayProtocol org key).Governs replayPost (PaidExecution.after ledger choices) phase :=
  Protocol.run_invariant LedgerCall.createdReserved_apply (PaidExecution.prog_follows org key)
    (ReplayInv.initial ledger) (fun _ _ _ _ h hstep => h.step hstep) choices

/-- One more step of the owner, if it has one left, and it has ended. -/
theorem owner_ends {ledger : Ledger} {choices : List (Choice PaidExecution toolSignature)}
    {i : Nat} (hanswer : (.answered i (.operation (some org) key) (.ok result) :
      Note toolSignature) ∈ PaidExecution.notes ledger choices)
    (halive : (PaidExecution.after ledger choices).threads i ≠ none) :
    let choices' := choices ++ [.commit i]
    let phase := (replayProtocol org key).phases (PaidExecution.notes ledger choices')
    (phase i).result? = some result ∧ phase i ≠ .paid result ∧
      ∃ out, (PaidExecution.after ledger choices').outcome? i = some out ∧
        replayPost (phase i) out := by
  intro choices' phase
  obtain ⟨hinv, hgov⟩ := replayInv_run org key ledger choices
  obtain ⟨hinv', hgov'⟩ := replayInv_run org key ledger choices'
  have hnotes : PaidExecution.notes ledger choices' = _ := System.notes_concat _ _ _ _ _
  have hafter : PaidExecution.after ledger choices' = _ := System.after_concat _ _ _ _ _
  have hresult := hinv.answered i result hanswer
  have hresult' : (phase i).result? = some result := by
    refine hinv'.answered i result ?_
    rw [hnotes]
    exact List.mem_append_left _ hanswer
  obtain ⟨t, ht⟩ := Option.ne_none_iff_exists'.mp halive
  -- the owner is alive after the step and has left the phase before its completion
  have hstep : ∃ t', (PaidExecution.after ledger choices').threads i = some t' ∧
      phase i ≠ .paid result := by
    rcases owner_stands (hgov.follows i t ht) hresult with
      ⟨hpaid, next, rfl⟩ | ⟨hne, out, rfl, -⟩
    · have hcommit := System.step_commit LedgerCall.apply PaidExecution.prog ht
      rw [hafter, hcommit]
      refine ⟨.ready _, Function.update_self i _ _, ?_⟩
      simp only [phase, hnotes, Protocol.phases_concat, hcommit, Protocol.advance,
        Function.update_self, hpaid]
      change PaidPhase.afterCompletion result _ ≠ _
      unfold PaidPhase.afterCompletion
      split <;> simp
    · have hcommit := System.step_commit_ended LedgerCall.apply PaidExecution.prog ht
      rw [hafter, hcommit]
      refine ⟨.ready (.ret out), ht, ?_⟩
      simp only [phase, hnotes, Protocol.phases_concat, hcommit, Protocol.advance]
      exact hne
  obtain ⟨t', ht', hne⟩ := hstep
  refine ⟨hresult', hne, ?_⟩
  rcases owner_stands (hgov'.follows i t' ht') hresult' with ⟨hpaid, -⟩ | ⟨-, out, rfl, hout⟩
  · exact absurd hpaid hne
  · refine ⟨out, ?_, hout⟩
    rw [System.outcome?, ht']

end Owner

/-- The execution asks for what the row was reserved for. -/
structure PaidExecution.Repeats (x : PaidExecution) (org : OrganizationId) (row : Effect) :
    Prop where
  enabled : x.ctx.paidAdaptersEnabled = true
  ledger : x.ctx.effectLedger = some org
  effectKey : x.effect.effectKey = row.effectKey
  runId : x.ctx.runId = row.runId
  provider : x.effect.provider = row.provider
  units : x.effect.units = row.units
  request : x.effect.request = row.request

/-- A later execution gets the recorded result from the ledger alone. -/
theorem PaidExecution.runAlone_of_succeeded {x : PaidExecution} {org : OrganizationId}
    {s : Ledger} {row : Effect} {result : Json} (hx : x.Repeats org row)
    (hrow : s.effect? org row.effectKey = some row) (hreplay : Replayable org s row)
    (hstatus : row.status = .succeeded) (hresult : row.result = some result)
    (answers : Nat → (c : ToolCall) → c.Answer) :
    x.prog.runAlone LedgerCall.apply answers s 0 =
      (some (if result.isNonEmptyDict then .ok result
        else .error (noReplayResult row.effectKey)), s, []) := by
  have hreserve := LedgerCall.apply_reserve_same hrow hreplay.1 hreplay.2
  rw [if_neg (by simp [hstatus])] at hreserve
  unfold PaidExecution.prog executePaidEffect
  rw [if_neg (by simp [x.durable]), if_neg (by simp [hx.enabled])]
  simp only [hx.ledger, hx.effectKey, hx.runId, hx.provider, hx.units, hx.request]
  refine (alone_attempt_ledger answers _ _ _ _ _).trans ?_
  rw [hreserve]
  have hreservation : (reservation row false).result = some result := hresult
  change Py.alone answers (x.effect.replayOrPay org (reservation row false)) s 0 = _
  unfold PaidEffect.replayOrPay
  rw [if_pos (show (reservation row false).status = .succeeded from hstatus), hreservation,
    hx.effectKey]
  by_cases hdict : result.isNonEmptyDict = true
  · rw [if_pos hdict, Option.filter_some, if_pos hdict]
    rfl
  · rw [if_neg hdict, Option.filter_some, if_neg hdict]
    rfl

/-- What becomes of the result that the one paid operation gave. The owner takes
the one step it may have left; whether some replay marked the effect uncertain
before its completion decides between recording the result and losing it to the
dispute. -/
theorem paid_result_outcome (ledger : Ledger)
    (choices : List (Choice PaidExecution toolSignature)) (org : OrganizationId) (key : String)
    (i : Nat) (result : Json)
    (hanswer : (.answered i (.operation (some org) key) (.ok result) : Note toolSignature) ∈
      PaidExecution.notes ledger choices)
    (halive : (PaidExecution.after ledger choices).threads i ≠ none) :
    let choices' := choices ++ [.commit i]
    let s := PaidExecution.after ledger choices'
    let notes := PaidExecution.notes ledger choices'
    paidInvocations org key notes = 1 ∧ ∃ row, s.store.effect? org key = some row ∧
      (markedUncertain org key notes = false →
        s.outcome? i = some (.ok result) ∧ row.status = .succeeded ∧
          row.result = some result ∧
          ∀ x : PaidExecution, x.Repeats org row → ∀ answers,
            x.prog.runAlone LedgerCall.apply answers s.store 0 =
              (some (if result.isNonEmptyDict then .ok result
                else .error (noReplayResult key)), s.store, [])) ∧
      (markedUncertain org key notes = true →
        ((∃ message, s.outcome? i = some (.error (.ledger (.uncertainEffect message)))) ∧
          (row.status = .uncertain ∨ Reconciled org key notes row)) ∨
        (s.outcome? i = some (.ok result) ∧ Reconciled org key notes row)) := by
  intro choices' s notes
  obtain ⟨hresult, hne, out, hout, hpost⟩ := owner_ends hanswer halive
  obtain ⟨hinv, -⟩ := replayInv_run org key ledger choices'
  have hphase : ((replayProtocol org key).phases notes i) = .recorded result ∨
      ∃ exc, ((replayProtocol org key).phases notes i) = .conflicted result exc := by
    revert hresult hne
    change PaidPhase.result? ((replayProtocol org key).phases notes i) = _ → _
    cases (replayProtocol org key).phases notes i <;> simp_all [PaidPhase.result?]
  have hkey : ∀ row, s.store.effect? org key = some row → row.effectKey = key := by
    intro row hrow
    exact congrArg Prod.snd (KeyedTable.find?_key hrow)
  rcases hphase with hphase | ⟨exc, hphase⟩
  · obtain ⟨row, hrow, hreplay, hsucceeded, hat⟩ := by
      have hrow := hinv.row i (by rw [hphase]; nofun) (by rw [hphase]; nofun)
      rw [hphase] at hrow
      exact hrow
    rw [hphase] at hpost
    obtain rfl : out = .ok result := hpost
    refine ⟨hinv.paid i (by rw [hphase]; rfl), row, hrow, ?_, ?_⟩
    · intro hunmarked
      rcases hat with ⟨-, hrecorded⟩ | hdisputed
      · refine ⟨hout, hsucceeded, hrecorded, ?_⟩
        intro x hx answers
        obtain rfl := hkey row hrow
        exact PaidExecution.runAlone_of_succeeded hx hrow hreplay hsucceeded hrecorded answers
      · rw [hdisputed.1] at hunmarked
        cases hunmarked
    · intro hmarked
      refine Or.inr ⟨hout, ?_⟩
      rcases hat with ⟨hunmarked, -⟩ | ⟨-, huncertain | hreconciled⟩
      · rw [hmarked] at hunmarked
        cases hunmarked
      · rw [huncertain] at hsucceeded
        cases hsucceeded
      · exact hreconciled
  · obtain ⟨row, hrow, hreplay, ⟨message, rfl⟩, hdisputed⟩ := by
      have hrow := hinv.row i (by rw [hphase]; nofun) (by rw [hphase]; nofun)
      rw [hphase] at hrow
      exact hrow
    rw [hphase] at hpost
    obtain rfl : out = .error (.ledger (.uncertainEffect message)) := hpost
    refine ⟨hinv.paid i (by rw [hphase]; rfl), row, hrow, ?_, ?_⟩
    · intro hunmarked
      rw [hdisputed.1] at hunmarked
      cases hunmarked
    · intro _
      exact Or.inl ⟨⟨message, hout⟩, hdisputed.2⟩

/-- An image effect of one unit, run by the tenant `org`. -/
def imageExecution : PaidExecution where
  ctx :=
    { runId := "run", effectLedger := some "org", durable := true,
      enablePaidAdapters := "true", buildEffectRef := fun _ _ _ => "" }
  effect :=
    { effectKey := "image", provider := "replicate", units := 1, request := .obj [],
      reconcile := false }
  durable := rfl

def imageLedger : Ledger :=
  Machine.run LedgerCall.step Ledger.empty [.setQuota "org" "replicate" 10]

def imageResult : Json := .obj [("uri", .str "r2://image")]

/-- Every operation answers with the image, nothing else answers. -/
def imageAnswers : (c : ToolCall) → c.Answer
  | .operation _ _ => .ok imageResult
  | .reconcile _ | .submit _ _ _ | .getVideoPrediction _ | .cancelVideoPrediction _
  | .persist _ _ => .error { cls := .other, typeName := "Exception" }
  | .monotonic => 0
  | .sleep _ => ()

/-- The owner up to the answer of its operation, with nobody else around. -/
def unreplayed : List (Choice PaidExecution toolSignature) :=
  [.spawn imageExecution, .commit 0, .invoke 0, .answer 0 imageAnswers]

/-- The second execution replays the effect while the operation of the first is
in flight. -/
def replayedInFlight : List (Choice PaidExecution toolSignature) :=
  [.spawn imageExecution, .commit 0, .invoke 0, .spawn imageExecution, .commit 1, .commit 1,
    .answer 0 imageAnswers]

theorem paid_result_outcome_image :
    (PaidExecution.after imageLedger (unreplayed ++ [.commit 0])).outcome? 0 =
      some (.ok imageResult) ∧
    ∃ message, (PaidExecution.after imageLedger (replayedInFlight ++ [.commit 0])).outcome? 0 =
      some (.error (.ledger (.uncertainEffect message))) := by
  constructor
  · obtain ⟨-, row, -, h, -⟩ := paid_result_outcome imageLedger unreplayed "org" "image" 0
      imageResult (List.mem_of_getElem? (i := 3) rfl) (Option.isSome_iff_ne_none.mp rfl)
    exact (h (by decide)).1
  · obtain ⟨-, row, -, -, h⟩ := paid_result_outcome imageLedger replayedInFlight "org" "image" 0
      imageResult (List.mem_of_getElem? (i := 6) rfl) (Option.isSome_iff_ne_none.mp rfl)
    rcases h (by decide) with ⟨hraised, -⟩ | ⟨hreturned, -⟩
    · exact hraised
    · exact absurd hreturned (by decide)

/-- The owner has the paid result in hand and raises; the result is nowhere recorded. -/
theorem paid_result_lost :
    let s := PaidExecution.after imageLedger (replayedInFlight ++ [.commit 0])
    (Note.answered 0 (.operation (some "org") "image") (.ok imageResult) : Note toolSignature) ∈
        PaidExecution.notes imageLedger (replayedInFlight ++ [.commit 0]) ∧
      s.outcome? 0 = some (.error (.ledger (.uncertainEffect
        "efeito 'image' não pode ser concluído a partir de 'uncertain'"))) ∧
      (s.store.effect? "org" "image").map (fun row => (row.status, row.result)) =
        some (.uncertain, none) := by
  refine ⟨?_, ?_, ?_⟩
  · exact List.mem_of_getElem? (i := 6) rfl
  · decide
  · decide

end Orchestrator
