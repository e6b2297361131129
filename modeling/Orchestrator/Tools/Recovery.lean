import Orchestrator.Db.QuotaConservation
import Orchestrator.Tools.Video

/-!
Recovery of a paid clip that the provider has finished.

One further execution of the lifecycle runs alone against a provider that
reports the prediction as succeeded and a storage that takes the artifact. It
submits nothing on either status. What decides is the completion: it is guarded
on the status, so a reserved effect is recovered and an uncertain one is not.
-/

namespace Orchestrator

/-- A prediction the provider has finished, with a valid output that can be stored. -/
structure FinishedClip where
  effect : VideoEffect
  predictionId : String
  prediction : VideoPrediction
  artifact : Artifact
  stored : Artifact
  succeeded : prediction.status = "succeeded"
  output : effect.artifactFn prediction = .ok artifact
  unpersisted : effect.persists = false → stored = artifact

namespace FinishedClip

/-- The provider reports the prediction whenever it is asked for it, the storage
takes the artifact, and nothing may be submitted. -/
def world (k : FinishedClip) : World where
  allowed
    | .submit _ _ _ | .operation _ _ => False
    | _ => True
  may
    | .getVideoPrediction id, a => id = k.predictionId → a = .ok k.prediction
    | .cancelVideoPrediction id, a => id = k.predictionId → a = .ok k.prediction
    | .persist effectKey artifact, a =>
        effectKey = k.effect.effectKey ∧ artifact = k.artifact → a = .ok k.stored
    | _, _ => True

/-- The result that completes the effect. -/
def result (k : FinishedClip) : Json :=
  .obj [("provider_prediction_id", .str k.prediction.id), ("artifact", k.stored.modelDump)]

/-- The stored artifact is returned and the effect has succeeded with it. -/
def Recovered (k : FinishedClip) (org : OrganizationId) (r : Except PyExc Artifact)
    (s : Ledger) : Prop :=
  r = .ok k.stored ∧ ∃ row, s.effect? org k.effect.effectKey = some row ∧
    row.status = .succeeded ∧ row.result = some k.result

/-- How the lifecycle ends from a row of the given status. -/
def EndsFrom (k : FinishedClip) (org : OrganizationId) (status : EffectStatus)
    (r : Except PyExc Artifact) (s : Ledger) : Prop :=
  (status = .reserved → k.Recovered org r s) ∧ (status = .uncertain → ∃ exc, r = .error exc)

variable {k : FinishedClip} {org : OrganizationId} {s : Ledger} {row : Effect}

theorem persistFn_ensures : k.world.Ensures s (k.effect.persistFn k.artifact)
    fun r s' => r = .ok k.stored ∧ s = s' := by
  unfold VideoEffect.persistFn
  split
  · refine World.ensures_await trivial fun a ha => ?_
    rw [show a = .ok k.stored from ha ⟨rfl, rfl⟩]
    exact ⟨rfl, rfl⟩
  · rename_i hpersists
    have hstored := k.unpersisted (Bool.eq_false_iff.mpr hpersists)
    exact ⟨congrArg Except.ok hstored.symm, rfl⟩

theorem storeArtifact_ensures (hrow : s.effect? org k.effect.effectKey = some row) :
    k.world.Ensures s (k.effect.storeArtifact org k.prediction) (k.EndsFrom org row.status) := by
  unfold VideoEffect.storeArtifact
  rw [k.output]
  refine World.ensures_bind (persistFn_ensures.mono ?_)
  rintro _ _ ⟨rfl, rfl⟩
  refine World.ensures_ledger_bind (fun reply hr => ?_) (fun exc hr => ?_)
  · refine ⟨fun hreserved => ⟨rfl, ?_⟩, fun huncertain => ?_⟩
    · obtain ⟨-, row', -, hrow', -, hstatus, hresult⟩ :=
        LedgerCall.apply_markSucceeded_reserved hrow hreserved k.result
      exact ⟨row', hrow', hstatus, hresult⟩
    · obtain ⟨⟨message, herror⟩, -⟩ :=
        LedgerCall.apply_markSucceeded_uncertain hrow huncertain k.result
      cases hr.symm.trans herror
  · refine ⟨fun hreserved => ?_, fun _ => ⟨_, rfl⟩⟩
    obtain ⟨reply, -, hok, -⟩ :=
      LedgerCall.apply_markSucceeded_reserved hrow hreserved k.result
    cases hr.symm.trans hok

/-- A report of the finished prediction leaves the status of the row. -/
theorem report_ensures (hrow : s.effect? org k.effect.effectKey = some row)
    (errorType : Option String) :
    k.world.Ensures s
      (Py.ledger org (.updateProviderStatus k.effect.effectKey k.prediction.status errorType))
      fun r s' => (∃ reply, r = .ok reply) ∧
        ∃ row', s'.effect? org k.effect.effectKey = some row' ∧ row'.status = row.status := by
  rw [k.succeeded]
  obtain ⟨reply, row', hr, hrow', hstatus⟩ :=
    LedgerCall.apply_updateProviderStatus_succeeded hrow errorType
  refine World.ensures_ledger ⟨⟨reply, ?_⟩, row', hrow', hstatus⟩
  exact congrArg (Except.mapError PyExc.ledger) hr

theorem poll_ensures (hrow : s.effect? org k.effect.effectKey = some row) :
    k.world.Ensures s (k.effect.poll org k.predictionId) fun r s' =>
      r = .ok k.prediction ∧
        ∃ row', s'.effect? org k.effect.effectKey = some row' ∧ row'.status = row.status := by
  unfold VideoEffect.poll
  refine World.ensures_bind (World.ensures_attempt (World.ensures_await trivial fun a ha => ?_))
  rw [show a = .ok k.prediction from ha rfl]
  refine World.ensures_bind ((report_ensures hrow none).mono ?_)
  rintro _ s' ⟨⟨reply, rfl⟩, hrow'⟩
  exact ⟨rfl, hrow'⟩

theorem terminal (k : FinishedClip) : k.prediction.terminal = true := by
  simp [VideoPrediction.terminal, k.succeeded]

/-- One turn is enough: either the poll finds the prediction, or the deadline passed. -/
theorem pollLoop_ensures (hrow : s.effect? org k.effect.effectKey = some row)
    (ctx : ToolContext) (deadline : Rat) (fuel : Nat) :
    k.world.Ensures s (k.effect.pollLoop ctx org k.predictionId deadline (fuel + 1) none)
      fun r s' => (r = .ok none ∨ r = .ok (some k.prediction)) ∧
        ∃ row', s'.effect? org k.effect.effectKey = some row' ∧ row'.status = row.status := by
  unfold VideoEffect.pollLoop
  refine World.ensures_bind (World.ensures_await trivial fun now _ => ?_)
  change k.world.Ensures s (if now < deadline then _ else _) _
  split
  · refine World.ensures_bind ((poll_ensures hrow).mono ?_)
    rintro _ s' ⟨rfl, hrow'⟩
    change k.world.Ensures s' (if k.prediction.terminal = true then _ else _) _
    rw [if_pos k.terminal]
    exact ⟨Or.inr rfl, hrow'⟩
  · exact ⟨Or.inl rfl, row, hrow, rfl⟩

theorem cancelOrKeep_ensures (hrow : s.effect? org k.effect.effectKey = some row) :
    k.world.Ensures s (k.effect.cancelOrKeep org k.predictionId none) fun r s' =>
      r = .ok (some k.prediction) ∧
        ∃ row', s'.effect? org k.effect.effectKey = some row' ∧ row'.status = row.status := by
  have hcancel : k.world.Ensures s (k.effect.cancel org k.predictionId none) fun r s' =>
      r = .ok (some k.prediction) ∧
        ∃ row', s'.effect? org k.effect.effectKey = some row' ∧ row'.status = row.status := by
    unfold VideoEffect.cancel
    refine World.ensures_bind (World.ensures_await trivial fun a ha => ?_)
    rw [show a = .ok k.prediction from ha rfl]
    refine World.ensures_bind ((report_ensures hrow _).mono ?_)
    rintro _ s' ⟨⟨reply, rfl⟩, hrow'⟩
    change k.world.Ensures s' (if _ then _ else _) _
    rw [if_neg (by simp [k.succeeded]), if_pos k.succeeded]
    exact ⟨rfl, hrow'⟩
  unfold VideoEffect.cancelOrKeep
  refine World.ensures_bind (World.ensures_attempt (hcancel.mono ?_))
  rintro _ s' ⟨rfl, hrow'⟩
  exact ⟨rfl, hrow'⟩

theorem pollAndStore_ensures (hrow : s.effect? org k.effect.effectKey = some row)
    (ctx : ToolContext) (deadline : Rat) (fuel : Nat) :
    k.world.Ensures s (k.effect.pollAndStore ctx org (fuel + 1) k.predictionId deadline)
      (k.EndsFrom org row.status) := by
  unfold VideoEffect.pollAndStore
  refine World.ensures_bind ((pollLoop_ensures hrow ctx deadline fuel).mono ?_)
  rintro _ s' ⟨rfl | rfl, row', hrow', hstatus⟩
  · change k.world.Ensures s' (k.effect.afterDeadline org k.predictionId none) _
    unfold VideoEffect.afterDeadline
    refine World.ensures_bind ((cancelOrKeep_ensures hrow').mono ?_)
    rintro _ s'' ⟨rfl, row'', hrow'', hstatus''⟩
    simp only [Option.filter_some, k.succeeded, decide_true, if_true]
    rw [← hstatus, ← hstatus'']
    exact storeArtifact_ensures hrow''
  · change k.world.Ensures s' (if k.prediction.terminal = true then _ else _) _
    rw [if_pos k.terminal]
    unfold VideoEffect.afterTerminal
    rw [if_neg (by simp [k.succeeded]), ← hstatus]
    exact storeArtifact_ensures hrow'

theorem resumeFrom_ensures (hrow : s.effect? org k.effect.effectKey = some row)
    (hopen : row.status ≠ .succeeded) (hbound : row.providerOperationId = some k.predictionId)
    (hid : k.predictionId ≠ "") (ctx : ToolContext) (deadline : Rat) (fuel : Nat) :
    k.world.Ensures s
      (k.effect.resumeFrom ctx org (fuel + 1) (reservation row false) deadline)
      (k.EndsFrom org row.status) := by
  have hbound' : (reservation row false).providerOperationId = some k.predictionId := hbound
  have hopen' : (reservation row false).status ≠ .succeeded := hopen
  unfold VideoEffect.resumeFrom VideoEffect.resolveId
  rw [if_neg hopen', if_neg (by simp [reservation]), hbound', if_pos (by simp [hid])]
  refine World.ensures_bind (World.ensures_pure ?_)
  unfold VideoEffect.afterResolved
  simp only [Option.filter_some, hid, ne_eq, not_false_eq_true, decide_true, if_true]
  exact pollAndStore_ensures hrow ctx deadline fuel

/-- The execution asks for what the row was reserved for. -/
structure Resumes (k : FinishedClip) (ctx : ToolContext) (org : OrganizationId)
    (row : Effect) : Prop where
  ledger : ctx.effectLedger = some org
  runId : ctx.runId = row.runId
  provider : k.effect.provider = row.provider
  units : k.effect.units = row.units
  request : k.effect.request = row.request
  operationId : row.providerOperationId = some k.predictionId

theorem lifecycle_ensures {calls : List LedgerCall} {ctx : ToolContext}
    (hrow : (Machine.run LedgerCall.step Ledger.empty calls).effect? org
      k.effect.effectKey = some row)
    (hopen : row.status = .reserved ∨ row.status = .uncertain) (h : k.Resumes ctx org row)
    (fuel : Nat) :
    k.world.Ensures (Machine.run LedgerCall.step Ledger.empty calls)
      (durablePredictionLifecycle (fuel + 1) ctx k.effect) (k.EndsFrom org row.status) := by
  have hmem := KeyedTable.find?_mem hrow
  have hkey : row.key = (org, k.effect.effectKey) := KeyedTable.find?_key hrow
  have horg : row.organizationId = org := congrArg Prod.fst hkey
  have heffect : k.effect.effectKey = row.effectKey := (congrArg Prod.snd hkey).symm
  have hid : k.predictionId ≠ "" := by
    have hbound := boundIds_run calls row hmem
    rw [h.operationId] at hbound
    exact fun heq => hbound (congrArg some heq)
  have haccounted := accounted_run calls
  have hquota := haccounted.quota_some row hmem
  rw [horg] at hquota
  have hreserve := LedgerCall.apply_reserve_same (heffect ▸ hrow)
    (haccounted.units_pos row hmem) hquota
  unfold durablePredictionLifecycle
  simp only [h.ledger, h.runId, h.provider, h.units, h.request]
  refine World.ensures_bind (World.ensures_await trivial fun now _ => ?_)
  refine World.ensures_bind (World.ensures_attempt (World.ensures_ledger ?_))
  rw [heffect, hreserve]
  have hresume : ∀ deadline, _ := fun deadline =>
    resumeFrom_ensures hrow (by rcases hopen with h | h <;> simp [h]) h.operationId hid ctx
      deadline fuel
  rcases hopen with hstatus | hstatus
  · rw [if_neg (by simp [hstatus])]
    exact hresume _
  · rw [if_pos hstatus]
    change k.world.Ensures _ (if "UncertainEffectError" ≠ "UncertainEffectError" then _ else _) _
    rw [if_neg (by simp)]
    unfold VideoEffect.resumeUncertain
    refine World.ensures_bind (World.ensures_ledger ?_)
    rw [LedgerCall.apply_get hrow]
    exact hresume _

/-- One execution submitted nothing and recovered the clip. -/
def RecoveredBy (k : FinishedClip) (org : OrganizationId)
    (run : Option (Except PyExc Artifact) × Ledger × List ToolCall) : Prop :=
  (∀ c ∈ run.2.2, k.world.allowed c) ∧ ∃ r, run.1 = some r ∧ k.Recovered org r run.2.1

/-- A finished clip is recovered exactly from the status `reserved`. -/
theorem recoveredBy_iff_reserved (k : FinishedClip) (calls : List LedgerCall)
    (org : OrganizationId) (ctx : ToolContext) (row : Effect) (fuel : Nat)
    (answers : Nat → (c : ToolCall) → c.Answer)
    (hrow : (Machine.run LedgerCall.step Ledger.empty calls).effect? org
      k.effect.effectKey = some row)
    (hopen : row.status = .reserved ∨ row.status = .uncertain) (h : k.Resumes ctx org row)
    (hanswers : ∀ n c, k.world.may c (answers n c)) :
    k.RecoveredBy org (Py.alone answers (durablePredictionLifecycle (fuel + 1) ctx k.effect)
        (Machine.run LedgerCall.step Ledger.empty calls) 0) ↔
      row.status = .reserved := by
  obtain ⟨r, s', made, hrun, hallowed, hreserved, huncertain⟩ :=
    (lifecycle_ensures hrow hopen h fuel).runAlone hanswers 0
  unfold RecoveredBy
  rw [Py.alone, hrun]
  constructor
  · rintro ⟨-, r', hr', hrecovered⟩
    obtain rfl : r = r' := Option.some.inj hr'
    refine hopen.resolve_right fun hstatus => ?_
    obtain ⟨exc, hexc⟩ := huncertain hstatus
    rw [hrecovered.1] at hexc
    cases hexc
  · intro hstatus
    exact ⟨hallowed, r, rfl, hreserved hstatus⟩

end FinishedClip

/-- A clip of eight seconds whose prediction the provider has finished. -/
def finishedClip : FinishedClip where
  effect :=
    { effectKey := "video", provider := "replicate_video_seconds", units := 8,
      request := .obj [], artifactFn := fun p => .ok { kind := "clip", uri := p.id },
      persists := false }
  predictionId := "p1"
  prediction := { id := "p1", status := "succeeded" }
  artifact := { kind := "clip", uri := "p1" }
  stored := { kind := "clip", uri := "p1" }
  succeeded := rfl
  output := rfl
  unpersisted _ := rfl

def clipContext : ToolContext where
  runId := "run"
  effectLedger := some "org"
  durable := true
  publicApiBaseUrl := "https://host"
  webhookCorrelationSecret := "secret"
  environOrganizationSlug := "org"
  buildEffectRef := fun _ _ _ => "ref"

def clipLedger : List LedgerCall := [.setQuota "org" "replicate_video_seconds" 100]

/-- The provider takes the prediction and cannot be polled. -/
def outageAnswers : (c : ToolCall) → c.Answer
  | .submit _ _ _ => .ok { id := "p1", status := "starting" }
  | .getVideoPrediction _ | .cancelVideoPrediction _ =>
      .error { cls := .readTimeout, typeName := "ReadTimeout" }
  | .operation _ _ | .reconcile _ | .persist _ _ =>
      .error { cls := .other, typeName := "Exception" }
  | .monotonic => 0
  | .sleep _ => ()

/-- The provider has finished the prediction. -/
def finishedAnswers : (c : ToolCall) → c.Answer
  | .getVideoPrediction _ | .cancelVideoPrediction _ => .ok finishedClip.prediction
  | .submit _ _ _ => .error { cls := .other, typeName := "Exception" }
  | .operation _ _ | .reconcile _ => .error { cls := .other, typeName := "Exception" }
  | .persist _ artifact => .ok artifact
  | .monotonic => 0
  | .sleep _ => ()

/-- The clip was submitted and its id bound; then the worker stopped. -/
def boundClip : List LedgerCall :=
  clipLedger ++
    [.effect "org" (.reserve "video" "run" "replicate_video_seconds" 8 (.obj [])),
      .effect "org" (.bindProviderOperation "video" "p1" "starting")]

def boundRow : Effect where
  organizationId := "org"
  effectKey := "video"
  runId := "run"
  provider := "replicate_video_seconds"
  units := 8
  status := .reserved
  request := .obj []
  providerOperationId := some "p1"
  providerStatus := some .starting

theorem finished_clip_recovered :
    finishedClip.RecoveredBy "org" (Py.alone (fun _ => finishedAnswers)
      (durablePredictionLifecycle 1 clipContext finishedClip.effect)
      (Machine.run LedgerCall.step Ledger.empty boundClip) 0) := by
  refine (FinishedClip.recoveredBy_iff_reserved finishedClip boundClip "org" clipContext
    boundRow 0 (fun _ => finishedAnswers) (by decide +kernel) (Or.inl rfl)
    ⟨rfl, rfl, rfl, rfl, rfl, rfl⟩ ?_).mpr rfl
  intro n c
  cases c <;> simp [FinishedClip.world, finishedAnswers, finishedClip]

/-- A poll outage leaves the effect uncertain with its id bound and asks for a
retry; the retry finds the clip finished and cannot complete the effect. -/
theorem finished_clip_stranded :
    let ledger := Machine.run LedgerCall.step Ledger.empty clipLedger
    let lifecycle := durablePredictionLifecycle 1 clipContext finishedClip.effect
    let first := Py.alone (fun _ => outageAnswers) lifecycle ledger 0
    let second := Py.alone (fun _ => finishedAnswers) lifecycle first.2.1 0
    first.1 = some (.error (.videoEffect "prediction_poll_unavailable" true true
        "ReadTimeout" "video" "replicate")) ∧
      (first.2.1.effect? "org" "video").map
        (fun row => (row.status, row.providerOperationId)) = some (.uncertain, some "p1") ∧
      second.1 = some (.error (.ledger (.uncertainEffect
        "efeito 'video' não pode ser concluído a partir de 'uncertain'"))) ∧
      (second.2.1.effect? "org" "video").map (fun row => (row.status, row.result)) =
        some (.uncertain, none) := by
  decide +kernel

end Orchestrator
