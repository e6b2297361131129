import Orchestrator.Tools.Base

/-!
Voice finalisations of all tenants on one provider account, and what the
reconciliation of an uncertain one finds there.

The executions interleave as threads on the ledger. The provider keeps the
creation requests that were sent to it and carries out any of them at any later
time or never; it keeps the name a voice was created with, gives every voice an
id of its own and lists all voices.
-/

namespace Orchestrator

structure VoiceCandidate where
  candidateId : String
  previewUri : String

structure VoiceDesignBatch where
  descriptionHash : String
  candidates : List VoiceCandidate

/-- A call of `finalize_creator_voice_tool` by `node_finalize_voices`: the selected
candidate is one of the batch. -/
structure Finalization where
  ctx : ToolContext
  candidateId : String
  batch : VoiceDesignBatch
  creatorId : String
  /-- `config["configurable"].get("organization_id")`. -/
  configuredOrganization : Option String
  designModel : String
  ttsModel : String
  candidate : VoiceCandidate
  selected : batch.candidates.find? (·.candidateId = candidateId) = some candidate

namespace Finalization
variable (f : Finalization)

/-- What makes it this effect and no other: the tenant whose ledger it uses, the
run, the creator and the candidate. -/
def identity : Option OrganizationId × String × String × String :=
  (f.ctx.effectLedger, f.ctx.runId, f.creatorId, f.candidateId)

def voiceName : String :=
  "ugc-" ++ f.configuredOrganization.getD "default" ++ "-" ++ f.creatorId ++ "-" ++
    PyStr.prefixTo 10 f.batch.descriptionHash

def paidEffect : PaidEffect where
  effectKey := "voice-finalize:" ++ f.ctx.runId ++ ":" ++ f.creatorId ++ ":" ++ f.candidateId
  provider := "elevenlabs_voice_slots"
  units := 1
  request := .obj [("creator_id", .str f.creatorId), ("candidate_id", .str f.candidateId),
    ("description_hash", .str f.batch.descriptionHash)]
  reconcile := true

/-- An execution of the tool. -/
def prog : Py Json := executePaidEffect f.ctx f.paidEffect

/-- `FinalizedVoice(...).model_dump()`. -/
def finalizedVoice (voiceId : String) : Json :=
  .obj [("provider", .str "elevenlabs"), ("voice_ref", .str (PyStr.strip voiceId)),
    ("selected_candidate_id", .str f.candidateId),
    ("preview_uri", .str f.candidate.previewUri), ("design_model", .str f.designModel),
    ("tts_model", .str f.ttsModel)]

end Finalization

/-- A voice of the account; `call` is the thread whose request created it. -/
structure Voice where
  voiceId : String
  name : String
  call : Nat
  madeFor : Option OrganizationId × String × String × String
  hasId : PyStr.strip voiceId ≠ ""

def noUniqueMatch : ExternalError where
  cls := .runtimeError
  typeName := "RuntimeError"
  text := "uncertain voice finalization has no unique provider match"

/-- `reconcile_voice`, given what the provider lists. -/
def Finalization.reconcileVoice (f : Finalization) (voices : List Voice) :
    Except ExternalError Json :=
  match f.batch.candidates.find? (·.candidateId = f.candidateId) with
  | none =>
      .error { cls := .other, typeName := "ValueError"
               text := "selected candidate does not belong to voice design batch" }
  | some _ =>
      match voices.filter (fun voice => voice.name = f.voiceName) with
      | [voice] =>
          if PyStr.strip voice.voiceId = "" then
            .error { cls := .runtimeError, typeName := "RuntimeError"
                     text := "reconciled voice is missing voice_id" }
          else .ok (f.finalizedVoice voice.voiceId)
      | _ => .error noUniqueMatch

/-- All executions, the creation requests sent by them and the account. -/
structure VoiceWorld where
  system : System Ledger toolSignature (Except PyExc Json)
  /-- The call each thread was started for. -/
  finalizations : List Finalization
  posted : List Nat
  voices : List Voice

inductive VoiceChoice where
  | schedule (c : Choice Finalization toolSignature)
  /-- The provider carries out the request of a thread. -/
  | carryOut (call : Nat) (voiceId : String) (hasId : PyStr.strip voiceId ≠ "")

namespace VoiceWorld
variable (w : VoiceWorld)

def initial (s : Ledger) : VoiceWorld := ⟨System.initial s, [], [], []⟩

/-- The answers of the provider: an error wherever it may raise one, else what the
account holds. A creation that was not carried out has no reply. -/
def answers (i : Nat) (a : (c : ToolCall) → c.Answer) : (c : ToolCall) → c.Answer
  | .operation ledger key =>
      match a (.operation ledger key), w.finalizations[i]?, w.voices.find? (·.call = i) with
      | .error exc, _, _ => .error exc
      | .ok _, some f, some voice => .ok (f.finalizedVoice voice.voiceId)
      | .ok _, _, _ => .error { cls := .readTimeout, typeName := "ReadTimeout" }
  | .reconcile key =>
      match a (.reconcile key), w.finalizations[i]? with
      | .error exc, _ => .error exc
      | .ok _, some f => f.reconcileVoice w.voices
      | .ok _, none => .error noUniqueMatch
  | c => a c

def schedule (c : Choice Finalization toolSignature) : Note toolSignature × VoiceWorld :=
  let c : Choice Finalization toolSignature := match c with
    | .answer i a => .answer i (w.answers i a)
    | c => c
  let (note, system) := System.step LedgerCall.apply Finalization.prog c w.system
  let finalizations := match c with
    | .spawn f => w.finalizations ++ [f]
    | _ => w.finalizations
  let posted := match note with
    | .invoked i (.operation _ _) => i :: w.posted
    | _ => w.posted
  (note, { w with system, finalizations, posted })

/-- A request creates one voice at most, under an id no voice has. -/
def carryOut (call : Nat) (voiceId : String) (hasId : PyStr.strip voiceId ≠ "") : VoiceWorld :=
  match w.finalizations[call]? with
  | none => w
  | some f =>
      if call ∈ w.posted ∧ w.voices.all (fun voice =>
          voice.call ≠ call && PyStr.strip voice.voiceId ≠ PyStr.strip voiceId) then
        { w with voices := w.voices ++
            [{ voiceId, name := f.voiceName, call, madeFor := f.identity, hasId }] }
      else w

def step : VoiceChoice → VoiceWorld → Note toolSignature × VoiceWorld
  | .schedule c, w => w.schedule c
  | .carryOut call voiceId hasId, w => (.silent, w.carryOut call voiceId hasId)

abbrev Event := Machine.Event VoiceWorld VoiceChoice (Note toolSignature)

/-- The history of the world from a ledger. -/
def history (s : Ledger) (choices : List VoiceChoice) : List Event :=
  Machine.log step (initial s) choices

/-- A voice that the own creation of a finalisation produced. -/
def Own (f : Finalization) (voice : Voice) : Prop := voice.madeFor = f.identity

instance (f : Finalization) (voice : Voice) : Decidable (Own f voice) :=
  inferInstanceAs (Decidable (_ = _))

/-- Whenever `reconcile_voice` returns, it returns the id of an own voice. -/
def ReturnsOwnVoice (e : Event) : Prop :=
  ∀ i key doc, e.reply = .answered i (.reconcile key) (.ok doc) →
    ∃ f voice, e.before.finalizations[i]? = some f ∧ voice ∈ e.before.voices ∧ Own f voice ∧
      doc = f.finalizedVoice voice.voiceId

/-- The execution of a finalisation awaits its reconciliation, and the next choice
lets the provider answer it with its listing. -/
def Lists (w : VoiceWorld) (c : VoiceChoice) (f : Finalization) : Prop :=
  ∃ i a key next listing, c = .schedule (.answer i a) ∧
    w.system.threads i = some (.waiting (.reconcile key) next) ∧
    a (.reconcile key) = .ok listing ∧ w.finalizations[i]? = some f

/-- Under the name of the finalisation the account holds a voice of its own, or
not exactly one voice of others. -/
def Unmistakable (f : Finalization) (voices : List Voice) : Prop :=
  (∃ voice ∈ voices, voice.name = f.voiceName ∧ Own f voice) ∨
    (voices.filter fun voice => voice.name = f.voiceName ∧ ¬Own f voice).length ≠ 1

/-- Whoever lists the account for a finalisation cannot mistake another's voice. -/
def ListsUnmistakable (e : Event) : Prop :=
  ∀ f, Lists e.before e.input f → Unmistakable f e.before.voices

theorem system_answered {c : Choice Finalization toolSignature}
    {s : System Ledger toolSignature (Except PyExc Json)} {i : Nat} {call : ToolCall}
    {out : call.Answer}
    (h : (System.step LedgerCall.apply Finalization.prog c s).1 = .answered i call out) :
    ∃ a next, c = .answer i a ∧ s.threads i = some (.waiting call next) ∧ a call = out := by
  cases c with
  | spawn f => cases h
  | commit j =>
      simp only [System.step] at h
      split at h <;> cases h
  | invoke j =>
      simp only [System.step] at h
      split at h <;> cases h
  | crash j => cases h
  | answer j a =>
      simp only [System.step] at h
      split at h
      · rename_i call' next hwaiting
        cases h
        exact ⟨a, next, rfl, hwaiting, rfl⟩
      · cases h

theorem answered_reconcile {w : VoiceWorld} {c : VoiceChoice} {i : Nat} {key : String}
    {doc : Json} (h : (step c w).1 = .answered i (.reconcile key) (.ok doc)) :
    ∃ f, Lists w c f ∧ w.finalizations[i]? = some f ∧ f.reconcileVoice w.voices = .ok doc := by
  cases c with
  | carryOut call voiceId hasId => cases h
  | schedule c =>
      obtain ⟨a', next, hc, hwaiting, hanswer⟩ := system_answered h
      cases c with
      | answer j a =>
          obtain ⟨rfl, rfl⟩ : j = i ∧ w.answers j a = a' := by simpa using hc
          simp only [answers] at hanswer
          cases hlisting : a (.reconcile key) with
          | error exc => simp [hlisting] at hanswer
          | ok listing =>
              cases hf : w.finalizations[j]? with
              | none => simp [hlisting, hf] at hanswer
              | some f =>
                  simp only [hlisting, hf] at hanswer
                  exact ⟨f, ⟨j, a, key, next, listing, rfl, hwaiting, hlisting, hf⟩, rfl, hanswer⟩
      | spawn f => cases hc
      | commit j => cases hc
      | invoke j => cases hc
      | crash j => cases hc

theorem reply_of_lists {w : VoiceWorld} {c : VoiceChoice} {f : Finalization}
    (h : Lists w c f) :
    ∃ i key, w.finalizations[i]? = some f ∧
      (step c w).1 = .answered i (.reconcile key) (f.reconcileVoice w.voices) := by
  obtain ⟨i, a, key, next, listing, rfl, hwaiting, hlisting, hf⟩ := h
  refine ⟨i, key, hf, ?_⟩
  have hanswer : w.answers i a (.reconcile key) = f.reconcileVoice w.voices := by
    simp only [answers, hlisting, hf]
  simp only [step, schedule, System.step, hwaiting, hanswer]

theorem reconcileVoice_eq_ok (f : Finalization) (voices : List Voice) (doc : Json) :
    f.reconcileVoice voices = .ok doc ↔
      ∃ voice, voices.filter (fun voice => voice.name = f.voiceName) = [voice] ∧
        doc = f.finalizedVoice voice.voiceId := by
  simp only [Finalization.reconcileVoice, f.selected]
  split
  · rename_i voice hmatch
    rw [if_neg voice.hasId]
    constructor
    · intro h
      exact ⟨voice, hmatch, (Except.ok.inj h).symm⟩
    · intro h
      obtain ⟨other, hother, hdoc⟩ := h
      rw [hmatch] at hother
      cases hother
      rw [hdoc]
  · rename_i hmatch
    constructor
    · intro h
      cases h
    · intro h
      obtain ⟨voice, hvoice, -⟩ := h
      exact absurd hvoice (hmatch voice)

theorem listed_of_match {f : Finalization} {voices : List Voice} {voice : Voice}
    (h : voices.filter (fun voice => voice.name = f.voiceName) = [voice]) : voice ∈ voices := by
  have hmem : voice ∈ voices.filter (fun voice => voice.name = f.voiceName) := by
    rw [h]
    exact List.mem_singleton_self voice
  exact (List.mem_filter.mp hmem).1

theorem finalizedVoice_inj {f : Finalization} {x y : String}
    (h : f.finalizedVoice x = f.finalizedVoice y) : PyStr.strip x = PyStr.strip y := by
  simpa [Finalization.finalizedVoice] using h

/-- The one voice under the name is an own one when nothing can be mistaken. -/
theorem own_of_unmistakable {f : Finalization} {voices : List Voice} {voice : Voice}
    (h : Unmistakable f voices)
    (hmatch : voices.filter (fun voice => voice.name = f.voiceName) = [voice]) : Own f voice := by
  by_contra hforeign
  cases h with
  | inl h =>
      obtain ⟨own, hmem, hname, hown⟩ := h
      have hsame : own ∈ voices.filter (fun voice => voice.name = f.voiceName) :=
        List.mem_filter.mpr ⟨hmem, by simpa using hname⟩
      rw [hmatch, List.mem_singleton] at hsame
      exact hforeign (hsame ▸ hown)
  | inr h =>
      refine h ?_
      have hfilter : (voices.filter fun voice => voice.name = f.voiceName ∧ ¬Own f voice) =
          (voices.filter fun voice => voice.name = f.voiceName).filter (¬Own f ·) := by
        rw [List.filter_filter]
        exact List.filter_congr fun v _ => by
          rw [Bool.decide_and, Bool.and_comm]
      rw [hfilter, hmatch, List.filter_singleton, decide_eq_true hforeign]
      rfl

/-- When another's voice can be mistaken, it is the one voice under the name. -/
theorem foreign_of_not_unmistakable {f : Finalization} {voices : List Voice}
    (h : ¬Unmistakable f voices) :
    ∃ voice, voices.filter (fun voice => voice.name = f.voiceName) = [voice] ∧ ¬Own f voice := by
  rw [Unmistakable, not_or, not_not] at h
  obtain ⟨hnone, hone⟩ := h
  obtain ⟨voice, hvoice⟩ := List.length_eq_one_iff.mp hone
  have hfilter : (voices.filter fun voice => voice.name = f.voiceName) =
      voices.filter fun voice => voice.name = f.voiceName ∧ ¬Own f voice := by
    refine List.filter_congr fun v hv => ?_
    have hforeign : v.name = f.voiceName → ¬Own f v := fun hname hown => hnone ⟨v, hv, hname, hown⟩
    simpa using hforeign
  have hmem : voice ∈ voices.filter fun voice => voice.name = f.voiceName ∧ ¬Own f voice := by
    rw [hvoice]
    exact List.mem_singleton_self voice
  have hboth : voice.name = f.voiceName ∧ ¬Own f voice := by
    simpa using (List.mem_filter.mp hmem).2
  exact ⟨voice, hfilter.trans hvoice, hboth.2⟩

/-- No two voices have one id. -/
def DistinctIds (w : VoiceWorld) : Prop :=
  (w.voices.map fun voice => PyStr.strip voice.voiceId).Nodup

theorem DistinctIds.step {w : VoiceWorld} (h : DistinctIds w) (c : VoiceChoice) :
    DistinctIds (VoiceWorld.step c w).2 := by
  cases c with
  | schedule c => exact h
  | carryOut call voiceId hasId =>
      change DistinctIds (w.carryOut call voiceId hasId)
      unfold carryOut
      split
      · exact h
      · split
        · rename_i hguard
          have hfresh : PyStr.strip voiceId ∉
            w.voices.map fun voice => PyStr.strip voice.voiceId := by
            intro hmem
            obtain ⟨u, hu, hid⟩ := List.mem_map.mp hmem
            have hother := List.all_eq_true.mp hguard.2 u hu
            exact of_decide_eq_true ((Bool.and_eq_true _ _).mp hother).2 hid
          rw [DistinctIds, List.map_append]
          exact List.Nodup.append h (List.nodup_singleton _) (by simpa using hfresh)
        · exact h

theorem distinctIds_history {s : Ledger} {choices : List VoiceChoice} {e : Event}
    (he : e ∈ history s choices) : DistinctIds e.before := by
  obtain ⟨before, c, after, -, rfl⟩ := (Machine.mem_log step).mp he
  have hinitial : DistinctIds (initial s) := List.nodup_nil
  exact Machine.run_invariant step (fun w c (hw : DistinctIds w) => hw.step c) hinitial before

theorem DistinctIds.eq {w : VoiceWorld} (h : DistinctIds w) {u v : Voice} (hu : u ∈ w.voices)
    (hv : v ∈ w.voices) (hid : PyStr.strip u.voiceId = PyStr.strip v.voiceId) : u = v :=
  List.inj_on_of_nodup_map h hu hv hid

/-- One listing returns an own voice exactly when it cannot mistake another's. -/
theorem returnsOwnVoice_iff {w : VoiceWorld} (hids : DistinctIds w) (c : VoiceChoice) :
    ReturnsOwnVoice (Machine.event step w c) ↔ ListsUnmistakable (Machine.event step w c) := by
  constructor
  · intro hown f hlists
    by_contra hmistake
    obtain ⟨voice, hmatch, hforeign⟩ := foreign_of_not_unmistakable hmistake
    obtain ⟨i, key, hf, hreply⟩ := reply_of_lists hlists
    have hanswer : (step c w).1 = .answered i (.reconcile key) (f.reconcileVoice w.voices) :=
      hreply
    rw [(reconcileVoice_eq_ok f w.voices _).mpr ⟨voice, hmatch, rfl⟩] at hanswer
    obtain ⟨f', own, hf', hmem, hisOwn, hdoc⟩ := hown i key _ hanswer
    obtain rfl : f = f' := Option.some.inj (hf.symm.trans hf')
    obtain rfl := hids.eq (listed_of_match hmatch) hmem (finalizedVoice_inj hdoc)
    exact hforeign hisOwn
  · intro hclear i key doc hreply
    obtain ⟨f, hlists, hf, hdoc⟩ := answered_reconcile hreply
    obtain ⟨voice, hmatch, rfl⟩ := (reconcileVoice_eq_ok f w.voices doc).mp hdoc
    exact ⟨f, voice, hf, listed_of_match hmatch,
      own_of_unmistakable (hclear f hlists) hmatch, rfl⟩

/-- In every history the reconciliations return own voices only, exactly when none
of them lists the account while another's voice stands alone under its name. -/
theorem reconciliation_returns_own_iff (s : Ledger) (choices : List VoiceChoice) :
    (∀ e ∈ history s choices, ReturnsOwnVoice e) ↔
      ∀ e ∈ history s choices, ListsUnmistakable e := by
  refine forall₂_congr fun e he => ?_
  have hids := distinctIds_history he
  obtain ⟨before, c, after, -, rfl⟩ := (Machine.mem_log step).mp he
  exact returnsOwnVoice_iff hids c

/-- The finalisation of `creator-0` in one run of a tenant; no configuration names
the organization. -/
def finalizeCreator (org runId candidateId : String) : Finalization where
  ctx :=
    { runId, effectLedger := some org, durable := true, enablePaidAdapters := "true"
      buildEffectRef := fun _ _ _ => "" }
  candidateId := candidateId
  batch := ⟨"f2fe1d4b31", [⟨candidateId, "r2://preview.mp3"⟩]⟩
  creatorId := "creator-0"
  configuredOrganization := none
  designModel := "eleven_ttv_v3"
  ttsModel := "eleven_turbo_v2_5"
  candidate := ⟨candidateId, "r2://preview.mp3"⟩
  selected := by simp

def voiceQuotas : Ledger :=
  Machine.run LedgerCall.step Ledger.empty
    [.setQuota "org-1" "elevenlabs_voice_slots" 5, .setQuota "org-2" "elevenlabs_voice_slots" 5]

def answering : (c : ToolCall) → c.Answer
  | .operation _ _ | .reconcile _ => .ok .null
  | .submit _ _ _ | .getVideoPrediction _ | .cancelVideoPrediction _
  | .persist _ _ => .error { cls := .other, typeName := "Exception" }
  | .monotonic => 0
  | .sleep _ => ()

def timingOut : (c : ToolCall) → c.Answer
  | .operation _ _ | .reconcile _ => .error { cls := .readTimeout, typeName := "ReadTimeout" }
  | .submit _ _ _ | .getVideoPrediction _ | .cancelVideoPrediction _
  | .persist _ _ => .error { cls := .other, typeName := "Exception" }
  | .monotonic => 0
  | .sleep _ => ()

/-- The voice of the first tenant is created. The request of the second times out
and never arrives; its execution is repeated. -/
def sharedAccount : List VoiceChoice :=
  [.schedule (.spawn (finalizeCreator "org-1" "run-1" "candidate-1")), .schedule (.commit 0),
    .schedule (.invoke 0), .carryOut 0 "voice-1" (by decide), .schedule (.answer 0 answering),
    .schedule (.commit 0),
    .schedule (.spawn (finalizeCreator "org-2" "run-2" "candidate-2")), .schedule (.commit 1),
    .schedule (.invoke 1), .schedule (.answer 1 timingOut), .schedule (.commit 1),
    .schedule (.spawn (finalizeCreator "org-2" "run-2" "candidate-2")), .schedule (.commit 2),
    .schedule (.invoke 2)]

/-- The reconciliation of the second tenant returns the voice of the first. -/
theorem voice_of_other_tenant :
    ¬∀ e ∈ history voiceQuotas (sharedAccount ++ [.schedule (.answer 2 answering)]),
      ReturnsOwnVoice e := by
  intro hall
  have hlast := hall _ ((Machine.mem_log step).mpr ⟨sharedAccount, _, [], rfl, rfl⟩)
  have hreply : (step (.schedule (.answer 2 answering))
      (Machine.run step (initial voiceQuotas) sharedAccount)).1 =
      .answered 2 (.reconcile "voice-finalize:run-2:creator-0:candidate-2")
        (.ok ((finalizeCreator "org-2" "run-2" "candidate-2").finalizedVoice "voice-1")) := rfl
  obtain ⟨f, voice, hf, hmem, hown, -⟩ := hlast 2 _ _ hreply
  obtain rfl : finalizeCreator "org-2" "run-2" "candidate-2" = f := Option.some.inj hf
  have hforeign : ∀ voice ∈ (Machine.run step (initial voiceQuotas) sharedAccount).voices,
      voice.madeFor = (some "org-1", "run-1", "creator-0", "candidate-1") := by
    intro voice hmem
    obtain rfl := List.mem_singleton.mp hmem
    rfl
  exact absurd ((hforeign voice hmem).symm.trans hown) (by decide)

end VoiceWorld

end Orchestrator
