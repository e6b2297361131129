import Mathlib.Data.List.Dedup
import Orchestrator.Lib.Traced
import Orchestrator.Nodes.StageOutcomes

/-!
What the voice nodes have paid for when they refuse.

Both nodes check one creator and then pay for it before they look at the next, so a
creator that is refused comes too late for those before it.
-/

namespace Orchestrator
open Json Outcome

/-- What the design tool did: whether it called the provider, and what it returned. A
replay from the ledger calls nobody. -/
structure DesignCall where
  issued : Bool
  result : Option StoredDesign

structure FinalizeCall where
  /-- A permanent voice was created. -/
  created : Bool
  result : Option FinalizedVoice

section Design
variable (cfg : BatchConfig) (design : Dict → Int → DesignCall)

def designCalls (creator : Dict) (rerolls : Int) : List (Dict × Int) :=
  if (design creator rerolls).issued then [(creator, rerolls)] else []

/-- One turn of the loop, with the provider calls of its design. -/
def tracedVoiceTurn (requested : Option (List String)) (creator : Dict) :
    List (Dict × Int) × Except StageError (Dict × Rat) :=
  let turn := voiceTurn cfg (fun c n => (design c n).result) requested creator
  match requested with
  | none => (designCalls design creator (rerollCount creator), turn)
  | some ids =>
      if voiceCreatorId creator ∉ ids then ([], turn)
      else if cfg.maxRerolls ≤ rerollCount creator then ([], turn)
      else (designCalls design creator (rerollCount creator + 1), turn)

def tracedVoiceCandidates (st : BatchState) :
    List (Dict × Int) × Except StageError BatchState :=
  let requested := requestedVoices st
  if requested.any (fun ids => ids = [] ∨ ∃ id ∈ ids, id ∉ st.roster.map idText) then
    ([], .error (.valueError "voice reroll IDs must belong to the current creator roster"))
  else
    let designed := Traced.traverse (tracedVoiceTurn cfg design requested) st.roster
    (designed.1, designed.2.map fun designed =>
      { st with
        roster := designed.map Prod.fst
        totalCostUsd := st.totalCostUsd + (designed.map Prod.snd).sum })

theorem tracedVoiceTurn_result (requested : Option (List String)) (creator : Dict) :
    (tracedVoiceTurn cfg design requested creator).2 =
      voiceTurn cfg (fun c n => (design c n).result) requested creator := by
  unfold tracedVoiceTurn
  dsimp only
  split
  · rfl
  · split
    · rfl
    · split <;> rfl

/-- Without its calls the node is the one of the graph. -/
theorem tracedVoiceCandidates_result (st : BatchState) :
    (tracedVoiceCandidates cfg design st).2 =
      nodeVoiceCandidates cfg (fun c n => (design c n).result) st := by
  unfold tracedVoiceCandidates nodeVoiceCandidates
  dsimp only
  split
  · rfl
  · rw [Traced.traverse_result]
    have hturns : (fun creator => (tracedVoiceTurn cfg design (requestedVoices st) creator).2) =
        voiceTurn cfg (fun c n => (design c n).result) (requestedVoices st) := by
      funext creator
      exact tracedVoiceTurn_result cfg design _ creator
    rw [hturns]
    cases st.roster.mapM (voiceTurn cfg (fun c n => (design c n).result) (requestedVoices st)) <;>
      rfl

end Design

/-- The creators that a re-roll asks for, in the order of the roster. -/
def askedFor (ids : List String) (st : BatchState) : List Dict :=
  st.roster.filter (voiceCreatorId · ∈ ids)

/-- An unknown id is asked for, or the first creator asked for has no re-roll left, or
all have. -/
def LimitsSeenFirst (cfg : BatchConfig) (st : BatchState) : Prop :=
  ∀ ids ∈ requestedVoices st, (ids ≠ [] ∧ ∀ id ∈ ids, id ∈ st.roster.map idText) →
    ∀ first ∈ (askedFor ids st).head?, rerollCount first < cfg.maxRerolls →
      ∀ creator ∈ askedFor ids st, rerollCount creator < cfg.maxRerolls

section Limits
variable {cfg : BatchConfig} {design : Dict → Int → DesignCall} {ids : List String}
  {creator : Dict}

/-- Only a creator without re-rolls left is refused. -/
theorem voiceTurn_refused {design : Dict → Int → Option StoredDesign} {message : String}
    {requested : Option (List String)}
    (h : voiceTurn cfg design requested creator = .error (.valueError message)) :
    ∃ ids, requested = some ids ∧ voiceCreatorId creator ∈ ids ∧
      cfg.maxRerolls ≤ rerollCount creator := by
  unfold voiceTurn at h
  split at h
  · split at h <;> cases h
  · rename_i ids
    split at h
    · cases h
    · rename_i hid
      split at h
      · rename_i hlimit
        exact ⟨ids, rfl, not_not.mp hid, hlimit⟩
      · dsimp only at h
        split at h <;> cases h

theorem tracedVoiceTurn_spared (h : voiceCreatorId creator ∉ ids) :
    tracedVoiceTurn cfg design (some ids) creator = ([], .ok (creator, 0)) := by
  simp [tracedVoiceTurn, voiceTurn, h]

theorem tracedVoiceTurn_limited (h : voiceCreatorId creator ∈ ids)
    (hlimit : cfg.maxRerolls ≤ rerollCount creator) :
    tracedVoiceTurn cfg design (some ids) creator = ([], .error (.valueError
      ("voice reroll limit reached for creator " ++ voiceCreatorId creator))) := by
  simp [tracedVoiceTurn, voiceTurn, h, hlimit]

/-- A provider that answers every call. -/
def answeringDesigns (d : StoredDesign) : Dict → Int → DesignCall :=
  fun _ _ => ⟨true, some d⟩

theorem tracedVoiceTurn_designed (d : StoredDesign) (h : voiceCreatorId creator ∈ ids)
    (hlimit : rerollCount creator < cfg.maxRerolls) :
    ∃ out, tracedVoiceTurn cfg (answeringDesigns d) (some ids) creator =
      ([(creator, rerollCount creator + 1)], .ok out) := by
  simp [tracedVoiceTurn, voiceTurn, answeringDesigns, designCalls, h, not_le.mpr hlimit]

/-- The first of the elements with a property is among those that come first. -/
theorem head?_filter_append {α : Type} {p : α → Bool} {before : List α} {b : α} (a : α)
    (after : List α) (hb : b ∈ before) (hp : p b = true) :
    ∃ first ∈ before, ((before ++ a :: after).filter p).head? = some first ∧ p first = true := by
  have hmem : b ∈ before.filter p := List.mem_filter.mpr ⟨hb, hp⟩
  obtain ⟨first, rest, hfilter⟩ := List.exists_cons_of_ne_nil (List.ne_nil_of_mem hmem)
  have hfirst := List.mem_filter.mp (hfilter ▸ List.mem_cons_self : first ∈ before.filter p)
  refine ⟨first, hfirst.1, ?_, hfirst.2⟩
  rw [List.filter_append, hfilter]
  rfl

theorem head?_filter_mem {α : Type} {p : α → Bool} {before after : List α} {a first : α}
    (ha : p a = true) (hfirst : ((before ++ a :: after).filter p).head? = some first) :
    (first = a ∨ first ∈ before) ∧ p first = true := by
  by_cases hany : ∃ b ∈ before, p b = true
  · obtain ⟨b, hb, hp⟩ := hany
    obtain ⟨first', hmem, hhead, hfirst'⟩ := head?_filter_append a after hb hp
    obtain rfl := Option.some.inj (hhead.symm.trans hfirst)
    exact ⟨Or.inr hmem, hfirst'⟩
  · have hnil : before.filter p = [] :=
      List.filter_eq_nil_iff.mpr fun b hb hp => hany ⟨b, hb, hp⟩
    rw [List.filter_append, hnil, List.nil_append, List.filter_cons_of_pos ha] at hfirst
    obtain rfl := Option.some.inj hfirst
    exact ⟨Or.inl rfl, ha⟩

theorem noCalls_of_limitsSeenFirst {st : BatchState} (h : LimitsSeenFirst cfg st)
    {message : String}
    (herror : (tracedVoiceCandidates cfg design st).2 = .error (.valueError message)) :
    (tracedVoiceCandidates cfg design st).1 = [] := by
  unfold tracedVoiceCandidates at herror ⊢
  dsimp only at herror ⊢
  split at herror
  · rename_i hunknown
    rw [if_pos hunknown]
  · rename_i hknown
    rw [if_neg hknown]
    have hloop : (Traced.traverse (tracedVoiceTurn cfg design (requestedVoices st))
        st.roster).2 = .error (.valueError message) := by
      cases hloop : (Traced.traverse (tracedVoiceTurn cfg design (requestedVoices st))
          st.roster).2 with
      | ok out =>
          rw [hloop] at herror
          cases herror
      | error exc =>
          rw [hloop] at herror
          cases herror
          rfl
    obtain ⟨before, creator, after, hroster, hrefused, hok, hcalls⟩ := Traced.stopped hloop
    rw [tracedVoiceTurn_result] at hrefused
    obtain ⟨ids, hrequested, hid, hlimit⟩ := voiceTurn_refused hrefused
    have hvalid : ids ≠ [] ∧ ∀ id ∈ ids, id ∈ st.roster.map idText := by
      simpa [hrequested] using hknown
    -- a creator asked for before the refused one was within its limit
    have hspared : ∀ b ∈ before, voiceCreatorId b ∉ ids := by
      intro b hb hasked
      obtain ⟨first, hfirst, hhead, hfirstAsked⟩ :=
        head?_filter_append (p := (voiceCreatorId · ∈ ids)) creator after hb
          (decide_eq_true hasked)
      rw [← hroster] at hhead
      have hwithin : rerollCount first < cfg.maxRerolls := by
        by_contra hover
        obtain ⟨out, hout⟩ := hok first hfirst
        rw [hrequested, tracedVoiceTurn_limited (of_decide_eq_true hfirstAsked)
          (not_lt.mp hover)] at hout
        cases hout
      have hmem : creator ∈ askedFor ids st := List.mem_filter.mpr
        ⟨hroster ▸ List.mem_append_right _ List.mem_cons_self, decide_eq_true hid⟩
      exact absurd (h ids hrequested hvalid first hhead hwithin creator hmem) (not_lt.mpr hlimit)
    rw [hcalls, hrequested, tracedVoiceTurn_limited hid hlimit, List.append_nil,
      List.flatMap_eq_nil_iff]
    intro b hb
    rw [tracedVoiceTurn_spared (hspared b hb)]

theorem limitsSeenFirst_of_noCalls (d : StoredDesign) {st : BatchState}
    (h : ∀ design message, (tracedVoiceCandidates cfg design st).2 = .error (.valueError message) →
      (tracedVoiceCandidates cfg design st).1 = []) : LimitsSeenFirst cfg st := by
  intro ids hrequested hvalid first hfirst hwithin creator hcreator
  by_contra hover
  obtain ⟨hmem, hasked⟩ := List.mem_filter.mp hcreator
  obtain ⟨before, limited, after, hroster, ⟨hlimitedAsked, hlimited⟩, hbefore⟩ :=
    Traced.exists_first (p := fun c => voiceCreatorId c ∈ ids ∧ cfg.maxRerolls ≤ rerollCount c)
      ⟨creator, hmem, of_decide_eq_true hasked, not_lt.mp hover⟩
  have hturn : ∀ b ∈ before, ∃ r,
      (tracedVoiceTurn cfg (answeringDesigns d) (some ids) b).2 = .ok r := by
    intro b hb
    by_cases hb' : voiceCreatorId b ∈ ids
    · obtain ⟨out, hout⟩ := tracedVoiceTurn_designed d hb'
        (not_le.mp fun hle => hbefore b hb ⟨hb', hle⟩)
      exact ⟨out, by rw [hout]⟩
    · exact ⟨_, by rw [tracedVoiceTurn_spared hb']⟩
  have hrefused := @tracedVoiceTurn_limited _ (answeringDesigns d) _ _ hlimitedAsked hlimited
  have hstops := Traced.stops after hturn (congrArg Prod.snd hrefused)
  rw [← hroster, hrefused, List.append_nil] at hstops
  have hknown : ¬ (requestedVoices st).any
      (fun ids => ids = [] ∨ ∃ id ∈ ids, id ∉ st.roster.map idText) = true := by
    rw [Option.mem_def.mp hrequested]
    simpa using hvalid
  have hnode : tracedVoiceCandidates cfg (answeringDesigns d) st =
      (before.flatMap (fun b => (tracedVoiceTurn cfg (answeringDesigns d) (some ids) b).1),
        .error (.valueError
          ("voice reroll limit reached for creator " ++ voiceCreatorId limited))) := by
    unfold tracedVoiceCandidates
    dsimp only
    rw [if_neg hknown, Option.mem_def.mp hrequested, hstops]
    rfl
  have hnone := h (answeringDesigns d) _ (by rw [hnode])
  rw [hnode] at hnone
  -- the first creator asked for was designed before the limited one was met
  rw [Option.mem_def, askedFor, hroster] at hfirst
  obtain ⟨hwhere, hfirstAsked⟩ := head?_filter_mem (p := (voiceCreatorId · ∈ ids))
    (decide_eq_true hlimitedAsked) hfirst
  have hfirstBefore : first ∈ before := by
    rcases hwhere with rfl | hbefore
    · exact absurd hwithin (not_lt.mpr hlimited)
    · exact hbefore
  have hcalls := List.flatMap_eq_nil_iff.mp hnone first hfirstBefore
  obtain ⟨out, hout⟩ := tracedVoiceTurn_designed d (of_decide_eq_true hfirstAsked) hwithin
  rw [hout] at hcalls
  exact absurd hcalls (List.cons_ne_nil _ _)

end Limits

section Finalize
variable (finalize : Dict → FinalizeCall)

/-- `not creator_dict.get("voice_ref")`. -/
def needsVoice (creator : Dict) : Bool := (orNone (field? creator "voice_ref")).isNone

/-- The candidate of the creator that is selected. -/
def selectedCandidate (creator : Dict) : Option Dict :=
  (voiceCandidates creator).find? fun candidate =>
    textOr (field? candidate "candidate_id") "" = selectedId creator

def hasDesignBatch (creator : Dict) : Bool :=
  match field? creator "voice_design_batch" with
  | some (.obj _) => true
  | _ => false

/-- The preview of the selected candidate has a URI. -/
def hasPreview (creator : Dict) : Bool :=
  (selectedCandidate creator).any fun selected =>
    (((field? selected "preview").bind (·.get? "uri")).getD .null).truthy

/-- What is checked before the voice of a creator is created. -/
def finalizable (creator : Dict) : Bool :=
  (selectedCandidate creator).isSome && hasDesignBatch creator

/-- One turn of the loop, with the permanent voice it creates. -/
def tracedFinalizeTurn (creator : Dict) : List Dict × Except StageError Dict :=
  (if needsVoice creator && finalizable creator && (finalize creator).created then [creator]
    else [],
    finalizeTurn (fun c => (finalize c).result) creator)

def tracedFinalizeVoices (st : BatchState) : List Dict × Except StageError BatchState :=
  let finalized := Traced.traverse (tracedFinalizeTurn finalize) st.roster
  (finalized.1, do
    let roster ← finalized.2
    let missing := missingVoices (requiredCreatorIds st) roster
    if missing = [] then return { st with roster }
    else .error (.valueError
      ("assigned creators without voice_ref: " ++ ", ".intercalate missing)))

theorem tracedFinalizeVoices_result (st : BatchState) :
    (tracedFinalizeVoices finalize st).2 =
      nodeFinalizeVoices (fun c => (finalize c).result) st := by
  unfold tracedFinalizeVoices nodeFinalizeVoices
  dsimp only
  rw [Traced.traverse_result]
  rfl

end Finalize

/-- The node refuses a creator for what the roster lacks. -/
inductive RefusesFinalization : StageError → Prop
  | selection (name : String) :
      RefusesFinalization (.valueError ("creator " ++ name ++ " has no selected voice candidate"))
  | batch (name : String) :
      RefusesFinalization (.valueError ("creator " ++ name ++ " has no voice design batch"))
  | preview (name : String) :
      RefusesFinalization (.valueError ("creator " ++ name ++ " has no voice preview URI"))
  | assigned (ids : String) :
      RefusesFinalization (.valueError ("assigned creators without voice_ref: " ++ ids))

/-- Nobody waits for a voice, or the first who does is refused at once, or nobody is
refused and every assigned creator is there. -/
def FinalizesInOrder (st : BatchState) : Prop :=
  ∀ first ∈ (st.roster.filter needsVoice).head?, finalizable first = true →
    (∀ creator ∈ st.roster, needsVoice creator = true →
      finalizable creator = true ∧ hasPreview creator = true) ∧
    ∀ id ∈ requiredCreatorIds st, id ∈ st.roster.map idText

section FinalizeTurn
variable {finalize : Dict → Option FinalizedVoice} {creator : Dict}

theorem finalizeTurn_voiced (finalize : Dict → Option FinalizedVoice)
    (h : needsVoice creator = false) :
    ∃ out, finalizeTurn finalize creator = .ok out := by
  unfold needsVoice at h
  unfold finalizeTurn
  dsimp only
  cases hvoice : orNone (field? creator "voice_ref") with
  | none => simp [hvoice] at h
  | some ref => exact ⟨_, rfl⟩

/-- The voice that is accepted for a creator. -/
theorem finalizeTurn_accepted {f : Dict → Option FinalizedVoice}
    (hneeds : needsVoice creator = true) (hfinalizable : finalizable creator = true)
    {voice : FinalizedVoice} (hvoice : f creator = some voice)
    (href : PyStr.strip voice.voiceRef ≠ "") :
    (hasPreview creator = true → ∃ out, finalizeTurn f creator = .ok out) ∧
    (hasPreview creator = false → ∃ name, finalizeTurn f creator =
      .error (.valueError ("creator " ++ name ++ " has no voice preview URI"))) := by
  unfold needsVoice at hneeds
  unfold finalizable at hfinalizable
  unfold hasPreview
  obtain ⟨hselected, hbatch⟩ := Bool.and_eq_true_iff.mp hfinalizable
  obtain ⟨selected, hselected⟩ := Option.isSome_iff_exists.mp hselected
  have hnone := Option.isNone_iff_eq_none.mp hneeds
  unfold hasDesignBatch at hbatch
  split at hbatch
  · rename_i batch hbatchField
    unfold finalizeTurn
    unfold selectedCandidate at hselected ⊢
    dsimp only
    rw [hnone, hselected, hbatchField]
    dsimp only
    rw [hvoice]
    dsimp only [Option.any_some]
    rw [if_neg href]
    constructor
    · intro hpreview
      exact ⟨_, by rw [hpreview]; rfl⟩
    · intro hpreview
      exact ⟨_, by rw [hpreview]; rfl⟩
  · cases hbatch

/-- How the turn of a creator that waits for its voice ends. -/
inductive FinalizeOutcome (creator : Dict) : Except StageError Dict → Prop
  | refused {exc : StageError} (h : finalizable creator = false)
      (hexc : RefusesFinalization exc) : FinalizeOutcome creator (.error exc)
  | failed (h : finalizable creator = true) : FinalizeOutcome creator (.error .generator)
  | emptyRef (h : finalizable creator = true) (name : String) :
      FinalizeOutcome creator
        (.error (.valueError ("creator " ++ name ++ " returned empty voice_ref")))
  | noPreview (h : finalizable creator = true) (hpreview : hasPreview creator = false)
      (name : String) :
      FinalizeOutcome creator
        (.error (.valueError ("creator " ++ name ++ " has no voice preview URI")))
  | finalized (h : finalizable creator = true) (hpreview : hasPreview creator = true)
      {voice : FinalizedVoice} (href : PyStr.strip voice.voiceRef ≠ "") (batch : Dict)
      (previewUri : Json) :
      FinalizeOutcome creator (.ok (merge creator (finalizedFields voice batch previewUri)))

theorem finalizeTurn_outcome (hneeds : needsVoice creator = true) :
    FinalizeOutcome creator (finalizeTurn finalize creator) := by
  have hnone := Option.isNone_iff_eq_none.mp hneeds
  have hselectedEq : selectedCandidate creator = (voiceCandidates creator).find?
      (fun candidate => textOr (field? candidate "candidate_id") "" = selectedId creator) := rfl
  unfold finalizeTurn
  dsimp only
  rw [hnone, ← hselectedEq]
  dsimp only
  cases hselected : selectedCandidate creator with
  | none => exact .refused (by simp [finalizable, hselected]) (.selection _)
  | some selected =>
      dsimp only
      split
      · rename_i batch hbatch
        have hfinalizable : finalizable creator = true := by
          simp [finalizable, hselected, hasDesignBatch, hbatch]
        have hpreviewEq : hasPreview creator =
            (((field? selected "preview").bind (·.get? "uri")).getD .null).truthy := by
          simp [hasPreview, hselected]
        split
        · exact .failed hfinalizable
        · split
          · exact .emptyRef hfinalizable _
          · rename_i href
            rw [← hpreviewEq]
            cases hpreview : hasPreview creator with
            | false => exact .noPreview hfinalizable hpreview _
            | true => exact .finalized hfinalizable hpreview href batch _
      · rename_i hbatch
        have hnoBatch : hasDesignBatch creator = false := by
          unfold hasDesignBatch
          split
          · rename_i batch hobj
            exact absurd hobj (hbatch batch)
          · rfl
        exact .refused (by simp [finalizable, hnoBatch]) (.batch _)

theorem getLast?_append_const (s : String) {t : String} (h : t.toList ≠ []) :
    (s ++ t).toList.getLast? = t.toList.getLast? := by
  rw [String.toList_append, List.getLast?_append_of_ne_nil _ h]

/-- An empty reference is the provider's failure. -/
theorem not_refuses_emptyRef (name : String) :
    ¬ RefusesFinalization (.valueError ("creator " ++ name ++ " returned empty voice_ref")) := by
  have hlast : ∀ (other tail : String), tail.toList ≠ [] →
      "creator " ++ name ++ " returned empty voice_ref" = other ++ tail →
      tail.toList.getLast? = some 'f' := by
    intro other tail htail heq
    have hsame := congrArg (fun s => s.toList.getLast?) heq
    rw [getLast?_append_const _ (by decide), getLast?_append_const _ htail] at hsame
    exact hsame.symm.trans (by decide)
  intro h
  generalize hmessage : "creator " ++ name ++ " returned empty voice_ref" = message at h
  cases h with
  | selection other => exact absurd (hlast _ _ (by decide) hmessage) (by decide)
  | batch other => exact absurd (hlast _ _ (by decide) hmessage) (by decide)
  | preview other => exact absurd (hlast _ _ (by decide) hmessage) (by decide)
  | assigned ids =>
      have hfirst := congrArg (fun s => s.toList.head?) hmessage
      simp [String.toList_append] at hfirst

theorem finalizeTurn_refused (hneeds : needsVoice creator = true) {exc : StageError}
    (h : finalizeTurn finalize creator = .error exc) (hexc : RefusesFinalization exc) :
    finalizable creator = true → hasPreview creator = false := by
  intro hfinalizable
  have houtcome : FinalizeOutcome creator (finalizeTurn finalize creator) :=
    finalizeTurn_outcome hneeds
  rw [h] at houtcome
  cases houtcome with
  | refused hnot _ => exact absurd (hnot.symm.trans hfinalizable) (by decide)
  | failed _ => cases hexc
  | emptyRef _ name => exact absurd hexc (not_refuses_emptyRef name)
  | noPreview _ hpreview _ => exact hpreview

theorem finalizeTurn_ok (hneeds : needsVoice creator = true) {out : Dict}
    (h : finalizeTurn finalize creator = .ok out) :
    finalizable creator = true ∧ hasPreview creator = true := by
  have houtcome : FinalizeOutcome creator (finalizeTurn finalize creator) :=
    finalizeTurn_outcome hneeds
  rw [h] at houtcome
  cases houtcome with
  | finalized hfinalizable hpreview _ _ _ => exact ⟨hfinalizable, hpreview⟩

/-- Whom the loop is done with has a voice. -/
theorem finalizeTurn_voice {out : Dict} (h : finalizeTurn finalize creator = .ok out) :
    (orNone (field? out "voice_ref")).isSome = true := by
  cases hneeds : needsVoice creator with
  | false =>
      unfold needsVoice at hneeds
      obtain ⟨ref, href⟩ := Option.isSome_iff_exists.mp
        (Option.isNone_eq_false_iff.mp hneeds)
      unfold finalizeTurn at h
      dsimp only at h
      rw [href] at h
      cases h
      split
      · rw [href]
        rfl
      · rw [field?_setField_of_ne _ _ (by decide), href]
        rfl
  | true =>
      have houtcome : FinalizeOutcome creator (finalizeTurn finalize creator) :=
        finalizeTurn_outcome hneeds
      rw [h] at houtcome
      cases houtcome with
      | finalized _ _ href batch previewUri =>
          rw [field?_merge _ _ _ (by simp [finalizedFields])]
          simp [finalizedFields, orNone, truthy, href]

end FinalizeTurn

/-- With a voice for everyone, the missing creators are those that are not there. -/
theorem missingVoices_eq_nil_iff {required : List String} {roster : List Dict}
    (hvoiced : ∀ creator ∈ roster, (orNone (field? creator "voice_ref")).isSome = true) :
    missingVoices required roster = [] ↔ ∀ id ∈ required, id ∈ roster.map idText := by
  have hfind : ∀ id, ((roster.reverse.find? fun creator => idText creator = id).any fun creator =>
      (orNone (field? creator "voice_ref")).isSome) = true ↔ id ∈ roster.map idText := by
    intro id
    rw [Option.any_eq_true]
    constructor
    · rintro ⟨creator, hcreator, -⟩
      have hmem := List.mem_reverse.mp (List.mem_of_find?_eq_some hcreator)
      have hid : idText creator = id := by simpa using List.find?_some hcreator
      exact hid ▸ List.mem_map_of_mem hmem
    · intro hid
      obtain ⟨creator, hcreator, heq⟩ := List.mem_map.mp hid
      have hsome : (roster.reverse.find? fun creator => idText creator = id).isSome = true := by
        rw [List.find?_isSome]
        exact ⟨creator, List.mem_reverse.mpr hcreator, by simpa using heq⟩
      obtain ⟨found, hfound⟩ := Option.isSome_iff_exists.mp hsome
      exact ⟨found, hfound, hvoiced found
        (List.mem_reverse.mp (List.mem_of_find?_eq_some hfound))⟩
  have hsort : missingVoices required roster = [] ↔ (required.filter fun id =>
      !((roster.reverse.find? fun creator => idText creator = id).any fun creator =>
        (orNone (field? creator "voice_ref")).isSome)) = [] := by
    unfold missingVoices
    rw [← List.length_eq_zero_iff, List.length_insertionSort, List.length_eq_zero_iff,
      List.dedup_eq_nil]
  rw [hsort, List.filter_eq_nil_iff]
  refine forall₂_congr fun id _ => ?_
  rw [← hfind id]
  simp

section FinalizeNode
variable {finalize : Dict → FinalizeCall} {st : BatchState}

theorem tracedFinalizeTurn_result (finalize : Dict → FinalizeCall) (creator : Dict) :
    (tracedFinalizeTurn finalize creator).2 =
      finalizeTurn (fun c => (finalize c).result) creator := rfl

theorem tracedFinalizeTurn_none {creator : Dict}
    (h : needsVoice creator = true → finalizable creator = false) :
    (tracedFinalizeTurn finalize creator).1 = [] := by
  unfold tracedFinalizeTurn
  cases hneeds : needsVoice creator with
  | false => simp
  | true => simp [h hneeds]

section Refused
variable {before after : List Dict} {creator : Dict} {exc : StageError}

theorem needsVoice_of_refused (hrefused : (tracedFinalizeTurn finalize creator).2 = .error exc) :
    needsVoice creator = true := by
  by_contra hvoiced
  obtain ⟨out, hout⟩ := finalizeTurn_voiced (fun c => (finalize c).result)
    (by simpa using hvoiced : needsVoice creator = false)
  rw [tracedFinalizeTurn, hout] at hrefused
  cases hrefused

theorem noPreview_of_refused (hrefused : (tracedFinalizeTurn finalize creator).2 = .error exc)
    (hexc : RefusesFinalization exc) (hfinalizable : finalizable creator = true) :
    hasPreview creator = false := by
  have hneeds := needsVoice_of_refused hrefused
  rw [tracedFinalizeTurn_result] at hrefused
  exact finalizeTurn_refused hneeds hrefused hexc hfinalizable

/-- Whoever waits before the refused creator would be the first to be finalized. -/
theorem nobody_before_refused (h : FinalizesInOrder st)
    (hroster : st.roster = before ++ creator :: after)
    (hok : ∀ b ∈ before, ∃ out, (tracedFinalizeTurn finalize b).2 = .ok out)
    (hrefused : (tracedFinalizeTurn finalize creator).2 = .error exc)
    (hexc : RefusesFinalization exc) : ∀ b ∈ before, needsVoice b = false := by
  intro b hb
  by_contra hwaits
  obtain ⟨first, hfirst, hhead, hfirstNeeds⟩ := head?_filter_append creator after hb
    (by simpa using hwaits : needsVoice b = true)
  rw [← hroster] at hhead
  obtain ⟨out, hout⟩ := hok first hfirst
  rw [tracedFinalizeTurn_result] at hout
  obtain ⟨hall, -⟩ := h first hhead (finalizeTurn_ok hfirstNeeds hout).1
  obtain ⟨hfinalizable, hpreview⟩ := hall creator
    (hroster ▸ List.mem_append_right _ List.mem_cons_self) (needsVoice_of_refused hrefused)
  exact absurd ((noPreview_of_refused hrefused hexc hfinalizable).symm.trans hpreview) (by decide)

theorem not_finalizable_of_refused (h : FinalizesInOrder st)
    (hroster : st.roster = before ++ creator :: after)
    (hnobody : ∀ b ∈ before, needsVoice b = false)
    (hrefused : (tracedFinalizeTurn finalize creator).2 = .error exc)
    (hexc : RefusesFinalization exc) : finalizable creator = false := by
  have hneeds := needsVoice_of_refused hrefused
  have hhead : (st.roster.filter needsVoice).head? = some creator := by
    have hnil : before.filter needsVoice = [] :=
      List.filter_eq_nil_iff.mpr fun b hb => by simp [hnobody b hb]
    rw [hroster, List.filter_append, hnil]
    simp [hneeds]
  by_contra hfinalizable
  have hfinalizable : finalizable creator = true := by simpa using hfinalizable
  obtain ⟨hall, -⟩ := h creator hhead hfinalizable
  obtain ⟨-, hpreview⟩ := hall creator
    (hroster ▸ List.mem_append_right _ List.mem_cons_self) hneeds
  exact absurd ((noPreview_of_refused hrefused hexc hfinalizable).symm.trans hpreview) (by decide)

end Refused

/-- Somebody waited and nobody was refused, so that nobody is missing either. -/
theorem returned_of_finalizesInOrder (h : FinalizesInOrder st) {roster : List Dict}
    (hloop : (Traced.traverse (tracedFinalizeTurn finalize) st.roster).2 = .ok roster)
    {creator : Dict} (hcreator : creator ∈ st.roster) (hneeds : needsVoice creator = true) :
    (tracedFinalizeVoices finalize st).2 = .ok { st with roster } := by
  have hroster : st.roster.mapM (finalizeTurn fun c => (finalize c).result) = .ok roster :=
    (Traced.traverse_result (tracedFinalizeTurn finalize) st.roster).symm.trans hloop
  have hturns := forall₂_of_mapM hroster
  obtain ⟨first, rest, hwaiting⟩ := List.exists_cons_of_ne_nil
    (List.ne_nil_of_mem (List.mem_filter.mpr ⟨hcreator, hneeds⟩))
  obtain ⟨hfirst, hfirstNeeds⟩ := List.mem_filter.mp
    (hwaiting ▸ List.mem_cons_self : first ∈ st.roster.filter needsVoice)
  obtain ⟨out, -, hout⟩ := exists_right hturns hfirst
  obtain ⟨-, hassigned⟩ := h first (by simp [hwaiting]) (finalizeTurn_ok hfirstNeeds hout).1
  have hids : roster.map idText = st.roster.map idText :=
    map_eq_of_forall₂ (fun _ _ hturn =>
      congrArg (textOr · "") (Voiced.finalizeTurn_frame hturn (by decide))) hturns
  have hnone : missingVoices (requiredCreatorIds st) roster = [] := by
    refine (missingVoices_eq_nil_iff fun out hout => ?_).mpr (hids ▸ hassigned)
    obtain ⟨before, -, hturn⟩ := exists_left hturns hout
    exact finalizeTurn_voice hturn
  rw [tracedFinalizeVoices_result]
  unfold nodeFinalizeVoices
  rw [hroster, ok_bind]
  dsimp only
  rw [if_pos hnone]
  rfl

theorem noVoice_of_finalizesInOrder (h : FinalizesInOrder st) {exc : StageError}
    (herror : (tracedFinalizeVoices finalize st).2 = .error exc)
    (hexc : RefusesFinalization exc) : (tracedFinalizeVoices finalize st).1 = [] := by
  have hcalls : (tracedFinalizeVoices finalize st).1 =
      (Traced.traverse (tracedFinalizeTurn finalize) st.roster).1 := rfl
  rw [hcalls]
  cases hloop : (Traced.traverse (tracedFinalizeTurn finalize) st.roster).2 with
  | error exc' =>
      have hsame : exc' = exc := by
        simp only [tracedFinalizeVoices, hloop] at herror
        cases herror
        rfl
      subst hsame
      obtain ⟨before, creator, after, hroster, hrefused, hok, hmade⟩ := Traced.stopped hloop
      have hnobody := nobody_before_refused h hroster hok hrefused hexc
      have hunfinalizable := not_finalizable_of_refused h hroster hnobody hrefused hexc
      rw [hmade, tracedFinalizeTurn_none (fun _ => hunfinalizable), List.append_nil,
        List.flatMap_eq_nil_iff]
      exact fun b hb => tracedFinalizeTurn_none fun hwaits =>
        absurd ((hnobody b hb).symm.trans hwaits) (by decide)
  | ok roster =>
      rw [Traced.calls_of_ok hloop, List.flatMap_eq_nil_iff]
      intro creator hcreator
      by_contra hmade
      have hneeds : needsVoice creator = true := by
        by_contra hvoiced
        exact hmade (tracedFinalizeTurn_none fun hneeds => absurd hneeds hvoiced)
      rw [returned_of_finalizesInOrder h hloop hcreator hneeds] at herror
      cases herror

/-- A provider that creates every voice it is asked for. -/
def creatingVoices : Dict → FinalizeCall := fun _ => ⟨true, some { voiceRef := "voice-1" }⟩

theorem tracedFinalizeTurn_created {creator : Dict} (hneeds : needsVoice creator = true)
    (hfinalizable : finalizable creator = true) :
    (tracedFinalizeTurn creatingVoices creator).1 = [creator] := by
  simp [tracedFinalizeTurn, creatingVoices, hneeds, hfinalizable]

theorem finalizeTurn_creating {creator : Dict}
    (h : needsVoice creator = true → finalizable creator = true ∧ hasPreview creator = true) :
    ∃ out, (tracedFinalizeTurn creatingVoices creator).2 = .ok out := by
  rw [tracedFinalizeTurn_result]
  cases hneeds : needsVoice creator with
  | false => exact finalizeTurn_voiced _ hneeds
  | true =>
      obtain ⟨hfinalizable, hpreview⟩ := h hneeds
      exact (finalizeTurn_accepted hneeds hfinalizable rfl (by decide)).1 hpreview

theorem finalizeTurn_unready {creator : Dict} (hneeds : needsVoice creator = true)
    (h : ¬ (finalizable creator = true ∧ hasPreview creator = true)) :
    ∃ exc, (tracedFinalizeTurn creatingVoices creator).2 = .error exc ∧
      RefusesFinalization exc := by
  rw [tracedFinalizeTurn_result]
  cases hfinalizable : finalizable creator with
  | true =>
      have hpreview : hasPreview creator = false := by simpa [hfinalizable] using h
      obtain ⟨name, hname⟩ := (finalizeTurn_accepted (f := fun c => (creatingVoices c).result)
        hneeds hfinalizable rfl (by decide)).2 hpreview
      exact ⟨_, hname, .preview name⟩
  | false =>
      have houtcome : FinalizeOutcome creator
          (finalizeTurn (fun c => (creatingVoices c).result) creator) :=
        finalizeTurn_outcome hneeds
      generalize finalizeTurn (fun c => (creatingVoices c).result) creator = result at houtcome
      cases houtcome with
      | refused _ hexc => exact ⟨_, rfl, hexc⟩
      | failed hthen => exact absurd (hfinalizable.symm.trans hthen) (by decide)
      | emptyRef hthen _ => exact absurd (hfinalizable.symm.trans hthen) (by decide)
      | noPreview hthen _ _ => exact absurd (hfinalizable.symm.trans hthen) (by decide)
      | finalized hthen _ _ _ _ => exact absurd (hfinalizable.symm.trans hthen) (by decide)

theorem finalizesInOrder_of_noVoice
    (h : ∀ finalize exc, (tracedFinalizeVoices finalize st).2 = .error exc →
      RefusesFinalization exc → (tracedFinalizeVoices finalize st).1 = []) :
    FinalizesInOrder st := by
  intro first hfirst hfinalizable
  have hready : ∀ creator ∈ st.roster, needsVoice creator = true →
      finalizable creator = true ∧ hasPreview creator = true := by
    by_contra hnot
    push Not at hnot
    obtain ⟨creator, hcreator, hneeds, hunready⟩ := hnot
    obtain ⟨before, unready, after, hroster, ⟨hunreadyNeeds, hunready⟩, hbefore⟩ :=
      Traced.exists_first
        (p := fun c => needsVoice c = true ∧ ¬ (finalizable c = true ∧ hasPreview c = true))
        ⟨creator, hcreator, hneeds, fun hboth => hunready hboth.1 hboth.2⟩
    obtain ⟨exc, hexc, hrefuses⟩ := finalizeTurn_unready hunreadyNeeds hunready
    have hok : ∀ b ∈ before, ∃ out, (tracedFinalizeTurn creatingVoices b).2 = .ok out :=
      fun b hb => finalizeTurn_creating fun hneeds => by
        by_contra hnot
        exact hbefore b hb ⟨hneeds, hnot⟩
    have hstops := Traced.stops after hok hexc
    rw [← hroster] at hstops
    have hnode : (tracedFinalizeVoices creatingVoices st).2 = .error exc := by
      simp only [tracedFinalizeVoices, hstops]
      rfl
    have hnone := h creatingVoices exc hnode hrefuses
    simp only [tracedFinalizeVoices, hstops] at hnone
    obtain ⟨hbeforeNone, hunreadyNone⟩ := List.append_eq_nil_iff.mp hnone
    rw [Option.mem_def, hroster] at hfirst
    obtain ⟨hwhere, hfirstNeeds⟩ := head?_filter_mem hunreadyNeeds hfirst
    have hcreated := tracedFinalizeTurn_created hfirstNeeds hfinalizable
    rcases hwhere with rfl | hmem
    · exact absurd (hcreated.symm.trans hunreadyNone) (List.cons_ne_nil _ _)
    · exact absurd (hcreated.symm.trans (List.flatMap_eq_nil_iff.mp hbeforeNone first hmem))
        (List.cons_ne_nil _ _)
  refine ⟨hready, ?_⟩
  by_contra hmissing
  obtain ⟨roster, hroster⟩ := mapM_ok_of_forall
    (f := finalizeTurn fun c => (creatingVoices c).result) (l := st.roster)
    fun creator hcreator => finalizeTurn_creating (hready creator hcreator)
  have hturns := forall₂_of_mapM hroster
  have hids : roster.map idText = st.roster.map idText :=
    map_eq_of_forall₂ (fun _ _ hturn =>
      congrArg (textOr · "") (Voiced.finalizeTurn_frame hturn (by decide))) hturns
  have hlacks : missingVoices (requiredCreatorIds st) roster ≠ [] := by
    rw [Ne, missingVoices_eq_nil_iff, hids]
    · exact hmissing
    · intro out hout
      obtain ⟨before, -, hturn⟩ := exists_left hturns hout
      exact finalizeTurn_voice hturn
  have hloop : (Traced.traverse (tracedFinalizeTurn creatingVoices) st.roster).2 = .ok roster :=
    (Traced.traverse_result _ _).trans hroster
  have hnode : (tracedFinalizeVoices creatingVoices st).2 = .error (.valueError
      ("assigned creators without voice_ref: " ++
        ", ".intercalate (missingVoices (requiredCreatorIds st) roster))) := by
    simp only [tracedFinalizeVoices, hloop]
    change (if _ = [] then _ else _) = _
    rw [if_neg hlacks]
  have hnone : (Traced.traverse (tracedFinalizeTurn creatingVoices) st.roster).1 = [] :=
    h creatingVoices _ hnode (.assigned _)
  rw [Traced.calls_of_ok hloop] at hnone
  obtain ⟨hmem, hfirstNeeds⟩ := List.mem_filter.mp (List.mem_of_mem_head? hfirst)
  have hcreated := tracedFinalizeTurn_created hfirstNeeds hfinalizable
  exact absurd (hcreated.symm.trans (List.flatMap_eq_nil_iff.mp hnone first hmem))
    (List.cons_ne_nil _ _)

end FinalizeNode

def sampleDesign : StoredDesign where
  spec := []
  descriptionHash := "d41d8cd98f"
  candidates := [
    { candidateId := "v-1", previewUri := "/media/v-1.mp3", id_length := by decide
      uri_ne := by decide }]
  costUsd := 1
  candidates_ne := List.cons_ne_nil _ _
  cost_nonneg := by decide

/-- The voice nodes refuse before they spend exactly when whoever they would pay for
first is the one they refuse, or they refuse nobody. -/
theorem validation_precedes_spending_iff (cfg : BatchConfig) (st : BatchState) :
    ((∀ design message, (tracedVoiceCandidates cfg design st).2 = .error (.valueError message) →
        (tracedVoiceCandidates cfg design st).1 = []) ∧
      ∀ finalize exc, (tracedFinalizeVoices finalize st).2 = .error exc →
        RefusesFinalization exc → (tracedFinalizeVoices finalize st).1 = []) ↔
      LimitsSeenFirst cfg st ∧ FinalizesInOrder st := by
  constructor
  · rintro ⟨hdesign, hfinalize⟩
    exact ⟨limitsSeenFirst_of_noCalls sampleDesign hdesign, finalizesInOrder_of_noVoice hfinalize⟩
  · rintro ⟨hlimits, horder⟩
    exact ⟨fun _ _ herror => noCalls_of_limitsSeenFirst hlimits herror,
      fun _ _ herror hexc => noVoice_of_finalizesInOrder horder herror hexc⟩

/-- A re-roll of two creators, the second without re-rolls left. -/
def exhaustedSecond : BatchState where
  roster := [[("id", .str "creator-0")],
    [("id", .str "creator-1"), ("voice_reroll_count", .num 2)]]
  revisionRequest := some
    { target := "voices", ids := [.str "creator-0", .str "creator-1"], feedback := "" }

theorem design_paid_before_refusal :
    ¬ ∀ design message,
      (tracedVoiceCandidates { reviewPlan := true } design exhaustedSecond).2 =
        .error (.valueError message) →
      (tracedVoiceCandidates { reviewPlan := true } design exhaustedSecond).1 = [] := by
  intro h
  have hlimits := limitsSeenFirst_of_noCalls sampleDesign h
  have hsecond := hlimits ["creator-0", "creator-1"] rfl (by decide) _ rfl (by decide)
    [("id", .str "creator-1"), ("voice_reroll_count", .num 2)] (by decide)
  exact absurd hsecond (by decide)

end Orchestrator
