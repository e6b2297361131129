import Mathlib.Data.List.Flatten
import Orchestrator.Graph.ReviewGate
import Orchestrator.Nodes.VoiceSpending
import Orchestrator.Tools.KeyIdentity

/-!
The effect keys of the voice designs of a run.

A design is paid for under the id of its creator and the count of its re-rolls. The
count lives in the creator, so a key can come back only with a roster that is built
anew. The designs that are completed are those of the turns of the voice node that
returned; a turn that raised leaves the counts as they were, and repeats its calls.
-/

namespace Orchestrator
open Json Outcome

section Calls
variable (runId : KeyId) (describe : Dict → String) (designModel : String)

/-- The call of the design tool for a creator; `describe` is the description of the spec
that is derived from it. -/
def designCallFor (creator : Dict) (rerolls : Int) : VoiceDesign where
  runId := runId
  creatorId := voiceCreatorId creator
  description := describe creator
  designModel := designModel
  rerollCount := rerolls

/-- The calls of a turn of the voice node that returns. -/
def designsOf (st : BatchState) : List VoiceDesign :=
  match requestedVoices st with
  | none => st.roster.map fun creator =>
      designCallFor runId describe designModel creator (rerollCount creator)
  | some ids => (st.roster.filter fun creator => voiceCreatorId creator ∈ ids).map fun creator =>
      designCallFor runId describe designModel creator (rerollCount creator + 1)

theorem designsOf_eq_flatMap (st : BatchState) :
    designsOf runId describe designModel st = st.roster.flatMap fun creator =>
      match requestedVoices st with
      | none => [designCallFor runId describe designModel creator (rerollCount creator)]
      | some ids =>
          if voiceCreatorId creator ∈ ids then
            [designCallFor runId describe designModel creator (rerollCount creator + 1)]
          else [] := by
  rw [designsOf]
  cases requestedVoices st with
  | none => exact List.map_eq_flatMap
  | some ids =>
      dsimp only
      induction st.roster with
      | nil => rfl
      | cons creator roster ih =>
          rw [List.flatMap_cons, ← ih, List.filter_cons]
          by_cases hasked : voiceCreatorId creator ∈ ids <;> simp [hasked]

section Traced
variable {cfg : BatchConfig} {design : Dict → Int → DesignCall}

/-- A call of the design tool as a paid call. -/
def paidDesign (call : Dict × Int) : VoiceDesign :=
  designCallFor runId describe designModel call.1 call.2

/-- However a turn of the voice node ends, its calls are among those of one that returns. -/
theorem tracedVoiceCandidates_calls (st : BatchState) :
    ((tracedVoiceCandidates cfg design st).1.map (paidDesign runId describe designModel)).Sublist
      (designsOf runId describe designModel st) := by
  have hdesign (creator : Dict) (rerolls : Int) : ((designCalls design creator rerolls).map
      (paidDesign runId describe designModel)).Sublist
        [designCallFor runId describe designModel creator rerolls] := by
    rw [designCalls]
    split
    · exact List.Sublist.refl _
    · exact List.nil_sublist _
  rw [tracedVoiceCandidates]
  dsimp only
  split
  · exact List.nil_sublist _
  · rw [designsOf_eq_flatMap]
    refine ((Traced.calls_sublist _ st.roster).map _).trans ?_
    rw [List.map_flatMap]
    refine List.Sublist.flatMap_right _ fun creator _ => ?_
    rw [tracedVoiceTurn.eq_def]
    cases requestedVoices st with
    | none => exact hdesign creator _
    | some ids =>
        dsimp only
        by_cases hasked : voiceCreatorId creator ∈ ids
        · rw [if_neg (not_not.mpr hasked), if_pos hasked]
          split
          · exact List.nil_sublist _
          · exact hdesign creator _
        · rw [if_pos hasked]
          exact List.nil_sublist _

/-- A turn that returns makes all of them, when none is answered from the ledger. -/
theorem tracedVoiceCandidates_calls_of_ok {st st' : BatchState}
    (hissued : ∀ creator rerolls, (design creator rerolls).issued = true)
    (hok : (tracedVoiceCandidates cfg design st).2 = .ok st') :
    (tracedVoiceCandidates cfg design st).1.map (paidDesign runId describe designModel) =
      designsOf runId describe designModel st := by
  rw [tracedVoiceCandidates] at hok ⊢
  dsimp only at hok ⊢
  split at hok
  · cases hok
  rename_i hnamed
  obtain ⟨turns, hturns, -⟩ := ok_of_map hok
  rw [if_neg hnamed, Traced.calls_of_ok hturns, designsOf_eq_flatMap, List.map_flatMap]
  rw [Traced.traverse_result] at hturns
  refine List.flatMap_congr fun creator hcreator => ?_
  obtain ⟨turn, -, hturn⟩ := exists_right (forall₂_of_mapM hturns) hcreator
  rw [tracedVoiceTurn_result, voiceTurn.eq_def] at hturn
  rw [tracedVoiceTurn.eq_def]
  cases hrequested : requestedVoices st with
  | none =>
      simp only [designCalls, hissued, if_true]
      rfl
  | some ids =>
      rw [hrequested] at hturn
      dsimp only at hturn ⊢
      by_cases hasked : voiceCreatorId creator ∈ ids
      · rw [if_neg (not_not.mpr hasked)] at hturn ⊢
        by_cases hspent : cfg.maxRerolls ≤ rerollCount creator
        · rw [if_pos hspent] at hturn
          cases hturn
        · rw [if_neg hspent, if_pos hasked, designCalls, if_pos (hissued _ _)]
          rfl
      · rw [if_pos hasked, if_neg hasked]
        rfl

end Traced

/-- The designs since the roster was built: those of a voice node that returned are
added, and a new roster starts over. -/
def trackDesigns (before after : BatchRun) (done : List VoiceDesign) : List VoiceDesign :=
  if after.node = before.node then done
  else if before.node = .roster then []
  else if before.node = .voiceCandidates then
    done ++ designsOf runId describe designModel before.state
  else done

/-- The run along with the designs since its roster was built. -/
def stepTracked (cfg : BatchConfig) (e : BatchEvent) (s : BatchRun × List VoiceDesign) :
    Option StageError × BatchRun × List VoiceDesign :=
  ((BatchRun.step cfg e s.1).1, (BatchRun.step cfg e s.1).2,
    trackDesigns runId describe designModel s.1 (BatchRun.step cfg e s.1).2 s.2)

abbrev trackedAfter (cfg : BatchConfig) (events : List BatchEvent) :
    BatchRun × List VoiceDesign :=
  Machine.run (stepTracked runId describe designModel cfg) ({}, []) events

theorem trackedAfter_run (cfg : BatchConfig) (events : List BatchEvent) :
    (trackedAfter runId describe designModel cfg events).1 = BatchRun.after cfg events := by
  have hrun : ∀ (events : List BatchEvent) (s : BatchRun × List VoiceDesign),
      (Machine.run (stepTracked runId describe designModel cfg) s events).1 =
        Machine.run (BatchRun.step cfg) s.1 events := by
    intro events
    induction events with
    | nil => exact fun _ => rfl
    | cons e events ih => exact fun s => ih _
  exact hrun events _

end Calls

/-- What tells two designs of a run apart. -/
def VoiceDesign.slot (call : VoiceDesign) : String × Int := (call.creatorId, call.rerollCount)

/-- The designs since the roster was built have different slots, none above the count of
its creator. -/
structure DesignsCounted (done : List VoiceDesign) (roster : List Dict) : Prop where
  nodup : (done.map VoiceDesign.slot).Nodup
  counted : ∀ call ∈ done, ∀ creator ∈ roster, voiceCreatorId creator = call.creatorId →
    call.rerollCount ≤ rerollCount creator

/-- What holds of the run and of its designs. -/
structure DesignsTracked (cfg : BatchConfig) (s : BatchRun × List VoiceDesign) : Prop where
  planned : Planned cfg s.1
  designs : DesignsCounted s.2 s.1.state.roster
  anew : s.1.node = .voiceCandidates → requestedVoices s.1.state = none → s.2 = []

section Slots
variable {runId : KeyId} {describe : Dict → String} {designModel : String}
  {cfg : BatchConfig} {st : BatchState} {done : List VoiceDesign}

theorem slots_designsOf_nodup (hids : (st.roster.map voiceCreatorId).Nodup) :
    ((designsOf runId describe designModel st).map VoiceDesign.slot).Nodup := by
  have hfirst : ∀ roster : List Dict, (roster.map voiceCreatorId).Nodup → ∀ count : Dict → Int,
      ((roster.map fun creator => designCallFor runId describe designModel creator
        (count creator)).map VoiceDesign.slot).Nodup := by
    intro roster hroster count
    refine List.Nodup.of_map Prod.fst ?_
    rw [List.map_map, List.map_map]
    exact hroster
  unfold designsOf
  split
  · exact hfirst _ hids _
  · exact hfirst _ (hids.sublist (List.filter_sublist.map _)) _

/-- The slots that the voice node is about to use are free. -/
theorem slots_free (hdesigns : DesignsCounted done st.roster)
    (hanew : requestedVoices st = none → done = []) :
    ∀ call ∈ designsOf runId describe designModel st, call.slot ∉ done.map VoiceDesign.slot := by
  intro call hcall hused
  obtain ⟨before, hbefore, hslot⟩ := List.mem_map.mp hused
  unfold designsOf at hcall
  split at hcall
  · rename_i hnone
    rw [hanew hnone] at hbefore
    cases hbefore
  · obtain ⟨creator, hcreator, rfl⟩ := List.mem_map.mp hcall
    obtain ⟨hid, hcount⟩ := Prod.mk.inj hslot
    have hle := hdesigns.counted before hbefore creator (List.mem_filter.mp hcreator).1 hid.symm
    have hcount' : before.rerollCount = rerollCount creator + 1 := hcount
    omega

theorem voiceCreatorIds_nodup (hcast : Cast cfg st.roster) :
    (st.roster.map voiceCreatorId).Nodup := by
  have hsame : st.roster.map voiceCreatorId = st.roster.map idText :=
    List.map_congr_left fun creator hcreator => voiceCreatorId_eq (hcast.idText_ne hcreator)
  rw [hsame]
  exact hcast.nodup

/-- The counts of the creators only grow. -/
theorem DesignsCounted.congr {roster others : List Dict} (h : DesignsCounted done roster)
    (hothers : List.Forall₂ (fun creator out => voiceCreatorId out = voiceCreatorId creator ∧
      rerollCount creator ≤ rerollCount out) roster others) : DesignsCounted done others := by
  refine ⟨h.nodup, fun call hcall out hout hid => ?_⟩
  obtain ⟨creator, hcreator, hsame, hle⟩ := exists_left hothers hout
  exact (h.counted call hcall creator hcreator (hsame.symm.trans hid)).trans hle

theorem voiceTurn_counts {design : Dict → Int → Option StoredDesign}
    {requested : Option (List String)} {creator : Dict} {out : Dict × Rat}
    (h : voiceTurn cfg design requested creator = .ok out) :
    voiceCreatorId out.1 = voiceCreatorId creator ∧ rerollCount creator ≤ rerollCount out.1 := by
  refine ⟨congrArg (textOr · "creator") (voiceTurn_id h), ?_⟩
  cases requested with
  | none =>
      obtain ⟨d, rfl⟩ := voiceTurn_none h
      rw [offerVoices_rerollCount]
  | some ids =>
      rcases voiceTurn_some h with ⟨-, rfl⟩ | ⟨-, -, d, rfl⟩
      · exact le_rfl
      · rw [offerVoices_rerollCount, archiveVoice_rerollCount]
        omega

/-- The count of a creator after its turn is the one its voices were designed at. -/
theorem voiceTurn_designed_at {design : Dict → Int → Option StoredDesign}
    (hids : (st.roster.map voiceCreatorId).Nodup) {creator : Dict} {out : Dict × Rat}
    (hcreator : creator ∈ st.roster)
    (h : voiceTurn cfg design (requestedVoices st) creator = .ok out) {call : VoiceDesign}
    (hcall : call ∈ designsOf runId describe designModel st)
    (hid : voiceCreatorId creator = call.creatorId) : call.rerollCount ≤ rerollCount out.1 := by
  unfold designsOf at hcall
  split at hcall
  · rename_i hnone
    obtain ⟨other, hother, rfl⟩ := List.mem_map.mp hcall
    obtain rfl := List.inj_on_of_nodup_map hids hcreator hother hid
    rw [hnone] at h
    obtain ⟨d, rfl⟩ := voiceTurn_none h
    rw [offerVoices_rerollCount]
    exact le_rfl
  · rename_i ids hsome
    obtain ⟨other, hother, rfl⟩ := List.mem_map.mp hcall
    obtain ⟨hmem, hasked⟩ := List.mem_filter.mp hother
    obtain rfl := List.inj_on_of_nodup_map hids hcreator hmem hid
    rw [hsome] at h
    rcases voiceTurn_some h with ⟨hspared, -⟩ | ⟨-, -, d, rfl⟩
    · exact absurd (of_decide_eq_true hasked) hspared
    · rw [offerVoices_rerollCount, archiveVoice_rerollCount]
      exact le_rfl

theorem DesignsCounted.design {st' : BatchState} {design : Dict → Int → Option StoredDesign}
    (hids : (st.roster.map voiceCreatorId).Nodup) (h : DesignsCounted done st.roster)
    (hanew : requestedVoices st = none → done = [])
    (hdesign : nodeVoiceCandidates cfg design st = .ok st') :
    DesignsCounted (done ++ designsOf runId describe designModel st) st'.roster := by
  obtain ⟨-, designed, hdesigned, rfl⟩ := nodeVoiceCandidates_ok hdesign
  have hbefore := h.congr (List.forall₂_map_right_iff.mpr
    (hdesigned.imp fun _ _ hturn => voiceTurn_counts hturn))
  constructor
  · rw [List.map_append, List.nodup_append']
    refine ⟨h.nodup, slots_designsOf_nodup hids, fun slot hdone hnew => ?_⟩
    obtain ⟨call, hcall, rfl⟩ := List.mem_map.mp hnew
    exact slots_free h hanew call hcall hdone
  · intro call hcall out hout hid
    rcases List.mem_append.mp hcall with hdone | hnew
    · exact hbefore.counted call hdone out hout hid
    · obtain ⟨turn, hturn, rfl⟩ := List.mem_map.mp hout
      obtain ⟨creator, ⟨hcreator, hvoices⟩⟩ := exists_left (forall₂_mem hdesigned) hturn
      exact voiceTurn_designed_at hids hvoices.1 hvoices.2 hnew
        ((voiceTurn_counts hvoices.2).1.symm.trans hid)

end Slots

section Run
variable {runId : KeyId} {describe : Dict → String} {designModel : String}
  {cfg : BatchConfig} {e : BatchEvent} {r r' : BatchRun} {done : List VoiceDesign}

/-- Voices are only designed by request after a review. -/
theorem requested_of_route {st : BatchState} (h : routeAfterReview st = .voiceCandidates) :
    requestedVoices st ≠ none := by
  unfold routeAfterReview at h
  split at h
  · cases h
  · cases hrequest : st.revisionRequest with
    | none => simp [hrequest] at h
    | some request =>
        rw [hrequest] at h
        have htarget : request.target = "voices" := by
          dsimp only [Option.map_some] at h
          split at h <;> simp_all
        simp [requestedVoices, hrequest, htarget]

/-- A node that keeps the creators, or makes the record of their voices longer. -/
theorem DesignsTracked.keep (h : DesignsTracked cfg (r, done)) (hplanned : Planned cfg r')
    (hroster : List.Forall₂ (fun creator out => voiceCreatorId out = voiceCreatorId creator ∧
      rerollCount creator ≤ rerollCount out) r.state.roster r'.state.roster)
    (hanew : r'.node = .voiceCandidates → requestedVoices r'.state ≠ none)
    (hnode : r.node ≠ .roster) (hvoices : r.node ≠ .voiceCandidates) :
    DesignsTracked cfg (r', trackDesigns runId describe designModel r r' done) := by
  have hdone : trackDesigns runId describe designModel r r' done = done := by
    rw [trackDesigns, if_neg hnode, if_neg hvoices, ite_self]
  rw [hdone]
  exact ⟨hplanned, h.designs.congr hroster, fun hdesign hnone => absurd hnone (hanew hdesign)⟩

theorem DesignsTracked.advance (h : DesignsTracked cfg (r, done)) (hadvance : Advance cfg e r r') :
    DesignsTracked cfg (r', trackDesigns runId describe designModel r r' done) := by
  have hplanned := h.planned.advance hadvance
  have hsame : ∀ roster : List Dict, List.Forall₂ (fun creator out =>
      voiceCreatorId out = voiceCreatorId creator ∧ rerollCount creator ≤ rerollCount out)
        roster roster := fun _ => List.forall₂_same.mpr fun _ _ => ⟨rfl, le_rfl⟩
  cases hadvance with
  | concepts concepts st => exact h.keep hplanned (hsame _) (by simp) (by simp) (by simp)
  | scripts write st => exact h.keep hplanned (hsame _) (by simp) (by simp) (by simp)
  | creatorProfiles hprofiles =>
      obtain ⟨-, assignments, rfl⟩ := nodeCreatorProfiles_ok hprofiles
      exact h.keep hplanned (hsame _) (by simp) (by simp) (by simp)
  | roster hroster =>
      have hdone : ∀ st st', trackDesigns runId describe designModel ⟨.roster, st⟩
          ⟨.voiceCandidates, st'⟩ done = [] := fun _ _ => rfl
      rw [hdone]
      exact ⟨hplanned, ⟨List.nodup_nil, fun _ hcall => absurd hcall List.not_mem_nil⟩,
        fun _ _ => rfl⟩
  | voiceCandidates hdesign =>
      have hids := voiceCreatorIds_nodup (Casting.cast h.planned)
      exact ⟨hplanned, h.designs.design hids (h.anew rfl) hdesign, fun hnode => by cases hnode⟩
  | review hdecided =>
      refine h.keep hplanned ((nodeReview_ok hdecided).roster.rerollCounts.imp ?_)
        requested_of_route (by simp) (by simp)
      exact fun _ _ hkept => ⟨congrArg (textOr · "creator") hkept.1, hkept.2.ge⟩
  | finalizeVoices hfinalize =>
      obtain ⟨roster, hroster, rfl⟩ := nodeFinalizeVoices_ok hfinalize
      refine h.keep hplanned (hroster.imp fun _ _ hturn => ?_) ?_ (by simp) (by simp)
      · have hfrom := finalizeTurn_finalizedFrom hturn
        exact ⟨congrArg (textOr · "creator") (hfrom "id" (by decide)),
          (congrArg intOf (hfrom "voice_reroll_count" (by decide))).ge⟩
      · unfold fanOut
        split <;> simp
  | processItem item pending st =>
      refine h.keep hplanned (hsame _) ?_ (by simp) (by simp)
      by_cases hlast : pending = 0 <;> simp [hlast]
  | feedback st => exact h.keep hplanned (hsame _) (by simp) (by simp) (by simp)

theorem DesignsTracked.step (s : BatchRun × List VoiceDesign) (e : BatchEvent)
    (h : DesignsTracked cfg s) :
    DesignsTracked cfg (stepTracked runId describe designModel cfg e s).2 := by
  obtain ⟨r, done⟩ := s
  rcases BatchRun.step_cases cfg e r with hstays | hadvance
  · have hdone : trackDesigns runId describe designModel r (BatchRun.step cfg e r).2 done = done :=
      if_pos (congrArg BatchRun.node hstays)
    refine ⟨Planned.step e r h.planned, ?_, fun hnode hnone => hdone.trans (h.anew ?_ ?_)⟩
    · change DesignsCounted (trackDesigns _ _ _ r (BatchRun.step cfg e r).2 done)
        (BatchRun.step cfg e r).2.state.roster
      rw [hdone, hstays]
      exact h.designs
    · exact (congrArg BatchRun.node hstays).symm.trans hnode
    · exact (congrArg (fun r => requestedVoices r.state) hstays).symm.trans hnone
  · exact h.advance hadvance

theorem designsTracked_after (cfg : BatchConfig) (events : List BatchEvent) :
    DesignsTracked cfg (trackedAfter runId describe designModel cfg events) := by
  have hstart : DesignsTracked cfg ({}, []) :=
    ⟨planned_after cfg [], ⟨List.nodup_nil, fun _ hcall => absurd hcall List.not_mem_nil⟩,
      fun _ _ => rfl⟩
  exact Machine.run_invariant _ DesignsTracked.step hstart events

end Run

/-- In every run the designs since the roster was built were paid for under different
effect keys, and those that the voice node is about to make have keys of their own. -/
theorem voice_designs_fresh (sha : Sha256) (runId : KeyId) (describe : Dict → String)
    (designModel : String) (cfg : BatchConfig) (events : List BatchEvent) :
    ((trackedAfter runId describe designModel cfg events).2.map fun call =>
      sha.effectKey (.voiceDesign call)).Nodup ∧
    ((BatchRun.after cfg events).node = .voiceCandidates →
      ((designsOf runId describe designModel (BatchRun.after cfg events).state).map fun call =>
        sha.effectKey (.voiceDesign call)).Nodup ∧
      ∀ call ∈ designsOf runId describe designModel (BatchRun.after cfg events).state,
        ∀ before ∈ (trackedAfter runId describe designModel cfg events).2,
          sha.effectKey (.voiceDesign call) ≠ sha.effectKey (.voiceDesign before)) := by
  have htracked : DesignsTracked cfg (trackedAfter runId describe designModel cfg events) :=
    designsTracked_after cfg events
  rw [← trackedAfter_run runId describe designModel cfg events]
  -- a key tells the creator and the count
  have hslot : ∀ a b : VoiceDesign,
      sha.effectKey (.voiceDesign a) = sha.effectKey (.voiceDesign b) → a.slot = b.slot := by
    intro a b hkey
    obtain ⟨-, hcreator, -, hcount⟩ := voiceDesign_key sha hkey
    exact Prod.ext hcreator hcount
  have hkeys : ∀ calls : List VoiceDesign, (calls.map VoiceDesign.slot).Nodup →
      (calls.map fun call => sha.effectKey (.voiceDesign call)).Nodup := by
    intro calls hcalls
    exact List.pairwise_map.mpr
      ((List.pairwise_map.mp hcalls).imp fun hne hkey => hne (hslot _ _ hkey))
  refine ⟨hkeys _ htracked.designs.nodup, fun hnode => ⟨hkeys _ (slots_designsOf_nodup ?_), ?_⟩⟩
  · have hplanned := htracked.planned
    unfold Planned at hplanned
    rw [hnode] at hplanned
    exact voiceCreatorIds_nodup (Casting.cast hplanned)
  · intro call hcall before hbefore hkey
    exact slots_free htracked.designs (htracked.anew hnode) call hcall
      (List.mem_map.mpr ⟨before, hbefore, (hslot _ _ hkey).symm⟩)

end Orchestrator
