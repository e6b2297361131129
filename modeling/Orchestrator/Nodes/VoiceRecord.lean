import Orchestrator.Nodes.BatchStages

/-!
The voice designs a creator carries.

A record lists the designs a creator had, each with the count of re-rolls it was made
at, and the one whose candidates are on the table. Every operation on a creator is
described by what it does to the record.
-/

namespace Orchestrator
open Json

structure VoiceRecord where
  past : List (StoredDesign × Int) := []
  current : Option StoredDesign := none

/-- The candidates on the table, as the creator shows them. -/
def VoiceRecord.offered (v : VoiceRecord) : List Json :=
  match v.current with
  | some d => d.candidates.map fun c => .obj c.modelDump
  | none => []

/-- The fields of a creator that its record accounts for. -/
structure VoiceRecord.Describes (v : VoiceRecord) (creator : Dict) : Prop where
  candidates : itemsOf (field? creator "voice_candidates") = v.offered
  batch : field? creator "voice_design_batch" =
    v.current.map fun d => .obj (d.batch (rerollCount creator))
  history : itemsOf (field? creator "voice_design_history") =
    v.past.map fun p => .obj (p.1.batch p.2)

/-- The designs in the order they were made, for a creator with so many re-rolls. -/
def VoiceRecord.designs (v : VoiceRecord) (rerolls : Int) : List (StoredDesign × Int) :=
  v.past ++ v.current.toList.map fun d => (d, rerolls)

/-- The record after the candidates were put aside. -/
def VoiceRecord.archived (v : VoiceRecord) (rerolls : Int) : VoiceRecord :=
  { past := v.designs rerolls, current := none }

/-- The counts of the designs increase up to the creator's own. -/
structure VoiceRecord.Counted (v : VoiceRecord) (rerolls : Int) : Prop where
  increasing : ((v.designs rerolls).map Prod.snd).Pairwise (· < ·)
  bounded : ∀ p ∈ v.past, p.2 ≤ rerolls

section Fields

theorem merge_editable_of_notMem {known : List String} (creator update : Dict) {name : String}
    (h : name ∉ known) : field? (merge creator (editable known update)) name =
      field? creator name := by
  refine field?_merge_of_notMem _ _ fun f hf heq => h ?_
  subst heq
  simpa [editable] using (List.mem_filter.mp hf).2

theorem field?_id_discardCandidates (history : List Json) (creator : Dict) :
    field? (discardCandidates history creator) "id" = field? creator "id" := by
  simp [discardCandidates]

variable {creator update reviewed : Dict}

/-- The two ways an update is taken. -/
theorem reviewedCreator_ok (h : reviewedCreator creator update = .ok reviewed) :
    (briefChanged creator update = true ∧
      reviewed = discardCandidates (designHistory creator)
        (merge creator (editable editableCreatorFields update))) ∨
    (briefChanged creator update = false ∧
      reviewed = merge creator (editable editableCreatorFields update)) := by
  unfold reviewedCreator at h
  dsimp only at h
  split at h
  · rename_i hbrief
    cases h
    exact Or.inl ⟨hbrief, rfl⟩
  · rename_i hbrief
    split at h
    · cases h
    · cases h
      exact Or.inr ⟨Bool.eq_false_iff.mpr hbrief, rfl⟩

theorem reviewedCreator_id (h : reviewedCreator creator update = .ok reviewed) :
    field? reviewed "id" = field? creator "id" := by
  rcases reviewedCreator_ok h with ⟨-, rfl⟩ | ⟨-, rfl⟩
  · rw [field?_id_discardCandidates, merge_editable_of_notMem _ _ (by decide)]
  · exact merge_editable_of_notMem _ _ (by decide)

theorem reviewedCreator_rerollCount (h : reviewedCreator creator update = .ok reviewed) :
    rerollCount reviewed = rerollCount creator := by
  unfold rerollCount
  rcases reviewedCreator_ok h with ⟨-, rfl⟩ | ⟨-, rfl⟩
  · rw [discardCandidates]
    simp [merge_editable_of_notMem creator update
      (show "voice_reroll_count" ∉ editableCreatorFields by decide)]
  · rw [merge_editable_of_notMem _ _ (by decide)]

theorem selectCandidate_frame (cfg : BatchConfig) (d : StoredDesign) (creator : Dict)
    {name : String} (h : "selected_voice_candidate_id" ≠ name) :
    field? (selectCandidate cfg d creator) name = field? creator name := by
  unfold selectCandidate
  split
  · exact field?_setField_of_ne _ _ h
  · split
    · split
      · exact field?_setField_of_ne _ _ h
      · rfl
    · rfl

/-- The offer with its last field written out. -/
theorem offerVoices_eq (cfg : BatchConfig) (d : StoredDesign) (rerolls : Int) (creator : Dict) :
    ∃ uri : Json, offerVoices cfg d rerolls creator =
      setField (selectCandidate cfg d (setField (setField (setField creator "voice_spec"
        (.obj d.spec)) "voice_candidates" (.arr (d.candidates.map fun c => .obj c.modelDump)))
        "voice_design_batch" (.obj (d.batch rerolls)))) "voice_preview_uri" uri := by
  obtain ⟨first, rest, hcandidates⟩ := List.exists_cons_of_ne_nil d.candidates_ne
  refine ⟨.str first.previewUri, ?_⟩
  rw [offerVoices, hcandidates]

theorem offerVoices_frame (cfg : BatchConfig) (d : StoredDesign) (rerolls : Int)
    (creator : Dict) {name : String} (hspec : "voice_spec" ≠ name)
    (hcandidates : "voice_candidates" ≠ name) (hbatch : "voice_design_batch" ≠ name)
    (hselected : "selected_voice_candidate_id" ≠ name) (hpreview : "voice_preview_uri" ≠ name) :
    field? (offerVoices cfg d rerolls creator) name = field? creator name := by
  obtain ⟨uri, heq⟩ := offerVoices_eq cfg d rerolls creator
  rw [heq, field?_setField_of_ne _ _ hpreview, selectCandidate_frame _ _ _ hselected,
    field?_setField_of_ne _ _ hbatch, field?_setField_of_ne _ _ hcandidates,
    field?_setField_of_ne _ _ hspec]

@[simp] theorem offerVoices_candidates (cfg : BatchConfig) (d : StoredDesign) (rerolls : Int)
    (creator : Dict) : field? (offerVoices cfg d rerolls creator) "voice_candidates" =
      some (.arr (d.candidates.map fun c => .obj c.modelDump)) := by
  obtain ⟨uri, heq⟩ := offerVoices_eq cfg d rerolls creator
  rw [heq, field?_setField_of_ne _ _ (by decide), selectCandidate_frame _ _ _ (by decide),
    field?_setField_of_ne _ _ (by decide), field?_setField_self]

@[simp] theorem offerVoices_batch (cfg : BatchConfig) (d : StoredDesign) (rerolls : Int)
    (creator : Dict) : field? (offerVoices cfg d rerolls creator) "voice_design_batch" =
      some (.obj (d.batch rerolls)) := by
  obtain ⟨uri, heq⟩ := offerVoices_eq cfg d rerolls creator
  rw [heq, field?_setField_of_ne _ _ (by decide), selectCandidate_frame _ _ _ (by decide),
    field?_setField_self]

@[simp] theorem offerVoices_id (cfg : BatchConfig) (d : StoredDesign) (rerolls : Int)
    (creator : Dict) :
    field? (offerVoices cfg d rerolls creator) "id" = field? creator "id" :=
  offerVoices_frame cfg d rerolls creator (by decide) (by decide) (by decide) (by decide)
    (by decide)

@[simp] theorem offerVoices_history (cfg : BatchConfig) (d : StoredDesign) (rerolls : Int)
    (creator : Dict) : field? (offerVoices cfg d rerolls creator) "voice_design_history" =
      field? creator "voice_design_history" :=
  offerVoices_frame cfg d rerolls creator (by decide) (by decide) (by decide) (by decide)
    (by decide)

@[simp] theorem offerVoices_rerollCount (cfg : BatchConfig) (d : StoredDesign) (rerolls : Int)
    (creator : Dict) : rerollCount (offerVoices cfg d rerolls creator) = rerollCount creator :=
  congrArg intOf (offerVoices_frame cfg d rerolls creator (by decide) (by decide) (by decide)
    (by decide) (by decide))

/-- With a review every design leaves the choice open. -/
theorem offerVoices_selectedId {cfg : BatchConfig} (hreview : cfg.reviewPlan = true)
    (d : StoredDesign) (rerolls : Int) (creator : Dict) :
    selectedId (offerVoices cfg d rerolls creator) = "" := by
  obtain ⟨uri, heq⟩ := offerVoices_eq cfg d rerolls creator
  unfold selectedId
  rw [heq, field?_setField_of_ne _ _ (by decide), selectCandidate, if_pos hreview,
    field?_setField_self]
  rfl

@[simp] theorem archiveVoice_id (rerolls : Int) (creator : Dict) :
    field? (archiveVoice rerolls creator) "id" = field? creator "id" := by
  simp [archiveVoice]

@[simp] theorem archiveVoice_rerollCount (rerolls : Int) (creator : Dict) :
    rerollCount (archiveVoice rerolls creator) = rerolls := by
  simp [archiveVoice, rerollCount]

@[simp] theorem archiveVoice_history (rerolls : Int) (creator : Dict) :
    field? (archiveVoice rerolls creator) "voice_design_history" =
      some (.arr (designHistory creator)) := by
  simp [archiveVoice]

end Fields

namespace VoiceRecord.Describes
variable {v : VoiceRecord} {creator : Dict}

theorem designHistory_eq (h : v.Describes creator) :
    designHistory creator =
      (v.designs (rerollCount creator)).map fun p => .obj (p.1.batch p.2) := by
  unfold designHistory
  rw [h.candidates, h.history, h.batch]
  cases hcurrent : v.current with
  | none => simp [offered, designs, hcurrent]
  | some d => simp [offered, designs, hcurrent, d.candidates_ne]

/-- A changed brief puts the candidates aside. -/
theorem discard (h : v.Describes creator) (merged : Dict) :
    (v.archived (rerollCount creator)).Describes
      (discardCandidates (Orchestrator.designHistory creator) merged) where
  candidates := by simp [discardCandidates, offered, archived]
  batch := by simp [discardCandidates, archived]
  history := by simpa [discardCandidates, archived] using h.designHistory_eq

/-- Fields that belong to no design may change. -/
theorem congr {other : Dict} (h : v.Describes creator)
    (hcandidates : field? other "voice_candidates" = field? creator "voice_candidates")
    (hbatch : field? other "voice_design_batch" = field? creator "voice_design_batch")
    (hhistory : field? other "voice_design_history" = field? creator "voice_design_history")
    (hrerolls : rerollCount other = rerollCount creator) : v.Describes other where
  candidates := by rw [hcandidates, h.candidates]
  batch := by rw [hbatch, hrerolls, h.batch]
  history := by rw [hhistory, h.history]

theorem review (h : v.Describes creator) {update reviewed : Dict}
    (hreviewed : reviewedCreator creator update = .ok reviewed) :
    (if briefChanged creator update then v.archived (rerollCount creator) else v).Describes
      reviewed := by
  have hmerged : ∀ name ∉ editableCreatorFields,
      field? (merge creator (editable editableCreatorFields update)) name = field? creator name :=
    fun name hname => merge_editable_of_notMem creator update hname
  rcases reviewedCreator_ok hreviewed with ⟨hbrief, rfl⟩ | ⟨hbrief, rfl⟩
  · rw [if_pos hbrief]
    exact h.discard _
  · rw [if_neg (by simp [hbrief])]
    exact h.congr (hmerged _ (by decide)) (hmerged _ (by decide)) (hmerged _ (by decide))
      (congrArg intOf (hmerged _ (by decide)))

/-- The first voices of a creator. -/
theorem first {undesigned : Dict} (h : Undesigned undesigned) (cfg : BatchConfig)
    (d : StoredDesign) :
    VoiceRecord.Describes { current := some d }
      (offerVoices cfg d (rerollCount undesigned) undesigned) where
  candidates := by simp [offered]
  batch := by simp
  history := by simp [h.history]

/-- A re-roll keeps what was on the table as the last entry of the history. -/
theorem reroll (h : v.Describes creator) (cfg : BatchConfig) (d : StoredDesign) (rerolls : Int) :
    VoiceRecord.Describes { past := v.designs (rerollCount creator), current := some d }
      (offerVoices cfg d rerolls (archiveVoice rerolls creator)) where
  candidates := by simp [offered]
  batch := by simp
  history := by simpa using h.designHistory_eq

end VoiceRecord.Describes

namespace VoiceRecord.Counted
variable {v : VoiceRecord} {rerolls : Int}

theorem le_of_mem_designs (h : v.Counted rerolls) {p : StoredDesign × Int}
    (hp : p ∈ v.designs rerolls) : p.2 ≤ rerolls := by
  rcases List.mem_append.mp hp with hpast | hcurrent
  · exact h.bounded p hpast
  · obtain ⟨d, -, rfl⟩ := List.mem_map.mp hcurrent
    exact le_refl rerolls

theorem first (d : StoredDesign) (rerolls : Int) :
    VoiceRecord.Counted { current := some d } rerolls where
  increasing := List.pairwise_singleton _ _
  bounded := fun _ hp => absurd hp List.not_mem_nil

theorem archived (h : v.Counted rerolls) : (v.archived rerolls).Counted rerolls where
  increasing := by simpa [VoiceRecord.archived, designs] using h.increasing
  bounded := fun _ hp => h.le_of_mem_designs hp

/-- A re-roll is counted above every design before it. -/
theorem reroll (h : v.Counted rerolls) (d : StoredDesign) :
    VoiceRecord.Counted { past := v.designs rerolls, current := some d } (rerolls + 1) where
  increasing := by
    have hdesigns : VoiceRecord.designs { past := v.designs rerolls, current := some d }
        (rerolls + 1) = v.designs rerolls ++ [(d, rerolls + 1)] := rfl
    rw [hdesigns, List.map_append]
    refine List.pairwise_append.mpr ⟨h.increasing, List.pairwise_singleton _ _, ?_⟩
    intro m hm n hn
    obtain ⟨p, hp, rfl⟩ := List.mem_map.mp hm
    obtain rfl := List.mem_singleton.mp hn
    have hle := h.le_of_mem_designs hp
    change p.2 < rerolls + 1
    omega
  bounded := fun p hp => (h.le_of_mem_designs hp).trans (by omega)

end VoiceRecord.Counted

/-- The creator carries a record of its designs, counted. -/
def Voiced (creator : Dict) : Prop :=
  ∃ v : VoiceRecord, v.Describes creator ∧ v.Counted (rerollCount creator)

namespace Voiced
variable {creator : Dict}

theorem review (h : Voiced creator) {update reviewed : Dict}
    (hreviewed : reviewedCreator creator update = .ok reviewed) : Voiced reviewed := by
  obtain ⟨v, hdescribes, hcounted⟩ := h
  refine ⟨_, hdescribes.review hreviewed, ?_⟩
  rw [reviewedCreator_rerollCount hreviewed]
  split
  · exact hcounted.archived
  · exact hcounted

theorem first (h : Undesigned creator) (cfg : BatchConfig) (d : StoredDesign) :
    Voiced (offerVoices cfg d (rerollCount creator) creator) :=
  ⟨_, VoiceRecord.Describes.first h cfg d, VoiceRecord.Counted.first d _⟩

theorem reroll (h : Voiced creator) (cfg : BatchConfig) (d : StoredDesign) :
    Voiced (offerVoices cfg d (rerollCount creator + 1)
      (archiveVoice (rerollCount creator + 1) creator)) := by
  obtain ⟨v, hdescribes, hcounted⟩ := h
  refine ⟨_, hdescribes.reroll cfg d _, ?_⟩
  rw [offerVoices_rerollCount, archiveVoice_rerollCount]
  exact hcounted.reroll d

theorem finalizedFields_notMem (voice : FinalizedVoice) (batch : Dict) (previewUri : Json)
    {name : String} (h : name ∈ ["id", "voice_candidates", "voice_design_batch",
      "voice_design_history", "voice_reroll_count"]) :
    ∀ f ∈ finalizedFields voice batch previewUri, f.1 ≠ name := by
  simp only [List.mem_cons, List.not_mem_nil, or_false] at h
  rcases h with rfl | rfl | rfl | rfl | rfl <;> simp [finalizedFields]

/-- A finalized voice changes no field of the designs. -/
theorem finalizeTurn_frame {finalize : Dict → Option FinalizedVoice} {finalized : Dict}
    (h : finalizeTurn finalize creator = .ok finalized) {name : String}
    (hname : name ∈ ["id", "voice_candidates", "voice_design_batch", "voice_design_history",
      "voice_reroll_count"]) : field? finalized name = field? creator name := by
  unfold finalizeTurn at h
  dsimp only at h
  split at h
  · cases h
    split
    · rfl
    · refine field?_setField_of_ne _ _ ?_
      rintro rfl
      exact absurd hname (by decide)
  · split at h
    · cases h
    · split at h
      · split at h
        · cases h
        · split at h
          · cases h
          · split at h
            · cases h
            · cases h
              exact field?_merge_of_notMem _ _ (finalizedFields_notMem _ _ _ hname)
      · cases h

theorem finalize (h : Voiced creator) {finalize : Dict → Option FinalizedVoice}
    {finalized : Dict} (hfinalized : finalizeTurn finalize creator = .ok finalized) :
    Voiced finalized := by
  obtain ⟨v, hdescribes, hcounted⟩ := h
  have hrerolls : rerollCount finalized = rerollCount creator :=
    congrArg intOf (finalizeTurn_frame hfinalized (by decide))
  refine ⟨v, hdescribes.congr ?_ ?_ ?_ hrerolls, hrerolls ▸ hcounted⟩
  · exact finalizeTurn_frame hfinalized (by decide)
  · exact finalizeTurn_frame hfinalized (by decide)
  · exact finalizeTurn_frame hfinalized (by decide)

end Voiced

section Built

def mediaFields : List String :=
  ["upscaled_base", "image_source_uri", "image_local_path", "voice_id", "voice_ref", "voice",
    "voice_preview_uri", "voice_source_uri"]

theorem persistCreatorMedia_frame (image voice : Option StoredMedia) (creator : Dict)
    {name : String} (h : name ∉ mediaFields) :
    field? (persistCreatorMedia image voice creator) name = field? creator name := by
  have hne : ∀ other ∈ mediaFields, other ≠ name := fun other hother heq => h (heq ▸ hother)
  have himage : ∀ (first second third : Json), field? (setField (setField (setField creator
      "upscaled_base" first) "image_source_uri" second) "image_local_path" third) name =
        field? creator name := by
    intro first second third
    rw [field?_setField_of_ne _ _ (hne _ (by decide)), field?_setField_of_ne _ _
      (hne _ (by decide)), field?_setField_of_ne _ _ (hne _ (by decide))]
  have hvoice : ∀ (out : Dict) (a b c d e : Json), field? (setField (setField (setField (setField
      (setField out "voice_id" a) "voice_ref" b) "voice" c) "voice_preview_uri" d)
        "voice_source_uri" e) name = field? out name := by
    intro out a b c d e
    rw [field?_setField_of_ne _ _ (hne _ (by decide)), field?_setField_of_ne _ _
      (hne _ (by decide)), field?_setField_of_ne _ _ (hne _ (by decide)),
      field?_setField_of_ne _ _ (hne _ (by decide)), field?_setField_of_ne _ _
      (hne _ (by decide))]
  unfold persistCreatorMedia
  dsimp only
  split
  · rw [hvoice]
    split
    · exact himage _ _ _
    · rfl
  · split
    · exact himage _ _ _
    · rfl

theorem setUnlessNull_frame (fields : Dict) (names : List String) (value : Json) {name : String}
    (h : name ∉ names) : field? (setUnlessNull fields names value) name = field? fields name := by
  unfold setUnlessNull
  split
  · rfl
  · clear * - h
    induction names generalizing fields with
    | nil => rfl
    | cons other names ih =>
        obtain ⟨hother, hnames⟩ := not_or.mp (List.mem_cons.not.mp h)
        rw [List.foldl_cons, ih _ hnames, field?_setField_of_ne _ _ (Ne.symm hother)]

theorem rosterCreator_id (profile : CreatorProfile) (built : BuiltCreator) :
    field? (rosterCreator (some profile) built) "id" = some (.str profile.id) := by
  rw [rosterCreator, field?_setField_of_ne _ _ (by decide),
    persistCreatorMedia_frame _ _ _ (by decide), field?_setField_self]

theorem rosterCreator_undesigned (profile : Option CreatorProfile) (built : BuiltCreator) :
    Undesigned (rosterCreator profile built) := by
  have hprofile : ∀ name ∉ ["archetype", "visual_brief", "voice_brief", "performance_style",
      "exclusions", "id"], name ∉ mediaFields → "voice_preview_uri" ≠ name →
      field? (rosterCreator profile built) name = field? built.fields name := by
    intro name hname hmedia hpreview
    unfold rosterCreator
    dsimp only
    rw [field?_setField_of_ne _ _ hpreview, persistCreatorMedia_frame _ _ _ hmedia]
    cases profile with
    | none => rfl
    | some profile =>
        have hid : "id" ≠ name := by
          rintro rfl
          exact hname (by decide)
        dsimp only
        rw [field?_setField_of_ne _ _ hid]
        refine field?_merge_of_notMem _ _ ?_
        rintro f hf rfl
        exact hname (by
          have := List.mem_map_of_mem (f := Prod.fst) hf
          simpa [CreatorProfile.modelDump] using this)
  constructor
  · rw [hprofile _ (by decide) (by decide) (by decide), built.undesigned.history]
  · rw [hprofile _ (by decide) (by decide) (by decide), built.undesigned.batch]

variable {creator seed : Dict}

def seedFields : List String :=
  ["id", "upscaled_base", "image_uri", "image", "image_source_uri", "voice_id", "voice_ref",
    "voice", "voice_preview_uri", "angles"]

theorem normalizeSeedCreator_frame (h : normalizeSeedCreator creator = some seed)
    {name : String} (hname : name ∉ seedFields) : field? seed name = field? creator name := by
  have hne : ∀ other ∈ seedFields, other ≠ name := fun other hother heq => hname (heq ▸ hother)
  have hnotMem : ∀ names : List String, (∀ other ∈ names, other ∈ seedFields) → name ∉ names :=
    fun names hnames hmem => hname (hnames _ hmem)
  unfold normalizeSeedCreator at h
  dsimp only at h
  split at h
  · cases h
  · obtain rfl := Option.some.inj h
    rw [field?_setField_of_ne _ _ (hne _ (by decide)),
      setUnlessNull_frame _ _ _ (hnotMem _ (by decide)),
      setUnlessNull_frame _ _ _ (hnotMem _ (by decide)),
      setUnlessNull_frame _ _ _ (hnotMem _ (by decide)),
      setUnlessNull_frame _ _ _ (hnotMem _ (by decide)),
      field?_setField_of_ne _ _ (hne _ (by decide))]

/-- A reused creator has an id that names it. -/
theorem normalizeSeedCreator_idText (h : normalizeSeedCreator creator = some seed) :
    idText seed ≠ "" := by
  unfold normalizeSeedCreator at h
  dsimp only at h
  split at h
  · cases h
  · rename_i htruthy
    obtain rfl := Option.some.inj h
    have hid : PyStr.str (orFields creator ["id", "creator_id"]) ≠ "" :=
      PyStr.str_ne_empty (by simpa using htruthy)
    rw [idText, field?_setField_of_ne _ _ (by decide), setUnlessNull_frame _ _ _ (by decide),
      setUnlessNull_frame _ _ _ (by decide), setUnlessNull_frame _ _ _ (by decide),
      setUnlessNull_frame _ _ _ (by decide), field?_setField_self, textOr_str, if_neg hid]
    exact hid

theorem normalizeSeedCreator_undesigned (h : normalizeSeedCreator creator = some seed)
    (hcreator : Undesigned creator) : Undesigned seed where
  history := by rw [normalizeSeedCreator_frame h (by decide), hcreator.history]
  batch := by rw [normalizeSeedCreator_frame h (by decide), hcreator.batch]

theorem ensureSeedReferenceImage_frame (dataUri : Option String) (creator : Dict)
    {name : String} (h : "image_source_uri" ≠ name) :
    field? (ensureSeedReferenceImage dataUri creator) name = field? creator name := by
  cases dataUri with
  | none => rfl
  | some uri => exact field?_setField_of_ne _ _ h

end Built

end Orchestrator
