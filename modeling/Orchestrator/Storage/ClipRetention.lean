import Orchestrator.Adapters.IntegrityQC
import Orchestrator.Lib.Outcome
import Orchestrator.Storage.Retention

/-!
The retention of the clips of an item once its fate is known.

The classes are given by the place of a clip in the list; the assembly takes the clips
it needs from the end of the list. The two agree where only one of those clips is a
stored object.
-/

namespace Orchestrator
open Outcome

/-- `(clip.meta or {}).get("storage_key")`, when it is one. -/
def storageKeyOf (clip : Artifact) : Option String :=
  match metaField clip "storage_key" with
  | some (.str key) => some key
  | _ => none

/-- The quality check passed and the item was not dropped. -/
def Item.approved (item : Item) : Bool := !item.dropped && item.qc.any (·.passed)

/-- The clips to classify, each with its class. -/
def retentionTargets (item : Item) : List (Artifact × String) :=
  if item.dropped then item.clips.map fun clip => (clip, "rejected")
  else if item.qc.any (·.passed) then
    match item.clips.getLast? with
    | some final => item.clips.dropLast.map (fun clip => (clip, "intermediate")) ++
        [(final, "keep")]
    | none => []
  else []

section Classify
variable {digest : String → String}

def setClipRetention (now : Timestamp) (db : ArtifactDB digest) (target : Artifact × String) :
    Except String (ArtifactDB digest) :=
  match storageKeyOf target.1 with
  | some key => db.setRetention key target.2 now
  | none => .ok db

def classifyItemRetention (item : Item) (now : Timestamp) (db : ArtifactDB digest) :
    Except String (ArtifactDB digest) :=
  (retentionTargets item).foldlM (setClipRetention now) db

/-- The artifact of the clip, when it is recorded, has the class and its expiry. -/
def HasRetention (db : ArtifactDB digest) (now : Timestamp) (retentionClass : String)
    (clip : Artifact) : Prop :=
  ∀ key ∈ storageKeyOf clip, ∀ row ∈ db.rows, row.storageKey = key →
    row.retentionClass = retentionClass ∧ expiresAtFor retentionClass now = .ok row.expiresAt

/-- The classes agree with what the assembly takes. -/
structure RetentionAgrees (item : Item) (now : Timestamp) (db db' : ArtifactDB digest) :
    Prop where
  assembled : item.approved = true → ∀ clip ∈ latestClips 2 item, HasRetention db' now "keep" clip
  superseded : item.approved = true →
    ∀ clip ∈ supersededClips 2 item, HasRetention db' now "intermediate" clip
  dropped : item.dropped = true → ∀ clip ∈ item.clips, HasRetention db' now "rejected" clip
  inFlight : item.dropped = false → item.approved = false → db'.rows = db.rows

/-- Of the clips the assembly takes, only the last is stored as an object of its own,
and no superseded clip shares that object. -/
def OneStoredClip (item : Item) : Prop :=
  ∀ final ∈ item.clips.getLast?, ∀ key,
    (∀ clip ∈ latestClips 2 item, storageKeyOf clip = some key → storageKeyOf final = some key) ∧
    ∀ clip ∈ supersededClips 2 item, storageKeyOf clip = some key → storageKeyOf final ≠ some key

/-- The row of a clip that was given a class. -/
def marked (now : Timestamp) (row : ArtifactRecord) (target : Artifact × String) :
    ArtifactRecord :=
  match storageKeyOf target.1, expiresAtFor target.2 now with
  | some key, .ok expiresAt => ArtifactDB.reclassify key target.2 expiresAt row
  | _, _ => row

theorem marked_eq {now : Timestamp} {row : ArtifactRecord} {clip : Artifact}
    {retentionClass : String} {expiresAt : Option Timestamp}
    (hexpires : expiresAtFor retentionClass now = .ok expiresAt) :
    marked now row (clip, retentionClass) =
      if storageKeyOf clip = some row.storageKey then { row with retentionClass, expiresAt }
      else row := by
  unfold marked
  cases hkey : storageKeyOf clip with
  | none => simp
  | some key =>
      simp only [hexpires, ArtifactDB.reclassify, Option.some.injEq]
      by_cases h : row.storageKey = key
      · rw [if_pos h, if_pos h.symm]
      · rw [if_neg h, if_neg (Ne.symm h)]

@[simp] theorem marked_storageKey (now : Timestamp) (row : ArtifactRecord)
    (target : Artifact × String) : (marked now row target).storageKey = row.storageKey := by
  unfold marked
  split
  · exact congrArg Prod.snd (ArtifactDB.reclassify_location ..)
  · rfl

theorem foldl_marked_storageKey (now : Timestamp) (row : ArtifactRecord)
    (targets : List (Artifact × String)) :
    (targets.foldl (marked now) row).storageKey = row.storageKey := by
  induction targets generalizing row with
  | nil => rfl
  | cons target targets ih => rw [List.foldl_cons, ih, marked_storageKey]

/-- Clips of one class: the rows of their keys get it, the others stay. -/
theorem foldl_marked_map {now : Timestamp} {retentionClass : String}
    {expiresAt : Option Timestamp} (hexpires : expiresAtFor retentionClass now = .ok expiresAt)
    (clips : List Artifact) (row : ArtifactRecord) :
    (clips.map fun clip => (clip, retentionClass)).foldl (marked now) row =
      if ∃ clip ∈ clips, storageKeyOf clip = some row.storageKey then
        { row with retentionClass, expiresAt }
      else row := by
  induction clips generalizing row with
  | nil => simp
  | cons clip clips ih =>
      rw [List.map_cons, List.foldl_cons, ih, marked_storageKey, marked_eq hexpires]
      by_cases hclip : storageKeyOf clip = some row.storageKey
      · simp [hclip]
      · simp [hclip]

theorem setClipRetention_rows {now : Timestamp} {db db' : ArtifactDB digest}
    {target : Artifact × String} (h : setClipRetention now db target = .ok db') :
    db'.rows = db.rows.map fun row => marked now row target := by
  unfold setClipRetention at h
  split at h
  · rename_i key hkey
    obtain ⟨expiresAt, hexpires, hrows⟩ := ArtifactDB.setRetention_ok h
    rw [hrows]
    refine List.map_congr_left fun row _ => ?_
    simp only [marked, hkey, hexpires]
  · rename_i hkey
    cases h
    have hsame : (fun row => marked now row target) = id := by
      funext row
      simp only [marked, hkey, id]
    rw [hsame, List.map_id]

theorem foldlM_rows {now : Timestamp} {targets : List (Artifact × String)}
    {db db' : ArtifactDB digest} (h : targets.foldlM (setClipRetention now) db = .ok db') :
    db'.rows = db.rows.map fun row => targets.foldl (marked now) row := by
  induction targets generalizing db with
  | nil =>
      cases h
      exact (List.map_id' _).symm
  | cons target targets ih =>
      rw [List.foldlM_cons] at h
      obtain ⟨middle, hmiddle, hrest⟩ := ok_of_bind h
      rw [ih hrest, setClipRetention_rows hmiddle, List.map_map]
      rfl

/-- The classes the item gives are known ones. -/
theorem classifyItemRetention_ok (item : Item) (now : Timestamp) (db : ArtifactDB digest) :
    ∃ db', classifyItemRetention item now db = .ok db' := by
  have hclasses : ∀ target ∈ retentionTargets item,
      target.2 ∈ ["rejected", "intermediate", "keep"] := by
    intro target htarget
    unfold retentionTargets at htarget
    split at htarget
    · obtain ⟨clip, -, rfl⟩ := List.mem_map.mp htarget
      simp
    · split at htarget
      · split at htarget
        · rcases List.mem_append.mp htarget with hmem | hmem
          · obtain ⟨clip, -, rfl⟩ := List.mem_map.mp hmem
            simp
          · obtain rfl := List.mem_singleton.mp hmem
            simp
        · exact absurd htarget List.not_mem_nil
      · exact absurd htarget List.not_mem_nil
  unfold classifyItemRetention
  generalize retentionTargets item = targets at hclasses
  induction targets generalizing db with
  | nil => exact ⟨db, rfl⟩
  | cons target targets ih =>
      obtain ⟨hclass, hrest⟩ := List.forall_mem_cons.mp hclasses
      have hset : ∃ db', setClipRetention now db target = .ok db' := by
        unfold setClipRetention
        split
        · simp only [List.mem_cons, List.not_mem_nil, or_false] at hclass
          rcases hclass with h | h | h <;> exact ⟨_, by rw [h]; rfl⟩
        · exact ⟨db, rfl⟩
      obtain ⟨middle, hmiddle⟩ := hset
      obtain ⟨db', hdb'⟩ := ih middle hrest
      exact ⟨db', by rw [List.foldlM_cons, hmiddle, ok_bind, hdb']⟩

theorem approved_iff {item : Item} :
    item.approved = true ↔ item.dropped = false ∧ item.qc.any (·.passed) = true := by
  simp [Item.approved]

theorem expiresAtFor_classes (now : Timestamp) :
    expiresAtFor "intermediate" now = .ok (some (now + seconds 172800)) ∧
      expiresAtFor "keep" now = .ok none ∧
      expiresAtFor "rejected" now = .ok (some (now + seconds 259200)) := ⟨rfl, rfl, rfl⟩

/-- The row of an approved item's clip: kept with the last clip, else superseded. -/
theorem row_of_approved {item : Item} {now : Timestamp} {db db' : ArtifactDB digest}
    (happroved : item.approved = true) {final : Artifact}
    (hfinal : item.clips.getLast? = some final)
    (h : classifyItemRetention item now db = .ok db') {row : ArtifactRecord}
    (hrow : row ∈ db'.rows) :
    (storageKeyOf final = some row.storageKey →
      row.retentionClass = "keep" ∧ row.expiresAt = none) ∧
    (storageKeyOf final ≠ some row.storageKey →
      ∀ clip ∈ item.clips, storageKeyOf clip = some row.storageKey →
        row.retentionClass = "intermediate" ∧
          expiresAtFor "intermediate" now = .ok row.expiresAt) := by
  obtain ⟨hdropped, hpassed⟩ := approved_iff.mp happroved
  have htargets : retentionTargets item =
      item.clips.dropLast.map (fun clip => (clip, "intermediate")) ++ [(final, "keep")] := by
    simp [retentionTargets, hdropped, hpassed, hfinal]
  obtain ⟨hintermediate, hkeep, -⟩ := expiresAtFor_classes now
  obtain ⟨before, -, rfl⟩ := List.mem_map.mp (foldlM_rows h ▸ hrow)
  rw [foldl_marked_storageKey, htargets, List.foldl_append, List.foldl_cons, List.foldl_nil,
    marked_eq hkeep, foldl_marked_storageKey]
  constructor
  · intro hkey
    rw [if_pos hkey]
    exact ⟨rfl, rfl⟩
  · intro hkey clip hclip hclipKey
    have hearlier : clip ∈ item.clips.dropLast := by
      rw [← List.dropLast_append_getLast? final hfinal] at hclip
      rcases List.mem_append.mp hclip with hmem | hmem
      · exact hmem
      · obtain rfl := List.mem_singleton.mp hmem
        exact absurd hclipKey hkey
    rw [if_neg hkey, foldl_marked_map hintermediate, if_pos ⟨clip, hearlier, hclipKey⟩]
    exact ⟨rfl, hintermediate⟩

theorem retentionAgrees_of_oneStoredClip {item : Item} {now : Timestamp}
    (hone : item.approved = true → OneStoredClip item) {db db' : ArtifactDB digest}
    (h : classifyItemRetention item now db = .ok db') : RetentionAgrees item now db db' where
  assembled := by
    rintro happroved clip hclip key hkey row hrow rfl
    have hmem : clip ∈ item.clips := (mem_clips_iff 2 item clip).mpr (Or.inr hclip)
    obtain ⟨final, hfinal⟩ := Option.isSome_iff_exists.mp
      (List.getLast?_isSome.mpr (List.ne_nil_of_mem hmem))
    have hsame := (hone happroved final hfinal row.storageKey).1 clip hclip hkey
    obtain ⟨hclass, hexpires⟩ := (row_of_approved happroved hfinal h hrow).1 hsame
    exact ⟨hclass, hexpires ▸ (expiresAtFor_classes now).2.1⟩
  superseded := by
    rintro happroved clip hclip key hkey row hrow rfl
    have hmem : clip ∈ item.clips := (mem_clips_iff 2 item clip).mpr (Or.inl hclip)
    obtain ⟨final, hfinal⟩ := Option.isSome_iff_exists.mp
      (List.getLast?_isSome.mpr (List.ne_nil_of_mem hmem))
    have hother := (hone happroved final hfinal row.storageKey).2 clip hclip hkey
    exact (row_of_approved happroved hfinal h hrow).2 hother clip hmem hkey
  dropped := by
    rintro hdropped clip hclip key hkey row hrow rfl
    have htargets : retentionTargets item = item.clips.map fun clip => (clip, "rejected") := by
      simp [retentionTargets, hdropped]
    have hrejected := (expiresAtFor_classes now).2.2
    obtain ⟨before, -, rfl⟩ := List.mem_map.mp (foldlM_rows h ▸ hrow)
    rw [foldl_marked_storageKey] at hkey
    rw [htargets, foldl_marked_map hrejected, if_pos ⟨clip, hclip, hkey⟩]
    exact ⟨rfl, hrejected⟩
  inFlight := by
    intro hdropped hflying
    have hnone : retentionTargets item = [] := by
      have hpassed : item.qc.any (·.passed) = false := by
        simpa [Item.approved, hdropped] using hflying
      simp [retentionTargets, hdropped, hpassed]
    rw [classifyItemRetention, hnone] at h
    cases h
    rfl

/-- What one clip is recorded as. -/
def clipRecord (key : String) : ArtifactRecord :=
  { runId := "run-1", storageBackend := "r2", storageKey := key }

def recordedClip (digest : String → String) (key : String) : ArtifactDB digest where
  rows := [clipRecord key]
  ids := List.nodup_singleton _
  keys := List.nodup_singleton _

theorem oneStoredClip_of_retentionAgrees {item : Item} {now : Timestamp}
    (h : ∀ db db' : ArtifactDB digest, classifyItemRetention item now db = .ok db' →
      RetentionAgrees item now db db') (happroved : item.approved = true) :
    OneStoredClip item := by
  intro final hfinal key
  obtain ⟨db', hdb'⟩ := classifyItemRetention_ok item now (recordedClip digest key)
  have hagrees := h _ _ hdb'
  have hrows := foldlM_rows hdb'
  obtain ⟨row, hrow, rfl⟩ : ∃ row ∈ db'.rows, row.storageKey = key := by
    refine ⟨(retentionTargets item).foldl (marked now) (clipRecord key), ?_,
      foldl_marked_storageKey ..⟩
    rw [hrows]
    exact List.mem_singleton_self _
  have hrow' := row_of_approved happroved hfinal hdb' hrow
  constructor
  · intro clip hclip hclipKey
    by_contra hother
    have hmem : clip ∈ item.clips := (mem_clips_iff 2 item clip).mpr (Or.inr hclip)
    have hintermediate := (hrow'.2 hother clip hmem hclipKey).1
    have hkeep := (hagrees.assembled happroved clip hclip _ hclipKey row hrow rfl).1
    exact absurd (hkeep.symm.trans hintermediate) (by decide)
  · intro clip hclip hclipKey hsame
    have hkeep := (hrow'.1 hsame).1
    have hintermediate :=
      (hagrees.superseded happroved clip hclip _ hclipKey row hrow rfl).1
    exact absurd (hkeep.symm.trans hintermediate) (by decide)

/-- The retention of an item agrees with what its video is assembled from exactly when
an approved item has one stored clip among those. -/
theorem retentionAgrees_iff (item : Item) (now : Timestamp) :
    (∀ db db' : ArtifactDB digest, classifyItemRetention item now db = .ok db' →
      RetentionAgrees item now db db') ↔ (item.approved = true → OneStoredClip item) :=
  ⟨oneStoredClip_of_retentionAgrees, fun hone _ _ h => retentionAgrees_of_oneStoredClip hone h⟩

end Classify

/-- An approved item with the two clips of its only take, each stored. -/
def twoClipItem : Item where
  id := "c0"
  concept := []
  clips := [
    { kind := "clip", uri := "/media/a.mp4", metadata := .obj [("storage_key", .str "a.mp4")] },
    { kind := "clip", uri := "/media/b.mp4", metadata := .obj [("storage_key", .str "b.mp4")] }]
  qc := some { passed := true, score := 1 }

/-- The first clip of an approved video is given two days to live. -/
theorem assembled_clip_expires :
    ¬ ∀ db db' : ArtifactDB id, classifyItemRetention twoClipItem 0 db = .ok db' →
      RetentionAgrees twoClipItem 0 db db' := by
  intro h
  have hone := oneStoredClip_of_retentionAgrees h (by decide)
  have hfirst : twoClipItem.clips.head? = some _ := rfl
  have hsame := (hone _ rfl "a.mp4").1 _ (List.mem_of_mem_head? hfirst) (by decide)
  exact absurd hsame (by decide)

end Orchestrator
