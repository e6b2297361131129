import Orchestrator.Nodes.ScriptReaders

/-!
The ids of the drafts of a run.

A draft takes its id from the run and from the decimals that end the id of its
concept, or from the hash of an id that ends with none. Two concepts share a
draft id exactly where those endings are the same.
-/

namespace Orchestrator
open Outcome

/-- Tables in which no decimal is space. -/
structure DecimalTables extends CaseTables where
  decimal_not_space : ∀ c, isDecimal c = true → PyStr.isSpace c = false

/-- The first eight digits of a SHA-256. -/
structure ShortDigest where
  digest8 : ByteArray → String
  hex : ∀ bytes, (digest8 bytes).length = 8 ∧
    ∀ c ∈ (digest8 bytes).toList, c ∈ "0123456789abcdef".toList

section Suffix
variable (t : DecimalTables) (sha : ShortDigest)

/-- The decimals that end a text, a final newline apart. -/
def trailingDigits (value : String) : List Char :=
  (if value.toList.getLast? = some '\n' then value.toList.dropLast
    else value.toList).rtakeWhile t.isDecimal

/-- Decimals that are the same with a zero before a single one. -/
def SamePadded (digits other : List Char) : Prop :=
  digits = other ∨ (digits.length = 1 ∧ other = '0' :: digits)
    ∨ (other.length = 1 ∧ digits = '0' :: other)

/-- Two concept ids whose endings are the same: both end with the same decimals, or neither ends
with any and their hashes agree, or one ends with the hash of the other. -/
def EndingsClash (v w : String) : Prop :=
  (trailingDigits t v ≠ [] ∧ trailingDigits t w ≠ []
      ∧ SamePadded (trailingDigits t v) (trailingDigits t w))
    ∨ (trailingDigits t v = [] ∧ trailingDigits t w = []
      ∧ sha.digest8 v.toUTF8 = sha.digest8 w.toUTF8)
    ∨ (trailingDigits t w = [] ∧ trailingDigits t v = (sha.digest8 w.toUTF8).toList)
    ∨ (trailingDigits t v = [] ∧ trailingDigits t w = (sha.digest8 v.toUTF8).toList)

end Suffix

section Padding
variable {digits other : List Char}

def padded (digits : List Char) : List Char := List.replicate (2 - digits.length) '0' ++ digits

theorem padded_of_long (h : 2 ≤ digits.length) : padded digits = digits := by
  rw [padded, Nat.sub_eq_zero_of_le h]
  rfl

theorem padded_eq_iff (hdigits : digits ≠ []) (hother : other ≠ []) :
    padded digits = padded other ↔ SamePadded digits other := by
  obtain ⟨d, ds, rfl⟩ := List.exists_cons_of_ne_nil hdigits
  obtain ⟨e, es, rfl⟩ := List.exists_cons_of_ne_nil hother
  cases ds with
  | nil =>
      cases es with
      | nil => simp [padded, SamePadded]
      | cons e' es =>
          rw [@padded_of_long (e :: e' :: es) (by simp)]
          constructor
          · exact fun h => .inr (.inl ⟨rfl, h.symm⟩)
          · rintro (h | ⟨-, h⟩ | ⟨h, -⟩)
            · exact absurd (congrArg List.length h) (by simp)
            · exact h.symm
            · exact absurd h (by simp)
  | cons d' ds =>
      rw [@padded_of_long (d :: d' :: ds) (by simp)]
      cases es with
      | nil => simp [padded, SamePadded]
      | cons e' es =>
          rw [@padded_of_long (e :: e' :: es) (by simp)]
          simp [SamePadded]

theorem padded_eq_iff_of_long (h : 3 ≤ other.length) : padded digits = other ↔ digits = other := by
  by_cases hlong : 2 ≤ digits.length
  · rw [padded_of_long hlong]
  · have hlength : (padded digits).length = 2 := by
      rw [padded, List.length_append, List.length_replicate]
      omega
    refine iff_of_false (fun heq => ?_) (fun heq => ?_)
    · rw [heq] at hlength
      omega
    · rw [heq] at hlong
      omega

end Padding

section Ids
variable {t : DecimalTables} {sha : ShortDigest} {m : StrictModel} {v w runId conceptId : String}

theorem idSuffix_eq (t : DecimalTables) (sha : ShortDigest) (v : String) :
    (idSuffix t.toCaseTables sha.digest8 v).toList
      = if trailingDigits t v = [] then (sha.digest8 v.toUTF8).toList
        else padded (trailingDigits t v) := by
  rw [idSuffix]
  change String.toList (if trailingDigits t v = [] then _ else _) = _
  split
  next => rfl
  next => exact String.toList_ofList

theorem idSuffix_eq_iff :
    idSuffix t.toCaseTables sha.digest8 v = idSuffix t.toCaseTables sha.digest8 w
    ↔ EndingsClash t sha v w := by
  have hlong : ∀ value : String, 3 ≤ (sha.digest8 value.toUTF8).toList.length := fun value => by
    rw [String.length_toList, (sha.hex _).1]
    decide
  rw [← String.toList_inj, idSuffix_eq, idSuffix_eq, EndingsClash]
  have hne : ∀ value : String, (sha.digest8 value.toUTF8).toList ≠ [] := fun value hnil => by
    have hlength := hlong value
    rw [hnil] at hlength
    exact absurd hlength (by decide)
  by_cases hv : trailingDigits t v = []
  · by_cases hw : trailingDigits t w = []
    · rw [if_pos hv, if_pos hw, String.toList_inj, hv, hw]
      constructor
      · exact fun h => .inr (.inl ⟨rfl, rfl, h⟩)
      · rintro (⟨h, -⟩ | ⟨-, -, h⟩ | ⟨-, h⟩ | ⟨-, h⟩)
        · exact absurd rfl h
        · exact h
        · exact absurd h.symm (hne w)
        · exact absurd h.symm (hne v)
    · rw [if_pos hv, if_neg hw, eq_comm, padded_eq_iff_of_long (hlong v)]
      simp [hv, hw]
  · by_cases hw : trailingDigits t w = []
    · rw [if_neg hv, if_pos hw, padded_eq_iff_of_long (hlong w)]
      simp [hv, hw]
    · rw [if_neg hv, if_neg hw, padded_eq_iff hv hw]
      simp [hv, hw]

/-- An ending is not space. -/
theorem idSuffix_ends (t : DecimalTables) (sha : ShortDigest) (v : String) :
    ∃ front last, (idSuffix t.toCaseTables sha.digest8 v).toList = front ++ [last]
      ∧ PyStr.isSpace last = false := by
  rw [idSuffix_eq]
  split
  next =>
      have hne : (sha.digest8 v.toUTF8).toList ≠ [] := fun hnil => by
        have hlength := (sha.hex v.toUTF8).1
        rw [← String.length_toList, hnil] at hlength
        exact absurd hlength (by decide)
      have hhex : ∀ c ∈ "0123456789abcdef".toList, PyStr.isSpace c = false :=
        PyStr.eq_false_of_any (by decide)
      exact ⟨_, _, (List.dropLast_concat_getLast hne).symm,
        hhex _ ((sha.hex v.toUTF8).2 _ (List.getLast_mem hne))⟩
  next hne =>
      refine ⟨List.replicate (2 - (trailingDigits t v).length) '0' ++ (trailingDigits t v).dropLast,
        (trailingDigits t v).getLast hne, ?_, ?_⟩
      · rw [padded, List.append_assoc, List.dropLast_concat_getLast hne]
      · exact t.decimal_not_space _ (List.mem_rtakeWhile_imp (List.getLast_mem hne))

/-- The space that the contracts strip of a draft's id stands before the run's. -/
theorem strip_scriptId (t : DecimalTables) (sha : ShortDigest) (m : StrictModel)
    (runId conceptId : String) :
    (m.strip (scriptId t.toCaseTables sha.digest8 runId conceptId)).toList
      = (runId.toList.dropWhile m.trims ++ "-script-".toList)
        ++ (idSuffix t.toCaseTables sha.digest8 conceptId).toList := by
  obtain ⟨front, last, hsuffix, hlast⟩ := idSuffix_ends t sha conceptId
  have hkept : ∀ c, PyStr.isSpace c = false → m.trims c = false := fun c hc => by
    by_contra htrims
    rw [m.trims_space c (by simpa using htrims)] at hc
    exact absurd hc (by decide)
  have hid : (scriptId t.toCaseTables sha.digest8 runId conceptId).toList
      = runId.toList ++ '-' :: (("script-".toList ++ front) ++ [last]) := by
    rw [scriptId, String.toList_append, String.toList_append, hsuffix, List.append_assoc]
    rfl
  rw [StrictModel.strip, String.toList_ofList, hid,
    PyStr.trim_append_of_kept (hkept '-' (by decide)) (hkept last hlast), hsuffix,
    List.append_assoc, List.append_assoc]
  rfl

/-- Two concepts have one draft id in a run exactly where they clash. -/
theorem scriptId_eq_iff :
    m.strip (scriptId t.toCaseTables sha.digest8 runId v)
        = m.strip (scriptId t.toCaseTables sha.digest8 runId w) ↔ EndingsClash t sha v w := by
  rw [← String.toList_inj, strip_scriptId, strip_scriptId, List.append_cancel_left_eq,
    String.toList_inj, idSuffix_eq_iff]

theorem materializeScript_ids {digest8 : ByteArray → String} {cases : CaseTables}
    {submission : ScriptSubmission m} {draft : ScriptDraft m}
    (h : materializeScript cases digest8 submission runId conceptId = .ok draft) :
    draft.id.text = m.strip (scriptId cases digest8 runId conceptId)
      ∧ draft.conceptId.text = m.strip conceptId := by
  simp only [materializeScript] at h
  split at h
  next id concept hid hconcept =>
      rw [← Except.ok.inj h]
      exact ⟨TextField.text_of_ofInput? hid, TextField.text_of_ofInput? hconcept⟩
  next => exact absurd h (by simp)

section Batch
variable {items : List (ScriptSubmission m × TextField m 1 200)} {drafts : List (ScriptDraft m)}

/-- Each draft has the id of its run and its concept, and its concept's id. -/
theorem draft_ids_eq
    (h : (items.mapM fun item => materializeScript t.toCaseTables sha.digest8 item.1 runId
      item.2.text) = .ok drafts) :
    drafts.map (·.id.text)
        = items.map (fun item => m.strip (scriptId t.toCaseTables sha.digest8 runId item.2.text))
      ∧ drafts.map (·.conceptId.text) = items.map (·.2.text) := by
  have hmade := forall₂_of_mapM h
  exact ⟨map_eq_of_forall₂ (fun _ _ hdraft => (materializeScript_ids hdraft).1) hmade,
    map_eq_of_forall₂ (fun item _ hdraft =>
      (materializeScript_ids hdraft).2.trans item.2.stripped) hmade⟩

/-- The drafts of a list of concepts have distinct ids, and each its concept's, exactly where no
two of the concepts clash. -/
theorem script_ids_distinct_iff
    (h : (items.mapM fun item => materializeScript t.toCaseTables sha.digest8 item.1 runId
      item.2.text) = .ok drafts) :
    ((drafts.map (·.id.text)).Nodup ∧ drafts.map (·.conceptId.text) = items.map (·.2.text)) ↔
      (items.map (·.2.text)).Pairwise fun v w => ¬ EndingsClash t sha v w := by
  obtain ⟨hids, hconcepts⟩ := draft_ids_eq h
  rw [and_iff_left hconcepts, hids, List.Nodup, List.pairwise_map, List.pairwise_map]
  simp only [Ne, scriptId_eq_iff]

end Batch

/-- The decimals of ASCII. -/
def asciiDecimals : DecimalTables where
  toCaseTables := labelTables
  decimal_not_space c hc := by
    have hrange : 48 ≤ c.toNat ∧ c.toNat ≤ 57 := by
      change (decide ('0'.val ≤ c.val) && decide (c.val ≤ '9'.val)) = true at hc
      simpa [UInt32.le_iff_toNat_le] using hc
    simp only [PyStr.isSpace, Bool.or_eq_false_iff, Bool.and_eq_false_iff, decide_eq_false_iff_not,
      beq_eq_false_iff_ne]
    omega

/-- A hash of eight zeros. -/
def zeroDigest : ShortDigest := ⟨fun _ => "00000000", fun _ =>
  ⟨rfl, fun c hc => by
    rw [List.eq_of_mem_replicate (n := 8) (a := '0') hc]
    decide⟩⟩

def sampleConcept (id : String) (h : plainModel.strip id = id ∧ 1 ≤ id.length ∧ id.length ≤ 200) :
    ScriptSubmission plainModel × TextField plainModel 1 200 :=
  (sampleDraft.toScriptSubmission, ⟨id, h.1, h.2⟩)

theorem exists_drafts {items : List (ScriptSubmission plainModel × TextField plainModel 1 200)}
    (h : ∀ item ∈ items, IdsAdmitted labelTables zeroDigest.digest8 plainModel "run" item.2.text) :
    ∃ drafts, (items.mapM fun item => materializeScript asciiDecimals.toCaseTables
      zeroDigest.digest8 item.1 "run" item.2.text) = .ok drafts :=
  mapM_ok_of_forall fun item hitem => exists_materializeScript item.1 (h item hitem)

/-- Two numbered concepts get two ids. -/
theorem script_ids_distinct_of_numbered :
    ∃ drafts, ([sampleConcept "concept-1" (by decide +kernel),
          sampleConcept "concept-2" (by decide +kernel)].mapM fun item =>
        materializeScript asciiDecimals.toCaseTables zeroDigest.digest8 item.1 "run" item.2.text)
        = .ok drafts
      ∧ (drafts.map (·.id.text)).Nodup
      ∧ drafts.map (·.conceptId.text) = ["concept-1", "concept-2"] := by
  obtain ⟨drafts, hdrafts⟩ := @exists_drafts
    [sampleConcept "concept-1" (by decide +kernel), sampleConcept "concept-2" (by decide +kernel)]
    (by
      intro item hitem
      rcases List.mem_cons.mp hitem with rfl | hitem
      · exact ⟨by decide +kernel, by decide +kernel⟩
      · rw [List.mem_singleton.mp hitem]
        exact ⟨by decide +kernel, by decide +kernel⟩)
  refine ⟨drafts, hdrafts, (script_ids_distinct_iff hdrafts).mpr ?_⟩
  refine List.pairwise_pair.mpr ?_
  rintro (⟨-, -, h⟩ | ⟨h, -⟩ | ⟨h, -⟩ | ⟨h, -⟩)
  · rcases h with h | ⟨-, h⟩ | ⟨-, h⟩ <;> exact absurd h (by decide +kernel)
  all_goals exact absurd h (by decide +kernel)

/-- Two concepts of a batch whose hashes end with the same digit after a letter. -/
theorem shared_script_id :
    ¬ ∀ (t : DecimalTables) (sha : ShortDigest) (m : StrictModel) (runId : String)
      (items : List (ScriptSubmission m × TextField m 1 200)) (drafts : List (ScriptDraft m)),
      (items.map (·.2.text)).Nodup →
      (items.mapM fun item => materializeScript t.toCaseTables sha.digest8 item.1 runId
        item.2.text) = .ok drafts →
      (drafts.map (·.id.text)).Nodup ∧ drafts.map (·.conceptId.text) = items.map (·.2.text) := by
  intro h
  let items := [sampleConcept "concept-c4096bc3" (by decide +kernel),
    sampleConcept "concept-91c3d8f3" (by decide +kernel)]
  obtain ⟨drafts, hdrafts⟩ := @exists_drafts items
    (by
      intro item hitem
      rcases List.mem_cons.mp hitem with rfl | hitem
      · exact ⟨by decide +kernel, by decide +kernel⟩
      · rw [List.mem_singleton.mp hitem]
        exact ⟨by decide +kernel, by decide +kernel⟩)
  have hdistinct : ["concept-c4096bc3", "concept-91c3d8f3"].Nodup := by decide
  have hnodup := (h asciiDecimals zeroDigest plainModel "run" items drafts hdistinct hdrafts).1
  rw [(draft_ids_eq hdrafts).1] at hnodup
  exact absurd hnodup (by decide +kernel)

end Ids

end Orchestrator
