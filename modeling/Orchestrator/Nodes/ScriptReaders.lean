import Orchestrator.Nodes.CreativeContracts
import Orchestrator.Nodes.ItemStages

/-!
The two readers of a script: the one that mirrors its text into beats, and the
one that takes the narration from it.

Both read line by line and ignore the space around a line, so both read a text as
they read it stripped. They differ on a line whose colon follows no label: the
narration says the whole line, the beats only what follows the colon. The beats
fall back on the whole text where no line says anything.
-/

namespace Orchestrator
open Outcome PyStr

variable {t : CaseTables} {u : UnicodeTables} {line text normalized : String}

/-- A line with a colon that follows no label of a section. -/
def Loose (t : CaseTables) (line : String) : Prop :=
  ':' ∈ line.toList ∧ ∀ b : BeatSection, t.casefold (strip (partitionHead ':' line)) ≠ b.text

theorem mem_labels_iff {s : String} :
    s ∈ ["hook", "body", "cta"] ↔ ∃ b : BeatSection, s = b.text := by
  constructor
  · intro h
    rcases List.mem_cons.mp h with rfl | h
    · exact ⟨.hook, rfl⟩
    · rcases List.mem_cons.mp h with rfl | h
      · exact ⟨.body, rfl⟩
      · exact ⟨.cta, List.mem_singleton.mp h⟩
  · rintro ⟨b, rfl⟩
    cases b <;> simp [BeatSection.text]

theorem narrationLine_of_loose (h : Loose t line) :
    narrationLine t.toUnicodeTables line = strip line := by
  refine if_neg fun hlabel => ?_
  obtain ⟨b, hb⟩ := mem_labels_iff.mp hlabel.2
  exact h.2 b hb

theorem narrationLine_of_not_loose (h : ¬ Loose t line) :
    narrationLine t.toUnicodeTables line = spokenLine line := by
  by_cases hcolon : ':' ∈ line.toList
  · have hlabel : t.casefold (strip (partitionHead ':' line)) ∈ ["hook", "body", "cta"] := by
      by_contra hnone
      exact h ⟨hcolon, fun b hb => hnone (mem_labels_iff.mpr ⟨b, hb⟩)⟩
    rw [spokenLine, if_pos hcolon]
    exact if_pos ⟨hcolon, hlabel⟩
  · rw [spokenLine, if_neg hcolon]
    exact if_neg fun hlabel => hcolon hlabel.1

/-- The narration says more of a loose line than the beats. -/
theorem spokenLine_lt_of_loose (h : Loose t line) :
    (spokenLine line).length < (strip line).length := by
  obtain ⟨head, tail, hline, htail⟩ := exists_partition h.1
  rw [spokenLine, if_pos h.1, htail, ← String.length_toList, ← String.length_toList, toList_strip,
    toList_strip, String.toList_ofList, hline]
  exact length_trim_lt (by decide) head

/-- The narration reads a line by its colon, the parts around it and the whole, each stripped. -/
theorem narrationLine_congr {other : String} (hcolon : ':' ∈ line.toList ↔ ':' ∈ other.toList)
    (hhead : strip (partitionHead ':' line) = strip (partitionHead ':' other))
    (htail : strip (partitionTail ':' line) = strip (partitionTail ':' other))
    (hline : strip line = strip other) : narrationLine u line = narrationLine u other := by
  change (if ':' ∈ line.toList ∧
      u.casefold (strip (partitionHead ':' line)) ∈ ["hook", "body", "cta"]
      then strip (partitionTail ':' line) else strip line)
    = if ':' ∈ other.toList ∧ u.casefold (strip (partitionHead ':' other)) ∈ ["hook", "body", "cta"]
      then strip (partitionTail ':' other) else strip other
  rw [hhead, htail, hline]
  simp only [hcolon]

/-- The narration ignores the space around a line. -/
theorem edgeBlind_narrationLine (u : UnicodeTables) : EdgeBlind (narrationLine u) where
  empty := by
    rw [narrationLine, if_neg fun h => absurd h.1 (by decide)]
    decide
  left c cs hc := narrationLine_congr
    (by simp [sep_ne_of_space hc (by decide : isSpace ':' = false)])
    (strip_partitionHead_cons hc (by decide)) (strip_partitionTail_cons hc (by decide))
    (strip_cons hc)
  right c cs hc := narrationLine_congr
    (by simp [sep_ne_of_space hc (by decide : isSpace ':' = false)])
    (strip_partitionHead_concat hc (by decide)) (strip_partitionTail_concat hc (by decide))
    (strip_concat hc)

theorem narrationText_eq (u : UnicodeTables) (text : String) :
    narrationText u text = " ".intercalate (readings (narrationLine u) text) := rfl

/-- A text is narrated as it is narrated stripped. -/
theorem narrationText_strip (u : UnicodeTables) (text : String) :
    narrationText u (strip text) = narrationText u text := by
  rw [narrationText_eq, narrationText_eq, readings_strip (edgeBlind_narrationLine u)]

theorem singleLine_strip (h : SingleLine line) : SingleLine (strip line) := by
  intro c hc
  rw [toList_strip] at hc
  exact h c (trim_within.subset hc)

theorem singleLine_partitionTail (h : SingleLine line) : SingleLine (partitionTail ':' line) := by
  intro c hc
  rw [partitionTail, String.toList_ofList] at hc
  exact h c (List.dropWhile_subset _ (List.drop_subset 1 _ hc))

theorem singleLine_spokenLine (h : SingleLine line) : SingleLine (spokenLine line) := by
  rw [spokenLine]
  split
  · exact singleLine_strip (singleLine_partitionTail h)
  · exact singleLine_strip h

theorem singleLine_narrationLine (h : SingleLine line) :
    SingleLine (narrationLine t.toUnicodeTables line) := by
  by_cases hloose : Loose t line
  · rw [narrationLine_of_loose hloose]
    exact singleLine_strip h
  · rw [narrationLine_of_not_loose hloose]
    exact singleLine_spokenLine h

theorem singleLine_join {texts : List String} (h : ∀ s ∈ texts, SingleLine s) :
    SingleLine (" ".intercalate texts) := by
  induction texts with
  | nil => exact fun c hc => absurd hc (by simp)
  | cons first rest ih =>
      have hfirst := h first List.mem_cons_self
      have hrest := ih fun s hs => h s (List.mem_cons_of_mem _ hs)
      cases rest with
      | nil => rwa [String.intercalate_singleton]
      | cons second rest =>
          rw [String.intercalate_cons_cons]
          intro c hc
          rw [String.toList_append, String.toList_append] at hc
          rcases List.mem_append.mp hc with hc | hc
          · rcases List.mem_append.mp hc with hc | hc
            · exact hfirst c hc
            · obtain rfl : c = ' ' := by simpa using hc
              decide
          · exact hrest c hc

/-- The narration is one line. -/
theorem singleLine_narrationText (t : CaseTables) (text : String) :
    SingleLine (narrationText t.toUnicodeTables text) := by
  refine singleLine_join fun s hs => ?_
  obtain ⟨line, hline, rfl⟩ := List.mem_map.mp (List.mem_filter.mp hs).1
  exact singleLine_narrationLine (single_of_mem_splitLines hline)

/-- What beats say, one after the other. -/
def spokenCopy (copy : List (BeatSection × String)) : String :=
  " ".intercalate (copy.map (·.2))

/-- Both readers say the same of a text: every colon in it follows a label and some line says
something, or it is one line that says nothing after a colon that follows no label. -/
def OneReading (t : CaseTables) (text : String) : Prop :=
  ((∀ line ∈ splitLines (strip text), ¬ Loose t line)
      ∧ ∃ line ∈ splitLines (strip text), spokenLine line ≠ "")
    ∨ (SingleLine (strip text) ∧ Loose t (strip text) ∧ spokenLine (strip text) = "")

theorem filterMap_readLine (t : CaseTables) (lines : List String) :
    (lines.filterMap (readLine t)).map (·.2) = (lines.map spokenLine).filter (· ≠ "") := by
  induction lines with
  | nil => rfl
  | cons line lines ih =>
      by_cases h : spokenLine line = ""
      · simpa [readLine, h] using ih
      · simpa [readLine, h] using ih

/-- What is said when no line says anything is the text. -/
theorem copyRead_of_silent (h : ∀ line ∈ splitLines normalized, spokenLine line = "") :
    copyRead t normalized = [(.body, normalized)] := by
  have hnone : (splitLines normalized).filterMap (readLine t) = [] :=
    List.filterMap_eq_nil_iff.mpr fun line hline => if_pos (h line hline)
  rw [copyRead, hnone]

theorem copyRead_of_spoken (h : ∃ line ∈ splitLines normalized, spokenLine line ≠ "") :
    copyRead t normalized = (splitLines normalized).filterMap (readLine t) := by
  obtain ⟨line, hline, hspoken⟩ := h
  have hmem : (lineSection t line, spokenLine line)
      ∈ (splitLines normalized).filterMap (readLine t) :=
    List.mem_filterMap.mpr ⟨line, hline, if_neg hspoken⟩
  rw [copyRead]
  split
  next hnone => exact absurd (hnone ▸ hmem) List.not_mem_nil
  next => rfl

theorem spokenCopy_of_spoken (h : ∃ line ∈ splitLines normalized, spokenLine line ≠ "") :
    spokenCopy (copyRead t normalized) = " ".intercalate (readings spokenLine normalized) := by
  rw [copyRead_of_spoken h, spokenCopy, filterMap_readLine]
  rfl

/-- Where some line says something, the readers agree exactly when no line is loose. -/
theorem spoken_agree_iff (h : ∃ line ∈ splitLines normalized, spokenLine line ≠ "") :
    spokenCopy (copyRead t normalized) = narrationText t.toUnicodeTables normalized ↔
      ∀ line ∈ splitLines normalized, ¬ Loose t line := by
  rw [spokenCopy_of_spoken h, narrationText_eq]
  constructor
  · intro hagree line hline hloose
    refine join_ne_of_longer (fun l _ => ?_) ⟨line, hline, ?_⟩ ?_ hagree
    · by_cases hl : Loose t l
      · right
        rw [narrationLine_of_loose hl]
        exact spokenLine_lt_of_loose hl
      · exact .inl (narrationLine_of_not_loose hl).symm
    · rw [narrationLine_of_loose hloose]
      exact spokenLine_lt_of_loose hloose
    · obtain ⟨spoken, hmem, hspoken⟩ := h
      exact List.ne_nil_of_mem (List.mem_filter.mpr
        ⟨List.mem_map_of_mem hmem, decide_eq_true hspoken⟩)
  · intro hnone
    rw [readings, readings]
    have hlines : (splitLines normalized).map spokenLine
        = (splitLines normalized).map (narrationLine t.toUnicodeTables) :=
      List.map_congr_left fun line hline => (narrationLine_of_not_loose (hnone line hline)).symm
    rw [hlines]

/-- Where no line says anything, they agree exactly on one loose line. -/
theorem silent_agree_iff (hstripped : strip normalized = normalized) (hne : normalized ≠ "")
    (h : ∀ line ∈ splitLines normalized, spokenLine line = "") :
    spokenCopy (copyRead t normalized) = narrationText t.toUnicodeTables normalized ↔
      SingleLine normalized ∧ Loose t normalized ∧ spokenLine normalized = "" := by
  rw [copyRead_of_silent h, spokenCopy, List.map_singleton, String.intercalate_singleton]
  change normalized = _ ↔ _
  constructor
  · intro hagree
    have hsingle : SingleLine normalized := by
      rw [hagree]
      exact singleLine_narrationText t normalized
    have hlines := splitLines_single hsingle hne
    have hsilent : spokenLine normalized = "" := h normalized (by rw [hlines]; exact .head _)
    refine ⟨hsingle, ?_, hsilent⟩
    by_contra hloose
    rw [narrationText_eq, readings, hlines, List.map_singleton,
      narrationLine_of_not_loose hloose, hsilent] at hagree
    exact hne hagree
  · intro ⟨hsingle, hloose, _⟩
    rw [narrationText_eq, readings, splitLines_single hsingle hne, List.map_singleton,
      narrationLine_of_loose hloose, hstripped]
    simp [hne]

/-- The readers agree on a text exactly where it has one reading. -/
theorem copyRead_agrees_iff (hne : strip text ≠ "") :
    spokenCopy (copyRead t (strip text)) = narrationText t.toUnicodeTables text ↔
      OneReading t text := by
  rw [← narrationText_strip, OneReading]
  by_cases h : ∃ line ∈ splitLines (strip text), spokenLine line ≠ ""
  · rw [spoken_agree_iff h]
    constructor
    · exact fun hnone => .inl ⟨hnone, h⟩
    · rintro (hnone | ⟨hsingle, hloose, hsilent⟩)
      · exact hnone.1
      · obtain ⟨line, hline, hspoken⟩ := h
        rw [splitLines_single hsingle hne, List.mem_singleton] at hline
        rw [hline] at hspoken
        exact absurd hsilent hspoken
  · have hsilent : ∀ line ∈ splitLines (strip text), spokenLine line = "" := fun line hline => by
      by_contra hspoken
      exact h ⟨line, hline, hspoken⟩
    rw [silent_agree_iff (strip_strip text) hne hsilent]
    constructor
    · exact .inr
    · rintro (hspoken | hsingle)
      · exact absurd hspoken.2 h
      · exact hsingle

section Rendered
variable {m : StrictModel} {b : BeatSection} {copy : List (BeatSection × String)}

/-- The line of a beat in a rendered draft. -/
def renderedLine (p : BeatSection × String) : String := p.1.label ++ ": " ++ p.2

theorem label_stripped (b : BeatSection) : strip b.label = b.label ∧ b.label ≠ "" := by
  cases b <;> decide

theorem lower_label (t : CaseTables) (b : BeatSection) : t.lower b.label = b.text :=
  (t.lower_label b.label b).mpr (by cases b <;> decide)

theorem toList_renderedLine (p : BeatSection × String) :
    (renderedLine p).toList = p.1.label.toList ++ ':' :: ' ' :: p.2.toList := by
  rw [renderedLine, String.toList_append, String.toList_append, List.append_assoc]
  rfl

theorem partition_renderedLine (p : BeatSection × String) :
    partitionHead ':' (renderedLine p) = p.1.label
      ∧ partitionTail ':' (renderedLine p) = String.ofList (' ' :: p.2.toList) := by
  have hlabel : ':' ∉ p.1.label.toList := by
    cases p.1 <;> decide +kernel
  have hparts := partition_eq hlabel (toList_renderedLine p)
  rwa [String.ofList_toList] at hparts

theorem spokenLine_renderedLine {p : BeatSection × String} (h : strip p.2 = p.2) :
    spokenLine (renderedLine p) = p.2 := by
  have hcolon : ':' ∈ (renderedLine p).toList := by
    rw [toList_renderedLine]
    simp
  rw [spokenLine, if_pos hcolon, (partition_renderedLine p).2, strip_cons (by decide),
    String.ofList_toList, h]

/-- A rendered beat is read back. -/
theorem readLine_renderedLine {p : BeatSection × String} (h : strip p.2 = p.2) (hne : p.2 ≠ "") :
    readLine t (renderedLine p) = some p := by
  rw [readLine, spokenLine_renderedLine h, if_neg hne, lineSection, (partition_renderedLine p).1,
    (label_stripped p.1).1, lower_label, BeatSection.ofText?_text]
  rfl

theorem renderedLine_stripped {p : BeatSection × String} (h : strip p.2 = p.2) (hne : p.2 ≠ "") :
    strip (renderedLine p) = renderedLine p ∧ renderedLine p ≠ "" :=
  ⟨strip_append ": " (label_stripped p.1).1 (label_stripped p.1).2 h hne,
    append_ne_empty (append_ne_empty (label_stripped p.1).2 _) _⟩

theorem singleLine_renderedLine {p : BeatSection × String} (h : SingleLine p.2) :
    SingleLine (renderedLine p) := by
  intro c hc
  rw [toList_renderedLine] at hc
  rcases List.mem_append.mp hc with hc | hc
  · have hlabel : SingleLine p.1.label := by
      cases p.1 <;> exact singleLine_of_any (by decide)
    exact hlabel c hc
  · rcases List.mem_cons.mp hc with rfl | hc
    · decide
    · rcases List.mem_cons.mp hc with rfl | hc
      · decide
      · exact h c hc

/-- Beats whose texts are stripped single lines are read back from what they render to. -/
theorem copyRead_rendered (hcopy : copy ≠ [])
    (h : ∀ p ∈ copy, (strip p.2 = p.2 ∧ SingleLine p.2) ∧ p.2 ≠ "") :
    copyRead t (strip ("\n".intercalate (copy.map renderedLine))) = copy := by
  have hlines : ∀ l ∈ copy.map renderedLine, strip l = l ∧ l ≠ "" := fun l hl => by
    obtain ⟨p, hp, rfl⟩ := List.mem_map.mp hl
    exact renderedLine_stripped (h p hp).1.1 (h p hp).2
  have hsingle : ∀ l ∈ copy.map renderedLine, SingleLine l ∧ l ≠ "" := fun l hl => by
    obtain ⟨p, hp, rfl⟩ := List.mem_map.mp hl
    exact ⟨singleLine_renderedLine (h p hp).1.2, (hlines _ hl).2⟩
  have hread : (copy.map renderedLine).filterMap (readLine t) = copy := by
    rw [List.filterMap_map]
    refine (List.filterMap_congr fun p hp => ?_).trans List.filterMap_some
    exact readLine_renderedLine (h p hp).1.1 (h p hp).2
  rw [(strip_join (by simpa using hcopy) hlines).1, copyRead, splitLines_join hsingle, hread]
  split
  next => exact absurd rfl hcopy
  next => rfl

/-- What is rendered is not blank: it starts with a label. -/
theorem rendered_not_blank (hcopy : copy ≠ []) :
    strip ("\n".intercalate (copy.map renderedLine)) ≠ "" := by
  intro hblank
  obtain ⟨p, rest, rfl⟩ := List.exists_cons_of_ne_nil hcopy
  have hcolon : ':' ∈ ("\n".intercalate ((p :: rest).map renderedLine)).toList := by
    have hfirst : ':' ∈ (renderedLine p).toList := by
      rw [toList_renderedLine]
      simp
    cases rest with
    | nil => simpa using hfirst
    | cons q rest =>
        rw [List.map_cons, List.map_cons, String.intercalate_cons_cons, String.toList_append,
          String.toList_append]
        exact List.mem_append_left _ (List.mem_append_left _ hfirst)
  exact absurd (space_of_strip_eq_empty hblank hcolon) (by decide)

/-- Beats are read back from what they render to exactly when their texts are stripped
single lines. -/
theorem copyRead_rendered_iff (hcopy : copy ≠ []) (hne : ∀ p ∈ copy, p.2 ≠ "") :
    copyRead t (strip ("\n".intercalate (copy.map renderedLine))) = copy ↔
      ∀ p ∈ copy, strip p.2 = p.2 ∧ SingleLine p.2 := by
  constructor
  · intro hread p hp
    let normalized := strip ("\n".intercalate (copy.map renderedLine))
    have hnormalized : normalized ≠ "" := rendered_not_blank hcopy
    have hstripped : ∀ p ∈ copy, strip p.2 = p.2 := fun p hp =>
      (copyRead_stripped (t := t) (strip_strip _) hnormalized (hread.symm ▸ hp)).1
    refine ⟨hstripped p hp, ?_⟩
    by_cases hspoken : ∃ line ∈ splitLines normalized, spokenLine line ≠ ""
    · rw [← hread, copyRead_of_spoken hspoken] at hp
      obtain ⟨line, hline, hread⟩ := List.mem_filterMap.mp hp
      rw [readLine] at hread
      split at hread
      next => exact absurd hread (by simp)
      next =>
          rw [← Option.some.inj hread]
          exact singleLine_spokenLine (single_of_mem_splitLines hline)
    · -- the text cannot be its own only beat: a label stands before it
      have hsilent : copyRead t normalized = [(.body, normalized)] :=
        copyRead_of_silent fun line hline => by
          by_contra hline'
          exact hspoken ⟨line, hline, hline'⟩
      have hwhole : copy = [(.body, normalized)] := hread.symm.trans hsilent
      have hrendered : normalized = renderedLine (.body, normalized) := by
        have hline := (renderedLine_stripped (p := (.body, normalized))
          (strip_strip _) hnormalized).1
        rw [← hline]
        change strip ("\n".intercalate (copy.map renderedLine)) = _
        rw [hwhole, List.map_singleton, String.intercalate_singleton]
      have hlength := congrArg (fun s => s.toList.length) hrendered
      rw [toList_renderedLine, List.length_append] at hlength
      simp only [List.length_cons] at hlength
      omega
  · exact fun h => copyRead_rendered hcopy fun p hp => ⟨h p hp, hne p hp⟩

end Rendered

section Agreement
variable {m : StrictModel} {digest8 : ByteArray → String} {runId conceptId : String}

/-- The sections and texts a draft is rendered from: its beats, and its call to action where
no beat is one. -/
def ScriptDraft.copy (draft : ScriptDraft m) : List (BeatSection × String) :=
  draft.spokenBeats.map (·.copy)
    ++ if draft.spokenBeats.any (·.beatSection = .cta) then []
      else [(.cta, draft.callToAction.text)]

theorem ScriptDraft.lines_eq (draft : ScriptDraft m) :
    draft.lines = draft.copy.map renderedLine := by
  rw [ScriptDraft.lines, ScriptDraft.copy, List.map_append, List.map_map]
  split <;> rfl

theorem ScriptDraft.copy_ne_nil (draft : ScriptDraft m) : draft.copy ≠ [] := by
  intro hnil
  have hbeats := List.append_eq_nil_iff.mp hnil
  have hlength := draft.beats_bounds.1
  rw [List.map_eq_nil_iff.mp hbeats.1] at hlength
  exact absurd hlength (by simp)

theorem TextField.ne_empty {lo hi : Nat} (field : TextField m (lo + 1) hi) : field.text ≠ "" := by
  intro hempty
  have hbounds := field.bounds.1
  rw [hempty] at hbounds
  exact absurd hbounds (by simp)

/-- What a draft is rendered from holds something and fits a beat. -/
theorem ScriptDraft.copy_bounds (draft : ScriptDraft m) {p : BeatSection × String}
    (h : p ∈ draft.copy) : p.2 ≠ "" ∧ p.2.length ≤ 2000 := by
  rcases List.mem_append.mp h with h | h
  · obtain ⟨beat, _, rfl⟩ := List.mem_map.mp h
    exact ⟨beat.text.ne_empty, beat.text.bounds.2⟩
  · split at h
    next => exact absurd h List.not_mem_nil
    next =>
        rw [List.mem_singleton.mp h]
        exact ⟨draft.callToAction.ne_empty, draft.callToAction.bounds.2.trans (by decide)⟩

/-- The call to action that is read back is the last beat that is one, or the draft's own. -/
theorem ScriptDraft.closingCopy_copy (draft : ScriptDraft m) :
    closingCopy draft.copy = match draft.spokenBeats.reverse.find? (·.beatSection = .cta) with
      | some beat => beat.text.text
      | none => draft.callToAction.text := by
  have hfind : (draft.spokenBeats.map (·.copy)).reverse.find? (·.1 = .cta)
      = (draft.spokenBeats.reverse.find? (·.beatSection = .cta)).map (·.copy) := by
    rw [← List.map_reverse, List.find?_map]
    rfl
  rw [closingCopy, ScriptDraft.copy]
  split_ifs with hcta
  · rw [List.append_nil, hfind]
    obtain ⟨beat, hmem, hbeat⟩ := List.any_eq_true.mp hcta
    cases hlast : draft.spokenBeats.reverse.find? (·.beatSection = .cta) with
    | some beat => rfl
    | none =>
        exact absurd hbeat (List.find?_eq_none.mp hlast beat (List.mem_reverse.mpr hmem))
  · have hnone : draft.spokenBeats.reverse.find? (·.beatSection = .cta) = none := by
      refine List.find?_eq_none.mpr fun beat hmem hbeat => hcta ?_
      exact List.any_eq_true.mpr ⟨beat, List.mem_reverse.mp hmem, hbeat⟩
    rw [hnone, List.reverse_append, List.reverse_singleton, List.singleton_append]
    simp

/-- The rendered draft is read, and its beats come back. -/
def Rereads (t : CaseTables) (digest8 : ByteArray → String) (draft : ScriptDraft m)
    (runId conceptId : String) : Prop :=
  ∃ result : CreativeContracts.ScriptResult m,
    scriptResultFromText t digest8 m draft.renderText runId conceptId = .ok result
      ∧ result.scriptDraft.spokenBeats.map (·.copy) = draft.copy

/-- A draft that the reader takes back: no text has space at its ends that the contracts
leave, a rendered call to action is one line, the rendered lines are no more than the beats of
a script, the last beat that is a call to action fits the field of that name, and the ids are
admitted. -/
structure Rereadable (t : CaseTables) (digest8 : ByteArray → String) (draft : ScriptDraft m)
    (runId conceptId : String) : Prop where
  stripped : ∀ p ∈ draft.copy, strip p.2 = p.2
  closing_single : (∀ beat ∈ draft.spokenBeats, beat.beatSection ≠ .cta) →
    SingleLine draft.callToAction.text
  count : draft.copy.length ≤ 20
  closing_short : ∀ beat ∈ draft.spokenBeats.reverse.find? (·.beatSection = .cta),
    beat.text.text.length ≤ 500
  ids : IdsAdmitted t digest8 m runId conceptId

theorem copyAdmitted_iff (draft : ScriptDraft m) : CopyAdmitted draft.copy ↔
    draft.copy.length ≤ 20 ∧ ∀ beat ∈ draft.spokenBeats.reverse.find? (·.beatSection = .cta),
      beat.text.text.length ≤ 500 := by
  have hclosing := draft.closingCopy_copy
  constructor
  · intro h
    refine ⟨h.count, fun beat hbeat => ?_⟩
    rw [Option.mem_def.mp hbeat] at hclosing
    exact (congrArg String.length hclosing).symm.le.trans h.closing
  · intro ⟨hcount, hshort⟩
    refine ⟨hcount, fun p hp => (draft.copy_bounds hp).2, ?_⟩
    rw [hclosing]
    cases hlast : draft.spokenBeats.reverse.find? (·.beatSection = .cta) with
    | some beat => exact hshort beat hlast
    | none => exact draft.callToAction.bounds.2

/-- The texts a draft with one-line beats is rendered from are one line each where its call to
action is. -/
theorem ScriptDraft.copy_single_iff (draft : ScriptDraft m)
    (hsingle : ∀ beat ∈ draft.spokenBeats, SingleLine beat.text.text) :
    (∀ p ∈ draft.copy, SingleLine p.2) ↔
      ((∀ beat ∈ draft.spokenBeats, beat.beatSection ≠ .cta) →
        SingleLine draft.callToAction.text) := by
  have hnone : (∀ beat ∈ draft.spokenBeats, beat.beatSection ≠ .cta) ↔
      ¬ draft.spokenBeats.any (·.beatSection = .cta) = true := by
    simp
  rw [hnone]
  constructor
  · intro h hcta
    refine h (.cta, draft.callToAction.text) (List.mem_append_right _ ?_)
    rw [if_neg hcta]
    exact List.mem_singleton_self _
  · intro h p hp
    rcases List.mem_append.mp hp with hp | hp
    · obtain ⟨beat, hbeat, rfl⟩ := List.mem_map.mp hp
      exact hsingle beat hbeat
    · split at hp
      next => exact absurd hp List.not_mem_nil
      next hcta =>
          rw [List.mem_singleton.mp hp]
          exact h hcta

theorem rereads_iff (draft : ScriptDraft m)
    (hsingle : ∀ beat ∈ draft.spokenBeats, SingleLine beat.text.text) :
    Rereads t digest8 draft runId conceptId ↔ Rereadable t digest8 draft runId conceptId := by
  have hne := fun p (hp : p ∈ draft.copy) => (draft.copy_bounds hp).1
  rw [Rereads, ScriptDraft.renderText, draft.lines_eq, scriptResultFromText_iff,
    copyRead_rendered_iff draft.copy_ne_nil hne, copyAdmitted_iff]
  constructor
  · intro ⟨_, htexts, hadmitted, hids⟩
    exact ⟨fun p hp => (htexts p hp).1,
      (draft.copy_single_iff hsingle).mp fun p hp => (htexts p hp).2,
        hadmitted.1, hadmitted.2, hids⟩
  · intro h
    have hlines := (draft.copy_single_iff hsingle).mpr h.closing_single
    exact ⟨rendered_not_blank draft.copy_ne_nil, fun p hp => ⟨h.stripped p hp, hlines p hp⟩,
      ⟨h.count, h.closing_short⟩, h.ids⟩

/-- The beats of a text say what is narrated exactly where the text has one reading, and a
rendered draft is read back exactly where it is rereadable. -/
theorem readers_agree_iff (t : CaseTables) (digest8 : ByteArray → String) (m : StrictModel) :
    (∀ (text runId conceptId : String) (result : CreativeContracts.ScriptResult m),
      scriptResultFromText t digest8 m text runId conceptId = .ok result →
      (spokenCopy (result.scriptDraft.spokenBeats.map (·.copy))
          = narrationText t.toUnicodeTables text ↔ OneReading t text)) ∧
    (∀ (draft : ScriptDraft m) (runId conceptId : String),
      (∀ beat ∈ draft.spokenBeats, SingleLine beat.text.text) →
      (Rereads t digest8 draft runId conceptId ↔ Rereadable t digest8 draft runId conceptId)) := by
  refine ⟨fun text runId conceptId result h => ?_, fun draft runId conceptId => rereads_iff draft⟩
  obtain ⟨hne, hcopy, -, -⟩ := scriptResultFromText_iff.mp ⟨result, h, rfl⟩
  rw [← hcopy]
  exact copyRead_agrees_iff hne

/-- A table for the letters of the labels. -/
def labelTables : CaseTables where
  casefold := foldLabel
  isAlnum := Char.isAlphanum
  lower := foldLabel
  isDecimal := Char.isDigit
  lower_label _ _ := Iff.rfl
  casefold_label _ _ := Iff.rfl

/-- A contract that strips what `str.strip` does. -/
def plainModel : StrictModel := ⟨isSpace, fun _ h => h⟩

theorem sampleIds_admitted :
    IdsAdmitted labelTables (fun _ => "") plainModel "run" "concept-1" :=
  ⟨by decide +kernel, by decide +kernel⟩

theorem exists_result {text : String} {copy : List (BeatSection × String)}
    (hne : strip text ≠ "") (hread : copyRead labelTables (strip text) = copy)
    (hadmitted : CopyAdmitted copy) :
    ∃ result : CreativeContracts.ScriptResult plainModel,
      scriptResultFromText labelTables (fun _ => "") plainModel text "run" "concept-1" = .ok result
        ∧ result.scriptDraft.spokenBeats.map (·.copy) = copy :=
  scriptResultFromText_iff.mpr ⟨hne, hread, hadmitted, sampleIds_admitted⟩

/-- A beat of a short draft. -/
def sampleBeat : SpokenBeat plainModel where
  beatSection := .hook
  text := ⟨"Try this", by decide +kernel, by decide⟩
  seconds := 1
  seconds_bounds := by decide

def sampleDraft : ScriptDraft plainModel where
  spokenBeats := [sampleBeat]
  visualBeats := ["Creator addresses camera"]
  onScreenText := []
  callToAction := ⟨"Buy", by decide +kernel, by decide⟩
  estimatedDuration := 1
  beats_bounds := by decide
  visual_bounds := by decide
  screen_bounds := by decide
  duration_bounds := by decide
  id := ⟨"run-script-01", by decide +kernel, by decide⟩
  conceptId := ⟨"concept-1", by decide +kernel, by decide⟩

/-- A labelled script is narrated as its beats, and a short draft is read back. -/
theorem readers_agree_on_labelled :
    (∃ result : CreativeContracts.ScriptResult plainModel,
      scriptResultFromText labelTables (fun _ => "") plainModel "HOOK: Try this\nCTA: Buy" "run"
          "concept-1" = .ok result
        ∧ spokenCopy (result.scriptDraft.spokenBeats.map (·.copy))
          = narrationText labelTables.toUnicodeTables "HOOK: Try this\nCTA: Buy") ∧
    Rereads labelTables (fun _ => "") sampleDraft "run" "concept-1" := by
  have hagree := readers_agree_iff labelTables (fun _ => "") plainModel
  constructor
  · have hadmitted : CopyAdmitted [(.hook, "Try this"), (.cta, "Buy")] :=
      ⟨by decide, by decide, by decide⟩
    obtain ⟨result, hresult, _⟩ := @exists_result "HOOK: Try this\nCTA: Buy" _
      (by decide +kernel) (by decide +kernel) hadmitted
    refine ⟨result, hresult, (hagree.1 _ _ _ result hresult).mpr (.inl ⟨?_, ?_⟩)⟩
    · have hlines : splitLines (strip "HOOK: Try this\nCTA: Buy") =
          ["HOOK: Try this", "CTA: Buy"] := by
        decide +kernel
      rw [hlines]
      intro line hline hloose
      rcases List.mem_cons.mp hline with rfl | hline
      · exact hloose.2 .hook (by decide +kernel)
      · rw [List.mem_singleton.mp hline] at hloose
        exact hloose.2 .cta (by decide +kernel)
    · exact ⟨"HOOK: Try this", by decide +kernel, by decide +kernel⟩
  · refine (hagree.2 sampleDraft "run" "concept-1" ?_).mpr ?_
    · intro beat hbeat
      rw [List.mem_singleton.mp hbeat]
      exact singleLine_of_any (by decide)
    · exact ⟨by decide +kernel, fun _ => singleLine_of_any (by decide), by decide, by decide,
        sampleIds_admitted⟩

/-- The beats of a line that is not labelled leave out what stands before its colon. -/
theorem unlabelled_copy_dropped :
    ¬ ∀ (t : CaseTables) (digest8 : ByteArray → String) (m : StrictModel),
      (∀ (text runId conceptId : String) (result : CreativeContracts.ScriptResult m),
        scriptResultFromText t digest8 m text runId conceptId = .ok result →
        spokenCopy (result.scriptDraft.spokenBeats.map (·.copy))
          = narrationText t.toUnicodeTables text) ∧
      (∀ (draft : ScriptDraft m) (runId conceptId : String),
        (∀ beat ∈ draft.spokenBeats, SingleLine beat.text.text) →
        Rereads t digest8 draft runId conceptId) := by
  intro h
  have hadmitted : CopyAdmitted [(.body, "it works")] := ⟨by decide, by decide, by decide⟩
  obtain ⟨result, hresult, hcopy⟩ := @exists_result "The truth: it works" _
    (by decide +kernel) (by decide +kernel) hadmitted
  have hagree := (h labelTables (fun _ => "") plainModel).1 _ _ _ result hresult
  rw [hcopy] at hagree
  exact absurd hagree (by decide +kernel)

end Agreement

end Orchestrator
