import Orchestrator.Tools.Scripts

/-!
What is narrated of a script that was accepted, against the beats that were counted.
-/

namespace Orchestrator
open Outcome PyStr

variable {t : CaseTables} {digest8 : ByteArray → String} {m : StrictModel} {line text : String}

/-- A line whose colon follows a label. -/
def Labelled (t : CaseTables) (line : String) : Prop := lineLabel t line ≠ none

instance (t : CaseTables) (line : String) : Decidable (Labelled t line) :=
  inferInstanceAs (Decidable (lineLabel t line ≠ none))

theorem labelled_iff : Labelled t line ↔
    ':' ∈ line.toList ∧ ∃ b : BeatSection,
      t.casefold (strip (partitionHead ':' line)) = b.text := by
  rw [Labelled, lineLabel]
  constructor
  · intro h
    split at h
    next hcolon =>
        obtain ⟨b, hb⟩ := Option.ne_none_iff_exists'.mp h
        have hlabel := (t.lower_label _ b).mp (BeatSection.ofText?_eq_some_iff.mp hb)
        exact ⟨hcolon, b, (t.casefold_label _ b).mpr hlabel⟩
    next => exact absurd rfl h
  · intro ⟨hcolon, b, hb⟩
    have hlabel := (t.casefold_label _ b).mp hb
    rw [if_pos hcolon, (t.lower_label _ b).mpr hlabel, BeatSection.ofText?_text]
    exact Option.some_ne_none b

theorem narrationLine_of_labelled (h : Labelled t line) :
    narrationLine t.toUnicodeTables line = strip (partitionTail ':' line) := by
  obtain ⟨hcolon, hlabel⟩ := labelled_iff.mp h
  exact if_pos ⟨hcolon, mem_labels_iff.mpr hlabel⟩

theorem narrationLine_of_not_labelled (h : ¬ Labelled t line) :
    narrationLine t.toUnicodeTables line = strip line :=
  if_neg fun hboth => h (labelled_iff.mpr ⟨hboth.1, mem_labels_iff.mp hboth.2⟩)

/-- The label and its colon are not narrated. -/
theorem letters_narrationLine_lt (h : Labelled t line) :
    letters (narrationLine t.toUnicodeTables line) < letters line := by
  obtain ⟨head, tail, hline, htail⟩ := exists_partition (labelled_iff.mp h).1
  rw [narrationLine_of_labelled h, letters_strip, htail, letters, letters, String.toList_ofList,
    hline, List.filter_append, List.length_append, List.filter_cons_of_pos (by decide),
    List.length_cons]
  omega

theorem words_narrationLine (line : String) :
    words (narrationLine t.toUnicodeTables line) = words line
      ∨ lettersOf (words (narrationLine t.toUnicodeTables line)) < lettersOf (words line) := by
  rw [lettersOf_words, lettersOf_words]
  by_cases h : Labelled t line
  · exact .inr (letters_narrationLine_lt h)
  · rw [narrationLine_of_not_labelled h, words_strip]
    exact .inl rfl

/-- A line is narrated whole exactly where no label stands before its colon. -/
theorem words_narrationLine_iff :
    words (narrationLine t.toUnicodeTables line) = words line ↔ ¬ Labelled t line := by
  constructor
  · intro hwords hlabelled
    have hfewer := letters_narrationLine_lt hlabelled
    rw [← lettersOf_words, hwords, lettersOf_words] at hfewer
    exact absurd hfewer (Nat.lt_irrefl _)
  · intro h
    rw [narrationLine_of_not_labelled h, words_strip]

theorem words_narrationText (text : String) :
    words (narrationText t.toUnicodeTables text)
      = (readings (narrationLine t.toUnicodeTables) text).flatMap words := by
  rw [narrationText_eq, words_join]

theorem strip_contract (text : String) : strip (m.strip text) = strip text := by
  rw [strip_eq, StrictModel.strip, String.toList_ofList, trim_trim_of_imp m.trims_space, ← strip_eq]

theorem words_contract (text : String) : words (m.strip text) = words text := by
  rw [← words_strip, strip_contract, words_strip]

/-- What the contracts strip of a text is not narrated. -/
theorem narrationText_contract (text : String) :
    narrationText t.toUnicodeTables (m.strip text) = narrationText t.toUnicodeTables text := by
  rw [← narrationText_strip, strip_contract, narrationText_strip]

/-- What the beats of a text take of a line. -/
def beatLine (t : CaseTables) (line : String) : String :=
  if Labelled t line then strip (partitionTail ':' line) else ""

/-- A line that says something after its label. -/
def Says (t : CaseTables) (line : String) : Prop :=
  Labelled t line ∧ strip (partitionTail ':' line) ≠ ""

/-- A text whose beats say what is narrated of it: some labelled line says something and every
line beside the labelled ones is blank, or no line is labelled at all. -/
def TextSpoken (t : CaseTables) (text : String) : Prop :=
  ((∃ line ∈ splitLines text, Says t line)
      ∧ ∀ line ∈ splitLines text, Labelled t line ∨ strip line = "")
    ∨ ∀ line ∈ splitLines text, ¬ Labelled t line

theorem labelledLine_eq (t : CaseTables) (line : String) :
    (∀ p ∈ labelledLine t line, p.2 = beatLine t line)
      ∧ (labelledLine t line = none ↔ beatLine t line = "") := by
  rw [labelledLine, beatLine]
  cases hlabel : lineLabel t line with
  | none => simp [Labelled, hlabel]
  | some b =>
      by_cases hblank : strip (partitionTail ':' line) = ""
      · simp [Labelled, hlabel, hblank]
      · simp [Labelled, hlabel, hblank]

theorem words_labelledLines (lines : List String) :
    (lines.filterMap (labelledLine t)).flatMap (fun p => words p.2)
      = lines.flatMap fun line => words (beatLine t line) := by
  induction lines with
  | nil => rfl
  | cons line lines ih =>
      obtain ⟨htext, hnone⟩ := labelledLine_eq t line
      cases hread : labelledLine t line with
      | none => rw [List.filterMap_cons_none hread, ih, List.flatMap_cons, hnone.mp hread,
          words_empty, List.nil_append]
      | some p => rw [List.filterMap_cons_some hread, List.flatMap_cons, ih, List.flatMap_cons,
          htext p hread]

/-- The beats leave out the lines without a label. -/
theorem words_beatLine (line : String) :
    words (beatLine t line) = words (narrationLine t.toUnicodeTables line)
      ∨ lettersOf (words (beatLine t line))
        < lettersOf (words (narrationLine t.toUnicodeTables line)) := by
  rw [lettersOf_words, lettersOf_words]
  by_cases h : Labelled t line
  · rw [beatLine, if_pos h, narrationLine_of_labelled h]
    exact .inl rfl
  · rw [beatLine, if_neg h, narrationLine_of_not_labelled h]
    by_cases hblank : strip line = ""
    · rw [hblank]
      exact .inl rfl
    · refine .inr ?_
      rw [letters_strip]
      exact Nat.pos_of_ne_zero fun hzero => hblank (letters_eq_zero_iff.mp hzero)

theorem words_beatLine_iff : words (beatLine t line) = words (narrationLine t.toUnicodeTables line)
    ↔ Labelled t line ∨ strip line = "" := by
  by_cases h : Labelled t line
  · rw [beatLine, if_pos h, narrationLine_of_labelled h]
    exact iff_of_true rfl (.inl h)
  · rw [beatLine, if_neg h, narrationLine_of_not_labelled h, words_empty, words_strip, eq_comm,
      words_eq_nil_iff]
    simp [h]

/-- Admitted texts keep their words. -/
theorem beatWords_of_mapM {read : List (BeatSection × String)} {seconds : String → Nat}
    {beats : List (SpokenBeat m)}
    (h : (read.mapM fun (b, spoken) => SpokenBeat.validate b spoken (seconds spoken)) = .ok beats) :
    beatWords beats = read.flatMap fun p => words p.2 := by
  have hwords : beats.map (fun beat => words beat.text.text) = read.map fun p => words p.2 := by
    refine map_eq_of_forall₂ (fun p beat hbeat => ?_) (forall₂_of_mapM h)
    have hcopy := congrArg Prod.snd (SpokenBeat.validate_ok hbeat)
    rw [show beat.text.text = m.strip p.2 from hcopy, words_contract]
  rw [beatWords, List.flatMap_def, hwords, ← List.flatMap_def]

theorem says_iff : Says t line ↔ labelledLine t line ≠ none := by
  rw [Ne, (labelledLine_eq t line).2, Says, beatLine]
  by_cases h : Labelled t line <;> simp [h]

theorem beatWords_of_spoken {beats : List (SpokenBeat m)}
    (hspoken : ∃ line ∈ splitLines text, Says t line) (h : sectionsFromText t m text = .ok beats) :
    beatWords beats = (splitLines text).flatMap fun line => words (beatLine t line) := by
  rw [← words_labelledLines]
  obtain ⟨line, hline, hsaid⟩ := hspoken
  obtain ⟨p, hp⟩ := Option.ne_none_iff_exists'.mp (says_iff.mp hsaid)
  rw [sectionsFromText] at h
  split at h
  next hnone =>
      have hmem : p ∈ (splitLines text).filterMap (labelledLine t) :=
        List.mem_filterMap.mpr ⟨line, hline, hp⟩
      exact absurd (hnone ▸ hmem) List.not_mem_nil
  next => exact @beatWords_of_mapM m _ (fun spoken => max 1 ((4 * wordCount spoken + 5) / 10)) _ h

theorem beatWords_of_silent {beats : List (SpokenBeat m)}
    (hspoken : ¬ ∃ line ∈ splitLines text, Says t line)
    (h : sectionsFromText t m text = .ok beats) :
    beatWords beats = words text := by
  have hnone : (splitLines text).filterMap (labelledLine t) = [] := by
    refine List.filterMap_eq_nil_iff.mpr fun line hline => ?_
    by_contra hsaid
    exact hspoken ⟨line, hline, says_iff.mpr hsaid⟩
  rw [sectionsFromText, hnone] at h
  obtain ⟨beat, hbeat, h⟩ := ok_of_bind h
  rw [← Except.ok.inj h, beatWords, List.flatMap_singleton,
    show beat.text.text = m.strip text from congrArg Prod.snd (SpokenBeat.validate_ok hbeat),
    words_contract]

/-- The narration of a text says the words of its beats exactly where nothing stands beside
the labelled lines, or no line is labelled. -/
theorem text_spoken_iff {beats : List (SpokenBeat m)}
    (h : sectionsFromText t m text = .ok beats) :
    words (narrationText t.toUnicodeTables text) = beatWords beats ↔ TextSpoken t text := by
  rw [words_narrationText, words_readings, TextSpoken]
  by_cases hspoken : ∃ line ∈ splitLines text, Says t line
  · rw [beatWords_of_spoken hspoken h, eq_comm, flatMap_eq_iff fun line _ => words_beatLine line]
    simp only [words_beatLine_iff]
    constructor
    · exact fun hlines => .inl ⟨hspoken, hlines⟩
    · rintro (⟨-, hlines⟩ | hnone)
      · exact hlines
      · obtain ⟨line, hline, hlabelled, -⟩ := hspoken
        exact absurd hlabelled (hnone line hline)
  · rw [beatWords_of_silent hspoken h, ← words_splitLines,
      flatMap_eq_iff fun line _ => words_narrationLine line]
    simp only [words_narrationLine_iff]
    constructor
    · exact .inr
    · rintro (⟨hexists, -⟩ | hnone)
      · exact absurd hexists hspoken
      · exact hnone

/-- What the narration says of a text that follows a label. -/
def heard (t : CaseTables) (text : String) : List String :=
  words (openLine text)
    ++ (laterLines text).flatMap fun line => words (narrationLine t.toUnicodeTables line)

/-- No line of a text but its first is labelled. -/
def PlainLines (t : CaseTables) (text : String) : Prop :=
  ∀ line ∈ laterLines text, ¬ Labelled t line

instance (t : CaseTables) (text : String) : Decidable (PlainLines t text) :=
  inferInstanceAs (Decidable (∀ line ∈ laterLines text, ¬ Labelled t line))

theorem heard_eq_iff : heard t text = words text ↔ PlainLines t text := by
  rw [heard, ← words_openLine_append text, List.append_cancel_left_eq,
    flatMap_eq_iff fun line _ => words_narrationLine line]
  simp only [words_narrationLine_iff]
  rfl

theorem letters_heard (text : String) :
    heard t text = words text ∨ lettersOf (heard t text) < lettersOf (words text) := by
  rw [heard, ← words_openLine_append text]
  exact append_or_fewer (.inl rfl) (flatMap_or_fewer fun line _ => words_narrationLine line)

/-- A beat of a rendered draft is narrated without its own label. -/
theorem words_renderedLine {p : BeatSection × String} (hne : p.2 ≠ "") :
    (readings (narrationLine t.toUnicodeTables) (renderedLine p)).flatMap words = heard t p.2 := by
  have hfront : SingleLine (p.1.label ++ ": ") := by
    cases p.1 <;> exact singleLine_of_any (by decide)
  have hlabelled : Labelled t (renderedLine (p.1, openLine p.2)) := by
    rw [Labelled, lineLabel, if_pos (by rw [toList_renderedLine]; simp),
      (partition_renderedLine _).1, (label_stripped p.1).1, lower_label, BeatSection.ofText?_text]
    exact Option.some_ne_none _
  rw [words_readings, renderedLine, splitLines_append hfront hne, List.flatMap_cons, heard]
  change words (narrationLine t.toUnicodeTables (renderedLine (p.1, openLine p.2))) ++ _ = _
  rw [narrationLine_of_labelled hlabelled, (partition_renderedLine _).2, strip_cons (by decide),
    String.ofList_toList, words_strip]

/-- The narration of a rendered draft says what is heard of each of its texts. -/
theorem words_rendered (draft : ScriptDraft m) :
    words (narrationText t.toUnicodeTables draft.renderText)
      = draft.copy.flatMap fun p => heard t p.2 := by
  have hempty : narrationLine t.toUnicodeTables "" = "" := (edgeBlind_narrationLine _).empty
  rw [words_narrationText, ScriptDraft.renderText, draft.lines_eq, readings_lines hempty,
    List.flatMap_assoc, List.flatMap_map]
  exact List.flatMap_congr fun p hp => words_renderedLine (draft.copy_bounds hp).1

section Drafts
variable (t : CaseTables) (submission : ScriptSubmission m)

/-- What is heard of the call to action, which is rendered where no beat is one. -/
def closingHeard : List String :=
  if submission.spokenBeats.any (·.beatSection = .cta) then []
  else heard t submission.callToAction.text

/-- A submission whose beats say what is narrated of it: no beat has a label on a line after its
first, and a beat is the call to action or nothing is heard of it. Where the narration drops a
label inside a beat, only the call to action can make up for it, by repeating the rest of the
beats word for word. -/
def DraftSpoken : Prop :=
  ((∀ beat ∈ submission.spokenBeats, PlainLines t beat.text.text)
      ∧ ((∃ beat ∈ submission.spokenBeats, beat.beatSection = .cta)
        ∨ heard t submission.callToAction.text = []))
    ∨ ((∃ beat ∈ submission.spokenBeats, ¬ PlainLines t beat.text.text)
      ∧ (∀ beat ∈ submission.spokenBeats, beat.beatSection ≠ .cta)
      ∧ (submission.spokenBeats.flatMap fun beat => heard t beat.text.text)
          ++ heard t submission.callToAction.text = beatWords submission.spokenBeats)

end Drafts

section Drafts
variable {submission : ScriptSubmission m} {draft : ScriptDraft m}

theorem heard_beats_eq (h : ∀ beat ∈ submission.spokenBeats, PlainLines t beat.text.text) :
    (submission.spokenBeats.flatMap fun beat => heard t beat.text.text)
      = beatWords submission.spokenBeats :=
  List.flatMap_congr fun beat hbeat => heard_eq_iff.mpr (h beat hbeat)

/-- A label inside a beat costs the narration letters. -/
theorem heard_beats_ne (h : ∃ beat ∈ submission.spokenBeats, ¬ PlainLines t beat.text.text) :
    (submission.spokenBeats.flatMap fun beat => heard t beat.text.text)
      ≠ beatWords submission.spokenBeats := by
  obtain ⟨beat, hbeat, hlabelled⟩ := h
  intro heq
  have heach := (flatMap_eq_iff fun beat _ => letters_heard beat.text.text).mp heq
  exact hlabelled (heard_eq_iff.mp (heach beat hbeat))

theorem words_narration_draft (hbase : draft.toScriptSubmission = submission) :
    words (narrationText t.toUnicodeTables draft.renderText)
      = (submission.spokenBeats.flatMap fun beat => heard t beat.text.text)
        ++ closingHeard t submission := by
  subst hbase
  rw [words_rendered, ScriptDraft.copy, List.flatMap_append, List.flatMap_map, closingHeard]
  split
  next => rfl
  next => rw [List.flatMap_singleton]; rfl

/-- The narration of a rendered draft says the words of its beats exactly where its submission
is spoken. -/
theorem draft_spoken_iff (hbase : draft.toScriptSubmission = submission) :
    words (narrationText t.toUnicodeTables draft.renderText) = beatWords submission.spokenBeats ↔
      DraftSpoken t submission := by
  have hcta : submission.spokenBeats.any (·.beatSection = .cta) = true ↔
      ∃ beat ∈ submission.spokenBeats, beat.beatSection = .cta := by
    simp
  rw [words_narration_draft hbase, DraftSpoken, closingHeard]
  by_cases hplain : ∀ beat ∈ submission.spokenBeats, PlainLines t beat.text.text
  · have hnone : ¬ ∃ beat ∈ submission.spokenBeats, ¬ PlainLines t beat.text.text := by
      simpa using hplain
    rw [heard_beats_eq hplain, List.append_right_eq_self]
    have hclosing : (if submission.spokenBeats.any (·.beatSection = .cta) = true then []
          else heard t submission.callToAction.text) = [] ↔
        (∃ beat ∈ submission.spokenBeats, beat.beatSection = .cta)
          ∨ heard t submission.callToAction.text = [] := by
      rw [← hcta]
      split
      next h => exact iff_of_true rfl (.inl h)
      next h => exact ⟨.inr, fun hor => hor.resolve_left h⟩
    rw [hclosing]
    constructor
    · exact fun h => .inl ⟨hplain, h⟩
    · rintro (⟨-, h⟩ | ⟨h, -⟩)
      · exact h
      · exact absurd h hnone
  · have hsome : ∃ beat ∈ submission.spokenBeats, ¬ PlainLines t beat.text.text := by
      simpa using hplain
    split
    next h =>
        rw [List.append_nil]
        refine iff_of_false (heard_beats_ne hsome) ?_
        rintro (⟨hall, -⟩ | ⟨-, hno, -⟩)
        · exact hplain hall
        · obtain ⟨beat, hbeat, hsection⟩ := hcta.mp h
          exact hno beat hbeat hsection
    next h =>
        have hno : ∀ beat ∈ submission.spokenBeats, beat.beatSection ≠ .cta := by
          simpa using h
        constructor
        · exact fun heq => .inr ⟨hsome, hno, heq⟩
        · rintro (⟨hall, -⟩ | ⟨-, -, heq⟩)
          · exact absurd hall hplain
          · exact heq

end Drafts

section Budget
variable {runId : String} {languageRuntime : Option (ScriptPrompt → String)} {args : ScriptArgs}
  {result : CreativeContracts.ScriptResult m}

/-- What is narrated of a result is what its beats say, within the limits. -/
def KeepsBudget (t : CaseTables) (limits : SpokenLimits)
    (result : CreativeContracts.ScriptResult m) :
    Prop :=
  let spoken := words (narrationText t.toUnicodeTables result.script)
  spoken = beatWords result.scriptDraft.spokenBeats
    ∧ (∀ least ∈ limits.minSpokenWords, least ≤ (spoken.length : Int))
    ∧ ∀ most ∈ limits.maxSpokenWords, (spoken.length : Int) ≤ most

/-- The script of the tool is spoken as it was counted: the draft is, or the text it has
written. -/
def SpokenAsCounted (t : CaseTables) (m : StrictModel)
    (languageRuntime : Option (ScriptPrompt → String)) (args : ScriptArgs) : Prop :=
  match args.draft with
  | some draft => ∀ submission : ScriptSubmission m, draft.validate = .ok submission →
      DraftSpoken t submission
  | none => ∀ text, generatedScript languageRuntime args = .ok text → TextSpoken t text

theorem ok_of_mapError {α : Type} {x : Except ScriptError α} {a : α}
    (h : x.mapError ScriptToolError.contract = .ok a) : x = .ok a := by
  cases x with
  | error exc => exact absurd h (by simp [Except.mapError])
  | ok b => exact congrArg Except.ok (Except.ok.inj h)

/-- What the tool accepts was validated, and its script is the text or the rendered draft. -/
theorem writeScriptTool_ok
    (h : writeScriptTool t digest8 m runId languageRuntime args = .ok result) :
    ∃ submission script,
      submittedScript t m languageRuntime args = .ok (submission, script)
        ∧ validateScriptSubmission submission args.limits = .ok ()
        ∧ result.scriptDraft.toScriptSubmission = submission
        ∧ result.script = m.strip (script.getD result.scriptDraft.renderText) := by
  obtain ⟨⟨submission, script⟩, hsubmitted, h⟩ := ok_of_bind h
  obtain ⟨_, hlimits, h⟩ := ok_of_bind h
  refine ⟨submission, script, hsubmitted, ok_of_mapError hlimits, ?_⟩
  split at h
  next => exact absurd h (by simp [throw, throwThe, MonadExceptOf.throw, bind, Except.bind])
  next =>
      obtain ⟨materialized, hdraft, h⟩ := ok_of_bind h
      have hbase := (materializeScript_ok (ok_of_mapError hdraft)).1
      simp only at h
      split at h
      next =>
          rw [← Except.ok.inj h]
          exact ⟨hbase, rfl⟩
      next => exact absurd h (by simp [throw, throwThe, MonadExceptOf.throw])

/-- A text that is written gives the submission its beats. -/
theorem submittedScript_text (hdraft : args.draft = none)
    {submission : ScriptSubmission m} {script : Option String}
    (h : submittedScript t m languageRuntime args = .ok (submission, script)) :
    ∃ text, generatedScript languageRuntime args = .ok text ∧ script = some text
      ∧ ∃ beats, sectionsFromText t m text = .ok beats ∧ submission.spokenBeats = beats := by
  rw [submittedScript, hdraft] at h
  simp only at h
  split at h
  next => exact absurd h (by simp [throw, throwThe, MonadExceptOf.throw, bind, Except.bind])
  next =>
      obtain ⟨text, htext, h⟩ := ok_of_bind h
      obtain ⟨read, hread, h⟩ := ok_of_bind h
      obtain ⟨beats, hbeats, hvalid⟩ := ok_of_bind (ok_of_mapError hread)
      have hpair := Prod.mk.inj (Except.ok.inj h)
      refine ⟨text, htext, hpair.2.symm, beats, hbeats, ?_⟩
      rw [← hpair.1]
      exact (ScriptSubmission.validate_ok hvalid).1

theorem submittedScript_draft {draft : DraftInput} (hdraft : args.draft = some draft)
    {submission : ScriptSubmission m} {script : Option String}
    (h : submittedScript t m languageRuntime args = .ok (submission, script)) :
    draft.validate = .ok submission ∧ script = none := by
  rw [submittedScript, hdraft] at h
  obtain ⟨read, hread, h⟩ := ok_of_bind h
  have hpair := Prod.mk.inj (Except.ok.inj h)
  rw [← hpair.1, ← hpair.2]
  exact ⟨ok_of_mapError hread, rfl⟩

/-- The narration of an accepted script says the words of its beats, within the limits, exactly
where the script is spoken as it was counted. -/
theorem narration_keeps_budget_iff
    (h : writeScriptTool t digest8 m runId languageRuntime args = .ok result) :
    KeepsBudget t args.limits result ↔ SpokenAsCounted t m languageRuntime args := by
  obtain ⟨submission, script, hsubmitted, hlimits, hbase, hscript⟩ := writeScriptTool_ok h
  have hbeats : result.scriptDraft.spokenBeats = submission.spokenBeats := by
    rw [← hbase]
  have hwithin : KeepsBudget t args.limits result ↔
      words (narrationText t.toUnicodeTables (script.getD result.scriptDraft.renderText))
        = beatWords submission.spokenBeats := by
    rw [← narrationText_contract (m := m), ← hscript, ← hbeats]
    constructor
    · exact fun hkeeps => hkeeps.1
    · intro hwords
      refine ⟨hwords, ?_⟩
      rw [hwords, hbeats]
      exact within_limits submission args.limits hlimits
  rw [hwithin]
  cases hdraft : args.draft with
  | some draft =>
      obtain ⟨hvalid, rfl⟩ := submittedScript_draft hdraft hsubmitted
      refine (draft_spoken_iff hbase).trans ?_
      simp only [SpokenAsCounted, hdraft]
      constructor
      · intro hspoken other hother
        rwa [← Except.ok.inj (hvalid.symm.trans hother)]
      · exact fun hspoken => hspoken submission hvalid
  | none =>
      obtain ⟨text, htext, rfl, beats, hsections, hspoken⟩ := submittedScript_text hdraft hsubmitted
      rw [Option.getD_some, hspoken]
      refine (text_spoken_iff hsections).trans ?_
      simp only [SpokenAsCounted, hdraft]
      constructor
      · intro hspoken other hother
        rwa [← Except.ok.inj (htext.symm.trans hother)]
      · exact fun hspoken => hspoken text htext

/-- A hook with or without a call to action among its beats. -/
def sampleArgs (beats : List BeatInput) : ScriptArgs where
  concept := ⟨"concept-1", "", "Try this"⟩
  creatorRef := "creator"
  platform := "tiktok"
  limits := { minSpokenWords := some 1, maxSpokenWords := some 5 }
  draft := some ⟨beats, ["Creator to camera"], [], "See the offer", 4⟩

def sampleTool (beats : List BeatInput) :
    Except ScriptToolError (CreativeContracts.ScriptResult plainModel) :=
  writeScriptTool labelTables (fun _ => "") plainModel "run" none (sampleArgs beats)

theorem exists_accepted {beats : List BeatInput} (h : (sampleTool beats).toOption.isSome = true) :
    ∃ result, sampleTool beats = .ok result := by
  cases hresult : sampleTool beats with
  | ok result => exact ⟨result, rfl⟩
  | error exc =>
      rw [hresult] at h
      exact absurd h Bool.false_ne_true

/-- A draft whose beats hold the call to action is narrated as it was counted. -/
theorem narration_keeps_budget_with_cta :
    ∃ result, sampleTool [⟨"hook", "Try this", 1⟩, ⟨"cta", "See the offer", 1⟩] = .ok result
      ∧ KeepsBudget labelTables ⟨none, some 1, some 5⟩ result := by
  obtain ⟨result, hresult⟩ := @exists_accepted
    [⟨"hook", "Try this", 1⟩, ⟨"cta", "See the offer", 1⟩] (by decide +kernel)
  refine ⟨result, hresult, (narration_keeps_budget_iff hresult).mpr ?_⟩
  intro submission hvalid
  have hplain : ∀ submission ∈ (DraftInput.validate
        ⟨[⟨"hook", "Try this", 1⟩, ⟨"cta", "See the offer", 1⟩], ["Creator to camera"], [],
          "See the offer", 4⟩ : Except ScriptError (ScriptSubmission plainModel)).toOption,
      (∀ beat ∈ submission.spokenBeats, PlainLines labelTables beat.text.text)
        ∧ ∃ beat ∈ submission.spokenBeats, beat.beatSection = .cta := by
    decide +kernel
  obtain ⟨hbeats, hcta⟩ := hplain submission (by rw [hvalid]; rfl)
  exact .inl ⟨hbeats, .inl hcta⟩

/-- A call to action that is no beat is narrated and not counted. -/
theorem uncounted_call_to_action :
    ¬ ∀ (t : CaseTables) (digest8 : ByteArray → String) (m : StrictModel) (runId : String)
      (languageRuntime : Option (ScriptPrompt → String)) (args : ScriptArgs)
      (result : CreativeContracts.ScriptResult m),
      writeScriptTool t digest8 m runId languageRuntime args = .ok result →
        KeepsBudget t args.limits result := by
  intro h
  obtain ⟨result, hresult⟩ := @exists_accepted [⟨"hook", "Try this first", 1⟩] (by decide +kernel)
  have hkeeps := (h _ _ _ _ _ _ result hresult).1
  have hmore : ∀ result ∈ (sampleTool [⟨"hook", "Try this first", 1⟩]).toOption,
      words (narrationText labelTables.toUnicodeTables result.script)
        ≠ beatWords result.scriptDraft.spokenBeats := by
    decide +kernel
  exact hmore result (by rw [hresult]; rfl) hkeeps

end Budget

end Orchestrator
