import Orchestrator.Lib.Outcome
import Orchestrator.Lib.PyLines
import Orchestrator.Tools.EffectKeys

/-!
The contracts of a script: its beats, its draft, the text a draft is rendered to
and the reader that mirrors such a text into a draft.

A text of a contract is kept without the space around it and within its bounds,
so a draft that a contract admitted holds nothing else. Which characters the
contracts strip is theirs; they strip no more than `str.strip` does.
-/

namespace Orchestrator
open Outcome

/-- `StrictModel`: every text is stripped before its length is checked. -/
structure StrictModel where
  trims : Char → Bool
  trims_space : ∀ c, trims c = true → PyStr.isSpace c = true

namespace StrictModel
variable {m : StrictModel} {s : String}

def strip (m : StrictModel) (s : String) : String := String.ofList (PyStr.trim m.trims s.toList)

theorem strip_strip : m.strip (m.strip s) = m.strip s := by
  rw [strip, strip, String.toList_ofList, PyStr.trim_trim]

theorem strip_of_stripped (h : PyStr.strip s = s) : m.strip s = s := by
  have htrim : PyStr.trim PyStr.isSpace s.toList = s.toList := by
    rw [← PyStr.toList_strip, h]
  rw [strip, PyStr.trim_eq_self_of_imp m.trims_space htrim, String.ofList_toList]

end StrictModel

/-- What the readers of scripts raise. -/
inductive ScriptError where
  | valueError (text : String)
  | validationError (model : String) (fields : List String)
  deriving DecidableEq

/-- A text that a `StrictModel` admitted at a field of `lo` to `hi` characters. -/
structure TextField (m : StrictModel) (lo hi : Nat) where
  text : String
  stripped : m.strip text = text
  bounds : lo ≤ text.length ∧ text.length ≤ hi

namespace TextField
variable {m : StrictModel} {lo hi : Nat} {s : String} {field : TextField m lo hi}

def ofInput? (s : String) : Option (TextField m lo hi) :=
  if h : lo ≤ (m.strip s).length ∧ (m.strip s).length ≤ hi then
    some ⟨m.strip s, StrictModel.strip_strip, h⟩
  else none

theorem text_of_ofInput? (h : ofInput? s = some field) : field.text = m.strip s := by
  rw [ofInput?] at h
  split at h
  next => exact (congrArg text (Option.some.inj h)).symm
  next => exact absurd h (by simp)

theorem exists_ofInput?_iff :
    (∃ field : TextField m lo hi, ofInput? s = some field) ↔
      lo ≤ (m.strip s).length ∧ (m.strip s).length ≤ hi := by
  rw [ofInput?]
  split <;> simp_all

/-- An admitted text is admitted again as it is. -/
theorem ofInput?_text (field : TextField m lo hi) : ofInput? field.text = some field := by
  have hstripped := field.stripped
  rw [ofInput?, dif_pos (by rw [hstripped]; exact field.bounds)]
  cases field
  simp only [Option.some.injEq, mk.injEq]
  exact hstripped

end TextField

/-- The names of the fields whose check fails. -/
def failedFields (checks : List (String × Bool)) : List String :=
  (checks.filter (!·.2)).map (·.1)

inductive BeatSection where
  | hook | body | cta
  deriving DecidableEq, Repr

namespace BeatSection

def text : BeatSection → String
  | .hook => "hook"
  | .body => "body"
  | .cta => "cta"

/-- `section.upper()`. -/
def label : BeatSection → String
  | .hook => "HOOK"
  | .body => "BODY"
  | .cta => "CTA"

def ofText? (s : String) : Option BeatSection :=
  if s = "hook" then some .hook
  else if s = "body" then some .body
  else if s = "cta" then some .cta
  else none

@[simp] theorem ofText?_text (b : BeatSection) : ofText? b.text = some b := by
  cases b <;> rfl

theorem ofText?_eq_some_iff {s : String} {b : BeatSection} : ofText? s = some b ↔ s = b.text := by
  constructor
  · intro h
    simp only [ofText?] at h
    split at h
    next hs => rw [← Option.some.inj h, hs]; rfl
    next =>
        split at h
        next hs => rw [← Option.some.inj h, hs]; rfl
        next =>
            split at h
            next hs => rw [← Option.some.inj h, hs]; rfl
            next => exact absurd h (by simp)
  · rintro rfl
    exact ofText?_text b

end BeatSection

/-- A letter in lower case, where lower case is a letter of a label: the Kelvin sign is the only
one beside the ASCII letters. -/
def foldLetter (c : Char) : Char := if c = '\u212a' then 'k' else PyStr.lowerChar c

def foldLabel (s : String) : String := String.ofList (s.toList.map foldLetter)

/-- What `lower` and `casefold` make of a text is a label exactly where its letters
are those of the label. -/
structure CaseTables extends UnicodeTables where
  lower : String → String
  isDecimal : Char → Bool
  lower_label : ∀ s, ∀ b : BeatSection, lower s = b.text ↔ foldLabel s = b.text
  casefold_label : ∀ s, ∀ b : BeatSection, casefold s = b.text ↔ foldLabel s = b.text

structure SpokenBeat (m : StrictModel) where
  beatSection : BeatSection
  text : TextField m 1 2000
  seconds : Nat
  seconds_bounds : 1 ≤ seconds ∧ seconds ≤ 120

/-- The section and the text of a beat. -/
def SpokenBeat.copy {m : StrictModel} (beat : SpokenBeat m) : BeatSection × String :=
  (beat.beatSection, beat.text.text)

def SpokenBeat.validate {m : StrictModel} (b : BeatSection) (text : String) (seconds : Nat) :
    Except ScriptError (SpokenBeat m) :=
  let field : Option (TextField m 1 2000) := TextField.ofInput? text
  match field with
  | some admitted =>
      if h : 1 ≤ seconds ∧ seconds ≤ 120 then .ok ⟨b, admitted, seconds, h⟩
      else .error (.validationError "SpokenBeat" ["seconds"])
  | none => .error (.validationError "SpokenBeat"
      ("text" :: failedFields [("seconds", 1 ≤ seconds ∧ seconds ≤ 120)]))

structure ScriptSubmission (m : StrictModel) where
  spokenBeats : List (SpokenBeat m)
  visualBeats : List String
  onScreenText : List String
  callToAction : TextField m 1 500
  estimatedDuration : Nat
  beats_bounds : 1 ≤ spokenBeats.length ∧ spokenBeats.length ≤ 20
  visual_bounds : 1 ≤ visualBeats.length ∧ visualBeats.length ≤ 20
  screen_bounds : onScreenText.length ≤ 20
  duration_bounds : 1 ≤ estimatedDuration ∧ estimatedDuration ≤ 180

def ScriptSubmission.validate {m : StrictModel} (spokenBeats : List (SpokenBeat m))
    (visualBeats onScreenText : List String) (callToAction : String) (estimatedDuration : Nat) :
    Except ScriptError (ScriptSubmission m) :=
  let field : Option (TextField m 1 500) := TextField.ofInput? callToAction
  let failed := failedFields [
    ("spoken_beats", 1 ≤ spokenBeats.length ∧ spokenBeats.length ≤ 20),
    ("visual_beats", 1 ≤ visualBeats.length ∧ visualBeats.length ≤ 20),
    ("on_screen_text", onScreenText.length ≤ 20),
    ("call_to_action", field.isSome),
    ("estimated_duration", 1 ≤ estimatedDuration ∧ estimatedDuration ≤ 180)]
  match field with
  | none => .error (.validationError "ScriptSubmission" failed)
  | some admitted =>
      if h : (1 ≤ spokenBeats.length ∧ spokenBeats.length ≤ 20)
          ∧ (1 ≤ visualBeats.length ∧ visualBeats.length ≤ 20) ∧ onScreenText.length ≤ 20
          ∧ (1 ≤ estimatedDuration ∧ estimatedDuration ≤ 180) then
        .ok ⟨spokenBeats, visualBeats.map m.strip, onScreenText.map m.strip, admitted,
          estimatedDuration, h.1, by simpa using h.2.1, by simpa using h.2.2.1, h.2.2.2⟩
      else .error (.validationError "ScriptSubmission" failed)

structure ScriptDraft (m : StrictModel) extends ScriptSubmission m where
  id : TextField m 1 200
  conceptId : TextField m 1 200

/-- The lines of `ScriptDraft.render_text`. -/
def ScriptDraft.lines {m : StrictModel} (draft : ScriptDraft m) : List String :=
  draft.spokenBeats.map (fun beat => beat.beatSection.label ++ ": " ++ beat.text.text)
    ++ if draft.spokenBeats.any (·.beatSection = .cta) then []
      else ["CTA: " ++ draft.callToAction.text]

def ScriptDraft.renderText {m : StrictModel} (draft : ScriptDraft m) : String :=
  "\n".intercalate draft.lines

structure CreativeContracts.ScriptResult (m : StrictModel) where
  script : String
  scriptDraft : ScriptDraft m
  script_valid : m.strip script = script ∧ 1 ≤ script.length

section Reader
variable (t : CaseTables) (digest8 : ByteArray → String) (m : StrictModel)

/-- `_id_suffix`: the decimals that end the text, a final newline apart, or the first eight
digits of its hash. -/
def idSuffix (value : String) : String :=
  let tail := if value.toList.getLast? = some '\n' then value.toList.dropLast else value.toList
  let digits := tail.rtakeWhile t.isDecimal
  if digits = [] then digest8 value.toUTF8
  else String.ofList (List.replicate (2 - digits.length) '0' ++ digits)

def scriptId (runId conceptId : String) : String :=
  runId ++ "-script-" ++ idSuffix t digest8 conceptId

/-- `materialize_script`: the fields of a submission are admitted again as they are. -/
def materializeScript {m : StrictModel} (submission : ScriptSubmission m)
    (runId conceptId : String) :
    Except ScriptError (ScriptDraft m) :=
  let id : Option (TextField m 1 200) := TextField.ofInput? (scriptId t digest8 runId conceptId)
  let concept : Option (TextField m 1 200) := TextField.ofInput? conceptId
  match id, concept with
  | some id, some conceptId => .ok { submission with id, conceptId }
  | id, concept => .error (.validationError "ScriptDraft"
      (failedFields [("id", id.isSome), ("concept_id", concept.isSome)]))

/-- What a line says, without what stands before its first colon. -/
def spokenLine (line : String) : String :=
  if ':' ∈ line.toList then PyStr.strip (PyStr.partitionTail ':' line) else PyStr.strip line

def lineSection (line : String) : BeatSection :=
  (BeatSection.ofText? (t.lower (PyStr.strip (PyStr.partitionHead ':' line)))).getD .body

/-- The section and the text of a line that says something. -/
def readLine (line : String) : Option (BeatSection × String) :=
  if spokenLine line = "" then none else some (lineSection t line, spokenLine line)

/-- `max(1, min(120, round(len(spoken.split()) / 2.5)))`; the quotient is never halfway. -/
def beatSeconds (spoken : String) : Nat :=
  max 1 (min 120 ((4 * PyStr.wordCount spoken + 5) / 10))

/-- The beats of a text: one for each line that says something, or the text. -/
def readBeats (normalized : String) : Except ScriptError (List (SpokenBeat m)) :=
  match (PyStr.splitLines normalized).filterMap (readLine t) with
  | [] => do return [← SpokenBeat.validate .body normalized 1]
  | read => read.mapM fun (b, spoken) => SpokenBeat.validate b spoken (beatSeconds spoken)

/-- The text of the last beat with the section `cta`, or of the last beat. -/
def closingText {m : StrictModel} (beats : List (SpokenBeat m)) : String :=
  match beats.reverse.find? (·.beatSection = .cta) with
  | some beat => beat.text.text
  | none => (beats.getLast?.map fun beat => beat.text.text).getD ""

def scriptResultFromText (text runId conceptId : String) :
    Except ScriptError (CreativeContracts.ScriptResult m) := do
  let normalized := PyStr.strip text
  if normalized = "" then throw (.valueError "script text must not be blank")
  let beats ← readBeats t m normalized
  let submission ← ScriptSubmission.validate beats
    ["Follow the approved concept and creator direction."] [] (closingText beats)
    (min 180 (beats.map (·.seconds)).sum)
  let scriptDraft ← materializeScript t digest8 submission runId conceptId
  if h : m.strip (m.strip normalized) = m.strip normalized ∧ 1 ≤ (m.strip normalized).length then
    return ⟨m.strip normalized, scriptDraft, h⟩
  else throw (.validationError "ScriptResult" ["script"])

end Reader

section Admission
variable {m : StrictModel} {t : CaseTables} {digest8 : ByteArray → String}
  {text runId conceptId normalized : String} {b : BeatSection} {seconds : Nat}

theorem SpokenBeat.validate_ok {beat : SpokenBeat m}
    (h : SpokenBeat.validate b text seconds = .ok beat) : beat.copy = (b, m.strip text) := by
  simp only [SpokenBeat.validate] at h
  split at h
  next admitted hadmitted =>
      split at h
      next => rw [← Except.ok.inj h, SpokenBeat.copy, TextField.text_of_ofInput? hadmitted]
      next => exact absurd h (by simp)
  next => exact absurd h (by simp)

theorem SpokenBeat.exists_validate (hseconds : 1 ≤ seconds ∧ seconds ≤ 120)
    (h : 1 ≤ (m.strip text).length ∧ (m.strip text).length ≤ 2000) :
    ∃ beat : SpokenBeat m, SpokenBeat.validate b text seconds = .ok beat := by
  obtain ⟨admitted, hadmitted⟩ := TextField.exists_ofInput?_iff.mpr h
  simp [SpokenBeat.validate, hadmitted, hseconds]

theorem ScriptSubmission.validate_ok {beats : List (SpokenBeat m)} {visual screen : List String}
    {callToAction : String} {duration : Nat} {submission : ScriptSubmission m}
    (h : ScriptSubmission.validate beats visual screen callToAction duration = .ok submission) :
    submission.spokenBeats = beats ∧ submission.callToAction.text = m.strip callToAction := by
  simp only [ScriptSubmission.validate] at h
  split at h
  next => exact absurd h (by simp)
  next admitted hadmitted =>
      split at h
      next =>
          rw [← Except.ok.inj h]
          exact ⟨rfl, TextField.text_of_ofInput? hadmitted⟩
      next => exact absurd h (by simp)

theorem ScriptSubmission.exists_validate {beats : List (SpokenBeat m)} {visual screen : List String}
    {callToAction : String} {duration : Nat}
    (hbeats : 1 ≤ beats.length ∧ beats.length ≤ 20)
    (hvisual : 1 ≤ visual.length ∧ visual.length ≤ 20) (hscreen : screen.length ≤ 20)
    (hcta : 1 ≤ (m.strip callToAction).length ∧ (m.strip callToAction).length ≤ 500)
    (hduration : 1 ≤ duration ∧ duration ≤ 180) :
    ∃ submission : ScriptSubmission m,
      ScriptSubmission.validate beats visual screen callToAction duration = .ok submission := by
  obtain ⟨admitted, hadmitted⟩ := TextField.exists_ofInput?_iff.mpr hcta
  simp [ScriptSubmission.validate, hadmitted, hbeats, hvisual, hscreen, hduration]

/-- The ids that make the id of a draft. -/
def IdsAdmitted (t : CaseTables) (digest8 : ByteArray → String) (m : StrictModel)
    (runId conceptId : String) : Prop :=
  (1 ≤ (m.strip (scriptId t digest8 runId conceptId)).length
    ∧ (m.strip (scriptId t digest8 runId conceptId)).length ≤ 200)
  ∧ 1 ≤ (m.strip conceptId).length ∧ (m.strip conceptId).length ≤ 200

theorem materializeScript_ok {submission : ScriptSubmission m} {draft : ScriptDraft m}
    (h : materializeScript t digest8 submission runId conceptId = .ok draft) :
    draft.toScriptSubmission = submission ∧ IdsAdmitted t digest8 m runId conceptId := by
  simp only [materializeScript] at h
  split at h
  next id concept hid hconcept =>
      rw [← Except.ok.inj h]
      exact ⟨rfl, TextField.exists_ofInput?_iff.mp ⟨id, hid⟩,
        TextField.exists_ofInput?_iff.mp ⟨concept, hconcept⟩⟩
  next => exact absurd h (by simp)

theorem exists_materializeScript (submission : ScriptSubmission m)
    (h : IdsAdmitted t digest8 m runId conceptId) :
    ∃ draft, materializeScript t digest8 submission runId conceptId = .ok draft := by
  obtain ⟨id, hid⟩ := TextField.exists_ofInput?_iff.mpr h.1
  obtain ⟨concept, hconcept⟩ := TextField.exists_ofInput?_iff.mpr h.2
  simp [materializeScript, hid, hconcept]

/-- The sections and texts that the reader takes from a text. -/
def copyRead (t : CaseTables) (normalized : String) : List (BeatSection × String) :=
  match (PyStr.splitLines normalized).filterMap (readLine t) with
  | [] => [(.body, normalized)]
  | read => read

/-- The call to action of beats with these sections and texts. -/
def closingCopy (copy : List (BeatSection × String)) : String :=
  match copy.reverse.find? (·.1 = .cta) with
  | some p => p.2
  | none => (copy.getLast?.map (·.2)).getD ""

theorem closingText_eq (beats : List (SpokenBeat m)) :
    closingText beats = closingCopy (beats.map (·.copy)) := by
  have hfind : (beats.map (·.copy)).reverse.find? (·.1 = .cta)
      = (beats.reverse.find? (·.beatSection = .cta)).map (·.copy) := by
    rw [← List.map_reverse, List.find?_map]
    rfl
  rw [closingText, closingCopy, hfind, List.getLast?_map, Option.map_map]
  cases beats.reverse.find? (·.beatSection = .cta) <;> rfl

/-- A text of some beat closes the script. -/
theorem closingText_mem {beats : List (SpokenBeat m)} (hne : beats ≠ []) :
    ∃ beat ∈ beats, closingText beats = beat.text.text := by
  rw [closingText]
  cases hfind : beats.reverse.find? (·.beatSection = .cta) with
  | some beat => exact ⟨beat, List.mem_reverse.mp (List.mem_of_find?_eq_some hfind), rfl⟩
  | none =>
      refine ⟨beats.getLast hne, List.getLast_mem hne, ?_⟩
      rw [List.getLast?_eq_some_getLast hne]
      rfl

theorem spokenLine_stripped (line : String) : PyStr.strip (spokenLine line) = spokenLine line := by
  rw [spokenLine]
  split <;> exact PyStr.strip_strip _

theorem readLine_stripped {line : String} {p : BeatSection × String}
    (h : readLine t line = some p) : PyStr.strip p.2 = p.2 ∧ p.2 ≠ "" := by
  rw [readLine] at h
  split at h
  next => exact absurd h (by simp)
  next hne =>
      rw [← Option.some.inj h]
      exact ⟨spokenLine_stripped line, hne⟩

/-- What is read from a stripped text is stripped. -/
theorem copyRead_stripped (hstripped : PyStr.strip normalized = normalized) (hne : normalized ≠ "")
    {p : BeatSection × String} (h : p ∈ copyRead t normalized) :
    PyStr.strip p.2 = p.2 ∧ p.2 ≠ "" := by
  rw [copyRead] at h
  split at h
  next =>
      rw [List.mem_singleton.mp h]
      exact ⟨hstripped, hne⟩
  next =>
      obtain ⟨line, -, hline⟩ := List.mem_filterMap.mp h
      exact readLine_stripped hline

theorem one_le_length {s : String} (h : s ≠ "") : 1 ≤ s.length := by
  exact Nat.one_le_iff_ne_zero.mpr fun hzero => h (String.length_eq_zero_iff.mp hzero)

theorem beatSeconds_bounds (spoken : String) :
    1 ≤ beatSeconds spoken ∧ beatSeconds spoken ≤ 120 := by
  rw [beatSeconds]
  omega

/-- The beats are made from what is read one by one. -/
theorem readBeats_eq (t : CaseTables) (m : StrictModel) (normalized : String) :
    ∃ seconds : String → Nat, (∀ s, 1 ≤ seconds s ∧ seconds s ≤ 120) ∧
      readBeats t m normalized = (copyRead t normalized).mapM fun p =>
        (SpokenBeat.validate p.1 p.2 (seconds p.2) : Except ScriptError (SpokenBeat m)) := by
  rw [readBeats, copyRead]
  split
  next => exact ⟨fun _ => 1, fun _ => ⟨Nat.le_refl 1, Nat.le_of_ble_eq_true rfl⟩, rfl⟩
  next => exact ⟨beatSeconds, beatSeconds_bounds, rfl⟩

theorem readBeats_ok {beats : List (SpokenBeat m)}
    (hstripped : PyStr.strip normalized = normalized) (hne : normalized ≠ "")
    (h : readBeats t m normalized = .ok beats) : beats.map (·.copy) = copyRead t normalized := by
  obtain ⟨seconds, -, hread⟩ := readBeats_eq t m normalized
  rw [hread] at h
  have hmade := forall₂_of_mapM h
  have hcopies : beats.map (·.copy) = (copyRead t normalized).map fun p => (p.1, m.strip p.2) :=
    map_eq_of_forall₂ (fun p beat hbeat => SpokenBeat.validate_ok hbeat) hmade
  rw [hcopies]
  refine (List.map_congr_left fun p hp => ?_).trans (List.map_id _)
  rw [StrictModel.strip_of_stripped (copyRead_stripped hstripped hne hp).1]
  rfl

theorem exists_readBeats (hstripped : PyStr.strip normalized = normalized) (hne : normalized ≠ "")
    (h : ∀ p ∈ copyRead t normalized, p.2.length ≤ 2000) :
    ∃ beats, readBeats t m normalized = .ok beats := by
  obtain ⟨seconds, hseconds, hread⟩ := readBeats_eq t m normalized
  rw [hread]
  refine mapM_ok_of_forall fun p hp => SpokenBeat.exists_validate (hseconds p.2) ?_
  obtain ⟨htrimmed, hnonempty⟩ := copyRead_stripped hstripped hne hp
  rw [StrictModel.strip_of_stripped htrimmed]
  exact ⟨one_le_length hnonempty, h p hp⟩

/-- Beats that the contracts admit. -/
structure CopyAdmitted (copy : List (BeatSection × String)) : Prop where
  count : copy.length ≤ 20
  texts : ∀ p ∈ copy, p.2.length ≤ 2000
  closing : (closingCopy copy).length ≤ 500

theorem copyRead_ne_nil (normalized : String) : copyRead t normalized ≠ [] := by
  rw [copyRead]
  split <;> simp_all

theorem ne_nil_of_readBeats {beats : List (SpokenBeat m)}
    (hcopy : beats.map (·.copy) = copyRead t normalized) : beats ≠ [] := by
  rintro rfl
  exact copyRead_ne_nil _ hcopy.symm

/-- The contract of a submission bounds what is read. -/
theorem copyAdmitted_of_validate {beats : List (SpokenBeat m)} {visual screen : List String}
    {duration : Nat} {submission : ScriptSubmission m} (hne : beats ≠ [])
    (h : ScriptSubmission.validate beats visual screen (closingText beats) duration =
      .ok submission) : CopyAdmitted (beats.map (·.copy)) := by
  obtain ⟨hspoken, hcta⟩ := ScriptSubmission.validate_ok h
  refine ⟨?_, ?_, ?_⟩
  · rw [List.length_map, ← hspoken]
    exact submission.beats_bounds.2
  · intro p hp
    obtain ⟨beat, -, rfl⟩ := List.mem_map.mp hp
    exact beat.text.bounds.2
  · obtain ⟨beat, -, hclosing⟩ := closingText_mem hne
    rw [← closingText_eq, hclosing, ← beat.text.stripped, ← hclosing, ← hcta]
    exact submission.callToAction.bounds.2

theorem exists_submission {beats : List (SpokenBeat m)} (hne : beats ≠ [])
    (h : CopyAdmitted (beats.map (·.copy))) : ∃ submission : ScriptSubmission m,
      ScriptSubmission.validate beats ["Follow the approved concept and creator direction."] []
        (closingText beats) (min 180 (beats.map (·.seconds)).sum) = .ok submission := by
  obtain ⟨closing, -, hclosing⟩ := closingText_mem hne
  have hcta : 1 ≤ (m.strip (closingText beats)).length
      ∧ (m.strip (closingText beats)).length ≤ 500 := by
    rw [hclosing, closing.text.stripped]
    refine ⟨closing.text.bounds.1, ?_⟩
    rw [← hclosing, closingText_eq]
    exact h.closing
  have hcount : 1 ≤ beats.length ∧ beats.length ≤ 20 := by
    refine ⟨List.length_pos_iff.mpr hne, ?_⟩
    rw [← List.length_map (·.copy)]
    exact h.count
  have hduration : 1 ≤ min 180 (beats.map (·.seconds)).sum
      ∧ min 180 (beats.map (·.seconds)).sum ≤ 180 := by
    obtain ⟨first, rest, rfl⟩ := List.exists_cons_of_ne_nil hne
    have hfirst := first.seconds_bounds
    rw [List.map_cons, List.sum_cons]
    omega
  exact ScriptSubmission.exists_validate hcount
    (show 1 ≤ ["Follow the approved concept and creator direction."].length
      ∧ ["Follow the approved concept and creator direction."].length ≤ 20 by decide)
    (show ([] : List String).length ≤ 20 by decide) hcta hduration

theorem scriptResultFromText_ok {result : CreativeContracts.ScriptResult m}
    (h : scriptResultFromText t digest8 m text runId conceptId = .ok result) :
    PyStr.strip text ≠ "" ∧
      copyRead t (PyStr.strip text) = result.scriptDraft.spokenBeats.map (·.copy) ∧
      CopyAdmitted (result.scriptDraft.spokenBeats.map (·.copy)) ∧
      IdsAdmitted t digest8 m runId conceptId := by
  by_cases hne : PyStr.strip text = ""
  · rw [scriptResultFromText, if_pos hne] at h
    exact absurd h (by simp [throw, throwThe, MonadExceptOf.throw, bind, Except.bind])
  · rw [scriptResultFromText, if_neg hne] at h
    obtain ⟨beats, hbeats, hrest⟩ := ok_of_bind h
    obtain ⟨submission, hsubmission, hrest⟩ := ok_of_bind hrest
    obtain ⟨draft, hdraft, hrest⟩ := ok_of_bind hrest
    obtain ⟨hbase, hids⟩ := materializeScript_ok hdraft
    have hresultDraft : result.scriptDraft.spokenBeats = beats := by
      rw [← (ScriptSubmission.validate_ok hsubmission).1, ← hbase]
      split at hrest
      next => rw [← Except.ok.inj hrest]
      next => exact absurd hrest (by simp [throw, throwThe, MonadExceptOf.throw])
    have hcopy := readBeats_ok (PyStr.strip_strip text) hne hbeats
    rw [hresultDraft]
    exact ⟨hne, hcopy.symm, copyAdmitted_of_validate (ne_nil_of_readBeats hcopy) hsubmission, hids⟩

theorem exists_scriptResultFromText (hne : PyStr.strip text ≠ "")
    (hadmitted : CopyAdmitted (copyRead t (PyStr.strip text)))
    (hids : IdsAdmitted t digest8 m runId conceptId) :
    ∃ result : CreativeContracts.ScriptResult m,
      scriptResultFromText t digest8 m text runId conceptId = .ok result ∧
        result.scriptDraft.spokenBeats.map (·.copy) = copyRead t (PyStr.strip text) := by
  have hstripped := PyStr.strip_strip text
  obtain ⟨beats, hbeats⟩ := exists_readBeats (m := m) hstripped hne hadmitted.texts
  have hcopy := readBeats_ok hstripped hne hbeats
  obtain ⟨submission, hsubmission⟩ :=
    exists_submission (ne_nil_of_readBeats hcopy) (hcopy ▸ hadmitted)
  obtain ⟨draft, hdraft⟩ := exists_materializeScript submission hids
  have hscript : m.strip (m.strip (PyStr.strip text)) = m.strip (PyStr.strip text)
      ∧ 1 ≤ (m.strip (PyStr.strip text)).length := by
    refine ⟨StrictModel.strip_strip, ?_⟩
    rw [StrictModel.strip_of_stripped hstripped]
    exact one_le_length hne
  refine ⟨⟨m.strip (PyStr.strip text), draft, hscript⟩, ?_, ?_⟩
  · rw [scriptResultFromText, if_neg hne]
    simp only [hbeats, ok_bind, hsubmission, hdraft, dif_pos hscript, pure_eq]
  · rw [(materializeScript_ok hdraft).1, (ScriptSubmission.validate_ok hsubmission).1]
    exact hcopy

/-- The reader succeeds with some beats exactly where they are what it takes from a text that
is not blank, and the contracts admit them and the ids. -/
theorem scriptResultFromText_iff {copy : List (BeatSection × String)} :
    (∃ result : CreativeContracts.ScriptResult m,
      scriptResultFromText t digest8 m text runId conceptId = .ok result
        ∧ result.scriptDraft.spokenBeats.map (·.copy) = copy) ↔
    PyStr.strip text ≠ "" ∧ copyRead t (PyStr.strip text) = copy ∧ CopyAdmitted copy
      ∧ IdsAdmitted t digest8 m runId conceptId := by
  constructor
  · rintro ⟨result, hresult, rfl⟩
    exact scriptResultFromText_ok hresult
  · rintro ⟨hne, rfl, hadmitted, hids⟩
    exact exists_scriptResultFromText hne hadmitted hids

end Admission

end Orchestrator
