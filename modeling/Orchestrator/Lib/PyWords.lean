import Orchestrator.Lib.PyLines

/-!
The words of a text, as `str.split` finds them, over its lines.

A line break is space, so the words of a text are those of its lines in order,
and a text read line by line says other words than it holds exactly where the
reading of some line does, if no reading adds letters.
-/

namespace PyStr

section Words
variable {c : Char} {cs front back current : List Char} {s : String}

/-- The words of a list of characters. -/
def wordsOf (cs : List Char) : List String :=
  ((cs.splitOnP isSpace).filter (· ≠ [])).map String.ofList

/-- `s.split()`. -/
def words (s : String) : List String := wordsOf s.toList

@[simp] theorem wordsOf_nil : wordsOf [] = [] := by
  simp [wordsOf, List.splitOnP_nil]

@[simp] theorem words_empty : words "" = [] := wordsOf_nil

/-- Words end at a space. -/
theorem wordsOf_append_cons (h : isSpace c = true) :
    wordsOf (front ++ c :: back) = wordsOf front ++ wordsOf back := by
  rw [wordsOf, List.splitOnP_append_cons front back h, List.filter_append, List.map_append]
  rfl

theorem wordsOf_cons (h : isSpace c = true) : wordsOf (c :: back) = wordsOf back := by
  have hsplit := @wordsOf_append_cons c [] back h
  rwa [List.nil_append, wordsOf_nil, List.nil_append] at hsplit

theorem wordsOf_dropWhile (cs : List Char) : wordsOf (cs.dropWhile isSpace) = wordsOf cs := by
  induction cs with
  | nil => rfl
  | cons c cs ih =>
      cases hc : isSpace c with
      | true => rw [List.dropWhile_cons_of_pos hc, ih, wordsOf_cons hc]
      | false => rw [List.dropWhile_cons_of_neg (by simp [hc])]

theorem wordsOf_rdropWhile (cs : List Char) : wordsOf (cs.rdropWhile isSpace) = wordsOf cs := by
  induction cs using List.reverseRecOn with
  | nil => rfl
  | append_singleton cs c ih =>
      cases hc : isSpace c with
      | true =>
          rw [List.rdropWhile_concat_pos _ _ _ hc, ih, wordsOf_append_cons hc, wordsOf_nil,
            List.append_nil]
      | false => rw [List.rdropWhile_concat_neg _ _ _ (by simp [hc])]

@[simp] theorem words_strip (s : String) : words (strip s) = words s := by
  rw [words, toList_strip, trim, wordsOf_rdropWhile, wordsOf_dropWhile, words]

/-- How many characters of a text are no space. -/
def letters (s : String) : Nat := (s.toList.filter (fun c => !isSpace c)).length

theorem flatten_splitOnP (cs : List Char) :
    (cs.splitOnP isSpace).flatten = cs.filter (fun c => !isSpace c) := by
  induction cs with
  | nil => rfl
  | cons c cs ih =>
      rw [List.splitOnP_cons_eq_if_modifyHead]
      cases hc : isSpace c with
      | true => simpa [hc] using ih
      | false =>
          obtain ⟨first, rest, hsplit⟩ :=
            List.exists_cons_of_ne_nil (List.splitOnP_ne_nil isSpace cs)
          rw [hsplit] at ih
          simpa [hc, hsplit] using ih

/-- The letters of some words. -/
def lettersOf (ws : List String) : Nat := (ws.map String.length).sum

theorem lettersOf_append (ws vs : List String) :
    lettersOf (ws ++ vs) = lettersOf ws + lettersOf vs := by
  rw [lettersOf, List.map_append, List.sum_append, ← lettersOf, ← lettersOf]

theorem lettersOf_words (s : String) : lettersOf (words s) = letters s := by
  have hlength : ∀ split : List (List Char),
      ((split.filter (· ≠ [])).map fun w => (String.ofList w).length).sum =
      split.flatten.length := by
    intro split
    induction split with
    | nil => rfl
    | cons w split ih =>
        cases w with
        | nil => simpa using ih
        | cons c w =>
            rw [List.filter_cons_of_pos (by simp), List.map_cons, List.sum_cons, ih,
              String.length_ofList, List.flatten_cons, List.length_append]
  rw [lettersOf, words, wordsOf, List.map_map, letters, ← flatten_splitOnP, ← hlength]
  rfl

@[simp] theorem letters_strip (s : String) : letters (strip s) = letters s := by
  rw [← lettersOf_words, words_strip, lettersOf_words]

theorem letters_eq_zero_iff : letters s = 0 ↔ strip s = "" := by
  constructor
  · intro h
    rw [← letters_strip] at h
    by_contra hne
    have hlist : (strip s).toList ≠ [] := by simpa using hne
    have hfirst := (strip_eq_self_iff.mp (strip_strip s)).1 _ (List.head?_eq_some_head hlist)
    have hmem : (strip s).toList.head hlist
        ∈ (strip s).toList.filter (fun c => !isSpace c) :=
      List.mem_filter.mpr ⟨List.head_mem hlist, by rw [hfirst]; rfl⟩
    rw [List.length_eq_zero_iff.mp h] at hmem
    exact absurd hmem List.not_mem_nil
  · intro h
    rw [← letters_strip, h]
    rfl

/-- A text has no words where it is blank. -/
theorem words_eq_nil_iff : words s = [] ↔ strip s = "" := by
  constructor
  · intro h
    rw [← letters_eq_zero_iff, ← lettersOf_words, h]
    rfl
  · intro h
    rw [← words_strip, h, words_empty]

end Words

section Lines
variable {c : Char} {cs current : List Char}

theorem space_of_lineBreak (h : isLineBreak c = true) : isSpace c = true := by
  simp only [isLineBreak, Bool.or_eq_true, Bool.and_eq_true, decide_eq_true_eq, beq_iff_eq] at h
  simp only [isSpace, Bool.or_eq_true, Bool.and_eq_true, decide_eq_true_eq, beq_iff_eq]
  omega

/-- The words of the lines are those of the text. -/
theorem words_linesFrom : (linesFrom cs current).flatMap words =
    wordsOf (current.reverse ++ cs) := by
  induction cs generalizing current with
  | nil =>
      cases current with
      | nil => rfl
      | cons c current => simp [linesFrom, words]
  | cons c cs ih =>
      rw [linesFrom]
      split
      next hcr =>
          obtain ⟨rest, rfl⟩ : ∃ rest, cs = '\n' :: rest := by
            cases cs with
            | nil => exact absurd hcr.2 (by simp)
            | cons d rest => exact ⟨rest, by rw [Option.some.inj hcr.2]⟩
          rw [ih, hcr.1, wordsOf_append_cons (by decide), wordsOf_append_cons (by decide),
            wordsOf_cons (by decide)]
      next =>
          split
          next hbreak =>
              rw [List.flatMap_cons, ih, wordsOf_append_cons (space_of_lineBreak hbreak), words,
                String.toList_ofList, List.reverse_nil, List.nil_append]
          next => rw [ih, List.reverse_cons, List.append_assoc, List.singleton_append]

theorem words_splitLines (s : String) : (splitLines s).flatMap words = words s := words_linesFrom

theorem words_join (texts : List String) :
    words (" ".intercalate texts) = texts.flatMap words := by
  induction texts with
  | nil => rfl
  | cons first rest ih =>
      cases rest with
      | nil => rw [String.intercalate_singleton, List.flatMap_singleton]
      | cons second rest =>
          rw [String.intercalate_cons_cons, words, String.toList_append, String.toList_append,
            List.append_assoc, show " ".toList = [' '] from rfl, List.singleton_append,
            wordsOf_append_cons (by decide), List.flatMap_cons, ← ih]
          rfl

/-- The words of what is read from a text are those of each line's reading. -/
theorem words_readings (f : String → String) (s : String) :
    (readings f s).flatMap words = (splitLines s).flatMap fun line => words (f line) := by
  have hblank : ∀ texts : List String,
      (texts.filter (· ≠ "")).flatMap words = texts.flatMap words := by
    intro texts
    induction texts with
    | nil => rfl
    | cons first rest ih =>
        by_cases h : first = ""
        · subst h
          simpa using ih
        · simpa [h] using ih
  rw [readings, hblank, List.flatMap_map]

theorem append_or_fewer {ws vs ws' vs' : List String}
    (h : ws = vs ∨ lettersOf ws < lettersOf vs) (h' : ws' = vs' ∨ lettersOf ws' < lettersOf vs') :
    ws ++ ws' = vs ++ vs' ∨ lettersOf (ws ++ ws') < lettersOf (vs ++ vs') := by
  rw [lettersOf_append, lettersOf_append]
  rcases h with rfl | hfewer
  · rcases h' with rfl | hfewer'
    · exact .inl rfl
    · exact .inr (Nat.add_lt_add_left hfewer' _)
  · rcases h' with rfl | hfewer'
    · exact .inr (Nat.add_lt_add_right hfewer _)
    · exact .inr (Nat.add_lt_add hfewer hfewer')

theorem flatMap_or_fewer {α : Type*} {said heard : α → List String} {l : List α}
    (h : ∀ a ∈ l, said a = heard a ∨ lettersOf (said a) < lettersOf (heard a)) :
    l.flatMap said = l.flatMap heard
      ∨ lettersOf (l.flatMap said) < lettersOf (l.flatMap heard) := by
  induction l with
  | nil => exact .inl rfl
  | cons first rest ih =>
      rw [List.flatMap_cons, List.flatMap_cons]
      exact append_or_fewer (h first List.mem_cons_self)
        (ih fun a ha => h a (List.mem_cons_of_mem _ ha))

/-- Readings of which one says fewer letters wherever it says other words say the same words of
a whole list only if they do of each element. -/
theorem flatMap_eq_iff {α : Type*} {said heard : α → List String} {l : List α}
    (h : ∀ a ∈ l, said a = heard a ∨ lettersOf (said a) < lettersOf (heard a)) :
    l.flatMap said = l.flatMap heard ↔ ∀ a ∈ l, said a = heard a := by
  constructor
  · intro heq
    induction l with
    | nil => exact fun a ha => absurd ha List.not_mem_nil
    | cons first rest ih =>
        have hrest := fun a ha => h a (List.mem_cons_of_mem _ ha)
        have hfirst : said first = heard first := by
          refine (h first List.mem_cons_self).resolve_right fun hfewer => ?_
          have hsame := congrArg lettersOf heq
          rw [List.flatMap_cons, List.flatMap_cons, lettersOf_append, lettersOf_append] at hsame
          rcases flatMap_or_fewer hrest with heq' | hfewer'
          · rw [heq'] at hsame
            omega
          · omega
        rw [List.flatMap_cons, List.flatMap_cons, hfirst] at heq
        intro a ha
        rcases List.mem_cons.mp ha with rfl | ha
        · exact hfirst
        · exact ih hrest (List.append_cancel_left heq) a ha
  · exact List.flatMap_congr

end Lines

section Labels
variable {c : Char} {cs current : List Char} {front s : String} {f : String → String}

/-- What is open when a text starts stands before its first line. -/
theorem linesFrom_open (hne : cs ≠ []) :
    ∃ first rest, ∀ current, linesFrom cs current =
      String.ofList (current.reverse ++ first) :: rest := by
  induction cs with
  | nil => exact absurd rfl hne
  | cons c cs ih =>
      by_cases hcr : c = '\r' ∧ cs.head? = some '\n'
      · have hrest : cs ≠ [] := by
          rintro rfl
          exact absurd hcr.2 (by simp)
        obtain ⟨first, rest, hlines⟩ := ih hrest
        refine ⟨first, rest, fun current => ?_⟩
        rw [linesFrom, if_pos hcr, hlines]
      · cases hbreak : isLineBreak c with
        | true =>
            refine ⟨[], linesFrom cs [], fun current => ?_⟩
            rw [linesFrom, if_neg hcr, if_pos hbreak, List.append_nil]
        | false =>
            cases cs with
            | nil =>
                refine ⟨[c], [], fun current => ?_⟩
                rw [linesFrom_cons hbreak, linesFrom_end (List.cons_ne_nil _ _), List.reverse_cons]
            | cons d cs =>
                obtain ⟨first, rest, hlines⟩ := ih (List.cons_ne_nil _ _)
                refine ⟨c :: first, rest, fun current => ?_⟩
                rw [linesFrom_cons hbreak, hlines, List.reverse_cons, List.append_assoc,
                  List.singleton_append]

/-- The first line of a text. -/
def openLine (s : String) : String := (splitLines s).headD ""

/-- The lines of a text after its first. -/
def laterLines (s : String) : List String := (splitLines s).tail

theorem splitLines_append (hfront : SingleLine front) (hne : s ≠ "") :
    splitLines (front ++ s) = (front ++ openLine s) :: laterLines s := by
  have hlist : s.toList ≠ [] := by simpa using hne
  obtain ⟨first, rest, hlines⟩ := linesFrom_open hlist
  have hown : splitLines s = String.ofList first :: rest := hlines []
  rw [splitLines, String.toList_append, linesFrom_append hfront, hlines, openLine, laterLines, hown,
    List.append_nil, List.reverse_reverse, String.ofList_append, String.ofList_toList]
  rfl

theorem words_openLine_append (s : String) :
    words (openLine s) ++ (laterLines s).flatMap words = words s := by
  rw [← words_splitLines s, openLine, laterLines]
  cases splitLines s with
  | nil => rfl
  | cons first rest => rfl

theorem readFrom_newline (h : f "" = "") (back : List Char) :
    readFrom f (cs ++ '\n' :: back) current = readFrom f cs current ++ readFrom f back [] := by
  induction cs generalizing current with
  | nil => rw [List.nil_append, readFrom_break (by simp) (by decide), readFrom_end h]
  | cons c cs ih =>
      by_cases hcr : c = '\r' ∧ cs.head? = some '\n'
      · have hlong : c = '\r' ∧ (cs ++ '\n' :: back).head? = some '\n' := by
          refine ⟨hcr.1, ?_⟩
          rw [List.head?_append, hcr.2]
          rfl
        rw [List.cons_append, readFrom_crlf hlong, readFrom_crlf hcr, ih]
      · cases hbreak : isLineBreak c with
        | false => rw [List.cons_append, readFrom_cons hbreak, readFrom_cons hbreak, ih]
        | true =>
            rw [List.cons_append, readFrom_break hcr hbreak]
            by_cases hlong : c = '\r' ∧ (cs ++ '\n' :: back).head? = some '\n'
            · -- the newline ends the break that `cs` ends with
              have hnil : cs = [] := by
                cases cs with
                | nil => rfl
                | cons d cs => exact absurd ⟨hlong.1, by simpa using hlong.2⟩ hcr
              subst hnil
              rw [readFrom_crlf hlong, List.nil_append, readFrom_break (by simp) (by decide),
                readFrom_end h (f := f)]
              simp [h]
            · rw [readFrom_break hlong hbreak, ih, List.append_assoc]

/-- What is read from texts on their own lines is read from each. -/
theorem readings_lines (h : f "" = "") (texts : List String) :
    readings f ("\n".intercalate texts) = texts.flatMap (readings f) := by
  induction texts with
  | nil => rfl
  | cons first rest ih =>
      cases rest with
      | nil => rw [String.intercalate_singleton, List.flatMap_singleton]
      | cons second rest =>
          rw [String.intercalate_cons_cons, List.flatMap_cons, ← ih]
          change readFrom f (first ++ "\n" ++ _).toList [] = readFrom f first.toList [] ++ _
          rw [String.toList_append, String.toList_append, List.append_assoc,
            show "\n".toList = ['\n'] from rfl, List.singleton_append, readFrom_newline h]
          rfl

end Labels

end PyStr
