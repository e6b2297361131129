import Mathlib.Algebra.GroupWithZero.Nat
import Mathlib.Algebra.Order.BigOperators.Group.List
import Mathlib.Algebra.Order.Group.Nat
import Orchestrator.Lib.PyStr

/-!
Stripping and splitting text into lines, as `str.strip` and `str.splitlines` do.

A reader of lines that ignores the space around a line ignores the space around
the text. Lines without breaks that are joined by newlines split back into the
same lines.
-/

namespace PyStr

section Trim
variable {p q : Char → Bool} {c : Char} {text : List Char}

/-- `text` without the characters of `p` at its ends. -/
def trim (p : Char → Bool) (text : List Char) : List Char := (text.dropWhile p).rdropWhile p

theorem strip_eq (s : String) : strip s = String.ofList (trim isSpace s.toList) := rfl

theorem toList_strip (s : String) : (strip s).toList = trim isSpace s.toList := by
  rw [strip_eq, String.toList_ofList]

@[simp] theorem trim_nil : trim p [] = [] := rfl

theorem trim_cons (h : p c = true) : trim p (c :: text) = trim p text := by
  rw [trim, List.dropWhile_cons_of_pos h, ← trim]

theorem trim_concat (h : p c = true) : trim p (text ++ [c]) = trim p text := by
  rw [trim, List.dropWhile_append]
  split
  next hblank =>
      rw [List.dropWhile_cons_of_pos h, trim, List.isEmpty_iff.mp hblank, List.dropWhile_nil]
  next => rw [List.rdropWhile_concat_pos p _ _ h, ← trim]

/-- What is kept is a front part of what starts with nothing to drop. -/
theorem trim_prefix_dropWhile : trim p text <+: text.dropWhile p := List.rdropWhile_prefix p _

/-- What is trimmed starts and ends with nothing left to drop. -/
theorem trim_eq_self_iff : trim p text = text ↔
    (∀ c ∈ text.head?, p c = false) ∧ (∀ c ∈ text.getLast?, p c = false) := by
  induction text with
  | nil => simp
  | cons first rest =>
      cases hfirst : p first with
      | true =>
          have hshort : (trim p (first :: rest)).length ≤ rest.length := by
            rw [trim_cons hfirst]
            exact trim_prefix_dropWhile.length_le.trans (List.length_dropWhile_le p rest)
          have hne : trim p (first :: rest) ≠ first :: rest := by
            intro heq
            rw [heq] at hshort
            exact absurd hshort (by simp)
          simp [hne, hfirst]
      | false =>
          rw [trim, List.dropWhile_cons_of_neg (by simp [hfirst]), List.rdropWhile_eq_self_iff]
          simp [hfirst, List.getLast?_eq_some_getLast]

theorem trim_trim : trim p (trim p text) = trim p text := by
  have hleft : (trim p text).dropWhile p = trim p text := by
    refine List.dropWhile_eq_self_iff.mpr fun hlength => ?_
    rw [trim_prefix_dropWhile.getElem hlength]
    exact List.dropWhile_get_zero_not p text _
  change ((trim p text).dropWhile p).rdropWhile p = trim p text
  rw [hleft]
  exact List.rdropWhile_idempotent p (text.dropWhile p)

theorem trim_within : trim p text <:+: text :=
  trim_prefix_dropWhile.isInfix.trans (List.dropWhile_suffix p).isInfix

/-- What is trimmed of more characters is trimmed of fewer. -/
theorem trim_eq_self_of_imp (himp : ∀ c, q c = true → p c = true) (h : trim p text = text) :
    trim q text = text := by
  have hkept : ∀ c, p c = false → q c = false := fun c hc => by
    cases hq : q c with
    | false => rfl
    | true => rw [himp c hq] at hc; exact absurd hc (by decide)
  have hends := trim_eq_self_iff.mp h
  exact trim_eq_self_iff.mpr ⟨fun c hc => hkept c (hends.1 c hc),
    fun c hc => hkept c (hends.2 c hc)⟩

/-- What is trimmed of fewer characters before is trimmed as it is. -/
theorem trim_trim_of_imp (himp : ∀ c, q c = true → p c = true) :
    trim p (trim q text) = trim p text := by
  have hleft : ∀ text : List Char, trim p (text.dropWhile q) = trim p text := by
    intro text
    induction text with
    | nil => rfl
    | cons c text ih =>
        cases hc : q c with
        | true => rw [List.dropWhile_cons_of_pos hc, ih, trim_cons (himp c hc)]
        | false => rw [List.dropWhile_cons_of_neg (by simp [hc])]
  have hright : ∀ text : List Char, trim p (text.rdropWhile q) = trim p text := by
    intro text
    induction text using List.reverseRecOn with
    | nil => rfl
    | append_singleton text c ih =>
        cases hc : q c with
        | true => rw [List.rdropWhile_concat_pos _ _ _ hc, ih, trim_concat (himp c hc)]
        | false => rw [List.rdropWhile_concat_neg _ _ _ (by simp [hc])]
  rw [trim.eq_1 q, hright, hleft]

theorem rdropWhile_append (front text : List Char) :
    (front ++ text).rdropWhile p
      = if text.rdropWhile p = [] then front.rdropWhile p else front ++ text.rdropWhile p := by
  simp only [List.rdropWhile, List.reverse_append, List.dropWhile_append, List.reverse_eq_nil_iff,
    List.isEmpty_iff]
  split <;> simp

theorem length_rdropWhile_cons (c : Char) (text : List Char) :
    (text.rdropWhile p).length ≤ ((c :: text).rdropWhile p).length := by
  rw [← List.singleton_append, rdropWhile_append]
  split
  next hnil => simp [hnil]
  next => simp

theorem length_trim_le : (trim p text).length ≤ (text.rdropWhile p).length := by
  induction text with
  | nil => exact Nat.le_refl 0
  | cons c text ih =>
      cases hc : p c with
      | true =>
          rw [trim_cons hc]
          exact ih.trans (length_rdropWhile_cons c text)
      | false => rw [trim, List.dropWhile_cons_of_neg (by simp [hc])]

/-- A character that stays keeps what is before it. -/
theorem length_trim_lt (h : p c = false) (front : List Char) :
    (trim p text).length < (trim p (front ++ c :: text)).length := by
  have hdrop : (front ++ c :: text).dropWhile p = front.dropWhile p ++ c :: text := by
    rw [List.dropWhile_append, List.dropWhile_cons_of_neg (by simp [h])]
    split
    next hnil => rw [List.isEmpty_iff.mp hnil, List.nil_append]
    next => rfl
  have hkept : (front.dropWhile p ++ c :: text).rdropWhile p
      = front.dropWhile p ++ c :: text.rdropWhile p := by
    rw [List.append_cons, rdropWhile_append]
    split
    next hnil => rw [hnil, List.rdropWhile_concat_neg p _ _ (by simp [h])]
    next => simp
  rw [trim.eq_1 p (front ++ _), hdrop, hkept, List.length_append, List.length_cons]
  have hle : (trim p text).length ≤ (text.rdropWhile p).length := length_trim_le
  omega

/-- What starts and ends with a kept character is trimmed only before it. -/
theorem trim_append_of_kept {first last : Char} (hfirst : p first = false) (hlast : p last = false)
    (front middle : List Char) :
    trim p (front ++ first :: (middle ++ [last])) =
      front.dropWhile p ++ first :: (middle ++ [last]) := by
  have hdrop : (front ++ first :: (middle ++ [last])).dropWhile p
      = front.dropWhile p ++ first :: (middle ++ [last]) := by
    rw [List.dropWhile_append, List.dropWhile_cons_of_neg (by simp [hfirst])]
    split
    next hnil => rw [List.isEmpty_iff.mp hnil, List.nil_append]
    next => rfl
  rw [trim, hdrop, ← List.cons_append, ← List.append_assoc,
    List.rdropWhile_concat_neg p _ _ (by simp [hlast])]

end Trim

/-- The text before the first `sep`, or all of it: the first part of `s.partition(sep)`. -/
def partitionHead (sep : Char) (s : String) : String :=
  String.ofList (s.toList.takeWhile (· ≠ sep))

/-- The last part of `s.partition(sep)`. -/
def partitionTail (sep : Char) (s : String) : String :=
  String.ofList ((s.toList.dropWhile (· ≠ sep)).drop 1)

theorem partition_eq {sep : Char} {head tail : List Char} {s : String} (hhead : sep ∉ head)
    (hs : s.toList = head ++ sep :: tail) :
    partitionHead sep s = String.ofList head ∧ partitionTail sep s = String.ofList tail := by
  have hpassed : ∀ c ∈ head, decide (c ≠ sep) = true := fun c hc => by
    simpa using fun heq : c = sep => hhead (heq ▸ hc)
  rw [partitionHead, partitionTail, hs, List.takeWhile_append_of_pos hpassed,
    List.dropWhile_append_of_pos hpassed]
  simp

/-- The first separator stands between the two parts. -/
theorem exists_partition {sep : Char} {s : String} (h : sep ∈ s.toList) :
    ∃ head tail, s.toList = head ++ sep :: tail ∧ partitionTail sep s = String.ofList tail := by
  obtain ⟨head, tail, hsplit, hhead⟩ := List.eq_append_cons_of_mem h
  exact ⟨head, tail, hsplit, (partition_eq hhead hsplit).2⟩

section Edges
variable {c sep : Char} {cs : List Char}

theorem strip_cons (h : isSpace c = true) :
    strip (String.ofList (c :: cs)) = strip (String.ofList cs) := by
  simp only [strip_eq, String.toList_ofList, trim_cons h]

theorem strip_concat (h : isSpace c = true) :
    strip (String.ofList (cs ++ [c])) = strip (String.ofList cs) := by
  simp only [strip_eq, String.toList_ofList, trim_concat h]

/-- What is blank holds only space. -/
theorem space_of_strip_eq_empty {s : String} (h : strip s = "") {c : Char} (hc : c ∈ s.toList) :
    isSpace c = true := by
  have hnil : (s.toList.dropWhile isSpace).rdropWhile isSpace = [] := by
    have hlist := congrArg String.toList h
    rwa [toList_strip, String.toList_empty] at hlist
  have hrest := List.rdropWhile_eq_nil_iff.mp hnil
  rw [← List.takeWhile_append_dropWhile (p := isSpace) (l := s.toList)] at hc
  rcases List.mem_append.mp hc with hc | hc
  · exact List.mem_takeWhile_imp hc
  · exact hrest c hc

theorem strip_eq_self_iff {s : String} : strip s = s ↔
    (∀ c ∈ s.toList.head?, isSpace c = false) ∧ (∀ c ∈ s.toList.getLast?, isSpace c = false) := by
  rw [← trim_eq_self_iff, ← toList_strip, String.toList_inj]

/-- What stands between stripped texts is not at the ends. -/
theorem strip_append {a b : String} (middle : String) (ha : strip a = a) (hane : a ≠ "")
    (hb : strip b = b) (hbne : b ≠ "") : strip (a ++ middle ++ b) = a ++ middle ++ b := by
  have hfirst := (strip_eq_self_iff.mp ha).1
  have hlast := (strip_eq_self_iff.mp hb).2
  have halist : a.toList ≠ [] := by simpa using hane
  have hblist : b.toList ≠ [] := by simpa using hbne
  rw [strip_eq_self_iff, String.toList_append, String.toList_append]
  refine ⟨?_, ?_⟩
  · rwa [List.append_assoc, List.head?_append_of_ne_nil _ halist]
  · rwa [List.getLast?_append_of_ne_nil _ hblist]

theorem strip_join {lines : List String} (hne : lines ≠ [])
    (h : ∀ l ∈ lines, strip l = l ∧ l ≠ "") :
    strip ("\n".intercalate lines) = "\n".intercalate lines ∧ "\n".intercalate lines ≠ "" := by
  induction lines with
  | nil => exact absurd rfl hne
  | cons first rest ih =>
      have hfirst := h first List.mem_cons_self
      cases rest with
      | nil => rwa [String.intercalate_singleton]
      | cons second rest =>
          have hrest := ih (by simp) fun l hl => h l (List.mem_cons_of_mem _ hl)
          rw [String.intercalate_cons_cons]
          refine ⟨strip_append "\n" hfirst.1 hfirst.2 hrest.1 hrest.2, ?_⟩
          exact append_ne_empty (append_ne_empty hfirst.2 _) _

theorem sep_ne_of_space (hc : isSpace c = true) (hsep : isSpace sep = false) : sep ≠ c := by
  rintro rfl
  rw [hc] at hsep
  exact absurd hsep (by decide)

theorem takeWhile_space (hc : isSpace c = true) (hsep : isSpace sep = false) (rest : List Char) :
    (c :: rest).takeWhile (· ≠ sep) = c :: rest.takeWhile (· ≠ sep) := by
  simp [(sep_ne_of_space hc hsep).symm]

theorem dropWhile_space (hc : isSpace c = true) (hsep : isSpace sep = false) (rest : List Char) :
    (c :: rest).dropWhile (· ≠ sep) = rest.dropWhile (· ≠ sep) := by
  simp [(sep_ne_of_space hc hsep).symm]

theorem strip_partitionHead_cons (hc : isSpace c = true) (hsep : isSpace sep = false) :
    strip (partitionHead sep (String.ofList (c :: cs)))
      = strip (partitionHead sep (String.ofList cs)) := by
  rw [partitionHead, String.toList_ofList, takeWhile_space hc hsep, strip_cons hc,
    partitionHead, String.toList_ofList]

theorem strip_partitionTail_cons (hc : isSpace c = true) (hsep : isSpace sep = false) :
    strip (partitionTail sep (String.ofList (c :: cs)))
      = strip (partitionTail sep (String.ofList cs)) := by
  rw [partitionTail, String.toList_ofList, dropWhile_space hc hsep, partitionTail,
    String.toList_ofList]

theorem strip_partitionHead_concat (hc : isSpace c = true) (hsep : isSpace sep = false) :
    strip (partitionHead sep (String.ofList (cs ++ [c])))
      = strip (partitionHead sep (String.ofList cs)) := by
  rw [partitionHead, String.toList_ofList, List.takeWhile_append]
  split
  next hall =>
      have hwhole := (List.takeWhile_prefix (fun d => decide (d ≠ sep)) (l := cs)).eq_of_length hall
      rw [takeWhile_space hc hsep, List.takeWhile_nil, strip_concat hc, partitionHead,
        String.toList_ofList, hwhole]
  next => rw [partitionHead, String.toList_ofList]

theorem strip_partitionTail_concat (hc : isSpace c = true) (hsep : isSpace sep = false) :
    strip (partitionTail sep (String.ofList (cs ++ [c])))
      = strip (partitionTail sep (String.ofList cs)) := by
  rw [partitionTail, partitionTail, String.toList_ofList, String.toList_ofList,
    List.dropWhile_append]
  cases hrest : cs.dropWhile (fun d => decide (d ≠ sep)) with
  | nil => rw [dropWhile_space hc hsep, List.dropWhile_nil, List.isEmpty_nil, if_pos rfl]
  | cons d rest =>
      rw [List.isEmpty_cons, if_neg Bool.false_ne_true, List.cons_append, List.drop_one,
        List.drop_one, List.tail_cons, List.tail_cons, strip_concat hc]

end Edges

/-- `len(s.split())`. -/
def wordCount (s : String) : Nat := ((s.toList.splitOnP isSpace).filter (· ≠ [])).length

section Lines
variable {c : Char} {line rest current : List Char} {s l : String}

/-- A text without line breaks. -/
def SingleLine (s : String) : Prop := ∀ c ∈ s.toList, isLineBreak c = false

theorem singleLine_of_any {s : String} (h : s.toList.any isLineBreak = false) : SingleLine s :=
  PyStr.eq_false_of_any h

theorem ne_cr_of_not_break (h : isLineBreak c = false) : c ≠ '\r' := by
  rintro rfl
  exact absurd h (by decide)

theorem linesFrom_cons (h : isLineBreak c = false) :
    linesFrom (c :: rest) current = linesFrom rest (c :: current) := by
  simp [linesFrom, h, ne_cr_of_not_break h]

theorem linesFrom_append (h : ∀ c ∈ line, isLineBreak c = false) :
    linesFrom (line ++ rest) current = linesFrom rest (line.reverse ++ current) := by
  induction line generalizing current with
  | nil => rfl
  | cons c line ih =>
      rw [List.cons_append, linesFrom_cons (h c List.mem_cons_self),
        ih fun d hd => h d (List.mem_cons_of_mem _ hd)]
      simp

theorem linesFrom_end (hne : current ≠ []) : linesFrom [] current =
    [String.ofList current.reverse] := by
  cases current with
  | nil => exact absurd rfl hne
  | cons c current => rfl

theorem splitLines_single (h : SingleLine s) (hne : s ≠ "") : splitLines s = [s] := by
  have hlist : s.toList ≠ [] := by simpa using hne
  have hread := @linesFrom_append s.toList [] [] h
  rw [List.append_nil, List.append_nil, linesFrom_end (by simpa using hlist)] at hread
  simpa [splitLines] using hread

/-- The lines hold no breaks when the line that is open holds none. -/
theorem single_of_mem_linesFrom (hcurrent : ∀ c ∈ current, isLineBreak c = false)
    (h : l ∈ linesFrom rest current) : SingleLine l := by
  induction rest generalizing current with
  | nil =>
      cases current with
      | nil => simp [linesFrom] at h
      | cons c current =>
          obtain rfl : l = String.ofList (c :: current).reverse := by simpa [linesFrom] using h
          intro d hd
          exact hcurrent d (List.mem_reverse.mp (by simpa using hd))
  | cons c rest ih =>
      rw [linesFrom] at h
      split at h
      next => exact ih hcurrent h
      next =>
          split at h
          next =>
              rcases List.mem_cons.mp h with rfl | h
              · intro d hd
                exact hcurrent d (by simpa using hd)
              · exact ih (by simp) h
          next hbreak =>
              refine ih (fun d hd => ?_) h
              rcases List.mem_cons.mp hd with rfl | hd
              · simpa using hbreak
              · exact hcurrent d hd

theorem single_of_mem_splitLines (h : l ∈ splitLines s) : SingleLine l :=
  single_of_mem_linesFrom (by simp) h

/-- Lines that hold something and no breaks, joined by newlines, split back. -/
theorem splitLines_join {lines : List String} (h : ∀ l ∈ lines, SingleLine l ∧ l ≠ "") :
    splitLines ("\n".intercalate lines) = lines := by
  induction lines with
  | nil => rfl
  | cons first rest ih =>
      have hfirst := h first List.mem_cons_self
      have hrest := fun l hl => h l (List.mem_cons_of_mem _ hl)
      cases rest with
      | nil => rw [String.intercalate_singleton, splitLines_single hfirst.1 hfirst.2]
      | cons second rest =>
          have hopen : splitLines ("\n".intercalate (first :: second :: rest))
              = linesFrom ('\n' :: ("\n".intercalate (second :: rest)).toList)
                first.toList.reverse := by
            rw [String.intercalate_cons_cons, splitLines, String.toList_append,
              String.toList_append,
              List.append_assoc, linesFrom_append hfirst.1, List.append_nil]
            rfl
          have hbreak : linesFrom ('\n' :: ("\n".intercalate (second :: rest)).toList)
              first.toList.reverse = first :: splitLines ("\n".intercalate (second :: rest)) := by
            simp [linesFrom, splitLines, show isLineBreak '\n' = true by decide]
          rw [hopen, hbreak, ih hrest]

end Lines

section Readings
variable {f g : String → String} {c : Char} {cs current : List Char} {s : String}

/-- What `f` reads from each line of a text, without the blank readings. -/
def readings (f : String → String) (s : String) : List String :=
  ((splitLines s).map f).filter (· ≠ "")

/-- A reader of lines that ignores the space around a line. -/
structure EdgeBlind (f : String → String) : Prop where
  empty : f "" = ""
  left : ∀ c line, isSpace c = true → f (String.ofList (c :: line)) = f (String.ofList line)
  right : ∀ c line, isSpace c = true → f (String.ofList (line ++ [c])) = f (String.ofList line)

def readFrom (f : String → String) (cs current : List Char) : List String :=
  ((linesFrom cs current).map f).filter (· ≠ "")

theorem readFrom_end (h : f "" = "") :
    readFrom f [] current = [f (String.ofList current.reverse)].filter (· ≠ "") := by
  cases current with
  | nil => simp [readFrom, linesFrom, h]
  | cons c current => rfl

theorem readFrom_break (hcr : ¬ (c = '\r' ∧ cs.head? = some '\n')) (h : isLineBreak c = true) :
    readFrom f (c :: cs) current
      = [f (String.ofList current.reverse)].filter (· ≠ "") ++ readFrom f cs [] := by
  simp only [readFrom, linesFrom, hcr, h, ite_true, ite_false, List.map_cons, List.filter_cons,
    List.filter_nil]
  split <;> rfl

theorem readFrom_crlf (hcr : c = '\r' ∧ cs.head? = some '\n') :
    readFrom f (c :: cs) current = readFrom f cs current := by
  simp only [readFrom, linesFrom, hcr, and_self, ite_true]

theorem readFrom_cons (h : isLineBreak c = false) :
    readFrom f (c :: cs) current = readFrom f cs (c :: current) := by
  rw [readFrom, linesFrom_cons h, ← readFrom]

/-- Space at the start of the open line is not read. -/
theorem readFrom_current (hf : EdgeBlind f) (hc : isSpace c = true) :
    readFrom f cs (current ++ [c]) = readFrom f cs current := by
  have hline : ∀ line : List Char,
      f (String.ofList (line ++ [c]).reverse) = f (String.ofList line.reverse) := fun line => by
    rw [List.reverse_append, List.reverse_singleton, List.singleton_append, hf.left c _ hc]
  induction cs generalizing current with
  | nil => rw [readFrom_end hf.empty, readFrom_end hf.empty, hline]
  | cons d cs ih =>
      by_cases hcr : d = '\r' ∧ cs.head? = some '\n'
      · rw [readFrom_crlf hcr, readFrom_crlf hcr, ih]
      · cases hbreak : isLineBreak d with
        | true => rw [readFrom_break hcr hbreak, readFrom_break hcr hbreak, hline]
        | false =>
            rw [readFrom_cons hbreak, readFrom_cons hbreak, ← @ih (d :: current),
              List.cons_append]

theorem readFrom_left (hf : EdgeBlind f) (hc : isSpace c = true) :
    readFrom f (c :: cs) [] = readFrom f cs [] := by
  by_cases hcr : c = '\r' ∧ cs.head? = some '\n'
  · exact readFrom_crlf hcr
  · cases hbreak : isLineBreak c with
    | true =>
        rw [readFrom_break hcr hbreak, List.reverse_nil, String.ofList_nil, hf.empty]
        rfl
    | false =>
        rw [readFrom_cons hbreak]
        exact @readFrom_current f c cs [] hf hc

/-- One space that ends the text is not read. -/
theorem readFrom_space (hf : EdgeBlind f) (hc : isSpace c = true) :
    readFrom f [c] current = readFrom f [] current := by
  cases hbreak : isLineBreak c with
  | true =>
      rw [readFrom_break (by simp) hbreak, readFrom_end hf.empty, readFrom_end hf.empty,
        List.reverse_nil, String.ofList_nil, hf.empty]
      simp
  | false =>
      rw [readFrom_cons hbreak, readFrom_end hf.empty, readFrom_end hf.empty, List.reverse_cons,
        hf.right c _ hc]

theorem readFrom_right (hf : EdgeBlind f) (hc : isSpace c = true) :
    readFrom f (cs ++ [c]) current = readFrom f cs current := by
  induction cs generalizing current with
  | nil => exact readFrom_space hf hc
  | cons d cs ih =>
      rw [List.cons_append]
      cases cs with
      | cons e cs =>
          by_cases hcr : d = '\r' ∧ e = '\n'
          · rw [readFrom_crlf (by simpa using hcr), readFrom_crlf (by simpa using hcr), ih]
          · cases hbreak : isLineBreak d with
            | true =>
                rw [readFrom_break (by simpa using hcr) hbreak,
                  readFrom_break (by simpa using hcr) hbreak, ih]
            | false => rw [readFrom_cons hbreak, readFrom_cons hbreak, ih]
      | nil =>
          cases hbreak : isLineBreak d with
          | false => rw [readFrom_cons hbreak, readFrom_cons hbreak, ih]
          | true =>
              rw [@readFrom_break f d [] current (by simp) hbreak]
              by_cases hcr : d = '\r' ∧ c = '\n'
              · -- the last two characters are one break
                rw [List.nil_append, readFrom_crlf (by simpa using hcr), readFrom_space hf hc,
                  readFrom_end hf.empty]
                simp [readFrom, linesFrom]
              · rw [List.nil_append, readFrom_break (by simpa using hcr) hbreak,
                  readFrom_space hf hc]

/-- The space around a text is not read. -/
theorem readings_strip (hf : EdgeBlind f) (s : String) : readings f (strip s) = readings f s := by
  have hleft : ∀ cs : List Char, readFrom f (cs.dropWhile isSpace) [] = readFrom f cs [] := by
    intro cs
    induction cs with
    | nil => rfl
    | cons c cs ih =>
        cases hc : isSpace c with
        | true => rw [List.dropWhile_cons_of_pos hc, ih, readFrom_left hf hc]
        | false => rw [List.dropWhile_cons_of_neg (by simp [hc])]
  have hright : ∀ cs : List Char, readFrom f (cs.rdropWhile isSpace) [] = readFrom f cs [] := by
    intro cs
    induction cs using List.reverseRecOn with
    | nil => rfl
    | append_singleton cs c ih =>
        cases hc : isSpace c with
        | true => rw [List.rdropWhile_concat_pos _ _ _ hc, ih, readFrom_right hf hc]
        | false => rw [List.rdropWhile_concat_neg _ _ _ (by simp [hc])]
  change readFrom f (strip s).toList [] = readFrom f s.toList []
  rw [toList_strip, trim, hright, hleft]

end Readings

section Joining
variable {f g : String → String} {lines texts : List String}

/-- The room a text takes in a line of texts, its separator included. -/
def room (s : String) : Nat := if s = "" then 0 else s.length + 1

theorem room_lt {s s' : String} (h : s.length < s'.length) : room s < room s' := by
  have hne : s' ≠ "" := by
    rintro rfl
    simp at h
  rw [room, room, if_neg hne]
  split <;> omega

theorem length_join (hne : texts ≠ []) (h : ∀ s ∈ texts, s ≠ "") :
    (" ".intercalate texts).length + 1 = (texts.map room).sum := by
  induction texts with
  | nil => exact absurd rfl hne
  | cons first rest ih =>
      have hfirst : room first = first.length + 1 := if_neg (h first List.mem_cons_self)
      cases rest with
      | nil => simp [hfirst]
      | cons second rest =>
          have hrest := ih (by simp) fun s hs => h s (List.mem_cons_of_mem _ hs)
          rw [String.intercalate_cons_cons, List.map_cons, List.sum_cons, ← hrest, hfirst]
          simp only [String.length_append, show " ".length = 1 from rfl]
          omega

theorem sum_room_filter (texts : List String) :
    ((texts.filter (· ≠ "")).map room).sum = (texts.map room).sum := by
  induction texts with
  | nil => rfl
  | cons s texts ih =>
      by_cases h : s = ""
      · subst h
        simpa [room] using ih
      · simpa [h] using ih

/-- Readings of the same lines of which some are longer and none is shorter or
other do not join to the same text. -/
theorem join_ne_of_longer
    (hle : ∀ l ∈ lines, f l = g l ∨ (f l).length < (g l).length)
    (hlt : ∃ l ∈ lines, (f l).length < (g l).length)
    (hne : (lines.map f).filter (· ≠ "") ≠ []) :
    " ".intercalate ((lines.map f).filter (· ≠ ""))
      ≠ " ".intercalate ((lines.map g).filter (· ≠ "")) := by
  have hsums : (lines.map (room ∘ f)).sum < (lines.map (room ∘ g)).sum := by
    obtain ⟨l, hl, hlonger⟩ := hlt
    refine List.sum_lt_sum (room ∘ f) (room ∘ g) (fun k hk => ?_) ⟨l, hl, room_lt hlonger⟩
    rcases hle k hk with heq | hlonger
    · exact (congrArg room heq).le
    · exact (room_lt hlonger).le
  have hwide : ∀ h : String → String,
      (((lines.map h).filter (· ≠ "")).map room).sum = (lines.map (room ∘ h)).sum := fun h => by
    rw [sum_room_filter, List.map_map]
  have hnonblank : ∀ h : String → String, ∀ s ∈ (lines.map h).filter (· ≠ ""), s ≠ "" :=
    fun h s hs => of_decide_eq_true (List.mem_filter.mp hs).2
  intro heq
  have hf := length_join hne (hnonblank f)
  by_cases hg : (lines.map g).filter (· ≠ "") = []
  · have hzero := hwide g
    rw [hg, List.map_nil, List.sum_nil] at hzero
    omega
  · have hg := length_join hg (hnonblank g)
    rw [hwide] at hf hg
    rw [heq] at hf
    omega

end Joining

end PyStr
