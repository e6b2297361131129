import Orchestrator.Lib.PyValue

/-!
`json.dumps(value, sort_keys=True, separators=(",", ":"))`, and what of the value
its text gives back.

Only ASCII stands in the text. What is no string, list or dictionary is written
with letters, digits, signs and points, so it ends at the next separator or
bracket; a string ends at its closing quote. The text of a value is read back
whatever follows it, once nothing of the value can go on.
-/

namespace PyValue

/-- The characters of `null`, `true`, `false`, `NaN`, `Infinity` and numbers. -/
def isAtomChar (c : Char) : Bool := c.isAlphanum || c = '-' || c = '+' || c = '.'

def scalarJson : PyScalar → List Char
  | .none => "null".toList
  | .bool b => if b then "true".toList else "false".toList
  | .int n => Delimited.intText n
  | .float x => x.text.toList
  | .str s => Delimited.quote s

mutual
def json : PyValue → List Char
  | .scalar v => scalarJson v
  | .list [] => ['[', ']']
  | .list (item :: items) => '[' :: (json item ++ jsonItems items)
  | .dict [] => ['\x7b', '\x7d']
  | .dict ((name, value) :: entries) =>
      '\x7b' :: (Delimited.quote name ++ ':' :: (json value ++ jsonEntries entries))

/-- The items after the first, and the bracket. -/
def jsonItems : List PyValue → List Char
  | [] => [']']
  | item :: items => ',' :: (json item ++ jsonItems items)

/-- The entries after the first, and the brace. -/
def jsonEntries : List (String × PyValue) → List Char
  | [] => ['\x7d']
  | (name, value) :: entries =>
      ',' :: (Delimited.quote name ++ ':' :: (json value ++ jsonEntries entries))
end

def dumps (v : PyValue) : String := String.ofList (json (sortKeys v))

theorem isAtomChar_of_isIntChar {c : Char} (h : Delimited.isIntChar c = true) :
    isAtomChar c = true := by
  simp only [Delimited.isIntChar, Bool.or_eq_true, decide_eq_true_eq] at h
  rcases h with h | h
  · simp [isAtomChar, Char.isAlphanum, h]
  · simp [isAtomChar, h]

/-- The text of a scalar that is no string. -/
def Atom : PyScalar → Prop
  | .str _ => False
  | _ => True

theorem atom_chars {v : PyScalar} (hv : Atom v) : ∀ c ∈ scalarJson v, isAtomChar c = true := by
  cases v with
  | none => exact List.all_eq_true.mp (by decide)
  | bool b => cases b <;> exact List.all_eq_true.mp (by decide)
  | int n => exact fun c hc => isAtomChar_of_isIntChar (Delimited.intText_isIntChar hc)
  | float x =>
      intro c hc
      have hall : ("0123456789+-.einftyINa".toList).all isAtomChar = true := by decide
      exact List.all_eq_true.mp hall c (x.chars c hc)
  | str s => cases hv

theorem atom_ne_nil {v : PyScalar} (hv : Atom v) : scalarJson v ≠ [] := by
  cases v with
  | none => decide
  | bool b => cases b <;> decide
  | int n => exact Delimited.intText_ne_nil n
  | float x =>
      obtain ⟨c, hc, -⟩ := x.fraction
      exact List.ne_nil_of_mem hc
  | str s => cases hv

/-- A float is written like no integer and no constant. -/
theorem float_ne (x : FloatText) {v : PyScalar} (hv : Atom v) (h : x.text.toList = scalarJson v) :
    .float x = v := by
  have hchars : ∀ c ∈ scalarJson v, c ∈ "0123456789+-.einftyINa".toList := h ▸ x.chars
  cases v with
  | none => exact absurd (hchars 'u' (by decide)) (by decide)
  | bool b =>
      cases b with
      | false => exact absurd (hchars 'l' (by decide)) (by decide)
      | true => exact absurd (hchars 'u' (by decide)) (by decide)
  | int n =>
      obtain ⟨c, hc, hfraction⟩ := x.fraction
      rw [h] at hc
      rw [Delimited.intText_isIntChar hc] at hfraction
      cases hfraction
  | float y =>
      have htext : x.text = y.text := String.toList_inj.mp h
      cases x
      cases y
      cases htext
      rfl
  | str s => cases hv

theorem atom_inj {v w : PyScalar} (hv : Atom v) (hw : Atom w)
    (h : scalarJson v = scalarJson w) : v = w := by
  have hint : ∀ {l : List Char} {n : Int}, l = Delimited.intText n → ∀ c ∈ l,
      Delimited.isIntChar c = true := fun hl c hc => Delimited.intText_isIntChar (hl ▸ hc)
  cases v with
  | float x => exact float_ne x hw h
  | str s => cases hv
  | none =>
      cases w with
      | none => rfl
      | bool b => cases b <;> exact absurd h (by decide)
      | int n => exact absurd (hint h 'n' (by decide)) (by decide)
      | float y => exact (float_ne y hv h.symm).symm
      | str s => cases hw
  | bool a =>
      cases w with
      | none => cases a <;> exact absurd h (by decide)
      | bool b => cases a <;> cases b <;> first | rfl | exact absurd h (by decide)
      | int n => cases a <;> exact absurd (hint h 'e' (by decide)) (by decide)
      | float y => exact (float_ne y hv h.symm).symm
      | str s => cases hw
  | int m =>
      cases w with
      | none => exact absurd (hint h.symm 'n' (by decide)) (by decide)
      | bool b => cases b <;> exact absurd (hint h.symm 'e' (by decide)) (by decide)
      | int n => rw [Delimited.intText_injective h]
      | float y => exact (float_ne y hv h.symm).symm
      | str s => cases hw

/-- Nothing of a number or a constant goes on in the text. -/
def Ends (rest : List Char) : Prop := ∀ c ∈ rest.head?, isAtomChar c = false

theorem takeWhile_atom {v : PyScalar} (hv : Atom v) {rest : List Char} (hrest : Ends rest) :
    (scalarJson v ++ rest).takeWhile isAtomChar = scalarJson v := by
  rw [List.takeWhile_append_of_pos (atom_chars hv)]
  cases rest with
  | nil => simp
  | cons c rest =>
      rw [List.takeWhile_cons_of_neg (by simp [hrest c rfl]), List.append_nil]

/-- The quote or the bracket that a value's text opens with. -/
def opening : PyValue → Option Char
  | .scalar (.str _) => some '"'
  | .scalar _ => none
  | .list _ => some '['
  | .dict _ => some '\x7b'

theorem opening_atom {v : PyScalar} (hv : Atom v) : (scalar v).opening = none := by
  cases v with
  | str s => cases hv
  | _ => rfl

theorem atom_of_opening {v : PyScalar} (h : (scalar v).opening = none) : Atom v := by
  cases v with
  | str s => cases h
  | _ => trivial

theorem opening_eq (v : PyValue) (rest : List Char) :
    v.opening = (json v ++ rest).head?.filter fun c => !isAtomChar c := by
  cases v with
  | list xs => cases xs <;> rfl
  | dict es => cases es <;> rfl
  | scalar v =>
      by_cases hv : Atom v
      · rw [opening_atom hv, json]
        obtain ⟨c, text, htext⟩ := List.exists_cons_of_ne_nil (atom_ne_nil hv)
        have hc : isAtomChar c = true := atom_chars hv c (by rw [htext]; exact List.mem_cons_self)
        simp only [htext, List.cons_append, List.head?_cons]
        rw [Option.filter_some_neg (by simp [hc])]
      · cases v with
        | str s => rfl
        | _ => exact absurd trivial hv

/-- The text of a value is told from what follows it. -/
def ReadsBack (v : PyValue) : Prop := ∀ w rest tail, Ends rest → Ends tail →
  json v ++ rest = json w ++ tail → v = w ∧ rest = tail

theorem json_ne_close (v : PyValue) (rest tail : List Char) : json v ++ rest ≠ ']' :: tail := by
  intro h
  have hopening : v.opening = some ']' := by
    rw [opening_eq v rest, h]
    rfl
  rcases v with (_ | _ | _ | _ | _) | _ | _ <;> simp [opening] at hopening

theorem ends_items (xs : List PyValue) (rest : List Char) : Ends (jsonItems xs ++ rest) := by
  cases xs <;> rintro c ⟨⟩ <;> rfl

theorem ends_entries (es : List (String × PyValue)) (rest : List Char) :
    Ends (jsonEntries es ++ rest) := by
  rcases es with _ | ⟨⟨name, value⟩, es⟩ <;> rintro c ⟨⟩ <;> rfl

theorem items_inj : ∀ {xs ys : List PyValue} {rest tail : List Char}, (∀ x ∈ xs, ReadsBack x) →
    jsonItems xs ++ rest = jsonItems ys ++ tail → xs = ys ∧ rest = tail
  | [], [], rest, tail, _, h => ⟨rfl, (List.cons.inj h).2⟩
  | [], _ :: _, _, _, _, h => absurd (List.cons.inj h).1 (by decide)
  | _ :: _, [], _, _, _, h => absurd (List.cons.inj h).1 (by decide)
  | x :: xs, y :: ys, rest, tail, hxs, h => by
      have htext : json x ++ (jsonItems xs ++ rest) = json y ++ (jsonItems ys ++ tail) := by
        simpa [jsonItems] using h
      obtain ⟨hx, hxs'⟩ := List.forall_mem_cons.mp hxs
      obtain ⟨hxy, hrest⟩ := hx y _ _ (ends_items xs rest) (ends_items ys tail) htext
      obtain ⟨hitems, htail⟩ := items_inj hxs' hrest
      exact ⟨by rw [hxy, hitems], htail⟩

theorem entry_inj {name name' : String} {value value' : PyValue} {rest tail : List Char}
    (hvalue : ReadsBack value) (hrest : Ends rest) (htail : Ends tail)
    (h : Delimited.quote name ++ ':' :: (json value ++ rest)
      = Delimited.quote name' ++ ':' :: (json value' ++ tail)) :
    (name, value) = (name', value') ∧ rest = tail := by
  obtain ⟨hname, htext⟩ := Delimited.quote_inj h
  obtain ⟨hvalues, hends⟩ := hvalue value' _ _ hrest htail (List.cons.inj htext).2
  exact ⟨by rw [hname, hvalues], hends⟩

theorem entries_inj : ∀ {es fs : List (String × PyValue)} {rest tail : List Char},
    (∀ e ∈ es, ReadsBack e.2) → jsonEntries es ++ rest = jsonEntries fs ++ tail →
      es = fs ∧ rest = tail
  | [], [], rest, tail, _, h => ⟨rfl, (List.cons.inj h).2⟩
  | [], _ :: _, _, _, _, h => absurd (List.cons.inj h).1 (by decide)
  | _ :: _, [], _, _, _, h => absurd (List.cons.inj h).1 (by decide)
  | (name, value) :: es, (name', value') :: fs, rest, tail, hes, h => by
      have htext : Delimited.quote name ++ ':' :: (json value ++ (jsonEntries es ++ rest))
          = Delimited.quote name' ++ ':' :: (json value' ++ (jsonEntries fs ++ tail)) := by
        simpa [jsonEntries] using h
      obtain ⟨hvalue, hes'⟩ := List.forall_mem_cons.mp hes
      obtain ⟨hentry, hrest⟩ := entry_inj hvalue (ends_entries es rest) (ends_entries fs tail) htext
      obtain ⟨hentries, htail⟩ := entries_inj hes' hrest
      exact ⟨by rw [hentry, hentries], htail⟩

theorem readsBack_scalar (v : PyScalar) : ReadsBack (scalar v) := by
  intro w rest tail hrest htail h
  have hopening : (scalar v).opening = w.opening := by
    rw [opening_eq _ rest, h, ← opening_eq]
  by_cases hv : Atom v
  · rw [opening_atom hv] at hopening
    cases w with
    | list ys => cases hopening
    | dict fs => cases hopening
    | scalar w =>
        have hw := atom_of_opening hopening.symm
        have hatoms : scalarJson v = scalarJson w := by
          rw [← takeWhile_atom hv hrest, ← takeWhile_atom hw htail]
          exact congrArg _ h
        obtain rfl := atom_inj hv hw hatoms
        exact ⟨rfl, List.append_cancel_left h⟩
  · cases v with
    | str s =>
        cases w with
        | list ys => cases hopening
        | dict fs => cases hopening
        | scalar w =>
            cases w with
            | str t =>
                obtain ⟨hst, hends⟩ := Delimited.quote_inj h
                exact ⟨by rw [hst], hends⟩
            | _ => cases hopening
    | _ => exact absurd trivial hv

theorem readsBack (v : PyValue) : ReadsBack v := by
  induction v with
  | scalar v => exact readsBack_scalar v
  | list xs ih =>
      intro w rest tail hrest htail h
      have hopening : (list xs).opening = w.opening := by
        rw [opening_eq _ rest, h, ← opening_eq]
      cases w with
      | scalar w => cases w <;> cases hopening
      | dict fs => cases hopening
      | list ys =>
          cases xs with
          | nil =>
              cases ys with
              | nil => exact ⟨rfl, by simpa [json] using h⟩
              | cons y ys =>
                  have htext : json y ++ (jsonItems ys ++ tail) = ']' :: rest := by
                    simpa [json] using h.symm
                  exact absurd htext (json_ne_close y _ _)
          | cons x xs =>
              cases ys with
              | nil =>
                  have htext : json x ++ (jsonItems xs ++ rest) = ']' :: tail := by
                    simpa [json] using h
                  exact absurd htext (json_ne_close x _ _)
              | cons y ys =>
                  have htext : jsonItems (x :: xs) ++ rest = jsonItems (y :: ys) ++ tail :=
                    congrArg (',' :: ·) (List.cons.inj h).2
                  obtain ⟨hitems, hends⟩ := items_inj ih htext
                  exact ⟨by rw [hitems], hends⟩
  | dict es ih =>
      intro w rest tail hrest htail h
      have hopening : (dict es).opening = w.opening := by
        rw [opening_eq _ rest, h, ← opening_eq]
      cases w with
      | scalar w => cases w <;> cases hopening
      | list ys => cases hopening
      | dict fs =>
          rcases es with _ | ⟨⟨name, value⟩, es⟩
          · rcases fs with _ | ⟨⟨name', value'⟩, fs⟩
            · exact ⟨rfl, by simpa [json] using h⟩
            · exact absurd (List.cons.inj (List.cons.inj h).2).1 (by decide)
          · rcases fs with _ | ⟨⟨name', value'⟩, fs⟩
            · exact absurd (List.cons.inj (List.cons.inj h).2).1 (by decide)
            · have htext : jsonEntries ((name, value) :: es) ++ rest
                  = jsonEntries ((name', value') :: fs) ++ tail :=
                congrArg (',' :: ·) (List.cons.inj h).2
              obtain ⟨hentries, hends⟩ := entries_inj ih htext
              exact ⟨by rw [hentries], hends⟩

theorem json_injective : Function.Injective json := fun v w h =>
  (readsBack v w [] [] (by rintro c ⟨⟩) (by rintro c ⟨⟩) (by rw [h])).1

/-- The canonical texts of two values agree exactly if the values say the same. -/
theorem dumps_eq_iff {v w : PyValue} (hv : v.Distinct) (hw : w.Distinct) :
    dumps v = dumps w ↔ Same v w := by
  rw [← sortKeys_eq_iff hv hw]
  exact ⟨fun h => json_injective (String.ofList_injective h),
    fun h => congrArg (fun sorted => String.ofList (json sorted)) h⟩

/-- Values whose keys are sorted already are told apart by their texts. -/
theorem dumps_eq_iff_eq {v w : PyValue} (hv : v.Increasing) (hw : w.Increasing) :
    dumps v = dumps w ↔ v = w := by
  rw [dumps_eq_iff hv.distinct hw.distinct]
  exact ⟨eq_of_same hv hw, fun h path => congrArg (shapeAt path) h⟩

end PyValue
