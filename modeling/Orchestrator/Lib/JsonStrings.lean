import Orchestrator.Lib.Json

/-!
The strings of a document.

`mapStrings` rewrites every string value and keeps everything else in place; the
names of fields are no values. `walkStrings` does it one string after the other
with a state and may be stopped by an error. The rule says when what a walk
leaves is a rewriting by what its last state knows.
-/
universe u v

namespace Json

mutual
def mapStrings (f : String → String) : Json → Json
  | .str s => .str (f s)
  | .arr items => .arr (mapStringItems f items)
  | .obj fields => .obj (mapStringFields f fields)
  | .null => .null
  | .bool b => .bool b
  | .num q => .num q

def mapStringItems (f : String → String) : List Json → List Json
  | [] => []
  | item :: items => mapStrings f item :: mapStringItems f items

def mapStringFields (f : String → String) : List (String × Json) → List (String × Json)
  | [] => []
  | (name, value) :: fields => (name, mapStrings f value) :: mapStringFields f fields
end

mutual
/-- The string values, in order. -/
def strings : Json → List String
  | .str s => [s]
  | .arr items => stringsOfItems items
  | .obj fields => stringsOfFields fields
  | .null | .bool _ | .num _ => []

def stringsOfItems : List Json → List String
  | [] => []
  | item :: items => strings item ++ stringsOfItems items

def stringsOfFields : List (String × Json) → List String
  | [] => []
  | (_, value) :: fields => strings value ++ stringsOfFields fields
end

section Walk
variable {σ : Type u} {ε : Type v} (leaf : String → σ → σ × Except ε String)

mutual
def walkStrings : Json → σ → σ × Except ε Json
  | .str text, s =>
      match leaf text s with
      | (s', .error exc) => (s', .error exc)
      | (s', .ok text') => (s', .ok (.str text'))
  | .arr items, s =>
      match walkItems items s with
      | (s', .error exc) => (s', .error exc)
      | (s', .ok items') => (s', .ok (.arr items'))
  | .obj fields, s =>
      match walkFields fields s with
      | (s', .error exc) => (s', .error exc)
      | (s', .ok fields') => (s', .ok (.obj fields'))
  | .null, s => (s, .ok .null)
  | .bool b, s => (s, .ok (.bool b))
  | .num q, s => (s, .ok (.num q))

def walkItems : List Json → σ → σ × Except ε (List Json)
  | [], s => (s, .ok [])
  | item :: items, s =>
      match walkStrings item s with
      | (s', .error exc) => (s', .error exc)
      | (s', .ok item') =>
          match walkItems items s' with
          | (s'', .error exc) => (s'', .error exc)
          | (s'', .ok items') => (s'', .ok (item' :: items'))

def walkFields : List (String × Json) → σ → σ × Except ε (List (String × Json))
  | [], s => (s, .ok [])
  | (name, value) :: fields, s =>
      match walkStrings value s with
      | (s', .error exc) => (s', .error exc)
      | (s', .ok value') =>
          match walkFields fields s' with
          | (s'', .error exc) => (s'', .error exc)
          | (s'', .ok fields') => (s'', .ok ((name, value') :: fields'))
end

end Walk

/-- A walk whose states only learn: `le` orders them, `known` is the rewriting that a state knows,
`seen` the strings that it has met, and what holds of the states it goes on from is `inv`. What is
`safe` holds wherever it stops. -/
structure WalkRule {σ : Type u} {ε : Type v} (leaf : String → σ → σ × Except ε String) where
  inv : σ → Prop
  safe : σ → Prop
  le : σ → σ → Prop
  known : σ → String → String
  seen : σ → String → Prop
  refl : ∀ s, le s s
  trans : ∀ {s s' s''}, le s s' → le s' s'' → le s s''
  seen_mono : ∀ {s s' text}, le s s' → seen s text → seen s' text
  safe_of_inv : ∀ {s}, inv s → safe s
  leaf_safe : ∀ {s} text, inv s → safe (leaf text s).1
  leaf_ok : ∀ {s s' text text'}, inv s → leaf text s = (s', .ok text') →
    inv s' ∧ le s s' ∧ seen s' text ∧ ∀ later, le s' later → known later text = text'

namespace WalkRule
variable {σ : Type u} {ε : Type v} {leaf : String → σ → σ × Except ε String} (rule : WalkRule leaf)

/-- What a walk over something with these strings ensures when it ends in `s'`. -/
structure Ensures {α : Type} (strings : List String) (mapped : (String → String) → α) (s s' : σ)
    (out : α) : Prop where
  inv : rule.inv s'
  le : rule.le s s'
  seen : ∀ text ∈ strings, rule.seen s' text
  known : ∀ later, rule.le s' later → mapped (rule.known later) = out

theorem ensures_nothing {α : Type} {s : σ} {out : α} (hs : rule.inv s) :
    rule.Ensures [] (fun _ => out) s s out :=
  ⟨hs, rule.refl s, fun _ h => absurd h List.not_mem_nil, fun _ _ => rfl⟩

variable {rule} in
theorem Ensures.map {α β : Type} {strings : List String} {mapped : (String → String) → α}
    {s s' : σ} {out : α} (h : rule.Ensures strings mapped s s' out) (build : α → β) :
    rule.Ensures strings (fun f => build (mapped f)) s s' (build out) :=
  ⟨h.inv, h.le, h.seen, fun later hlater => congrArg build (h.known later hlater)⟩

variable {rule} in
theorem Ensures.andThen {α β γ : Type} {strings strings' : List String}
    {mapped : (String → String) → α} {mapped' : (String → String) → β} {s s' s'' : σ} {out : α}
    {out' : β} (h : rule.Ensures strings mapped s s' out)
    (h' : rule.Ensures strings' mapped' s' s'' out') (build : α → β → γ) :
    rule.Ensures (strings ++ strings') (fun f => build (mapped f) (mapped' f)) s s''
      (build out out') where
  inv := h'.inv
  le := rule.trans h.le h'.le
  seen text htext := by
    obtain htext | htext := List.mem_append.mp htext
    · exact rule.seen_mono h'.le (h.seen text htext)
    · exact h'.seen text htext
  known later hlater := by
    rw [h.known later (rule.trans h'.le hlater), h'.known later hlater]

mutual
theorem walk_ok : ∀ (doc : Json) {s s' : σ} {out : Json}, rule.inv s →
    walkStrings leaf doc s = (s', .ok out) →
      rule.Ensures (strings doc) (mapStrings · doc) s s' out
  | .str text, s, s', out, hs, h => by
      rw [walkStrings] at h
      split at h <;> cases h
      rename_i hleaf
      obtain ⟨hinv, hle, hseen, hknown⟩ := rule.leaf_ok hs hleaf
      refine ⟨hinv, hle, fun t ht => ?_, fun later hlater =>
        congrArg Json.str (hknown later hlater)⟩
      rw [strings, List.mem_singleton] at ht
      exact ht ▸ hseen
  | .arr items, s, s', out, hs, h => by
      rw [walkStrings] at h
      split at h <;> cases h
      rename_i hitems
      exact (items_ok items hs hitems).map Json.arr
  | .obj fields, s, s', out, hs, h => by
      rw [walkStrings] at h
      split at h <;> cases h
      rename_i hfields
      exact (fields_ok fields hs hfields).map Json.obj
  | .null, s, s', out, hs, h => by
      cases h
      exact rule.ensures_nothing hs
  | .bool b, s, s', out, hs, h => by
      cases h
      exact rule.ensures_nothing hs
  | .num q, s, s', out, hs, h => by
      cases h
      exact rule.ensures_nothing hs

theorem items_ok : ∀ (items : List Json) {s s' : σ} {out : List Json}, rule.inv s →
    walkItems leaf items s = (s', .ok out) →
      rule.Ensures (stringsOfItems items) (mapStringItems · items) s s' out
  | [], s, s', out, hs, h => by
      cases h
      exact rule.ensures_nothing hs
  | item :: items, s, s', out, hs, h => by
      rw [walkItems] at h
      split at h
      · cases h
      · rename_i hitem
        split at h <;> cases h
        rename_i hitems
        exact (walk_ok item hs hitem).andThen
          (items_ok items (walk_ok item hs hitem).inv hitems) List.cons

theorem fields_ok : ∀ (fields : List (String × Json)) {s s' : σ} {out : List (String × Json)},
    rule.inv s → walkFields leaf fields s = (s', .ok out) →
      rule.Ensures (stringsOfFields fields) (mapStringFields · fields) s s' out
  | [], s, s', out, hs, h => by
      cases h
      exact rule.ensures_nothing hs
  | (name, value) :: fields, s, s', out, hs, h => by
      rw [walkFields] at h
      split at h
      · cases h
      · rename_i hvalue
        split at h <;> cases h
        rename_i hfields
        exact (walk_ok value hs hvalue).andThen
          (fields_ok fields (walk_ok value hs hvalue).inv hfields)
          fun value fields => (name, value) :: fields
end

mutual
theorem walk_safe : ∀ (doc : Json) {s : σ}, rule.inv s → rule.safe (walkStrings leaf doc s).1
  | .str text, s, hs => by
      have hleaf := rule.leaf_safe text hs
      rw [walkStrings]
      split <;> rename_i hstep <;> rwa [hstep] at hleaf
  | .arr items, s, hs => by
      have hitems := items_safe items hs
      rw [walkStrings]
      split <;> rename_i hstep <;> rwa [hstep] at hitems
  | .obj fields, s, hs => by
      have hfields := fields_safe fields hs
      rw [walkStrings]
      split <;> rename_i hstep <;> rwa [hstep] at hfields
  | .null, _, hs => rule.safe_of_inv hs
  | .bool _, _, hs => rule.safe_of_inv hs
  | .num _, _, hs => rule.safe_of_inv hs

theorem items_safe : ∀ (items : List Json) {s : σ}, rule.inv s →
    rule.safe (walkItems leaf items s).1
  | [], _, hs => rule.safe_of_inv hs
  | item :: items, s, hs => by
      have hitem := walk_safe item hs
      rw [walkItems]
      split
      · rename_i hstep
        rwa [hstep] at hitem
      · rename_i hstep
        have hrest := items_safe items (rule.walk_ok item hs hstep).inv
        split <;> rename_i hstep' <;> rwa [hstep'] at hrest

theorem fields_safe : ∀ (fields : List (String × Json)) {s : σ}, rule.inv s →
    rule.safe (walkFields leaf fields s).1
  | [], _, hs => rule.safe_of_inv hs
  | (_, value) :: fields, s, hs => by
      have hvalue := walk_safe value hs
      rw [walkFields]
      split
      · rename_i hstep
        rwa [hstep] at hvalue
      · rename_i hstep
        have hrest := fields_safe fields (rule.walk_ok value hs hstep).inv
        split <;> rename_i hstep' <;> rwa [hstep'] at hrest
end

/-- A string at which a walk can stop. -/
def StopsAt (strings : List String) (exc : ε) : Prop :=
  ∃ text ∈ strings, ∃ s s', rule.inv s ∧ leaf text s = (s', .error exc)

variable {rule} in
theorem StopsAt.mono {strings strings' : List String} {exc : ε} (h : rule.StopsAt strings exc)
    (hsub : strings ⊆ strings') : rule.StopsAt strings' exc := by
  obtain ⟨text, htext, hstep⟩ := h
  exact ⟨text, hsub htext, hstep⟩

mutual
/-- A walk stops at one of the strings. -/
theorem walk_error : ∀ (doc : Json) {s s' : σ} {exc : ε}, rule.inv s →
    walkStrings leaf doc s = (s', .error exc) → rule.StopsAt (strings doc) exc
  | .str text, s, s', exc, hs, h => by
      rw [walkStrings] at h
      split at h <;> cases h
      rename_i hleaf
      exact ⟨text, List.mem_singleton_self text, s, s', hs, hleaf⟩
  | .arr items, s, s', exc, hs, h => by
      rw [walkStrings] at h
      split at h <;> cases h
      rename_i hitems
      exact items_error items hs hitems
  | .obj fields, s, s', exc, hs, h => by
      rw [walkStrings] at h
      split at h <;> cases h
      rename_i hfields
      exact fields_error fields hs hfields
  | .null, _, _, _, _, h | .bool _, _, _, _, _, h | .num _, _, _, _, _, h => by cases h

theorem items_error : ∀ (items : List Json) {s s' : σ} {exc : ε}, rule.inv s →
    walkItems leaf items s = (s', .error exc) → rule.StopsAt (stringsOfItems items) exc
  | [], _, _, _, _, h => by cases h
  | item :: items, s, s', exc, hs, h => by
      rw [walkItems] at h
      split at h
      · cases h
        rename_i hitem
        exact (walk_error item hs hitem).mono (List.subset_append_left _ _)
      · rename_i hitem
        split at h <;> cases h
        rename_i hitems
        exact (items_error items (rule.walk_ok item hs hitem).inv hitems).mono
          (List.subset_append_right _ _)

theorem fields_error : ∀ (fields : List (String × Json)) {s s' : σ} {exc : ε}, rule.inv s →
    walkFields leaf fields s = (s', .error exc) → rule.StopsAt (stringsOfFields fields) exc
  | [], _, _, _, _, h => by cases h
  | (_, value) :: fields, s, s', exc, hs, h => by
      rw [walkFields] at h
      split at h
      · cases h
        rename_i hvalue
        exact (walk_error value hs hvalue).mono (List.subset_append_left _ _)
      · rename_i hvalue
        split at h <;> cases h
        rename_i hfields
        exact (fields_error fields (rule.walk_ok value hs hvalue).inv hfields).mono
          (List.subset_append_right _ _)
end

end WalkRule

section Quiet
variable {σ : Type u} {ε : Type v} {leaf : String → σ → σ × Except ε String} {s : σ}

mutual
/-- A walk that leaves every string and the state alone leaves the document alone. -/
theorem walk_quiet : ∀ doc : Json, (∀ text ∈ strings doc, leaf text s = (s, .ok text)) →
    walkStrings leaf doc s = (s, .ok doc)
  | .str text, h => by rw [walkStrings, h text (List.mem_singleton_self text)]
  | .arr items, h => by rw [walkStrings, items_quiet items h]
  | .obj fields, h => by rw [walkStrings, fields_quiet fields h]
  | .null, _ | .bool _, _ | .num _, _ => rfl

theorem items_quiet : ∀ items : List Json,
    (∀ text ∈ stringsOfItems items, leaf text s = (s, .ok text)) →
      walkItems leaf items s = (s, .ok items)
  | [], _ => rfl
  | item :: items, h => by
      rw [walkItems, walk_quiet item fun t ht => h t (List.mem_append_left _ ht)]
      simp only [items_quiet items fun t ht => h t (List.mem_append_right _ ht)]

theorem fields_quiet : ∀ fields : List (String × Json),
    (∀ text ∈ stringsOfFields fields, leaf text s = (s, .ok text)) →
      walkFields leaf fields s = (s, .ok fields)
  | [], _ => rfl
  | (_, value) :: fields, h => by
      rw [walkFields, walk_quiet value fun t ht => h t (List.mem_append_left _ ht)]
      simp only [fields_quiet fields fun t ht => h t (List.mem_append_right _ ht)]
end

end Quiet

mutual
theorem strings_mapStrings (f : String → String) : ∀ doc : Json,
    strings (mapStrings f doc) = (strings doc).map f
  | .str _ | .null | .bool _ | .num _ => rfl
  | .arr items => strings_mapStringItems f items
  | .obj fields => strings_mapStringFields f fields

theorem strings_mapStringItems (f : String → String) : ∀ items : List Json,
    stringsOfItems (mapStringItems f items) = (stringsOfItems items).map f
  | [] => rfl
  | item :: items => by
      rw [mapStringItems, stringsOfItems, strings_mapStrings f item,
        strings_mapStringItems f items, stringsOfItems, List.map_append]

theorem strings_mapStringFields (f : String → String) : ∀ fields : List (String × Json),
    stringsOfFields (mapStringFields f fields) = (stringsOfFields fields).map f
  | [] => rfl
  | (name, value) :: fields => by
      rw [mapStringFields, stringsOfFields, strings_mapStrings f value,
        strings_mapStringFields f fields, stringsOfFields, List.map_append]
end

mutual
theorem mapStrings_eq_self {f : String → String} : ∀ doc : Json,
    (∀ text ∈ strings doc, f text = text) → mapStrings f doc = doc
  | .str text, h => congrArg Json.str (h text (List.mem_singleton_self text))
  | .arr items, h => congrArg Json.arr (mapStringItems_eq_self items h)
  | .obj fields, h => congrArg Json.obj (mapStringFields_eq_self fields h)
  | .null, _ | .bool _, _ | .num _, _ => rfl

theorem mapStringItems_eq_self {f : String → String} : ∀ items : List Json,
    (∀ text ∈ stringsOfItems items, f text = text) → mapStringItems f items = items
  | [], _ => rfl
  | item :: items, h => by
      rw [mapStringItems, mapStrings_eq_self item fun t ht => h t (List.mem_append_left _ ht),
        mapStringItems_eq_self items fun t ht => h t (List.mem_append_right _ ht)]

theorem mapStringFields_eq_self {f : String → String} : ∀ fields : List (String × Json),
    (∀ text ∈ stringsOfFields fields, f text = text) → mapStringFields f fields = fields
  | [], _ => rfl
  | (name, value) :: fields, h => by
      rw [mapStringFields, mapStrings_eq_self value fun t ht => h t (List.mem_append_left _ ht),
        mapStringFields_eq_self fields fun t ht => h t (List.mem_append_right _ ht)]
end

end Json
