/-!
JSON documents as Python holds them after a JSONB column gave them back.

An object lists its fields once each. JSONB and Python both ignore the order of
the fields, so an object stands for its fields in one fixed order and equality
of documents is equality of terms. Numbers are exact.
-/

inductive Json where
  | null
  | bool (b : Bool)
  | num (q : Rat)
  | str (s : String)
  | arr (items : List Json)
  | obj (fields : List (String × Json))

namespace Json

mutual
def beq : Json → Json → Bool
  | .null, .null => true
  | .bool a, .bool b => a = b
  | .num a, .num b => a = b
  | .str a, .str b => a = b
  | .arr as, .arr bs => beqItems as bs
  | .obj as, .obj bs => beqFields as bs
  | _, _ => false

def beqItems : List Json → List Json → Bool
  | [], [] => true
  | a :: as, b :: bs => beq a b && beqItems as bs
  | _, _ => false

def beqFields : List (String × Json) → List (String × Json) → Bool
  | [], [] => true
  | (k, a) :: as, (l, b) :: bs => k = l && beq a b && beqFields as bs
  | _, _ => false
end

mutual
theorem beq_iff : ∀ a b : Json, beq a b = true ↔ a = b
  | .null, b => by cases b <;> simp [beq]
  | .bool _, b => by cases b <;> simp [beq]
  | .num _, b => by cases b <;> simp [beq]
  | .str _, b => by cases b <;> simp [beq]
  | .arr as, b => by
      cases b with
      | arr bs => simpa [beq] using beqItems_iff as bs
      | _ => simp [beq]
  | .obj as, b => by
      cases b with
      | obj bs => simpa [beq] using beqFields_iff as bs
      | _ => simp [beq]

theorem beqItems_iff : ∀ as bs : List Json, beqItems as bs = true ↔ as = bs
  | [], bs => by cases bs <;> simp [beqItems]
  | a :: as, bs => by
      cases bs with
      | nil => simp [beqItems]
      | cons b bs => simp [beqItems, beq_iff a b, beqItems_iff as bs]

theorem beqFields_iff : ∀ as bs : List (String × Json), beqFields as bs = true ↔ as = bs
  | [], bs => by cases bs <;> simp [beqFields]
  | (k, a) :: as, bs => by
      cases bs with
      | nil => simp [beqFields]
      | cons b bs =>
          obtain ⟨l, b⟩ := b
          simp [beqFields, beq_iff a b, beqFields_iff as bs, and_assoc]
end

instance : DecidableEq Json := fun a b => decidable_of_iff _ (beq_iff a b)

instance : Inhabited Json := ⟨.null⟩

/-- `document.get(name)` of a dictionary; `none` for a missing field and for a
document that is no dictionary. -/
def get? : Json → String → Option Json
  | .obj fields, name => (fields.find? (fun f => f.1 = name)).map Prod.snd
  | _, _ => none

/-- `{**fields, name: value}`: the place of a field that exists is kept. -/
def setField : List (String × Json) → String → Json → List (String × Json)
  | [], name, value => [(name, value)]
  | f :: fields, name, value =>
      if f.1 = name then (name, value) :: fields else f :: setField fields name value

/-- `{**fields, **updates}`. -/
def merge (fields updates : List (String × Json)) : List (String × Json) :=
  updates.foldl (fun acc f => setField acc f.1 f.2) fields

/-- `isinstance(document, dict) and document`. -/
def isNonEmptyDict : Json → Bool
  | .obj (_ :: _) => true
  | _ => false

/-- `bool(document)`. -/
def truthy : Json → Bool
  | .null => false
  | .bool b => b
  | .num q => q ≠ 0
  | .str s => s ≠ ""
  | .arr items => !items.isEmpty
  | .obj fields => !fields.isEmpty

def nat (n : Nat) : Json := .num n

end Json

example : Json.obj [("a", .num 3), ("b", .arr [.null])] ≠ .obj [("a", .num 3)] := by decide
