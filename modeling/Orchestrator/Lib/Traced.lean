import Orchestrator.Lib.Outcome

/-!
Loops that make calls and stop at the first element that raises.

The result of the loop is that of the plain traversal; its calls are those of the
elements it came to, the one that raised included.
-/
universe u v

namespace Traced
variable {κ : Type v} {ε α β : Type u}

def traverse (f : α → List κ × Except ε β) : List α → List κ × Except ε (List β)
  | [] => ([], .ok [])
  | a :: l =>
      match (f a).2 with
      | .error exc => ((f a).1, .error exc)
      | .ok b => ((f a).1 ++ (traverse f l).1, (traverse f l).2.map (b :: ·))

variable {f : α → List κ × Except ε β} {l : List α}

theorem traverse_cons_error {a : α} {exc : ε} (h : (f a).2 = .error exc) :
    traverse f (a :: l) = ((f a).1, .error exc) := by
  rw [traverse, h]

theorem traverse_cons_ok {a : α} {b : β} (h : (f a).2 = .ok b) :
    traverse f (a :: l) = ((f a).1 ++ (traverse f l).1, (traverse f l).2.map (b :: ·)) := by
  rw [traverse, h]

theorem traverse_result (f : α → List κ × Except ε β) (l : List α) :
    (traverse f l).2 = l.mapM fun a => (f a).2 := by
  induction l with
  | nil => rfl
  | cons a l ih =>
      rw [List.mapM_cons]
      cases ha : (f a).2 with
      | error exc =>
          rw [traverse_cons_error ha]
          rfl
      | ok b =>
          rw [traverse_cons_ok ha, ih]
          cases (l.mapM fun a => (f a).2) <;> rfl

/-- A loop that does not raise makes the calls of all its elements. -/
theorem calls_of_ok {out : List β} (h : (traverse f l).2 = .ok out) :
    (traverse f l).1 = l.flatMap fun a => (f a).1 := by
  induction l generalizing out with
  | nil => rfl
  | cons a l ih =>
      cases ha : (f a).2 with
      | error exc =>
          rw [traverse_cons_error ha] at h
          cases h
      | ok b =>
          rw [traverse_cons_ok ha] at h ⊢
          obtain ⟨rest, hrest, -⟩ := Outcome.ok_of_map h
          rw [List.flatMap_cons, ih hrest]

/-- However it ends, a loop makes no other calls than those of its elements, in their order. -/
theorem calls_sublist (f : α → List κ × Except ε β) (l : List α) :
    (traverse f l).1.Sublist (l.flatMap fun a => (f a).1) := by
  induction l with
  | nil => exact .slnil
  | cons a l ih =>
      cases ha : (f a).2 with
      | error exc =>
          rw [traverse_cons_error ha, List.flatMap_cons]
          exact List.sublist_append_left _ _
      | ok b =>
          rw [traverse_cons_ok ha, List.flatMap_cons]
          exact (List.Sublist.refl _).append ih

/-- The element that a loop stops at, and the calls made by then. -/
theorem stopped {exc : ε} (h : (traverse f l).2 = .error exc) :
    ∃ before a after, l = before ++ a :: after ∧ (f a).2 = .error exc ∧
      (∀ b ∈ before, ∃ r, (f b).2 = .ok r) ∧
      (traverse f l).1 = before.flatMap (fun b => (f b).1) ++ (f a).1 := by
  induction l with
  | nil => cases h
  | cons a l ih =>
      cases ha : (f a).2 with
      | error exc' =>
          rw [traverse_cons_error ha] at h ⊢
          cases h
          exact ⟨[], a, l, rfl, ha, fun _ hb => absurd hb List.not_mem_nil, rfl⟩
      | ok b =>
          rw [traverse_cons_ok ha] at h ⊢
          have hrest : (traverse f l).2 = .error exc := by
            cases hl : (traverse f l).2 with
            | error exc' =>
                rw [hl] at h
                cases h
                rfl
            | ok out =>
                rw [hl] at h
                cases h
          obtain ⟨before, a', after, rfl, herror, hok, hcalls⟩ := ih hrest
          refine ⟨a :: before, a', after, rfl, herror, ?_, ?_⟩
          · exact List.forall_mem_cons.mpr ⟨⟨b, ha⟩, hok⟩
          · rw [hcalls, List.flatMap_cons, List.append_assoc]

/-- A loop whose elements before some other do not raise stops there when that does. -/
theorem stops {before : List α} (after : List α) {a : α} {exc : ε}
    (hok : ∀ b ∈ before, ∃ r, (f b).2 = .ok r) (ha : (f a).2 = .error exc) :
    traverse f (before ++ a :: after) =
      (before.flatMap (fun b => (f b).1) ++ (f a).1, .error exc) := by
  induction before with
  | nil => exact traverse_cons_error ha
  | cons b before ih =>
      obtain ⟨⟨r, hr⟩, hrest⟩ := List.forall_mem_cons.mp hok
      rw [List.cons_append, traverse_cons_ok hr, ih hrest, List.flatMap_cons, List.append_assoc]
      rfl

/-- The first element with a property. -/
theorem exists_first {p : α → Prop} [DecidablePred p] (h : ∃ a ∈ l, p a) :
    ∃ before a after, l = before ++ a :: after ∧ p a ∧ ∀ b ∈ before, ¬ p b := by
  have hfound : (l.find? fun a => p a).isSome = true := by simpa using h
  obtain ⟨a, ha⟩ := Option.isSome_iff_exists.mp hfound
  obtain ⟨hp, before, after, rfl, hbefore⟩ := List.find?_eq_some_iff_append.mp ha
  exact ⟨before, a, after, rfl, by simpa using hp, fun b hb => by simpa using hbefore b hb⟩

def bind (x : List κ × Except ε α) (f : α → List κ × Except ε β) : List κ × Except ε β :=
  match x.2 with
  | .error exc => (x.1, .error exc)
  | .ok a => (x.1 ++ (f a).1, (f a).2)

/-- A computation without calls. -/
def quiet (r : Except ε α) : List κ × Except ε α := ([], r)

/-- The same computation, its calls described further. -/
def tag {κ' : Type v} (describe : κ → κ') (x : List κ × Except ε α) : List κ' × Except ε α :=
  (x.1.map describe, x.2)

theorem bind_result (x : List κ × Except ε α) (f : α → List κ × Except ε β) :
    (bind x f).2 = x.2 >>= fun a => (f a).2 := by
  rw [bind]
  cases x.2 <;> rfl

theorem bind_calls_of_error {x : List κ × Except ε α} {f : α → List κ × Except ε β} {exc : ε}
    (h : x.2 = .error exc) : (bind x f).1 = x.1 := by
  rw [bind, h]

theorem bind_calls_of_ok {x : List κ × Except ε α} {f : α → List κ × Except ε β} {a : α}
    (h : x.2 = .ok a) : (bind x f).1 = x.1 ++ (f a).1 := by
  rw [bind, h]

/-- What follows without calls adds none. -/
theorem bind_quiet_calls (x : List κ × Except ε α) (f : α → Except ε β) :
    (bind x fun a => quiet (f a)).1 = x.1 := by
  cases h : x.2 with
  | error exc => exact bind_calls_of_error h
  | ok a => exact (bind_calls_of_ok h).trans (List.append_nil x.1)

/-- A call of a computation is one of its first part or of what follows a result. -/
theorem mem_bind {x : List κ × Except ε α} {f : α → List κ × Except ε β} {call : κ} :
    call ∈ (bind x f).1 ↔ call ∈ x.1 ∨ ∃ a, x.2 = .ok a ∧ call ∈ (f a).1 := by
  rw [bind]
  cases x.2 with
  | error exc => simp
  | ok a => simp

theorem mem_tag {κ' : Type v} {describe : κ → κ'} {x : List κ × Except ε α} {call : κ'} :
    call ∈ (tag describe x).1 ↔ ∃ inner ∈ x.1, describe inner = call := List.mem_map

end Traced
