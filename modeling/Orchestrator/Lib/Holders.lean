import Mathlib.Logic.Function.Basic

/-!
Who holds an office.

A register says for each member which office it holds, if any. The rules say
when somebody, or somebody else than a given member, holds an office after the
entry of one member was changed.
-/
universe u v

namespace Holders
variable {κ : Type u} {ρ : Type v} (register : κ → Option ρ) (office : ρ) (k : κ)

def Held : Prop := ∃ k, register k = some office

def HeldByOther : Prop := ∃ k', k' ≠ k ∧ register k' = some office

variable {register office k}

theorem HeldByOther.held (h : HeldByOther register office k) : Held register office := by
  obtain ⟨k', -, hk'⟩ := h
  exact ⟨k', hk'⟩

/-- When somebody holds the office but not a certain member, somebody else does. -/
theorem Held.other (h : Held register office) (hk : register k ≠ some office) :
    HeldByOther register office k := by
  obtain ⟨k', hk'⟩ := h
  exact ⟨k', fun heq => hk (heq ▸ hk'), hk'⟩

variable [DecidableEq κ] {entry : Option ρ}

theorem held_update_iff : Held (Function.update register k entry) office ↔
    entry = some office ∨ HeldByOther register office k := by
  constructor
  · intro ⟨k', hk'⟩
    by_cases h : k' = k
    · subst h
      exact Or.inl (by simpa using hk')
    · exact Or.inr ⟨k', h, by simpa [h] using hk'⟩
  · intro h
    cases h with
    | inl h => exact ⟨k, by simpa using h⟩
    | inr h =>
        obtain ⟨k', hne, hk'⟩ := h
        exact ⟨k', by simpa [hne] using hk'⟩

/-- A change that takes the office from nobody keeps it held. -/
theorem Held.update (h : Held register office)
    (hkeeps : register k = some office → entry = some office) :
    Held (Function.update register k entry) office := by
  rw [held_update_iff]
  by_cases hk : register k = some office
  · exact Or.inl (hkeeps hk)
  · exact Or.inr (h.other hk)

end Holders
