import Mathlib.Data.List.Forall2
import Orchestrator.Lib.Machine

/-!
Two machines driven by the same inputs.

The states of the two are related, and their replies are compared. When a guard
is exactly what makes the replies to one input agree at related states, the
replies to a list of inputs agree, and the last states are related, exactly when
every step meets the guard. The inputs may be restricted to those that are
admitted where they arrive.
-/
universe u v w

namespace Lockstep
open Machine
variable {σ : Type u} {σ' : Type v} {ι ρ ρ' : Type w} (apply : ι → σ → ρ × σ)
  (apply' : ι → σ' → ρ' × σ')

/-- The replies to a list of inputs, in order. -/
def replies (s : σ) : List ι → List ρ
  | [] => []
  | i :: is => (apply i s).1 :: replies (apply i s).2 is

variable {admitted guard : σ → ι → Prop} {related : σ → σ' → Prop} {same : ρ → ρ' → Prop}

/-- The replies agree and the last states are related. -/
structure Agree (same : ρ → ρ' → Prop) (related : σ → σ' → Prop) (s : σ) (s' : σ')
    (is : List ι) : Prop where
  replies : List.Forall₂ same (replies apply s is) (replies apply' s' is)
  states : related (run apply s is) (run apply' s' is)

theorem agree_cons {s : σ} {s' : σ'} {i : ι} {is : List ι} :
    Agree apply apply' same related s s' (i :: is) ↔
      same (apply i s).1 (apply' i s').1 ∧
        Agree apply apply' same related (apply i s).2 (apply' i s').2 is := by
  constructor
  · intro h
    cases h.replies with
    | cons hfirst hrest => exact ⟨hfirst, hrest, h.states⟩
  · intro ⟨hfirst, hrest⟩
    exact ⟨.cons hfirst hrest.replies, hrest.states⟩

theorem agree_iff_guarded
    (step : ∀ i s s', related s s' → admitted s i → guard s i →
      same (apply i s).1 (apply' i s').1 ∧ related (apply i s).2 (apply' i s').2)
    (necessary : ∀ i s s', related s s' → admitted s i →
      same (apply i s).1 (apply' i s').1 → guard s i)
    {s : σ} {s' : σ'} {is : List ι} (hs : related s s')
    (hadmitted : Guarded apply admitted s is) :
    Agree apply apply' same related s s' is ↔ Guarded apply guard s is := by
  induction is generalizing s s' with
  | nil =>
      exact ⟨fun _ e he => absurd he List.not_mem_nil, fun _ => ⟨.nil, hs⟩⟩
  | cons i is ih =>
      obtain ⟨hi, his⟩ := (guarded_cons apply).mp hadmitted
      rw [agree_cons, guarded_cons]
      constructor
      · intro ⟨hsame, hrest⟩
        have hguard := necessary i s s' hs hi hsame
        exact ⟨hguard, (ih (step i s s' hs hi hguard).2 his).mp hrest⟩
      · intro ⟨hguard, hrest⟩
        obtain ⟨hsame, hs⟩ := step i s s' hs hi hguard
        exact ⟨hsame, (ih hs his).mpr hrest⟩

end Lockstep
