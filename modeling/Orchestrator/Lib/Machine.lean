import Mathlib.Data.List.Basic
import Mathlib.Order.Basic

/-!
Deterministic machines driven by a list of inputs.

Each input is applied atomically; the log keeps, for every input, the state it
met, the reply and the state it left. An arbitrary interleaving of atomic calls
is an arbitrary input list, so a statement about every run is a statement about
every list. The rules below turn one-step facts into facts about runs, about
the states met on the way and about what later steps may still change.
-/
universe u v w

namespace Machine
variable {σ : Type u} {ι : Type v} {ρ : Type w} (apply : ι → σ → ρ × σ)

structure Event (σ : Type u) (ι : Type v) (ρ : Type w) where
  before : σ
  input : ι
  reply : ρ
  after : σ

def event (s : σ) (i : ι) : Event σ ι ρ := ⟨s, i, (apply i s).1, (apply i s).2⟩

def run (s : σ) : List ι → σ
  | [] => s
  | i :: is => run (apply i s).2 is

def log (s : σ) : List ι → List (Event σ ι ρ)
  | [] => []
  | i :: is => event apply s i :: log (apply i s).2 is

theorem run_append (s : σ) (is js : List ι) :
    run apply s (is ++ js) = run apply (run apply s is) js := by
  induction is generalizing s with
  | nil => rfl
  | cons i is ih => exact ih (apply i s).2

theorem run_concat (s : σ) (is : List ι) (i : ι) :
    run apply s (is ++ [i]) = (apply i (run apply s is)).2 := by
  rw [run_append]
  rfl

theorem log_append (s : σ) (is js : List ι) :
    log apply s (is ++ js) = log apply s is ++ log apply (run apply s is) js := by
  induction is generalizing s with
  | nil => rfl
  | cons i is ih => exact congrArg (event apply s i :: ·) (ih (apply i s).2)

theorem log_concat (s : σ) (is : List ι) (i : ι) :
    log apply s (is ++ [i]) = log apply s is ++ [event apply (run apply s is) i] :=
  log_append apply s is [i]

/-- Every logged event is one application at a state the run reached. -/
theorem mem_log {s : σ} {is : List ι} {e : Event σ ι ρ} :
    e ∈ log apply s is ↔
      ∃ pre i post, is = pre ++ i :: post ∧ e = event apply (run apply s pre) i := by
  induction is generalizing s with
  | nil => simp [log]
  | cons i is ih =>
      rw [log, List.mem_cons, ih]
      constructor
      · rintro (rfl | ⟨pre, j, post, rfl, rfl⟩)
        · exact ⟨[], i, is, rfl, rfl⟩
        · exact ⟨i :: pre, j, post, rfl, rfl⟩
      · rintro ⟨pre, j, post, h, rfl⟩
        cases pre with
        | nil =>
            obtain ⟨rfl, rfl⟩ := List.cons.inj h
            exact Or.inl rfl
        | cons k pre =>
            obtain ⟨rfl, rfl⟩ := List.cons.inj h
            exact Or.inr ⟨pre, j, post, rfl, rfl⟩

section Invariant
variable {inv : σ → Prop} {guard : σ → ι → Prop}

/-- The steps of a run all meet `guard`, each at the state it is taken in. -/
def Guarded (guard : σ → ι → Prop) (s : σ) (is : List ι) : Prop :=
  ∀ e ∈ log apply s is, guard e.before e.input

instance [∀ s i, Decidable (guard s i)] (s : σ) (is : List ι) :
    Decidable (Guarded apply guard s is) :=
  inferInstanceAs (Decidable (∀ e ∈ log apply s is, guard e.before e.input))

theorem guarded_cons {s : σ} {i : ι} {is : List ι} :
    Guarded apply guard s (i :: is) ↔
      guard s i ∧ Guarded apply guard (apply i s).2 is := by
  simp [Guarded, log, event]

theorem guarded_append {s : σ} {is js : List ι} :
    Guarded apply guard s (is ++ js) ↔
      Guarded apply guard s is ∧ Guarded apply guard (run apply s is) js := by
  simp [Guarded, log_append, or_imp, forall_and]

/-- What a guarded step preserves, a guarded run preserves. -/
theorem run_invariant_of_guarded
    (step : ∀ s i, inv s → guard s i → inv (apply i s).2)
    {s : σ} {is : List ι} (hs : inv s) (hg : Guarded apply guard s is) :
    inv (run apply s is) := by
  induction is generalizing s with
  | nil => exact hs
  | cons i is ih =>
      obtain ⟨hi, his⟩ := (guarded_cons apply).mp hg
      exact ih (step s i hs hi) his

theorem run_invariant (step : ∀ s i, inv s → inv (apply i s).2)
    {s : σ} (hs : inv s) (is : List ι) : inv (run apply s is) :=
  run_invariant_of_guarded apply (fun s i h (_ : True) => step s i h) hs
    (fun _ _ => True.intro)

/-- How far a run has to go: no step takes it back, a step that is needed takes it on,
and what is needed stays so until the run is taken on. -/
structure Ranked (inv : σ → Prop) (rank : σ → Nat) (needs : σ → ι → Prop) : Prop where
  closed : ∀ s i, inv s → inv (apply i s).2
  mono : ∀ s i, inv s → rank (apply i s).2 ≤ rank s
  needed : ∀ s i, inv s → needs s i → rank (apply i s).2 < rank s
  stays : ∀ s i j, inv s → rank (apply i s).2 = rank s → needs s j → needs (apply i s).2 j

namespace Ranked
variable {apply} {rank : σ → Nat} {needs : σ → ι → Prop} (h : Ranked apply inv rank needs)
include h

theorem run_le {s : σ} (hs : inv s) (is : List ι) : rank (run apply s is) ≤ rank s := by
  induction is generalizing s with
  | nil => exact Nat.le_refl _
  | cons i is ih => exact Nat.le_trans (ih (h.closed s i hs)) (h.mono s i hs)

/-- A round with a needed step takes the run on. -/
theorem run_lt {s : σ} {is : List ι} {j : ι} (hs : inv s) (hj : j ∈ is) (hneeds : needs s j) :
    rank (run apply s is) < rank s := by
  induction is generalizing s with
  | nil => cases hj
  | cons i is ih =>
      have hclosed := h.closed s i hs
      rcases Nat.eq_or_lt_of_le (h.mono s i hs) with hsame | hless
      · rcases List.mem_cons.mp hj with rfl | hj
        · exact absurd hsame (Nat.ne_of_lt (h.needed s j hs hneeds))
        · exact hsame ▸ ih hclosed hj (h.stays s i j hs hsame hneeds)
      · exact Nat.lt_of_le_of_lt (h.run_le hclosed is) hless

/-- As many rounds as the run has to go take it to its end. -/
theorem rank_run_flatten {s : σ} (hs : inv s) {rounds : List (List ι)}
    (hrounds : ∀ round ∈ rounds, ∀ s, inv s → 0 < rank s → ∃ i ∈ round, needs s i)
    (hlength : rank s ≤ rounds.length) : rank (run apply s rounds.flatten) = 0 := by
  induction rounds generalizing s with
  | nil => exact Nat.le_zero.mp hlength
  | cons round rounds ih =>
      obtain ⟨hround, hrounds⟩ := List.forall_mem_cons.mp hrounds
      rw [List.length_cons] at hlength
      rw [List.flatten_cons, run_append]
      have hle := h.run_le hs round
      refine ih (run_invariant apply h.closed hs round) hrounds ?_
      rcases Nat.eq_zero_or_pos (rank s) with hzero | hpos
      · omega
      · obtain ⟨i, hi, hneeds⟩ := hround s hs hpos
        have hlt := h.run_lt hs hi hneeds
        omega

end Ranked

/-- When a guard is exactly what keeps an invariant good, the states of a run
are all good exactly when all its steps meet the guard. -/
theorem guarded_iff_prefixes {good : σ → Prop} (hgood : ∀ s, inv s → good s)
    (step : ∀ s i, inv s → guard s i → inv (apply i s).2)
    (necessary : ∀ s i, inv s → good (apply i s).2 → guard s i)
    {s : σ} {is : List ι} (hs : inv s) :
    Guarded apply guard s is ↔
      ∀ pre post, is = pre ++ post → good (run apply s pre) := by
  constructor
  · rintro hg pre post rfl
    exact hgood _ (run_invariant_of_guarded apply step hs ((guarded_append apply).mp hg).1)
  · intro h
    induction is generalizing s with
    | nil => exact fun e he => absurd he List.not_mem_nil
    | cons i is ih =>
        have hi : guard s i := necessary s i hs (h [i] is rfl)
        refine (guarded_cons apply).mpr ⟨hi, ih (step s i hs hi) ?_⟩
        rintro pre post rfl
        exact h (i :: pre) post rfl

/-- When a guard is exactly what makes one step respect a preorder on states,
any two states of a run are related exactly when all its steps meet the guard. -/
theorem guarded_iff_related {rel : σ → σ → Prop} (hrefl : ∀ s, rel s s)
    (htrans : ∀ s t u, rel s t → rel t u → rel s u)
    (step : ∀ s i, rel s (apply i s).2 ↔ guard s i) (s : σ) (is : List ι) :
    Guarded apply guard s is ↔
      ∀ pre mid post, is = pre ++ mid ++ post →
        rel (run apply s pre) (run apply s (pre ++ mid)) := by
  have hrun : ∀ (mid : List ι) (s : σ), Guarded apply guard s mid → rel s (run apply s mid) := by
    intro mid
    induction mid with
    | nil => exact fun s _ => hrefl s
    | cons i mid ih =>
        intro s hg
        obtain ⟨hi, hmid⟩ := (guarded_cons apply).mp hg
        exact htrans _ _ _ ((step s i).mpr hi) (ih _ hmid)
  constructor
  · rintro hg pre mid post rfl
    rw [run_append]
    exact hrun mid _ ((guarded_append apply).mp ((guarded_append apply).mp hg).1).2
  · intro h e he
    obtain ⟨pre, i, post, rfl, rfl⟩ := (mem_log apply).mp he
    have hrel := h pre [i] post (by simp)
    rw [run_concat] at hrel
    exact (step _ i).mp hrel

/-- When no step shrinks a quantity and a guard is exactly what keeps it from
growing, a run leaves it as it was exactly when all its steps meet the guard. -/
theorem guarded_iff_unchanged {α : Type*} [PartialOrder α] {g : σ → α} {allowed : ι → Prop}
    (closed : ∀ s i, inv s → allowed i → inv (apply i s).2)
    (mono : ∀ s i, inv s → allowed i → g s ≤ g (apply i s).2)
    (step : ∀ s i, inv s → allowed i → (g (apply i s).2 = g s ↔ guard s i)) {s : σ} {is : List ι}
    (hs : inv s) (h : ∀ i ∈ is, allowed i) :
    Guarded apply guard s is ↔ g (run apply s is) = g s := by
  have hgrows : ∀ (is : List ι) (s : σ), inv s → (∀ i ∈ is, allowed i) →
      g s ≤ g (run apply s is) := by
    intro is
    induction is with
    | nil => exact fun s _ _ => le_refl _
    | cons i is ih =>
        intro s hs h
        obtain ⟨hi, his⟩ := List.forall_mem_cons.mp h
        exact (mono s i hs hi).trans (ih _ (closed s i hs hi) his)
  induction is generalizing s with
  | nil => simp [Guarded, log, run]
  | cons i is ih =>
      obtain ⟨hi, his⟩ := List.forall_mem_cons.mp h
      have hnext := closed s i hs hi
      have htail : Guarded apply guard (apply i s).2 is ↔
          g (run apply (apply i s).2 is) = g (apply i s).2 := ih hnext his
      rw [guarded_cons, htail, ← step s i hs hi, run]
      constructor
      · exact fun hsame => hsame.2.trans hsame.1
      · intro hsame
        have hfirst : g (apply i s).2 = g s :=
          le_antisymm (hsame ▸ hgrows is _ hnext his) (mono s i hs hi)
        exact ⟨hfirst, hsame.trans hfirst.symm⟩

end Invariant

end Machine
