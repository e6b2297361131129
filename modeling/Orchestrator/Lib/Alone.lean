import Orchestrator.Lib.Interaction

/-!
One program alone on its store.

The outside world is known by what it may answer. `Ensures` is total correctness
under every such answer: the program ends, makes only the calls it is allowed to
make, and its result and the store it leaves satisfy the postcondition. The rules
follow the tree; soundness relates them to runs.
-/
universe u

namespace Prog
variable {S : Signature} {σ : Type u} {α β : Type}

/-- One program alone on the store; the `n`-th call is answered by `answers n`.
A hanging program has no outcome. The calls are returned in order. -/
def runAlone {σ : Type u} (apply : (o : S.Op) → σ → S.Reply o × σ)
    (answers : Nat → (c : S.Call) → S.Answer c) :
    Prog S α → σ → Nat → Option α × σ × List S.Call
  | .ret a, s, _ => (some a, s, [])
  | .hang, s, _ => (none, s, [])
  | .op o next, s, n => (next (apply o s).1).runAlone apply answers (apply o s).2 n
  | .call c next, s, n =>
      let (out, s', calls) := (next (answers n c)).runAlone apply answers s (n + 1)
      (out, s', c :: calls)

/-- What follows a program that ended runs on the store it left. -/
theorem runAlone_bind {apply : (o : S.Op) → σ → S.Reply o × σ}
    {answers : Nat → (c : S.Call) → S.Answer c} (p : Prog S α) (f : α → Prog S β) {s s' : σ}
    {n : Nat} {a : α} {calls : List S.Call}
    (h : p.runAlone apply answers s n = (some a, s', calls)) :
    (p.bind f).runAlone apply answers s n =
      let rest := (f a).runAlone apply answers s' (n + calls.length)
      (rest.1, rest.2.1, calls ++ rest.2.2) := by
  induction p generalizing s n calls with
  | ret b =>
      simp only [runAlone, Prod.mk.injEq, Option.some.injEq] at h
      obtain ⟨rfl, rfl, rfl⟩ := h
      rfl
  | hang => simp [runAlone] at h
  | op o next ih => exact ih _ h
  | call c next ih =>
      simp only [runAlone, Prod.mk.injEq] at h
      obtain ⟨hout, hstore, rfl⟩ := h
      have hrest : (next (answers n c)).runAlone apply answers s (n + 1) = (some a, s', _) :=
        Prod.ext hout (Prod.ext hstore rfl)
      rw [bind, runAlone, ih (answers n c) hrest]
      simp [Nat.add_assoc, Nat.add_comm]

section Ensures
variable (apply : (o : S.Op) → σ → S.Reply o × σ) (allowed : S.Call → Prop)
  (may : (c : S.Call) → S.Answer c → Prop)

def Ensures : Prog S α → (α → σ → Prop) → σ → Prop
  | .ret a, post, s => post a s
  | .hang, _, _ => False
  | .op o next, post, s => Ensures (next (apply o s).1) post (apply o s).2
  | .call c next, post, s => allowed c ∧ ∀ a, may c a → Ensures (next a) post s

theorem ensures_bind (p : Prog S α) (f : α → Prog S β) (post : β → σ → Prop) (s : σ) :
    (p.bind f).Ensures apply allowed may post s ↔
      p.Ensures apply allowed may (fun a s' => (f a).Ensures apply allowed may post s') s := by
  induction p generalizing s with
  | ret a => rfl
  | hang => rfl
  | op o next ih => exact ih _ _
  | call c next ih => simp only [bind, Ensures, ih]

variable {apply allowed may}

theorem Ensures.mono {p : Prog S α} {post post' : α → σ → Prop} {s : σ}
    (h : p.Ensures apply allowed may post s) (hpost : ∀ a s', post a s' → post' a s') :
    p.Ensures apply allowed may post' s := by
  induction p generalizing s with
  | ret a => exact hpost a s h
  | hang => exact h
  | op o next ih => exact ih _ h
  | call c next ih => exact ⟨h.1, fun a ha => ih a (h.2 a ha)⟩

/-- What is ensured holds of the run under any admitted answers. -/
theorem Ensures.runAlone {p : Prog S α} {post : α → σ → Prop} {s : σ}
    (h : p.Ensures apply allowed may post s)
    {answers : Nat → (c : S.Call) → S.Answer c} (hanswers : ∀ n c, may c (answers n c))
    (n : Nat) :
    ∃ a s' calls, p.runAlone apply answers s n = (some a, s', calls) ∧
      (∀ c ∈ calls, allowed c) ∧ post a s' := by
  induction p generalizing s n with
  | ret a => exact ⟨a, s, [], rfl, nofun, h⟩
  | hang => cases h
  | op o next ih => exact ih _ h n
  | call c next ih =>
      obtain ⟨a, s', calls, hrun, hcalls, hpost⟩ :=
        ih (answers n c) (h.2 _ (hanswers n c)) (n + 1)
      refine ⟨a, s', c :: calls, ?_, ?_, hpost⟩
      · rw [Prog.runAlone, hrun]
      · intro d hd
        rcases List.mem_cons.mp hd with rfl | hd
        · exact h.1
        · exact hcalls d hd

end Ensures

end Prog
