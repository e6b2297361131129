import Orchestrator.Lib.Interaction

/-!
One program beside others on the same store.

Nothing is assumed about the answers of the outside world. While a call is
awaited the others may move the store, as far as `meanwhile` lets them. `Ends` is
what a run of the program can come to; `Gives` is partial correctness by recursion
on the tree, and says the same.
-/
universe u

namespace Prog
variable {S : Signature} {σ : Type u} {α β : Type}
  (apply : (o : S.Op) → σ → S.Reply o × σ) (meanwhile : S.Call → σ → σ → Prop)

/-- A run of the program from the store ends with the result and the store. -/
inductive Ends : Prog S α → σ → α → σ → Prop where
  | ret {a : α} {s : σ} : Ends (.ret a) s a s
  | op {o : S.Op} {next : S.Reply o → Prog S α} {s s' : σ} {a : α}
      (h : Ends (next (apply o s).1) (apply o s).2 a s') : Ends (.op o next) s a s'
  | call {c : S.Call} {next : S.Answer c → Prog S α} {answer : S.Answer c} {s s₁ s' : σ}
      {a : α} (hothers : meanwhile c s s₁) (h : Ends (next answer) s₁ a s') :
      Ends (.call c next) s a s'

def Gives : Prog S α → (α → σ → Prop) → σ → Prop
  | .ret a, post, s => post a s
  | .hang, _, _ => True
  | .op o next, post, s => Gives (next (apply o s).1) post (apply o s).2
  | .call c next, post, s => ∀ answer s₁, meanwhile c s s₁ → Gives (next answer) post s₁

variable {apply meanwhile}

theorem gives_iff {p : Prog S α} {post : α → σ → Prop} {s : σ} :
    p.Gives apply meanwhile post s ↔ ∀ a s', p.Ends apply meanwhile s a s' → post a s' := by
  constructor
  · intro h a s' hend
    induction hend with
    | ret => exact h
    | op _ ih => exact ih h
    | call hothers _ ih => exact ih (h _ _ hothers)
  · intro h
    induction p generalizing s with
    | ret a => exact h a s .ret
    | hang => trivial
    | op o next ih => exact ih _ fun a s' hend => h a s' (.op hend)
    | call c next ih =>
        exact fun answer s₁ hothers => ih answer fun a s' hend => h a s' (.call hothers hend)

theorem gives_bind (p : Prog S α) (f : α → Prog S β) (post : β → σ → Prop) (s : σ) :
    (p.bind f).Gives apply meanwhile post s ↔
      p.Gives apply meanwhile (fun a s' => (f a).Gives apply meanwhile post s') s := by
  induction p generalizing s with
  | ret a => rfl
  | hang => rfl
  | op o next ih => exact ih _ _
  | call c next ih => simp only [bind, Gives, ih]

theorem Gives.mono {p : Prog S α} {post post' : α → σ → Prop} {s : σ}
    (h : p.Gives apply meanwhile post s) (hpost : ∀ a s', post a s' → post' a s') :
    p.Gives apply meanwhile post' s := by
  induction p generalizing s with
  | ret a => exact hpost a s h
  | hang => trivial
  | op o next ih => exact ih _ h
  | call c next ih => exact fun answer s₁ hothers => ih answer (h answer s₁ hothers)

end Prog
