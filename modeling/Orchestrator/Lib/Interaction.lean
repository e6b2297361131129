import Mathlib.Data.List.Induction
import Mathlib.Logic.Function.Basic
import Orchestrator.Lib.Machine

/-!
Programs that interleave on one shared store.

A program is a tree: an atomic operation on the store continues with its reply,
a call to the outside world continues with its answer. Any number of programs
run at once; between the invocation of a call and its answer anything may
happen, and a program may crash wherever it stands. A protocol is an automaton
over what one program does. Following it is a property of the tree alone, and
the induction rule at the end transports it to every interleaving, so an
invariant over store, phases and history is proved without the programs.
-/
universe u v

structure Signature where
  Op : Type
  Reply : Op → Type
  Call : Type
  Answer : Call → Type

inductive Prog (S : Signature) (α : Type) where
  | ret (a : α)
  /-- A computation that takes no further visible step. -/
  | hang
  | op (o : S.Op) (next : S.Reply o → Prog S α)
  | call (c : S.Call) (next : S.Answer c → Prog S α)

namespace Prog
variable {S : Signature} {α β : Type}

def bind : Prog S α → (α → Prog S β) → Prog S β
  | .ret a, f => f a
  | .hang, _ => .hang
  | .op o next, f => .op o (fun r => (next r).bind f)
  | .call c next, f => .call c (fun a => (next a).bind f)

end Prog

inductive Thread (S : Signature) (α : Type) where
  | ready (p : Prog S α)
  | waiting (c : S.Call) (next : S.Answer c → Prog S α)

/-- `next` is the name the next thread gets; a crashed thread is gone. -/
structure System (σ : Type u) (S : Signature) (α : Type) where
  store : σ
  threads : Nat → Option (Thread S α)
  next : Nat

/-- What the scheduler and the world decide; `answer` fixes the answer to
whatever call the thread awaits. -/
inductive Choice (ε : Type v) (S : Signature) where
  | spawn (e : ε)
  | commit (i : Nat)
  | invoke (i : Nat)
  | answer (i : Nat) (a : (c : S.Call) → S.Answer c)
  | crash (i : Nat)

inductive Note (S : Signature) where
  | silent
  | committed (i : Nat) (o : S.Op) (r : S.Reply o)
  | invoked (i : Nat) (c : S.Call)
  | answered (i : Nat) (c : S.Call) (a : S.Answer c)

namespace System
variable {σ : Type u} {ε : Type v} {S : Signature} {α : Type}

def initial (s : σ) : System σ S α := ⟨s, fun _ => none, 0⟩

def setThread (s : System σ S α) (i : Nat) (t : Option (Thread S α)) : System σ S α :=
  { s with threads := Function.update s.threads i t }

@[simp] theorem setThread_store (s : System σ S α) (i : Nat) (t : Option (Thread S α)) :
    (s.setThread i t).store = s.store := rfl

@[simp] theorem setThread_next (s : System σ S α) (i : Nat) (t : Option (Thread S α)) :
    (s.setThread i t).next = s.next := rfl

@[simp] theorem setThread_threads (s : System σ S α) (i : Nat) (t : Option (Thread S α)) :
    (s.setThread i t).threads = Function.update s.threads i t := rfl

/-- The result of a thread that ran to its end. -/
def outcome? (s : System σ S α) (i : Nat) : Option α :=
  match s.threads i with
  | some (.ready (.ret a)) => some a
  | _ => none

variable (apply : (o : S.Op) → σ → S.Reply o × σ) (prog : ε → Prog S α)

/-- A choice that the state does not admit changes nothing. -/
def step : Choice ε S → System σ S α → Note S × System σ S α
  | .spawn e, s =>
      (.silent, { s.setThread s.next (some (.ready (prog e))) with next := s.next + 1 })
  | .commit i, s =>
      match s.threads i with
      | some (.ready (.op o next)) =>
          let (r, store) := apply o s.store
          (.committed i o r, { s.setThread i (some (.ready (next r))) with store })
      | _ => (.silent, s)
  | .invoke i, s =>
      match s.threads i with
      | some (.ready (.call c next)) =>
          (.invoked i c, s.setThread i (some (.waiting c next)))
      | _ => (.silent, s)
  | .answer i a, s =>
      match s.threads i with
      | some (.waiting c next) =>
          (.answered i c (a c), s.setThread i (some (.ready (next (a c)))))
      | _ => (.silent, s)
  | .crash i, s => (.silent, s.setThread i none)

theorem step_commit {s : System σ S α} {i : Nat} {o : S.Op} {next : S.Reply o → Prog S α}
    (h : s.threads i = some (.ready (.op o next))) :
    step apply prog (.commit i) s =
      (.committed i o (apply o s.store).1,
        { s.setThread i (some (.ready (next (apply o s.store).1))) with
          store := (apply o s.store).2 }) := by
  simp only [step, h]

theorem step_commit_ended {s : System σ S α} {i : Nat} {a : α}
    (h : s.threads i = some (.ready (.ret a))) : step apply prog (.commit i) s = (.silent, s) := by
  simp only [step, h]

/-- The state after a history of choices. -/
def after (s : σ) (choices : List (Choice ε S)) : System σ S α :=
  Machine.run (step apply prog) (initial s) choices

def notes (s : σ) (choices : List (Choice ε S)) : List (Note S) :=
  (Machine.log (step apply prog) (initial s) choices).map (·.reply)

theorem after_concat (s : σ) (choices : List (Choice ε S)) (c : Choice ε S) :
    after apply prog s (choices ++ [c]) = (step apply prog c (after apply prog s choices)).2 :=
  Machine.run_concat _ _ _ _

theorem notes_concat (s : σ) (choices : List (Choice ε S)) (c : Choice ε S) :
    notes apply prog s (choices ++ [c]) =
      notes apply prog s choices ++
        [(step apply prog c (after apply prog s choices)).1] := by
  rw [notes, Machine.log_concat, List.map_append]
  rfl

end System

/-- An automaton over the steps of one program. `mayReply` says which replies of
the store a program has to reckon with. -/
structure Protocol (S : Signature) (γ : Type v) where
  start : γ
  mayReply : (o : S.Op) → S.Reply o → Prop
  mayHang : γ → Prop
  mayOp : γ → S.Op → Prop
  afterOp : γ → (o : S.Op) → S.Reply o → γ
  mayCall : γ → S.Call → Prop
  afterCall : γ → S.Call → γ
  afterAnswer : γ → (c : S.Call) → S.Answer c → γ

namespace Protocol
variable {σ : Type u} {ε γ : Type v} {S : Signature} {α β : Type} (P : Protocol S γ)

/-- From phase `g` the program does only what the protocol admits, and every
result it returns satisfies `post` at the phase it ends in. -/
def Follows : Prog S α → (γ → α → Prop) → γ → Prop
  | .ret a, post, g => post g a
  | .hang, _, g => P.mayHang g
  | .op o next, post, g =>
      P.mayOp g o ∧ ∀ r, P.mayReply o r → Follows (next r) post (P.afterOp g o r)
  | .call c next, post, g =>
      P.mayCall g c ∧ ∀ a, Follows (next a) post (P.afterAnswer (P.afterCall g c) c a)

theorem follows_bind (p : Prog S α) (f : α → Prog S β) (post : γ → β → Prop) (g : γ) :
    P.Follows (p.bind f) post g ↔ P.Follows p (fun g' a => P.Follows (f a) post g') g := by
  induction p generalizing g with
  | ret a => rfl
  | hang => rfl
  | op o next ih => simp only [Prog.bind, Follows, ih]
  | call c next ih => simp only [Prog.bind, Follows, ih]

theorem Follows.mono {P : Protocol S γ} {p : Prog S α} {post post' : γ → α → Prop} {g : γ}
    (h : P.Follows p post g) (hpost : ∀ g a, post g a → post' g a) : P.Follows p post' g := by
  induction p generalizing g with
  | ret a => exact hpost g a h
  | hang => exact h
  | op o next ih => exact ⟨h.1, fun r hr => ih r (h.2 r hr)⟩
  | call c next ih => exact ⟨h.1, fun a => ih a (h.2 a)⟩

def ThreadFollows (post : γ → α → Prop) (g : γ) : Thread S α → Prop
  | .ready p => P.Follows p post g
  | .waiting c next =>
      (∃ g₀, P.mayCall g₀ c ∧ g = P.afterCall g₀ c) ∧
        ∀ a, P.Follows (next a) post (P.afterAnswer g c a)

/-- How a note moves the phases. -/
def advance (phase : Nat → γ) : Note S → Nat → γ
  | .silent => phase
  | .committed i o r => Function.update phase i (P.afterOp (phase i) o r)
  | .invoked i c => Function.update phase i (P.afterCall (phase i) c)
  | .answered i c a => Function.update phase i (P.afterAnswer (phase i) c a)

def phases (notes : List (Note S)) : Nat → γ := notes.foldl P.advance (fun _ => P.start)

@[simp] theorem phases_nil : P.phases [] = fun _ => P.start := rfl

@[simp] theorem phases_concat (notes : List (Note S)) (note : Note S) :
    P.phases (notes ++ [note]) = P.advance (P.phases notes) note := by
  simp [phases]

/-- Every thread follows the protocol from its phase; a name not given out yet
is at the start. -/
structure Governs (post : γ → α → Prop) (s : System σ S α) (phase : Nat → γ) : Prop where
  follows : ∀ i t, s.threads i = some t → P.ThreadFollows post (phase i) t
  fresh : ∀ i, s.next ≤ i → phase i = P.start ∧ s.threads i = none

/-- The steps of a governed system, without the programs: the one silent step
and, for each visible step, what the protocol promises of it. -/
inductive Step (apply : (o : S.Op) → σ → S.Reply o × σ) (phase : Nat → γ) (s : σ) :
    Note S → σ → Prop where
  | silent : Step apply phase s .silent s
  | committed (i : Nat) (o : S.Op) (h : P.mayOp (phase i) o) :
      Step apply phase s (.committed i o (apply o s).1) (apply o s).2
  | invoked (i : Nat) (c : S.Call) (h : P.mayCall (phase i) c) :
      Step apply phase s (.invoked i c) s
  | answered (i : Nat) (c : S.Call) (a : S.Answer c)
      (h : ∃ g, P.mayCall g c ∧ phase i = P.afterCall g c) :
      Step apply phase s (.answered i c a) s

theorem Governs.initial (post : γ → α → Prop) (s : σ) :
    P.Governs post (System.initial s : System σ S α) (fun _ => P.start) where
  follows _ _ h := by cases h
  fresh _ _ := ⟨rfl, rfl⟩

theorem Governs.lt_next {P : Protocol S γ} {post : γ → α → Prop} {s : System σ S α}
    {phase : Nat → γ} (h : P.Governs post s phase) {i : Nat} {t : Thread S α}
    (hi : s.threads i = some t) : i < s.next := by
  by_contra hle
  rw [(h.fresh i (Nat.le_of_not_lt hle)).2] at hi
  cases hi

/-- Moving one thread, with its phase and possibly the store. -/
theorem Governs.move {P : Protocol S γ} {post : γ → α → Prop} {s : System σ S α}
    {phase : Nat → γ} (h : P.Governs post s phase) {i : Nat} {t : Thread S α}
    (hi : s.threads i = some t) (t' : Thread S α) (g : γ) (ht : P.ThreadFollows post g t')
    (store : σ) :
    P.Governs post { s.setThread i (some t') with store } (Function.update phase i g) := by
  refine ⟨?_, ?_⟩
  · intro j u hj
    by_cases hji : j = i
    · subst hji
      simp only [System.setThread_threads, Function.update_self, Option.some.injEq] at hj
      rw [Function.update_self, ← hj]
      exact ht
    · simp only [System.setThread_threads, Function.update_of_ne hji] at hj
      rw [Function.update_of_ne hji]
      exact h.follows j u hj
  · intro j hj
    have hji : j ≠ i := by
      have hlt := h.lt_next hi
      change s.next ≤ j at hj
      omega
    simp only [System.setThread_threads, Function.update_of_ne hji]
    exact h.fresh j hj

section Interleaving
variable {P} {post : γ → α → Prop} {apply : (o : S.Op) → σ → S.Reply o × σ}
  {prog : ε → Prog S α} (hreply : ∀ o s, P.mayReply o (apply o s).1)
  (hprog : ∀ e, P.Follows (prog e) post P.start)
include hreply hprog

theorem governs_step {s : System σ S α} {phase : Nat → γ} (h : P.Governs post s phase)
    (c : Choice ε S) :
    P.Step apply phase s.store (System.step apply prog c s).1
        (System.step apply prog c s).2.store ∧
      P.Governs post (System.step apply prog c s).2
        (P.advance phase (System.step apply prog c s).1) := by
  cases c with
  | spawn e =>
      refine ⟨.silent, ?_, ?_⟩
      · intro i t hi
        simp only [System.step, System.setThread_threads] at hi
        by_cases hin : i = s.next
        · subst hin
          rw [Function.update_self] at hi
          cases hi
          change P.Follows (prog e) post (phase s.next)
          rw [(h.fresh s.next (Nat.le_refl _)).1]
          exact hprog e
        · rw [Function.update_of_ne hin] at hi
          exact h.follows i t hi
      · intro i hi
        change s.next + 1 ≤ i at hi
        have hin : i ≠ s.next := by omega
        simp only [System.step, System.setThread_threads, Function.update_of_ne hin]
        exact h.fresh i (by omega)
  | commit i =>
      simp only [System.step]
      split
      · rename_i o next hi
        have hf := h.follows i _ hi
        exact ⟨.committed i o hf.1, h.move hi (.ready _) _ (hf.2 _ (hreply o s.store)) _⟩
      · exact ⟨.silent, h⟩
  | invoke i =>
      simp only [System.step]
      split
      · rename_i c next hi
        have hf := h.follows i _ hi
        exact ⟨.invoked i c hf.1, h.move hi (.waiting c next) _ ⟨⟨_, hf.1, rfl⟩, hf.2⟩ s.store⟩
      · exact ⟨.silent, h⟩
  | answer i a =>
      simp only [System.step]
      split
      · rename_i c next hi
        have hf := h.follows i _ hi
        exact ⟨.answered i c (a c) hf.1, h.move hi (.ready _) _ (hf.2 (a c)) s.store⟩
      · exact ⟨.silent, h⟩
  | crash i =>
      refine ⟨.silent, ?_, ?_⟩
      · intro j t hj
        simp only [System.step, System.setThread_threads] at hj
        by_cases hji : j = i
        · subst hji
          rw [Function.update_self] at hj
          cases hj
        · rw [Function.update_of_ne hji] at hj
          exact h.follows j t hj
      · intro j hj
        obtain ⟨hphase, hnone⟩ := h.fresh j hj
        refine ⟨hphase, ?_⟩
        simp only [System.step, System.setThread_threads]
        by_cases hji : j = i
        · rw [hji, Function.update_self]
        · rw [Function.update_of_ne hji, hnone]

/-- The programs are gone from the hypotheses: what the steps of the protocol
preserve holds after every interleaving. -/
theorem run_invariant {inv : σ → (Nat → γ) → List (Note S) → Prop} {s : σ}
    (init : inv s (fun _ => P.start) [])
    (step : ∀ s s' notes note, inv s (P.phases notes) notes →
      P.Step apply (P.phases notes) s note s' →
      inv s' (P.advance (P.phases notes) note) (notes ++ [note]))
    (choices : List (Choice ε S)) :
    let notes := System.notes apply prog s choices
    let final := System.after apply prog s choices
    inv final.store (P.phases notes) notes ∧ P.Governs post final (P.phases notes) := by
  induction choices using List.reverseRecOn with
  | nil => exact ⟨init, .initial P post s⟩
  | append_singleton choices c ih =>
      obtain ⟨hinv, hgov⟩ := ih
      obtain ⟨hstep, hgov'⟩ := governs_step hreply hprog hgov c
      simp only [System.notes_concat, System.after, Machine.run_concat, phases_concat]
      exact ⟨step _ _ _ _ hinv hstep, hgov'⟩

end Interleaving

end Protocol
