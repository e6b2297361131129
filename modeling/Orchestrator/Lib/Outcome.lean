import Mathlib.Data.List.Forall2

/-!
Inversion of computations that may raise: what a result that is no error says
about the steps it was made of.
-/
universe u v w

namespace Outcome

theorem ok_of_bind {ε α : Type u} {β : Type u} {x : Except ε α} {f : α → Except ε β} {b : β}
    (h : x >>= f = .ok b) : ∃ a, x = .ok a ∧ f a = .ok b := by
  cases x with
  | error exc => cases h
  | ok a => exact ⟨a, rfl, h⟩

theorem ok_bind {ε α β : Type u} (a : α) (f : α → Except ε β) : Except.ok a >>= f = f a := rfl

theorem pure_eq {ε α : Type u} (a : α) : (pure a : Except ε α) = .ok a := rfl

theorem ok_of_map {ε α β : Type u} {x : Except ε α} {f : α → β} {b : β}
    (h : x.map f = .ok b) : ∃ a, x = .ok a ∧ f a = b := by
  cases x with
  | error exc => cases h
  | ok a =>
      cases h
      exact ⟨a, rfl, rfl⟩

section Related
variable {α : Type u} {β : Type v} {R : α → β → Prop} {l : List α} {out : List β}

theorem exists_right (h : List.Forall₂ R l out) {a : α} (ha : a ∈ l) : ∃ b ∈ out, R a b := by
  induction h with
  | nil => exact absurd ha List.not_mem_nil
  | cons hab _ ih =>
      rcases List.mem_cons.mp ha with rfl | ha
      · exact ⟨_, List.mem_cons_self, hab⟩
      · obtain ⟨b, hb, hrelated⟩ := ih ha
        exact ⟨b, List.mem_cons_of_mem _ hb, hrelated⟩

theorem exists_left (h : List.Forall₂ R l out) {b : β} (hb : b ∈ out) : ∃ a ∈ l, R a b :=
  exists_right h.flip hb

theorem forall₂_mem (h : List.Forall₂ R l out) :
    List.Forall₂ (fun a b => a ∈ l ∧ R a b) l out := by
  induction h with
  | nil => exact .nil
  | cons hab _ ih =>
      exact .cons ⟨List.mem_cons_self, hab⟩
        (ih.imp fun _ _ hrest => ⟨List.mem_cons_of_mem _ hrest.1, hrest.2⟩)

/-- Relations compose along lists. -/
theorem forall₂_comp {γ : Type w} {S : β → γ → Prop} {T : α → γ → Prop} {last : List γ}
    (hcomp : ∀ a b c, R a b → S b c → T a c) (h : List.Forall₂ R l out)
    (hlast : List.Forall₂ S out last) : List.Forall₂ T l last := by
  induction h generalizing last with
  | nil =>
      cases hlast
      exact .nil
  | cons hab _ ih =>
      cases hlast with
      | cons hbc hrest => exact .cons (hcomp _ _ _ hab hbc) (ih hrest)

/-- Related lists agree on what related elements agree on. -/
theorem map_eq_of_forall₂ {γ : Type w} {f : α → γ} {g : β → γ} (hfg : ∀ a b, R a b → g b = f a)
    (h : List.Forall₂ R l out) : out.map g = l.map f := by
  induction h with
  | nil => rfl
  | cons hab _ ih => rw [List.map_cons, List.map_cons, hfg _ _ hab, ih]

end Related

section Traversal
variable {ε α β : Type u} {f : α → Except ε β}

theorem forall₂_of_mapM {l : List α} {out : List β} (h : l.mapM f = .ok out) :
    List.Forall₂ (fun a b => f a = .ok b) l out := by
  induction l generalizing out with
  | nil =>
      cases h
      exact .nil
  | cons a l ih =>
      rw [List.mapM_cons] at h
      obtain ⟨b, hb, hrest⟩ := ok_of_bind h
      obtain ⟨bs, hbs, heq⟩ := ok_of_bind hrest
      cases heq
      exact .cons hb (ih hbs)

theorem mapM_of_forall₂ {l : List α} {out : List β}
    (h : List.Forall₂ (fun a b => f a = .ok b) l out) : l.mapM f = .ok out := by
  induction h with
  | nil => rfl
  | cons hb _ ih =>
      rw [List.mapM_cons, hb, ih]
      rfl

theorem mapM_ok_of_forall {l : List α} (h : ∀ a ∈ l, ∃ b, f a = .ok b) :
    ∃ out, l.mapM f = .ok out := by
  induction l with
  | nil => exact ⟨[], rfl⟩
  | cons a l ih =>
      obtain ⟨⟨b, hb⟩, hrest⟩ := List.forall_mem_cons.mp h
      obtain ⟨out, hout⟩ := ih hrest
      exact ⟨b :: out, mapM_of_forall₂ (.cons hb (forall₂_of_mapM hout))⟩

end Traversal

end Outcome
