import Mathlib.Data.List.Basic
import Orchestrator.Lib.KeyedTable

/-!
Entries of a queue that workers take under a lease.

An entry waits, is held by a taker until its lease expires, or is over. It can
be taken while it waits and again once a lease expired; the holder of a live
lease may extend it, give the entry back while attempts remain, or finish it;
an entry may also be dropped from outside. Two questions are settled here for
every such queue: when the number of attempts stays within the limit, and when
the identity of the holder tells the takes of one entry apart.
-/
universe u v w

namespace Lease
variable {ω : Type u}

inductive Phase (ω : Type u) where
  | waiting
  | held (holder : ω) (expiry : Nat)
  | ended

structure Cell (ω : Type u) where
  attempt : Nat
  limit : Nat
  phase : Phase ω

inductive Act (ω : Type u) where
  | take (taker : ω)
  | extend (holder : ω)
  | retry (holder : ω)
  | finish (holder : ω)
  | drop

namespace Act

/-- Who an action makes the new holder. -/
def taker? : Act ω → Option ω
  | .take taker => some taker
  | _ => none

end Act

namespace Cell

/-- The entry may be taken now. -/
def Free (c : Cell ω) (now : Nat) : Prop :=
  match c.phase with
  | .waiting => True
  | .held _ expiry => expiry ≤ now
  | .ended => False

/-- The lease of `holder` on the entry has not expired. -/
def Live (c : Cell ω) (now : Nat) (holder : ω) : Prop :=
  ∃ expiry, c.phase = .held holder expiry ∧ now < expiry

/-- Attempts within the limit, and one left for an entry that waits. -/
structure Bounded (c : Cell ω) : Prop where
  attempt_le : c.attempt ≤ c.limit
  attempt_lt : c.phase = .waiting → c.attempt < c.limit

end Cell

inductive Step (now : Nat) : Act ω → Cell ω → Cell ω → Prop where
  | take {c : Cell ω} (taker : ω) (expiry : Nat) (free : c.Free now) :
      Step now (.take taker) c ⟨c.attempt + 1, c.limit, .held taker expiry⟩
  | extend {c : Cell ω} {holder : ω} (expiry : Nat) (live : c.Live now holder) :
      Step now (.extend holder) c ⟨c.attempt, c.limit, .held holder expiry⟩
  | retry {c : Cell ω} {holder : ω} (live : c.Live now holder)
      (left : c.attempt < c.limit) :
      Step now (.retry holder) c ⟨c.attempt, c.limit, .waiting⟩
  | finish {c : Cell ω} {holder : ω} (live : c.Live now holder) :
      Step now (.finish holder) c ⟨c.attempt, c.limit, .ended⟩
  | drop {c : Cell ω} : Step now .drop c ⟨c.attempt, c.limit, .ended⟩

section Bounds
variable {now : Nat} {a : Act ω} {c c' : Cell ω}

/-- A step counts exactly the takes. -/
theorem Step.attempt_eq (h : Step now a c c') :
    c'.attempt = c.attempt + if a.taker?.isSome then 1 else 0 := by
  cases h <;> rfl

/-- The only way past the limit is to take an entry that has used it up. -/
theorem Step.bounded_iff (h : Step now a c c') (hc : c.Bounded) :
    c'.Bounded ↔ (a.taker?.isSome → c.attempt < c.limit) := by
  have hle := hc.attempt_le
  cases h with
  | take taker expiry free =>
      simp only [Act.taker?, Option.isSome_some, forall_const]
      exact ⟨fun hb => hb.attempt_le, fun hlt => ⟨hlt, nofun⟩⟩
  | extend expiry live => exact ⟨fun _ => nofun, fun _ => ⟨hle, nofun⟩⟩
  | retry live left => exact ⟨fun _ => nofun, fun _ => ⟨hle, fun _ => left⟩⟩
  | finish live => exact ⟨fun _ => nofun, fun _ => ⟨hle, nofun⟩⟩
  | drop => exact ⟨fun _ => nofun, fun _ => ⟨hle, nofun⟩⟩

/-- A bounded entry that has used up its attempts can only be taken from a
holder whose lease expired. -/
theorem Cell.Bounded.held_of_exhausted (hc : c.Bounded) (free : c.Free now)
    (h : ¬ c.attempt < c.limit) : ∃ holder expiry, c.phase = .held holder expiry := by
  rw [Cell.Free] at free
  cases hp : c.phase with
  | waiting => exact absurd (hc.attempt_lt hp) h
  | held holder expiry => exact ⟨holder, expiry, rfl⟩
  | ended => simp [hp] at free

end Bounds

section Fence
variable {now : Nat} {a : Act ω} {c c' : Cell ω} {takers : List ω}

/-- `takers` lists who took the entry, in order: the last of them holds it if
it is held at all. -/
structure TakenBy (takers : List ω) (c : Cell ω) : Prop where
  length_eq : takers.length = c.attempt
  held_by_last : ∀ holder expiry, c.phase = .held holder expiry →
    takers.getLast? = some holder

theorem TakenBy.step (ht : TakenBy takers c) (h : Step now a c c') :
    TakenBy (takers ++ a.taker?.toList) c' := by
  have hlen := ht.length_eq
  cases h with
  | take taker expiry free =>
      refine ⟨by simp [Act.taker?, hlen], ?_⟩
      rintro holder expiry' ⟨⟩
      simp [Act.taker?]
  | @extend _ _ expiry live =>
      obtain ⟨old, hp, -⟩ := live
      refine ⟨by simp [Act.taker?, hlen], ?_⟩
      rintro holder' expiry' ⟨⟩
      simpa [Act.taker?] using ht.held_by_last _ _ hp
  | retry live left => exact ⟨by simp [Act.taker?, hlen], nofun⟩
  | finish live => exact ⟨by simp [Act.taker?, hlen], nofun⟩
  | drop => exact ⟨by simp [Act.taker?, hlen], nofun⟩

/-- With distinct takers, whoever holds a live lease made the latest take. -/
theorem TakenBy.latest (ht : TakenBy takers c) (hn : takers.Nodup) {holder : ω} {k : Nat}
    (live : c.Live now holder) (hk : takers[k]? = some holder) : k + 1 = c.attempt := by
  obtain ⟨expiry, hp, -⟩ := live
  have hlast := ht.held_by_last holder expiry hp
  rw [List.getLast?_eq_getElem?] at hlast
  have hlt : k < takers.length := (List.getElem?_eq_some_iff.mp hk).1
  have hidx := (List.getElem?_inj hlt hn).mp (hk.trans hlast.symm)
  have hlen := ht.length_eq
  omega

/-- The take number `k` (from zero) was followed by another one or its lease
was given up. -/
def Cell.Spent (k : Nat) (c : Cell ω) : Prop :=
  k + 1 ≤ c.attempt ∧ (k + 1 = c.attempt → ∀ holder expiry, c.phase ≠ .held holder expiry)

theorem Cell.Spent.step {k : Nat} (hs : c.Spent k) (h : Step now a c c') : c'.Spent k := by
  obtain ⟨hle, hgiven⟩ := hs
  cases h with
  | take taker expiry free => exact ⟨Nat.le_succ_of_le hle, fun heq => by simp at heq; omega⟩
  | extend expiry live =>
      obtain ⟨old, hp, -⟩ := live
      exact ⟨hle, fun heq => absurd hp (hgiven heq _ _)⟩
  | retry live left => exact ⟨hle, fun _ => nofun⟩
  | finish live => exact ⟨hle, fun _ => nofun⟩
  | drop => exact ⟨hle, fun _ => nofun⟩

/-- With distinct takers, the taker of a spent take has no live lease. -/
theorem Cell.Spent.not_live {k : Nat} {holder : ω} (hs : c.Spent k) (ht : TakenBy takers c)
    (hn : takers.Nodup) (hk : takers[k]? = some holder) : ¬ c.Live now holder := by
  intro live
  have hlatest := ht.latest hn live hk
  obtain ⟨expiry, hp, -⟩ := live
  exact hs.2 hlatest holder expiry hp

end Fence

section Table
variable {ρ : Type v} {κ : Type w} [DecidableEq κ] {key : ρ → κ} {new : ρ → Prop}
  {step : ρ → ρ → Prop} {t t' : KeyedTable key}

/-- The attempts of the entry stored under a key, none while there is no entry. -/
def attempts (cell : ρ → Cell ω) (t : KeyedTable key) (k : κ) : Nat :=
  (t.find? k).elim 0 fun r => (cell r).attempt

/-- A table of leased entries counts, for each key, the takes of its entry. -/
theorem attempts_change (cell : ρ → Cell ω) (now : Nat) (taken : κ → Bool)
    (h : t.Change new step t') (hnew : ∀ r, new r → (cell r).attempt = 0)
    (hstep : ∀ r r', step r r' →
      ∃ a, Step now a (cell r) (cell r') ∧ (a.taker?.isSome → taken (key r)))
    (htaken : ∀ k, taken k → ∃ r r', t.find? k = some r ∧ t'.find? k = some r' ∧
      (cell r').attempt = (cell r).attempt + 1) (k : κ) :
    attempts cell t' k = attempts cell t k + if taken k then 1 else 0 := by
  by_cases hk : taken k
  · obtain ⟨r, r', hr, hr', hattempt⟩ := htaken k hk
    simp [attempts, hr, hr', hattempt, hk]
  · cases hr : t.find? k with
    | none =>
        cases hr' : t'.find? k with
        | none => simp [attempts, hr, hr', hk]
        | some r' =>
            rcases h.find?_backward hr' with ⟨-, hn⟩ | ⟨r, hold, -⟩
            · simp [attempts, hr, hr', hk, hnew r' hn]
            · exact absurd (hold.symm.trans hr) (Option.some_ne_none r)
    | some r =>
        obtain ⟨r', hr', rfl | hs⟩ := h.find?_forward hr
        · simp [attempts, hr, hr', hk]
        · obtain ⟨a, ha, htaker⟩ := hstep r r' hs
          have hnone : ¬ a.taker?.isSome := fun hsome =>
            hk (KeyedTable.find?_key hr ▸ htaker hsome)
          have hattempt := ha.attempt_eq
          rw [if_neg hnone] at hattempt
          simp [attempts, hr, hr', hk, hattempt]

end Table

end Lease
