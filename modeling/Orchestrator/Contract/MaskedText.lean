import Orchestrator.Contract.RuntimeContract

/-!
What the mask of a text leaves of it.

The pattern finds a login in a URL, up to the last sign before its next `@`, and the
mask replaces what stands there of the password: all of a port and a path as well, when
an `@` follows. Two texts are masked alike exactly when they differ in nothing but what
the pattern takes for passwords; a text in which it finds nothing is like no other one.
-/

namespace Orchestrator
namespace Contract

theorem takeWhile_ne {c : Char} {front : List Char} (h : c ∉ front) (rest : List Char) :
    (front ++ c :: rest).takeWhile (· ≠ c) = front ∧
      (front ++ c :: rest).dropWhile (· ≠ c) = c :: rest := by
  have hfront : ∀ d ∈ front, decide (d ≠ c) = true := fun d hd =>
    decide_eq_true (ne_of_mem_of_not_mem hd h)
  rw [List.takeWhile_append_of_pos hfront, List.dropWhile_append_of_pos hfront]
  simp

/-- `://user:password@` and what follows. -/
def login (user password after : List Char) : List Char :=
  "://".toList ++ user ++ ':' :: (password ++ '@' :: after)

theorem passwordAt_login {user password after : List Char} (huser : user ≠ [])
    (hcolon : ':' ∉ user) (hpassword : password ≠ []) (hat : '@' ∉ password) :
    passwordAt (login user password after) = some (user, after) := by
  obtain ⟨huser', hlogin⟩ := takeWhile_ne hcolon (password ++ '@' :: after)
  obtain ⟨hpassword', hrest⟩ := takeWhile_ne hat after
  have htext : login user password after =
      ':' :: '/' :: '/' :: (user ++ ':' :: (password ++ '@' :: after)) := by simp [login]
  simp only [htext, passwordAt, huser', hlogin, hpassword', hrest]
  rw [if_pos ⟨huser, hpassword⟩]

/-- The pattern finds exactly the logins. -/
theorem exists_login {text user after : List Char} (h : passwordAt text = some (user, after)) :
    user ≠ [] ∧ ':' ∉ user ∧ ∃ password, password ≠ [] ∧ '@' ∉ password ∧
      text = login user password after := by
  have hnotMem (c : Char) (front : List Char) : c ∉ front.takeWhile (· ≠ c) := by
    intro hmem
    have hsign := List.mem_takeWhile_imp hmem
    simp at hsign
  rw [passwordAt.eq_def] at h
  split at h
  next rest =>
      simp only at h
      split at h
      next entry hentry =>
          split at h
          next after' hafter =>
              split at h
              next hfound =>
                  cases h
                  refine ⟨hfound.1, hnotMem ':' rest, _, hfound.2, hnotMem '@' entry, ?_⟩
                  rw [login, ← hafter, List.takeWhile_append_dropWhile, ← hentry,
                    List.append_assoc, List.takeWhile_append_dropWhile]
                  rfl
              next => cases h
          next => cases h
      next => cases h
  next => cases h

theorem length_lt_of_passwordAt {text user after : List Char}
    (h : passwordAt text = some (user, after)) : after.length < text.length := by
  obtain ⟨-, -, password, -, -, rfl⟩ := exists_login h
  simp only [login, List.length_append, List.length_cons]
  omega

theorem maskPasswords_fuel {m n : Nat} {text : List Char} (hm : text.length ≤ m)
    (hn : text.length ≤ n) : maskPasswords m text = maskPasswords n text := by
  induction m generalizing n text with
  | zero =>
      obtain rfl := List.eq_nil_of_length_eq_zero (Nat.le_zero.mp hm)
      cases n <;> rfl
  | succ m ih =>
      cases text with
      | nil => cases n <;> rfl
      | cons c text =>
          cases n with
          | zero => cases hn
          | succ n =>
              rw [maskPasswords, maskPasswords]
              cases hfound : passwordAt (c :: text) with
              | none =>
                  exact congrArg (c :: ·) (ih (Nat.le_of_succ_le_succ hm)
                    (Nat.le_of_succ_le_succ hn))
              | some found =>
                  obtain ⟨user, after⟩ := found
                  have hlength := length_lt_of_passwordAt hfound
                  exact congrArg (_ ++ ·) (ih (by omega) (by omega))

/-- What `re.sub` makes of a text. -/
def masked (text : List Char) : List Char := maskPasswords text.length text

theorem masked_of_none {c : Char} {text : List Char} (h : passwordAt (c :: text) = none) :
    masked (c :: text) = c :: masked text := by
  rw [masked, List.length_cons, maskPasswords, h]
  rfl

theorem masked_of_some {text user after : List Char} (h : passwordAt text = some (user, after)) :
    masked text = "://".toList ++ user ++ ":***@".toList ++ masked after := by
  have hlength := length_lt_of_passwordAt h
  cases text with
  | nil => cases hlength
  | cons c text =>
      rw [masked, List.length_cons, maskPasswords, h]
      exact congrArg (_ ++ ·)
        (maskPasswords_fuel (Nat.le_of_lt_succ hlength) (Nat.le_refl after.length))

/-- The pattern finds nothing in the text. -/
def Unmatched (text : List Char) : Prop :=
  ∀ front rest, text = front ++ rest → passwordAt rest = none

theorem Unmatched.tail {c : Char} {text : List Char} (h : Unmatched (c :: text)) :
    Unmatched text :=
  fun front rest hsplit => h (c :: front) rest (congrArg (c :: ·) hsplit)

theorem masked_of_unmatched {text : List Char} (h : Unmatched text) : masked text = text := by
  induction text with
  | nil => rfl
  | cons c text ih => rw [masked_of_none (h [] _ rfl), ih h.tail]

/-- The two tests before the substitution change nothing. -/
theorem maskText_eq (text : String) : maskText text = String.ofList (masked text.toList) := by
  rw [maskText]
  split
  · exact congrArg String.ofList (by rw [masked, String.length_toList])
  · rename_i hplain
    rw [masked_of_unmatched, String.ofList_toList]
    intro front rest hsplit
    cases hfound : passwordAt rest with
    | none => rfl
    | some found =>
        obtain ⟨-, -, password, -, -, rfl⟩ := exists_login hfound
        refine absurd ⟨⟨front, found.1 ++ ':' :: (password ++ '@' :: found.2), ?_⟩, ?_⟩ hplain
        · rw [hsplit, login]
          simp
        · rw [hsplit, login]
          simp

/-- The texts differ in nothing but what the pattern takes for passwords. -/
inductive SameButPasswords : List Char → List Char → Prop
  | nil : SameButPasswords [] []
  | sign {c : Char} {a b : List Char} (ha : passwordAt (c :: a) = none)
      (hb : passwordAt (c :: b) = none) (h : SameButPasswords a b) :
      SameButPasswords (c :: a) (c :: b)
  | login {text text' user a b : List Char} (ha : passwordAt text = some (user, a))
      (hb : passwordAt text' = some (user, b)) (h : SameButPasswords a b) :
      SameButPasswords text text'

namespace SameButPasswords
variable {a b : List Char}

theorem masked_eq (h : SameButPasswords a b) : masked a = masked b := by
  induction h with
  | nil => rfl
  | sign ha hb _ ih => rw [masked_of_none ha, masked_of_none hb, ih]
  | login ha hb _ ih => rw [masked_of_some ha, masked_of_some hb, ih]

/-- A text in which the pattern finds nothing is like no other one. -/
theorem eq_of_unmatched (h : SameButPasswords a b) (ha : Unmatched a) : a = b := by
  induction h with
  | nil => rfl
  | sign _ _ _ ih => rw [ih ha.tail]
  | login hfound _ _ _ => exact absurd ((ha [] _ rfl).symm.trans hfound) (by simp)

end SameButPasswords

/-- A sign that begins no login stands in the text that was masked. -/
theorem of_masked_cons {c : Char} {text left : List Char} (hc : c ≠ ':')
    (h : masked text = c :: left) : ∃ rest, text = c :: rest ∧ masked rest = left := by
  cases text with
  | nil => cases h
  | cons d rest =>
      cases hfound : passwordAt (d :: rest) with
      | none =>
          rw [masked_of_none hfound] at h
          obtain ⟨rfl, hrest⟩ := List.cons.inj h
          exact ⟨rest, rfl, hrest⟩
      | some found =>
          rw [masked_of_some hfound] at h
          exact absurd (List.cons.inj h).1.symm hc

theorem of_masked_append (front : List Char) {text left : List Char} (hfront : ':' ∉ front)
    (h : masked text = front ++ left) : ∃ rest, text = front ++ rest ∧ masked rest = left := by
  induction front generalizing text with
  | nil => exact ⟨text, rfl, h⟩
  | cons c front ih =>
      rw [List.mem_cons, not_or] at hfront
      obtain ⟨text, rfl, htext⟩ := of_masked_cons (Ne.symm hfront.1) h
      obtain ⟨rest, rfl, hrest⟩ := ih hfront.2 htext
      exact ⟨rest, rfl, hrest⟩

theorem of_masked_colon {text left : List Char} (hnone : passwordAt text = none)
    (h : masked text = ':' :: left) : ∃ rest, text = ':' :: rest ∧ masked rest = left := by
  cases text with
  | nil => cases h
  | cons d rest =>
      rw [masked_of_none hnone] at h
      obtain ⟨rfl, hrest⟩ := List.cons.inj h
      exact ⟨rest, rfl, hrest⟩

/-- What looks like a masked login was a login. -/
theorem passwordAt_ne_none {text user left : List Char} (huser : user ≠ []) (hcolon : ':' ∉ user)
    (h : masked text = "://".toList ++ user ++ ":***@".toList ++ left) :
    passwordAt text ≠ none := by
  intro hnone
  have hscheme : masked text = ':' :: ("//".toList ++ user ++ (":***@".toList ++ left)) := by
    rw [h]
    simp
  obtain ⟨first, rfl, hfirst⟩ := of_masked_colon hnone hscheme
  obtain ⟨second, rfl, hsecond⟩ := of_masked_append ("//".toList ++ user) (by simp [hcolon]) hfirst
  have hsecondNone : passwordAt second = none := by
    cases hfound : passwordAt second with
    | none => rfl
    | some found =>
        rw [masked_of_some hfound] at hsecond
        simp at hsecond
  have hlogin : masked second = ':' :: ("***@".toList ++ left) := by
    rw [hsecond]
    rfl
  obtain ⟨third, rfl, hthird⟩ := of_masked_colon hsecondNone hlogin
  obtain ⟨after, rfl, -⟩ := of_masked_append "***@".toList (by decide) hthird
  have htext : ':' :: ("//".toList ++ user ++ ':' :: ("***@".toList ++ after)) =
      login user "***".toList after := by simp [login]
  rw [htext, passwordAt_login huser hcolon (by decide) (by decide)] at hnone
  cases hnone

theorem front_unique {front front' rest rest' : List Char} (h : ':' ∉ front) (h' : ':' ∉ front')
    (heq : front ++ ':' :: rest = front' ++ ':' :: rest') : front = front' ∧ rest = rest' := by
  obtain ⟨hfront, hrest⟩ := takeWhile_ne h rest
  obtain ⟨hfront', hrest'⟩ := takeWhile_ne h' rest'
  rw [heq, hfront'] at hfront
  rw [heq, hrest'] at hrest
  exact ⟨hfront.symm, (List.cons.inj hrest).2.symm⟩

/-- The texts that are masked alike differ in passwords only. -/
theorem sameButPasswords_of_masked {a b : List Char} (h : masked a = masked b) :
    SameButPasswords a b := by
  induction hlength : a.length using Nat.strong_induction_on generalizing a b with
  | _ n ih =>
      cases ha : passwordAt a with
      | some found =>
          obtain ⟨user, after⟩ := found
          obtain ⟨huser, hcolon, -⟩ := exists_login ha
          rw [masked_of_some ha] at h
          cases hb : passwordAt b with
          | none => exact absurd hb (passwordAt_ne_none huser hcolon h.symm)
          | some found' =>
              obtain ⟨user', after'⟩ := found'
              obtain ⟨-, hcolon', -⟩ := exists_login hb
              rw [masked_of_some hb] at h
              have hparts : user ++ ':' :: ("***@".toList ++ masked after) =
                  user' ++ ':' :: ("***@".toList ++ masked after') := by
                simpa using h
              obtain ⟨rfl, hrest⟩ := front_unique hcolon hcolon' hparts
              have hshorter := length_lt_of_passwordAt ha
              exact .login ha hb (ih _ (hlength ▸ hshorter) (List.append_cancel_left hrest) rfl)
      | none =>
          cases hb : passwordAt b with
          | some found =>
              obtain ⟨user, after⟩ := found
              obtain ⟨huser, hcolon, -⟩ := exists_login hb
              rw [masked_of_some hb] at h
              exact absurd ha (passwordAt_ne_none huser hcolon h)
          | none =>
              cases a with
              | nil =>
                  cases b with
                  | nil => exact .nil
                  | cons d b => rw [masked_of_none hb] at h; cases h
              | cons c a =>
                  rw [masked_of_none ha] at h
                  cases b with
                  | nil => cases h
                  | cons d b =>
                      rw [masked_of_none hb] at h
                      obtain ⟨rfl, hrest⟩ := List.cons.inj h
                      have hshorter : a.length < n := hlength ▸ Nat.lt_succ_self a.length
                      exact .sign ha hb (ih _ hshorter hrest rfl)

/-- The mask erases the passwords and nothing else. -/
theorem maskText_eq_iff (a b : String) :
    maskText a = maskText b ↔ SameButPasswords a.toList b.toList := by
  rw [maskText_eq, maskText_eq, String.ofList_inj]
  exact ⟨sameButPasswords_of_masked, SameButPasswords.masked_eq⟩

end Contract
end Orchestrator
