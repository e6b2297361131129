import Orchestrator.Lib.KeyedTable

/-!
Tables whose key is an identity column.

The table hands out its own keys: `next` is above every key in use, so an
append always succeeds. A row is appended from the function that builds it for
its number.
-/
universe u

structure SerialTable {ρ : Type u} (key : ρ → Nat) extends KeyedTable key where
  next : Nat
  fresh : ∀ r ∈ rows, key r < next

namespace SerialTable
variable {ρ : Type u} {key : ρ → Nat}

instance [DecidableEq ρ] : DecidableEq (SerialTable key)
  | ⟨t, next, _⟩, ⟨t', next', _⟩ =>
      decidable_of_iff (t = t' ∧ next = next') (by simp)

def empty : SerialTable key := ⟨.empty, 1, by simp⟩

/-- `INSERT` of a row whose key the identity column supplies. -/
def append (t : SerialTable key) (row : Nat → ρ) (hrow : ∀ n, key (row n) = n) :
    SerialTable key where
  rows := t.rows ++ [row t.next]
  nodup := by
    rw [List.map_append, List.nodup_append]
    refine ⟨t.nodup, by simp, ?_⟩
    intro a ha b hb
    obtain ⟨r, hr, rfl⟩ := List.mem_map.mp ha
    rw [List.map_singleton, List.mem_singleton, hrow] at hb
    exact fun e => absurd (t.fresh r hr) (by omega)
  next := t.next + 1
  fresh := by
    intro r hr
    rcases List.mem_append.mp hr with hr | hr
    · exact Nat.lt_succ_of_lt (t.fresh r hr)
    · rw [List.mem_singleton.mp hr, hrow]
      exact Nat.lt_succ_self _

def updateWhere (t : SerialTable key) (p : ρ → Bool) (f : ρ → ρ)
    (hf : ∀ r, key (f r) = key r) : SerialTable key where
  toKeyedTable := t.toKeyedTable.updateWhere p f hf
  next := t.next
  fresh := by
    intro r hr
    obtain ⟨r₀, hr₀, rfl⟩ := List.mem_map.mp hr
    have hkey : key (if p r₀ then f r₀ else r₀) = key r₀ := by split <;> simp [hf]
    rw [hkey]
    exact t.fresh r₀ hr₀

def update (t : SerialTable key) (k : Nat) (f : ρ → ρ)
    (hf : ∀ r, key (f r) = key r) : SerialTable key :=
  t.updateWhere (fun r => key r = k) f hf

@[simp] theorem rows_empty : (empty : SerialTable key).rows = [] := rfl

@[simp] theorem rows_append (t : SerialTable key) (row : Nat → ρ)
    (hrow : ∀ n, key (row n) = n) : (t.append row hrow).rows = t.rows ++ [row t.next] := rfl

@[simp] theorem rows_updateWhere (t : SerialTable key) (p : ρ → Bool) (f : ρ → ρ)
    (hf : ∀ r, key (f r) = key r) :
    (t.updateWhere p f hf).rows = t.rows.map (fun r => if p r then f r else r) := rfl

@[simp] theorem next_append (t : SerialTable key) (row : Nat → ρ)
    (hrow : ∀ n, key (row n) = n) : (t.append row hrow).next = t.next + 1 := rfl

@[simp] theorem next_updateWhere (t : SerialTable key) (p : ρ → Bool) (f : ρ → ρ)
    (hf : ∀ r, key (f r) = key r) : (t.updateWhere p f hf).next = t.next := rfl

theorem insert?_append (t : SerialTable key) (row : Nat → ρ) (hrow : ∀ n, key (row n) = n) :
    t.toKeyedTable.insert? (row t.next) = some (t.append row hrow).toKeyedTable := by
  refine KeyedTable.insert?_eq_some_iff.mpr ⟨?_, rfl⟩
  refine KeyedTable.find?_eq_none_iff.mpr fun r hr => ?_
  rw [hrow]
  exact Nat.ne_of_lt (t.fresh r hr)

end SerialTable
