import Mathlib.Algebra.Order.BigOperators.Group.List
import Mathlib.Data.List.Induction
import Orchestrator.Db.EffectTransitions

/-!
Quota conservation of the paid-effect ledger.

A quota counter is at every moment the units of all effects of its pair, less
the units of the effects whose failure released them. The invariant carries the
list of released effects beside the ledger; the bounds on the counter then
follow from the guards of `reserve` and `set_quota` and from the counter being a
sum of charges, none of which is negative.
-/

namespace Orchestrator

namespace Ledger

/-- The counter of a pair; a pair without a quota row has used nothing. -/
def usedUnits (s : Ledger) (org : OrganizationId) (provider : String) : Int :=
  (s.quota? org provider).elim 0 (·.usedUnits)

def limitUnits (s : Ledger) (org : OrganizationId) (provider : String) : Int :=
  (s.quota? org provider).elim 0 (·.limitUnits)

/-- The units of all effects of the pair. -/
def effectUnits (s : Ledger) (org : OrganizationId) (provider : String) : Int :=
  s.effects.sum fun e =>
    if e.organizationId = org ∧ e.provider = provider then e.units else 0

/-- The units of the effects of the pair whose keys are listed. -/
def releasedUnits (s : Ledger) (released : List (OrganizationId × String))
    (org : OrganizationId) (provider : String) : Int :=
  s.effects.sum fun e =>
    if (e.organizationId = org ∧ e.provider = provider) ∧ e.key ∈ released then e.units else 0

end Ledger

/-- The effects released in a run from the empty ledger, in order and with
repetition: one entry for each transition to failed with `release_quota=True`. -/
def releasedKeys (calls : List LedgerCall) : List (OrganizationId × String) :=
  (Machine.log LedgerCall.step Ledger.empty calls).filterMap
    (fun e => e.input.releases e.before)

theorem releasedKeys_concat (calls : List LedgerCall) (c : LedgerCall) :
    releasedKeys (calls ++ [c]) =
      releasedKeys calls ++
        (c.releases (Machine.run LedgerCall.step Ledger.empty calls)).toList := by
  rw [releasedKeys, Machine.log_concat, List.filterMap_append]
  cases h : c.releases (Machine.run LedgerCall.step Ledger.empty calls) <;>
    simp [releasedKeys, Machine.event, h]

/-- What an effect still costs its pair. -/
def charge (released : List (OrganizationId × String)) (org : OrganizationId)
    (provider : String) (e : Effect) : Int :=
  if (e.organizationId = org ∧ e.provider = provider) ∧ e.key ∉ released then e.units else 0

structure Accounted (s : Ledger) (released : List (OrganizationId × String)) : Prop where
  used_eq : ∀ org provider, s.usedUnits org provider =
    s.effects.sum (charge released org provider)
  used_le : ∀ org provider, s.usedUnits org provider ≤ s.limitUnits org provider
  units_pos : ∀ e ∈ s.effects.rows, 0 < e.units
  quota_some : ∀ e ∈ s.effects.rows, (s.quota? e.organizationId e.provider).isSome
  failed : ∀ k ∈ released, ∃ e, s.effects.find? k = some e ∧ e.status = .failed
  nodup : released.Nodup

namespace Ledger

theorem usedUnits_addUsed {s : Ledger} {org : OrganizationId} {provider : String} {q : Quota}
    (hq : s.quota? org provider = some q) (units : Int)
    (org' : OrganizationId) (provider' : String) :
    (s.addUsed org provider units).usedUnits org' provider' =
      s.usedUnits org' provider' +
        if org = org' ∧ provider = provider' then units else 0 := by
  rw [usedUnits, addUsed, quota?_updateQuota, usedUnits]
  by_cases h : org = org' ∧ provider = provider'
  · obtain ⟨rfl, rfl⟩ := h
    simp [hq]
  · have hne : ¬ (org', provider') = (org, provider) := by
      intro e
      exact h ⟨(congrArg Prod.fst e).symm, (congrArg Prod.snd e).symm⟩
    rw [if_neg hne, if_neg h, add_zero]

theorem limitUnits_addUsed (s : Ledger) (org : OrganizationId) (provider : String)
    (units : Int) (org' : OrganizationId) (provider' : String) :
    (s.addUsed org provider units).limitUnits org' provider' =
      s.limitUnits org' provider' := by
  rw [limitUnits, addUsed, quota?_updateQuota, limitUnits]
  split
  · cases s.quota? org' provider' <;> rfl
  · rfl

end Ledger

theorem SameEffect.charge_eq {e e' : Effect} (h : SameEffect e e')
    (released : List (OrganizationId × String)) (org : OrganizationId) (provider : String) :
    charge released org provider e' = charge released org provider e := by
  obtain ⟨horg, hkey, -, hprovider, hunits, -⟩ := h
  simp only [charge, Effect.key, horg, hkey, hprovider, hunits]

theorem charge_append_of_ne {released : List (OrganizationId × String)}
    {k : OrganizationId × String} {e : Effect} (h : e.key ≠ k) (org : OrganizationId)
    (provider : String) :
    charge (released ++ [k]) org provider e = charge released org provider e := by
  simp [charge, h]

namespace Accounted
variable {s : Ledger} {released : List (OrganizationId × String)}

theorem empty : Accounted Ledger.empty [] where
  used_eq _ _ := rfl
  used_le _ _ := Int.le_refl 0
  units_pos _ he := absurd he List.not_mem_nil
  quota_some _ he := absurd he List.not_mem_nil
  failed _ hk := absurd hk List.not_mem_nil
  nodup := List.nodup_nil

/-- A counter is a sum of charges, and no charge is negative. -/
theorem used_nonneg (h : Accounted s released) (org : OrganizationId) (provider : String) :
    0 ≤ s.usedUnits org provider := by
  rw [h.used_eq]
  apply List.sum_nonneg
  intro x hx
  obtain ⟨e, he, rfl⟩ := List.mem_map.mp hx
  unfold charge
  split
  · exact Int.le_of_lt (h.units_pos e he)
  · exact Int.le_refl 0

theorem not_released_of_absent (h : Accounted s released) {k : OrganizationId × String}
    (hk : s.effects.find? k = none) : k ∉ released := by
  intro hmem
  obtain ⟨e, he, -⟩ := h.failed k hmem
  rw [hk] at he
  cases he

theorem newQuota (h : Accounted s released) {org : OrganizationId} {provider : String}
    {limit : Int} {quotas : KeyedTable Quota.key} (hlimit : 0 ≤ limit)
    (hins : s.quotas.insert?
      { organizationId := org, provider, limitUnits := limit } = some quotas) :
    Accounted { s with quotas } released := by
  have hnone : s.quota? org provider = none := (KeyedTable.insert?_eq_some_iff.mp hins).1
  have hquota : ∀ org' provider', ({ s with quotas } : Ledger).quota? org' provider' =
      if (org, provider) = (org', provider') then
        some { organizationId := org, provider, limitUnits := limit }
      else s.quota? org' provider' :=
    fun org' provider' => KeyedTable.find?_insert hins (org', provider')
  have hused : ∀ org' provider', ({ s with quotas } : Ledger).usedUnits org' provider' =
      s.usedUnits org' provider' := by
    intro org' provider'
    rw [Ledger.usedUnits, Ledger.usedUnits, hquota]
    split
    · rename_i heq
      obtain ⟨rfl, rfl⟩ := Prod.mk.inj heq
      simp [hnone]
    · rfl
  refine { h with used_eq := ?_, used_le := ?_, quota_some := ?_ }
  · intro org' provider'
    rw [hused, h.used_eq]
  · intro org' provider'
    rw [hused, Ledger.limitUnits, hquota]
    split
    · rename_i heq
      obtain ⟨rfl, rfl⟩ := Prod.mk.inj heq
      simpa [Ledger.usedUnits, hnone] using hlimit
    · exact h.used_le org' provider'
  · intro e he
    rw [hquota]
    split
    · rfl
    · exact h.quota_some e he

theorem limit (h : Accounted s released) {org : OrganizationId} {provider : String}
    {limitUnits : Int} {q : Quota} (hq : s.quota? org provider = some q)
    (hused : q.usedUnits ≤ limitUnits) :
    Accounted (s.updateQuota org provider (fun q => { q with limitUnits }) (fun _ => rfl))
      released := by
  have hsame : ∀ org' provider',
      (s.updateQuota org provider (fun q => { q with limitUnits }) (fun _ => rfl)).usedUnits
        org' provider' = s.usedUnits org' provider' := by
    intro org' provider'
    rw [Ledger.usedUnits, Ledger.usedUnits, Ledger.quota?_updateQuota]
    split
    · cases s.quota? org' provider' <;> rfl
    · rfl
  refine { h with used_eq := ?_, used_le := ?_, quota_some := ?_ }
  · intro org' provider'
    rw [hsame]
    exact h.used_eq org' provider'
  · intro org' provider'
    rw [hsame, Ledger.limitUnits, Ledger.quota?_updateQuota]
    split
    · rename_i heq
      obtain ⟨rfl, rfl⟩ := Prod.mk.inj heq
      simpa [Ledger.usedUnits, hq] using hused
    · exact h.used_le org' provider'
  · intro e he
    rw [Ledger.quota?_isSome_updateQuota]
    exact h.quota_some e he

theorem reserved (h : Accounted s released) {row : Effect} {q : Quota}
    {effects : KeyedTable Effect.key} (hunits : 0 < row.units)
    (hq : s.quota? row.organizationId row.provider = some q)
    (hlimit : q.usedUnits + row.units ≤ q.limitUnits)
    (hins : s.effects.insert? row = some effects) :
    Accounted (({ s with effects } : Ledger).addUsed row.organizationId row.provider row.units)
      released := by
  have hfresh := (KeyedTable.insert?_eq_some_iff.mp hins).1
  have hrows := KeyedTable.rows_insert hins
  have hnot := h.not_released_of_absent hfresh
  have hq' : ({ s with effects } : Ledger).quota? row.organizationId row.provider = some q := hq
  have hmem : ∀ e ∈ effects.rows, e ∈ s.effects.rows ∨ e = row := by
    intro e he
    simpa [hrows] using he
  refine ⟨?_, ?_, ?_, ?_, ?_, h.nodup⟩
  · intro org' provider'
    have hold := h.used_eq org' provider'
    rw [Ledger.usedUnits_addUsed hq']
    change s.usedUnits org' provider' + _ = effects.sum (charge released org' provider')
    rw [KeyedTable.sum_insert hins, hold]
    simp only [charge, hnot, not_false_eq_true, and_true]
  · intro org' provider'
    have hold := h.used_le org' provider'
    rw [Ledger.usedUnits_addUsed hq', Ledger.limitUnits_addUsed]
    change s.usedUnits org' provider' + _ ≤ s.limitUnits org' provider'
    split
    · rename_i heq
      obtain ⟨rfl, rfl⟩ := heq
      simpa [Ledger.usedUnits, Ledger.limitUnits, hq] using hlimit
    · simpa using hold
  · intro e he
    rcases hmem e he with he | rfl
    · exact h.units_pos e he
    · exact hunits
  · intro e he
    rw [Ledger.addUsed, Ledger.quota?_isSome_updateQuota]
    rcases hmem e he with he | rfl
    · exact h.quota_some e he
    · exact Option.isSome_iff_exists.mpr ⟨q, hq⟩
  · intro k hk
    obtain ⟨e, he, hfailed⟩ := h.failed k hk
    refine ⟨e, ?_, hfailed⟩
    change effects.find? k = some e
    rw [KeyedTable.find?_insert hins, if_neg, he]
    rintro rfl
    exact hnot hk

theorem row {org : OrganizationId} {key : String} {set : Effect → Effect} {row : Effect}
    (h : Accounted s released) (hset : ∀ e, SameEffect e (set e))
    (hkey : ∀ e, (set e).key = e.key) (hrow : s.effect? org key = some row)
    (hstatus : row.status = .failed → (set row).status = .failed) :
    Accounted (s.updateEffect org key set hkey) released := by
  have hmem : ∀ e ∈ (s.updateEffect org key set hkey).effects.rows,
      ∃ e₀ ∈ s.effects.rows, SameEffect e₀ e := by
    intro e he
    obtain ⟨e₀, he₀, rfl⟩ := List.mem_map.mp he
    refine ⟨e₀, he₀, ?_⟩
    split
    · exact hset e₀
    · exact .refl e₀
  refine ⟨?_, h.used_le, ?_, ?_, ?_, h.nodup⟩
  · intro org' provider'
    have hsum := KeyedTable.sum_update set hkey hrow
      (charge released org' provider') (charge released org' provider') (fun _ _ _ => rfl)
    rw [(hset row).charge_eq, sub_add_cancel] at hsum
    exact (h.used_eq org' provider').trans hsum.symm
  · intro e he
    obtain ⟨e₀, he₀, hsame⟩ := hmem e he
    exact hsame.units ▸ h.units_pos e₀ he₀
  · intro e he
    obtain ⟨e₀, he₀, hsame⟩ := hmem e he
    rw [Ledger.quota?_updateEffect, hsame.organizationId, hsame.provider]
    exact h.quota_some e₀ he₀
  · intro k hk
    obtain ⟨e, he, hfailed⟩ := h.failed k hk
    by_cases hkk : k = (org, key)
    · subst hkk
      obtain rfl : row = e := Option.some.inj (hrow.symm.trans he)
      exact ⟨set row, KeyedTable.find?_update_self set hkey hrow, hstatus hfailed⟩
    · exact ⟨e, (KeyedTable.find?_update_of_ne s.effects set hkey hkk).trans he, hfailed⟩

/-- The release: the row keeps its units, its charge drops to nothing and the
counter drops by as much. -/
theorem released_step {org : OrganizationId} {key : String} {set : Effect → Effect}
    {row : Effect} (h : Accounted s released) (hset : ∀ e, SameEffect e (set e))
    (hkey : ∀ e, (set e).key = e.key) (hrow : s.effectIn? org key .reserved = some row)
    (hstatus : (set row).status = .failed) :
    Accounted ((s.updateEffect org key set hkey).addUsed org row.provider (-row.units))
      (released ++ [row.key]) := by
  obtain ⟨hfound, hreserved⟩ := Ledger.effectIn?_eq_some_iff.mp hrow
  have hk : row.key = (org, key) := KeyedTable.find?_key hfound
  have horg : row.organizationId = org := congrArg Prod.fst hk
  have hmarked := h.row hset hkey hfound (fun _ => hstatus)
  have hnot : row.key ∉ released := by
    intro hmem
    obtain ⟨e, he, hfailed⟩ := h.failed row.key hmem
    rw [hk] at he
    obtain rfl : row = e := Option.some.inj (hfound.symm.trans he)
    rw [hreserved] at hfailed
    cases hfailed
  obtain ⟨q, hq⟩ : ∃ q, s.quota? org row.provider = some q := by
    have hsome := h.quota_some row (KeyedTable.find?_mem hfound)
    rw [horg] at hsome
    exact Option.isSome_iff_exists.mp hsome
  have hq' : (s.updateEffect org key set hkey).quota? org row.provider = some q := hq
  have hused : ∀ org' provider',
      ((s.updateEffect org key set hkey).addUsed org row.provider (-row.units)).usedUnits
        org' provider' =
      (s.updateEffect org key set hkey).effects.sum
        (charge (released ++ [row.key]) org' provider') := by
    intro org' provider'
    rw [Ledger.usedUnits_addUsed hq', hmarked.used_eq]
    have hsum := KeyedTable.sum_update set hkey hfound
      (charge released org' provider') (charge (released ++ [row.key]) org' provider')
      (fun e _ hne => charge_append_of_ne (hk ▸ hne) org' provider')
    have hold := KeyedTable.sum_update set hkey hfound
      (charge released org' provider') (charge released org' provider') (fun _ _ _ => rfl)
    have hgone : charge (released ++ [row.key]) org' provider' (set row) = 0 := by
      simp [charge, hkey]
    have hcharge : charge released org' provider' row =
        if org = org' ∧ row.provider = provider' then row.units else 0 := by
      simp only [charge, hnot, horg, not_false_eq_true, and_true]
    rw [hgone] at hsum
    rw [(hset row).charge_eq] at hold
    rw [Ledger.effects_updateEffect, hsum, hold, hcharge]
    split <;> omega
  refine ⟨hused, ?_, hmarked.units_pos, ?_, ?_, ?_⟩
  · intro org' provider'
    have hold := hmarked.used_le org' provider'
    rw [Ledger.usedUnits_addUsed hq', Ledger.limitUnits_addUsed]
    have hpos := h.units_pos row (KeyedTable.find?_mem hfound)
    split <;> omega
  · intro e he
    rw [Ledger.addUsed, Ledger.quota?_isSome_updateQuota]
    exact hmarked.quota_some e he
  · intro k hmem
    rcases List.mem_append.mp hmem with hmem | hmem
    · exact hmarked.failed k hmem
    · rw [List.mem_singleton.mp hmem, hk]
      exact ⟨set row, KeyedTable.find?_update_self set hkey hfound, hstatus⟩
  · rw [List.nodup_append]
    refine ⟨h.nodup, by simp, ?_⟩
    intro a ha b hb hab
    rw [List.mem_singleton.mp hb] at hab
    exact hnot (hab ▸ ha)

theorem change {c : LedgerCall} {s' : Ledger} (h : Accounted s released)
    (hc : Change s c s') : Accounted s' (released ++ (c.releases s).toList) := by
  cases hc with
  | same hrel => simpa [hrel] using h
  | newQuota hlimit hins => simpa [LedgerCall.releases] using h.newQuota hlimit hins
  | limit hq hused => simpa [LedgerCall.releases] using h.limit hq hused
  | reserved hunits hq hlimit hins =>
      simpa [LedgerCall.releases] using h.reserved hunits hq hlimit hins
  | row _ hset hkey hrow hstep hrel =>
      rw [hrel, Option.toList_none, List.append_nil]
      exact h.row hset hkey hrow hstep.status.failed_of_failed
  | released hset hkey hrow hstatus _ =>
      have hrel := h.released_step hset hkey hrow hstatus
      simpa [LedgerCall.releases, hrow] using hrel

end Accounted

theorem accounted_run (calls : List LedgerCall) :
    Accounted (Machine.run LedgerCall.step Ledger.empty calls) (releasedKeys calls) := by
  induction calls using List.reverseRecOn with
  | nil => exact .empty
  | append_singleton calls c ih =>
      rw [Machine.run_concat, releasedKeys_concat, LedgerCall.step_snd]
      exact ih.change (c.change_or_unchanged _)

/-- All effects of a pair, told apart by whether they were released. -/
theorem Ledger.effectUnits_eq (s : Ledger) (released : List (OrganizationId × String))
    (org : OrganizationId) (provider : String) :
    s.effectUnits org provider =
      s.effects.sum (charge released org provider) + s.releasedUnits released org provider := by
  rw [effectUnits, releasedUnits, ← KeyedTable.sum_add]
  apply KeyedTable.sum_congr
  intro e _
  unfold charge
  by_cases h : e.key ∈ released <;> simp [h]

/-- Quota conservation over every finite interleaving of ledger calls. -/
theorem quota_conservation (calls : List LedgerCall) :
    let s := Machine.run LedgerCall.step Ledger.empty calls
    (∀ org provider,
      0 ≤ s.usedUnits org provider ∧
      s.usedUnits org provider ≤ s.limitUnits org provider ∧
      s.usedUnits org provider =
        s.effectUnits org provider - s.releasedUnits (releasedKeys calls) org provider) ∧
    (releasedKeys calls).Nodup ∧
    (∀ org key runId provider units request, (s.effect? org key).isSome →
      (LedgerCall.step (.effect org (.reserve key runId provider units request)) s).2 = s) ∧
    (∀ org key error releaseQuota errorType, s.effectIn? org key .reserved = none →
      (LedgerCall.step (.effect org (.markFailed key error releaseQuota errorType)) s).2 = s) ∧
    ∀ (c : LedgerCall) exc, (c.step s).1 = some exc → (c.step s).2 = s := by
  intro s
  have h : Accounted s (releasedKeys calls) := accounted_run calls
  refine ⟨?_, h.nodup, ?_, ?_, ?_⟩
  · intro org provider
    refine ⟨h.used_nonneg org provider, h.used_le org provider, ?_⟩
    rw [h.used_eq, s.effectUnits_eq (releasedKeys calls), add_sub_cancel_right]
  · intro org key runId provider units request hsome
    obtain ⟨row, hrow⟩ := Option.isSome_iff_exists.mp hsome
    rw [LedgerCall.step_snd]
    exact LedgerCall.apply_reserve_of_present hrow runId provider units request
  · intro org key error releaseQuota errorType hnone
    rw [LedgerCall.step_snd]
    exact LedgerCall.apply_markFailed_of_not_reserved hnone error releaseQuota errorType
  · intro c exc herror
    exact LedgerCall.step_of_error herror

end Orchestrator
