import Orchestrator.Graph.Checkpoint

/-!
What an organization sees through its saver, beside a saver of its own.

The rows of an organization, under the thread ids it uses, are a view of the
shared table. Every write of the organization is that write to the view, a write
of another organization leaves the view, and the replies are compared call by
call.
-/

namespace Orchestrator

open ScopedTable Outcome

namespace TenantScopedPostgresSaver
variable {org org' : TenantOrganization} {threadId external : String}

theorem externalThread?_eq_some_iff :
    externalThread? org threadId = some external ↔ threadId = scopeThread org external := by
  have hscope : (scopeThread org external).toList =
      (scopeThread org "").toList ++ external.toList := by
    simp [scopeThread]
  rw [externalThread?]
  constructor
  · intro h
    split at h
    · rename_i hstarts
      obtain ⟨rest, hrest⟩ := List.isPrefixOf_iff_prefix.mp hstarts
      rw [← hrest, List.drop_left] at h
      obtain rfl := Option.some.inj h
      exact String.toList_inj.mp (by rw [hscope, ← hrest, String.toList_ofList])
    · cases h
  · rintro rfl
    rw [hscope, if_pos (List.isPrefixOf_iff_prefix.mpr (List.prefix_append _ _)), List.drop_left,
      String.ofList_toList]

theorem externalThread?_scopeThread : externalThread? org (scopeThread org external) =
    some external :=
  externalThread?_eq_some_iff.mpr rfl

theorem externalThread?_injective : Injective (externalThread? org) := by
  intro k₁ k₂ k' h₁ h₂
  rw [externalThread?_eq_some_iff.mp h₁, externalThread?_eq_some_iff.mp h₂]

/-- The organization is what comes before the first colon. -/
theorem takeWhile_scopeThread (org : TenantOrganization) (threadId : String) :
    String.ofList ((scopeThread org threadId).toList.takeWhile (· ≠ ':')) = org.text := by
  have hlist : (scopeThread org threadId).toList = org.text.toList ++ ':' :: threadId.toList := by
    simp [scopeThread]
  have hall : ∀ c ∈ org.text.toList, decide (c ≠ ':') = true := by
    intro c hc
    have hne : c ≠ ':' := fun he => org.noColon (he ▸ hc)
    simpa using hne
  rw [hlist, List.takeWhile_append_of_pos hall, List.takeWhile_cons_of_neg (by simp),
    List.append_nil, String.ofList_toList]

theorem externalThread?_of_ne (h : org' ≠ org) :
    externalThread? org (scopeThread org' threadId) = none := by
  cases hexternal : externalThread? org (scopeThread org' threadId) with
  | none => rfl
  | some external =>
      have hsame := externalThread?_eq_some_iff.mp hexternal
      have htext : org'.text = org.text := by
        rw [← takeWhile_scopeThread org' threadId, hsame, takeWhile_scopeThread]
      cases org
      cases org'
      cases htext
      exact absurd rfl h

end TenantScopedPostgresSaver

open TenantScopedPostgresSaver KeyedSaver

variable {δ κ π ω φ γ : Type} {ops : ThreadOps δ κ π ω φ γ} {rowSecurity : Bool}
  {org : TenantOrganization} {rows : List (String × δ)} {connection : String}

/-- The rows of an organization under the thread ids it uses. -/
def ownRows (org : TenantOrganization) (rows : List (String × δ)) : List (String × δ) :=
  view (externalThread? org) rows

theorem permits_scopeThread (threadId : String) :
    permits rowSecurity org.text (scopeThread org threadId) = true := by
  simp only [permits, takeWhile_scopeThread, decide_true, Bool.or_true]

theorem permits_unsecured (threadId : String) : permits false connection threadId = true := rfl

theorem visible_unsecured : visible false connection rows = rows := List.filter_true _

theorem ownRows_visible (rowSecurity : Bool) :
    ownRows org (visible rowSecurity org.text rows) = ownRows org rows := by
  rw [ownRows, visible, view_filter (p := permits rowSecurity org.text) (q := fun _ => true)]
  · exact List.filter_true _
  · intro threadId external h
    rw [externalThread?_eq_some_iff.mp h, permits_scopeThread]

theorem lookup_ownRows (threadId : String) (empty : δ) :
    lookup empty (scopeThread org threadId) (visible rowSecurity org.text rows) =
      lookup empty threadId (ownRows org rows) := by
  rw [← ownRows_visible rowSecurity, ownRows,
    lookup_view externalThread?_injective externalThread?_scopeThread]

/-- The own part of what is found, under the thread ids of the organization, is what
a store of its own finds. -/
theorem filterMap_found (rowSecurity : Bool) (connection : String)
    (scope : Option (String × κ)) (filter : φ) (bound : Option κ) :
    (found ops rowSecurity org.text (scope.map fun p => (scopeThread org p.1, p.2)) filter bound
        rows).filterMap (renamed (externalThread? org)) =
      found ops false connection scope filter bound (ownRows org rows) := by
  have hselect : (scope.map fun p => (scopeThread org p.1, p.2)).map Prod.snd =
      scope.map Prod.snd := by
    rw [Option.map_map]
    rfl
  have hscope : ∀ k k', externalThread? org k = some k' →
      (scope.map fun p => (scopeThread org p.1, p.2)).all (k = ·.1) = scope.all (k' = ·.1) := by
    intro k k' hk
    cases scope with
    | none => rfl
    | some p =>
        have hiff : k = scopeThread org p.1 ↔ k' = p.1 := by
          rw [← externalThread?_eq_some_iff, hk, Option.some.injEq]
        simp [hiff]
  rw [found, found, filterMap_listing, hselect, visible_unsecured,
    view_filter (q := fun k' => scope.all (k' = ·.1)) hscope]
  congr 2
  exact ownRows_visible rowSecurity

theorem externalTuple_tupleAt (found : String × Snapshot κ γ) {external : String}
    (h : externalThread? org found.1 = some external) :
    externalTuple org (tupleAt found) = .ok (tupleAt (external, found.2)) := by
  have hconfig : ∀ rest : κ, externalConfig org (.ofThread found.1 rest) =
      .ok (.ofThread external rest) := by
    intro rest
    simp only [externalConfig, RunnableConfig.ofThread, h]
  have hparent : externalParent org (tupleAt found).parentConfig =
      .ok (found.2.parent.map (.ofThread external)) := by
    cases hp : found.2.parent with
    | none => simp [tupleAt, externalParent, hp]
    | some rest =>
        simp only [tupleAt, hp, Option.map_some, externalParent, hconfig, Except.map]
  rw [externalTuple, hparent, tupleAt, hconfig]
  rfl

theorem externalTuples_map_tupleAt (l : List (String × Snapshot κ γ)) :
    externalTuples org (l.map tupleAt) =
      .ok ((l.filterMap (renamed (externalThread? org))).map tupleAt) := by
  induction l with
  | nil => rfl
  | cons found l ih =>
      cases h : externalThread? org found.1 with
      | none =>
          rw [List.filterMap_cons_none (by simp [renamed, h]), ← ih]
          simp [externalTuples, tupleAt, RunnableConfig.ofThread, h]
      | some external =>
          rw [List.filterMap_cons_some (by simp [renamed, h]; rfl), List.map_cons,
            externalTuples, ih, externalTuple_tupleAt found h]
          simp [tupleAt, RunnableConfig.ofThread, h, ok_bind, pure_eq]

/-- The config is left out or names a thread. -/
def NamesThread (config : Option (RunnableConfig κ)) : Prop :=
  ∀ c ∈ config, ∃ threadId rest, c = .ofThread threadId rest

/-- The wrapped saver takes the arguments of a listing. -/
def AcceptsListing (config before : Option (RunnableConfig κ)) : Prop :=
  (∃ scope, listScope config = .ok scope) ∧ ∃ bound, listBound before = .ok bound

/-- The limit keeps only threads of the organization or cuts off none of them. -/
def CutsNoOwn (org : TenantOrganization) (n : Nat) (l : List (String × Snapshot κ γ)) : Prop :=
  (∀ found ∈ l.take n, (externalThread? org found.1).isSome) ∨
    ∀ found ∈ l.drop n, externalThread? org found.1 = none

/-- A listing that the saver accepts names a thread or has no config at all, its
`before` names a thread, and with no config its limit cuts off no own checkpoint
for one of others. -/
def Isolated (ops : ThreadOps δ κ π ω φ γ) (rowSecurity : Bool) (org : TenantOrganization)
    (rows : List (String × δ)) : SaverCall κ π ω φ → Prop
  | .alist config filter before limit => AcceptsListing config before →
      NamesThread config ∧ NamesThread before ∧
      (config = none → ∀ n ∈ limit, ∀ bound, listBound before = .ok bound →
        CutsNoOwn org n (found ops rowSecurity org.text none filter bound rows))
  | .agetTuple _ | .aput _ _ | .aputWrites _ _ | .adeleteThread _ => True

/-- A config names a thread, or both savers refuse it. -/
theorem config_cases (org : TenantOrganization) (config : RunnableConfig κ) :
    (∃ threadId rest, config = .ofThread threadId rest) ∨
      threadOf config = .error .keyError ∧ scopeConfig org config = .error .keyError := by
  obtain ⟨_ | ⟨_ | threadId, rest⟩⟩ := config
  · exact .inr ⟨rfl, rfl⟩
  · exact .inr ⟨rfl, rfl⟩
  · exact .inl ⟨threadId, rest, rfl⟩

theorem scopeOptional_of_not_names (org : TenantOrganization)
    {config : Option (RunnableConfig κ)} (h : ¬ NamesThread config) :
    scopeOptional org config = .error .keyError := by
  cases config with
  | none => exact absurd (fun c hc => absurd hc (by simp)) h
  | some config =>
      cases config_cases org config with
      | inl hthread =>
          refine absurd (fun c hc => ?_) h
          exact Option.some.inj hc ▸ hthread
      | inr hrefused => rw [scopeOptional, hrefused.2, Except.map]

/-- The scope and the bound of named configs, for the wrapped saver and for a private one. -/
theorem listScope_of_names (org : TenantOrganization)
    {config : Option (RunnableConfig κ)} (h : NamesThread config) :
    ∃ inner scope, scopeOptional org config = .ok inner ∧ listScope config = .ok scope ∧
      listScope inner = .ok (scope.map fun p => (scopeThread org p.1, p.2)) ∧
      (scope = none ↔ config = none) := by
  cases config with
  | none => exact ⟨none, none, rfl, rfl, rfl, by simp⟩
  | some config =>
      obtain ⟨threadId, rest, rfl⟩ := h config rfl
      exact ⟨_, some (threadId, rest), rfl, rfl, rfl, by simp⟩

theorem listBound_of_names (org : TenantOrganization)
    {before : Option (RunnableConfig κ)} (h : NamesThread before) :
    ∃ inner bound, scopeOptional org before = .ok inner ∧ listBound before = .ok bound ∧
      listBound inner = .ok bound := by
  cases before with
  | none => exact ⟨none, none, rfl, rfl, rfl⟩
  | some before =>
      obtain ⟨threadId, rest, rfl⟩ := h before rfl
      exact ⟨_, some rest, rfl, rfl, rfl⟩

theorem listScope_error {config : Option (RunnableConfig κ)}
    (h : ¬ ∃ scope, listScope config = .ok scope) : listScope config = .error .keyError := by
  cases config with
  | none => exact absurd ⟨none, rfl⟩ h
  | some config =>
      obtain ⟨_ | ⟨_ | threadId, rest⟩⟩ := config
      · exact absurd ⟨none, rfl⟩ h
      · rfl
      · exact absurd ⟨some (threadId, rest), rfl⟩ h

theorem listBound_error {before : Option (RunnableConfig κ)}
    (h : ¬ ∃ bound, listBound before = .ok bound) : listBound before = .error .keyError := by
  cases before with
  | none => exact absurd ⟨none, rfl⟩ h
  | some before =>
      obtain ⟨_ | configurable⟩ := before
      · rfl
      · exact absurd ⟨some configurable.rest, rfl⟩ h

section Listing
variable {config before : Option (RunnableConfig κ)} {filter : φ} {limit : Option Nat}

theorem accepts_of_names (org : TenantOrganization) (hconfig : NamesThread config)
    (hbefore : NamesThread before) : AcceptsListing config before := by
  obtain ⟨-, scope, -, hscope, -⟩ := listScope_of_names org hconfig
  obtain ⟨-, bound, -, hbound, -⟩ := listBound_of_names org hbefore
  exact ⟨⟨scope, hscope⟩, bound, hbound⟩

theorem alist_of_not_names (h : ¬ (NamesThread config ∧ NamesThread before)) :
    TenantScopedPostgresSaver.alist (keyedSaver ops rowSecurity) org config filter before limit
      rows = .error .keyError := by
  by_cases hconfig : NamesThread config
  · obtain ⟨inner, -, hinner, -⟩ := listScope_of_names org hconfig
    have hbefore := scopeOptional_of_not_names org fun hbefore => h ⟨hconfig, hbefore⟩
    rw [TenantScopedPostgresSaver.alist, hinner, ok_bind, hbefore]
    rfl
  · rw [TenantScopedPostgresSaver.alist, scopeOptional_of_not_names org hconfig]
    rfl

theorem keyedAlist_accepted (h : AcceptsListing config before) :
    KeyedSaver.alist ops rowSecurity connection config filter before limit rows ≠
      .error .keyError := by
  obtain ⟨⟨scope, hscope⟩, bound, hbound⟩ := h
  rw [KeyedSaver.alist, hscope, ok_bind, hbound]
  exact fun h => by cases h

theorem keyedAlist_refused (h : ¬ AcceptsListing config before) :
    KeyedSaver.alist ops rowSecurity connection config filter before limit rows =
      .error .keyError := by
  by_cases hscope : ∃ scope, listScope config = .ok scope
  · obtain ⟨scope, hscope⟩ := hscope
    have hbound := listBound_error fun hbound => h ⟨⟨scope, hscope⟩, hbound⟩
    rw [KeyedSaver.alist, hscope, ok_bind, hbound]
    rfl
  · rw [KeyedSaver.alist, listScope_error hscope]
    rfl

theorem takeLimit_eq_iff {l : List (String × Snapshot κ γ)} :
    ((takeLimit limit l).filterMap (renamed (externalThread? org))).map tupleAt =
        (takeLimit limit (l.filterMap (renamed (externalThread? org)))).map tupleAt ↔
      ∀ n ∈ limit, CutsNoOwn org n l := by
  cases limit with
  | none => simp [takeLimit]
  | some n =>
      have hiff := filterMap_take_eq_iff (g := renamed (externalThread? org))
        (@tupleAt κ γ) n l
      simpa [takeLimit, CutsNoOwn, renamed] using hiff

/-- Under a scope of the organization everything found is its own. -/
theorem cutsNoOwn_of_scope (threadId : String) (rest : κ) (bound : Option κ) (n : Nat) :
    CutsNoOwn org n (found ops rowSecurity org.text (some (scopeThread org threadId, rest)) filter
      bound rows) := by
  refine .inl fun entry hentry => ?_
  have hmem := List.mem_of_mem_take hentry
  rw [found, listing, List.mem_insertionSort, List.mem_flatMap] at hmem
  obtain ⟨r, hr, hmap⟩ := hmem
  obtain ⟨snapshot, -, rfl⟩ := List.mem_map.mp hmap
  have hthread : r.1 = scopeThread org threadId := by simpa using (List.mem_filter.mp hr).2
  rw [hthread, externalThread?_scopeThread, Option.isSome_some]

/-- The listing an organization gets is the one of a private store exactly when the
call is isolated. -/
theorem alist_eq_iff (connection : String) :
    TenantScopedPostgresSaver.alist (keyedSaver ops rowSecurity) org config filter before limit
        rows =
      KeyedSaver.alist ops false connection config filter before limit (ownRows org rows) ↔
    Isolated ops rowSecurity org rows (.alist config filter before limit) := by
  by_cases haccepts : AcceptsListing config before
  swap
  · have hnames : ¬ (NamesThread config ∧ NamesThread before) := fun hnames =>
      haccepts (accepts_of_names org hnames.1 hnames.2)
    rw [alist_of_not_names hnames, keyedAlist_refused haccepts]
    exact iff_of_true rfl fun h => absurd h haccepts
  by_cases hnames : NamesThread config ∧ NamesThread before
  swap
  · rw [alist_of_not_names hnames]
    refine iff_of_false (keyedAlist_accepted haccepts).symm fun h => hnames ?_
    exact ⟨(h haccepts).1, (h haccepts).2.1⟩
  obtain ⟨inner, scope, hinner, hscope, hscoped, hnone⟩ :=
    listScope_of_names org hnames.1
  obtain ⟨innerBefore, bound, hinnerBefore, hbound, hscopedBound⟩ :=
    listBound_of_names org hnames.2
  have hwrapper : TenantScopedPostgresSaver.alist (keyedSaver ops rowSecurity) org config filter
      before limit rows = .ok (((takeLimit limit (found ops rowSecurity org.text
        (scope.map fun p => (scopeThread org p.1, p.2)) filter bound rows)).filterMap
          (renamed (externalThread? org))).map tupleAt) := by
    have hkeyed : (keyedSaver ops rowSecurity).alist = KeyedSaver.alist ops rowSecurity := rfl
    rw [TenantScopedPostgresSaver.alist, hinner, ok_bind, hinnerBefore, ok_bind, hkeyed,
      KeyedSaver.alist, hscoped, ok_bind, hscopedBound, ok_bind, pure_eq, ok_bind,
      externalTuples_map_tupleAt]
  have hprivate : KeyedSaver.alist ops false connection config filter before limit
      (ownRows org rows) = .ok ((takeLimit limit (found ops false connection scope filter bound
        (ownRows org rows))).map tupleAt) := by
    rw [KeyedSaver.alist, hscope, ok_bind, hbound, ok_bind, pure_eq]
  rw [hwrapper, hprivate, Except.ok.injEq, ← filterMap_found rowSecurity,
    takeLimit_eq_iff]
  cases scope with
  | none =>
      constructor
      · intro hcuts _
        refine ⟨hnames.1, hnames.2, fun _ n hn bound' hbound' => ?_⟩
        obtain rfl := Except.ok.inj (hbound.symm.trans hbound')
        exact hcuts n hn
      · intro h n hn
        exact (h haccepts).2.2 (hnone.mp rfl) n hn bound hbound
  | some p =>
      refine iff_of_true (fun n _ => cutsNoOwn_of_scope p.1 p.2 bound n) fun _ => ?_
      exact ⟨hnames.1, hnames.2, fun h => absurd (hnone.mpr h) (by simp)⟩

end Listing

section Rows
variable (empty : δ) (threadId : String) (g : δ → δ)

theorem ownRows_modify : ownRows org (modify empty (scopeThread org threadId) g rows) =
    modify empty threadId g (ownRows org rows) :=
  view_modify_of_some externalThread?_injective externalThread?_scopeThread g rows

theorem ownRows_remove : ownRows org (remove (scopeThread org threadId) rows) =
    remove threadId (ownRows org rows) :=
  view_remove_of_some externalThread?_injective externalThread?_scopeThread rows

variable {org' : TenantOrganization} (h : org' ≠ org)
include h

theorem ownRows_modify_of_ne : ownRows org (modify empty (scopeThread org' threadId) g rows) =
    ownRows org rows :=
  view_modify_of_none (externalThread?_of_ne h) g rows

theorem ownRows_remove_of_ne : ownRows org (remove (scopeThread org' threadId) rows) =
    ownRows org rows :=
  view_remove_of_none (externalThread?_of_ne h) rows

end Rows

section Calls
variable (ops rowSecurity org rows connection)

theorem agetTuple_eq (config : RunnableConfig κ) :
    TenantScopedPostgresSaver.agetTuple (keyedSaver ops rowSecurity) org config rows =
      KeyedSaver.agetTuple ops false connection config (ownRows org rows) := by
  have hkeyed : (keyedSaver ops rowSecurity).agetTuple = KeyedSaver.agetTuple ops rowSecurity :=
    rfl
  cases config_cases org config with
  | inr hrefused =>
      rw [TenantScopedPostgresSaver.agetTuple, hrefused.2, KeyedSaver.agetTuple, hrefused.1]
      rfl
  | inl hthread =>
      obtain ⟨threadId, rest, rfl⟩ := hthread
      simp only [TenantScopedPostgresSaver.agetTuple, scopeConfig, RunnableConfig.ofThread, hkeyed,
        KeyedSaver.agetTuple, threadOf, ok_bind, pure_eq, lookup_ownRows, visible_unsecured]
      cases hget : ops.get rest (lookup ops.empty threadId (ownRows org rows)) with
      | none => rfl
      | some snapshot =>
          simp only [Option.map_some, Except.map,
            externalTuple_tupleAt (scopeThread org threadId, snapshot)
              externalThread?_scopeThread]

/-- A write of the organization is that write to its own rows. -/
theorem aput_eq (config : RunnableConfig κ) (args : π) :
    Prod.map id (ownRows org)
        (TenantScopedPostgresSaver.aput (keyedSaver ops rowSecurity) org config args rows) =
      KeyedSaver.aput ops false connection config args (ownRows org rows) := by
  have hkeyed : (keyedSaver ops rowSecurity).aput = KeyedSaver.aput ops rowSecurity := rfl
  cases config_cases org config with
  | inr hrefused =>
      rw [TenantScopedPostgresSaver.aput, hrefused.2, KeyedSaver.aput, hrefused.1]
      rfl
  | inl hthread =>
      obtain ⟨threadId, rest, rfl⟩ := hthread
      have hlookup : lookup ops.empty (scopeThread org threadId) rows =
          lookup ops.empty threadId (ownRows org rows) :=
        (lookup_view externalThread?_injective externalThread?_scopeThread rows).symm
      simp only [TenantScopedPostgresSaver.aput, scopeConfig, hkeyed, KeyedSaver.aput, threadOf,
        RunnableConfig.ofThread, permits_scopeThread, permits_unsecured, if_true, Prod.map,
        Except.bind, externalConfig, externalThread?_scopeThread, hlookup, id, ownRows_modify]

theorem aputWrites_eq (config : RunnableConfig κ) (writes : ω) :
    Prod.map id (ownRows org)
        (TenantScopedPostgresSaver.aputWrites (keyedSaver ops rowSecurity) org config writes
          rows) =
      KeyedSaver.aputWrites ops false connection config writes (ownRows org rows) := by
  have hkeyed : (keyedSaver ops rowSecurity).aputWrites = KeyedSaver.aputWrites ops rowSecurity :=
    rfl
  cases config_cases org config with
  | inr hrefused =>
      rw [TenantScopedPostgresSaver.aputWrites, hrefused.2, KeyedSaver.aputWrites, hrefused.1]
      rfl
  | inl hthread =>
      obtain ⟨threadId, rest, rfl⟩ := hthread
      simp only [TenantScopedPostgresSaver.aputWrites, scopeConfig, hkeyed, KeyedSaver.aputWrites,
        threadOf, RunnableConfig.ofThread, permits_scopeThread, permits_unsecured, if_true,
        Prod.map, id, ownRows_modify]

theorem adeleteThread_eq (threadId : String) :
    ownRows org
        (TenantScopedPostgresSaver.adeleteThread (keyedSaver ops rowSecurity) org threadId rows) =
      KeyedSaver.adeleteThread false connection threadId (ownRows org rows) := by
  have hkeyed : (keyedSaver ops rowSecurity).adeleteThread =
      KeyedSaver.adeleteThread rowSecurity := rfl
  simp only [TenantScopedPostgresSaver.adeleteThread, hkeyed, KeyedSaver.adeleteThread,
    permits_scopeThread, permits_unsecured, if_true, ownRows_remove]

end Calls

/-- One call of an organization through its saver. -/
def tenantCall {σ : Type} (saver : Saver σ κ π ω φ γ)
    (i : TenantOrganization × SaverCall κ π ω φ) (s : σ) : SaverReply κ γ × σ :=
  (tenantScopedPostgresSaver saver i.1).call i.1.text i.2 s

section Step
variable {call : SaverCall κ π ω φ}

theorem ownRows_tenantCall (connection : String) :
    ownRows org (tenantCall (keyedSaver ops rowSecurity) (org, call) rows).2 =
      ((keyedSaver ops false).call connection call (ownRows org rows)).2 := by
  cases call with
  | agetTuple _ | alist _ _ _ _ => rfl
  | aput config args => exact congrArg Prod.snd (aput_eq ops rowSecurity org rows connection ..)
  | aputWrites config writes =>
      exact congrArg Prod.snd (aputWrites_eq ops rowSecurity org rows connection ..)
  | adeleteThread threadId => exact adeleteThread_eq ops rowSecurity org rows connection threadId

/-- A call of another organization leaves the own rows. -/
theorem ownRows_tenantCall_of_ne {org' : TenantOrganization} (h : org' ≠ org) :
    ownRows org (tenantCall (keyedSaver ops rowSecurity) (org', call) rows).2 =
      ownRows org rows := by
  cases call with
  | agetTuple _ | alist _ _ _ _ => rfl
  | aput config args =>
      cases config_cases org' config with
      | inr hrefused =>
          simp only [tenantCall, Saver.call, tenantScopedPostgresSaver,
            TenantScopedPostgresSaver.aput, hrefused.2, Prod.map, id]
      | inl hthread =>
          obtain ⟨threadId, rest, rfl⟩ := hthread
          simp only [tenantCall, Saver.call, tenantScopedPostgresSaver, scopeConfig,
            TenantScopedPostgresSaver.aput, keyedSaver, KeyedSaver.aput, threadOf,
            RunnableConfig.ofThread, permits_scopeThread, if_true, Prod.map, id,
            ownRows_modify_of_ne _ _ _ h]
  | aputWrites config writes =>
      cases config_cases org' config with
      | inr hrefused =>
          simp only [tenantCall, Saver.call, tenantScopedPostgresSaver,
            TenantScopedPostgresSaver.aputWrites, hrefused.2, Prod.map, id]
      | inl hthread =>
          obtain ⟨threadId, rest, rfl⟩ := hthread
          simp only [tenantCall, Saver.call, tenantScopedPostgresSaver, scopeConfig,
            TenantScopedPostgresSaver.aputWrites, keyedSaver, KeyedSaver.aputWrites, threadOf,
            RunnableConfig.ofThread, permits_scopeThread, if_true, Prod.map, id,
            ownRows_modify_of_ne _ _ _ h]
  | adeleteThread threadId =>
      simp only [tenantCall, Saver.call, tenantScopedPostgresSaver,
        TenantScopedPostgresSaver.adeleteThread, keyedSaver, KeyedSaver.adeleteThread,
        permits_scopeThread, if_true, ownRows_remove_of_ne _ h]

/-- The reply is the one of a private store exactly when the call is isolated. -/
theorem reply_eq_iff (connection : String) :
    (tenantCall (keyedSaver ops rowSecurity) (org, call) rows).1 =
        ((keyedSaver ops false).call connection call (ownRows org rows)).1 ↔
      Isolated ops rowSecurity org rows call := by
  cases call with
  | agetTuple config =>
      have hreply := agetTuple_eq ops rowSecurity org rows connection config
      exact iff_of_true (congrArg SaverReply.tuple hreply) trivial
  | alist config filter before limit =>
      rw [← alist_eq_iff connection]
      exact SaverReply.tuples.injEq .. ▸ Iff.rfl
  | aput config args =>
      have hreply := congrArg Prod.fst (aput_eq ops rowSecurity org rows connection config args)
      exact iff_of_true (congrArg SaverReply.config hreply) trivial
  | aputWrites config writes =>
      have hreply :=
        congrArg Prod.fst (aputWrites_eq ops rowSecurity org rows connection config writes)
      exact iff_of_true (congrArg SaverReply.done hreply) trivial
  | adeleteThread threadId => exact iff_of_true rfl trivial

end Step

section Store
variable {σ : Type} {saver : Saver σ κ π ω φ γ} (h : KeyedStore saver ops rowSecurity)
include h

theorem KeyedStore.call_eq (connection : String) (call : SaverCall κ π ω φ) (s : σ) :
    Prod.map id h.table (saver.call connection call s) =
      (keyedSaver ops rowSecurity).call connection call (h.table s) := by
  cases call with
  | agetTuple config => simp only [Saver.call, Prod.map, id, h.agetTuple]
  | alist config filter before limit => simp only [Saver.call, Prod.map, id, h.alist]
  | aput config args => simp only [Saver.call, ← h.aput, Prod.map, id]
  | aputWrites config writes => simp only [Saver.call, ← h.aputWrites, Prod.map, id]
  | adeleteThread threadId => simp only [Saver.call, Prod.map, id, h.adeleteThread]

/-- The wrapper around the saver answers as the wrapper around the keyed store. -/
theorem KeyedStore.tenantCall_eq (i : TenantOrganization × SaverCall κ π ω φ) (s : σ) :
    Prod.map id h.table (tenantCall saver i s) =
      tenantCall (keyedSaver ops rowSecurity) i (h.table s) := by
  obtain ⟨org, call⟩ := i
  cases call with
  | agetTuple config =>
      simp only [tenantCall, Saver.call, tenantScopedPostgresSaver,
        TenantScopedPostgresSaver.agetTuple, Prod.map, id, h.agetTuple]
  | alist config filter before limit =>
      simp only [tenantCall, Saver.call, tenantScopedPostgresSaver,
        TenantScopedPostgresSaver.alist, Prod.map, id, h.alist]
  | aput config args =>
      simp only [tenantCall, Saver.call, tenantScopedPostgresSaver, TenantScopedPostgresSaver.aput]
      cases scopeConfig org config with
      | error e => rfl
      | ok inner => simp only [← h.aput, Prod.map, id]
  | aputWrites config writes =>
      simp only [tenantCall, Saver.call, tenantScopedPostgresSaver,
        TenantScopedPostgresSaver.aputWrites]
      cases scopeConfig org config with
      | error e => rfl
      | ok inner => simp only [← h.aputWrites, Prod.map, id]
  | adeleteThread threadId =>
      simp only [tenantCall, Saver.call, tenantScopedPostgresSaver,
        TenantScopedPostgresSaver.adeleteThread, Prod.map, id, h.adeleteThread]

end Store

section Runs
variable {σ σ' : Type}

def callsOf (org : TenantOrganization) (inputs : List (TenantOrganization × SaverCall κ π ω φ)) :
    List (SaverCall κ π ω φ) :=
  (inputs.filter (·.1 = org)).map Prod.snd

/-- What an organization is answered in a run of all. -/
def repliesTo (saver : Saver σ κ π ω φ γ) (org : TenantOrganization) (s : σ)
    (inputs : List (TenantOrganization × SaverCall κ π ω φ)) : List (SaverReply κ γ) :=
  ((Machine.log (tenantCall saver) s inputs).filter (·.input.1 = org)).map (·.reply)

/-- What a saver that is used alone answers. -/
def privateReplies (alone : Saver σ κ π ω φ γ) (connection : String) (s : σ)
    (calls : List (SaverCall κ π ω φ)) : List (SaverReply κ γ) :=
  (Machine.log (alone.call connection) s calls).map (·.reply)

variable {saver : Saver σ κ π ω φ γ} {alone : Saver σ' κ π ω φ γ}

theorem repliesTo_cons_self (org : TenantOrganization) (call : SaverCall κ π ω φ) (s : σ)
    (inputs : List (TenantOrganization × SaverCall κ π ω φ)) :
    repliesTo saver org s ((org, call) :: inputs) =
      (tenantCall saver (org, call) s).1 ::
        repliesTo saver org (tenantCall saver (org, call) s).2 inputs := by
  rw [repliesTo, Machine.log, List.filter_cons_of_pos (by simp [Machine.event])]
  rfl

theorem repliesTo_cons_of_ne {org org' : TenantOrganization} (h : org' ≠ org)
    (call : SaverCall κ π ω φ) (s : σ)
    (inputs : List (TenantOrganization × SaverCall κ π ω φ)) :
    repliesTo saver org s ((org', call) :: inputs) =
      repliesTo saver org (tenantCall saver (org', call) s).2 inputs := by
  rw [repliesTo, Machine.log, List.filter_cons_of_neg (by simp [Machine.event, h])]
  rfl

/-- An organization is answered as by a saver of its own, through a whole run,
exactly when all its calls are isolated. -/
theorem repliesTo_eq_iff (h : KeyedStore saver ops rowSecurity) (h' : KeyedStore alone ops false)
    (org : TenantOrganization) (connection : String)
    (inputs : List (TenantOrganization × SaverCall κ π ω φ)) (s : σ) (p : σ')
    (hrows : ownRows org (h.table s) = h'.table p) :
    repliesTo saver org s inputs = privateReplies alone connection p (callsOf org inputs) ↔
      ∀ e ∈ Machine.log (tenantCall saver) s inputs, e.input.1 = org →
        Isolated ops rowSecurity org (h.table e.before) e.input.2 := by
  induction inputs generalizing s p with
  | nil => simp [repliesTo, privateReplies, callsOf, Machine.log]
  | cons i inputs ih =>
      obtain ⟨org', call⟩ := i
      have hshared := h.tenantCall_eq (org', call) s
      have htable : h.table (tenantCall saver (org', call) s).2 =
          (tenantCall (keyedSaver ops rowSecurity) (org', call) (h.table s)).2 :=
        congrArg Prod.snd hshared
      rw [Machine.log, List.forall_mem_cons]
      by_cases horg : org' = org
      · subst horg
        have halone := h'.call_eq connection call p
        have hnext : ownRows org' (h.table (tenantCall saver (org', call) s).2) =
            h'.table (alone.call connection call p).2 := by
          rw [htable, ownRows_tenantCall connection, hrows]
          exact (congrArg Prod.snd halone).symm
        have hreply : (tenantCall saver (org', call) s).1 = (alone.call connection call p).1 ↔
            Isolated ops rowSecurity org' (h.table s) call := by
          have hfirst : (tenantCall saver (org', call) s).1 =
              (tenantCall (keyedSaver ops rowSecurity) (org', call) (h.table s)).1 :=
            congrArg Prod.fst hshared
          have hsecond : (alone.call connection call p).1 =
              ((keyedSaver ops false).call connection call (h'.table p)).1 :=
            congrArg Prod.fst halone
          rw [hfirst, hsecond, ← hrows, reply_eq_iff]
        have hcalls : callsOf org' ((org', call) :: inputs) = call :: callsOf org' inputs := by
          rw [callsOf, List.filter_cons_of_pos (by simp)]
          rfl
        rw [← ih _ _ hnext, repliesTo_cons_self, hcalls, privateReplies, Machine.log, List.map_cons,
          List.cons.injEq]
        refine and_congr ?_ Iff.rfl
        exact hreply.trans ⟨fun hcall _ => hcall, fun hcall => hcall rfl⟩
      · have hnext : ownRows org (h.table (tenantCall saver (org', call) s).2) = h'.table p := by
          rw [htable, ownRows_tenantCall_of_ne horg, hrows]
        have hcalls : callsOf org ((org', call) :: inputs) = callsOf org inputs := by
          rw [callsOf, List.filter_cons_of_neg (by simp [horg])]
          rfl
        rw [← ih _ _ hnext, repliesTo_cons_of_ne horg, hcalls]
        exact ⟨fun hrun => ⟨fun he => absurd he horg, hrun⟩, fun hrun => hrun.2⟩

end Runs

/-- Over any correct keyed store, an organization sees through its saver what it
would see through a private one exactly when all its calls are isolated. -/
theorem tenant_sees_private_saver_iff {σ σ' δ κ π ω φ γ : Type} (saver : Saver σ κ π ω φ γ)
    (alone : Saver σ' κ π ω φ γ) (ops : ThreadOps δ κ π ω φ γ) (rowSecurity : Bool)
    (h : KeyedStore saver ops rowSecurity) (h' : KeyedStore alone ops false)
    (org : TenantOrganization) (connection : String)
    (inputs : List (TenantOrganization × SaverCall κ π ω φ)) :
    repliesTo saver org saver.empty inputs =
        privateReplies alone connection alone.empty (callsOf org inputs) ↔
      ∀ e ∈ Machine.log (tenantCall saver) saver.empty inputs, e.input.1 = org →
        Isolated ops rowSecurity org (h.table e.before) e.input.2 :=
  repliesTo_eq_iff h h' org connection inputs _ _ (by rw [h.empty, h'.empty]; rfl)

/-- The keyed store is correct itself. -/
def keyedStore {δ κ π ω φ γ : Type} (ops : ThreadOps δ κ π ω φ γ) (rowSecurity : Bool) :
    KeyedStore (keyedSaver ops rowSecurity) ops rowSecurity where
  table := id
  empty := rfl
  agetTuple _ _ _ := rfl
  alist _ _ _ _ _ _ := rfl
  aput _ _ _ _ := rfl
  aputWrites _ _ _ _ := rfl
  adeleteThread _ _ _ := rfl

/-- Threads that hold the ids of their checkpoints, the newest first. -/
def idThreads : ThreadOps (List (Snapshot String Unit)) String String Unit Unit Unit where
  empty := []
  get _ data := data.head?
  select _ _ _ data := data
  put _ checkpointId data := (checkpointId, ⟨checkpointId, checkpointId, (), none⟩ :: data)
  putWrites _ _ data := data

def acme : TenantOrganization := ⟨"acme", by decide⟩

def globex : TenantOrganization := ⟨"globex", by decide⟩

/-- Each organization stores a checkpoint; the first one asks for the newest. -/
def newestOfAll : List (TenantOrganization × SaverCall String String Unit Unit) :=
  [(acme, .aput (.ofThread "run" "") "1"), (globex, .aput (.ofThread "run" "") "2"),
    (acme, .alist none () none (some 1))]

/-- Each organization stores a checkpoint; the first one asks for the newest of its thread. -/
def newestOfThread : List (TenantOrganization × SaverCall String String Unit Unit) :=
  [(acme, .aput (.ofThread "run" "") "1"), (globex, .aput (.ofThread "run" "") "2"),
    (acme, .alist (some (.ofThread "run" "")) () none (some 1))]

theorem newestOfThread_private : repliesTo (keyedSaver idThreads false) acme [] newestOfThread =
    privateReplies (keyedSaver idThreads false) "" [] (callsOf acme newestOfThread) := by
  have hisolated : Machine.Guarded (tenantCall (keyedSaver idThreads false))
      (fun rows input => input.1 = acme → Isolated idThreads false acme rows input.2) []
      newestOfThread := by
    refine (Machine.guarded_cons _).mpr ⟨fun _ => True.intro, (Machine.guarded_cons _).mpr
      ⟨fun _ => True.intro, (Machine.guarded_cons _).mpr ⟨fun _ _ => ⟨?_, ?_, ?_⟩, ?_⟩⟩⟩
    · exact fun config hconfig => ⟨"run", "", (Option.some.inj hconfig).symm⟩
    · exact fun config hconfig => absurd hconfig (Option.not_mem_none config)
    · exact fun hnone => absurd hnone (Option.some_ne_none _)
    · exact fun _ hnone => absurd hnone List.not_mem_nil
  exact (tenant_sees_private_saver_iff (keyedSaver idThreads false) (keyedSaver idThreads false)
    idThreads false (keyedStore ..) (keyedStore ..) acme "" newestOfThread).mpr hisolated

/-- The limit is spent on the checkpoint of the other organization. -/
theorem limit_spent_on_others :
    ¬ ∀ (σ σ' δ κ π ω φ γ : Type) (saver : Saver σ κ π ω φ γ) (alone : Saver σ' κ π ω φ γ)
        (ops : ThreadOps δ κ π ω φ γ) (rowSecurity : Bool) (_ : KeyedStore saver ops rowSecurity)
        (_ : KeyedStore alone ops false) (org : TenantOrganization) (connection : String)
        (inputs : List (TenantOrganization × SaverCall κ π ω φ)),
      repliesTo saver org saver.empty inputs =
        privateReplies alone connection alone.empty (callsOf org inputs) := by
  intro h
  have hreplies := h _ _ _ _ _ _ _ _ (keyedSaver idThreads false) (keyedSaver idThreads false)
    idThreads false (keyedStore ..) (keyedStore ..) acme "" newestOfAll
  exact absurd hreplies (by decide +kernel)

end Orchestrator
