import Orchestrator.Contract.MaskedText
import Orchestrator.Tools.KeyIdentity

/-!
What two runtime contracts with one fingerprint agree on.

The hash of the settings says of every path without a credential what stands there,
up to the passwords of URLs, and nothing of the other paths. The fingerprint says that
hash and every dictionary of the contract, so a stored contract lets a run go on as
long as these stay what they were. An adapter is no part of the settings alone: the
contract names it as it is written.
-/

namespace Orchestrator
namespace Contract

/-- A shape, with a text masked. -/
def maskShape : PyShape → PyShape
  | .scalar v => .scalar (maskScalar v)
  | shape => shape

/-- The same shape, where texts may differ in what the pattern takes for passwords. -/
def SameShape : PyShape → PyShape → Prop
  | .scalar (.str a), .scalar (.str b) => SameButPasswords a.toList b.toList
  | a, b => a = b

/-- No text in which the pattern finds something. -/
def LeftAlone : PyShape → Prop
  | .scalar (.str a) => Unmatched a.toList
  | _ => True

theorem maskShape_eq_iff (a b : PyShape) : maskShape a = maskShape b ↔ SameShape a b := by
  cases a with
  | scalar v =>
      cases b with
      | scalar w => cases v <;> cases w <;> simp [maskShape, maskScalar, SameShape, maskText_eq_iff]
      | _ => simp [maskShape, SameShape]
  | _ => cases b <;> simp [maskShape, SameShape]

section
variable (lower : String → String)

/-- A key on the path reads like a credential. -/
def credentialPath (path : List PyStep) : Bool :=
  path.any fun step => match step with
    | .key name => isSecretKey lower name
    | .index _ => false

@[simp] theorem credentialPath_nil : credentialPath lower [] = false := rfl

@[simp] theorem credentialPath_key (name : String) (path : List PyStep) :
    credentialPath lower (.key name :: path) =
      (isSecretKey lower name || credentialPath lower path) := rfl

@[simp] theorem credentialPath_index (n : Nat) (path : List PyStep) :
    credentialPath lower (.index n :: path) = credentialPath lower path :=
  Bool.false_or _

/-- What stands at a path, with a text masked. -/
def shown (v : PyValue) (path : List PyStep) : Option PyShape := (v.shapeAt path).map maskShape

/-- No setting differs but the credentials, and texts in passwords only. -/
def SameSettings (s t : Settings) : Prop :=
  ∀ path, credentialPath lower path = false →
    Option.Rel SameShape (s.value.shapeAt path) (t.value.shapeAt path)

/-- The settings are the same wherever the pattern finds nothing. -/
def SameUnmatched (s t : Settings) : Prop :=
  ∀ path shape, credentialPath lower path = false → LeftAlone shape →
    (s.value.shapeAt path = some shape ↔ t.value.shapeAt path = some shape)

theorem shown_eq_iff (v w : PyValue) (path : List PyStep) :
    shown v path = shown w path ↔ Option.Rel SameShape (v.shapeAt path) (w.shapeAt path) := by
  rw [shown, shown]
  cases v.shapeAt path with
  | none => cases w.shapeAt path <;> simp
  | some a =>
      cases w.shapeAt path with
      | none => simp
      | some b => simp [maskShape_eq_iff]

variable {lower} in
theorem sameSettings_iff {s t : Settings} : SameSettings lower s t ↔
    ∀ path, credentialPath lower path = false → shown s.value path = shown t.value path :=
  forall₂_congr fun path _ => (shown_eq_iff s.value t.value path).symm

theorem eq_of_leftAlone {a b : PyShape} (h : SameShape a b) (hplain : LeftAlone a) : a = b := by
  rw [SameShape.eq_def] at h
  split at h
  · exact congrArg (fun text => PyShape.scalar (.str text))
      (String.toList_inj.mp (h.eq_of_unmatched hplain))
  · exact h

theorem some_of_leftAlone {a : Option PyShape} {shape : PyShape}
    (h : Option.Rel SameShape (some shape) a) (hplain : LeftAlone shape) : a = some shape := by
  cases h with
  | some hsame => rw [eq_of_leftAlone hsame hplain]

variable {lower} in
theorem SameSettings.symm {s t : Settings} (h : SameSettings lower s t) :
    SameSettings lower t s :=
  sameSettings_iff.mpr fun path hpath => (sameSettings_iff.mp h path hpath).symm

variable {lower} in
/-- What the pattern leaves alone is the same where the settings are. -/
theorem SameSettings.unmatched {s t : Settings} (h : SameSettings lower s t) :
    SameUnmatched lower s t := by
  intro path shape hpath hplain
  constructor
  · intro hs
    exact some_of_leftAlone (hs ▸ h path hpath) hplain
  · intro ht
    exact some_of_leftAlone (ht ▸ h.symm path hpath) hplain

theorem Settings.distinct_value (s : Settings) : s.value.Distinct := s.distinct

theorem sanitizeItems_eq (xs : List PyValue) :
    sanitizeItems lower xs = xs.map (sanitizeConfig lower) := by
  induction xs with
  | nil => rfl
  | cons x xs ih => rw [sanitizeItems, ih, List.map_cons]

theorem sanitizeEntries_eq (es : List (String × PyValue)) :
    sanitizeEntries lower es = (es.filter fun e => !isSecretKey lower e.1).map fun e =>
      (e.1, sanitizeConfig lower e.2) := by
  induction es with
  | nil => rfl
  | cons e es ih =>
      obtain ⟨name, value⟩ := e
      rw [sanitizeEntries, List.filter_cons]
      cases hname : isSecretKey lower name with
      | true => simpa using ih
      | false => simpa using ih

theorem map_fst_sanitizeEntries (es : List (String × PyValue)) :
    ((sanitizeEntries lower es).map Prod.fst).Sublist (es.map Prod.fst) := by
  rw [sanitizeEntries_eq, List.map_map]
  exact List.filter_sublist.map Prod.fst

theorem lookup_sanitizeEntries {es : List (String × PyValue)} (h : (es.map Prod.fst).Nodup)
    (name : String) :
    (Entries.byKey (sanitizeEntries lower es)).lookup name =
      if isSecretKey lower name then none else (es.lookup name).map (sanitizeConfig lower) := by
  rw [Entries.lookup_byKey (h.sublist (map_fst_sanitizeEntries lower es)), sanitizeEntries_eq,
    Entries.lookup_map, Entries.lookup_filter (fun name => !isSecretKey lower name)]
  cases isSecretKey lower name <;> rfl

/-- Sanitizing keeps what stands at every path without a credential, and only that. -/
theorem shapeAt_sanitizeConfig {v : PyValue} (hv : v.Distinct) (path : List PyStep) :
    (sanitizeConfig lower v).shapeAt path =
      if credentialPath lower path then none else shown v path := by
  induction path generalizing v with
  | nil => cases v <;> simp [sanitizeConfig, sanitizeItems_eq, shown, PyValue.shape, maskShape]
  | cons step path ih =>
      cases v with
      | scalar v => simp [sanitizeConfig, shown]
      | list xs =>
          cases step with
          | key name => simp [sanitizeConfig, shown]
          | index n =>
              rw [sanitizeConfig, sanitizeItems_eq, shown, PyValue.shapeAt_index,
                PyValue.shapeAt_index, List.getElem?_map, Option.bind_map, credentialPath_index]
              cases hitem : xs[n]? with
              | none => simp
              | some x =>
                  exact ih (PyValue.everywhere_list_iff.mp hv x (List.mem_of_getElem? hitem))
      | dict es =>
          cases step with
          | index n => simp [sanitizeConfig, shown]
          | key name =>
              obtain ⟨hkeys, hvalues⟩ := PyValue.everywhere_dict_iff.mp hv
              rw [sanitizeConfig, shown, PyValue.shapeAt_key, PyValue.shapeAt_key,
                lookup_sanitizeEntries lower hkeys, credentialPath_key]
              cases isSecretKey lower name with
              | true => rfl
              | false =>
                  cases hfound : es.lookup name with
                  | none => simp
                  | some value =>
                      exact ih (hvalues _ ((Entries.lookup_eq_some_iff hkeys).mp hfound))

theorem increasing_sanitizeConfig {v : PyValue} (hv : v.Distinct) :
    (sanitizeConfig lower v).Increasing := by
  induction v with
  | scalar v => trivial
  | list xs ih =>
      rw [sanitizeConfig, sanitizeItems_eq]
      refine PyValue.everywhere_list_iff.mpr fun x hx => ?_
      obtain ⟨y, hy, rfl⟩ := List.mem_map.mp hx
      exact ih y hy (PyValue.everywhere_list_iff.mp hv y hy)
  | dict es ih =>
      obtain ⟨hkeys, hvalues⟩ := PyValue.everywhere_dict_iff.mp hv
      rw [sanitizeConfig]
      refine PyValue.everywhere_dict_iff.mpr ⟨?_, fun e he => ?_⟩
      · exact Entries.byKey_increasing (hkeys.sublist (map_fst_sanitizeEntries lower es))
      · rw [Entries.byKey, List.mem_insertionSort, sanitizeEntries_eq] at he
        obtain ⟨d, hd, rfl⟩ := List.mem_map.mp he
        have hmem := (List.mem_filter.mp hd).1
        exact ih d hmem (hvalues d hmem)

/-- The sanitized settings agree exactly where no setting but a credential differs. -/
theorem sanitizeConfig_eq_iff (s t : Settings) :
    sanitizeConfig lower s.value = sanitizeConfig lower t.value ↔ SameSettings lower s t := by
  rw [sameSettings_iff]
  constructor
  · intro h path hpath
    have hshape := congrArg (PyValue.shapeAt path) h
    rw [shapeAt_sanitizeConfig lower s.distinct_value,
      shapeAt_sanitizeConfig lower t.distinct_value] at hshape
    simpa [hpath] using hshape
  · intro h
    refine PyValue.eq_of_same (increasing_sanitizeConfig lower s.distinct_value)
      (increasing_sanitizeConfig lower t.distinct_value) fun path => ?_
    rw [shapeAt_sanitizeConfig lower s.distinct_value,
      shapeAt_sanitizeConfig lower t.distinct_value]
    cases hpath : credentialPath lower path with
    | true => rfl
    | false => exact h path hpath

variable {sha : Hash}

theorem digest_inj {a b : String} (h : sha.digest a.toByteArray = sha.digest b.toByteArray) :
    a = b :=
  String.toByteArray_inj.mp (sha.injective h)

theorem increasing_sanitizedSettings (pipeline providers : Settings) :
    (sanitizedSettings lower pipeline providers).Increasing := by
  have hkeys : ["pipeline", "providers"].Pairwise (· < ·) := by decide
  exact ⟨hkeys, increasing_sanitizeConfig lower pipeline.distinct_value,
    increasing_sanitizeConfig lower providers.distinct_value, trivial⟩

theorem computeConfigHash_eq_iff {pipeline providers pipeline' providers' : Settings} :
    computeConfigHash lower sha pipeline providers =
        computeConfigHash lower sha pipeline' providers' ↔
      SameSettings lower pipeline pipeline' ∧ SameSettings lower providers providers' := by
  rw [← sanitizeConfig_eq_iff, ← sanitizeConfig_eq_iff]
  constructor
  · intro h
    have hvalue := (PyValue.dumps_eq_iff_eq (increasing_sanitizedSettings lower _ _)
      (increasing_sanitizedSettings lower _ _)).mp (digest_inj h)
    simpa [sanitizedSettings] using hvalue
  · rintro ⟨hpipeline, hproviders⟩
    rw [computeConfigHash, computeConfigHash, sanitizedSettings, sanitizedSettings, hpipeline,
      hproviders]

end

theorem text_injective : Function.Injective text := fun a b h => by
  cases h
  rfl

theorem flag_injective : Function.Injective flag := fun a b h => by
  cases h
  rfl

theorem texts_injective : Function.Injective texts := fun _ _ h =>
  List.map_injective_iff.mpr text_injective (PyValue.list.inj h)

theorem increasing_texts (xs : List String) : (texts xs).Increasing := by
  refine PyValue.everywhere_list_iff.mpr fun x hx => ?_
  obtain ⟨s, -, rfl⟩ := List.mem_map.mp hx
  trivial

namespace ContractData

theorem increasing_canonical (data : ContractData) : data.canonical.Increasing := by
  have hkeys : ["config_hash", "graph_version", "model_ids", "prompt_hashes", "prompt_versions",
      "provider_aliases", "schema_version", "stage_agent_enabled", "stage_executors",
      "stage_schema_versions", "stage_tools"].Pairwise (· < ·) := by decide
  have htext : ∀ d : PyDict String, (PyValue.ofDict text d).Increasing :=
    PyValue.increasing_ofDict fun _ => trivial
  have hflag : ∀ d : PyDict Bool, (PyValue.ofDict flag d).Increasing :=
    PyValue.increasing_ofDict fun _ => trivial
  exact ⟨hkeys, trivial, trivial, htext _, htext _, htext _, htext _, trivial, hflag _, htext _,
    htext _, PyValue.increasing_ofDict increasing_texts _, trivial⟩

/-- The data name the same under every key. -/
structure Same (a b : ContractData) : Prop where
  configHash : a.configHash = b.configHash
  graphVersion : a.graphVersion = b.graphVersion
  schemaVersion : a.schemaVersion = b.schemaVersion
  providerAliases : ∀ k, a.providerAliases.get? k = b.providerAliases.get? k
  modelIds : ∀ k, a.modelIds.get? k = b.modelIds.get? k
  promptVersions : ∀ k, a.promptVersions.get? k = b.promptVersions.get? k
  promptHashes : ∀ k, a.promptHashes.get? k = b.promptHashes.get? k
  stageExecutors : ∀ k, a.stageExecutors.get? k = b.stageExecutors.get? k
  stageTools : ∀ k, a.stageTools.get? k = b.stageTools.get? k
  stageSchemaVersions : ∀ k, a.stageSchemaVersions.get? k = b.stageSchemaVersions.get? k
  stageAgentEnabled : ∀ k, a.stageAgentEnabled.get? k = b.stageAgentEnabled.get? k

theorem canonical_eq_iff {a b : ContractData} : a.canonical = b.canonical ↔ Same a b := by
  simp only [canonical, PyValue.dict.injEq, List.cons.injEq, Prod.mk.injEq, true_and, and_true,
    text_injective.eq_iff, PyValue.ofDict_eq_iff text_injective,
    PyValue.ofDict_eq_iff flag_injective, PyValue.ofDict_eq_iff texts_injective]
  constructor
  · rintro ⟨hhash, hgraph, hmodels, hhashes, hversions, haliases, hschema, henabled, hexecutors,
      hschemas, htools⟩
    exact ⟨hhash, hgraph, hschema, haliases, hmodels, hversions, hhashes, hexecutors, htools,
      hschemas, henabled⟩
  · intro h
    exact ⟨h.configHash, h.graphVersion, h.modelIds, h.promptHashes, h.promptVersions,
      h.providerAliases, h.schemaVersion, h.stageAgentEnabled, h.stageExecutors,
      h.stageSchemaVersions, h.stageTools⟩

theorem computeFingerprint_eq_iff {sha : Hash} {a b : ContractData} :
    a.computeFingerprint sha = b.computeFingerprint sha ↔ Same a b := by
  rw [← canonical_eq_iff]
  constructor
  · intro h
    exact (PyValue.dumps_eq_iff_eq a.increasing_canonical b.increasing_canonical).mp (digest_inj h)
  · intro h
    rw [computeFingerprint, computeFingerprint, h]

end ContractData

/-- A scalar without a password, under a key that does not read like a credential. -/
def PlainEntry (lower : String → String) (e : String × PyValue) : Prop :=
  isSecretKey lower e.1 = false ∧ ∃ v, e.2 = .scalar v ∧ maskScalar v = v

/-- Every adapter is named, and is no credential. -/
def PlainAdapters (lower : String → String) (providers : Settings) : Prop :=
  ∀ e ∈ rawAdapters providers, PlainEntry lower e

section
variable {lower : String → String}

theorem rawAdapters_distinct (providers : Settings) :
    ((rawAdapters providers).map Prod.fst).Nodup := by
  have hentries := PyValue.everywhere_dict_iff.mp providers.distinct
  rw [rawAdapters]
  cases hadapters : providers.get? "adapters" with
  | none => exact hentries.1
  | some v =>
      cases v with
      | dict es =>
          have hmem := (Entries.lookup_eq_some_iff hentries.1).mp hadapters
          exact (PyValue.everywhere_dict_iff.mp (hentries.2 _ hmem)).1
      | scalar v => exact List.nodup_nil
      | list xs => exact List.nodup_nil

theorem get?_providerAliases (repr : PyValue → String) (providers : Settings) (k : String) :
    (providerAliases repr providers).get? k =
      ((rawAdapters providers).lookup k).bind (aliasText repr) := by
  have hdistinct := rawAdapters_distinct providers
  rw [providerAliases, PyDict.get?_ofItems (hdistinct.sublist (Entries.map_fst_choose_sublist _ _)),
    Entries.lookup_choose _ hdistinct]

theorem shown_key (es : List (String × PyValue)) (k : String) (path : List PyStep) :
    shown (.dict es) (.key k :: path) = (es.lookup k).bind fun v => shown v path := by
  rw [shown, PyValue.shapeAt_key, Option.map_bind]
  rfl

theorem shown_entriesOf (v : PyValue) (k : String) :
    ((entriesOf v).lookup k).bind (shown · []) = shown v [.key k] := by
  cases v with
  | dict es => exact (shown_key es k []).symm
  | scalar v => rfl
  | list xs => rfl

/-- Plain entries that are shown alike are the same. -/
theorem lookup_eq_of_plain {es fs : List (String × PyValue)} (hes : (es.map Prod.fst).Nodup)
    (hfs : (fs.map Prod.fst).Nodup) (hplain : ∀ e ∈ es, PlainEntry lower e)
    (hplain' : ∀ e ∈ fs, PlainEntry lower e)
    (hshown : ∀ k, isSecretKey lower k = false →
      (es.lookup k).bind (shown · []) = (fs.lookup k).bind (shown · []))
    (k : String) : es.lookup k = fs.lookup k := by
  have hfound : ∀ v, es.lookup k = some v → PlainEntry lower (k, v) := fun v hv =>
    hplain _ ((Entries.lookup_eq_some_iff hes).mp hv)
  have hfound' : ∀ v, fs.lookup k = some v → PlainEntry lower (k, v) := fun v hv =>
    hplain' _ ((Entries.lookup_eq_some_iff hfs).mp hv)
  cases hv : es.lookup k with
  | none =>
      cases hw : fs.lookup k with
      | none => rfl
      | some w => simpa [hv, hw, shown] using hshown k (hfound' w hw).1
  | some v =>
      obtain ⟨hsecret, x, rfl, hx⟩ := hfound v hv
      cases hw : fs.lookup k with
      | none => simpa [hv, hw, shown] using hshown k hsecret
      | some w =>
          obtain ⟨-, y, rfl, hy⟩ := hfound' w hw
          have hxy : maskScalar x = maskScalar y := by
            simpa [hv, hw, shown, PyValue.shape, maskShape] using hshown k hsecret
          rw [← hx, hxy, hy]

theorem adapters_not_secret (h : lower "adapters" = "adapters") :
    isSecretKey lower "adapters" = false := by
  rw [isSecretKey, h]
  decide +kernel

/-- Plain adapters are the same where the settings are. -/
theorem rawAdapters_eq (hadapters : isSecretKey lower "adapters" = false) {p q : Settings}
    (hsame : SameSettings lower p q) (hp : PlainAdapters lower p) (hq : PlainAdapters lower q)
    (k : String) : (rawAdapters p).lookup k = (rawAdapters q).lookup k := by
  rw [sameSettings_iff] at hsame
  have hpath : ∀ {path}, credentialPath lower path = false →
      credentialPath lower (.key "adapters" :: path) = false := fun h => by
    simpa [hadapters] using h
  have hshown : ∀ path, credentialPath lower path = false →
      (p.get? "adapters").bind (shown · path) = (q.get? "adapters").bind (shown · path) :=
    fun path h => by
      simpa only [Settings.value, Settings.get?, shown_key] using hsame _ (hpath h)
  refine lookup_eq_of_plain (rawAdapters_distinct p) (rawAdapters_distinct q) hp hq
    (fun k hk => ?_) k
  have hkey : credentialPath lower [.key k] = false := by simpa using hk
  have htop := hshown [] rfl
  cases hv : p.get? "adapters" with
  | none =>
      cases hw : q.get? "adapters" with
      | some w => simp [hv, hw, shown] at htop
      | none =>
          rw [rawAdapters, rawAdapters, hv, hw, Option.getD_none, Option.getD_none,
            shown_entriesOf, shown_entriesOf]
          exact hsame _ hkey
  | some v =>
      cases hw : q.get? "adapters" with
      | none => simp [hv, hw, shown] at htop
      | some w =>
          rw [rawAdapters, rawAdapters, hv, hw, Option.getD_some, Option.getD_some,
            shown_entriesOf, shown_entriesOf]
          simpa only [hv, hw, Option.bind_some] using hshown _ hkey

end

section
variable {lower : String → String} {repr : PyValue → String} {sha : Hash}

/-- What a contract holds of its configuration, apart from the models and the stages. -/
structure Built (lower : String → String) (repr : PyValue → String) (sha : Hash)
    (c : Configuration) (contract : RuntimeContract) : Prop where
  fingerprint : contract.fingerprint = contract.toContractData.computeFingerprint sha
  configHash : contract.configHash = computeConfigHash lower sha c.pipeline c.providers
  graphVersion : contract.graphVersion = Contract.graphVersion
  schemaVersion : contract.schemaVersion = Contract.schemaVersion
  providerAliases : contract.providerAliases = Contract.providerAliases repr c.providers

theorem built_of_ok {c : Configuration} {contract : RuntimeContract}
    (h : buildRuntimeContract lower repr sha c = .ok contract) :
    Built lower repr sha c contract := by
  simp only [buildRuntimeContract] at h
  cases hids : modelIds repr c.env c.pipeline (Contract.providerAliases repr c.providers)
      (c.agentCatalog.getD defaultAgentCatalog) with
  | error e => rw [hids] at h; cases h
  | ok ids =>
      rw [hids] at h
      cases h
      exact ⟨rfl, rfl, rfl, rfl, rfl⟩

theorem validate_asDict_iff {started current : RuntimeContract} (h : started.fingerprint ≠ "")
    (isPaid : Bool) :
    validateRuntimeContract current (some started.asDict) isPaid = .ok () ↔
      started.fingerprint = current.fingerprint := by
  have hstored : started.asDict.lookup "fingerprint" = some (text started.fingerprint) := rfl
  have htruthy : (text started.fingerprint).truthy = true := by simpa [text, PyValue.truthy] using h
  rw [validateRuntimeContract, Option.getD_some, hstored, Option.filter_some_pos htruthy]
  by_cases heq : started.fingerprint = current.fingerprint <;> simp [text, heq]

/-- Nothing of what a run was started with has changed but credentials: no setting, no
model in force and nothing of the stages. -/
structure Unchanged (lower : String → String) (start now : Configuration)
    (started current : RuntimeContract) : Prop where
  pipeline : SameSettings lower start.pipeline now.pipeline
  providers : SameSettings lower start.providers now.providers
  modelIds : ∀ k, started.modelIds.get? k = current.modelIds.get? k
  promptVersions : ∀ k, started.promptVersions.get? k = current.promptVersions.get? k
  promptHashes : ∀ k, started.promptHashes.get? k = current.promptHashes.get? k
  stageExecutors : ∀ k, started.stageExecutors.get? k = current.stageExecutors.get? k
  stageTools : ∀ k, started.stageTools.get? k = current.stageTools.get? k
  stageSchemaVersions : ∀ k,
    started.stageSchemaVersions.get? k = current.stageSchemaVersions.get? k
  stageAgentEnabled : ∀ k, started.stageAgentEnabled.get? k = current.stageAgentEnabled.get? k

theorem Built.fingerprint_eq_iff {start now : Configuration} {started current : RuntimeContract}
    (hstart : Built lower repr sha start started) (hnow : Built lower repr sha now current) :
    started.fingerprint = current.fingerprint ↔
      Unchanged lower start now started current ∧
        ∀ k, started.providerAliases.get? k = current.providerAliases.get? k := by
  have hhash : started.configHash = current.configHash ↔
      SameSettings lower start.pipeline now.pipeline ∧
        SameSettings lower start.providers now.providers := by
    rw [hstart.configHash, hnow.configHash, computeConfigHash_eq_iff]
  rw [hstart.fingerprint, hnow.fingerprint, ContractData.computeFingerprint_eq_iff]
  constructor
  · intro h
    obtain ⟨hpipeline, hproviders⟩ := hhash.mp h.configHash
    exact ⟨⟨hpipeline, hproviders, h.modelIds, h.promptVersions, h.promptHashes, h.stageExecutors,
      h.stageTools, h.stageSchemaVersions, h.stageAgentEnabled⟩, h.providerAliases⟩
  · rintro ⟨h, haliases⟩
    exact
      { configHash := hhash.mpr ⟨h.pipeline, h.providers⟩
        graphVersion := hstart.graphVersion.trans hnow.graphVersion.symm
        schemaVersion := hstart.schemaVersion.trans hnow.schemaVersion.symm
        providerAliases := haliases
        modelIds := h.modelIds
        promptVersions := h.promptVersions
        promptHashes := h.promptHashes
        stageExecutors := h.stageExecutors
        stageTools := h.stageTools
        stageSchemaVersions := h.stageSchemaVersions
        stageAgentEnabled := h.stageAgentEnabled }

/-- Equal fingerprints mean equal settings, credentials apart; and with plain adapters a
run that stored its contract goes on exactly if nothing else of it has changed. -/
theorem resume_follows_settings
    (hlower : ∀ s, s.toList.all (·.toNat < 128) = true → lower s = PyStr.lower s)
    (hsha : ∀ bytes, sha.digest bytes ≠ "") {start now : Configuration}
    {started current : RuntimeContract}
    (hstart : buildRuntimeContract lower repr sha start = .ok started)
    (hnow : buildRuntimeContract lower repr sha now = .ok current) (isPaid : Bool) :
    (started.fingerprint = current.fingerprint →
      (SameSettings lower start.pipeline now.pipeline ∧
        SameSettings lower start.providers now.providers) ∧
      SameUnmatched lower start.pipeline now.pipeline ∧
        SameUnmatched lower start.providers now.providers) ∧
    (PlainAdapters lower start.providers → PlainAdapters lower now.providers →
      (validateRuntimeContract current (some started.asDict) isPaid = .ok () ↔
        Unchanged lower start now started current)) := by
  have hbuilt := built_of_ok hstart
  have hbuilt' := built_of_ok hnow
  have hadapters : isSecretKey lower "adapters" = false :=
    adapters_not_secret ((hlower "adapters" (by decide)).trans (by decide +kernel))
  have hstored : started.fingerprint ≠ "" := by
    rw [hbuilt.fingerprint]
    exact hsha _
  constructor
  · intro h
    obtain ⟨hunchanged, -⟩ := (hbuilt.fingerprint_eq_iff hbuilt').mp h
    exact ⟨⟨hunchanged.pipeline, hunchanged.providers⟩, hunchanged.pipeline.unmatched,
      hunchanged.providers.unmatched⟩
  · intro hplain hplain'
    rw [validate_asDict_iff hstored, hbuilt.fingerprint_eq_iff hbuilt', and_iff_left_iff_imp]
    intro hunchanged k
    rw [hbuilt.providerAliases, hbuilt'.providerAliases, get?_providerAliases,
      get?_providerAliases, rawAdapters_eq hadapters hunchanged.providers hplain hplain']

end

/-- A hash whose texts are never empty. -/
def markedHash : Hash where
  digest bytes := "0" ++ spelledHash.digest bytes
  injective := fun a b h => by
    have htext : "0".toList ++ (spelledHash.digest a).toList =
        "0".toList ++ (spelledHash.digest b).toList := by
      rw [← String.toList_append, ← String.toList_append]
      exact congrArg String.toList h
    exact spelledHash.injective (String.toList_inj.mp (List.append_cancel_left htext))
  noColon := fun bytes h => by
    rcases List.mem_append.mp (String.toList_append ▸ h) with h | h
    · exact absurd h (by decide)
    · exact spelledHash.noColon bytes h

def gatewayPipeline (apiKey : String) : Settings where
  entries := [("api_key", text apiKey),
    ("tiers", .list [.dict [("name", text "ltx"), ("model", text "lightricks/ltx-2.3-fast")]])]
  distinct :=
    ⟨show ["api_key", "tiers"].Nodup by decide, trivial,
      ⟨⟨show ["name", "model"].Nodup by decide, trivial, trivial, trivial⟩, trivial⟩, trivial⟩

def gatewayProviders : Settings where
  entries := [("adapters", .dict [("llm", text "vercel_gateway_llm")])]
  distinct :=
    ⟨show ["adapters"].Nodup by decide, ⟨show ["llm"].Nodup by decide, trivial, trivial⟩, trivial⟩

/-- A run whose language model is asked for through the gateway. -/
def gatewayRun (apiKey : String) (llmModel : Option String) : Configuration where
  pipeline := gatewayPipeline apiKey
  providers := gatewayProviders
  agentCatalog := none
  env := ⟨llmModel, none⟩

def buildGatewayRun (apiKey : String) (llmModel : Option String) :
    Except ContractError RuntimeContract :=
  buildRuntimeContract PyStr.lower (fun _ => "") markedHash (gatewayRun apiKey llmModel)

theorem markedHash_ne_empty (bytes : ByteArray) : markedHash.digest bytes ≠ "" := by
  intro h
  have htext := congrArg String.toList h
  rw [markedHash, String.toList_append] at htext
  cases htext

theorem gatewayProviders_plain : PlainAdapters PyStr.lower gatewayProviders := by
  intro e he
  obtain rfl := List.mem_singleton.mp he
  have hname : maskText "vercel_gateway_llm" = "vercel_gateway_llm" := by decide +kernel
  exact ⟨by decide +kernel, .str "vercel_gateway_llm", rfl, congrArg PyScalar.str hname⟩

theorem gatewayPipeline_same (a b : String) :
    SameSettings PyStr.lower (gatewayPipeline a) (gatewayPipeline b) := by
  rw [sameSettings_iff]
  intro path hpath
  cases path with
  | nil => rfl
  | cons step path =>
      cases step with
      | index n => rfl
      | key name =>
          rw [Settings.value, Settings.value, shown_key, shown_key]
          by_cases hname : name = "api_key"
          · subst hname
            have hsecret : isSecretKey PyStr.lower "api_key" = true := by decide +kernel
            rw [credentialPath_key, hsecret] at hpath
            cases hpath
          · have hbeq : (name == "api_key") = false := beq_eq_false_iff_ne.mpr hname
            simp only [gatewayPipeline, List.lookup_cons, hbeq]

/-- Another key for the same gateway: the run goes on. -/
theorem resume_follows_settings_new_key : ∃ started current,
    buildGatewayRun "sk-old" none = .ok started ∧ buildGatewayRun "sk-new" none = .ok current ∧
      validateRuntimeContract current (some started.asDict) true = .ok () := by
  have hstart : buildRuntimeContract PyStr.lower (fun _ => "") markedHash
    (gatewayRun "sk-old" none) = .ok _ := rfl
  have hnow : buildRuntimeContract PyStr.lower (fun _ => "") markedHash
    (gatewayRun "sk-new" none) = .ok _ := rfl
  refine ⟨_, _, hstart, hnow, ?_⟩
  refine ((resume_follows_settings (fun _ _ => rfl) markedHash_ne_empty hstart hnow true).2
    gatewayProviders_plain gatewayProviders_plain).mpr ?_
  exact
    { pipeline := gatewayPipeline_same _ _
      providers := sameSettings_iff.mpr fun _ _ => rfl
      modelIds := fun _ => rfl
      promptVersions := fun _ => rfl
      promptHashes := fun _ => rfl
      stageExecutors := fun _ => rfl
      stageTools := fun _ => rfl
      stageSchemaVersions := fun _ => rfl
      stageAgentEnabled := fun _ => rfl }

/-- A run that reads its media from an origin. -/
def originPipeline (origin : String) : Settings where
  entries := [("media_origin", text origin)]
  distinct := ⟨show ["media_origin"].Nodup by decide, trivial, trivial⟩

def originRun (origin : String) : Configuration where
  pipeline := originPipeline origin
  providers := gatewayProviders
  agentCatalog := none
  env := ⟨none, none⟩

def buildOriginRun (origin : String) : Except ContractError RuntimeContract :=
  buildRuntimeContract PyStr.lower (fun _ => "") markedHash (originRun origin)

theorem originPipeline_same {a b : String} (h : SameButPasswords a.toList b.toList) :
    SameSettings PyStr.lower (originPipeline a) (originPipeline b) := by
  have hmask : maskText a = maskText b := (maskText_eq_iff a b).mpr h
  refine (sanitizeConfig_eq_iff PyStr.lower _ _).mp ?_
  have hsanitized (origin : String) : sanitizeConfig PyStr.lower (originPipeline origin).value =
      .dict [("media_origin", text (maskText origin))] := rfl
  rw [hsanitized, hsanitized, hmask]

/-- The model in the environment blocks a run of which no setting has changed; and a port
that stands before an `@` is erased with the passwords. -/
theorem fingerprint_not_settings :
    (∃ started current, buildGatewayRun "sk" none = .ok started ∧
      buildGatewayRun "sk" (some "openai/gpt-4o") = .ok current ∧
      (gatewayRun "sk" none).pipeline = (gatewayRun "sk" (some "openai/gpt-4o")).pipeline ∧
      (gatewayRun "sk" none).providers = (gatewayRun "sk" (some "openai/gpt-4o")).providers ∧
      ∀ isPaid, validateRuntimeContract current (some started.asDict) isPaid ≠ .ok ()) ∧
    ∃ started current, buildOriginRun "http://cdn.example:8080/@a" = .ok started ∧
      buildOriginRun "http://cdn.example:9090/@a" = .ok current ∧
      started.fingerprint = current.fingerprint ∧
      credentialPath PyStr.lower [.key "media_origin"] = false ∧
      (originPipeline "http://cdn.example:8080/@a").value.shapeAt [.key "media_origin"] ≠
        (originPipeline "http://cdn.example:9090/@a").value.shapeAt [.key "media_origin"] := by
  constructor
  · refine ⟨_, _, rfl, rfl, rfl, rfl, fun isPaid h => ?_⟩
    have hstart : Built PyStr.lower (fun _ => "") markedHash (gatewayRun "sk" none) _ :=
      built_of_ok rfl
    have hnow : Built PyStr.lower (fun _ => "") markedHash
        (gatewayRun "sk" (some "openai/gpt-4o")) _ := built_of_ok rfl
    have hsame := (validate_asDict_iff (markedHash_ne_empty _) isPaid).mp h
    have hmodels := ((hstart.fingerprint_eq_iff hnow).mp hsame).1.modelIds "llm"
    exact absurd hmodels (by decide +kernel)
  · have hport : maskText "http://cdn.example:8080/@a" = maskText "http://cdn.example:9090/@a" := by
      decide +kernel
    have hstart : Built PyStr.lower (fun _ => "") markedHash
        (originRun "http://cdn.example:8080/@a") _ := built_of_ok rfl
    have hnow : Built PyStr.lower (fun _ => "") markedHash
        (originRun "http://cdn.example:9090/@a") _ := built_of_ok rfl
    refine ⟨_, _, rfl, rfl, (hstart.fingerprint_eq_iff hnow).mpr ⟨?_, fun _ => rfl⟩,
      by decide +kernel, ?_⟩
    · exact
        { pipeline := originPipeline_same ((maskText_eq_iff _ _).mp hport)
          providers := sameSettings_iff.mpr fun _ _ => rfl
          modelIds := fun _ => rfl
          promptVersions := fun _ => rfl
          promptHashes := fun _ => rfl
          stageExecutors := fun _ => rfl
          stageTools := fun _ => rfl
          stageSchemaVersions := fun _ => rfl
          stageAgentEnabled := fun _ => rfl }
    · simp [originPipeline, Settings.value, text, PyValue.shape]

end Contract
end Orchestrator
