import Mathlib.Data.List.Infix
import Orchestrator.Lib.PyDumps
import Orchestrator.Tools.EffectKeys

/-!
The runtime contract of a run: what of the settings, of the environment and of the
stage catalog its fingerprint covers, and what a resume asks of the contract that
was stored when the run started.

Settings are nested values as YAML holds them, under texts for keys. The hash of
the settings leaves out every entry whose key reads like a credential and masks the
passwords of URLs.
-/

namespace Orchestrator
namespace Contract

def graphVersion : String := "v2"
def schemaVersion : String := "creative-v2"
def defaultModel : String := "anthropic/claude-opus-4.8"

def secretKeySubstrings : List String :=
  ["api_key", "apikey", "secret", "token", "password", "passwd", "auth", "credential",
    "private_key"]

inductive ContractError where
  | typeError
  | mismatch (persisted : PyValue) (current : String)
  | legacyPaidResumeBlocked

/-- The pipeline or the providers, as they were read. -/
structure Settings where
  entries : List (String × PyValue)
  distinct : PyValue.Distinct (.dict entries)

namespace Settings

def value (s : Settings) : PyValue := .dict s.entries

def get? (s : Settings) (name : String) : Option PyValue := s.entries.lookup name

/-- `s[group].get(name)`, where the group is a dictionary. -/
def getIn? (s : Settings) (group name : String) : Option PyValue :=
  match s.get? group with
  | some (.dict entries) => entries.lookup name
  | _ => none

end Settings

/-- `AI_GATEWAY_LLM_MODEL` and `AI_GATEWAY_OPENAI_MODEL`. -/
structure Environment where
  llmModel : Option String
  openaiModel : Option String

structure StageExecutionSpec where
  stage : String
  executor : String
  targetModel : Option String
  promptVersion : Option String
  promptHash : Option String
  schemaVersion : Option String
  agentEnabled : Bool
  tools : List String

abbrev AgentCatalog := List StageExecutionSpec

/-- The stages that have a materializer, in the order of their names; the materializer
becomes the one tool of its stage. -/
def defaultAgentCatalog : AgentCatalog :=
  [("concepts", "generate_concepts"), ("creator_profiles", "design_creator_roster"),
    ("scripts", "write_script")].map fun (stage, materializer) =>
      { stage, executor := "tool", targetModel := none, promptVersion := none, promptHash := none,
        schemaVersion := none, agentEnabled := false, tools := [materializer] }

/-- `re.match(r"://([^:]+):([^@]+)@", text)`: the user, and what follows the match. -/
def passwordAt : List Char → Option (List Char × List Char)
  | ':' :: '/' :: '/' :: rest =>
      let user := rest.takeWhile (· ≠ ':')
      match rest.dropWhile (· ≠ ':') with
      | ':' :: login =>
          let password := login.takeWhile (· ≠ '@')
          match login.dropWhile (· ≠ '@') with
          | '@' :: after => if user ≠ [] ∧ password ≠ [] then some (user, after) else none
          | _ => none
      | _ => none
  | _ => none

/-- `re.sub(r"://([^:]+):([^@]+)@", r"://\1:***@", text)`, for a text of at most the
given length. -/
def maskPasswords : Nat → List Char → List Char
  | 0, text => text
  | _ + 1, [] => []
  | length + 1, c :: text =>
      match passwordAt (c :: text) with
      | some (user, after) =>
          "://".toList ++ user ++ ":***@".toList ++ maskPasswords length after
      | none => c :: maskPasswords length text

def maskText (text : String) : String :=
  if "://".toList <:+: text.toList ∧ '@' ∈ text.toList then
    String.ofList (maskPasswords text.length text.toList)
  else text

def maskScalar : PyScalar → PyScalar
  | .str text => .str (maskText text)
  | v => v

section
variable (lower : String → String)

def isSecretKey (name : String) : Bool :=
  secretKeySubstrings.any fun sub => decide (sub.toList <:+: (lower name).toList)

-- The entries are in the order of their keys whether they are sorted before the
-- credentials are left out or after.
mutual
def sanitizeConfig : PyValue → PyValue
  | .scalar v => .scalar (maskScalar v)
  | .list items => .list (sanitizeItems items)
  | .dict entries => .dict (Entries.byKey (sanitizeEntries entries))

def sanitizeItems : List PyValue → List PyValue
  | [] => []
  | item :: items => sanitizeConfig item :: sanitizeItems items

def sanitizeEntries : List (String × PyValue) → List (String × PyValue)
  | [] => []
  | (name, value) :: entries =>
      if isSecretKey lower name then sanitizeEntries entries
      else (name, sanitizeConfig value) :: sanitizeEntries entries
end

def sanitizedSettings (pipeline providers : Settings) : PyValue :=
  .dict [("pipeline", sanitizeConfig lower pipeline.value),
    ("providers", sanitizeConfig lower providers.value)]

def computeConfigHash (sha : Hash) (pipeline providers : Settings) : String :=
  sha.digest (PyValue.dumps (sanitizedSettings lower pipeline providers)).toByteArray

end

section
variable (repr : PyValue → String)

/-- `str(value)` of a value that counts as given. -/
def given (value : Option PyValue) : Option String :=
  (value.filter PyValue.truthy).map (PyValue.str repr)

def nonempty (text : Option String) : Option String := text.filter (· ≠ "")

def resolveEffectiveLlmModel (env : Environment) (provider : String) (pipeline : Settings)
    (targetModel : Option String) : String :=
  match nonempty targetModel with
  | some model => model
  | none =>
      let default :=
        if provider = "mock" then "mock"
        else if provider = "anthropic" then "claude-opus-4-8" else defaultModel
      let gatewayModel :=
        if provider ∈ ["vercel_gateway_llm", "anthropic_sdk_gateway", "default"] then
          env.llmModel
        else none
      ((nonempty gatewayModel).or
        ((given repr (pipeline.get? "llm_model")).or (given repr (pipeline.get? "model")))).getD
          default

def resolveEffectiveCreatorImageModel (env : Environment) (creatorAdapter : String)
    (pipeline : Settings) : String :=
  if creatorAdapter = "mock" then "mock"
  else
    let default :=
      if creatorAdapter = "creator_real" then "gpt-image-2" else "openai/gpt-image-2"
    ((nonempty env.openaiModel).or (given repr (pipeline.getIn? "image" "model"))).getD default

/-- `value.items()`, where the value is a dictionary. -/
def entriesOf : PyValue → List (String × PyValue)
  | .dict entries => entries
  | _ => []

def rawAdapters (providers : Settings) : List (String × PyValue) :=
  entriesOf ((providers.get? "adapters").getD providers.value)

def aliasText : PyValue → Option String
  | .scalar .none => none
  | v => some (v.str repr)

def providerAliases (providers : Settings) : PyDict String :=
  .ofItems (Entries.choose (aliasText repr) (rawAdapters providers))

/-- What `for tier in pipe.get("tiers") or []` goes over: a dictionary gives its keys,
a text its characters. -/
def tierItems : Option PyValue → Except ContractError (List PyValue)
  | none => .ok []
  | some (.list items) => .ok items
  | some (.dict entries) => .ok (entries.map fun e => .scalar (.str e.1))
  | some (.scalar (.str text)) => .ok (text.toList.map fun c => .scalar (.str c.toString))
  | some (.scalar v) => if (PyValue.scalar v).truthy then .error .typeError else .ok []

def addTier (ids : PyDict String) : PyValue → PyDict String
  | .dict entries =>
      match given repr (entries.lookup "name"), given repr (entries.lookup "model") with
      | some name, some model => ids.setDefault ("video_" ++ name) (some model)
      | _, _ => ids
  | _ => ids

def modelIds (env : Environment) (pipeline : Settings) (aliases : PyDict String)
    (catalog : AgentCatalog) : Except ContractError (PyDict String) := do
  let llmProvider := (aliases.get? "llm").getD "mock"
  let creatorAdapter := (aliases.get? "creator").getD "mock"
  let ids := PyDict.ofItems
    [("llm", resolveEffectiveLlmModel repr env llmProvider pipeline none),
      ("creator_image", resolveEffectiveCreatorImageModel repr env creatorAdapter pipeline)]
  let ids := ids.update (catalog.map fun spec =>
    (spec.stage, resolveEffectiveLlmModel repr env llmProvider pipeline spec.targetModel))
  let ids := ids.setDefault "voice_design" (given repr (pipeline.getIn? "voice" "design_model"))
  let ids := ids.setDefault "voiceover" (given repr (pipeline.getIn? "voice" "tts_model"))
  let ids := ids.setDefault "latentsync" (given repr (pipeline.getIn? "latentsync" "model"))
  let tiers ← tierItems (pipeline.get? "tiers")
  return tiers.foldl (addTier repr) ids

def promptVersions (pipeline : Settings) (catalog : AgentCatalog) : PyDict String :=
  (PyDict.ofItems (catalog.filterMap fun spec =>
    (nonempty spec.promptVersion).map (spec.stage, ·))).setDefault "voice"
      (given repr (pipeline.getIn? "voice" "prompt_version"))

end

def promptHashes (catalog : AgentCatalog) : PyDict String :=
  .ofItems (catalog.filterMap fun spec => (nonempty spec.promptHash).map (spec.stage, ·))

def stageExecutors (catalog : AgentCatalog) : PyDict String :=
  .ofItems (catalog.map fun spec => (spec.stage, spec.executor))

def stageTools (catalog : AgentCatalog) : PyDict (List String) :=
  .ofItems (catalog.map fun spec => (spec.stage, spec.tools))

def stageSchemaVersions (catalog : AgentCatalog) : PyDict String :=
  .ofItems (catalog.filterMap fun spec => (nonempty spec.schemaVersion).map (spec.stage, ·))

def stageAgentEnabled (catalog : AgentCatalog) : PyDict Bool :=
  .ofItems (catalog.map fun spec => (spec.stage, spec.agentEnabled))

/-- What the fingerprint is taken of. -/
structure ContractData where
  configHash : String
  graphVersion : String
  schemaVersion : String
  providerAliases : PyDict String
  modelIds : PyDict String
  promptVersions : PyDict String
  promptHashes : PyDict String
  stageExecutors : PyDict String
  stageTools : PyDict (List String)
  stageSchemaVersions : PyDict String
  stageAgentEnabled : PyDict Bool

structure RuntimeContract extends ContractData where
  fingerprint : String

def text (s : String) : PyValue := .scalar (.str s)
def flag (b : Bool) : PyValue := .scalar (.bool b)
def texts (xs : List String) : PyValue := .list (xs.map text)

namespace ContractData

/-- `canonical`, with the entries of each dictionary sorted. -/
def canonical (data : ContractData) : PyValue :=
  .dict [("config_hash", text data.configHash),
    ("graph_version", text data.graphVersion),
    ("model_ids", .ofDict text data.modelIds),
    ("prompt_hashes", .ofDict text data.promptHashes),
    ("prompt_versions", .ofDict text data.promptVersions),
    ("provider_aliases", .ofDict text data.providerAliases),
    ("schema_version", text data.schemaVersion),
    ("stage_agent_enabled", .ofDict flag data.stageAgentEnabled),
    ("stage_executors", .ofDict text data.stageExecutors),
    ("stage_schema_versions", .ofDict text data.stageSchemaVersions),
    ("stage_tools", .ofDict texts data.stageTools)]

def computeFingerprint (sha : Hash) (data : ContractData) : String :=
  sha.digest (PyValue.dumps data.canonical).toByteArray

end ContractData

/-- `dict(d)`, as a value. -/
def copied {α : Type} (f : α → PyValue) (d : PyDict α) : PyValue :=
  .dict (d.entries.map fun e => (e.1, f e.2))

namespace RuntimeContract

def asDict (c : RuntimeContract) : List (String × PyValue) :=
  [("graph_version", text c.graphVersion),
    ("schema_version", text c.schemaVersion),
    ("config_hash", text c.configHash),
    ("provider_aliases", copied text c.providerAliases),
    ("model_ids", copied text c.modelIds),
    ("prompt_versions", copied text c.promptVersions),
    ("prompt_hashes", copied text c.promptHashes),
    ("stage_executors", copied text c.stageExecutors),
    ("stage_tools", copied texts c.stageTools),
    ("stage_schema_versions", copied text c.stageSchemaVersions),
    ("stage_agent_enabled", copied flag c.stageAgentEnabled),
    ("fingerprint", text c.fingerprint)]

end RuntimeContract

/-- What a contract is built from. -/
structure Configuration where
  pipeline : Settings
  providers : Settings
  agentCatalog : Option AgentCatalog
  env : Environment

section
variable (lower : String → String) (repr : PyValue → String) (sha : Hash)

def buildRuntimeContract (c : Configuration) : Except ContractError RuntimeContract := do
  let catalog := c.agentCatalog.getD defaultAgentCatalog
  let aliases := providerAliases repr c.providers
  let ids ← modelIds repr c.env c.pipeline aliases catalog
  let data : ContractData :=
    { configHash := computeConfigHash lower sha c.pipeline c.providers
      graphVersion := graphVersion
      schemaVersion := schemaVersion
      providerAliases := aliases
      modelIds := ids
      promptVersions := promptVersions repr c.pipeline catalog
      promptHashes := promptHashes catalog
      stageExecutors := stageExecutors catalog
      stageTools := stageTools catalog
      stageSchemaVersions := stageSchemaVersions catalog
      stageAgentEnabled := stageAgentEnabled catalog }
  return { toContractData := data, fingerprint := data.computeFingerprint sha }

end

/-- The current contract is the one just built. -/
def validateRuntimeContract (current : RuntimeContract)
    (persisted : Option (List (String × PyValue))) (isPaid : Bool) : Except ContractError Unit :=
  match ((persisted.getD []).lookup "fingerprint").filter PyValue.truthy with
  | none => if isPaid then .error .legacyPaidResumeBlocked else .ok ()
  | some (.scalar (.str fingerprint)) =>
      if fingerprint = current.fingerprint then .ok ()
      else .error (.mismatch (text fingerprint) current.fingerprint)
  | some fingerprint => .error (.mismatch fingerprint current.fingerprint)

end Contract
end Orchestrator
