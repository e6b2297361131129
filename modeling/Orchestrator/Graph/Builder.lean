import Mathlib.Logic.Function.Basic
import Orchestrator.Lib.GraphWalk
import Orchestrator.Nodes.ItemStages

/-!
The item subgraph as it is wired: the nodes, the routing functions and the maps
from what they return to the node that follows.

Only one node runs at a time, so a run of the subgraph is a walk. The names of
the tiers are free; a graph carries the proof that its registered nodes agree
with the declared topology.
-/

namespace Orchestrator

inductive ItemNode where
  | voiceover
  | tier (name : String)
  | productDemo
  | qc
  | assembly
  | upscale
  | drop
  deriving DecidableEq, Repr

inductive GraphLevel where
  | batch | item | legacy
  deriving DecidableEq, Repr

/-- `NODE_SPECS`: the names and the graph each belongs to. -/
def nodeSpecs : List (String × GraphLevel) :=
  [("concepts", .batch), ("scripts", .batch), ("creator_profiles", .batch), ("roster", .batch),
    ("voice_candidates", .batch), ("review", .batch), ("finalize_voices", .batch),
    ("process_item", .batch), ("feedback", .batch), ("voiceover", .item), ("ltx", .item),
    ("kling", .item), ("seedance", .item), ("product_demo", .item), ("qc", .item),
    ("assembly", .item), ("upscale", .item), ("drop", .item), ("script", .legacy)]

def defaultTiers : List String := ["ltx", "kling", "seedance"]

inductive TopologyError where
  | duplicateTiers
  | tierConflicts (names : List String)
  /-- Names without a spec, and declared names that are not registered. -/
  | diverges (unknown missingBatch missingItem : List String)
  deriving DecidableEq, Repr

def fixedSpecs : List (String × GraphLevel) := nodeSpecs.filter (fun p => p.1 ∉ defaultTiers)

def topologyForTiers (tiers : List String) : Except TopologyError (List (String × GraphLevel)) :=
  let conflicts := (fixedSpecs.map Prod.fst).filter (· ∈ tiers)
  if ¬ tiers.Nodup then .error .duplicateTiers
  else if conflicts ≠ [] then .error (.tierConflicts conflicts)
  else .ok (fixedSpecs ++ tiers.map fun tier => (tier, .item))

/-- The names declared for a graph that are not registered in it. -/
def missingNodes (specs : List (String × GraphLevel)) (level : GraphLevel)
    (registered : Option (List String)) : List String :=
  match registered with
  | none => []
  | some names => ((specs.filter (·.2 = level)).map Prod.fst).filter (· ∉ names)

def validateRegistrations (specs : List (String × GraphLevel))
    (batchNodes itemNodes : Option (List String)) : Except TopologyError Unit :=
  let unknown := (batchNodes.getD [] ++ itemNodes.getD []).filter (· ∉ specs.map Prod.fst)
  let missingBatch := missingNodes specs .batch batchNodes
  let missingItem := missingNodes specs .item itemNodes
  if unknown ++ missingBatch ++ missingItem = [] then .ok ()
  else .error (.diverges unknown missingBatch missingItem)

/-- The check `build_item_graph` ends with. -/
def validateItemNodes (tiers : List String) : Except TopologyError Unit := do
  let registered := ["voiceover"] ++ tiers ++ ["product_demo", "qc", "assembly", "upscale", "drop"]
  let specs ← topologyForTiers (if tiers = [] then defaultTiers else tiers)
  validateRegistrations specs none
    (some (registered.filter fun name => ¬ "__".toList.isPrefixOf name.toList))

structure ItemGraph where
  cfg : ItemConfig
  valid : validateItemNodes cfg.tiers = .ok ()

def buildItemGraph (cfg : ItemConfig) : Except TopologyError ItemGraph :=
  match h : validateItemNodes cfg.tiers with
  | .ok () => .ok ⟨cfg, h⟩
  | .error error => .error error

/-- Every attempt stays with the first tier. -/
def selectTier (_attempts : Int) : List String → Except StageExc String
  | [] => .error (.other "select_tier chamado sem tiers configurados")
  | tier :: _ => .ok tier

def routeAfterScript (item : Item) (tierNames : List String) : Except StageExc String :=
  selectTier item.attempts tierNames

def routeAfterQc (item : Item) (maxAttempts : Int) (tierNames : List String) :
    Except StageExc String :=
  match item.qc with
  | none => .error (.other "route_after_qc chamado sem QCResult no item")
  | some qc =>
      if qc.passed then .ok "assembly"
      else if item.attempts < maxAttempts then selectTier item.attempts tierNames
      else .ok "drop"

/-- Only a valid persisted voiceover may proceed to video generation. No edge of
the subgraph uses this rule. -/
def routeAfterVoiceover (item : Item) : String :=
  if item.voiceover.isSome ∧ ¬ item.error.any (· ≠ "") then "continue" else "end"

def routeAfterVideoNode (item : Item) : String :=
  if item.error.any (· ≠ "") then "end" else "continue"

/-- The maps from a route to the node that follows; no node is the end. -/
abbrev RoutingMap := String → Option (Option ItemNode)

/-- The entry for the end comes last, over a tier of that name. -/
def tierRoutingMap (tiers : List String) : RoutingMap :=
  Function.update (fun route => if route ∈ tiers then some (some (.tier route)) else none)
    "end" (some none)

def videoRoutingMap (onward : ItemNode) : RoutingMap
  | "continue" => some (some onward)
  | "end" => some none
  | _ => none

/-- The nodes a quality check may go to. -/
def qcMap (tiers : List String) : RoutingMap :=
  Function.update (Function.update
    (fun route => if route ∈ tiers then some (some (.tier route)) else none)
    "assembly" (some (some .assembly))) "drop" (some (some .drop))

/-- Look a route up; an unknown one raises a `KeyError`. -/
def follow (routes : RoutingMap) (route : String) : Except StageExc (Option ItemNode) :=
  match routes route with
  | some next => .ok next
  | none => .error (.other (PyStr.repr route))

namespace ItemGraph
variable (g : ItemGraph) (u : UnicodeTables)

/-- Execute a node and take the edge that leaves it. The services may answer
differently from one execution to the next. -/
def execute (env : Nat → ItemServices) (n : Nat) (node : ItemNode) (item : Item) :
    Except StageExc (Item × Option ItemNode) :=
  match node with
  | .voiceover => do
      let item ← nodeVoiceover u g.cfg (env n) item
      let route ← routeAfterScript item g.cfg.tiers
      let next ← follow (tierRoutingMap g.cfg.tiers) route
      return (item, next)
  | .tier name => do
      let item ← nodeGen g.cfg (env n) item name
      let next ← follow (videoRoutingMap .productDemo) (routeAfterVideoNode item)
      return (item, next)
  | .productDemo => do
      let item ← nodeProductDemo g.cfg (env n) item
      let next ← follow (videoRoutingMap .qc) (routeAfterVideoNode item)
      return (item, next)
  | .qc => do
      let item ← nodeQc g.cfg (env n) item
      let route ← routeAfterQc item g.cfg.maxAttempts g.cfg.tiers
      let next ← follow (qcMap g.cfg.tiers) route
      return (item, next)
  | .assembly => do
      let item ← nodeAssembly g.cfg (env n) item
      return (item, some .upscale)
  | .upscale => do
      let item ← nodeUpscale g.cfg (env n) item
      return (item, none)
  | .drop => do
      let item ← nodeDrop (env n) item
      return (item, none)

abbrev ItemRun := GraphWalk ItemNode Item StageExc

/-- The run of the subgraph on an item, after `n` executions of nodes. -/
def run (env : Nat → ItemServices) (item : Item) (n : Nat) : ItemRun :=
  (GraphWalk.start .voiceover item).steps (g.execute u env) n

/-- A graph with the tier `ltx` alone. -/
def ltxGraph : ItemGraph := ⟨{ runId := "run", tiers := ["ltx"] }, by decide⟩

def asciiTables : UnicodeTables := ⟨PyStr.lower, Char.isAlphanum⟩

/-- Services that all work and keep media where they are. -/
def workingServices : ItemServices where
  synthesizeVoiceover _ _ _ := .ok { kind := "voiceover", uri := "voice.mp3" }
  generateClip _ := .ok { kind := "clip", uri := "clip.mp4" }
  qcCheck _ _ := .ok { passed := true, score := 1 }
  assembleVideo _ _ _ := .ok (.artifact { kind := "video", uri := "final.mp4" })
  mockAssemble _ _ _ := .ok { kind := "video", uri := "mock.mp4" }
  upscaleVideo uri := .ok uri
  putFromUrl _ _ := .ok none
  putBytes _ keyBase _ := .ok { uri := keyBase, key := keyBase, backend := "local" }
  classifyItemRetention _ := .ok ()
  addCost total _ _ := .ok total

end ItemGraph

end Orchestrator
