import Orchestrator.Lib.Fields
import Orchestrator.Lib.Outcome
import Orchestrator.Lib.PerKey
import Orchestrator.Lib.UrlParse

/-!
The item updates of the event stream.

Each end of a node brings a partial view of one item. What is known of an item
is kept in one accumulator per item, into which the views are merged; the update
that is sent is a copy of it, cut at a depth of three and at twenty entries a
list. Names that are compared in lower case hold no letter that a code point
outside ASCII lower-cases to. `checkNetloc` is what the URL parser refuses in a
network location.
-/

namespace Orchestrator
open Outcome

/-- `obj or []`, listed. -/
def listed : Json → Except String (List Json)
  | .arr items => .ok items
  | .obj fields => .ok (fields.map (.str ·.1))
  | .str s => .ok (s.toList.map (.str ·.toString))
  | .null => .ok []
  | .bool b => if b then .error "TypeError: 'bool' object is not iterable" else .ok []
  | .num q => if q ≠ 0 then .error "TypeError: number is not iterable" else .ok []

/-- `(obj or [])[-1]`, when there is something. -/
def lastOf : Json → Except String (Option Json)
  | .obj [] => .ok none
  | .obj _ => .error "KeyError: -1"
  | .bool b => if b then .error "TypeError: 'bool' object is not subscriptable" else .ok none
  | .num q => if q ≠ 0 then .error "TypeError: number is not subscriptable" else .ok none
  | obj => (listed obj).map (·.getLast?)

/-- `_safe_serialize`, with the number of levels that are still kept. -/
def safeSerialize : Nat → Json → Json
  | 0, obj => .str (PyStr.str obj)
  | n + 1, .obj fields => .obj (fields.map fun f => (f.1, safeSerialize n f.2))
  | n + 1, .arr items => .arr ((items.take 20).map (safeSerialize n))
  | _ + 1, scalar => scalar

def serializeDepth : Nat := 4

/-- An artifact as the UI gets it. -/
structure ViewArtifact where
  kind : Json
  uri : String
  mediaType : String
  renderable : Bool
  deriving DecidableEq

namespace ViewArtifact

def toJson (art : ViewArtifact) : Json :=
  .obj [("kind", art.kind), ("uri", .str art.uri), ("media_type", .str art.mediaType),
    ("renderable", .bool art.renderable)]

/-- What two artifacts are told apart by. -/
def identity (art : ViewArtifact) : String × String := (PyStr.str art.kind, art.uri)

end ViewArtifact

section Normalize
variable (checkNetloc : String → Except String Unit)

def hasPrefix (s head : String) : Bool := head.toList.isPrefixOf s.toList

def hasSuffix (s : String) (tails : List String) : Bool :=
  tails.any fun tail => tail.toList.isSuffixOf s.toList

def mediaTypeForUri (uri : String) : Except String String := do
  if hasPrefix (PyStr.lower uri) "data:image/" then return "image"
  if hasPrefix (PyStr.lower uri) "data:video/" then return "video"
  if hasPrefix (PyStr.lower uri) "data:audio/" then return "audio"
  let parsed ← UrlParse.urlparse checkNetloc uri
  let path := PyStr.lower parsed.path
  return if hasSuffix path [".png", ".jpg", ".jpeg", ".webp", ".gif", ".avif"] then "image"
    else if hasSuffix path [".mp4", ".mov", ".webm", ".m4v"] then "video"
    else if hasSuffix path [".mp3", ".wav", ".m4a", ".ogg"] then "audio"
    else "reference"

def isRenderableUri (uri : String) : Except String Bool := do
  let parsed ← UrlParse.urlparse checkNetloc uri
  let mediaType ← mediaTypeForUri checkNetloc uri
  return if parsed.scheme ∈ ["http", "https"] then mediaType ≠ "reference"
    else if hasPrefix uri "data:" then mediaType ∈ ["image", "video", "audio"]
    else if parsed.scheme = "r2" then mediaType ≠ "reference"
    else if parsed.scheme ≠ "" then false
    else if hasPrefix uri "/" || hasPrefix uri "./" || hasPrefix uri "../" then
      mediaType ≠ "reference"
    else false

def normalizeArtifact (art : Json) : Except String (Option ViewArtifact) :=
  match (art.get? "uri").filter Json.truthy with
  | none => .ok none
  | some uri => do
      let mediaType ← mediaTypeForUri checkNetloc (PyStr.str uri)
      let renderable ← isRenderableUri checkNetloc (PyStr.str uri)
      return some {
        kind := (art.get? "kind").getD (.str "artifact")
        uri := PyStr.str uri
        mediaType, renderable }

def extractArtifacts (item : Json) : Except String (List ViewArtifact) := do
  let clips ← listed ((item.get? "clips").getD .null)
  let shown ← clips.mapM (normalizeArtifact checkNetloc)
  let voiceover ← normalizeArtifact checkNetloc ((item.get? "voiceover").getD .null)
  let final ← normalizeArtifact checkNetloc ((item.get? "assembled").getD .null)
  return shown.reduceOption ++ voiceover.toList ++ final.toList

def normalizeQc (qc : Json) : Except String Json :=
  match qc with
  | .obj _ => do
      let reasons ← listed ((qc.get? "reasons").getD .null)
      return .obj [("passed", .bool ((qc.get? "passed").any Json.truthy)),
        ("score", (qc.get? "score").getD .null), ("reasons", .arr reasons)]
  | _ => .ok .null

/-- What is known of an item: its artifacts and its other fields. -/
structure ItemSnapshot where
  fields : List (String × Json) := []
  artifacts : Option (List ViewArtifact) := none

namespace ItemSnapshot
variable (snapshot : ItemSnapshot)

def field? (name : String) : Option Json := (Json.obj snapshot.fields).get? name

def listedArtifacts : List ViewArtifact := snapshot.artifacts.getD []

end ItemSnapshot

/-- The fields that a snapshot copies. -/
def snapshotKeys : List String :=
  ["id", "creator_ref", "concept", "script", "tier", "attempts", "cost_usd", "dropped", "error",
    "failure"]

def snapshotQc (item : Json) : Except String (List (String × Json)) :=
  match (item.get? "qc").getD .null with
  | .null => .ok []
  | qc => (normalizeQc qc).map fun view => [("qc", view)]

def snapshotFromItem (item : Json) : Except String ItemSnapshot :=
  match item with
  | .obj _ => do
      let copied := snapshotKeys.filterMap fun key =>
        (item.get? key).map fun value => (key, safeSerialize serializeDepth value)
      let qc ← snapshotQc item
      let artifacts ← extractArtifacts checkNetloc item
      let assembled ← normalizeArtifact checkNetloc ((item.get? "assembled").getD .null)
      return {
        fields := copied ++ qc ++ (assembled.map fun art => ("assembled", art.toJson)).toList
        artifacts := if artifacts = [] then none else some artifacts }
  | _ => .ok {}

end Normalize

local instance identityLawful : LawfulBEq (String × String) := inferInstance

/-- The loop of `_merge_artifacts`: what is merged and the identities seen so far. -/
def mergeStep (acc : List ViewArtifact × List (String × String)) (art : ViewArtifact) :
    List ViewArtifact × List (String × String) :=
  if art.uri ≠ "" ∧ art.identity ∉ acc.2 then (acc.1 ++ [art], acc.2 ++ [art.identity]) else acc

def mergeArtifacts (existing incoming : List ViewArtifact) : List ViewArtifact :=
  ((existing ++ incoming).foldl mergeStep ([], [])).1

def mergeItemSnapshot (base incoming : ItemSnapshot) : ItemSnapshot where
  fields := Json.merge base.fields incoming.fields
  artifacts := if base.artifacts.isSome || incoming.artifacts.isSome then
    some (mergeArtifacts base.listedArtifacts incoming.listedArtifacts) else none

def completeItemPayload (snapshot : ItemSnapshot) : Json :=
  .obj [("id", (snapshot.field? "id").getD .null),
    ("creator_ref", (snapshot.field? "creator_ref").getD .null),
    ("concept", ((snapshot.field? "concept").filter Json.truthy).getD (.obj [])),
    ("script", (snapshot.field? "script").getD .null),
    ("tier", (snapshot.field? "tier").getD .null),
    ("attempts", (snapshot.field? "attempts").getD (.num 0)),
    ("cost_usd", (snapshot.field? "cost_usd").getD (.num 0)),
    ("qc", (snapshot.field? "qc").getD .null),
    ("artifacts", .arr (snapshot.listedArtifacts.map (·.toJson))),
    ("assembled", (snapshot.field? "assembled").getD .null),
    ("dropped", (snapshot.field? "dropped").getD (.bool false)),
    ("error", (snapshot.field? "error").getD .null),
    ("failure", (snapshot.field? "failure").getD .null)]

/-- What the end of a node brings. -/
structure NodeEnd where
  node : String
  input : Json
  output : Json

/-- What the updates read of the topology. -/
structure UpdateTopology where
  itemUpdateNodes : List String
  nodeLabels : String → Option String

section Build
variable (checkNetloc : String → Except String Unit) (topology : UpdateTopology)

/-- A truthy `id`. -/
def idOf (candidate : Json) : Option String :=
  ((candidate.get? "id").filter Json.truthy).map PyStr.str

def itemIdFrom (event : NodeEnd) (current : ItemSnapshot) : Except String (Option String) :=
  match (idOf event.input).or ((idOf event.output).or (idOf (.obj current.fields))) with
  | some itemId => .ok (some itemId)
  | none => do
      let last ← lastOf ((event.output.get? "results").getD .null)
      return last.bind idOf

/-- The view that the end of `process_item` brings. -/
def resultView (event : NodeEnd) : Except String (Option ItemSnapshot) := do
  let last ← lastOf ((event.output.get? "results").getD .null)
  match last with
  | none => return none
  | some item => return some (← snapshotFromItem checkNetloc item)

/-- The view that the end of another node brings. -/
def stageView (event : NodeEnd) : Except String (Option ItemSnapshot) := do
  let current ← snapshotFromItem checkNetloc event.input
  let itemId ← itemIdFrom event current
  match itemId with
  | none => return none
  | some itemId =>
      let update ← snapshotFromItem checkNetloc event.output
      let incoming := mergeItemSnapshot current update
      return some { incoming with fields := Json.setField incoming.fields "id" (.str itemId) }

def isDict : Json → Bool
  | .obj _ => true
  | _ => false

/-- The item that an event is about and what it brings of it. -/
def incomingOf (event : NodeEnd) : Except String (Option (String × ItemSnapshot)) :=
  if event.node ∉ topology.itemUpdateNodes then .ok none
  else do
    let view ← if event.node = "process_item" ∧ isDict event.output then
      resultView checkNetloc event else stageView checkNetloc event
    return view.bind fun incoming =>
      (idOf (.obj incoming.fields)).map fun itemId => (itemId, incoming)

/-- The accumulators; what is not there is empty. -/
abbrev Snapshots := String → ItemSnapshot

def itemUpdate (runId : String) (event : NodeEnd) (snapshot : ItemSnapshot) : Json :=
  .obj [("type", .str "item_update"), ("run_id", .str runId), ("node", .str event.node),
    ("label", .str ((topology.nodeLabels event.node).getD event.node)),
    ("item", safeSerialize serializeDepth (completeItemPayload snapshot))]

/-- `_build_item_update`: what it returns or raises, and the accumulators after it. -/
def buildItemUpdate (runId : String) (event : NodeEnd) (snapshots : Snapshots) :
    Except String (Option Json) × Snapshots :=
  match incomingOf checkNetloc topology event with
  | .error exc => (.error exc, snapshots)
  | .ok none => (.ok none, snapshots)
  | .ok (some (itemId, incoming)) =>
      let snapshot := mergeItemSnapshot (snapshots itemId) incoming
      (.ok (some (itemUpdate topology runId event snapshot)),
        Function.update snapshots itemId snapshot)

/-- The accumulators after a run of events, from empty ones. -/
def feed (runId : String) (events : List NodeEnd) : Snapshots :=
  events.foldl (fun snapshots event =>
    (buildItemUpdate checkNetloc topology runId event snapshots).2) fun _ => {}

/-- Where an event goes in the accumulators. -/
def routed (event : NodeEnd) : Option (String × ItemSnapshot) :=
  match incomingOf checkNetloc topology event with
  | .ok (some view) => some view
  | _ => none

/-- The artifacts that a run of events brings of an item, in the order in which they come. -/
def broughtArtifacts (itemId : String) (events : List NodeEnd) : List ViewArtifact :=
  ((PerKey.additions (routed checkNetloc topology) itemId events).flatMap
    (·.listedArtifacts)).filter (·.uri ≠ "")

end Build

/-- The merged artifacts are the first of each identity, and the identities seen are theirs. -/
theorem foldl_mergeStep (arts : List ViewArtifact) :
    arts.foldl mergeStep ([], []) =
      (firstSeen ViewArtifact.identity (arts.filter (·.uri ≠ "")),
        (firstSeen ViewArtifact.identity (arts.filter (·.uri ≠ ""))).map
          ViewArtifact.identity) := by
  induction arts using List.reverseRecOn with
  | nil => rfl
  | append_singleton arts art ih =>
      rw [List.foldl_append, ih, List.foldl_cons, List.foldl_nil, mergeStep]
      simp only [mem_map_firstSeen]
      by_cases huri : art.uri = ""
      · have hkept : (arts ++ [art]).filter (·.uri ≠ "") = arts.filter (·.uri ≠ "") := by
          simp [huri]
        rw [hkept, if_neg (fun h => h.1 huri)]
      · have hkept : (arts ++ [art]).filter (·.uri ≠ "") = arts.filter (·.uri ≠ "") ++ [art] := by
          simp [huri]
        rw [hkept]
        by_cases hseen : art.identity ∈ (arts.filter (·.uri ≠ "")).map ViewArtifact.identity
        · rw [if_neg (fun h => h.2 hseen), firstSeen_concat_of_mem ViewArtifact.identity hseen]
        · rw [if_pos ⟨huri, hseen⟩, firstSeen_concat_of_not_mem ViewArtifact.identity hseen,
            List.map_append, List.map_singleton]

theorem mergeArtifacts_eq (existing incoming : List ViewArtifact) :
    mergeArtifacts existing incoming
      = firstSeen ViewArtifact.identity ((existing ++ incoming).filter (·.uri ≠ "")) := by
  rw [mergeArtifacts, foldl_mergeStep]

theorem listedArtifacts_merge (base incoming : ItemSnapshot) :
    (mergeItemSnapshot base incoming).listedArtifacts
      = mergeArtifacts base.listedArtifacts incoming.listedArtifacts := by
  rw [mergeItemSnapshot, ItemSnapshot.listedArtifacts]
  split
  · rfl
  · rename_i hnone
    rw [Bool.not_eq_true, Bool.or_eq_false_iff, Option.isSome_eq_false_iff,
      Option.isSome_eq_false_iff, Option.isNone_iff_eq_none, Option.isNone_iff_eq_none] at hnone
    rw [ItemSnapshot.listedArtifacts, ItemSnapshot.listedArtifacts, hnone.1, hnone.2]
    rfl

/-- The views of an item leave the first of each identity that they brought. -/
theorem foldl_merge_artifacts (views : List ItemSnapshot) :
    (views.foldl mergeItemSnapshot {}).listedArtifacts
      = firstSeen ViewArtifact.identity
          ((views.flatMap (·.listedArtifacts)).filter (·.uri ≠ "")) := by
  induction views using List.reverseRecOn with
  | nil => rfl
  | append_singleton views view ih =>
      -- what was gathered has uris
      have hgathered : ∀ arts : List ViewArtifact,
          (firstSeen ViewArtifact.identity (arts.filter (·.uri ≠ ""))).filter (·.uri ≠ "")
            = firstSeen ViewArtifact.identity (arts.filter (·.uri ≠ "")) := by
        intro arts
        refine List.filter_eq_self.mpr fun art hart => ?_
        exact (List.mem_filter.mp ((firstSeen_sublist _ _).subset hart)).2
      rw [List.foldl_append, List.foldl_cons, List.foldl_nil, listedArtifacts_merge, ih,
        mergeArtifacts_eq, List.filter_append, hgathered, firstSeen_firstSeen_append,
        ← List.filter_append, List.flatMap_append, List.flatMap_singleton]

section Views
variable {checkNetloc : String → Except String Unit}

/-- The view of an item holds the artifacts of its clips, its voiceover and its assembled video. -/
theorem listedArtifacts_of_item {item : Json} {view : ItemSnapshot}
    (h : snapshotFromItem checkNetloc item = .ok view) :
    (if isDict item then extractArtifacts checkNetloc item else .ok []) =
      .ok view.listedArtifacts := by
  cases item with
  | obj fields =>
      obtain ⟨qc, -, h⟩ := ok_of_bind h
      obtain ⟨artifacts, hartifacts, h⟩ := ok_of_bind h
      obtain ⟨assembled, -, h⟩ := ok_of_bind h
      cases h
      refine hartifacts.trans (congrArg Except.ok ?_)
      by_cases hnone : artifacts = []
      · simp [ItemSnapshot.listedArtifacts, hnone]
      · simp [ItemSnapshot.listedArtifacts, hnone]
  | _ => cases h; rfl

/-- A stage brings the artifacts of its input before those of its output, for the item that
either names. -/
theorem incomingOf_stage {topology : UpdateTopology} {event : NodeEnd} {itemId : String}
    {incoming : ItemSnapshot} (hstage : ¬ (event.node = "process_item" ∧ isDict event.output))
    (h : incomingOf checkNetloc topology event = .ok (some (itemId, incoming))) :
    ∃ current update, snapshotFromItem checkNetloc event.input = .ok current ∧
      snapshotFromItem checkNetloc event.output = .ok update ∧
      itemIdFrom event current = .ok (some itemId) ∧
      incoming.listedArtifacts =
        mergeArtifacts current.listedArtifacts update.listedArtifacts := by
  rw [incomingOf] at h
  split at h
  · cases h
  obtain ⟨view, hview, h⟩ := ok_of_bind h
  obtain ⟨current, hcurrent, hview⟩ := ok_of_bind hview
  obtain ⟨found, hfound, hview⟩ := ok_of_bind hview
  cases found with
  | none => cases hview; cases h
  | some named =>
      obtain ⟨update, hupdate, hview⟩ := ok_of_bind hview
      cases hview
      have hid : idOf (.obj (Json.setField (mergeItemSnapshot current update).fields "id"
          (.str named))) = ((some (Json.str named)).filter Json.truthy).map PyStr.str := by
        rw [idOf]
        exact congrArg (fun id : Option Json => (id.filter Json.truthy).map PyStr.str)
          (Json.field?_setField_self _ _ _)
      have hview := Except.ok.inj h
      rw [Option.bind_some, hid] at hview
      obtain ⟨id, hid, hview⟩ := Option.map_eq_some_iff.mp hview
      cases hview
      obtain ⟨name, hname, rfl⟩ := Option.map_eq_some_iff.mp hid
      obtain ⟨hsome, -⟩ := Option.filter_eq_some_iff.mp hname
      cases hsome
      exact ⟨current, update, hcurrent, hupdate, hfound, listedArtifacts_merge current update⟩

/-- The end of `process_item` brings the view of its last result. -/
theorem incomingOf_result {topology : UpdateTopology} {event : NodeEnd} {itemId : String}
    {incoming : ItemSnapshot} (hresult : event.node = "process_item" ∧ isDict event.output)
    (h : incomingOf checkNetloc topology event = .ok (some (itemId, incoming))) :
    ∃ item, lastOf ((event.output.get? "results").getD .null) = .ok (some item) ∧
      snapshotFromItem checkNetloc item = .ok incoming ∧
      idOf (.obj incoming.fields) = some itemId := by
  rw [incomingOf] at h
  split at h
  · cases h
  obtain ⟨view, hview, h⟩ := ok_of_bind h
  obtain ⟨last, hlast, hview⟩ := ok_of_bind hview
  cases last with
  | none => cases hview; cases h
  | some item =>
      obtain ⟨snapshot, hsnapshot, hview⟩ := ok_of_bind hview
      cases hview
      have hview := Except.ok.inj h
      obtain ⟨id, hid, hview⟩ := Option.map_eq_some_iff.mp hview
      cases hview
      exact ⟨item, hlast, hsnapshot, hid⟩

end Views

section Run
variable (checkNetloc : String → Except String Unit) (topology : UpdateTopology)

theorem buildItemUpdate_snapshots (runId : String) (event : NodeEnd) (snapshots : Snapshots) :
    (buildItemUpdate checkNetloc topology runId event snapshots).2
      = PerKey.accumulate (routed checkNetloc topology) mergeItemSnapshot snapshots event := by
  rw [buildItemUpdate, PerKey.accumulate, routed]
  cases incomingOf checkNetloc topology event with
  | error exc => rfl
  | ok view => cases view <;> rfl

theorem feed_eq (runId : String) (events : List NodeEnd) :
    feed checkNetloc topology runId events = events.foldl
      (PerKey.accumulate (routed checkNetloc topology) mergeItemSnapshot) fun _ => {} := by
  rw [feed]
  simp only [buildItemUpdate_snapshots]

/-- What an item's accumulator holds is decided by the item's own events. -/
theorem feed_own (runId : String) (events : List NodeEnd) (itemId : String) :
    feed checkNetloc topology runId (PerKey.own (routed checkNetloc topology) itemId events) itemId
      = feed checkNetloc topology runId events itemId := by
  rw [feed_eq, feed_eq, PerKey.foldl_own]

/-- The artifacts of an item are the first of each identity that its events brought. -/
theorem feed_artifacts (runId : String) (events : List NodeEnd) (itemId : String) :
    (feed checkNetloc topology runId events itemId).listedArtifacts
      = firstSeen ViewArtifact.identity
          (broughtArtifacts checkNetloc topology itemId events) := by
  rw [feed_eq, PerKey.foldl_accumulate, foldl_merge_artifacts, broughtArtifacts]

theorem broughtArtifacts_append (itemId : String) (events later : List NodeEnd) :
    broughtArtifacts checkNetloc topology itemId (events ++ later)
      = broughtArtifacts checkNetloc topology itemId events
        ++ broughtArtifacts checkNetloc topology itemId later := by
  rw [broughtArtifacts, PerKey.additions, List.filterMap_append, List.flatMap_append,
    List.filter_append]
  rfl

/-- What is reported for an event depends on the accumulator of its own item. -/
theorem buildItemUpdate_reported {event : NodeEnd} {view : String × ItemSnapshot} (runId : String)
    (hview : routed checkNetloc topology event = some view) (snapshots : Snapshots) :
    (buildItemUpdate checkNetloc topology runId event snapshots).1
      = .ok (some (itemUpdate topology runId event
          (mergeItemSnapshot (snapshots view.1) view.2))) := by
  rw [routed] at hview
  split at hview
  · rename_i hincoming
    cases hview
    rw [buildItemUpdate, hincoming]
  · cases hview

/-- An update reports the first twenty artifacts of its snapshot. -/
theorem itemUpdate_artifacts (runId : String) (event : NodeEnd) (snapshot : ItemSnapshot) :
    ((itemUpdate topology runId event snapshot).get? "item").bind (·.get? "artifacts")
      = some (.arr ((snapshot.listedArtifacts.take 20).map fun art =>
          safeSerialize 2 art.toJson)) := by
  rw [← Function.comp_def, ← List.map_map, List.map_take]
  rfl

/-- Whatever events of other items come between, what is reported for an item and its accumulator
are those of its own events. Its artifacts are never lost, are told apart by kind and uri, and
stand in the order in which they were first brought. -/
theorem item_snapshots_independent (runId : String) (events : List NodeEnd) (itemId : String) :
    let own := PerKey.own (routed checkNetloc topology) itemId events
    feed checkNetloc topology runId own itemId = feed checkNetloc topology runId events itemId ∧
    (∀ event incoming, routed checkNetloc topology event = some (itemId, incoming) →
      (buildItemUpdate checkNetloc topology runId event
          (feed checkNetloc topology runId own)).1
        = (buildItemUpdate checkNetloc topology runId event
          (feed checkNetloc topology runId events)).1) ∧
    (∀ later, (feed checkNetloc topology runId events itemId).listedArtifacts
      <+: (feed checkNetloc topology runId (events ++ later) itemId).listedArtifacts) ∧
    ((feed checkNetloc topology runId events itemId).listedArtifacts.map
      fun art => (art.kind, art.uri)).Nodup ∧
    (feed checkNetloc topology runId events itemId).listedArtifacts
      = firstSeen ViewArtifact.identity
          (broughtArtifacts checkNetloc topology itemId events) := by
  intro own
  have hsame := feed_own checkNetloc topology runId events itemId
  refine ⟨hsame, ?_, ?_, ?_, feed_artifacts checkNetloc topology runId events itemId⟩
  · intro event incoming hview
    rw [buildItemUpdate_reported checkNetloc topology runId hview,
      buildItemUpdate_reported checkNetloc topology runId hview, hsame]
  · intro later
    rw [feed_artifacts, feed_artifacts, broughtArtifacts_append]
    exact firstSeen_prefix ViewArtifact.identity _ _
  · rw [feed_artifacts]
    have hidentity := nodup_firstSeen ViewArtifact.identity
      (broughtArtifacts checkNetloc topology itemId events)
    refine List.Nodup.of_map (fun p : Json × String => (PyStr.str p.1, p.2)) ?_
    rw [List.map_map]
    exact hidentity

end Run

end Orchestrator
