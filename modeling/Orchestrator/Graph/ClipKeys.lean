import Orchestrator.Graph.ItemOutcome
import Orchestrator.Lib.Delimited
import Orchestrator.Nodes.ClipStorage

/-!
The object keys of the clips of an item.

The paid calls number what they store by attempt, the nodes number what is left by
place, and both under the folder of the item. The talking head of attempt `a` takes
the place `2 * a`, so the two numbers of a clip agree for the first take alone.
-/

namespace Orchestrator
open Outcome

def ClipName.suffix : ClipName → String
  | .attempt .productDemo _ => ":demo"
  | _ => ""

def ClipPut.number (put : ClipPut) : Int :=
  match put.name with
  | .attempt _ attempt => attempt
  | .place => put.place

/-- The key of a stored clip of an item. -/
def ClipPut.key (runId itemId : String) (put : ClipPut) : String :=
  runId ++ "/items/" ++ itemId ++ put.name.suffix ++ "/" ++ put.part.text ++ toString put.number
    ++ "." ++ put.media.ext

section Puts
variable {st : DownloadStorage} {c : ClipServices} {cfg : ItemConfig} {item : Item}
  {keyBase : String}

theorem mem_tracedPut {uri : String} {put : MediaPut} (h : put ∈ (st.tracedPut uri keyBase).1) :
    put.key = keyBase ++ "." ++ put.ext := by
  rw [DownloadStorage.tracedPut] at h
  cases hfetch : st.fetchMedia uri with
  | none =>
      rw [hfetch] at h
      exact absurd h List.not_mem_nil
  | some ext =>
      rw [hfetch] at h
      dsimp only at h
      cases hput : st.putBytesWithExt (keyBase ++ "." ++ ext) with
      | error exc =>
          rw [hput] at h
          exact absurd h List.not_mem_nil
      | ok stored =>
          rw [hput] at h
          rw [List.mem_singleton.mp h]
          exact st.key_eq _ _ hput

theorem mem_tracedStore {art : Artifact} {put : MediaPut}
    (h : put ∈ (st.tracedStore keyBase art).1) : put.key = keyBase ++ "." ++ put.ext := by
  rcases Traced.mem_bind.mp h with h | ⟨stored, -, h⟩
  · exact mem_tracedPut h
  · cases stored <;> exact absurd h List.not_mem_nil

theorem mem_tracedStoreBase {clip : Artifact} {put : MediaPut}
    (h : put ∈ (st.tracedStoreBase keyBase clip).1) : put.key = keyBase ++ "." ++ put.ext := by
  rw [DownloadStorage.tracedStoreBase] at h
  split at h
  next =>
      rcases Traced.mem_bind.mp h with h | ⟨stored, -, h⟩
      · exact mem_tracedPut h
      · cases stored <;> exact absurd h List.not_mem_nil
  next => exact absurd h List.not_mem_nil

theorem clip_base_eq (n : Nat) :
    keyBase ++ "/clip-" ++ toString n =
      keyBase ++ "/" ++ ClipPart.clip.text ++ toString (n : Int) := by
  rw [show "/clip-" = "/" ++ ClipPart.clip.text by decide, ← String.append_assoc]
  rfl

theorem baseClip_base_eq (n : Nat) : keyBase ++ "/base-clip-" ++ toString n
    = keyBase ++ "/" ++ ClipPart.baseClip.text ++ toString (n : Int) := by
  rw [show "/base-clip-" = "/" ++ ClipPart.baseClip.text by decide, ← String.append_assoc]
  rfl

/-- What the nodes store is numbered by its place. -/
theorem mem_tracedPersistClips {clips : List Artifact} {n : Nat} {put : ClipPut}
    (h : put ∈ (c.tracedPersistClips keyBase clips n).1) :
    put.name = .place ∧ put.media.key
      = keyBase ++ "/" ++ put.part.text ++ toString put.number ++ "." ++ put.media.ext := by
  induction clips generalizing n with
  | nil => exact absurd h List.not_mem_nil
  | cons clip clips ih =>
      rcases Traced.mem_bind.mp h with h | ⟨stored, -, h⟩
      · obtain ⟨media, hmedia, rfl⟩ := Traced.mem_tag.mp h
        have hkey := mem_tracedStore hmedia
        rw [clip_base_eq] at hkey
        exact ⟨rfl, hkey⟩
      · rcases Traced.mem_bind.mp h with h | ⟨stored, -, h⟩
        · obtain ⟨media, hmedia, rfl⟩ := Traced.mem_tag.mp h
          have hkey := mem_tracedStoreBase hmedia
          rw [baseClip_base_eq] at hkey
          exact ⟨rfl, hkey⟩
        · rcases Traced.mem_bind.mp h with h | ⟨rest, -, h⟩
          · exact ih h
          · exact absurd h List.not_mem_nil

theorem mem_tracedPersistItemMedia {runId : String} (hid : item.id ≠ "") {put : ClipPut}
    (h : put ∈ (c.tracedPersistItemMedia runId item).1) :
    put.name = .place ∧ put.media.key = put.key runId item.id := by
  rcases Traced.mem_bind.mp h with h | ⟨clips, -, h⟩
  · obtain ⟨hname, hkey⟩ := mem_tracedPersistClips h
    refine ⟨hname, hkey.trans ?_⟩
    rw [ClipServices.mediaFolder, if_neg hid, ClipPut.key, hname]
    simp [ClipName.suffix]
  · exact absurd h List.not_mem_nil

/-- What the clip tool stores is numbered by the attempt. -/
theorem mem_persist {tool : ClipTool} {runId : String} {request : ClipRequest} {part : ClipPart}
    {art : Artifact} {p : ClipPart × MediaPut} (h : p ∈ (tool.persist runId request part art).1) :
    p.2.key = runId ++ "/items/" ++ request.itemId ++ "/" ++ p.1.text ++ toString request.attempt
      ++ "." ++ p.2.ext := by
  rw [ClipTool.persist] at h
  split at h
  next =>
      obtain ⟨media, hmedia, rfl⟩ := Traced.mem_tag.mp h
      exact mem_tracedStore hmedia
  next => exact absurd h List.not_mem_nil

theorem mem_generateClip {tool : ClipTool} {runId : String} {request : ClipRequest}
    {p : ClipPart × MediaPut} (h : p ∈ (tool.generateClip runId request).1) :
    p.2.key = runId ++ "/items/" ++ request.itemId ++ "/" ++ p.1.text ++ toString request.attempt
      ++ "." ++ p.2.ext := by
  rw [ClipTool.generateClip] at h
  split at h
  next =>
      rw [ClipTool.durableClip] at h
      split at h
      next => exact absurd h List.not_mem_nil
      next =>
          rcases Traced.mem_bind.mp h with h | ⟨art, -, h⟩
          · exact absurd h List.not_mem_nil
          · split at h
            next =>
                rcases Traced.mem_bind.mp h with h | ⟨base, -, h⟩
                · exact mem_persist h
                · rcases Traced.mem_bind.mp h with h | ⟨final, -, h⟩
                  · exact absurd h List.not_mem_nil
                  · rcases Traced.mem_bind.mp h with h | ⟨stored, -, h⟩
                    · exact mem_persist h
                    · exact absurd h List.not_mem_nil
            next => exact mem_persist h
  next => exact absurd h List.not_mem_nil

theorem mem_paidPuts {request : ClipRequest} {put : ClipPut}
    (h : put ∈ c.paidPuts cfg item request) :
    put.name = .attempt request.stage request.attempt ∧ put.place = item.clips.length ∧
      put.media.key = cfg.runId ++ "/items/" ++ request.itemId ++ "/" ++ put.part.text
        ++ toString request.attempt ++ "." ++ put.media.ext := by
  obtain ⟨p, hp, rfl⟩ := List.mem_map.mp h
  exact ⟨rfl, rfl, mem_generateClip hp⟩

/-- What a video node stores: by its attempt what the tool stored, by their places the rest. -/
theorem mem_tracedGenerateClip {request : ClipRequest} {update : Item → Item} {put : ClipPut}
    (hid : item.id ≠ "") (h : put ∈ (c.tracedGenerateClip cfg item request update).1) :
    put ∈ c.paidPuts cfg item request ∨
      (put.name = .place ∧ put.media.key = put.key cfg.runId item.id) := by
  rw [ClipServices.tracedGenerateClip] at h
  split at h
  next => exact .inl h
  next => exact .inl h
  next clip _ =>
      rcases Traced.mem_bind.mp h with h | ⟨costUsd, -, h⟩
      · exact .inl h
      · rcases Traced.mem_bind.mp h with h | ⟨persisted, -, h⟩
        · have hplace := mem_tracedPersistItemMedia (by exact hid) h
          exact .inr hplace
        · exact absurd h List.not_mem_nil

end Puts

theorem toList_toString_split {a b : Int} {ext ext' : List Char}
    (h : (toString a).toList ++ '.' :: ext = (toString b).toList ++ '.' :: ext') :
    a = b ∧ ext = ext' := by
  have hkept : ∀ n : Int, ∀ tail : List Char,
      ((toString n).toList ++ '.' :: tail).takeWhile Delimited.isIntChar = Delimited.intText n := by
    intro n tail
    have hdigits : ∀ c ∈ Delimited.intText n, Delimited.isIntChar c = true :=
      fun c hc => Delimited.intText_isIntChar hc
    change (Delimited.intText n ++ '.' :: tail).takeWhile Delimited.isIntChar = _
    rw [List.takeWhile_append_of_pos hdigits, List.takeWhile_cons_of_neg (by decide),
      List.append_nil]
  have hnumber : Delimited.intText a = Delimited.intText b := by
    rw [← hkept a ext, h, hkept]
  have hab := Delimited.intText_injective hnumber
  subst hab
  have hrest := List.append_cancel_left h
  exact ⟨rfl, (List.cons.inj hrest).2⟩

theorem part_split {part part' : ClipPart} {rest rest' : List Char}
    (h : part.text.toList ++ rest = part'.text.toList ++ rest') : part = part' ∧ rest = rest' := by
  have hc : ClipPart.clip.text.toList = ['c', 'l', 'i', 'p', '-'] := by decide
  have hb : ClipPart.baseClip.text.toList = ['b', 'a', 's', 'e', '-', 'c', 'l', 'i', 'p', '-'] := by
    decide
  cases part <;> cases part'
  · exact ⟨rfl, List.append_cancel_left h⟩
  · rw [hc, hb] at h
    simp at h
  · rw [hc, hb] at h
    simp at h
  · exact ⟨rfl, List.append_cancel_left h⟩

theorem suffix_split {name name' : ClipName} {rest rest' : List Char}
    (h : name.suffix.toList ++ '/' :: rest = name'.suffix.toList ++ '/' :: rest') :
    name.suffix = name'.suffix ∧ rest = rest' := by
  have hsuffix : ∀ name : ClipName, name.suffix = "" ∨ name.suffix = ":demo" := by
    intro name
    cases name with
    | attempt stage attempt => cases stage <;> simp [ClipName.suffix]
    | place => exact .inl rfl
  rcases hsuffix name with hname | hname <;> rcases hsuffix name' with hname' | hname' <;>
    rw [hname, hname'] at h ⊢
  · simpa using h
  · simp at h
  · simp at h
  · simpa using h

theorem ClipPut.key_inj {runId itemId : String} {p q : ClipPut}
    (h : p.key runId itemId = q.key runId itemId) :
    p.name.suffix = q.name.suffix ∧ p.part = q.part ∧ p.number = q.number
      ∧ p.media.ext = q.media.ext := by
  have hlist := congrArg String.toList h
  simp only [ClipPut.key, String.toList_append, List.append_assoc,
    List.append_cancel_left_eq] at hlist
  obtain ⟨hsuffix, hrest⟩ := suffix_split hlist
  obtain ⟨hpart, hrest⟩ := part_split hrest
  obtain ⟨hnumber, hext⟩ := toList_toString_split hrest
  exact ⟨hsuffix, hpart, hnumber, String.toList_inj.mp hext⟩

namespace ItemGraph
variable (g : ItemGraph) (u : UnicodeTables)

/-- A node, with what it stores of the clips. -/
def tracedNode (c : ClipServices) (node : ItemNode) (item : Item) :
    List ClipPut × Except StageExc Item :=
  match node with
  | .voiceover => c.tracedVoiceover u g.cfg item
  | .tier name => c.tracedGenerateClip g.cfg item (talkingHeadRequest g.cfg item name)
      ({ · with tier := some name })
  | .productDemo => c.tracedGenerateClip g.cfg item (productDemoRequest g.cfg item) id
  | .qc => Traced.quiet (nodeQc g.cfg (c.services g.cfg.runId) item)
  | .assembly => c.tracedAssembly g.cfg item
  | .upscale => c.tracedUpscale g.cfg item
  | .drop => Traced.quiet (nodeDrop (c.services g.cfg.runId) item)

/-- The services of a run from those of its executions. -/
def servicesOf (env : Nat → ClipServices) (n : Nat) : ItemServices := (env n).services g.cfg.runId

variable {g} {u} {env : Nat → ClipServices} {item : Item}

/-- What is executed is the node with what it stores. -/
theorem tracedNode_result {n : Nat} {node : ItemNode} {before left : Item}
    {next : Option ItemNode}
    (h : g.execute u (g.servicesOf env) n node before = .ok (left, next)) :
    (g.tracedNode u (env n) node before).2 = .ok left := by
  cases node with
  | voiceover =>
      obtain ⟨narrated, hnarrated, h⟩ := ok_of_bind h
      obtain ⟨route, -, h⟩ := ok_of_bind h
      obtain ⟨edge, -, h⟩ := ok_of_bind h
      cases h
      exact ClipServices.tracedVoiceover_result.trans hnarrated
  | tier name =>
      obtain ⟨generated, hgenerated, h⟩ := ok_of_bind h
      obtain ⟨edge, -, h⟩ := ok_of_bind h
      cases h
      exact (ClipServices.tracedGenerateClip_result _ _).trans hgenerated
  | productDemo =>
      obtain ⟨generated, hgenerated, h⟩ := ok_of_bind h
      obtain ⟨edge, -, h⟩ := ok_of_bind h
      cases h
      exact (ClipServices.tracedGenerateClip_result _ _).trans hgenerated
  | qc =>
      obtain ⟨judged, hjudged, h⟩ := ok_of_bind h
      obtain ⟨route, -, h⟩ := ok_of_bind h
      obtain ⟨edge, -, h⟩ := ok_of_bind h
      cases h
      exact hjudged
  | assembly =>
      obtain ⟨assembled, hassembled, h⟩ := ok_of_bind h
      cases h
      exact ClipServices.tracedAssembly_result.trans hassembled
  | upscale =>
      obtain ⟨upscaled, hupscaled, h⟩ := ok_of_bind h
      cases h
      exact ClipServices.tracedUpscale_result.trans hupscaled
  | drop =>
      obtain ⟨dropped, hdropped, h⟩ := ok_of_bind h
      cases h
      exact hdropped

/-- The talking head of an attempt takes the place of twice its number, the demo the next one. -/
def Counted : ItemNode → Item → Prop
  | .voiceover, item | .tier _, item => (item.clips.length : Int) = 2 * item.attempts
  | .productDemo, item => (item.clips.length : Int) = 2 * item.attempts + 1
  | .qc, item => (item.clips.length : Int) = 2 * item.attempts + 2
  | _, _ => True

theorem Generated.counted {s : ItemServices} {before left : Item} {request : ClipRequest}
    {onward next : ItemNode} (h : Generated s before request left)
    (hnext : afterVideo left onward = some next) :
    next = onward ∧ left.clips.length = before.clips.length + 1 ∧
      left.attempts = before.attempts := by
  cases h with
  | appended hgenerated hclips => exact ⟨(afterVideo_some hnext).symm, hclips, rfl⟩
  | failed hraised =>
      have hstopped : none = some next :=
        (afterVideo_error rfl (VideoEffectError.text_ne _)).symm.trans hnext
      cases hstopped

theorem Generated.id_eq {s : ItemServices} {before left : Item} {request : ClipRequest}
    (h : Generated s before request left) : left.id = before.id := by
  cases h <;> rfl

variable {services : Nat → ItemServices}

theorem execute_id {n : Nat} {node : ItemNode} {before left : Item} {next : Option ItemNode}
    (h : g.execute u services n node before = .ok (left, next)) : left.id = before.id := by
  cases node with
  | voiceover =>
      rw [execute_voiceover] at h
      obtain ⟨narrated, hnarrated, hedge⟩ := ok_of_map h
      obtain ⟨rfl, -⟩ := Prod.mk.inj hedge
      rcases nodeVoiceover_ok hnarrated with ⟨error, -, rfl⟩ | ⟨art, costUsd, -, rfl⟩ <;> rfl
  | tier name =>
      rw [execute_tier] at h
      obtain ⟨generated, hgenerated, hedge⟩ := ok_of_map h
      obtain ⟨rfl, -⟩ := Prod.mk.inj hedge
      exact Generated.id_eq (nodeGen_ok hgenerated)
  | productDemo =>
      rw [execute_productDemo] at h
      obtain ⟨generated, hgenerated, hedge⟩ := ok_of_map h
      obtain ⟨rfl, -⟩ := Prod.mk.inj hedge
      exact Generated.id_eq (nodeProductDemo_ok hgenerated)
  | qc =>
      obtain ⟨qc, rfl, -⟩ := execute_qc_ok h
      rfl
  | assembly =>
      obtain ⟨hassembled, -⟩ := execute_assembly_ok h
      obtain ⟨assembled, error, costUsd, rfl⟩ := nodeAssembly_ok hassembled
      rfl
  | upscale =>
      obtain ⟨hupscaled, -⟩ := execute_upscale_ok h
      obtain ⟨assembled, rfl⟩ := nodeUpscale_ok hupscaled
      rfl
  | drop =>
      obtain ⟨hdropped, -⟩ := execute_drop_ok h
      rw [nodeDrop_ok hdropped]

/-- Every edge keeps the places. -/
theorem execute_counted {n : Nat} {node next : ItemNode} {before left : Item}
    (h : g.execute u services n node before = .ok (left, some next))
    (hbefore : Counted node before) : Counted next left := by
  cases node with
  | voiceover =>
      rw [execute_voiceover] at h
      obtain ⟨narrated, hnarrated, hedge⟩ := ok_of_map h
      obtain ⟨rfl, hafter⟩ := Prod.mk.inj hedge
      rw [afterVoiceover] at hafter
      split at hafter
      next => cases hafter
      next =>
          cases hafter
          rcases nodeVoiceover_ok hnarrated with ⟨error, -, rfl⟩ | ⟨art, costUsd, -, rfl⟩ <;>
            exact hbefore
  | tier name =>
      rw [execute_tier] at h
      obtain ⟨generated, hgenerated, hedge⟩ := ok_of_map h
      obtain ⟨rfl, hafter⟩ := Prod.mk.inj hedge
      obtain ⟨rfl, hclips, hattempts⟩ := Generated.counted (nodeGen_ok hgenerated) hafter
      simp only [Counted] at hbefore ⊢
      omega
  | productDemo =>
      rw [execute_productDemo] at h
      obtain ⟨generated, hgenerated, hedge⟩ := ok_of_map h
      obtain ⟨rfl, hafter⟩ := Prod.mk.inj hedge
      obtain ⟨rfl, hclips, hattempts⟩ := Generated.counted (nodeProductDemo_ok hgenerated) hafter
      simp only [Counted] at hbefore ⊢
      omega
  | qc =>
      obtain ⟨qc, rfl, hnext⟩ := execute_qc_ok h
      cases hnext
      rw [afterQc]
      split
      next => trivial
      next hfailed =>
          split
          next =>
              simp only [Counted] at hbefore ⊢
              omega
          next => trivial
  | assembly =>
      obtain ⟨-, hnext⟩ := execute_assembly_ok h
      cases hnext
      trivial
  | upscale =>
      obtain ⟨-, hnext⟩ := execute_upscale_ok h
      cases hnext
  | drop =>
      obtain ⟨-, hnext⟩ := execute_drop_ok h
      cases hnext

/-- What a run keeps of its item. -/
structure Placed (itemId : String) (k : ItemRun) : Prop where
  visits : ∀ visit ∈ k.visits, Counted visit.node visit.before ∧ visit.before.id = itemId
  position : ∀ node, k.position = .running node → Counted node k.state
  id_eq : k.state.id = itemId

theorem Placed.append {itemId : String} {k : ItemRun} (h : Placed itemId k) {node : ItemNode}
    (hrunning : k.position = .running node) (left : Option Item) :
    ∀ visit ∈ k.visits ++ [⟨node, k.state, left⟩],
      Counted visit.node visit.before ∧ visit.before.id = itemId := by
  intro visit hvisit
  rcases List.mem_append.mp hvisit with hvisit | hvisit
  · exact h.visits visit hvisit
  · rw [List.mem_singleton.mp hvisit]
    exact ⟨h.position node hrunning, h.id_eq⟩

theorem run_placed (hclips : item.clips = []) (hattempts : item.attempts = 0) (n : Nat) :
    Placed item.id (g.run u services item n) := by
  refine GraphWalk.steps_invariant ?_ ?_ ?_ n
  · intro k node left next hk hrunning hexec
    refine ⟨hk.append hrunning (some left), fun node' hposition => ?_,
      (execute_id hexec).trans hk.id_eq⟩
    cases next with
    | none => cases hposition
    | some next =>
        cases hposition
        exact execute_counted hexec (hk.position node hrunning)
  · intro k node exc hk hrunning hexec
    exact ⟨hk.append hrunning none, (fun node' hposition => by cases hposition), hk.id_eq⟩
  · refine ⟨fun visit hvisit => absurd hvisit List.not_mem_nil, fun node hposition => ?_, rfl⟩
    cases hposition
    simp [Counted, GraphWalk.start, hclips, hattempts]

/-- An object that a run stores of a clip of its item. -/
def Stored (g : ItemGraph) (u : UnicodeTables) (env : Nat → ClipServices) (item : Item)
    (put : ClipPut) : Prop :=
  ∃ n i visit, (g.run u (g.servicesOf env) item n).visits[i]? = some visit ∧
    put ∈ (g.tracedNode u (env i) visit.node visit.before).1

/-- The objects of the clips of the item have keys of their own. -/
def ClipsApart (g : ItemGraph) (u : UnicodeTables) (env : Nat → ClipServices) (item : Item) :
    Prop :=
  ∀ p q, Stored g u env item p → Stored g u env item q → p.media.key = q.media.key →
    p.place = q.place ∧ p.part = q.part

/-- After the first take, the paid call of an attempt stores the clip of its talking head with
the extension with which a node stores the clip at the place of that number. -/
def Crossed (g : ItemGraph) (u : UnicodeTables) (env : Nat → ClipServices) (item : Item) : Prop :=
  ∃ p q, Stored g u env item p ∧ Stored g u env item q ∧
    p.name = .attempt .talkingHead q.place ∧ q.name = .place ∧ 1 ≤ q.place ∧
    p.part = q.part ∧ p.media.ext = q.media.ext

/-- A stored object is named by its place, or by the attempt that its place belongs to. -/
structure Numbered (runId itemId : String) (put : ClipPut) : Prop where
  key_eq : put.media.key = put.key runId itemId
  attempt : ∀ stage attempt, put.name = .attempt stage attempt →
    (put.place : Int) = 2 * attempt + if stage = .productDemo then 1 else 0

theorem numbered_of_place {runId itemId : String} {put : ClipPut}
    (h : put.name = .place ∧ put.media.key = put.key runId itemId) : Numbered runId itemId put :=
  ⟨h.2, fun stage attempt hname => by rw [h.1] at hname; cases hname⟩

/-- The request that a video node makes for its item. -/
def videoRequest (g : ItemGraph) : ItemNode → Item → Option ClipRequest
  | .tier name, item => some (talkingHeadRequest g.cfg item name)
  | .productDemo, item => some (productDemoRequest g.cfg item)
  | _, _ => none

/-- A node stores what its paid call left, and the media of its item by their places. -/
theorem mem_tracedNode {c : ClipServices} {node : ItemNode} {before : Item} {put : ClipPut}
    (hid : before.id ≠ "") (h : put ∈ (g.tracedNode u c node before).1) :
    (∃ request ∈ videoRequest g node before, put ∈ c.paidPuts g.cfg before request) ∨
      (put.name = .place ∧ put.media.key = put.key g.cfg.runId before.id) := by
  cases node with
  | voiceover =>
      change put ∈ (c.tracedVoiceover u g.cfg before).1 at h
      rw [ClipServices.tracedVoiceover] at h
      split at h
      next => exact absurd h List.not_mem_nil
      next =>
          split at h
          next => exact absurd h List.not_mem_nil
          next =>
              rcases Traced.mem_bind.mp h with h | ⟨costUsd, -, h⟩
              · exact absurd h List.not_mem_nil
              · rcases Traced.mem_bind.mp h with h | ⟨persisted, -, h⟩
                · have hplace := mem_tracedPersistItemMedia (by exact hid) h
                  exact .inr hplace
                · exact absurd h List.not_mem_nil
  | tier name =>
      rcases mem_tracedGenerateClip hid h with hpaid | hplace
      · exact .inl ⟨_, rfl, hpaid⟩
      · exact .inr hplace
  | productDemo =>
      rcases mem_tracedGenerateClip hid h with hpaid | hplace
      · exact .inl ⟨_, rfl, hpaid⟩
      · exact .inr hplace
  | qc => exact absurd h List.not_mem_nil
  | assembly =>
      rcases Traced.mem_bind.mp h with h | ⟨media, -, h⟩
      · exact absurd h List.not_mem_nil
      · cases media with
        | error reason => exact absurd h List.not_mem_nil
        | ok media =>
            rcases Traced.mem_bind.mp h with h | ⟨costUsd, -, h⟩
            · exact absurd h List.not_mem_nil
            · rcases Traced.mem_bind.mp h with h | ⟨canonical, -, h⟩
              · exact absurd h List.not_mem_nil
              · rcases Traced.mem_bind.mp h with h | ⟨persisted, -, h⟩
                · have hplace := mem_tracedPersistItemMedia (by exact hid) h
                  exact .inr hplace
                · exact absurd h List.not_mem_nil
  | upscale =>
      change put ∈ (c.tracedUpscale g.cfg before).1 at h
      rw [ClipServices.tracedUpscale] at h
      split at h
      next => exact absurd h List.not_mem_nil
      next =>
          split at h
          next => exact absurd h List.not_mem_nil
          next =>
              split at h
              next => exact absurd h List.not_mem_nil
              next =>
                  rcases Traced.mem_bind.mp h with h | ⟨persisted, -, h⟩
                  · have hplace := mem_tracedPersistItemMedia (by exact hid) h
                    exact .inr hplace
                  · exact absurd h List.not_mem_nil
  | drop => exact absurd h List.not_mem_nil

theorem paid_numbered {c : ClipServices} {node : ItemNode} {before : Item} {request : ClipRequest}
    {put : ClipPut} (hcounted : Counted node before)
    (hrequest : request ∈ videoRequest g node before)
    (h : put ∈ c.paidPuts g.cfg before request) : Numbered g.cfg.runId before.id put := by
  obtain ⟨hname, hplace, hkey⟩ := mem_paidPuts h
  cases node with
  | tier name =>
      cases hrequest
      refine ⟨hkey.trans ?_, fun stage attempt hstage => ?_⟩
      · rw [ClipPut.key, ClipPut.number, hname]
        simp [ClipName.suffix, talkingHeadRequest]
      · rw [hname] at hstage
        cases hstage
        rw [hplace]
        exact hcounted.trans (Int.add_zero _).symm
  | productDemo =>
      cases hrequest
      refine ⟨hkey.trans ?_, fun stage attempt hstage => ?_⟩
      · rw [ClipPut.key, ClipPut.number, hname]
        simp [ClipName.suffix, productDemoRequest, String.append_assoc]
      · rw [hname] at hstage
        cases hstage
        rw [hplace]
        exact hcounted
  | voiceover | qc | assembly | upscale | drop => cases hrequest

theorem stored_numbered (hclips : item.clips = []) (hattempts : item.attempts = 0)
    (hid : item.id ≠ "") {put : ClipPut} (h : Stored g u env item put) :
    Numbered g.cfg.runId item.id put := by
  obtain ⟨n, i, visit, hvisit, hput⟩ := h
  have hplaced := @run_placed g u item (g.servicesOf env) hclips hattempts n
  obtain ⟨hcounted, hbefore⟩ := hplaced.visits visit (List.mem_of_getElem? hvisit)
  rw [← hbefore]
  rcases mem_tracedNode (by rw [hbefore]; exact hid) hput with ⟨request, hrequest, hpaid⟩ | hplace
  · exact paid_numbered hcounted hrequest hpaid
  · exact numbered_of_place hplace

/-- One key is of one clip, or crosses an attempt with a place. -/
theorem apart_or_crossed {runId itemId : String} {p q : ClipPut} (hp : Numbered runId itemId p)
    (hq : Numbered runId itemId q) (hkey : p.media.key = q.media.key) :
    (p.place = q.place ∧ p.part = q.part) ∨
      (p.name = .attempt .talkingHead q.place ∧ q.name = .place ∧ 1 ≤ q.place ∧
        p.part = q.part ∧ p.media.ext = q.media.ext) ∨
      (q.name = .attempt .talkingHead p.place ∧ p.name = .place ∧ 1 ≤ p.place ∧
        q.part = p.part ∧ q.media.ext = p.media.ext) := by
  rw [hp.key_eq, hq.key_eq] at hkey
  obtain ⟨hsuffix, hpart, hnumber, hext⟩ := ClipPut.key_inj hkey
  rw [ClipPut.number, ClipPut.number] at hnumber
  cases hpname : p.name with
  | attempt stage attempt =>
      have hpplace := hp.attempt stage attempt hpname
      cases hqname : q.name with
      | attempt stage' attempt' =>
          have hqplace := hq.attempt stage' attempt' hqname
          rw [hpname, hqname] at hnumber hsuffix
          have hstage : stage = stage' := by
            cases stage <;> cases stage' <;> simp [ClipName.suffix] at hsuffix ⊢
          subst hstage
          refine .inl ⟨?_, hpart⟩
          dsimp only at hnumber
          omega
      | place =>
          rw [hpname, hqname] at hnumber hsuffix
          have hstage : stage = .talkingHead := by
            cases stage <;> simp [ClipName.suffix] at hsuffix ⊢
          subst hstage
          dsimp only at hnumber
          subst hnumber
          by_cases hfirst : q.place = 0
          · refine .inl ⟨?_, hpart⟩
            rw [hfirst] at hpplace ⊢
            simpa using hpplace
          · exact .inr (.inl ⟨rfl, rfl, Nat.one_le_iff_ne_zero.mpr hfirst, hpart, hext⟩)
  | place =>
      cases hqname : q.name with
      | attempt stage attempt =>
          have hqplace := hq.attempt stage attempt hqname
          rw [hpname, hqname] at hnumber hsuffix
          have hstage : stage = .talkingHead := by
            cases stage <;> simp [ClipName.suffix] at hsuffix ⊢
          subst hstage
          dsimp only at hnumber
          subst hnumber
          by_cases hfirst : p.place = 0
          · refine .inl ⟨?_, hpart⟩
            rw [hfirst] at hqplace ⊢
            have hzero : q.place = 0 := by simpa using hqplace
            exact hzero.symm
          · exact .inr (.inr ⟨rfl, rfl, Nat.one_le_iff_ne_zero.mpr hfirst, hpart.symm, hext.symm⟩)
      | place =>
          rw [hpname, hqname] at hnumber
          exact .inl ⟨Int.ofNat.inj hnumber, hpart⟩

theorem fanOutItem_id {freshId : String} (hfresh : freshId ≠ "") (concept : ScriptedConcept)
    (creator : RosterCreator) : (fanOutItem freshId concept creator).id ≠ "" := by
  change (if concept.id.any (· ≠ "") then concept.id.getD freshId else freshId) ≠ ""
  split
  next h =>
      cases hid : concept.id with
      | none => rw [hid] at h; cases h
      | some id => simpa [hid] using h
  next => exact hfresh

/-- The clips of an item have keys of their own exactly when no attempt after the first crosses
the place of its number. -/
theorem clips_apart_iff (g : ItemGraph) (u : UnicodeTables) (env : Nat → ClipServices)
    (freshId : String) (concept : ScriptedConcept) (creator : RosterCreator)
    (hfresh : freshId ≠ "") :
    ClipsApart g u env (fanOutItem freshId concept creator) ↔
      ¬ Crossed g u env (fanOutItem freshId concept creator) := by
  have hid := fanOutItem_id hfresh concept creator
  have hnumbered := fun put (h : Stored g u env (fanOutItem freshId concept creator) put) =>
    @stored_numbered g u env (fanOutItem freshId concept creator) rfl rfl hid put h
  constructor
  · intro hapart ⟨p, q, hp, hq, hpname, hqname, hlater, hpart, hext⟩
    have hkeys : p.media.key = q.media.key := by
      rw [(hnumbered p hp).key_eq, (hnumbered q hq).key_eq, ClipPut.key, ClipPut.key,
        ClipPut.number, ClipPut.number, hpname, hqname, hpart, hext]
      rfl
    have hplaces := (hapart p q hp hq hkeys).1
    have hplace := (hnumbered p hp).attempt _ _ hpname
    rw [hplaces] at hplace
    simp at hplace
    omega
  · intro hcrossed p q hp hq hkey
    rcases apart_or_crossed (hnumbered p hp) (hnumbered q hq) hkey with hapart | hcross | hcross
    · exact hapart
    · exact absurd ⟨p, q, hp, hq, hcross⟩ hcrossed
    · exact absurd ⟨q, p, hq, hp, hcross⟩ hcrossed

/-- Without the durable path nothing is numbered by attempt. -/
theorem not_crossed_of_plain (hclips : item.clips = []) (hattempts : item.attempts = 0)
    (hid : item.id ≠ "") (hplain : ∀ n, (env n).tool.durable = false) :
    ¬ Crossed g u env item := by
  intro ⟨p, _, ⟨n, i, visit, hvisit, hput⟩, _, hname, _⟩
  have hplaced := @run_placed g u item (g.servicesOf env) hclips hattempts n
  obtain ⟨-, hbefore⟩ := hplaced.visits visit (List.mem_of_getElem? hvisit)
  rcases mem_tracedNode (by rw [hbefore]; exact hid) hput with ⟨request, -, hpaid⟩ | ⟨hplace, -⟩
  · obtain ⟨stored, hstored, -⟩ := List.mem_map.mp hpaid
    rw [ClipTool.generateClip, hplain i] at hstored
    exact absurd hstored List.not_mem_nil
  · rw [hplace] at hname
    cases hname

/-- A disk that holds what was fetched over HTTPS, or of which every download fails. -/
def diskStorage (online : Bool) : DownloadStorage where
  fetchMedia uri := if online ∧ "https".toList.isPrefixOf uri.toList then some "mp4" else none
  putBytesWithExt key := .ok { uri := "/videos/" ++ key, key, backend := "local" }
  key_eq key stored h := by rw [← Except.ok.inj h]

/-- A tool whose predictions all succeed. -/
def sampleTool (durable online : Bool) : ClipTool where
  durable := durable
  stores := true
  latentsyncRequired := false
  latentsyncEnabled := false
  refusal := none
  effectKey _ := "effect"
  clipEffect _ := .ok { kind := "clip", uri := "https://provider/clip.mp4" }
  syncEffect _ base := .ok base
  adapterClip _ := .ok { kind := "clip", uri := "https://provider/clip.mp4" }
  storage := diskStorage online

/-- Services under which the first verdict fails. -/
def sampleServices (durable online : Bool) : ClipServices where
  others := { workingServices with
    qcCheck := fun item _ => .ok { passed := item.attempts > 0, score := 1 } }
  storage := diskStorage true
  tool := sampleTool durable online

/-- What the visits of a run store. -/
def storedBy (g : ItemGraph) (u : UnicodeTables) (env : Nat → ClipServices) (item : Item)
    (n : Nat) : List ClipPut :=
  (g.run u (g.servicesOf env) item n).visits.zipIdx.flatMap fun visit =>
    (g.tracedNode u (env visit.2) visit.1.node visit.1.before).1

theorem mem_storedBy {n : Nat} (hsettled : ¬ (g.run u (g.servicesOf env) item n).Running)
    {put : ClipPut} (h : Stored g u env item put) : put ∈ storedBy g u env item n := by
  obtain ⟨m, i, visit, hvisit, hput⟩ := h
  have hvisit := GraphWalk.visits_settled hsettled hvisit
  exact List.mem_flatMap.mpr ⟨(visit, i), List.mk_mem_zipIdx_iff_getElem?.mpr hvisit, hput⟩

/-- Whether the second take is paid for durably or not, the clips have keys of their own. -/
theorem retaken_clips_apart :
    ClipsApart ltxGraph asciiTables (fun _ => sampleServices false true)
        (fanOutItem "item" narratedConcept voicedCreator) ∧
      ClipsApart ltxGraph asciiTables (fun _ => sampleServices true true)
        (fanOutItem "item" narratedConcept voicedCreator) := by
  constructor
  · refine (clips_apart_iff ltxGraph asciiTables (fun _ => sampleServices false true) "item"
      narratedConcept voicedCreator (by decide)).mpr fun ⟨p, q, hp, hq, hcrossed⟩ => ?_
    exact not_crossed_of_plain rfl rfl (by decide) (fun _ => rfl) ⟨p, q, hp, hq, hcrossed⟩
  · refine (clips_apart_iff ltxGraph asciiTables (fun _ => sampleServices true true) "item"
      narratedConcept voicedCreator (by decide)).mpr fun ⟨p, q, hp, hq, hcrossed⟩ => ?_
    have hended : (ltxGraph.run asciiTables
        (ltxGraph.servicesOf fun _ => sampleServices true true)
        (fanOutItem "item" narratedConcept voicedCreator) 9).position = .ended := by
      decide +kernel
    have hsettled := GraphWalk.not_running_of_ended hended
    have hnone : ∀ put ∈ storedBy ltxGraph asciiTables (fun _ => sampleServices true true)
        (fanOutItem "item" narratedConcept voicedCreator) 9, put.name ≠ .place := by
      decide +kernel
    exact hnone q (mem_storedBy hsettled hq) hcrossed.2.1

/-- What a visit of a run stores is stored by the run. -/
theorem stored_of_visit {put : ClipPut} (n i : Nat)
    (h : ((g.run u (g.servicesOf env) item n).visits[i]?).any
      (fun visit => put ∈ (g.tracedNode u (env i) visit.node visit.before).1) = true) :
    Stored g u env item put := by
  cases hvisit : (g.run u (g.servicesOf env) item n).visits[i]? with
  | none =>
      rw [hvisit] at h
      cases h
  | some visit =>
      rw [hvisit] at h
      exact ⟨n, i, visit, hvisit, of_decide_eq_true h⟩

/-- The demo of the first take is stored by its place, the talking head of the second by its
attempt. -/
theorem second_take_overwrites_demo :
    ¬ ∀ (g : ItemGraph) (u : UnicodeTables) (env : Nat → ClipServices) (freshId : String)
      (concept : ScriptedConcept) (creator : RosterCreator), freshId ≠ "" →
      ClipsApart g u env (fanOutItem freshId concept creator) := by
  intro h
  -- the download of the demo fails while it is paid for, and works when the node stores it
  let env : Nat → ClipServices := fun n => sampleServices true (n ≠ 2)
  let demo : ClipPut := ⟨1, .clip, .place, ⟨"mp4", "run/items/concept-1/clip-1.mp4"⟩⟩
  let head : ClipPut :=
    ⟨2, .clip, .attempt .talkingHead 1, ⟨"mp4", "run/items/concept-1/clip-1.mp4"⟩⟩
  have hdemo : Stored ltxGraph asciiTables env (fanOutItem "item" narratedConcept voicedCreator)
      demo := stored_of_visit 5 2 (by decide +kernel)
  have hhead : Stored ltxGraph asciiTables env (fanOutItem "item" narratedConcept voicedCreator)
      head := stored_of_visit 5 4 (by decide +kernel)
  have hapart := h ltxGraph asciiTables env "item" narratedConcept voicedCreator (by decide)
  exact absurd (hapart demo head hdemo hhead rfl).1 (by decide)

end ItemGraph

end Orchestrator
