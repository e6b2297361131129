import Mathlib.Data.String.Basic
import Orchestrator.Lib.Machine
import Orchestrator.Lib.Outcome
import Orchestrator.Lib.ScopedTable

/-!
The checkpoint saver of one organization, over a saver that all share.

A config is its thread id and the rest of what it names; a checkpoint with its
metadata and its pending writes is one content. The wrapped saver is a parameter;
`keyedSaver` says what a correct keyed store over thread ids answers, for any
behaviour of the single threads, with or without the row security that the
setup installs on the tables.
-/

namespace Orchestrator

open ScopedTable

inductive SaverError where
  | keyError
  | assertionError
  | insufficientPrivilege
  deriving DecidableEq

structure Configurable (κ : Type) where
  threadId : Option String
  rest : κ
  deriving DecidableEq

/-- A config without the key `configurable` is the empty dictionary. -/
structure RunnableConfig (κ : Type) where
  configurable : Option (Configurable κ)
  deriving DecidableEq

/-- The config of a thread. -/
def RunnableConfig.ofThread {κ : Type} (threadId : String) (rest : κ) : RunnableConfig κ :=
  ⟨some ⟨some threadId, rest⟩⟩

structure CheckpointTuple (κ γ : Type) where
  config : RunnableConfig κ
  content : γ
  parentConfig : Option (RunnableConfig κ)
  deriving DecidableEq

/-- `BaseCheckpointSaver`; the first argument of a call is the organization its
connection is set to. -/
structure Saver (σ κ π ω φ γ : Type) where
  empty : σ
  agetTuple : String → RunnableConfig κ → σ → Except SaverError (Option (CheckpointTuple κ γ))
  alist : String → Option (RunnableConfig κ) → φ → Option (RunnableConfig κ) → Option Nat → σ →
    Except SaverError (List (CheckpointTuple κ γ))
  aput : String → RunnableConfig κ → π → σ → Except SaverError (RunnableConfig κ) × σ
  aputWrites : String → RunnableConfig κ → ω → σ → Except SaverError Unit × σ
  adeleteThread : String → String → σ → σ

/-- The text of a UUID. -/
structure TenantOrganization where
  text : String
  noColon : ':' ∉ text.toList
  deriving DecidableEq

namespace TenantScopedPostgresSaver
variable {σ κ π ω φ γ : Type} (saver : Saver σ κ π ω φ γ) (org : TenantOrganization)

def scopeThread (threadId : String) : String := org.text ++ ":" ++ threadId

def scopeConfig (config : RunnableConfig κ) : Except SaverError (RunnableConfig κ) :=
  match config.configurable with
  | some ⟨some threadId, rest⟩ => .ok (.ofThread (scopeThread org threadId) rest)
  | _ => .error .keyError

def scopeOptional : Option (RunnableConfig κ) → Except SaverError (Option (RunnableConfig κ))
  | none => .ok none
  | some config => (scopeConfig org config).map some

/-- `removeprefix` of a thread id that starts with the organization and a colon. -/
def externalThread? (threadId : String) : Option String :=
  if (scopeThread org "").toList.isPrefixOf threadId.toList then
    some (String.ofList (threadId.toList.drop (scopeThread org "").toList.length))
  else none

def externalConfig (config : RunnableConfig κ) : Except SaverError (RunnableConfig κ) :=
  match config.configurable with
  | some ⟨some threadId, rest⟩ =>
      match externalThread? org threadId with
      | some external => .ok (.ofThread external rest)
      | none => .error .assertionError
  | _ => .error .keyError

def externalParent : Option (RunnableConfig κ) → Except SaverError (Option (RunnableConfig κ))
  | none => .ok none
  | some config => (externalConfig org config).map some

def externalTuple (value : CheckpointTuple κ γ) : Except SaverError (CheckpointTuple κ γ) := do
  let config ← externalConfig org value.config
  let parentConfig ← externalParent org value.parentConfig
  return { config, content := value.content, parentConfig }

/-- The listed tuples of threads that start with the organization and a colon. -/
def externalTuples : List (CheckpointTuple κ γ) → Except SaverError (List (CheckpointTuple κ γ))
  | [] => .ok []
  | value :: values =>
      match value.config.configurable with
      | some ⟨some threadId, _⟩ =>
          if (externalThread? org threadId).isSome then do
            let external ← externalTuple org value
            let externals ← externalTuples values
            return external :: externals
          else externalTuples values
      | _ => .error .keyError

def agetTuple (config : RunnableConfig κ) (s : σ) :
    Except SaverError (Option (CheckpointTuple κ γ)) := do
  let scopedConfig ← scopeConfig org config
  let value ← saver.agetTuple org.text scopedConfig s
  match value with
  | some value => (externalTuple org value).map some
  | none => return none

def alist (config : Option (RunnableConfig κ)) (filter : φ) (before : Option (RunnableConfig κ))
    (limit : Option Nat) (s : σ) : Except SaverError (List (CheckpointTuple κ γ)) := do
  let scopedConfig ← scopeOptional org config
  let scopedBefore ← scopeOptional org before
  let values ← saver.alist org.text scopedConfig filter scopedBefore limit s
  externalTuples org values

def aput (config : RunnableConfig κ) (args : π) (s : σ) :
    Except SaverError (RunnableConfig κ) × σ :=
  match scopeConfig org config with
  | .ok scopedConfig =>
      let (saved, s) := saver.aput org.text scopedConfig args s
      (saved.bind (externalConfig org), s)
  | .error e => (.error e, s)

def aputWrites (config : RunnableConfig κ) (writes : ω) (s : σ) : Except SaverError Unit × σ :=
  match scopeConfig org config with
  | .ok scopedConfig => saver.aputWrites org.text scopedConfig writes s
  | .error e => (.error e, s)

def adeleteThread (threadId : String) (s : σ) : σ :=
  saver.adeleteThread org.text (scopeThread org threadId) s

end TenantScopedPostgresSaver

/-- The wrapper is a saver itself, on the connection of its organization. -/
def tenantScopedPostgresSaver {σ κ π ω φ γ : Type} (saver : Saver σ κ π ω φ γ)
    (org : TenantOrganization) : Saver σ κ π ω φ γ where
  empty := saver.empty
  agetTuple _ := TenantScopedPostgresSaver.agetTuple saver org
  alist _ := TenantScopedPostgresSaver.alist saver org
  aput _ := TenantScopedPostgresSaver.aput saver org
  aputWrites _ := TenantScopedPostgresSaver.aputWrites saver org
  adeleteThread _ := TenantScopedPostgresSaver.adeleteThread saver org

inductive SaverCall (κ π ω φ : Type) where
  | agetTuple (config : RunnableConfig κ)
  | alist (config : Option (RunnableConfig κ)) (filter : φ) (before : Option (RunnableConfig κ))
      (limit : Option Nat)
  | aput (config : RunnableConfig κ) (args : π)
  | aputWrites (config : RunnableConfig κ) (writes : ω)
  | adeleteThread (threadId : String)

inductive SaverReply (κ γ : Type) where
  | tuple (reply : Except SaverError (Option (CheckpointTuple κ γ)))
  | tuples (reply : Except SaverError (List (CheckpointTuple κ γ)))
  | config (reply : Except SaverError (RunnableConfig κ))
  | done (reply : Except SaverError Unit)
  deriving DecidableEq

def Saver.call {σ κ π ω φ γ : Type} (saver : Saver σ κ π ω φ γ) (connection : String) :
    SaverCall κ π ω φ → σ → SaverReply κ γ × σ
  | .agetTuple config, s => (.tuple (saver.agetTuple connection config s), s)
  | .alist config filter before limit, s =>
      (.tuples (saver.alist connection config filter before limit s), s)
  | .aput config args, s => Prod.map .config id (saver.aput connection config args s)
  | .aputWrites config writes, s =>
      Prod.map .done id (saver.aputWrites connection config writes s)
  | .adeleteThread threadId, s => (.done (.ok ()), saver.adeleteThread connection threadId s)

/-- A stored checkpoint, as the configs that name it and its content. -/
structure Snapshot (κ γ : Type) where
  checkpointId : String
  config : κ
  content : γ
  parent : Option κ
  deriving DecidableEq

def Snapshot.NewestFirst {κ γ : Type} (a b : Snapshot κ γ) : Prop :=
  b.checkpointId ≤ a.checkpointId

instance {κ γ : Type} : DecidableRel (@Snapshot.NewestFirst κ γ) := fun a b =>
  inferInstanceAs (Decidable (b.checkpointId ≤ a.checkpointId))

instance {κ γ : Type} : IsTrans (Snapshot κ γ) Snapshot.NewestFirst :=
  ⟨fun _ _ _ hab hbc => le_trans hbc hab⟩

instance {κ γ : Type} : Std.Total (@Snapshot.NewestFirst κ γ) :=
  ⟨fun a b => le_total b.checkpointId a.checkpointId⟩

/-- What a saver does with the data of one thread. -/
structure ThreadOps (δ κ π ω φ γ : Type) where
  empty : δ
  get : κ → δ → Option (Snapshot κ γ)
  select : Option κ → φ → Option κ → δ → List (Snapshot κ γ)
  put : κ → π → δ → κ × δ
  putWrites : κ → ω → δ → δ

namespace KeyedSaver
variable {δ κ π ω φ γ : Type} (ops : ThreadOps δ κ π ω φ γ) (rowSecurity : Bool)

/-- `split_part(thread_id, ':', 1) = current_setting('app.organization_id')`. -/
def permits (connection threadId : String) : Bool :=
  !rowSecurity || String.ofList (threadId.toList.takeWhile (· ≠ ':')) = connection

def visible (connection : String) (rows : List (String × δ)) : List (String × δ) :=
  rows.filter fun r => permits rowSecurity connection r.1

def threadOf (config : RunnableConfig κ) : Except SaverError (String × κ) :=
  match config.configurable with
  | some ⟨some threadId, rest⟩ => .ok (threadId, rest)
  | _ => .error .keyError

/-- The thread a listing is about; no config and an empty one mean every thread. -/
def listScope : Option (RunnableConfig κ) → Except SaverError (Option (String × κ))
  | none | some ⟨none⟩ => .ok none
  | some config => (threadOf config).map some

/-- What a listing stops before; its thread is not read. -/
def listBound : Option (RunnableConfig κ) → Except SaverError (Option κ)
  | none => .ok none
  | some ⟨some configurable⟩ => .ok (some configurable.rest)
  | some ⟨none⟩ => .error .keyError

def takeLimit {α : Type} (limit : Option Nat) (l : List α) : List α := limit.elim l l.take

def tupleAt (found : String × Snapshot κ γ) : CheckpointTuple κ γ where
  config := .ofThread found.1 found.2.config
  content := found.2.content
  parentConfig := found.2.parent.map (.ofThread found.1)

/-- The checkpoints of a listing without its limit. -/
def found (connection : String) (scope : Option (String × κ)) (filter : φ) (bound : Option κ)
    (rows : List (String × δ)) : List (String × Snapshot κ γ) :=
  listing Snapshot.NewestFirst (ops.select (scope.map Prod.snd) filter bound)
    ((visible rowSecurity connection rows).filter fun r => scope.all (r.1 = ·.1))

def agetTuple (connection : String) (config : RunnableConfig κ) (rows : List (String × δ)) :
    Except SaverError (Option (CheckpointTuple κ γ)) := do
  let (threadId, rest) ← threadOf config
  let data := lookup ops.empty threadId (visible rowSecurity connection rows)
  return (ops.get rest data).map fun snapshot => tupleAt (threadId, snapshot)

def alist (connection : String) (config : Option (RunnableConfig κ)) (filter : φ)
    (before : Option (RunnableConfig κ)) (limit : Option Nat) (rows : List (String × δ)) :
    Except SaverError (List (CheckpointTuple κ γ)) := do
  let scope ← listScope config
  let bound ← listBound before
  return (takeLimit limit (found ops rowSecurity connection scope filter bound rows)).map tupleAt

def aput (connection : String) (config : RunnableConfig κ) (args : π) (rows : List (String × δ)) :
    Except SaverError (RunnableConfig κ) × List (String × δ) :=
  match threadOf config with
  | .ok (threadId, rest) =>
      if permits rowSecurity connection threadId then
        let saved := ops.put rest args (lookup ops.empty threadId rows)
        (.ok (.ofThread threadId saved.1),
          modify ops.empty threadId (fun data => (ops.put rest args data).2) rows)
      else (.error .insufficientPrivilege, rows)
  | .error e => (.error e, rows)

def aputWrites (connection : String) (config : RunnableConfig κ) (writes : ω)
    (rows : List (String × δ)) : Except SaverError Unit × List (String × δ) :=
  match threadOf config with
  | .ok (threadId, rest) =>
      if permits rowSecurity connection threadId then
        (.ok (), modify ops.empty threadId (ops.putWrites rest writes) rows)
      else (.error .insufficientPrivilege, rows)
  | .error e => (.error e, rows)

def adeleteThread (connection threadId : String) (rows : List (String × δ)) : List (String × δ) :=
  if permits rowSecurity connection threadId then remove threadId rows else rows

end KeyedSaver

/-- A correct keyed store over thread ids. -/
def keyedSaver {δ κ π ω φ γ : Type} (ops : ThreadOps δ κ π ω φ γ) (rowSecurity : Bool) :
    Saver (List (String × δ)) κ π ω φ γ where
  empty := []
  agetTuple := KeyedSaver.agetTuple ops rowSecurity
  alist := KeyedSaver.alist ops rowSecurity
  aput := KeyedSaver.aput ops rowSecurity
  aputWrites := KeyedSaver.aputWrites ops rowSecurity
  adeleteThread := KeyedSaver.adeleteThread rowSecurity

/-- A saver that answers as a keyed store over thread ids does. -/
structure KeyedStore {σ δ κ π ω φ γ : Type} (saver : Saver σ κ π ω φ γ)
    (ops : ThreadOps δ κ π ω φ γ) (rowSecurity : Bool) where
  table : σ → List (String × δ)
  empty : table saver.empty = []
  agetTuple : ∀ connection config s, saver.agetTuple connection config s =
    (keyedSaver ops rowSecurity).agetTuple connection config (table s)
  alist : ∀ connection config filter before limit s,
    saver.alist connection config filter before limit s =
      (keyedSaver ops rowSecurity).alist connection config filter before limit (table s)
  aput : ∀ connection config args s, Prod.map id table (saver.aput connection config args s) =
    (keyedSaver ops rowSecurity).aput connection config args (table s)
  aputWrites : ∀ connection config writes s,
    Prod.map id table (saver.aputWrites connection config writes s) =
      (keyedSaver ops rowSecurity).aputWrites connection config writes (table s)
  adeleteThread : ∀ connection threadId s, table (saver.adeleteThread connection threadId s) =
    (keyedSaver ops rowSecurity).adeleteThread connection threadId (table s)

end Orchestrator
