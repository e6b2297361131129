import Mathlib.Data.List.Nodup
import Orchestrator.Lib.PyStr
import Orchestrator.Storage.ExpiryText

/-!
The copy of a run's objects from one backend to another.

Each object is read, checked, written, looked at and only then does its row name
the other backend. Any of these may fail, and a write or an update that raises
may have been done all the same. The rows always name bytes that were there
before or were checked and written, so the copy may be broken off and started
again.
-/

namespace Orchestrator
open IsoTime

structure BucketObject where
  bytes : ByteArray
  contentType : String
  metadata : List (String × String)

structure ObjectHead where
  sizeBytes : Nat
  sha256 : String
  deriving DecidableEq

inductive TransferError where
  | objectIntegrityError (text : String)
  /-- Whatever a store or the database raises. -/
  | raised (text : String)

/-- What happens to the calls made for one object. A write stores the object or raises and leaves
something; an update is done or raises, and may be done then too. -/
structure ObjectReplies where
  read : Except String ByteArray
  write : Option (String × Option BucketObject)
  head : Except String ObjectHead
  update : Option (String × Bool)

/-- The rows of an organization and the objects of each backend. -/
structure TransferWorld where
  rows : List (ArtifactRow UtcDateTime)
  keys : (rows.map (·.storageKey)).Nodup
  objects : String → String → Option BucketObject

namespace TransferWorld
variable (w : TransferWorld)

def byRun (runId : String) : List (ArtifactRow UtcDateTime) :=
  (w.rows.filter (·.runId = runId)).mergeSort fun a b => a.storageKey ≤ b.storageKey

/-- A row with the key moved to a backend. -/
def moved (storageKey storageBackend : String) (row : ArtifactRow UtcDateTime) :
    ArtifactRow UtcDateTime :=
  if row.storageKey = storageKey then { row with storageBackend } else row

@[simp] theorem moved_storageKey (storageKey storageBackend : String)
    (row : ArtifactRow UtcDateTime) :
    (moved storageKey storageBackend row).storageKey = row.storageKey := by
  rw [moved]
  split <;> rfl

def setStorageBackend (storageKey storageBackend : String) : TransferWorld where
  rows := w.rows.map (moved storageKey storageBackend)
  keys := by
    have hsame : ((fun row : ArtifactRow UtcDateTime => row.storageKey)
        ∘ moved storageKey storageBackend) = fun row => row.storageKey := by
      funext row
      exact moved_storageKey storageKey storageBackend row
    rw [List.map_map, hsame]
    exact w.keys
  objects := w.objects

/-- What a backend holds under a key, after a write or whatever a failed write left. -/
def leave (backend key : String) (object : Option BucketObject) : TransferWorld where
  rows := w.rows
  keys := w.keys
  objects b k := if b = backend ∧ k = key then object else w.objects b k

end TransferWorld

section Transfer
variable (hexdigest : ByteArray → String) (source destination : String)

/-- The row names a backend that holds bytes with the recorded hash. -/
def NamesBytes (w : TransferWorld) (row : ArtifactRow UtcDateTime) : Prop :=
  ∃ object, w.objects row.storageBackend row.storageKey = some object
    ∧ ∀ digest ∈ row.sha256, digest ≠ "" → hexdigest object.bytes = digest

/-- The bytes of an object, read and checked. -/
def readChecked (row : ArtifactRow UtcDateTime) (replies : ObjectReplies) :
    Except TransferError ByteArray :=
  match replies.read with
  | .error text => .error (.raised text)
  | .ok data =>
      if row.sha256.getD "" ≠ "" ∧ hexdigest data ≠ row.sha256.getD "" then
        .error (.objectIntegrityError
          ("checksum da origem diverge para " ++ PyStr.repr row.storageKey))
      else .ok data

/-- The object that is written for a row. -/
def transferred (row : ArtifactRow UtcDateTime) (data : ByteArray) : BucketObject where
  bytes := data
  contentType := if row.contentType.getD "" = "" then "application/octet-stream"
    else row.contentType.getD ""
  metadata := [("sha256", hexdigest data), ("run-id", row.runId), ("artifact-id", row.id),
    ("source-backend", source)]

/-- The error of the look at the destination, when it does not show what was written. -/
def headError (row : ArtifactRow UtcDateTime) (data : ByteArray) (replies : ObjectReplies) :
    Option TransferError :=
  match replies.head with
  | .error text => some (.raised text)
  | .ok head =>
      if head.sizeBytes ≠ data.size ∨ head.sha256 ≠ hexdigest data then
        some (.objectIntegrityError
          ("verificação do destino diverge para " ++ PyStr.repr row.storageKey))
      else none

/-- The copy of one object. -/
def migrateObject (row : ArtifactRow UtcDateTime) (replies : ObjectReplies) (w : TransferWorld) :
    TransferWorld × Except TransferError Unit :=
  match readChecked hexdigest row replies with
  | .error exc => (w, .error exc)
  | .ok data =>
      match replies.write with
      | some (text, left) => (w.leave destination row.storageKey left, .error (.raised text))
      | none =>
          let written :=
            w.leave destination row.storageKey (some (transferred hexdigest source row data))
          match headError hexdigest row data replies with
          | some exc => (written, .error exc)
          | none =>
              match replies.update with
              | none => (written.setStorageBackend row.storageKey destination, .ok ())
              | some (text, true) =>
                  (written.setStorageBackend row.storageKey destination, .error (.raised text))
              | some (text, false) => (written, .error (.raised text))

/-- Every call for an object does what it is for: the bytes read have the recorded hash, they are
written, the destination shows them and the row is updated. -/
def ObjectReplies.Good (row : ArtifactRow UtcDateTime) (replies : ObjectReplies) : Prop :=
  ∃ data, replies.read = .ok data ∧ (∀ digest ∈ row.sha256, digest ≠ "" → hexdigest data = digest) ∧
    replies.write = none ∧ replies.head = .ok ⟨data.size, hexdigest data⟩ ∧ replies.update = none

/-- What a migration leaves: the world, the keys it copied and skipped so far, and what stopped
it. The keys are reported only when nothing did. -/
structure Migration where
  world : TransferWorld
  copied : List String
  skipped : List String
  stopped : Option TransferError

/-- The loop over the artifacts. -/
def migrateFrom (replies : String → ObjectReplies) :
    List (ArtifactRow UtcDateTime) → TransferWorld → Migration
  | [], w => ⟨w, [], [], none⟩
  | row :: rest, w =>
      if row.storageBackend ≠ source then
        let m := migrateFrom replies rest w
        { m with skipped := row.storageKey :: m.skipped }
      else
        match migrateObject hexdigest source destination row (replies row.storageKey) w with
        | (w', .error exc) => ⟨w', [], [], some exc⟩
        | (w', .ok ()) =>
            let m := migrateFrom replies rest w'
            { m with copied := row.storageKey :: m.copied }

/-- `migrate_run_objects`; each object has its replies. -/
def migrateRunObjects (runId : String) (replies : String → ObjectReplies) (w : TransferWorld) :
    Migration :=
  migrateFrom hexdigest source destination replies (w.byRun runId) w

/-- The keys of the artifacts that are still at the source, in the order of the loop. -/
def pendingKeys (rows : List (ArtifactRow UtcDateTime)) : List String :=
  (rows.filter (·.storageBackend = source)).map (·.storageKey)

/-- Every call that is made for a pending artifact of the run does what it is for. -/
def AllGood (runId : String) (replies : String → ObjectReplies) (w : TransferWorld) : Prop :=
  ∀ row ∈ w.byRun runId, row.storageBackend = source →
    (replies row.storageKey).Good hexdigest row

/-- Every row that named bytes before names bytes after. -/
def Kept (w w' : TransferWorld) : Prop :=
  ∀ row ∈ w.rows, NamesBytes hexdigest w row →
    ∀ row' ∈ w'.rows, row'.storageKey = row.storageKey → NamesBytes hexdigest w' row'

end Transfer

namespace TransferWorld

theorem eq_of_key {w : TransferWorld} {row row' : ArtifactRow UtcDateTime}
    (hrow : row ∈ w.rows) (hrow' : row' ∈ w.rows) (hkey : row.storageKey = row'.storageKey) :
    row = row' :=
  List.inj_on_of_nodup_map w.keys hrow hrow' hkey

theorem moved_of_ne {key backend : String} {row : ArtifactRow UtcDateTime}
    (hne : row.storageKey ≠ key) : moved key backend row = row := by
  rw [moved, if_neg hne]

theorem moved_of_eq {key backend : String} {row : ArtifactRow UtcDateTime}
    (heq : row.storageKey = key) :
    moved key backend row = { row with storageBackend := backend } := by
  rw [moved, if_pos heq]

/-- The rows of a run are read in the same order after changes that keep their runs and keys. -/
theorem byRun_map {w w' : TransferWorld}
    {change : ArtifactRow UtcDateTime → ArtifactRow UtcDateTime}
    (hrows : w'.rows = w.rows.map change) (hrun : ∀ row, (change row).runId = row.runId)
    (hkey : ∀ row, (change row).storageKey = row.storageKey) (runId : String) :
    w'.byRun runId = (w.byRun runId).map change := by
  have hsame : ((fun row : ArtifactRow UtcDateTime => decide (row.runId = runId)) ∘ change)
      = fun row => decide (row.runId = runId) := by
    funext row
    rw [Function.comp_apply, hrun]
  rw [byRun, byRun, hrows, List.filter_map, hsame]
  refine (List.map_mergeSort ?_).symm
  intro a _ b _
  rw [hkey, hkey]

theorem nodup_byRun (w : TransferWorld) (runId : String) :
    ((w.byRun runId).map (·.storageKey)).Nodup :=
  (((List.mergeSort_perm _ _).map _).nodup_iff).mpr
    (w.keys.sublist ((List.filter_sublist).map _))

theorem mem_of_mem_byRun {w : TransferWorld} {runId : String} {row : ArtifactRow UtcDateTime}
    (hrow : row ∈ w.byRun runId) : row ∈ w.rows :=
  List.mem_of_mem_filter (List.mem_mergeSort.mp hrow)

end TransferWorld

section Transfer
variable {hexdigest : ByteArray → String} {source destination : String}
open TransferWorld

/-- What a write leaves under the key of a row that is elsewhere is named by no row. -/
theorem kept_leave {w : TransferWorld} {row : ArtifactRow UtcDateTime} (hrow : row ∈ w.rows)
    (helsewhere : row.storageBackend ≠ destination) (left : Option BucketObject) :
    Kept hexdigest w (w.leave destination row.storageKey left) := by
  intro r hr ⟨object, hobject, hdigest⟩ r' hr' hkey
  obtain rfl := eq_of_key hr' hr hkey
  refine ⟨object, ?_, hdigest⟩
  have hother : ¬ (r'.storageBackend = destination ∧ r'.storageKey = row.storageKey) := by
    rintro ⟨hbackend, hsame⟩
    obtain rfl := eq_of_key hr' hrow hsame
    exact helsewhere hbackend
  simp only [leave, if_neg hother, hobject]

theorem digest_of_readChecked {row : ArtifactRow UtcDateTime} {replies : ObjectReplies}
    {data : ByteArray} (hread : readChecked hexdigest row replies = .ok data) :
    ∀ digest ∈ row.sha256, digest ≠ "" → hexdigest data = digest := by
  intro digest hdigest hne
  rw [readChecked] at hread
  split at hread
  · cases hread
  · split at hread
    · cases hread
    · rename_i hchecked
      cases hread
      rw [Option.mem_def] at hdigest
      simp only [hdigest, Option.getD_some, not_and, not_not] at hchecked
      exact hchecked hne

/-- A row that moves to the bytes it was checked against names them. -/
theorem kept_switched {w : TransferWorld} {row : ArtifactRow UtcDateTime} (hrow : row ∈ w.rows)
    {replies : ObjectReplies} {data : ByteArray}
    (hread : readChecked hexdigest row replies = .ok data) :
    Kept hexdigest w ((w.leave destination row.storageKey
      (some (transferred hexdigest source row data))).setStorageBackend
        row.storageKey destination) := by
  intro r hr ⟨object, hobject, hdigest⟩ r' hr' hkey
  obtain ⟨s, hs, rfl⟩ := List.mem_map.mp hr'
  rw [moved_storageKey] at hkey
  obtain rfl := eq_of_key hs hr hkey
  by_cases hsame : s.storageKey = row.storageKey
  · obtain rfl := eq_of_key hs hrow hsame
    rw [moved_of_eq rfl]
    exact ⟨transferred hexdigest source s data, if_pos ⟨rfl, rfl⟩, digest_of_readChecked hread⟩
  · rw [moved_of_ne hsame]
    refine ⟨object, ?_, hdigest⟩
    have hother : ¬ (s.storageBackend = destination ∧ s.storageKey = row.storageKey) :=
      fun h => hsame h.2
    simp only [setStorageBackend, leave, if_neg hother, hobject]

/-- What the copy of one object can do. It leaves the rows alone and fails, or it has written the
checked bytes and moved the row. -/
theorem migrateObject_cases (row : ArtifactRow UtcDateTime) (replies : ObjectReplies)
    (w : TransferWorld) :
    (∃ exc, migrateObject hexdigest source destination row replies w = (w, .error exc)) ∨
    (∃ left exc, migrateObject hexdigest source destination row replies w
      = (w.leave destination row.storageKey left, .error exc)) ∨
    (∃ data done, readChecked hexdigest row replies = .ok data ∧
      migrateObject hexdigest source destination row replies w
        = ((w.leave destination row.storageKey
            (some (transferred hexdigest source row data))).setStorageBackend
              row.storageKey destination, done)) := by
  cases hread : readChecked hexdigest row replies with
  | error exc =>
      refine .inl ⟨exc, ?_⟩
      simp only [migrateObject, hread]
  | ok data =>
      cases hwrite : replies.write with
      | some failure =>
          refine .inr (.inl ⟨failure.2, .raised failure.1, ?_⟩)
          simp only [migrateObject, hread, hwrite]
      | none =>
          cases hhead : headError hexdigest row data replies with
          | some exc =>
              refine .inr (.inl ⟨some (transferred hexdigest source row data), exc, ?_⟩)
              simp only [migrateObject, hread, hwrite, hhead]
          | none =>
              match hupdate : replies.update with
              | none =>
                  refine .inr (.inr ⟨data, .ok (), rfl, ?_⟩)
                  simp only [migrateObject, hread, hwrite, hhead, hupdate]
              | some (text, true) =>
                  refine .inr (.inr ⟨data, .error (.raised text), rfl, ?_⟩)
                  simp only [migrateObject, hread, hwrite, hhead, hupdate]
              | some (text, false) =>
                  refine .inr (.inl ⟨some (transferred hexdigest source row data),
                    .raised text, ?_⟩)
                  simp only [migrateObject, hread, hwrite, hhead, hupdate]

theorem Kept.refl (w : TransferWorld) : Kept hexdigest w w := by
  intro row hrow hnames row' hrow' hkey
  rwa [eq_of_key hrow' hrow hkey]

theorem Kept.trans {w w' w'' : TransferWorld} (h : Kept hexdigest w w')
    (h' : Kept hexdigest w' w'')
    (hkeys : ∀ row ∈ w''.rows, ∃ row' ∈ w'.rows, row'.storageKey = row.storageKey) :
    Kept hexdigest w w'' := by
  intro row hrow hnames row'' hrow'' hkey
  obtain ⟨row', hrow', hkey'⟩ := hkeys row'' hrow''
  exact h' row' hrow' (h row hrow hnames row' hrow' (hkey'.trans hkey)) row'' hrow'' hkey'.symm

/-- The rows whose keys are given name the destination. -/
def switched (destination : String) (keys : List String) (row : ArtifactRow UtcDateTime) :
    ArtifactRow UtcDateTime :=
  if row.storageKey ∈ keys then { row with storageBackend := destination } else row

@[simp] theorem switched_storageKey (keys : List String) (row : ArtifactRow UtcDateTime) :
    (switched destination keys row).storageKey = row.storageKey := by
  rw [switched]
  split <;> rfl

@[simp] theorem switched_runId (keys : List String) (row : ArtifactRow UtcDateTime) :
    (switched destination keys row).runId = row.runId := by
  rw [switched]
  split <;> rfl

theorem switched_nil (row : ArtifactRow UtcDateTime) : switched destination [] row = row :=
  if_neg List.not_mem_nil

theorem switched_moved (key : String) (keys : List String) (row : ArtifactRow UtcDateTime) :
    switched destination keys (moved key destination row)
      = switched destination (key :: keys) row := by
  by_cases hkey : row.storageKey = key
  · subst hkey
    have hmem : row.storageKey ∈ row.storageKey :: keys := List.mem_cons_self
    rw [moved_of_eq rfl, switched, switched, if_pos hmem]
    split <;> rfl
  · rw [moved_of_ne hkey, switched, switched]
    simp only [List.mem_cons, hkey, false_or]

theorem pendingKeys_cons (row : ArtifactRow UtcDateTime) (rows : List (ArtifactRow UtcDateTime)) :
    pendingKeys source (row :: rows) = if row.storageBackend = source
      then row.storageKey :: pendingKeys source rows else pendingKeys source rows := by
  rw [pendingKeys, List.filter_cons]
  split
  · rename_i hsource
    rw [if_pos (of_decide_eq_true hsource)]
    rfl
  · rename_i helsewhere
    rw [if_neg (fun h => helsewhere (decide_eq_true h))]
    rfl

/-- What a migration did: it moved the artifacts of a prefix of the pending ones, all of them when
nothing stopped it, and it reports no other. -/
def Progress (destination : String) (w : TransferWorld) (pending : List String)
    (m : Migration) : Prop :=
  ∃ done, done <+: pending ∧ m.copied <+: done
    ∧ m.world.rows = w.rows.map (switched destination done)
    ∧ (m.stopped = none → done = pending ∧ m.copied = pending)

theorem Progress.nothing (w : TransferWorld) (pending : List String) (w' : TransferWorld)
    (exc : TransferError) (hrows : w'.rows = w.rows) :
    Progress destination w pending ⟨w', [], [], some exc⟩ := by
  refine ⟨[], List.nil_prefix, List.nil_prefix, ?_, ?_⟩
  · rw [hrows, funext switched_nil, List.map_id']
  · intro h
    cases h

theorem map_switched_moved (key : String) (keys : List String)
    (rows : List (ArtifactRow UtcDateTime)) :
    (rows.map (moved key destination)).map (switched destination keys)
      = rows.map (switched destination (key :: keys)) := by
  rw [List.map_map]
  exact List.map_congr_left fun row _ => switched_moved key keys row

theorem Progress.first {w next : TransferWorld} {key : String} (pending : List String)
    (hnext : next.rows = w.rows.map (moved key destination)) (exc : TransferError) :
    Progress destination w (key :: pending) ⟨next, [], [], some exc⟩ := by
  refine ⟨[key], ⟨pending, rfl⟩, List.nil_prefix, ?_, ?_⟩
  · rw [← map_switched_moved, ← hnext, funext switched_nil, List.map_id']
  · intro h
    cases h

theorem Progress.cons {w next : TransferWorld} {key : String} {pending : List String}
    {m : Migration} (hnext : next.rows = w.rows.map (moved key destination))
    (h : Progress destination next pending m) :
    Progress destination w (key :: pending) { m with copied := key :: m.copied } := by
  obtain ⟨done, hdone, hcopied, hrows, hall⟩ := h
  refine ⟨key :: done, List.prefix_cons_inj key |>.mpr hdone,
    List.prefix_cons_inj key |>.mpr hcopied, ?_, ?_⟩
  · rw [hrows, hnext, map_switched_moved]
  · intro hstopped
    obtain ⟨rfl, hsame⟩ := hall hstopped
    exact ⟨rfl, congrArg (key :: ·) hsame⟩

theorem Progress.rows_of_keys {w : TransferWorld} {pending : List String} {m : Migration}
    (h : Progress destination w pending m) (row : ArtifactRow UtcDateTime)
    (hrow : row ∈ m.world.rows) : ∃ row' ∈ w.rows, row'.storageKey = row.storageKey := by
  obtain ⟨done, _, _, hrows, _⟩ := h
  rw [hrows] at hrow
  obtain ⟨row', hrow', rfl⟩ := List.mem_map.mp hrow
  exact ⟨row', hrow', (switched_storageKey done row').symm⟩

/-- The loop over artifacts whose rows have not changed since they were read. -/
theorem migrateFrom_spec (replies : String → ObjectReplies) (hapart : source ≠ destination)
    (rows : List (ArtifactRow UtcDateTime)) (w : TransferWorld)
    (hread : ∀ row ∈ rows, row ∈ w.rows) (hkeys : (rows.map (·.storageKey)).Nodup) :
    Kept hexdigest w (migrateFrom hexdigest source destination replies rows w).world ∧
    Progress destination w (pendingKeys source rows)
      (migrateFrom hexdigest source destination replies rows w) := by
  induction rows generalizing w with
  | nil =>
      refine ⟨Kept.refl w, [], List.nil_prefix, List.nil_prefix, ?_, fun _ => ⟨rfl, rfl⟩⟩
      rw [migrateFrom, funext switched_nil, List.map_id']
  | cons row rest ih =>
      rw [List.map_cons, List.nodup_cons] at hkeys
      have hrow : row ∈ w.rows := hread row List.mem_cons_self
      have hrest : ∀ r ∈ rest, r ∈ w.rows := fun r hr => hread r (List.mem_cons_of_mem row hr)
      by_cases hsource : row.storageBackend = source
      · rw [pendingKeys_cons, if_pos hsource]
        have hstill : row.storageBackend ≠ destination := hsource ▸ hapart
        obtain ⟨exc, hstep⟩ | ⟨left, exc, hstep⟩ | ⟨data, outcome, hchecked, hstep⟩ :=
          @migrateObject_cases hexdigest source destination row (replies row.storageKey) w
        · simp only [migrateFrom, hsource, hstep, ne_eq, not_true_eq_false, if_false]
          exact ⟨Kept.refl w, Progress.nothing w _ w exc rfl⟩
        · simp only [migrateFrom, hsource, hstep, ne_eq, not_true_eq_false, if_false]
          exact ⟨kept_leave hrow hstill left, Progress.nothing w _ _ exc rfl⟩
        · have hmoved := @kept_switched hexdigest source destination w row hrow _ _ hchecked
          cases outcome with
          | error exc =>
              simp only [migrateFrom, hsource, hstep, ne_eq, not_true_eq_false, if_false]
              exact ⟨hmoved, Progress.first _ rfl exc⟩
          | ok _ =>
              simp only [migrateFrom, hsource, hstep, ne_eq, not_true_eq_false, if_false]
              -- the other artifacts of the snapshot have other keys
              have hunmoved : ∀ r ∈ rest, r ∈ w.rows.map (moved row.storageKey destination) := by
                intro r hr
                refine List.mem_map.mpr ⟨r, hrest r hr, moved_of_ne ?_⟩
                intro hsame
                exact hkeys.1 (List.mem_map.mpr ⟨r, hr, hsame⟩)
              obtain ⟨hkept, hprogress⟩ := ih ((w.leave destination row.storageKey
                (some (transferred hexdigest source row data))).setStorageBackend
                  row.storageKey destination) hunmoved hkeys.2
              exact ⟨hmoved.trans hkept hprogress.rows_of_keys, Progress.cons rfl hprogress⟩
      · rw [pendingKeys_cons, if_neg hsource]
        simp only [migrateFrom, hsource, ne_eq, not_false_eq_true, if_true]
        obtain ⟨hkept, done, hdone⟩ := ih w hrest hkeys.2
        exact ⟨hkept, done, hdone⟩

theorem pendingKeys_switched (hapart : source ≠ destination) (done : List String)
    (rows : List (ArtifactRow UtcDateTime)) :
    pendingKeys source (rows.map (switched destination done))
      = (pendingKeys source rows).filter (· ∉ done) := by
  induction rows with
  | nil => rfl
  | cons row rest ih =>
      rw [List.map_cons, pendingKeys_cons, pendingKeys_cons, ih, switched_storageKey]
      by_cases hdone : row.storageKey ∈ done
      · have hleft : (switched destination done row).storageBackend ≠ source := by
          rw [switched, if_pos hdone]
          exact hapart.symm
        rw [if_neg hleft]
        split
        · rw [List.filter_cons_of_neg (by simpa using hdone)]
        · rfl
      · rw [switched, if_neg hdone]
        split
        · rw [List.filter_cons_of_pos (by simpa using hdone)]
        · rfl

theorem append_filter_not_mem {done all : List String} (hfront : done <+: all)
    (hnodup : all.Nodup) : done ++ all.filter (· ∉ done) = all := by
  obtain ⟨rest, rfl⟩ := hfront
  have hdisjoint := (List.nodup_append'.mp hnodup).2.2
  have hdone : done.filter (· ∉ done) = [] := List.filter_eq_nil_iff.mpr (by simp)
  have hrest : rest.filter (· ∉ done) = rest := by
    refine List.filter_eq_self.mpr fun key hkey => ?_
    exact decide_eq_true fun h => hdisjoint h hkey
  rw [List.filter_append, hdone, hrest, List.nil_append]

theorem migrateRunObjects_spec (replies : String → ObjectReplies) (hapart : source ≠ destination)
    (runId : String) (w : TransferWorld) :
    Kept hexdigest w (migrateRunObjects hexdigest source destination runId replies w).world ∧
    Progress destination w (pendingKeys source (w.byRun runId))
      (migrateRunObjects hexdigest source destination runId replies w) :=
  migrateFrom_spec replies hapart (w.byRun runId) w (fun _ => mem_of_mem_byRun)
    (w.nodup_byRun runId)

/-- A migration of a run without pending artifacts copies nothing and is not stopped. -/
theorem migrateFrom_of_none_pending (replies : String → ObjectReplies)
    (rows : List (ArtifactRow UtcDateTime)) (w : TransferWorld)
    (hnone : pendingKeys source rows = []) :
    (migrateFrom hexdigest source destination replies rows w).copied = [] ∧
    (migrateFrom hexdigest source destination replies rows w).stopped = none := by
  induction rows with
  | nil => exact ⟨rfl, rfl⟩
  | cons row rest ih =>
      rw [pendingKeys_cons] at hnone
      by_cases hsource : row.storageBackend = source
      · rw [if_pos hsource] at hnone
        cases hnone
      · rw [if_neg hsource] at hnone
        simp only [migrateFrom, hsource, ne_eq, not_false_eq_true, if_true]
        exact ih hnone

theorem migrateObject_of_good {row : ArtifactRow UtcDateTime} {replies : ObjectReplies}
    (hgood : replies.Good hexdigest row) (w : TransferWorld) :
    (migrateObject hexdigest source destination row replies w).2 = .ok () := by
  obtain ⟨data, hread, hdigest, hwrite, hhead, hupdate⟩ := hgood
  have hsame : row.sha256.getD "" ≠ "" → hexdigest data = row.sha256.getD "" := by
    intro hrecorded
    cases hsha : row.sha256 with
    | none => exact absurd (by rw [hsha]; rfl) hrecorded
    | some digest => exact hdigest digest hsha fun hempty => hrecorded (by rw [hsha, hempty]; rfl)
  have hchecked : readChecked hexdigest row replies = .ok data := by
    rw [readChecked, hread]
    exact if_neg fun h => h.2 (hsame h.1)
  have hshown : headError hexdigest row data replies = none := by
    simp [headError, hhead]
  simp only [migrateObject, hchecked, hwrite, hshown, hupdate]

/-- Nothing stops a loop whose calls all do what they are for. -/
theorem migrateFrom_of_good {replies : String → ObjectReplies}
    (rows : List (ArtifactRow UtcDateTime)) (w : TransferWorld)
    (hgood : ∀ row ∈ rows, row.storageBackend = source →
      (replies row.storageKey).Good hexdigest row) :
    (migrateFrom hexdigest source destination replies rows w).stopped = none := by
  induction rows generalizing w with
  | nil => rfl
  | cons row rest ih =>
      have hrest := fun r hr => hgood r (List.mem_cons_of_mem row hr)
      by_cases hsource : row.storageBackend = source
      · have hdone : (migrateObject hexdigest source destination row (replies row.storageKey) w).2 =
            .ok () := migrateObject_of_good (hgood row List.mem_cons_self hsource) w
        simp only [migrateFrom, hsource, ne_eq, not_true_eq_false, if_false]
        split
        · rename_i hfailed
          rw [hfailed] at hdone
          cases hdone
        · exact ih _ hrest
      · simp only [migrateFrom, hsource, ne_eq, not_false_eq_true, if_true]
        exact ih w hrest

/-- Wherever a migration stops, each artifact that named valid bytes names valid bytes, and the
artifacts that it has moved are the first of the pending ones: all of them when nothing stopped it,
and nothing does when every call does what it is for. A migration after it copies exactly those that
are left, which are none in that case, and it ends when every call does what it is for. -/
theorem migration_restartable (hapart : source ≠ destination) (runId : String)
    (replies : String → ObjectReplies) (w : TransferWorld) :
    let m := migrateRunObjects hexdigest source destination runId replies w
    Kept hexdigest w m.world ∧
    (∃ done, m.copied <+: done ∧ m.world.rows = w.rows.map (switched destination done) ∧
      done ++ pendingKeys source (m.world.byRun runId) = pendingKeys source (w.byRun runId) ∧
      (m.stopped = none → done = pendingKeys source (w.byRun runId) ∧ m.copied = done)) ∧
    (AllGood hexdigest source runId replies w → m.stopped = none) ∧
    ∀ again, let n := migrateRunObjects hexdigest source destination runId again m.world
      (n.stopped = none → n.copied = pendingKeys source (m.world.byRun runId)) ∧
      (m.stopped = none → n.copied = [] ∧ n.stopped = none) ∧
      (AllGood hexdigest source runId again m.world → n.stopped = none) := by
  intro m
  obtain ⟨hkept, done, hdone, hcopied, hrows, hall⟩ :=
    @migrateRunObjects_spec hexdigest source destination replies hapart runId w
  have hread : m.world.byRun runId = (w.byRun runId).map (switched destination done) :=
    byRun_map hrows (switched_runId done) (switched_storageKey done) runId
  have hnodup : (pendingKeys source (w.byRun runId)).Nodup :=
    (w.nodup_byRun runId).sublist ((List.filter_sublist).map _)
  have hleft : done ++ pendingKeys source (m.world.byRun runId)
      = pendingKeys source (w.byRun runId) := by
    rw [hread, pendingKeys_switched hapart, append_filter_not_mem hdone hnodup]
  refine ⟨hkept, ⟨done, hcopied, hrows, hleft, fun h => ⟨(hall h).1, ?_⟩⟩,
    migrateFrom_of_good _ w, ?_⟩
  · rw [(hall h).1]
    exact (hall h).2
  intro again n
  obtain ⟨_, _, _, _, _, hagain⟩ :=
    @migrateRunObjects_spec hexdigest source destination again hapart runId m.world
  refine ⟨fun h => (hagain h).2, ?_, migrateFrom_of_good _ m.world⟩
  intro hstopped
  rw [(hall hstopped).1] at hleft
  exact migrateFrom_of_none_pending again (m.world.byRun runId) m.world
    (List.append_right_eq_self.mp hleft)

/-- The SHA-256 of the bytes of one object. -/
def portableDigest (data : ByteArray) : String :=
  if data.data = "portable-video".toUTF8.data then
    "5b3fb4ce2b97a4a7f7d743c7a94dcf37e7a24e66204d41262f731c1fc25e7f81" else ""

/-- An object in R2 and its row. -/
def portableWorld : TransferWorld where
  rows := [{
    id := "artifact-1", runId := "run-1", itemId := some "item-1", creatorId := none,
    kind := "assembled", storageBackend := "r2", storageKey := "acme/run-1/final.mp4",
    contentType := some "video/mp4", sizeBytes := some 14,
    sha256 := some (portableDigest "portable-video".toUTF8), sourceUri := none,
    retentionClass := "keep", expiresAt := none, metadata := .obj [] }]
  keys := List.nodup_singleton _
  objects backend key :=
    if backend = "r2" ∧ key = "acme/run-1/final.mp4" then
      some ⟨"portable-video".toUTF8, "video/mp4", []⟩
    else none

/-- The copy is made and its row is not updated. -/
def lostUpdate (_ : String) : ObjectReplies where
  read := .ok "portable-video".toUTF8
  write := none
  head := .ok ⟨14, portableDigest "portable-video".toUTF8⟩
  update := some ("connection lost", false)

theorem portable_names_bytes :
    ∀ row ∈ portableWorld.rows, NamesBytes portableDigest portableWorld row := by
  intro row hrow
  rw [List.mem_singleton.mp hrow]
  refine ⟨⟨"portable-video".toUTF8, "video/mp4", []⟩, rfl, ?_⟩
  intro digest hdigest _
  exact Option.some.inj hdigest

/-- Every call does what it is for. -/
def goodReplies (_ : String) : ObjectReplies where
  read := .ok "portable-video".toUTF8
  write := none
  head := .ok ⟨14, portableDigest "portable-video".toUTF8⟩
  update := none

theorem portable_byRun : portableWorld.byRun "run-1" = portableWorld.rows := by
  simp [byRun, portableWorld]

theorem lostUpdate_rows :
    (migrateRunObjects portableDigest "r2" "s3" "run-1" lostUpdate portableWorld).world.rows =
      portableWorld.rows := by
  have hsize : "portable-video".utf8ByteSize = 14 := rfl
  simp [migrateRunObjects, byRun, portableWorld, migrateFrom, migrateObject, readChecked,
    lostUpdate, headError, leave, hsize]

theorem goodReplies_allGood {w : TransferWorld} (hrows : w.rows = portableWorld.rows) :
    AllGood portableDigest "r2" "run-1" goodReplies w := by
  intro row hrow _
  have hmem : row ∈ portableWorld.rows := hrows ▸ mem_of_mem_byRun hrow
  rw [List.mem_singleton.mp hmem]
  exact ⟨"portable-video".toUTF8, rfl, fun _ hdigest _ => Option.some.inj hdigest, rfl, rfl, rfl⟩

/-- The first migration leaves the row with the source, the second one finishes. -/
theorem migration_restartable_after_lost_update :
    let m := migrateRunObjects portableDigest "r2" "s3" "run-1" lostUpdate portableWorld
    let n := migrateRunObjects portableDigest "r2" "s3" "run-1" goodReplies m.world
    (∀ row ∈ m.world.rows, NamesBytes portableDigest m.world row) ∧
    n.stopped = none ∧ n.copied = ["acme/run-1/final.mp4"] ∧
    n.world.rows.map (·.storageBackend) = ["s3"] := by
  intro m n
  have hapart : "r2" ≠ "s3" := by decide
  obtain ⟨hkept, ⟨done, -, hrows, -⟩, -, hagain⟩ := @migration_restartable portableDigest _ _
    hapart "run-1" lostUpdate portableWorld
  obtain ⟨-, ⟨again, -, hrows', -, hall⟩, hfinishes, -⟩ := @migration_restartable portableDigest _ _
    hapart "run-1" goodReplies m.world
  have hsame : m.world.rows = portableWorld.rows := lostUpdate_rows
  have hpending : pendingKeys "r2" (m.world.byRun "run-1") = ["acme/run-1/final.mp4"] := by
    rw [byRun, hsame]
    exact congrArg (pendingKeys "r2") portable_byRun
  have hended := hfinishes (goodReplies_allGood hsame)
  obtain ⟨rfl, -⟩ := hall hended
  refine ⟨?_, hended, ((hagain goodReplies).1 hended).trans hpending, ?_⟩
  · intro row' hrow'
    obtain ⟨row, hrow, rfl⟩ := List.mem_map.mp (hrows ▸ hrow')
    exact hkept row hrow (portable_names_bytes row hrow) _ hrow' (switched_storageKey done row)
  · rw [hrows', hsame, hpending]
    rfl

end Transfer

end Orchestrator
