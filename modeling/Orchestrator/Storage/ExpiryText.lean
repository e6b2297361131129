import Orchestrator.Lib.IsoTime
import Orchestrator.Lib.Json
import Orchestrator.Storage.Retention

/-!
Which artifacts are expired, as the two artifact repositories select them.

SQLite keeps the expiry as the text of its datetime and compares texts; the
columns of PostgreSQL are instants. The two select the same artifacts because
the texts of UTC datetimes are ordered as their instants. What the purge reads of a
row is its record, whose expiry is that instant.
-/

namespace Orchestrator
open IsoTime

/-- A row of `artifacts` whose expiry is kept as `τ`. -/
structure ArtifactRow (τ : Type) where
  id : String
  runId : String
  itemId : Option String
  creatorId : Option String
  kind : String
  storageBackend : String
  storageKey : String
  contentType : Option String
  sizeBytes : Option Nat
  sha256 : Option String
  sourceUri : Option String
  retentionClass : String
  expiresAt : Option τ
  metadata : Json

namespace ArtifactRow

def written (row : ArtifactRow UtcDateTime) : ArtifactRow String :=
  { row with expiresAt := row.expiresAt.map (·.isoformat) }

/-- The expiry is at or before `now`; a row without one is kept. -/
def due (now : UtcDateTime) (row : ArtifactRow UtcDateTime) : Bool :=
  row.expiresAt.any fun expiry => expiry.instant ≤ now.instant

/-- `ArtifactDB.expired`. -/
def sqliteExpired (rows : List (ArtifactRow String)) (now : UtcDateTime) :
    List (ArtifactRow String) :=
  (rows.filter fun row => row.expiresAt.any (· ≤ now.isoformat)).mergeSort
    fun a b => a.storageKey ≤ b.storageKey

/-- `PostgresArtifactRepository.expired`; the keys are ordered by the collation of the database. -/
def postgresExpired (collate : String → String → Bool) (rows : List (ArtifactRow UtcDateTime))
    (now : UtcDateTime) : List (ArtifactRow String) :=
  ((rows.filter (due now)).mergeSort fun a b => collate a.storageKey b.storageKey).map written

theorem due_iff (now : UtcDateTime) (row : ArtifactRow UtcDateTime) :
    (row.written.expiresAt.any fun text => text ≤ now.isoformat) = due now row := by
  rw [due, written, Option.any_map]
  refine congrArg (Option.any · row.expiresAt) ?_
  funext expiry
  exact decide_eq_decide.mpr UtcDateTime.isoformat_le_iff

theorem filter_written (now : UtcDateTime) (rows : List (ArtifactRow UtcDateTime)) :
    ((rows.map written).filter fun row => row.expiresAt.any (· ≤ now.isoformat))
      = (rows.filter (due now)).map written := by
  induction rows with
  | nil => rfl
  | cons row rows ih =>
      rw [List.map_cons, List.filter_cons, List.filter_cons, due_iff, ih]
      split <;> rfl

/-- What a purge reads of the row. -/
def record (row : ArtifactRow UtcDateTime) : ArtifactRecord where
  runId := row.runId
  storageBackend := row.storageBackend
  storageKey := row.storageKey
  retentionClass := row.retentionClass
  expiresAt := row.expiresAt.map UtcDateTime.instant

def selected (rows : List (ArtifactRow UtcDateTime)) (now : UtcDateTime) :
    List (ArtifactRow UtcDateTime) :=
  (rows.filter (due now)).mergeSort fun a b => a.storageKey ≤ b.storageKey

theorem sqliteExpired_written (rows : List (ArtifactRow UtcDateTime)) (now : UtcDateTime) :
    sqliteExpired (rows.map written) now = (selected rows now).map written := by
  rw [sqliteExpired, filter_written, selected]
  exact (List.map_mergeSort (f := written) fun _ _ _ _ => rfl).symm

theorem filter_record (now : UtcDateTime) (rows : List (ArtifactRow UtcDateTime)) :
    ((rows.map record).filter fun r => r.expiresAt.any (· ≤ now.instant))
      = (rows.filter (due now)).map record := by
  rw [List.filter_map]
  refine congrArg (List.map record) (List.filter_congr fun row _ => ?_)
  rw [Function.comp_apply, record, due, Option.any_map]

/-- The snapshot of a purge holds the records of the artifacts that the text comparison selects,
in the same order. -/
theorem expired_records {digest : String → String} (db : ArtifactDB digest)
    {rows : List (ArtifactRow UtcDateTime)} (hrows : db.rows = rows.map record)
    (now : UtcDateTime) :
    db.expired now.instant = (selected rows now).map record ∧
      sqliteExpired (rows.map written) now = (selected rows now).map written := by
  refine ⟨?_, sqliteExpired_written rows now⟩
  rw [ArtifactDB.expired, hrows, filter_record, selected]
  exact (List.map_mergeSort (f := record) fun _ _ _ _ => rfl).symm

/-- The text comparison selects the artifacts whose expiry is at or before `now`, and these are
the artifacts that the other repository selects. -/
theorem expired_agree (collate : String → String → Bool) (rows : List (ArtifactRow UtcDateTime))
    (now : UtcDateTime) :
    (∀ record, record ∈ sqliteExpired (rows.map written) now ↔
      ∃ row ∈ rows, row.written = record ∧ ∃ expiry ∈ row.expiresAt, expiry.instant ≤ now.instant) ∧
    (sqliteExpired (rows.map written) now).Perm (postgresExpired collate rows now) := by
  rw [sqliteExpired_written, selected]
  constructor
  · intro record
    rw [List.mem_map]
    simp only [List.mem_mergeSort, List.mem_filter, due, Option.any_eq_true, decide_eq_true_eq,
      Option.mem_def]
    constructor
    · rintro ⟨row, ⟨hrow, expiry, hexpiry, hle⟩, hrecord⟩
      exact ⟨row, hrow, hrecord, expiry, hexpiry, hle⟩
    · rintro ⟨row, hrow, hrecord, expiry, hexpiry, hle⟩
      exact ⟨row, ⟨hrow, expiry, hexpiry, hle⟩, hrecord⟩
  · exact ((List.mergeSort_perm _ _).trans (List.mergeSort_perm _ _).symm).map written

end ArtifactRow

end Orchestrator
