import Orchestrator.Lib.PosixPath
import Orchestrator.Lib.PyLines
import Orchestrator.Storage.Migration

/-!
The import of the artifacts of a local installation.

An artifact is found on disk under its storage key and put into the storage of
a tenant. The key there is built again from the old one: its suffix is cut off
and the extension of the content type takes its place, so files that differ only
in a suffix can get one key.
-/

namespace Orchestrator
open PosixPath

/-- `str.lower` and `mimetypes.guess_extension`. What is guessed is one extension, without a
further dot inside. -/
structure MimeTypes where
  lower : String → String
  guessExtension : String → Option String
  guessExtension_single : ∀ mime, ∀ guessed ∈ guessExtension mime,
    '.' ∉ guessed.toList.dropWhile (· = '.')

def extByMime : List (String × String) :=
  [("image/png", "png"), ("image/jpeg", "jpg"), ("image/webp", "webp"), ("image/gif", "gif"),
    ("image/avif", "avif"), ("image/svg+xml", "svg"), ("audio/mpeg", "mp3"), ("audio/mp3", "mp3"),
    ("audio/wav", "wav"), ("audio/x-wav", "wav"), ("audio/mp4", "m4a"), ("audio/ogg", "ogg"),
    ("video/mp4", "mp4"), ("video/webm", "webm")]

def defaultExt : String := "bin"

def extFromMime (m : MimeTypes) (contentType : String) : String :=
  let mime := m.lower (PyStr.strip (PyStr.partitionHead ';' contentType))
  match extByMime.find? (·.1 = mime) with
  | some entry => entry.2
  | none =>
      match if mime = "" then none else m.guessExtension mime with
      | some guessed =>
          if guessed = "" then defaultExt else String.ofList (guessed.toList.dropWhile (· = '.'))
      | none => defaultExt

theorem dot_not_mem_extFromMime (m : MimeTypes) (contentType : String) :
    '.' ∉ (extFromMime m contentType).toList := by
  have htable : ∀ entry ∈ extByMime, '.' ∉ entry.2.toList := by decide
  have hdefault : '.' ∉ defaultExt.toList := by decide
  simp only [extFromMime]
  split
  · rename_i entry hentry
    exact htable entry (List.mem_of_find?_eq_some hentry)
  · split
    · rename_i guessed hguessed
      split
      · exact hdefault
      · split at hguessed
        · cases hguessed
        · rw [String.toList_ofList]
          exact m.guessExtension_single _ guessed hguessed
    · exact hdefault

inductive LegacyError where
  | valueError (text : String)
  | attributeError
  | fileNotFound (path : PosixPath)
  /-- Whatever the storage or the database raises. -/
  | raised (text : String)

structure LegacyArtifact where
  row : ArtifactRow String
  path : PosixPath
  sizeBytes : Nat
  sha256 : String

section Scan
variable (hexdigest : ByteArray → String) (files : PosixPath → Option ByteArray)
  (root : PosixPath)

/-- `_artifact_path`; the file that is found is given with its bytes. -/
def artifactPath (storageKey : String) (contentType : Option String) :
    Except LegacyError (PosixPath × ByteArray) :=
  let families := if "video/".toList.isPrefixOf (contentType.getD "").toList
    then ["videos", "media"] else ["media", "videos"]
  let found := families.findSome? fun family =>
    let candidate := (root.join (ofString family)).join (ofString storageKey)
    (files candidate).map (candidate, ·)
  match found with
  | some file => .ok file
  | none => .error (.valueError ("artifact local ausente: " ++ storageKey))

/-- What `scan_legacy` keeps of a row. -/
def scanArtifact (row : ArtifactRow String) : Except LegacyError LegacyArtifact :=
  match artifactPath files root row.storageKey row.contentType with
  | .error exc => .error exc
  | .ok (path, data) =>
      if row.sizeBytes.any (· ≠ data.size) then
        .error (.valueError ("tamanho divergente para artifact " ++ row.storageKey))
      else if row.sha256.getD "" ≠ "" ∧ row.sha256.getD "" ≠ hexdigest data then
        .error (.valueError ("SHA-256 divergente para artifact " ++ row.storageKey))
      else .ok ⟨row, path, data.size, hexdigest data⟩

def scanArtifacts (rows : List (ArtifactRow String)) : Except LegacyError (List LegacyArtifact) :=
  (rows.mergeSort fun a b => a.storageKey ≤ b.storageKey).mapM (scanArtifact hexdigest files root)

end Scan

/-- A row of `legacy_import_entries`. -/
structure LegacyEntry where
  sourceKey : String
  checksum : String
  sizeBytes : Nat

structure ImportWorld where
  objects : String → Option BucketObject
  records : List (ArtifactRow String)
  entries : List LegacyEntry

/-- Where an import writes to, and what its calls raise. A write that raises leaves something. -/
structure ImportTarget where
  organizationId : String
  backend : String
  write : String → Option (String × Option BucketObject)
  recordFails : String → Option String

section Import
variable (m : MimeTypes) (hexdigest : ByteArray → String) (digest : String → String)
  (target : ImportTarget) (files : PosixPath → Option ByteArray)

/-- `str(row[7] or "application/octet-stream")`. -/
def LegacyArtifact.contentType (artifact : LegacyArtifact) : String :=
  if artifact.row.contentType.getD "" = "" then "application/octet-stream"
  else artifact.row.contentType.getD ""

def keyBase (artifact : LegacyArtifact) : String :=
  withoutSuffix ("tenants/" ++ target.organizationId ++ "/" ++ artifact.row.storageKey)

/-- The key that `put_bytes` writes under. -/
def targetKey (artifact : LegacyArtifact) : String :=
  withExtension (keyBase target artifact) (extFromMime m artifact.contentType)

def importedRecord (artifact : LegacyArtifact) (data : ByteArray) :
    Except LegacyError (ArtifactRow String) :=
  match artifact.row.metadata with
  | .obj fields => .ok { artifact.row with
      id := digest (artifact.row.runId ++ ":" ++ targetKey m target artifact)
      storageBackend := target.backend
      storageKey := targetKey m target artifact
      contentType := some artifact.contentType
      sizeBytes := some data.size
      sha256 := some (hexdigest data)
      metadata := .obj (Json.merge fields [("legacy_artifact_id", .str artifact.row.id),
        ("legacy_storage_key", .str artifact.row.storageKey)]) }
  | _ => .error .attributeError

namespace ImportWorld
variable (w : ImportWorld)

def put (key : String) (object : Option BucketObject) : ImportWorld :=
  { w with objects := fun k => if k = key then object else w.objects k }

/-- `record`: a row with the id is written over; a key that another row has is refused. -/
def record (row : ArtifactRow String) : Except LegacyError ImportWorld :=
  if w.records.any fun r => r.id ≠ row.id && r.storageKey = row.storageKey then
    .error (.raised "uq_artifacts_organization_storage_key")
  else if w.records.any (·.id = row.id) then
    .ok { w with records := w.records.map fun r => if r.id = row.id then row else r }
  else .ok { w with records := w.records ++ [row] }

/-- The entry of an artifact, unless its key has one. -/
def note (entry : LegacyEntry) : ImportWorld :=
  if w.entries.any (·.sourceKey = entry.sourceKey) then w
  else { w with entries := w.entries ++ [entry] }

end ImportWorld

def recordImported (artifact : LegacyArtifact) (data : ByteArray) (w : ImportWorld) :
    ImportWorld × Except LegacyError Unit :=
  if data.size ≠ artifact.sizeBytes ∨ hexdigest data ≠ artifact.sha256 then
    (w, .error (.valueError ("storage divergiu para artifact " ++ artifact.row.storageKey)))
  else
    match importedRecord m hexdigest digest target artifact data with
    | .error exc => (w, .error exc)
    | .ok row =>
        match target.recordFails row.storageKey with
        | some text => (w, .error (.raised text))
        | none =>
            match w.record row with
            | .error exc => (w, .error exc)
            | .ok w' => (w'.note ⟨artifact.row.storageKey, artifact.sha256, artifact.sizeBytes⟩,
                .ok ())

/-- The body of the loop of `_import_artifacts`. -/
def importArtifact (artifact : LegacyArtifact) (w : ImportWorld) :
    ImportWorld × Except LegacyError Unit :=
  match files artifact.path with
  | none => (w, .error (.fileNotFound artifact.path))
  | some data =>
      match target.write (targetKey m target artifact) with
      | some (text, left) => (w.put (targetKey m target artifact) left, .error (.raised text))
      | none => recordImported m hexdigest digest target artifact data
          (w.put (targetKey m target artifact) (some ⟨data, artifact.contentType, []⟩))

def importArtifacts : List LegacyArtifact → ImportWorld → ImportWorld × Except LegacyError Unit
  | [], w => (w, .ok ())
  | artifact :: rest, w =>
      match importArtifact m hexdigest digest target files artifact w with
      | (w', .error exc) => (w', .error exc)
      | (w', .ok ()) => importArtifacts rest w'

/-- Artifacts of different files get different keys. -/
def TargetsApart (artifacts : List LegacyArtifact) : Prop :=
  ∀ a ∈ artifacts, ∀ b ∈ artifacts, a.path ≠ b.path → targetKey m target a ≠ targetKey m target b

/-- No two artifacts of different files have one name up to the suffix and content types of one
extension. -/
def NamesApart (artifacts : List LegacyArtifact) : Prop :=
  ∀ a ∈ artifacts, ∀ b ∈ artifacts, a.path ≠ b.path →
    keyBase target a = keyBase target b →
      extFromMime m a.contentType ≠ extFromMime m b.contentType

def Imported (artifacts : List LegacyArtifact) (w : ImportWorld) : Prop :=
  ∀ a ∈ artifacts, (w.objects (targetKey m target a)).map (·.bytes) = files a.path

end Import

section Import
variable {m : MimeTypes} {hexdigest : ByteArray → String} {digest : String → String}
  {target : ImportTarget} {files : PosixPath → Option ByteArray}

theorem targetKey_eq_iff (a b : LegacyArtifact) :
    targetKey m target a = targetKey m target b ↔
      keyBase target a = keyBase target b ∧
        extFromMime m a.contentType = extFromMime m b.contentType :=
  withExtension_inj (dot_not_mem_extFromMime m a.contentType)
    (dot_not_mem_extFromMime m b.contentType)

theorem targetsApart_iff_namesApart (artifacts : List LegacyArtifact) :
    TargetsApart m target artifacts ↔ NamesApart m target artifacts := by
  simp only [TargetsApart, NamesApart, ne_eq, targetKey_eq_iff, not_and]

theorem ImportWorld.note_objects (w : ImportWorld) (entry : LegacyEntry) :
    (w.note entry).objects = w.objects := by
  rw [note]
  split <;> rfl

theorem ImportWorld.record_objects {w w' : ImportWorld} {row : ArtifactRow String}
    (h : w.record row = .ok w') : w'.objects = w.objects := by
  rw [record] at h
  split at h
  · cases h
  · split at h <;> cases h <;> rfl

theorem recordImported_objects (artifact : LegacyArtifact) (data : ByteArray) (w : ImportWorld) :
    (recordImported m hexdigest digest target artifact data w).1.objects = w.objects := by
  rw [recordImported]
  split
  · rfl
  · split
    · rfl
    · split
      · rfl
      · split
        · rfl
        · rename_i hrecord
          rw [ImportWorld.note_objects, ImportWorld.record_objects hrecord]

/-- The import of an artifact writes its bytes under its key and nothing else. -/
theorem importArtifact_ok {artifact : LegacyArtifact} {w w' : ImportWorld}
    (h : importArtifact m hexdigest digest target files artifact w = (w', .ok ())) :
    (w'.objects (targetKey m target artifact)).map (·.bytes) = files artifact.path ∧
    ∀ key, key ≠ targetKey m target artifact → w'.objects key = w.objects key := by
  rw [importArtifact] at h
  split at h
  · cases h
  · rename_i data hdata
    split at h
    · cases h
    · have hobjects := @recordImported_objects m hexdigest digest target artifact data
        (w.put (targetKey m target artifact) (some ⟨data, artifact.contentType, []⟩))
      rw [h] at hobjects
      rw [hobjects, hdata]
      refine ⟨?_, fun key hkey => if_neg hkey⟩
      rw [ImportWorld.put]
      simp only [if_true, Option.map_some]

/-- What one artifact's object holds is kept by the import of others with other keys. -/
theorem importArtifacts_keep {a : LegacyArtifact} (artifacts : List LegacyArtifact)
    (hapart : ∀ b ∈ artifacts, a.path ≠ b.path → targetKey m target a ≠ targetKey m target b)
    {w w' : ImportWorld}
    (h : importArtifacts m hexdigest digest target files artifacts w = (w', .ok ()))
    (ha : (w.objects (targetKey m target a)).map (·.bytes) = files a.path) :
    (w'.objects (targetKey m target a)).map (·.bytes) = files a.path := by
  induction artifacts generalizing w with
  | nil =>
      cases h
      exact ha
  | cons b rest ih =>
      rw [importArtifacts] at h
      split at h
      · cases h
      · rename_i next hb
        obtain ⟨hwritten, hothers⟩ := importArtifact_ok hb
        refine ih (fun c hc => hapart c (List.mem_cons_of_mem b hc)) h ?_
        by_cases hkey : targetKey m target a = targetKey m target b
        · have hpath : a.path = b.path := by
            by_contra hpath
            exact hapart b List.mem_cons_self hpath hkey
          rw [hkey, hwritten, hpath]
        · rw [hothers _ hkey, ha]

theorem imported_of_targetsApart (artifacts : List LegacyArtifact)
    (hapart : TargetsApart m target artifacts) {w w' : ImportWorld}
    (h : importArtifacts m hexdigest digest target files artifacts w = (w', .ok ())) :
    Imported m target files artifacts w' := by
  induction artifacts generalizing w with
  | nil =>
      intro a ha
      cases ha
  | cons b rest ih =>
      rw [importArtifacts] at h
      split at h
      · cases h
      · rename_i next hb
        have hrest : TargetsApart m target rest := fun a ha c hc =>
          hapart a (List.mem_cons_of_mem b ha) c (List.mem_cons_of_mem b hc)
        intro a ha
        obtain rfl | ha := List.mem_cons.mp ha
        · exact importArtifacts_keep rest
            (fun c hc => hapart a List.mem_cons_self c (List.mem_cons_of_mem a hc)) h
            (importArtifact_ok hb).1
        · exact ih hrest h a ha

/-- The keys of artifacts of different files differ exactly when no two of them have one name up
to the suffix and content types of one extension. An import that completes then leaves every
artifact's bytes under its key. -/
theorem target_keys_distinct_iff (m : MimeTypes) (target : ImportTarget)
    (artifacts : List LegacyArtifact) :
    (TargetsApart m target artifacts ↔ NamesApart m target artifacts) ∧
    (NamesApart m target artifacts →
      ∀ hexdigest digest files w w',
        importArtifacts m hexdigest digest target files artifacts w = (w', .ok ()) →
          Imported m target files artifacts w') := by
  refine ⟨targetsApart_iff_namesApart artifacts, ?_⟩
  intro hnames hexdigest digest files w w' h
  exact imported_of_targetsApart artifacts ((targetsApart_iff_namesApart artifacts).mpr hnames) h

end Import

/-- ASCII letters are lowered and nothing is guessed. -/
def plainMime : MimeTypes where
  lower := PyStr.lower
  guessExtension _ := none
  guessExtension_single mime guessed h := by cases h

def portraitPath (name : String) : PosixPath := ⟨"/", ["srv", "media", "run-1", "creator-0", name]⟩

/-- A portrait that was stored under both extensions of JPEG. -/
def portraitFiles (path : PosixPath) : Option ByteArray :=
  if path = portraitPath "image.jpeg" then some "first".toUTF8
  else if path = portraitPath "image.jpg" then some "second".toUTF8
  else none

def portraitRow (name : String) : ArtifactRow String where
  id := name
  runId := "run-1"
  itemId := none
  creatorId := some "creator-0"
  kind := "image"
  storageBackend := "local"
  storageKey := "run-1/creator-0/" ++ name
  contentType := some "image/jpeg"
  sizeBytes := none
  sha256 := none
  sourceUri := none
  retentionClass := "keep"
  expiresAt := none
  metadata := .obj []

def portraitTarget : ImportTarget := ⟨"acme", "r2", fun _ => none, fun _ => none⟩

theorem merged_portraits :
    ¬ ∀ (m : MimeTypes) (hexdigest : ByteArray → String) (files : PosixPath → Option ByteArray)
      (root : PosixPath) (target : ImportTarget) (rows : List (ArtifactRow String))
      (artifacts : List LegacyArtifact),
      scanArtifacts hexdigest files root rows = .ok artifacts →
        TargetsApart m target artifacts := by
  intro h
  have hscan : scanArtifacts (fun _ => "") portraitFiles ⟨"/", ["srv"]⟩
      [portraitRow "image.jpeg", portraitRow "image.jpg"]
        = .ok [⟨portraitRow "image.jpeg", portraitPath "image.jpeg", 5, ""⟩,
            ⟨portraitRow "image.jpg", portraitPath "image.jpg", 6, ""⟩] := by
    rw [scanArtifacts, List.mergeSort_of_pairwise (by decide +kernel)]
    rfl
  have hapart := h plainMime _ _ _ portraitTarget _ _ hscan _ List.mem_cons_self _
    (List.mem_cons_of_mem _ List.mem_cons_self) (by decide)
  exact hapart (by decide +kernel)

end Orchestrator
