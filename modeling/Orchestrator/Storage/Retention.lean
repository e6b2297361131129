import Orchestrator.Db.Models
import Orchestrator.Lib.Machine

/-!
The purge of expired media, against the writes of the artifact repository.

A call of the repository and a deletion of an object are one step each. The
purge reads its snapshot, and then deletes the bytes and the row of one artifact
after the other; it may break off when a deletion raises. A purge that would begin
while another one is under way does nothing here: purges that overlap are left out.
The expiry columns are UTC texts of one format, whose order is that of the times.
Columns that only describe the object are left out.
-/

namespace Orchestrator

structure ArtifactRecord where
  runId : String
  storageBackend : String
  storageKey : String
  retentionClass : String := "keep"
  expiresAt : Option Timestamp := none
  deriving DecidableEq

/-- Days to live of the classes that expire. -/
def ttlDays : List (String × Nat) := [("rejected", 3), ("intermediate", 2)]

def expiresAtFor (retentionClass : String) (now : Timestamp) :
    Except String (Option Timestamp) :=
  if retentionClass ∈ "keep" :: ttlDays.map Prod.fst then
    .ok ((ttlDays.lookup retentionClass).map fun days => now + seconds (days * 86400))
  else .error ("unknown retention class " ++ PyStr.repr retentionClass)

namespace ArtifactRecord

/-- Where the bytes are. -/
def location (a : ArtifactRecord) : String × String := (a.storageBackend, a.storageKey)

/-- The first half of the SHA-256 digest of the run and the key. -/
def id (digest : String → String) (a : ArtifactRecord) : String :=
  digest (a.runId ++ ":" ++ a.storageKey)

/-- The artifact is kept (it has no expiry) or expires after `now`. -/
def Protected (a : ArtifactRecord) (now : Timestamp) : Prop := ∀ t ∈ a.expiresAt, now < t

instance (a : ArtifactRecord) (now : Timestamp) : Decidable (a.Protected now) :=
  inferInstanceAs (Decidable (∀ t ∈ a.expiresAt, now < t))

end ArtifactRecord

/-- The table `artifacts`, with its primary key and its unique index. -/
structure ArtifactDB (digest : String → String) where
  rows : List ArtifactRecord
  ids : (rows.map (·.id digest)).Nodup
  keys : (rows.map (·.storageKey)).Nodup

namespace ArtifactDB
variable {digest : String → String} (db : ArtifactDB digest)

/-- `DELETE FROM artifacts` of the rows that do not meet `p`. -/
def keep (p : ArtifactRecord → Bool) : ArtifactDB digest where
  rows := db.rows.filter p
  ids := db.ids.sublist (List.filter_sublist.map _)
  keys := db.keys.sublist (List.filter_sublist.map _)

/-- `INSERT OR REPLACE`: the rows with the same id or the same key go. -/
def record (a : ArtifactRecord) : ArtifactDB digest where
  rows := db.rows.filter (fun r => r.id digest ≠ a.id digest && r.storageKey ≠ a.storageKey) ++ [a]
  ids := by
    rw [List.map_append, List.map_singleton, List.nodup_append]
    refine ⟨db.ids.sublist (List.filter_sublist.map _), List.nodup_singleton _, ?_⟩
    intro i hi j hj
    obtain ⟨r, hr, rfl⟩ := List.mem_map.mp hi
    obtain rfl := List.mem_singleton.mp hj
    simp only [List.mem_filter, Bool.and_eq_true, decide_eq_true_eq] at hr
    exact hr.2.1
  keys := by
    rw [List.map_append, List.map_singleton, List.nodup_append]
    refine ⟨db.keys.sublist (List.filter_sublist.map _), List.nodup_singleton _, ?_⟩
    intro i hi j hj
    obtain ⟨r, hr, rfl⟩ := List.mem_map.mp hi
    obtain rfl := List.mem_singleton.mp hj
    simp only [List.mem_filter, Bool.and_eq_true, decide_eq_true_eq] at hr
    exact hr.2.2

/-- The row with another class and expiry when it has the key. -/
def reclassify (storageKey retentionClass : String) (expiresAt : Option Timestamp)
    (r : ArtifactRecord) : ArtifactRecord :=
  if r.storageKey = storageKey then { r with retentionClass, expiresAt } else r

theorem reclassify_location (storageKey retentionClass : String) (expiresAt : Option Timestamp)
    (r : ArtifactRecord) : (reclassify storageKey retentionClass expiresAt r).location =
      r.location := by
  by_cases h : r.storageKey = storageKey <;> simp [reclassify, h, ArtifactRecord.location]

theorem reclassify_id (storageKey retentionClass : String) (expiresAt : Option Timestamp)
    (r : ArtifactRecord) : (reclassify storageKey retentionClass expiresAt r).id digest =
      r.id digest := by
  by_cases h : r.storageKey = storageKey <;> simp [reclassify, h, ArtifactRecord.id]

def setRetention (storageKey retentionClass : String) (now : Timestamp) :
    Except String (ArtifactDB digest) := do
  let expiresAt ← expiresAtFor retentionClass now
  return {
    rows := db.rows.map (reclassify storageKey retentionClass expiresAt)
    ids := by
      have h : (fun r : ArtifactRecord => r.id digest) ∘
          reclassify storageKey retentionClass expiresAt = fun r => r.id digest := by
        funext r
        exact reclassify_id ..
      rw [List.map_map, h]
      exact db.ids
    keys := by
      have h : (fun r : ArtifactRecord => r.storageKey) ∘
          reclassify storageKey retentionClass expiresAt = fun r => r.storageKey := by
        funext r
        exact congrArg Prod.snd (reclassify_location ..)
      rw [List.map_map, h]
      exact db.keys }

def expired (now : Timestamp) : List ArtifactRecord :=
  (db.rows.filter (fun r => r.expiresAt.any (· ≤ now))).mergeSort
    (fun a b => a.storageKey ≤ b.storageKey)

def delete (artifactId : String) : ArtifactDB digest := db.keep (fun r => r.id digest ≠ artifactId)

variable {db}

theorem mem_expired {now : Timestamp} {r : ArtifactRecord} (h : r ∈ db.expired now) :
    r ∈ db.rows ∧ ¬ r.Protected now := by
  rw [expired, List.mem_mergeSort, List.mem_filter, Option.any_eq_true] at h
  obtain ⟨hr, t, ht, hle⟩ := h
  refine ⟨hr, fun hprotected => ?_⟩
  have hlt : now < t := hprotected t ht
  have hle : t ≤ now := of_decide_eq_true hle
  exact absurd hle (Nat.not_le.mpr hlt)

theorem eq_of_id_eq {r r' : ArtifactRecord} (hr : r ∈ db.rows) (hr' : r' ∈ db.rows)
    (h : r.id digest = r'.id digest) : r = r' :=
  List.inj_on_of_nodup_map db.ids hr hr' h

theorem eq_of_location_eq {r r' : ArtifactRecord} (hr : r ∈ db.rows) (hr' : r' ∈ db.rows)
    (h : r.location = r'.location) : r = r' :=
  List.inj_on_of_nodup_map db.keys hr hr' (congrArg Prod.snd h)

theorem setRetention_ok {storageKey retentionClass : String} {now : Timestamp}
    {db' : ArtifactDB digest} (h : db.setRetention storageKey retentionClass now = .ok db') :
    ∃ expiresAt, expiresAtFor retentionClass now = .ok expiresAt ∧
      db'.rows = db.rows.map (reclassify storageKey retentionClass expiresAt) := by
  cases hexpires : expiresAtFor retentionClass now with
  | error text => simp [setRetention, hexpires, bind, Except.bind] at h
  | ok expiresAt =>
      simp only [setRetention, hexpires, bind, Except.bind, pure, Except.pure] at h
      cases h
      exact ⟨expiresAt, rfl, rfl⟩

end ArtifactDB

/-- The storage a purge is given: one that routes a deletion to the backend of the
artifact, or the storage of one backend. -/
structure MediaStorage where
  backend : String
  routes : Bool

/-- The object that the purge deletes for an artifact. -/
def MediaStorage.target (storage : MediaStorage) (a : ArtifactRecord) : String × String :=
  (if storage.routes then a.storageBackend else storage.backend, a.storageKey)

/-- A purge under way: the bytes of the first remaining artifact may be deleted. -/
structure Purge where
  now : Timestamp
  remaining : List ArtifactRecord
  bytesDeleted : Bool := false
  purged : List String := []

namespace Purge

/-- The artifacts of the snapshot whose bytes are not deleted yet. -/
def pending (p : Purge) : List ArtifactRecord :=
  if p.bytesDeleted then p.remaining.tail else p.remaining

/-- The artifact whose bytes are deleted and whose row is not. -/
def deleting (p : Purge) : Option ArtifactRecord :=
  if p.bytesDeleted then p.remaining.head? else none

end Purge

structure MediaWorld (digest : String → String) where
  db : ArtifactDB digest
  stored : List (String × String)
  purge : Option Purge

inductive MediaAction where
  | record (a : ArtifactRecord)
  | setRetention (storageKey retentionClass : String) (now : Timestamp)
  /-- Bytes are stored. -/
  | put (location : String × String)
  /-- A purge begins and reads its snapshot. -/
  | purgeExpired (now : Timestamp)
  /-- The purge deletes the next object or row. -/
  | advance
  /-- A deletion raises, and the purge with it. -/
  | abort

namespace MediaWorld
variable {digest : String → String} (storage : MediaStorage)

def advance (w : MediaWorld digest) : MediaWorld digest :=
  match w.purge with
  | none => w
  | some p =>
      match p.remaining with
      | [] => { w with purge := none }
      | a :: rest =>
          if p.bytesDeleted then
            { w with
              db := w.db.delete (a.id digest)
              purge := some { p with
                remaining := rest
                bytesDeleted := false
                purged := p.purged ++ [a.storageKey] } }
          else
            { w with
              stored := w.stored.filter (· ≠ storage.target a)
              purge := some { p with bytesDeleted := true } }

def apply : MediaAction → MediaWorld digest → Unit × MediaWorld digest
  | .record a, w => ((), { w with db := w.db.record a })
  | .setRetention storageKey retentionClass now, w =>
      ((), match w.db.setRetention storageKey retentionClass now with
        | .ok db => { w with db }
        | .error _ => w)
  | .put location, w => ((), { w with stored := location :: w.stored })
  | .purgeExpired now, w =>
      ((), match w.purge with
        | none => { w with purge := some { now, remaining := w.db.expired now } }
        | some _ => w)
  | .advance, w => ((), w.advance storage)
  | .abort, w => ((), { w with purge := none })

/-- The next deletion of the purge destroys nothing that is kept: no protected row
points at the bytes it deletes, and the row it deletes has no bytes any more. -/
def Spares (w : MediaWorld digest) : Prop :=
  ∀ p ∈ w.purge, ∀ a ∈ p.remaining.head?,
    (p.bytesDeleted = false →
      ∀ r ∈ w.db.rows, r.location = storage.target a → ¬ r.Protected p.now) ∧
    (p.bytesDeleted = true → ∀ r ∈ w.db.rows, r.id digest = a.id digest → r.location ∉ w.stored)

instance (w : MediaWorld digest) : Decidable (w.Spares storage) :=
  inferInstanceAs (Decidable (∀ p ∈ w.purge, ∀ a ∈ p.remaining.head?, _))

/-- The class expires by the time of the purge, or is refused. -/
def ExpiresBy (retentionClass : String) (now purgeNow : Timestamp) : Prop :=
  match expiresAtFor retentionClass now with
  | .ok expiresAt => ∃ t ∈ expiresAt, t ≤ purgeNow
  | .error _ => True

instance (retentionClass : String) (now purgeNow : Timestamp) :
    Decidable (ExpiresBy retentionClass now purgeNow) := by
  unfold ExpiresBy
  split <;> infer_instance

/-- While a purge is under way, no artifact of its snapshot whose bytes it will still
delete is promoted or recorded anew as one to keep, or at another place; nothing is
stored or recorded for the artifact whose row it is about to delete; and it begins
only on a storage that deletes where the artifacts are. -/
def Undisturbed (w : MediaWorld digest) : MediaAction → Prop
  | .record a => ∀ p ∈ w.purge,
      (∀ b ∈ p.pending, (a.location = storage.target b → ¬ a.Protected p.now) ∧
        (a.id digest = b.id digest → a.location = storage.target b)) ∧
      ∀ b ∈ p.deleting, a.id digest = b.id digest → a.location ∉ w.stored
  | .setRetention storageKey retentionClass now => ∀ p ∈ w.purge, ∀ b ∈ p.pending,
      ∀ r ∈ w.db.rows, r.storageKey = storageKey → r.location = storage.target b →
        ExpiresBy retentionClass now p.now
  | .put location => ∀ p ∈ w.purge, ∀ b ∈ p.deleting, ∀ r ∈ w.db.rows,
      r.id digest = b.id digest → r.location ≠ location
  | .purgeExpired now => ∀ a ∈ w.db.expired now, storage.target a = a.location
  | .advance | .abort => True

instance (w : MediaWorld digest) : DecidablePred (w.Undisturbed storage) := fun a => by
  cases a <;> unfold Undisturbed <;> infer_instance

/-- What the rows still say of the artifacts of the snapshot. -/
structure Foreseen (w : MediaWorld digest) (p : Purge) : Prop where
  expired : ∀ b ∈ p.pending, ∀ r ∈ w.db.rows, r.location = storage.target b →
    ¬ r.Protected p.now
  located : ∀ b ∈ p.pending, ∀ r ∈ w.db.rows, r.id digest = b.id digest →
    r.location = storage.target b
  gone : ∀ b ∈ p.deleting, ∀ r ∈ w.db.rows, r.id digest = b.id digest → r.location ∉ w.stored

def PurgeForeseen (w : MediaWorld digest) : Prop := ∀ p ∈ w.purge, w.Foreseen storage p

variable {storage} {w : MediaWorld digest}

theorem PurgeForeseen.spares (h : w.PurgeForeseen storage) : w.Spares storage := by
  intro p hp a ha
  constructor
  · intro hbytes
    refine (h p hp).expired a ?_
    simp only [Purge.pending, hbytes, Bool.false_eq_true, if_false]
    exact List.mem_of_mem_head? ha
  · intro hbytes
    refine (h p hp).gone a ?_
    simpa only [Purge.deleting, hbytes, if_true] using ha

/-- A snapshot agrees with the rows it was read from. -/
theorem foreseen_of_snapshot (now : Timestamp)
    (h : ∀ a ∈ w.db.expired now, storage.target a = a.location) :
    w.Foreseen storage { now, remaining := w.db.expired now } where
  expired := by
    intro b hb r hr hlocation
    rw [h b hb] at hlocation
    rw [ArtifactDB.eq_of_location_eq hr (ArtifactDB.mem_expired hb).1 hlocation]
    exact (ArtifactDB.mem_expired hb).2
  located := by
    intro b hb r hr hid
    rw [ArtifactDB.eq_of_id_eq hr (ArtifactDB.mem_expired hb).1 hid, h b hb]
  gone := by
    intro b hb
    simp [Purge.deleting] at hb

theorem foreseen_record {a : ArtifactRecord} {p : Purge} (hp : p ∈ w.purge)
    (h : w.Foreseen storage p) (hundisturbed : w.Undisturbed storage (.record a)) :
    ({ w with db := w.db.record a } : MediaWorld digest).Foreseen storage p := by
  have hrow : ∀ r ∈ (w.db.record a).rows, r ∈ w.db.rows ∨ r = a := by
    intro r hr
    rcases List.mem_append.mp hr with hold | hnew
    · exact .inl (List.mem_filter.mp hold).1
    · exact .inr (List.mem_singleton.mp hnew)
  obtain ⟨hpending, hdeleting⟩ := hundisturbed p hp
  constructor
  · intro b hb r hr
    cases hrow r hr with
    | inl hold => exact h.expired b hb r hold
    | inr hnew => exact hnew ▸ (hpending b hb).1
  · intro b hb r hr
    cases hrow r hr with
    | inl hold => exact h.located b hb r hold
    | inr hnew => exact hnew ▸ (hpending b hb).2
  · intro b hb r hr
    cases hrow r hr with
    | inl hold => exact h.gone b hb r hold
    | inr hnew => exact hnew ▸ hdeleting b hb

theorem foreseen_setRetention {storageKey retentionClass : String} {now : Timestamp}
    {db : ArtifactDB digest} (hdb : w.db.setRetention storageKey retentionClass now = .ok db)
    {p : Purge} (hp : p ∈ w.purge) (h : w.Foreseen storage p)
    (hundisturbed : w.Undisturbed storage (.setRetention storageKey retentionClass now)) :
    ({ w with db } : MediaWorld digest).Foreseen storage p := by
  obtain ⟨expiresAt, hexpires, hrows⟩ := ArtifactDB.setRetention_ok hdb
  have hrow : ∀ r ∈ db.rows, ∃ r₀ ∈ w.db.rows,
      ArtifactDB.reclassify storageKey retentionClass expiresAt r₀ = r := by
    intro r hr
    exact List.mem_map.mp (hrows ▸ hr)
  constructor
  · intro b hb r hr
    obtain ⟨r₀, hr₀, rfl⟩ := hrow r hr
    rw [ArtifactDB.reclassify_location]
    intro hlocation
    by_cases hkey : r₀.storageKey = storageKey
    · have hby := hundisturbed p hp b hb r₀ hr₀ hkey hlocation
      simp only [ExpiresBy, hexpires] at hby
      obtain ⟨t, ht, hle⟩ := hby
      intro hprotected
      have hlt : p.now < t := hprotected t (by simpa [ArtifactDB.reclassify, hkey] using ht)
      exact absurd hle (Nat.not_le.mpr hlt)
    · rw [ArtifactDB.reclassify, if_neg hkey]
      exact h.expired b hb r₀ hr₀ hlocation
  · intro b hb r hr
    obtain ⟨r₀, hr₀, rfl⟩ := hrow r hr
    rw [ArtifactDB.reclassify_location, ArtifactDB.reclassify_id]
    exact h.located b hb r₀ hr₀
  · intro b hb r hr
    obtain ⟨r₀, hr₀, rfl⟩ := hrow r hr
    rw [ArtifactDB.reclassify_location, ArtifactDB.reclassify_id]
    exact h.gone b hb r₀ hr₀

/-- The bytes of the first remaining artifact are deleted. -/
theorem foreseen_bytes {p : Purge} {a : ArtifactRecord} {rest : List ArtifactRecord}
    (hremaining : p.remaining = a :: rest) (hbytes : p.bytesDeleted = false)
    (purge : Option Purge) (h : w.Foreseen storage p) :
    (⟨w.db, w.stored.filter (· ≠ storage.target a), purge⟩ : MediaWorld digest).Foreseen
      storage { p with bytesDeleted := true } := by
  have hpending : p.pending = a :: rest := by simp [Purge.pending, hbytes, hremaining]
  have hlater : ({ p with bytesDeleted := true } : Purge).pending = rest := by
    simp [Purge.pending, hremaining]
  have hdeleting : ({ p with bytesDeleted := true } : Purge).deleting = some a := by
    simp [Purge.deleting, hremaining]
  constructor
  · rw [hlater]
    exact fun b hb => h.expired b (hpending ▸ List.mem_cons_of_mem a hb)
  · rw [hlater]
    exact fun b hb => h.located b (hpending ▸ List.mem_cons_of_mem a hb)
  · rw [hdeleting]
    rintro b ⟨⟩ r hr hid hstored
    have hlocation := h.located a (hpending ▸ List.mem_cons_self) r hr hid
    exact of_decide_eq_true (List.mem_filter.mp hstored).2 hlocation

/-- The row of the first remaining artifact is deleted. -/
theorem foreseen_row {p : Purge} {a : ArtifactRecord} {rest : List ArtifactRecord}
    (hremaining : p.remaining = a :: rest) (hbytes : p.bytesDeleted = true) (purged : List String)
    (purge : Option Purge) (h : w.Foreseen storage p) :
    (⟨w.db.delete (a.id digest), w.stored, purge⟩ : MediaWorld digest).Foreseen storage
      { p with remaining := rest, bytesDeleted := false, purged } := by
  have hpending : p.pending = rest := by simp [Purge.pending, hbytes, hremaining]
  have hrow : ∀ r ∈ (w.db.delete (a.id digest)).rows, r ∈ w.db.rows :=
    fun r hr => (List.mem_filter.mp hr).1
  constructor
  · exact fun b hb r hr => h.expired b (hpending ▸ hb) r (hrow r hr)
  · exact fun b hb r hr => h.located b (hpending ▸ hb) r (hrow r hr)
  · intro b hb
    simp [Purge.deleting] at hb

theorem purgeForeseen_advance (h : w.PurgeForeseen storage) :
    (w.advance storage).PurgeForeseen storage := by
  unfold advance
  split
  · exact h
  · rename_i p hp
    split
    · exact fun q hq => absurd hq (by simp)
    · rename_i a rest hremaining
      split
      · rename_i hbytes
        rintro q ⟨⟩
        exact foreseen_row hremaining hbytes _ _ (h p hp)
      · rename_i hbytes
        rintro q ⟨⟩
        exact foreseen_bytes hremaining (by simpa using hbytes) _ (h p hp)

theorem purgeForeseen_step (action : MediaAction) (h : w.PurgeForeseen storage)
    (hundisturbed : w.Undisturbed storage action) :
    (apply storage action w).2.PurgeForeseen storage := by
  cases action with
  | record a => exact fun p hp => foreseen_record hp (h p hp) hundisturbed
  | setRetention storageKey retentionClass now =>
      simp only [apply]
      split
      · rename_i db hdb
        exact fun p hp => foreseen_setRetention hdb hp (h p hp) hundisturbed
      · exact h
  | put location =>
      intro p hp
      refine ⟨(h p hp).expired, (h p hp).located, ?_⟩
      intro b hb r hr hid hstored
      cases List.mem_cons.mp hstored with
      | inl hnew => exact hundisturbed p hp b hb r hr hid hnew
      | inr hold => exact (h p hp).gone b hb r hr hid hold
  | purgeExpired now =>
      simp only [apply]
      split
      · rintro p ⟨⟩
        exact foreseen_of_snapshot now hundisturbed
      · exact h
  | advance => exact purgeForeseen_advance h
  | abort => exact fun p hp => absurd hp (by simp [apply])

end MediaWorld

open MediaWorld in
/-- In a run that leaves the artifacts of a purge undisturbed, no deletion of the
purge destroys bytes that a protected row points at, or a row whose bytes are stored. -/
theorem purge_spares_kept_media {digest : String → String} (storage : MediaStorage)
    (w : MediaWorld digest) (hidle : w.purge = none) (actions : List MediaAction)
    (h : Machine.Guarded (apply storage) (fun w a => w.Undisturbed storage a) w actions) :
    ∀ e ∈ Machine.log (apply storage) w actions, e.input = .advance →
      e.before.Spares storage := by
  intro e he _
  obtain ⟨pre, action, post, rfl, rfl⟩ := (Machine.mem_log _).mp he
  have hstart : w.PurgeForeseen storage := fun p hp => absurd hp (by simp [hidle])
  have hpre := ((Machine.guarded_append _).mp h).1
  refine PurgeForeseen.spares (Machine.run_invariant_of_guarded (apply storage) ?_ hstart hpre)
  exact fun s i hs hi => purgeForeseen_step i hs hi

def rejectedClip : ArtifactRecord where
  runId := "run"
  storageBackend := "r2"
  storageKey := "clip.mp4"
  retentionClass := "rejected"
  expiresAt := some 5

/-- One expired artifact with its bytes, and no purge under way. -/
def oneRejectedClip : MediaWorld id where
  db := ⟨[rejectedClip], by decide, by decide⟩
  stored := [("r2", "clip.mp4")]
  purge := none

/-- Another artifact is recorded and kept while the purge deletes the expired one. -/
theorem purge_beside_a_promotion : oneRejectedClip.purge = none ∧
    ∀ e ∈ Machine.log (MediaWorld.apply ⟨"r2", true⟩) oneRejectedClip
        [.purgeExpired 10, .record { rejectedClip with storageKey := "final.mp4" }, .advance,
          .setRetention "final.mp4" "keep" 10, .advance, .advance],
      e.input = .advance → e.before.Spares ⟨"r2", true⟩ :=
  ⟨rfl, purge_spares_kept_media ⟨"r2", true⟩ oneRejectedClip rfl _ (by decide +kernel)⟩

/-- The clip is promoted after the snapshot: its bytes go all the same. -/
theorem promoted_clip_purged :
    ¬ ∀ (digest : String → String) (storage : MediaStorage) (w : MediaWorld digest)
        (actions : List MediaAction), w.purge = none →
      ∀ e ∈ Machine.log (MediaWorld.apply storage) w actions, e.input = .advance →
        e.before.Spares storage := by
  intro h
  have hspares := h id ⟨"r2", true⟩ oneRejectedClip
    [.purgeExpired 10, .setRetention "clip.mp4" "keep" 10, .advance] rfl _
    ((Machine.mem_log _).mpr ⟨[.purgeExpired 10, .setRetention "clip.mp4" "keep" 10],
      .advance, [], rfl, rfl⟩) rfl
  exact absurd hspares (by decide +kernel)

end Orchestrator
