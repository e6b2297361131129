import Mathlib.Data.Set.Card
import Orchestrator.Db.BoundedAttempts
import Orchestrator.Db.TransactionalOutbox
import Orchestrator.Lib.Interaction

/-!
The publishers of the outbox.

A publisher claims one message in a transaction of its own, hands it to the
broker and writes the outcome in a second transaction. Between the three anything
may happen: other publishers, also under the same worker id, other calls of the
repositories, an expired lease, a crash. What survives every interleaving is that
a published row was accepted by the broker, that a message is handed over at most
once for each claim of its row, and that no message is lost.
-/

namespace Orchestrator

/-- `topic`, `message_key` and `payload` of a message. -/
abbrev WakeMessage := String × String × Json

def OutboxEntry.message (entry : OutboxEntry) : WakeMessage :=
  (entry.topic, entry.messageKey, entry.payload)

/-- What a transaction meets: the clock and the rows that others have locked. -/
structure Moment where
  now : Timestamp
  locked : List Nat

inductive WakeCall where
  | transaction
  | publish (message : WakeMessage)

/-- `publish` raises with a text. -/
def WakeCall.Answer : WakeCall → Type
  | .transaction => Moment
  | .publish _ => Except String Unit

abbrev wakeSignature : Signature where
  Op := JobsCall
  Reply _ := Except JobsError JobsReply
  Call := WakeCall
  Answer := WakeCall.Answer

inductive WakeError where
  | jobs (exc : JobsError)
  /-- What the queue raised, raised again. -/
  | queue (error : String)

namespace Publisher
variable (workerId : String) (now : Option Timestamp)

/-- One repository call; `now or datetime.now(UTC)` is read when it begins. -/
def transaction {α : Type} (op : Moment → JobsOp)
    (next : JobsReply → Prog wakeSignature (Except WakeError α)) :
    Prog wakeSignature (Except WakeError α) :=
  .call .transaction fun moment : Moment =>
    .op (⟨now.getD moment.now, op moment⟩ : JobsCall) fun
      | .error exc => .ret (.error (.jobs exc))
      | .ok reply => next reply

def afterPublish (entry : OutboxEntry) :
    Except String Unit → Prog wakeSignature (Except WakeError Bool)
  | .error error =>
      transaction now (fun _ => .outbox entry.entryId workerId (.fail error)) fun _ =>
        .ret (.error (.queue error))
  | .ok () =>
      transaction now (fun _ => .outbox entry.entryId workerId .markPublished) fun _ =>
        .ret (.ok true)

def publishOutboxOnce : Prog wakeSignature (Except WakeError Bool) :=
  transaction now (fun moment => .claimOutbox workerId 1 moment.locked) fun
    | .entries (entry :: _) => .call (.publish entry.message) (afterPublish workerId now entry)
    | _ => .ret (.ok false)

end Publisher

/-- Any other call of the repositories: only `publish_outbox_once` says what
became of a claimed message. -/
structure OtherCall where
  call : JobsCall
  other : ∀ entryId workerId outcome, call.op ≠ .outbox entryId workerId outcome

inductive WakeProcess where
  | publisher (workerId : String) (now : Option Timestamp)
  | other (c : OtherCall)

def WakeProcess.prog : WakeProcess → Prog wakeSignature Unit
  | .publisher workerId now => (Publisher.publishOutboxOnce workerId now).bind fun _ => .ret ()
  | .other c => .op c.call fun _ => .ret ()

/-- How far a publisher is with the message it claimed. -/
inductive PublishPhase where
  | outside
  | claimed (entry : OutboxEntry)
  | publishing (entry : OutboxEntry)
  | accepted (entry : OutboxEntry)
  | refused (entry : OutboxEntry) (error : String)

namespace PublishPhase

def held? : PublishPhase → Option OutboxEntry
  | .outside => none
  | .claimed entry | .publishing entry | .accepted entry | .refused entry _ => some entry

/-- The phase after a claim, or after the outcome was written. -/
def afterReply : PublishPhase → Except JobsError JobsReply → PublishPhase
  | .outside, .ok (.entries (entry :: _)) => .claimed entry
  | _, _ => .outside

def afterPublish (entry : OutboxEntry) : Except String Unit → PublishPhase
  | .ok () => .accepted entry
  | .error error => .refused entry error

/-- The thread claimed the row and has not handed its message over. -/
def Waits (entryId : Nat) (g : PublishPhase) : Prop :=
  ∃ entry, g = .claimed entry ∧ entry.entryId = entryId

end PublishPhase

def publishProtocol : Protocol wakeSignature PublishPhase where
  start := .outside
  mayReply _ _ := True
  mayHang _ := False
  mayOp
    | .outside, c => ∀ entryId workerId outcome, JobsCall.op c ≠ .outbox entryId workerId outcome
    | .accepted entry, c =>
        ∃ workerId, JobsCall.op c = .outbox entry.entryId workerId .markPublished
    | .refused entry error, c =>
        ∃ workerId, JobsCall.op c = .outbox entry.entryId workerId (.fail error)
    | _, _ => False
  afterOp g _ r := g.afterReply r
  mayCall
    | .outside, c => c = WakeCall.transaction
    | .claimed entry, c => c = WakeCall.publish entry.message
    | .publishing _, _ => False
    | .accepted _, c | .refused _ _, c => c = WakeCall.transaction
  afterCall
    | .claimed entry, _ => .publishing entry
    | g, _ => g
  afterAnswer
    | .publishing entry, .publish _, a => .afterPublish entry a
    | g, _, _ => g

namespace Publisher
variable {workerId : String} {now : Option Timestamp}

theorem afterPublish_follows (entry : OutboxEntry) (a : Except String Unit) :
    publishProtocol.Follows (afterPublish workerId now entry a) (fun _ _ => True)
      (PublishPhase.afterPublish entry a) := by
  cases a with
  | error error =>
      refine ⟨rfl, fun moment => ⟨⟨workerId, rfl⟩, fun r _ => ?_⟩⟩
      cases r <;> trivial
  | ok =>
      refine ⟨rfl, fun moment => ⟨⟨workerId, rfl⟩, fun r _ => ?_⟩⟩
      cases r <;> trivial

theorem publishOutboxOnce_follows :
    publishProtocol.Follows (publishOutboxOnce workerId now) (fun _ _ => True)
      PublishPhase.outside := by
  refine ⟨rfl, fun moment => ⟨fun _ _ _ => by simp, fun r _ => ?_⟩⟩
  match r with
  | .error _ => trivial
  | .ok (.entries (entry :: _)) => exact ⟨rfl, fun a => afterPublish_follows entry a⟩
  | .ok (.entries []) => trivial
  | .ok .none | .ok (.job _) | .ok (.jobs _) | .ok (.gate _) | .ok (.entry _)
  | .ok (.cancellation _) => trivial

end Publisher

theorem WakeProcess.prog_follows (x : WakeProcess) :
    publishProtocol.Follows x.prog (fun _ _ => True) publishProtocol.start := by
  cases x with
  | publisher workerId now =>
      exact (Protocol.follows_bind _ _ _ _ _).mpr Publisher.publishOutboxOnce_follows
  | other c => exact ⟨c.other, fun _ _ => trivial⟩

/-- The broker was handed the message and gave this answer. -/
def Handed (notes : List (Note wakeSignature)) (message : WakeMessage)
    (a : Except String Unit) : Prop :=
  ∃ i, (.answered i (.publish message) a : Note wakeSignature) ∈ notes

/-- How often a message of the job was handed to the broker. -/
def handovers (notes : List (Note wakeSignature)) (jobId : Uuid) : Nat :=
  notes.countP fun
    | .invoked _ (.publish message) => message.2.1 = jobId
    | _ => false

/-- What the status of a row says about the broker. -/
def OutboxModel.Backed (notes : List (Note wakeSignature)) (row : OutboxModel) : Prop :=
  match row.status with
  | .pending => True
  | .publishing => row.leaseExpiresAt.isSome
  | .published => Handed notes row.message (.ok ())
  | .failed => outboxMaxAttempts ≤ row.attempt ∧
      ∃ error, Handed notes row.message (.error error) ∧
        row.error = some (PyStr.prefixTo 2000 error)

/-- The publishers that hold a claim of the row count as handovers to come. -/
structure Wakes (s : JobStore) (phase : Nat → PublishPhase)
    (notes : List (Note wakeSignature)) : Prop where
  announced : Announced s
  held : ∀ i entry, (phase i).held? = some entry → ∃ row ∈ s.outbox.rows,
    row.entryId = entry.entryId ∧ row.message = entry.message
  accepted : ∀ i entry, phase i = .accepted entry → Handed notes entry.message (.ok ())
  refused : ∀ i entry error, phase i = .refused entry error →
    Handed notes entry.message (.error error)
  backed : ∀ row ∈ s.outbox.rows, row.Backed notes
  known : ∀ i message, (.invoked i (.publish message) : Note wakeSignature) ∈ notes →
    ∃ row ∈ s.outbox.rows, row.message = message
  counted : ∀ row ∈ s.outbox.rows,
    (handovers notes row.messageKey : ℕ∞) + {i | (phase i).Waits row.entryId}.encard ≤ row.attempt

section Facts
variable {notes : List (Note wakeSignature)} {note : Note wakeSignature}

theorem Handed.concat {message : WakeMessage} {a : Except String Unit}
    (h : Handed notes message a) (note : Note wakeSignature) :
    Handed (notes ++ [note]) message a := by
  obtain ⟨i, hi⟩ := h
  exact ⟨i, List.mem_append_left _ hi⟩

theorem OutboxModel.Backed.concat {row : OutboxModel} (h : row.Backed notes)
    (note : Note wakeSignature) : row.Backed (notes ++ [note]) := by
  unfold Backed at h ⊢
  cases hstatus : row.status with
  | pending => trivial
  | publishing => simpa only [hstatus] using h
  | published =>
      simp only [hstatus] at h ⊢
      exact h.concat note
  | failed =>
      simp only [hstatus] at h ⊢
      obtain ⟨hattempt, error, hhanded, herror⟩ := h
      exact ⟨hattempt, error, hhanded.concat note, herror⟩

theorem handovers_concat (note : Note wakeSignature) (jobId : Uuid) :
    handovers (notes ++ [note]) jobId = handovers notes jobId + handovers [note] jobId :=
  List.countP_append ..

/-- A key that was handed over belongs to a message that was. -/
theorem exists_of_handovers_ne_zero {jobId : Uuid} (h : handovers notes jobId ≠ 0) :
    ∃ i message, (.invoked i (.publish message) : Note wakeSignature) ∈ notes ∧
      message.2.1 = jobId := by
  obtain ⟨note, hnote, hcounts⟩ := List.countP_pos_iff.mp (Nat.pos_of_ne_zero h)
  split at hcounts
  · rename_i i message
    exact ⟨i, message, hnote, of_decide_eq_true hcounts⟩
  · cases hcounts

/-- No two rows of the outbox have the same key: it is the id of their job. -/
theorem Announced.entry_unique {s : JobStore} (h : Announced s) {row row' : OutboxModel}
    (hrow : row ∈ s.outbox.rows) (hrow' : row' ∈ s.outbox.rows)
    (hkey : row.messageKey = row'.messageKey) : row = row' := by
  have hkeys : s.outbox.rows.map (·.messageKey) = s.jobs.rows.map (·.jobId) := by
    have hmessages := congrArg (List.map fun message : WakeMessage => message.2.1) h.messages
    rw [List.map_map, List.map_map] at hmessages
    exact hmessages
  have hnodup : (s.outbox.rows.map (·.messageKey)).Nodup := hkeys ▸ s.jobs.nodup
  exact List.inj_on_of_nodup_map hnodup hrow hrow' hkey

end Facts

namespace Wakes
variable {tenant : TenantContext} {s : JobStore} {phase : Nat → PublishPhase}
  {notes : List (Note wakeSignature)} {i : Nat}

theorem initial : Wakes .empty (fun _ => .outside) [] where
  announced := .empty
  held _ _ h := by cases h
  accepted _ _ h := by cases h
  refused _ _ _ h := by cases h
  backed _ h := by cases h
  known _ _ h := by cases h
  counted _ h := by cases h

/-- A note that is no handover adds nothing to what is known. -/
theorem note (h : Wakes s phase notes) (note : Note wakeSignature)
    (hquiet : ∀ i message, note ≠ .invoked i (.publish message)) :
    Wakes s phase (notes ++ [note]) where
  announced := h.announced
  held := h.held
  accepted i entry hi := (h.accepted i entry hi).concat note
  refused i entry error hi := (h.refused i entry error hi).concat note
  backed row hrow := (h.backed row hrow).concat note
  known i message hi := by
    rcases List.mem_append.mp hi with hi | hi
    · exact h.known i message hi
    · exact absurd (List.mem_singleton.mp hi).symm (hquiet i message)
  counted row hrow := by
    have hnone : handovers [note] row.messageKey = 0 := by
      by_contra hne
      obtain ⟨i, message, hmem, -⟩ := exists_of_handovers_ne_zero hne
      exact hquiet i message (List.mem_singleton.mp hmem).symm
    rw [handovers_concat, hnone, Nat.add_zero]
    exact h.counted row hrow

/-- A thread that goes on with the message it has, or lets it go. -/
theorem move (h : Wakes s phase notes) {g : PublishPhase}
    (hentry : ∀ entry, g.held? = some entry → (phase i).held? = some entry)
    (haccepted : ∀ entry, g = .accepted entry → Handed notes entry.message (.ok ()))
    (hrefused : ∀ entry error, g = .refused entry error →
      Handed notes entry.message (.error error))
    (hwaits : ∀ entryId, g.Waits entryId → (phase i).Waits entryId) :
    Wakes s (Function.update phase i g) notes where
  announced := h.announced
  held j entry hj := by
    by_cases hji : j = i
    · subst hji
      rw [Function.update_self] at hj
      exact h.held j entry (hentry entry hj)
    · rw [Function.update_of_ne hji] at hj
      exact h.held j entry hj
  accepted j entry hj := by
    by_cases hji : j = i
    · subst hji
      rw [Function.update_self] at hj
      exact haccepted entry hj
    · rw [Function.update_of_ne hji] at hj
      exact h.accepted j entry hj
  refused j entry error hj := by
    by_cases hji : j = i
    · subst hji
      rw [Function.update_self] at hj
      exact hrefused entry error hj
    · rw [Function.update_of_ne hji] at hj
      exact h.refused j entry error hj
  backed := h.backed
  known := h.known
  counted row hrow := by
    refine le_trans (add_le_add_right (Set.encard_le_encard fun j hj => ?_) _) (h.counted row hrow)
    rw [Set.mem_ofPred_eq] at hj ⊢
    by_cases hji : j = i
    · subst hji
      rw [Function.update_self] at hj
      exact hwaits _ hj
    · rwa [Function.update_of_ne hji] at hj

/-- A claim is used up by the handover of its message. -/
theorem handover (h : Wakes s phase notes) {entry : OutboxEntry}
    (hphase : phase i = .claimed entry) :
    Wakes s (Function.update phase i (.publishing entry))
      (notes ++ [(.invoked i (.publish entry.message) : Note wakeSignature)]) := by
  obtain ⟨row, hrow, hid, hmessage⟩ := h.held i entry (by rw [hphase]; rfl)
  have hmoved := h.move (i := i) (g := .publishing entry) (fun _ hg => by rw [hphase]; exact hg)
    (fun _ hg => by cases hg) (fun _ _ hg => by cases hg)
    (fun _ hg => by obtain ⟨_, hg, -⟩ := hg; cases hg)
  refine ⟨hmoved.announced, hmoved.held, fun j e hj => (hmoved.accepted j e hj).concat _,
    fun j e error hj => (hmoved.refused j e error hj).concat _,
    fun row hrow => (hmoved.backed row hrow).concat _, ?_, ?_⟩
  · intro j message hj
    rcases List.mem_append.mp hj with hj | hj
    · exact h.known j message hj
    · cases List.mem_singleton.mp hj
      exact ⟨row, hrow, hmessage⟩
  · intro row' hrow'
    rw [handovers_concat]
    by_cases hkey : row'.messageKey = row.messageKey
    · obtain rfl := h.announced.entry_unique hrow' hrow hkey
      -- The thread was among those that wait for this row.
      have hwaits : i ∈ {j | (phase j).Waits row'.entryId} := ⟨entry, hphase, hid.symm⟩
      have hset : {j | (Function.update phase i (.publishing entry) j).Waits row'.entryId} =
          {j | (phase j).Waits row'.entryId} \ {i} := by
        ext j
        by_cases hji : j = i
        · subst hji
          simp [PublishPhase.Waits]
        · simp [hji]
      have hone : handovers [(.invoked i (.publish entry.message) : Note wakeSignature)]
          row'.messageKey = 1 := by
        have hsame : entry.message.2.1 = row'.messageKey := by rw [← hmessage]; rfl
        simp [handovers, hsame]
      rw [hset, hone]
      have hcounted := h.counted row' hrow'
      rw [← Set.encard_sdiff_singleton_add_one hwaits] at hcounted
      push_cast
      rwa [add_assoc, add_comm 1]
    · have hnone : handovers [(.invoked i (.publish entry.message) : Note wakeSignature)]
          row'.messageKey = 0 := by
        have hother : ¬ entry.message.2.1 = row'.messageKey := by
          rw [← hmessage]
          exact fun heq => hkey heq.symm
        simp [handovers, hother]
      rw [hnone, Nat.add_zero]
      exact hmoved.counted row' hrow'

section Committed
variable {c : JobsCall}

/-- A row keeps its number and its message. -/
theorem entry_forward (tenant : TenantContext) (c : JobsCall) {s : JobStore} {row : OutboxModel}
    (hrow : row ∈ s.outbox.rows) : ∃ row' ∈ (c.apply tenant s).2.outbox.rows,
      row'.entryId = row.entryId ∧ row'.message = row.message := by
  obtain ⟨row', hrow', hstep⟩ :=
    (JobsCall.apply_changes tenant c s).outbox.find?_forward (KeyedTable.find?_of_mem hrow)
  refine ⟨row', KeyedTable.find?_mem hrow',
    (KeyedTable.find?_key hrow' : OutboxModel.key row' = row.entryId), ?_⟩
  rcases hstep with rfl | hstep
  · rfl
  · exact hstep.message

/-- Whoever waits for a row after a reply waited before or got it just now. -/
theorem claims_of_waits {r : Except JobsError JobsReply} {entryId : Nat} {g : PublishPhase}
    (h : (g.afterReply r).Waits entryId) : claimsEntry entryId r := by
  obtain ⟨entry, hentry, rfl⟩ := h
  unfold PublishPhase.afterReply at hentry
  split at hentry
  · rename_i entry' more
    cases hentry
    simp [claimsEntry]
  · cases hentry

theorem counted_claim {r : Except JobsError JobsReply} (entryId : Nat) :
    {j | (Function.update phase i ((phase i).afterReply r) j).Waits entryId}.encard ≤
      {j | (phase j).Waits entryId}.encard + (if claimsEntry entryId r then 1 else 0 : ℕ) := by
  by_cases hclaims : claimsEntry entryId r
  · rw [if_pos hclaims]
    refine le_trans (Set.encard_le_encard fun j hj => ?_) (Set.encard_insert_le _ i)
    rw [Set.mem_ofPred_eq] at hj
    by_cases hji : j = i
    · exact Or.inl hji
    · rw [Function.update_of_ne hji] at hj
      exact Or.inr hj
  · rw [if_neg hclaims, Nat.cast_zero, add_zero]
    refine Set.encard_le_encard fun j hj => ?_
    rw [Set.mem_ofPred_eq] at hj ⊢
    by_cases hji : j = i
    · subst hji
      rw [Function.update_self] at hj
      exact absurd (claims_of_waits hj) hclaims
    · rwa [Function.update_of_ne hji] at hj

/-- What a publisher writes is the outcome it saw. -/
theorem outcome_of_mayOp {g : PublishPhase} {entryId : Nat} {workerId : String}
    {outcome : OutboxCall} (hmay : publishProtocol.mayOp g c)
    (hop : c.op = .outbox entryId workerId outcome) :
    ∃ entry, entry.entryId = entryId ∧
      (outcome = .markPublished ∧ g = .accepted entry ∨
        ∃ error, outcome = .fail error ∧ g = .refused entry error) := by
  cases g with
  | outside => exact absurd hop (hmay _ _ _)
  | claimed entry | publishing entry => exact hmay.elim
  | accepted entry =>
      obtain ⟨workerId', hmark⟩ := hmay
      cases hop.symm.trans hmark
      exact ⟨entry, rfl, Or.inl ⟨rfl, rfl⟩⟩
  | refused entry error =>
      obtain ⟨workerId', hfail⟩ := hmay
      cases hop.symm.trans hfail
      exact ⟨entry, rfl, Or.inr ⟨error, rfl, rfl⟩⟩

/-- The message a thread holds is that of the row with its number. -/
theorem held_message (h : Wakes s phase notes) {entry : OutboxEntry}
    (hphase : (phase i).held? = some entry) {row : OutboxModel} (hrow : row ∈ s.outbox.rows)
    (hid : entry.entryId = row.entryId) : entry.message = row.message := by
  obtain ⟨row', hrow', hid', hmessage⟩ := h.held i entry hphase
  obtain rfl : row' = row := s.outbox.eq_of_key_eq hrow' hrow (hid'.trans hid)
  exact hmessage.symm

theorem backed_step (h : Wakes s phase notes) (hmay : publishProtocol.mayOp (phase i) c)
    {row row' : OutboxModel} (hrow : row ∈ s.outbox.rows)
    (hstep : JobsCall.EntryStep s c row row') : row'.Backed notes := by
  cases hstep with
  | claimed => exact rfl
  | @published now workerId _ hleased =>
      obtain ⟨entry, hid, ⟨-, hphase⟩ | ⟨error, hop, -⟩⟩ := outcome_of_mayOp hmay rfl
      · have hmessage := h.held_message (by rw [hphase]; rfl) hrow hid
        have haccepted : Handed notes row.message (.ok ()) :=
          hmessage ▸ h.accepted i entry hphase
        exact haccepted
      · cases hop
  | @failed now workerId error _ hleased =>
      obtain ⟨entry, hid, ⟨hop, -⟩ | ⟨error', hop, hphase⟩⟩ := outcome_of_mayOp hmay rfl
      · cases hop
      · cases hop
        have hmessage := h.held_message (by rw [hphase]; rfl) hrow hid
        have hrefused : Handed notes row.message (.error error) :=
          hmessage ▸ h.refused i entry error hphase
        unfold OutboxModel.Backed
        by_cases hretry : row.willRetry
        · have hstatus : (row.failed error now).status = .pending := if_pos hretry
          rw [hstatus]
          trivial
        · have hstatus : (row.failed error now).status = .failed := if_neg hretry
          have hattempt : outboxMaxAttempts ≤ row.attempt := by
            simpa [OutboxModel.willRetry] using hretry
          rw [hstatus]
          exact ⟨hattempt, error, hrefused, rfl⟩

/-- A message that was queued just now was never handed over. -/
theorem unsent_of_new (h : Wakes s phase notes) (hnew : Announced (c.apply tenant s).2)
    {row' : OutboxModel} (hrow' : row' ∈ (c.apply tenant s).2.outbox.rows)
    (hnone : s.message? row'.entryId = none) :
    handovers notes row'.messageKey = 0 ∧ ∀ j, ¬ (phase j).Waits row'.entryId := by
  have hfresh : ∀ row ∈ s.outbox.rows, row.entryId ≠ row'.entryId :=
    KeyedTable.find?_eq_none_iff.mp hnone
  refine ⟨?_, ?_⟩
  · by_contra hne
    obtain ⟨j, message, hj, hkey⟩ := exists_of_handovers_ne_zero hne
    obtain ⟨row, hrow, rfl⟩ := h.known j message hj
    obtain ⟨row₁, hrow₁, hid, hmessage⟩ := entry_forward tenant c hrow
    have hsame : row₁.messageKey = row'.messageKey :=
      (congrArg (fun message : WakeMessage => message.2.1) hmessage).trans hkey
    obtain rfl := hnew.entry_unique hrow₁ hrow' hsame
    exact hfresh row hrow hid.symm
  · rintro j ⟨entry, hphase, hid⟩
    obtain ⟨row, hrow, hid', -⟩ := h.held j entry (by rw [hphase]; rfl)
    exact hfresh row hrow (hid'.trans hid)

theorem counted_apply (h : Wakes s phase notes) (hnew : Announced (c.apply tenant s).2)
    {row' : OutboxModel} (hrow' : row' ∈ (c.apply tenant s).2.outbox.rows) :
    (handovers notes row'.messageKey : ℕ∞) +
      {j | (Function.update phase i ((phase i).afterReply (c.apply tenant s).1) j).Waits
        row'.entryId}.encard ≤ row'.attempt := by
  have hfind : (c.apply tenant s).2.outbox.toKeyedTable.find? row'.entryId = some row' :=
    KeyedTable.find?_of_mem hrow'
  have hattempt : row'.attempt =
      Lease.attempts OutboxModel.cell s.outbox.toKeyedTable row'.entryId +
        if claimsEntry row'.entryId (c.apply tenant s).1 then 1 else 0 := by
    rw [← JobsCall.entryAttempts_apply]
    simp [Lease.attempts, hfind, OutboxModel.cell]
  have hbefore : (handovers notes row'.messageKey : ℕ∞) +
      {j | (phase j).Waits row'.entryId}.encard ≤
        (Lease.attempts OutboxModel.cell s.outbox.toKeyedTable row'.entryId : ℕ) := by
    cases hold : s.message? row'.entryId with
    | none =>
        obtain ⟨hunsent, hwaits⟩ := h.unsent_of_new hnew hrow' hold
        have hempty : {j | (phase j).Waits row'.entryId} = ∅ :=
          Set.eq_empty_of_forall_notMem hwaits
        simp [hunsent, hempty]
    | some row =>
        obtain ⟨row₁, hrow₁, hid, hmessage⟩ := entry_forward tenant c (KeyedTable.find?_mem hold)
        have hkey : OutboxModel.key row = row'.entryId := KeyedTable.find?_key hold
        obtain rfl : row₁ = row' :=
          (c.apply tenant s).2.outbox.eq_of_key_eq hrow₁ hrow' (hid.trans hkey)
        have hsame : row.messageKey = row₁.messageKey :=
          (congrArg (fun message : WakeMessage => message.2.1) hmessage).symm
        have hcounted := h.counted row (KeyedTable.find?_mem hold)
        have hcell : Lease.attempts OutboxModel.cell s.outbox.toKeyedTable row₁.entryId =
            row.attempt := by
          have hfound : s.outbox.toKeyedTable.find? row₁.entryId = some row := hold
          simp [Lease.attempts, hfound, OutboxModel.cell]
        rwa [hcell, ← hsame, ← hkey]
  calc (handovers notes row'.messageKey : ℕ∞) + _
      ≤ handovers notes row'.messageKey + ({j | (phase j).Waits row'.entryId}.encard +
          (if claimsEntry row'.entryId (c.apply tenant s).1 then 1 else 0 : ℕ)) :=
        add_le_add_right (counted_claim row'.entryId) _
    _ ≤ (Lease.attempts OutboxModel.cell s.outbox.toKeyedTable row'.entryId : ℕ) +
          (if claimsEntry row'.entryId (c.apply tenant s).1 then 1 else 0 : ℕ) := by
        rw [← add_assoc]
        exact add_le_add_left hbefore _
    _ = row'.attempt := by rw [hattempt]; exact (Nat.cast_add _ _).symm

/-- The entries of a reply are rows of the outbox. -/
theorem entry_of_reply {entries : List OutboxEntry}
    (h : (c.apply tenant s).1 = .ok (.entries entries)) {entry : OutboxEntry}
    (hentry : entry ∈ entries) :
    ∃ row ∈ (c.apply tenant s).2.outbox.rows, row.toOutboxEntry = entry := by
  have hclaims : claimsEntry entry.entryId (c.apply tenant s).1 := by
    rw [h]
    exact List.any_eq_true.mpr ⟨entry, hentry, decide_eq_true rfl⟩
  rw [JobsCall.claimsEntry_apply] at hclaims
  obtain ⟨now, op⟩ := c
  cases op with
  | claimOutbox workerId limit locked =>
      cases h
      obtain ⟨claimed, hclaimed, rfl⟩ := List.mem_map.mp hentry
      obtain ⟨row, hrow, rfl⟩ := List.mem_map.mp hclaimed
      exact ⟨_, KeyedTable.find?_mem (JobsCall.message?_claimOutbox tenant workerId locked hrow),
        rfl⟩
  | _ => cases hclaims

/-- A committed call of a publisher, or of anybody else. -/
theorem committed (tenant : TenantContext) (h : Wakes s phase notes)
    (hmay : publishProtocol.mayOp (phase i) c) :
    Wakes (c.apply tenant s).2
      (Function.update phase i ((phase i).afterReply (c.apply tenant s).1))
      (notes ++ [(.committed i c (c.apply tenant s).1 : Note wakeSignature)]) := by
  have hannounced : Announced (c.apply tenant s).2 := h.announced.apply c
  have hreply : ∀ {g entry}, (phase i).afterReply (c.apply tenant s).1 = g →
      g.held? = some entry → g = .claimed entry ∧
        ∃ more, (c.apply tenant s).1 = .ok (.entries (entry :: more)) := by
    rintro g entry rfl hentry
    unfold PublishPhase.afterReply at hentry ⊢
    split at hentry
    · rename_i more _ hentries
      cases hentry
      exact ⟨rfl, more, hentries⟩
    · cases hentry
  refine ⟨hannounced, ?_, ?_, ?_, ?_, ?_, ?_⟩
  · intro j entry hj
    by_cases hji : j = i
    · subst hji
      rw [Function.update_self] at hj
      obtain ⟨-, more, hentries⟩ := hreply rfl hj
      obtain ⟨row, hrow, rfl⟩ := entry_of_reply hentries List.mem_cons_self
      exact ⟨row, hrow, rfl, rfl⟩
    · rw [Function.update_of_ne hji] at hj
      obtain ⟨row, hrow, hid, hmessage⟩ := h.held j entry hj
      obtain ⟨row', hrow', hid', hmessage'⟩ := entry_forward tenant c hrow
      exact ⟨row', hrow', hid'.trans hid, hmessage'.trans hmessage⟩
  · intro j entry hj
    by_cases hji : j = i
    · subst hji
      rw [Function.update_self] at hj
      cases (hreply hj rfl).1
    · rw [Function.update_of_ne hji] at hj
      exact (h.accepted j entry hj).concat _
  · intro j entry error hj
    by_cases hji : j = i
    · subst hji
      rw [Function.update_self] at hj
      cases (hreply hj rfl).1
    · rw [Function.update_of_ne hji] at hj
      exact (h.refused j entry error hj).concat _
  · intro row' hrow'
    refine OutboxModel.Backed.concat ?_ _
    rcases (JobsCall.apply_changes tenant c s).outbox.find?_backward
      (KeyedTable.find?_of_mem hrow') with ⟨-, hnew⟩ | ⟨row, hrow, rfl | hstep⟩
    · have hstatus : row'.status = .pending := by cases hnew <;> assumption
      rw [OutboxModel.Backed, hstatus]
      trivial
    · exact h.backed _ (KeyedTable.find?_mem hrow)
    · exact h.backed_step hmay (KeyedTable.find?_mem hrow) hstep
  · intro j message hj
    rcases List.mem_append.mp hj with hj | hj
    · obtain ⟨row, hrow, rfl⟩ := h.known j message hj
      obtain ⟨row', hrow', -, hmessage⟩ := entry_forward tenant c hrow
      exact ⟨row', hrow', hmessage⟩
    · cases List.mem_singleton.mp hj
  · intro row' hrow'
    rw [handovers_concat]
    exact h.counted_apply hannounced hrow'

end Committed

theorem step (tenant : TenantContext) (h : Wakes s phase notes) {note : Note wakeSignature}
    {s' : JobStore}
    (hstep : publishProtocol.Step (fun c => JobsCall.apply tenant c) phase s note s') :
    Wakes s' (publishProtocol.advance phase note) (notes ++ [note]) := by
  cases hstep with
  | silent => exact h.note _ fun _ _ hnote => by cases hnote
  | committed i c hmay => exact h.committed tenant hmay
  | invoked i c hmay =>
      cases hphase : phase i with
      | claimed entry =>
          obtain rfl : c = .publish entry.message := by simpa [publishProtocol, hphase] using hmay
          simpa [Protocol.advance, publishProtocol, hphase] using h.handover hphase
      | publishing entry => simp [publishProtocol, hphase] at hmay
      | outside | accepted entry | refused entry error =>
          obtain rfl : c = .transaction := by simpa [publishProtocol, hphase] using hmay
          have hrests : publishProtocol.afterCall (phase i) WakeCall.transaction = phase i := by
            rw [hphase]
            rfl
          have hsame : publishProtocol.advance phase (.invoked i .transaction) = phase :=
            (congrArg (Function.update phase i) hrests).trans (Function.update_eq_self i phase)
          rw [hsame]
          exact h.note _ fun _ _ hnote => by cases hnote
  | answered i c a hawaits =>
      obtain ⟨g, hmay, hphase⟩ := hawaits
      cases g with
      | claimed entry =>
          obtain rfl : c = .publish entry.message := hmay
          have hpublishing : phase i = .publishing entry := hphase
          have hnoted := h.note (.answered i (.publish entry.message) a)
            fun _ _ hnote => by cases hnote
          have hhanded : Handed (notes ++ [.answered i (.publish entry.message) a])
              entry.message a := ⟨i, List.mem_append_right _ List.mem_cons_self⟩
          have hadvance : publishProtocol.advance phase (.answered i (.publish entry.message) a) =
              Function.update phase i (.afterPublish entry a) := by
            change Function.update phase i (publishProtocol.afterAnswer (phase i) _ a) = _
            rw [hpublishing]
            rfl
          rw [hadvance]
          cases a with
          | ok =>
              refine hnoted.move (fun e he => by rw [hpublishing]; exact he) ?_
                (fun _ _ he => by cases he) (fun _ hwaits => by cases hwaits.choose_spec.1)
              rintro e ⟨⟩
              exact hhanded
          | error error =>
              refine hnoted.move (fun e he => by rw [hpublishing]; exact he)
                (fun _ he => by cases he) ?_ (fun _ hwaits => by cases hwaits.choose_spec.1)
              rintro e error' ⟨⟩
              exact hhanded
      | publishing entry => exact hmay.elim
      | outside | accepted entry | refused entry error =>
          obtain rfl : c = .transaction := hmay
          have hrests : publishProtocol.afterAnswer (phase i) WakeCall.transaction a =
              phase i := by
            rw [hphase]
            rfl
          have hsame : publishProtocol.advance phase (.answered i .transaction a) = phase :=
            (congrArg (Function.update phase i) hrests).trans (Function.update_eq_self i phase)
          rw [hsame]
          exact h.note _ fun _ _ hnote => by cases hnote

end Wakes

section Runs
variable (tenant : TenantContext) (choices : List (Choice WakeProcess wakeSignature))

/-- The tables after a history of publishers and other calls. -/
def wakeStore : JobStore :=
  (System.after (fun c => JobsCall.apply tenant c) WakeProcess.prog .empty choices).store

def wakeNotes : List (Note wakeSignature) :=
  System.notes (fun c => JobsCall.apply tenant c) WakeProcess.prog .empty choices

theorem wakes_after :
    Wakes (wakeStore tenant choices) (publishProtocol.phases (wakeNotes tenant choices))
      (wakeNotes tenant choices) :=
  (Protocol.run_invariant (P := publishProtocol) (fun _ _ => trivial) WakeProcess.prog_follows
    Wakes.initial (fun _ _ _ _ h hstep => h.step tenant hstep) choices).1

end Runs

/-- What became of the message of a job. -/
inductive WakeOutcome (notes : List (Note wakeSignature)) (entry : OutboxModel) : Prop where
  /-- From some time on the next publisher may claim it. -/
  | due (time : Timestamp) (h : ∀ now, time ≤ now → entry.claimable now)
  | published (hstatus : entry.status = .published) (h : Handed notes entry.message (.ok ()))
  /-- The broker refused it when its row had used up the attempts. -/
  | failed (hstatus : entry.status = .failed) (hattempt : outboxMaxAttempts ≤ entry.attempt)
      (error : String) (h : Handed notes entry.message (.error error))
      (herror : entry.error = some (PyStr.prefixTo 2000 error))

theorem OutboxModel.Backed.outcome {notes : List (Note wakeSignature)} {entry : OutboxModel}
    (h : entry.Backed notes) : WakeOutcome notes entry := by
  unfold Backed at h
  cases hstatus : entry.status with
  | pending =>
      exact .due entry.availableAt fun now hnow => by simp [claimable, hstatus, hnow]
  | publishing =>
      rw [hstatus] at h
      obtain ⟨expiry, hexpiry⟩ := Option.isSome_iff_exists.mp h
      exact .due expiry fun now hnow => by simp [claimable, hstatus, hexpiry, hnow]
  | published =>
      rw [hstatus] at h
      exact .published hstatus h
  | failed =>
      rw [hstatus] at h
      obtain ⟨hattempt, error, hhanded, herror⟩ := h
      exact .failed hstatus hattempt error hhanded herror

/-- In every history each job has one message. It is handed to the broker at most
once for each claim of its row, and it was accepted, or refused for good, or it can
still be claimed; nothing but the messages of the jobs is ever handed over. -/
theorem wakeups_delivered (tenant : TenantContext)
    (choices : List (Choice WakeProcess wakeSignature)) :
    (∀ row ∈ (wakeStore tenant choices).jobs.rows, ∃ entry,
      (wakeStore tenant choices).messagesOf row.jobId = [entry] ∧
      entry.message = row.message ∧
      handovers (wakeNotes tenant choices) row.jobId ≤ entry.attempt ∧
      WakeOutcome (wakeNotes tenant choices) entry) ∧
    ∀ i message, (.invoked i (.publish message) : Note wakeSignature) ∈ wakeNotes tenant choices →
      ∃ row ∈ (wakeStore tenant choices).jobs.rows, row.message = message := by
  have h := wakes_after tenant choices
  refine ⟨fun row hrow => ?_, fun i message hi => ?_⟩
  · obtain ⟨entry, hentry, hmessage⟩ := h.announced.message hrow
    obtain ⟨hmem, hkey⟩ : entry ∈ (wakeStore tenant choices).outbox.rows ∧
        entry.messageKey = row.jobId := by
      have hfiltered : entry ∈ (wakeStore tenant choices).messagesOf row.jobId := by
        rw [hentry]
        exact List.mem_cons_self
      simpa [JobStore.messagesOf] using hfiltered
    refine ⟨entry, hentry, hmessage, ?_, (h.backed entry hmem).outcome⟩
    have hcounted := le_self_add.trans (h.counted entry hmem)
    rw [← hkey]
    exact_mod_cast hcounted
  · obtain ⟨entry, hentry, rfl⟩ := h.known i message hi
    have hmem : entry.message ∈ (wakeStore tenant choices).jobs.rows.map JobModel.message := by
      rw [← h.announced.messages]
      exact List.mem_map_of_mem hentry
    exact List.mem_map.mp hmem

/-- The broker accepts, whenever it is asked. -/
def acceptedAt (now : Timestamp) : (c : WakeCall) → c.Answer
  | .transaction => (⟨now, []⟩ : Moment)
  | .publish _ => Except.ok ()

/-- A publisher crashes after the handover, and a second one takes its row over. -/
def crashedPublisher : List (Choice WakeProcess wakeSignature) :=
  [.spawn (.other ⟨⟨0, .enqueueRun "run-1" "offer" "tiktok" 1 (.obj []) 5⟩,
      fun _ _ _ h => by cases h⟩),
    .commit 0, .spawn (.publisher "a" none), .invoke 1, .answer 1 (acceptedAt 0), .commit 1,
    .invoke 1, .answer 1 (acceptedAt 0), .crash 1, .spawn (.publisher "a" none), .invoke 2,
    .answer 2 (acceptedAt (seconds leaseSeconds)), .commit 2, .invoke 2,
    .answer 2 (acceptedAt 0), .invoke 2, .answer 2 (acceptedAt (seconds leaseSeconds)), .commit 2]

example : handovers (wakeNotes sampleTenant crashedPublisher)
      "696068ec-7393-53f2-a0e9-f3780ea33d7f" = 2 ∧
    (wakeStore sampleTenant crashedPublisher).outbox.rows.map
      (fun row => (row.status, row.attempt)) = [(.published, 2)] := by
  decide +kernel

end Orchestrator
