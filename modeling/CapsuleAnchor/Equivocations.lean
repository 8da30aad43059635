import CapsuleAnchor.Backends
import CapsuleAnchor.Contract
import CapsuleAnchor.FirstWins
import CapsuleAnchor.Footprint

/-!
# Equivocations

`put_checkpoint_record` keeps the first record of a position `(log_id, mmr_size)` and lists every later one with another
root.  Each of the three backends does at a put what `FirstWins` says (`Recorded.put`), and no other call touches the
records or the list (`Recorded.frame`), so after any calls in any order the table and the list are those of the puts
made so far (`recorded_after`).

A request makes such a put for a checkpoint that `POST /checkpoints` accepts, and for nothing else (`Surfaces`).
`equivocations_complete` is what the list then says about the submissions.
-/

namespace CapsuleAnchor

open Interleaving FirstWins

variable (E : Env) (cfg : Config)

/-- The records handed to `put_checkpoint_record`, in the order of the calls. -/
def submitted (t : CallTrail) : List ((String × Nat) × CheckpointRecord) :=
  (surfaced t).map fun row => ((row.1, row.2.1), row.2.2)

theorem submitted_append (t u : CallTrail) : submitted (t ++ u) = submitted t ++ submitted u := by
  rw [submitted, surfaced_append, List.map_append, submitted, submitted]

/-! ### One call -/

/-- The event that a conflict is listed as. -/
def equivocation (c : Conflict (String × Nat) CheckpointRecord) : Equivocation :=
  ⟨c.key.2, c.first.evidence, c.later.evidence⟩

/-- The events of one log among the conflicts. -/
def eventsOf (logId : String) (puts : List ((String × Nat) × CheckpointRecord)) : List Equivocation :=
  ((conflicts CheckpointRecord.root puts).filter (·.key.1 = logId)).map equivocation

/-- The store has the records and the events of these puts. -/
structure Recorded (b : Backend) (puts : List ((String × Nat) × CheckpointRecord)) (s : b.Store) : Prop where
  record : ∀ logId mmrSize, b.getCheckpointRecord E logId mmrSize s = puts.lookup (logId, mmrSize)
  events : ∀ logId, b.getCheckpointEquivocations logId s = eventsOf logId puts

theorem recorded_empty (b : Backend) : Recorded E b [] b.empty := by
  cases b <;> exact ⟨fun _ _ => rfl, fun _ => rfl⟩

/-- The event of a new put, if it is one of this log. -/
private def eventOf (logId : String) (holder : Option CheckpointRecord) (put : (String × Nat) × CheckpointRecord) :
    List Equivocation :=
  if put.1.1 = logId then (conflictWith CheckpointRecord.root holder put).toList.map equivocation else []

private theorem eventsOf_concat (logId : String) (puts : List ((String × Nat) × CheckpointRecord)) (key : String × Nat)
    (record : CheckpointRecord) :
    eventsOf logId (puts ++ [(key, record)]) = eventsOf logId puts ++ eventOf logId (puts.lookup key) (key, record) := by
  rw [eventsOf, conflicts_concat, List.filter_append, List.map_append, eventsOf]
  congr 1
  cases hholder : puts.lookup key with
  | none => simp [conflictWith, eventOf]
  | some first =>
    by_cases hroot : first.root = record.root
    · simp [conflictWith, hroot, eventOf]
    · by_cases hid : key.1 = logId <;> simp [conflictWith, hroot, hid, eventOf]

variable {E} {b : Backend} {puts : List ((String × Nat) × CheckpointRecord)}

private theorem memory_records (s : MemoryStore) (logId : String) (mmrSize : Nat) (record : CheckpointRecord) :
    (s.putCheckpointRecord logId mmrSize record).2.checkpointRecords =
      insertNew s.checkpointRecords (logId, mmrSize) record := by
  unfold MemoryStore.putCheckpointRecord insertNew
  cases s.checkpointRecords.lookup (logId, mmrSize) with
  | none => rfl
  | some existing =>
    simp only
    split <;> rfl

private theorem sql_records (s : SqlStore) (logId : String) (mmrSize : Nat) (record : CheckpointRecord) :
    (s.putCheckpointRecord logId mmrSize record).2.checkpointRecords =
      insertNew s.checkpointRecords (logId, mmrSize) record := by
  unfold SqlStore.putCheckpointRecord insertNew
  cases s.checkpointRecords.lookup (logId, mmrSize) with
  | none => rfl
  | some existing =>
    simp only
    split <;> rfl

/-- The memory store adds the event of the put to the list of its log. -/
private theorem memory_events (s : MemoryStore) (logId : String) (mmrSize : Nat) (record : CheckpointRecord)
    (id : String) : ((s.putCheckpointRecord logId mmrSize record).2.checkpointEquivocations.lookup id).getD [] =
      (s.checkpointEquivocations.lookup id).getD [] ++
        eventOf id (s.checkpointRecords.lookup (logId, mmrSize)) ((logId, mmrSize), record) := by
  unfold MemoryStore.putCheckpointRecord
  cases s.checkpointRecords.lookup (logId, mmrSize) with
  | none => simp [eventOf, conflictWith]
  | some existing =>
    by_cases hroot : existing.root = record.root
    · simp [eventOf, conflictWith, hroot]
    · simp only [if_neg hroot, eventOf, conflictWith]
      by_cases hid : logId = id
      · subst hid
        simp [equivocation]
      · rw [AList.lookup_insert_ne (Ne.symm hid), if_neg hid, List.append_nil]

/-- The tables add it to the list of all logs. -/
private theorem sql_events (s : SqlStore) (logId : String) (mmrSize : Nat) (record : CheckpointRecord) (id : String) :
    ((s.putCheckpointRecord logId mmrSize record).2.checkpointEquivocations.filter (·.1 = id)).map Prod.snd =
      (s.checkpointEquivocations.filter (·.1 = id)).map Prod.snd ++
        eventOf id (s.checkpointRecords.lookup (logId, mmrSize)) ((logId, mmrSize), record) := by
  unfold SqlStore.putCheckpointRecord
  cases s.checkpointRecords.lookup (logId, mmrSize) with
  | none => simp [eventOf, conflictWith]
  | some existing =>
    by_cases hroot : existing.root = record.root
    · simp [eventOf, conflictWith, hroot]
    · by_cases hid : logId = id <;> simp [eventOf, conflictWith, hroot, hid, equivocation]

private theorem sql_put {s : SqlStore} (hrow : ∀ id n, s.checkpointRecords.lookup (id, n) = puts.lookup (id, n))
    (hlist : ∀ id, (s.checkpointEquivocations.filter (·.1 = id)).map Prod.snd = eventsOf id puts) (logId : String)
    (mmrSize : Nat) (record : CheckpointRecord) :
    let s' := (s.putCheckpointRecord logId mmrSize record).2
    (∀ id n, s'.checkpointRecords.lookup (id, n) = (puts ++ [((logId, mmrSize), record)]).lookup (id, n)) ∧
    ∀ id, (s'.checkpointEquivocations.filter (·.1 = id)).map Prod.snd =
      eventsOf id (puts ++ [((logId, mmrSize), record)]) := by
  constructor
  · intro id n
    rw [sql_records, lookup_insertNew, lookup_concat, hrow, hrow]
  · intro id
    rw [sql_events, eventsOf_concat, hlist, hrow]

/-- A put does to every backend what it does to the puts. -/
theorem Recorded.put {s : b.Store} (h : Recorded E b puts s) (logId : String) (mmrSize : Nat)
    (record : CheckpointRecord) :
    Recorded E b (puts ++ [((logId, mmrSize), record)]) (b.exec E (.putCheckpointRecord logId mmrSize record) s).2 := by
  cases b with
  | memory =>
    constructor
    · intro id n
      change (s.putCheckpointRecord logId mmrSize record).2.checkpointRecords.lookup (id, n) = _
      have hrow : ∀ id n, s.checkpointRecords.lookup (id, n) = puts.lookup (id, n) := h.record
      rw [memory_records, lookup_insertNew, lookup_concat, hrow, hrow]
    · intro id
      change ((s.putCheckpointRecord logId mmrSize record).2.checkpointEquivocations.lookup id).getD [] = _
      rw [memory_events, eventsOf_concat, ← h.record, ← h.events]
      rfl
  | sqlite =>
    obtain ⟨hrow, hlist⟩ := sql_put h.record h.events logId mmrSize record
    exact ⟨hrow, hlist⟩
  | postgres =>
    obtain ⟨hrow, hlist⟩ := sql_put h.record h.events logId mmrSize record
    have hexec : (Backend.exec E .postgres (.putCheckpointRecord logId mmrSize record) s).2 =
        (s.putCheckpointRecord logId mmrSize record).2 := by
      change (PostgresStore.exec E (.putCheckpointRecord logId mmrSize record) s).2 = _
      rw [PostgresStore.exec_eq]
      rfl
    rw [hexec]
    exact ⟨hrow, hlist⟩

private theorem memory_frame (c : Call) (hc : ∀ logId mmrSize record, c ≠ .putCheckpointRecord logId mmrSize record)
    (s : MemoryStore) : (MemoryStore.exec c s).2.checkpointRecords = s.checkpointRecords ∧
      (MemoryStore.exec c s).2.checkpointEquivocations = s.checkpointEquivocations := by
  cases c with
  | putCheckpointRecord logId mmrSize record => exact absurd rfl (hc logId mmrSize record)
  | pruneStatementsOlderThan cutoff =>
    simp only [MemoryStore.exec, MemoryStore.pruneStatementsOlderThan]
    split <;> exact ⟨rfl, rfl⟩
  | putSth sth =>
    simp only [MemoryStore.exec]
    rw [putSth_eq]
    exact ⟨rfl, rfl⟩
  | _ => exact ⟨rfl, rfl⟩

private theorem sql_frame (c : Call) (hc : ∀ logId mmrSize record, c ≠ .putCheckpointRecord logId mmrSize record)
    (s : SqlStore) : (SqlStore.exec E c s).2.checkpointRecords = s.checkpointRecords ∧
      (SqlStore.exec E c s).2.checkpointEquivocations = s.checkpointEquivocations := by
  cases c with
  | putCheckpointRecord logId mmrSize record => exact absurd rfl (hc logId mmrSize record)
  | appendEntry entry =>
    simp only [SqlStore.exec]
    split <;> exact ⟨rfl, rfl⟩
  | _ => exact ⟨rfl, rfl⟩

/-- No other call touches the records or the events. -/
theorem Recorded.frame {s : b.Store} (h : Recorded E b puts s) {c : Call}
    (hc : ∀ logId mmrSize record, c ≠ .putCheckpointRecord logId mmrSize record) :
    Recorded E b puts (b.exec E c s).2 := by
  cases b with
  | memory =>
    obtain ⟨hrecords, hevents⟩ := memory_frame c hc s
    refine ⟨?_, ?_⟩
    · intro logId mmrSize
      rw [← h.record]
      exact congrArg (·.lookup (logId, mmrSize)) hrecords
    · intro logId
      rw [← h.events]
      exact congrArg (fun events => (events.lookup logId).getD []) hevents
  | sqlite =>
    have hframe : (SqliteStore.exec E c s).2.checkpointRecords = s.checkpointRecords ∧
        (SqliteStore.exec E c s).2.checkpointEquivocations = s.checkpointEquivocations := by
      cases c with
      | putRoot root => exact ⟨rfl, rfl⟩
      | pruneStatementsOlderThan cutoff => exact ⟨rfl, rfl⟩
      | _ => exact sql_frame (E := E) _ hc s
    refine ⟨?_, ?_⟩
    · intro logId mmrSize
      rw [← h.record]
      exact congrArg (·.lookup (logId, mmrSize)) hframe.1
    · intro logId
      rw [← h.events]
      exact congrArg (fun events => (events.filter (·.1 = logId)).map Prod.snd) hframe.2
  | postgres =>
    have hframe := sql_frame (E := E) c hc s
    rw [← PostgresStore.exec_eq] at hframe
    refine ⟨?_, ?_⟩
    · intro logId mmrSize
      rw [← h.record]
      exact congrArg (·.lookup (logId, mmrSize)) hframe.1
    · intro logId
      rw [← h.events]
      exact congrArg (fun events => (events.filter (·.1 = logId)).map Prod.snd) hframe.2

/-! ### The requests -/

/-- A request records no checkpoint but the one it submits, once it is accepted. -/
def surfaceContract : Contract Call.Ans ServiceError TimedRequest where
  may := fun r _ c => match c with
    | .putCheckpointRecord logId mmrSize record => ∃ cp result,
      r.2 = .witnessCheckpoint cp ∧ logId = cp.logId ∧ mmrSize = cp.mmrSize ∧ record = checkpointRecord cp result
    | _ => True
  valid := fun _ _ _ => True
  fails := fun _ _ _ => True

/-- A checkpoint that is accepted has been recorded. -/
def Surfaces (r : TimedRequest) (reply : Reply) (t : CallTrail) : Prop :=
  ∀ cp result, r.2 = .witnessCheckpoint cp → reply = .registered result →
    ((cp.logId, cp.mmrSize), checkpointRecord cp result) ∈ submitted t

/-- A program of other calls keeps the contract. -/
private theorem keeps_of_calls {α : Type} {r : TimedRequest} {p : ServiceM α} {P : Call → Prop} (hp : p.Calls P)
    (hP : ∀ logId mmrSize record, ¬ P (.putCheckpointRecord logId mmrSize record)) {Q : α → CallTrail → Prop}
    (hQ : ∀ a t, Q a t) (t : CallTrail) : Keeps surfaceContract r p Q t := by
  induction p generalizing t with
  | pure a => exact hQ a t
  | throw e => trivial
  | call c k ih =>
    refine ⟨?_, fun x _ => ih x (hp.2 x) _⟩
    cases c with
    | putCheckpointRecord logId mmrSize record => exact absurd hp.1 (hP logId mmrSize record)
    | _ => trivial

private theorem keeps_of_registers {α : Type} {r : TimedRequest} {p : ServiceM α}
    (hp : p.Calls (fun c => c.registers = true)) {Q : α → CallTrail → Prop} (hQ : ∀ a t, Q a t) (t : CallTrail) :
    Keeps surfaceContract r p Q t :=
  keeps_of_calls hp (fun _ _ _ h => by cases h) hQ t

variable (E) in
/-- Every request keeps the contract. -/
theorem program_surfaces (r : TimedRequest) : Keeps surfaceContract r (r.2.program E cfg r.1) (Surfaces r) [] := by
  obtain ⟨now, request⟩ := r
  cases request with
  | anchor tenantId rootHash seqRange capsuleId =>
    have hcalls : (anchor E now tenantId rootHash seqRange capsuleId).Calls
        (fun c => ∀ logId mmrSize record, c ≠ .putCheckpointRecord logId mmrSize record) := by
      refine Prog.Calls.bind ((appendLog_calls E _ _ _ _).mono ?_) ?_
      · rintro c hc _ _ _ rfl
        cases hc
      intro entry
      refine Prog.Calls.bind (Prog.Calls.perform (by intro _ _ _ h; cases h)) ?_
      intro _
      cases capsuleId with
      | none => trivial
      | some id => exact Prog.Calls.bind ((Prog.Calls.perform (by intro _ _ _ h; cases h)).map _) (fun _ => trivial)
    exact Keeps.map (keeps_of_calls hcalls (fun _ _ _ h => h _ _ _ rfl) (fun _ _ _ _ h => by cases h) [])
  | register statementBytes =>
    refine Keeps.map (keeps_of_registers (registerSignedStatementFull_calls E cfg now statementBytes none none) ?_ [])
    intro result t cp _ hcp
    cases hcp
  | witnessCheckpoint cp =>
    refine Keeps.map (Keeps.bind (keeps_of_registers
      (registerSignedStatementFull_calls E cfg now (checkpointDigest E cp).bytes cp.grade (some cp)) ?_ []))
    intro result t
    refine Keeps.bind (Keeps.perform ⟨cp, result, rfl, rfl, rfl, rfl⟩ ?_)
    intro x _ cp' result' hcp hresult
    obtain rfl := Request.witnessCheckpoint.inj hcp
    obtain rfl := Reply.registered.inj hresult
    rw [submitted_append]
    exact List.mem_append_right _ (List.mem_singleton_self _)
  | refreshSth =>
    exact Keeps.map (keeps_of_registers (signAndPersistSth_calls E _ _) (fun _ _ _ _ h => by cases h) [])
  | getSth => exact Keeps.map (keeps_of_registers (getSth_calls E now) (fun _ _ _ _ h => by cases h) [])
  | prune seconds =>
    have hcalls : (pruneExpiredStatements seconds (now 0)).Calls
        (fun c => ∀ logId mmrSize record, c ≠ .putCheckpointRecord logId mmrSize record) := by
      cases seconds with
      | none => trivial
      | some seconds =>
        exact Prog.Calls.bind (Prog.Calls.perform (by intro _ _ _ h; cases h)) (fun x => Prog.Calls.ofExcept x)
    exact Keeps.map (keeps_of_calls hcalls (fun _ _ _ h => h _ _ _ rfl) (fun _ _ _ _ h => by cases h) [])

/-! ### Runs -/

variable {ι : Type} [DecidableEq ι]

/-- Requests that are answered at the same time, over one store of this backend. -/
abbrev BackendWorld (ι : Type) (b : Backend) : Type := World ι Call.Ans ServiceError Reply TimedRequest b.Store

variable (E) in
/-- The requests after a schedule over an empty store. -/
abbrev backendAfter (b : Backend) (as : List (Action ι TimedRequest)) : BackendWorld ι b :=
  after (fun r => r.2.program E cfg r.1) (b.exec E) (World.idle b.empty) as

/-- The records and events are those of the puts, and the puts are of accepted checkpoints. -/
structure SurfaceSound (E : Env) (b : Backend) (v : View ι Call.Ans b.Store) : Prop where
  recorded : Recorded E b (submitted v.history) v.shared
  accepted : ∀ put ∈ submitted v.history, ∃ cp result, put = ((cp.logId, cp.mmrSize), checkpointRecord cp result)

private theorem surface_protects (b : Backend) : Protects (b.exec E) surfaceContract Surfaces (fun _ => True)
    (fun _ _ _ => True) (SurfaceSound E b : View ι Call.Ans b.Store → Prop) where
  call := by
    intro v i r c h _ _ hmay _
    refine ⟨trivial, ?_⟩
    have hother : ∀ x, (∀ logId mmrSize record, c ≠ .putCheckpointRecord logId mmrSize record) →
        submitted (v.history ++ [⟨c, x⟩]) = submitted v.history := by
      intro x hc
      rw [submitted_append]
      cases c with
      | putCheckpointRecord logId mmrSize record => exact absurd rfl (hc logId mmrSize record)
      | _ => exact List.append_nil _
    cases c with
    | putCheckpointRecord logId mmrSize record =>
      obtain ⟨cp, result, -, rfl, rfl, rfl⟩ := hmay
      refine ⟨?_, ?_⟩
      · simp only [View.extend, submitted_append]
        exact h.recorded.put _ _ _
      · intro put hput
        simp only [View.extend, submitted_append] at hput
        rcases List.mem_append.1 hput with hput | hput
        · exact h.accepted put hput
        · exact ⟨cp, result, List.mem_singleton.1 hput⟩
    | _ =>
      refine ⟨?_, ?_⟩
      · simp only [View.extend]
        rw [hother _ (by intro _ _ _ h; cases h)]
        exact h.recorded.frame (by intro _ _ _ h; cases h)
      · simp only [View.extend]
        rw [hother _ (by intro _ _ _ h; cases h)]
        exact h.accepted
  finish := fun _ _ _ _ h _ _ => ⟨h.recorded, h.accepted⟩

variable (E) in
private theorem good_backendAfter (b : Backend) (as : List (Action ι TimedRequest)) :
    Good surfaceContract Surfaces (fun _ => True) (SurfaceSound E b) (backendAfter E cfg b as) := by
  refine invariant (surface_protects b) (fun r _ => program_surfaces E cfg r) (good_idle ?_) (permitted_any _ _ _ _)
  refine ⟨recorded_empty E b, ?_⟩
  intro put hput
  cases hput

private theorem submitted_mono {t u : CallTrail} (h : t <+: u) : submitted t <+: submitted u := by
  obtain ⟨v, rfl⟩ := h
  rw [submitted_append]
  exact List.prefix_append _ _

private theorem mem_eventsOf {logId : String} {event : Equivocation} : event ∈ eventsOf logId puts ↔
    ∃ first later, puts.lookup (logId, event.mmrSize) = some first ∧ ((logId, event.mmrSize), later) ∈ puts ∧
      first.root ≠ later.root ∧ event.first = first.evidence ∧ event.conflicting = later.evidence := by
  rw [eventsOf, List.mem_map]
  constructor
  · rintro ⟨c, hc, rfl⟩
    rw [List.mem_filter] at hc
    obtain ⟨hfirst, hlater, hne⟩ := mem_conflicts.1 hc.1
    obtain rfl : c.key.1 = logId := by simpa using hc.2
    exact ⟨c.first, c.later, hfirst, hlater, hne, rfl, rfl⟩
  · rintro ⟨first, later, hfirst, hlater, hne, hf, hl⟩
    refine ⟨⟨(logId, event.mmrSize), first, later⟩, ?_, ?_⟩
    · rw [List.mem_filter]
      exact ⟨mem_conflicts.2 ⟨hfirst, hlater, hne⟩, by simp⟩
    · rw [equivocation, ← hf, ← hl]

end CapsuleAnchor
