import CapsuleAnchor.Program
import CapsuleAnchor.Types

/-!
# The log store

`Call` lists the store methods the service calls, each one atomic.  `MemoryStore` and `SqlStore` are the two kinds of
backend of `anchoring/store.py`: Python dicts, and the tables that SQLite and Postgres share (a row reads back as it
was written: the Postgres session is in UTC).  `MemoryStore.exec` and `SqlStore.exec` say what each method answers and
writes.  The backends differ where the SQL has a primary key: a second log entry at an index is refused, and a second
row for a statement is dropped.

`Call` also holds the one step of the service that is not a store method, counting a would-refuse of the `warn`
policy; the counter lives in the process, so a SQL store does not see it.
-/

namespace CapsuleAnchor

/-- A Python dict, or a table with a primary key. -/
abbrev Dict (K V : Type) : Type := AList fun _ : K => V

/-- `dict.setdefault`, or `INSERT … ON CONFLICT DO NOTHING`. -/
def insertNew {K V : Type} [DecidableEq K] (table : Dict K V) (key : K) (row : V) : Dict K V :=
  match table.lookup key with
  | some _ => table
  | none => table.insert key row

theorem lookup_insertNew {K V : Type} [DecidableEq K] (table : Dict K V) (key k : K) (row : V) :
    (insertNew table key row).lookup k =
      if k = key then some ((table.lookup key).getD row) else table.lookup k := by
  unfold insertNew
  cases h : table.lookup key with
  | none =>
    by_cases hk : k = key
    · subst hk; simp
    · simp [hk, AList.lookup_insert_ne]
  | some old =>
    by_cases hk : k = key
    · subst hk; simp [h]
    · simp [hk]

theorem lookup_insertNew_of_some {K V : Type} [DecidableEq K] {d : Dict K V} {key k : K} {row old : V}
    (h : d.lookup k = some old) : (insertNew d key row).lookup k = some old := by
  rw [lookup_insertNew]
  split
  · rename_i heq
    subst heq
    simp [h]
  · exact h

/-- What is there after some keys are erased was there before. -/
theorem lookup_foldl_erase {K V : Type} [DecidableEq K] (ks : List K) : ∀ (d : Dict K V) (k : K) (v : V),
    (ks.foldl (fun d k => d.erase k) d).lookup k = some v → d.lookup k = some v := by
  induction ks with
  | nil => intro d k v h; exact h
  | cons key ks ih =>
    intro d k v h
    have := ih (d.erase key) k v h
    by_cases hk : k = key
    · subst hk
      simp at this
    · rwa [AList.lookup_erase_ne hk] at this

structure CheckpointWitness where
  mmrSize : Nat
  mmrRoot : Digest
  keyId : String
  timestamp : String
deriving DecidableEq

structure CheckpointRecord where
  root : Digest
  prevSize : Nat
  prevRoot : Option Digest
  keyId : String
  timestamp : String
  grade : Option String
  entryHash : Digest
  entryHashScheme : EntryHashScheme
  leafIndex : Int
  treeSize : Nat
  receipt : CoseReceipt
  continuityGrade : Option ContinuityGrade
deriving DecidableEq

/-- One side of an equivocation. -/
structure Evidence where
  root : Digest
  entryHash : Digest
  timestamp : String
deriving DecidableEq

structure Equivocation where
  mmrSize : Nat
  first : Evidence
  conflicting : Evidence
deriving DecidableEq

def CheckpointRecord.evidence (r : CheckpointRecord) : Evidence := ⟨r.root, r.entryHash, r.timestamp⟩

inductive Call
  | appendEntry (entry : TransparencyLogEntry)
  | allEntries
  | entriesAfter (afterIndex : Int)
  | size
  | putRoot (root : CountersignedRoot)
  | putCapsuleId (logIndex : Int) (capsuleId : String)
  | putStatement (entryHash : Digest) (receipt : CoseReceipt) (leafIndex : Int) (treeSize : Nat)
  | getStatement (entryHash : Digest)
  | pruneStatementsOlderThan (cutoff : Datetime)
  | putSubjectIndex (subject : String) (entryHash : Digest) (payloadDigest payloadForm : Option String)
  | putCheckpointWitness (logId : String) (witness : CheckpointWitness)
  | getCheckpointWitness (logId : String)
  | putCheckpointRecord (logId : String) (mmrSize : Nat) (record : CheckpointRecord)
  | getCheckpointRecord (logId : String) (mmrSize : Nat)
  | putSth (sth : SignedTreeHead)
  | getLatestSth
  | getSthAt (treeSize : Nat)
  | countWouldRefuse (logId : String)

@[reducible] def Call.Ans : Call → Type
  | .appendEntry _ => Except ServiceError Unit
  | .allEntries => List TransparencyLogEntry
  | .entriesAfter _ => List TransparencyLogEntry
  | .size => Nat
  | .putRoot _ => Unit
  | .putCapsuleId _ _ => Unit
  | .putStatement _ _ _ _ => Unit
  | .getStatement _ => Option (CoseReceipt × Int × Nat)
  | .pruneStatementsOlderThan _ => Except ServiceError Nat
  | .putSubjectIndex _ _ _ _ => Unit
  | .putCheckpointWitness _ _ => Unit
  | .getCheckpointWitness _ => Option CheckpointWitness
  | .putCheckpointRecord _ _ _ => Bool
  | .getCheckpointRecord _ _ => Option CheckpointRecord
  | .putSth _ => Unit
  | .getLatestSth => Option SignedTreeHead
  | .getSthAt _ => Option SignedTreeHead
  | .countWouldRefuse _ => Unit

/-- The programs of the service. -/
abbrev ServiceM (α : Type) : Type := Prog Call Call.Ans ServiceError α

/-! ### In memory -/

/-- `InMemoryLogStore`, with the would-refuse counter of the service that owns it. -/
structure MemoryStore where
  log : List TransparencyLogEntry := []
  roots : Dict (String × String) CountersignedRoot := ∅
  capsuleIds : Dict Int String := ∅
  statements : Dict Digest (CoseReceipt × Int × Nat) := ∅
  subjectIndex : Dict String (List (Digest × Option String × Option String)) := ∅
  checkpointWitnesses : Dict String CheckpointWitness := ∅
  checkpointRecords : Dict (String × Nat) CheckpointRecord := ∅
  checkpointEquivocations : Dict String (List Equivocation) := ∅
  latestSth : Option SignedTreeHead := none
  latestSthKey : Option (Nat × Datetime) := none
  sthHistory : Dict Nat SignedTreeHead := ∅
  consistencyProofWouldRefuse : Dict String Nat := ∅

namespace MemoryStore

/-- `xs[i]` for a Python list; `none` is an `IndexError`. -/
def listItem {α : Type} (xs : List α) (i : Int) : Option α :=
  if 0 ≤ i then xs[i.toNat]? else if -i ≤ xs.length then xs[(xs.length + i).toNat]? else none

/-- The entry hashes of the cached receipts whose log entry is older than `cutoff`. -/
def stale (s : MemoryStore) (cutoff : Datetime) : Except ServiceError (List Digest) :=
  s.statements.entries.filterMapM fun row =>
    match listItem s.log row.2.2.1 with
    | none => .error (.indexError "list index out of range")
    | some entry => .ok (if entry.loggedAt < cutoff then some row.1 else none)

def pruneStatementsOlderThan (s : MemoryStore) (cutoff : Datetime) : Except ServiceError Nat × MemoryStore :=
  match s.stale cutoff with
  | .error e => (.error e, s)
  | .ok stale => (.ok stale.length, { s with statements := stale.foldl (fun d k => d.erase k) s.statements })

def putSubjectIndex (s : MemoryStore) (subject : String) (row : Digest × Option String × Option String) :
    MemoryStore :=
  let rows := (s.subjectIndex.lookup subject).getD []
  { s with subjectIndex :=
      s.subjectIndex.insert subject (if rows.any (·.1 == row.1) then rows else rows ++ [row]) }

def putCheckpointRecord (s : MemoryStore) (logId : String) (mmrSize : Nat) (record : CheckpointRecord) :
    Bool × MemoryStore :=
  match s.checkpointRecords.lookup (logId, mmrSize) with
  | none => (false, { s with checkpointRecords := s.checkpointRecords.insert (logId, mmrSize) record })
  | some existing =>
    if existing.root = record.root then (false, s)
    else
      let events := (s.checkpointEquivocations.lookup logId).getD [] ++
        [⟨mmrSize, existing.evidence, record.evidence⟩]
      (true, { s with checkpointEquivocations := s.checkpointEquivocations.insert logId events })

/-- `key <= latest` for the pairs `(tree_size, timestamp)`. -/
def keyLE (key latest : Nat × Datetime) : Prop := key.1 < latest.1 ∨ key.1 = latest.1 ∧ key.2 ≤ latest.2

instance (key latest : Nat × Datetime) : Decidable (keyLE key latest) :=
  inferInstanceAs (Decidable (_ ∨ _ ∧ _))

def putSth (s : MemoryStore) (sth : SignedTreeHead) : MemoryStore :=
  let key := (sth.treeSize, sth.timestamp)
  let s := { s with sthHistory := insertNew s.sthHistory sth.treeSize sth }
  if ∃ latest ∈ s.latestSthKey, keyLE key latest then s
  else { s with latestSth := some sth, latestSthKey := some key }

def exec : (c : Call) → MemoryStore → c.Ans × MemoryStore
  | .appendEntry entry, s => (.ok (), { s with log := s.log ++ [entry] })
  | .allEntries, s => (s.log, s)
  | .entriesAfter afterIndex, s => (s.log.filter fun e => afterIndex ≤ e.logIndex, s)
  | .size, s => (s.log.length, s)
  | .putRoot root, s => ((), { s with roots := s.roots.insert (root.tenantId, root.rootHash) root })
  | .putCapsuleId logIndex capsuleId, s => ((), { s with capsuleIds := s.capsuleIds.insert logIndex capsuleId })
  | .putStatement entryHash receipt leafIndex treeSize, s =>
    ((), { s with statements := s.statements.insert entryHash (receipt, leafIndex, treeSize) })
  | .getStatement entryHash, s => (s.statements.lookup entryHash, s)
  | .pruneStatementsOlderThan cutoff, s => s.pruneStatementsOlderThan cutoff
  | .putSubjectIndex subject entryHash payloadDigest payloadForm, s =>
    ((), s.putSubjectIndex subject (entryHash, payloadDigest, payloadForm))
  | .putCheckpointWitness logId witness, s =>
    ((), { s with checkpointWitnesses := s.checkpointWitnesses.insert logId witness })
  | .getCheckpointWitness logId, s => (s.checkpointWitnesses.lookup logId, s)
  | .putCheckpointRecord logId mmrSize record, s => s.putCheckpointRecord logId mmrSize record
  | .getCheckpointRecord logId mmrSize, s => (s.checkpointRecords.lookup (logId, mmrSize), s)
  | .putSth sth, s => ((), s.putSth sth)
  | .getLatestSth, s => (s.latestSth, s)
  | .getSthAt treeSize, s => (s.sthHistory.lookup treeSize, s)
  | .countWouldRefuse logId, s =>
    let count := (s.consistencyProofWouldRefuse.lookup logId).getD 0 + 1
    ((), { s with consistencyProofWouldRefuse := s.consistencyProofWouldRefuse.insert logId count })

end MemoryStore

/-! ### SQL tables -/

/-- The row of `signed_tree_heads` and the rows of its history. -/
structure SthRow where
  sth : SignedTreeHead
  treeSize : Nat
  tsEpochUs : Int
deriving DecidableEq

/-- The tables of `SqliteLogStore` and `PostgresLogStore`. -/
structure SqlStore where
  logEntries : List TransparencyLogEntry := []
  countersignedRoots : Dict (String × String) CountersignedRoot := ∅
  logCapsuleBindings : Dict Int String := ∅
  submittedStatements : Dict Digest (CoseReceipt × Int × Nat) := ∅
  subjectIndex : Dict (String × Digest) (Option String × Option String) := ∅
  checkpointWitnesses : Dict String CheckpointWitness := ∅
  checkpointRecords : Dict (String × Nat) CheckpointRecord := ∅
  checkpointEquivocations : List (String × Equivocation) := []
  signedTreeHeads : Option SthRow := none
  signedTreeHeadHistory : Dict Nat SthRow := ∅

namespace SqlStore

def byLogIndex (entries : List TransparencyLogEntry) : List TransparencyLogEntry :=
  entries.mergeSort fun a b => decide (a.logIndex ≤ b.logIndex)

/-- The Postgres upsert; SQLite replaces the whole row. -/
def putRoot (s : SqlStore) (root : CountersignedRoot) : SqlStore :=
  let key := (root.tenantId, root.rootHash)
  -- a conflicting row keeps its `seq_from` and `seq_to`
  let row := match s.countersignedRoots.lookup key with
    | none => root
    | some old => { root with seqRange := old.seqRange }
  { s with countersignedRoots := s.countersignedRoots.insert key row }

def pruneStatementsOlderThan (s : SqlStore) (cutoff : Datetime) : Nat × SqlStore :=
  let stale := s.submittedStatements.entries.filter fun row =>
    s.logEntries.any fun e => e.loggedAt < cutoff && e.logIndex == row.2.2.1
  (stale.length,
    { s with submittedStatements := stale.foldl (fun d row => d.erase row.1) s.submittedStatements })

def putCheckpointRecord (s : SqlStore) (logId : String) (mmrSize : Nat) (record : CheckpointRecord) :
    Bool × SqlStore :=
  match s.checkpointRecords.lookup (logId, mmrSize) with
  | none => (false, { s with checkpointRecords := s.checkpointRecords.insert (logId, mmrSize) record })
  | some existing =>
    if existing.root = record.root then (false, s)
    else (true, { s with checkpointEquivocations :=
      s.checkpointEquivocations ++ [(logId, ⟨mmrSize, existing.evidence, record.evidence⟩)] })

/-- The `WHERE` clause of the upsert: the new key strictly advances the stored one. -/
def advances (row old : SthRow) : Prop :=
  old.treeSize < row.treeSize ∨ row.treeSize = old.treeSize ∧ old.tsEpochUs < row.tsEpochUs

instance (row old : SthRow) : Decidable (advances row old) := inferInstanceAs (Decidable (_ ∨ _ ∧ _))

def putSth (s : SqlStore) (row : SthRow) : SqlStore :=
  let latest := match s.signedTreeHeads with
    | none => row
    | some old => if advances row old then row else old
  { s with signedTreeHeads := some latest,
           signedTreeHeadHistory := insertNew s.signedTreeHeadHistory row.treeSize row }

variable (E : Env)

def exec : (c : Call) → SqlStore → c.Ans × SqlStore
  | .appendEntry entry, s =>
    if s.logEntries.any (·.logIndex == entry.logIndex) then (.error .integrityError, s)
    else (.ok (), { s with logEntries := s.logEntries ++ [entry] })
  | .allEntries, s => (byLogIndex s.logEntries, s)
  | .entriesAfter afterIndex, s => (byLogIndex (s.logEntries.filter fun e => afterIndex ≤ e.logIndex), s)
  | .size, s => (s.logEntries.length, s)
  | .putRoot root, s => ((), s.putRoot root)
  | .putCapsuleId logIndex capsuleId, s =>
    ((), { s with logCapsuleBindings := s.logCapsuleBindings.insert logIndex capsuleId })
  | .putStatement entryHash receipt leafIndex treeSize, s =>
    ((), { s with submittedStatements := insertNew s.submittedStatements entryHash (receipt, leafIndex, treeSize) })
  | .getStatement entryHash, s => (s.submittedStatements.lookup entryHash, s)
  | .pruneStatementsOlderThan cutoff, s =>
    (.ok (s.pruneStatementsOlderThan cutoff).1, (s.pruneStatementsOlderThan cutoff).2)
  | .putSubjectIndex subject entryHash payloadDigest payloadForm, s =>
    ((), { s with subjectIndex := insertNew s.subjectIndex (subject, entryHash) (payloadDigest, payloadForm) })
  | .putCheckpointWitness logId witness, s =>
    ((), { s with checkpointWitnesses := s.checkpointWitnesses.insert logId witness })
  | .getCheckpointWitness logId, s => (s.checkpointWitnesses.lookup logId, s)
  | .putCheckpointRecord logId mmrSize record, s => s.putCheckpointRecord logId mmrSize record
  | .getCheckpointRecord logId mmrSize, s => (s.checkpointRecords.lookup (logId, mmrSize), s)
  | .putSth sth, s => ((), s.putSth ⟨sth, sth.treeSize, E.tsEpochUs sth.timestamp⟩)
  | .getLatestSth, s => (s.signedTreeHeads.map SthRow.sth, s)
  | .getSthAt treeSize, s => ((s.signedTreeHeadHistory.lookup treeSize).map SthRow.sth, s)
  | .countWouldRefuse _, s => ((), s)

end SqlStore

end CapsuleAnchor
