import CapsuleAnchor.Raising
import CapsuleAnchor.Service

/-!
# The three backends

`InMemoryLogStore`, `SqliteLogStore` and `PostgresLogStore` of `anchoring/store.py`, behind the same methods.  The two
SQL stores share their tables and most of their statements (`SqlStore.exec`).  SQLite replaces the row of a root that is
anchored again, where the upsert of Postgres keeps its range, and it compares times as ISO strings.  Postgres records a
checkpoint by inserting first and reading on a conflict, where SQLite reads first; the outcome is the same
(`PostgresStore.exec_eq`).

An integer column holds 64 bits, and a statement that is handed a larger integer raises (`Backend.Raises`);
`Backend.step` is a service over a backend that may raise.
-/

namespace CapsuleAnchor

variable (E : Env)

/-! ### Integer columns -/

/-- The values of a `BIGINT` column, and of the integers that SQLite binds. -/
def FitsColumn (i : Int) : Prop := -2 ^ 63 ≤ i ∧ i < 2 ^ 63

instance (i : Int) : Decidable (FitsColumn i) := inferInstanceAs (Decidable (_ ∧ _))

/-- The insert would hand an integer to its column that the column does not hold. -/
def SqlStore.Overflows (s : SqlStore) : Call → Prop
  | .appendEntry entry => ¬ FitsColumn entry.logIndex
  | .putRoot root => ¬ (FitsColumn root.seqRange.1 ∧ FitsColumn root.seqRange.2)
  | .putCapsuleId logIndex _ => ¬ FitsColumn logIndex
  | .putStatement _ _ leafIndex treeSize => ¬ (FitsColumn leafIndex ∧ FitsColumn treeSize)
  | .putCheckpointWitness _ witness => ¬ FitsColumn witness.mmrSize
  | .putCheckpointRecord logId mmrSize record => ¬ (FitsColumn mmrSize ∧
    (s.checkpointRecords.lookup (logId, mmrSize) = none →
      FitsColumn record.prevSize ∧ FitsColumn record.leafIndex ∧ FitsColumn record.treeSize))
  | .putSth sth => ¬ (FitsColumn sth.treeSize ∧ FitsColumn (E.tsEpochUs sth.timestamp))
  | _ => False

instance (s : SqlStore) (c : Call) : Decidable (s.Overflows E c) := by
  unfold SqlStore.Overflows
  cases c <;> infer_instance

/-! ### SQLite -/

namespace SqliteStore

/-- `INSERT OR REPLACE`. -/
def putRoot (s : SqlStore) (root : CountersignedRoot) : SqlStore :=
  { s with countersignedRoots := s.countersignedRoots.insert (root.tenantId, root.rootHash) root }

/-- `logged_at` is a text column: times are compared as `isoformat()` writes them. -/
def pruneStatementsOlderThan (s : SqlStore) (cutoff : Datetime) : Nat × SqlStore :=
  let stale := s.submittedStatements.entries.filter fun row =>
    s.logEntries.any fun e => decide (e.loggedAt.isoformat < cutoff.isoformat) && e.logIndex == row.2.2.1
  (stale.length,
    { s with submittedStatements := stale.foldl (fun d row => d.erase row.1) s.submittedStatements })

def exec : (c : Call) → SqlStore → c.Ans × SqlStore
  | .putRoot root, s => ((), putRoot s root)
  | .pruneStatementsOlderThan cutoff, s =>
    (.ok (pruneStatementsOlderThan s cutoff).1, (pruneStatementsOlderThan s cutoff).2)
  | c, s => SqlStore.exec E c s

/-- An insert overflows, or a query is handed an integer that does not fit. -/
def Raises (c : Call) (s : SqlStore) : Prop :=
  s.Overflows E c ∨
    match c with
    | .entriesAfter afterIndex => ¬ FitsColumn afterIndex
    | .getCheckpointRecord _ mmrSize => ¬ FitsColumn mmrSize
    | .getSthAt treeSize => ¬ FitsColumn treeSize
    | _ => False

instance (c : Call) (s : SqlStore) : Decidable (Raises E c s) := by
  unfold Raises
  cases c <;> infer_instance

end SqliteStore

/-! ### Postgres -/

namespace PostgresStore

/-- `INSERT … ON CONFLICT DO NOTHING`, and a query for the row that is there if nothing was inserted. -/
def putCheckpointRecord (s : SqlStore) (logId : String) (mmrSize : Nat) (record : CheckpointRecord) :
    Bool × SqlStore :=
  let rowcount := if (s.checkpointRecords.lookup (logId, mmrSize)).isSome then 0 else 1
  let s := { s with checkpointRecords := insertNew s.checkpointRecords (logId, mmrSize) record }
  if rowcount ≠ 0 then (false, s)
  else match s.checkpointRecords.lookup (logId, mmrSize) with
    | none => (false, s)
    | some existing =>
      if existing.root = record.root then (false, s)
      else (true, { s with checkpointEquivocations :=
        s.checkpointEquivocations ++ [(logId, ⟨mmrSize, existing.evidence, record.evidence⟩)] })

def exec : (c : Call) → SqlStore → c.Ans × SqlStore
  | .putCheckpointRecord logId mmrSize record, s => putCheckpointRecord s logId mmrSize record
  | c, s => SqlStore.exec E c s

theorem putCheckpointRecord_eq (s : SqlStore) (logId : String) (mmrSize : Nat) (record : CheckpointRecord) :
    putCheckpointRecord s logId mmrSize record = s.putCheckpointRecord logId mmrSize record := by
  unfold putCheckpointRecord SqlStore.putCheckpointRecord insertNew
  cases hrow : s.checkpointRecords.lookup (logId, mmrSize) with
  | none => simp
  | some existing => simp [hrow]

/-- Inserting first and reading first come to the same. -/
theorem exec_eq : exec E = SqlStore.exec E := by
  funext c s
  cases c with
  | putCheckpointRecord logId mmrSize record => exact putCheckpointRecord_eq s logId mmrSize record
  | _ => rfl

end PostgresStore

/-! ### All three -/

inductive Backend
  | memory
  | sqlite
  | postgres
deriving DecidableEq

namespace Backend

@[reducible] def Store : Backend → Type
  | memory => MemoryStore
  | sqlite => SqlStore
  | postgres => SqlStore

def empty : (b : Backend) → b.Store
  | memory => {}
  | sqlite => {}
  | postgres => {}

def exec : (b : Backend) → (c : Call) → b.Store → c.Ans × b.Store
  | memory => MemoryStore.exec
  | sqlite => SqliteStore.exec E
  | postgres => PostgresStore.exec E

/-- The method raises an exception of the database, and its transaction is rolled back. -/
def Raises : (b : Backend) → Call → b.Store → Prop
  | memory => fun _ _ => False
  | sqlite => SqliteStore.Raises E
  | postgres => fun c s => s.Overflows E c

instance (b : Backend) (c : Call) (s : b.Store) : Decidable (b.Raises E c s) := by
  cases b with
  | memory => exact inferInstanceAs (Decidable False)
  | sqlite => exact inferInstanceAs (Decidable (SqliteStore.Raises E c s))
  | postgres => exact inferInstanceAs (Decidable (SqlStore.Overflows E s c))

/-- Over the dicts nothing is refused. -/
theorem runRaising_memory {α : Type} (p : ServiceM α) (m : MemoryStore) :
    p.runRaising (memory.Raises E) (memory.exec E) m =
      ((p.run MemoryStore.exec m).1.mapError some, (p.run MemoryStore.exec m).2) :=
  Prog.runRaising_never (fun _ _ h => h) p m

/-- Reading the whole log raises nothing. -/
theorem run_transparencyLog (b : Backend) (s : b.Store) : (transparencyLog 0).runRaising (b.Raises E) (b.exec E) s =
    (.ok (b.exec E (.entriesAfter 0) s).1, (b.exec E (.entriesAfter 0) s).2) := by
  refine Prog.runRaising_perform ?_
  cases b with
  | memory => exact id
  | sqlite => exact fun h => h.elim id fun hn => hn (by decide)
  | postgres => exact id

/-- `get_root`. -/
def getRoot : (b : Backend) → String → String → b.Store → Option CountersignedRoot
  | memory => fun tenantId rootHash s => s.roots.lookup (tenantId, rootHash)
  | sqlite => fun tenantId rootHash s => s.countersignedRoots.lookup (tenantId, rootHash)
  | postgres => fun tenantId rootHash s => s.countersignedRoots.lookup (tenantId, rootHash)

/-- `get_checkpoint_equivocations`; the tables list the events of all logs by their `id`. -/
def getCheckpointEquivocations : (b : Backend) → String → b.Store → List Equivocation
  | memory => fun logId s => (s.checkpointEquivocations.lookup logId).getD []
  | sqlite => fun logId s => (s.checkpointEquivocations.filter (·.1 = logId)).map Prod.snd
  | postgres => fun logId s => (s.checkpointEquivocations.filter (·.1 = logId)).map Prod.snd

/-- `get_checkpoint_record`. -/
def getCheckpointRecord (b : Backend) (logId : String) (mmrSize : Nat) (s : b.Store) : Option CheckpointRecord :=
  (b.exec E (.getCheckpointRecord logId mmrSize) s).1

/-- A service over this backend answers one request; `error none` is an exception of the database. -/
def step (b : Backend) (cfg : Config) (s : b.Store) (r : (Nat → Datetime) × Request) :
    Except (Option ServiceError) Reply × b.Store :=
  (r.2.program E cfg r.1).runRaising (b.Raises E) (b.exec E) s

end Backend

end CapsuleAnchor
