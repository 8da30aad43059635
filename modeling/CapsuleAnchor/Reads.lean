import CapsuleAnchor.Backends

/-!
# What a service reads back

The reads of `anchoring/service.py` and of the public-log rail, over the dicts of `InMemoryLogStore` and over the tables
of the SQL stores.  A dict is read in the order of its insertions and a table as its query sorts it: `max` of Python takes
the first of the largest, `ORDER BY … DESC LIMIT 1` one of them (`lastBy`).
-/

namespace CapsuleAnchor

variable (E : Env)

/-! ### Sorted queries -/

section Sorted

variable {α : Type} (key : α → Nat)

/-- `ORDER BY key ASC LIMIT 1`. -/
def firstBy (rows : List α) : Option α := (rows.mergeSort fun a b => decide (key a ≤ key b)).head?

/-- `ORDER BY key DESC LIMIT 1`. -/
def lastBy (rows : List α) : Option α := (rows.mergeSort fun a b => decide (key b ≤ key a)).head?

variable {key}

private theorem head_sorted {le : α → α → Bool} (htrans : ∀ a b c, le a b → le b c → le a c)
    (htotal : ∀ a b, le a b || le b a) {rows : List α} {a : α} (h : (rows.mergeSort le).head? = some a) :
    a ∈ rows ∧ ∀ b ∈ rows, le a b := by
  have hsorted := List.pairwise_mergeSort htrans htotal rows
  obtain ⟨rest, hrest⟩ := List.head?_eq_some_iff.1 h
  rw [hrest, List.pairwise_cons] at hsorted
  refine ⟨List.mem_mergeSort.1 (by rw [hrest]; exact List.mem_cons_self), ?_⟩
  intro b hb
  have hmem : b ∈ a :: rest := by
    rw [← hrest]
    exact List.mem_mergeSort.2 hb
  rcases List.mem_cons.1 hmem with rfl | hmem
  · simpa using htotal b b
  · exact hsorted.1 b hmem

private theorem nil_of_head_sorted {le : α → α → Bool} {rows : List α} (h : (rows.mergeSort le).head? = none) :
    rows = [] := by
  have hperm := List.mergeSort_perm rows le
  rw [List.head?_eq_none_iff.1 h] at hperm
  exact hperm.symm.eq_nil

/-- The first row is one with the smallest key. -/
theorem firstBy_le {rows : List α} {a : α} (h : firstBy key rows = some a) : a ∈ rows ∧ ∀ b ∈ rows, key a ≤ key b := by
  obtain ⟨hmem, hleast⟩ := head_sorted (fun a b c h h' => by simp at *; omega) (fun a b => by simp; omega) h
  exact ⟨hmem, fun b hb => by simpa using hleast b hb⟩

/-- Where no two rows have the same key, the order of the rows does not matter. -/
theorem firstBy_eq_argmin {rows rows' : List α} (hperm : rows'.Perm rows)
    (hkey : ∀ a ∈ rows, ∀ b ∈ rows, key a = key b → a = b) : firstBy key rows' = rows.argmin key := by
  cases hfirst : firstBy key rows' with
  | none =>
    rw [nil_of_head_sorted hfirst] at hperm
    rw [hperm.symm.eq_nil]
    rfl
  | some a =>
    obtain ⟨hmem, hleast⟩ := firstBy_le hfirst
    cases hmin : rows.argmin key with
    | none =>
      rw [List.argmin_eq_none.1 hmin] at hperm
      rw [hperm.eq_nil] at hmem
      cases hmem
    | some b =>
      have hb := List.argmin_mem hmin
      have hle : key a ≤ key b := hleast b (hperm.mem_iff.2 hb)
      have hge := List.le_of_mem_argmin (hperm.mem_iff.1 hmem) hmin
      rw [hkey a (hperm.mem_iff.1 hmem) b hb (by omega)]

theorem lastBy_eq_argmax {rows rows' : List α} (hperm : rows'.Perm rows)
    (hkey : ∀ a ∈ rows, ∀ b ∈ rows, key a = key b → a = b) : lastBy key rows' = rows.argmax key := by
  cases hlast : lastBy key rows' with
  | none =>
    rw [nil_of_head_sorted hlast] at hperm
    rw [hperm.symm.eq_nil]
    rfl
  | some a =>
    obtain ⟨hmem, hmost⟩ := head_sorted (fun a b c h h' => by simp at *; omega) (fun a b => by simp; omega) hlast
    cases hmax : rows.argmax key with
    | none =>
      rw [List.argmax_eq_none.1 hmax] at hperm
      rw [hperm.eq_nil] at hmem
      cases hmem
    | some b =>
      have hb := List.argmax_mem hmax
      have hge : key b ≤ key a := by simpa using hmost b (hperm.mem_iff.2 hb)
      have hle := List.le_of_mem_argmax (hperm.mem_iff.1 hmem) hmax
      rw [hkey a (hperm.mem_iff.1 hmem) b hb (by omega)]

end Sorted

/-- The rows of a dict, in the order of their insertion. -/
def rowsOf {K V : Type} (d : Dict K V) : List (K × V) := d.entries.reverse.map fun row => (row.1, row.2)

theorem mem_rowsOf {K V : Type} [DecidableEq K] {d : Dict K V} {k : K} {v : V} : (k, v) ∈ rowsOf d ↔ d.lookup k = some v := by
  rw [← Option.mem_def, AList.mem_lookup_iff, rowsOf]
  constructor
  · intro h
    obtain ⟨row, hrow, heq⟩ := List.mem_map.1 h
    obtain ⟨rfl, rfl⟩ := Prod.mk.inj heq
    exact List.mem_reverse.1 hrow
  · intro h
    exact List.mem_map.2 ⟨⟨k, v⟩, List.mem_reverse.2 h, rfl⟩

/-! ### The log store -/

/-- The rows of one subject. -/
def SqlStore.subjectRows (s : SqlStore) (subject : String) : List (Digest × Option String × Option String) :=
  (rowsOf s.subjectIndex).filterMap fun row => if row.1.1 = subject then some (row.1.2, row.2) else none

/-- `ORDER BY entry_hash ASC`. -/
def SqlStore.getBySubject (s : SqlStore) (subject : String) : List (Digest × Option String × Option String) :=
  (s.subjectRows subject).mergeSort fun a b => decide (a.1.hex ≤ b.1.hex)

structure SubjectStatement where
  entryHash : Digest
  capsuleIdDigest : Option String
  payloadForm : Option String
  receipt : CoseReceipt
  leafIndex : Int
  treeSize : Nat
deriving DecidableEq

/-- The records of one log, with their sizes. -/
def recordsOf (records : Dict (String × Nat) CheckpointRecord) (logId : String) : List (Nat × CheckpointRecord) :=
  (rowsOf records).filterMap fun row => if row.1.1 = logId then some (row.1.2, row.2) else none

namespace Backend

variable (b : Backend)

/-- `get_by_subject`. -/
def getBySubject : (b : Backend) → String → b.Store → List (Digest × Option String × Option String)
  | memory => fun subject s => (s.subjectIndex.lookup subject).getD []
  | sqlite => fun subject s => SqlStore.getBySubject s subject
  | postgres => fun subject s => SqlStore.getBySubject s subject

/-- `get_registered_statement`. -/
def getRegisteredStatement (entryHash : Digest) (s : b.Store) : Option (CoseReceipt × Int × Nat) :=
  (b.exec E (.getStatement entryHash) s).1

/-- `get_statements_by_subject`. -/
def getStatementsBySubject (subject : String) (s : b.Store) : List SubjectStatement :=
  (b.getBySubject subject s).filterMap fun row =>
    match b.getRegisteredStatement E row.1 s with
    | none => none
    | some (receipt, leafIndex, treeSize) => some ⟨row.1, row.2.1, row.2.2, receipt, leafIndex, treeSize⟩

/-- `get_last_checkpoint_record`. -/
def getLastCheckpointRecord : (b : Backend) → String → b.Store → Option (Nat × CheckpointRecord)
  | memory => fun logId s => (recordsOf s.checkpointRecords logId).argmax Prod.fst
  | sqlite => fun logId s => lastBy Prod.fst (recordsOf s.checkpointRecords logId)
  | postgres => fun logId s => lastBy Prod.fst (recordsOf s.checkpointRecords logId)

/-- `get_checkpoint_readback`. -/
def getCheckpointReadback (logId : String) (s : b.Store) : Option ((Nat × CheckpointRecord) × List Equivocation) :=
  (b.getLastCheckpointRecord logId s).map fun last => (last, b.getCheckpointEquivocations logId s)

end Backend

/-! ### The public log -/

/-- A row of the receipts of an external public log. -/
structure PublicLogReceipt where
  backend : String
  sthTreeSize : Nat
  sthRootHash : Digest
  sthTimestamp : String
  uuid : String
  logIndex : Option Int
  integratedTime : Scalar
  signedEntryTimestamp : Scalar
  rawResponse : String
  submittedAt : String
deriving DecidableEq

abbrev PublicLogReceipts : Type := Dict (String × Nat × Digest) PublicLogReceipt

/-- A `TEXT` column keeps an integer as its digits. -/
def textColumn : Scalar → Scalar
  | .int i => .str (toString i)
  | value => value

/-- What a table keeps of a receipt. -/
def PublicLogReceipt.row (r : PublicLogReceipt) : PublicLogReceipt :=
  { r with integratedTime := textColumn r.integratedTime, signedEntryTimestamp := textColumn r.signedEntryTimestamp }

/-- The receipts of one public log. -/
def publishedTo (receipts : PublicLogReceipts) (backend : String) : List PublicLogReceipt :=
  ((rowsOf receipts).map Prod.snd).filter fun r => r.backend = backend

namespace Backend

/-- `put_public_log_receipt`. -/
def putPublicLogReceipt (b : Backend) (r : PublicLogReceipt) (receipts : PublicLogReceipts) : PublicLogReceipts :=
  insertNew receipts (r.backend, r.sthTreeSize, r.sthRootHash) (if b = memory then r else r.row)

/-- `get_public_log_receipt`. -/
def getPublicLogReceipt (receipts : PublicLogReceipts) (backend : String) (sthTreeSize : Nat) (sthRootHash : Digest) :
    Option PublicLogReceipt := receipts.lookup (backend, sthTreeSize, sthRootHash)

/-- `get_latest_public_log_receipt`; the query walks the index over the sizes backwards. -/
def getLatestPublicLogReceipt (b : Backend) (receipts : PublicLogReceipts) (backend : String) : Option PublicLogReceipt :=
  if b = memory then (publishedTo receipts backend).argmax (·.sthTreeSize)
  else lastBy (·.sthTreeSize) (publishedTo receipts backend).reverse

/-- `get_public_log_receipts_since`. -/
def getPublicLogReceiptsSince (receipts : PublicLogReceipts) (backend : String) (since : Int) : List PublicLogReceipt :=
  ((publishedTo receipts backend).filter fun r => since < r.sthTreeSize).mergeSort
    fun a b => decide (a.sthTreeSize ≤ b.sthTreeSize)

/-- `get_public_log_receipt_covering`. -/
def getPublicLogReceiptCovering (b : Backend) (receipts : PublicLogReceipts) (backend : String) (minTreeSize : Nat) :
    Option PublicLogReceipt :=
  let rows := (publishedTo receipts backend).filter fun r => minTreeSize ≤ r.sthTreeSize
  if b = memory then rows.argmin (·.sthTreeSize) else firstBy (·.sthTreeSize) rows

end Backend

end CapsuleAnchor
