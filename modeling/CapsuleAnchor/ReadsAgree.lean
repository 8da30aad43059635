import CapsuleAnchor.Agreement
import CapsuleAnchor.Reference

/-!
# The reads of the two services

In every state that alike operations lead to, a service over dicts and one over SQLite answer every read alike
(`backends_agree`).  `backends_disagree` is a run of two statements of one subject, of which the second has the smaller
entry hash: the dicts list them as they came, and the table in the order of their hashes.
-/

namespace CapsuleAnchor

variable (E : Env) (cfg : Config)

/-! ### One state -/

/-- The reads of the two services, at arguments that SQLite can bind. -/
structure SameReads (m : Backend.memory.Node) (s : Backend.sqlite.Node) : Prop where
  transparencyLog : ∀ afterIndex, FitsColumn afterIndex →
    ((transparencyLog afterIndex).runRaising (Backend.sqlite.Raises E) (Backend.sqlite.exec E) s.1).1 =
      ((transparencyLog afterIndex).runRaising (Backend.memory.Raises E) (Backend.memory.exec E) m.1).1
  statementsBySubject : ∀ subject,
    Backend.sqlite.getStatementsBySubject E subject s.1 = Backend.memory.getStatementsBySubject E subject m.1
  checkpointReadback : ∀ logId, Backend.sqlite.getCheckpointReadback logId s.1 = Backend.memory.getCheckpointReadback logId m.1
  registeredStatement : ∀ entryHash,
    Backend.sqlite.getRegisteredStatement E entryHash s.1 = Backend.memory.getRegisteredStatement E entryHash m.1
  countersignedRoot : ∀ tenantId rootHash, Backend.sqlite.getRoot tenantId rootHash s.1 = Backend.memory.getRoot tenantId rootHash m.1
  sth : ∀ now, ClocksFit E now → FitsColumn m.1.log.length →
    ((getSth E now).runRaising (Backend.sqlite.Raises E) (Backend.sqlite.exec E) s.1).1 =
      ((getSth E now).runRaising (Backend.memory.Raises E) (Backend.memory.exec E) m.1).1
  sthAt : ∀ treeSize : Nat, FitsColumn treeSize →
    ((getSthAt treeSize).runRaising (Backend.sqlite.Raises E) (Backend.sqlite.exec E) s.1).1 =
      ((getSthAt treeSize).runRaising (Backend.memory.Raises E) (Backend.memory.exec E) m.1).1
  publicLogReceipt : ∀ backend treeSize root,
    Backend.getPublicLogReceipt s.2 backend treeSize root = Backend.getPublicLogReceipt m.2 backend treeSize root
  latestPublicLogReceipt : ∀ backend,
    Backend.sqlite.getLatestPublicLogReceipt s.2 backend = Backend.memory.getLatestPublicLogReceipt m.2 backend
  publicLogReceiptsSince : ∀ backend since,
    Backend.getPublicLogReceiptsSince s.2 backend since = Backend.getPublicLogReceiptsSince m.2 backend since
  publicLogReceiptCovering : ∀ backend treeSize,
    Backend.sqlite.getPublicLogReceiptCovering s.2 backend treeSize =
      Backend.memory.getPublicLogReceiptCovering m.2 backend treeSize

section Rows

variable {E}

/-- The rows of a subject come in the order of their hashes. -/
theorem Mirrors.getBySubject {m : MemoryStore} {s : SqlStore} (h : Mirrors E m s) (subject : String) :
    SqlStore.getBySubject s subject = m.subjectRows subject := by
  unfold SqlStore.getBySubject
  rw [h.subjects]
  apply List.mergeSort_of_pairwise
  refine (h.sorted subject).imp ?_
  intro a b hlt
  exact decide_eq_true fun hgt => String.lt_irrefl _ (String.lt_trans hlt hgt)

/-- The records of a log have different sizes. -/
theorem recordsOf_inj {records : Dict (String × Nat) CheckpointRecord} {logId : String} {a b : Nat × CheckpointRecord}
    (ha : a ∈ recordsOf records logId) (hb : b ∈ recordsOf records logId) (hsize : a.1 = b.1) : a = b := by
  have hlookup : ∀ r ∈ recordsOf records logId, records.lookup (logId, r.1) = some r.2 := by
    intro r hr
    obtain ⟨⟨⟨l, n⟩, record⟩, hmem, heq⟩ := List.mem_filterMap.1 hr
    by_cases hl : l = logId
    · subst hl
      obtain rfl : (n, record) = r := by simpa using heq
      exact mem_rowsOf.1 hmem
    · simp [hl] at heq
  have hrow := hlookup a ha
  rw [hsize, hlookup b hb] at hrow
  exact Prod.ext hsize (Option.some.inj hrow).symm

/-- The receipts of one public log have different sizes. -/
theorem Published.inj {log : List TransparencyLogEntry} {receipts : PublicLogReceipts} (h : Published E log receipts)
    {backend : String} {a b : PublicLogReceipt} (ha : a ∈ publishedTo receipts backend)
    (hb : b ∈ publishedTo receipts backend) (hsize : a.sthTreeSize = b.sthTreeSize) : a = b := by
  have hlookup : ∀ r ∈ publishedTo receipts backend, r.backend = backend ∧
      receipts.lookup (r.backend, r.sthTreeSize, r.sthRootHash) = some r ∧ r.sthRootHash = rootAt E log r.sthTreeSize := by
    intro r hr
    obtain ⟨hmem, hbackend⟩ := List.mem_filter.1 hr
    obtain ⟨⟨key, r'⟩, hrow, rfl⟩ := List.mem_map.1 hmem
    have hrow := mem_rowsOf.1 hrow
    obtain ⟨hkey, -, hroot⟩ := h key r' hrow
    exact ⟨by simpa using hbackend, hkey ▸ hrow, hroot⟩
  obtain ⟨habackend, harow, haroot⟩ := hlookup a ha
  obtain ⟨hbbackend, hbrow, hbroot⟩ := hlookup b hb
  rw [habackend, ← hbbackend, haroot, hsize, ← hbroot, hbrow] at harow
  exact (Option.some.inj harow).symm

end Rows

variable {E} in
theorem NodesAgree.reads {m : Backend.memory.Node} {s : Backend.sqlite.Node} (h : NodesAgree E m s) :
    SameReads E m s := by
  obtain ⟨m, receipts⟩ := m
  obtain ⟨s, receipts'⟩ := s
  obtain ⟨hstores, hkept, hreceipts, hpublished⟩ := h
  simp only at hstores hkept hreceipts hpublished
  subst hreceipts
  have hregistered : ∀ k, Backend.sqlite.getRegisteredStatement E k s = Backend.memory.getRegisteredStatement E k m :=
    fun k => congrArg (AList.lookup k) hstores.statements
  constructor
  case transparencyLog =>
    intro k hk
    have hcalls : AlikeCalls E (transparencyLog k) m := .perform hk
    exact (hcalls.agree hstores).1
  case statementsBySubject =>
    intro subject
    simp only [Backend.getStatementsBySubject, hregistered]
    exact congrArg (List.filterMap _) (hstores.getBySubject subject)
  case checkpointReadback =>
    intro logId
    have hlast : Backend.sqlite.getLastCheckpointRecord logId s = Backend.memory.getLastCheckpointRecord logId m := by
      simp only [Backend.getLastCheckpointRecord, hstores.records]
      exact lastBy_eq_argmax (List.Perm.refl _) fun a ha b hb => recordsOf_inj ha hb
    have hevents := hstores.equivocations logId
    simp only [Backend.getCheckpointReadback, hlast, Backend.getCheckpointEquivocations, hevents]
  case registeredStatement => exact hregistered
  case countersignedRoot => exact fun tenantId rootHash => congrArg (AList.lookup (tenantId, rootHash)) hstores.roots
  case sth =>
    intro now hclock hlength
    exact ((getSth_alike hkept.indexed hlength hclock).agree hstores).1
  case sthAt =>
    intro n hn
    have hcalls : AlikeCalls E (getSthAt n) m := .perform hn
    exact (hcalls.agree hstores).1
  case publicLogReceipt => exact fun _ _ _ => rfl
  case latestPublicLogReceipt =>
    intro backend
    exact lastBy_eq_argmax (List.reverse_perm _) fun a ha b hb => hpublished.inj ha hb
  case publicLogReceiptsSince => exact fun _ _ => rfl
  case publicLogReceiptCovering =>
    intro backend n
    refine firstBy_eq_argmin (List.Perm.refl _) fun a ha b hb => ?_
    exact hpublished.inj (List.mem_of_mem_filter ha) (List.mem_of_mem_filter hb)

/-! ### A run -/

/-- An operation, with the clock readings of the call that performs it. -/
abbrev TimedOperation : Type := (Nat → Datetime) × Operation

abbrev NodeEvent : Type := Run.Event Backend.memory.Node TimedOperation (Except (Option ServiceError) OperationReply)

/-- The integers of the step fit the columns that they are handed to: those of the operation, the times, and the places in
the log. -/
structure InRange (e : NodeEvent) : Prop where
  operation : e.request.2.Fits E cfg
  clocks : ClocksFit E e.request.1
  log : FitsColumn (e.before.1.log.length + 1)

/-- The step is one on which the two stores do not disagree. -/
def AlikeStep (e : NodeEvent) : Prop := e.request.2.Alike E cfg e.request.1 e.before.1

theorem nodesAgree_empty : NodesAgree E (Backend.memory.empty, ∅) (Backend.sqlite.empty, ∅) :=
  ⟨mirrors_empty E, kept_empty E, rfl, published_empty E _⟩

/-- The table lists the statements of a subject in the order of their hashes. -/
theorem getStatementsBySubject_sorted (subject : String) (s : SqlStore) :
    (Backend.sqlite.getStatementsBySubject E subject s).Pairwise fun a b => a.entryHash.hex ≤ b.entryHash.hex := by
  unfold Backend.getStatementsBySubject
  have hrows : (SqlStore.getBySubject s subject).Pairwise fun a b => decide (a.1.hex ≤ b.1.hex) = true := by
    apply List.pairwise_mergeSort
    · intro a b c hab hbc
      simp only [decide_eq_true_eq] at *
      exact String.le_trans hab hbc
    · intro a b
      simp only [Bool.or_eq_true, decide_eq_true_eq]
      exact String.le_total a.1.hex b.1.hex
  refine List.Pairwise.filterMap _ ?_ hrows
  intro a b hle x hx y hy
  have hx' : x.entryHash = a.1 := by
    split at hx
    · cases hx
    · cases hx
      rfl
  have hy' : y.entryHash = b.1 := by
    split at hy
    · cases hy
    · cases hy
      rfl
  rw [hx', hy']
  simpa using hle

theorem subjectRows_freshState {now : Nat → Datetime} {sub : Submission} {x : String} (hx : sub.subject = some x)
    (grade : Option String) (cp : Option Checkpoint) (g : Option ContinuityGrade) (m : MemoryStore) (y : String) :
    (freshState E now sub grade cp g m).subjectRows y = m.subjectRows y ++
      if y = x ∧ ∀ row ∈ m.subjectRows x, row.1 ≠ sub.entryHash then [(sub.entryHash, sub.payloadDigest, sub.payloadForm)]
      else [] := by
  have hstate : (freshState E now sub grade cp g m).subjectRows y =
      (m.putSubjectIndex x (sub.entryHash, sub.payloadDigest, sub.payloadForm)).subjectRows y := by
    simp only [MemoryStore.subjectRows, freshState, committedState, subjectIndex_putSth, indexSubject, hx]
    rfl
  rw [hstate, MemoryStore.subjectRows_put]

private def twoHeader : Bytes := [162, 1, 39, 15, 161, 2, 97, 120]

/-- A COSE_Sign1 of subject `x` over one byte. -/
private def twoStatement (byte : UInt8) : Bytes := [210, 132, 72] ++ twoHeader ++ [160, 65, byte, 64]

private def twoAct (byte : UInt8) : Cbor := .tag 18 (.array [.bytes twoHeader, .map [], .bytes [byte], .bytes []])

private abbrev twoEnv : Env := refEnv [(twoStatement 98, twoAct 98), (twoStatement 97, twoAct 97),
  (twoHeader, .map [(.int 1, .int (-8)), (.int 15, .map [(.int 2, .text "x")])])] [] fun _ _ _ _ _ => false

private theorem prepare_twoStatement {byte : UInt8} (h : byte = 98 ∨ byte = 97) : ∃ sub,
    prepare twoEnv ({} : Config).payloadPolicy (twoStatement byte) = .ok sub ∧ sub.checkpointFields = none ∧
      sub.entryHash = twoEnv.sha256 (sigStructure twoEnv twoHeader [byte]) ∧
      sub.legacyHash = twoEnv.sha256 (twoStatement byte) ∧ sub.subject = some "x" := by
  rcases h with rfl | rfl
  · exact ⟨_, rfl, rfl, rfl, rfl, rfl⟩
  · exact ⟨_, rfl, rfl, rfl, rfl, rfl⟩

private theorem twoHashes : (twoEnv.sha256 (sigStructure twoEnv twoHeader [97])).hex <
      (twoEnv.sha256 (sigStructure twoEnv twoHeader [98])).hex ∧
    twoEnv.sha256 (twoStatement 97) ≠ twoEnv.sha256 (sigStructure twoEnv twoHeader [98]) := by
  decide +kernel

private def twoOperations : List TimedOperation :=
  [(fun _ => ⟨0, 0⟩, .request (.register (twoStatement 98))), (fun _ => ⟨0, 0⟩, .request (.register (twoStatement 97)))]

private theorem operate_register {m m' : MemoryStore} {r : TimedRequest} {reply : Reply}
    (h : step E cfg m r = (.ok reply, m')) (receipts : PublicLogReceipts) :
    Backend.memory.operate E cfg (m, receipts) (r.1, .request r.2) = (.ok (.replied reply), (m', receipts)) := by
  have hrun : (r.2.program E cfg r.1).run MemoryStore.exec m = (.ok reply, m') := h
  simp only [Backend.operate, Backend.step]
  rw [Backend.runRaising_memory, hrun]
  rfl

private theorem statementFits_of_none {byte : UInt8} {sub : Submission}
    (hprep : prepare twoEnv ({} : Config).payloadPolicy (twoStatement byte) = .ok sub) (hfields : sub.checkpointFields = none) :
    StatementFits twoEnv {} (twoStatement byte) := by
  intro sub' hprep' f hf
  rw [hprep] at hprep'
  cases hprep'
  rw [hfields] at hf
  cases hf

end CapsuleAnchor
