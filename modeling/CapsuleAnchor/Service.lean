import CapsuleAnchor.Log
import CapsuleAnchor.Store

/-!
# The service (`anchoring/service.py`)

`AnchorerService` as programs over the store.  What the source reads from the clock is a parameter: `now i` is the
reading number `i` of a call, in the order the call takes them.

A program says nothing about locks.  One service over its in-memory store holds its lock throughout, so a call is one
step: `step` runs the program alone.  Several instances over one SQL store interleave the calls of their programs.
-/

namespace CapsuleAnchor

variable (E : Env) (cfg : Config)

/-- One store method. -/
def store (c : Call) : ServiceM c.Ans := Prog.perform c

/-- A store method that may raise. -/
def orRaise {α : Type} (p : ServiceM (Except ServiceError α)) : ServiceM α := p >>= Prog.ofExcept

/-- `f x` when there is an `x`. -/
def optionally {α β : Type} (x : Option α) (f : α → ServiceM β) : ServiceM (Option β) :=
  match x with
  | none => pure none
  | some a => some <$> f a

/-! ### The log -/

/-- `_head_hash`. -/
def headHash : ServiceM Digest := do
  let entries ← store .allEntries
  match entries.getLast? with
  | some entry => return entryHeadHash E entry
  | none => Prog.throw (.indexError "list index out of range")

/-- `self._head_hash() if log_index > 0 else None`. -/
def prevLogHash (logIndex : Nat) : ServiceM (Option String) :=
  if 0 < logIndex then (fun h => some h.hex) <$> headHash E else pure none

/-- `_append_log`. -/
def appendLog (kind : String) (signedPayload : Bytes) (loggedAt signedAt : Datetime) :
    ServiceM TransparencyLogEntry := do
  let logIndex ← store .size
  let payloadHash := E.sha256 signedPayload
  let prevLogHash ← prevLogHash E logIndex
  let entry : TransparencyLogEntry :=
    { logIndex, loggedAt, kind, payloadHash, prevLogHash
      logSignature := attest E (treeHeadPayload logIndex payloadHash prevLogHash) signedAt }
  orRaise (store (.appendEntry entry))
  return entry

/-- `anchor`. -/
def anchor (now : Nat → Datetime) (tenantId rootHash : String) (seqRange : Int × Int)
    (capsuleId : Option String) : ServiceM AnchorReceipt := do
  let attestedAt := now 0
  let csPayload := countersignPayload tenantId rootHash seqRange attestedAt
  let countersignature := attest E csPayload (now 1)
  let entry ← appendLog E logKindRoot csPayload attestedAt (now 2)
  store (.putRoot { tenantId, rootHash, seqRange, attestedAt, countersignature })
  let _ ← optionally capsuleId fun capsuleId => store (.putCapsuleId entry.logIndex capsuleId)
  return { rootHash, tenantId, anchoredAt := attestedAt, location := logLocationPrefix ++ toString entry.logIndex,
           logIndex := entry.logIndex, countersignature, payloadHash := entry.payloadHash,
           prevLogHash := entry.prevLogHash, seqRange, tsaSignature := E.tsaTimestamp rootHash }

/-! ### Tree heads and proofs -/

/-- `transparency_log`. -/
def transparencyLog (afterIndex : Int) : ServiceM (List TransparencyLogEntry) := store (.entriesAfter afterIndex)

/-- The head over the first `treeSize` of the entries read. -/
def signedTreeHead (treeSize : Nat) (entries : List TransparencyLogEntry) (timestamp signedAt : Datetime) :
    SignedTreeHead :=
  let rootHash := merkleTreeHash E.sha256 ((ctLeaves E entries).take treeSize)
  { treeSize, rootHash, timestamp, signature := attest E (sthPayload treeSize rootHash timestamp) signedAt }

/-- `_sign_and_persist_sth`. -/
def signAndPersistSth (timestamp signedAt : Datetime) : ServiceM SignedTreeHead := do
  let treeSize ← store .size
  let entries ← transparencyLog 0
  let sth := signedTreeHead E treeSize entries timestamp signedAt
  store (.putSth sth)
  return sth

/-- `get_sth`. -/
def getSth (now : Nat → Datetime) : ServiceM SignedTreeHead := do
  let stored ← store .getLatestSth
  match stored with
  | some sth =>
    let size ← store .size
    if size ≤ sth.treeSize then return sth else signAndPersistSth E (now 0) (now 1)
  | none => signAndPersistSth E (now 0) (now 1)

/-- `get_sth_at`. -/
def getSthAt (treeSize : Nat) : ServiceM (Option SignedTreeHead) := store (.getSthAt treeSize)

/-- `ct_root`. -/
def ctRoot (treeSize : Option Int) : ServiceM Digest := do
  let leaves := ctLeaves E (← transparencyLog 0)
  let size := treeSize.getD leaves.length
  if size < 0 ∨ (leaves.length : Int) < size then Prog.throw (.valueError "tree_size out of range")
  else return merkleTreeHash E.sha256 (leaves.take size.toNat)

/-- `inclusion_proof_ct`. -/
def inclusionProofCt (leafIndex : Int) (treeSize : Option Int) : ServiceM InclusionProof := do
  let leaves := ctLeaves E (← transparencyLog 0)
  let size := treeSize.getD leaves.length
  if 0 ≤ leafIndex ∧ leafIndex < size ∧ size ≤ leaves.length then
    let sub := leaves.take size.toNat
    match inclusionAuditPath E.sha256 leafIndex sub, sub[leafIndex.toNat]? with
    | some auditPath, some leafHash =>
      return { leafIndex, treeSize := size, leafHash, auditPath, rootHash := merkleTreeHash E.sha256 sub }
    | _, _ => Prog.throw (.indexError "leaf index out of range")
  else Prog.throw (.indexError "leaf_index / tree_size out of range")

/-- `verify_inclusion` of an RFC 6962 proof. -/
def verifyInclusion (proof : InclusionProof) (anchoredRootHash : Option Digest) : Bool :=
  if ¬ verifyInclusionPath E.sha256 proof.leafHash proof.leafIndex proof.treeSize proof.auditPath proof.rootHash
  then false
  else match anchoredRootHash with
    | none => true
    | some root => proof.rootHash == root

/-- `consistency_proof`. -/
def consistencyProof (oldSize newSize : Int) : ServiceM ConsistencyProof := do
  let leaves := ctLeaves E (← transparencyLog 0)
  if 0 ≤ oldSize ∧ oldSize ≤ newSize ∧ newSize ≤ leaves.length then
    let firstRoot := merkleTreeHash E.sha256 (leaves.take oldSize.toNat)
    let secondRoot := merkleTreeHash E.sha256 (leaves.take newSize.toNat)
    let proof := if oldSize = 0 ∨ oldSize = newSize then some []
      else ctConsistencyProof E.sha256 oldSize newSize leaves
    match proof with
    | some proof => return { firstSize := oldSize, secondSize := newSize, firstRoot, secondRoot, proof }
    | none => Prog.throw (.valueError "require 0 < first <= second <= len(leaves)")
  else Prog.throw (.valueError "require 0 <= old_size <= new_size <= log size")

/-- `verify_consistency`. -/
def verifyConsistency (proof : ConsistencyProof) : Bool :=
  verifyConsistencyProof E.sha256 proof.firstSize proof.secondSize proof.firstRoot proof.secondRoot proof.proof

/-! ### The checkpoint gates -/

/-- `_refuse_or_count`. -/
def refuseOrCount (logId : String) (prev : CheckpointWitness) (message : String) : ServiceM Unit :=
  if cfg.consistencyProofPolicy = .enforce then
    Prog.throw (.consistencyProofRequiredError message prev.mmrSize prev.mmrRoot)
  else store (.countWouldRefuse logId)

/-- `_apply_consistency_proof_policy_legacy`. -/
def applyConsistencyProofPolicyLegacy (cp : CheckpointFields) (prev : CheckpointWitness) : ServiceM Unit :=
  if cfg.consistencyProofPolicy = .off then pure ()
  else refuseOrCount cfg cp.logId prev
    ("mmr-checkpoint statement for log_id=" ++ E.repr cp.logId ++ ": this witness already accepted a " ++
      "checkpoint for that log_id (accepted mmr_size=" ++ toString prev.mmrSize ++ ", root=" ++ prev.mmrRoot.hex ++
      "), and every checkpoint after a log's first must carry a consistency_proof, which this path cannot. " ++
      "Submit it to POST /checkpoints with a consistency_proof from the accepted mmr_size; a node that lost its " ++
      "local log state must start a NEW log_id")

/-- `_check_checkpoint_consistency`. -/
def checkCheckpointConsistency (cp : CheckpointFields) : ServiceM WitnessStatus := do
  let prev ← store (.getCheckpointWitness cp.logId)
  match prev with
  | none => return .firstSeen
  | some prev =>
    applyConsistencyProofPolicyLegacy E cfg cp prev
    if cp.prevSize ≠ prev.mmrSize ∨ cp.mmrSize ≤ prev.mmrSize then
      Prog.throw (.rollbackError ("checkpoint for log_id=" ++ E.repr cp.logId ++ " does not extend the last " ++
        "witnessed checkpoint (witnessed mmr_size=" ++ toString prev.mmrSize ++ ", submitted prev_size=" ++
        toString cp.prevSize ++ ", mmr_size=" ++ toString cp.mmrSize ++
        ") -- refusing to co-sign a rollback or fork"))
    else return .witnessed

def gradeCountersignedObserved : String := "countersigned-observed"

/-- `_consistency_proof_policy_applies`: a native log, over the COSE wire. -/
def consistencyProofPolicyApplies (cp : Checkpoint) : Bool :=
  cp.consistencyProof.isSome && cp.grade != some gradeCountersignedObserved

/-- `_apply_consistency_proof_policy`. -/
def applyConsistencyProofPolicy (cp : Checkpoint) (prev : CheckpointWitness) : ServiceM Unit :=
  if cfg.consistencyProofPolicy = .off then pure ()
  else if ¬ consistencyProofPolicyApplies cp then pure ()
  else
    let message := "checkpoint for log_id=" ++ E.repr cp.logId ++ " carries no consistency_proof, but this " ++
      "witness already accepted a checkpoint for that log_id (accepted mmr_size=" ++ toString prev.mmrSize ++
      ", root=" ++ prev.mmrRoot.hex ++ "; submitted prev_size=" ++ toString cp.prevSize ++ ", mmr_size=" ++
      toString cp.mmrSize ++ "). Every checkpoint after a log's first must prove it extends the last accepted one"
    if cp.prevSize = 0 ∨ cp.mmrSize ≤ prev.mmrSize then
      refuseOrCount cfg cp.logId prev (message ++ ". This checkpoint does not extend the accepted one: if this " ++
        "node lost its local log state, it cannot prove continuity and must start a NEW log_id")
    else
      refuseOrCount cfg cp.logId prev (message ++ ". Attach a consistency_proof from the accepted mmr_size; a node " ++
        "that lost its local log state must start a NEW log_id")

/-- `_check_checkpoint_continuity`. -/
def checkCheckpointContinuity (cp : Checkpoint) : ServiceM ContinuityGrade := do
  let prev ← store (.getCheckpointWitness cp.logId)
  match prev with
  | none => return .firstSeen
  | some prev =>
    match cp.consistencyProof.join with
    | none =>
      applyConsistencyProofPolicy E cfg cp prev
      return .registered
    | some proof =>
      if cp.prevSize ≠ prev.mmrSize ∨ cp.prevRoot ≠ some prev.mmrRoot then
        Prog.throw (.continuityMismatchError ("checkpoint for log_id=" ++ E.repr cp.logId ++
          " prev_size/prev_root does not match this witness's own last-accepted checkpoint (accepted mmr_size=" ++
          toString prev.mmrSize ++ ", root=" ++ prev.mmrRoot.hex ++ "; submitted prev_size=" ++
          toString cp.prevSize ++ ", prev_root=" ++ (cp.prevRoot.map Digest.hex).getD "" ++
          ") -- refusing to co-sign (fork or misordered continuity claim)") prev.mmrSize prev.mmrRoot)
      else if ¬ E.verifyConsistency prev.mmrRoot prev.mmrSize cp.root cp.mmrSize proof then
        Prog.throw (.continuityMismatchError ("checkpoint for log_id=" ++ E.repr cp.logId ++
          " consistency_proof does not bridge this witness's last-accepted (mmr_size=" ++ toString prev.mmrSize ++
          ", root=" ++ prev.mmrRoot.hex ++ ") to the submitted (mmr_size=" ++ toString cp.mmrSize ++ ", root=" ++
          cp.root.hex ++ ") -- refusing to co-sign (possible rewritten/truncated tree)") prev.mmrSize prev.mmrRoot)
      else return .witnessed

/-! ### Registration -/

/-- The dual lookup: the cached registration, and the scheme of the key it was found under. -/
def lookupStatement (s : Submission) : ServiceM (Option (CoseReceipt × Int × Nat) × EntryHashScheme) := do
  let cached ← store (.getStatement s.entryHash)
  match cached with
  | some cached => return (some cached, s.scheme)
  | none =>
    if s.entryHash ≠ s.legacyHash then
      let cached ← store (.getStatement s.legacyHash)
      return (cached, .legacy)
    else return (none, s.scheme)

/-- The answer to a resubmission. -/
def alreadyRegistered (s : Submission) (cached : CoseReceipt × Int × Nat) (cacheScheme : EntryHashScheme)
    (checkpointContinuity : Option Checkpoint) : ServiceM StatementRegistration := do
  let stored ← optionally checkpointContinuity fun cp => store (.getCheckpointRecord cp.logId cp.mmrSize)
  return { receipt := cached.1
           entryHash := if cacheScheme = .legacy then s.legacyHash else s.entryHash
           leafIndex := cached.2.1
           treeSize := cached.2.2
           entryHashScheme := cacheScheme
           checkpointWitness := s.checkpointFields.map fun fields => (fields, .alreadyRegistered)
           subject := s.subject
           continuityGrade := stored.join.bind (·.continuityGrade) }

/-- The signed continuity assertion, for a checkpoint that passed both checks only. -/
def continuityAssertion (loggedAt : Datetime) (checkpointContinuity : Option Checkpoint)
    (continuityGrade : Option ContinuityGrade) : Option ContinuityAssertion :=
  match checkpointContinuity with
  | none => none
  | some cp =>
    if continuityGrade = some .witnessed then
      some { policyId := "cll-continuity/v1", logId := cp.logId, prevSize := cp.prevSize, prevRoot := cp.prevRoot,
             mmrSize := cp.mmrSize, root := cp.root, checked := ["prev_equality", "consistency_proof"],
             witnessKeyId := E.keyId, ts := loggedAt.isoformat }
    else none

/-- Append the statement, build its receipt against the current tree and cache it. -/
def appendStatement (now : Nat → Datetime) (s : Submission) (grade : Option String)
    (continuity : Option ContinuityAssertion) : ServiceM (CoseReceipt × Int × Nat) := do
  let entry ← appendLog E logKindScitt s.preimage (now 0) (now 1)
  let leaves := ctLeaves E (← transparencyLog 0)
  match inclusionAuditPath E.sha256 entry.logIndex leaves with
  | none => Prog.throw (.indexError "leaf index out of range")
  | some auditPath =>
    let receipt := buildCoseReceipt E leaves.length entry.logIndex auditPath (merkleTreeHash E.sha256 leaves)
      (some (now 0).timestamp) grade continuity
    store (.putStatement s.entryHash receipt entry.logIndex leaves.length)
    return (receipt, entry.logIndex, leaves.length)

/-- The tip a `mmr-checkpoint` statement leaves. -/
def CheckpointFields.witness (f : CheckpointFields) : CheckpointWitness :=
  { mmrSize := f.mmrSize, mmrRoot := f.mmrRoot, keyId := f.keyId, timestamp := f.timestamp }

/-- The tip a `POST /checkpoints` submission leaves. -/
def Checkpoint.witness (cp : Checkpoint) : CheckpointWitness :=
  { mmrSize := cp.mmrSize, mmrRoot := cp.root, keyId := cp.keyId, timestamp := cp.timestamp }

/-- The checkpoint whose tip is to be committed: a `registered` one leaves the tip alone. -/
def acceptedCheckpoint (checkpointContinuity : Option Checkpoint) (continuityGrade : Option ContinuityGrade) :
    Option Checkpoint :=
  if continuityGrade = some .firstSeen ∨ continuityGrade = some .witnessed then checkpointContinuity else none

/-- After the receipt is cached: the subject index, the tree head, the witness tips. -/
def commitRegistration (now : Nat → Datetime) (s : Submission) (accepted : Option Checkpoint) : ServiceM Unit := do
  let _ ← optionally s.subject fun subject =>
    store (.putSubjectIndex subject s.entryHash s.payloadDigest s.payloadForm)
  let _ ← signAndPersistSth E (now 3) (now 4)
  let _ ← optionally s.checkpointFields fun fields => store (.putCheckpointWitness fields.logId fields.witness)
  let _ ← optionally accepted fun cp => store (.putCheckpointWitness cp.logId cp.witness)
  return ()

/-- A genuinely new signing act. -/
def registerNew (now : Nat → Datetime) (s : Submission) (grade : Option String)
    (checkpointContinuity : Option Checkpoint) : ServiceM StatementRegistration := do
  let witnessStatus ← optionally s.checkpointFields (checkCheckpointConsistency E cfg)
  let continuityGrade ← optionally checkpointContinuity (checkCheckpointContinuity E cfg)
  let issued ← appendStatement E now s grade (continuityAssertion E (now 0) checkpointContinuity continuityGrade)
  commitRegistration E now s (acceptedCheckpoint checkpointContinuity continuityGrade)
  return { receipt := issued.1, entryHash := s.entryHash, leafIndex := issued.2.1, treeSize := issued.2.2
           entryHashScheme := s.scheme
           checkpointWitness := s.checkpointFields.bind fun fields => witnessStatus.map fun st => (fields, st)
           subject := s.subject, continuityGrade }

/-- `register_signed_statement_full` after `prepare`. -/
def registerPrepared (now : Nat → Datetime) (s : Submission) (grade : Option String)
    (checkpointContinuity : Option Checkpoint) : ServiceM StatementRegistration := do
  let found ← lookupStatement s
  match found.1 with
  | some cached => alreadyRegistered s cached found.2 checkpointContinuity
  | none => registerNew E cfg now s grade checkpointContinuity

/-- `register_signed_statement_full`. -/
def registerSignedStatementFull (now : Nat → Datetime) (statementBytes : Bytes) (grade : Option String)
    (checkpointContinuity : Option Checkpoint) : ServiceM StatementRegistration := do
  let s ← Prog.ofExcept (prepare E cfg.payloadPolicy statementBytes)
  registerPrepared E cfg now s grade checkpointContinuity

/-- The row of the checkpoint read surface. -/
def checkpointRecord (cp : Checkpoint) (result : StatementRegistration) : CheckpointRecord :=
  { root := cp.root, prevSize := cp.prevSize, prevRoot := cp.prevRoot, keyId := cp.keyId, timestamp := cp.timestamp
    grade := cp.grade, entryHash := result.entryHash, entryHashScheme := result.entryHashScheme
    leafIndex := result.leafIndex, treeSize := result.treeSize, receipt := result.receipt
    continuityGrade := result.continuityGrade }

/-- `witness_checkpoint`: register the digest bytes, then record the read surface. -/
def witnessCheckpoint (now : Nat → Datetime) (cp : Checkpoint) : ServiceM StatementRegistration := do
  let result ← registerSignedStatementFull E cfg now (checkpointDigest E cp).bytes cp.grade (some cp)
  let _ ← store (.putCheckpointRecord cp.logId cp.mmrSize (checkpointRecord cp result))
  return result

/-- `prune_expired_statements`; `seconds` is the configured retention. -/
def pruneExpiredStatements (seconds : Option Nat) (now : Datetime) : ServiceM Nat :=
  match seconds with
  | none => pure 0
  | some seconds =>
    orRaise (store (.pruneStatementsOlderThan ⟨now.epochUs - seconds * 1000000, now.utcoffset⟩))

/-! ### Runs -/

/-- A call of one of the public methods that write. -/
inductive Request
  | anchor (tenantId rootHash : String) (seqRange : Int × Int) (capsuleId : Option String)
  | register (statementBytes : Bytes)
  | witnessCheckpoint (cp : Checkpoint)
  | refreshSth
  | getSth
  | prune (seconds : Option Nat)

inductive Reply
  | anchored (receipt : AnchorReceipt)
  | registered (result : StatementRegistration)
  | sth (sth : SignedTreeHead)
  | pruned (count : Nat)

/-- The program that answers a request at the given clock readings. -/
def Request.program (now : Nat → Datetime) : Request → ServiceM Reply
  | .anchor tenantId rootHash seqRange capsuleId =>
    Reply.anchored <$> CapsuleAnchor.anchor E now tenantId rootHash seqRange capsuleId
  | .register statementBytes => Reply.registered <$> registerSignedStatementFull E cfg now statementBytes none none
  | .witnessCheckpoint cp => Reply.registered <$> CapsuleAnchor.witnessCheckpoint E cfg now cp
  | .refreshSth => Reply.sth <$> signAndPersistSth E (now 0) (now 1)
  | .getSth => Reply.sth <$> CapsuleAnchor.getSth E now
  | .prune seconds => Reply.pruned <$> pruneExpiredStatements seconds (now 0)

end CapsuleAnchor
