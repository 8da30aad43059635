import CapsuleAnchor.Reads
import CapsuleAnchor.Receipts

/-!
# The public-log rail

The publisher of `public_log/scheduler.py` over a service and its receipts: it takes the current head of a log that is not
empty, submits it to an external public log unless the receipts have it, and puts what the log answers.  It never raises
before the put: an exception of the store or of the external log ends the publication.

`Backend.operate` is a service with its rail over one backend, as one step for each operation.  `Published` is the
invariant of the receipts: each is about a prefix of the log, and its row is filed under what it says.
-/

namespace CapsuleAnchor

variable (E : Env) (cfg : Config)

/-- What an external public log answers. -/
structure PublicLogResponse where
  uuid : String
  logIndex : Option Int
  integratedTime : Scalar
  signedEntryTimestamp : Scalar
  rawResponse : String
deriving DecidableEq

/-- The row that the publisher puts. -/
def PublicLogResponse.receipt (response : PublicLogResponse) (backend : String) (sth : SignedTreeHead)
    (submittedAt : String) : PublicLogReceipt :=
  { backend, sthTreeSize := sth.treeSize, sthRootHash := sth.rootHash, sthTimestamp := sth.timestamp.isoformat
    uuid := response.uuid, logIndex := response.logIndex, integratedTime := response.integratedTime
    signedEntryTimestamp := response.signedEntryTimestamp, rawResponse := response.rawResponse, submittedAt }

/-- The head to publish; an empty log has none. -/
def headToPublish (now : Nat → Datetime) : ServiceM (Option SignedTreeHead) := do
  let size ← store .size
  if size = 0 then return none else some <$> getSth E now

/-- The value is no integer that is too large to be bound. -/
def Scalar.binds : Scalar → Bool
  | .int i => decide (FitsColumn i)
  | _ => true

/-- The integer columns of a receipt hold what they are handed. -/
def PublicLogReceipt.fits (r : PublicLogReceipt) : Bool :=
  decide (FitsColumn r.sthTreeSize) && r.logIndex.all fun i => decide (FitsColumn i)

/-- The insert of a receipt raises. -/
def Backend.refusesReceipt : Backend → PublicLogReceipt → Bool
  | memory, _ => false
  | sqlite, r => !(r.fits && r.integratedTime.binds && r.signedEntryTimestamp.binds)
  | postgres, r => !r.fits

/-- An operation of a service with its rail; `answer` is what the external log answers if it is asked. -/
inductive Operation
  | request (r : Request)
  | publish (backend : String) (answer : Option PublicLogResponse) (submittedAt : String)

inductive OperationReply
  | replied (reply : Reply)
  | published (fresh : Bool)

/-- A service and the receipts of its rail. -/
abbrev Backend.Node (b : Backend) : Type := b.Store × PublicLogReceipts

/-- `publish_if_new`, after it has the head. -/
def Backend.publish (b : Backend) (backend : String) (answer : Option PublicLogResponse) (submittedAt : String)
    (sth : SignedTreeHead) (receipts : PublicLogReceipts) :
    Except (Option ServiceError) OperationReply × PublicLogReceipts :=
  if (getPublicLogReceipt receipts backend sth.treeSize sth.rootHash).isSome then (.ok (.published false), receipts)
  else match answer with
    | none => (.ok (.published false), receipts)
    | some response =>
      let receipt := response.receipt backend sth submittedAt
      -- the put is outside the `try`
      if b.refusesReceipt receipt then (.error none, receipts)
      else (.ok (.published true), b.putPublicLogReceipt receipt receipts)

/-- One operation of a service with its rail. -/
def Backend.operate (b : Backend) (node : b.Node) (op : (Nat → Datetime) × Operation) :
    Except (Option ServiceError) OperationReply × b.Node :=
  match op.2 with
  | .request r =>
    let result := b.step E cfg node.1 (op.1, r)
    (result.1.map .replied, (result.2, node.2))
  | .publish backend answer submittedAt =>
    match (headToPublish E op.1).runRaising (b.Raises E) (b.exec E) node.1 with
    | (.ok (some sth), s) =>
      let result := b.publish backend answer submittedAt sth node.2
      (result.1, (s, result.2))
    | (.ok none, s) => (.ok (.published false), (s, node.2))
    | (.error _, s) => (.ok (.published false), (s, node.2))

/-! ### What the receipts say -/

/-- Every receipt says the size and the root of a prefix of the log, and is filed under its log, size and root. -/
def Published (log : List TransparencyLogEntry) (receipts : PublicLogReceipts) : Prop :=
  ∀ key r, receipts.lookup key = some r → key = (r.backend, r.sthTreeSize, r.sthRootHash) ∧
    r.sthTreeSize ≤ log.length ∧ r.sthRootHash = rootAt E log r.sthTreeSize

theorem published_empty (log : List TransparencyLogEntry) : Published E log ∅ := by
  intro key r hr
  simp at hr

variable {E}

theorem Published.mono {log log' : List TransparencyLogEntry} {receipts : PublicLogReceipts}
    (h : Published E log receipts) (hlog : log <+: log') : Published E log' receipts := by
  intro key r hr
  obtain ⟨hkey, hsize, hroot⟩ := h key r hr
  refine ⟨hkey, hsize.trans hlog.length_le, ?_⟩
  rw [hroot, rootAt, rootAt, take_of_prefix hlog hsize]

theorem Published.put {log : List TransparencyLogEntry} {receipts : PublicLogReceipts} (h : Published E log receipts)
    {r : PublicLogReceipt} (hsize : r.sthTreeSize ≤ log.length) (hroot : r.sthRootHash = rootAt E log r.sthTreeSize) :
    Published E log (insertNew receipts (r.backend, r.sthTreeSize, r.sthRootHash) r) := by
  intro key r' hr'
  rw [lookup_insertNew] at hr'
  split at hr'
  · rename_i hkey
    subst hkey
    cases hold : receipts.lookup (r.backend, r.sthTreeSize, r.sthRootHash) with
    | none =>
      obtain rfl : r = r' := by simpa [hold] using hr'
      exact ⟨rfl, hsize, hroot⟩
    | some old =>
      obtain rfl : old = r' := by simpa [hold] using hr'
      exact h _ _ hold
  · exact h key r' hr'

/-- A head over the log can be put, as a SQL store keeps its receipt or as a dict does. -/
theorem Published.putPublicLogReceipt {log : List TransparencyLogEntry} {receipts : PublicLogReceipts}
    (h : Published E log receipts) {sth : SignedTreeHead} (hsth : HeadAt E log sth.treeSize sth) (b : Backend)
    (response : PublicLogResponse) (backend submittedAt : String) :
    Published E log (b.putPublicLogReceipt (response.receipt backend sth submittedAt) receipts) := by
  obtain ⟨hsize, -, hroot⟩ := hsth
  unfold Backend.putPublicLogReceipt
  split
  · exact h.put hsize hroot
  · exact h.put (r := (response.receipt backend sth submittedAt).row) hsize hroot

theorem Published.publish {log : List TransparencyLogEntry} {receipts : PublicLogReceipts}
    (h : Published E log receipts) {sth : SignedTreeHead} (hsth : HeadAt E log sth.treeSize sth) (b : Backend)
    (backend : String) (answer : Option PublicLogResponse) (submittedAt : String) :
    Published E log (b.publish backend answer submittedAt sth receipts).2 := by
  unfold Backend.publish
  split
  · exact h
  · cases answer with
    | none => exact h
    | some response =>
      simp only
      split
      · exact h
      · exact h.putPublicLogReceipt hsth b response backend submittedAt

end CapsuleAnchor
