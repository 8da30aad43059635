import CapsuleAnchor.Rails

/-!
# Services with their publishers and routes

A service over any store, its publisher and the `/checkpoints` route, as programs over one shared node.  Every method of a
service runs under its lock; the publisher and the route look at the receipts without it, so that a head is taken, submitted
and filed at different times, while the log grows.  Any call may fail, before it has done anything or after (`Fault`).

A request that is left alone and meets no fault is a step of `Backend.step` (`run_serve`).
-/

namespace CapsuleAnchor

open Interleaving

variable (E : Env) (cfg : Config)

/-! ### The calls -/

/-- The lock of a service, a store method inside it, and the calls of the publisher and of the route. -/
inductive NodeCall
  | acquire
  | release
  | store (c : Call)
  | size
  | lookup (key : PublicationKey)
  | submit (backend : String) (sth : SignedTreeHead)
  | insert (receipt : PublicLogReceipt)
  | covering (backend : String) (minTreeSize : Nat)

/-- `none` is an exception. -/
@[reducible] def NodeCall.Ans : NodeCall → Type
  | .acquire => Unit
  | .release => Unit
  | .store c => Option c.Ans
  | .size => Option Nat
  | .lookup _ => Option (Option PublicLogReceipt)
  | .submit _ _ => Option PublicLogResponse
  | .insert _ => Option Unit
  | .covering _ _ => Option (Option PublicLogReceipt)

abbrev NodeM (α : Type) : Type := Prog NodeCall NodeCall.Ans Empty α

def NodeCall.perform (c : NodeCall) : NodeM c.Ans := Prog.perform c

/-- A program of the service up to its end or its first exception. -/
def caught {α : Type} : ServiceM α → NodeM (Except (Option ServiceError) α)
  | .pure a => .pure (.ok a)
  | .throw e => .pure (.error (some e))
  | .call c k => .call (.store c) fun
    | none => .pure (.error none)
    | some x => caught (k x)

/-- `with self._lock:`. -/
def locked {α : Type} (p : ServiceM α) : NodeM (Except (Option ServiceError) α) := do
  NodeCall.perform .acquire
  let result ← caught p
  NodeCall.perform .release
  return result

/-! ### The programs -/

/-- The object that a response and its receipt carry. -/
structure PublicLogEntry where
  backend : String
  uuid : String
  logIndex : Option Int
  sthTreeSize : Nat
deriving DecidableEq

def PublicLogReceipt.entry (r : PublicLogReceipt) : PublicLogEntry := ⟨r.backend, r.uuid, r.logIndex, r.sthTreeSize⟩

/-- A receipt with the object under label 397 of its unprotected header. -/
structure AugmentedReceipt where
  receipt : CoseReceipt
  publicLog : Option PublicLogEntry := none
deriving DecidableEq

/-- `augment_receipt_with_public_log`. -/
def augmentReceiptWithPublicLog (receipt : AugmentedReceipt) (entry : PublicLogEntry) : AugmentedReceipt :=
  { receipt with publicLog := some entry }

structure CheckpointStampResponse where
  receipt : AugmentedReceipt
  entryHash : Digest
  entryHashScheme : EntryHashScheme
  leafIndex : Int
  treeSize : Nat
  grade : Option String
  continuityGrade : Option ContinuityGrade
  publicLog : Option PublicLogEntry
deriving DecidableEq

inductive NodeReply
  | replied (result : Except (Option ServiceError) Reply)
  /-- `none` is an exception of the put. -/
  | published (fresh : Option Bool)
  | stamped (response : CheckpointStampResponse)
  /-- 429. -/
  | overBudget
  /-- 409 for a `ContinuityMismatchError`, else 500. -/
  | failed (e : Option ServiceError)

/-- `witness_checkpoint`, which takes the lock for the registration and again for the record. -/
def lockedWitness (now : Nat → Datetime) (cp : Checkpoint) : NodeM (Except (Option ServiceError) StatementRegistration) := do
  let registered ← locked (registerSignedStatementFull E cfg now (checkpointDigest E cp).bytes cp.grade (some cp))
  match registered with
  | .error e => return .error e
  | .ok result =>
    let recorded ← locked (store (.putCheckpointRecord cp.logId cp.mmrSize (checkpointRecord cp result)))
    return recorded.map fun _ => result

/-- The response without evidence. -/
def stampResponse (cp : Checkpoint) (result : StatementRegistration) : CheckpointStampResponse :=
  { receipt := ⟨result.receipt, none⟩, entryHash := result.entryHash, entryHashScheme := result.entryHashScheme
    leafIndex := result.leafIndex, treeSize := result.treeSize, grade := cp.grade
    continuityGrade := result.continuityGrade, publicLog := none }

/-- The response with a receipt that covers its tree. -/
def CheckpointStampResponse.cover (response : CheckpointStampResponse) (covering : PublicLogReceipt) :
    CheckpointStampResponse :=
  { response with
    receipt := augmentReceiptWithPublicLog response.receipt covering.entry, publicLog := some covering.entry }

/-- The end of `_witness_checkpoint_cp`; `publicLog` is the rail's backend, if there is one. -/
def attachPublicLog (publicLog : Option String) (response : CheckpointStampResponse) : NodeM NodeReply :=
  match publicLog with
  | none => return .stamped response
  | some backend => do
    match ← NodeCall.perform (.covering backend response.treeSize) with
    | none => return .failed none
    | some none => return .stamped response
    | some (some covering) => return .stamped (response.cover covering)

/-- `_witness_checkpoint_cp`; `overBudget` is what the limiter of an enrolled submitter says. -/
def witnessCheckpointCp (now : Nat → Datetime) (publicLog : Option String) (overBudget : Bool) (cp : Checkpoint) :
    NodeM NodeReply := do
  if cp.grade.isSome && overBudget then return .overBudget
  match ← lockedWitness E cfg now cp with
  | .error e => return .failed e
  | .ok result => attachPublicLog publicLog (stampResponse cp result)

/-- `publish_if_new`; only the put is outside the `try`. -/
def nodePublishIfNew (now : Nat → Datetime) (backend submittedAt : String) : NodeM NodeReply := do
  match ← NodeCall.perform .size with
  | none => return .published (some false)
  | some size =>
    if size = 0 then return .published (some false)
    match ← locked (getSth E now) with
    | .error _ => return .published (some false)
    | .ok sth =>
      match ← NodeCall.perform (.lookup (sth.publication backend)) with
      | none => return .published (some false)
      | some (some _) => return .published (some false)
      | some none =>
        match ← NodeCall.perform (.submit backend sth) with
        | none => return .published (some false)
        | some response =>
          let inserted ← NodeCall.perform (.insert (PublicLogResponse.receipt response backend sth submittedAt))
          return .published (inserted.map fun _ => true)

inductive NodeRequest
  | serve (now : Nat → Datetime) (request : Request)
  | publish (now : Nat → Datetime) (backend submittedAt : String)
  | checkpoint (now : Nat → Datetime) (publicLog : Option String) (overBudget : Bool) (cp : Checkpoint)

def NodeRequest.program : NodeRequest → NodeM NodeReply
  | .serve now (.witnessCheckpoint cp) => (fun r => .replied (r.map .registered)) <$> lockedWitness E cfg now cp
  | .serve now request => NodeReply.replied <$> locked (request.program E cfg now)
  | .publish now backend submittedAt => nodePublishIfNew E now backend submittedAt
  | .checkpoint now publicLog overBudget cp => witnessCheckpointCp E cfg now publicLog overBudget cp

/-! ### The state -/

/-- A call raises before it has done anything, or after. -/
inductive Fault
  | before
  | after
deriving DecidableEq

/-- The shared store with its receipts, and how the next calls fail. -/
structure Node (b : Backend) where
  rail : Rail b
  faults : List (Option Fault) := []

/-- A call that does `run` and fails as the next fault says; `refused` is a value that does not fit. -/
def Node.answer {b : Backend} {α : Type} (s : Node b) (refused : Prop) [Decidable refused] (run : α × Rail b) :
    Option α × Node b :=
  if refused then (none, ⟨s.rail, s.faults.tail⟩)
  else match s.faults.head?.join with
    | none => (some run.1, ⟨run.2, s.faults.tail⟩)
    | some .before => (none, ⟨s.rail, s.faults.tail⟩)
    | some .after => (none, ⟨run.2, s.faults.tail⟩)

theorem Node.answer_cases {b : Backend} {α : Type} (s : Node b) (refused : Prop) [Decidable refused] (run : α × Rail b) :
    ((s.answer refused run).1 = none ∧
      ((s.answer refused run).2.rail = s.rail ∨ (s.answer refused run).2.rail = run.2)) ∨
    (s.answer refused run).1 = some run.1 ∧ (s.answer refused run).2.rail = run.2 := by
  unfold Node.answer
  split
  · exact .inl ⟨rfl, .inl rfl⟩
  · split
    · exact .inr ⟨rfl, rfl⟩
    · exact .inl ⟨rfl, .inl rfl⟩
    · exact .inl ⟨rfl, .inr rfl⟩

theorem Node.answer_rail {b : Backend} {α : Type} (s : Node b) (refused : Prop) [Decidable refused] (run : α × Rail b) :
    (s.answer refused run).2.rail = s.rail ∨ (s.answer refused run).2.rail = run.2 := by
  rcases s.answer_cases refused run with ⟨-, hrail⟩ | ⟨-, hrail⟩
  · exact hrail
  · exact .inr hrail

/-- `respond` is what an external log answers, in view of all the submissions so far. -/
def Node.exec (b : Backend) (respond : List (String × SignedTreeHead) → PublicLogResponse) :
    (c : NodeCall) → Node b → c.Ans × Node b
  | .acquire, s => ((), s)
  | .release, s => ((), s)
  | .store c, s => s.answer (b.Raises E c s.rail.store)
    ((b.exec E c s.rail.store).1, { s.rail with store := (b.exec E c s.rail.store).2 })
  | .size, s => s.answer False ((b.exec E .size s.rail.store).1, s.rail)
  | .lookup key, s => s.answer False (s.rail.receipts.lookup key, s.rail)
  | .submit backend sth, s => s.answer False (respond (s.rail.submissions ++ [(backend, sth)]),
    { s.rail with submissions := s.rail.submissions ++ [(backend, sth)] })
  | .insert receipt, s => s.answer (b.refusesReceipt receipt)
    ((), { s.rail with receipts := b.putPublicLogReceipt receipt s.rail.receipts })
  | .covering backend minTreeSize, s =>
    s.answer False (b.getPublicLogReceiptCovering s.rail.receipts backend minTreeSize, s.rail)

/-! ### Without faults -/

section Run

variable {E cfg} {b : Backend} {respond : List (String × SignedTreeHead) → PublicLogResponse} {α : Type}

/-- A call that meets no fault. -/
theorem Node.answer_ok {α : Type} {rail : Rail b} {refused : Prop} [Decidable refused] (h : ¬ refused) (run : α × Rail b) :
    (⟨rail, []⟩ : Node b).answer refused run = (some run.1, ⟨run.2, []⟩) := by
  unfold Node.answer
  rw [if_neg h]
  rfl

theorem run_caught (p : ServiceM α) (rail : Rail b) : (caught p).run (Node.exec E b respond) ⟨rail, []⟩ =
    (.ok (p.runRaising (b.Raises E) (b.exec E) rail.store).1,
      ⟨{ rail with store := (p.runRaising (b.Raises E) (b.exec E) rail.store).2 }, []⟩) := by
  induction p generalizing rail with
  | pure a => rfl
  | throw e => rfl
  | call c k ih =>
    rw [caught, Prog.run]
    by_cases hraises : b.Raises E c rail.store
    · have hexec : Node.exec E b respond (.store c) ⟨rail, []⟩ = (none, ⟨rail, []⟩) := by
        simp only [Node.exec, Node.answer, if_pos hraises]
        rfl
      simp only [hexec, Prog.runRaising, if_pos hraises]
      rfl
    · have hexec : Node.exec E b respond (.store c) ⟨rail, []⟩ = (some (b.exec E c rail.store).1,
          ⟨{ rail with store := (b.exec E c rail.store).2 }, []⟩) := Node.answer_ok hraises _
      simp only [hexec, Prog.runRaising, if_neg hraises]
      exact ih _ _

theorem run_locked (p : ServiceM α) (rail : Rail b) : (locked p).run (Node.exec E b respond) ⟨rail, []⟩ =
    (.ok (p.runRaising (b.Raises E) (b.exec E) rail.store).1,
      ⟨{ rail with store := (p.runRaising (b.Raises E) (b.exec E) rail.store).2 }, []⟩) := by
  have hacquire : (NodeCall.perform .acquire).run (Node.exec E b respond) ⟨rail, []⟩ = (.ok (), ⟨rail, []⟩) := rfl
  rw [locked, Prog.run_bind_ok _ hacquire, Prog.run_bind_ok _ (run_caught p rail)]
  rfl

variable (E cfg) in
/-- Both sections of `witness_checkpoint`, with nothing in between. -/
theorem run_lockedWitness (now : Nat → Datetime) (cp : Checkpoint) (rail : Rail b) :
    let result := (witnessCheckpoint E cfg now cp).runRaising (b.Raises E) (b.exec E) rail.store
    (lockedWitness E cfg now cp).run (Node.exec E b respond) ⟨rail, []⟩ =
      (.ok result.1, ⟨{ rail with store := result.2 }, []⟩) := by
  intro result
  obtain ⟨registered, hregistered⟩ : ∃ registered, registered =
      (registerSignedStatementFull E cfg now (checkpointDigest E cp).bytes cp.grade (some cp)).runRaising (b.Raises E)
        (b.exec E) rail.store := ⟨_, rfl⟩
  rw [lockedWitness, Prog.run_bind_ok _ (run_locked _ rail), ← hregistered]
  obtain ⟨outcome, s⟩ := registered
  cases outcome with
  | error e =>
    have hresult : result = (.error e, s) := Prog.runRaising_bind_error hregistered.symm
    rw [hresult]
    rfl
  | ok registration =>
    have hresult : result = _ := Prog.runRaising_bind_ok hregistered.symm
    simp only
    rw [Prog.run_bind_ok _ (run_locked _ _), hresult]
    have hmap := Prog.runRaising_map (b.Raises E) (b.exec E) (fun _ => registration)
      (store (.putCheckpointRecord cp.logId cp.mmrSize (checkpointRecord cp registration)) : ServiceM _) s
    rw [show (store (.putCheckpointRecord cp.logId cp.mmrSize (checkpointRecord cp registration)) >>= fun _ =>
      pure registration : ServiceM _).runRaising (b.Raises E) (b.exec E) s = _ from hmap]
    rfl

variable (E cfg) in
/-- A request that is left alone and meets no fault is a step of the service. -/
theorem run_serve (now : Nat → Datetime) (request : Request) (rail : Rail b) :
    let result := b.step E cfg rail.store (now, request)
    (NodeRequest.program E cfg (.serve now request)).run (Node.exec E b respond) ⟨rail, []⟩ =
      (.ok (.replied result.1), ⟨{ rail with store := result.2 }, []⟩) := by
  intro result
  have hlocked : (NodeReply.replied <$> locked (request.program E cfg now)).run (Node.exec E b respond) ⟨rail, []⟩ =
      (.ok (.replied result.1), ⟨{ rail with store := result.2 }, []⟩) := by
    rw [Prog.run_map, run_locked]
    rfl
  cases request with
  | witnessCheckpoint cp =>
    have hresult : result = _ := Prog.runRaising_map (b.Raises E) (b.exec E) Reply.registered
      (witnessCheckpoint E cfg now cp) rail.store
    rw [NodeRequest.program, Prog.run_map, run_lockedWitness, hresult]
    rfl
  | _ => exact hlocked

/-- The route attaches what the query finds. -/
theorem run_attachPublicLog {rail : Rail b} {backend : String} {response : CheckpointStampResponse} {r : PublicLogReceipt}
    (h : b.getPublicLogReceiptCovering rail.receipts backend response.treeSize = some r) :
    (attachPublicLog (some backend) response).run (Node.exec E b respond) ⟨rail, []⟩ =
      (.ok (.stamped (response.cover r)), ⟨rail, []⟩) := by
  have hcovering : (NodeCall.perform (.covering backend response.treeSize)).run (Node.exec E b respond) ⟨rail, []⟩ =
      (.ok (some (b.getPublicLogReceiptCovering rail.receipts backend response.treeSize)), ⟨rail, []⟩) := rfl
  rw [attachPublicLog, Prog.run_bind_ok _ hcovering, h]
  rfl

end Run

end CapsuleAnchor
