import CapsuleAnchor.Base64
import CapsuleAnchor.CheckpointWire
import CapsuleAnchor.Digests
import CapsuleAnchor.Limiter
import CapsuleAnchor.Nodes
import CapsuleAnchor.TenantTree

/-!
# The routes (`anchoring/router.py`)

One process: a service over its in-memory store, the receipts of its public log, and the limiters of the routes.  An activity
is an HTTP request or one turn of a background thread of `app.py`; it reads the two clocks, and is answered alone.

What `create_app` configures is `AppConfig`.  Parsing a request into its model and writing a response are pydantic's and left out.
-/

namespace CapsuleAnchor

/-- The `detail` of an `HTTPException`. -/
inductive Detail
  | text (message : String)
  | mismatch (error : String) (code : Option String) (lastAcceptedMmrSize : Nat) (lastAcceptedRoot : Digest)
deriving DecidableEq

/-- How a route ends without a response. -/
inductive RouteError
  | http (statusCode : Nat) (detail : Detail)
  /-- An exception that the route does not catch. -/
  | uncaught
deriving DecidableEq

def RouteError.statusCode : RouteError → Nat
  | .http statusCode _ => statusCode
  | .uncaught => 500

/-- The route raises `HTTPException`. -/
def refusal {α : Type} (statusCode : Nat) (message : String) : Except RouteError α :=
  .error (.http statusCode (.text message))

def rateLimited : String := "rate limit exceeded — try again later"

inductive RouteResponse
  | anchored (receipt : AnchorReceipt)
  | countersignedRoot (root : CountersignedRoot)
  | entries (entries : List TransparencyLogEntry)
  | merkleProof (proof : MerkleProof)
  | valid (ok : Bool)
  | sth (sth : SignedTreeHead)
  | inclusionProof (proof : InclusionProof)
  | consistencyProof (proof : ConsistencyProof)
  | authorityPubkey (pubkeyHex keyId : String)
  | publicLog (rows : List PublicLogReceipt)
  | registered (response : RegisterStatementResponse) (checkpointWitness : Option (CheckpointFields × WitnessStatus))
    (subject : Option String)
  | statements (subject : String) (entries : List SubjectStatement)
  | resolved (response : InclusionResolveResponse)
  | stamped (response : CheckpointStampResponse)
  | readBack (logId : String) (last : Nat × CheckpointRecord) (equivocations : List Equivocation)

abbrev RouteAnswer : Type := Except RouteError RouteResponse

inductive HttpRequest
  | anchor (tenantId rootHash : String) (seqFrom seqTo : Int) (capsuleId : Option String)
  | countersignedRoot (tenantId rootHash : String)
  | transparencyLog (afterIndex : Int) (capsuleId : Option String)
  | inclusionProof (leafHashes : List String) (index : Int)
  | verifyInclusion (proof : MerkleProof) (anchoredRootHash : Option String)
  | sth
  | inclusionProofCt (leafIndex : Int) (treeSize : Option Int)
  | consistencyProof (oldSize newSize : Int)
  | authorityPubkey
  | publicLogLatest
  | publicLogEntries (since : Int)
  | registerStatement (signedStatementB64 : String)
  | statements (subject : String)
  /-- `POST /register` and `POST /v1/digest`. -/
  | register (capsuleId : String)
  | inclusion (capsuleId : String)
  /-- The header is empty where it is missing. -/
  | checkpoints (contentType : String) (body : Bytes)
  | checkpointReadback (logId : String)

/-- What an activity reads from `datetime.now` and from `time.monotonic`, reading by reading. -/
structure Clocks where
  now : Nat → Datetime
  monotonic : Nat → ℚ

structure AppConfig extends Config where
  submitters : SubmitterAllowlist
  /-- The backend of the public log, unless there is none. -/
  publicLog : Option String
  authorityPubkey : Bytes

structure App where
  store : MemoryStore := {}
  receipts : PublicLogReceipts := ∅
  postLimiter : SlidingWindowLimiter Unit := SlidingWindowLimiter.fresh 300 60
  submitterLimiters : SubmitterLimiters := fun _ => none

variable (E : Env) (cfg : AppConfig) (texts : Texts) (W : Wire) (base64Error : Base64.Error → String)

namespace App

/-- A method of the service. -/
def call {α : Type} (p : ServiceM α) (a : App) : Except ServiceError α × App :=
  ((p.run MemoryStore.exec a.store).1, { a with store := (p.run MemoryStore.exec a.store).2 })

/-- A method of the service that only reads. -/
def read {α : Type} (p : ServiceM α) (a : App) : Except ServiceError α := (p.run MemoryStore.exec a.store).1

/-- `_POST_LIMITER.is_allowed()`. -/
def postAllowed (now : ℚ) (a : App) : Bool × App :=
  ((a.postLimiter.isAllowed () now).1, { a with postLimiter := (a.postLimiter.isAllowed () now).2 })

/-! ### The operator surface -/

/-- `anchor`. -/
def anchor (clocks : Clocks) (tenantId rootHash : String) (seqFrom seqTo : Int) (capsuleId : Option String) (a : App) :
    RouteAnswer × App :=
  let result := a.call (CapsuleAnchor.anchor E clocks.now tenantId rootHash (seqFrom, seqTo) capsuleId)
  ((result.1.map RouteResponse.anchored).mapError fun _ => .uncaught, result.2)

/-- `countersigned_root`. -/
def countersignedRoot (tenantId rootHash : String) (a : App) : RouteAnswer :=
  match Backend.memory.getRoot tenantId rootHash a.store with
  | none => refusal 404 "no countersigned root"
  | some root => .ok (.countersignedRoot root)

/-- `entries_for_capsule`. -/
def entriesForCapsule (capsuleId : String) (s : MemoryStore) : List TransparencyLogEntry :=
  s.log.filter fun e => s.capsuleIds.lookup e.logIndex = some capsuleId

/-- `transparency_log`. -/
def transparencyLog (afterIndex : Int) (capsuleId : Option String) (a : App) : RouteAnswer :=
  match capsuleId with
  | some capsuleId =>
    .ok (.entries ((entriesForCapsule capsuleId a.store).filter fun e => afterIndex ≤ e.logIndex))
  | none => ((a.read (CapsuleAnchor.transparencyLog afterIndex)).map RouteResponse.entries).mapError fun _ => .uncaught

/-- `inclusion_proof`. -/
def inclusionProof (leafHashes : List String) (index : Int) : RouteAnswer :=
  match CapsuleAnchor.inclusionProof E leafHashes index with
  | .ok proof => .ok (.merkleProof proof)
  | .error (.indexError message) => refusal 400 message
  | .error _ => .error .uncaught

/-- `verify_inclusion`; the body holds a proof of the tenant ledger. -/
def verifyInclusion (proof : MerkleProof) (anchoredRootHash : Option String) : RouteAnswer :=
  .ok (.valid (verifyInclusionLedger E proof anchoredRootHash))

/-- `sth`. -/
def sth (clocks : Clocks) (a : App) : RouteAnswer × App :=
  let result := a.call (getSth E clocks.now)
  match result.1 with
  | .error _ => (.error .uncaught, result.2)
  | .ok s => (if s.treeSize = 0 then refusal 503 "log is empty; no STH available yet" else .ok (.sth s), result.2)

/-- `inclusion_proof_ct`. -/
def inclusionProofCt (leafIndex : Int) (treeSize : Option Int) (a : App) : RouteAnswer :=
  if leafIndex < 0 then refusal 400 "leaf_index must be >= 0"
  else if ∃ size ∈ treeSize, size ≤ 0 then refusal 400 "tree_size must be > 0"
  else match a.read (CapsuleAnchor.inclusionProofCt E leafIndex treeSize) with
    | .ok proof => .ok (.inclusionProof proof)
    | .error (.indexError message) => refusal 404 message
    | .error _ => .error .uncaught

/-- `consistency_proof`. -/
def consistencyProof (oldSize newSize : Int) (a : App) : RouteAnswer :=
  if oldSize < 0 ∨ newSize < 0 then refusal 400 "sizes must be >= 0"
  else if newSize < oldSize then refusal 400 "old_size must be <= new_size"
  else match a.read (CapsuleAnchor.consistencyProof E oldSize newSize) with
    | .ok proof => .ok (.consistencyProof proof)
    | .error (.valueError message) => refusal 400 message
    | .error _ => .error .uncaught

/-- `authority_pubkey`. -/
def authorityPubkey : RouteAnswer := .ok (.authorityPubkey (bytesHex cfg.authorityPubkey) E.keyId)

/-- `public_log_latest`. -/
def publicLogLatest (a : App) : RouteAnswer :=
  match cfg.publicLog with
  | none => refusal 404 "public log rail is not enabled"
  | some backend =>
    match Backend.memory.getLatestPublicLogReceipt a.receipts backend with
    | none => refusal 404 "no public-log entry published yet"
    | some latest => .ok (.publicLog [latest])

/-- `public_log_entries`. -/
def publicLogEntries (since : Int) (a : App) : RouteAnswer :=
  match cfg.publicLog with
  | none => .ok (.publicLog [])
  | some backend => .ok (.publicLog (Backend.getPublicLogReceiptsSince a.receipts backend since))

/-! ### The transparency service -/

/-- How `register_statement` answers an exception of the service. -/
def statementFailure : ServiceError → RouteError
  | .checkpointPayloadError message => .http 400 (.text message)
  | .consistencyProofRequiredError message mmrSize root =>
    .http 409 (.mismatch message (some "consistency_proof_required") mmrSize root)
  | .continuityMismatchError message _ _ => .http 409 (.text message)
  | .rollbackError message => .http 409 (.text message)
  | _ => .uncaught

/-- `register_statement`. -/
def registerStatement (clocks : Clocks) (signedStatementB64 : String) (a : App) : RouteAnswer × App :=
  let allowed := a.postAllowed (clocks.monotonic 0)
  if allowed.1 = false then (refusal 429 rateLimited, allowed.2)
  else match Base64.decode true signedStatementB64 with
    | .error e => (refusal 400 ("signed_statement_b64 is not valid base64: " ++ base64Error e), allowed.2)
    | .ok statementBytes =>
      if statementBytes = [] then (refusal 400 "empty signed statement", allowed.2)
      else if maxStatementBytes < statementBytes.length then
        (refusal 413 ("statement too large (" ++ toString statementBytes.length ++ " bytes; max " ++
          toString maxStatementBytes ++ ")"), allowed.2)
      else
        let result := allowed.2.call (registerSignedStatementFull E cfg.toConfig clocks.now statementBytes none none)
        match result.1 with
        | .error e => (.error (statementFailure e), result.2)
        | .ok r => (.ok (.registered { receipt := r.receipt, entryHash := r.entryHash, entryHashScheme := r.entryHashScheme
                                       leafIndex := r.leafIndex, treeSize := r.treeSize }
            r.checkpointWitness r.subject), result.2)

/-- `statements_by_subject`. -/
def statementsBySubject (subject : String) (a : App) : RouteAnswer :=
  .ok (.statements subject (Backend.memory.getStatementsBySubject E subject a.store))

/-! ### Digests -/

/-- `digest` and `register`. -/
def registerDigest (clocks : Clocks) (capsuleId : String) (a : App) : RouteAnswer × App :=
  let allowed := a.postAllowed (clocks.monotonic 0)
  let result := allowed.2.call (CapsuleAnchor.registerDigest E cfg.toConfig clocks.now allowed.1 capsuleId)
  match result.1 with
  | .error _ => (.error .uncaught, result.2)
  | .ok (.error e) => (refusal e.statusCode e.detail, result.2)
  | .ok (.ok response) => (.ok (.registered response none none), result.2)

/-- `inclusion`. -/
def inclusion (capsuleId : String) (a : App) : RouteAnswer :=
  match a.read (CapsuleAnchor.inclusion E capsuleId) with
  | .error _ => .error .uncaught
  | .ok (.error e) => refusal e.statusCode e.detail
  | .ok (.ok response) => .ok (.resolved response)

/-! ### Checkpoints -/

/-- `content_type.split(";", 1)[0].strip().lower()`. -/
def mediaType (contentType : String) : String :=
  (String.ofList ((((contentType.toList.takeWhile (· ≠ ';')).dropWhile isSpace).reverse.dropWhile isSpace).reverse)).toLower

def cllCheckpointJsonContentType : String := "application/cll-checkpoint+json"

/-- The parser of the form that the header names. -/
def parseCheckpoint (contentType : String) (body : Bytes) : Except WireError Checkpoint :=
  if mediaType contentType = cllCheckpointJsonContentType then parseAndVerifyCheckpointJson E texts W body cfg.submitters
  else parseAndVerifyCheckpointCose E texts W body (some cfg.submitters)

/-- How the route answers what a parser raises. -/
def wireFailure : WireError → RouteError
  | .notACheckpointError message => .http 400 (.text message)
  | .checkpointSignatureError message => .http 401 (.text message)
  | .uncaught => .uncaught

/-- The enrolled submitter whose budget a checkpoint counts against. -/
def submitterOf (cp : Checkpoint) : Option SubmitterEntry :=
  if cp.grade = none then none else cfg.submitters.get cp.logId

/-- The budget of an enrolled submitter. -/
def submitterAllowed (now : ℚ) (cp : Checkpoint) (a : App) : Except RouteError Unit × App :=
  match submitterOf cfg cp with
  | none => (.ok (), a)
  | some entry =>
    let result := submitterRateLimitOk a.submitterLimiters entry.logId entry.rateLimitPerMin now
    (if result.1 then .ok () else refusal 429 ("rate limit exceeded for submitter " ++ E.repr entry.logId ++ " — try again later"),
      { a with submitterLimiters := result.2 })

/-- How the route answers an exception of `witness_checkpoint`. -/
def stampFailure : ServiceError → RouteError
  | .continuityMismatchError message mmrSize root => .http 409 (.mismatch message none mmrSize root)
  | .consistencyProofRequiredError message mmrSize root =>
    .http 409 (.mismatch message (some "consistency_proof_required") mmrSize root)
  | _ => .uncaught

/-- The stamp, with the first receipt of the public log that covers it. -/
def withPublicLog (response : CheckpointStampResponse) (a : App) : CheckpointStampResponse :=
  match cfg.publicLog.bind fun backend =>
      Backend.memory.getPublicLogReceiptCovering a.receipts backend response.treeSize with
  | none => response
  | some covering => response.cover covering

/-- `_witness_checkpoint_cp`. -/
def witnessCheckpointCp (clocks : Clocks) (cp : Checkpoint) (a : App) : RouteAnswer × App :=
  let allowed := a.submitterAllowed E cfg (clocks.monotonic 1) cp
  match allowed.1 with
  | .error e => (.error e, allowed.2)
  | .ok () =>
    let result := allowed.2.call (witnessCheckpoint E cfg.toConfig clocks.now cp)
    match result.1 with
    | .error e => (.error (stampFailure e), result.2)
    | .ok r => (.ok (.stamped (withPublicLog cfg (stampResponse cp r) result.2)), result.2)

/-- `checkpoints`. -/
def checkpoints (clocks : Clocks) (contentType : String) (body : Bytes) (a : App) : RouteAnswer × App :=
  if body = [] then (refusal 400 "empty checkpoint submission", a)
  else if maxStatementBytes < body.length then
    (refusal 413 ("checkpoint too large (" ++ toString body.length ++ " bytes; max " ++ toString maxStatementBytes ++ ")"), a)
  else
    let allowed := a.postAllowed (clocks.monotonic 0)
    if allowed.1 = false then (refusal 429 rateLimited, allowed.2)
    else match parseCheckpoint E cfg texts W contentType body with
      | .error e => (.error (wireFailure e), allowed.2)
      | .ok cp => allowed.2.witnessCheckpointCp E cfg clocks cp

/-- `checkpoint_readback`. -/
def checkpointReadback (logId : String) (a : App) : RouteAnswer :=
  match Backend.memory.getCheckpointReadback logId a.store with
  | none => refusal 404 ("log_id " ++ E.repr logId ++ " has never been witnessed by POST /checkpoints")
  | some (last, equivocations) => .ok (.readBack logId last equivocations)

/-! ### Activities -/

/-- The app answers one request. -/
def serve (clocks : Clocks) (request : HttpRequest) (a : App) : RouteAnswer × App :=
  match request with
  | .anchor tenantId rootHash seqFrom seqTo capsuleId => a.anchor E clocks tenantId rootHash seqFrom seqTo capsuleId
  | .countersignedRoot tenantId rootHash => (a.countersignedRoot tenantId rootHash, a)
  | .transparencyLog afterIndex capsuleId => (a.transparencyLog afterIndex capsuleId, a)
  | .inclusionProof leafHashes index => (inclusionProof E leafHashes index, a)
  | .verifyInclusion proof anchoredRootHash => (verifyInclusion E proof anchoredRootHash, a)
  | .sth => a.sth E clocks
  | .inclusionProofCt leafIndex treeSize => (a.inclusionProofCt E leafIndex treeSize, a)
  | .consistencyProof oldSize newSize => (a.consistencyProof E oldSize newSize, a)
  | .authorityPubkey => (authorityPubkey E cfg, a)
  | .publicLogLatest => (a.publicLogLatest cfg, a)
  | .publicLogEntries since => (a.publicLogEntries cfg since, a)
  | .registerStatement signedStatementB64 => a.registerStatement E cfg base64Error clocks signedStatementB64
  | .statements subject => (a.statementsBySubject E subject, a)
  | .register capsuleId => a.registerDigest E cfg clocks capsuleId
  | .inclusion capsuleId => (a.inclusion E capsuleId, a)
  | .checkpoints contentType body => a.checkpoints E cfg texts W clocks contentType body
  | .checkpointReadback logId => (a.checkpointReadback E logId, a)

end App

/-- A request, or one turn of a thread that refreshes the head, prunes the receipts or publishes the head. -/
inductive Activity
  | http (request : HttpRequest)
  | refreshSth
  | prune (seconds : Option Nat)
  | publish (backend : String) (answer : Option PublicLogResponse) (submittedAt : String)

/-- One activity; a background thread answers nobody. -/
def App.act (a : App) (r : Clocks × Activity) : Option RouteAnswer × App :=
  match r.2 with
  | .http request =>
    let result := a.serve E cfg texts W base64Error r.1 request
    (some result.1, result.2)
  | .refreshSth => (none, { a with store := (step E cfg.toConfig a.store (r.1.now, .refreshSth)).2 })
  | .prune seconds => (none, { a with store := (step E cfg.toConfig a.store (r.1.now, .prune seconds)).2 })
  | .publish backend answer submittedAt =>
    let node := (Backend.memory.operate E cfg.toConfig (a.store, a.receipts) (r.1.now, .publish backend answer submittedAt)).2
    (none, { a with store := node.1, receipts := node.2 })

end CapsuleAnchor
