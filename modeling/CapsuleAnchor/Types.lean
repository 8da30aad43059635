import CapsuleAnchor.Canonical

/-!
# The data of the service

The records of `contracts/types.py` and `anchoring/service.py`, the decoded forms of CBOR and JSON input, the errors
the service raises, and `Env`: the code outside the repository that the service calls (SHA-256, Ed25519, `cbor2`,
`json.loads`, the MMR check of `cll`).  A hash that the source keeps as 64 hex digits is a `Digest`; an enumeration of
string constants is an inductive type.
-/

namespace CapsuleAnchor

/-! ### Time -/

/-- An aware `datetime`: microseconds since the epoch and the offset from UTC in minutes. -/
structure Datetime where
  epochUs : Int
  utcoffset : Int := 0
deriving DecidableEq

instance : LT Datetime := ⟨fun a b => a.epochUs < b.epochUs⟩
instance : LE Datetime := ⟨fun a b => a.epochUs ≤ b.epochUs⟩
instance (a b : Datetime) : Decidable (a < b) := inferInstanceAs (Decidable (a.epochUs < b.epochUs))
instance (a b : Datetime) : Decidable (a ≤ b) := inferInstanceAs (Decidable (a.epochUs ≤ b.epochUs))

/-- `n` in decimal, padded with zeros to `width`. -/
private def padded (width n : Nat) : String :=
  String.ofList (List.replicate (width - (toString n).length) '0') ++ toString n

/-- Year, month and day of a day number counted from 1970-01-01. -/
private def civilFromDays (days : Int) : Int × Nat × Nat :=
  let z := days + 719468
  let era := z / 146097
  let doe := (z % 146097).toNat
  let yoe := (doe - doe / 1460 + doe / 36524 - doe / 146096) / 365
  let doy := doe - (365 * yoe + yoe / 4 - yoe / 100)
  let mp := (5 * doy + 2) / 153
  let month := if mp < 10 then mp + 3 else mp - 9
  (yoe + era * 400 + (if month ≤ 2 then 1 else 0), month, doy - (153 * mp + 2) / 5 + 1)

/-- `datetime.isoformat()`: the fraction is left out when it is zero. -/
def Datetime.isoformat (t : Datetime) : String :=
  let local_ := t.epochUs + t.utcoffset * 60000000
  let (y, m, d) := civilFromDays (local_ / 86400000000)
  let us := (local_ % 86400000000).toNat
  let fraction := if us % 1000000 = 0 then "" else "." ++ padded 6 (us % 1000000)
  let offset := t.utcoffset.natAbs
  padded 4 y.toNat ++ "-" ++ padded 2 m ++ "-" ++ padded 2 d ++ "T" ++ padded 2 (us / 3600000000) ++ ":" ++
    padded 2 (us / 60000000 % 60) ++ ":" ++ padded 2 (us / 1000000 % 60) ++ fraction ++
    (if t.utcoffset < 0 then "-" else "+") ++ padded 2 (offset / 60) ++ ":" ++ padded 2 (offset % 60)

/-- `int(t.timestamp())`. -/
def Datetime.timestamp (t : Datetime) : Int := t.epochUs.tdiv 1000000

/-! ### Decoded input -/

/-- What `cbor2.loads` returns; `other` stands for floats, undefined, dates and the like.  The keys of a map are
distinct, and listed as `dict.get` compares them: a key equal to an integer (`1.0`, `True`) is that integer. -/
inductive Cbor
  | int (i : Int)
  | bytes (b : Bytes)
  | text (s : String)
  | array (xs : List Cbor)
  | map (kvs : List (Cbor × Cbor))
  | tag (n : Nat) (v : Cbor)
  | bool (b : Bool)
  | null
  | other

/-- `dict.get` of a decoded map, for an integer key. -/
def Cbor.get (kvs : List (Cbor × Cbor)) (key : Int) : Option Cbor :=
  kvs.findSome? fun
    | (.int i, v) => if i = key then some v else none
    | _ => none

/-- What `json.loads` returns. -/
inductive Json
  | null
  | bool (b : Bool)
  | int (i : Int)
  | float
  | str (s : String)
  | arr (xs : List Json)
  | obj (kvs : List (String × Json))

/-- `dict.get` of a decoded object. -/
def Json.get (kvs : List (String × Json)) (key : String) : Option Json :=
  kvs.findSome? fun (k, v) => if k = key then some v else none

/-- How `json.loads(payload.decode("utf-8"))` fails. -/
inductive JsonError
  | unicodeDecodeError
  | jsonDecodeError
  /-- A plain `ValueError`: an integer with more digits than the interpreter's limit. -/
  | valueError (message : String)
  | recursionError

/-! ### Checkpoints -/

/-- `cll.checkpoint.core.ConsistencyProof`. -/
structure MmrConsistencyProof where
  sizeA : Nat
  sizeB : Nat
  oldPeaks : List Digest
  witness : List (List Digest)
  newPeaks : List Digest
deriving DecidableEq

/-- The dict that `parse_and_verify_checkpoint_cose` and `parse_and_verify_checkpoint_json` return.  `prevRoot` is
`none` for the empty string.  The key `consistency_proof` is missing (`none`) for the JSON wire form. -/
structure Checkpoint where
  v : Int
  kind : String
  logId : String
  mmrSize : Nat
  root : Digest
  prevSize : Nat
  prevRoot : Option Digest
  keyId : String
  timestamp : String
  grade : Option String
  consistencyProof : Option (Option MmrConsistencyProof)
  /-- What both parsers check. -/
  prevSize_lt : prevSize < mmrSize
deriving DecidableEq

/-- The fields of a statement payload that declares `artifact_type: mmr-checkpoint`. -/
structure CheckpointFields where
  logId : String
  keyId : String
  mmrRoot : Digest
  mmrSize : Nat
  prevSize : Nat
  timestamp : String
deriving DecidableEq

inductive ContinuityGrade
  | firstSeen
  | registered
  | witnessed
deriving DecidableEq

/-- What `_check_checkpoint_consistency` returns, or the status of a resubmission. -/
inductive WitnessStatus
  | firstSeen
  | witnessed
  | alreadyRegistered
deriving DecidableEq

inductive ConsistencyProofPolicy
  | off
  | warn
  | enforce
deriving DecidableEq

/-! ### Signatures, log entries, receipts -/

structure Signature where
  signature : Bytes
  keyId : String
  alg : String := "ed25519"
  createdAt : Datetime
deriving DecidableEq

structure TransparencyLogEntry where
  logIndex : Int
  loggedAt : Datetime
  kind : String
  payloadHash : Digest
  logSignature : Signature
  prevLogHash : Option String
deriving DecidableEq

structure CountersignedRoot where
  tenantId : String
  rootHash : String
  seqRange : Int × Int
  attestedAt : Datetime
  countersignature : Signature
deriving DecidableEq

structure AnchorReceipt where
  rootHash : String
  tenantId : String
  anchoredAt : Datetime
  location : String
  logIndex : Int
  countersignature : Signature
  payloadHash : Digest
  prevLogHash : Option String
  seqRange : Int × Int
  tsaSignature : Option Bytes

structure SignedTreeHead where
  treeSize : Nat
  rootHash : Digest
  timestamp : Datetime
  signature : Signature
deriving DecidableEq

structure InclusionProof where
  leafIndex : Int
  treeSize : Int
  leafHash : Digest
  auditPath : List Digest
  rootHash : Digest
deriving DecidableEq

structure ConsistencyProof where
  firstSize : Int
  secondSize : Int
  firstRoot : Digest
  secondRoot : Digest
  proof : List Digest
deriving DecidableEq

/-- The witness's signed continuity assertion. -/
structure ContinuityAssertion where
  policyId : String
  logId : String
  prevSize : Nat
  prevRoot : Option Digest
  mmrSize : Nat
  root : Digest
  checked : List String
  witnessKeyId : String
  ts : String
deriving DecidableEq

/-- A COSE Receipt before serialisation (`CoseReceipt.toBytes`); its payload, the root, is detached. -/
structure CoseReceipt where
  treeSize : Nat
  leafIndex : Int
  auditPath : List Digest
  iat : Option Int
  grade : Option String
  continuity : Option ContinuityAssertion
  signature : Bytes
deriving DecidableEq

inductive EntryHashScheme
  | sigStructure
  | legacy
deriving DecidableEq

structure StatementRegistration where
  receipt : CoseReceipt
  entryHash : Digest
  leafIndex : Int
  treeSize : Nat
  entryHashScheme : EntryHashScheme
  checkpointWitness : Option (CheckpointFields × WitnessStatus)
  subject : Option String
  continuityGrade : Option ContinuityGrade
deriving DecidableEq

/-! ### Errors -/

inductive ServiceError
  | valueError (message : String)
  | indexError (message : String)
  | recursionError
  | checkpointPayloadError (message : String)
  | rollbackError (message : String)
  | continuityMismatchError (message : String) (lastAcceptedMmrSize : Nat) (lastAcceptedRoot : Digest)
  | consistencyProofRequiredError (message : String) (lastAcceptedMmrSize : Nat) (lastAcceptedRoot : Digest)
  /-- The database refuses a second row with the same primary key. -/
  | integrityError
deriving DecidableEq

/-! ### The code outside the repository -/

/-- What the service calls, and the authority key it signs with. -/
structure Env where
  sha256 : Bytes → Digest
  /-- Ed25519 under the authority key. -/
  sign : Bytes → Bytes
  verify : Bytes → Signature → Bool
  keyId : String
  /-- `cbor2.loads`; `none` when it raises. -/
  cborLoads : Bytes → Option Cbor
  cborDumps : Cbor → Bytes
  /-- `json.loads(payload.decode("utf-8"))`. -/
  jsonLoads : Bytes → Except JsonError Json
  /-- `bytes.decode("utf-8", errors="replace")`. -/
  decodeReplace : Bytes → String
  /-- `repr` of a string. -/
  repr : String → String
  /-- `cll.checkpoint.core.verify_consistency`. -/
  verifyConsistency : Digest → Nat → Digest → Nat → MmrConsistencyProof → Bool
  /-- `timestamp_root_hash`; `none` when the TSA is disabled or fails. -/
  tsaTimestamp : String → Option Bytes
  /-- `int(timestamp.timestamp() * 1_000_000)`, in floating point. -/
  tsEpochUs : Datetime → Int

/-- The operator's registration policy for embedded payloads. -/
structure EmbeddedPayloadPolicy where
  storeEmbedded : Bool := false
  maxBytes : Nat := 1024

/-- The constructor arguments of `AnchorerService` that a run depends on. -/
structure Config where
  consistencyProofPolicy : ConsistencyProofPolicy := .warn
  payloadPolicy : EmbeddedPayloadPolicy := {}

end CapsuleAnchor
