import CapsuleAnchor.Reference
import CapsuleAnchor.Submitters

/-!
# The two wire forms of a checkpoint (`anchoring/checkpoint_cose.py`, `anchoring/checkpoint_json.py`)

A checkpoint arrives as a COSE_Sign1 statement or, from a submitter that declares it, as JSON with a bare signature.
Both parsers pick the key to verify under from a field that no signature covers yet.  `Wire` has what they call outside
the repository.

`pinned_key_enforced`: what either parser returns for an enrolled `log_id` is signed by the key of its entry, and what
the COSE parser returns for any other is signed by the `kid` that it names.
-/

namespace CapsuleAnchor

/-- What `scitt_cose.statement.parse_signed_statement` returns. -/
structure ParsedStatement where
  signatureVerified : Bool
  issuer : Option String
  subject : Option String
  payload : Option Bytes

/-- The packages that the parsers call. -/
structure Wire where
  /-- `strict_decode(data).value`, or the text of the `CoseError`. -/
  strictDecode : Bytes → Except String Cbor
  /-- `parse_signed_statement` under a key; `none` when it raises. -/
  parseSignedStatement : Bytes → Bytes → Option ParsedStatement
  /-- The text of the exception for 32 bytes that are no Ed25519 public key. -/
  keyError : Bytes → Option String
  /-- `Ed25519PublicKey.verify`: the key, the signature, the message. -/
  ed25519Verify : Bytes → Bytes → Bytes → Bool
  /-- `json.loads` of bytes. -/
  jsonLoads : Bytes → Except JsonError Json
  /-- Whether `Cbor.other` is true. -/
  otherTruthy : Bool

/-- How a parser fails. -/
inductive WireError
  | notACheckpointError (message : String)
  | checkpointSignatureError (message : String)
  /-- Any exception that the parser does not catch. -/
  | uncaught
deriving DecidableEq

variable (E : Env) (texts : Texts) (W : Wire)

/-! ### Python values -/

/-- `dict.get` of a decoded map, for a text key. -/
def Cbor.getText (kvs : List (Cbor × Cbor)) (key : String) : Option Cbor :=
  kvs.findSome? fun
    | (.text k, v) => if k = key then some v else none
    | _ => none

/-- `bool(x)`. -/
def truthy : Cbor → Bool
  | .int i => i ≠ 0
  | .bytes b => b ≠ []
  | .text s => s ≠ ""
  | .array xs => xs.length ≠ 0
  | .map kvs => kvs.length ≠ 0
  | .tag _ _ => true
  | .bool b => b
  | .null => false
  | .other => W.otherTruthy

private def byteOf : Cbor → Option UInt8
  | .int i => if 0 ≤ i ∧ i < 256 then some (UInt8.ofNat i.toNat) else none
  | .bool b => some (if b then 1 else 0)
  | _ => none

/-- `bytes(x)`; `none` when it raises. -/
def pyBytes : Cbor → Option Bytes
  | .bytes b => some b
  | .int i => if i < 0 then none else some (List.replicate i.toNat 0)
  | .bool b => some (if b then [0] else [])
  | .array xs => xs.mapM byteOf
  | .map kvs => kvs.mapM fun kv => byteOf kv.1
  | _ => none

/-- `str` of an integer; the interpreter refuses to write more than 4300 digits. -/
def decimal (n : Nat) : Except WireError String :=
  if (toString n).length ≤ 4300 then .ok (toString n) else .error .uncaught

private def refuse {α : Type} (message : String) : Except WireError α := .error (.notACheckpointError message)

/-! ### The COSE wire -/

def cllCheckpointContentType : String := "application/cll-checkpoint+cbor"

def wireKind : String := "cll-checkpoint"

/-- The CWT `iss` claim of a decoded protected header. -/
def peekUnauthenticatedIssuer (header : List (Cbor × Cbor)) : Option String :=
  match Cbor.get header 15 with
  | some (.map claims) =>
    match Cbor.get claims 1 with
    | some (.bytes iss) => some (E.decodeReplace iss)
    | some (.text iss) => some iss
    | _ => none
  | _ => none

structure ProtectedFields where
  kid : Option Bytes
  contentType : Option Cbor
  issuer : Option String

/-- `cbor2.loads(bytes(x)) if x else {}`, as a map: `{}` for what is not one. -/
private def protectedOf (protectedBstr : Cbor) : Except WireError (List (Cbor × Cbor)) :=
  if truthy W protectedBstr then
    match pyBytes protectedBstr with
    | none => .error .uncaught
    | some bytes =>
      match E.cborLoads bytes with
      | none => .error .uncaught
      | some (.map header) => .ok header
      | some _ => .ok []
  else .ok []

def extractProtectedFields (body : Bytes) : Except WireError ProtectedFields :=
  match W.strictDecode body with
  | .error message => refuse ("malformed COSE_Sign1 message: " ++ message)
  | .ok (.array [protectedBstr, _, _, _]) => do
    let header ← protectedOf E W protectedBstr
    return {
      kid := match Cbor.get header 4 with
        | some (.bytes kid) => some kid
        | _ => none
      contentType := match Cbor.get header 3 with
        | some (.bytes contentType) => some (.text (E.decodeReplace contentType))
        | other => other
      issuer := peekUnauthenticatedIssuer E header }
  | .ok _ => refuse "not a COSE_Sign1 message"

/-- `bytes(32)`. -/
def zeroDigest : Digest := filledDigest 0

/-- The peaks folded from the right. -/
def rootFromPeaks (peaks : List Digest) : Digest :=
  match peaks.reverse with
  | [] => zeroDigest
  | last :: rest => rest.foldl (fun right left => E.sha256 (right.bytes ++ left.bytes)) last

/-- A byte string of 32 bytes. -/
private def hashOf : Cbor → Option Digest
  | .bytes b => if h : b.length = 32 then some ⟨b, h⟩ else none
  | _ => none

def decodeCommitment (raw : Bytes) (what : String) : Except WireError (List Digest) :=
  match E.cborLoads raw with
  | none => refuse (what ++ " is not valid CBOR: " ++ texts.cborError (some raw))
  | some (.array xs) =>
    match xs.mapM hashOf with
    | some peaks => .ok peaks
    | none => refuse (what ++ " is not a CBOR array of 32-byte peak hashes")
  | some _ => refuse (what ++ " is not a CBOR array of 32-byte peak hashes")

private def proofField (raw : List (Cbor × Cbor)) (key : String) : Except WireError Cbor :=
  match Cbor.getText raw key with
  | some value => .ok value
  | none => refuse ("consistency_proof claim missing field: '" ++ key ++ "'")

private def sizeOf (value : Cbor) (what : String) : Except WireError Nat :=
  match value with
  | .int i => if i < 0 then refuse (what ++ " must be a non-negative integer") else .ok i.toNat
  | _ => refuse (what ++ " must be a non-negative integer")

private def hashesOf (value : Cbor) (message : String) : Except WireError (List Digest) :=
  match value with
  | .array xs =>
    match xs.mapM hashOf with
    | some hashes => .ok hashes
    | none => refuse message
  | _ => refuse message

def decodeConsistencyProof : Cbor → Except WireError MmrConsistencyProof
  | .map raw => do
    let sizeA ← proofField raw "size_a"
    let sizeB ← proofField raw "size_b"
    let oldPeaks ← proofField raw "old_peaks"
    let witness ← proofField raw "witness"
    let newPeaks ← proofField raw "new_peaks"
    let sizeA ← sizeOf sizeA "consistency_proof.size_a"
    let sizeB ← sizeOf sizeB "consistency_proof.size_b"
    let oldPeaks ← hashesOf oldPeaks "consistency_proof.old_peaks must be an array of 32-byte hashes"
    let newPeaks ← hashesOf newPeaks "consistency_proof.new_peaks must be an array of 32-byte hashes"
    let message := "consistency_proof.witness must be an array of arrays of 32-byte hashes"
    match witness with
    | .array rows =>
      let witness ← rows.mapM fun row => hashesOf row message
      return { sizeA, sizeB, oldPeaks, witness, newPeaks }
    | _ => refuse message
  | _ => refuse "consistency_proof claim is not a CBOR map"

/-! The steps of `parse_and_verify_checkpoint_cose` after the signature check. -/

private def issuerOf (entry : Option SubmitterEntry) (parsed : ParsedStatement) : Except WireError String :=
  match parsed.issuer with
  | none => refuse "statement carries no CWT issuer (log identity)"
  | some issuer =>
    if issuer = "" then refuse "statement carries no CWT issuer (log identity)"
    else match entry with
      | none => .ok issuer
      | some entry =>
        if issuer = entry.logId then .ok issuer
        else refuse ("authenticated issuer " ++ E.repr issuer ++ " does not match resolved submitter " ++
          E.repr entry.logId)

private def claimsOf (parsed : ParsedStatement) : Except WireError (List (Cbor × Cbor)) :=
  match parsed.payload.bind E.cborLoads with
  | none => refuse ("payload is not valid CBOR: " ++ texts.cborError parsed.payload)
  | some (.map claims) =>
    match Cbor.getText claims "kind" with
    | some (.text kind) =>
      if kind = wireKind then .ok claims
      else refuse ("claims 'kind' is " ++ E.repr kind ++ ", expected " ++ E.repr wireKind)
    | other => refuse ("claims 'kind' is " ++ texts.reprCbor (other.getD .null) ++ ", expected " ++ E.repr wireKind)
  | some _ => refuse "claims payload is not a map"

/-- A claim that must be an integer of at least `low`. -/
private def sizeClaim (claims : List (Cbor × Cbor)) (key : String) (low : Nat) (message : String) : Except WireError Nat :=
  match Cbor.getText claims key with
  | some (.int i) => if i < low then refuse message else .ok i.toNat
  | _ => refuse message

/-- `log_size` and `prev_size`. -/
private def sizesOf (claims : List (Cbor × Cbor)) : Except WireError { s : Nat × Nat // s.2 < s.1 } := do
  let mmrSize ← sizeClaim claims "log_size" 1 "log_size must be a positive integer"
  let prevSize ← sizeClaim claims "prev_size" 0 "prev_size must be a non-negative integer"
  if h : prevSize < mmrSize then return ⟨(mmrSize, prevSize), h⟩
  else
    refuse ("prev_size (" ++ (← decimal prevSize) ++ ") must be strictly less than log_size (" ++
      (← decimal mmrSize) ++ ")")

private def rootOf (claims : List (Cbor × Cbor)) : Except WireError Digest :=
  match Cbor.getText claims "commitment" with
  | some (.bytes raw) => (decodeCommitment E texts raw "commitment").map (rootFromPeaks E)
  | _ => refuse "commitment must be a CBOR byte string"

private def prevRootOf (claims : List (Cbor × Cbor)) : Except WireError (Option Digest) :=
  let raw := (Cbor.getText claims "prev_commitment").getD (.bytes [])
  if truthy W raw then
    match raw with
    | .bytes raw => (decodeCommitment E texts raw "prev_commitment").map fun peaks => some (rootFromPeaks E peaks)
    | _ => refuse "prev_commitment must be a CBOR byte string or empty"
  else .ok none

private def issuedAtOf (claims : List (Cbor × Cbor)) : Except WireError String :=
  match Cbor.getText claims "issued_at" with
  | some (.text issuedAt) => .ok issuedAt
  | _ => refuse "issued_at must be a string (ISO 8601)"

private def consistencyProofOf (claims : List (Cbor × Cbor)) (mmrSize prevSize : Nat) :
    Except WireError (Option MmrConsistencyProof) :=
  match Cbor.getText claims "consistency_proof" with
  | none => .ok none
  | some .null => .ok none
  | some raw => do
    let proof ← decodeConsistencyProof raw
    if proof.sizeA = prevSize ∧ proof.sizeB = mmrSize then return some proof
    else
      refuse ("consistency_proof does not span this checkpoint's own prev_size=" ++ (← decimal prevSize) ++
        "/log_size=" ++ (← decimal mmrSize) ++ " (claims size_a=" ++ (← decimal proof.sizeA) ++ ", size_b=" ++
        (← decimal proof.sizeB) ++ ")")

private def checkSubject (issuer : String) (mmrSize : Nat) (parsed : ParsedStatement) : Except WireError Unit := do
  let expected := issuer ++ "#" ++ (← decimal mmrSize)
  if parsed.subject = some expected then return ()
  else
    refuse ("CWT subject " ++ (parsed.subject.map E.repr).getD "None" ++ " does not match expected " ++ E.repr expected)

/-- The checkpoint that a verified statement carries. -/
def checkpointOf (entry : Option SubmitterEntry) (kid : Bytes) (parsed : ParsedStatement) :
    Except WireError Checkpoint := do
  let issuer ← issuerOf E entry parsed
  let claims ← claimsOf E texts parsed
  let ⟨(mmrSize, prevSize), prevSize_lt⟩ ← sizesOf claims
  let root ← rootOf E texts claims
  let prevRoot ← prevRootOf E texts W claims
  let issuedAt ← issuedAtOf claims
  let consistencyProof ← consistencyProofOf claims mmrSize prevSize
  checkSubject E issuer mmrSize parsed
  return {
    v := 1, kind := "mmr_checkpoint", logId := issuer, mmrSize, root, prevSize, prevRoot
    keyId := match entry with
      | some entry => bytesHex entry.pubkey
      | none => bytesHex kid
    timestamp := issuedAt
    grade := entry.map (·.grade)
    consistencyProof := some consistencyProof
    prevSize_lt }

/-- `allowlist.get(unauth_iss) if allowlist is not None and unauth_iss else None`. -/
def resolveEntry (allowlist : Option SubmitterAllowlist) (issuer : Option String) : Option SubmitterEntry :=
  match allowlist, issuer with
  | some allowlist, some issuer => if issuer = "" then none else allowlist.get issuer
  | _, _ => none

private def checkContentType (fields : ProtectedFields) : Except WireError Unit :=
  match fields.contentType with
  | some (.text contentType) =>
    if contentType = cllCheckpointContentType then .ok ()
    else refuse ("content_type is " ++ E.repr contentType ++ ", expected " ++ E.repr cllCheckpointContentType ++
      " -- not a CLL checkpoint statement")
  | other =>
    refuse ("content_type is " ++ texts.reprCbor (other.getD .null) ++ ", expected " ++ E.repr cllCheckpointContentType ++
      " -- not a CLL checkpoint statement")

private def kidOf (fields : ProtectedFields) : Except WireError Bytes :=
  match fields.kid with
  | some kid =>
    if kid.length = 32 then .ok kid
    else refuse "COSE checkpoint statement carries no 32-byte kid (label 4) -- cannot verify"
  | none => refuse "COSE checkpoint statement carries no 32-byte kid (label 4) -- cannot verify"

/-- The statement, once its signature verifies under the pinned key of the entry or else under its own `kid`. -/
private def verifiedStatement (body : Bytes) (entry : Option SubmitterEntry) (kid : Bytes) :
    Except WireError ParsedStatement :=
  let verifyKey := (entry.map (·.pubkey)).getD kid
  match W.keyError verifyKey with
  | some message => refuse ("kid is not a valid Ed25519 public key: " ++ message)
  | none =>
    match W.parseSignedStatement body verifyKey with
    | none => .error .uncaught
    | some parsed =>
      if parsed.signatureVerified then .ok parsed
      else .error (.checkpointSignatureError (if entry.isSome
        then "COSE checkpoint signature does not verify under its pinned enrolled key"
        else "COSE checkpoint signature does not verify under its own kid"))

def parseAndVerifyCheckpointCose (body : Bytes) (allowlist : Option SubmitterAllowlist) :
    Except WireError Checkpoint := do
  let fields ← extractProtectedFields E W body
  checkContentType E texts fields
  let kid ← kidOf fields
  let entry := resolveEntry allowlist fields.issuer
  let parsed ← verifiedStatement W body entry kid
  checkpointOf E texts W entry kid parsed

/-! ### The JSON wire -/

def extractLogId (obj : List (String × Json)) (allowlist : SubmitterAllowlist) :
    Except WireError (SubmitterEntry × FieldMap) :=
  match allowlist.jsonEntries.find? fun (entry, fieldMap) =>
      match Json.get obj (fieldMap.get .logId) with
      | some (.str s) => s = entry.logId
      | _ => false with
  | some found => .ok found
  | none => refuse ("json checkpoint's log_id does not resolve to any enrolled json-ed25519 submitter " ++
      "-- json form is only accepted for an enrolled submitter that declares wire_form: " ++
      "json-ed25519 (see submitters.py); every other log_id must use the COSE_Sign1 wire")

/-- A field that must be a non-empty string. -/
private def jsonStr (value : Json) (what : String) : Except WireError String :=
  match value with
  | .str s => if s = "" then refuse (what ++ " must be a non-empty string") else .ok s
  | _ => refuse (what ++ " must be a non-empty string")

/-- A field that must be an integer of at least `low`; the message says `kind`. -/
private def jsonInt (value : Json) (low : Nat) (what kind : String) : Except WireError Nat :=
  match value with
  | .int i => if i < low then refuse (what ++ " must be a " ++ kind ++ " integer") else .ok i.toNat
  | _ => refuse (what ++ " must be a " ++ kind ++ " integer")

/-- `_is_hex_of_len(s, 32)`, and then `s.lower()`. -/
private def jsonHash (value : Json) (message : String) : Except WireError Digest :=
  match value with
  | .str s =>
    match Digest.ofHex? s with
    | some d => .ok d
    | none => refuse message
  | _ => refuse message

private def jsonPrevRoot (value : Json) (prevSize : Nat) : Except WireError (Option Digest) :=
  if prevSize = 0 then
    match value with
    | .str "" => .ok none
    | _ => (jsonHash value "prev_root must be empty (first checkpoint) or 64-char hex").map some
  else (jsonHash value "prev_root must be a 64-char hex string when prev_size > 0").map some

private def jsonSizes (raw : CheckpointField → Json) : Except WireError { s : Nat × Nat // s.2 < s.1 } := do
  let mmrSize ← jsonInt (raw .mmrSize) 1 "mmr_size" "positive"
  let prevSize ← jsonInt (raw .prevSize) 0 "prev_size" "non-negative"
  if h : prevSize < mmrSize then return ⟨(mmrSize, prevSize), h⟩
  else
    refuse ("prev_size (" ++ (← decimal prevSize) ++ ") must be strictly less than mmr_size (" ++
      (← decimal mmrSize) ++ ")")

/-- The value of every field, read under the submitter's names. -/
private def jsonFields (obj : List (String × Json)) (fieldMap : FieldMap) : Except WireError (CheckpointField → Json) :=
  let missing := CheckpointField.all.filter fun f => (Json.get obj (fieldMap.get f)).isNone
  if missing = [] then .ok fun f => (Json.get obj (fieldMap.get f)).getD .null
  else refuse ("json checkpoint missing required field(s) [" ++ reprItems E (missing.map fieldMap.get) ++
    "] (mapped from [" ++ reprItems E (missing.map (·.name)) ++ "] via this submitter's declared field_map)")

private def jsonVersion (value : Json) : Except WireError Int :=
  match value with
  | .int v => if v < 1 then refuse "v must be a positive integer" else .ok v
  | _ => refuse "v must be a positive integer"

private def jsonKind (value : Json) : Except WireError String :=
  match value with
  | .str kind =>
    if kind = "mmr_checkpoint" then .ok kind
    else refuse ("kind must be 'mmr_checkpoint', got " ++ E.repr kind)
  | other => refuse ("kind must be 'mmr_checkpoint', got " ++ texts.reprJson other)

private def jsonLogId (value : Json) (entry : SubmitterEntry) : Except WireError String :=
  match value with
  | .str logId =>
    if logId = entry.logId then .ok logId
    else refuse ("log_id " ++ E.repr logId ++ " does not match resolved submitter " ++ E.repr entry.logId)
  | other => refuse ("log_id " ++ texts.reprJson other ++ " does not match resolved submitter " ++ E.repr entry.logId)

/-- The checkpoint with its signature, before the signature is verified. -/
def signedCheckpointOf (raw : CheckpointField → Json) (entry : SubmitterEntry) :
    Except WireError (Checkpoint × Bytes) := do
  let v ← jsonVersion (raw .v)
  let kind ← jsonKind E texts (raw .kind)
  let logId ← jsonLogId E texts (raw .logId) entry
  let keyId ← jsonStr (raw .keyId) "key_id"
  let root ← jsonHash (raw .root) "root must be a 64-char hex string (32 bytes)"
  let ⟨(mmrSize, prevSize), prevSize_lt⟩ ← jsonSizes raw
  let prevRoot ← jsonPrevRoot (raw .prevRoot) prevSize
  let timestamp ← jsonStr (raw .timestamp) "timestamp"
  let signature ← jsonStr (raw .signature) "signature"
  let signatureBytes ← match fromHex signature.toList with
    | some bytes => .ok bytes
    | none => refuse ("signature is not valid hex: " ++ texts.fromHexError signature)
  return ({ v, kind, logId, mmrSize, root, prevSize, prevRoot, keyId, timestamp, grade := some entry.grade
            consistencyProof := none, prevSize_lt }, signatureBytes)

def parseAndVerifyCheckpointJson (body : Bytes) (allowlist : SubmitterAllowlist) : Except WireError Checkpoint :=
  match W.jsonLoads body with
  | .error .unicodeDecodeError => refuse ("checkpoint submission is not valid JSON: " ++ texts.jsonError body)
  | .error .jsonDecodeError => refuse ("checkpoint submission is not valid JSON: " ++ texts.jsonError body)
  | .error _ => .error .uncaught
  | .ok (.obj obj) => do
    let (entry, fieldMap) ← extractLogId obj allowlist
    let raw ← jsonFields E obj fieldMap
    let (cp, signature) ← signedCheckpointOf E texts raw entry
    match W.keyError entry.pubkey with
    | some _ => throw .uncaught
    | none =>
      if W.ed25519Verify entry.pubkey signature (ascii (checkpointDigest E cp).hex) then return cp
      else throw (.checkpointSignatureError "json checkpoint signature does not verify under its pinned enrolled key")
  | .ok _ => refuse "json checkpoint submission must be a JSON object"

/-! ### What a parser has checked -/

/-- What the code relies on: `parse_signed_statement` says whether the signature verifies under the key it is given, and
its issuer is the CWT `iss` of the protected header that is peeked at. -/
structure StatementLaws (coseVerifies : Bytes → Bytes → Prop) : Prop where
  verifies : ∀ body key parsed, W.parseSignedStatement body key = some parsed →
    (parsed.signatureVerified = true ↔ coseVerifies key body)
  issuer : ∀ body key parsed fields, W.parseSignedStatement body key = some parsed →
    extractProtectedFields E W body = .ok fields → parsed.issuer = fields.issuer

/-- Every field of the checkpoint is read from the statement. -/
structure ReadFromStatement (parsed : ParsedStatement) (cp : Checkpoint) : Prop where
  issuer : parsed.issuer = some cp.logId
  subject : parsed.subject = some (cp.logId ++ "#" ++ toString cp.mmrSize)
  constants : cp.v = 1 ∧ cp.kind = "mmr_checkpoint"
  claims : ∃ payload claims, parsed.payload = some payload ∧ E.cborLoads payload = some (.map claims) ∧
    Cbor.getText claims "kind" = some (.text wireKind) ∧
    Cbor.getText claims "log_size" = some (.int cp.mmrSize) ∧
    Cbor.getText claims "prev_size" = some (.int cp.prevSize) ∧
    Cbor.getText claims "issued_at" = some (.text cp.timestamp) ∧
    rootOf E texts claims = .ok cp.root ∧
    prevRootOf E texts W claims = .ok cp.prevRoot

/-- Every field of the checkpoint, and the signature, is read from the object under the submitter's names. -/
structure ReadFromObject (obj : List (String × Json)) (fieldMap : FieldMap) (cp : Checkpoint) (signature : Bytes) :
    Prop where
  v : Json.get obj (fieldMap.get .v) = some (.int cp.v)
  kind : Json.get obj (fieldMap.get .kind) = some (.str cp.kind)
  logId : Json.get obj (fieldMap.get .logId) = some (.str cp.logId)
  mmrSize : Json.get obj (fieldMap.get .mmrSize) = some (.int cp.mmrSize)
  root : ∃ s, Json.get obj (fieldMap.get .root) = some (.str s) ∧ Digest.ofHex? s = some cp.root
  prevSize : Json.get obj (fieldMap.get .prevSize) = some (.int cp.prevSize)
  prevRoot : ∃ s, Json.get obj (fieldMap.get .prevRoot) = some (.str s) ∧
    (s = "" ∧ cp.prevRoot = none ∨ ∃ d, Digest.ofHex? s = some d ∧ cp.prevRoot = some d)
  keyId : Json.get obj (fieldMap.get .keyId) = some (.str cp.keyId)
  timestamp : Json.get obj (fieldMap.get .timestamp) = some (.str cp.timestamp)
  signature : ∃ s, Json.get obj (fieldMap.get .signature) = some (.str s) ∧ fromHex s.toList = some signature

variable {E texts W}

private theorem issuerOf_ok {entry : Option SubmitterEntry} {parsed : ParsedStatement} {issuer : String}
    (h : issuerOf E entry parsed = .ok issuer) :
    parsed.issuer = some issuer ∧ ∀ e, entry = some e → issuer = e.logId := by
  unfold issuerOf at h
  split at h
  · cases h
  · rename_i found hissuer
    split at h
    · cases h
    · cases entry with
      | none =>
        obtain rfl := Except.ok.inj h
        exact ⟨hissuer, nofun⟩
      | some entry =>
        simp only at h
        split at h
        · rename_i heq
          obtain rfl := Except.ok.inj h
          refine ⟨hissuer, ?_⟩
          rintro e ⟨⟩
          exact heq
        · cases h

private theorem claimsOf_ok {parsed : ParsedStatement} {claims : List (Cbor × Cbor)}
    (h : claimsOf E texts parsed = .ok claims) :
    ∃ payload, parsed.payload = some payload ∧ E.cborLoads payload = some (.map claims) ∧
      Cbor.getText claims "kind" = some (.text wireKind) := by
  unfold claimsOf at h
  split at h
  · cases h
  · rename_i found hfound
    obtain ⟨payload, hpayload, hloads⟩ := Option.bind_eq_some_iff.1 hfound
    split at h
    · rename_i kind hkind
      split at h
      · rename_i heq
        obtain rfl := Except.ok.inj h
        exact ⟨payload, hpayload, hloads, heq ▸ hkind⟩
      · cases h
    · cases h
  · cases h

private theorem sizeClaim_ok {claims : List (Cbor × Cbor)} {key message : String} {low size : Nat}
    (h : sizeClaim claims key low message = .ok size) : Cbor.getText claims key = some (.int size) := by
  unfold sizeClaim at h
  split at h
  · rename_i i hi
    split at h
    · cases h
    · obtain rfl := Except.ok.inj h
      rw [hi, Int.toNat_of_nonneg (by omega)]
  · cases h

private theorem sizesOf_ok {claims : List (Cbor × Cbor)} {sizes : { s : Nat × Nat // s.2 < s.1 }}
    (h : sizesOf claims = .ok sizes) :
    Cbor.getText claims "log_size" = some (.int sizes.1.1) ∧
      Cbor.getText claims "prev_size" = some (.int sizes.1.2) := by
  unfold sizesOf at h
  obtain ⟨mmrSize, hmmr, h⟩ := bind_ok h
  obtain ⟨prevSize, hprev, h⟩ := bind_ok h
  split at h
  · obtain rfl := Except.ok.inj h
    exact ⟨sizeClaim_ok hmmr, sizeClaim_ok hprev⟩
  · obtain ⟨_, -, h⟩ := bind_ok h
    obtain ⟨_, -, h⟩ := bind_ok h
    cases h

private theorem issuedAtOf_ok {claims : List (Cbor × Cbor)} {issuedAt : String} (h : issuedAtOf claims = .ok issuedAt) :
    Cbor.getText claims "issued_at" = some (.text issuedAt) := by
  unfold issuedAtOf at h
  split at h
  · rename_i found hfound
    obtain rfl := Except.ok.inj h
    exact hfound
  · cases h

private theorem decimal_ok {n : Nat} {digits : String} (h : decimal n = .ok digits) :
    digits = toString n ∧ (toString n).length ≤ 4300 := by
  unfold decimal at h
  split at h
  · rename_i hdigits
    exact ⟨(Except.ok.inj h).symm, hdigits⟩
  · cases h

private theorem checkSubject_ok {issuer : String} {mmrSize : Nat} {parsed : ParsedStatement}
    (h : checkSubject E issuer mmrSize parsed = .ok ()) :
    parsed.subject = some (issuer ++ "#" ++ toString mmrSize) ∧ (toString mmrSize).length ≤ 4300 := by
  unfold checkSubject at h
  obtain ⟨digits, hdigits, h⟩ := bind_ok h
  obtain ⟨rfl, hlength⟩ := decimal_ok hdigits
  simp only at h
  split at h
  · rename_i hsubject
    exact ⟨hsubject, hlength⟩
  · cases h

/-- What `checkpointOf` returns: the claims of the statement, and the key and the grade of the entry. -/
private theorem checkpointOf_ok {entry : Option SubmitterEntry} {kid : Bytes} {parsed : ParsedStatement}
    {cp : Checkpoint} (h : checkpointOf E texts W entry kid parsed = .ok cp) :
    ReadFromStatement E texts W parsed cp ∧ (∀ e, entry = some e → cp.logId = e.logId) ∧
      cp.keyId = bytesHex ((entry.map (·.pubkey)).getD kid) ∧ cp.grade = entry.map (·.grade) ∧
      (toString cp.mmrSize).length ≤ 4300 := by
  unfold checkpointOf at h
  obtain ⟨issuer, hissuer, h⟩ := bind_ok h
  obtain ⟨claims, hclaims, h⟩ := bind_ok h
  obtain ⟨⟨⟨mmrSize, prevSize⟩, hlt⟩, hsizes, h⟩ := bind_ok h
  obtain ⟨root, hroot, h⟩ := bind_ok h
  obtain ⟨prevRoot, hprevRoot, h⟩ := bind_ok h
  obtain ⟨issuedAt, hissuedAt, h⟩ := bind_ok h
  obtain ⟨proof, -, h⟩ := bind_ok h
  obtain ⟨⟨⟩, hsubject, h⟩ := bind_ok h
  obtain rfl := Except.ok.inj h
  obtain ⟨hfound, hentry⟩ := issuerOf_ok hissuer
  obtain ⟨payload, hpayload, hloads, hkind⟩ := claimsOf_ok hclaims
  obtain ⟨hmmr, hprev⟩ := sizesOf_ok hsizes
  obtain ⟨hsubject, hlength⟩ := checkSubject_ok hsubject
  refine ⟨⟨hfound, hsubject, ⟨rfl, rfl⟩, payload, claims, hpayload, hloads, hkind, hmmr, hprev, issuedAtOf_ok hissuedAt,
    hroot, hprevRoot⟩, hentry, ?_, rfl, hlength⟩
  cases entry <;> rfl

private theorem verifiedStatement_ok {body : Bytes} {entry : Option SubmitterEntry} {kid : Bytes}
    {parsed : ParsedStatement} (h : verifiedStatement W body entry kid = .ok parsed) :
    W.parseSignedStatement body ((entry.map (·.pubkey)).getD kid) = some parsed ∧ parsed.signatureVerified = true := by
  unfold verifiedStatement at h
  simp only at h
  split at h
  · cases h
  · split at h
    · cases h
    · rename_i found hparse
      split at h
      · rename_i hverified
        obtain rfl := Except.ok.inj h
        exact ⟨hparse, hverified⟩
      · cases h

private theorem kidOf_ok {fields : ProtectedFields} {kid : Bytes} (h : kidOf fields = .ok kid) : fields.kid = some kid := by
  unfold kidOf at h
  split at h
  · rename_i found hfound
    split at h
    · rw [hfound, Except.ok.inj h]
    · cases h
  · cases h

/-- The entry that the peek resolves is the entry of the issuer. -/
private theorem resolveEntry_eq {allowlist : SubmitterAllowlist} {issuer : String} :
    resolveEntry (some allowlist) (some issuer) = allowlist.get issuer := by
  rw [resolveEntry]
  split
  · rename_i hempty
    symm
    rw [SubmitterAllowlist.get, List.find?_eq_none]
    intro entry _
    simpa [hempty] using entry.logId_ne
  · rfl

private theorem jsonStr_ok {value : Json} {what s : String} (h : jsonStr value what = .ok s) : value = .str s := by
  unfold jsonStr at h
  split at h
  · split at h
    · cases h
    · rw [Except.ok.inj h]
  · cases h

private theorem jsonInt_ok {value : Json} {low n : Nat} {what kind : String} (h : jsonInt value low what kind = .ok n) :
    value = .int n := by
  unfold jsonInt at h
  split at h
  · split at h
    · cases h
    · obtain rfl := Except.ok.inj h
      rw [Int.toNat_of_nonneg (by omega)]
  · cases h

private theorem jsonHash_ok {value : Json} {message : String} {d : Digest} (h : jsonHash value message = .ok d) :
    ∃ s, value = .str s ∧ Digest.ofHex? s = some d := by
  unfold jsonHash at h
  split at h
  · rename_i s
    split at h
    · rename_i found hfound
      obtain rfl := Except.ok.inj h
      exact ⟨s, rfl, hfound⟩
    · cases h
  · cases h

private theorem map_ok {ε α β : Type} {x : Except ε α} {f : α → β} {b : β} (h : x.map f = .ok b) :
    ∃ a, x = .ok a ∧ f a = b := by
  cases x with
  | error e => cases h
  | ok a => exact ⟨a, rfl, Except.ok.inj h⟩

private theorem jsonPrevRoot_ok {value : Json} {prevSize : Nat} {prevRoot : Option Digest}
    (h : jsonPrevRoot value prevSize = .ok prevRoot) :
    ∃ s, value = .str s ∧ (s = "" ∧ prevRoot = none ∨ ∃ d, Digest.ofHex? s = some d ∧ prevRoot = some d) := by
  have hhash : ∀ message, (jsonHash value message).map some = .ok prevRoot →
      ∃ s, value = .str s ∧ (s = "" ∧ prevRoot = none ∨ ∃ d, Digest.ofHex? s = some d ∧ prevRoot = some d) := by
    intro message hmap
    obtain ⟨d, hd, rfl⟩ := map_ok hmap
    obtain ⟨s, hs, hhex⟩ := jsonHash_ok hd
    exact ⟨s, hs, .inr ⟨d, hhex, rfl⟩⟩
  unfold jsonPrevRoot at h
  split at h
  · split at h
    · exact ⟨"", rfl, .inl ⟨rfl, (Except.ok.inj h).symm⟩⟩
    · exact hhash _ h
  · exact hhash _ h

private theorem jsonSizes_ok {raw : CheckpointField → Json} {sizes : { s : Nat × Nat // s.2 < s.1 }}
    (h : jsonSizes raw = .ok sizes) : raw .mmrSize = .int sizes.1.1 ∧ raw .prevSize = .int sizes.1.2 := by
  unfold jsonSizes at h
  obtain ⟨mmrSize, hmmr, h⟩ := bind_ok h
  obtain ⟨prevSize, hprev, h⟩ := bind_ok h
  split at h
  · obtain rfl := Except.ok.inj h
    exact ⟨jsonInt_ok hmmr, jsonInt_ok hprev⟩
  · obtain ⟨_, -, h⟩ := bind_ok h
    obtain ⟨_, -, h⟩ := bind_ok h
    cases h

private theorem jsonVersion_ok {value : Json} {v : Int} (h : jsonVersion value = .ok v) : value = .int v := by
  unfold jsonVersion at h
  split at h
  · split at h
    · cases h
    · rw [Except.ok.inj h]
  · cases h

private theorem jsonKind_ok {value : Json} {kind : String} (h : jsonKind E texts value = .ok kind) :
    value = .str kind := by
  unfold jsonKind at h
  split at h
  · split at h
    · rw [Except.ok.inj h]
    · cases h
  · cases h

private theorem jsonLogId_ok {value : Json} {entry : SubmitterEntry} {logId : String}
    (h : jsonLogId E texts value entry = .ok logId) : value = .str logId ∧ logId = entry.logId := by
  unfold jsonLogId at h
  split at h
  · split at h
    · rename_i heq
      obtain rfl := Except.ok.inj h
      exact ⟨rfl, heq⟩
    · cases h
  · cases h

/-- Every field is there, under its name. -/
private theorem jsonFields_ok {obj : List (String × Json)} {fieldMap : FieldMap} {raw : CheckpointField → Json}
    (h : jsonFields E obj fieldMap = .ok raw) (f : CheckpointField) : Json.get obj (fieldMap.get f) = some (raw f) := by
  unfold jsonFields at h
  simp only at h
  split at h
  · rename_i hmissing
    obtain rfl := Except.ok.inj h
    have hf : ¬ Json.get obj (fieldMap.get f) = none := by
      simpa using List.filter_eq_nil_iff.1 hmissing f f.mem_all
    obtain ⟨value, hget⟩ := Option.ne_none_iff_exists'.1 hf
    simp only [hget, Option.getD_some]
  · cases h

/-- What `signedCheckpointOf` returns. -/
private theorem signedCheckpointOf_ok {obj : List (String × Json)} {fieldMap : FieldMap}
    {raw : CheckpointField → Json} {entry : SubmitterEntry} {cp : Checkpoint} {signature : Bytes}
    (hraw : ∀ f, Json.get obj (fieldMap.get f) = some (raw f))
    (h : signedCheckpointOf E texts raw entry = .ok (cp, signature)) :
    ReadFromObject obj fieldMap cp signature ∧ cp.logId = entry.logId ∧ cp.grade = some entry.grade := by
  unfold signedCheckpointOf at h
  obtain ⟨v, hv, h⟩ := bind_ok h
  obtain ⟨kind, hkind, h⟩ := bind_ok h
  obtain ⟨logId, hlogId, h⟩ := bind_ok h
  obtain ⟨keyId, hkeyId, h⟩ := bind_ok h
  obtain ⟨root, hroot, h⟩ := bind_ok h
  obtain ⟨⟨⟨mmrSize, prevSize⟩, hlt⟩, hsizes, h⟩ := bind_ok h
  obtain ⟨prevRoot, hprevRoot, h⟩ := bind_ok h
  obtain ⟨timestamp, htimestamp, h⟩ := bind_ok h
  obtain ⟨text, htext, h⟩ := bind_ok h
  simp only at h
  split at h
  · rename_i bytes hbytes
    obtain ⟨rfl, rfl⟩ := Prod.mk.inj (Except.ok.inj h)
    obtain ⟨hlog, heq⟩ := jsonLogId_ok hlogId
    obtain ⟨s, hs, hhex⟩ := jsonHash_ok hroot
    obtain ⟨hmmr, hprev⟩ := jsonSizes_ok hsizes
    obtain ⟨p, hp, hprevHex⟩ := jsonPrevRoot_ok hprevRoot
    refine ⟨⟨?_, ?_, ?_, ?_, ⟨s, ?_, hhex⟩, ?_, ⟨p, ?_, hprevHex⟩, ?_, ?_, ⟨text, ?_, hbytes⟩⟩, heq, rfl⟩
    · rw [hraw, jsonVersion_ok hv]
    · rw [hraw, jsonKind_ok hkind]
    · rw [hraw, hlog]
    · rw [hraw, hmmr]
    · rw [hraw, hs]
    · rw [hraw, hprev]
    · rw [hraw, hp]
    · rw [hraw, jsonStr_ok hkeyId]
    · rw [hraw, jsonStr_ok htimestamp]
    · rw [hraw, jsonStr_ok htext]
  · cases h

theorem mem_of_extractLogId {obj : List (String × Json)} {allowlist : SubmitterAllowlist}
    {found : SubmitterEntry × FieldMap} (h : extractLogId obj allowlist = .ok found) : found ∈ allowlist.jsonEntries := by
  unfold extractLogId at h
  split at h
  · rename_i found hfound
    obtain rfl := Except.ok.inj h
    exact List.mem_of_find?_eq_some hfound
  · cases h

/-! ### What a parser accepts -/

private theorem parseCose_ok {body : Bytes} {allowlist : Option SubmitterAllowlist} {cp : Checkpoint}
    (h : parseAndVerifyCheckpointCose E texts W body allowlist = .ok cp) :
    ∃ fields kid parsed, extractProtectedFields E W body = .ok fields ∧ fields.kid = some kid ∧
      W.parseSignedStatement body (((resolveEntry allowlist fields.issuer).map (·.pubkey)).getD kid) = some parsed ∧
      parsed.signatureVerified = true ∧ ReadFromStatement E texts W parsed cp ∧
      cp.keyId = bytesHex (((resolveEntry allowlist fields.issuer).map (·.pubkey)).getD kid) ∧
      cp.grade = (resolveEntry allowlist fields.issuer).map (·.grade) ∧ (toString cp.mmrSize).length ≤ 4300 := by
  unfold parseAndVerifyCheckpointCose at h
  obtain ⟨fields, hfields, h⟩ := bind_ok h
  obtain ⟨-, -, h⟩ := bind_ok h
  obtain ⟨kid, hkid, h⟩ := bind_ok h
  simp only at h
  obtain ⟨parsed, hparsed, h⟩ := bind_ok h
  obtain ⟨hparse, hverified⟩ := verifiedStatement_ok hparsed
  obtain ⟨hread, -, hkeyId, hgrade, hlength⟩ := checkpointOf_ok h
  exact ⟨fields, kid, parsed, hfields, kidOf_ok hkid, hparse, hverified, hread, hkeyId, hgrade, hlength⟩

private theorem parseJson_ok {body : Bytes} {allowlist : SubmitterAllowlist} {cp : Checkpoint}
    (h : parseAndVerifyCheckpointJson E texts W body allowlist = .ok cp) :
    ∃ entry fieldMap obj signature, W.jsonLoads body = .ok (.obj obj) ∧
      extractLogId obj allowlist = .ok (entry, fieldMap) ∧ ReadFromObject obj fieldMap cp signature ∧
      cp.logId = entry.logId ∧ cp.grade = some entry.grade ∧
      W.ed25519Verify entry.pubkey signature (ascii (checkpointDigest E cp).hex) = true := by
  unfold parseAndVerifyCheckpointJson at h
  split at h
  any_goals cases h
  rename_i obj hobj
  obtain ⟨⟨entry, fieldMap⟩, hentry, h⟩ := bind_ok h
  obtain ⟨raw, hraw, h⟩ := bind_ok h
  obtain ⟨⟨found, signature⟩, hsigned, h⟩ := bind_ok h
  simp only at h
  split at h
  · cases h
  · split at h
    · rename_i hverified
      obtain rfl := Except.ok.inj h
      obtain ⟨hread, hlog, hgrade⟩ := signedCheckpointOf_ok (jsonFields_ok hraw) hsigned
      exact ⟨entry, fieldMap, obj, signature, hobj, hentry, hread, hlog, hgrade, hverified⟩
    · cases h

variable (W) in
/-- The integers of an object that `json.loads` returns have at most 4300 digits. -/
def JsonDigits : Prop := ∀ (body : Bytes) (obj : List (String × Json)) (key : String) (i : Int),
  W.jsonLoads body = .ok (.obj obj) → Json.get obj key = some (.int i) → (toString i.natAbs).length ≤ 4300

/-- The interpreter writes the numbers of the checkpoint. -/
structure Checkpoint.Decimal (cp : Checkpoint) : Prop where
  v : (toString cp.v.natAbs).length ≤ 4300
  mmrSize : (toString cp.mmrSize).length ≤ 4300

theorem decimal_of_cose {body : Bytes} {allowlist : Option SubmitterAllowlist} {cp : Checkpoint}
    (h : parseAndVerifyCheckpointCose E texts W body allowlist = .ok cp) : cp.Decimal := by
  obtain ⟨_, _, _, -, -, -, -, hread, -, -, hlength⟩ := parseCose_ok h
  refine ⟨?_, hlength⟩
  rw [hread.constants.1]
  decide

theorem decimal_of_json (hdigits : JsonDigits W) {body : Bytes} {allowlist : SubmitterAllowlist} {cp : Checkpoint}
    (h : parseAndVerifyCheckpointJson E texts W body allowlist = .ok cp) : cp.Decimal := by
  obtain ⟨_, _, obj, _, hobj, -, hread, -⟩ := parseJson_ok h
  have hsize := hdigits _ _ _ _ hobj hread.mmrSize
  rw [Int.natAbs_natCast] at hsize
  exact ⟨hdigits _ _ _ _ hobj hread.v, hsize⟩

/-! ### What the JSON parser accepts -/

/-- What the parser requires of the fields of a checkpoint beyond their types. -/
structure Checkpoint.WellFormed (cp : Checkpoint) : Prop where
  v : 1 ≤ cp.v
  kind : cp.kind = "mmr_checkpoint"
  keyId : cp.keyId ≠ ""
  timestamp : cp.timestamp ≠ ""
  prevRoot : 0 < cp.prevSize → cp.prevRoot.isSome

/-- The nine fields, as an entry's JSON submission is returned. -/
def Checkpoint.gradedBy (cp : Checkpoint) (entry : SubmitterEntry) : Checkpoint :=
  { cp with grade := some entry.grade, consistencyProof := none }

private theorem jsonHash_eq {s message : String} {d : Digest} (h : Digest.ofHex? s = some d) :
    jsonHash (.str s) message = .ok d := by
  simp only [jsonHash, h]

private theorem jsonPrevRoot_eq {s : String} {prevRoot : Option Digest} {prevSize : Nat}
    (hread : s = "" ∧ prevRoot = none ∨ ∃ d, Digest.ofHex? s = some d ∧ prevRoot = some d)
    (hsome : 0 < prevSize → prevRoot.isSome) : jsonPrevRoot (.str s) prevSize = .ok prevRoot := by
  rcases hread with ⟨rfl, rfl⟩ | ⟨d, hd, rfl⟩
  · by_cases hzero : prevSize = 0
    · simp [jsonPrevRoot, hzero]
    · cases hsome (by omega)
  · have hne : s ≠ "" := by
      rintro rfl
      have hlen := Digest.length_of_ofHex? hd
      simp at hlen
    unfold jsonPrevRoot
    split
    · split
      · rename_i heq
        exact absurd (Json.str.inj heq) hne
      · rw [jsonHash_eq hd]
        rfl
    · rw [jsonHash_eq hd]
      rfl

private theorem jsonSizes_eq {raw : CheckpointField → Json} {mmrSize prevSize : Nat} (h : prevSize < mmrSize)
    (hmmr : raw .mmrSize = .int mmrSize) (hprev : raw .prevSize = .int prevSize) :
    jsonSizes raw = .ok ⟨(mmrSize, prevSize), h⟩ := by
  have hpos : ¬ (mmrSize : Int) < (1 : Nat) := by omega
  have hnonneg : ¬ (prevSize : Int) < (0 : Nat) := by omega
  have hfirst : jsonInt (raw .mmrSize) 1 "mmr_size" "positive" = .ok mmrSize := by
    rw [hmmr]
    simp only [jsonInt, if_neg hpos, Int.toNat_natCast]
  have hsecond : jsonInt (raw .prevSize) 0 "prev_size" "non-negative" = .ok prevSize := by
    rw [hprev]
    simp only [jsonInt, if_neg hnonneg, Int.toNat_natCast]
  rw [jsonSizes, hfirst, hsecond]
  exact dif_pos h

/-- A well-formed checkpoint that is read from the object passes the checks. -/
private theorem signedCheckpointOf_eq {obj : List (String × Json)} {fieldMap : FieldMap} {raw : CheckpointField → Json}
    {entry : SubmitterEntry} {cp : Checkpoint} {signature : Bytes}
    (hraw : ∀ f, Json.get obj (fieldMap.get f) = some (raw f)) (hread : ReadFromObject obj fieldMap cp signature)
    (hwell : cp.WellFormed) (hlog : cp.logId = entry.logId) (hsignature : signature ≠ []) :
    signedCheckpointOf E texts raw entry = .ok (cp.gradedBy entry, signature) := by
  have hvalue : ∀ f value, Json.get obj (fieldMap.get f) = some value → raw f = value :=
    fun f value hget => Option.some.inj ((hraw f).symm.trans hget)
  obtain ⟨rootText, hroot, hrootHex⟩ := hread.root
  obtain ⟨prevText, hprevRoot, hprevHex⟩ := hread.prevRoot
  obtain ⟨sigText, hsig, hsigHex⟩ := hread.signature
  have hsigText : sigText ≠ "" := by
    rintro rfl
    exact hsignature (Option.some.inj hsigHex).symm
  have hv : jsonVersion (raw .v) = .ok cp.v := by
    have hnot := hwell.v
    rw [hvalue _ _ hread.v]
    exact if_neg (by omega)
  have hkind : jsonKind E texts (raw .kind) = .ok cp.kind := by
    rw [hvalue _ _ hread.kind]
    exact if_pos hwell.kind
  have hlogId : jsonLogId E texts (raw .logId) entry = .ok cp.logId := by
    rw [hvalue _ _ hread.logId]
    exact if_pos hlog
  have hkeyId : jsonStr (raw .keyId) "key_id" = .ok cp.keyId := by
    rw [hvalue _ _ hread.keyId]
    exact if_neg hwell.keyId
  have htimestamp : jsonStr (raw .timestamp) "timestamp" = .ok cp.timestamp := by
    rw [hvalue _ _ hread.timestamp]
    exact if_neg hwell.timestamp
  have hsigned : jsonStr (raw .signature) "signature" = .ok sigText := by
    rw [hvalue _ _ hsig]
    exact if_neg hsigText
  have hsizes := jsonSizes_eq cp.prevSize_lt (hvalue _ _ hread.mmrSize) (hvalue _ _ hread.prevSize)
  have hprev : jsonPrevRoot (raw .prevRoot) cp.prevSize = .ok cp.prevRoot := by
    rw [hvalue _ _ hprevRoot]
    exact jsonPrevRoot_eq hprevHex hwell.prevRoot
  rw [signedCheckpointOf, hv, hkind, hlogId, hkeyId, hvalue _ _ hroot, jsonHash_eq hrootHex, hsizes, htimestamp, hsigned]
  simp only [bind, Except.bind, hprev, hsigHex]
  rfl

private theorem jsonFields_eq {obj : List (String × Json)} {fieldMap : FieldMap}
    (h : ∀ f, (Json.get obj (fieldMap.get f)).isSome) :
    ∃ raw, jsonFields E obj fieldMap = .ok raw := by
  have hmissing : (CheckpointField.all.filter fun f => (Json.get obj (fieldMap.get f)).isNone) = [] := by
    refine List.filter_eq_nil_iff.2 fun f _ => ?_
    have hf := h f
    rw [Option.isSome_iff_ne_none] at hf
    simpa using hf
  exact ⟨_, if_pos hmissing⟩

/-- Every field of a checkpoint has a value in the object that it is read from. -/
private theorem ReadFromObject.isSome {obj : List (String × Json)} {fieldMap : FieldMap} {cp : Checkpoint}
    {signature : Bytes} (h : ReadFromObject obj fieldMap cp signature) (f : CheckpointField) :
    (Json.get obj (fieldMap.get f)).isSome := by
  obtain ⟨_, hroot, -⟩ := h.root
  obtain ⟨_, hprevRoot, -⟩ := h.prevRoot
  obtain ⟨_, hsignature, -⟩ := h.signature
  cases f with
  | v => rw [h.v]; rfl
  | kind => rw [h.kind]; rfl
  | logId => rw [h.logId]; rfl
  | mmrSize => rw [h.mmrSize]; rfl
  | root => rw [hroot]; rfl
  | prevSize => rw [h.prevSize]; rfl
  | prevRoot => rw [hprevRoot]; rfl
  | keyId => rw [h.keyId]; rfl
  | timestamp => rw [h.timestamp]; rfl
  | signature => rw [hsignature]; rfl

/-- A well-formed checkpoint is returned, with the grade of the entry that it resolves to, if the key of that signed it. -/
theorem parseJson_of_resolved {body : Bytes} {obj : List (String × Json)} {allowlist : SubmitterAllowlist}
    {entry : SubmitterEntry} {fieldMap : FieldMap} {cp : Checkpoint} {signature : Bytes}
    (hbody : W.jsonLoads body = .ok (.obj obj)) (hresolved : extractLogId obj allowlist = .ok (entry, fieldMap))
    (hread : ReadFromObject obj fieldMap cp signature) (hwell : cp.WellFormed) (hlog : cp.logId = entry.logId)
    (hsignature : signature ≠ []) (hkey : W.keyError entry.pubkey = none)
    (hverified : W.ed25519Verify entry.pubkey signature (ascii (checkpointDigest E cp).hex) = true) :
    parseAndVerifyCheckpointJson E texts W body allowlist = .ok (cp.gradedBy entry) := by
  obtain ⟨raw, hraw⟩ := jsonFields_eq (E := E) hread.isSome
  have hsigned : signedCheckpointOf E texts raw entry = .ok (cp.gradedBy entry, signature) :=
    signedCheckpointOf_eq (jsonFields_ok hraw) hread hwell hlog hsignature
  have hdigest : checkpointDigest E (cp.gradedBy entry) = checkpointDigest E cp := rfl
  rw [← hdigest] at hverified
  rw [parseAndVerifyCheckpointJson, hbody]
  simp only [hresolved, hraw, hsigned, bind, Except.bind, hkey, hverified, if_true]
  rfl

/-- What is returned is for the entry that it resolves to. -/
theorem logId_of_parseJson {body : Bytes} {obj : List (String × Json)} {allowlist : SubmitterAllowlist} {cp : Checkpoint}
    (hbody : W.jsonLoads body = .ok (.obj obj))
    (h : parseAndVerifyCheckpointJson E texts W body allowlist = .ok cp) :
    ∃ found, extractLogId obj allowlist = .ok found ∧ cp.logId = found.1.logId := by
  rw [parseAndVerifyCheckpointJson, hbody] at h
  obtain ⟨⟨entry, fieldMap⟩, hentry, h⟩ := bind_ok h
  obtain ⟨raw, hraw, h⟩ := bind_ok h
  obtain ⟨⟨found, signature⟩, hsigned, h⟩ := bind_ok h
  refine ⟨(entry, fieldMap), hentry, ?_⟩
  simp only at h
  split at h
  · cases h
  · split at h
    · obtain rfl := Except.ok.inj h
      exact (signedCheckpointOf_ok (jsonFields_ok hraw) hsigned).2.1
    · cases h

variable (E texts W)

/-! ### Pinned keys -/

/-- The key signed the statement, and the checkpoint is what the statement says. -/
def CoseSigned (coseVerifies : Bytes → Bytes → Prop) (key body : Bytes) (cp : Checkpoint) : Prop :=
  coseVerifies key body ∧
    ∃ parsed, W.parseSignedStatement body key = some parsed ∧ ReadFromStatement E texts W parsed cp

/-- The key signed the digest of the nine fields, and they are the fields of the object. -/
def JsonSigned (key body : Bytes) (cp : Checkpoint) : Prop :=
  ∃ obj fieldMap signature, W.jsonLoads body = .ok (.obj obj) ∧ ReadFromObject obj fieldMap cp signature ∧
    W.ed25519Verify key signature (ascii (checkpointDigest E cp).hex) = true

/-- The header of the statement names the key as its `kid`. -/
def NamesKid (body key : Bytes) : Prop := ∃ fields, extractProtectedFields E W body = .ok fields ∧ fields.kid = some key

def IsHex64 (s : String) : Prop := s.toList.length = 64 ∧ ∀ c ∈ s.toList, (hexCharValue c).isSome

/-- Neither wire form accepts a checkpoint for an enrolled `log_id` that is not signed by the key of its entry; only the
COSE wire accepts one for another `log_id`, signed by the `kid` it names and without a grade. -/
theorem pinned_key_enforced {coseVerifies : Bytes → Bytes → Prop} (hlaws : StatementLaws E W coseVerifies)
    (allowlist : SubmitterAllowlist) (body : Bytes) :
    (∀ cp, parseAndVerifyCheckpointCose E texts W body (some allowlist) = .ok cp →
      ∃ key, CoseSigned E texts W coseVerifies key body cp ∧ cp.keyId = bytesHex key ∧
        (match allowlist.get cp.logId with
          | some entry => key = entry.pubkey ∧ cp.grade = some entry.grade
          | none => NamesKid E W body key ∧ cp.grade = none) ∧
        cp.prevSize < cp.mmrSize ∧ IsHex64 cp.root.hex) ∧
    (∀ cp, parseAndVerifyCheckpointJson E texts W body allowlist = .ok cp →
      ∃ entry, allowlist.get cp.logId = some entry ∧ JsonSigned E W entry.pubkey body cp ∧
        cp.grade = some entry.grade ∧ cp.prevSize < cp.mmrSize ∧ IsHex64 cp.root.hex) := by
  have hroot : ∀ cp : Checkpoint, IsHex64 cp.root.hex := fun cp => ⟨cp.root.length_hex, fun c hc => cp.root.isHex hc⟩
  constructor
  · intro cp h
    obtain ⟨fields, kid, parsed, hfields, hkid, hparse, hverified, hread, hkeyId, hgrade, -⟩ := parseCose_ok h
    -- the peek read the issuer that the verified statement has
    have hissuer : fields.issuer = some cp.logId := by
      rw [← hlaws.issuer _ _ _ _ hparse hfields, hread.issuer]
    rw [hissuer, resolveEntry_eq] at hparse hkeyId hgrade
    refine ⟨_, ⟨(hlaws.verifies _ _ _ hparse).1 hverified, parsed, hparse, hread⟩, hkeyId, ?_, cp.prevSize_lt, hroot cp⟩
    cases hentry : allowlist.get cp.logId with
    | some entry =>
      rw [hentry] at hgrade
      exact ⟨rfl, hgrade⟩
    | none =>
      rw [hentry] at hgrade
      exact ⟨⟨fields, hfields, hkid⟩, hgrade⟩
  · intro cp h
    obtain ⟨entry, fieldMap, obj, signature, hobj, hentry, hread, hlog, hgrade, hverified⟩ := parseJson_ok h
    refine ⟨entry, ?_, ⟨obj, fieldMap, signature, hobj, hread, hverified⟩, hgrade, cp.prevSize_lt, hroot cp⟩
    rw [hlog]
    exact SubmitterAllowlist.get_of_mem (SubmitterAllowlist.mem_of_jsonEntries (mem_of_extractLogId hentry))

theorem logB_ne : "log-b" ≠ "" := by decide

private def pinnedKey : Bytes := List.replicate 32 5

private def strangerKey : Bytes := List.replicate 32 9

private def enrolledMap : FieldMap := ⟨CheckpointField.name, CheckpointField.name_distinct⟩

private def enrolledOnly : SubmitterAllowlist where
  entries := [
    { logId := "log-a", pubkey := pinnedKey, accumulator := .nativeMmr, rateLimitPerMin := 60, wireForm := .coseSign1
      logId_ne := by decide, length_pubkey := by decide },
    { logId := "log-b", pubkey := pinnedKey, accumulator := .foreign, rateLimitPerMin := 60
      wireForm := .jsonEd25519 enrolledMap, logId_ne := logB_ne, length_pubkey := by decide }]
  distinct := by decide

private def peak : Digest := filledDigest 1

private def header : Cbor :=
  .map [(.int 1, .int (-8)), (.int 3, .text cllCheckpointContentType), (.int 4, .bytes strangerKey),
    (.int 15, .map [(.int 1, .text "log-a"), (.int 2, .text "log-a#7")])]

private def claims : Cbor :=
  .map [(.text "kind", .text wireKind), (.text "log_size", .int 7), (.text "prev_size", .int 4),
    (.text "commitment", .bytes (cborEncode (.array [.bytes peak.bytes]))), (.text "issued_at", .text "2026-08-27T00:00:00Z")]

private def coseItems : List Cbor :=
  [.bytes (cborEncode header), .map [], .bytes (cborEncode claims), .bytes (List.replicate 64 2)]

private def coseBody : Bytes := cborEncode (.tag 18 (.array coseItems))

private def jsonBody : Bytes :=
  canonical [("v", .int 1), ("kind", .str "mmr_checkpoint"), ("log_id", .str "log-b"), ("mmr_size", .int 7),
    ("root", .str peak.hex), ("prev_size", .int 0), ("prev_root", .str ""), ("key_id", .str "other"),
    ("timestamp", .str "2026-08-27T00:00:00Z"), ("signature", .str (bytesHex (List.replicate 64 3)))]

private def jsonObject : List (String × Json) :=
  [("v", .int 1), ("kind", .str "mmr_checkpoint"), ("log_id", .str "log-b"), ("mmr_size", .int 7), ("root", .str peak.hex),
    ("prev_size", .int 0), ("prev_root", .str ""), ("key_id", .str "other"), ("timestamp", .str "2026-08-27T00:00:00Z"),
    ("signature", .str (bytesHex (List.replicate 64 3)))]

private abbrev wireEnv : Env :=
  refEnv [(cborEncode header, header), (cborEncode claims, claims),
    (cborEncode (.array [.bytes peak.bytes]), .array [.bytes peak.bytes])] [] fun _ _ _ _ _ => false

private def plainTexts : Texts := ⟨fun _ => "", fun _ => "", fun _ => "", fun _ => "", fun _ => ""⟩

/-- The pinned key signs the one statement and the one digest. -/
private def plainWire : Wire where
  strictDecode b := if b = coseBody then .ok (.array coseItems) else .error "not CBOR"
  parseSignedStatement b key :=
    if b = coseBody then some ⟨key = pinnedKey, some "log-a", some "log-a#7", some (cborEncode claims)⟩ else none
  keyError _ := none
  ed25519Verify key signature message :=
    key == pinnedKey && signature == List.replicate 64 3 &&
      message == ascii "dd33734425f436381af9600334070be696d63f50546454add01b7cd777454f08"
  jsonLoads b := if b = jsonBody then .ok (.obj jsonObject) else .error .jsonDecodeError
  otherTruthy := true

private theorem plainWire_fields : extractProtectedFields wireEnv plainWire coseBody =
    .ok ⟨some strangerKey, some (.text cllCheckpointContentType), some "log-a"⟩ := by
  have hdecode : plainWire.strictDecode coseBody = .ok (.array coseItems) := by simp [plainWire]
  rw [extractProtectedFields, hdecode]
  rfl

private theorem plainWire_laws : StatementLaws wireEnv plainWire fun key body => key = pinnedKey ∧ body = coseBody where
  verifies := by
    intro body key parsed h
    by_cases hbody : body = coseBody
    · obtain rfl := Option.some.inj ((if_pos hbody).symm.trans h)
      simp [hbody]
    · cases (if_neg hbody).symm.trans h
  issuer := by
    intro body key parsed fields h hfields
    by_cases hbody : body = coseBody
    · obtain rfl := Option.some.inj ((if_pos hbody).symm.trans h)
      rw [hbody, plainWire_fields] at hfields
      obtain rfl := Except.ok.inj hfields
      rfl
    · cases (if_neg hbody).symm.trans h

private def coseCheckpoint : Checkpoint where
  v := 1
  kind := "mmr_checkpoint"
  logId := "log-a"
  mmrSize := 7
  root := peak
  prevSize := 4
  prevRoot := none
  keyId := bytesHex pinnedKey
  timestamp := "2026-08-27T00:00:00Z"
  grade := some gradeMmrVerified
  consistencyProof := some none
  prevSize_lt := four_lt_seven

private def jsonCheckpoint : Checkpoint :=
  { coseCheckpoint with
    logId := "log-b", prevSize := 0, keyId := "other", grade := some "countersigned-observed", consistencyProof := none
    prevSize_lt := pos_seven }

private theorem cose_accepted :
    parseAndVerifyCheckpointCose wireEnv plainTexts plainWire coseBody (some enrolledOnly) = .ok coseCheckpoint := by
  decide +kernel

private theorem json_accepted :
    parseAndVerifyCheckpointJson wireEnv plainTexts plainWire jsonBody enrolledOnly = .ok jsonCheckpoint := by
  decide +kernel

/-- A statement that names another `kid` than the pinned key that signed it, and a JSON checkpoint. -/
theorem pinned_key_enforced_sample :
    (∃ key, CoseSigned wireEnv plainTexts plainWire (fun key body => key = pinnedKey ∧ body = coseBody) key coseBody
        coseCheckpoint ∧ coseCheckpoint.keyId = bytesHex key ∧
      key = pinnedKey ∧ coseCheckpoint.grade = some gradeMmrVerified) ∧
    (∃ entry, enrolledOnly.get "log-b" = some entry ∧ JsonSigned wireEnv plainWire entry.pubkey jsonBody jsonCheckpoint ∧
      jsonCheckpoint.grade = some entry.grade) := by
  obtain ⟨hcose, -⟩ := pinned_key_enforced wireEnv plainTexts plainWire plainWire_laws enrolledOnly coseBody
  obtain ⟨-, hjson⟩ := pinned_key_enforced wireEnv plainTexts plainWire plainWire_laws enrolledOnly jsonBody
  constructor
  · obtain ⟨key, hsigned, hkeyId, hentry, -⟩ := hcose _ cose_accepted
    exact ⟨key, hsigned, hkeyId, hentry⟩
  · obtain ⟨entry, hget, hsigned, hgrade, -⟩ := hjson _ json_accepted
    exact ⟨entry, hget, hsigned, hgrade⟩

end CapsuleAnchor
