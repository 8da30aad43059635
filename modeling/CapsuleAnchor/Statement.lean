import CapsuleAnchor.Ct
import CapsuleAnchor.Types

/-!
# What is signed and hashed, and the parsing of a statement

The module-level functions of `anchoring/service.py` and `anchoring/payload_policy.py`: the canonical payloads of the
log, the two entry-hash schemes, the recognition of an `mmr-checkpoint` payload, the COSE Receipt.  `prepare` is the
part of `register_signed_statement_full` that runs before the lock is taken.

The laws of `cbor2` and `json` that the service relies on are propositions about `Env`.  Under them the 32 bytes of a
digest are never taken for a checkpoint (`prepare_digest`).
-/

namespace CapsuleAnchor

variable (E : Env)

def logLocationPrefix : String := "as-transparency-log://entry/"

def logKindRoot : String := "countersigned_root"

def logKindScitt : String := "scitt_statement"

def maxStatementBytes : Nat := 64 * 1024

/-- `AttestorService.attest`. -/
def attest (payload : Bytes) (createdAt : Datetime) : Signature :=
  { signature := E.sign payload, keyId := E.keyId, createdAt := createdAt }

/-! ### Canonical payloads -/

def countersignPayload (tenantId rootHash : String) (seqRange : Int × Int) (attestedAt : Datetime) : Bytes :=
  canonical [("tenant_id", .str tenantId), ("root_hash", .str rootHash), ("seq_from", .int seqRange.1),
    ("seq_to", .int seqRange.2), ("attested_at", .str attestedAt.isoformat)]

/-- Canonical bytes the log signs for the hash-chain head at `logIndex`. -/
def treeHeadPayload (logIndex : Int) (payloadHash : Digest) (prevLogHash : Option String) : Bytes :=
  canonical [("log_index", .int logIndex), ("payload_hash", .str payloadHash.hex),
    ("prev_log_hash", .optStr prevLogHash)]

/-- Canonical leaf bytes of a log entry; for a `scitt_statement` the raw entry hash. -/
def ctLeafPayload (entry : TransparencyLogEntry) : Bytes :=
  if entry.kind = logKindScitt then entry.payloadHash.bytes
  else canonical [("log_index", .int entry.logIndex), ("kind", .str entry.kind),
    ("payload_hash", .str entry.payloadHash.hex), ("prev_log_hash", .optStr entry.prevLogHash),
    ("logged_at", .str entry.loggedAt.isoformat)]

def ctLeafHash (entry : TransparencyLogEntry) : Digest := leafHash E.sha256 (ctLeafPayload entry)

def sthPayload (treeSize : Nat) (rootHash : Digest) (timestamp : Datetime) : Bytes :=
  canonical [("tree_size", .int treeSize), ("root_hash", .str rootHash.hex),
    ("timestamp", .str timestamp.isoformat)]

/-- Canonical bytes a checkpoint's signature covers. -/
def checkpointSigningBody (cp : Checkpoint) : Bytes :=
  canonical [("v", .int cp.v), ("kind", .str cp.kind), ("log_id", .str cp.logId), ("mmr_size", .int cp.mmrSize),
    ("root", .str cp.root.hex), ("prev_size", .int cp.prevSize),
    ("prev_root", .str ((cp.prevRoot.map Digest.hex).getD "")), ("key_id", .str cp.keyId),
    ("timestamp", .str cp.timestamp)]

def checkpointDigest (cp : Checkpoint) : Digest := E.sha256 (checkpointSigningBody cp)

/-! ### Entry hashes -/

/-- A decoded COSE_Sign1. -/
structure CoseSign1 where
  protectedBstr : Bytes
  unprotected : List (Cbor × Cbor)
  payload : Option Bytes
  signature : Bytes

def decodeCoseSign1 (data : Bytes) : Option CoseSign1 :=
  match E.cborLoads data with
  | some (.tag 18 (.array [.bytes protectedBstr, .map unprotected, .bytes payload, .bytes signature])) =>
    some ⟨protectedBstr, unprotected, some payload, signature⟩
  | some (.tag 18 (.array [.bytes protectedBstr, .map unprotected, .null, .bytes signature])) =>
    some ⟨protectedBstr, unprotected, none, signature⟩
  | _ => none

/-- The RFC 9052 `Sig_structure` of a COSE_Sign1 with empty external data. -/
def sigStructure (protectedBstr payload : Bytes) : Bytes :=
  E.cborDumps (.array [.text "Signature1", .bytes protectedBstr, .bytes [], .bytes payload])

def legacyEntryHash (statementBytes : Bytes) : Digest := E.sha256 statementBytes

def entryHashPreimage (statementBytes : Bytes) : Bytes × EntryHashScheme :=
  match decodeCoseSign1 E statementBytes with
  | some ⟨protectedBstr, _, some payload, _⟩ => (sigStructure E protectedBstr payload, .sigStructure)
  | _ => (statementBytes, .legacy)

def computeEntryHash (statementBytes : Bytes) : Digest × EntryHashScheme :=
  (E.sha256 (entryHashPreimage E statementBytes).1, (entryHashPreimage E statementBytes).2)

/-- The CWT `sub` claim of a decoded protected header. -/
def peekUnauthenticatedSubject (header : List (Cbor × Cbor)) : Option String :=
  match Cbor.get header 15 with
  | some (.map claims) =>
    match Cbor.get claims 2 with
    | some (.bytes sub) => some (E.decodeReplace sub)
    | some (.text sub) => some sub
    | _ => none
  | _ => none

/-! ### The stored payload -/

def digestSizes : List (Int × Nat) := [(-16, 32), (-43, 48), (-44, 64)]

def capsuleIdMediaType : String := "application/vnd.agent-action-capsule.capsule-id+octet-stream"

/-- Whether the statement's payload is itself a digest. -/
def isMadeOverAHash (header : List (Cbor × Cbor)) (payload : Bytes) : Bool :=
  (match Cbor.get header 258 with
    | some (.int alg) => digestSizes.lookup alg == some payload.length
    | _ => false) ||
  (match Cbor.get header 3 with
    | some (.text contentType) => contentType == capsuleIdMediaType && payload.length == 32
    | _ => false)

/-- The subject-index value for `payload` and how it was stored. -/
def storedPayload (header : List (Cbor × Cbor)) (payload : Option Bytes) (policy : EmbeddedPayloadPolicy) :
    Option String × Option String :=
  match payload with
  | none => (none, none)
  | some payload =>
    if isMadeOverAHash header payload then (some (bytesHex payload), some "digest")
    else if policy.storeEmbedded ∧ payload.length ≤ policy.maxBytes then (some (bytesHex payload), some "embedded")
    else (some (E.sha256 payload).hex, some "sha256")

/-! ### Checkpoint payloads -/

def checkpointRequiredFields : List String :=
  ["log_id", "key_id", "mmr_root", "mmr_size", "prev_size", "timestamp"]

/-- A field that must be a non-empty string. -/
private def nonEmptyStr (obj : List (String × Json)) (key : String) : Except ServiceError String :=
  match Json.get obj key with
  | some (.str s) =>
    if s = "" then .error (.checkpointPayloadError (key ++ " must be a non-empty string")) else .ok s
  | _ => .error (.checkpointPayloadError (key ++ " must be a non-empty string"))

/-- A field that must be an integer of at least `low`; the message says `what`. -/
private def intAtLeast (obj : List (String × Json)) (key : String) (low : Nat) (what : String) :
    Except ServiceError Nat :=
  match Json.get obj key with
  | some (.int i) =>
    if i < low then .error (.checkpointPayloadError (key ++ " must be a " ++ what ++ " integer")) else .ok i.toNat
  | _ => .error (.checkpointPayloadError (key ++ " must be a " ++ what ++ " integer"))

private def mmrRootOf (obj : List (String × Json)) : Except ServiceError Digest :=
  match Json.get obj "mmr_root" with
  | some (.str s) =>
    match Digest.ofHex? s with
    | some root => .ok root
    | none => .error (.checkpointPayloadError "mmr_root must be a 64-char hex string (32 bytes)")
  | _ => .error (.checkpointPayloadError "mmr_root must be a 64-char hex string (32 bytes)")

/-- The witness fields of an object that declares `artifact_type: mmr-checkpoint`. -/
def checkpointFieldsOf (obj : List (String × Json)) : Except ServiceError CheckpointFields := do
  let missing := checkpointRequiredFields.filter fun k => (Json.get obj k).isNone
  if missing ≠ [] then
    throw (.checkpointPayloadError ("mmr-checkpoint payload missing required field(s): [" ++
      String.intercalate ", " (missing.map fun k => "'" ++ k ++ "'") ++ "]"))
  let logId ← nonEmptyStr obj "log_id"
  let keyId ← nonEmptyStr obj "key_id"
  let mmrRoot ← mmrRootOf obj
  let mmrSize ← intAtLeast obj "mmr_size" 1 "positive"
  let prevSize ← intAtLeast obj "prev_size" 0 "non-negative"
  let timestamp ← nonEmptyStr obj "timestamp"
  if mmrSize ≤ prevSize then
    throw (.checkpointPayloadError "prev_size must be strictly less than mmr_size")
  return { logId, keyId, mmrRoot, mmrSize, prevSize, timestamp }

def parseCheckpointPayload (payload : Option Bytes) : Except ServiceError (Option CheckpointFields) :=
  match payload with
  | none => .ok none
  | some payload =>
    match E.jsonLoads payload with
    | .error .unicodeDecodeError => .ok none
    | .error .jsonDecodeError => .ok none
    | .error (.valueError message) => .error (.valueError message)
    | .error .recursionError => .error .recursionError
    | .ok (.obj obj) =>
      match Json.get obj "artifact_type" with
      | some (.str "mmr-checkpoint") => (checkpointFieldsOf obj).map some
      | _ => .ok none
    | .ok _ => .ok none

/-! ### COSE Receipts -/

/-- The continuity assertion as a CBOR map. -/
def ContinuityAssertion.toCbor (a : ContinuityAssertion) : Cbor :=
  .map [(.text "policy_id", .text a.policyId), (.text "log_id", .text a.logId), (.text "prev_size", .int a.prevSize),
    (.text "prev_root", .text ((a.prevRoot.map Digest.hex).getD "")), (.text "mmr_size", .int a.mmrSize),
    (.text "root", .text a.root.hex), (.text "checked", .array (a.checked.map .text)),
    (.text "witness_key_id", .text a.witnessKeyId), (.text "ts", .text a.ts)]

/-- The protected header of a receipt; the optional claims are left out when absent. -/
def receiptProtected (iat : Option Int) (grade : Option String) (continuity : Option ContinuityAssertion) : Bytes :=
  E.cborDumps (.map ([(.int 1, .int (-8)), (.int 395, .int 1)] ++
    (iat.map fun iat => (.int 15, .map [(.int 6, .int iat)])).toList ++
    (grade.map fun grade => (.int (-65537), .text grade)).toList ++
    (continuity.map fun continuity => (.int (-65538), continuity.toCbor)).toList))

def buildCoseReceipt (treeSize : Nat) (leafIndex : Int) (auditPath : List Digest) (root : Digest)
    (iat : Option Int) (grade : Option String) (continuity : Option ContinuityAssertion) : CoseReceipt :=
  { treeSize, leafIndex, auditPath, iat, grade, continuity
    signature := E.sign (sigStructure E (receiptProtected E iat grade continuity) root.bytes) }

/-- The receipt as it is returned: a tagged COSE_Sign1 with a detached payload. -/
def CoseReceipt.toBytes (r : CoseReceipt) : Bytes :=
  let inclusion := E.cborDumps (.array [.int r.treeSize, .int r.leafIndex,
    .array (r.auditPath.map fun h => .bytes h.bytes)])
  E.cborDumps (.tag 18 (.array [.bytes (receiptProtected E r.iat r.grade r.continuity),
    .map [(.int 396, .map [(.int (-1), .array [.bytes inclusion])])], .null, .bytes r.signature]))

/-! ### Before the lock -/

/-- What registration derives from the submitted bytes before it takes the lock. -/
structure Submission where
  preimage : Bytes
  scheme : EntryHashScheme
  entryHash : Digest
  legacyHash : Digest
  subject : Option String
  payloadDigest : Option String
  payloadForm : Option String
  checkpointFields : Option CheckpointFields

/-- `cbor2.loads(protected_bstr) if protected_bstr else {}`, as a map: `{}` for bytes that do not decode to one. -/
def protectedHeader (protectedBstr : Bytes) : List (Cbor × Cbor) :=
  if protectedBstr = [] then []
  else match E.cborLoads protectedBstr with
    | some (.map header) => header
    | _ => []

def prepare (policy : EmbeddedPayloadPolicy) (statementBytes : Bytes) : Except ServiceError Submission :=
  if maxStatementBytes < statementBytes.length then
    .error (.valueError ("statement too large: " ++ toString statementBytes.length ++ " bytes (max " ++
      toString maxStatementBytes ++ ")"))
  else
    let preimage := (entryHashPreimage E statementBytes).1
    let scheme := (entryHashPreimage E statementBytes).2
    let entryHash := E.sha256 preimage
    let legacyHash := if scheme = .legacy then entryHash else legacyEntryHash E statementBytes
    match decodeCoseSign1 E statementBytes with
    | none => .ok ⟨preimage, scheme, entryHash, legacyHash, none, none, none, none⟩
    | some sign1 =>
      let header := protectedHeader E sign1.protectedBstr
      let subject := peekUnauthenticatedSubject E header
      let stored := storedPayload E header sign1.payload policy
      let checkpointFields :=
        if scheme = .sigStructure then parseCheckpointPayload E sign1.payload else .ok none
      checkpointFields.map fun fields =>
        ⟨preimage, scheme, entryHash, legacyHash, subject, stored.1, stored.2, fields⟩

/-- What a prepared submission is made of. -/
structure Prepared (statementBytes : Bytes) (sub : Submission) : Prop where
  length_le : statementBytes.length ≤ maxStatementBytes
  preimage : (sub.preimage, sub.scheme) = entryHashPreimage E statementBytes
  entryHash : sub.entryHash = E.sha256 sub.preimage
  legacyHash : sub.legacyHash = E.sha256 statementBytes
  legacy_eq : sub.scheme = .legacy → sub.legacyHash = sub.entryHash
  checkpointFields : ∀ f, sub.checkpointFields = some f → ∃ sign1, decodeCoseSign1 E statementBytes = some sign1 ∧
    parseCheckpointPayload E sign1.payload = .ok (some f)

private theorem preimage_of_legacy {statementBytes : Bytes} (h : (entryHashPreimage E statementBytes).2 = .legacy) :
    (entryHashPreimage E statementBytes).1 = statementBytes := by
  unfold entryHashPreimage at h ⊢
  split <;> simp_all

theorem prepare_ok {policy : EmbeddedPayloadPolicy} {statementBytes : Bytes} {sub : Submission}
    (h : prepare E policy statementBytes = .ok sub) : Prepared E statementBytes sub := by
  have hlegacy : (if (entryHashPreimage E statementBytes).2 = .legacy then
      E.sha256 (entryHashPreimage E statementBytes).1 else legacyEntryHash E statementBytes) =
      E.sha256 statementBytes := by
    split
    · rename_i hs
      rw [preimage_of_legacy E hs]
    · rfl
  unfold prepare at h
  split at h
  · cases h
  · rename_i hsize
    simp only at h
    split at h
    · cases h
      exact ⟨by omega, rfl, rfl, hlegacy, fun hs => if_pos hs, nofun⟩
    · rename_i sign1 hdecode
      cases hfields : (if (entryHashPreimage E statementBytes).2 = .sigStructure then
          parseCheckpointPayload E sign1.payload else .ok none) with
      | error e => simp [hfields, Except.map] at h
      | ok fields =>
        simp only [hfields, Except.map] at h
        cases h
        refine ⟨by omega, rfl, rfl, hlegacy, fun hs => if_pos hs, ?_⟩
        intro f hf
        refine ⟨sign1, hdecode, ?_⟩
        obtain rfl : fields = some f := hf
        split at hfields
        · exact hfields
        · cases hfields

/-- The submission of bytes that are no COSE_Sign1. -/
def rawSubmission (statementBytes : Bytes) : Submission :=
  ⟨statementBytes, .legacy, E.sha256 statementBytes, E.sha256 statementBytes, none, none, none, none⟩

theorem prepare_raw (policy : EmbeddedPayloadPolicy) {statementBytes : Bytes}
    (hdecode : decodeCoseSign1 E statementBytes = none) (hsize : statementBytes.length ≤ maxStatementBytes) :
    prepare E policy statementBytes = .ok (rawSubmission E statementBytes) := by
  have hpre : entryHashPreimage E statementBytes = (statementBytes, .legacy) := by
    simp [entryHashPreimage, hdecode]
  rw [prepare, if_neg (by omega)]
  simp [hdecode, hpre, rawSubmission]

/-- A COSE_Sign1 whose embedded payload declares these fields, if any. -/
theorem prepare_statement (policy : EmbeddedPayloadPolicy) {statementBytes protectedBstr payload sig : Bytes}
    {unprotected : List (Cbor × Cbor)} {fields : Option CheckpointFields}
    (hdecode : decodeCoseSign1 E statementBytes = some ⟨protectedBstr, unprotected, some payload, sig⟩)
    (hsize : statementBytes.length ≤ maxStatementBytes)
    (hparse : parseCheckpointPayload E (some payload) = .ok fields) :
    ∃ sub, prepare E policy statementBytes = .ok sub ∧ sub.checkpointFields = fields ∧ sub.scheme = .sigStructure ∧
      sub.entryHash = E.sha256 (sigStructure E protectedBstr payload) ∧ sub.legacyHash = E.sha256 statementBytes := by
  have hpre : entryHashPreimage E statementBytes = (sigStructure E protectedBstr payload, .sigStructure) := by
    simp only [entryHashPreimage, hdecode]
  rw [prepare, if_neg (by omega)]
  simp only [hdecode, hpre, if_true, hparse]
  exact ⟨_, rfl, rfl, rfl, rfl, rfl⟩

/-! ### Laws of the decoders -/

/-- A byte string that `cbor2.loads` finds in a tagged array is no longer than the encoding it comes from. -/
def CborBounded : Prop := ∀ (data : Bytes) (n : Nat) (items : List Cbor) (b : Bytes),
  E.cborLoads data = some (.tag n (.array items)) → .bytes b ∈ items → b.length ≤ data.length

/-- A string that `json.loads` finds in an object has no more characters than the text has bytes. -/
def JsonBounded : Prop := ∀ (text : Bytes) (obj : List (String × Json)) (key s : String),
  E.jsonLoads text = .ok (.obj obj) → Json.get obj key = some (.str s) → s.length ≤ text.length

private theorem payload_le {data payload : Bytes} {sign1 : CoseSign1} (hcbor : CborBounded E)
    (hdecode : decodeCoseSign1 E data = some sign1) (hpayload : sign1.payload = some payload) :
    payload.length ≤ data.length := by
  unfold decodeCoseSign1 at hdecode
  split at hdecode
  · rename_i p u pl sg hloads
    obtain rfl := Option.some.inj hdecode
    obtain rfl : pl = payload := Option.some.inj hpayload
    exact hcbor data 18 _ pl hloads (by simp)
  · obtain rfl := Option.some.inj hdecode
    cases hpayload
  · cases hdecode

private theorem mmrRootOf_ok {obj : List (String × Json)} {root : Digest} (h : mmrRootOf obj = .ok root) :
    ∃ s, Json.get obj "mmr_root" = some (.str s) ∧ s.length = 64 := by
  unfold mmrRootOf at h
  split at h
  · rename_i s hs
    split at h
    · rename_i d hd
      exact ⟨s, hs, Digest.length_of_ofHex? hd⟩
    · cases h
  · cases h

theorem bind_ok {ε α β : Type} {x : Except ε α} {f : α → Except ε β} {b : β} (h : (x >>= f) = .ok b) :
    ∃ a, x = .ok a ∧ f a = .ok b := by
  cases x with
  | error e => cases h
  | ok a => exact ⟨a, rfl, h⟩

private theorem bind_error {ε α β : Type} {x : Except ε α} {f : α → Except ε β} {e : ε} (h : (x >>= f) = .error e) :
    x = .error e ∨ ∃ a, x = .ok a ∧ f a = .error e := by
  cases x with
  | error e' =>
    cases h
    exact .inl rfl
  | ok a => exact .inr ⟨a, rfl, h⟩

private theorem nonEmptyStr_error {obj : List (String × Json)} {key : String} {e : ServiceError}
    (h : nonEmptyStr obj key = .error e) : ∃ message, e = .checkpointPayloadError message := by
  unfold nonEmptyStr at h
  split at h
  · split at h
    · exact ⟨_, (Except.error.inj h).symm⟩
    · cases h
  · exact ⟨_, (Except.error.inj h).symm⟩

private theorem intAtLeast_error {obj : List (String × Json)} {key what : String} {low : Nat} {e : ServiceError}
    (h : intAtLeast obj key low what = .error e) : ∃ message, e = .checkpointPayloadError message := by
  unfold intAtLeast at h
  split at h
  · split at h
    · exact ⟨_, (Except.error.inj h).symm⟩
    · cases h
  · exact ⟨_, (Except.error.inj h).symm⟩

private theorem mmrRootOf_error {obj : List (String × Json)} {e : ServiceError} (h : mmrRootOf obj = .error e) :
    ∃ message, e = .checkpointPayloadError message := by
  unfold mmrRootOf at h
  split at h
  · split at h
    · cases h
    · exact ⟨_, (Except.error.inj h).symm⟩
  · exact ⟨_, (Except.error.inj h).symm⟩

/-- A checkpoint payload that is refused is refused by name. -/
theorem checkpointFieldsOf_error {obj : List (String × Json)} {e : ServiceError} (h : checkpointFieldsOf obj = .error e) :
    ∃ message, e = .checkpointPayloadError message := by
  unfold checkpointFieldsOf at h
  simp only at h
  split at h
  · exact ⟨_, (Except.error.inj h).symm⟩
  rcases bind_error h with h | ⟨logId, -, h⟩
  · exact nonEmptyStr_error h
  rcases bind_error h with h | ⟨keyId, -, h⟩
  · exact nonEmptyStr_error h
  rcases bind_error h with h | ⟨root, -, h⟩
  · exact mmrRootOf_error h
  rcases bind_error h with h | ⟨mmrSize, -, h⟩
  · exact intAtLeast_error h
  rcases bind_error h with h | ⟨prevSize, -, h⟩
  · exact intAtLeast_error h
  rcases bind_error h with h | ⟨timestamp, -, h⟩
  · exact nonEmptyStr_error h
  split at h
  · exact ⟨_, (Except.error.inj h).symm⟩
  · cases h

/-- A checkpoint payload that is accepted names its root in the 64 characters of `mmr_root`, and grows. -/
theorem checkpointFieldsOf_ok {obj : List (String × Json)} {f : CheckpointFields} (h : checkpointFieldsOf obj = .ok f) :
    f.prevSize < f.mmrSize ∧ ∃ s, Json.get obj "mmr_root" = some (.str s) ∧ s.length = 64 := by
  unfold checkpointFieldsOf at h
  simp only at h
  split at h
  · cases h
  obtain ⟨logId, -, h⟩ := bind_ok h
  obtain ⟨keyId, -, h⟩ := bind_ok h
  obtain ⟨root, hroot, h⟩ := bind_ok h
  obtain ⟨mmrSize, -, h⟩ := bind_ok h
  obtain ⟨prevSize, -, h⟩ := bind_ok h
  obtain ⟨timestamp, -, h⟩ := bind_ok h
  refine ⟨?_, mmrRootOf_ok hroot⟩
  split at h
  · cases h
  · rename_i hgrow
    obtain rfl := Except.ok.inj h
    exact Nat.lt_of_not_le hgrow

theorem parseCheckpointPayload_ok {payload : Option Bytes} {f : CheckpointFields}
    (h : parseCheckpointPayload E payload = .ok (some f)) :
    ∃ text obj, payload = some text ∧ E.jsonLoads text = .ok (.obj obj) ∧ checkpointFieldsOf obj = .ok f := by
  unfold parseCheckpointPayload at h
  split at h
  · cases h
  · rename_i text
    split at h
    any_goals cases h
    rename_i obj hobj
    split at h
    · refine ⟨text, obj, rfl, hobj, ?_⟩
      cases hfields : checkpointFieldsOf obj with
      | error e => simp [hfields, Except.map] at h
      | ok fields => simpa [hfields, Except.map] using h
    · cases h

/-- A digest is too short to hold a checkpoint payload. -/
theorem prepare_digest (hcbor : CborBounded E) (hjson : JsonBounded E) {policy : EmbeddedPayloadPolicy} {d : Digest}
    {sub : Submission} (h : prepare E policy d.bytes = .ok sub) : sub.checkpointFields = none := by
  cases hfields : sub.checkpointFields with
  | none => rfl
  | some f =>
    obtain ⟨sign1, hdecode, hparse⟩ := (prepare_ok E h).checkpointFields f hfields
    obtain ⟨text, obj, hpayload, hobj, hok⟩ := parseCheckpointPayload_ok E hparse
    obtain ⟨-, root, hroot, hlen⟩ := checkpointFieldsOf_ok hok
    have htext : text.length ≤ d.bytes.length := payload_le E hcbor hdecode hpayload
    have hstring : root.length ≤ text.length := hjson text obj "mmr_root" root hobj hroot
    have hdigest := d.length_bytes
    omega

end CapsuleAnchor
