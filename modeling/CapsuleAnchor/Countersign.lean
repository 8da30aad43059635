import CapsuleAnchor.Backends
import CapsuleAnchor.Purposes

/-!
# Countersignatures (`countersign/`)

A bundle as `accept_bundle` returns it, the five generic checks and the statement over it, the entry that
`sign_countersignature` signs and registers, and `verify_entry` and `resolve_entry_state`, which judge entries.

The bundle library, `jcs` and Ed25519 verification are code outside the repository (`CountersignLib`).  A key id is
compared after `str.lower`; of the characters that lower to a hex digit only `A` to `F` are no hex digits themselves, so
`Text.lower` lowers ASCII letters.
-/

namespace CapsuleAnchor

/-! ### Strings -/

/-- `str.lower`, on ASCII letters. -/
def Text.lower (t : Text) : Text :=
  t.map fun c => if h : 65 ≤ c.val ∧ c.val ≤ 90 then ⟨c.val + 32, by omega⟩ else c

/-- `re.compile(r"[0-9a-f]{n}").fullmatch`. -/
def Text.isHex (n : Nat) (t : Text) : Bool :=
  t.length == n && t.all fun c => decide (48 ≤ c.val ∧ c.val ≤ 57 ∨ 97 ≤ c.val ∧ c.val ≤ 102)

def hexDigitValue (c : CodePoint) : Option Nat :=
  if 48 ≤ c.val ∧ c.val ≤ 57 then some (c.val - 48)
  else if 97 ≤ c.val ∧ c.val ≤ 102 then some (c.val - 87)
  else if 65 ≤ c.val ∧ c.val ≤ 70 then some (c.val - 55)
  else none

/-- `bytes.fromhex`, which skips white space before a byte; `none` is `ValueError`. -/
def Text.fromHex : Text → Option Bytes
  | [] => some []
  | [c] => if c.val = 32 ∨ 9 ≤ c.val ∧ c.val ≤ 13 then some [] else none
  | c :: d :: rest =>
    if c.val = 32 ∨ 9 ≤ c.val ∧ c.val ≤ 13 then Text.fromHex (d :: rest)
    else do
      let high ← hexDigitValue c
      let low ← hexDigitValue d
      let bytes ← Text.fromHex rest
      return UInt8.ofNat (16 * high + low) :: bytes

/-- `bytes.hex`. -/
def hexText (b : Bytes) : Text := text (bytesHex b)

/-- `", ".join`. -/
def joinComma (ts : List Text) : Text := List.intercalate (text ", ") ts

/-! ### The libraries -/

/-- How a call fails that does not return. -/
inductive Raised
  | typeError (message : Text)
  | valueError (message : Text)
  | other
deriving DecidableEq

/-- A claim of the bundle library's verdict. -/
structure ClaimResult where
  status : Text
  findings : List Text

/-- What the service reads of `BundleVerificationResult`. -/
structure BundleVerification where
  intervalCoverage : ClaimResult
  perRecordMembership : ClaimResult

/-- The code outside the repository that the module calls. -/
structure CountersignLib where
  /-- `agent_action_capsule.canonical.jcs`; the error is the class of the `TypeError` or `ValueError` it raises. -/
  jcs : JsonValue → Except Text Bytes
  /-- `agent_action_capsule.bundle.bundle_digest`. -/
  bundleDigest : Members → Except Raised Text
  /-- `agent_action_capsule.bundle.verify_bundle`. -/
  verifyBundle : Members → Except Raised BundleVerification
  /-- `Ed25519PublicKey.from_public_bytes(key).verify(signature, message)` returns. -/
  ed25519Verify : Bytes → Bytes → Bytes → Bool
  /-- `repr`. -/
  repr : JsonValue → Text

variable {L : CountersignLib}

/-! ### The bundle -/

/-- A parsed bundle; its digest is the one the library computes. -/
structure Bundle (L : CountersignLib) where
  raw : Members
  digest : Text
  digest_eq : L.bundleDigest raw = .ok digest

namespace Bundle

/-- A member that is an object. -/
private def object (members : Members) (key : Text) : Option Members :=
  match members.get key with
  | some (.obj value) => some value
  | _ => none

def records (b : Bundle L) : List Members :=
  match b.raw.get (text "records") with
  | some (.arr xs) => xs.filterMap fun
    | .obj record => some record
    | _ => none
  | _ => []

def completeness (b : Bundle L) : Members := (object b.raw (text "completeness")).getD []

def completenessCertificate (b : Bundle L) : Option Members := object b.raw (text "completeness_certificate")

def checkpoint (b : Bundle L) : Option Members := object b.raw (text "checkpoint")

def closureDepth (b : Bundle L) : Int :=
  match b.completeness.get (text "closure_depth") with
  | some (.int depth) => depth
  | _ => 2

def verification (b : Bundle L) : Except Raised BundleVerification := L.verifyBundle b.raw

end Bundle

/-- `compute_bundle_digest`. -/
def computeBundleDigest (b : Bundle L) : Except Raised Text := L.bundleDigest b.raw

/-! ### The checks -/

inductive CheckOutcome
  | established
  | failed
  | notPresent
  | notChecked
  | inconclusive
deriving DecidableEq

def CheckOutcome.word : CheckOutcome → String
  | established => "established"
  | failed => "failed"
  | notPresent => "not present"
  | notChecked => "not checked"
  | inconclusive => "inconclusive"

structure CheckResult where
  name : Text
  result : CheckOutcome
  detail : Text

/-- `check(bundle, profile_id)` of a policy module. -/
abbrev PolicyModule (L : CountersignLib) := Bundle L → Text → Except Raised (List CheckResult)

def nullPolicyModule : PolicyModule L := fun _ _ => .ok []

def chainConsistency (_ : Bundle L) : CheckResult :=
  ⟨text "chain consistency", .notPresent,
    text "the v2 Evidence Bundle carries a single checkpoint, not a checkpoint history -- nothing to chain"⟩

/-- `detail or fallback`. -/
private def orElse (detail : Text) (fallback : String) : Text := if detail = [] then text fallback else detail

def rangeMembership (b : Bundle L) : Except Raised CheckResult :=
  let name := text "range membership"
  if b.records.isEmpty then .ok ⟨name, .notPresent, text "no records in the bundle"⟩
  else if b.completenessCertificate.isNone || b.checkpoint.isNone then
    .ok ⟨name, .notChecked,
      text "no completeness certificate/checkpoint in the bundle to verify membership against"⟩
  else do
    let membership := (← b.verification).perRecordMembership
    let detail := List.intercalate (text "; ") membership.findings
    if membership.status = text "fail" then
      return ⟨name, .failed, orElse detail "membership verification failed"⟩
    else if membership.status = text "withheld" then
      return ⟨name, .notChecked, orElse detail "completeness evidence withheld"⟩
    else if membership.findings ≠ [] then return ⟨name, .inconclusive, detail⟩
    else return ⟨name, .established, text (toString b.records.length ++
      " record(s) independently verified (CLL #13 range proof + per-record inclusion proof) against the checkpointed interval")⟩

def cadence (_ : Bundle L) : CheckResult :=
  ⟨text "cadence", .notPresent,
    text "the v2 Evidence Bundle declares no period for this check to bound record timestamps against"⟩

def keyHygiene (_ : Bundle L) : CheckResult :=
  ⟨text "key hygiene", .notPresent,
    text "AAC capsule records carry no per-record signer-key field for this check to recompute rotation against"⟩

/-- The `action_type`s of the records, sorted and each once. -/
def actionKinds (b : Bundle L) : List Text :=
  let kinds := b.records.filterMap fun record =>
    match record.get (text "action_type") with
    | some (.str kind) => some kind
    | _ => none
  kinds.dedup.insertionSort (· ≤ ·)

def profileConformance (b : Bundle L) (profileId : Text) (policy : PolicyModule L) : Except Raised CheckResult :=
  let name := text "profile conformance"
  let kinds := actionKinds b
  if kinds.isEmpty then .ok ⟨name, .notPresent, text "no records in the bundle"⟩
  else do
    let covered := (← policy b profileId).map (·.name)
    let missing := kinds.filter fun kind => decide (kind ∉ covered)
    if missing.isEmpty then
      return ⟨name, .established, text "every action_type (" ++ joinComma kinds ++ text ") has a policy-module check"⟩
    else if missing.length = kinds.length then
      return ⟨name, .notChecked, text "no policy module coverage for any action_type present: " ++ joinComma kinds⟩
    else
      return ⟨name, .inconclusive, text "action_type(s) with no policy-module coverage: " ++ joinComma missing⟩

/-! ### The statement -/

structure Statement where
  checks : List CheckResult
  exclusions : List Text
  ledgerId : Text
  closureDepth : Int
  recomputedAt : Datetime

def exclusions : List Text :=
  [text ("capture coverage: not checked by this statement -- a declared-count reconciliation, when present in the " ++
      "bundle, is reported as its own named check and stands on its own, never folded into another check's result"),
    text ("outcome correctness: not checked by this statement -- this recompute verifies structure, sequence, and " ++
      "signatures, never the substance of a judgment")]

/-- `recompute_statement`. -/
def recomputeStatement (b : Bundle L) (policy : PolicyModule L) (ledgerId profileId : Text) (now : Datetime) :
    Except Raised Statement := do
  let membership ← rangeMembership b
  let conformance ← profileConformance b profileId policy
  let extra ← policy b profileId
  return { checks := [chainConsistency b, membership, cadence b, keyHygiene b, conformance] ++ extra
           exclusions, ledgerId, closureDepth := b.closureDepth, recomputedAt := now }

/-- How a UTC time is written in JSON. -/
def Datetime.json (t : Datetime) : String :=
  if t.utcoffset = 0 then String.ofList (t.isoformat.toList.take (t.isoformat.length - 6)) ++ "Z" else t.isoformat

def Statement.wireDict (s : Statement) : Members :=
  [(text "checks", .arr (s.checks.map fun c =>
      .obj [(text "name", .str c.name), (text "result", .str (text c.result.word))])),
    (text "scope", .obj [(text "ledger_id", .str s.ledgerId), (text "closure_depth", .int s.closureDepth)]),
    (text "recomputed_at", .str (text s.recomputedAt.json))]

def Statement.canonicalBytes (L : CountersignLib) (s : Statement) : Except Text Bytes := L.jcs (.obj s.wireDict)

/-! ### Signing -/

def countersignEntryType : Text := text "countersign/v1"

/-- The authority key of an instance: Ed25519, 32 bytes public, 64 bytes a signature. -/
structure Authority (E : Env) where
  publicKey : Bytes
  length_publicKey : publicKey.length = 32
  length_sign : ∀ message, (E.sign message).length = 64

/-- A service with the countersign module; `attested` lists the signing inputs that the authority has signed. -/
structure CountersignNode (b : Backend) where
  store : b.Store
  attested : List Bytes := []

inductive SignError
  | statementRefused (message : Text)
  /-- What `register_signed_statement_full` raises. -/
  | registration (e : Option ServiceError)

/-- `{"id": signer_id, "key_id": signer_key_id}`. -/
def wireSigner (signerId keyId : Text) : JsonValue := .obj [(text "id", .str signerId), (text "key_id", .str keyId)]

/-- What is signed and what is registered, if the statement has a canonical form. -/
def signingStrings (bundle : Bundle L) (statement : Statement) (signer : JsonValue) : Except Text (Bytes × Bytes) := do
  let signingInput ← countersignSigningInput L.jcs bundle.digest signer (.obj statement.wireDict)
    (.str countersignEntryType)
  let statementBytes ← statement.canonicalBytes L
  return (signingInput, statementBytes)

/-- The `receipt` member of an entry. -/
def receiptMember (E : Env) (reg : StatementRegistration) : JsonValue :=
  .obj [(text "receipt_b64", .str (text (b64encode (reg.receipt.toBytes E)))),
    (text "entry_hash", .str (text reg.entryHash.hex)), (text "leaf_index", .int reg.leafIndex),
    (text "tree_size", .int reg.treeSize)]

/-- The entry over a bundle digest. -/
def countersignEntry (digest : Text) (signer statement : JsonValue) (signature : Bytes) (independent : Bool)
    (receipt : JsonValue) : Members :=
  [(text "type", .str countersignEntryType), (text "signer", signer), (text "over", .str digest),
    (text "statement", statement), (text "signature", .str (hexText signature)),
    (text "independent", .bool independent), (text "receipt", receipt)]

/-- `sign_countersignature`. -/
def signCountersignature (E : Env) (cfg : Config) {b : Backend} (now : Nat → Datetime) (authority : Authority E)
    (bundle : Bundle L) (statement : Statement) (signerId requesterKeyId : Text) (node : CountersignNode b) :
    Except SignError Members × CountersignNode b :=
  let signerKeyId := hexText authority.publicKey
  let independent := decide (signerKeyId.lower ≠ requesterKeyId.lower)
  let signer := wireSigner signerId signerKeyId
  match signingStrings bundle statement signer with
  | .error name => (.error (.statementRefused (text "statement cannot be canonicalized (JCS): " ++ name)), node)
  | .ok (signingInput, statementBytes) =>
    let node := { node with attested := node.attested ++ [signingInput] }
    let statementDigest := E.sha256 statementBytes
    let (result, store) := (registerSignedStatementFull E cfg now statementDigest.bytes none none).runRaising
      (b.Raises E) (b.exec E) node.store
    let node := { node with store }
    match result with
    | .error e => (.error (.registration e), node)
    | .ok reg => (.ok (countersignEntry bundle.digest signer (.obj statement.wireDict) (E.sign signingInput) independent
        (receiptMember E reg)), node)

/-! ### Judging -/

inductive EntryState
  | invalid
  | unverified
  | selfCountersigned
  | unresolvedSigner
  | countersigned
deriving DecidableEq

/-- `_ENTRY_RANK`. -/
def EntryState.rank : EntryState → Nat
  | invalid => 0
  | unverified => 1
  | selfCountersigned => 2
  | unresolvedSigner => 3
  | countersigned => 4

/-- The states of a bundle: one of its entries' states, or one of the two for no entries. -/
inductive BundleState
  | entry (state : EntryState)
  | selfAttested
  | witnessed
deriving DecidableEq

/-- `bool(value)`. -/
def JsonValue.truthy : JsonValue → Bool
  | .null => false
  | .bool b => b
  | .int i => decide (i ≠ 0)
  | .float bits => decide (bits ≠ 0 ∧ bits ≠ 0x8000000000000000)
  | .str s => decide (s ≠ [])
  | .arr xs => !xs.isEmpty
  | .obj members => !members.isEmpty

/-- `entry.get("type") or COUNTERSIGN_ENTRY_TYPE`. -/
def entryTypeOf (members : Members) : JsonValue :=
  match members.get (text "type") with
  | some entryType => if entryType.truthy then entryType else .str countersignEntryType
  | none => .str countersignEntryType

/-- The entry is of a type that is verified: none, an empty one or `countersign/v1`. -/
def verifiedType (members : Members) : Bool :=
  match members.get (text "type") with
  | none | some .null => true
  | some (.str entryType) => decide (entryType = [] ∨ entryType = countersignEntryType)
  | some _ => false

/-- `entry["signer"]["key_id"]`, when the signer is an object and the key id a string. -/
def signerKeyId (members : Members) : Option Text :=
  match members.get (text "signer") with
  | some (.obj signer) =>
    match Members.get signer (text "key_id") with
    | some (.str keyId) => some keyId
    | _ => none
  | _ => none

/-- `_signature_valid`. -/
def signatureValid (L : CountersignLib) (members : Members) (digest : Text) : Bool :=
  match signerKeyId members, members.get (text "signature") with
  | some keyId, some (.str signature) =>
    if ¬ keyId.isHex 64 then false
    else if ¬ signature.isHex 128 then false
    else match members.get (text "over"), members.get (text "statement"), members.get (text "signer") with
      | some (.str over'), some statement, some signer =>
        if over' ≠ digest then false
        else match countersignSigningInput L.jcs over' signer statement (entryTypeOf members), keyId.fromHex,
            signature.fromHex with
          | .ok message, some key, some sig => L.ed25519Verify key sig message
          | _, _, _ => false
      | _, _, _ => false
  | _, _ => false

/-- The state of an entry that is an object, against the digest of the bundle. -/
def entryState (L : CountersignLib) (digest : Text) (producerKeyIds : List Text) (directory : Option Members)
    (members : Members) : EntryState :=
  if ¬ verifiedType members then .unverified
  else if ¬ signatureValid L members digest then .invalid
  else match signerKeyId members with
    | none => .invalid
    | some keyId =>
      if keyId ∈ producerKeyIds.map Text.lower then .selfCountersigned
      else if keyId ∉ (directory.getD []).map (fun row => row.1.lower) then .unresolvedSigner
      else .countersigned

/-- `verify_entry`. -/
def verifyEntry (bundle : Bundle L) (entry : JsonValue) (producerKeyIds : List Text) (directory : Option Members) :
    Except Raised EntryState :=
  match entry with
  | .obj members =>
    if ¬ verifiedType members then .ok .unverified
    else do return entryState L (← computeBundleDigest bundle) producerKeyIds directory members
  | _ => .ok .invalid

/-- `_witnessed`. -/
def witnessed (bundle : Bundle L) : Except Raised Bool := do
  let interval := (← bundle.verification).intervalCoverage
  return decide (interval.status = text "pass" ∧ text "checkpoint_unverified" ∉ interval.findings)

/-- `max(states, key=rank)`: the first of the best. -/
def best : EntryState → List EntryState → EntryState
  | state, [] => state
  | state, next :: states => best (if state.rank < next.rank then next else state) states

/-- `resolve_entry_state`. -/
def resolveEntryState (bundle : Bundle L) (countersignatures : List JsonValue) (producerKeyIds : List Text)
    (directory : Option Members) : Except Raised BundleState :=
  match countersignatures with
  | [] => do return if (← witnessed bundle) then .witnessed else .selfAttested
  | entry :: entries => do
    let state ← verifyEntry bundle entry producerKeyIds directory
    let states ← entries.mapM fun entry => verifyEntry bundle entry producerKeyIds directory
    return .entry (best state states)

end CapsuleAnchor
