import CapsuleAnchor.CheckpointWire

/-!
# Conformance checks of a checkpoint (`cross_witness_conformance/checker.py`)

A third party checks a checkpoint that it was handed: its wire form against the allowlist, the receipt that the witness holds
for it, and that it continues the checkpoint before it.  Every check returns a report; `none` is an exception that the check
does not catch.

The tie-back fetches the receipt for the digest of the checkpoint, but verifies it for the `entry_hash` of the answer.
`tie_back_sound_iff`: what passes proves the checkpoint exactly when the witness does not name another entry that its receipt
proves.
-/

namespace CapsuleAnchor

/-! ### Reports -/

inductive Conformance.CheckStatus
  | pass
  | fail
  | unknown
deriving DecidableEq

structure Conformance.CheckResult where
  name : String
  status : Conformance.CheckStatus
  detail : String
deriving DecidableEq

structure ConformanceReport where
  checks : List Conformance.CheckResult
  claims : Option Checkpoint

namespace ConformanceReport

def add (report : ConformanceReport) (name : String) (status : Conformance.CheckStatus) (detail : String) : ConformanceReport :=
  { report with checks := report.checks ++ [⟨name, status, detail⟩] }

def merge (report other : ConformanceReport) : ConformanceReport := { report with checks := report.checks ++ other.checks }

def hasFailure (report : ConformanceReport) : Bool := report.checks.any fun c => c.status = .fail

/-- The check with this name passed. -/
def Passed (report : ConformanceReport) (name : String) : Prop := ∃ c ∈ report.checks, c.name = name ∧ c.status = .pass

end ConformanceReport

/-- A report of one check. -/
private def only (name : String) (status : Conformance.CheckStatus) (detail : String) : ConformanceReport := ⟨[⟨name, status, detail⟩], none⟩

/-! ### What the checks call -/

/-- An HTTP response; `json` is `none` when `.json()` raises. -/
structure Response where
  statusCode : Nat
  json : Option Json

/-- The witness as the checks see it: a path to a response, `none` when the request raises. -/
abbrev Getter := String → Option Response

/-- `scitt_cose.receipt.verify_receipt`; `root` and `treeSize` as the messages write them. -/
structure ReceiptVerification where
  ok : Bool
  root : String
  treeSize : String
  errors : List String

structure Verifier where
  /-- `Ed25519PublicKey.from_public_bytes(b).public_bytes(PEM, SubjectPublicKeyInfo)`. -/
  publicKeyPem : Bytes → Option Bytes
  b64decode : String → Option Bytes
  /-- The receipt, `leaf_entry_hex` and the key. -/
  verifyReceipt : Bytes → Json → Bytes → Option ReceiptVerification

variable (E : Env) (texts : Texts) (W : Wire) (V : Verifier)

/-- `v[key]`. -/
def item (v : Json) (key : String) : Option Json :=
  match v with
  | .obj kvs => Json.get kvs key
  | _ => none

/-- `v`, where the caller needs a string. -/
def pyStr : Json → Option String
  | .str s => some s
  | _ => none

/-- How an f-string writes `v`. -/
def formatted : Json → String
  | .str s => s
  | v => texts.reprJson v

/-! ### The wire -/

/-- The COSE form, unless `expected_log_id` declares the JSON form. -/
def declaredJson (allowlist : SubmitterAllowlist) (expectedLogId : String) : Bool :=
  match allowlist.get expectedLogId with
  | none => false
  | some entry =>
    match entry.wireForm with
    | .coseSign1 => false
    | .jsonEd25519 _ => true

/-- The checkpoint of the declared wire form. -/
def parseDeclared (allowlist : SubmitterAllowlist) (expectedLogId : String) (checkpointBytes : Bytes) :
    Except WireError Checkpoint :=
  if declaredJson allowlist expectedLogId then parseAndVerifyCheckpointJson E texts W checkpointBytes allowlist
  else parseAndVerifyCheckpointCose E texts W checkpointBytes (some allowlist)

private def wireChecks (json : Bool) (cp : Checkpoint) (mmrSize prevSize : String) : List Conformance.CheckResult :=
  if json then
    [⟨"wire_structure", .pass, "json-ed25519 CheckpointRecord; kind=" ++ E.repr cp.kind ++ "; log_size=" ++ mmrSize ++
        "; prev_size=" ++ prevSize⟩,
      ⟨"signature_verified", .pass, "Ed25519 signature verifies under its pinned enrolled key (key_id=" ++ cp.keyId ++ ")"⟩,
      ⟨"sub_pattern", .pass, "json-ed25519 form: log_id and mmr_size are direct fields in the signed " ++
        "body (no separate CWT subject to bind, unlike the cose form)"⟩]
  else
    [⟨"wire_structure", .pass, "content-type application/cll-checkpoint+cbor; kind=" ++ E.repr cp.kind ++ "; log_size=" ++
        mmrSize ++ "; prev_size=" ++ prevSize⟩,
      ⟨"signature_verified", .pass, "COSE_Sign1 verifies under " ++
        (if cp.grade.isSome then "its pinned enrolled key" else "its own self-asserted kid") ++
        " (key_id=" ++ cp.keyId ++ ")"⟩,
      ⟨"sub_pattern", .pass, "sub == '" ++ cp.logId ++ "#" ++ mmrSize ++ "'"⟩]

private def enrolledLogId (cp : Checkpoint) (expectedLogId : String) : Conformance.CheckResult :=
  if cp.logId = expectedLogId then ⟨"enrolled_log_id", .pass, "iss == " ++ E.repr expectedLogId⟩
  else ⟨"enrolled_log_id", .fail, "iss == " ++ E.repr cp.logId ++ ", expected " ++ E.repr expectedLogId⟩

private def countersignGrade (cp : Checkpoint) (expectedGrade : Option String) : Conformance.CheckResult :=
  match expectedGrade with
  | none => ⟨"countersign_grade", .unknown, "no expected grade configured for this check"⟩
  | some expected =>
    let shown := (cp.grade.map E.repr).getD "None"
    if cp.grade = some expected then ⟨"countersign_grade", .pass, "grade=" ++ shown⟩
    else ⟨"countersign_grade", .fail, "grade=" ++ shown ++ ", expected " ++ E.repr expected ++
      " -- a foreign accumulator must never be presented as mmr-verified (and grade=None means " ++ E.repr cp.logId ++
      " isn't resolving against the allowlist at all)"⟩

def checkCheckpointWire (allowlist : SubmitterAllowlist) (expectedLogId : String) (expectedGrade : Option String)
    (checkpointBytes : Bytes) : Option ConformanceReport :=
  let json := declaredJson allowlist expectedLogId
  let form := if json then "json-ed25519" else "cose"
  match parseDeclared E texts W allowlist expectedLogId checkpointBytes with
  | .error (.notACheckpointError message) =>
    some (only "wire_structure" .fail ("not a well-formed CLL checkpoint (" ++ form ++ " form): " ++ message))
  | .error (.checkpointSignatureError message) =>
    some ((only "wire_structure" .pass (form ++ " form: content-type/claim set well-formed")).add "signature_verified" .fail
      message)
  | .error .uncaught => none
  | .ok cp =>
    match decimal cp.mmrSize, decimal cp.prevSize with
    | .ok mmrSize, .ok prevSize =>
      some ⟨wireChecks E json cp mmrSize prevSize ++ [enrolledLogId E cp expectedLogId, countersignGrade E cp expectedGrade],
        some cp⟩
    | _, _ => none

/-! ### The tie-back -/

/-- What the witness answers: the body of a 200, or another status. -/
def answer (get : Getter) (path : String) : Option (Except Nat Json) := do
  let resp ← get path
  if resp.statusCode = 200 then return .ok (← resp.json) else return .error resp.statusCode

def inclusionPath (cp : Checkpoint) : String := "/v1/inclusion/" ++ (checkpointDigest E cp).hex

/-- The key of the witness, as `verify_receipt` takes it. -/
def authorityPem (body : Json) : Option Bytes := do
  let pubkeyHex ← pyStr (← item body "pubkey_hex")
  let pubkey ← fromHex pubkeyHex.toList
  V.publicKeyPem pubkey

def receiptBytes (body : Json) : Option Bytes := do
  let receiptB64 ← pyStr (← item body "receipt_b64")
  V.b64decode receiptB64

private def offlineVerify (body : Json) (pem : Bytes) : Option Conformance.CheckResult := do
  let receipt ← receiptBytes V body
  let entryHash ← item body "entry_hash"
  let result ← V.verifyReceipt receipt entryHash pem
  if result.ok then
    return ⟨"receipt_offline_verify", .pass, "COSE Receipt verifies offline against the witness authority key (root=" ++
      result.root ++ ", tree_size=" ++ result.treeSize ++ ")"⟩
  else
    let errors := String.intercalate "; " result.errors
    return ⟨"receipt_offline_verify", .fail, if errors = "" then "receipt did not verify" else errors⟩

def checkWitnessTieBack (cp : Checkpoint) (get : Getter) : Option ConformanceReport := do
  let capsuleId := (checkpointDigest E cp).hex
  match ← answer get (inclusionPath E cp) with
  | .error status =>
    if status = 404 then
      return only "witness_registered" .fail ("capsule_id " ++ capsuleId ++
        " (this checkpoint's digest) not found on the witness (404)")
    else
      return only "witness_registered" .fail ("unexpected status " ++ toString status ++ " from GET /v1/inclusion/" ++ capsuleId)
  | .ok body =>
    let leafIndex ← item body "leaf_index"
    let treeSize ← item body "tree_size"
    let report := only "witness_registered" .pass ("leaf_index=" ++ formatted texts leafIndex ++ " tree_size=" ++
      formatted texts treeSize)
    match ← answer get "/anchor/authority-pubkey" with
    | .error status =>
      return report.add "receipt_offline_verify" .fail ("could not fetch the witness authority pubkey (" ++
        toString status ++ ")")
    | .ok pub =>
      let pem ← authorityPem V pub
      let verified ← offlineVerify V body pem
      return { report with checks := report.checks ++ [verified] }

/-! ### Continuity -/

/-- A claim in the dict that a parser returns; a `ConsistencyProof` is an object. -/
inductive ClaimValue
  | scalar (v : Scalar)
  | proof (p : MmrConsistencyProof)
deriving DecidableEq

def prevRootText (cp : Checkpoint) : String := (cp.prevRoot.map Digest.hex).getD ""

/-- The dict that a parser returns. -/
def claimsDict (cp : Checkpoint) : List (String × ClaimValue) :=
  [("v", .scalar (.int cp.v)), ("kind", .scalar (.str cp.kind)), ("log_id", .scalar (.str cp.logId)),
    ("mmr_size", .scalar (.int cp.mmrSize)), ("root", .scalar (.str cp.root.hex)),
    ("prev_size", .scalar (.int cp.prevSize)), ("prev_root", .scalar (.str (prevRootText cp))),
    ("key_id", .scalar (.str cp.keyId)), ("timestamp", .scalar (.str cp.timestamp)),
    ("grade", .scalar (.optStr cp.grade))] ++
  match cp.consistencyProof with
  | none => []
  | some none => [("consistency_proof", .scalar .null)]
  | some (some proof) => [("consistency_proof", .proof proof)]

def reprScalar : Scalar → String
  | .str s => E.repr s
  | .int i => toString i
  | .null => "None"

/-- The claims of the first checkpoint, and the second checkpoint. -/
def checkChainContinuity (first : List (String × Scalar)) (second : Checkpoint) : Option ConformanceReport := do
  let logId ← first.lookup "log_id"
  if logId ≠ .str second.logId then
    return only "chain_continuity" .fail ("log_id mismatch (" ++ reprScalar E logId ++ " vs " ++ E.repr second.logId ++
      ") -- not the same log")
  let firstSize ← first.lookup "mmr_size"
  let firstRoot ← first.lookup "root"
  let prevSizeOk := decide (Scalar.int second.prevSize = firstSize)
  let prevRootOk := decide (Scalar.str (prevRootText second) = firstRoot)
  let grew ← match firstSize with
    | .int size => some (decide (size < second.mmrSize))
    | _ => none
  if prevSizeOk && prevRootOk && grew then
    return only "chain_continuity" .pass ("second.prev_size (" ++ toString second.prevSize ++ ") == first.log_size (" ++
      reprScalar E firstSize ++ "), second's derived prev_root matches first's derived root, and log_size grew " ++
      "-- one continuous chain")
  let shown := fun (ok : Bool) => if ok then "match" else "MISMATCH"
  let detail := "second.prev_size=" ++ toString second.prevSize ++ " vs first.log_size=" ++ reprScalar E firstSize ++ " (" ++
    shown prevSizeOk ++ "); second.prev_root=" ++ E.repr (prevRootText second) ++ " vs first.root=" ++
    reprScalar E firstRoot ++ " (" ++ shown prevRootOk ++ ")"
  let fresh := if second.prevSize = 0 ∧ firstSize ≠ .int 0 then
    " -- matches the reported ephemeral-runner-state regression: a FRESH chain was started (prev_size=0) " ++
      "instead of continuing from the first checkpoint" else ""
  let stuck := if grew then "" else "; also log_size did not increase (" ++ toString second.mmrSize ++ " vs " ++
    reprScalar E firstSize ++ ")"
  return only "chain_continuity" .fail (detail ++ fresh ++ stuck)

/-! ### What passes -/

/-- The witness answers for the checkpoint with this `entry_hash`, this receipt and this key. -/
structure Served (get : Getter) (cp : Checkpoint) (entryHash : Json) (receipt pem : Bytes) : Prop where
  inclusion : ∃ body, answer get (inclusionPath E cp) = some (.ok body) ∧ (item body "leaf_index").isSome ∧
    (item body "tree_size").isSome ∧ item body "entry_hash" = some entryHash ∧ receiptBytes V body = some receipt
  authority : ∃ pub, answer get "/anchor/authority-pubkey" = some (.ok pub) ∧ authorityPem V pub = some pem

/-- How the tie-back ends when it returns. -/
inductive TieBackEnds (get : Getter) (cp : Checkpoint) : ConformanceReport → Prop
  | absent {status : Nat} (detail : String) (hstatus : answer get (inclusionPath E cp) = some (.error status)) :
    TieBackEnds get cp ⟨[⟨"witness_registered", .fail, detail⟩], none⟩
  | noKey {body : Json} {status : Nat} (detail detail' : String) (hbody : answer get (inclusionPath E cp) = some (.ok body))
    (hleaf : (item body "leaf_index").isSome) (hsize : (item body "tree_size").isSome)
    (hstatus : answer get "/anchor/authority-pubkey" = some (.error status)) :
    TieBackEnds get cp ⟨[⟨"witness_registered", .pass, detail⟩, ⟨"receipt_offline_verify", .fail, detail'⟩], none⟩
  | checked {entryHash : Json} {receipt pem : Bytes} {result : ReceiptVerification} (detail detail' : String)
    (hserved : Served E V get cp entryHash receipt pem) (hresult : V.verifyReceipt receipt entryHash pem = some result) :
    TieBackEnds get cp ⟨[⟨"witness_registered", .pass, detail⟩,
      ⟨"receipt_offline_verify", if result.ok then .pass else .fail, detail'⟩], none⟩

/-- The entry that a `leaf_entry_hex` names. -/
def leafEntry (v : Json) : Option Bytes := (pyStr v).bind fun s => fromHex s.toList

/-- The entry of the checkpoint. -/
def checkpointEntry (cp : Checkpoint) : Digest := E.sha256 (checkpointDigest E cp).bytes

/-- `verify_receipt` accepts the receipts that prove the entry it is given. -/
def VerifiesLeaf (Proves : Bytes → Bytes → Bytes → Prop) : Prop := ∀ receipt leaf pem,
  (∃ result, V.verifyReceipt receipt leaf pem = some result ∧ result.ok = true) ↔
    ∃ entry, leafEntry leaf = some entry ∧ Proves receipt entry pem

/-- What passes the tie-back proves the entry of the checkpoint. -/
def TieBackSound (Proves : Bytes → Bytes → Bytes → Prop) (get : Getter) (cp : Checkpoint) : Prop :=
  ∀ report, checkWitnessTieBack E texts V cp get = some report → report.Passed "receipt_offline_verify" →
    ∃ entryHash receipt pem, Served E V get cp entryHash receipt pem ∧ Proves receipt (checkpointEntry E cp).bytes pem

/-- The witness names another entry, which its receipt proves. -/
def NamesOther (Proves : Bytes → Bytes → Bytes → Prop) (get : Getter) (cp : Checkpoint) : Prop :=
  ∃ entryHash receipt pem entry, Served E V get cp entryHash receipt pem ∧ leafEntry entryHash = some entry ∧
    entry ≠ (checkpointEntry E cp).bytes ∧ Proves receipt entry pem

variable {E texts W V}

/-! ### The ends of the checks -/

theorem hasFailure_merge (report other : ConformanceReport) :
    (report.merge other).hasFailure = (report.hasFailure || other.hasFailure) := List.any_append

theorem length_toString_mono {m n : Nat} (h : m ≤ n) : (toString m).length ≤ (toString n).length := by
  have hn : n < 10 ^ (toString n).length := (Nat.length_repr_le_iff Nat.length_repr_pos).1 (Nat.le_refl _)
  exact (Nat.length_repr_le_iff Nat.length_repr_pos).2 (lt_of_le_of_lt h hn)

private theorem decimal_of_le {n : Nat} (h : (toString n).length ≤ 4300) : decimal n = .ok (toString n) := if_pos h

theorem decimal_of_accepted (hdigits : JsonDigits W) {allowlist : SubmitterAllowlist} {expectedLogId : String}
    {checkpointBytes : Bytes} {cp : Checkpoint}
    (h : parseDeclared E texts W allowlist expectedLogId checkpointBytes = .ok cp) : cp.Decimal := by
  unfold parseDeclared at h
  split at h
  · exact decimal_of_json hdigits h
  · exact decimal_of_cose h

/-- An accepted checkpoint is reported, and fails by its identity or by its grade. -/
theorem wire_of_accepted (hdigits : JsonDigits W) {allowlist : SubmitterAllowlist} {expectedLogId : String}
    (expectedGrade : Option String) {checkpointBytes : Bytes} {cp : Checkpoint}
    (h : parseDeclared E texts W allowlist expectedLogId checkpointBytes = .ok cp) :
    ∃ report, checkCheckpointWire E texts W allowlist expectedLogId expectedGrade checkpointBytes = some report ∧
      report.claims = some cp ∧
      (report.hasFailure = false ↔ cp.logId = expectedLogId ∧ ∀ grade, expectedGrade = some grade → cp.grade = some grade) := by
  have hdecimal := decimal_of_accepted hdigits h
  have hprev : (toString cp.prevSize).length ≤ 4300 :=
    le_trans (length_toString_mono (Nat.le_of_lt cp.prevSize_lt)) hdecimal.mmrSize
  have hwire : ∀ json mmrSize prevSize, (wireChecks E json cp mmrSize prevSize).any (fun c => c.status = .fail) = false := by
    intro json mmrSize prevSize
    cases json <;> rfl
  have hlog : (enrolledLogId E cp expectedLogId).status = .fail ↔ cp.logId ≠ expectedLogId := by
    unfold enrolledLogId
    split
    · rename_i heq
      exact iff_of_false nofun (not_not.2 heq)
    · rename_i hne
      exact iff_of_true rfl hne
  have hgrade : (countersignGrade E cp expectedGrade).status = .fail ↔ ¬ ∀ grade, expectedGrade = some grade → cp.grade = some grade := by
    unfold countersignGrade
    cases expectedGrade with
    | none => exact iff_of_false nofun (by simp)
    | some expected =>
      simp only
      split
      · rename_i heq
        exact iff_of_false nofun (by simp [heq])
      · rename_i hne
        exact iff_of_true rfl (by simpa using hne)
  refine ⟨⟨wireChecks E (declaredJson allowlist expectedLogId) cp (toString cp.mmrSize) (toString cp.prevSize) ++
    [enrolledLogId E cp expectedLogId, countersignGrade E cp expectedGrade], some cp⟩, ?_, rfl, ?_⟩
  · simp only [checkCheckpointWire, h, decimal_of_le hdecimal.mmrSize, decimal_of_le hprev]
  · simp only [ConformanceReport.hasFailure, List.any_append, hwire, Bool.false_or, List.any_cons, List.any_nil,
      Bool.or_false, Bool.or_eq_false_iff, decide_eq_false_iff_not, hlog, hgrade, not_not]

private theorem Served.unique {get : Getter} {cp : Checkpoint} {entryHash entryHash' : Json} {receipt receipt' pem pem' : Bytes}
    (h : Served E V get cp entryHash receipt pem) (h' : Served E V get cp entryHash' receipt' pem') :
    entryHash' = entryHash ∧ receipt' = receipt ∧ pem' = pem := by
  obtain ⟨⟨body, hbody, -, -, hentry, hreceipt⟩, ⟨pub, hpub, hpem⟩⟩ := h
  obtain ⟨⟨body', hbody', -, -, hentry', hreceipt'⟩, ⟨pub', hpub', hpem'⟩⟩ := h'
  obtain rfl := Except.ok.inj (Option.some.inj (hbody.symm.trans hbody'))
  obtain rfl := Except.ok.inj (Option.some.inj (hpub.symm.trans hpub'))
  exact ⟨Option.some.inj (hentry'.symm.trans hentry), Option.some.inj (hreceipt'.symm.trans hreceipt),
    Option.some.inj (hpem'.symm.trans hpem)⟩

private theorem offlineVerify_some {body : Json} {pem : Bytes} {check : Conformance.CheckResult}
    (h : offlineVerify V body pem = some check) : ∃ receipt entryHash result detail, receiptBytes V body = some receipt ∧
      item body "entry_hash" = some entryHash ∧ V.verifyReceipt receipt entryHash pem = some result ∧
      check = ⟨"receipt_offline_verify", if result.ok then .pass else .fail, detail⟩ := by
  unfold offlineVerify at h
  simp only [Option.bind_eq_bind, Option.bind_eq_some_iff] at h
  obtain ⟨receipt, hreceipt, entryHash, hentry, result, hresult, h⟩ := h
  by_cases hok : result.ok = true
  · rw [if_pos hok] at h
    exact ⟨receipt, entryHash, result, _, hreceipt, hentry, hresult, by rw [if_pos hok]; exact (Option.some.inj h).symm⟩
  · rw [if_neg hok] at h
    exact ⟨receipt, entryHash, result, _, hreceipt, hentry, hresult, by rw [if_neg hok]; exact (Option.some.inj h).symm⟩

theorem tieBackEnds {get : Getter} {cp : Checkpoint} {report : ConformanceReport}
    (h : checkWitnessTieBack E texts V cp get = some report) : TieBackEnds E V get cp report := by
  unfold checkWitnessTieBack at h
  simp only [Option.bind_eq_bind, Option.bind_eq_some_iff] at h
  obtain ⟨first, hfirst, h⟩ := h
  cases first with
  | error status =>
    simp only at h
    split at h
    all_goals
      obtain rfl := Option.some.inj h
      exact .absent _ hfirst
  | ok body =>
    simp only [Option.bind_eq_some_iff] at h
    obtain ⟨leafIndex, hleaf, treeSize, hsize, second, hsecond, h⟩ := h
    have hleaf : (item body "leaf_index").isSome := by rw [hleaf]; rfl
    have hsize : (item body "tree_size").isSome := by rw [hsize]; rfl
    cases second with
    | error status =>
      obtain rfl := Option.some.inj h
      exact .noKey _ _ hfirst hleaf hsize hsecond
    | ok pub =>
      simp only [Option.bind_eq_some_iff] at h
      obtain ⟨pem, hpem, verified, hverified, h⟩ := h
      obtain rfl := Option.some.inj h
      obtain ⟨receipt, entryHash, result, detail, hreceipt, hentry, hresult, rfl⟩ := offlineVerify_some hverified
      exact .checked _ detail ⟨⟨body, hfirst, hleaf, hsize, hentry, hreceipt⟩, ⟨pub, hsecond, hpem⟩⟩ hresult

/-- The tie-back returns when the witness has nothing, when it serves no key, and when the receipt can be checked. -/
theorem tieBack_returns {get : Getter} {cp : Checkpoint} {report : ConformanceReport} (h : TieBackEnds E V get cp report) :
    (checkWitnessTieBack E texts V cp get).isSome := by
  cases h with
  | absent detail hstatus =>
    simp only [checkWitnessTieBack, hstatus, Option.bind_eq_bind, Option.bind_some]
    split <;> rfl
  | noKey detail detail' hbody hleaf hsize hstatus =>
    obtain ⟨leafIndex, hleaf⟩ := Option.isSome_iff_exists.1 hleaf
    obtain ⟨treeSize, hsize⟩ := Option.isSome_iff_exists.1 hsize
    simp only [checkWitnessTieBack, hbody, hleaf, hsize, hstatus, Option.bind_eq_bind, Option.bind_some]
    rfl
  | @checked entryHash receipt pem result detail detail' hserved hresult =>
    obtain ⟨⟨body, hbody, hleaf, hsize, hentry, hreceipt⟩, ⟨pub, hpub, hpem⟩⟩ := hserved
    obtain ⟨leafIndex, hleaf⟩ := Option.isSome_iff_exists.1 hleaf
    obtain ⟨treeSize, hsize⟩ := Option.isSome_iff_exists.1 hsize
    have hverified : (offlineVerify V body pem).isSome := by
      simp only [offlineVerify, hreceipt, hentry, hresult, Option.bind_eq_bind, Option.bind_some]
      split <;> rfl
    obtain ⟨verified, hverified⟩ := Option.isSome_iff_exists.1 hverified
    simp only [checkWitnessTieBack, hbody, hleaf, hsize, hpub, hpem, hverified, Option.bind_eq_bind, Option.bind_some]
    rfl

/-- The tie-back passes exactly when the receipt verifies for the entry that the witness names. -/
theorem TieBackEnds.passed_iff {get : Getter} {cp : Checkpoint} {report : ConformanceReport}
    (h : TieBackEnds E V get cp report) : report.Passed "receipt_offline_verify" ↔
      ∃ entryHash receipt pem result, Served E V get cp entryHash receipt pem ∧
        V.verifyReceipt receipt entryHash pem = some result ∧ result.ok = true := by
  have hother : "witness_registered" ≠ "receipt_offline_verify" := by decide
  constructor
  · rintro ⟨check, hcheck, hname, hpass⟩
    cases h with
    | absent detail hstatus =>
      obtain rfl := List.mem_singleton.1 hcheck
      exact absurd hname hother
    | noKey detail detail' hbody hleaf hsize hstatus =>
      rcases List.mem_pair.1 hcheck with rfl | rfl
      · exact absurd hname hother
      · cases hpass
    | @checked entryHash receipt pem result detail detail' hserved hresult =>
      rcases List.mem_pair.1 hcheck with rfl | rfl
      · exact absurd hname hother
      · by_cases hok : result.ok = true
        · exact ⟨entryHash, receipt, pem, result, hserved, hresult, hok⟩
        · simp only [if_neg hok] at hpass
          cases hpass
  · rintro ⟨entryHash, receipt, pem, result, hserved, hresult, hok⟩
    cases h with
    | absent detail hstatus =>
      obtain ⟨⟨body, hbody, -⟩, -⟩ := hserved
      cases hbody.symm.trans hstatus
    | noKey detail detail' hbody hleaf hsize hstatus =>
      obtain ⟨-, ⟨pub, hpub, -⟩⟩ := hserved
      cases hpub.symm.trans hstatus
    | checked detail detail' hserved' hresult' =>
      obtain ⟨rfl, rfl, rfl⟩ := hserved.unique hserved'
      obtain rfl := Option.some.inj (hresult.symm.trans hresult')
      exact ⟨_, List.mem_pair.2 (.inr rfl), rfl, if_pos hok⟩

/-- Nothing of the tie-back failed exactly when it passed. -/
theorem TieBackEnds.no_failure_iff {get : Getter} {cp : Checkpoint} {report : ConformanceReport}
    (h : TieBackEnds E V get cp report) : report.hasFailure = false ↔ report.Passed "receipt_offline_verify" := by
  have hother : "witness_registered" ≠ "receipt_offline_verify" := by decide
  cases h with
  | absent detail hstatus =>
    refine iff_of_false nofun ?_
    rintro ⟨check, hcheck, hname, -⟩
    obtain rfl := List.mem_singleton.1 hcheck
    exact hother hname
  | noKey detail detail' hbody hleaf hsize hstatus =>
    refine iff_of_false nofun ?_
    rintro ⟨check, hcheck, hname, hpass⟩
    rcases List.mem_pair.1 hcheck with rfl | rfl
    · exact hother hname
    · cases hpass
  | @checked entryHash receipt pem result detail detail' hserved hresult =>
    by_cases hok : result.ok = true
    · refine iff_of_true ?_ ⟨_, List.mem_pair.2 (.inr rfl), rfl, if_pos hok⟩
      simp [ConformanceReport.hasFailure, hok]
    · refine iff_of_false ?_ ?_
      · simp [ConformanceReport.hasFailure, hok]
      · rintro ⟨check, hcheck, hname, hpass⟩
        rcases List.mem_pair.1 hcheck with rfl | rfl
        · exact hother hname
        · simp only [if_neg hok] at hpass
          cases hpass

private theorem sound_iff {Proves : Bytes → Bytes → Bytes → Prop} (hverifies : VerifiesLeaf V Proves)
    (hone : ∀ receipt pem entry entry', Proves receipt entry pem → Proves receipt entry' pem → entry = entry')
    (cp : Checkpoint) (get : Getter) : TieBackSound E texts V Proves get cp ↔ ¬ NamesOther E V Proves get cp := by
  constructor
  · rintro hsound ⟨entryHash, receipt, pem, entry, hserved, hleaf, hother, hproves⟩
    obtain ⟨result, hresult, hok⟩ := (hverifies receipt entryHash pem).2 ⟨entry, hleaf, hproves⟩
    have hends : TieBackEnds E V get cp _ := .checked "" "" hserved hresult
    obtain ⟨report, hreport⟩ : ∃ report, checkWitnessTieBack E texts V cp get = some report :=
      Option.isSome_iff_exists.1 (tieBack_returns hends)
    have hpassed := (tieBackEnds hreport).passed_iff.2 ⟨entryHash, receipt, pem, result, hserved, hresult, hok⟩
    obtain ⟨entryHash', receipt', pem', hserved', hproves'⟩ := hsound report hreport hpassed
    obtain ⟨rfl, rfl, rfl⟩ := hserved.unique hserved'
    exact hother (hone _ _ _ _ hproves hproves')
  · intro hown report hreport hpassed
    obtain ⟨entryHash, receipt, pem, result, hserved, hresult, hok⟩ := (tieBackEnds hreport).passed_iff.1 hpassed
    obtain ⟨entry, hleaf, hproves⟩ := (hverifies receipt entryHash pem).1 ⟨result, hresult, hok⟩
    refine ⟨entryHash, receipt, pem, hserved, ?_⟩
    by_cases hentry : entry = (checkpointEntry E cp).bytes
    · rwa [← hentry]
    · exact absurd ⟨entryHash, receipt, pem, entry, hserved, hleaf, hentry, hproves⟩ hown

theorem leafEntry_hex (d : Digest) : leafEntry (.str d.hex) = some d.bytes := fromHex_bytesHex d.bytes

/-- A witness that names the entry of the checkpoint names no other. -/
theorem not_namesOther {Proves : Bytes → Bytes → Bytes → Prop} {get : Getter} {cp : Checkpoint}
    (hown : ∀ entryHash receipt pem, Served E V get cp entryHash receipt pem →
      entryHash = .str (checkpointEntry E cp).hex) : ¬ NamesOther E V Proves get cp := by
  rintro ⟨entryHash, receipt, pem, entry, hserved, hleaf, hother, -⟩
  rw [hown _ _ _ hserved, leafEntry_hex] at hleaf
  exact hother (Option.some.inj hleaf).symm

/-- For every checkpoint and every witness, what passes proves the checkpoint exactly when the witness does not name another
entry that its receipt proves. -/
theorem tie_back_sound_iff {Proves : Bytes → Bytes → Bytes → Prop} (hverifies : VerifiesLeaf V Proves)
    (hone : ∀ receipt pem entry entry', Proves receipt entry pem → Proves receipt entry' pem → entry = entry')
    (cp : Checkpoint) (get : Getter) : TieBackSound E texts V Proves get cp ↔ ¬ NamesOther E V Proves get cp :=
  sound_iff hverifies hone cp get

/-! ### A witness of one entry -/

def refKey : Bytes := List.replicate 32 7

def refPem : Bytes := ascii "-----BEGIN PUBLIC KEY-----" ++ refKey

/-- The receipt verifies for `entry`, and nothing else does. -/
def refVerifier (entry : Digest) (receipt : Bytes) (receiptB64 : String) : Verifier where
  publicKeyPem b := if b = refKey then some refPem else none
  b64decode s := if s = receiptB64 then some receipt else none
  verifyReceipt receipt' leaf pem :=
    some ⟨decide (receipt' = receipt ∧ leafEntry leaf = some entry.bytes ∧ pem = refPem), "", "1", []⟩

def refWitness (entry : Digest) (receiptB64 : String) : Getter := fun path =>
  if path = "/anchor/authority-pubkey" then some ⟨200, some (.obj [("pubkey_hex", .str (bytesHex refKey))])⟩
  else some ⟨200, some (.obj [("entry_hash", .str entry.hex), ("leaf_index", .int 0), ("tree_size", .int 1),
    ("receipt_b64", .str receiptB64)])⟩

private theorem inclusionPath_ne (cp : Checkpoint) : inclusionPath E cp ≠ "/anchor/authority-pubkey" := by
  intro h
  have hchars := congrArg String.toList h
  rw [inclusionPath, String.toList_append] at hchars
  exact absurd (List.cons.inj (List.cons.inj hchars).2).1 (by decide)

section Ref

variable (entry : Digest) (receipt : Bytes) (receiptB64 : String)

theorem verifyReceipt_refVerifier : (refVerifier entry receipt receiptB64).verifyReceipt receipt (.str entry.hex) refPem =
    some ⟨true, "", "1", []⟩ := by
  simp [refVerifier, leafEntry_hex]

variable (E) in
theorem refWitness_served (cp : Checkpoint) : Served E (refVerifier entry receipt receiptB64) (refWitness entry receiptB64) cp
    (.str entry.hex) receipt refPem := by
  have hbody : answer (refWitness entry receiptB64) (inclusionPath E cp) = some (.ok (.obj [("entry_hash", .str entry.hex),
      ("leaf_index", .int 0), ("tree_size", .int 1), ("receipt_b64", .str receiptB64)])) := by
    rw [answer, refWitness, if_neg (inclusionPath_ne cp)]
    rfl
  have hpub : answer (refWitness entry receiptB64) "/anchor/authority-pubkey" =
      some (.ok (.obj [("pubkey_hex", .str (bytesHex refKey))])) := by
    rw [answer, refWitness, if_pos rfl]
    rfl
  have hpem : authorityPem (refVerifier entry receipt receiptB64) (.obj [("pubkey_hex", .str (bytesHex refKey))]) =
      some refPem := by
    simp only [authorityPem, item, Json.get, List.findSome?, pyStr, refVerifier, if_true, Option.bind_eq_bind,
      Option.bind_some, fromHex_bytesHex]
  refine ⟨⟨_, hbody, rfl, rfl, rfl, ?_⟩, ⟨_, hpub, hpem⟩⟩
  simp only [receiptBytes, item, Json.get, List.findSome?, pyStr, refVerifier]
  simp

private def RefProves (receipt' leaf pem : Bytes) : Prop := receipt' = receipt ∧ leaf = entry.bytes ∧ pem = refPem

private theorem refVerifier_verifies : VerifiesLeaf (refVerifier entry receipt receiptB64) (RefProves entry receipt) := by
  intro receipt' leaf pem
  constructor
  · rintro ⟨result, hresult, hok⟩
    obtain rfl := Option.some.inj hresult
    obtain ⟨hreceipt, hleaf, hpem⟩ := of_decide_eq_true hok
    exact ⟨entry.bytes, hleaf, hreceipt, rfl, hpem⟩
  · rintro ⟨named, hleaf, hreceipt, rfl, hpem⟩
    exact ⟨_, rfl, decide_eq_true ⟨hreceipt, hleaf, hpem⟩⟩

private theorem refProves_one (receipt' pem leaf leaf' : Bytes) (h : RefProves entry receipt receipt' leaf pem)
    (h' : RefProves entry receipt receipt' leaf' pem) : leaf = leaf' := h.2.1.trans h'.2.1.symm

end Ref

private abbrev soleEnv : Env := refEnv [] [] fun _ _ _ _ _ => false

private def soleTexts : Texts := ⟨fun _ => "", fun _ => "", fun _ => "", fun _ => "", fun _ => ""⟩

private abbrev soleCheckpoint : Checkpoint := refCheckpoint 4 1 pos_four

/-- The receipt of the only entry of a log. -/
private def soleReceipt (entry : Digest) : Bytes :=
  (buildCoseReceipt soleEnv 1 0 [] (leafHash soleEnv.sha256 entry.bytes) none none none).toBytes soleEnv

/-- A witness that holds one receipt, for another entry, passes for every checkpoint. -/
theorem tie_back_other_entry : ¬ ∀ (E : Env) (texts : Texts) (V : Verifier) (Proves : Bytes → Bytes → Bytes → Prop),
    VerifiesLeaf V Proves →
    (∀ receipt pem entry entry', Proves receipt entry pem → Proves receipt entry' pem → entry = entry') →
    ∀ (cp : Checkpoint) (get : Getter), TieBackSound E texts V Proves get cp := by
  intro h
  have hother : zeroDigest.bytes ≠ (checkpointEntry soleEnv soleCheckpoint).bytes := by decide +kernel
  obtain ⟨receipt, receiptB64⟩ : Bytes × String := (soleReceipt zeroDigest, b64encode (soleReceipt zeroDigest))
  have hverifies := refVerifier_verifies zeroDigest receipt receiptB64
  have hone := refProves_one zeroDigest receipt
  have hsound := h soleEnv soleTexts _ _ hverifies hone soleCheckpoint (refWitness zeroDigest receiptB64)
  exact (sound_iff hverifies hone _ _).1 hsound ⟨_, receipt, refPem, zeroDigest.bytes,
    refWitness_served soleEnv zeroDigest receipt receiptB64 _, leafEntry_hex _, hother, rfl, rfl, rfl⟩

/-- The same witness with a receipt for the checkpoint. -/
theorem tie_back_sound_iff_sample :
    let entry := checkpointEntry soleEnv soleCheckpoint
    let receipt := soleReceipt entry
    TieBackSound soleEnv soleTexts (refVerifier entry receipt (b64encode receipt)) (RefProves entry receipt)
      (refWitness entry (b64encode receipt)) soleCheckpoint := by
  intro entry receipt
  obtain ⟨receiptB64, hreceiptB64⟩ : ∃ receiptB64, receiptB64 = b64encode receipt := ⟨_, rfl⟩
  rw [← hreceiptB64]
  refine (tie_back_sound_iff (refVerifier_verifies entry receipt receiptB64) (refProves_one entry receipt) _ _).2
    (not_namesOther ?_)
  intro entryHash receipt' pem hserved
  exact ((refWitness_served soleEnv entry receipt receiptB64 _).unique hserved).1

end CapsuleAnchor
