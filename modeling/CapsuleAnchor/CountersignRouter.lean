import CapsuleAnchor.Limiter
import CapsuleAnchor.Verdicts
import CapsuleAnchor.Webhooks

/-!
# `POST /countersign/register` (`countersign/router.py`)

The handler, in the order of its checks: the limiter, the size of the body, its shape, the bundle and its requester
(`accept_bundle`), the profile, the configuration; then the statement is recomputed, signed and registered, and only
after that is the URL of a webhook looked at.  A request whose URL is refused there has an entry in the log.
-/

namespace CapsuleAnchor

/-! ### The bundle and its requester -/

/-- How a bundle is not accepted: `BundleRefused`, or another exception. -/
inductive BundleError
  | refused (message : Text)
  | raised

/-- One enrolled issuer. -/
structure IssuerEntry where
  ledgerId : Text
  pubkey : Bytes
  length_pubkey : pubkey.length = 32

/-- `IssuerAllowlist`: each ledger is listed once. -/
structure IssuerAllowlist where
  entries : List IssuerEntry := []
  distinct : (entries.map (·.ledgerId)).Nodup := by simp

def IssuerAllowlist.get (issuers : IssuerAllowlist) (ledgerId : Text) : Option IssuerEntry :=
  issuers.entries.find? fun entry => entry.ledgerId = ledgerId

/-- `str.encode("ascii")`; `none` is `UnicodeEncodeError`, a `ValueError`. -/
def Text.encodeAscii (t : Text) : Option Bytes :=
  if t.all fun c => decide (c.val < 128) then some (t.map fun c => UInt8.ofNat c.val) else none

variable {L : CountersignLib}

/-- `repr(raw.get(key))`. -/
private def reprMember (L : CountersignLib) (raw : Members) (key : String) : Text :=
  L.repr ((raw.get (text key)).getD .null)

/-- `raw.get(key) == word`. -/
private def hasWord (raw : Members) (key word : String) : Bool :=
  match raw.get (text key) with
  | some (.str value) => decide (value = text word)
  | _ => false

/-- `parse_bundle`, of an object. -/
def parseBundle (L : CountersignLib) (raw : Members) : Except BundleError (Bundle L) :=
  if ¬ hasWord raw "bundle_version" "2" ∨ ¬ hasWord raw "bundle_kind" "evidence-bundle/v2" then
    .error (.refused (text "bundle_version=" ++ reprMember L raw "bundle_version" ++ text " bundle_kind=" ++
      reprMember L raw "bundle_kind" ++ text (" -- this module accepts only a v2 Evidence Bundle " ++
        "(bundle_version: \"2\", bundle_kind: \"evidence-bundle/v2\")")))
  else match raw.get (text "root"), raw.get (text "completeness") with
    | some (.str _), some (.obj completeness) =>
      if ¬ hasWord completeness "payloads_mode" "none" then
        .error (.refused (text "bundle carries payloads present (completeness.payloads_mode=" ++
          reprMember L completeness "payloads_mode" ++ text (") -- this module accepts only a withheld bundle " ++
            "(payloads_mode: none); any bundle with payloads present is refused by construction")))
      else if (raw.get (text "disclosures")).isSome then
        .error (.refused (text ("bundle carries a disclosures overlay -- only a withheld (payloads_mode none) bundle " ++
          "may be submitted for countersigning")))
      else match hdigest : L.bundleDigest raw with
        | .error (.typeError exc) | .error (.valueError exc) =>
          .error (.refused (text "bundle digest could not be computed: " ++ exc))
        | .error .other => .error .raised
        | .ok digest => .ok ⟨raw, digest, hdigest⟩
    | some (.str _), _ => .error (.refused (text "bundle does not parse: missing completeness"))
    | _, _ => .error (.refused (text "bundle does not parse: missing or non-string root"))

/-- The signature of the requester over the digest of the bundle verifies. -/
def requesterVerifies (L : CountersignLib) (pubkey : Bytes) (signatureHex digest : Text) : Bool :=
  match signatureHex.fromHex, digest.encodeAscii with
  | some signature, some message => L.ed25519Verify pubkey signature message
  | _, _ => false

/-- `accept_bundle`. -/
def acceptBundle (L : CountersignLib) (raw : Members) (issuers : IssuerAllowlist)
    (requesterId requesterKeyHex requesterSignatureHex : Text) : Except BundleError (Bundle L) := do
  let bundle ← parseBundle L raw
  match issuers.get requesterId with
  | none =>
    throw (.refused (text "issuer " ++ L.repr (.str requesterId) ++
      text (" is not enrolled with this instance's registration policy -- registration is refused for any issuer this " ++
        "instance has not been configured to trust")))
  | some entry =>
    if hexText entry.pubkey ≠ requesterKeyHex.lower then
      throw (.refused (text "requester key_id=" ++ L.repr (.str requesterKeyHex) ++
        text " does not match the key this instance's registration policy pins for issuer " ++ L.repr (.str requesterId)))
    else if ¬ requesterVerifies L entry.pubkey requesterSignatureHex bundle.digest then
      throw (.refused (text "requester_signature does not verify under the issuer's pinned key"))
    else return bundle

/-! ### The request -/

structure CountersignRequester where
  id : Text
  keyId : Text

structure CountersignRequest where
  bundle : Members
  requester : CountersignRequester
  requesterSignature : Text
  profileId : Option Text := none
  webhookUrl : Option Text := none
  webhookSecret : Option Text := none

/-- What `deliver_webhook` is scheduled with, beside the entry. -/
structure WebhookTask where
  url : Text
  secret : Text
  entryHash : JsonValue

inductive Answer
  /-- The entry, and the delivery that is scheduled. -/
  | ok (entry : Members) (task : Option WebhookTask)
  /-- `HTTPException`. -/
  | refused (status : Nat) (detail : Text)
  /-- An exception that the handler does not catch. -/
  | unhandled

def Answer.status : Answer → Nat
  | ok _ _ => 200
  | refused status _ => status
  | unhandled => 500

/-- A configured instance: the globals of the module and its environment variables. -/
structure CountersignInstance (E : Env) (L : CountersignLib) where
  /-- `CountersignRequest.model_validate_json`. -/
  modelValidateJson : Bytes → Except Text CountersignRequest
  issuers : IssuerAllowlist
  registry : List (Text × PolicyModule L)
  /-- `_attestor` and `_registrar`, which are configured together. -/
  service : Option (Authority E)
  cfg : Config
  publicHost : Option Text
  webhookAllowedHosts : Option Text

/-- What the surroundings answer during one request: two clocks, the clock of the registration and the resolver. -/
structure Surroundings where
  monotonic : ℚ
  utcnow : Datetime
  now : Nat → Datetime
  resolve : Text → Resolution

/-- The state of an instance. -/
structure CountersignRouter (b : Backend) where
  limiter : SlidingWindowLimiter Unit
  node : CountersignNode b

/-- What is handed to `sign_countersignature`. -/
structure Admitted (E : Env) (L : CountersignLib) where
  request : CountersignRequest
  authority : Authority E
  bundle : Bundle L
  signerId : Text
  statement : Statement

/-- `req.profile_id` and its module: none is named, or it has to be registered. -/
def policyModuleFor (registry : List (Text × PolicyModule L)) (profileId : Option Text) : Except Answer (PolicyModule L) :=
  match profileId with
  | none | some [] => .ok nullPolicyModule
  | some profileId =>
    match registry.lookup profileId with
    | some policy => .ok policy
    | none => .error (.refused 422 (text "refused: no policy module registered for profile " ++
        L.repr (.str profileId)))

/-- The URL and the secret of a webhook, when neither is missing or empty. -/
def CountersignRequest.webhook (req : CountersignRequest) : Option (Text × Text) :=
  match req.webhookUrl, req.webhookSecret with
  | some url, some secret => if url ≠ [] ∧ secret ≠ [] then some (url, secret) else none
  | _, _ => none

variable {E : Env} {b : Backend}

/-- The handler, after the limiter and up to the recomputed statement. -/
def CountersignInstance.admission (I : CountersignInstance E L) (body : Bytes) (utcnow : Datetime) :
    Except Answer (Admitted E L) := do
  if maxStatementBytes < body.length then
    throw (.refused 413 (text "request body too large (" ++ text (toString body.length) ++ text " bytes; max " ++
      text (toString maxStatementBytes) ++ text ")"))
  let req ← (I.modelValidateJson body).mapError fun exc =>
    .refused 422 (text "request body is not a valid countersign submission: " ++ exc)
  let bundle ← (acceptBundle L req.bundle I.issuers req.requester.id req.requester.keyId
      req.requesterSignature).mapError fun
    | .refused exc => .refused 422 (text "refused: " ++ exc)
    | .raised => .unhandled
  let policy ← policyModuleFor I.registry req.profileId
  let some authority := I.service | throw (.refused 503 (text "countersign module not configured"))
  let publicHost := I.publicHost.getD []
  if publicHost = [] then
    throw (.refused 503 (text ("CAPSULE_ANCHOR_PUBLIC_HOST is not configured -- this instance cannot publish a did:web " ++
      "signer identity without it")))
  let statement ← (recomputeStatement bundle policy req.requester.id (req.profileId.getD []) utcnow).mapError fun _ =>
    .unhandled
  return ⟨req, authority, bundle, text "did:web:" ++ publicHost, statement⟩

/-- `entry["receipt"]["entry_hash"]`. -/
def entryHashOf (entry : Members) : JsonValue :=
  match entry.get (text "receipt") with
  | some (.obj receipt) => (Members.get receipt (text "entry_hash")).getD .null
  | _ => .null

/-- `register`. -/
def CountersignInstance.register (I : CountersignInstance E L) (W : WebhookLib) (around : Surroundings) (body : Bytes)
    (router : CountersignRouter b) : Answer × CountersignRouter b :=
  let (allowed, limiter) := router.limiter.isAllowed () around.monotonic
  let router := { router with limiter }
  if ¬ allowed then (.refused 429 (text "rate limit exceeded — try again later"), router)
  else match I.admission body around.utcnow with
    | .error answer => (answer, router)
    | .ok a =>
      let (signed, node) := signCountersignature E I.cfg around.now a.authority a.bundle a.statement a.signerId
        a.request.requester.keyId router.node
      let router := { router with node }
      match signed with
      | .error (.statementRefused exc) => (.refused 400 (text "refused: " ++ exc), router)
      | .error (.registration _) => (.unhandled, router)
      | .ok entry =>
        match a.request.webhook with
        | none => (.ok entry none, router)
        | some (url, secret) =>
          match validateWebhookUrl W I.webhookAllowedHosts around.resolve url with
          | .error (.refused exc) => (.refused 422 (text "webhook_url refused: " ++ exc), router)
          | .error .raised => (.unhandled, router)
          | .ok () => (.ok entry (some ⟨url, secret, entryHashOf entry⟩), router)

/-! ### What a refusal leaves -/

/-- The entries of the log and the countersignatures that were made. -/
def CountersignNode.trace (E : Env) (node : CountersignNode b) : List TransparencyLogEntry × List Bytes :=
  ((b.exec E .allEntries node.store).1, node.attested)

/-- The store takes the digest of the statement. -/
def CountersignInstance.Registers (I : CountersignInstance E L) (now : Nat → Datetime) (bytes : Bytes) (s : b.Store) :
    Prop :=
  (registerSignedStatementFull E I.cfg now (E.sha256 bytes).bytes none none).Returns (b.Raises E) (b.exec E) s

theorem returns_memory {α : Type} {p : ServiceM α} {s : MemoryStore} :
    p.Returns (Backend.memory.Raises E) (Backend.memory.exec E) s ↔ ∃ a, (p.run MemoryStore.exec s).1 = .ok a := by
  rw [Prog.Returns, Backend.runRaising_memory]
  cases hrun : p.run MemoryStore.exec s with
  | mk r s' => cases r <;> simp [Except.mapError]

private theorem registerNew_returns {cfg : Config} {s : MemoryStore} (h : Indexed s.log) (now : Nat → Datetime)
    (sub : Submission) : (∃ reg, ((registerNew E cfg now sub none none).run MemoryStore.exec s).1 = .ok reg) ↔
      ∃ status, Passes E cfg s sub.checkpointFields none status none := by
  have hsame := (linked_run E cfg s sub.checkpointFields).1
  simp only [passes_iff]
  unfold registerNew
  cases hgate : (optionally sub.checkpointFields (checkCheckpointConsistency E cfg)).run MemoryStore.exec s with
  | mk r s₁ =>
    rw [hgate] at hsame
    cases r with
    | error e =>
      rw [Prog.run_bind_error _ hgate]
      simp
    | ok status =>
      have hidx : Indexed s₁.log := by rwa [hsame.log]
      have hnone : (optionally (none : Option Checkpoint) (checkCheckpointContinuity E cfg)).run MemoryStore.exec s₁ =
          (.ok none, s₁) := rfl
      have hissue := appendStatement_run E hidx now sub none (continuityAssertion E (now 0) none none)
      have hcommit := commitRegistration_run E (hidx.registeredLog E now sub) now sub (acceptedCheckpoint none none)
        (s := issuedState E now sub none (continuityAssertion E (now 0) none none) s₁)
      rw [Prog.run_bind_ok _ hgate, Prog.run_bind_ok _ hnone, Prog.run_bind_ok _ hissue, Prog.run_bind_ok _ hcommit]
      exact ⟨fun _ => ⟨status, rfl, rfl⟩, fun _ => ⟨_, rfl⟩⟩

/-- The dicts take a digest that is cached or, if it should read as a statement with a checkpoint, passes its gate. -/
theorem registers_memory_iff (I : CountersignInstance E L) (now : Nat → Datetime) (bytes : Bytes) {s : MemoryStore}
    (h : Indexed s.log) : I.Registers (b := .memory) now bytes s ↔
      ∃ sub, prepare E I.cfg.payloadPolicy (E.sha256 bytes).bytes = .ok sub ∧
        ((cachedStatement s sub).1.isSome = true ∨ ∃ status, Passes E I.cfg s sub.checkpointFields none status none) := by
  rw [CountersignInstance.Registers, returns_memory]
  cases hprep : prepare E I.cfg.payloadPolicy (E.sha256 bytes).bytes with
  | error e => simp [registerSignedStatementFull, hprep, Prog.ofExcept]
  | ok sub =>
    cases hfound : cachedStatement s sub with
    | mk found scheme =>
      cases found with
      | some found =>
        rw [register_cached_run E I.cfg hprep hfound]
        simp [hfound]
      | none =>
        rw [registerSignedStatementFull, hprep, Prog.run_bind_ok _ (Prog.run_ofExcept _ _ _), registerPrepared,
          Prog.run_bind_ok _ (lookupStatement_run s sub)]
        simp only [hfound]
        rw [registerNew_returns h now sub]
        simp [hfound]

variable {I : CountersignInstance E L} {W : WebhookLib} {around : Surroundings} {body : Bytes}
  {router : CountersignRouter b}

private theorem sign_not_registered {now : Nat → Datetime} {a : Admitted E L} {message bytes : Bytes}
    (hstrings : signingStrings a.bundle a.statement (authoritySigner a.authority a.signerId) = .ok (message, bytes))
    (node : CountersignNode b) (h : ¬ I.Registers now bytes node.store) (requesterKeyId : Text) : ∃ e store',
    signCountersignature E I.cfg now a.authority a.bundle a.statement a.signerId requesterKeyId node =
      (.error (.registration e), ⟨store', node.attested ++ [message]⟩) := by
  obtain ⟨e, hrun⟩ := Prog.not_returns.1 h
  obtain ⟨store', hstore⟩ : ∃ store', store' = ((registerSignedStatementFull E I.cfg now (E.sha256 bytes).bytes none
    none).runRaising (b.Raises E) (b.exec E) node.store).2 := ⟨_, rfl⟩
  rw [← hstore] at hrun
  refine ⟨e, store', ?_⟩
  simp only [signCountersignature, hstrings, hrun]

theorem register_of_webhook_refused {limiter limiter' : SlidingWindowLimiter Unit}
    (hallowed : limiter.isAllowed () around.monotonic = (true, limiter')) {a : Admitted E L}
    (hadmitted : I.admission body around.utcnow = .ok a) {message bytes : Bytes}
    (hstrings : signingStrings a.bundle a.statement (authoritySigner a.authority a.signerId) = .ok (message, bytes))
    {reg : StatementRegistration} {store store' : b.Store}
    (hrun : (registerSignedStatementFull E I.cfg around.now (E.sha256 bytes).bytes none none).runRaising (b.Raises E)
      (b.exec E) store = (.ok reg, store')) {url secret exc : Text} (hwebhook : a.request.webhook = some (url, secret))
    (hrefused : validateWebhookUrl W I.webhookAllowedHosts around.resolve url = .error (.refused exc))
    (attested : List Bytes) : I.register W around body ⟨limiter, ⟨store, attested⟩⟩ =
      (.refused 422 (text "webhook_url refused: " ++ exc), ⟨limiter', ⟨store', attested ++ [message]⟩⟩) := by
  simp only [CountersignInstance.register, hallowed, hadmitted, signCountersignature_of_registered hstrings hrun attested,
    hwebhook, hrefused, not_true_eq_false, if_false]

/-- A request that is not answered with 200 leaves no entry and no countersignature, unless it gets as far as the signing
and then the store does not take the statement or the URL of its webhook is refused. -/
theorem refused_without_trace_iff (I : CountersignInstance E L) (W : WebhookLib) (around : Surroundings) (body : Bytes)
    (router : CountersignRouter b) :
    ((I.register W around body router).1.status ≠ 200 →
      (I.register W around body router).2.node.trace E = router.node.trace E) ↔
    ((router.limiter.isAllowed () around.monotonic).1 = true → ∀ a, I.admission body around.utcnow = .ok a →
      ∀ message bytes, signingStrings a.bundle a.statement (authoritySigner a.authority a.signerId) = .ok (message, bytes) →
        I.Registers around.now bytes router.node.store ∧
        ∀ url secret, a.request.webhook = some (url, secret) →
          validateWebhookUrl W I.webhookAllowedHosts around.resolve url = .ok ()) := by
  unfold CountersignInstance.register
  cases hlimiter : router.limiter.isAllowed () around.monotonic with
  | mk allowed limiter =>
    cases allowed with
    | false => simp
    | true =>
      cases hadmitted : I.admission body around.utcnow with
      | error answer => simp
      | ok a =>
        cases hstrings : signingStrings a.bundle a.statement (authoritySigner a.authority a.signerId) with
        | error name => simp [signCountersignature, hstrings]
        | ok strings =>
          obtain ⟨message, bytes⟩ := strings
          obtain ⟨limiter₀, store, attested⟩ := router
          have hattested : ∀ store' : b.Store, CountersignNode.trace E ⟨store', attested ++ [message]⟩ ≠
              CountersignNode.trace E ⟨store, attested⟩ := by
            intro store' htrace
            simpa [CountersignNode.trace] using congrArg Prod.snd htrace
          by_cases hregisters : I.Registers around.now bytes store
          · obtain ⟨reg, store', hrun⟩ := hregisters
            simp only [signCountersignature_of_registered hstrings hrun attested]
            cases hwebhook : a.request.webhook with
            | none => simp [hstrings, hwebhook, Answer.status, CountersignInstance.Registers, Prog.Returns, hrun]
            | some subscription =>
              obtain ⟨url, secret⟩ := subscription
              cases hurl : validateWebhookUrl W I.webhookAllowedHosts around.resolve url with
              | ok u =>
                simp [hstrings, hwebhook, hurl, Answer.status, CountersignInstance.Registers, Prog.Returns, hrun]
              | error e =>
                cases e with
                | refused exc => simp [hstrings, hwebhook, hurl, Answer.status, hattested]
                | raised => simp [hstrings, hwebhook, hurl, Answer.status, hattested]
          · obtain ⟨e, store', hsign⟩ := sign_not_registered hstrings ⟨store, attested⟩ hregisters
              a.request.requester.keyId
            simp [hsign, hstrings, Answer.status, hattested, hregisters]

/-! ### A sample -/

private def hookKey : Bytes := List.replicate 32 205

private def hookAuthorityKey : Bytes := List.replicate 32 171

private def hookSignature : Bytes := List.replicate 64 7

private def hookDigest : Text := hexText (List.replicate 32 170)

/-- The statement over a bundle without records, for `ledger`. -/
private def hookStatement : Statement where
  checks := [⟨text "chain consistency", .notPresent,
      text "the v2 Evidence Bundle carries a single checkpoint, not a checkpoint history -- nothing to chain"⟩,
    ⟨text "range membership", .notPresent, text "no records in the bundle"⟩,
    ⟨text "cadence", .notPresent,
      text "the v2 Evidence Bundle declares no period for this check to bound record timestamps against"⟩,
    ⟨text "key hygiene", .notPresent,
      text "AAC capsule records carry no per-record signer-key field for this check to recompute rotation against"⟩,
    ⟨text "profile conformance", .notPresent, text "no records in the bundle"⟩]
  exclusions := exclusions
  ledgerId := text "ledger"
  closureDepth := 2
  recomputedAt := ⟨0, 0⟩

private def hookSigner : JsonValue := wireSigner (text "did:web:example") (hexText hookAuthorityKey)

private def hookCheck (name : String) : Bytes :=
  ascii "\x7b\x22name\x22:\x22" ++ ascii name ++ ascii "\x22,\x22result\x22:\x22not present\x22\x7d"

private def hookWire : Bytes :=
  ascii "\x7b\x22checks\x22:[" ++ hookCheck "chain consistency" ++ ascii "," ++ hookCheck "range membership" ++ ascii "," ++
    hookCheck "cadence" ++ ascii "," ++ hookCheck "key hygiene" ++ ascii "," ++ hookCheck "profile conformance" ++
    ascii "],\x22recomputed_at\x22:\x221970-01-01T00:00:00Z\x22,\x22scope\x22:" ++
    ascii "\x7b\x22closure_depth\x22:2,\x22ledger_id\x22:\x22ledger\x22\x7d\x7d"

private def hookMessage : Bytes :=
  ascii "\x7b\x22over\x22:\x22" ++ ascii (bytesHex (List.replicate 32 170)) ++
    ascii "\x22,\x22signer\x22:\x7b\x22id\x22:\x22did:web:example\x22,\x22key_id\x22:\x22" ++
    ascii (bytesHex hookAuthorityKey) ++ ascii "\x22\x7d,\x22statement\x22:" ++ hookWire ++
    ascii ",\x22type\x22:\x22countersign/v1\x22\x7d"

private def hookTable : List (JsonValue × Bytes) :=
  [(countersignSigningInput id hookDigest hookSigner (.obj hookStatement.wireDict) (.str countersignEntryType),
      hookMessage), (.obj hookStatement.wireDict, hookWire)]

private def hookLib : CountersignLib where
  jcs := tableJcs hookTable
  bundleDigest _ := .ok hookDigest
  verifyBundle _ := .error .other
  ed25519Verify key sig _ := decide (key = hookKey ∧ sig = hookSignature)
  repr _ := []

private def hookRaw : Members :=
  [(text "bundle_version", .str (text "2")), (text "bundle_kind", .str (text "evidence-bundle/v2")),
    (text "root", .str (text "r")), (text "completeness", .obj [(text "payloads_mode", .str (text "none"))])]

private def hookBundle : Bundle hookLib := ⟨hookRaw, hookDigest, rfl⟩

private def hookEnv : Env := refEnv [] [] fun _ _ _ _ _ => true

private def hookAuthority : Authority hookEnv where
  publicKey := hookAuthorityKey
  length_publicKey := rfl
  length_sign m := by
    change (refSign m).length = 64
    rw [refSign, List.length_append, Digest.length_bytes]

private def hookUrl : Text := text "http://producer.example/hook"

private def hookRequest : CountersignRequest where
  bundle := hookRaw
  requester := ⟨text "ledger", hexText hookKey⟩
  requesterSignature := hexText hookSignature
  webhookUrl := some hookUrl
  webhookSecret := some (text "s3cr3t")

private def hookBody : Bytes :=
  ascii "\x7b\x22bundle\x22:\x7b\x22bundle_version\x22:\x222\x22,\x22bundle_kind\x22:\x22evidence-bundle/v2\x22," ++
    ascii "\x22root\x22:\x22r\x22,\x22completeness\x22:\x7b\x22payloads_mode\x22:\x22none\x22\x7d\x7d," ++
    ascii "\x22requester\x22:\x7b\x22id\x22:\x22ledger\x22,\x22key_id\x22:\x22" ++
    ascii (bytesHex hookKey) ++ ascii "\x22\x7d,\x22requester_signature\x22:\x22" ++ ascii (bytesHex hookSignature) ++
    ascii "\x22,\x22webhook_url\x22:\x22http://producer.example/hook\x22,\x22webhook_secret\x22:\x22s3cr3t\x22\x7d"

private def hookInstance : CountersignInstance hookEnv hookLib where
  modelValidateJson _ := .ok hookRequest
  issuers := ⟨[⟨text "ledger", hookKey, rfl⟩], by simp⟩
  registry := [(text "test/v0", nullPolicyModule)]
  service := some hookAuthority
  cfg := {}
  publicHost := some (text "example")
  webhookAllowedHosts := none

private def hookWeb : WebhookLib where
  Ip := Nat
  urlparse _ := .ok ⟨text "http", some (text "producer.example"), .ok none⟩
  ipAddress _ := .error (.valueError [])
  isBlockedIp _ := false
  ipText _ := []
  strip := id
  lower := Text.lower
  repr t := text "'" ++ t ++ text "'"

private def hookAround : Surroundings :=
  ⟨0, ⟨0, 0⟩, fun _ => ⟨0, 0⟩, fun _ => .addresses [text "203.0.113.7"]⟩

private theorem accept_hook : acceptBundle hookLib hookRaw hookInstance.issuers (text "ledger") (hexText hookKey)
    (hexText hookSignature) = .ok hookBundle := by
  have hparse : parseBundle hookLib hookRaw = .ok hookBundle := rfl
  have hget : hookInstance.issuers.get (text "ledger") = some ⟨text "ledger", hookKey, rfl⟩ := rfl
  have hlower : (hexText hookKey).lower = hexText hookKey := by decide
  have hverify : requesterVerifies hookLib hookKey (hexText hookSignature) hookBundle.digest = true := by
    have hascii : (hookBundle.digest.encodeAscii).isSome = true := by decide
    obtain ⟨message, hmessage⟩ := Option.isSome_iff_exists.1 hascii
    rw [requesterVerifies, fromHex_hexText, hmessage]
    rfl
  simp only [acceptBundle, hparse, hget, hlower, hverify, bind, Except.bind, pure, Except.pure, ne_eq, not_true_eq_false,
    if_false]

private theorem length_hookBody : hookBody.length ≤ maxStatementBytes := by
  have hhex : ∀ b : Bytes, (ascii (bytesHex b)).length = 2 * b.length := by
    intro b
    induction b with
    | nil => rfl
    | cons x b ih =>
      simp only [ascii, bytesHex, String.toList_ofList, List.length_map, List.flatMap_cons, List.length_append,
        List.length_cons, List.length_nil] at ih ⊢
      omega
  simp only [hookBody, List.length_append, hhex, hookKey, hookSignature, List.length_replicate]
  simp [ascii, maxStatementBytes]

private theorem recompute_hook : recomputeStatement hookBundle nullPolicyModule (text "ledger") [] ⟨0, 0⟩ =
    .ok hookStatement := by
  have hrecords : hookBundle.records = [] := rfl
  have hdepth : hookBundle.closureDepth = 2 := rfl
  have hkinds : actionKinds hookBundle = [] := by
    rw [actionKinds, hrecords]
    rfl
  have hmembership : rangeMembership hookBundle =
      .ok ⟨text "range membership", .notPresent, text "no records in the bundle"⟩ := by
    simp only [rangeMembership, hrecords, List.isEmpty_nil, if_true]
  have hconformance : profileConformance hookBundle [] nullPolicyModule =
      .ok ⟨text "profile conformance", .notPresent, text "no records in the bundle"⟩ := by
    simp only [profileConformance, hkinds, List.isEmpty_nil, if_true]
  simp only [recomputeStatement, hmembership, hconformance, nullPolicyModule, hdepth, bind, Except.bind, pure, Except.pure,
    List.append_nil]
  simp only [hookStatement, chainConsistency, cadence, keyHygiene]

private def hookAdmitted : Admitted hookEnv hookLib :=
  ⟨hookRequest, hookAuthority, hookBundle, text "did:web:example", hookStatement⟩

private theorem admission_hook : hookInstance.admission hookBody ⟨0, 0⟩ = .ok hookAdmitted := by
  have hsize : ¬ maxStatementBytes < hookBody.length := not_lt.2 length_hookBody
  have hjson : ∀ body, hookInstance.modelValidateJson body = .ok hookRequest := fun _ => rfl
  have hpolicy : policyModuleFor hookInstance.registry none = .ok nullPolicyModule := rfl
  have hservice : hookInstance.service = some hookAuthority := rfl
  have hhost : hookInstance.publicHost.getD [] = text "example" := rfl
  have hne : text "example" ≠ [] := by decide
  have hdid : text "did:web:" ++ text "example" = text "did:web:example" := rfl
  unfold CountersignInstance.admission
  simp only [hsize, hjson, hookRequest, accept_hook, hpolicy, hservice, hhost, hne, hdid,
    recompute_hook, Option.getD_none, Except.mapError, bind, Except.bind, pure, Except.pure, if_false]
  rfl

private theorem strings_hook : signingStrings hookBundle hookStatement
    (authoritySigner hookAuthority (text "did:web:example")) = .ok (hookMessage, hookWire) := by
  have hjcs : hookLib.jcs = tableJcs hookTable := rfl
  have hdigest : hookBundle.digest = hookDigest := rfl
  have hsigner : authoritySigner hookAuthority (text "did:web:example") = hookSigner := rfl
  have hinput : countersignSigningInput hookLib.jcs hookBundle.digest
      (authoritySigner hookAuthority (text "did:web:example")) (.obj hookStatement.wireDict)
      (.str countersignEntryType) = .ok hookMessage := by
    rw [hjcs, hdigest, hsigner]
    exact tableJcs_head _ _ _
  have hwire : hookStatement.canonicalBytes hookLib = .ok hookWire := by
    rw [Statement.canonicalBytes, hjcs, hookTable, tableJcs_tail (same_of_name_ne (by decide) _ _ _ _), tableJcs_head]
  simp only [signingStrings, hinput, hwire]
  rfl

private theorem refused_hook : ∃ exc,
    validateWebhookUrl hookWeb hookInstance.webhookAllowedHosts hookAround.resolve hookUrl = .error (.refused exc) := by
  have hparse : hookWeb.urlparse hookUrl = .ok ⟨text "http", some (text "producer.example"), .ok none⟩ := rfl
  have hscheme : text "http" ≠ text "https" := by decide
  rw [validateWebhookUrl, validateAndPin]
  simp only [hparse, if_pos hscheme]
  exact ⟨_, rfl⟩

/-- A fresh instance signs and registers a statement, and then answers 422 for the URL of the webhook, which is no https. -/
theorem webhook_refused_after_signing : ¬ ∀ (E : Env) (L : CountersignLib) (I : CountersignInstance E L) (W : WebhookLib)
    (around : Surroundings) (body : Bytes) (b : Backend) (router : CountersignRouter b),
    (I.register W around body router).1.status ≠ 200 →
      (I.register W around body router).2.node.trace E = router.node.trace E := by
  intro h
  have hsize : (hookEnv.sha256 hookWire).bytes.length ≤ maxStatementBytes := by
    rw [Digest.length_bytes]
    decide
  obtain ⟨reg, s', hregister, -⟩ := registers_raw hookEnv {} hookAround.now indexed_nil rfl hsize (s := {}) rfl
  obtain ⟨exc, hrefused⟩ := refused_hook
  have hallowed : (⟨300, 60, fun _ => []⟩ : SlidingWindowLimiter Unit).isAllowed () hookAround.monotonic =
      (true, ⟨300, 60, Function.update (fun _ => []) () [0]⟩) := rfl
  have hwebhook : hookAdmitted.request.webhook = some (hookUrl, text "s3cr3t") := rfl
  have hanswer := register_of_webhook_refused (I := hookInstance) (b := .memory) hallowed admission_hook strings_hook hregister
    hwebhook hrefused []
  have hclaim := h hookEnv hookLib hookInstance hookWeb hookAround hookBody .memory ⟨⟨300, 60, fun _ => []⟩, ⟨{}, []⟩⟩
  rw [hanswer] at hclaim
  have hsame := hclaim (by simp [Answer.status])
  simpa [CountersignNode.trace] using congrArg Prod.snd hsame

end CapsuleAnchor
