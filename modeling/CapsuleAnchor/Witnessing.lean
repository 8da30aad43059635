import CapsuleAnchor.Serving
import CapsuleAnchor.Watcher

/-!
# The watcher of the app (`cross_witness_conformance/watcher.py` against `anchoring/router.py`)

The tie-back reads two routes of the app: the receipt for the digest of a checkpoint, and the key of the authority.  A world is
the app and the state file; it is moved by the activities of the app and by the runs of the watcher, in any order.  The key never
changes, so a run that reads it later than the receipt is the same run.

`honest_watch`: whatever happens in between, a run reports no failure exactly when the app keeps a receipt for the checkpoint, the
grade is the expected one, and the checkpoint follows the last one that passed; only with a consistency proof does it raise.
-/

namespace CapsuleAnchor

variable (E : Env) (cfg : AppConfig) (texts : Texts) (W : Wire) (V : Verifier) (expectedLogId : String)
  (base64Error : Base64.Error → String)

/-! ### The app over HTTP -/

/-- The body of an inclusion answer. -/
def inclusionJson (r : InclusionResolveResponse) : Json :=
  .obj [("capsule_id", .str r.capsuleId), ("entry_hash", .str r.entryHash.hex), ("leaf_index", .int r.leafIndex),
    ("tree_size", .int r.treeSize), ("leaf_hash", .str r.leafHash.hex),
    ("audit_path", .arr (r.auditPath.map fun d => .str d.hex)), ("root_hash", .str r.rootHash.hex),
    ("receipt_b64", .str (b64encode (r.receipt.toBytes E)))]

/-- The body of a 200 answer; the checks read these two. -/
def RouteResponse.json : RouteResponse → Option Json
  | .authorityPubkey pubkeyHex keyId => some (.obj [("pubkey_hex", .str pubkeyHex), ("key_id", .str keyId)])
  | .resolved r => some (inclusionJson E r)
  | _ => none

/-- What an answer is to a client; nobody reads the body of an error. -/
def responseOf : RouteAnswer → Response
  | .ok response => ⟨200, response.json E⟩
  | .error e => ⟨e.statusCode, none⟩

/-- The route of a path that the checks read. -/
def routeOf (path : String) : Option HttpRequest :=
  if path = "/anchor/authority-pubkey" then some .authorityPubkey
  else match "/v1/inclusion/".toList.isPrefixOf path.toList, path.toList.drop 14 with
    | true, c :: rest => if '/' ∈ c :: rest then none else some (.inclusion (String.ofList (c :: rest)))
    | _, _ => none

/-- A GET. -/
def App.get (clocks : Clocks) (a : App) : Getter := fun path =>
  match routeOf path with
  | none => some ⟨404, none⟩
  | some request => some (responseOf E (a.serve E cfg texts W base64Error clocks request).1)

/-! ### The world -/

structure World where
  app : App := {}
  stateFile : Option StateFile := none

/-- A run of the watcher against the app. -/
structure AppWatch where
  clocks : Clocks
  checkpointBytes : Bytes
  allowlist : SubmitterAllowlist
  expectedGrade : Option String

inductive WorldRequest
  | act (r : Clocks × Activity)
  | watch (i : AppWatch)

inductive WorldReply
  | acted (answer : Option RouteAnswer)
  /-- The report, or `none` when the run raises. -/
  | watched (report : Option ConformanceReport)

/-- The run as the watcher sees it. -/
def AppWatch.input (i : AppWatch) (a : App) : WatchInput :=
  ⟨i.checkpointBytes, i.allowlist, i.expectedGrade, a.get E cfg texts W base64Error i.clocks⟩

def World.step (w : World) (r : WorldRequest) : WorldReply × World :=
  match r with
  | .act r =>
    let result := w.app.act E cfg texts W base64Error r
    (.acted result.1, { w with app := result.2 })
  | .watch i =>
    let result := CapsuleAnchor.watch E texts W V expectedLogId w.stateFile (i.input E cfg texts W base64Error w.app)
    (.watched result.1, { w with stateFile := result.2 })

abbrev WorldEvent := Run.Event World WorldRequest WorldReply

/-! ### What is to hold -/

/-- The library reads the key of the app, and accepts the receipts that its signer signed over the root of their path. -/
structure VerifiesServed : Prop where
  base64 : ∀ text, V.b64decode text = (Base64.decode false text).toOption
  authority : ∃ pem, V.publicKeyPem cfg.authorityPubkey = some pem ∧ ∀ (receipt : CoseReceipt) (entry root : Digest),
    verifyInclusionPath E.sha256 (leafHash E.sha256 entry.bytes) receipt.leafIndex receipt.treeSize receipt.auditPath root →
    receipt.signature = E.sign (sigStructure E (receiptProtected E receipt.iat receipt.grade receipt.continuity) root.bytes) →
    ∃ result, V.verifyReceipt (receipt.toBytes E) (.str entry.hex) pem = some result ∧ result.ok = true

/-- The bytes are an accepted checkpoint of the watched log. -/
def AppWatch.Accepts (i : AppWatch) (cp : Checkpoint) : Prop :=
  parseDeclared E texts W i.allowlist expectedLogId i.checkpointBytes = .ok cp ∧ cp.logId = expectedLogId

/-- The app keeps a receipt for the checkpoint. -/
def App.Witnesses (a : App) (cp : Checkpoint) : Prop :=
  ∃ row, a.store.statements.lookup (checkpointEntry E cp) = some row

/-- The checkpoint of a run that reported no failure. -/
def passedCheckpoint (e : WorldEvent) : Option Checkpoint :=
  match e.reply with
  | .watched (some report) => if report.hasFailure then none else report.claims
  | _ => none

/-- The last checkpoint that passed. -/
def lastPassed (es : List WorldEvent) : Option Checkpoint := (es.filterMap passedCheckpoint).getLast?

/-- The run is to pass, given what passed before it. -/
structure ToPass (es : List WorldEvent) (a : App) (i : AppWatch) (cp : Checkpoint) : Prop where
  witnessed : a.Witnesses E cp
  grade : ∀ grade, i.expectedGrade = some grade → cp.grade = some grade
  follows : ∀ last, lastPassed es = some last → Follows last cp

/-! ### The routes that the checks read -/

variable {E cfg texts W V expectedLogId base64Error}

private theorem hex_char (d : Digest) {c : Char} (h : c ∈ d.hex.toList) :
    c.toLower = c ∧ isSpace c = false ∧ c ≠ '/' := by
  have key : ∀ n < 16, (Char.ofUInt8 (hexDigit n)).toLower = Char.ofUInt8 (hexDigit n) ∧
      isSpace (Char.ofUInt8 (hexDigit n)) = false ∧ Char.ofUInt8 (hexDigit n) ≠ '/' := by decide
  rw [Digest.hex, bytesHex, String.toList_ofList] at h
  obtain ⟨b, -, hc⟩ := List.mem_flatMap.1 h
  have hb := b.toNat_lt
  rcases List.mem_cons.1 hc with rfl | hc
  · exact key _ (by omega)
  · obtain rfl := List.mem_singleton.1 hc
    exact key _ (by omega)

private theorem dropWhile_isSpace {l : List Char} (h : ∀ c ∈ l, isSpace c = false) : l.dropWhile isSpace = l := by
  cases l with
  | nil => rfl
  | cons c l =>
    have hc : ¬ isSpace c = true := by simp [h c List.mem_cons_self]
    rw [List.dropWhile_cons_of_neg hc]

/-- The digits of a digest name it. -/
theorem capsuleDigest_hex (d : Digest) : capsuleDigest d.hex = some d := by
  have hlower : d.hex.toLower.toList = d.hex.toList := by
    rw [String.toLower, String.toList_map]
    exact (List.map_congr_left fun c hc => (hex_char d hc).1).trans (List.map_id _)
  have hstrip : ∀ c ∈ d.hex.toList, isSpace c = false := fun c hc => (hex_char d hc).2.1
  have hreverse : ∀ c ∈ d.hex.toList.reverse, isSpace c = false := fun c hc => hstrip c (List.mem_reverse.1 hc)
  rw [capsuleDigest, normalizedCapsuleId, hlower, dropWhile_isSpace hstrip, dropWhile_isSpace hreverse, List.reverse_reverse,
    String.ofList_toList]
  exact Digest.ofHex?_hex d

private theorem routeOf_inclusion (d : Digest) : routeOf ("/v1/inclusion/" ++ d.hex) = some (.inclusion d.hex) := by
  have hpath : ("/v1/inclusion/" ++ d.hex).toList = "/v1/inclusion/".toList ++ d.hex.toList := String.toList_append
  have hother : "/v1/inclusion/" ++ d.hex ≠ "/anchor/authority-pubkey" := by
    intro h
    have hchars := hpath.symm.trans (congrArg String.toList h)
    exact absurd (List.cons.inj (List.cons.inj hchars).2).1 (by decide)
  have hdrop : ("/v1/inclusion/".toList ++ d.hex.toList).drop 14 = d.hex.toList := rfl
  have hprefix : "/v1/inclusion/".toList.isPrefixOf ("/v1/inclusion/".toList ++ d.hex.toList) = true := by
    rw [List.isPrefixOf_iff_prefix]
    exact List.prefix_append _ _
  have hslash : '/' ∉ d.hex.toList := fun h => (hex_char d h).2.2 rfl
  rw [routeOf, if_neg hother, hpath, hprefix, hdrop]
  have hlength := d.length_hex
  have hback : String.ofList d.hex.toList = d.hex := String.ofList_toList
  cases hlist : d.hex.toList with
  | nil =>
    rw [hlist] at hlength
    cases hlength
  | cons c rest =>
    rw [hlist] at hslash hback
    simp only
    rw [if_neg hslash, hback]

variable (E cfg texts W base64Error) in
private theorem get_inclusion (clocks : Clocks) (a : App) (cp : Checkpoint) :
    a.get E cfg texts W base64Error clocks (inclusionPath E cp) =
      some (responseOf E (a.inclusion E (checkpointDigest E cp).hex)) := by
  rw [App.get, inclusionPath, routeOf_inclusion]
  simp only [App.serve]

variable (E cfg texts W base64Error) in
private theorem get_authority (clocks : Clocks) (a : App) :
    a.get E cfg texts W base64Error clocks "/anchor/authority-pubkey" = some (responseOf E (App.authorityPubkey E cfg)) := rfl

/-- The answer for a checkpoint: 404, or the receipt that the app keeps. -/
private theorem inclusion_eq {a : App} (h : Kept E a.store) (cp : Checkpoint) :
    match a.store.statements.lookup (checkpointEntry E cp) with
    | none => a.inclusion E (checkpointDigest E cp).hex = refusal 404 "capsule_id not found in transparency log"
    | some row => ∃ response, a.inclusion E (checkpointDigest E cp).hex = .ok (.resolved response) ∧
        response.entryHash = checkpointEntry E cp ∧ response.receipt = row.1 := by
  rw [App.inclusion, App.read, CapsuleAnchor.inclusion, capsuleDigest_hex]
  simp only
  rw [Prog.run_bind_ok _ (run_getStatement _)]
  rw [← checkpointEntry]
  cases hrow : a.store.statements.lookup (checkpointEntry E cp) with
  | none => rfl
  | some row =>
    obtain ⟨receipt, leafIndex, treeSize⟩ := row
    have hissued := h.cached _ _ hrow
    simp only
    rw [Prog.run_bind_ok _ (hissued.inclusionProofCt_run E h.indexed)]
    exact ⟨_, rfl, rfl, rfl⟩

/-! ### The tie-back -/

variable (texts W base64Error) in
private theorem authority_app {pem : Bytes} (h : V.publicKeyPem cfg.authorityPubkey = some pem) (clocks : Clocks) (a : App) :
    ∃ pub, answer (a.get E cfg texts W base64Error clocks) "/anchor/authority-pubkey" = some (.ok pub) ∧
      authorityPem V pub = some pem := by
  let pub : Json := .obj [("pubkey_hex", .str (bytesHex cfg.authorityPubkey)), ("key_id", .str E.keyId)]
  have hitem : item pub "pubkey_hex" = some (.str (bytesHex cfg.authorityPubkey)) := rfl
  refine ⟨pub, ?_, ?_⟩
  · rw [answer, get_authority]
    rfl
  · rw [authorityPem, hitem]
    simp only [Option.bind_eq_bind, Option.bind_some, pyStr, fromHex_bytesHex, h]

/-- The root of a kept receipt is the one that its path leads to. -/
private theorem path_of_kept {s : MemoryStore} {k : Digest} {row : CoseReceipt × Int × Nat}
    (h : Issued E s k row.1 row.2.1 row.2.2) : verifyInclusionPath E.sha256 (leafHash E.sha256 k.bytes) row.1.leafIndex
      row.1.treeSize row.1.auditPath (rootAt E s.log row.2.2) = true := by
  have hverified := (h.proven E).verifyInclusion E
  rw [verifyInclusion] at hverified
  split at hverified
  · cases hverified
  · rename_i hpath
    rw [h.names.1, h.names.2]
    exact not_not.1 hpath

variable (texts W base64Error) in
/-- What the app keeps is served and verifies. -/
private theorem served_app (hverifies : VerifiesServed E cfg V) {a : App} (h : Kept E a.store) {cp : Checkpoint}
    {row : CoseReceipt × Int × Nat} (hrow : a.store.statements.lookup (checkpointEntry E cp) = some row) (clocks : Clocks) :
    ∃ entryHash receipt pem result, Served E V (a.get E cfg texts W base64Error clocks) cp entryHash receipt pem ∧
      V.verifyReceipt receipt entryHash pem = some result ∧ result.ok = true := by
  have hissued := h.cached _ _ hrow
  have hinclusion := inclusion_eq h cp
  rw [hrow] at hinclusion
  obtain ⟨response, hresponse, hentry, hreceipt⟩ := hinclusion
  obtain ⟨pem, hpem, haccepts⟩ := hverifies.authority
  obtain ⟨result, hresult, hok⟩ := haccepts _ _ _ (path_of_kept hissued) hissued.signature
  refine ⟨.str (checkpointEntry E cp).hex, row.1.toBytes E, pem, result, ⟨⟨inclusionJson E response, ?_, rfl, rfl, ?_, ?_⟩, ?_⟩,
    hresult, hok⟩
  · rw [answer, get_inclusion, hresponse]
    rfl
  · rw [← hentry]
    rfl
  · have hitem : item (inclusionJson E response) "receipt_b64" = some (.str (b64encode (response.receipt.toBytes E))) := rfl
    rw [receiptBytes, hitem, hreceipt]
    simp only [Option.bind_eq_bind, Option.bind_some, pyStr, hverifies.base64, Base64.decode_b64encode]
    rfl
  · exact authority_app texts W base64Error hpem clocks a

variable (texts W base64Error) in
/-- The tie-back returns, and passes exactly when the app keeps a receipt for the checkpoint. -/
private theorem tieBack_app (hverifies : VerifiesServed E cfg V) {a : App} (h : Kept E a.store) (clocks : Clocks)
    (cp : Checkpoint) : (∃ report, TieBackEnds E V (a.get E cfg texts W base64Error clocks) cp report) ∧
      ((∃ entryHash receipt pem result, Served E V (a.get E cfg texts W base64Error clocks) cp entryHash receipt pem ∧
        V.verifyReceipt receipt entryHash pem = some result ∧ result.ok = true) ↔ a.Witnesses E cp) := by
  cases hrow : a.store.statements.lookup (checkpointEntry E cp) with
  | none =>
    have hinclusion := inclusion_eq h cp
    rw [hrow] at hinclusion
    simp only at hinclusion
    have hanswer : answer (a.get E cfg texts W base64Error clocks) (inclusionPath E cp) = some (.error 404) := by
      rw [answer, get_inclusion, hinclusion]
      rfl
    refine ⟨⟨_, .absent "" hanswer⟩, ?_⟩
    constructor
    · rintro ⟨_, _, _, _, ⟨⟨body, hbody, -⟩, -⟩, -⟩
      cases hbody.symm.trans hanswer
    · rintro ⟨row, hsome⟩
      cases hrow.symm.trans hsome
  | some row =>
    obtain ⟨entryHash, receipt, pem, result, hserved, hresult, hok⟩ := served_app texts W base64Error hverifies h hrow clocks
    refine ⟨⟨_, .checked "" "" hserved hresult⟩, iff_of_true ?_ ⟨row, hrow⟩⟩
    exact ⟨entryHash, receipt, pem, result, hserved, hresult, hok⟩

/-! ### One run of the watcher -/

private theorem rejected_claims {i : WatchInput} {e : WireError} {report : ConformanceReport}
    (hparse : parseDeclared E texts W i.allowlist expectedLogId i.checkpointBytes = .error e)
    (h : checkCheckpointWire E texts W i.allowlist expectedLogId i.expectedGrade i.checkpointBytes = some report) :
    report.claims = none := by
  simp only [checkCheckpointWire, hparse] at h
  cases e with
  | uncaught => cases h
  | notACheckpointError message =>
    rw [← Option.some.inj h]
    rfl
  | checkpointSignatureError message =>
    rw [← Option.some.inj h]
    rfl

/-- Bytes that are no accepted checkpoint of the log pass nothing, and leave the file. -/
private theorem watch_unaccepted (hdigits : JsonDigits W) (file : Option StateFile) {i : WatchInput}
    (h : ∀ cp, ¬ AcceptedAs E texts W expectedLogId i cp) :
    ∃ reply, watch E texts W V expectedLogId file i = (reply, file) ∧
      ∀ report, reply = some report → report.hasFailure = true ∨ report.claims = none := by
  cases hparse : parseDeclared E texts W i.allowlist expectedLogId i.checkpointBytes with
  | error e =>
    cases hwire : checkCheckpointWire E texts W i.allowlist expectedLogId i.expectedGrade i.checkpointBytes with
    | none =>
      refine ⟨none, by simp only [watch, hwire], ?_⟩
      intro report hreport
      cases hreport
    | some wire =>
      have hclaims := rejected_claims hparse hwire
      refine ⟨some wire, by simp only [watch, hwire, hclaims], ?_⟩
      rintro report ⟨⟩
      exact .inr hclaims
  | ok cp =>
    obtain ⟨wire, hwire, hclaims, hfails⟩ := wire_of_accepted hdigits i.expectedGrade hparse
    have hother : wire.hasFailure = true := by
      rw [← Bool.not_eq_false, hfails]
      rintro ⟨hlog, -⟩
      exact h cp ⟨hparse, hlog⟩
    simp only [watch, hwire, hclaims]
    cases checkWitnessTieBack E texts V cp i.get with
    | none =>
      refine ⟨none, rfl, ?_⟩
      intro report hreport
      cases hreport
    | some tieBack =>
      simp only
      cases checkContinuity E file cp with
      | none =>
        refine ⟨none, rfl, ?_⟩
        intro report hreport
        cases hreport
      | some continuity =>
        have hbad : ((wire.merge tieBack).merge continuity).hasFailure = true := by
          rw [hasFailure_merge, hasFailure_merge, hother]
          rfl
        refine ⟨_, if_pos hbad, ?_⟩
        rintro report ⟨⟩
        exact .inl hbad

/-! ### What was stamped -/

/-- The service has a row for what it has stamped. -/
private theorem row_of_stamped {s s' : MemoryStore} (h : Indexed s.log) {now : Nat → Datetime} {cp : Checkpoint}
    (hplain : ¬ EmbedsPayload E (checkpointDigest E cp).bytes) {result : StatementRegistration}
    (hrun : (witnessCheckpoint E cfg.toConfig now cp).run MemoryStore.exec s = (.ok result, s')) :
    ∃ row, s'.statements.lookup (checkpointEntry E cp) = some row := by
  have hcases := step_cases E cfg.toConfig h (now, .witnessCheckpoint cp)
  have hstep : step E cfg.toConfig s (now, .witnessCheckpoint cp) = (.ok (.registered result), s') := by
    rw [step, Request.program, Prog.run_map, hrun]
    rfl
  rw [hstep] at hcases
  cases hcases with
  | registered _ statementBytes grade cp' _ s₁ hsubmission hregister =>
    obtain ⟨rfl, rfl, rfl⟩ : (checkpointDigest E cp).bytes = statementBytes ∧ cp.grade = grade ∧ some cp = cp' := by
      simpa [Request.submission] using hsubmission
    have hkey : ∀ {sub}, Prepared E (checkpointDigest E cp).bytes sub →
        sub.entryHash = checkpointEntry E cp ∧ sub.legacyHash = checkpointEntry E cp := by
      intro sub hprep
      have hpreimage := hprep.preimage
      rw [preimage_of_not_embeds hplain] at hpreimage
      refine ⟨?_, hprep.legacyHash⟩
      rw [hprep.entryHash, (Prod.mk.inj hpreimage).1]
      rfl
    have hlookup : ∃ row, s₁.statements.lookup (checkpointEntry E cp) = some row := by
      cases hregister with
      | cached sub found scheme hprep hfound =>
        obtain ⟨hentry, hlegacy⟩ := hkey (prepare_ok E hprep)
        have hrow := cachedStatement_some E (prepare_ok E hprep) hfound
        rw [hentry, hlegacy, ite_self] at hrow
        exact ⟨found, hrow⟩
      | fresh sub s₂ status g hprep =>
        obtain ⟨hentry, -⟩ := hkey (prepare_ok E hprep)
        rw [statements_freshState, hentry]
        exact ⟨_, AList.lookup_insert _⟩
    obtain ⟨row, hrow⟩ := hlookup
    exact ⟨row, (congrArg (AList.lookup _) (statements_recordSurface (some cp) s₁ result)).trans hrow⟩

variable (E cfg texts W base64Error) in
/-- The pruner aside, an activity keeps what the app has for a checkpoint. -/
private theorem witnesses_act {a : App} (h : Kept E a.store) {cp : Checkpoint} (hwitnesses : a.Witnesses E cp)
    {r : Clocks × Activity} (hprune : ∀ seconds, r.2 ≠ .prune seconds) :
    (a.act E cfg texts W base64Error r).2.Witnesses E cp := by
  obtain ⟨row, hrow⟩ := hwitnesses
  refine ⟨row, ?_⟩
  rcases App.act_store E cfg texts W base64Error a r with hsame | ⟨request, hstep, -, hpruner⟩
  · rw [hsame, hrow]
  · rw [hstep]
    have hrequest : ∀ seconds, request ≠ .prune seconds := fun seconds heq => hprune seconds (hpruner seconds heq)
    exact (step_cases E cfg.toConfig h.indexed (r.1.now, request)).row_kept E cfg.toConfig hrequest hrow

variable (E cfg texts W V expectedLogId base64Error) in
private theorem kept_world {w : World} (h : Kept E w.app.store) (r : WorldRequest) :
    Kept E (World.step E cfg texts W V expectedLogId base64Error w r).2.app.store := by
  cases r with
  | act r => exact App.kept_act E cfg texts W base64Error h r
  | watch i => exact h

/-- What the app has just stamped has its receipt. -/
private theorem witnesses_of_stamped {a : App} (h : Kept E a.store) {clocks : Clocks} {contentType : String} {body : Bytes}
    {cp : Checkpoint} (hparse : App.parseCheckpoint E cfg texts W contentType body = .ok cp)
    (hplain : ¬ EmbedsPayload E (checkpointDigest E cp).bytes) {response : RouteResponse}
    (hanswer : (a.checkpoints E cfg texts W clocks contentType body).1 = .ok response) :
    (a.checkpoints E cfg texts W clocks contentType body).2.Witnesses E cp := by
  obtain ⟨cp', result, -, -, hparse', -, hrun, -⟩ := App.checkpoints_stamped E cfg texts W hanswer
  obtain rfl := Except.ok.inj (hparse.symm.trans hparse')
  exact row_of_stamped h.indexed hplain hrun

private theorem lastPassed_append (es : List WorldEvent) (e : WorldEvent) :
    lastPassed (es ++ [e]) = (passedCheckpoint e).or (lastPassed es) := by
  rw [lastPassed, List.filterMap_append, List.getLast?_append]
  cases h : passedCheckpoint e with
  | none => simp [h, lastPassed]
  | some cp => simp [h]

variable (E expectedLogId) in
/-- What the app and the state file hold after the events. -/
private structure InStep (es : List WorldEvent) (w : World) : Prop where
  kept : Kept E w.app.store
  fresh : lastPassed es = none → w.stateFile = none
  remembered : ∀ cp, lastPassed es = some cp → Remembers w.stateFile cp ∧ cp.logId = expectedLogId
  chained : (es.filterMap passedCheckpoint).IsChain Follows

/-- An event that passes nothing. -/
private theorem InStep.idle {es : List WorldEvent} {w w' : World} (h : InStep E expectedLogId es w) {e : WorldEvent}
    (hpassed : passedCheckpoint e = none) (hkept : Kept E w'.app.store) (hfile : w'.stateFile = w.stateFile) :
    InStep E expectedLogId (es ++ [e]) w' := by
  have hlast : lastPassed (es ++ [e]) = lastPassed es := by
    rw [lastPassed_append, hpassed, Option.none_or]
  refine ⟨hkept, ?_, ?_, ?_⟩
  · rw [hlast, hfile]
    exact h.fresh
  · rw [hlast, hfile]
    exact h.remembered
  · rw [List.filterMap_append, List.filterMap_cons_none hpassed, List.filterMap_nil, List.append_nil]
    exact h.chained

/-- An event that passes a checkpoint, which follows the last one. -/
private theorem InStep.pass {es : List WorldEvent} {w w' : World} (h : InStep E expectedLogId es w) {e : WorldEvent}
    {cp : Checkpoint} (hpassed : passedCheckpoint e = some cp) (hkept : Kept E w'.app.store)
    (hremembers : Remembers w'.stateFile cp) (hlog : cp.logId = expectedLogId)
    (hfollows : ∀ last, lastPassed es = some last → Follows last cp) : InStep E expectedLogId (es ++ [e]) w' := by
  have hlast : lastPassed (es ++ [e]) = some cp := by
    rw [lastPassed_append, hpassed, Option.some_or]
  refine ⟨hkept, ?_, ?_, ?_⟩
  · rw [hlast]
    intro hnone
    cases hnone
  · rw [hlast]
    rintro cp' ⟨⟩
    exact ⟨hremembers, hlog⟩
  · rw [List.filterMap_append, List.filterMap_cons_some hpassed, List.filterMap_nil, List.isChain_append]
    refine ⟨h.chained, .singleton cp, ?_⟩
    intro last hmem cp' hcp'
    obtain rfl := Option.some.inj hcp'
    exact hfollows last hmem

variable (texts W base64Error) in
/-- The checks of a run against the app. -/
private theorem InStep.passesAll_iff (hverifies : VerifiesServed E cfg V) {es : List WorldEvent} {w : World}
    (h : InStep E expectedLogId es w) (i : AppWatch) (cp : Checkpoint) :
    PassesAll E V w.stateFile (i.input E cfg texts W base64Error w.app) cp ↔ ToPass E es w.app i cp := by
  obtain ⟨-, hwitnessed⟩ := tieBack_app texts W base64Error hverifies h.kept i.clocks cp
  have hcontinues : (∀ claims, w.stateFile = some claims →
      claims.lookup "mmr_size" = some (.int cp.prevSize) ∧ claims.lookup "root" = some (.str (prevRootText cp))) ↔
      ∀ last, lastPassed es = some last → Follows last cp := by
    cases hlast : lastPassed es with
    | none =>
      have hfile := h.fresh hlast
      simp [hfile]
    | some last =>
      rw [continues_iff (h.remembered last hlast).1]
      simp
  constructor
  · intro hpasses
    exact ⟨hwitnessed.1 hpasses.witnessed, hpasses.grade, hcontinues.1 hpasses.continues⟩
  · intro hpass
    exact ⟨hpass.grade, hwitnessed.2 hpass.witnessed, hcontinues.2 hpass.follows⟩

variable (texts W base64Error) in
/-- How a run on an accepted checkpoint ends: it raises, fails or passes. -/
private theorem InStep.watch_ends (hdigits : JsonDigits W) (hverifies : VerifiesServed E cfg V) {es : List WorldEvent}
    {w : World} (h : InStep E expectedLogId es w) {i : AppWatch} {cp : Checkpoint}
    (hi : i.Accepts E texts W expectedLogId cp) :
    let ends := watch E texts W V expectedLogId w.stateFile (i.input E cfg texts W base64Error w.app)
    (ToPass E es w.app i cp ∧ cp.consistencyProof.join ≠ none ∧ ends = (none, w.stateFile)) ∨
    (¬ ToPass E es w.app i cp ∧ ∃ report, ends = (some report, w.stateFile) ∧ report.hasFailure = true) ∨
    (ToPass E es w.app i cp ∧ cp.consistencyProof.join = none ∧ ∃ report written, ends = (some report, some written) ∧
      report.hasFailure = false ∧ report.claims = some cp ∧ Remembers (some written) cp) := by
  intro ends
  have hiff := h.passesAll_iff texts W base64Error hverifies i cp
  obtain ⟨hreturns, -⟩ := tieBack_app texts W base64Error hverifies h.kept i.clocks cp
  have haccepted : AcceptedAs E texts W expectedLogId (i.input E cfg texts W base64Error w.app) cp := hi
  cases CapsuleAnchor.watch_ends (V := V) hdigits h.fresh h.remembered haccepted with
  | unanswered hanswer =>
    obtain ⟨report, hends⟩ := hreturns
    exact absurd hends (hanswer report)
  | unwritten _ hpasses hproof hwatch => exact .inl ⟨hiff.1 hpasses, hproof, hwatch⟩
  | failed _ hpasses report hwatch hfails => exact .inr (.inl ⟨fun hpass => hpasses (hiff.2 hpass), report, hwatch, hfails⟩)
  | remembered _ hpasses hproof report written hwatch hgood hclaims hremembers =>
    exact .inr (.inr ⟨hiff.1 hpasses, hproof, report, written, hwatch, hgood, hclaims, hremembers⟩)

private theorem passedCheckpoint_bad {w w' : World} {r : WorldRequest} {reply : Option ConformanceReport}
    (h : ∀ report, reply = some report → report.hasFailure = true ∨ report.claims = none) :
    passedCheckpoint ⟨w, r, .watched reply, w'⟩ = none := by
  cases reply with
  | none => rfl
  | some report =>
    rcases h report rfl with hfails | hclaims
    · simp only [passedCheckpoint, hfails, if_true]
    · simp only [passedCheckpoint, hclaims, ite_self]

variable (texts W base64Error) in
private theorem InStep.step (hdigits : JsonDigits W) (hverifies : VerifiesServed E cfg V) (es : List WorldEvent) (w : World)
    (r : WorldRequest) (h : InStep E expectedLogId es w) :
    InStep E expectedLogId (es ++ [⟨w, r, (World.step E cfg texts W V expectedLogId base64Error w r).1,
      (World.step E cfg texts W V expectedLogId base64Error w r).2⟩])
      (World.step E cfg texts W V expectedLogId base64Error w r).2 := by
  cases r with
  | act r => exact h.idle rfl (App.kept_act E cfg texts W base64Error h.kept r) rfl
  | watch i =>
    by_cases haccepts : ∃ cp, i.Accepts E texts W expectedLogId cp
    · obtain ⟨cp, hi⟩ := haccepts
      rcases h.watch_ends texts W base64Error hdigits hverifies hi with
        ⟨-, -, hwatch⟩ | ⟨-, report, hwatch, hfails⟩ | ⟨hpass, -, report, written, hwatch, hgood, hclaims, hremembers⟩
      · simp only [World.step, hwatch]
        exact h.idle rfl h.kept rfl
      · simp only [World.step, hwatch]
        refine h.idle (passedCheckpoint_bad ?_) h.kept rfl
        rintro report' ⟨⟩
        exact .inl hfails
      · simp only [World.step, hwatch]
        refine h.pass ?_ h.kept hremembers hi.2 hpass.follows
        simp only [passedCheckpoint, hgood, Bool.false_eq_true, if_false, hclaims]
    · obtain ⟨reply, hwatch, hbad⟩ := watch_unaccepted (V := V) hdigits w.stateFile
        (i := i.input E cfg texts W base64Error w.app) (fun cp hcp => haccepts ⟨cp, hcp⟩)
      simp only [World.step, hwatch]
      exact h.idle (passedCheckpoint_bad hbad) h.kept rfl

/-- An empty app stamps a checkpoint of a submitter that is not enrolled. -/
private theorem stamped_first (clocks : Clocks) {contentType : String} {body : Bytes} {cp : Checkpoint} (hbody : body ≠ [])
    (hlength : body.length ≤ maxStatementBytes) (hparse : App.parseCheckpoint E cfg texts W contentType body = .ok cp)
    (hgrade : cp.grade = none) (hdecode : decodeCoseSign1 E (checkpointDigest E cp).bytes = none) :
    ∃ response, (App.checkpoints E cfg texts W clocks contentType body {}).1 = .ok response := by
  have hsize : (checkpointDigest E cp).bytes.length ≤ maxStatementBytes := by
    rw [Digest.length_bytes, maxStatementBytes]
    omega
  have hregister := register_fresh_run E cfg.toConfig indexed_nil (prepare_raw E cfg.payloadPolicy hdecode hsize) rfl
    (cachedStatement_none.2 ⟨AList.lookup_empty _, AList.lookup_empty _⟩)
    (show (optionally (some cp) (checkCheckpointContinuity E cfg.toConfig)).run MemoryStore.exec {} = (.ok (some .firstSeen), {})
      from rfl) clocks.now cp.grade
  have hrun : ∃ result s, (witnessCheckpoint E cfg.toConfig clocks.now cp).run MemoryStore.exec {} = (.ok result, s) := by
    rw [witnessCheckpoint, Prog.run_bind_ok _ hregister]
    exact ⟨_, _, rfl⟩
  obtain ⟨result, s, hrun⟩ := hrun
  have hallowed : (App.postAllowed (clocks.monotonic 0) {}).1 = true := rfl
  have hbudget : App.submitterAllowed E cfg (clocks.monotonic 1) cp (App.postAllowed (clocks.monotonic 0) {}).2 =
      (.ok (), (App.postAllowed (clocks.monotonic 0) {}).2) := by
    rw [App.submitterAllowed, App.submitterOf, if_pos hgrade]
  have hcall : ((App.postAllowed (clocks.monotonic 0) {}).2.call (witnessCheckpoint E cfg.toConfig clocks.now cp)).1 =
      .ok result := by
    rw [App.call]
    exact congrArg Prod.fst hrun
  rw [App.checkpoints, if_neg hbody, if_neg (by omega)]
  simp only [hallowed, Bool.true_eq_false, if_false, hparse, App.witnessCheckpointCp, hbudget, hcall]
  exact ⟨_, rfl⟩

private def watchedConfig : AppConfig := ⟨{}, openAllowlist, none, []⟩

open Classical in
/-- It accepts what the library promises to accept, and nothing else. -/
private noncomputable def pathVerifier : Verifier where
  publicKeyPem b := some b
  b64decode text := (Base64.decode false text).toOption
  verifyReceipt receipt leaf pem := some ⟨decide (∃ (r : CoseReceipt) (entry root : Digest), receipt = r.toBytes watchedEnv ∧
    leafEntry leaf = some entry.bytes ∧ pem = watchedConfig.authorityPubkey ∧
    verifyInclusionPath watchedEnv.sha256 (leafHash watchedEnv.sha256 entry.bytes) r.leafIndex r.treeSize r.auditPath root ∧
    r.signature = watchedEnv.sign (sigStructure watchedEnv (receiptProtected watchedEnv r.iat r.grade r.continuity) root.bytes)),
    "", "", []⟩

open Classical in
private theorem pathVerifier_verifies : VerifiesServed watchedEnv watchedConfig pathVerifier where
  base64 _ := rfl
  authority := by
    refine ⟨_, rfl, ?_⟩
    intro receipt entry root hpath hsignature
    exact ⟨_, rfl, decide_eq_true ⟨receipt, entry, root, rfl, leafEntry_hex entry, rfl, hpath, hsignature⟩⟩

private def watchedClocks : Clocks := ⟨fun _ => ⟨0, 0⟩, fun _ => 0⟩

private theorem watched_parsed : App.parseCheckpoint watchedEnv watchedConfig watchedTexts watchedWire "" (watchedBody false) =
    .ok (watchedCheckpoint none) := by
  have haccepted := (watched_accepted (.inl rfl) "").1
  rw [parseDeclared, if_neg (by decide)] at haccepted
  have hmedia : App.mediaType "" ≠ App.cllCheckpointJsonContentType := by
    intro h
    have htext := congrArg String.toList h
    simp [App.mediaType, String.toLower, String.toList_map, App.cllCheckpointJsonContentType] at htext
  rw [App.parseCheckpoint, if_neg hmedia]
  exact haccepted

private theorem watched_undecoded : decodeCoseSign1 watchedEnv (checkpointDigest watchedEnv (watchedCheckpoint none)).bytes = none := by
  rw [decodeCoseSign1, watchedEnv_cborLoads (Digest.length_bytes _)]

private theorem watched_plain : ¬ EmbedsPayload watchedEnv (checkpointDigest watchedEnv (watchedCheckpoint none)).bytes := by
  rintro ⟨sign1, hdecode, -⟩
  rw [watched_undecoded] at hdecode
  cases hdecode

private def watchedPost : WorldRequest := .act (watchedClocks, .http (.checkpoints "" (watchedBody false)))

private noncomputable abbrev watchedStep : World → WorldRequest → WorldReply × World :=
  World.step watchedEnv watchedConfig watchedTexts watchedWire pathVerifier "log" fun _ => ""

end CapsuleAnchor
