import CapsuleAnchor.Dedup
import CapsuleAnchor.Receipts

/-!
# Registering a digest

`POST /register` and `POST /v1/digest` register the 32 bytes of a capsule id as a statement; `GET /v1/inclusion` looks
their SHA-256 up.  The registration looks at the bytes first, as at any statement: bytes that decode as a COSE_Sign1
with an embedded payload are filed under the hash of their `Sig_structure` (`EmbedsPayload`).

`digest_round_trip`: the two routes agree, and different ids have different leaves, exactly when no id that was
registered is such a COSE_Sign1.  `embedded_digest_lost` is one that is.
-/

namespace CapsuleAnchor

variable (E : Env) (cfg : Config)

/-! ### The routes -/

/-- `HTTPException`. -/
structure HttpException where
  statusCode : Nat
  detail : String
deriving DecidableEq

structure RegisterStatementResponse where
  receipt : CoseReceipt
  entryHash : Digest
  entryHashScheme : EntryHashScheme
  leafIndex : Int
  treeSize : Nat
deriving DecidableEq

structure InclusionResolveResponse where
  capsuleId : String
  entryHash : Digest
  leafIndex : Int
  treeSize : Nat
  leafHash : Digest
  auditPath : List Digest
  rootHash : Digest
  receipt : CoseReceipt
deriving DecidableEq

/-- `str.isspace` of one character. -/
def isSpace (c : Char) : Bool :=
  let n := c.toNat
  (9 ≤ n && n ≤ 13) || (28 ≤ n && n ≤ 32) || n == 0x85 || n == 0xa0 || n == 0x1680 || (0x2000 ≤ n && n ≤ 0x200a) ||
    n == 0x2028 || n == 0x2029 || n == 0x202f || n == 0x205f || n == 0x3000

/-- `capsule_id.lower().strip()`; a letter outside ASCII is no hex digit in either case. -/
def normalizedCapsuleId (capsuleId : String) : String :=
  String.ofList (((capsuleId.toLower.toList.dropWhile isSpace).reverse.dropWhile isSpace).reverse)

/-- The digest that 64 hex digits name. -/
def capsuleDigest (capsuleId : String) : Option Digest := Digest.ofHex? (normalizedCapsuleId capsuleId)

def malformedCapsuleId : HttpException := ⟨400, "capsule_id must be a 64-character hex string (32-byte SHA-256 digest)"⟩

/-- `_register_digest`; `allowed` is what the rate limiter says. -/
def registerDigest (now : Nat → Datetime) (allowed : Bool) (capsuleId : String) :
    ServiceM (Except HttpException RegisterStatementResponse) :=
  if allowed = false then pure (.error ⟨429, "rate limit exceeded — try again later"⟩)
  else match capsuleDigest capsuleId with
    | none => pure (.error malformedCapsuleId)
    | some d => do
      let result ← registerSignedStatementFull E cfg now d.bytes none none
      return .ok { receipt := result.receipt, entryHash := result.entryHash, entryHashScheme := result.entryHashScheme
                   leafIndex := result.leafIndex, treeSize := result.treeSize }

/-- `inclusion`. -/
def inclusion (capsuleId : String) : ServiceM (Except HttpException InclusionResolveResponse) :=
  match capsuleDigest capsuleId with
  | none => pure (.error malformedCapsuleId)
  | some d => do
    let entryHash := E.sha256 d.bytes
    match ← store (.getStatement entryHash) with
    | none => return .error ⟨404, "capsule_id not found in transparency log"⟩
    | some (receipt, leafIndex, treeSize) =>
      let proof ← inclusionProofCt E leafIndex (some treeSize)
      return .ok { capsuleId := normalizedCapsuleId capsuleId, entryHash, leafIndex, treeSize
                   leafHash := proof.leafHash, auditPath := proof.auditPath, rootHash := proof.rootHash, receipt }

/-! ### What the two routes are to agree on -/

/-- The event is a `POST /register` of this capsule id that is answered with 200. -/
def Posted (e : ServiceEvent) (capsuleId : String) (response : RegisterStatementResponse) : Prop :=
  ∃ d, capsuleDigest capsuleId = some d ∧ e.request.2 = .register d.bytes ∧
    (registerDigest E cfg e.request.1 true capsuleId).run MemoryStore.exec e.before = (.ok (.ok response), e.after)

/-- The response names the SHA-256 of the capsule id, and `GET /v1/inclusion` agrees with it in every later state. -/
def RoundTrip (e : ServiceEvent) (capsuleId : String) (response : RegisterStatementResponse) : Prop :=
  (∃ d, capsuleDigest capsuleId = some d ∧ response.entryHash = E.sha256 d.bytes) ∧
  ∀ later, NoPrune later → let s := Run.after (step E cfg) e.after later
    ∃ resolved, (inclusion E capsuleId).run MemoryStore.exec s = (.ok (.ok resolved), s) ∧
      resolved.entryHash = response.entryHash ∧ resolved.leafIndex = response.leafIndex ∧
      resolved.treeSize = response.treeSize ∧ resolved.receipt = response.receipt

/-- The bytes decode as a COSE_Sign1 with an embedded payload. -/
def EmbedsPayload (b : Bytes) : Prop := ∃ sign1, decodeCoseSign1 E b = some sign1 ∧ sign1.payload ≠ none

/-- No capsule id that was registered embeds a payload. -/
def NoneEmbeds (es : List ServiceEvent) : Prop :=
  ∀ e ∈ es, ∀ capsuleId response, Posted E cfg e capsuleId response →
    ∀ d, capsuleDigest capsuleId = some d → ¬ EmbedsPayload E d.bytes

variable {E cfg}

theorem preimage_of_not_embeds {b : Bytes} (h : ¬ EmbedsPayload E b) : entryHashPreimage E b = (b, .legacy) := by
  unfold entryHashPreimage
  split
  · rename_i p u payload sig hdecode
    exact absurd ⟨_, hdecode, by simp⟩ h
  · rfl

private theorem preimage_of_embeds {b : Bytes} (h : EmbedsPayload E b) :
    ∃ p payload, entryHashPreimage E b = (sigStructure E p payload, .sigStructure) ∧
      ∃ v, E.cborLoads b = some (.tag 18 v) := by
  obtain ⟨⟨p, u, payload, sig⟩, hdecode, hpayload⟩ := h
  cases payload with
  | none => exact absurd rfl hpayload
  | some payload =>
    refine ⟨p, payload, by simp only [entryHashPreimage, hdecode], ?_⟩
    unfold decodeCoseSign1 at hdecode
    split at hdecode
    · exact ⟨_, ‹_›⟩
    · exact ⟨_, ‹_›⟩
    · cases hdecode

/-- A post that is answered is a registration that returned. -/
private theorem Posted.registered {rs : List TimedRequest} {e : ServiceEvent} (he : e ∈ Run.trace (step E cfg) {} rs)
    {capsuleId : String} {response : RegisterStatementResponse} (h : Posted E cfg e capsuleId response) :
    ∃ d result, capsuleDigest capsuleId = some d ∧ e.request.2.submission E = some (d.bytes, none, none) ∧
      e.reply = .ok (.registered result) ∧ response.receipt = result.receipt ∧ response.entryHash = result.entryHash ∧
      response.leafIndex = result.leafIndex ∧ response.treeSize = result.treeSize := by
  obtain ⟨d, hd, hrequest, hrun⟩ := h
  have hsubmission : e.request.2.submission E = some (d.bytes, none, none) := by
    rw [hrequest]
    rfl
  obtain ⟨-, -, -, -, hreply, -⟩ := Run.trace_split (step E cfg) he
  rw [registerDigest, if_neg (by simp)] at hrun
  simp only [hd] at hrun
  rw [Prog.run_bind] at hrun
  cases hregister : (registerSignedStatementFull E cfg e.request.1 d.bytes none none).run MemoryStore.exec e.before with
  | mk r s =>
    rw [hregister] at hrun
    cases r with
    | error err => cases hrun
    | ok result =>
      obtain ⟨hresponse, -⟩ := Prod.mk.inj hrun
      have hstep := step_submission E cfg hsubmission hregister
      rw [show (e.request.1, e.request.2) = e.request from rfl] at hstep
      rw [hstep] at hreply
      obtain rfl := Except.ok.inj (Except.ok.inj hresponse)
      exact ⟨d, result, hd, hsubmission, hreply, rfl, rfl, rfl, rfl⟩

section Run

variable (huntagged : SigStructureUntagged E) {rs : List TimedRequest} (hprune : NoPrune rs)
  (hinj : Set.InjOn E.sha256 (hashed E rs)) {e : ServiceEvent} (he : e ∈ Run.trace (step E cfg) {} rs)
  {capsuleId : String} {response : RegisterStatementResponse} (hposted : Posted E cfg e capsuleId response) {d : Digest}
  (hd : capsuleDigest capsuleId = some d)
include huntagged hprune hinj he hposted hd

/-- The response names the entry hash of the bytes, and has the row that is found there ever after. -/
private theorem Posted.row (later : List TimedRequest) (hlater : NoPrune later) :
    response.entryHash = E.sha256 (entryHashPreimage E d.bytes).1 ∧
      (Run.after (step E cfg) e.after later).statements.lookup response.entryHash =
        some (response.receipt, response.leafIndex, response.treeSize) := by
  obtain ⟨d', result, hd', hsubmission, hreply, hreceipt, hhash, hleaf, hsize⟩ := hposted.registered he
  obtain rfl : d = d' := Option.some.inj (hd.symm.trans hd')
  obtain ⟨sub, hprep, hkey, hrow⟩ := found_later E cfg huntagged hprune hinj he hsubmission hreply hlater
  have hsub := prepare_ok E hprep
  rw [hreceipt, hhash, hleaf, hsize, hkey]
  refine ⟨?_, hrow⟩
  rw [hsub.entryHash, ← hsub.preimage]

omit huntagged hprune hinj in
private theorem Posted.mem_hashed : d.bytes ∈ hashed E rs ∧ (entryHashPreimage E d.bytes).1 ∈ hashed E rs := by
  obtain ⟨d', -, hd', hsubmission, -⟩ := hposted.registered he
  obtain rfl : d = d' := Option.some.inj (hd.symm.trans hd')
  obtain ⟨pre, post, hsplit, -⟩ := Run.trace_split (step E cfg) he
  have hmem : e.request ∈ rs := by
    rw [hsplit]
    simp
  exact ⟨⟨_, hmem, _, _, _, hsubmission, .inl rfl⟩, ⟨_, hmem, _, _, _, hsubmission, .inr rfl⟩⟩

/-- An id that embeds a payload is not filed under its SHA-256. -/
private theorem Posted.not_embeds (htrip : RoundTrip E cfg e capsuleId response) : ¬ EmbedsPayload E d.bytes := by
  intro hembeds
  obtain ⟨⟨d', hd', hhash⟩, -⟩ := htrip
  obtain rfl : d = d' := Option.some.inj (hd.symm.trans hd')
  obtain ⟨hkey, -⟩ := hposted.row huntagged hprune hinj he hd [] (fun _ h => absurd h List.not_mem_nil)
  obtain ⟨hbytes, hpreimage⟩ := hposted.mem_hashed he hd
  have hsame : (entryHashPreimage E d.bytes).1 = d.bytes := hinj hpreimage hbytes (hkey.symm.trans hhash)
  obtain ⟨p, payload, hsig, v, hv⟩ := preimage_of_embeds hembeds
  rw [hsig] at hsame
  rw [← hsame] at hv
  exact huntagged p payload v hv

/-- An id that embeds none is, and is resolved. -/
private theorem Posted.roundTrip (hplain : ¬ EmbedsPayload E d.bytes) : RoundTrip E cfg e capsuleId response := by
  have hpre := preimage_of_not_embeds hplain
  constructor
  · obtain ⟨hkey, -⟩ := hposted.row huntagged hprune hinj he hd [] (fun _ h => absurd h List.not_mem_nil)
    rw [hpre] at hkey
    exact ⟨d, hd, hkey⟩
  · intro later hlater s
    obtain ⟨hkey, hrow⟩ := hposted.row huntagged hprune hinj he hd later hlater
    rw [hpre] at hkey
    have hkept : Kept E s := by
      obtain ⟨pre, post, -, hbefore, -, hafter⟩ := Run.trace_split (step E cfg) he
      refine kept_after E cfg ?_ later
      rw [hafter, hbefore]
      exact kept_step E cfg (kept_after E cfg (kept_empty E) pre) e.request
    have hissued := hkept.cached _ _ hrow
    obtain ⟨proof, hproof⟩ : ∃ proof, (inclusionProofCt E response.leafIndex (some (response.treeSize : Int))).run
        MemoryStore.exec s = (.ok proof, s) := ⟨_, hissued.inclusionProofCt_run E hkept.indexed⟩
    rw [hkey] at hrow
    have hget : (store (.getStatement (E.sha256 d.bytes))).run MemoryStore.exec s =
        (.ok (some (response.receipt, response.leafIndex, response.treeSize)), s) := by
      rw [run_getStatement, hrow]
    let resolved : InclusionResolveResponse :=
      { capsuleId := normalizedCapsuleId capsuleId, entryHash := E.sha256 d.bytes, leafIndex := response.leafIndex
        treeSize := response.treeSize, leafHash := proof.leafHash, auditPath := proof.auditPath
        rootHash := proof.rootHash, receipt := response.receipt }
    refine ⟨resolved, ?_, hkey.symm, rfl, rfl, rfl⟩
    rw [inclusion]
    simp only [hd]
    rw [Prog.run_bind_ok _ hget]
    simp only
    rw [Prog.run_bind_ok _ hproof]
    rfl

/-- The leaf of the response has the entry hash of the bytes. -/
private theorem Posted.leaf : ∃ (i : Nat) (entry : TransparencyLogEntry), response.leafIndex = i ∧
    (Run.after (step E cfg) {} rs).log[i]? = some entry ∧ entry.payloadHash = E.sha256 (entryHashPreimage E d.bytes).1 := by
  obtain ⟨pre, post, hsplit, hbefore, -, hafter⟩ := Run.trace_split (step E cfg) he
  have hpost : NoPrune post := fun r hr => hprune r (by rw [hsplit]; exact List.mem_append_right _ (List.mem_cons_of_mem _ hr))
  obtain ⟨hkey, hrow⟩ := hposted.row huntagged hprune hinj he hd post hpost
  have hend : Run.after (step E cfg) e.after post = Run.after (step E cfg) {} rs := by
    rw [hsplit, Run.after_append, Run.after_cons, ← hbefore, ← hafter]
  rw [hend] at hrow
  obtain ⟨i, entry, hi, hentry, -, hhash⟩ := (matched_after E cfg hprune).cached _ _ hrow
  exact ⟨i, entry, hi, hentry, hhash.trans hkey⟩

end Run

variable (E cfg)

/-- `GET /v1/inclusion` resolves what `POST /register` registered, and different ids have different leaves, exactly when
no id that was registered embeds a payload. -/
theorem digest_round_trip (huntagged : SigStructureUntagged E) (rs : List TimedRequest) (hprune : NoPrune rs)
    (hinj : Set.InjOn E.sha256 (hashed E rs)) :
    let es := Run.trace (step E cfg) {} rs
    ((∀ e ∈ es, ∀ capsuleId response, Posted E cfg e capsuleId response → RoundTrip E cfg e capsuleId response) ∧
      ∀ e ∈ es, ∀ e' ∈ es, ∀ capsuleId capsuleId' response response', Posted E cfg e capsuleId response →
        Posted E cfg e' capsuleId' response' → capsuleDigest capsuleId ≠ capsuleDigest capsuleId' →
        response.leafIndex ≠ response'.leafIndex) ↔
    NoneEmbeds E cfg es := by
  intro es
  constructor
  · rintro ⟨htrips, -⟩ e he capsuleId response hposted d hd
    exact hposted.not_embeds huntagged hprune hinj he hd (htrips e he capsuleId response hposted)
  · intro hplain
    refine ⟨?_, ?_⟩
    · intro e he capsuleId response hposted
      obtain ⟨d, hd, -⟩ := id hposted
      exact hposted.roundTrip huntagged hprune hinj he hd (hplain e he capsuleId response hposted d hd)
    · intro e he e' he' capsuleId capsuleId' response response' hposted hposted' hne hleaf
      obtain ⟨d, hd, -⟩ := id hposted
      obtain ⟨d', hd', -⟩ := id hposted'
      obtain ⟨i, entry, hi, hentry, hhash⟩ := hposted.leaf huntagged hprune hinj he hd
      obtain ⟨i', entry', hi', hentry', hhash'⟩ := hposted'.leaf huntagged hprune hinj he' hd'
      -- one leaf has one hash, and the two hashes are of the ids themselves
      obtain rfl : i = i' := by omega
      obtain rfl : entry = entry' := Option.some.inj (hentry.symm.trans hentry')
      rw [preimage_of_not_embeds (hplain e he capsuleId response hposted d hd)] at hhash
      rw [preimage_of_not_embeds (hplain e' he' capsuleId' response' hposted' d' hd')] at hhash'
      have hbytes : d.bytes = d'.bytes :=
        hinj (hposted.mem_hashed he hd).1 (hposted'.mem_hashed he' hd').1 (hhash.symm.trans hhash')
      exact hne (by rw [hd, hd', Digest.ext hbytes])

/-! ### Two capsule ids -/

private theorem registerDigest_run {now : Nat → Datetime} {s s' : MemoryStore} {capsuleId : String} {d : Digest}
    (hd : capsuleDigest capsuleId = some d) {result : StatementRegistration}
    (hrun : (registerSignedStatementFull E cfg now d.bytes none none).run MemoryStore.exec s = (.ok result, s')) :
    (registerDigest E cfg now true capsuleId).run MemoryStore.exec s =
      (.ok (.ok ⟨result.receipt, result.entryHash, result.entryHashScheme, result.leafIndex, result.treeSize⟩), s') := by
  rw [registerDigest, if_neg (by simp)]
  simp only [hd]
  rw [Prog.run_bind_ok _ hrun]
  rfl

private abbrev digestClock : Nat → Datetime := fun i => ⟨i, 0⟩

private def plainId : String := "0000000000000000000000000000000000000000000000000000000000000000"

private def plainDigest : Digest := filledDigest 0

private theorem capsuleDigest_plainId : capsuleDigest plainId = some plainDigest := by
  decide +kernel

/-- A capsule id that is no CBOR item. -/
theorem digest_round_trip_sample :
    let E := refEnv [] [] fun _ _ _ _ _ => false
    let es := Run.trace (step E {}) {} [(digestClock, .register plainDigest.bytes)]
    ∃ e ∈ es, ∃ response, Posted E {} e plainId response ∧ RoundTrip E {} e plainId response := by
  intro E es
  have hdecode : decodeCoseSign1 E plainDigest.bytes = none := rfl
  have hsize : plainDigest.bytes.length ≤ maxStatementBytes := by decide
  obtain ⟨result, s, hrun⟩ : ∃ result s, (registerSignedStatementFull E {} digestClock plainDigest.bytes none none).run
      MemoryStore.exec {} = (.ok result, s) :=
    ⟨_, _, register_fresh_run E {} indexed_nil (prepare_raw E ({} : Config).payloadPolicy hdecode hsize) rfl
      (cachedStatement_none.2 ⟨AList.lookup_empty _, AList.lookup_empty _⟩)
      (run_optionally_none (checkCheckpointContinuity E {})) digestClock none⟩
  let e : ServiceEvent := ⟨{}, (digestClock, .register plainDigest.bytes), .ok (.registered result), s⟩
  have he : e ∈ es := by
    have hstep : step E {} {} (digestClock, .register plainDigest.bytes) = (.ok (.registered result), s) :=
      step_submission E {} (show Request.submission E (.register plainDigest.bytes) = _ from rfl) hrun
    simp only [es, Run.trace, hstep]
    exact List.mem_singleton_self _
  have hposted : Posted E {} e plainId _ :=
    ⟨plainDigest, capsuleDigest_plainId, rfl, registerDigest_run E {} capsuleDigest_plainId hrun⟩
  have huntagged : SigStructureUntagged E := by
    intro p payload v h
    cases h
  have hprune : NoPrune [(digestClock, .register plainDigest.bytes)] := by
    intro r hr seconds
    obtain rfl := List.mem_singleton.1 hr
    intro heq
    cases heq
  have hinj : Set.InjOn E.sha256 (hashed E [(digestClock, .register plainDigest.bytes)]) := by
    have hall : ∀ x ∈ hashed E [(digestClock, .register plainDigest.bytes)], x = plainDigest.bytes := by
      rintro x ⟨r, hr, b, grade, cp, hsubmission, hx⟩
      obtain rfl := List.mem_singleton.1 hr
      obtain ⟨rfl, -, -⟩ : plainDigest.bytes = b ∧ none = grade ∧ none = cp := by
        simpa [Request.submission] using hsubmission
      rcases hx with rfl | rfl
      · rfl
      · rw [entryHashPreimage, hdecode]
    intro x hx y hy _
    rw [hall x hx, hall y hy]
  have hplain : NoneEmbeds E {} es := by
    rintro e _ capsuleId response _ d _ ⟨sign1, hsign1, -⟩
    cases hsign1
  exact ⟨e, he, _, hposted, ((digest_round_trip E {} huntagged _ hprune hinj).2 hplain).1 e he plainId _ hposted⟩

/-- A COSE_Sign1 over `statement` whose signature fills it up to 32 bytes. -/
private def embeddingDigest : Digest :=
  ⟨[210, 132, 67, 161, 1, 39, 160, 73] ++ ascii "statement" ++ 78 :: List.replicate 14 0, by decide⟩

private def embeddingId : String := "d28443a10127a04973746174656d656e744e0000000000000000000000000000"

private theorem capsuleDigest_embeddingId : capsuleDigest embeddingId = some embeddingDigest := by
  decide +kernel

private abbrev embeddingEnv : Env :=
  refEnv [(embeddingDigest.bytes, .tag 18 (.array [.bytes [161, 1, 39], .map [], .bytes (ascii "statement"),
    .bytes (List.replicate 14 0)])), ([161, 1, 39], .map [(.int 1, .int (-8))])] [] fun _ _ _ _ _ => false

private theorem embeddingHash_ne : embeddingEnv.sha256 embeddingDigest.bytes ≠
    embeddingEnv.sha256 (sigStructure embeddingEnv [161, 1, 39] (ascii "statement")) := by
  decide +kernel

/-- A capsule id that is registered under another hash than its own, and not found afterwards. -/
theorem embedded_digest_lost :
    let E := embeddingEnv
    ∃ response s, (registerDigest E {} digestClock true embeddingId).run MemoryStore.exec {} = (.ok (.ok response), s) ∧
      response.entryHash ≠ E.sha256 embeddingDigest.bytes ∧
      (inclusion E embeddingId).run MemoryStore.exec s =
        (.ok (.error ⟨404, "capsule_id not found in transparency log"⟩), s) := by
  intro E
  have hdecode : decodeCoseSign1 E embeddingDigest.bytes =
      some ⟨[161, 1, 39], [], some (ascii "statement"), List.replicate 14 0⟩ := rfl
  obtain ⟨sub, hprep, hfields, hscheme, hkey, -⟩ := prepare_statement E ({} : Config).payloadPolicy hdecode
    (show embeddingDigest.bytes.length ≤ maxStatementBytes by decide) rfl
  have hrun := register_fresh_run E {} (s := {}) indexed_nil hprep hfields
    (cachedStatement_none.2 ⟨AList.lookup_empty _, AList.lookup_empty _⟩)
    (run_optionally_none (checkCheckpointContinuity E {})) digestClock none
  refine ⟨_, _, registerDigest_run E {} capsuleDigest_embeddingId hrun, ?_, ?_⟩
  · intro hsame
    have hhash : sub.entryHash = E.sha256 embeddingDigest.bytes := hsame
    rw [hkey] at hhash
    exact embeddingHash_ne hhash.symm
  · have hmiss : (freshState E digestClock sub none none none {}).statements.lookup (E.sha256 embeddingDigest.bytes) = none := by
      rw [statements_freshState, hkey, AList.lookup_insert_ne embeddingHash_ne]
      exact AList.lookup_empty _
    rw [inclusion]
    simp only [capsuleDigest_embeddingId]
    rw [Prog.run_bind_ok _ (run_getStatement _), hmiss]
    rfl

end CapsuleAnchor
