import CapsuleAnchor.Opaque
import CapsuleAnchor.Routes

/-!
# What the routes keep

Every run of the app is, behind its routes, a run of the service (`act_store`), so that the invariants of the service hold in every
state of the app.

`internal_errors`: no request is answered 500 but for a payload or a submission that a parser of another package chokes on.
-/

namespace CapsuleAnchor

/-! ### The service behind the routes -/

section Service

variable (E : Env) (cfg : AppConfig) (texts : Texts) (W : Wire) (base64Error : Base64.Error → String)

namespace App

/-- A route that calls the program of a request takes a step of the service. -/
private theorem step_of_program (request : Request) {α : Type} {p : ServiceM α} {f : α → Reply} {now : Nat → Datetime}
    (h : request.program E cfg.toConfig now = f <$> p) (a : App) :
    (a.call p).2.store = (step E cfg.toConfig a.store (now, request)).2 := by
  rw [step, h, Prog.run_map]
  rfl

private theorem store_postAllowed (now : ℚ) (a : App) : (a.postAllowed now).2.store = a.store := rfl

private theorem store_submitterAllowed (now : ℚ) (cp : Checkpoint) (a : App) :
    (a.submitterAllowed E cfg now cp).2.store = a.store := by
  unfold submitterAllowed
  split <;> rfl

/-- The head that is published is taken like any other. -/
private theorem publish_store (a : App) (now : Nat → Datetime) (backend : String) (answer : Option PublicLogResponse)
    (submittedAt : String) :
    (Backend.memory.operate E cfg.toConfig (a.store, a.receipts) (now, .publish backend answer submittedAt)).2.1 =
      ((headToPublish E now).run MemoryStore.exec a.store).2 := by
  simp only [Backend.operate]
  rw [Backend.runRaising_memory]
  cases hrun : (headToPublish E now).run MemoryStore.exec a.store with
  | mk r s =>
    cases r with
    | error e => rfl
    | ok head => cases head <;> rfl

/-- The requests that append an entry. -/
def appends : Request → Bool
  | .anchor _ _ _ _ => true
  | .register _ => true
  | .witnessCheckpoint _ => true
  | _ => false

/-- The activity is a request to `/anchor/anchor`, which asks no limiter. -/
def isAnchor (r : Clocks × Activity) : Bool :=
  match r.2 with
  | .http (.anchor _ _ _ _ _) => true
  | _ => false

/-- The call of the global limiter that an activity makes. -/
def postCall (r : Clocks × Activity) : Option (Unit × ℚ) :=
  match r.2 with
  | .http (.registerStatement _) => some ((), r.1.monotonic 0)
  | .http (.register _) => some ((), r.1.monotonic 0)
  | .http (.checkpoints _ body) =>
    if body = [] ∨ maxStatementBytes < body.length then none else some ((), r.1.monotonic 0)
  | _ => none

/-- The activity may make the service append. -/
def MayAppend (a : App) (r : Clocks × Activity) : Prop :=
  isAnchor r = true ∨ postCall r = some ((), r.1.monotonic 0) ∧ (a.postAllowed (r.1.monotonic 0)).1 = true

/-- An activity takes no step of the service, or one, which appends for those that may and prunes for the pruner. -/
theorem act_store (a : App) (r : Clocks × Activity) :
    (a.act E cfg texts W base64Error r).2.store = a.store ∨
      ∃ request, (a.act E cfg texts W base64Error r).2.store = (step E cfg.toConfig a.store (r.1.now, request)).2 ∧
        (appends request = true → a.MayAppend r) ∧ ∀ seconds, request = .prune seconds → r.2 = .prune seconds := by
  obtain ⟨clocks, activity⟩ := r
  cases activity with
  | refreshSth => exact .inr ⟨.refreshSth, rfl, (fun h => by cases h), (fun _ h => by cases h)⟩
  | prune seconds =>
    refine .inr ⟨.prune seconds, rfl, (fun h => by cases h), ?_⟩
    rintro seconds' ⟨⟩
    rfl
  | publish backend answer submittedAt =>
    have hstore := publish_store E cfg a clocks.now backend answer submittedAt
    simp only [act, hstore]
    rw [headToPublish, Prog.run_bind_ok _ run_size]
    split
    · exact .inl rfl
    · refine .inr ⟨.getSth, ?_, (fun h => by cases h), (fun _ h => by cases h)⟩
      rw [step, Request.program, Prog.run_map, Prog.run_map]
  | http request =>
    cases request with
    | anchor tenantId rootHash seqFrom seqTo capsuleId =>
      exact .inr ⟨.anchor tenantId rootHash (seqFrom, seqTo) capsuleId, step_of_program E cfg _ rfl a, (fun _ => .inl rfl),
        (fun _ h => by cases h)⟩
    | sth =>
      refine .inr ⟨.getSth, ?_, (fun h => by cases h), (fun _ h => by cases h)⟩
      rw [← step_of_program E cfg .getSth rfl a]
      simp only [act, serve, sth]
      split <;> rfl
    | registerStatement signedStatementB64 =>
      simp only [act, serve, registerStatement]
      split
      · exact .inl rfl
      · rename_i hallowed
        split
        · exact .inl rfl
        · rename_i statementBytes _
          split
          · exact .inl rfl
          · split
            · exact .inl rfl
            · refine .inr ⟨.register statementBytes, ?_, (fun _ => .inr ⟨rfl, by simpa using hallowed⟩), (fun _ h => by cases h)⟩
              rw [← store_postAllowed (clocks.monotonic 0) a,
                ← step_of_program E cfg (.register statementBytes) rfl]
              split <;> rfl
    | register capsuleId =>
      have hanswer : (a.serve E cfg texts W base64Error clocks (.register capsuleId)).2 =
          ((a.postAllowed (clocks.monotonic 0)).2.call (CapsuleAnchor.registerDigest E cfg.toConfig clocks.now
            (a.postAllowed (clocks.monotonic 0)).1 capsuleId)).2 := by
        simp only [serve, registerDigest]
        split <;> rfl
      simp only [act, hanswer, CapsuleAnchor.registerDigest]
      split
      · exact .inl rfl
      · rename_i hallowed
        split
        · exact .inl rfl
        · rename_i d _
          refine .inr ⟨.register d.bytes, ?_, (fun _ => .inr ⟨rfl, by simpa using hallowed⟩), (fun _ h => by cases h)⟩
          rw [← store_postAllowed (clocks.monotonic 0) a,
            ← step_of_program E cfg (.register d.bytes) rfl]
          simp only [call]
          rw [Prog.run_bind]
          split <;> simp_all
    | checkpoints contentType body =>
      simp only [act, serve, checkpoints]
      split
      · exact .inl rfl
      · rename_i hempty
        split
        · exact .inl rfl
        · rename_i hsize
          split
          · exact .inl rfl
          · rename_i hallowed
            split
            · exact .inl rfl
            · rename_i cp _
              simp only [witnessCheckpointCp]
              have hbudget := store_submitterAllowed E cfg (clocks.monotonic 1) cp (a.postAllowed (clocks.monotonic 0)).2
              split
              · exact .inl hbudget
              · refine .inr ⟨.witnessCheckpoint cp, ?_, fun _ => .inr ⟨if_neg (not_or.2 ⟨hempty, hsize⟩), by simpa using hallowed⟩,
                  (fun _ h => by cases h)⟩
                rw [← store_postAllowed (clocks.monotonic 0) a, ← hbudget,
                  ← step_of_program E cfg (.witnessCheckpoint cp) rfl]
                split <;> rfl
    | _ => exact .inl rfl

/-- What the route of a stamp has checked, and the call of the service that it answers from. -/
theorem checkpoints_stamped {a : App} {clocks : Clocks} {contentType : String} {body : Bytes} {response : RouteResponse}
    (h : (a.checkpoints E cfg texts W clocks contentType body).1 = .ok response) :
    ∃ cp result, postCall (clocks, .http (.checkpoints contentType body)) = some ((), clocks.monotonic 0) ∧
      (a.postAllowed (clocks.monotonic 0)).1 = true ∧ parseCheckpoint E cfg texts W contentType body = .ok cp ∧
      ((a.postAllowed (clocks.monotonic 0)).2.submitterAllowed E cfg (clocks.monotonic 1) cp).1 = .ok () ∧
      (witnessCheckpoint E cfg.toConfig clocks.now cp).run MemoryStore.exec a.store =
        (.ok result, (a.checkpoints E cfg texts W clocks contentType body).2.store) ∧
      response = .stamped (withPublicLog cfg (stampResponse cp result) (a.checkpoints E cfg texts W clocks contentType body).2) := by
  unfold checkpoints at h ⊢
  split at h
  · cases h
  · rename_i hempty
    split at h
    · cases h
    · rename_i hsize
      simp only at h ⊢
      split at h
      · cases h
      · rename_i hallowed
        split at h
        · cases h
        · rename_i cp hparse
          have hbudget := store_submitterAllowed E cfg (clocks.monotonic 1) cp (a.postAllowed (clocks.monotonic 0)).2
          simp only [witnessCheckpointCp] at h
          split at h
          · cases h
          · rename_i hok
            split at h
            · cases h
            · rename_i result hresult
              refine ⟨cp, result, if_neg (not_or.2 ⟨hempty, hsize⟩), by simpa using hallowed, hparse, hok, ?_⟩
              simp only [if_neg hempty, if_neg hsize, if_neg hallowed, witnessCheckpointCp, hok, hresult]
              refine ⟨?_, (Except.ok.inj h).symm⟩
              simp only [call, hbudget, store_postAllowed] at hresult ⊢
              exact Prod.ext hresult rfl

theorem kept_act {a : App} (h : Kept E a.store) (r : Clocks × Activity) :
    Kept E (a.act E cfg texts W base64Error r).2.store := by
  rcases act_store E cfg texts W base64Error a r with hsame | ⟨request, hstep, -, -⟩
  · rwa [hsame]
  · rw [hstep]
    exact kept_step E cfg.toConfig h (r.1.now, request)

theorem kept_run (rs : List (Clocks × Activity)) :
    Kept E (Run.after (App.act E cfg texts W base64Error) {} rs).store :=
  Run.invariant (App.act E cfg texts W base64Error) (I := fun a => Kept E a.store)
    (fun _ r h => kept_act E cfg texts W base64Error h r) (kept_empty E) rs

/-! ### Internal errors -/

/-- The activities that reach a parser of another package with something it chokes on, or a service that reads a digest as a
statement. -/
def Unserved (clocks : Clocks) (a : App) : HttpRequest → Prop
  | .registerStatement signedStatementB64 => (a.postAllowed (clocks.monotonic 0)).1 = true ∧
    ∃ statementBytes, Base64.decode true signedStatementB64 = .ok statementBytes ∧ statementBytes ≠ [] ∧
      statementBytes.length ≤ maxStatementBytes ∧ Undecodable E statementBytes
  | .register capsuleId => ∃ d, capsuleDigest capsuleId = some d ∧ EmbedsPayload E d.bytes
  | .checkpoints contentType body => parseCheckpoint E cfg texts W contentType body = .error .uncaught ∨
    ∃ cp, parseCheckpoint E cfg texts W contentType body = .ok cp ∧ EmbedsPayload E (checkpointDigest E cp).bytes
  | _ => False

theorem refusal_ne_uncaught {α : Type} (statusCode : Nat) (message : String) :
    (refusal statusCode message : Except RouteError α) ≠ .error .uncaught := by
  intro h
  cases h

private theorem transparencyLog_throws {P : ServiceError → Prop} (afterIndex : Int) :
    (CapsuleAnchor.transparencyLog afterIndex).Throws P := Prog.Throws.perform _

private theorem inclusionProofCt_throws (leafIndex : Int) (treeSize : Option Int) :
    (CapsuleAnchor.inclusionProofCt E leafIndex treeSize).Throws fun e => ∃ message, e = .indexError message := by
  refine Prog.Throws.bind (transparencyLog_throws 0) ?_
  intro entries
  simp only
  split
  · split
    · trivial
    · exact ⟨_, rfl⟩
  · exact ⟨_, rfl⟩

private theorem consistencyProof_throws (oldSize newSize : Int) :
    (CapsuleAnchor.consistencyProof E oldSize newSize).Throws fun e => ∃ message, e = .valueError message := by
  refine Prog.Throws.bind (transparencyLog_throws 0) ?_
  intro entries
  simp only
  split
  · split
    · trivial
    · exact ⟨_, rfl⟩
  · exact ⟨_, rfl⟩

private theorem inclusionProof_ne (leafHashes : List String) (index : Int) :
    inclusionProof E leafHashes index ≠ .error .uncaught := by
  unfold inclusionProof
  cases hproof : CapsuleAnchor.inclusionProof E leafHashes index with
  | ok proof => exact fun h => by cases h
  | error e =>
    rw [CapsuleAnchor.inclusionProof, merkleProof] at hproof
    split at hproof
    · obtain rfl := Except.error.inj hproof
      exact refusal_ne_uncaught _ _
    · cases hproof

private theorem inclusionProofCt_ne (leafIndex : Int) (treeSize : Option Int) (a : App) :
    a.inclusionProofCt E leafIndex treeSize ≠ .error .uncaught := by
  unfold inclusionProofCt
  split
  · exact refusal_ne_uncaught _ _
  · split
    · exact refusal_ne_uncaught _ _
    · cases hread : a.read (CapsuleAnchor.inclusionProofCt E leafIndex treeSize) with
      | ok proof => exact fun h => by cases h
      | error e =>
        obtain ⟨message, rfl⟩ := (inclusionProofCt_throws E leafIndex treeSize).run_error hread
        exact refusal_ne_uncaught _ _

private theorem consistencyProof_ne (oldSize newSize : Int) (a : App) :
    a.consistencyProof E oldSize newSize ≠ .error .uncaught := by
  unfold consistencyProof
  split
  · exact refusal_ne_uncaught _ _
  · split
    · exact refusal_ne_uncaught _ _
    · cases hread : a.read (CapsuleAnchor.consistencyProof E oldSize newSize) with
      | ok proof => exact fun h => by cases h
      | error e =>
        obtain ⟨message, rfl⟩ := (consistencyProof_throws E oldSize newSize).run_error hread
        exact refusal_ne_uncaught _ _

private theorem sth_ne {a : App} (h : Indexed a.store.log) (clocks : Clocks) : (a.sth E clocks).1 ≠ .error .uncaught := by
  have hhead : ∃ s, (a.call (getSth E clocks.now)).1 = .ok s := by
    rw [call]
    rcases getSth_run E h clocks.now with ⟨s, -, -, hrun⟩ | hrun
    · exact ⟨s, by rw [hrun]⟩
    · exact ⟨_, by rw [hrun]⟩
  obtain ⟨s, hs⟩ := hhead
  simp only [sth, hs]
  split
  · exact refusal_ne_uncaught _ _
  · exact fun h => by cases h

/-- A row that is found is in the log, so that its proof is found as well. -/
private theorem inclusion_ne {a : App} (h : Kept E a.store) (capsuleId : String) :
    a.inclusion E capsuleId ≠ .error .uncaught := by
  have hread : ∃ r, a.read (CapsuleAnchor.inclusion E capsuleId) = .ok r := by
    unfold read CapsuleAnchor.inclusion
    cases capsuleDigest capsuleId with
    | none => exact ⟨_, rfl⟩
    | some d =>
      simp only
      rw [Prog.run_bind_ok _ (run_getStatement (E.sha256 d.bytes))]
      cases hrow : a.store.statements.lookup (E.sha256 d.bytes) with
      | none => exact ⟨_, rfl⟩
      | some row =>
        have hissued := h.cached _ row hrow
        simp only
        rw [Prog.run_bind_ok _ (hissued.inclusionProofCt_run E h.indexed)]
        exact ⟨_, rfl⟩
  obtain ⟨r, hr⟩ := hread
  simp only [inclusion, hr]
  cases r with
  | error e => exact refusal_ne_uncaught _ _
  | ok response => exact fun h => by cases h

theorem statementFailure_uncaught {e : ServiceError} : statementFailure e = .uncaught ↔ ¬ e.OfCheckpoint := by
  cases e <;> simp [statementFailure, ServiceError.OfCheckpoint]

/-- A statement that the service refuses is answered 500 where its payload cannot be decoded. -/
private theorem statement_iff {s : MemoryStore} (hs : Indexed s.log) (now : Nat → Datetime) {statementBytes : Bytes}
    (hsize : statementBytes.length ≤ maxStatementBytes) :
    (∃ e, ((registerSignedStatementFull E cfg.toConfig now statementBytes none none).run MemoryStore.exec s).1 = .error e ∧
      ¬ e.OfCheckpoint) ↔ Undecodable E statementBytes := by
  have hends := memory_iff E cfg.toConfig hs now hsize none
  cases hprep : prepare E cfg.payloadPolicy statementBytes with
  | error e =>
    have hrun : ((registerSignedStatementFull E cfg.toConfig now statementBytes none none).run MemoryStore.exec s).1 =
        .error e := by
      rw [registerSignedStatementFull, hprep]
      rfl
    rw [hrun] at hends ⊢
    constructor
    · rintro ⟨_, ⟨⟩, hnot⟩
      by_contra hbad
      exact hnot (hends.2 hbad).2
    · intro hbad
      refine ⟨e, rfl, ?_⟩
      rcases prepare_error hsize hprep with ⟨-, hnot⟩ | hnamed
      · exact hnot
      · exact absurd (hends.1 hnamed) (not_not.2 hbad)
  | ok sub =>
    constructor
    · rintro ⟨e, herror, hnot⟩
      rw [herror] at hends
      by_contra hbad
      exact hnot (hends.2 hbad).2
    · intro hbad
      exact absurd hbad (not_undecodable_of_prepare hprep)

private theorem registerStatement_iff {a : App} (h : Indexed a.store.log) (clocks : Clocks) (signedStatementB64 : String) :
    (a.registerStatement E cfg base64Error clocks signedStatementB64).1 = .error .uncaught ↔
      a.Unserved E cfg texts W clocks (.registerStatement signedStatementB64) := by
  simp only [registerStatement, Unserved]
  cases hallowed : (a.postAllowed (clocks.monotonic 0)).1 with
  | false => simp [refusal]
  | true =>
    simp only [Bool.true_eq_false, if_false, true_and]
    cases hdecode : Base64.decode true signedStatementB64 with
    | error e => simp [refusal]
    | ok statementBytes =>
      simp only [Except.ok.injEq, exists_eq_left']
      have hstatement := fun hsize : statementBytes.length ≤ maxStatementBytes =>
        statement_iff E cfg ((store_postAllowed (clocks.monotonic 0) a).symm ▸ h) clocks.now hsize
      by_cases hempty : statementBytes = []
      · simp [refusal, hempty]
      · by_cases hsize : maxStatementBytes < statementBytes.length
        · simp [refusal, hempty, hsize, show ¬ statementBytes.length ≤ maxStatementBytes by omega]
        · rw [if_neg hempty, if_neg hsize, ← hstatement (by omega), call]
          simp only [ne_eq, hempty, not_false_eq_true, show statementBytes.length ≤ maxStatementBytes by omega, true_and]
          cases hrun : ((registerSignedStatementFull E cfg.toConfig clocks.now statementBytes none none).run
              MemoryStore.exec (a.postAllowed (clocks.monotonic 0)).2.store).1 with
          | error e => simp [statementFailure_uncaught]
          | ok result => simp

private theorem embeds_of_payload {statementBytes payload : Bytes} (h : embeddedPayload E statementBytes = some payload) :
    EmbedsPayload E statementBytes := by
  obtain ⟨sign1, hdecode, hpayload⟩ := Option.bind_eq_some_iff.1 h
  exact ⟨sign1, hdecode, by simp [hpayload]⟩

/-- A digest that the service refuses is read as a statement with a payload. -/
private theorem embeds_of_refused {s : MemoryStore} (hs : Indexed s.log) {now : Nat → Datetime} {d : Digest} {e : ServiceError}
    (h : ((registerSignedStatementFull E cfg.toConfig now d.bytes none none).run MemoryStore.exec s).1 = .error e) :
    EmbedsPayload E d.bytes := by
  have hsize : d.bytes.length ≤ maxStatementBytes := by
    rw [d.length_bytes, maxStatementBytes]
    omega
  have hends := memory_iff E cfg.toConfig hs now hsize none
  rw [h] at hends
  by_cases hbad : Undecodable E d.bytes
  · obtain ⟨payload, hembedded, -⟩ := hbad
    exact embeds_of_payload E hembedded
  · obtain ⟨⟨payload, -, hembedded, -⟩, -⟩ := hends.2 hbad
    exact embeds_of_payload E hembedded

private theorem registerDigest_uncaught {a : App} (h : Indexed a.store.log) {clocks : Clocks} {capsuleId : String}
    (huncaught : (a.registerDigest E cfg clocks capsuleId).1 = .error .uncaught) :
    ∃ d, capsuleDigest capsuleId = some d ∧ EmbedsPayload E d.bytes := by
  simp only [registerDigest] at huncaught
  cases hrun : ((a.postAllowed (clocks.monotonic 0)).2.call (CapsuleAnchor.registerDigest E cfg.toConfig clocks.now
      (a.postAllowed (clocks.monotonic 0)).1 capsuleId)).1 with
  | ok result =>
    rw [hrun] at huncaught
    cases result <;> cases huncaught
  | error e =>
    simp only [call, CapsuleAnchor.registerDigest] at hrun
    split at hrun
    · cases hrun
    · cases hdigest : capsuleDigest capsuleId with
      | none =>
        rw [hdigest] at hrun
        cases hrun
      | some d =>
        rw [hdigest] at hrun
        simp only at hrun
        refine ⟨d, rfl, ?_⟩
        rw [Prog.run_bind] at hrun
        cases hregister : (registerSignedStatementFull E cfg.toConfig clocks.now d.bytes none none).run MemoryStore.exec
            (a.postAllowed (clocks.monotonic 0)).2.store with
        | mk r s =>
          rw [hregister] at hrun
          cases r with
          | ok result => cases hrun
          | error e' =>
            exact embeds_of_refused E cfg ((store_postAllowed (clocks.monotonic 0) a).symm ▸ h) (congrArg Prod.fst hregister)

/-- Bytes without an embedded payload are prepared, and declare no checkpoint. -/
private theorem prepare_plain (policy : EmbeddedPayloadPolicy) {b : Bytes} (hsize : b.length ≤ maxStatementBytes)
    (h : ¬ EmbedsPayload E b) : ∃ sub, prepare E policy b = .ok sub ∧ sub.checkpointFields = none := by
  rw [prepare, if_neg (by omega)]
  simp only
  cases hdecode : decodeCoseSign1 E b with
  | none => exact ⟨_, rfl, rfl⟩
  | some sign1 =>
    have hpayload : sign1.payload = none := by
      by_contra hpayload
      exact h ⟨sign1, hdecode, hpayload⟩
    simp only [hpayload, parseCheckpointPayload, ite_self]
    exact ⟨_, rfl, rfl⟩

private theorem refuseOrCount_stamped (logId : String) (prev : CheckpointWitness) (message : String) :
    (refuseOrCount cfg.toConfig logId prev message).Throws fun e => stampFailure e ≠ .uncaught := by
  unfold refuseOrCount
  split
  · exact fun h => by cases h
  · exact Prog.Throws.perform _

/-- The gate of `POST /checkpoints` refuses by name. -/
private theorem continuity_throws (cp : Checkpoint) :
    (checkCheckpointContinuity E cfg.toConfig cp).Throws fun e => stampFailure e ≠ .uncaught := by
  refine Prog.Throws.bind (Prog.Throws.perform _) ?_
  intro prev
  cases prev with
  | none => trivial
  | some prev =>
    simp only
    split
    · refine Prog.Throws.bind ?_ fun _ => trivial
      unfold applyConsistencyProofPolicy
      split
      · trivial
      · split
        · trivial
        · split <;> exact refuseOrCount_stamped cfg _ _ _
    · split
      · exact fun h => by cases h
      · split
        · exact fun h => by cases h
        · trivial

private theorem witness_refused {s : MemoryStore} (hs : Indexed s.log) {now : Nat → Datetime} {cp : Checkpoint}
    (hplain : ¬ EmbedsPayload E (checkpointDigest E cp).bytes) {e : ServiceError}
    (h : ((witnessCheckpoint E cfg.toConfig now cp).run MemoryStore.exec s).1 = .error e) : stampFailure e ≠ .uncaught := by
  obtain ⟨sub, hprep, hfields⟩ := prepare_plain E cfg.payloadPolicy (length_digest_le E cp) hplain
  rw [witnessCheckpoint, Prog.run_bind] at h
  cases hfound : cachedStatement s sub with
  | mk found scheme =>
    cases found with
    | some cached =>
      rw [register_cached_run E cfg.toConfig hprep hfound] at h
      cases h
    | none =>
      have hlink : (optionally sub.checkpointFields (checkCheckpointConsistency E cfg.toConfig)).run MemoryStore.exec s =
          (.ok none, s) := by
        rw [hfields]
        rfl
      obtain ⟨hsame, -⟩ := continued_run E cfg.toConfig s (some cp)
      cases hgate : (optionally (some cp) (checkCheckpointContinuity E cfg.toConfig)).run MemoryStore.exec s with
      | mk r s' =>
        rw [hgate] at hsame
        cases r with
        | ok g =>
          have hindexed : Indexed s'.log := by rwa [hsame.log]
          rw [register_new_run E cfg.toConfig hindexed hprep (by rw [hfound]) hlink hgate] at h
          cases h
        | error e' =>
          have hrun : (registerSignedStatementFull E cfg.toConfig now (checkpointDigest E cp).bytes cp.grade (some cp)).run
              MemoryStore.exec s = (.error e', s') := by
            rw [registerSignedStatementFull, hprep, Prog.run_bind_ok _ (Prog.run_ofExcept _ _ _), registerPrepared,
              Prog.run_bind_ok _ (lookupStatement_run s sub), hfound]
            simp only
            rw [registerNew, Prog.run_bind_ok _ hlink, Prog.run_bind_error _ hgate]
          rw [hrun] at h
          obtain rfl := Except.error.inj h
          exact (Prog.Throws.map (continuity_throws E cfg cp) some).run_error (by
            rw [show (some <$> checkCheckpointContinuity E cfg.toConfig cp) =
              optionally (some cp) (checkCheckpointContinuity E cfg.toConfig) from rfl, hgate])

private theorem checkpoints_uncaught {a : App} (h : Indexed a.store.log) {clocks : Clocks} {contentType : String} {body : Bytes}
    (huncaught : (a.checkpoints E cfg texts W clocks contentType body).1 = .error .uncaught) :
    a.Unserved E cfg texts W clocks (.checkpoints contentType body) := by
  simp only [checkpoints] at huncaught
  split at huncaught
  · cases huncaught
  · split at huncaught
    · cases huncaught
    · split at huncaught
      · cases huncaught
      · cases hparse : parseCheckpoint E cfg texts W contentType body with
        | error e =>
          rw [hparse] at huncaught
          cases e with
          | uncaught => exact .inl hparse
          | _ => cases huncaught
        | ok cp =>
          rw [hparse] at huncaught
          refine .inr ⟨cp, hparse, ?_⟩
          by_contra hplain
          simp only [witnessCheckpointCp] at huncaught
          split at huncaught
          · rename_i e hbudget
            unfold submitterAllowed at hbudget
            split at hbudget
            · cases hbudget
            · simp only at hbudget
              split at hbudget
              · cases hbudget
              · obtain rfl := Except.error.inj hbudget
                cases huncaught
          · split at huncaught
            · rename_i e hcall
              have hstore := store_submitterAllowed E cfg (clocks.monotonic 1) cp (a.postAllowed (clocks.monotonic 0)).2
              have hindexed : Indexed ((a.postAllowed (clocks.monotonic 0)).2.submitterAllowed E cfg (clocks.monotonic 1)
                  cp).2.store.log := by
                rw [hstore]
                exact h
              exact witness_refused E cfg hindexed hplain hcall (Except.error.inj huncaught)
            · cases huncaught

/-- A request is answered 500 where a payload or a submission cannot be decoded, or where a digest decodes as a statement. -/
theorem internal_error {a : App} (h : Kept E a.store) {clocks : Clocks} {request : HttpRequest}
    (huncaught : (a.serve E cfg texts W base64Error clocks request).1 = .error .uncaught) :
    a.Unserved E cfg texts W clocks request := by
  cases request with
  | anchor tenantId rootHash seqFrom seqTo capsuleId =>
    obtain ⟨receipt, s', hrun, -⟩ := anchor_run E a.store clocks.now tenantId rootHash (seqFrom, seqTo) capsuleId
    simp only [serve, anchor, call, hrun] at huncaught
    cases huncaught
  | transparencyLog afterIndex capsuleId =>
    cases capsuleId with
    | some capsuleId => cases huncaught
    | none =>
      simp only [serve, transparencyLog, read, CapsuleAnchor.transparencyLog] at huncaught
      cases huncaught
  | countersignedRoot tenantId rootHash =>
    simp only [serve, countersignedRoot] at huncaught
    split at huncaught <;> cases huncaught
  | inclusionProof leafHashes index => exact absurd huncaught (inclusionProof_ne E leafHashes index)
  | sth => exact absurd huncaught (sth_ne E h.indexed clocks)
  | inclusionProofCt leafIndex treeSize => exact absurd huncaught (inclusionProofCt_ne E leafIndex treeSize a)
  | consistencyProof oldSize newSize => exact absurd huncaught (consistencyProof_ne E oldSize newSize a)
  | publicLogLatest =>
    simp only [serve, publicLogLatest] at huncaught
    split at huncaught
    · cases huncaught
    · split at huncaught <;> cases huncaught
  | publicLogEntries since =>
    simp only [serve, publicLogEntries] at huncaught
    split at huncaught <;> cases huncaught
  | registerStatement signedStatementB64 =>
    exact (registerStatement_iff E cfg texts W base64Error h.indexed clocks signedStatementB64).1 huncaught
  | register capsuleId => exact registerDigest_uncaught E cfg h.indexed huncaught
  | inclusion capsuleId =>
    simp only [serve] at huncaught
    exact absurd huncaught (inclusion_ne E h capsuleId)
  | checkpoints contentType body => exact checkpoints_uncaught E cfg texts W h.indexed huncaught
  | checkpointReadback logId =>
    simp only [serve, checkpointReadback] at huncaught
    cases hlast : Backend.memory.getCheckpointReadback logId a.store with
    | none =>
      rw [hlast] at huncaught
      exact absurd huncaught (refusal_ne_uncaught _ _)
    | some last =>
      rw [hlast] at huncaught
      cases huncaught
  | verifyInclusion proof anchoredRootHash =>
    simp only [serve, verifyInclusion] at huncaught
    cases huncaught
  | authorityPubkey =>
    simp only [serve, authorityPubkey] at huncaught
    cases huncaught
  | statements subject =>
    simp only [serve, statementsBySubject] at huncaught
    cases huncaught

end App

end Service

end CapsuleAnchor
