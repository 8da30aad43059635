import CapsuleAnchor.Reference
import CapsuleAnchor.Steps

/-!
# The would-refuse counter

Under `warn` a checkpoint that `enforce` would refuse for its missing proof is counted for its log, in the middle of the
gate.  The gate of `POST /checkpoints` then lets it through, but the gate of a `mmr-checkpoint` statement goes on to compare
it with the tip, and may refuse it: what was counted is then not accepted (`Stale`).

`warn_predicts_enforce_iff`: over a run the counters are the numbers of submissions that were accepted and that `enforce`
would have refused, exactly when no statement was `Stale`.
-/

namespace CapsuleAnchor

variable (E : Env) (cfg : Config)

/-- `consistency_proof_would_refuse.get(log_id, 0)`. -/
def MemoryStore.wouldRefuse (s : MemoryStore) (logId : String) : Nat :=
  (s.consistencyProofWouldRefuse.lookup logId).getD 0

def MemoryStore.counted (s : MemoryStore) (logId : String) : MemoryStore :=
  (MemoryStore.exec (.countWouldRefuse logId) s).2

/-- The same service under `enforce`. -/
def Config.enforcing (cfg : Config) : Config := { cfg with consistencyProofPolicy := .enforce }

/-- The `log_id` of a submission of a checkpoint. -/
def Request.logId? : Request → Option String
  | .witnessCheckpoint cp => some cp.logId
  | .register statementBytes =>
    match prepare E cfg.payloadPolicy statementBytes with
    | .ok sub => sub.checkpointFields.map (·.logId)
    | .error _ => none
  | _ => none

def requiresProof {α : Type} : Except ServiceError α → Bool
  | .error (.consistencyProofRequiredError _ _ _) => true
  | _ => false

theorem requiresProof_map {α β : Type} (r : Except ServiceError α) (f : α → β) :
    requiresProof (r.map f) = requiresProof r := by
  cases r with
  | ok a => rfl
  | error e => cases e <;> rfl

/-- The submissions for a log that returned, and that the same service in the same state would have refused under
`enforce`. -/
def predicted (es : List ServiceEvent) (logId : String) : Nat :=
  es.countP fun e => decide (e.request.2.logId? E cfg = some logId) && e.reply.isOk &&
    requiresProof (step E cfg.enforcing e.before e.request).1

/-- A new `mmr-checkpoint` statement for a log with a tip that it does not extend. -/
def Stale (s : MemoryStore) (request : Request) : Prop :=
  ∃ statementBytes sub f prev, request = .register statementBytes ∧
    prepare E cfg.payloadPolicy statementBytes = .ok sub ∧ (cachedStatement s sub).1 = none ∧
    sub.checkpointFields = some f ∧ s.checkpointWitnesses.lookup f.logId = some prev ∧
    (f.prevSize ≠ prev.mmrSize ∨ f.mmrSize ≤ prev.mmrSize)

/-! ### The gates -/

/-- Both gates of a registration. -/
private def gates (fields : Option CheckpointFields) (cp : Option Checkpoint) :
    ServiceM (Option WitnessStatus × Option ContinuityGrade) := do
  let status ← optionally fields (checkCheckpointConsistency E cfg)
  let grade ← optionally cp (checkCheckpointContinuity E cfg)
  return (status, grade)

/-- The log for which a gate misses a proof. -/
private def missing (s : MemoryStore) (fields : Option CheckpointFields) (cp : Option Checkpoint) : Option String :=
  match fields, cp with
  | some f, _ => if (s.checkpointWitnesses.lookup f.logId).isSome then some f.logId else none
  | none, some cp =>
    if (s.checkpointWitnesses.lookup cp.logId).isSome ∧ cp.consistencyProof.join = none ∧ consistencyProofPolicyApplies cp
    then some cp.logId else none
  | none, none => none

/-- The store after the gates, under `warn`. -/
private def countMissing (s : MemoryStore) : Option String → MemoryStore
  | none => s
  | some logId => s.counted logId

private theorem wouldRefuse_countMissing (s : MemoryStore) (asked : Option String) (logId : String) :
    (countMissing s asked).wouldRefuse logId = s.wouldRefuse logId + if asked = some logId then 1 else 0 := by
  cases asked with
  | none => rfl
  | some asked =>
    simp only [countMissing, MemoryStore.counted, MemoryStore.exec, MemoryStore.wouldRefuse, Option.some.injEq]
    by_cases h : asked = logId
    · rw [if_pos h, h, AList.lookup_insert]
      rfl
    · rw [if_neg h, AList.lookup_insert_ne (Ne.symm h)]
      rfl

variable {E cfg}

private theorem gates_legacy (hwarn : cfg.consistencyProofPolicy = .warn) (s : MemoryStore) (f : CheckpointFields) :
    ∃ r, (gates E cfg (some f) none).run MemoryStore.exec s = (r, countMissing s (missing s (some f) none)) ∧
      (r.isOk ↔ ∀ prev, s.checkpointWitnesses.lookup f.logId = some prev →
        ¬ (f.prevSize ≠ prev.mmrSize ∨ f.mmrSize ≤ prev.mmrSize)) := by
  cases hprev : s.checkpointWitnesses.lookup f.logId with
  | none =>
    have hlink : (optionally (some f) (checkCheckpointConsistency E cfg)).run MemoryStore.exec s =
        (.ok (some .firstSeen), s) := by
      rw [run_optionally_some, checkCheckpointConsistency, Prog.run_bind_ok _ (run_getCheckpointWitness f.logId), hprev]
      rfl
    refine ⟨.ok (some .firstSeen, none), ?_, ?_⟩
    · rw [gates, Prog.run_bind_ok _ hlink, missing, hprev]
      rfl
    · exact iff_of_true rfl (by simp)
  | some prev =>
    have hcount : (applyConsistencyProofPolicyLegacy E cfg f prev).run MemoryStore.exec s = (.ok (), s.counted f.logId) := by
      rw [applyConsistencyProofPolicyLegacy, hwarn, if_neg (by decide), refuseOrCount, hwarn, if_neg (by decide)]
      rfl
    have hmissing : missing s (some f) none = some f.logId := by
      rw [missing, hprev]
      rfl
    by_cases hstale : f.prevSize ≠ prev.mmrSize ∨ f.mmrSize ≤ prev.mmrSize
    · have hlink : ∃ e, (optionally (some f) (checkCheckpointConsistency E cfg)).run MemoryStore.exec s =
          (.error e, s.counted f.logId) := by
        rw [run_optionally_some, checkCheckpointConsistency, Prog.run_bind_ok _ (run_getCheckpointWitness f.logId), hprev]
        simp only
        rw [Prog.run_bind_ok _ hcount, if_pos hstale]
        exact ⟨_, rfl⟩
      obtain ⟨e, hlink⟩ := hlink
      refine ⟨.error e, ?_, ?_⟩
      · rw [gates, Prog.run_bind_error _ hlink, hmissing]
        rfl
      · exact iff_of_false Bool.false_ne_true fun h => h prev rfl hstale
    · have hlink : (optionally (some f) (checkCheckpointConsistency E cfg)).run MemoryStore.exec s =
          (.ok (some .witnessed), s.counted f.logId) := by
        rw [run_optionally_some, checkCheckpointConsistency, Prog.run_bind_ok _ (run_getCheckpointWitness f.logId), hprev]
        simp only
        rw [Prog.run_bind_ok _ hcount, if_neg hstale]
        rfl
      refine ⟨.ok (some .witnessed, none), ?_, ?_⟩
      · rw [gates, Prog.run_bind_ok _ hlink, hmissing]
        rfl
      · refine iff_of_true rfl ?_
        rintro prev' ⟨⟩
        exact hstale

private theorem gates_some {s s' : MemoryStore} {cp : Checkpoint} {r : Except ServiceError ContinuityGrade}
    (hrun : (checkCheckpointContinuity E cfg cp).run MemoryStore.exec s = (r, s')) :
    (gates E cfg none (some cp)).run MemoryStore.exec s = (r.map fun g => (none, some g), s') := by
  have hlink : (optionally none (checkCheckpointConsistency E cfg)).run MemoryStore.exec s = (.ok none, s) := rfl
  have hgate : (optionally (some cp) (checkCheckpointContinuity E cfg)).run MemoryStore.exec s = (r.map some, s') := by
    rw [run_optionally_some, hrun]
  rw [gates, Prog.run_bind_ok _ hlink]
  cases r with
  | error e => exact Prog.run_bind_error _ hgate
  | ok g => exact Prog.run_bind_ok _ hgate

private theorem gates_checkpoint (hwarn : cfg.consistencyProofPolicy = .warn) (s : MemoryStore) (cp : Checkpoint) :
    ∃ r, (gates E cfg none (some cp)).run MemoryStore.exec s = (r, countMissing s (missing s none (some cp))) ∧
      ((missing s none (some cp)).isSome → r.isOk) := by
  cases hprev : s.checkpointWitnesses.lookup cp.logId with
  | none =>
    have hnone : missing s none (some cp) = none := by simp [missing, hprev]
    have hrun : (checkCheckpointContinuity E cfg cp).run MemoryStore.exec s = (.ok .firstSeen, s) := by
      rw [checkCheckpointContinuity, Prog.run_bind_ok _ (run_getCheckpointWitness cp.logId), hprev]
      rfl
    exact ⟨_, by rw [gates_some hrun, hnone]; rfl, fun _ => rfl⟩
  | some prev =>
    cases hproof : cp.consistencyProof.join with
    | none =>
      have happly : (applyConsistencyProofPolicy E cfg cp prev).run MemoryStore.exec s =
          (.ok (), countMissing s (missing s none (some cp))) := by
        rw [applyConsistencyProofPolicy, hwarn, if_neg (by decide)]
        by_cases happlies : consistencyProofPolicyApplies cp = true
        · have hmissing : missing s none (some cp) = some cp.logId := by simp [missing, hprev, hproof, happlies]
          rw [if_neg (not_not.2 happlies), hmissing]
          simp only [refuseOrCount, hwarn]
          split <;> rfl
        · have hmissing : missing s none (some cp) = none := by simp [missing, happlies]
          rw [if_pos happlies, hmissing]
          rfl
      have hrun : (checkCheckpointContinuity E cfg cp).run MemoryStore.exec s =
          (.ok .registered, countMissing s (missing s none (some cp))) := by
        rw [checkCheckpointContinuity, Prog.run_bind_ok _ (run_getCheckpointWitness cp.logId), hprev]
        simp only [hproof]
        rw [Prog.run_bind_ok _ happly]
        rfl
      exact ⟨_, gates_some hrun, fun _ => rfl⟩
    | some proof =>
      have hnone : missing s none (some cp) = none := by simp [missing, hproof]
      have hrun : ∃ r, (checkCheckpointContinuity E cfg cp).run MemoryStore.exec s = (r, s) := by
        rw [checkCheckpointContinuity, Prog.run_bind_ok _ (run_getCheckpointWitness cp.logId), hprev]
        simp only [hproof]
        split
        · exact ⟨_, rfl⟩
        · split
          · exact ⟨_, rfl⟩
          · exact ⟨_, rfl⟩
      obtain ⟨r, hrun⟩ := hrun
      refine ⟨_, by rw [gates_some hrun, hnone]; rfl, ?_⟩
      rw [hnone]
      intro hsome
      cases hsome

variable (E cfg) in
/-- Under `enforce` the gates ask for the proof that is missing, and for no other. -/
private theorem gates_enforce (henforce : cfg.consistencyProofPolicy = .enforce) (s : MemoryStore)
    {fields : Option CheckpointFields} {cp : Option Checkpoint} (hone : fields = none ∨ cp = none) :
    requiresProof ((gates E cfg fields cp).run MemoryStore.exec s).1 = (missing s fields cp).isSome := by
  cases fields with
  | some f =>
    obtain rfl : cp = none := hone.resolve_left (Option.some_ne_none _)
    cases hprev : s.checkpointWitnesses.lookup f.logId with
    | none =>
      have hlink : (optionally (some f) (checkCheckpointConsistency E cfg)).run MemoryStore.exec s =
          (.ok (some .firstSeen), s) := by
        rw [run_optionally_some, checkCheckpointConsistency, Prog.run_bind_ok _ (run_getCheckpointWitness f.logId), hprev]
        rfl
      rw [gates, Prog.run_bind_ok _ hlink, missing, hprev]
      rfl
    | some prev =>
      have hlink : ∃ message, (optionally (some f) (checkCheckpointConsistency E cfg)).run MemoryStore.exec s =
          (.error (.consistencyProofRequiredError message prev.mmrSize prev.mmrRoot), s) := by
        rw [run_optionally_some, checkCheckpointConsistency, Prog.run_bind_ok _ (run_getCheckpointWitness f.logId), hprev]
        simp only [applyConsistencyProofPolicyLegacy, henforce, refuseOrCount]
        exact ⟨_, rfl⟩
      obtain ⟨message, hlink⟩ := hlink
      rw [gates, Prog.run_bind_error _ hlink, missing, hprev]
      rfl
  | none =>
    cases cp with
    | none => rfl
    | some cp =>
      have hgates : requiresProof ((gates E cfg none (some cp)).run MemoryStore.exec s).1 =
          requiresProof ((checkCheckpointContinuity E cfg cp).run MemoryStore.exec s).1 := by
        cases hrun : (checkCheckpointContinuity E cfg cp).run MemoryStore.exec s with
        | mk r s' =>
          rw [gates_some hrun]
          exact requiresProof_map r _
      rw [hgates, checkCheckpointContinuity, Prog.run_bind_ok _ (run_getCheckpointWitness cp.logId)]
      cases hprev : s.checkpointWitnesses.lookup cp.logId with
      | none =>
        have hnone : missing s none (some cp) = none := by simp [missing, hprev]
        rw [hnone]
        rfl
      | some prev =>
        cases hproof : cp.consistencyProof.join with
        | none =>
          simp only
          by_cases happlies : consistencyProofPolicyApplies cp = true
          · have hmissing : missing s none (some cp) = some cp.logId := by simp [missing, hprev, hproof, happlies]
            have hrefuse : ∃ message, (applyConsistencyProofPolicy E cfg cp prev).run MemoryStore.exec s =
                (.error (.consistencyProofRequiredError message prev.mmrSize prev.mmrRoot), s) := by
              rw [applyConsistencyProofPolicy, if_neg (by simp [henforce]), if_neg (not_not.2 happlies)]
              simp only [refuseOrCount, henforce]
              split
              · exact ⟨_, rfl⟩
              · exact ⟨_, rfl⟩
            obtain ⟨message, hrefuse⟩ := hrefuse
            rw [hmissing, Prog.run_bind_error _ hrefuse]
            rfl
          · have hmissing : missing s none (some cp) = none := by simp [missing, happlies]
            have hpass : (applyConsistencyProofPolicy E cfg cp prev).run MemoryStore.exec s = (.ok (), s) := by
              rw [applyConsistencyProofPolicy, if_neg (by simp [henforce]), if_pos happlies]
              rfl
            rw [hmissing, Prog.run_bind_ok _ hpass]
            rfl
        | some proof =>
          have hnone : missing s none (some cp) = none := by simp [missing, hproof]
          rw [hnone]
          simp only
          split
          · rfl
          · split <;> rfl

/-! ### One registration -/

private theorem wouldRefuse_freshState (now : Nat → Datetime) (sub : Submission) (grade : Option String)
    (cp : Option Checkpoint) (g : Option ContinuityGrade) (s : MemoryStore) (logId : String) :
    (freshState E now sub grade cp g s).wouldRefuse logId = s.wouldRefuse logId := by
  have hindex : ∀ s : MemoryStore, (indexSubject s sub).consistencyProofWouldRefuse = s.consistencyProofWouldRefuse := by
    intro s
    unfold indexSubject
    split <;> rfl
  have hsth : ∀ (s : MemoryStore) (sth : SignedTreeHead),
      (s.putSth sth).consistencyProofWouldRefuse = s.consistencyProofWouldRefuse := by
    intro s sth
    unfold MemoryStore.putSth
    simp only
    split <;> rfl
  simp [MemoryStore.wouldRefuse, freshState, committedState, issuedState, hsth, hindex]

private theorem wouldRefuse_recordSurface (cp : Option Checkpoint) (result : StatementRegistration) (s : MemoryStore)
    (logId : String) : (recordSurface cp result s).wouldRefuse logId = s.wouldRefuse logId := by
  rw [recordSurface_eq]
  rfl

variable (cfg) in
/-- A new statement ends as the gates do, and counts what they count. -/
private theorem register_gates {s : MemoryStore} (hs : Indexed s.log) {statementBytes : Bytes} {sub : Submission}
    (hprep : prepare E cfg.payloadPolicy statementBytes = .ok sub) (hmiss : (cachedStatement s sub).1 = none)
    (now : Nat → Datetime) (grade : Option String) (cp : Option Checkpoint) :
    let gated := (gates E cfg sub.checkpointFields cp).run MemoryStore.exec s
    let ended := (registerSignedStatementFull E cfg now statementBytes grade cp).run MemoryStore.exec s
    (∀ logId, ended.2.wouldRefuse logId = gated.2.wouldRefuse logId) ∧
      match gated.1 with
      | .ok _ => ∃ result, ended.1 = .ok result
      | .error e => ended.1 = .error e := by
  intro gated ended
  have hstart : ended = (registerNew E cfg now sub grade cp).run MemoryStore.exec s := by
    change (registerSignedStatementFull E cfg now statementBytes grade cp).run MemoryStore.exec s = _
    rw [registerSignedStatementFull, hprep, Prog.run_bind_ok _ (Prog.run_ofExcept _ _ _), registerPrepared,
      Prog.run_bind_ok _ (lookupStatement_run s sub)]
    cases hfound : cachedStatement s sub with
    | mk found scheme =>
      rw [hfound] at hmiss
      obtain rfl : found = none := hmiss
      rfl
  obtain ⟨hsame, -⟩ := linked_run E cfg s sub.checkpointFields
  cases hlink : (optionally sub.checkpointFields (checkCheckpointConsistency E cfg)).run MemoryStore.exec s with
  | mk r s₁ =>
    rw [hlink] at hsame
    cases r with
    | error e =>
      have hgated : gated = (.error e, s₁) := Prog.run_bind_error _ hlink
      have hended : ended = (.error e, s₁) := hstart.trans (Prog.run_bind_error _ hlink)
      rw [hgated, hended]
      exact ⟨fun _ => rfl, rfl⟩
    | ok status =>
      obtain ⟨hsame', -⟩ := continued_run E cfg s₁ cp
      cases hgate : (optionally cp (checkCheckpointContinuity E cfg)).run MemoryStore.exec s₁ with
      | mk r' s₂ =>
        rw [hgate] at hsame'
        have hgated : gated = (r'.map fun g => (status, g), s₂) := by
          change (gates E cfg sub.checkpointFields cp).run MemoryStore.exec s = _
          rw [gates, Prog.run_bind_ok _ hlink, Prog.run_bind, hgate]
          cases r' <;> rfl
        rw [hgated]
        cases r' with
        | error e =>
          have hended : ended = (.error e, s₂) := by
            rw [hstart, registerNew, Prog.run_bind_ok _ hlink]
            exact Prog.run_bind_error _ hgate
          rw [hended]
          exact ⟨fun _ => rfl, rfl⟩
        | ok g =>
          have hindexed : Indexed s₂.log := by rwa [(hsame.trans hsame').log]
          have hended : ended = _ := register_new_run E cfg hindexed hprep hmiss hlink hgate now grade
          rw [hended]
          exact ⟨fun logId => wouldRefuse_freshState now sub grade cp g s₂ logId, _, rfl⟩

/-! ### One request -/

variable (E cfg)

/-- The log for which a gate misses a proof, if the submission comes to the gates. -/
private def asked (s : MemoryStore) (request : Request) : Option String :=
  match request.submission E with
  | none => none
  | some (statementBytes, _, cp) =>
    match prepare E cfg.payloadPolicy statementBytes with
    | .error _ => none
    | .ok sub => if (cachedStatement s sub).1.isSome then none else missing s sub.checkpointFields cp

variable {E cfg}

variable (cfg) in
private theorem step_of_register {s : MemoryStore} {request : Request} {statementBytes : Bytes} {grade : Option String}
    {cp : Option Checkpoint} (hsubmission : request.submission E = some (statementBytes, grade, cp)) (now : Nat → Datetime) :
    let ended := (registerSignedStatementFull E cfg now statementBytes grade cp).run MemoryStore.exec s
    (∀ logId, (step E cfg s (now, request)).2.wouldRefuse logId = ended.2.wouldRefuse logId) ∧
      (step E cfg s (now, request)).1 = ended.1.map Reply.registered := by
  intro ended
  cases hrun : (registerSignedStatementFull E cfg now statementBytes grade cp).run MemoryStore.exec s with
  | mk r s' =>
    have hended : ended = (r, s') := hrun
    rw [hended]
    cases r with
    | ok result =>
      rw [step_submission E cfg hsubmission hrun]
      exact ⟨wouldRefuse_recordSurface cp result s', rfl⟩
    | error e =>
      have hstep : step E cfg s (now, request) = (.error e, s') := by
        cases request with
        | register b =>
          obtain ⟨rfl, rfl, rfl⟩ : b = statementBytes ∧ none = grade ∧ none = cp := by
            simpa [Request.submission] using hsubmission
          rw [step, Request.program, Prog.run_map, hrun]
          rfl
        | witnessCheckpoint cp' =>
          obtain ⟨rfl, rfl, rfl⟩ : (checkpointDigest E cp').bytes = statementBytes ∧ cp'.grade = grade ∧ some cp' = cp := by
            simpa [Request.submission] using hsubmission
          rw [step, Request.program, Prog.run_map, witnessCheckpoint, Prog.run_bind_error _ hrun]
          rfl
        | _ => cases hsubmission
      rw [hstep]
      exact ⟨fun _ => rfl, rfl⟩

private theorem filterMapM_error {α β : Type} {f : α → Except ServiceError (Option β)} {P : ServiceError → Prop}
    (hf : ∀ a e, f a = .error e → P e) {l : List α} {e : ServiceError} (h : l.filterMapM f = .error e) : P e := by
  induction l with
  | nil => cases h
  | cons a l ih =>
    rw [List.filterMapM_cons] at h
    cases ha : f a with
    | error e' =>
      rw [ha] at h
      obtain rfl := Except.error.inj h
      exact hf a _ ha
    | ok x =>
      rw [ha] at h
      cases hrest : l.filterMapM f with
      | error e' =>
        cases x <;> simp only [hrest] at h <;> obtain rfl := Except.error.inj h <;> exact ih hrest
      | ok rest => cases x <;> simp only [hrest] at h <;> cases h

private theorem stale_error {s : MemoryStore} {cutoff : Datetime} {e : ServiceError} (h : s.stale cutoff = .error e) :
    ∃ message, e = .indexError message := by
  refine filterMapM_error (P := fun e => ∃ message, e = .indexError message) ?_ h
  intro row e herror
  split at herror
  · exact ⟨_, (Except.error.inj herror).symm⟩
  · cases herror

variable (cfg) in
/-- The other requests count nothing, and never miss a proof. -/
private theorem step_other {s : MemoryStore} (hs : Indexed s.log) {request : Request}
    (hsubmission : request.submission E = none) (now : Nat → Datetime) :
    (∀ logId, (step E cfg s (now, request)).2.wouldRefuse logId = s.wouldRefuse logId) ∧
      requiresProof (step E cfg s (now, request)).1 = false := by
  have hsth : ∀ sth : SignedTreeHead, (s.putSth sth).consistencyProofWouldRefuse = s.consistencyProofWouldRefuse := by
    intro sth
    unfold MemoryStore.putSth
    simp only
    split <;> rfl
  cases request with
  | anchor tenantId rootHash seqRange capsuleId =>
    obtain ⟨receipt, s', hrun, hstate⟩ := anchor_run E s now tenantId rootHash seqRange capsuleId
    rw [step, Request.program, Prog.run_map, hrun]
    refine ⟨?_, rfl⟩
    intro logId
    rw [hstate]
    rfl
  | register statementBytes => cases hsubmission
  | witnessCheckpoint cp => cases hsubmission
  | refreshSth =>
    rw [step, Request.program, Prog.run_map, signAndPersistSth_run E hs]
    refine ⟨?_, rfl⟩
    intro logId
    simp only [MemoryStore.wouldRefuse, hsth]
  | getSth =>
    rw [step, Request.program, Prog.run_map]
    rcases getSth_run E hs now with ⟨sth, -, -, hrun⟩ | hrun
    · rw [hrun]
      exact ⟨fun _ => rfl, rfl⟩
    · rw [hrun]
      refine ⟨?_, rfl⟩
      intro logId
      simp only [MemoryStore.wouldRefuse, hsth]
  | prune seconds =>
    rw [step, Request.program, Prog.run_map]
    unfold pruneExpiredStatements
    cases seconds with
    | none => exact ⟨fun _ => rfl, rfl⟩
    | some seconds =>
      simp only
      rw [orRaise, Prog.run_bind_ok _ (run_store _), Prog.run_ofExcept]
      simp only [MemoryStore.exec, MemoryStore.pruneStatementsOlderThan]
      cases hstale : s.stale ⟨(now 0).epochUs - seconds * 1000000, (now 0).utcoffset⟩ with
      | error e =>
        refine ⟨fun _ => rfl, ?_⟩
        obtain ⟨message, rfl⟩ := stale_error hstale
        rfl
      | ok stale => exact ⟨fun _ => rfl, rfl⟩

private theorem prepare_error_kind {policy : EmbeddedPayloadPolicy} {statementBytes : Bytes} {e : ServiceError}
    (h : prepare E policy statementBytes = .error e) {α : Type} : requiresProof (.error e : Except _ α) = false := by
  unfold prepare at h
  split at h
  · obtain rfl := Except.error.inj h
    rfl
  · simp only at h
    split at h
    · cases h
    · rename_i sign1 hdecode
      cases hfields : (if (entryHashPreimage E statementBytes).2 = .sigStructure then
          parseCheckpointPayload E sign1.payload else .ok none) with
      | ok fields =>
        rw [hfields] at h
        cases h
      | error e' =>
        rw [hfields] at h
        obtain rfl := Except.error.inj h
        split at hfields
        · unfold parseCheckpointPayload at hfields
          split at hfields
          · cases hfields
          · split at hfields
            any_goals cases hfields
            any_goals rfl
            rename_i obj hload
            split at hfields
            · cases hobj : checkpointFieldsOf obj with
              | ok fields =>
                rw [hobj] at hfields
                cases hfields
              | error e'' =>
                rw [hobj] at hfields
                obtain rfl := Except.error.inj hfields
                obtain ⟨message, rfl⟩ := checkpointFieldsOf_error hobj
                rfl
            · cases hfields
        · cases hfields

private theorem register_of_submission {request : Request} {statementBytes : Bytes} {grade : Option String}
    (h : request.submission E = some (statementBytes, grade, none)) : request = .register statementBytes := by
  cases request with
  | register b => rw [(Prod.mk.inj (Option.some.inj h)).1]
  | witnessCheckpoint cp =>
    simp only [Request.submission, Option.some.injEq, Prod.mk.injEq] at h
    cases h.2.2
  | _ => cases h

/-- A stale statement comes to the gate, and misses its proof. -/
private theorem asked_of_stale {s : MemoryStore} {request : Request} (h : Stale E cfg s request) :
    ∃ logId, asked E cfg s request = some logId := by
  obtain ⟨statementBytes, sub, f, prev, rfl, hprep, hmiss, hfields, hprev, -⟩ := h
  have hasked : asked E cfg s (.register statementBytes) = if (cachedStatement s sub).1.isSome then none else
      missing s sub.checkpointFields none := by
    simp only [asked, Request.submission, hprep]
  refine ⟨f.logId, ?_⟩
  rw [hasked, hmiss, hfields]
  simp only [missing, hprev]
  rfl

/-- Two counts of which one counts more are equal when it counts the same. -/
private theorem countP_eq_iff {α : Type} {p q : α → Bool} {l : List α} (h : ∀ a ∈ l, p a → q a) :
    l.countP p = l.countP q ↔ ∀ a ∈ l, q a → p a := by
  induction l with
  | nil => simp
  | cons a l ih =>
    have hl : ∀ b ∈ l, p b → q b := fun b hb => h b (List.mem_cons_of_mem a hb)
    have hle : l.countP p ≤ l.countP q := List.countP_mono_left hl
    have ha := h a List.mem_cons_self
    rw [List.forall_mem_cons, ← ih hl, List.countP_cons, List.countP_cons]
    cases hp : p a with
    | true =>
      rw [hp] at ha
      rw [ha rfl]
      simp
    | false =>
      cases hq : q a with
      | false => simp
      | true =>
        simp only [Bool.false_eq_true, if_false, if_true]
        constructor
        · intro h
          omega
        · rintro ⟨h, -⟩
          cases h trivial

section Laws

variable (hcbor : CborBounded E) (hjson : JsonBounded E)
include hcbor hjson

/-- A submission has one gate to pass. -/
private theorem one_gate {request : Request} {statementBytes : Bytes} {grade : Option String} {cp : Option Checkpoint}
    (hsubmission : request.submission E = some (statementBytes, grade, cp)) {policy : EmbeddedPayloadPolicy}
    {sub : Submission} (hprep : prepare E policy statementBytes = .ok sub) : sub.checkpointFields = none ∨ cp = none := by
  cases cp with
  | none => exact .inr rfl
  | some cp =>
    obtain ⟨-, rfl⟩ := submission_checkpoint E hsubmission
    exact .inl (prepare_digest E hcbor hjson hprep)

/-- Under `enforce` a submission is refused for the proof that it misses. -/
private theorem step_enforce {s : MemoryStore} (hs : Indexed s.log) (r : TimedRequest) :
    requiresProof (step E cfg.enforcing s r).1 = (asked E cfg s r.2).isSome := by
  obtain ⟨now, request⟩ := r
  cases hsubmission : request.submission E with
  | none =>
    rw [(step_other cfg.enforcing hs hsubmission now).2]
    simp only [asked, hsubmission]
    rfl
  | some submission =>
    obtain ⟨statementBytes, grade, cp⟩ := submission
    rw [(step_of_register cfg.enforcing (s := s) hsubmission now).2, requiresProof_map]
    cases hprep : prepare E cfg.payloadPolicy statementBytes with
    | error e =>
      have hrun : (registerSignedStatementFull E cfg.enforcing now statementBytes grade cp).run MemoryStore.exec s =
          (.error e, s) := by
        rw [registerSignedStatementFull, show prepare E cfg.enforcing.payloadPolicy statementBytes = .error e from hprep]
        rfl
      rw [hrun, prepare_error_kind hprep]
      simp only [asked, hsubmission, hprep]
      rfl
    | ok sub =>
      have hasked : asked E cfg s request = if (cachedStatement s sub).1.isSome then none else
          missing s sub.checkpointFields cp := by
        simp only [asked, hsubmission, hprep]
      cases hfound : cachedStatement s sub with
      | mk found scheme =>
        cases found with
        | some found =>
          rw [hfound] at hasked
          rw [register_cached_run E cfg.enforcing hprep hfound, hasked]
          rfl
        | none =>
          rw [hfound] at hasked
          have hmiss : (cachedStatement s sub).1 = none := by rw [hfound]
          have hgates := gates_enforce E cfg.enforcing rfl s (one_gate hcbor hjson hsubmission hprep)
          obtain ⟨-, hends⟩ := register_gates cfg.enforcing hs hprep hmiss now grade cp
          rw [show asked E cfg s request = missing s sub.checkpointFields cp from hasked, ← hgates]
          cases hgated : ((gates E cfg.enforcing sub.checkpointFields cp).run MemoryStore.exec s).1 with
          | ok x =>
            simp only [hgated] at hends
            obtain ⟨result, hresult⟩ := hends
            rw [hresult]
            rfl
          | error e =>
            simp only [hgated] at hends
            rw [hends]
            cases e <;> rfl

/-- Under `warn` a submission is counted for the proof that it misses, and accepted unless it is stale. -/
private theorem step_warn (hwarn : cfg.consistencyProofPolicy = .warn) {s : MemoryStore} (hs : Indexed s.log)
    (r : TimedRequest) :
    (∀ logId, (step E cfg s r).2.wouldRefuse logId =
      s.wouldRefuse logId + if asked E cfg s r.2 = some logId then 1 else 0) ∧
    (∀ logId, asked E cfg s r.2 = some logId →
      r.2.logId? E cfg = some logId ∧ ((step E cfg s r).1.isOk ↔ ¬ Stale E cfg s r.2)) := by
  obtain ⟨now, request⟩ := r
  cases hsubmission : request.submission E with
  | none =>
    have hasked : asked E cfg s request = none := by simp only [asked, hsubmission]
    refine ⟨?_, ?_⟩
    · intro logId
      rw [(step_other cfg hs hsubmission now).1, hasked]
      rfl
    · intro logId h
      rw [hasked] at h
      cases h
  | some submission =>
    obtain ⟨statementBytes, grade, cp⟩ := submission
    obtain ⟨hcounter, hreply⟩ := step_of_register cfg (s := s) hsubmission now
    cases hprep : prepare E cfg.payloadPolicy statementBytes with
    | error e =>
      have hrun : (registerSignedStatementFull E cfg now statementBytes grade cp).run MemoryStore.exec s = (.error e, s) := by
        rw [registerSignedStatementFull, hprep]
        rfl
      have hasked : asked E cfg s request = none := by simp only [asked, hsubmission, hprep]
      refine ⟨?_, ?_⟩
      · intro logId
        rw [hcounter, hrun, hasked]
        rfl
      · intro logId h
        rw [hasked] at h
        cases h
    | ok sub =>
      have hasked : asked E cfg s request = if (cachedStatement s sub).1.isSome then none else
          missing s sub.checkpointFields cp := by
        simp only [asked, hsubmission, hprep]
      cases hfound : cachedStatement s sub with
      | mk found scheme =>
        cases found with
        | some found =>
          have hnone : asked E cfg s request = none := by
            rw [hasked, hfound]
            rfl
          refine ⟨?_, ?_⟩
          · intro logId
            rw [hcounter, register_cached_run E cfg hprep hfound, hnone]
            rfl
          · intro logId h
            rw [hnone] at h
            cases h
        | none =>
          have hmiss : (cachedStatement s sub).1 = none := by rw [hfound]
          have hmissing : asked E cfg s request = missing s sub.checkpointFields cp := by
            rw [hasked, hmiss]
            rfl
          obtain ⟨hcount, hends⟩ := register_gates cfg hs hprep hmiss now grade cp
          have hok : ∀ {r}, ((gates E cfg sub.checkpointFields cp).run MemoryStore.exec s).1 = r →
              (step E cfg s (now, request)).1.isOk = r.isOk := by
            intro r hr
            rw [hr] at hends
            rw [hreply]
            cases r with
            | ok x =>
              obtain ⟨result, hresult⟩ := hends
              rw [hresult]
              rfl
            | error e =>
              rw [show ((registerSignedStatementFull E cfg now statementBytes grade cp).run MemoryStore.exec s).1 = _
                from hends]
              rfl
          cases hfields : sub.checkpointFields with
          | some f =>
            obtain rfl : cp = none :=
              (one_gate hcbor hjson hsubmission hprep).resolve_left (by rw [hfields]; exact Option.some_ne_none _)
            obtain ⟨r, hrun, hchain⟩ := gates_legacy hwarn s f
            rw [hfields] at hcount hmissing hok
            obtain rfl : request = .register statementBytes := register_of_submission hsubmission
            have hstale : Stale E cfg s (.register statementBytes) ↔ ∃ prev,
                s.checkpointWitnesses.lookup f.logId = some prev ∧
                  (f.prevSize ≠ prev.mmrSize ∨ f.mmrSize ≤ prev.mmrSize) := by
              constructor
              · rintro ⟨b, sub', f', prev, hb, hprep', -, hfields', hprev, hextends⟩
                obtain rfl := Request.register.inj hb
                obtain rfl := Except.ok.inj (hprep.symm.trans hprep')
                obtain rfl := Option.some.inj (hfields.symm.trans hfields')
                exact ⟨prev, hprev, hextends⟩
              · rintro ⟨prev, hprev, hextends⟩
                exact ⟨statementBytes, sub, f, prev, rfl, hprep, hmiss, hfields, hprev, hextends⟩
            refine ⟨?_, ?_⟩
            · intro logId
              rw [hcounter, hcount, hrun, wouldRefuse_countMissing, hmissing]
            · intro logId hlog
              rw [hmissing] at hlog
              refine ⟨?_, ?_⟩
              · have hf : f.logId = logId := by
                  simp only [missing] at hlog
                  split at hlog
                  · exact Option.some.inj hlog
                  · cases hlog
                simp only [Request.logId?, hprep, hfields, Option.map_some, hf]
              · rw [hok (by rw [hrun]), hchain, hstale]
                push Not
                rfl
          | none =>
            rw [hfields] at hcount hmissing hok
            have hfresh : ¬ Stale E cfg s request := by
              rintro ⟨b, sub', f', prev, rfl, hprep', -, hfields', -⟩
              obtain rfl : b = statementBytes := (Prod.mk.inj (Option.some.inj hsubmission)).1
              obtain rfl := Except.ok.inj (hprep.symm.trans hprep')
              rw [hfields] at hfields'
              cases hfields'
            cases cp with
            | none =>
              refine ⟨?_, ?_⟩
              · intro logId
                rw [hcounter, hcount, hmissing]
                rfl
              · intro logId hlog
                rw [hmissing] at hlog
                cases hlog
            | some cp =>
              obtain ⟨rfl, -⟩ := submission_checkpoint E hsubmission
              obtain ⟨r, hrun, haccepted⟩ := gates_checkpoint (E := E) hwarn s cp
              refine ⟨?_, ?_⟩
              · intro logId
                rw [hcounter, hcount, hrun, wouldRefuse_countMissing, hmissing]
              · intro logId hlog
                rw [hmissing] at hlog
                refine ⟨?_, ?_⟩
                · simp only [missing] at hlog
                  split at hlog
                  · exact hlog
                  · cases hlog
                · rw [hok (by rw [hrun])]
                  exact iff_of_true (haccepted (by rw [hlog]; rfl)) hfresh

/-! ### A run -/

/-- The counter of a log counts the submissions that miss a proof for it. -/
private theorem counted_run (hwarn : cfg.consistencyProofPolicy = .warn) (logId : String) (rs : List TimedRequest)
    {s : MemoryStore} (hs : Indexed s.log) :
    (Run.after (step E cfg) s rs).wouldRefuse logId = s.wouldRefuse logId +
      (Run.trace (step E cfg) s rs).countP fun e => decide (asked E cfg e.before e.request.2 = some logId) := by
  induction rs generalizing s with
  | nil => rfl
  | cons r rs ih =>
    have hhere := (step_warn hcbor hjson hwarn hs r).1 logId
    rw [Run.after_cons, ih (indexed_step E cfg hs r), hhere, Run.trace, List.countP_cons]
    simp only [decide_eq_true_eq]
    omega

private theorem counters_iff (hwarn : cfg.consistencyProofPolicy = .warn) {s : MemoryStore} (hs : Indexed s.log)
    (rs : List TimedRequest) :
    (∀ logId, (Run.after (step E cfg) s rs).wouldRefuse logId = s.wouldRefuse logId +
      predicted E cfg (Run.trace (step E cfg) s rs) logId) ↔
    ∀ e ∈ Run.trace (step E cfg) s rs, ¬ Stale E cfg e.before e.request.2 := by
  have hindexed : ∀ (s : MemoryStore) (r : TimedRequest), Indexed s.log → Indexed (step E cfg s r).2.log :=
    fun _ r h => indexed_step E cfg h r
  -- what is predicted is what misses a proof and is not stale
  have hpredicted : ∀ logId, ∀ e ∈ Run.trace (step E cfg) s rs,
      (decide (e.request.2.logId? E cfg = some logId) && e.reply.isOk &&
        requiresProof (step E cfg.enforcing e.before e.request).1) = true ↔
      asked E cfg e.before e.request.2 = some logId ∧ ¬ Stale E cfg e.before e.request.2 := by
    intro logId e he
    obtain ⟨hbefore, hreply, -⟩ := Run.mem_trace (step E cfg) hindexed hs he
    have hsame := (step_warn hcbor hjson hwarn hbefore e.request).2
    rw [Bool.and_eq_true, Bool.and_eq_true, decide_eq_true_eq, step_enforce hcbor hjson hbefore, hreply]
    constructor
    · rintro ⟨⟨hlog, hok⟩, hasked⟩
      obtain ⟨other, hother⟩ := Option.isSome_iff_exists.1 hasked
      obtain ⟨hlog', hfresh⟩ := hsame other hother
      obtain rfl := Option.some.inj (hlog.symm.trans hlog')
      exact ⟨hother, hfresh.1 hok⟩
    · rintro ⟨hasked, hfresh⟩
      obtain ⟨hlog, hok⟩ := hsame logId hasked
      exact ⟨⟨hlog, hok.2 hfresh⟩, by rw [hasked]; rfl⟩
  have hcount : ∀ logId, (Run.after (step E cfg) s rs).wouldRefuse logId = s.wouldRefuse logId +
      predicted E cfg (Run.trace (step E cfg) s rs) logId ↔ ∀ e ∈ Run.trace (step E cfg) s rs,
        asked E cfg e.before e.request.2 = some logId → ¬ Stale E cfg e.before e.request.2 := by
    intro logId
    have hless : ∀ e ∈ Run.trace (step E cfg) s rs, (decide (e.request.2.logId? E cfg = some logId) &&
        e.reply.isOk && requiresProof (step E cfg.enforcing e.before e.request).1) = true →
        decide (asked E cfg e.before e.request.2 = some logId) = true := by
      intro e he h
      exact decide_eq_true ((hpredicted logId e he).1 h).1
    rw [counted_run hcbor hjson hwarn logId rs hs, Nat.add_left_cancel_iff, eq_comm, predicted, countP_eq_iff hless]
    refine forall₂_congr fun e he => ?_
    rw [hpredicted logId e he, decide_eq_true_eq]
    exact ⟨fun h hasked => (h hasked).2, fun h hasked => ⟨hasked, h hasked⟩⟩
  constructor
  · intro h e he hstale
    obtain ⟨logId, hasked⟩ := asked_of_stale hstale
    exact (hcount logId).1 (h logId) e he hasked hstale
  · intro h logId
    exact (hcount logId).2 fun e he _ => h e he

/-- Over a run under `warn` every counter is the number of submissions for its log that were accepted and that `enforce`
would have refused, exactly when no submission was a stale statement. -/
theorem warn_predicts_enforce_iff (hwarn : cfg.consistencyProofPolicy = .warn) (rs : List TimedRequest) :
    (∀ logId, (Run.after (step E cfg) {} rs).wouldRefuse logId =
      predicted E cfg (Run.trace (step E cfg) {} rs) logId) ↔
    ∀ e ∈ Run.trace (step E cfg) {} rs, ¬ Stale E cfg e.before e.request.2 := by
  have hzero : ∀ logId, ({} : MemoryStore).wouldRefuse logId = 0 := fun _ => rfl
  rw [← counters_iff hcbor hjson hwarn indexed_nil rs]
  simp only [hzero, Nat.zero_add]

end Laws

/-! ### A checkpoint, and a statement for the same log -/

private abbrev tipCheckpoint : Checkpoint := refCheckpoint 4 1 pos_four

private abbrev sixCheckpoint : Checkpoint := refCheckpoint 6 2 (by decide)

private theorem step_tip : ∃ s, (step refDeclaredEnv {} {} (fun i => ⟨i, 0⟩, .witnessCheckpoint tipCheckpoint)).2 = s ∧
    s.checkpointWitnesses.lookup "log" = some tipCheckpoint.witness ∧
    ∃ row, s.statements = (∅ : AList _).insert
      (refDeclaredEnv.sha256 (checkpointDigest refDeclaredEnv tipCheckpoint).bytes) row := by
  obtain ⟨result, s, hstep, -, htips, -, row, hrow⟩ := step_witness_first refDeclaredEnv {} (s := {}) indexed_nil
    (decode_digest_refDeclaredEnv (checkpointDigest refDeclaredEnv tipCheckpoint)) (AList.lookup_empty _)
    (AList.lookup_empty _) (fun i => ⟨i, 0⟩)
  refine ⟨s, by rw [hstep], ?_, row, hrow⟩
  rw [htips]
  exact AList.lookup_insert _

set_option maxRecDepth 100000 in
private theorem tip_digest_ne :
    refDeclaredEnv.sha256 (sigStructure refDeclaredEnv [160] refDeclaredText) ≠
      refDeclaredEnv.sha256 (checkpointDigest refDeclaredEnv tipCheckpoint).bytes ∧
    refDeclaredEnv.sha256 refDeclaredStatement ≠
      refDeclaredEnv.sha256 (checkpointDigest refDeclaredEnv tipCheckpoint).bytes := by
  decide +kernel

/-- A statement from size 5 after a checkpoint of size 4: it is counted, and refused. -/
theorem stale_statement_counted : ¬ ∀ (E : Env) (cfg : Config), CborBounded E → JsonBounded E →
    cfg.consistencyProofPolicy = .warn → ∀ (rs : List TimedRequest) (logId : String),
    (Run.after (step E cfg) {} rs).wouldRefuse logId = predicted E cfg (Run.trace (step E cfg) {} rs) logId := by
  intro h
  obtain ⟨s, hs, htip, row, hrow⟩ := step_tip
  obtain ⟨sub, hprep, hfields, -, hentry, hlegacy⟩ := prepare_refDeclaredStatement ({} : Config).payloadPolicy
  have hnew : ∀ k, k ≠ refDeclaredEnv.sha256 (checkpointDigest refDeclaredEnv tipCheckpoint).bytes →
      s.statements.lookup k = none := by
    intro k hk
    rw [hrow, AList.lookup_insert_ne hk]
    exact AList.lookup_empty _
  have hmiss : (cachedStatement s sub).1 = none := by
    rw [cachedStatement_none]
    rw [hentry, hlegacy]
    exact ⟨hnew _ tip_digest_ne.1, hnew _ tip_digest_ne.2⟩
  have hstale : Stale refDeclaredEnv {} s (.register refDeclaredStatement) :=
    ⟨_, sub, _, _, rfl, hprep, hmiss, hfields, htip, .inl (by decide)⟩
  have hwarn : ({} : Config).consistencyProofPolicy = .warn := rfl
  have hfresh := (counters_iff cborBounded_refDeclaredEnv jsonBounded_refDeclaredEnv hwarn (s := {}) indexed_nil
    [(fun i => ⟨i, 0⟩, .witnessCheckpoint tipCheckpoint), (fun i => ⟨i, 0⟩, .register refDeclaredStatement)]).1 ?_
  · rw [Run.trace, Run.trace, List.forall_mem_cons, List.forall_mem_cons] at hfresh
    refine hfresh.2.1 ?_
    rwa [hs]
  · intro logId
    rw [h refDeclaredEnv {} cborBounded_refDeclaredEnv jsonBounded_refDeclaredEnv hwarn]
    exact (Nat.zero_add _).symm

/-- Two checkpoints of one log without a proof. -/
theorem warn_predicts_enforce_iff_sample :
    let rs : List TimedRequest := [(fun i => ⟨i, 0⟩, .witnessCheckpoint tipCheckpoint),
      (fun i => ⟨i, 0⟩, .witnessCheckpoint sixCheckpoint)]
    ∀ logId, (Run.after (step refDeclaredEnv {}) {} rs).wouldRefuse logId =
      predicted refDeclaredEnv {} (Run.trace (step refDeclaredEnv {}) {} rs) logId := by
  intro rs
  have hwarn : ({} : Config).consistencyProofPolicy = .warn := rfl
  refine (warn_predicts_enforce_iff cborBounded_refDeclaredEnv jsonBounded_refDeclaredEnv hwarn rs).2 ?_
  rintro e he ⟨statementBytes, sub, f, prev, hrequest, -⟩
  simp only [rs, Run.trace, List.mem_cons, List.not_mem_nil, or_false] at he
  rcases he with rfl | rfl <;> cases hrequest

end CapsuleAnchor
