import CapsuleAnchor.Registration

/-!
# Runs of one service

`step` answers one request alone, so a run of a service is a run of `step` (`Runs`).  `step_cases` says everything a
request can do to the store; the lemmas after it read off what that means for the log, the statement cache and the
history of tree heads.  In every run the log stays indexed and grows at its end.
-/

namespace CapsuleAnchor

variable (E : Env) (cfg : Config)

/-- A request, with the clock readings of the call that answers it. -/
abbrev TimedRequest : Type := (Nat → Datetime) × Request

/-- One service answers one request. -/
def step (s : MemoryStore) (r : TimedRequest) : Except ServiceError Reply × MemoryStore :=
  (r.2.program E cfg r.1).run MemoryStore.exec s

abbrev ServiceEvent : Type := Run.Event MemoryStore TimedRequest (Except ServiceError Reply)

/-- What a request hands to `register_signed_statement_full`. -/
def Request.submission : Request → Option (Bytes × Option String × Option Checkpoint)
  | .register statementBytes => some (statementBytes, none, none)
  | .witnessCheckpoint cp => some ((checkpointDigest E cp).bytes, cp.grade, some cp)
  | _ => none

/-- A submission with a checkpoint is its digest. -/
theorem submission_checkpoint {request : Request} {statementBytes : Bytes} {grade : Option String} {cp : Checkpoint}
    (h : request.submission E = some (statementBytes, grade, some cp)) :
    request = .witnessCheckpoint cp ∧ statementBytes = (checkpointDigest E cp).bytes := by
  cases request with
  | witnessCheckpoint cp' =>
    obtain ⟨rfl, -, rfl⟩ : (checkpointDigest E cp').bytes = statementBytes ∧ cp'.grade = grade ∧ cp' = cp := by
      simpa [Request.submission] using h
    exact ⟨rfl, rfl⟩
  | register b => simp [Request.submission] at h
  | _ => cases h

/-- The store after the read surface is recorded. -/
def recordSurface (cp : Option Checkpoint) (result : StatementRegistration) (s : MemoryStore) : MemoryStore :=
  match cp with
  | none => s
  | some cp => (s.putCheckpointRecord cp.logId cp.mmrSize (checkpointRecord cp result)).2

/-- How a request ends. -/
inductive ServiceStep (now : Nat → Datetime) (s : MemoryStore) :
    Request → Except ServiceError Reply → MemoryStore → Prop
  | refused (request : Request) (e : ServiceError) (s' : MemoryStore) (hsame : SameStore s s') :
    ServiceStep now s request (.error e) s'
  | anchored (tenantId rootHash : String) (seqRange : Int × Int) (capsuleId : Option String)
    (receipt : AnchorReceipt) (s' : MemoryStore) (entry : TransparencyLogEntry)
    (hentry : entry = nextEntry E s.log logKindRoot (countersignPayload tenantId rootHash seqRange (now 0)) (now 0) (now 2))
    (hstate : s' = { s with log := s.log ++ [entry], roots := s'.roots, capsuleIds := s'.capsuleIds }) :
    ServiceStep now s (.anchor tenantId rootHash seqRange capsuleId) (.ok (.anchored receipt)) s'
  | registered (request : Request) (statementBytes : Bytes) (grade : Option String) (cp : Option Checkpoint)
    (result : StatementRegistration) (s' : MemoryStore)
    (hsubmission : request.submission E = some (statementBytes, grade, cp))
    (hstep : RegisterStep E cfg now statementBytes grade cp s (.ok result) s') :
    ServiceStep now s request (.ok (.registered result)) (recordSurface cp result s')
  | signed (request : Request) (hrequest : request = .refreshSth ∨ request = .getSth) :
    ServiceStep now s request (.ok (.sth (headOver E s.log (now 0) (now 1))))
      (s.putSth (headOver E s.log (now 0) (now 1)))
  | current (sth : SignedTreeHead) (hlatest : s.latestSth = some sth) (hsize : s.log.length ≤ sth.treeSize) :
    ServiceStep now s .getSth (.ok (.sth sth)) s
  | pruned (seconds : Option Nat) (count : Nat) (s' : MemoryStore)
    (hsub : ∀ k v, s'.statements.lookup k = some v → s.statements.lookup k = some v)
    (hstate : s' = { s with statements := s'.statements }) :
    ServiceStep now s (.prune seconds) (.ok (.pruned count)) s'

theorem anchor_run (s : MemoryStore) (now : Nat → Datetime) (tenantId rootHash : String)
    (seqRange : Int × Int) (capsuleId : Option String) :
    ∃ receipt s', (anchor E now tenantId rootHash seqRange capsuleId).run MemoryStore.exec s = (.ok receipt, s') ∧
      s' = { s with
        log := s.log ++
          [nextEntry E s.log logKindRoot (countersignPayload tenantId rootHash seqRange (now 0)) (now 0) (now 2)]
        roots := s'.roots, capsuleIds := s'.capsuleIds } := by
  rw [anchor, Prog.run_bind_ok _ (appendLog_run E s _ _ _ _)]
  cases capsuleId <;> exact ⟨_, _, rfl, rfl⟩

private theorem prune_run (s : MemoryStore) (now : Nat → Datetime) (seconds : Option Nat) :
    ServiceStep E cfg now s (.prune seconds)
      (((Reply.pruned <$> pruneExpiredStatements seconds (now 0)).run MemoryStore.exec s).1)
      (((Reply.pruned <$> pruneExpiredStatements seconds (now 0)).run MemoryStore.exec s).2) := by
  unfold pruneExpiredStatements
  cases seconds with
  | none => exact .pruned none 0 s (fun _ _ h => h) rfl
  | some seconds =>
    simp only
    rw [Prog.run_map, orRaise, Prog.run_bind_ok _ (run_store _), Prog.run_ofExcept]
    simp only [MemoryStore.exec, MemoryStore.pruneStatementsOlderThan]
    cases hstale : s.stale ⟨(now 0).epochUs - seconds * 1000000, (now 0).utcoffset⟩ with
    | error e => exact .refused _ e s (.refl s)
    | ok stale => exact .pruned _ stale.length _ (fun k v => lookup_foldl_erase stale s.statements k v) rfl

theorem step_cases {s : MemoryStore} (h : Indexed s.log) (r : TimedRequest) :
    ServiceStep E cfg r.1 s r.2 (step E cfg s r).1 (step E cfg s r).2 := by
  obtain ⟨now, request⟩ := r
  simp only [step]
  cases request with
  | anchor tenantId rootHash seqRange capsuleId =>
    obtain ⟨receipt, s', hrun, hstate⟩ := anchor_run E s now tenantId rootHash seqRange capsuleId
    rw [Request.program, Prog.run_map, hrun]
    exact .anchored tenantId rootHash seqRange capsuleId receipt s' _ rfl hstate
  | register statementBytes =>
    have hstep := registerSignedStatementFull_run E cfg h now statementBytes none none
    rw [Request.program, Prog.run_map]
    cases hrun : (registerSignedStatementFull E cfg now statementBytes none none).run MemoryStore.exec s with
    | mk r s' =>
      rw [hrun] at hstep
      cases r with
      | error e =>
        cases hstep with
        | refused _ _ hsame => exact .refused _ e s' hsame
      | ok result => exact .registered _ statementBytes none none result s' rfl hstep
  | witnessCheckpoint cp =>
    have hstep := registerSignedStatementFull_run E cfg h now (checkpointDigest E cp).bytes cp.grade (some cp)
    rw [Request.program, Prog.run_map, witnessCheckpoint]
    cases hrun : (registerSignedStatementFull E cfg now (checkpointDigest E cp).bytes cp.grade
        (some cp)).run MemoryStore.exec s with
    | mk r s' =>
      rw [hrun] at hstep
      cases r with
      | error e =>
        rw [Prog.run_bind_error _ hrun]
        cases hstep with
        | refused _ _ hsame => exact .refused _ e s' hsame
      | ok result =>
        rw [Prog.run_bind_ok _ hrun]
        exact .registered _ _ cp.grade (some cp) result s' rfl hstep
  | refreshSth =>
    rw [Request.program, Prog.run_map, signAndPersistSth_run E h]
    exact .signed .refreshSth (.inl rfl)
  | getSth =>
    rw [Request.program, Prog.run_map]
    rcases getSth_run E h now with ⟨sth, hlatest, hsize, hrun⟩ | hrun
    · rw [hrun]
      exact .current sth hlatest hsize
    · rw [hrun]
      exact .signed .getSth (.inr rfl)
  | prune seconds => exact prune_run E cfg s now seconds

/-! ### What a request changes -/

section Fields

variable (now : Nat → Datetime) (sub : Submission) (grade : Option String) (cp : Option Checkpoint)
  (g : Option ContinuityGrade) (s : MemoryStore)

@[simp] theorem statements_indexSubject : (indexSubject s sub).statements = s.statements := by
  unfold indexSubject
  split <;> rfl

@[simp] theorem sthHistory_indexSubject : (indexSubject s sub).sthHistory = s.sthHistory := by
  unfold indexSubject
  split <;> rfl

@[simp] theorem checkpointRecords_indexSubject : (indexSubject s sub).checkpointRecords = s.checkpointRecords := by
  unfold indexSubject
  split <;> rfl

@[simp] theorem log_freshState : (freshState E now sub grade cp g s).log = registeredLog E now sub s.log := by
  simp [freshState, committedState, issuedState]

@[simp] theorem statements_freshState : (freshState E now sub grade cp g s).statements =
    s.statements.insert sub.entryHash (issued E now sub grade (continuityAssertion E (now 0) cp g) s.log) := by
  simp [freshState, committedState, issuedState]

@[simp] theorem checkpointWitnesses_freshState : (freshState E now sub grade cp g s).checkpointWitnesses =
    newTips s.checkpointWitnesses sub.checkpointFields (acceptedCheckpoint cp g) := rfl

@[simp] theorem checkpointRecords_freshState :
    (freshState E now sub grade cp g s).checkpointRecords = s.checkpointRecords := by
  simp [freshState, committedState, issuedState]

@[simp] theorem sthHistory_freshState : (freshState E now sub grade cp g s).sthHistory =
    insertNew s.sthHistory (s.log.length + 1)
      (headOver E (registeredLog E now sub s.log) (now 3) (now 4)) := by
  have hsize : (headOver E (registeredLog E now sub s.log) (now 3) (now 4)).treeSize = s.log.length + 1 :=
    length_registeredLog E now sub s.log
  simp [freshState, committedState, issuedState, hsize]

variable (result : StatementRegistration)

/-- Recording the read surface touches nothing but the rows and the equivocations. -/
theorem recordSurface_eq : recordSurface cp result s =
    { s with checkpointRecords := (recordSurface cp result s).checkpointRecords
             checkpointEquivocations := (recordSurface cp result s).checkpointEquivocations } := by
  unfold recordSurface MemoryStore.putCheckpointRecord
  cases cp with
  | none => rfl
  | some cp =>
    simp only
    split
    · rfl
    · split <;> rfl

@[simp] theorem log_recordSurface : (recordSurface cp result s).log = s.log := by rw [recordSurface_eq]

@[simp] theorem statements_recordSurface : (recordSurface cp result s).statements = s.statements := by
  rw [recordSurface_eq]

@[simp] theorem checkpointWitnesses_recordSurface :
    (recordSurface cp result s).checkpointWitnesses = s.checkpointWitnesses := by rw [recordSurface_eq]

@[simp] theorem sthHistory_recordSurface : (recordSurface cp result s).sthHistory = s.sthHistory := by
  rw [recordSurface_eq]

theorem checkpointRecords_recordSurface (cp : Checkpoint) : (recordSurface (some cp) result s).checkpointRecords =
    insertNew s.checkpointRecords (cp.logId, cp.mmrSize) (checkpointRecord cp result) := by
  simp only [recordSurface, MemoryStore.putCheckpointRecord, insertNew]
  cases s.checkpointRecords.lookup (cp.logId, cp.mmrSize) with
  | none => rfl
  | some existing =>
    simp only
    split <;> rfl

@[simp] theorem subjectIndex_recordSurface : (recordSurface cp result s).subjectIndex = s.subjectIndex := by
  rw [recordSurface_eq]

end Fields

/-! ### Requests that succeed -/

section Fresh

variable {s s' : MemoryStore}

/-- A submission answers what `register_signed_statement_full` returns. -/
theorem step_submission {request : Request} {statementBytes : Bytes} {grade : Option String} {cp : Option Checkpoint}
    (hsubmission : request.submission E = some (statementBytes, grade, cp)) {now : Nat → Datetime}
    {result : StatementRegistration}
    (hrun : (registerSignedStatementFull E cfg now statementBytes grade cp).run MemoryStore.exec s = (.ok result, s')) :
    step E cfg s (now, request) = (.ok (.registered result), recordSurface cp result s') := by
  cases request with
  | register b =>
    obtain ⟨rfl, rfl, rfl⟩ : b = statementBytes ∧ none = grade ∧ none = cp := by
      simpa [Request.submission] using hsubmission
    rw [step, Request.program, Prog.run_map, hrun]
    rfl
  | witnessCheckpoint cp' =>
    obtain ⟨rfl, rfl, rfl⟩ : (checkpointDigest E cp').bytes = statementBytes ∧ cp'.grade = grade ∧ some cp' = cp := by
      simpa [Request.submission] using hsubmission
    rw [step, Request.program, Prog.run_map, witnessCheckpoint, Prog.run_bind_ok _ hrun]
    rfl
  | _ => cases hsubmission

/-- A new statement that carries no checkpoint payload is registered. -/
theorem step_register_fresh (h : Indexed s.log) {statementBytes : Bytes} {sub : Submission}
    (hprep : prepare E cfg.payloadPolicy statementBytes = .ok sub) (hfields : sub.checkpointFields = none)
    (hmiss : (cachedStatement s sub).1 = none) (now : Nat → Datetime) :
    step E cfg s (now, .register statementBytes) =
      (.ok (.registered (freshResult E now sub none none none none s.log)), freshState E now sub none none none s) :=
  step_submission E cfg rfl (register_fresh_run E cfg h hprep hfields hmiss
    (run_optionally_none (checkCheckpointContinuity E cfg)) now none)

/-- Bytes that are no COSE_Sign1 are registered, whatever they hold. -/
theorem step_register_raw (h : Indexed s.log) {statementBytes : Bytes}
    (hdecode : decodeCoseSign1 E statementBytes = none) (hsize : statementBytes.length ≤ maxStatementBytes)
    (hmiss : s.statements.lookup (E.sha256 statementBytes) = none) (now : Nat → Datetime) :
    step E cfg s (now, .register statementBytes) =
      (.ok (.registered (freshResult E now (rawSubmission E statementBytes) none none none none s.log)),
        freshState E now (rawSubmission E statementBytes) none none none s) :=
  step_register_fresh E cfg h (prepare_raw E cfg.payloadPolicy hdecode hsize) rfl
    (cachedStatement_none.2 ⟨hmiss, hmiss⟩) now

theorem length_digest_le (cp : Checkpoint) : (checkpointDigest E cp).bytes.length ≤ maxStatementBytes := by
  rw [(checkpointDigest E cp).length_bytes, maxStatementBytes]
  omega

/-- A checkpoint whose digest is not cached is accepted with the grade that the gate gives it. -/
theorem step_witness_fresh (h : Indexed s'.log) {cp : Checkpoint}
    (hdecode : decodeCoseSign1 E (checkpointDigest E cp).bytes = none)
    (hmiss : s.statements.lookup (E.sha256 (checkpointDigest E cp).bytes) = none) {g : ContinuityGrade}
    (hgate : (checkCheckpointContinuity E cfg cp).run MemoryStore.exec s = (.ok g, s')) (now : Nat → Datetime) :
    ∃ result s'', step E cfg s (now, .witnessCheckpoint cp) = (.ok (.registered result), s'') ∧
      result.continuityGrade = some g ∧
      s''.checkpointWitnesses = newTips s'.checkpointWitnesses none (acceptedCheckpoint (some cp) (some g)) ∧
      s''.checkpointRecords = insertNew s'.checkpointRecords (cp.logId, cp.mmrSize) (checkpointRecord cp result) ∧
      ∃ row, s''.statements = s'.statements.insert (E.sha256 (checkpointDigest E cp).bytes) row := by
  have hgate' : (optionally (some cp) (checkCheckpointContinuity E cfg)).run MemoryStore.exec s = (.ok (some g), s') := by
    rw [run_optionally_some, hgate]
    rfl
  have hrun := register_fresh_run E cfg h (prepare_raw E cfg.payloadPolicy hdecode (length_digest_le E cp)) rfl
    (cachedStatement_none.2 ⟨hmiss, hmiss⟩) hgate' now cp.grade
  refine ⟨_, _, step_submission E cfg (show Request.submission E (.witnessCheckpoint cp) = _ from rfl) hrun, rfl, ?_, ?_, ?_⟩
  · rw [checkpointWitnesses_recordSurface, checkpointWitnesses_freshState]
    rfl
  · rw [checkpointRecords_recordSurface, checkpointRecords_freshState]
  · rw [statements_recordSurface, statements_freshState]
    exact ⟨_, rfl⟩

/-- The first checkpoint of a log is witnessed, and leaves its tip. -/
theorem step_witness_first (h : Indexed s.log) {cp : Checkpoint}
    (hdecode : decodeCoseSign1 E (checkpointDigest E cp).bytes = none)
    (hmiss : s.statements.lookup (E.sha256 (checkpointDigest E cp).bytes) = none)
    (hfirst : s.checkpointWitnesses.lookup cp.logId = none) (now : Nat → Datetime) :
    ∃ result s', step E cfg s (now, .witnessCheckpoint cp) = (.ok (.registered result), s') ∧
      result.continuityGrade = some .firstSeen ∧
      s'.checkpointWitnesses = s.checkpointWitnesses.insert cp.logId cp.witness ∧
      s'.checkpointRecords = insertNew s.checkpointRecords (cp.logId, cp.mmrSize) (checkpointRecord cp result) ∧
      ∃ row, s'.statements = s.statements.insert (E.sha256 (checkpointDigest E cp).bytes) row := by
  have hgate : (checkCheckpointContinuity E cfg cp).run MemoryStore.exec s = (.ok .firstSeen, s) := by
    rw [checkCheckpointContinuity, Prog.run_bind_ok _ (run_getCheckpointWitness cp.logId), hfirst]
    rfl
  exact step_witness_fresh E cfg h hdecode hmiss hgate now

private theorem cachedStatement_raw {statementBytes : Bytes} {row : CoseReceipt × Int × Nat}
    (hrow : s.statements.lookup (E.sha256 statementBytes) = some row) :
    cachedStatement s (rawSubmission E statementBytes) = (some row, .legacy) := by
  simp only [cachedStatement, rawSubmission, hrow]

/-- Bytes that are no COSE_Sign1 are registered or answered from the cache, and cached afterwards. -/
theorem step_register_raw_cached (h : Indexed s.log) {statementBytes : Bytes}
    (hdecode : decodeCoseSign1 E statementBytes = none) (hsize : statementBytes.length ≤ maxStatementBytes)
    (now : Nat → Datetime) :
    ∃ result s', step E cfg s (now, .register statementBytes) = (.ok (.registered result), s') ∧
      s'.checkpointWitnesses = s.checkpointWitnesses ∧ s'.checkpointRecords = s.checkpointRecords ∧
      ∃ row, s'.statements.lookup (E.sha256 statementBytes) = some row := by
  cases hrow : s.statements.lookup (E.sha256 statementBytes) with
  | none =>
    refine ⟨_, _, step_register_raw E cfg h hdecode hsize hrow now, rfl, ?_, ?_⟩
    · exact checkpointRecords_freshState E now _ none none none s
    · rw [statements_freshState]
      exact ⟨_, AList.lookup_insert _⟩
  | some row =>
    have hrun := register_cached_run E cfg (prepare_raw E cfg.payloadPolicy hdecode hsize)
      (cachedStatement_raw E hrow) now none none
    exact ⟨_, s, step_submission E cfg (show Request.submission E (.register statementBytes) = _ from rfl) hrun, rfl, rfl, row, hrow⟩

/-- A checkpoint whose digest is cached is answered from the cache, with the grade of the row that is there. -/
theorem step_witness_cached {cp : Checkpoint} (hdecode : decodeCoseSign1 E (checkpointDigest E cp).bytes = none)
    {row : CoseReceipt × Int × Nat} (hrow : s.statements.lookup (E.sha256 (checkpointDigest E cp).bytes) = some row)
    (now : Nat → Datetime) :
    ∃ result, step E cfg s (now, .witnessCheckpoint cp) = (.ok (.registered result), recordSurface (some cp) result s) ∧
      result.continuityGrade = (s.checkpointRecords.lookup (cp.logId, cp.mmrSize)).bind (·.continuityGrade) := by
  have hrun := register_cached_run E cfg (prepare_raw E cfg.payloadPolicy hdecode (length_digest_le E cp))
    (cachedStatement_raw E hrow) now cp.grade (some cp)
  exact ⟨_, step_submission E cfg (show Request.submission E (.witnessCheckpoint cp) = _ from rfl) hrun, rfl⟩

end Fresh

/-! ### The log over a run -/

/-- A request leaves the log alone or adds the next entry to it. -/
theorem ServiceStep.log {now : Nat → Datetime} {s s' : MemoryStore} {request : Request}
    {reply : Except ServiceError Reply} (h : ServiceStep E cfg now s request reply s') :
    s'.log = s.log ∨
      ∃ kind payload loggedAt signedAt, s'.log = s.log ++ [nextEntry E s.log kind payload loggedAt signedAt] := by
  cases h with
  | refused _ e _ hsame => exact .inl hsame.log
  | anchored _ _ _ _ _ _ entry hentry hstate =>
    right
    rw [hstate, hentry]
    exact ⟨_, _, _, _, rfl⟩
  | registered _ _ _ cp result s' _ hstep =>
    rw [log_recordSurface]
    cases hstep with
    | cached => exact .inl rfl
    | fresh sub s₁ status g hprep hmiss hsame =>
      right
      rw [log_freshState, hsame.log]
      exact ⟨_, _, _, _, rfl⟩
  | signed => exact .inl (log_putSth _ _)
  | current => exact .inl rfl
  | pruned _ _ _ _ hstate =>
    left
    rw [hstate]

theorem indexed_step {s : MemoryStore} (h : Indexed s.log) (r : TimedRequest) :
    Indexed (step E cfg s r).2.log := by
  rcases (step_cases E cfg h r).log with hlog | ⟨_, _, _, _, hlog⟩
  · rwa [hlog]
  · rw [hlog]
    exact h.append rfl

theorem indexed_after {s : MemoryStore} (h : Indexed s.log) (rs : List TimedRequest) :
    Indexed (Run.after (step E cfg) s rs).log :=
  Run.invariant (step E cfg) (I := fun s => Indexed s.log) (fun _ r h => indexed_step E cfg h r) h rs

/-- Every event of a run is a step. -/
theorem event_step {rs : List TimedRequest} {e : ServiceEvent} (he : e ∈ Run.trace (step E cfg) {} rs) :
    ServiceStep E cfg e.request.1 e.before e.request.2 e.reply e.after := by
  obtain ⟨hindexed, hreply, hafter⟩ := Run.mem_trace (step E cfg) (I := fun s => Indexed s.log)
    (fun _ r h => indexed_step E cfg h r) indexed_nil he
  rw [hreply, hafter]
  exact step_cases E cfg hindexed e.request

/-- The log is append-only. -/
theorem prefix_after {s : MemoryStore} (h : Indexed s.log) (rs : List TimedRequest) :
    s.log <+: (Run.after (step E cfg) s rs).log := by
  refine Run.related (step E cfg) (I := fun s => Indexed s.log) (R := fun a b => a.log <+: b.log)
    (fun _ => List.prefix_rfl) (fun h h' => h.trans h') (fun _ r h => indexed_step E cfg h r) ?_ h rs
  intro s r h
  rcases (step_cases E cfg h r).log with hlog | ⟨_, _, _, _, hlog⟩
  · simp only [hlog, List.prefix_rfl]
  · rw [hlog]
    exact List.prefix_append _ _

end CapsuleAnchor
