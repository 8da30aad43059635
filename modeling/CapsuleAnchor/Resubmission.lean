import CapsuleAnchor.Surface

/-!
# Submitting a checkpoint again

A checkpoint that `witness_checkpoint` accepted is answered from the cache for ever after, with the receipt, entry
hash, leaf and tree size of the first time.  Its grade is read from the record of its position, and the read surface
is recorded once more: a record with another root gets one more equivocation event.

The record of a position is the first that was made there.  So the answer and the store are those of the first time
when the checkpoint found its position free, or found a record there with its own root and grade (`Undisplaced`), and
only then (`resubmission_idempotent`).  `resubmission_displaced` is a checkpoint that found another root.
-/

namespace CapsuleAnchor

variable (E : Env) (cfg : Config)

/-- The digest of the checkpoint has a row in the statement cache. -/
def DigestCached (s : MemoryStore) (cp : Checkpoint) : Prop :=
  ∃ sub row, prepare E cfg.payloadPolicy (checkpointDigest E cp).bytes = .ok sub ∧ (cachedStatement s sub).1 = some row

/-- The grade that the gate gives a checkpoint it lets through. -/
def dueGrade (tip : Option CheckpointWitness) (cp : Checkpoint) : ContinuityGrade :=
  match tip, cp.consistencyProof.join with
  | none, _ => .firstSeen
  | some _, none => .registered
  | some _, some _ => .witnessed

/-- No record is in the way of the checkpoint: its position is free, or has its root and the grade it is to get. -/
def Undisplaced (s : MemoryStore) (cp : Checkpoint) : Prop :=
  ∀ row, s.checkpointRecords.lookup (cp.logId, cp.mmrSize) = some row → row.root = cp.root ∧
    (DigestCached E cfg s cp ∨ row.continuityGrade = some (dueGrade (s.checkpointWitnesses.lookup cp.logId) cp))

/-- The checkpoint is answered as it was, and the store stays as it is. -/
def AnsweredAgain (s : MemoryStore) (now : Nat → Datetime) (cp : Checkpoint) (result : StatementRegistration) : Prop :=
  ∃ result', step E cfg s (now, .witnessCheckpoint cp) = (.ok (.registered result'), s) ∧
    result'.receipt = result.receipt ∧ result'.entryHash = result.entryHash ∧ result'.leafIndex = result.leafIndex ∧
    result'.treeSize = result.treeSize ∧ result'.continuityGrade = result.continuityGrade

/-! ### The first time -/

variable {now : Nat → Datetime} {s s' : MemoryStore} {cp : Checkpoint} {result : StatementRegistration}

private theorem Continuity.due {tip : Option CheckpointWitness} {g : ContinuityGrade} (h : Continuity E cfg cp tip g) :
    g = dueGrade tip cp := by
  cases h with
  | firstSeen => rfl
  | registered prev hproof => simp [dueGrade, hproof]
  | witnessed prev proof hproof => simp [dueGrade, hproof]

/-- The grade of an accepted checkpoint comes from the record of its position, or from the gate. -/
private theorem grade_cases (h : ServiceStep E cfg now s (.witnessCheckpoint cp) (.ok (.registered result)) s') :
    (DigestCached E cfg s cp ∧
      result.continuityGrade = (s.checkpointRecords.lookup (cp.logId, cp.mmrSize)).bind (·.continuityGrade)) ∨
    (¬ DigestCached E cfg s cp ∧
      result.continuityGrade = some (dueGrade (s.checkpointWitnesses.lookup cp.logId) cp)) := by
  cases h with
  | registered _ statementBytes grade cp' _ s₁ hsubmission hstep =>
    obtain ⟨rfl, rfl, rfl⟩ : (checkpointDigest E cp).bytes = statementBytes ∧ cp.grade = grade ∧ some cp = cp' := by
      simpa [Request.submission] using hsubmission
    cases hstep with
    | cached sub found scheme hprep hfound => exact .inl ⟨⟨sub, found, hprep, by rw [hfound]⟩, rfl⟩
    | fresh sub s₂ status g hprep hmiss hsame hlinked hcontinued =>
      right
      constructor
      · rintro ⟨sub', row, hprep', hrow⟩
        obtain rfl : sub = sub' := Except.ok.inj (hprep.symm.trans hprep')
        rw [hmiss] at hrow
        cases hrow
      · cases g with
        | none => exact hcontinued.elim
        | some g =>
          have hcont : Continuity E cfg cp (s.checkpointWitnesses.lookup cp.logId) g := hcontinued
          rw [← hcont.due]
          rfl

/-- The record of the position after a checkpoint is accepted there. -/
private theorem held_after (h : ServiceStep E cfg now s (.witnessCheckpoint cp) (.ok (.registered result)) s') :
    s'.checkpointRecords.lookup (cp.logId, cp.mmrSize) =
      some ((s.checkpointRecords.lookup (cp.logId, cp.mmrSize)).getD (checkpointRecord cp result)) := by
  rcases h.records with ⟨-, hno⟩ | ⟨cp', result', hrequest, hreply, hrecords⟩
  · exact absurd rfl (hno cp result rfl)
  · obtain rfl := Request.witnessCheckpoint.inj hrequest
    obtain rfl : result = result' := by simpa using hreply
    rw [hrecords, lookup_insertNew, if_pos rfl]

/-- That record has the root of the checkpoint and the grade of the answer exactly when nothing was in the way. -/
private theorem undisplaced_iff (h : ServiceStep E cfg now s (.witnessCheckpoint cp) (.ok (.registered result)) s') :
    let held := (s.checkpointRecords.lookup (cp.logId, cp.mmrSize)).getD (checkpointRecord cp result)
    held.root = cp.root ∧ held.continuityGrade = result.continuityGrade ↔ Undisplaced E cfg s cp := by
  intro held
  have hgrade := grade_cases E cfg h
  unfold Undisplaced
  cases hslot : s.checkpointRecords.lookup (cp.logId, cp.mmrSize) with
  | none => simp [held, hslot, checkpointRecord]
  | some row =>
    have hheld : held = row := by simp [held, hslot]
    rw [hheld]
    rw [hslot] at hgrade
    rcases hgrade with ⟨hcached, hgrade⟩ | ⟨huncached, hgrade⟩
    · have hsame : result.continuityGrade = row.continuityGrade := hgrade
      simp [hcached, hsame]
    · simp [huncached, hgrade]

/-! ### And again -/

/-- Every request keeps every record. -/
private theorem record_after (hs : Indexed s.log) {key : String × Nat} {row : CheckpointRecord}
    (hrow : s.checkpointRecords.lookup key = some row) (rs : List TimedRequest) :
    (Run.after (step E cfg) s rs).checkpointRecords.lookup key = some row := by
  have hrun := Run.invariant (step E cfg) (I := fun s => Indexed s.log ∧ s.checkpointRecords.lookup key = some row)
    ?_ ⟨hs, hrow⟩ rs
  · exact hrun.2
  · rintro s r ⟨hs, hrow⟩
    refine ⟨indexed_step E cfg hs r, ?_⟩
    rcases (step_cases E cfg hs r).records with ⟨hsame, -⟩ | ⟨cp, result, -, -, hnew⟩
    · rwa [hsame]
    · rw [hnew]
      exact lookup_insertNew_of_some hrow

/-- The read surface is as it was exactly when the record of the position has the root that is recorded again. -/
private theorem recordSurface_same {held : CheckpointRecord}
    (hheld : s.checkpointRecords.lookup (cp.logId, cp.mmrSize) = some held) :
    recordSurface (some cp) result s = s ↔ held.root = cp.root := by
  rw [recordSurface, MemoryStore.putCheckpointRecord, hheld]
  simp only
  by_cases hroot : held.root = (checkpointRecord cp result).root
  · rw [if_pos hroot]
    exact ⟨fun _ => hroot, fun _ => rfl⟩
  · rw [if_neg hroot]
    refine ⟨?_, fun h => absurd h hroot⟩
    intro hsame
    -- one event more than before
    have hevents := congrArg (fun s => ((s.checkpointEquivocations.lookup cp.logId).getD []).length) hsame
    simp only [AList.lookup_insert, Option.getD_some, List.length_append, List.length_singleton] at hevents
    omega

/-- A checkpoint whose row is cached is answered with it. -/
private theorem answered_iff_held {statementBytes : Bytes} (hbytes : statementBytes = (checkpointDigest E cp).bytes)
    {sub : Submission} (hprep : prepare E cfg.payloadPolicy statementBytes = .ok sub)
    (hkey : result.entryHash = sub.entryHash) (hrow : s.statements.lookup sub.entryHash = some result.row)
    {held : CheckpointRecord} (hheld : s.checkpointRecords.lookup (cp.logId, cp.mmrSize) = some held)
    (now : Nat → Datetime) :
    AnsweredAgain E cfg s now cp result ↔ held.root = cp.root ∧ held.continuityGrade = result.continuityGrade := by
  subst hbytes
  have hrun := register_cached_run E cfg hprep (cachedStatement_of_row hrow) now cp.grade (some cp)
  have hstep := step_submission E cfg (show Request.submission E (.witnessCheckpoint cp) = _ from rfl) hrun
  have hgrade : (cachedResult s sub result.row sub.scheme (some cp)).continuityGrade = held.continuityGrade := by
    rw [cachedResult, Option.bind_some, hheld, Option.bind_some]
  have hhash := entryHash_cachedResult E (prepare_ok E hprep) s result.row (some cp)
  constructor
  · rintro ⟨result', hstep', -, -, -, -, hsame⟩
    rw [hstep] at hstep'
    obtain ⟨hresult, hstate⟩ := Prod.mk.inj hstep'
    obtain rfl : cachedResult s sub result.row sub.scheme (some cp) = result' := by simpa using hresult
    exact ⟨(recordSurface_same hheld).1 hstate, by rw [← hgrade, hsame]⟩
  · rintro ⟨hroot, hsame⟩
    refine ⟨cachedResult s sub result.row sub.scheme (some cp), ?_, rfl, hhash.trans hkey.symm, rfl, rfl, hgrade.trans hsame⟩
    rw [hstep, (recordSurface_same hheld).2 hroot]

/-- A checkpoint is answered as it was, in every later state, exactly when no record was in its way. -/
theorem resubmission_idempotent (huntagged : SigStructureUntagged E) (rs : List TimedRequest) (hprune : NoPrune rs)
    (hinj : Set.InjOn E.sha256 (hashed E rs)) :
    ∀ e ∈ Run.trace (step E cfg) {} rs, ∀ cp result, e.request.2 = .witnessCheckpoint cp →
      e.reply = .ok (.registered result) → ∀ later, NoPrune later → ∀ now,
      (AnsweredAgain E cfg (Run.after (step E cfg) e.after later) now cp result ↔ Undisplaced E cfg e.before cp) := by
  intro e he cp result hrequest hreply later hlater now
  have hsubmission : e.request.2.submission E = some ((checkpointDigest E cp).bytes, cp.grade, some cp) := by
    rw [hrequest]
    rfl
  obtain ⟨sub, hprep, hkey, hrow⟩ := found_later E cfg huntagged hprune hinj he hsubmission hreply hlater
  have hstep := event_step E cfg he
  rw [hrequest, hreply] at hstep
  have hindexed : Indexed e.after.log := by
    obtain ⟨-, -, hafter⟩ := Run.mem_trace (step E cfg) (I := fun s => Indexed s.log)
      (fun _ r h => indexed_step E cfg h r) indexed_nil he
    obtain ⟨pre, post, -, hbefore, -⟩ := Run.trace_split (step E cfg) he
    rw [hafter, hbefore]
    exact indexed_step E cfg (indexed_after E cfg indexed_nil pre) e.request
  have hheld := record_after E cfg hindexed (held_after E cfg hstep) later
  rw [answered_iff_held E cfg rfl hprep hkey hrow hheld now]
  exact undisplaced_iff E cfg hstep

/-! ### Two checkpoints -/

private abbrev resubmissionEnv : Env := refEnv [] [] fun _ _ _ _ _ => false

private abbrev heldCheckpoint : Checkpoint := refCheckpoint 4 1 pos_four

private abbrev displacedCheckpoint : Checkpoint := refCheckpoint 4 2 pos_four

private theorem decode_resubmission (cp : Checkpoint) :
    decodeCoseSign1 resubmissionEnv (checkpointDigest resubmissionEnv cp).bytes = none := rfl

private theorem untagged_resubmissionEnv : SigStructureUntagged resubmissionEnv := by
  intro protectedBstr payload v h
  cases h

/-- The first checkpoint of a log, and the first again. -/
theorem resubmission_idempotent_sample :
    let clock : Nat → Datetime := fun i => ⟨i, 0⟩
    ∃ result s, step resubmissionEnv {} {} (clock, .witnessCheckpoint heldCheckpoint) = (.ok (.registered result), s) ∧
      AnsweredAgain resubmissionEnv {} s clock heldCheckpoint result := by
  intro clock
  obtain ⟨result, s, hstep, -⟩ := step_witness_first resubmissionEnv {} (s := {}) indexed_nil
    (decode_resubmission heldCheckpoint) (AList.lookup_empty _) (AList.lookup_empty _) clock
  refine ⟨result, s, hstep, ?_⟩
  have hprune : NoPrune [(clock, .witnessCheckpoint heldCheckpoint)] := by
    intro r hr seconds
    obtain rfl := List.mem_singleton.1 hr
    nofun
  have hinj : Set.InjOn resubmissionEnv.sha256
      (hashed resubmissionEnv [(clock, .witnessCheckpoint heldCheckpoint)]) := by
    -- the digest is all that is hashed
    have hall : ∀ x ∈ hashed resubmissionEnv [(clock, .witnessCheckpoint heldCheckpoint)],
        x = (checkpointDigest resubmissionEnv heldCheckpoint).bytes := by
      rintro x ⟨r, hr, b, grade, cp, hsubmission, hx⟩
      obtain rfl := List.mem_singleton.1 hr
      obtain ⟨rfl, -, -⟩ : (checkpointDigest resubmissionEnv heldCheckpoint).bytes = b ∧
          heldCheckpoint.grade = grade ∧ some heldCheckpoint = cp := by
        simpa [Request.submission] using hsubmission
      rcases hx with rfl | rfl
      · rfl
      · rw [entryHashPreimage, decode_resubmission]
    intro x hx y hy _
    rw [hall x hx, hall y hy]
  have hmem : (⟨{}, (clock, .witnessCheckpoint heldCheckpoint), .ok (.registered result), s⟩ : ServiceEvent) ∈
      Run.trace (step resubmissionEnv {}) {} [(clock, .witnessCheckpoint heldCheckpoint)] := by
    rw [Run.trace, hstep]
    exact List.mem_cons_self
  refine (resubmission_idempotent resubmissionEnv {} untagged_resubmissionEnv _ hprune hinj _ hmem heldCheckpoint result
    rfl rfl [] (fun _ h => absurd h List.not_mem_nil) clock).2 ?_
  intro row hrow
  cases hrow

set_option maxRecDepth 100000 in
private theorem resubmission_digests_ne : resubmissionEnv.sha256 (checkpointDigest resubmissionEnv displacedCheckpoint).bytes ≠
    resubmissionEnv.sha256 (checkpointDigest resubmissionEnv heldCheckpoint).bytes := by
  decide +kernel

/-- A checkpoint that found another root at its position is answered with the grade of the other, and listed again. -/
theorem resubmission_displaced :
    let E := resubmissionEnv
    let cfg : Config := { consistencyProofPolicy := .off }
    let clock : Nat → Datetime := fun i => ⟨i, 0⟩
    let s₁ := (step E cfg {} (clock, .witnessCheckpoint heldCheckpoint)).2
    ∃ result s₂ result' s₃, step E cfg s₁ (clock, .witnessCheckpoint displacedCheckpoint) = (.ok (.registered result), s₂) ∧
      step E cfg s₂ (clock, .witnessCheckpoint displacedCheckpoint) = (.ok (.registered result'), s₃) ∧
      result.continuityGrade = some .registered ∧ result'.continuityGrade = some .firstSeen ∧ s₃ ≠ s₂ := by
  intro E cfg clock s₁
  -- the first of the log takes the position
  obtain ⟨result₁, s', hstep₁, hgrade₁, htips₁, hrows₁, row₁, hcache₁⟩ := step_witness_first E cfg (s := {}) indexed_nil
    (decode_resubmission heldCheckpoint) (AList.lookup_empty _) (AList.lookup_empty _) clock
  have hs₁ : s₁ = s' := by
    simp only [s₁, hstep₁]
  rw [hs₁]
  have hindexed : Indexed s'.log := by
    have h := indexed_step E cfg (s := {}) indexed_nil (clock, .witnessCheckpoint heldCheckpoint)
    rwa [hstep₁] at h
  have hheld : s'.checkpointRecords.lookup ("log", 4) = some (checkpointRecord heldCheckpoint result₁) := by
    rw [hrows₁, show (heldCheckpoint.logId, heldCheckpoint.mmrSize) = ("log", 4) from rfl, insertNew]
    exact AList.lookup_insert _
  -- the other is registered at the same position
  have hmiss : s'.statements.lookup (E.sha256 (checkpointDigest E displacedCheckpoint).bytes) = none := by
    rw [hcache₁, AList.lookup_insert_ne resubmission_digests_ne]
    exact AList.lookup_empty _
  have hgate : (checkCheckpointContinuity E cfg displacedCheckpoint).run MemoryStore.exec s' = (.ok .registered, s') := by
    have htip : s'.checkpointWitnesses.lookup displacedCheckpoint.logId = some heldCheckpoint.witness := by
      rw [htips₁]
      exact AList.lookup_insert _
    rw [checkCheckpointContinuity, Prog.run_bind_ok _ (run_getCheckpointWitness _), htip]
    rfl
  obtain ⟨result, s₂, hstep₂, hgrade₂, -, hrows₂, row, hcache₂⟩ := step_witness_fresh E cfg hindexed
    (decode_resubmission displacedCheckpoint) hmiss hgate clock
  have hheld₂ : s₂.checkpointRecords.lookup ("log", 4) = some (checkpointRecord heldCheckpoint result₁) := by
    rw [hrows₂]
    exact lookup_insertNew_of_some hheld
  -- and is answered from the cache the next time
  have hrow : s₂.statements.lookup (E.sha256 (checkpointDigest E displacedCheckpoint).bytes) = some row := by
    rw [hcache₂]
    exact AList.lookup_insert _
  obtain ⟨result', hstep₃, hgrade₃⟩ := step_witness_cached E cfg (decode_resubmission displacedCheckpoint) hrow clock
  refine ⟨result, s₂, result', _, hstep₂, hstep₃, hgrade₂, ?_, ?_⟩
  · rw [hgrade₃, show (displacedCheckpoint.logId, displacedCheckpoint.mmrSize) = ("log", 4) from rfl, hheld₂]
    exact hgrade₁
  · intro hsame
    have hroot : heldCheckpoint.root = displacedCheckpoint.root := (recordSurface_same hheld₂).1 hsame
    exact absurd hroot (by decide)

end CapsuleAnchor
