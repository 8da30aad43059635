import CapsuleAnchor.Sequential

/-!
# One registration on one service

A call of `register_signed_statement_full` on a service whose log is `Indexed` ends in one of three ways
(`RegisterStep`): it raises and changes no more than the would-refuse counter; it answers from the statement cache and
changes nothing; or it appends one entry, caches a receipt for it, indexes the subject, signs a head and moves the
tips (`freshState`).  `registerSignedStatementFull_run` is that case analysis; `register_cached_run` and
`register_fresh_run` compute the second and the third where they cannot but happen.
-/

namespace CapsuleAnchor

variable (E : Env) (cfg : Config)

/-! ### The lookup -/

/-- What the dual lookup finds, and the scheme of the key it looked under last. -/
def cachedStatement (s : MemoryStore) (sub : Submission) : Option (CoseReceipt × Int × Nat) × EntryHashScheme :=
  match s.statements.lookup sub.entryHash with
  | some cached => (some cached, sub.scheme)
  | none =>
    if sub.entryHash ≠ sub.legacyHash then (s.statements.lookup sub.legacyHash, .legacy) else (none, sub.scheme)

theorem lookupStatement_run (s : MemoryStore) (sub : Submission) :
    (lookupStatement sub).run MemoryStore.exec s = (.ok (cachedStatement s sub), s) := by
  rw [lookupStatement, Prog.run_bind_ok _ (run_getStatement _), cachedStatement]
  cases s.statements.lookup sub.entryHash with
  | some cached => rfl
  | none =>
    simp only
    split
    · rw [Prog.run_bind_ok _ (run_getStatement _)]
      rfl
    · rfl

/-- The lookup misses when both keys are free. -/
theorem cachedStatement_none {s : MemoryStore} {sub : Submission} :
    (cachedStatement s sub).1 = none ↔
      s.statements.lookup sub.entryHash = none ∧ s.statements.lookup sub.legacyHash = none := by
  unfold cachedStatement
  cases hnew : s.statements.lookup sub.entryHash with
  | some row => simp
  | none =>
    by_cases heq : sub.entryHash = sub.legacyHash
    · have hold : s.statements.lookup sub.legacyHash = none := by rw [← heq, hnew]
      simp [heq, hold]
    · simp [heq]

/-- The answer from the cache. -/
def cachedResult (s : MemoryStore) (sub : Submission) (cached : CoseReceipt × Int × Nat) (scheme : EntryHashScheme)
    (checkpointContinuity : Option Checkpoint) : StatementRegistration :=
  { receipt := cached.1
    entryHash := if scheme = .legacy then sub.legacyHash else sub.entryHash
    leafIndex := cached.2.1
    treeSize := cached.2.2
    entryHashScheme := scheme
    checkpointWitness := sub.checkpointFields.map fun fields => (fields, .alreadyRegistered)
    subject := sub.subject
    continuityGrade := checkpointContinuity.bind fun cp =>
      (s.checkpointRecords.lookup (cp.logId, cp.mmrSize)).bind (·.continuityGrade) }

theorem alreadyRegistered_run (s : MemoryStore) (sub : Submission) (cached : CoseReceipt × Int × Nat)
    (scheme : EntryHashScheme) (checkpointContinuity : Option Checkpoint) :
    (alreadyRegistered sub cached scheme checkpointContinuity).run MemoryStore.exec s =
      (.ok (cachedResult s sub cached scheme checkpointContinuity), s) := by
  unfold alreadyRegistered
  cases checkpointContinuity with
  | none => rfl
  | some cp =>
    have hrun : (optionally (some cp) fun cp => store (.getCheckpointRecord cp.logId cp.mmrSize)).run MemoryStore.exec s =
        (.ok (some (s.checkpointRecords.lookup (cp.logId, cp.mmrSize))), s) := run_optionally_some _ _
    rw [Prog.run_bind_ok _ hrun]
    rfl

/-! ### A new statement -/

/-- The receipt for the entry at `leafIndex`, against the tree of the whole log. -/
def receiptOver (log : List TransparencyLogEntry) (leafIndex : Nat) (loggedAt : Datetime) (grade : Option String)
    (continuity : Option ContinuityAssertion) : CoseReceipt :=
  buildCoseReceipt E (ctLeaves E log).length leafIndex (auditPath E.sha256 leafIndex (ctLeaves E log))
    (merkleTreeHash E.sha256 (ctLeaves E log)) (some loggedAt.timestamp) grade continuity

/-- The log after a statement is appended. -/
def registeredLog (now : Nat → Datetime) (sub : Submission) (log : List TransparencyLogEntry) :
    List TransparencyLogEntry :=
  log ++ [nextEntry E log logKindScitt sub.preimage (now 0) (now 1)]

/-- What is cached for a new statement. -/
def issued (now : Nat → Datetime) (sub : Submission) (grade : Option String)
    (continuity : Option ContinuityAssertion) (log : List TransparencyLogEntry) : CoseReceipt × Int × Nat :=
  (receiptOver E (registeredLog E now sub log) log.length (now 0) grade continuity, log.length, log.length + 1)

/-- The store after the statement is appended and its receipt cached. -/
def issuedState (now : Nat → Datetime) (sub : Submission) (grade : Option String)
    (continuity : Option ContinuityAssertion) (s : MemoryStore) : MemoryStore :=
  { s with log := registeredLog E now sub s.log
           statements := s.statements.insert sub.entryHash (issued E now sub grade continuity s.log) }

@[simp] theorem length_registeredLog (now : Nat → Datetime) (sub : Submission) (log : List TransparencyLogEntry) :
    (registeredLog E now sub log).length = log.length + 1 := by
  simp [registeredLog]

theorem Indexed.registeredLog {log : List TransparencyLogEntry} (h : Indexed log) (now : Nat → Datetime)
    (sub : Submission) : Indexed (registeredLog E now sub log) := h.append rfl

theorem appendStatement_run {s : MemoryStore} (h : Indexed s.log) (now : Nat → Datetime) (sub : Submission)
    (grade : Option String) (continuity : Option ContinuityAssertion) :
    (appendStatement E now sub grade continuity).run MemoryStore.exec s =
      (.ok (issued E now sub grade continuity s.log), issuedState E now sub grade continuity s) := by
  have hlen : (ctLeaves E (registeredLog E now sub s.log)).length = s.log.length + 1 := by simp
  have hpath : inclusionAuditPath E.sha256 (s.log.length : Int) (ctLeaves E (registeredLog E now sub s.log)) =
      some (auditPath E.sha256 s.log.length (ctLeaves E (registeredLog E now sub s.log))) := by
    rw [inclusionAuditPath, if_pos (by omega), Int.toNat_natCast]
  have happend : (appendLog E logKindScitt sub.preimage (now 0) (now 1)).run MemoryStore.exec s =
      (.ok (nextEntry E s.log logKindScitt sub.preimage (now 0) (now 1)),
        { s with log := registeredLog E now sub s.log }) := appendLog_run E s _ _ _ _
  have hread : (transparencyLog 0).run MemoryStore.exec { s with log := registeredLog E now sub s.log } =
      (.ok (registeredLog E now sub s.log), { s with log := registeredLog E now sub s.log }) :=
    transparencyLog_run (h.registeredLog E now sub)
  have hindex : (nextEntry E s.log logKindScitt sub.preimage (now 0) (now 1)).logIndex = (s.log.length : Int) := rfl
  rw [appendStatement, Prog.run_bind_ok _ happend, Prog.run_bind_ok _ hread]
  simp only [hindex, hpath, issued, issuedState, ← hlen]
  rfl

/-- The store after the subject is indexed. -/
def indexSubject (s : MemoryStore) (sub : Submission) : MemoryStore :=
  match sub.subject with
  | none => s
  | some subject => s.putSubjectIndex subject (sub.entryHash, sub.payloadDigest, sub.payloadForm)

/-- The tips after a registration. -/
def newTips (tips : Dict String CheckpointWitness) (fields : Option CheckpointFields) (accepted : Option Checkpoint) :
    Dict String CheckpointWitness :=
  let tips := match fields with
    | none => tips
    | some f => tips.insert f.logId f.witness
  match accepted with
  | none => tips
  | some cp => tips.insert cp.logId cp.witness

/-- The store after `commitRegistration`. -/
def committedState (now : Nat → Datetime) (sub : Submission) (accepted : Option Checkpoint) (s : MemoryStore) :
    MemoryStore :=
  { (indexSubject s sub).putSth (headOver E s.log (now 3) (now 4)) with
    checkpointWitnesses := newTips s.checkpointWitnesses sub.checkpointFields accepted }

@[simp] theorem log_indexSubject (s : MemoryStore) (sub : Submission) : (indexSubject s sub).log = s.log := by
  unfold indexSubject
  split <;> rfl

@[simp] theorem latestSth_indexSubject (s : MemoryStore) (sub : Submission) :
    (indexSubject s sub).latestSth = s.latestSth := by
  unfold indexSubject
  split <;> rfl

theorem indexSubject_run (s : MemoryStore) (sub : Submission) : ∃ r, (optionally sub.subject fun subject =>
    store (.putSubjectIndex subject sub.entryHash sub.payloadDigest sub.payloadForm)).run MemoryStore.exec s =
    (.ok r, indexSubject s sub) := by
  unfold indexSubject
  cases sub.subject <;> exact ⟨_, rfl⟩

theorem commitRegistration_run {s : MemoryStore} (h : Indexed s.log) (now : Nat → Datetime) (sub : Submission)
    (accepted : Option Checkpoint) :
    (commitRegistration E now sub accepted).run MemoryStore.exec s =
      (.ok (), committedState E now sub accepted s) := by
  have hwitnesses : (indexSubject s sub).checkpointWitnesses = s.checkpointWitnesses := by
    unfold indexSubject
    split <;> rfl
  obtain ⟨r, hr⟩ := indexSubject_run s sub
  have hsth := signAndPersistSth_run E (show Indexed (indexSubject s sub).log by simpa using h) (now 3) (now 4)
  rw [log_indexSubject] at hsth
  rw [commitRegistration, Prog.run_bind_ok _ hr, Prog.run_bind_ok _ hsth, committedState, ← hwitnesses,
    ← checkpointWitnesses_putSth]
  cases sub.checkpointFields <;> cases accepted <;> rfl

/-! ### The outcomes of a registration -/

/-- The gate for a `mmr-checkpoint` payload let the statement through, with this status. -/
def Linked (s : MemoryStore) : Option CheckpointFields → Option WitnessStatus → Prop
  | none, none => True
  | some f, some status => Linkage f (s.checkpointWitnesses.lookup f.logId) status
  | _, _ => False

/-- The gate for `POST /checkpoints` let the checkpoint through, with this grade. -/
def Continued (s : MemoryStore) : Option Checkpoint → Option ContinuityGrade → Prop
  | none, none => True
  | some cp, some grade => Continuity E cfg cp (s.checkpointWitnesses.lookup cp.logId) grade
  | _, _ => False

theorem Continued.of_same {s s' : MemoryStore} {cp : Option Checkpoint} {grade : Option ContinuityGrade}
    (h : Continued E cfg s' cp grade) (hsame : SameStore s s') : Continued E cfg s cp grade := by
  obtain ⟨w, rfl⟩ := hsame
  cases cp <;> cases grade <;> exact h

/-- Both gates let a registration through, with this status and this grade. -/
structure Passes (s : MemoryStore) (fields : Option CheckpointFields) (cp : Option Checkpoint)
    (status : Option WitnessStatus) (grade : Option ContinuityGrade) : Prop where
  linked : Linked s fields status
  policy : ∀ f, fields = some f → cfg.consistencyProofPolicy = .enforce → s.checkpointWitnesses.lookup f.logId = none
  continued : Continued E cfg s cp grade

/-- The store after a new registration. -/
def freshState (now : Nat → Datetime) (sub : Submission) (grade : Option String) (cp : Option Checkpoint)
    (continuityGrade : Option ContinuityGrade) (s : MemoryStore) : MemoryStore :=
  committedState E now sub (acceptedCheckpoint cp continuityGrade)
    (issuedState E now sub grade (continuityAssertion E (now 0) cp continuityGrade) s)

/-- The result of a new registration. -/
def freshResult (now : Nat → Datetime) (sub : Submission) (grade : Option String) (cp : Option Checkpoint)
    (continuityGrade : Option ContinuityGrade) (status : Option WitnessStatus) (log : List TransparencyLogEntry) :
    StatementRegistration :=
  let issued := issued E now sub grade (continuityAssertion E (now 0) cp continuityGrade) log
  { receipt := issued.1, entryHash := sub.entryHash, leafIndex := issued.2.1, treeSize := issued.2.2
    entryHashScheme := sub.scheme
    checkpointWitness := sub.checkpointFields.bind fun fields => status.map fun st => (fields, st)
    subject := sub.subject, continuityGrade }

/-- How `register_signed_statement_full` ends. -/
inductive RegisterStep (now : Nat → Datetime) (statementBytes : Bytes) (grade : Option String)
    (cp : Option Checkpoint) (s : MemoryStore) : Except ServiceError StatementRegistration → MemoryStore → Prop
  | refused (e : ServiceError) (s' : MemoryStore) (hsame : SameStore s s') :
    RegisterStep now statementBytes grade cp s (.error e) s'
  | cached (sub : Submission) (found : CoseReceipt × Int × Nat) (scheme : EntryHashScheme)
    (hprep : prepare E cfg.payloadPolicy statementBytes = .ok sub)
    (hfound : cachedStatement s sub = (some found, scheme)) :
    RegisterStep now statementBytes grade cp s (.ok (cachedResult s sub found scheme cp)) s
  | fresh (sub : Submission) (s' : MemoryStore) (status : Option WitnessStatus)
    (continuityGrade : Option ContinuityGrade) (hprep : prepare E cfg.payloadPolicy statementBytes = .ok sub)
    (hmiss : (cachedStatement s sub).1 = none) (hsame : SameStore s s')
    (hlinked : Linked s sub.checkpointFields status) (hcontinued : Continued E cfg s cp continuityGrade) :
    RegisterStep now statementBytes grade cp s
      (.ok (freshResult E now sub grade cp continuityGrade status s.log))
      (freshState E now sub grade cp continuityGrade s')

theorem linked_run (s : MemoryStore) (fields : Option CheckpointFields) :
    SameStore s ((optionally fields (checkCheckpointConsistency E cfg)).run MemoryStore.exec s).2 ∧
      ∀ status, ((optionally fields (checkCheckpointConsistency E cfg)).run MemoryStore.exec s).1 = .ok status →
        Linked s fields status := by
  cases fields with
  | none =>
    refine ⟨.refl s, ?_⟩
    rintro _ ⟨⟩
    trivial
  | some f =>
    obtain ⟨hsame, hlink⟩ := checkCheckpointConsistency_run E cfg s f
    rw [run_optionally_some]
    refine ⟨hsame, ?_⟩
    intro status hok
    cases hrun : ((checkCheckpointConsistency E cfg f).run MemoryStore.exec s).1 with
    | error e => simp [hrun, Except.map] at hok
    | ok st =>
      obtain rfl : some st = status := by simpa [hrun, Except.map] using hok
      exact hlink st hrun

theorem continued_run (s : MemoryStore) (cp : Option Checkpoint) :
    SameStore s ((optionally cp (checkCheckpointContinuity E cfg)).run MemoryStore.exec s).2 ∧
      ∀ grade, ((optionally cp (checkCheckpointContinuity E cfg)).run MemoryStore.exec s).1 = .ok grade →
        Continued E cfg s cp grade := by
  cases cp with
  | none =>
    refine ⟨.refl s, ?_⟩
    rintro _ ⟨⟩
    trivial
  | some cp =>
    obtain ⟨hsame, hcont⟩ := checkCheckpointContinuity_run E cfg s cp
    rw [run_optionally_some]
    refine ⟨hsame, ?_⟩
    intro grade hok
    cases hrun : ((checkCheckpointContinuity E cfg cp).run MemoryStore.exec s).1 with
    | error e => simp [hrun, Except.map] at hok
    | ok g =>
      obtain rfl : some g = grade := by simpa [hrun, Except.map] using hok
      exact hcont g hrun

/-- The gates let a registration through exactly when it `Passes`. -/
theorem passes_iff {s : MemoryStore} {fields : Option CheckpointFields} {cp : Option Checkpoint}
    {status : Option WitnessStatus} {grade : Option ContinuityGrade} : Passes E cfg s fields cp status grade ↔
      ((optionally fields (checkCheckpointConsistency E cfg)).run MemoryStore.exec s).1 = .ok status ∧
      ((optionally cp (checkCheckpointContinuity E cfg)).run MemoryStore.exec s).1 = .ok grade := by
  constructor
  · rintro ⟨hlinked, hpolicy, hcontinued⟩
    constructor
    · cases fields with
      | none =>
        cases status with
        | none => rfl
        | some st => cases hlinked
      | some f =>
        cases status with
        | none => cases hlinked
        | some st => rw [run_optionally_some, checkCheckpointConsistency_ok E cfg hlinked (hpolicy f rfl)]; rfl
    · cases cp with
      | none =>
        cases grade with
        | none => rfl
        | some g => cases hcontinued
      | some cp =>
        cases grade with
        | none => cases hcontinued
        | some g => rw [run_optionally_some, checkCheckpointContinuity_ok E cfg hcontinued]; rfl
  · rintro ⟨hlinked, hcontinued⟩
    refine ⟨(linked_run E cfg s fields).2 status hlinked, ?_, (continued_run E cfg s cp).2 grade hcontinued⟩
    rintro f rfl henforce
    rw [run_optionally_some] at hlinked
    cases hrun : ((checkCheckpointConsistency E cfg f).run MemoryStore.exec s).1 with
    | error e => simp [hrun, Except.map] at hlinked
    | ok st => exact checkCheckpointConsistency_policy E cfg hrun henforce

private theorem registerNew_run {s : MemoryStore} (h : Indexed s.log) (now : Nat → Datetime) (sub : Submission)
    (grade : Option String) (cp : Option Checkpoint) :
    (∃ e s', SameStore s s' ∧ (registerNew E cfg now sub grade cp).run MemoryStore.exec s = (.error e, s')) ∨
    ∃ s' status continuityGrade, SameStore s s' ∧ Linked s sub.checkpointFields status ∧
      Continued E cfg s cp continuityGrade ∧
      (registerNew E cfg now sub grade cp).run MemoryStore.exec s =
        (.ok (freshResult E now sub grade cp continuityGrade status s.log),
          freshState E now sub grade cp continuityGrade s') := by
  obtain ⟨hsame, hlinked⟩ := linked_run E cfg s sub.checkpointFields
  unfold registerNew
  cases hrun : (optionally sub.checkpointFields (checkCheckpointConsistency E cfg)).run MemoryStore.exec s with
  | mk r s₁ =>
    rw [hrun] at hsame hlinked
    cases r with
    | error e => exact .inl ⟨e, s₁, hsame, Prog.run_bind_error _ hrun⟩
    | ok status =>
      rw [Prog.run_bind_ok _ hrun]
      obtain ⟨hsame', hcontinued⟩ := continued_run E cfg s₁ cp
      cases hrun' : (optionally cp (checkCheckpointContinuity E cfg)).run MemoryStore.exec s₁ with
      | mk r' s₂ =>
        rw [hrun'] at hsame' hcontinued
        have hsame₂ := hsame.trans hsame'
        cases r' with
        | error e => exact .inl ⟨e, s₂, hsame₂, Prog.run_bind_error _ hrun'⟩
        | ok g =>
          right
          refine ⟨s₂, status, g, hsame₂, hlinked status rfl, (hcontinued g rfl).of_same E cfg hsame, ?_⟩
          have hidx : Indexed s₂.log := by rwa [hsame₂.log]
          have hissue := appendStatement_run E hidx now sub grade (continuityAssertion E (now 0) cp g)
          have hcommit := commitRegistration_run E (hidx.registeredLog E now sub) now sub (acceptedCheckpoint cp g)
            (s := issuedState E now sub grade (continuityAssertion E (now 0) cp g) s₂)
          rw [Prog.run_bind_ok _ hrun', Prog.run_bind_ok _ hissue, Prog.run_bind_ok _ hcommit, ← hsame₂.log]
          rfl

theorem register_cached_run {s : MemoryStore} {statementBytes : Bytes} {sub : Submission}
    (hprep : prepare E cfg.payloadPolicy statementBytes = .ok sub) {found : CoseReceipt × Int × Nat}
    {scheme : EntryHashScheme} (hfound : cachedStatement s sub = (some found, scheme)) (now : Nat → Datetime)
    (grade : Option String) (cp : Option Checkpoint) :
    (registerSignedStatementFull E cfg now statementBytes grade cp).run MemoryStore.exec s =
      (.ok (cachedResult s sub found scheme cp), s) := by
  rw [registerSignedStatementFull, hprep, Prog.run_bind_ok _ (Prog.run_ofExcept _ _ _), registerPrepared,
    Prog.run_bind_ok _ (lookupStatement_run s sub)]
  simp only [hfound]
  exact alreadyRegistered_run s sub found scheme cp

/-- A new statement that both gates let through is registered. -/
theorem register_new_run {s s₁ s' : MemoryStore} (h : Indexed s'.log) {statementBytes : Bytes} {sub : Submission}
    (hprep : prepare E cfg.payloadPolicy statementBytes = .ok sub) (hmiss : (cachedStatement s sub).1 = none)
    {status : Option WitnessStatus}
    (hlink : (optionally sub.checkpointFields (checkCheckpointConsistency E cfg)).run MemoryStore.exec s = (.ok status, s₁))
    {cp : Option Checkpoint} {g : Option ContinuityGrade}
    (hgate : (optionally cp (checkCheckpointContinuity E cfg)).run MemoryStore.exec s₁ = (.ok g, s'))
    (now : Nat → Datetime) (grade : Option String) :
    (registerSignedStatementFull E cfg now statementBytes grade cp).run MemoryStore.exec s =
      (.ok (freshResult E now sub grade cp g status s'.log), freshState E now sub grade cp g s') := by
  have hissue := appendStatement_run E h now sub grade (continuityAssertion E (now 0) cp g)
  have hcommit := commitRegistration_run E (h.registeredLog E now sub) now sub (acceptedCheckpoint cp g)
    (s := issuedState E now sub grade (continuityAssertion E (now 0) cp g) s')
  rw [registerSignedStatementFull, hprep, Prog.run_bind_ok _ (Prog.run_ofExcept _ _ _), registerPrepared,
    Prog.run_bind_ok _ (lookupStatement_run s sub)]
  cases hfound : cachedStatement s sub with
  | mk found scheme =>
    rw [hfound] at hmiss
    obtain rfl : found = none := hmiss
    simp only
    rw [registerNew, Prog.run_bind_ok _ hlink, Prog.run_bind_ok _ hgate, Prog.run_bind_ok _ hissue,
      Prog.run_bind_ok _ hcommit, freshResult]
    rfl

/-- A new statement that carries no checkpoint payload is refused by nothing but the gate of `POST /checkpoints`. -/
theorem register_fresh_run {s s' : MemoryStore} (h : Indexed s'.log) {statementBytes : Bytes} {sub : Submission}
    (hprep : prepare E cfg.payloadPolicy statementBytes = .ok sub) (hfields : sub.checkpointFields = none)
    (hmiss : (cachedStatement s sub).1 = none) {cp : Option Checkpoint} {g : Option ContinuityGrade}
    (hgate : (optionally cp (checkCheckpointContinuity E cfg)).run MemoryStore.exec s = (.ok g, s'))
    (now : Nat → Datetime) (grade : Option String) :
    (registerSignedStatementFull E cfg now statementBytes grade cp).run MemoryStore.exec s =
      (.ok (freshResult E now sub grade cp g none s'.log), freshState E now sub grade cp g s') := by
  have hlink : (optionally sub.checkpointFields (checkCheckpointConsistency E cfg)).run MemoryStore.exec s =
      (.ok none, s) := by
    rw [hfields]
    rfl
  exact register_new_run E cfg h hprep hmiss hlink hgate now grade

theorem registerSignedStatementFull_run {s : MemoryStore} (h : Indexed s.log) (now : Nat → Datetime)
    (statementBytes : Bytes) (grade : Option String) (cp : Option Checkpoint) :
    RegisterStep E cfg now statementBytes grade cp s
      ((registerSignedStatementFull E cfg now statementBytes grade cp).run MemoryStore.exec s).1
      ((registerSignedStatementFull E cfg now statementBytes grade cp).run MemoryStore.exec s).2 := by
  unfold registerSignedStatementFull
  cases hprep : prepare E cfg.payloadPolicy statementBytes with
  | error e => exact .refused e s (.refl s)
  | ok sub =>
    rw [Prog.run_bind_ok _ (Prog.run_ofExcept _ _ _), registerPrepared, Prog.run_bind_ok _ (lookupStatement_run s sub)]
    cases hfound : cachedStatement s sub with
    | mk found scheme =>
      cases found with
      | some found =>
        simp only [alreadyRegistered_run]
        exact .cached sub found scheme hprep hfound
      | none =>
        simp only
        rcases registerNew_run E cfg h now sub grade cp with ⟨e, s', hsame, hrun⟩ |
          ⟨s', status, g, hsame, hlinked, hcontinued, hrun⟩
        · rw [hrun]
          exact .refused e s' hsame
        · rw [hrun]
          exact .fresh sub s' status g hprep (by rw [hfound]) hsame hlinked hcontinued

end CapsuleAnchor
