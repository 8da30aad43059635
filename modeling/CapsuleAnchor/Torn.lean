import CapsuleAnchor.Reference
import CapsuleAnchor.Steps
import CapsuleAnchor.Tables

/-!
# A registration that fails halfway

Over SQLite every store method commits by itself, and a registration makes up to six of them.  What it refuses it
refuses before the first, so a call that raises has changed nothing, unless it raises after its append: then one of the
later rows was handed an integer that its column does not hold (`LateOverflow`).

`all_or_nothing_iff`: a call that raises leaves the tables as they were exactly when it is not `Torn`.
`all_or_nothing_fails` is a checkpoint with a size of `2 ^ 63`, which the parsers accept.
-/

namespace CapsuleAnchor

variable (E : Env) (cfg : Config)

/-! ### The calls -/

/-- A call of `register_signed_statement_full` or of `witness_checkpoint`. -/
inductive Registering
  | statement (statementBytes : Bytes) (grade : Option String) (checkpointContinuity : Option Checkpoint)
  | checkpoint (cp : Checkpoint)

namespace Registering

def program (now : Nat → Datetime) : Registering → ServiceM StatementRegistration
  | statement statementBytes grade cp => registerSignedStatementFull E cfg now statementBytes grade cp
  | checkpoint cp => witnessCheckpoint E cfg now cp

def statementBytes : Registering → Bytes
  | statement statementBytes _ _ => statementBytes
  | checkpoint cp => (checkpointDigest E cp).bytes

def checkpointContinuity : Registering → Option Checkpoint
  | statement _ _ cp => cp
  | checkpoint cp => some cp

end Registering

/-- Over SQLite, at these tables: if the call raises, nothing has changed. -/
def AllOrNothing (now : Nat → Datetime) (r : Registering) (s : SqlStore) : Prop :=
  ∀ e s', (r.program E cfg now).runRaising (SqliteStore.Raises E) (SqliteStore.exec E) s = (.error e, s') → s' = s

/-- The statement is new, both gates let it through, and its entry is appended. -/
structure Landed (s : SqlStore) (sub : Submission) (cp : Option Checkpoint) (status : Option WitnessStatus)
    (grade : Option ContinuityGrade) : Prop where
  miss : (cachedStatement s.dicts sub).1 = none
  passes : Passes E cfg s.dicts sub.checkpointFields cp status grade
  room : s.logEntries.length < 2 ^ 63

/-- A row of the registration after its entry does not fit. -/
inductive Overflow (now : Nat → Datetime) (s : SqlStore) (sub : Submission) (accepted : Option Checkpoint) : Prop
  /-- The tree size of the receipt and of the head. -/
  | full (h : s.logEntries.length + 1 = 2 ^ 63)
  /-- The time of the head. -/
  | clock (h : ¬ FitsColumn (E.tsEpochUs (now 3)))
  /-- The tip that a `mmr-checkpoint` payload leaves. -/
  | payload (f : CheckpointFields) (hf : sub.checkpointFields = some f) (h : 2 ^ 63 ≤ f.mmrSize)
  /-- The tip that a checkpoint leaves. -/
  | tip (cp : Checkpoint) (hcp : accepted = some cp) (h : 2 ^ 63 ≤ cp.mmrSize)

/-- The entry is appended and a later row does not fit: one of the registration, or the one of the read surface. -/
def Torn (now : Nat → Datetime) (r : Registering) (s : SqlStore) : Prop :=
  ∃ sub status grade, prepare E cfg.payloadPolicy (r.statementBytes E) = .ok sub ∧
    Landed E cfg s sub r.checkpointContinuity status grade ∧
    (Overflow E now s sub (acceptedCheckpoint r.checkpointContinuity grade) ∨
      ∃ cp, r = .checkpoint cp ∧ 2 ^ 63 ≤ cp.mmrSize)

variable {E cfg}

/-! ### The log -/

theorem logEntries_frame {c : Call} (hc : ∀ entry, c ≠ .appendEntry entry) (s : SqlStore) :
    (SqliteStore.exec E c s).2.logEntries = s.logEntries := by
  cases c with
  | appendEntry entry => exact absurd rfl (hc entry)
  | putCheckpointRecord logId mmrSize record =>
    simp only [SqliteStore.exec, SqlStore.exec, SqlStore.putCheckpointRecord]
    split
    · rfl
    · split <;> rfl
  | _ => rfl

private theorem no_append_of_settles {α : Type} {p : ServiceM α} (hp : p.Calls (fun c => c.settles = true)) :
    p.Calls (fun c => ∀ entry, c ≠ .appendEntry entry) := by
  refine hp.mono ?_
  rintro c hc entry rfl
  cases hc

private theorem no_append_store {c : Call} (hc : ∀ entry, c ≠ .appendEntry entry) :
    (store c).Calls (fun c => ∀ entry, c ≠ .appendEntry entry) := Prog.Calls.perform hc

/-- An entry is refused, or it is the next one. -/
private theorem indexed_appendLog (kind : String) (signedPayload : Bytes) (loggedAt signedAt : Datetime) :
    (appendLog E kind signedPayload loggedAt signedAt).Stays (SqliteStore.Raises E) (SqliteStore.exec E)
      (fun s => Indexed s.logEntries) := by
  intro s hs
  rw [(overTables_sqlite E).run_appendLog hs]
  split
  · exact hs
  · exact hs.append rfl

private theorem indexed_settles {α : Type} {p : ServiceM α} (hp : p.Calls (fun c => ∀ entry, c ≠ .appendEntry entry)) :
    p.Stays (SqliteStore.Raises E) (SqliteStore.exec E) (fun s => Indexed s.logEntries) := by
  refine hp.stays ?_
  intro c s hc hs
  rwa [logEntries_frame hc]

variable (E cfg)

/-- Every request keeps the entries of the log at their indices. -/
theorem indexed_sqlite (now : Nat → Datetime) (request : Request) :
    (request.program E cfg now).Stays (SqliteStore.Raises E) (SqliteStore.exec E) (fun s => Indexed s.logEntries) := by
  have hregister := registerSignedStatementFull_parts E cfg
    (Q := fun p => p.Stays (SqliteStore.Raises E) (SqliteStore.exec E) (fun s => Indexed s.logEntries)) Prog.Stays.bind
    (fun hp => indexed_settles (no_append_of_settles hp)) indexed_appendLog now
  cases request with
  | anchor tenantId rootHash seqRange capsuleId =>
    refine Prog.Stays.map (Prog.Stays.bind (indexed_appendLog _ _ _ _) ?_) _
    intro entry
    refine indexed_settles (Prog.Calls.bind (no_append_store (by intro _ h; cases h)) ?_)
    intro _
    cases capsuleId with
    | none => trivial
    | some id => exact Prog.Calls.bind ((no_append_store (by intro _ h; cases h)).map _) (fun _ => trivial)
  | register statementBytes => exact (hregister statementBytes none none).map _
  | witnessCheckpoint cp =>
    refine Prog.Stays.map (Prog.Stays.bind (hregister _ _ _) ?_) _
    intro result
    exact indexed_settles (Prog.Calls.bind (no_append_store (by intro _ h; cases h)) (fun _ => trivial))
  | refreshSth => exact (indexed_settles (no_append_of_settles (signAndPersistSth_settles E _ _))).map _
  | getSth => exact (indexed_settles (no_append_of_settles (getSth_settles E now))).map _
  | prune seconds =>
    refine Prog.Stays.map (indexed_settles ?_) _
    cases seconds with
    | none => trivial
    | some seconds =>
      exact Prog.Calls.bind (no_append_store (by intro _ h; cases h)) (fun x => Prog.Calls.ofExcept x)

theorem indexed_sqlite_after (rs : List ((Nat → Datetime) × Request)) :
    Indexed (Run.after (Backend.sqlite.step E cfg) ({} : SqlStore) rs).logEntries :=
  Run.invariant (Backend.sqlite.step E cfg) (I := fun s => Indexed s.logEntries)
    (fun s r hs => indexed_sqlite E cfg r.1 r.2 s hs) indexed_nil rs

variable {E cfg} {s : SqlStore} {now : Nat → Datetime} {sub : Submission} {cp : Option Checkpoint}
  {status : Option WitnessStatus} {g : Option ContinuityGrade}

/-! ### After the append -/

private theorem raises_putCheckpointWitness {logId : String} {witness : CheckpointWitness} {s : SqlStore} :
    SqliteStore.Raises E (.putCheckpointWitness logId witness) s ↔ 2 ^ 63 ≤ witness.mmrSize := by
  simp only [SqliteStore.Raises, SqlStore.Overflows, FitsColumn, or_false]
  omega

private theorem not_raises_putSubjectIndex {subject : String} {k : Digest} {payloadDigest payloadForm : Option String}
    {s : SqlStore} : ¬ SqliteStore.Raises E (.putSubjectIndex subject k payloadDigest payloadForm) s := by
  rintro (h | h) <;> exact h

private theorem raises_putStatement {k : Digest} {row : CoseReceipt × Int × Nat} {n : Nat} (hleaf : row.2.1 = n)
    (htree : row.2.2 = n + 1) {s : SqlStore} :
    SqliteStore.Raises E (.putStatement k row.1 row.2.1 row.2.2) s ↔ 2 ^ 63 ≤ n + 1 := by
  simp only [SqliteStore.Raises, SqlStore.Overflows, FitsColumn, or_false, hleaf, htree]
  omega

private theorem raises_putSth {log : List TransparencyLogEntry} {timestamp signedAt : Datetime} {s : SqlStore} :
    SqliteStore.Raises E (.putSth (headOver E log timestamp signedAt)) s ↔
      2 ^ 63 ≤ log.length ∨ ¬ FitsColumn (E.tsEpochUs timestamp) := by
  have hsize : FitsColumn ((headOver E log timestamp signedAt).treeSize : Int) ↔ log.length < 2 ^ 63 := by
    rw [show (headOver E log timestamp signedAt).treeSize = log.length from rfl, FitsColumn]
    omega
  change ¬ (FitsColumn _ ∧ FitsColumn (E.tsEpochUs timestamp)) ∨ False ↔ _
  rw [hsize, not_and_or, not_lt, or_false]

private theorem putTip_returns {α : Type} (x : Option α) (logId : α → String) (witness : α → CheckpointWitness)
    (s : SqlStore) : (optionally x fun a => store (.putCheckpointWitness (logId a) (witness a))).Returns
      (SqliteStore.Raises E) (SqliteStore.exec E) s ↔ ∀ a, x = some a → (witness a).mmrSize < 2 ^ 63 := by
  rcases run_optionally_write
    (fun a => (overTables_sqlite E).run (c := .putCheckpointWitness (logId a) (witness a)) rfl s) x with
    ⟨y, s', hrun, hfits⟩ | ⟨a, ha, hraises, hrun⟩
  · refine iff_of_true ⟨y, s', hrun⟩ ?_
    intro a ha
    have hnot := (hfits a ha).1
    rw [raises_putCheckpointWitness] at hnot
    omega
  · refine iff_of_false (Prog.not_returns.2 ⟨none, by rw [hrun]⟩) ?_
    intro hall
    have hlt := hall a ha
    have hle := raises_putCheckpointWitness.1 hraises
    omega

variable (E now sub) in
/-- The commit returns when its rows fit. -/
private theorem commitRegistration_returns (hs : Indexed s.logEntries) (accepted : Option Checkpoint) :
    (commitRegistration E now sub accepted).Returns (SqliteStore.Raises E) (SqliteStore.exec E) s ↔
      s.logEntries.length < 2 ^ 63 ∧ FitsColumn (E.tsEpochUs (now 3)) ∧
        (∀ f, sub.checkpointFields = some f → f.mmrSize < 2 ^ 63) ∧ (∀ cp, accepted = some cp → cp.mmrSize < 2 ^ 63) := by
  have htables := overTables_sqlite E
  obtain ⟨y, s₁, hrun, hlog⟩ : ∃ y s₁, (optionally sub.subject fun subject =>
      store (.putSubjectIndex subject sub.entryHash sub.payloadDigest sub.payloadForm)).runRaising
        (SqliteStore.Raises E) (SqliteStore.exec E) s = (.ok y, s₁) ∧ s₁.logEntries = s.logEntries := by
    rcases run_optionally_write
      (fun subject => htables.run (c := .putSubjectIndex subject sub.entryHash sub.payloadDigest sub.payloadForm) rfl s)
      sub.subject with ⟨y, s₁, hrun, hstate⟩ | ⟨subject, -, hraises, -⟩
    · refine ⟨y, s₁, hrun, ?_⟩
      cases hsubject : sub.subject with
      | none =>
        rw [hsubject] at hrun
        cases hrun
        rfl
      | some subject =>
        rw [(hstate subject hsubject).2]
        rfl
    · exact absurd hraises not_raises_putSubjectIndex
  have hsth := htables.run_signAndPersistSth (s := s₁) (by rwa [hlog]) (now 3) (now 4)
  simp only [hlog] at hsth
  rw [commitRegistration, Prog.returns_bind hrun]
  by_cases hhead : SqliteStore.Raises E (.putSth (headOver E s.logEntries (now 3) (now 4))) s₁
  · rw [if_pos hhead] at hsth
    refine iff_of_false (Prog.not_returns_bind (Prog.not_returns.2 ⟨none, by rw [hsth]⟩)) ?_
    rintro ⟨hsize, hclock, -, -⟩
    rcases raises_putSth.1 hhead with h | h
    · omega
    · exact h hclock
  · rw [if_neg hhead] at hsth
    have hfits := mt raises_putSth.2 hhead
    rw [not_or, not_le, not_not] at hfits
    rw [Prog.returns_bind hsth]
    have htip := putTip_returns (E := E) sub.checkpointFields CheckpointFields.logId CheckpointFields.witness
    have htip' := putTip_returns (E := E) accepted Checkpoint.logId Checkpoint.witness
    by_cases hpayload : ∀ f, sub.checkpointFields = some f → f.witness.mmrSize < 2 ^ 63
    · obtain ⟨y₂, s₂, hrun₂⟩ := (htip _).2 hpayload
      rw [Prog.returns_bind hrun₂]
      by_cases haccepted : ∀ cp, accepted = some cp → cp.witness.mmrSize < 2 ^ 63
      · obtain ⟨y₃, s₃, hrun₃⟩ := (htip' s₂).2 haccepted
        rw [Prog.returns_bind hrun₃]
        exact iff_of_true ⟨(), s₃, rfl⟩ ⟨hfits.1, hfits.2, hpayload, haccepted⟩
      · exact iff_of_false (Prog.not_returns_bind (mt (htip' s₂).1 haccepted)) fun h => haccepted h.2.2.2
    · exact iff_of_false (Prog.not_returns_bind (mt (htip _).1 hpayload)) fun h => hpayload h.2.2.1

variable (E) in
/-- What is left of a registration when its entry is on top of `log`. -/
def settle (log : List TransparencyLogEntry) (now : Nat → Datetime) (sub : Submission) (grade : Option String)
    (cp : Option Checkpoint) (status : Option WitnessStatus) (g : Option ContinuityGrade) :
    ServiceM StatementRegistration :=
  issueReceipt E now sub grade (continuityAssertion E (now 0) cp g)
    (nextEntry E log logKindScitt sub.preimage (now 0) (now 1)) >>= fun issued =>
  commitRegistration E now sub (acceptedCheckpoint cp g) >>= fun _ =>
  pure {
    receipt := issued.1, entryHash := sub.entryHash, leafIndex := issued.2.1, treeSize := issued.2.2
    entryHashScheme := sub.scheme
    checkpointWitness := sub.checkpointFields.bind fun fields => status.map fun st => (fields, st)
    subject := sub.subject, continuityGrade := g }

private theorem settle_settles (log : List TransparencyLogEntry) (grade : Option String) :
    (settle E log now sub grade cp status g).Calls (fun c => c.settles = true) :=
  (issueReceipt_settles E now sub grade _ _).bind fun _ => (commitRegistration_settles E now sub _).bind fun _ => trivial

variable (E now sub cp status g) in
/-- After its append a registration returns when no row overflows. -/
theorem settle_returns {log : List TransparencyLogEntry} (hlog : Indexed log) (hroom : log.length < 2 ^ 63)
    (hs : s.logEntries = log) (grade : Option String) :
    ((settle E log now sub grade cp status g).Returns (SqliteStore.Raises E) (SqliteStore.exec E)
      { s with logEntries := registeredLog E now sub log } ↔
        ¬ Overflow E now s sub (acceptedCheckpoint cp g)) ∧
    ∀ result s', (settle E log now sub grade cp status g).runRaising (SqliteStore.Raises E) (SqliteStore.exec E)
      { s with logEntries := registeredLog E now sub log } = (.ok result, s') →
        result.leafIndex = log.length ∧ result.treeSize = log.length + 1 := by
  let row := issued E now sub grade (continuityAssertion E (now 0) cp g) log
  have hissue := (overTables_sqlite E).run_issueReceipt (s := { s with logEntries := registeredLog E now sub log }) now sub
    grade (continuityAssertion E (now 0) cp g) hlog rfl
  simp only at hissue
  by_cases hrow : SqliteStore.Raises E (.putStatement sub.entryHash row.1 row.2.1 row.2.2)
      { s with logEntries := registeredLog E now sub log }
  · rw [if_pos hrow] at hissue
    have hnot : ¬ (settle E log now sub grade cp status g).Returns (SqliteStore.Raises E) (SqliteStore.exec E)
        { s with logEntries := registeredLog E now sub log } :=
      Prog.not_returns_bind (Prog.not_returns.2 ⟨none, by rw [hissue]⟩)
    refine ⟨iff_of_false hnot ?_, fun result s' hrun => absurd ⟨result, s', hrun⟩ hnot⟩
    intro hfits
    apply hfits
    have hfull := (raises_putStatement (n := log.length) rfl rfl).1 hrow
    exact .full (by rw [hs]; omega)
  · rw [if_neg hrow] at hissue
    have hsize : log.length + 1 < 2 ^ 63 := by
      have hfull := mt (raises_putStatement (n := log.length) rfl rfl).2 hrow
      omega
    constructor
    · rw [settle, Prog.returns_bind hissue]
      have hcommit := commitRegistration_returns E now sub
        (s := { s with logEntries := registeredLog E now sub log,
                       submittedStatements := insertNew s.submittedStatements sub.entryHash row })
        (hlog.registeredLog E now sub) (acceptedCheckpoint cp g)
      rw [length_registeredLog] at hcommit
      by_cases hfits : (commitRegistration E now sub (acceptedCheckpoint cp g)).Returns (SqliteStore.Raises E)
          (SqliteStore.exec E) { s with logEntries := registeredLog E now sub log,
                                        submittedStatements := insertNew s.submittedStatements sub.entryHash row }
      · obtain ⟨y, s', hrun⟩ := hfits
        obtain ⟨-, hclock, hpayload, htip⟩ := hcommit.1 ⟨y, s', hrun⟩
        rw [Prog.returns_bind hrun]
        refine iff_of_true ⟨_, s', rfl⟩ ?_
        intro hover
        cases hover with
        | full h =>
          rw [hs] at h
          omega
        | clock h => exact h hclock
        | payload f hf h => exact absurd (hpayload f hf) (by omega)
        | tip cp hcp h => exact absurd (htip cp hcp) (by omega)
      · refine iff_of_false (Prog.not_returns_bind hfits) ?_
        intro hover
        refine hfits (hcommit.2 ⟨hsize, ?_, ?_, ?_⟩)
        · by_contra hclock
          exact hover (.clock hclock)
        · intro f hf
          by_contra h
          exact hover (.payload f hf (by omega))
        · intro cp hcp
          by_contra h
          exact hover (.tip cp hcp (by omega))
    · intro result s' hrun
      rw [settle, Prog.runRaising_bind_ok hissue] at hrun
      obtain ⟨y, s₁, -, hpure⟩ := Prog.runRaising_bind_returns hrun
      obtain rfl := Except.ok.inj (Prod.mk.inj hpure).1
      exact ⟨rfl, rfl⟩

/-! ### One call -/

theorem raises_appendEntry {log : List TransparencyLogEntry} {kind : String} {signedPayload : Bytes}
    {loggedAt signedAt : Datetime} {s : SqlStore} :
    SqliteStore.Raises E (.appendEntry (nextEntry E log kind signedPayload loggedAt signedAt)) s ↔ 2 ^ 63 ≤ log.length := by
  change ¬ FitsColumn (log.length : Int) ∨ False ↔ _
  rw [FitsColumn, or_false]
  omega

variable (cfg) in
/-- A registration writes nothing, or its entry is appended and the rest settles. -/
theorem register_cases (hs : Indexed s.logEntries) (now : Nat → Datetime) (statementBytes : Bytes)
    (grade : Option String) (cp : Option Checkpoint) :
    (((registerSignedStatementFull E cfg now statementBytes grade cp).runRaising (SqliteStore.Raises E)
        (SqliteStore.exec E) s).2 = s ∧
      ∀ sub status g, prepare E cfg.payloadPolicy statementBytes = .ok sub → ¬ Landed E cfg s sub cp status g) ∨
    ∃ sub status g, prepare E cfg.payloadPolicy statementBytes = .ok sub ∧ Landed E cfg s sub cp status g ∧
      (registerSignedStatementFull E cfg now statementBytes grade cp).runRaising (SqliteStore.Raises E)
        (SqliteStore.exec E) s =
      (settle E s.logEntries now sub grade cp status g).runRaising (SqliteStore.Raises E) (SqliteStore.exec E)
        { s with logEntries := registeredLog E now sub s.logEntries } := by
  have htables := overTables_sqlite E
  rw [registerSignedStatementFull, Prog.runRaising_bind, Prog.runRaising_ofExcept]
  cases hprep : prepare E cfg.payloadPolicy statementBytes with
  | error e =>
    refine .inl ⟨rfl, ?_⟩
    intro sub status g heq
    cases heq
  | ok sub =>
    simp only [Except.mapError]
    rw [registerPrepared, Prog.runRaising_bind_ok (htables.run_lookupStatement sub)]
    cases hfound : cachedStatement s.dicts sub with
    | mk found scheme =>
      cases found with
      | some cached =>
        left
        refine ⟨?_, ?_⟩
        · rcases htables.run_alreadyRegistered (s := s) sub cached scheme cp with hrun | ⟨c, -, -, hrun⟩
          · simp only [hrun]
          · simp only [hrun]
        · rintro sub' status g ⟨⟩ hlanded
          have hmiss := hlanded.miss
          rw [hfound] at hmiss
          cases hmiss
      | none =>
        simp only
        have hlinked := htables.run_gate (linked_gates E cfg sub.checkpointFields) (m := s.dicts) (s := s) rfl
        have hcontinued := htables.run_gate (continued_gates E cfg cp) (m := s.dicts) (s := s) rfl
        rw [registerNew, Prog.runRaising_bind]
        cases hlink : ((optionally sub.checkpointFields (checkCheckpointConsistency E cfg)).run MemoryStore.exec
            s.dicts).1 with
        | error e =>
          left
          rw [hlink] at hlinked
          rw [hlinked]
          refine ⟨rfl, ?_⟩
          rintro sub' status g ⟨⟩ hlanded
          rw [((passes_iff E cfg).1 hlanded.passes).1] at hlink
          cases hlink
        | ok status =>
          rw [hlink] at hlinked
          rw [hlinked]
          simp only [Except.mapError]
          rw [Prog.runRaising_bind]
          cases hcont : ((optionally cp (checkCheckpointContinuity E cfg)).run MemoryStore.exec s.dicts).1 with
          | error e =>
            left
            rw [hcont] at hcontinued
            rw [hcontinued]
            refine ⟨rfl, ?_⟩
            rintro sub' status' g ⟨⟩ hlanded
            rw [((passes_iff E cfg).1 hlanded.passes).2] at hcont
            cases hcont
          | ok g =>
            rw [hcont] at hcontinued
            rw [hcontinued]
            simp only [Except.mapError]
            have happend := htables.run_appendLog hs logKindScitt sub.preimage (now 0) (now 1)
            simp only at happend
            by_cases hraises : SqliteStore.Raises E
                (.appendEntry (nextEntry E s.logEntries logKindScitt sub.preimage (now 0) (now 1))) s
            · left
              rw [if_pos hraises] at happend
              rw [appendStatement_eq, Prog.runRaising_bind_error (Prog.runRaising_bind_error happend)]
              refine ⟨rfl, ?_⟩
              rintro sub' status' g' ⟨⟩ hlanded
              have hroom := hlanded.room
              have hfull := raises_appendEntry.1 hraises
              omega
            · right
              rw [if_neg hraises] at happend
              have hroom : s.logEntries.length < 2 ^ 63 := by
                have := mt raises_appendEntry.2 hraises
                omega
              refine ⟨sub, status, g, rfl, ⟨by rw [hfound], (passes_iff E cfg).2 ⟨hlink, hcont⟩, hroom⟩, ?_⟩
              have hissue : (appendStatement E now sub grade (continuityAssertion E (now 0) cp g)).runRaising
                  (SqliteStore.Raises E) (SqliteStore.exec E) s =
                  (issueReceipt E now sub grade (continuityAssertion E (now 0) cp g)
                    (nextEntry E s.logEntries logKindScitt sub.preimage (now 0) (now 1))).runRaising
                  (SqliteStore.Raises E) (SqliteStore.exec E)
                  { s with logEntries := registeredLog E now sub s.logEntries } := Prog.runRaising_bind_ok happend
              rw [Prog.runRaising_bind, hissue]
              exact (Prog.runRaising_bind _ _ _ _ _).symm

private theorem raises_putCheckpointRecord {c : Checkpoint} {result : StatementRegistration} {n : Nat}
    (hleaf : result.leafIndex = n) (htree : result.treeSize = n + 1) (hroom : n + 1 < 2 ^ 63) {s : SqlStore} :
    SqliteStore.Raises E (.putCheckpointRecord c.logId c.mmrSize (checkpointRecord c result)) s ↔ 2 ^ 63 ≤ c.mmrSize := by
  have hlt := c.prevSize_lt
  change ¬ (FitsColumn c.mmrSize ∧ (_ → FitsColumn c.prevSize ∧ FitsColumn result.leafIndex ∧
    FitsColumn result.treeSize)) ∨ False ↔ _
  rw [or_false]
  constructor
  · intro h
    by_contra hsize
    refine h ⟨?_, fun _ => ⟨?_, ?_, ?_⟩⟩
    all_goals
      simp only [FitsColumn, hleaf, htree]
      omega
  · rintro h ⟨hfits, -⟩
    rw [FitsColumn] at hfits
    omega

/-- A call that goes on after its append is all or nothing when it returns. -/
private theorem all_or_nothing_of_appended {r : Registering} {p : ServiceM StatementRegistration}
    (hp : p.Calls (fun c => ∀ entry, c ≠ .appendEntry entry))
    (hrun : (r.program E cfg now).runRaising (SqliteStore.Raises E) (SqliteStore.exec E) s =
      p.runRaising (SqliteStore.Raises E) (SqliteStore.exec E)
        { s with logEntries := registeredLog E now sub s.logEntries }) :
    AllOrNothing E cfg now r s ↔ p.Returns (SqliteStore.Raises E) (SqliteStore.exec E)
      { s with logEntries := registeredLog E now sub s.logEntries } := by
  constructor
  · intro hall
    by_contra hnot
    obtain ⟨e, herror⟩ := Prog.not_returns.1 hnot
    have hsame := hall e _ (hrun.trans herror)
    have hlog : (p.runRaising (SqliteStore.Raises E) (SqliteStore.exec E)
        { s with logEntries := registeredLog E now sub s.logEntries }).2.logEntries = registeredLog E now sub s.logEntries :=
      Prog.Calls.frame SqlStore.logEntries (fun c s hc => logEntries_frame hc s) hp _
    rw [hsame] at hlog
    have hlen := congrArg List.length hlog
    simp at hlen
  · rintro ⟨result, s₁, hok⟩ e s' herror
    rw [hrun, hok] at herror
    cases herror

/-- What a torn call went through. -/
private theorem torn_iff {r : Registering} (hprep : prepare E cfg.payloadPolicy (r.statementBytes E) = .ok sub)
    (hlanded : Landed E cfg s sub r.checkpointContinuity status g) : Torn E cfg now r s ↔
      Overflow E now s sub (acceptedCheckpoint r.checkpointContinuity g) ∨ ∃ c, r = .checkpoint c ∧ 2 ^ 63 ≤ c.mmrSize := by
  constructor
  · rintro ⟨sub', status', g', hprep', hlanded', hover⟩
    obtain rfl := Except.ok.inj (hprep'.symm.trans hprep)
    have hgrade := ((passes_iff E cfg).1 hlanded.passes).2
    rw [((passes_iff E cfg).1 hlanded'.passes).2] at hgrade
    obtain rfl := Except.ok.inj hgrade
    exact hover
  · exact fun hover => ⟨sub, status, g, hprep, hlanded, hover⟩

/-- A call that raises has written nothing, or it was torn. -/
private theorem all_or_nothing_at (hs : Indexed s.logEntries) (now : Nat → Datetime) (r : Registering) :
    AllOrNothing E cfg now r s ↔ ¬ Torn E cfg now r s := by
  cases r with
  | statement statementBytes grade cp =>
    rcases register_cases cfg hs now statementBytes grade cp with ⟨hquiet, hnot⟩ |
      ⟨sub, status, g, hprep, hlanded, hrun⟩
    · refine iff_of_true ?_ ?_
      · intro e s' herror
        change (registerSignedStatementFull E cfg now statementBytes grade cp).runRaising _ _ s = _ at herror
        rw [herror] at hquiet
        exact hquiet
      · rintro ⟨sub, status, g, hprep, hlanded, -⟩
        exact hnot sub status g hprep hlanded
    · obtain ⟨hreturns, -⟩ := settle_returns E now sub cp status g hs hlanded.room rfl grade
      rw [all_or_nothing_of_appended (no_append_of_settles (settle_settles _ grade)) hrun, hreturns,
        torn_iff (r := .statement statementBytes grade cp) hprep hlanded]
      refine not_congr ⟨.inl, ?_⟩
      rintro (h | ⟨c, h, -⟩)
      · exact h
      · cases h
  | checkpoint c =>
    let record : StatementRegistration → ServiceM StatementRegistration := fun result =>
      store (.putCheckpointRecord c.logId c.mmrSize (checkpointRecord c result)) >>= fun _ => pure result
    have hprogram : (Registering.checkpoint c).program E cfg now =
      registerSignedStatementFull E cfg now (checkpointDigest E c).bytes c.grade (some c) >>= record := rfl
    rcases register_cases cfg hs now (checkpointDigest E c).bytes c.grade (some c) with ⟨hquiet, hnot⟩ |
      ⟨sub, status, g, hprep, hlanded, hrun⟩
    · refine iff_of_true ?_ ?_
      · intro e s' herror
        rw [hprogram, Prog.runRaising_bind] at herror
        cases hregister : (registerSignedStatementFull E cfg now (checkpointDigest E c).bytes c.grade (some c)).runRaising
            (SqliteStore.Raises E) (SqliteStore.exec E) s with
        | mk reply s₁ =>
          rw [hregister] at hquiet herror
          obtain rfl : s₁ = s := hquiet
          cases reply with
          | error e' => exact (Prod.mk.inj herror).2.symm
          | ok result =>
            by_cases hraises : SqliteStore.Raises E (.putCheckpointRecord c.logId c.mmrSize (checkpointRecord c result)) s₁
            · have hput : (record result).runRaising (SqliteStore.Raises E) (SqliteStore.exec E) s₁ = (.error none, s₁) :=
                Prog.runRaising_bind_error (Prog.runRaising_perform_raised hraises)
              exact (Prod.mk.inj (hput.symm.trans herror)).2.symm
            · have hput : (record result).runRaising (SqliteStore.Raises E) (SqliteStore.exec E) s₁ = _ :=
                Prog.runRaising_bind_ok (Prog.runRaising_perform hraises)
              cases hput.symm.trans herror
      · rintro ⟨sub, status, g, hprep, hlanded, -⟩
        exact hnot sub status g hprep hlanded
    · have hcalls : (settle E s.logEntries now sub c.grade (some c) status g >>= record).Calls
          (fun c => ∀ entry, c ≠ .appendEntry entry) := by
        refine (no_append_of_settles (settle_settles _ c.grade)).bind ?_
        intro result
        exact Prog.Calls.bind (no_append_store (by intro _ h; cases h)) (fun _ => trivial)
      have hafter : ((Registering.checkpoint c).program E cfg now).runRaising (SqliteStore.Raises E) (SqliteStore.exec E) s =
          (settle E s.logEntries now sub c.grade (some c) status g >>= record).runRaising (SqliteStore.Raises E)
            (SqliteStore.exec E) { s with logEntries := registeredLog E now sub s.logEntries } := by
        rw [hprogram, Prog.runRaising_bind, hrun, ← Prog.runRaising_bind]
      rw [all_or_nothing_of_appended hcalls hafter, torn_iff (r := .checkpoint c) hprep hlanded]
      obtain ⟨hreturns, hresult⟩ := settle_returns E now sub (some c) status g hs hlanded.room rfl c.grade
      by_cases hfits : Overflow E now s sub (acceptedCheckpoint (some c) g)
      · exact iff_of_false (Prog.not_returns_bind (mt hreturns.1 (not_not.2 hfits))) (not_not.2 (.inl hfits))
      · obtain ⟨result, s₁, hok⟩ := hreturns.2 hfits
        obtain ⟨hleaf, htree⟩ := hresult result s₁ hok
        have hroom : s.logEntries.length + 1 < 2 ^ 63 := by
          have hlt := hlanded.room
          by_contra hfull
          exact hfits (.full (by omega))
        rw [Prog.returns_bind hok]
        have hrecord := raises_putCheckpointRecord (E := E) (c := c) hleaf htree hroom (s := s₁)
        by_cases hsize : 2 ^ 63 ≤ c.mmrSize
        · refine iff_of_false (Prog.not_returns_bind ?_) (not_not.2 (.inr ⟨c, rfl, hsize⟩))
          exact mt Prog.returns_perform.1 (not_not.2 (hrecord.2 hsize))
        · refine iff_of_true ⟨result, _, Prog.runRaising_bind_ok (Prog.runRaising_perform (mt hrecord.1 hsize))⟩ ?_
          rintro (h | ⟨c', hc, h⟩)
          · exact hfits h
          · obtain rfl := Registering.checkpoint.inj hc
            exact hsize h

variable (E cfg)

private def wideCheckpoint : Checkpoint where
  v := 1
  kind := "mmr_checkpoint"
  logId := "log"
  mmrSize := 2 ^ 63
  root := filledDigest 1
  prevSize := 0
  prevRoot := none
  keyId := "key"
  timestamp := "2026-08-27T00:00:00Z"
  grade := none
  consistencyProof := some none
  prevSize_lt := by decide

end CapsuleAnchor
