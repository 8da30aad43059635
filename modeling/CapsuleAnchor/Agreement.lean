import CapsuleAnchor.Mirrors
import CapsuleAnchor.Publisher
import CapsuleAnchor.Steps

/-!
# A service over dicts and a service over SQLite

The two services, with the same clock, the same key and the same answers of the public logs, are run side by side.  As long
as every step is alike (`AlikeStep`) they reply alike and end in states that mirror one another, so that every read is
answered alike (`backends_agree`); the values are taken to fit the columns.

The steps that are not alike are those on which the two stores disagree: a statement whose entry hash comes before one of
its subject (`backends_disagree`), an integer that a public log answers where its column is text, and the two comparisons of
times.
-/

namespace CapsuleAnchor

variable (E : Env) (cfg : Config)

/-! ### Programs whose calls are alike -/

/-- The program makes calls only that both stores answer alike. -/
abbrev AlikeCalls {α : Type} (p : ServiceM α) (m : MemoryStore) : Prop :=
  p.Admitted (fun c m => c.Alike E m) MemoryStore.exec m

/-- The times that a call reads fit their column. -/
def ClocksFit (now : Nat → Datetime) : Prop := ∀ i, FitsColumn (E.tsEpochUs (now i))

theorem fitsColumn_le {i n : Nat} (hn : FitsColumn n) (hi : i ≤ n) : FitsColumn i := by
  unfold FitsColumn at *
  omega

theorem headAt_headOver (log : List TransparencyLogEntry) (timestamp signedAt : Datetime) :
    HeadAt E log (headOver E log timestamp signedAt).treeSize (headOver E log timestamp signedAt) :=
  ⟨Nat.le_refl _, rfl, by rw [rootHash_headOver, ← rootAt_length]; rfl⟩

section Programs

variable {E cfg} {m : MemoryStore} {now : Nat → Datetime} {sub : Submission} {cp : Option Checkpoint}

theorem optionally_alike {α β : Type} {x : Option α} {f : α → ServiceM β} (h : ∀ a, x = some a → AlikeCalls E (f a) m) :
    AlikeCalls E (optionally x f) m := by
  cases x with
  | none => trivial
  | some a => exact (h a rfl).map some

theorem gates_alike {α : Type} {p : ServiceM α} (hp : p.Calls (fun c => c.gates = true)) : AlikeCalls E p m := by
  refine hp.admitted (I := fun _ => True) ?_ trivial
  intro c s hc _
  cases c with
  | getCheckpointWitness logId => exact ⟨trivial, trivial⟩
  | countWouldRefuse logId => exact ⟨trivial, trivial⟩
  | _ => cases hc

theorem appendLog_alike (hfits : FitsColumn m.log.length) (kind : String) (signedPayload : Bytes)
    (loggedAt signedAt : Datetime) : AlikeCalls E (appendLog E kind signedPayload loggedAt signedAt) m := by
  have hprev : AlikeCalls E (prevLogHash E m.log.length) m := by
    unfold prevLogHash headHash
    split
    · refine (Prog.Admitted.bind (.perform trivial) ?_).map _
      intro entries m' _
      split <;> trivial
    · trivial
  refine Prog.Admitted.bind_ok (.perform trivial) run_size ?_
  refine Prog.Admitted.bind_ok hprev (prevLogHash_run E m) ?_
  refine Prog.Admitted.bind (Prog.Admitted.bind (.perform ⟨rfl, hfits⟩) ?_) ?_
  · exact fun x _ _ => .ofExcept x
  · exact fun _ _ _ => trivial

theorem signAndPersistSth_alike (h : Indexed m.log) (hfits : FitsColumn m.log.length) {timestamp : Datetime}
    (signedAt : Datetime) (hclock : FitsColumn (E.tsEpochUs timestamp))
    (halike : ∀ latest, m.latestSth = some latest → latest.treeSize = m.log.length →
      (latest.timestamp < timestamp ↔ E.tsEpochUs latest.timestamp < E.tsEpochUs timestamp)) :
    AlikeCalls E (signAndPersistSth E timestamp signedAt) m := by
  have hzero : FitsColumn 0 := by decide
  refine Prog.Admitted.bind_ok (.perform trivial) run_size ?_
  refine Prog.Admitted.bind_ok (.perform hzero) (transparencyLog_run h) ?_
  refine Prog.Admitted.bind (.perform ⟨headAt_headOver E m.log timestamp signedAt, hfits, hclock, halike⟩) ?_
  exact fun _ _ _ => trivial

theorem getSth_alike (h : Indexed m.log) (hfits : FitsColumn m.log.length) (hclock : ClocksFit E now) :
    AlikeCalls E (getSth E now) m := by
  refine Prog.Admitted.bind_ok (.perform trivial) run_getLatestSth ?_
  cases hlatest : m.latestSth with
  | none =>
    refine signAndPersistSth_alike h hfits (now 1) (hclock 0) ?_
    rw [hlatest]
    nofun
  | some sth =>
    refine Prog.Admitted.bind_ok (.perform trivial) run_size ?_
    split
    · trivial
    · rename_i hsize
      refine signAndPersistSth_alike h hfits (now 1) (hclock 0) ?_
      intro latest hl htie
      rw [hlatest] at hl
      cases hl
      exact absurd htie (Nat.ne_of_lt (Nat.lt_of_not_le hsize))

theorem issueReceipt_alike {log : List TransparencyLogEntry} (h : Indexed log) (hfits : FitsColumn (log.length + 1))
    (hm : m.log = registeredLog E now sub log) (hmiss : m.statements.lookup sub.entryHash = none)
    (grade : Option String) (continuity : Option ContinuityAssertion) : AlikeCalls E
      (issueReceipt E now sub grade continuity (nextEntry E log logKindScitt sub.preimage (now 0) (now 1))) m := by
  have hindexed : Indexed m.log := by
    rw [hm]
    exact h.registeredLog E now sub
  have hzero : FitsColumn 0 := by decide
  refine Prog.Admitted.bind_ok (.perform hzero) (transparencyLog_run hindexed) ?_
  simp only
  split
  · trivial
  · refine Prog.Admitted.bind (.perform ⟨hmiss, ?_, ?_⟩) fun _ _ _ => trivial
    · exact fitsColumn_le hfits (Nat.le_succ _)
    · rw [hm, length_ctLeaves, length_registeredLog]
      exact hfits

theorem commitRegistration_alike (h : Indexed m.log) (hfits : FitsColumn m.log.length) (hclock : ClocksFit E now)
    (hlast : ∀ x, sub.subject = some x → SubjectLast m x sub.entryHash)
    (hhead : ∀ latest, m.latestSth = some latest → latest.treeSize < m.log.length)
    (hfields : ∀ f, sub.checkpointFields = some f → FitsColumn f.mmrSize) {accepted : Option Checkpoint}
    (haccepted : ∀ c, accepted = some c → FitsColumn c.mmrSize) :
    AlikeCalls E (commitRegistration E now sub accepted) m := by
  obtain ⟨r, hsubject⟩ := indexSubject_run m sub
  refine Prog.Admitted.bind_ok (optionally_alike fun x hx => .perform (hlast x hx)) hsubject ?_
  refine Prog.Admitted.bind (signAndPersistSth_alike ?_ ?_ (now 4) (hclock 3) ?_) ?_
  · rwa [log_indexSubject]
  · rwa [log_indexSubject]
  · intro latest hlatest htie
    rw [latestSth_indexSubject] at hlatest
    rw [log_indexSubject] at htie
    exact absurd htie (Nat.ne_of_lt (hhead latest hlatest))
  · intro _ m' _
    refine Prog.Admitted.bind (optionally_alike fun f hf => .perform (hfields f hf)) ?_
    intro _ m'' _
    exact Prog.Admitted.bind (optionally_alike fun c hc => .perform (haccepted c hc)) fun _ _ _ => trivial

end Programs

section Registration

variable {E cfg} {m : MemoryStore} {now : Nat → Datetime} {cp : Option Checkpoint} (h : Indexed m.log)
  (hfits : FitsColumn (m.log.length + 1)) (hclock : ClocksFit E now)
  (hhead : ∀ latest, m.latestSth = some latest → latest.treeSize ≤ m.log.length)
  (hcp : ∀ c, cp = some c → FitsColumn c.mmrSize)
include h hfits hclock hhead hcp

theorem registerNew_alike {sub : Submission} (hmiss : (cachedStatement m sub).1 = none)
    (hlast : ∀ x, sub.subject = some x → SubjectLast m x sub.entryHash)
    (hfields : ∀ f, sub.checkpointFields = some f → FitsColumn f.mmrSize) (grade : Option String) :
    AlikeCalls E (registerNew E cfg now sub grade cp) m := by
  have hlength : FitsColumn m.log.length := fitsColumn_le hfits (Nat.le_succ _)
  refine Prog.Admitted.bind (gates_alike (linked_gates E cfg _)) ?_
  intro status m₁ hlinked
  refine Prog.Admitted.bind (gates_alike (continued_gates E cfg _)) ?_
  intro g m₂ hcontinued
  -- the gates change no more than the counter
  have hsame : SameStore m m₂ := by
    have hleft := (linked_run E cfg m sub.checkpointFields).1
    have hright := (continued_run E cfg m₁ cp).1
    rw [hlinked] at hleft
    rw [hcontinued] at hright
    exact hleft.trans hright
  obtain ⟨w, rfl⟩ := hsame
  let passed : MemoryStore := { m with consistencyProofWouldRefuse := w }
  let continuity := continuityAssertion E (now 0) cp g
  have hissue := appendStatement_run E (s := passed) h now sub grade continuity
  refine Prog.Admitted.bind_ok ?_ hissue ?_
  · rw [appendStatement_eq]
    refine Prog.Admitted.bind_ok (appendLog_alike (m := passed) hlength _ _ _ _) (appendLog_run E _ _ _ _ _) ?_
    exact issueReceipt_alike (m := { passed with log := registeredLog E now sub m.log }) h hfits rfl
      (cachedStatement_none.1 hmiss).1 grade _
  · have hlog : (issuedState E now sub grade continuity passed).log.length = m.log.length + 1 :=
      length_registeredLog E now sub m.log
    refine Prog.Admitted.bind (commitRegistration_alike (m := issuedState E now sub grade continuity passed) ?_ ?_ hclock
      ?_ ?_ hfields ?_) fun _ _ _ => trivial
    · exact h.registeredLog E now sub
    · rw [hlog]
      exact hfits
    · exact hlast
    · intro latest hlatest
      rw [hlog]
      exact Nat.lt_succ_of_le (hhead latest hlatest)
    · intro c hc
      refine hcp c ?_
      unfold acceptedCheckpoint at hc
      split at hc
      · exact hc
      · cases hc

theorem registerSignedStatementFull_alike {statementBytes : Bytes}
    (hlast : ∀ sub, prepare E cfg.payloadPolicy statementBytes = .ok sub → (cachedStatement m sub).1 = none →
      ∀ x, sub.subject = some x → SubjectLast m x sub.entryHash)
    (hfields : ∀ sub, prepare E cfg.payloadPolicy statementBytes = .ok sub →
      ∀ f, sub.checkpointFields = some f → FitsColumn f.mmrSize) (grade : Option String) :
    AlikeCalls E (registerSignedStatementFull E cfg now statementBytes grade cp) m := by
  refine Prog.Admitted.bind (.ofExcept _) ?_
  intro sub m' hrun
  rw [Prog.run_ofExcept] at hrun
  obtain ⟨hprep, rfl⟩ := Prod.mk.inj hrun
  have hlookup : AlikeCalls E (lookupStatement sub) m := by
    refine Prog.Admitted.bind (.perform trivial) ?_
    intro cached m' _
    cases cached with
    | some cached => trivial
    | none =>
      simp only
      split
      · exact Prog.Admitted.bind (.perform trivial) fun _ _ _ => trivial
      · trivial
  refine Prog.Admitted.bind_ok hlookup (lookupStatement_run m sub) ?_
  cases hfound : (cachedStatement m sub).1 with
  | some cached =>
    refine Prog.Admitted.bind (optionally_alike fun c hc => .perform (hcp c hc)) ?_
    exact fun _ _ _ => trivial
  | none => exact registerNew_alike h hfits hclock hhead hcp hfound (hlast sub hprep hfound) (hfields sub hprep) grade

omit h hclock hhead hcp in
/-- The place of a receipt that a registration returns fits. -/
theorem registered_fits (hkept : Kept E m) {statementBytes : Bytes} {grade : Option String}
    {result : StatementRegistration} {m' : MemoryStore}
    (hstep : RegisterStep E cfg now statementBytes grade cp m (.ok result) m') :
    FitsColumn result.leafIndex ∧ FitsColumn result.treeSize := by
  cases hstep with
  | cached sub found scheme hprep hfound =>
    have hissued := hkept.cached _ found (cachedStatement_some E (prepare_ok E hprep) hfound)
    obtain ⟨i, hindex, hlt, -⟩ := hissued.entry
    have hle := hissued.size_le
    refine ⟨?_, fitsColumn_le hfits (hle.trans (Nat.le_succ _))⟩
    rw [show (cachedResult m sub found scheme cp).leafIndex = i from hindex]
    exact fitsColumn_le hfits (by omega)
  | fresh sub s' status g hprep hmiss hsame =>
    exact ⟨fitsColumn_le hfits (Nat.le_succ _), hfits⟩

end Registration

/-! ### Requests -/

/-- The size of a checkpoint that the statement declares fits its column. -/
def StatementFits (statementBytes : Bytes) : Prop :=
  ∀ sub, prepare E cfg.payloadPolicy statementBytes = .ok sub → ∀ f, sub.checkpointFields = some f → FitsColumn f.mmrSize

/-- The integers of a request fit the columns that they are handed to. -/
def Request.Fits : Request → Prop
  | .anchor _ _ seqRange _ => FitsColumn seqRange.1 ∧ FitsColumn seqRange.2
  | .register statementBytes => StatementFits E cfg statementBytes
  | .witnessCheckpoint cp => StatementFits E cfg (checkpointDigest E cp).bytes ∧ FitsColumn cp.mmrSize
  | _ => True

/-- A new statement comes last among those of its subject. -/
def StatementLast (m : MemoryStore) (statementBytes : Bytes) : Prop :=
  ∀ sub, prepare E cfg.payloadPolicy statementBytes = .ok sub → (cachedStatement m sub).1 = none →
    ∀ x, sub.subject = some x → SubjectLast m x sub.entryHash

/-- The request is one on which the two stores do not disagree. -/
def Request.Alike (now : Nat → Datetime) (m : MemoryStore) : Request → Prop
  | .register statementBytes => StatementLast E cfg m statementBytes
  | .witnessCheckpoint cp => StatementLast E cfg m (checkpointDigest E cp).bytes
  | .refreshSth => HeadsAlike E m (headOver E m.log (now 0) (now 1))
  | .prune (some seconds) => TimesAlike m ⟨(now 0).epochUs - seconds * 1000000, (now 0).utcoffset⟩
  | _ => True

section Requests

variable {E cfg} {m : MemoryStore} {now : Nat → Datetime} (h : Kept E m) (hfits : FitsColumn (m.log.length + 1))
  (hclock : ClocksFit E now) (hhead : ∀ latest, m.latestSth = some latest → latest.treeSize ≤ m.log.length)
include h hfits hclock hhead

theorem request_alike {r : Request} (hrange : r.Fits E cfg) (halike : r.Alike E cfg now m) :
    AlikeCalls E (r.program E cfg now) m := by
  have hlength : FitsColumn m.log.length := fitsColumn_le hfits (Nat.le_succ _)
  cases r with
  | anchor tenantId rootHash seqRange capsuleId =>
    refine Prog.Admitted.map (Prog.Admitted.bind_ok (appendLog_alike hlength _ _ _ _) (appendLog_run E _ _ _ _ _) ?_) _
    refine Prog.Admitted.bind (.perform hrange) ?_
    intro _ m' _
    refine Prog.Admitted.bind (optionally_alike fun capsuleId _ => .perform hlength) ?_
    exact fun _ _ _ => trivial
  | register statementBytes =>
    have hcp : ∀ c, (none : Option Checkpoint) = some c → FitsColumn c.mmrSize := nofun
    exact (registerSignedStatementFull_alike h.indexed hfits hclock hhead hcp halike hrange none).map _
  | witnessCheckpoint cp =>
    have hcp : ∀ c, some cp = some c → FitsColumn c.mmrSize := by
      rintro _ ⟨⟩
      exact hrange.2
    refine Prog.Admitted.map (Prog.Admitted.bind
      (registerSignedStatementFull_alike h.indexed hfits hclock hhead hcp halike hrange.1 cp.grade) ?_) _
    intro result m' hrun
    have hstep := registerSignedStatementFull_run E cfg h.indexed now (checkpointDigest E cp).bytes cp.grade (some cp)
    rw [hrun] at hstep
    have hplace := registered_fits hfits h hstep
    have hprev : FitsColumn cp.prevSize := fitsColumn_le hrange.2 cp.prevSize_lt.le
    exact Prog.Admitted.bind (.perform ⟨hrange.2, hprev, hplace⟩) fun _ _ _ => trivial
  | refreshSth => exact (signAndPersistSth_alike h.indexed hlength (now 1) (hclock 0) halike).map _
  | getSth => exact (getSth_alike h.indexed hlength hclock).map _
  | prune seconds =>
    cases seconds with
    | none => trivial
    | some seconds =>
      have hleaves : ∀ k row, m.statements.lookup k = some row → InLog m.log row.2.1 := by
        intro k row hrow
        obtain ⟨i, hindex, hlt, -⟩ := (h.cached k row hrow).entry
        exact ⟨i, Nat.lt_of_lt_of_le hlt (h.cached k row hrow).size_le, hindex⟩
      refine Prog.Admitted.map (Prog.Admitted.bind (.perform ⟨hleaves, halike⟩) ?_) _
      exact fun x _ _ => .ofExcept x

end Requests

/-! ### One operation -/

/-- The integers of an operation fit the columns that they are handed to. -/
def Operation.Fits : Operation → Prop
  | .request r => r.Fits E cfg
  | .publish _ answer _ => ∀ response, answer = some response → ∀ i, response.logIndex = some i → FitsColumn i

/-- What a text column is handed is no integer. -/
def PublicLogResponse.Textual (response : PublicLogResponse) : Prop :=
  ∀ i, response.integratedTime ≠ .int i ∧ response.signedEntryTimestamp ≠ .int i

/-- The operation is one on which the two stores do not disagree. -/
def Operation.Alike (now : Nat → Datetime) (m : MemoryStore) : Operation → Prop
  | .request r => r.Alike E cfg now m
  | .publish _ answer _ => ∀ response, answer = some response → response.Textual

/-- The two services hold the same, and their receipts are about the log. -/
structure NodesAgree (m : Backend.memory.Node) (s : Backend.sqlite.Node) : Prop where
  stores : Mirrors E m.1 s.1
  kept : Kept E m.1
  receipts : s.2 = m.2
  published : Published E m.1.log m.2

section Operations

variable {E cfg} {m : MemoryStore} {s : SqlStore}

/-- A program whose calls are alike ends alike over both stores. -/
theorem AlikeCalls.agree {α : Type} {p : ServiceM α} (hp : AlikeCalls E p m) (h : Mirrors E m s) :
    (p.runRaising (Backend.sqlite.Raises E) (Backend.sqlite.exec E) s).1 =
        (p.runRaising (Backend.memory.Raises E) (Backend.memory.exec E) m).1 ∧
      Mirrors E (p.runRaising (Backend.memory.Raises E) (Backend.memory.exec E) m).2
        (p.runRaising (Backend.sqlite.Raises E) (Backend.sqlite.exec E) s).2 := by
  rw [Backend.runRaising_memory]
  exact hp.simulates (fun c m s h hc => h.exec hc) h

/-- The publisher takes a head over the log, or none, and the service keeps its invariants. -/
theorem headToPublish_run (h : Mirrors E m s) (hkept : Kept E m) (now : Nat → Datetime) :
    ∃ head m', (headToPublish E now).run MemoryStore.exec m = (.ok head, m') ∧ Kept E m' ∧ m'.log = m.log ∧
      ∀ sth, head = some sth → HeadAt E m.log sth.treeSize sth := by
  rw [headToPublish, Prog.run_bind_ok _ run_size]
  split
  · exact ⟨none, m, rfl, hkept, rfl, nofun⟩
  · have hstep := kept_step E {} hkept (now, .getSth)
    rw [step, Request.program, Prog.run_map] at hstep
    rw [Prog.run_map]
    rcases getSth_run E hkept.indexed now with ⟨sth, hlatest, -, hrun⟩ | hrun
    · rw [hrun] at hstep ⊢
      refine ⟨some sth, m, rfl, hstep, rfl, ?_⟩
      rintro _ ⟨⟩
      exact h.head sth hlatest
    · rw [hrun] at hstep ⊢
      refine ⟨some _, _, rfl, hstep, log_putSth _ _, ?_⟩
      rintro _ ⟨⟩
      exact headAt_headOver E m.log _ _

theorem headToPublish_alike (hkept : Kept E m) (hfits : FitsColumn m.log.length) {now : Nat → Datetime}
    (hclock : ClocksFit E now) : AlikeCalls E (headToPublish E now) m := by
  refine Prog.Admitted.bind_ok (.perform trivial) run_size ?_
  split
  · trivial
  · exact (getSth_alike hkept.indexed hfits hclock).map some

/-- The two rails answer alike where no text column is handed an integer. -/
theorem publish_agree {sth : SignedTreeHead} {answer : Option PublicLogResponse} (hsize : FitsColumn sth.treeSize)
    (hfits : ∀ response, answer = some response → ∀ i, response.logIndex = some i → FitsColumn i)
    (halike : ∀ response, answer = some response → response.Textual) (backend submittedAt : String)
    (receipts : PublicLogReceipts) : Backend.sqlite.publish backend answer submittedAt sth receipts =
      Backend.memory.publish backend answer submittedAt sth receipts := by
  unfold Backend.publish
  split
  · rfl
  · cases answer with
    | none => rfl
    | some response =>
      have htext := halike response rfl
      have hbinds : ∀ value : Scalar, (∀ i, value ≠ .int i) → value.binds = true ∧ textColumn value = value := by
        intro value hvalue
        cases value with
        | int i => exact absurd rfl (hvalue i)
        | _ => exact ⟨rfl, rfl⟩
      obtain ⟨htime, htime'⟩ := hbinds response.integratedTime fun i => (htext i).1
      obtain ⟨hentry, hentry'⟩ := hbinds response.signedEntryTimestamp fun i => (htext i).2
      have hindex : (response.receipt backend sth submittedAt).fits = true := by
        have hall : response.logIndex.all (fun i => decide (FitsColumn i)) = true := by
          cases hlog : response.logIndex with
          | none => rfl
          | some i => simpa using hfits response rfl i hlog
        simp [PublicLogReceipt.fits, PublicLogResponse.receipt, hsize, hall]
      have hrow : (response.receipt backend sth submittedAt).row = response.receipt backend sth submittedAt := by
        simp [PublicLogReceipt.row, PublicLogResponse.receipt, htime', hentry']
      have hrefused : Backend.sqlite.refusesReceipt (response.receipt backend sth submittedAt) = false := by
        rw [Backend.refusesReceipt, hindex]
        simp [PublicLogResponse.receipt, htime, hentry]
      simp only [hrefused, Backend.putPublicLogReceipt, hrow]
      rfl

theorem operate_agree {m : Backend.memory.Node} {s : Backend.sqlite.Node} (h : NodesAgree E m s)
    {now : Nat → Datetime} {op : Operation} (hlength : FitsColumn (m.1.log.length + 1)) (hclock : ClocksFit E now)
    (hfits : op.Fits E cfg) (halike : op.Alike E cfg now m.1) :
    (Backend.sqlite.operate E cfg s (now, op)).1 = (Backend.memory.operate E cfg m (now, op)).1 ∧
      NodesAgree E (Backend.memory.operate E cfg m (now, op)).2 (Backend.sqlite.operate E cfg s (now, op)).2 := by
  obtain ⟨m, receipts⟩ := m
  obtain ⟨s, receipts'⟩ := s
  obtain ⟨hstores, hkept, hreceipts, hpublished⟩ := h
  simp only at hstores hkept hreceipts hpublished hlength halike
  subst hreceipts
  have hhead : ∀ latest, m.latestSth = some latest → latest.treeSize ≤ m.log.length :=
    fun latest hlatest => (hstores.head latest hlatest).1
  cases op with
  | request r =>
    have hcalls := request_alike hkept hlength hclock hhead hfits halike
    obtain ⟨hreply, hmirrors⟩ := hcalls.agree hstores
    have hprefix := ((step_cases E cfg hkept.indexed (now, r)).extends E cfg).log
    have hkept' := kept_step E cfg hkept (now, r)
    simp only [Backend.operate, Backend.step]
    rw [hreply]
    refine ⟨rfl, ⟨hmirrors, ?_, rfl, ?_⟩⟩
    · rw [Backend.runRaising_memory]
      exact hkept'
    · rw [Backend.runRaising_memory]
      exact hpublished.mono hprefix
  | publish backend answer submittedAt =>
    have hcalls := headToPublish_alike hkept (fitsColumn_le hlength (Nat.le_succ _)) hclock
    obtain ⟨hreply, hmirrors⟩ := hcalls.agree hstores
    obtain ⟨head, m', hrun, hkept', hlog, hover⟩ := headToPublish_run hstores hkept now
    rw [Backend.runRaising_memory, hrun] at hreply hmirrors
    cases hrun' : (headToPublish E now).runRaising (Backend.sqlite.Raises E) (Backend.sqlite.exec E) s with
    | mk head' s' =>
      rw [hrun'] at hreply hmirrors
      obtain rfl : head' = .ok head := hreply
      simp only [Backend.operate]
      rw [Backend.runRaising_memory, hrun, hrun']
      cases head with
      | none => exact ⟨rfl, hmirrors, hkept', rfl, by rwa [← hlog] at hpublished⟩
      | some sth =>
        have hsth := hover sth rfl
        have hsame := publish_agree (fitsColumn_le hlength (hsth.1.trans (Nat.le_succ _))) hfits halike backend
          submittedAt receipts'
        simp only [Except.mapError]
        rw [hsame]
        refine ⟨rfl, hmirrors, hkept', rfl, ?_⟩
        simp only
        rw [hlog]
        exact hpublished.publish hsth Backend.memory backend answer submittedAt

end Operations

end CapsuleAnchor
