import CapsuleAnchor.Runs
import CapsuleAnchor.Service

/-!
# One call on one service

What each program does when it runs alone over a `MemoryStore` whose log is `Indexed`.  The programs for the log and
the tree head have one outcome, stated as an equation (`appendLog_run`, `signAndPersistSth_run`,
`appendStatement_run`).  A registration has three: refused, answered from the cache, new (`RegisterStep`,
`registerSignedStatementFull_run`); `Linkage` and `Continuity` say when the two checkpoint gates let it through.
-/

namespace CapsuleAnchor

variable (E : Env) (cfg : Config)

/-! ### Running a program over the memory store -/

section Run

variable {α β : Type} {s : MemoryStore}

theorem run_store (c : Call) :
    (store c).run MemoryStore.exec s = (.ok (MemoryStore.exec c s).1, (MemoryStore.exec c s).2) := rfl

theorem run_size : (store .size).run MemoryStore.exec s = (.ok s.log.length, s) := rfl

theorem run_allEntries : (store .allEntries).run MemoryStore.exec s = (.ok s.log, s) := rfl

theorem run_getStatement (k : Digest) :
    (store (.getStatement k)).run MemoryStore.exec s = (.ok (s.statements.lookup k), s) := rfl

theorem run_getCheckpointWitness (logId : String) :
    (store (.getCheckpointWitness logId)).run MemoryStore.exec s = (.ok (s.checkpointWitnesses.lookup logId), s) :=
  rfl

theorem run_getCheckpointRecord (logId : String) (mmrSize : Nat) :
    (store (.getCheckpointRecord logId mmrSize)).run MemoryStore.exec s =
      (.ok (s.checkpointRecords.lookup (logId, mmrSize)), s) := rfl

theorem run_getLatestSth : (store .getLatestSth).run MemoryStore.exec s = (.ok s.latestSth, s) := rfl

theorem run_optionally_none (f : α → ServiceM β) :
    (optionally none f).run MemoryStore.exec s = (.ok none, s) := rfl

theorem run_optionally_some (a : α) (f : α → ServiceM β) :
    (optionally (some a) f).run MemoryStore.exec s =
      (((f a).run MemoryStore.exec s).1.map some, ((f a).run MemoryStore.exec s).2) := Prog.run_map _ _ _ _

end Run

/-! ### The log -/

/-- Every entry of a log is at its index. -/
def Indexed (log : List TransparencyLogEntry) : Prop :=
  ∀ (i : Nat) (e : TransparencyLogEntry), log[i]? = some e → e.logIndex = i

/-- The entry `_append_log` builds on top of a log. -/
def nextEntry (log : List TransparencyLogEntry) (kind : String) (signedPayload : Bytes)
    (loggedAt signedAt : Datetime) : TransparencyLogEntry :=
  let payloadHash := E.sha256 signedPayload
  let prevLogHash := headBefore E none log log.length
  { logIndex := log.length, loggedAt, kind, payloadHash, prevLogHash
    logSignature := attest E (treeHeadPayload log.length payloadHash prevLogHash) signedAt }

theorem Indexed.nonneg {log : List TransparencyLogEntry} (h : Indexed log) {e : TransparencyLogEntry}
    (he : e ∈ log) : 0 ≤ e.logIndex := by
  obtain ⟨i, hi⟩ := List.mem_iff_getElem?.1 he
  rw [h i e hi]
  exact Int.natCast_nonneg i

theorem indexed_nil : Indexed [] := by
  intro i e he
  simp at he

theorem Indexed.append {log : List TransparencyLogEntry} (h : Indexed log) {e : TransparencyLogEntry}
    (he : e.logIndex = log.length) : Indexed (log ++ [e]) := by
  intro i x hx
  rcases Nat.lt_trichotomy i log.length with hi | rfl | hi
  · rw [List.getElem?_append_left hi] at hx
    exact h i x hx
  · obtain rfl : e = x := by simpa using hx
    exact he
  · rw [List.getElem?_eq_none (by simp; omega)] at hx
    cases hx

theorem Indexed.entriesAfter {log : List TransparencyLogEntry} (h : Indexed log) :
    (log.filter fun e => (0 : Int) ≤ e.logIndex) = log := by
  rw [List.filter_eq_self]
  intro e he
  exact decide_eq_true (h.nonneg he)

theorem transparencyLog_run {s : MemoryStore} (h : Indexed s.log) :
    (transparencyLog 0).run MemoryStore.exec s = (.ok s.log, s) := by
  rw [transparencyLog, run_store]
  simp only [MemoryStore.exec]
  rw [h.entriesAfter]

theorem prevLogHash_run (s : MemoryStore) : (prevLogHash E s.log.length).run MemoryStore.exec s =
    (.ok (headBefore E none s.log s.log.length), s) := by
  unfold prevLogHash
  rcases List.eq_nil_or_concat s.log with hl | ⟨l, e, hl⟩
  · simp [hl, headBefore]
  · rw [if_pos (by simp [hl]), Prog.run_map, headHash, Prog.run_bind_ok _ run_allEntries]
    simp [headBefore, hl, Except.map]

theorem appendLog_run (s : MemoryStore) (kind : String) (signedPayload : Bytes) (loggedAt signedAt : Datetime) :
    (appendLog E kind signedPayload loggedAt signedAt).run MemoryStore.exec s =
      (.ok (nextEntry E s.log kind signedPayload loggedAt signedAt),
        { s with log := s.log ++ [nextEntry E s.log kind signedPayload loggedAt signedAt] }) := by
  rw [appendLog, Prog.run_bind_ok _ run_size, Prog.run_bind_ok _ (prevLogHash_run E s)]
  rfl

/-! ### Tree heads -/

/-- The head signed over a log. -/
def headOver (log : List TransparencyLogEntry) (timestamp signedAt : Datetime) : SignedTreeHead :=
  signedTreeHead E log.length log timestamp signedAt

theorem rootHash_headOver (log : List TransparencyLogEntry) (timestamp signedAt : Datetime) :
    (headOver E log timestamp signedAt).rootHash = merkleTreeHash E.sha256 (ctLeaves E log) := by
  simp only [headOver, signedTreeHead]
  rw [List.take_of_length_le (by simp)]

theorem signAndPersistSth_run {s : MemoryStore} (h : Indexed s.log) (timestamp signedAt : Datetime) :
    (signAndPersistSth E timestamp signedAt).run MemoryStore.exec s =
      (.ok (headOver E s.log timestamp signedAt), s.putSth (headOver E s.log timestamp signedAt)) := by
  rw [signAndPersistSth, Prog.run_bind_ok _ run_size, Prog.run_bind_ok _ (transparencyLog_run h)]
  rfl

/-- `get_sth` returns the stored head or signs a new one. -/
theorem getSth_run {s : MemoryStore} (h : Indexed s.log) (now : Nat → Datetime) :
    (∃ sth, s.latestSth = some sth ∧ s.log.length ≤ sth.treeSize ∧
      (getSth E now).run MemoryStore.exec s = (.ok sth, s)) ∨
    (getSth E now).run MemoryStore.exec s =
      (.ok (headOver E s.log (now 0) (now 1)), s.putSth (headOver E s.log (now 0) (now 1))) := by
  rw [getSth, Prog.run_bind_ok _ run_getLatestSth]
  cases hl : s.latestSth with
  | none => exact .inr (signAndPersistSth_run E h _ _)
  | some sth =>
    simp only
    rw [Prog.run_bind_ok _ run_size]
    by_cases hsize : s.log.length ≤ sth.treeSize
    · left
      refine ⟨sth, rfl, hsize, ?_⟩
      rw [if_pos hsize]
      rfl
    · right
      rw [if_neg hsize]
      exact signAndPersistSth_run E h _ _

section PutSth

variable (s : MemoryStore) (sth : SignedTreeHead)

/-- Persisting a head touches nothing but the heads. -/
theorem putSth_eq : s.putSth sth =
    { s with sthHistory := insertNew s.sthHistory sth.treeSize sth, latestSth := (s.putSth sth).latestSth,
             latestSthKey := (s.putSth sth).latestSthKey } := by
  simp only [MemoryStore.putSth]
  split <;> rfl

@[simp] theorem log_putSth : (s.putSth sth).log = s.log := by rw [putSth_eq]

@[simp] theorem statements_putSth : (s.putSth sth).statements = s.statements := by rw [putSth_eq]

@[simp] theorem subjectIndex_putSth : (s.putSth sth).subjectIndex = s.subjectIndex := by rw [putSth_eq]

@[simp] theorem checkpointWitnesses_putSth : (s.putSth sth).checkpointWitnesses = s.checkpointWitnesses := by
  rw [putSth_eq]

@[simp] theorem checkpointRecords_putSth : (s.putSth sth).checkpointRecords = s.checkpointRecords := by
  rw [putSth_eq]

@[simp] theorem sthHistory_putSth :
    (s.putSth sth).sthHistory = insertNew s.sthHistory sth.treeSize sth := by rw [putSth_eq]

end PutSth

/-! ### The checkpoint gates -/

/-- When `_check_checkpoint_consistency` lets a checkpoint through, given the tip of its log. -/
inductive Linkage (f : CheckpointFields) : Option CheckpointWitness → WitnessStatus → Prop
  | firstSeen : Linkage f none .firstSeen
  | witnessed (prev : CheckpointWitness) (hchain : f.prevSize = prev.mmrSize) (hgrow : prev.mmrSize < f.mmrSize) :
    Linkage f (some prev) .witnessed

/-- When `_check_checkpoint_continuity` lets a checkpoint through, given the tip of its log. -/
inductive Continuity (cp : Checkpoint) : Option CheckpointWitness → ContinuityGrade → Prop
  | firstSeen : Continuity cp none .firstSeen
  | registered (prev : CheckpointWitness) (hproof : cp.consistencyProof.join = none)
    (hpolicy : cfg.consistencyProofPolicy = .enforce → consistencyProofPolicyApplies cp = false) :
    Continuity cp (some prev) .registered
  | witnessed (prev : CheckpointWitness) (proof : MmrConsistencyProof) (hproof : cp.consistencyProof = some (some proof))
    (hsize : cp.prevSize = prev.mmrSize) (hroot : cp.prevRoot = some prev.mmrRoot)
    (hverify : E.verifyConsistency prev.mmrRoot prev.mmrSize cp.root cp.mmrSize proof = true) :
    Continuity cp (some prev) .witnessed

/-- The same store, but for the would-refuse counter. -/
def SameStore (s s' : MemoryStore) : Prop := ∃ w, s' = { s with consistencyProofWouldRefuse := w }

theorem SameStore.refl (s : MemoryStore) : SameStore s s := ⟨_, rfl⟩

theorem SameStore.trans {a b c : MemoryStore} (h : SameStore a b) (h' : SameStore b c) : SameStore a c := by
  obtain ⟨w, rfl⟩ := h
  obtain ⟨w', rfl⟩ := h'
  exact ⟨w', rfl⟩

theorem SameStore.log {s s' : MemoryStore} (h : SameStore s s') : s'.log = s.log := by
  obtain ⟨w, rfl⟩ := h
  rfl

theorem SameStore.statements {s s' : MemoryStore} (h : SameStore s s') : s'.statements = s.statements := by
  obtain ⟨w, rfl⟩ := h
  rfl

private theorem refuseOrCount_run (s : MemoryStore) (logId : String) (prev : CheckpointWitness) (message : String) :
    SameStore s ((refuseOrCount cfg logId prev message).run MemoryStore.exec s).2 ∧
      (((refuseOrCount cfg logId prev message).run MemoryStore.exec s).1 = .ok () →
        cfg.consistencyProofPolicy ≠ .enforce) := by
  unfold refuseOrCount
  split
  · exact ⟨.refl s, nofun⟩
  · rename_i hne
    exact ⟨⟨_, rfl⟩, fun _ => hne⟩

private theorem applyLegacy_run (s : MemoryStore) (f : CheckpointFields) (prev : CheckpointWitness) :
    SameStore s ((applyConsistencyProofPolicyLegacy E cfg f prev).run MemoryStore.exec s).2 := by
  unfold applyConsistencyProofPolicyLegacy
  split
  · exact .refl s
  · exact (refuseOrCount_run cfg s _ _ _).1

private theorem applyPolicy_run (s : MemoryStore) (cp : Checkpoint) (prev : CheckpointWitness) :
    SameStore s ((applyConsistencyProofPolicy E cfg cp prev).run MemoryStore.exec s).2 ∧
      (((applyConsistencyProofPolicy E cfg cp prev).run MemoryStore.exec s).1 = .ok () →
        cfg.consistencyProofPolicy = .enforce → consistencyProofPolicyApplies cp = false) := by
  unfold applyConsistencyProofPolicy
  split
  · rename_i hoff
    exact ⟨.refl s, fun _ he => by simp [hoff] at he⟩
  · split
    · rename_i happ
      exact ⟨.refl s, fun _ _ => by simpa using happ⟩
    · simp only
      split
      · obtain ⟨h1, h2⟩ := refuseOrCount_run cfg s cp.logId prev _
        exact ⟨h1, fun hok he => absurd he (h2 hok)⟩
      · obtain ⟨h1, h2⟩ := refuseOrCount_run cfg s cp.logId prev _
        exact ⟨h1, fun hok he => absurd he (h2 hok)⟩

theorem checkCheckpointConsistency_run (s : MemoryStore) (f : CheckpointFields) :
    SameStore s ((checkCheckpointConsistency E cfg f).run MemoryStore.exec s).2 ∧
      ∀ status, ((checkCheckpointConsistency E cfg f).run MemoryStore.exec s).1 = .ok status →
        Linkage f (s.checkpointWitnesses.lookup f.logId) status := by
  rw [checkCheckpointConsistency, Prog.run_bind_ok _ (run_getCheckpointWitness f.logId)]
  cases hprev : s.checkpointWitnesses.lookup f.logId with
  | none =>
    refine ⟨.refl s, ?_⟩
    rintro _ ⟨⟩
    exact .firstSeen
  | some prev =>
    have hsame := applyLegacy_run E cfg s f prev
    simp only
    rw [Prog.run_bind]
    cases hrun : (applyConsistencyProofPolicyLegacy E cfg f prev).run MemoryStore.exec s with
    | mk r s' =>
      rw [hrun] at hsame
      cases r with
      | error e => exact ⟨hsame, nofun⟩
      | ok _ =>
        simp only
        split
        · exact ⟨hsame, nofun⟩
        · rename_i hok
          refine ⟨hsame, ?_⟩
          rintro _ ⟨⟩
          rw [not_or, not_not, not_le] at hok
          exact .witnessed prev hok.1 hok.2

theorem checkCheckpointContinuity_run (s : MemoryStore) (cp : Checkpoint) :
    SameStore s ((checkCheckpointContinuity E cfg cp).run MemoryStore.exec s).2 ∧
      ∀ grade, ((checkCheckpointContinuity E cfg cp).run MemoryStore.exec s).1 = .ok grade →
        Continuity E cfg cp (s.checkpointWitnesses.lookup cp.logId) grade := by
  rw [checkCheckpointContinuity, Prog.run_bind_ok _ (run_getCheckpointWitness cp.logId)]
  cases hprev : s.checkpointWitnesses.lookup cp.logId with
  | none =>
    refine ⟨.refl s, ?_⟩
    rintro _ ⟨⟩
    exact .firstSeen
  | some prev =>
    simp only
    cases hproof : cp.consistencyProof.join with
    | none =>
      obtain ⟨hsame, hpolicy⟩ := applyPolicy_run E cfg s cp prev
      simp only
      rw [Prog.run_bind]
      cases hrun : (applyConsistencyProofPolicy E cfg cp prev).run MemoryStore.exec s with
      | mk r s' =>
        rw [hrun] at hsame hpolicy
        cases r with
        | error e => exact ⟨hsame, nofun⟩
        | ok _ =>
          refine ⟨hsame, ?_⟩
          rintro _ ⟨⟩
          exact .registered prev hproof (hpolicy rfl)
    | some proof =>
      simp only
      split
      · exact ⟨.refl s, nofun⟩
      · rename_i hmatch
        split
        · exact ⟨.refl s, nofun⟩
        · rename_i hverify
          refine ⟨.refl s, ?_⟩
          rintro _ ⟨⟩
          rw [not_or, not_not, not_not] at hmatch
          exact .witnessed prev proof (Option.join_eq_some_iff.1 hproof) hmatch.1 hmatch.2 (by simpa using hverify)

private theorem refuseOrCount_ok (hpolicy : cfg.consistencyProofPolicy ≠ .enforce) (s : MemoryStore) (logId : String)
    (prev : CheckpointWitness) (message : String) :
    ∃ s', (refuseOrCount cfg logId prev message).run MemoryStore.exec s = (.ok (), s') := by
  rw [refuseOrCount, if_neg hpolicy]
  exact ⟨_, rfl⟩

/-- The gate lets through what extends the tip, except under `enforce`. -/
theorem checkCheckpointConsistency_ok {s : MemoryStore} {f : CheckpointFields} {status : WitnessStatus}
    (hlink : Linkage f (s.checkpointWitnesses.lookup f.logId) status)
    (hpolicy : cfg.consistencyProofPolicy = .enforce → s.checkpointWitnesses.lookup f.logId = none) :
    ((checkCheckpointConsistency E cfg f).run MemoryStore.exec s).1 = .ok status := by
  rw [checkCheckpointConsistency, Prog.run_bind_ok _ (run_getCheckpointWitness f.logId)]
  cases hprev : s.checkpointWitnesses.lookup f.logId with
  | none =>
    rw [hprev] at hlink
    cases hlink
    rfl
  | some prev =>
    rw [hprev] at hlink
    cases hlink with
    | witnessed _ hchain hgrow =>
      have hne : cfg.consistencyProofPolicy ≠ .enforce := by
        intro henforce
        rw [hprev] at hpolicy
        cases hpolicy henforce
      obtain ⟨s', hrun⟩ : ∃ s', (applyConsistencyProofPolicyLegacy E cfg f prev).run MemoryStore.exec s = (.ok (), s') := by
        unfold applyConsistencyProofPolicyLegacy
        split
        · exact ⟨s, rfl⟩
        · exact refuseOrCount_ok cfg hne s _ _ _
      have hextends : ¬ (f.prevSize ≠ prev.mmrSize ∨ f.mmrSize ≤ prev.mmrSize) := by omega
      simp only
      rw [Prog.run_bind_ok _ hrun, if_neg hextends]
      rfl

/-- Under `enforce` the gate lets only a first checkpoint through. -/
theorem checkCheckpointConsistency_policy {s : MemoryStore} {f : CheckpointFields} {status : WitnessStatus}
    (h : ((checkCheckpointConsistency E cfg f).run MemoryStore.exec s).1 = .ok status)
    (henforce : cfg.consistencyProofPolicy = .enforce) : s.checkpointWitnesses.lookup f.logId = none := by
  rw [checkCheckpointConsistency, Prog.run_bind_ok _ (run_getCheckpointWitness f.logId)] at h
  cases hprev : s.checkpointWitnesses.lookup f.logId with
  | none => rfl
  | some prev =>
    have hthrow : ∃ e, (applyConsistencyProofPolicyLegacy E cfg f prev).run MemoryStore.exec s = (.error e, s) := by
      rw [applyConsistencyProofPolicyLegacy, if_neg (by simp [henforce]), refuseOrCount, if_pos henforce]
      exact ⟨_, rfl⟩
    obtain ⟨e, hrun⟩ := hthrow
    simp only [hprev] at h
    rw [Prog.run_bind_error _ hrun] at h
    cases h

/-- The gate lets through what `Continuity` says it does. -/
theorem checkCheckpointContinuity_ok {s : MemoryStore} {cp : Checkpoint} {grade : ContinuityGrade}
    (hcont : Continuity E cfg cp (s.checkpointWitnesses.lookup cp.logId) grade) :
    ((checkCheckpointContinuity E cfg cp).run MemoryStore.exec s).1 = .ok grade := by
  rw [checkCheckpointContinuity, Prog.run_bind_ok _ (run_getCheckpointWitness cp.logId)]
  cases hprev : s.checkpointWitnesses.lookup cp.logId with
  | none =>
    rw [hprev] at hcont
    cases hcont
    rfl
  | some prev =>
    rw [hprev] at hcont
    cases hcont with
    | registered _ hproof hpolicy =>
      obtain ⟨s', hrun⟩ : ∃ s', (applyConsistencyProofPolicy E cfg cp prev).run MemoryStore.exec s = (.ok (), s') := by
        unfold applyConsistencyProofPolicy
        split
        · exact ⟨s, rfl⟩
        · split
          · exact ⟨s, rfl⟩
          · rename_i happlies
            have hne : cfg.consistencyProofPolicy ≠ .enforce := fun henforce => happlies (by simp [hpolicy henforce])
            simp only
            split <;> exact refuseOrCount_ok cfg hne s _ _ _
      simp only [hproof]
      rw [Prog.run_bind_ok _ hrun]
      rfl
    | witnessed _ proof hproof hsize hroot hverify =>
      have hjoin : cp.consistencyProof.join = some proof := by simp [hproof]
      simp [hjoin, hsize, hroot, hverify]

end CapsuleAnchor
