import CapsuleAnchor.Backends
import CapsuleAnchor.Footprint
import CapsuleAnchor.Registration

/-!
# One call over the tables

What each program does when it runs alone over a SQL store whose log is `Indexed`: the counterpart of `Sequential` and
`Registration`.  An insert may be refused, so a program ends where the first one is.

The lemmas hold for SQLite and for Postgres, and for tables that never refuse (`OverTables`).
-/

namespace CapsuleAnchor

variable (E : Env) (cfg : Config)

/-! ### The tables of an indexed log -/

theorem byLogIndex_of_indexed {log : List TransparencyLogEntry} (h : Indexed log) : SqlStore.byLogIndex log = log := by
  apply List.mergeSort_of_pairwise
  rw [List.pairwise_iff_getElem]
  intro i j hi hj hlt
  have hleft := h i log[i] (List.getElem?_eq_getElem hi)
  have hright := h j log[j] (List.getElem?_eq_getElem hj)
  simp only [hleft, hright, decide_eq_true_eq]
  omega

theorem exec_allEntries {s : SqlStore} (h : Indexed s.logEntries) : SqlStore.exec E .allEntries s = (s.logEntries, s) := by
  simp only [SqlStore.exec, byLogIndex_of_indexed h]

theorem exec_entriesAfter {s : SqlStore} (h : Indexed s.logEntries) :
    SqlStore.exec E (.entriesAfter 0) s = (s.logEntries, s) := by
  simp only [SqlStore.exec, h.entriesAfter, byLogIndex_of_indexed h]

/-- An insert at an index that is taken fails; one that succeeds extends the log. -/
theorem exec_appendEntry (entry : TransparencyLogEntry) (s : SqlStore) :
    (SqlStore.exec E (.appendEntry entry) s = (.error .integrityError, s) ∧ ∃ e ∈ s.logEntries, e.logIndex = entry.logIndex) ∨
    (SqlStore.exec E (.appendEntry entry) s = (.ok (), { s with logEntries := s.logEntries ++ [entry] }) ∧
      ∀ e ∈ s.logEntries, e.logIndex ≠ entry.logIndex) := by
  cases htaken : s.logEntries.any (·.logIndex == entry.logIndex) with
  | true =>
    left
    refine ⟨by simp only [SqlStore.exec, htaken, if_true], ?_⟩
    simpa using htaken
  | false =>
    right
    refine ⟨by simp only [SqlStore.exec, htaken]; rfl, ?_⟩
    simpa using htaken

/-- The dicts that hold what the tables hold. -/
def SqlStore.dicts (s : SqlStore) : MemoryStore :=
  { log := s.logEntries, statements := s.submittedStatements, checkpointWitnesses := s.checkpointWitnesses
    checkpointRecords := s.checkpointRecords }

/-- The calls of a registration do to the tables what `SqlStore.exec` says, and nothing is refused that SQLite accepts. -/
structure OverTables (raises : Call → SqlStore → Prop) (exec : (c : Call) → SqlStore → c.Ans × SqlStore) : Prop where
  exec_eq : ∀ c, c.registers = true → exec c = SqlStore.exec E c
  raises_of : ∀ c s, raises c s → SqliteStore.Raises E c s

theorem overTables_sqlite : OverTables E (SqliteStore.Raises E) (SqliteStore.exec E) where
  exec_eq := by
    intro c hc
    cases c with
    | putRoot root => cases hc
    | pruneStatementsOlderThan cutoff => cases hc
    | _ => rfl
  raises_of := fun _ _ h => h

theorem overTables_postgres : OverTables E (fun c s => s.Overflows E c) (PostgresStore.exec E) where
  exec_eq := by
    intro c _
    rw [PostgresStore.exec_eq]
  raises_of := fun _ _ h => .inl h

theorem overTables_never : OverTables E (fun _ _ => False) (SqlStore.exec E) where
  exec_eq := fun _ _ => rfl
  raises_of := fun _ _ h => h.elim

section Run

variable {E cfg} {raises : Call → SqlStore → Prop} [∀ c s, Decidable (raises c s)]
  {exec : (c : Call) → SqlStore → c.Ans × SqlStore} (h : OverTables E raises exec) {s : SqlStore}
include h

theorem OverTables.run {c : Call} (hc : c.registers = true) (s : SqlStore) : (store c).runRaising raises exec s =
    if raises c s then (.error none, s) else (.ok (SqlStore.exec E c s).1, (SqlStore.exec E c s).2) := by
  by_cases hraises : raises c s
  · rw [if_pos hraises]
    exact Prog.runRaising_perform_raised hraises
  · rw [if_neg hraises, ← h.exec_eq c hc]
    exact Prog.runRaising_perform hraises

theorem OverTables.run_fits {c : Call} (hc : c.registers = true) (hfits : ¬ SqliteStore.Raises E c s) :
    (store c).runRaising raises exec s = (.ok (SqlStore.exec E c s).1, (SqlStore.exec E c s).2) := by
  rw [h.run hc, if_neg (fun hraises => hfits (h.raises_of c s hraises))]

theorem OverTables.run_size : (store .size).runRaising raises exec s = (.ok s.logEntries.length, s) :=
  h.run_fits rfl (by rintro (h | h) <;> exact h)

theorem OverTables.run_allEntries (hs : Indexed s.logEntries) :
    (store .allEntries).runRaising raises exec s = (.ok s.logEntries, s) := by
  rw [h.run_fits rfl (by rintro (h | h) <;> exact h), exec_allEntries E hs]

theorem OverTables.run_transparencyLog (hs : Indexed s.logEntries) :
    (transparencyLog 0).runRaising raises exec s = (.ok s.logEntries, s) := by
  rw [transparencyLog, h.run_fits rfl ?_, exec_entriesAfter E hs]
  rintro (h | h)
  · exact h
  · exact h ⟨by decide, by decide⟩

theorem OverTables.run_getStatement (k : Digest) :
    (store (.getStatement k)).runRaising raises exec s = (.ok (s.submittedStatements.lookup k), s) :=
  h.run_fits rfl (by rintro (h | h) <;> exact h)

theorem OverTables.run_getCheckpointWitness (logId : String) :
    (store (.getCheckpointWitness logId)).runRaising raises exec s = (.ok (s.checkpointWitnesses.lookup logId), s) :=
  h.run_fits rfl (by rintro (h | h) <;> exact h)

theorem OverTables.run_countWouldRefuse (logId : String) :
    (store (.countWouldRefuse logId)).runRaising raises exec s = (.ok (), s) :=
  h.run_fits rfl (by rintro (h | h) <;> exact h)

theorem OverTables.run_getLatestSth :
    (store .getLatestSth).runRaising raises exec s = (.ok (s.signedTreeHeads.map SthRow.sth), s) :=
  h.run_fits rfl (by rintro (h | h) <;> exact h)

/-! ### The log and the tree head -/

theorem OverTables.run_appendLog (hs : Indexed s.logEntries) (kind : String) (signedPayload : Bytes)
    (loggedAt signedAt : Datetime) :
    let entry := nextEntry E s.logEntries kind signedPayload loggedAt signedAt
    (appendLog E kind signedPayload loggedAt signedAt).runRaising raises exec s =
      if raises (.appendEntry entry) s then (.error none, s)
      else (.ok entry, { s with logEntries := s.logEntries ++ [entry] }) := by
  intro entry
  have hprev : (prevLogHash E s.logEntries.length).runRaising raises exec s =
      (.ok (headBefore E none s.logEntries s.logEntries.length), s) := by
    unfold prevLogHash
    rcases List.eq_nil_or_concat s.logEntries with hl | ⟨l, e, hl⟩
    · simp [hl, headBefore]
    · rw [if_pos (by simp [hl]), Prog.runRaising_map, headHash, Prog.runRaising_bind_ok (h.run_allEntries hs)]
      simp [headBefore, hl, Except.map]
  -- the index is free, since the entries are at theirs
  have hexec : SqlStore.exec E (.appendEntry entry) s = (.ok (), { s with logEntries := s.logEntries ++ [entry] }) := by
    rcases exec_appendEntry E entry s with ⟨-, e, he, hindex⟩ | ⟨hok, -⟩
    · obtain ⟨i, hi⟩ := List.mem_iff_getElem?.1 he
      have hlt := (List.getElem?_eq_some_iff.1 hi).1
      rw [hs i e hi] at hindex
      have hentry : entry.logIndex = s.logEntries.length := rfl
      omega
    · exact hok
  rw [appendLog, Prog.runRaising_bind_ok h.run_size, Prog.runRaising_bind_ok hprev]
  simp only [orRaise]
  change ((store (.appendEntry entry) >>= Prog.ofExcept) >>= fun _ => pure entry).runRaising raises exec s = _
  by_cases hraises : raises (.appendEntry entry) s
  · rw [if_pos hraises]
    exact Prog.runRaising_bind_error (Prog.runRaising_bind_error (Prog.runRaising_perform_raised hraises))
  · have hrun := h.run (c := .appendEntry entry) rfl s
    rw [if_neg hraises, hexec] at hrun
    rw [if_neg hraises]
    rw [Prog.runRaising_bind_ok ((Prog.runRaising_bind_ok hrun).trans (Prog.runRaising_ofExcept _ _))]
    rfl

theorem OverTables.run_signAndPersistSth (hs : Indexed s.logEntries) (timestamp signedAt : Datetime) :
    let sth := headOver E s.logEntries timestamp signedAt
    (signAndPersistSth E timestamp signedAt).runRaising raises exec s =
      if raises (.putSth sth) s then (.error none, s)
      else (.ok sth, s.putSth ⟨sth, sth.treeSize, E.tsEpochUs sth.timestamp⟩) := by
  intro sth
  rw [signAndPersistSth, Prog.runRaising_bind_ok h.run_size, Prog.runRaising_bind_ok (h.run_transparencyLog hs)]
  change (store (.putSth sth) >>= fun _ => pure sth).runRaising raises exec s = _
  by_cases hraises : raises (.putSth sth) s
  · rw [if_pos hraises]
    exact Prog.runRaising_bind_error (Prog.runRaising_perform_raised hraises)
  · have hrun := h.run (c := .putSth sth) rfl s
    rw [if_neg hraises] at hrun
    rw [if_neg hraises, Prog.runRaising_bind_ok hrun]
    rfl

/-! ### The lookup and the gates -/

theorem OverTables.run_lookupStatement (sub : Submission) :
    (lookupStatement sub).runRaising raises exec s = (.ok (cachedStatement s.dicts sub), s) := by
  rw [lookupStatement, Prog.runRaising_bind_ok (h.run_getStatement _), cachedStatement]
  simp only [SqlStore.dicts]
  cases s.submittedStatements.lookup sub.entryHash with
  | some cached => rfl
  | none =>
    simp only
    split
    · rw [Prog.runRaising_bind_ok (h.run_getStatement _)]
      rfl
    · rfl

/-- A gate writes nothing, and answers as it does over dicts with the same tips. -/
theorem OverTables.run_gate {α : Type} {p : ServiceM α} (hp : p.Calls (fun c => c.gates = true)) {m : MemoryStore}
    (hm : m.checkpointWitnesses = s.checkpointWitnesses) :
    p.runRaising raises exec s = ((p.run MemoryStore.exec m).1.mapError some, s) := by
  induction p generalizing m with
  | pure a => rfl
  | throw e => rfl
  | call c k ih =>
    have hcall : ∃ x, (store c).runRaising raises exec s = (.ok x, s) ∧ (MemoryStore.exec c m).1 = x ∧
        (MemoryStore.exec c m).2.checkpointWitnesses = s.checkpointWitnesses := by
      cases c with
      | getCheckpointWitness logId =>
        exact ⟨_, h.run_getCheckpointWitness logId, congrArg (AList.lookup logId) hm, hm⟩
      | countWouldRefuse logId => exact ⟨_, h.run_countWouldRefuse logId, rfl, hm⟩
      | _ => cases hp.1
    obtain ⟨x, hrun, hanswer, htips⟩ := hcall
    have hbind : (Prog.call c k : ServiceM α) = store c >>= k := rfl
    rw [hbind, Prog.runRaising_bind_ok hrun, ih x (hp.2 x) htips, ← hanswer]
    rfl

/-! ### The parts of a registration -/

/-- The answer from the cache, unless the checkpoint's size is refused. -/
theorem OverTables.run_alreadyRegistered (sub : Submission) (cached : CoseReceipt × Int × Nat) (scheme : EntryHashScheme)
    (cp : Option Checkpoint) :
    (alreadyRegistered sub cached scheme cp).runRaising raises exec s =
      (.ok (cachedResult s.dicts sub cached scheme cp), s) ∨
    (∃ c, cp = some c ∧ raises (.getCheckpointRecord c.logId c.mmrSize) s ∧
      (alreadyRegistered sub cached scheme cp).runRaising raises exec s = (.error none, s)) := by
  unfold alreadyRegistered
  cases cp with
  | none => exact .inl rfl
  | some c =>
    have hrun := h.run (c := .getCheckpointRecord c.logId c.mmrSize) rfl s
    have hmap := Prog.runRaising_map raises exec some
      (store (.getCheckpointRecord c.logId c.mmrSize) : ServiceM _) s
    by_cases hraises : raises (.getCheckpointRecord c.logId c.mmrSize) s
    · rw [if_pos hraises] at hrun
      rw [hrun] at hmap
      exact .inr ⟨c, rfl, hraises, Prog.runRaising_bind_error hmap⟩
    · rw [if_neg hraises] at hrun
      rw [hrun] at hmap
      exact .inl (Prog.runRaising_bind_ok hmap)

/-- The entry at the end of an indexed log gets its receipt, and the receipt is cached unless its row is refused. -/
theorem OverTables.run_issueReceipt {log : List TransparencyLogEntry} (now : Nat → Datetime) (sub : Submission)
    (grade : Option String) (continuity : Option ContinuityAssertion) (hlog : Indexed log)
    (hs : s.logEntries = registeredLog E now sub log) :
    let row := issued E now sub grade continuity log
    (issueReceipt E now sub grade continuity (nextEntry E log logKindScitt sub.preimage (now 0) (now 1))).runRaising
        raises exec s =
      if raises (.putStatement sub.entryHash row.1 row.2.1 row.2.2) s then (.error none, s)
      else (.ok row, { s with submittedStatements := insertNew s.submittedStatements sub.entryHash row }) := by
  intro row
  have hlen : (ctLeaves E (registeredLog E now sub log)).length = log.length + 1 := by simp
  have hpath : inclusionAuditPath E.sha256 (log.length : Int) (ctLeaves E (registeredLog E now sub log)) =
      some (auditPath E.sha256 log.length (ctLeaves E (registeredLog E now sub log))) := by
    rw [inclusionAuditPath, if_pos (by omega), Int.toNat_natCast]
  have hread : (transparencyLog 0).runRaising raises exec s = (.ok (registeredLog E now sub log), s) := by
    rw [h.run_transparencyLog (by rw [hs]; exact hlog.registeredLog E now sub), hs]
  have hissue : (issueReceipt E now sub grade continuity
      (nextEntry E log logKindScitt sub.preimage (now 0) (now 1))).runRaising raises exec s =
      (store (.putStatement sub.entryHash row.1 row.2.1 row.2.2) >>= fun _ => pure row).runRaising raises exec s := by
    have hrow : row = (receiptOver E (registeredLog E now sub log) log.length (now 0) grade continuity, (log.length : Int),
        (ctLeaves E (registeredLog E now sub log)).length) := by
      rw [hlen]
      rfl
    clear_value row
    subst hrow
    rw [issueReceipt, Prog.runRaising_bind_ok hread]
    simp only [show inclusionAuditPath E.sha256 (nextEntry E log logKindScitt sub.preimage (now 0) (now 1)).logIndex _ =
      _ from hpath]
    rfl
  rw [hissue]
  have hrun := h.run (c := .putStatement sub.entryHash row.1 row.2.1 row.2.2) rfl s
  by_cases hraises : raises (.putStatement sub.entryHash row.1 row.2.1 row.2.2) s
  · rw [if_pos hraises] at hrun ⊢
    exact Prog.runRaising_bind_error hrun
  · rw [if_neg hraises] at hrun ⊢
    exact Prog.runRaising_bind_ok hrun

omit h in
/-- An optional write. -/
theorem run_optionally_write {α : Type} {f : α → ServiceM Unit} {c : α → Call}
    (hf : ∀ a, (f a).runRaising raises exec s =
      if raises (c a) s then (.error none, s) else (.ok (), (SqlStore.exec E (c a) s).2)) (x : Option α) :
    (∃ y s', (optionally x f).runRaising raises exec s = (.ok y, s') ∧
      ∀ a, x = some a → ¬ raises (c a) s ∧ s' = (SqlStore.exec E (c a) s).2) ∨
    ∃ a, x = some a ∧ raises (c a) s ∧ (optionally x f).runRaising raises exec s = (.error none, s) := by
  cases x with
  | none => exact .inl ⟨none, s, rfl, nofun⟩
  | some a =>
    have hmap := Prog.runRaising_map raises exec some (f a) s
    by_cases hraises : raises (c a) s
    · rw [hf a, if_pos hraises] at hmap
      exact .inr ⟨a, rfl, hraises, hmap⟩
    · rw [hf a, if_neg hraises] at hmap
      refine .inl ⟨_, _, hmap, ?_⟩
      rintro b ⟨⟩
      exact ⟨hraises, rfl⟩

end Run

end CapsuleAnchor
