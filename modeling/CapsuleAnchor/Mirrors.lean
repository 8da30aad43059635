import CapsuleAnchor.Reads
import CapsuleAnchor.Receipts
import CapsuleAnchor.Simulation
import CapsuleAnchor.Tables

/-!
# The dicts and the tables side by side

`Mirrors m s`: the tables of SQLite hold what the dicts hold.  A method that is `Alike` is answered alike by both, is not
refused, and keeps them so (`Mirrors.exec`).  Most methods are alike whenever the integers they are handed fit their
columns.  The others are those that the two stores implement differently: two heads of one size are ordered by exact times
in the dicts and by times in microseconds, computed in floating point, in the table (`HeadsAlike`); receipts are pruned by
comparing times in the dicts and texts in the tables (`TimesAlike`); and the rows of a subject are listed as they were put
in the dicts and by entry hash in the table (`SubjectLast`).
-/

namespace CapsuleAnchor

variable (E : Env)

/-! ### The relation -/

/-- The row of a head. -/
def sthRow (sth : SignedTreeHead) : SthRow := ⟨sth, sth.treeSize, E.tsEpochUs sth.timestamp⟩

theorem map_sth_sthRow (sth : Option SignedTreeHead) : (sth.map (sthRow E)).map SthRow.sth = sth := by
  cases sth <;> rfl

/-- The rows of a subject, as they were put. -/
def MemoryStore.subjectRows (m : MemoryStore) (subject : String) : List (Digest × Option String × Option String) :=
  (m.subjectIndex.lookup subject).getD []

structure Mirrors (m : MemoryStore) (s : SqlStore) : Prop where
  log : s.logEntries = m.log
  indexed : Indexed m.log
  roots : s.countersignedRoots = m.roots
  capsuleIds : s.logCapsuleBindings = m.capsuleIds
  statements : s.submittedStatements = m.statements
  subjects : ∀ x, s.subjectRows x = m.subjectRows x
  sorted : ∀ x, (m.subjectRows x).Pairwise fun a b => a.1.hex < b.1.hex
  tips : s.checkpointWitnesses = m.checkpointWitnesses
  records : s.checkpointRecords = m.checkpointRecords
  equivocations : ∀ logId, (s.checkpointEquivocations.filter (·.1 = logId)).map Prod.snd =
    (m.checkpointEquivocations.lookup logId).getD []
  latest : s.signedTreeHeads = m.latestSth.map (sthRow E)
  latestKey : m.latestSthKey = m.latestSth.map fun sth => (sth.treeSize, sth.timestamp)
  head : ∀ sth, m.latestSth = some sth → HeadAt E m.log sth.treeSize sth
  history : ∀ n, s.signedTreeHeadHistory.lookup n = (m.sthHistory.lookup n).map (sthRow E)

theorem mirrors_empty : Mirrors E {} {} where
  log := rfl
  indexed := indexed_nil
  roots := rfl
  capsuleIds := rfl
  statements := rfl
  subjects := fun _ => rfl
  sorted := fun _ => List.Pairwise.nil
  tips := rfl
  records := rfl
  equivocations := fun _ => rfl
  latest := rfl
  latestKey := rfl
  head := nofun
  history := fun _ => rfl

/-! ### The methods that are answered alike -/

/-- The entry hash comes after those of the subject's rows, or is one of them. -/
def SubjectLast (m : MemoryStore) (subject : String) (entryHash : Digest) : Prop :=
  (∃ row ∈ m.subjectRows subject, row.1 = entryHash) ∨ ∀ row ∈ m.subjectRows subject, row.1.hex < entryHash.hex

/-- A head of the same size is later by its exact time if and only if it is by its time in microseconds. -/
def HeadsAlike (m : MemoryStore) (sth : SignedTreeHead) : Prop :=
  ∀ latest, m.latestSth = some latest → latest.treeSize = sth.treeSize →
    (latest.timestamp < sth.timestamp ↔ E.tsEpochUs latest.timestamp < E.tsEpochUs sth.timestamp)

/-- The entries of the cached receipts are older than the cutoff if and only if their times are smaller as texts. -/
def TimesAlike (m : MemoryStore) (cutoff : Datetime) : Prop :=
  ∀ k row, m.statements.lookup k = some row → ∀ entry, MemoryStore.listItem m.log row.2.1 = some entry →
    (entry.loggedAt < cutoff ↔ entry.loggedAt.isoformat < cutoff.isoformat)

/-- The receipt's entry is in the log. -/
def InLog (log : List TransparencyLogEntry) (leafIndex : Int) : Prop := ∃ i : Nat, i < log.length ∧ leafIndex = i

def Call.Alike (m : MemoryStore) : Call → Prop
  | .appendEntry entry => entry.logIndex = m.log.length ∧ FitsColumn m.log.length
  | .entriesAfter afterIndex => FitsColumn afterIndex
  | .putRoot root => FitsColumn root.seqRange.1 ∧ FitsColumn root.seqRange.2
  | .putCapsuleId logIndex _ => FitsColumn logIndex
  | .putStatement entryHash _ leafIndex treeSize =>
    m.statements.lookup entryHash = none ∧ FitsColumn leafIndex ∧ FitsColumn treeSize
  | .pruneStatementsOlderThan cutoff =>
    (∀ k row, m.statements.lookup k = some row → InLog m.log row.2.1) ∧ TimesAlike m cutoff
  | .putSubjectIndex subject entryHash _ _ => SubjectLast m subject entryHash
  | .putCheckpointWitness _ witness => FitsColumn witness.mmrSize
  | .putCheckpointRecord _ mmrSize record =>
    FitsColumn mmrSize ∧ FitsColumn record.prevSize ∧ FitsColumn record.leafIndex ∧ FitsColumn record.treeSize
  | .getCheckpointRecord _ mmrSize => FitsColumn mmrSize
  | .putSth sth => HeadAt E m.log sth.treeSize sth ∧ FitsColumn sth.treeSize ∧ FitsColumn (E.tsEpochUs sth.timestamp) ∧
    HeadsAlike E m sth
  | .getSthAt treeSize => FitsColumn treeSize
  | _ => True

/-! ### Rows -/

section Rows

variable {K V : Type} [DecidableEq K]

theorem rowsOf_insertNew (d : Dict K V) (k : K) (v : V) :
    rowsOf (insertNew d k v) = if (d.lookup k).isSome then rowsOf d else rowsOf d ++ [(k, v)] := by
  unfold insertNew
  cases hold : d.lookup k with
  | some old => rfl
  | none =>
    have hk : k ∉ d := AList.lookup_eq_none.1 hold
    simp [rowsOf, List.kerase_of_notMem_keys hk]

end Rows

theorem mem_subjectRows {s : SqlStore} {x : String} {row : Digest × Option String × Option String} :
    row ∈ s.subjectRows x ↔ s.subjectIndex.lookup (x, row.1) = some row.2 := by
  rw [← mem_rowsOf, SqlStore.subjectRows, List.mem_filterMap]
  constructor
  · rintro ⟨⟨⟨y, k⟩, v⟩, hmem, heq⟩
    by_cases hy : y = x
    · subst hy
      simp only [if_true, Option.some.injEq] at heq
      subst heq
      exact hmem
    · simp [hy] at heq
  · intro h
    exact ⟨_, h, by simp⟩

/-- A new row of a table comes last. -/
theorem SqlStore.subjectRows_put (s : SqlStore) (x y : String) (k : Digest) (v : Option String × Option String) :
    SqlStore.subjectRows { s with subjectIndex := insertNew s.subjectIndex (x, k) v } y =
      s.subjectRows y ++ if y = x ∧ ∀ row ∈ s.subjectRows x, row.1 ≠ k then [(k, v)] else [] := by
  have hnew : s.subjectIndex.lookup (x, k) = none ↔ ∀ row ∈ s.subjectRows x, row.1 ≠ k := by
    rw [← Option.not_isSome_iff_eq_none, Option.isSome_iff_exists]
    constructor
    · rintro hnone row hrow rfl
      exact hnone ⟨row.2, mem_subjectRows.1 hrow⟩
    · rintro hne ⟨v, hv⟩
      exact hne (k, v) (mem_subjectRows.2 hv) rfl
  have hrows : SqlStore.subjectRows { s with subjectIndex := insertNew s.subjectIndex (x, k) v } y =
      s.subjectRows y ++ if y = x ∧ s.subjectIndex.lookup (x, k) = none then [(k, v)] else [] := by
    unfold SqlStore.subjectRows
    rw [rowsOf_insertNew]
    cases hold : s.subjectIndex.lookup (x, k) with
    | some old => simp
    | none =>
      by_cases hy : y = x
      · subst hy
        simp
      · have hne : x ≠ y := fun heq => hy heq.symm
        simp [hy, hne]
  simp only [hrows, hnew]

/-- A new row of a dict comes last. -/
theorem MemoryStore.subjectRows_put (m : MemoryStore) (x y : String) (row : Digest × Option String × Option String) :
    (m.putSubjectIndex x row).subjectRows y =
      m.subjectRows y ++ if y = x ∧ ∀ r ∈ m.subjectRows x, r.1 ≠ row.1 then [row] else [] := by
  have hknown : ((m.subjectIndex.lookup x).getD []).any (·.1 == row.1) = false ↔ ∀ r ∈ m.subjectRows x, r.1 ≠ row.1 := by
    rw [List.any_eq_false]
    simp [MemoryStore.subjectRows]
  simp only [← hknown]
  unfold MemoryStore.subjectRows MemoryStore.putSubjectIndex
  by_cases hy : y = x
  · subst hy
    cases hany : ((m.subjectIndex.lookup y).getD []).any (·.1 == row.1) <;> simp [hany]
  · simp [hy, AList.lookup_insert_ne]

/-! ### The methods -/

section Methods

variable {E} {m : MemoryStore} {s : SqlStore} (h : Mirrors E m s)
include h

/-- What a method of the dicts that writes to no table leaves. -/
theorem Mirrors.of_counter (w : Dict String Nat) : Mirrors E { m with consistencyProofWouldRefuse := w } s :=
  ⟨h.log, h.indexed, h.roots, h.capsuleIds, h.statements, h.subjects, h.sorted, h.tips, h.records, h.equivocations,
    h.latest, h.latestKey, h.head, h.history⟩

theorem Mirrors.byLogIndex (k : Int) : SqlStore.byLogIndex (s.logEntries.filter fun e => k ≤ e.logIndex) =
    m.log.filter fun e => k ≤ e.logIndex := by
  rw [h.log]
  apply List.mergeSort_of_pairwise
  refine List.Pairwise.filter _ ?_
  rw [List.pairwise_iff_getElem]
  intro i j hi hj hlt
  have hleft := h.indexed i m.log[i] (List.getElem?_eq_getElem hi)
  have hright := h.indexed j m.log[j] (List.getElem?_eq_getElem hj)
  simp only [hleft, hright, decide_eq_true_eq]
  omega

theorem Mirrors.appendEntry {entry : TransparencyLogEntry} (hindex : entry.logIndex = m.log.length) :
    SqlStore.exec E (.appendEntry entry) s = (.ok (), { s with logEntries := s.logEntries ++ [entry] }) ∧
      Mirrors E { m with log := m.log ++ [entry] } { s with logEntries := s.logEntries ++ [entry] } := by
  constructor
  · rcases exec_appendEntry E entry s with ⟨-, e, he, htaken⟩ | ⟨hok, -⟩
    · rw [h.log] at he
      obtain ⟨i, hi⟩ := List.mem_iff_getElem?.1 he
      have hlt := (List.getElem?_eq_some_iff.1 hi).1
      rw [h.indexed i e hi] at htaken
      omega
    · exact hok
  · refine { h with log := ?_, indexed := h.indexed.append hindex, head := ?_ }
    · rw [← h.log]
    · exact fun sth hsth => headAt_mono E (List.prefix_append _ _) (h.head sth hsth)

theorem Mirrors.putStatement {k : Digest} (row : CoseReceipt × Int × Nat) (hnew : m.statements.lookup k = none) :
    Mirrors E { m with statements := m.statements.insert k row }
      { s with submittedStatements := insertNew s.submittedStatements k row } := by
  refine { h with statements := ?_ }
  simp only [insertNew, h.statements, hnew]

theorem Mirrors.putSubjectIndex {x : String} {k : Digest} (payloadDigest payloadForm : Option String)
    (hlast : SubjectLast m x k) : Mirrors E (m.putSubjectIndex x (k, payloadDigest, payloadForm))
      { s with subjectIndex := insertNew s.subjectIndex (x, k) (payloadDigest, payloadForm) } := by
  refine { h with subjects := ?_, sorted := ?_ }
  · intro y
    rw [SqlStore.subjectRows_put, MemoryStore.subjectRows_put, h.subjects, h.subjects]
  · intro y
    rw [MemoryStore.subjectRows_put]
    split
    · rename_i hnew
      obtain ⟨rfl, hnew⟩ := hnew
      refine List.pairwise_append.2 ⟨h.sorted y, List.pairwise_singleton _ _, ?_⟩
      intro row hrow _ hrow'
      obtain rfl := List.mem_singleton.1 hrow'
      rcases hlast with ⟨row', hmem, rfl⟩ | hlast
      · exact absurd rfl (hnew row' hmem)
      · exact hlast row hrow
    · rw [List.append_nil]
      exact h.sorted y

theorem Mirrors.putCheckpointWitness (logId : String) (witness : CheckpointWitness) :
    Mirrors E { m with checkpointWitnesses := m.checkpointWitnesses.insert logId witness }
      { s with checkpointWitnesses := s.checkpointWitnesses.insert logId witness } :=
  { h with tips := by rw [h.tips] }

theorem Mirrors.putRoot (root : CountersignedRoot) :
    Mirrors E { m with roots := m.roots.insert (root.tenantId, root.rootHash) root } (SqliteStore.putRoot s root) :=
  { h with roots := by rw [← h.roots]; rfl }

theorem Mirrors.putCapsuleId (logIndex : Int) (capsuleId : String) :
    Mirrors E { m with capsuleIds := m.capsuleIds.insert logIndex capsuleId }
      { s with logCapsuleBindings := s.logCapsuleBindings.insert logIndex capsuleId } :=
  { h with capsuleIds := by rw [h.capsuleIds] }

theorem Mirrors.putCheckpointRecord (logId : String) (n : Nat) (record : CheckpointRecord) :
    (m.putCheckpointRecord logId n record).1 = (s.putCheckpointRecord logId n record).1 ∧
      Mirrors E (m.putCheckpointRecord logId n record).2 (s.putCheckpointRecord logId n record).2 := by
  have hlookup : s.checkpointRecords.lookup (logId, n) = m.checkpointRecords.lookup (logId, n) := by rw [h.records]
  unfold MemoryStore.putCheckpointRecord SqlStore.putCheckpointRecord
  rw [hlookup]
  cases hold : m.checkpointRecords.lookup (logId, n) with
  | none => exact ⟨rfl, { h with records := by rw [h.records] }⟩
  | some existing =>
    by_cases hroot : existing.root = record.root
    · simp only [if_pos hroot]
      exact ⟨trivial, h⟩
    · simp only [if_neg hroot]
      refine ⟨trivial, { h with equivocations := ?_ }⟩
      intro y
      by_cases hy : y = logId
      · subst hy
        simp [List.filter_append, h.equivocations]
      · have hfilter : logId ≠ y := fun heq => hy heq.symm
        simp [List.filter_append, h.equivocations, hfilter, AList.lookup_insert_ne hy]

theorem Mirrors.putSth {sth : SignedTreeHead} (hhead : HeadAt E m.log sth.treeSize sth) (halike : HeadsAlike E m sth) :
    Mirrors E (m.putSth sth) (s.putSth (sthRow E sth)) := by
  have hhistory : ∀ n, (insertNew s.signedTreeHeadHistory sth.treeSize (sthRow E sth)).lookup n =
      ((insertNew m.sthHistory sth.treeSize sth).lookup n).map (sthRow E) := by
    intro n
    rw [lookup_insertNew, lookup_insertNew, h.history, h.history]
    split
    · cases m.sthHistory.lookup sth.treeSize <;> rfl
    · rfl
  have hkey := h.latestKey
  have hrow := h.latest
  simp only [MemoryStore.putSth, SqlStore.putSth]
  rw [hrow, hkey]
  cases hlatest : m.latestSth with
  | none =>
    refine { h with latest := rfl, latestKey := rfl, head := ?_, history := hhistory }
    rintro _ ⟨⟩
    exact hhead
  | some latest =>
    -- the row advances if and only if the key does
    have hadvances : SqlStore.advances (sthRow E sth) (sthRow E latest) ↔
        ¬ MemoryStore.keyLE (sth.treeSize, sth.timestamp) (latest.treeSize, latest.timestamp) := by
      have hsame := halike latest hlatest
      simp only [SqlStore.advances, MemoryStore.keyLE, sthRow]
      by_cases hsize : latest.treeSize = sth.treeSize
      · have horder : latest.timestamp < sth.timestamp ↔ ¬ sth.timestamp ≤ latest.timestamp := Int.not_le.symm
        rw [← hsame hsize, horder, hsize]
        simp
      · have hsize' : sth.treeSize ≠ latest.treeSize := fun heq => hsize heq.symm
        simp only [hsize', false_and, or_false]
        omega
    by_cases hkeyle : MemoryStore.keyLE (sth.treeSize, sth.timestamp) (latest.treeSize, latest.timestamp)
    · simp only [Option.map_some, hadvances, Option.mem_some_iff, exists_eq_left', hkeyle, if_true, not_true,
        if_false]
      refine { h with latest := rfl, latestKey := rfl, head := ?_, history := hhistory }
      exact fun sth' hsth' => h.head sth' (hlatest.trans hsth')
    · simp only [Option.map_some, hadvances, Option.mem_some_iff, exists_eq_left', hkeyle, if_false, not_false_iff,
        if_true]
      refine { h with latest := rfl, latestKey := rfl, head := ?_, history := hhistory }
      rintro _ ⟨⟩
      exact hhead

omit h in
/-- A filter whose every answer is known. -/
theorem filterMapM_ok {α β ε : Type} {g : α → Except ε (Option β)} {f : α → Option β} :
    ∀ {xs : List α}, (∀ x ∈ xs, g x = .ok (f x)) → xs.filterMapM g = .ok (xs.filterMap f)
  | [], _ => rfl
  | x :: xs, hg => by
    rw [List.filterMapM_cons, hg x List.mem_cons_self, filterMapM_ok fun y hy => hg y (List.mem_cons_of_mem _ hy)]
    cases hf : f x <;> simp [hf] <;> rfl

theorem Mirrors.prune {cutoff : Datetime} (hleaves : ∀ k row, m.statements.lookup k = some row → InLog m.log row.2.1)
    (htimes : TimesAlike m cutoff) :
    (m.pruneStatementsOlderThan cutoff).1 = .ok (SqliteStore.pruneStatementsOlderThan s cutoff).1 ∧
      Mirrors E (m.pruneStatementsOlderThan cutoff).2 (SqliteStore.pruneStatementsOlderThan s cutoff).2 := by
  let old : (Sigma fun _ : Digest => CoseReceipt × Int × Nat) → Bool := fun row => s.logEntries.any fun e =>
    decide (e.loggedAt.isoformat < cutoff.isoformat) && e.logIndex == row.2.2.1
  have hstale : m.stale cutoff = .ok ((m.statements.entries.filter old).map fun row => row.1) := by
    rw [MemoryStore.stale, filterMapM_ok (f := fun row => if old row then some row.1 else none)]
    · rw [← List.filterMap_eq_map', List.filterMap_filter]
    · intro row hrow
      have hlookup : m.statements.lookup row.1 = some row.2 := AList.mem_lookup_iff.2 hrow
      obtain ⟨i, hi, hindex⟩ := hleaves row.1 row.2 hlookup
      have hitem : MemoryStore.listItem m.log row.2.2.1 = some m.log[i] := by
        rw [hindex, MemoryStore.listItem, if_pos (by omega), Int.toNat_natCast, List.getElem?_eq_getElem hi]
      have hold : (old row = true) ↔ m.log[i].loggedAt < cutoff := by
        rw [htimes row.1 row.2 hlookup _ hitem, List.any_eq_true, h.log]
        constructor
        · rintro ⟨e, he, hboth⟩
          obtain ⟨j, hj⟩ := List.mem_iff_getElem?.1 he
          rw [Bool.and_eq_true, decide_eq_true_eq, beq_iff_eq, h.indexed j e hj, hindex] at hboth
          obtain rfl : j = i := by omega
          rw [List.getElem?_eq_getElem hi] at hj
          obtain rfl := Option.some.inj hj
          exact hboth.1
        · intro hlt
          refine ⟨m.log[i], List.getElem_mem hi, ?_⟩
          rw [h.indexed i _ (List.getElem?_eq_getElem hi), hindex]
          simpa using hlt
      rw [hitem]
      simp only [hold]
  simp only [MemoryStore.pruneStatementsOlderThan, hstale, SqliteStore.pruneStatementsOlderThan, h.statements]
  refine ⟨by simp [old], { h with statements := ?_ }⟩
  rw [List.foldl_map]

/-- A method that is alike is not refused, is answered alike and keeps the two stores so. -/
theorem Mirrors.exec {c : Call} (hc : c.Alike E m) :
    ¬ SqliteStore.Raises E c s ∧ (SqliteStore.exec E c s).1 = (MemoryStore.exec c m).1 ∧
      Mirrors E (MemoryStore.exec c m).2 (SqliteStore.exec E c s).2 := by
  have hfits : ∀ {p : Prop}, p → ¬ (¬ p ∨ False) := fun hp hor => hor.elim (fun hn => hn hp) id
  have hfree : ¬ (False ∨ False) := fun hor => hor.elim id id
  cases c with
  | appendEntry entry =>
    obtain ⟨hindex, hcolumn⟩ := hc
    obtain ⟨hok, hkept⟩ := h.appendEntry hindex
    refine ⟨hfits (by rwa [hindex]), ?_, ?_⟩
    · exact congrArg Prod.fst hok
    · rw [show SqliteStore.exec E (.appendEntry entry) s = _ from hok]
      exact hkept
  | allEntries =>
    have hsorted := byLogIndex_of_indexed h.indexed
    rw [← h.log] at hsorted
    exact ⟨hfree, hsorted.trans h.log, h⟩
  | entriesAfter k => exact ⟨fun hor => hor.elim id fun hn => hn hc, h.byLogIndex k, h⟩
  | size => exact ⟨hfree, congrArg List.length h.log, h⟩
  | putRoot root => exact ⟨hfits hc, rfl, h.putRoot root⟩
  | putCapsuleId logIndex capsuleId => exact ⟨hfits hc, rfl, h.putCapsuleId logIndex capsuleId⟩
  | putStatement k receipt leafIndex treeSize => exact ⟨hfits hc.2, rfl, h.putStatement _ hc.1⟩
  | getStatement k => exact ⟨hfree, congrArg (AList.lookup k) h.statements, h⟩
  | pruneStatementsOlderThan cutoff =>
    obtain ⟨hanswer, hkept⟩ := h.prune hc.1 hc.2
    exact ⟨hfree, hanswer.symm, hkept⟩
  | putSubjectIndex x k payloadDigest payloadForm => exact ⟨hfree, rfl, h.putSubjectIndex _ _ hc⟩
  | putCheckpointWitness logId witness => exact ⟨hfits hc, rfl, h.putCheckpointWitness logId witness⟩
  | getCheckpointWitness logId => exact ⟨hfree, congrArg (AList.lookup logId) h.tips, h⟩
  | putCheckpointRecord logId n record =>
    obtain ⟨hanswer, hkept⟩ := h.putCheckpointRecord logId n record
    exact ⟨hfits ⟨hc.1, fun _ => hc.2⟩, hanswer.symm, hkept⟩
  | getCheckpointRecord logId n =>
    exact ⟨fun hor => hor.elim id fun hn => hn hc, congrArg (AList.lookup (logId, n)) h.records, h⟩
  | putSth sth => exact ⟨hfits ⟨hc.2.1, hc.2.2.1⟩, rfl, h.putSth hc.1 hc.2.2.2⟩
  | getLatestSth =>
    have hlatest := congrArg (Option.map SthRow.sth) h.latest
    rw [map_sth_sthRow] at hlatest
    exact ⟨hfree, hlatest, h⟩
  | getSthAt n =>
    have hold := congrArg (Option.map SthRow.sth) (h.history n)
    rw [map_sth_sthRow] at hold
    exact ⟨fun hor => hor.elim id fun hn => hn hc, hold, h⟩
  | countWouldRefuse logId => exact ⟨hfree, rfl, h.of_counter _⟩

end Methods

end CapsuleAnchor
