import CapsuleAnchor.Contract
import CapsuleAnchor.Receipts
import CapsuleAnchor.Tables

/-!
# Instances over one SQL store

Any number of service instances share the tables; each runs one request at a time and every store method is atomic.
An instance reads the size, then the log, and inserts at that index, and the primary key refuses the insert if another
instance was faster.  So an insert that succeeds is the next entry of the log it extends (`next_of_appended`), and all
the instances together build one log.

`Sound` is the invariant: the log is indexed and its chain verifies, every cached row is proved by the log, every
tree head has the root of its prefix, and what any instance was ever answered still holds (`Noted`).
`instances_protect`: the tables answer as the programs count on, whatever the schedule.  From it follow
`log_integrity` and, for the tree heads, `tree_head_never_regresses`.
-/

namespace CapsuleAnchor

open Interleaving

variable (E : Env) (cfg : Config)

/-! ### The tables -/

/-- The stored head is the new one, or it stays because the new one does not advance it. -/
theorem putSth_cases (s : SqlStore) (row : SthRow) :
    (s.putSth row).signedTreeHeads = some row ∧ (∀ old, s.signedTreeHeads = some old → SqlStore.advances row old) ∨
    (s.putSth row).signedTreeHeads = s.signedTreeHeads := by
  unfold SqlStore.putSth
  cases hold : s.signedTreeHeads with
  | none => exact .inl ⟨rfl, nofun⟩
  | some old =>
    by_cases hadvances : SqlStore.advances row old
    · left
      simp only [if_pos hadvances, true_and]
      rintro _ ⟨⟩
      exact hadvances
    · right
      simp only [if_neg hadvances]

/-- Recording a checkpoint touches nothing but the records and the equivocations. -/
theorem putCheckpointRecord_eq (s : SqlStore) (logId : String) (mmrSize : Nat) (record : CheckpointRecord) :
    ∃ records events, (s.putCheckpointRecord logId mmrSize record).2 =
      { s with checkpointRecords := records, checkpointEquivocations := events } := by
  unfold SqlStore.putCheckpointRecord
  split
  · exact ⟨_, _, rfl⟩
  · split
    · exact ⟨_, _, rfl⟩
    · exact ⟨_, _, rfl⟩

/-- Rows are erased by their keys. -/
theorem foldl_erase_rows {K V : Type} [DecidableEq K] (rows : List (Σ _ : K, V)) (d : Dict K V) :
    rows.foldl (fun d row => d.erase row.1) d = (rows.map Sigma.fst).foldl (fun d k => d.erase k) d := by
  rw [List.foldl_map]

/-! ### What the answers say -/

/-- A call read the log when it had `n` entries. -/
def LeavesRead (history : CallTrail) (n : Nat) : Prop := ∃ es, ⟨.entriesAfter 0, es⟩ ∈ history ∧ es.length = n

/-- A row of the statement cache: the log proves it, and its tree is one that a call has read. -/
def Attested (log : List TransparencyLogEntry) (history : CallTrail) (k : Digest) (row : CoseReceipt × Int × Nat) :
    Prop := Proven E log k row ∧ LeavesRead history row.2.2

/-- What the log says of a call and its answer, for good. -/
def Noted (log : List TransparencyLogEntry) (history : CallTrail) : (Σ c : Call, c.Ans) → Prop
  | ⟨.size, n⟩ => n ≤ log.length
  | ⟨.allEntries, es⟩ => es <+: log
  | ⟨.entriesAfter _, es⟩ => es <+: log
  | ⟨.appendEntry entry, .ok _⟩ => ∃ i : Nat, entry.logIndex = i ∧ log[i]? = some entry
  | ⟨.putStatement k receipt leafIndex treeSize, _⟩ => Attested E log history k (receipt, leafIndex, treeSize)
  | ⟨.getStatement k, some row⟩ => Attested E log history k row
  | ⟨.putSth sth, _⟩ => HeadAt E log sth.treeSize sth
  | ⟨.getLatestSth, some sth⟩ => HeadAt E log sth.treeSize sth
  | ⟨.getSthAt n, some sth⟩ => HeadAt E log n sth
  | _ => True

theorem LeavesRead.mono {history history' : CallTrail} (h : history ⊆ history') {n : Nat} (hn : LeavesRead history n) :
    LeavesRead history' n := by
  obtain ⟨es, hes, hlen⟩ := hn
  exact ⟨es, h hes, hlen⟩

theorem Attested.mono {log log' : List TransparencyLogEntry} {history history' : CallTrail} (hlog : log <+: log')
    (hhistory : history ⊆ history') {k : Digest} {row : CoseReceipt × Int × Nat} (h : Attested E log history k row) :
    Attested E log' history' k row :=
  ⟨h.1.mono E hlog, h.2.mono hhistory⟩

theorem Noted.mono {log log' : List TransparencyLogEntry} {history history' : CallTrail} (hlog : log <+: log')
    (hhistory : history ⊆ history') {e : Σ c : Call, c.Ans} (h : Noted E log history e) : Noted E log' history' e := by
  obtain ⟨c, x⟩ := e
  cases c with
  | size => exact Nat.le_trans h hlog.length_le
  | allEntries => exact List.IsPrefix.trans h hlog
  | entriesAfter i => exact List.IsPrefix.trans h hlog
  | appendEntry entry =>
    cases x with
    | error e => trivial
    | ok _ =>
      obtain ⟨i, hi, hentry⟩ := h
      exact ⟨i, hi, getElem?_of_prefix hlog hentry⟩
  | putStatement k receipt leafIndex treeSize => exact Attested.mono E hlog hhistory h
  | getStatement k =>
    cases x with
    | none => trivial
    | some row => exact Attested.mono E hlog hhistory h
  | putSth sth => exact headAt_mono E hlog h
  | getLatestSth =>
    cases x with
    | none => trivial
    | some sth => exact headAt_mono E hlog h
  | getSthAt n =>
    cases x with
    | none => trivial
    | some sth => exact headAt_mono E hlog h
  | _ => trivial

/-- The row that a request hands to the cache is proved by the log. -/
theorem attested_of_covers {log : List TransparencyLogEntry} {history t : CallTrail}
    (hnoted : ∀ e ∈ history, Noted E log history e) (htrail : t ⊆ history) {row : CachedRow} (hcovers : Covers E t row) :
    Attested E log history row.1 row.2 := by
  obtain ⟨entry, es, i, loggedAt, grade, continuity, -, hkind, hhash, hread, -, hentry, hrow⟩ := hcovers
  have hpre : es <+: log := hnoted _ (htrail hread)
  have hproven := proven_receiptOver E hentry hkind loggedAt grade continuity
  rw [hhash, ← hrow] at hproven
  refine ⟨hproven.mono E hpre, es, htrail hread, ?_⟩
  rw [hrow]

/-- The head that a request signs has the root of its prefix. -/
theorem headAt_of_headed {log : List TransparencyLogEntry} {history t : CallTrail}
    (hnoted : ∀ e ∈ history, Noted E log history e) (htrail : t ⊆ history) {sth : SignedTreeHead}
    (hheaded : Headed E t sth) : HeadAt E log sth.treeSize sth := by
  obtain ⟨n, es, timestamp, signedAt, -, hread, hn, rfl⟩ := hheaded
  have hpre : es <+: log := hnoted _ (htrail hread)
  refine headAt_mono E hpre ⟨hn, rfl, ?_⟩
  simp [signedTreeHead, rootAt, ctLeaves, List.map_take]

/-- An entry that was appended is at its index. -/
theorem appended_noted {log : List TransparencyLogEntry} {history t : CallTrail}
    (hnoted : ∀ e ∈ history, Noted E log history e) (htrail : t ⊆ history) :
    ∀ entry ∈ appended t, ∃ i : Nat, entry.logIndex = i ∧ log[i]? = some entry := by
  intro entry hentry
  obtain ⟨⟨c, x⟩, hmem, hsome⟩ := List.mem_filterMap.1 hentry
  -- only a successful append leaves an entry
  split at hsome
  · obtain rfl := Option.some.inj hsome
    rename_i heq
    have hnoted := hnoted _ (htrail hmem)
    rw [heq] at hnoted
    exact hnoted
  · cases hsome

/-! ### The invariant -/

/-- A row of the tree heads carries its size and its time. -/
structure HeadRow (log : List TransparencyLogEntry) (row : SthRow) : Prop where
  head : HeadAt E log row.treeSize row.sth
  tsEpochUs : row.tsEpochUs = E.tsEpochUs row.sth.timestamp

variable {ι : Type} [DecidableEq ι]

structure Sound (v : View ι Call.Ans SqlStore) : Prop where
  indexed : Indexed v.shared.logEntries
  verified : (∀ payload t, E.verify payload (attest E payload t) = true) → verifyLog E v.shared.logEntries = true
  cached : ∀ k row, v.shared.submittedStatements.lookup k = some row → Attested E v.shared.logEntries v.history k row
  heads : ∀ n row, v.shared.signedTreeHeadHistory.lookup n = some row → row.treeSize = n ∧ HeadRow E v.shared.logEntries row
  latest : ∀ row, v.shared.signedTreeHeads = some row → HeadRow E v.shared.logEntries row
  noted : ∀ e ∈ v.history, Noted E v.shared.logEntries v.history e

theorem HeadRow.mono {log log' : List TransparencyLogEntry} (h : log <+: log') {row : SthRow} (hrow : HeadRow E log row) :
    HeadRow E log' row :=
  ⟨headAt_mono E h hrow.head, hrow.tsEpochUs⟩

omit [DecidableEq ι] in
theorem sound_empty : Sound E (⟨{}, fun _ => [], []⟩ : View ι Call.Ans SqlStore) where
  indexed := indexed_nil
  verified := fun _ => rfl
  cached := nofun
  heads := nofun
  latest := nofun
  noted := by
    intro e he
    cases he

/-- What a call adds to a sound view: its own answer is noted, and the tables it writes stay right. -/
theorem Sound.extend {v : View ι Call.Ans SqlStore} (h : Sound E v) {i : ι} {e : Σ c : Call, c.Ans} {s : SqlStore}
    (hlog : v.shared.logEntries <+: s.logEntries) (hindexed : Indexed s.logEntries)
    (hverified : (∀ payload t, E.verify payload (attest E payload t) = true) → verifyLog E s.logEntries = true)
    (hcached : ∀ k row, s.submittedStatements.lookup k = some row →
      v.shared.submittedStatements.lookup k = some row ∨ Attested E s.logEntries v.history k row)
    (hheads : ∀ n row, s.signedTreeHeadHistory.lookup n = some row →
      v.shared.signedTreeHeadHistory.lookup n = some row ∨ row.treeSize = n ∧ HeadRow E s.logEntries row)
    (hlatest : ∀ row, s.signedTreeHeads = some row → v.shared.signedTreeHeads = some row ∨ HeadRow E s.logEntries row)
    (hnoted : Noted E s.logEntries v.history e) : Sound E (v.extend i e s) := by
  have hhistory : v.history ⊆ v.history ++ [e] := fun _ he => List.mem_append_left _ he
  constructor
  · exact hindexed
  · exact hverified
  · intro k row hk
    rcases hcached k row hk with hold | hnew
    · exact (h.cached k row hold).mono E hlog hhistory
    · exact hnew.mono E List.prefix_rfl hhistory
  · intro n row hn
    rcases hheads n row hn with hold | hnew
    · exact ⟨(h.heads n row hold).1, (h.heads n row hold).2.mono E hlog⟩
    · exact hnew
  · intro row hrow
    rcases hlatest row hrow with hold | hnew
    · exact (h.latest row hold).mono E hlog
    · exact hnew
  · intro e' he'
    rcases List.mem_append.1 he' with hold | hnew
    · exact (h.noted e' hold).mono E hlog hhistory
    · obtain rfl := List.mem_singleton.1 hnew
      exact hnoted.mono E List.prefix_rfl hhistory

theorem Sound.clear {v : View ι Call.Ans SqlStore} (h : Sound E v) (i : ι) : Sound E (v.clear i) :=
  ⟨h.indexed, h.verified, h.cached, h.heads, h.latest, h.noted⟩

/-! ### One call -/

section Step

variable {v : View ι Call.Ans SqlStore} {t : CallTrail}

omit [DecidableEq ι] in
/-- An entry whose insert succeeds was built on the whole log. -/
theorem next_of_appended (h : Sound E v) (htrail : t ⊆ v.history) {entry : TransparencyLogEntry} (hbuilt : Built E t entry)
    (hfree : ∀ e ∈ v.shared.logEntries, e.logIndex ≠ entry.logIndex) :
    ∃ kind payload loggedAt signedAt, entry = nextEntry E v.shared.logEntries kind payload loggedAt signedAt := by
  obtain ⟨n, es, kind, payload, loggedAt, signedAt, hsize, hread, hindex, hnext⟩ := hbuilt
  have hle : n ≤ v.shared.logEntries.length := h.noted _ (htrail hsize)
  have hn : n = v.shared.logEntries.length := by
    by_contra hne
    have hlt : n < v.shared.logEntries.length := by omega
    have hget := List.getElem?_eq_getElem hlt
    refine hfree _ (List.getElem_mem hlt) ?_
    rw [h.indexed n _ hget, hindex]
  have hes : es = v.shared.logEntries := by
    rcases hread with ⟨hzero, rfl⟩ | ⟨hall, hlen⟩
    · have hnil : v.shared.logEntries.length = 0 := by omega
      exact (List.length_eq_zero_iff.1 hnil).symm
    · have hpre : es <+: v.shared.logEntries := h.noted _ (htrail hall)
      exact hpre.eq_of_length_le (by omega)
  refine ⟨kind, payload, loggedAt, signedAt, ?_⟩
  rw [← hes]
  exact hnext (by rw [hes, hn])

/-- The chain verifies past the next entry. -/
private theorem verifyLog_next {log : List TransparencyLogEntry}
    (hverify : ∀ payload t, E.verify payload (attest E payload t) = true) (h : verifyLog E log = true) (kind : String)
    (payload : Bytes) (loggedAt signedAt : Datetime) :
    verifyLog E (log ++ [nextEntry E log kind payload loggedAt signedAt]) = true := by
  refine verifyLog_append E h ⟨rfl, rfl, ?_⟩
  exact hverify _ _

private theorem sound_appendEntry (h : Sound E v) (htrail : t ⊆ v.history) (i : ι) {entry : TransparencyLogEntry}
    (hbuilt : Built E t entry) :
    Sound E (v.extend i ⟨.appendEntry entry, (SqlStore.exec E (.appendEntry entry) v.shared).1⟩
      (SqlStore.exec E (.appendEntry entry) v.shared).2) := by
  rcases exec_appendEntry E entry v.shared with ⟨hexec, -⟩ | ⟨hexec, hfree⟩
  · rw [hexec]
    exact h.extend E List.prefix_rfl h.indexed h.verified (fun _ _ hk => .inl hk) (fun _ _ hn => .inl hn)
      (fun _ hrow => .inl hrow) trivial
  · obtain ⟨kind, payload, loggedAt, signedAt, rfl⟩ := next_of_appended E h htrail hbuilt hfree
    rw [hexec]
    refine h.extend E (List.prefix_append _ _) (h.indexed.append rfl) ?_ (fun _ _ hk => .inl hk) (fun _ _ hn => .inl hn)
      (fun _ hrow => .inl hrow) ⟨v.shared.logEntries.length, rfl, by simp⟩
    intro hverify
    exact verifyLog_next E hverify (h.verified hverify) kind payload loggedAt signedAt

private theorem sound_putStatement (h : Sound E v) (htrail : t ⊆ v.history) (i : ι) {k : Digest} {receipt : CoseReceipt}
    {leafIndex : Int} {treeSize : Nat} (hcovers : Covers E t (k, receipt, leafIndex, treeSize)) :
    Sound E (v.extend i ⟨.putStatement k receipt leafIndex treeSize, ()⟩
      (SqlStore.exec E (.putStatement k receipt leafIndex treeSize) v.shared).2) := by
  have hrow := attested_of_covers E h.noted htrail hcovers
  refine h.extend E List.prefix_rfl h.indexed h.verified ?_ (fun _ _ hn => .inl hn) (fun _ hrow => .inl hrow) hrow
  intro k' row' hk'
  simp only [SqlStore.exec, lookup_insertNew] at hk'
  split at hk'
  · rename_i hkey
    subst hkey
    cases hold : v.shared.submittedStatements.lookup k' with
    | some old =>
      rw [hold] at hk'
      exact .inl hk'
    | none =>
      rw [hold] at hk'
      obtain rfl := Option.some.inj hk'
      exact .inr hrow
  · exact .inl hk'

private theorem sound_prune (h : Sound E v) (i : ι) (cutoff : Datetime) :
    Sound E (v.extend i ⟨.pruneStatementsOlderThan cutoff, (SqlStore.exec E (.pruneStatementsOlderThan cutoff) v.shared).1⟩
      (SqlStore.exec E (.pruneStatementsOlderThan cutoff) v.shared).2) := by
  refine h.extend E List.prefix_rfl h.indexed h.verified ?_ (fun _ _ hn => .inl hn) (fun _ hrow => .inl hrow) trivial
  intro k row hk
  simp only [SqlStore.exec, SqlStore.pruneStatementsOlderThan, foldl_erase_rows] at hk
  exact .inl (lookup_foldl_erase _ _ k row hk)

private theorem sound_putSth (h : Sound E v) (htrail : t ⊆ v.history) (i : ι) {sth : SignedTreeHead}
    (hheaded : Headed E t sth) :
    Sound E (v.extend i ⟨.putSth sth, ()⟩ (SqlStore.exec E (.putSth sth) v.shared).2) := by
  have hhead := headAt_of_headed E h.noted htrail hheaded
  have hrow : HeadRow E v.shared.logEntries ⟨sth, sth.treeSize, E.tsEpochUs sth.timestamp⟩ := ⟨hhead, rfl⟩
  refine h.extend E List.prefix_rfl h.indexed h.verified (fun _ _ hk => .inl hk) ?_ ?_ hhead
  · intro n row hn
    simp only [SqlStore.exec, SqlStore.putSth, lookup_insertNew] at hn
    split at hn
    · rename_i hkey
      subst hkey
      cases hold : v.shared.signedTreeHeadHistory.lookup sth.treeSize with
      | some old =>
        rw [hold] at hn
        exact .inl hn
      | none =>
        rw [hold] at hn
        obtain rfl := Option.some.inj hn
        exact .inr ⟨rfl, hrow⟩
    · exact .inl hn
  · intro row hlatest
    rcases putSth_cases v.shared ⟨sth, sth.treeSize, E.tsEpochUs sth.timestamp⟩ with ⟨hnew, -⟩ | hold
    · obtain rfl := Option.some.inj (hnew.symm.trans hlatest)
      exact .inr hrow
    · exact .inl (hold.symm.trans hlatest)

end Step
omit [DecidableEq ι] in
/-- The tables answer as the programs count on. -/
theorem counts_of_sound {v : View ι Call.Ans SqlStore} (h : Sound E v) {t : CallTrail} (htrail : t ⊆ v.history)
    {r : TimedRequest} {c : Call} (hmay : May E cfg r t c) : Counts t c (SqlStore.exec E c v.shared).1 := by
  have hsize : ∀ n, ⟨.size, n⟩ ∈ t → n ≤ v.shared.logEntries.length := fun n hn => h.noted _ (htrail hn)
  cases c with
  | allEntries =>
    rw [exec_allEntries E h.indexed]
    exact hsize
  | entriesAfter afterIndex =>
    obtain rfl : afterIndex = 0 := hmay
    rw [exec_entriesAfter E h.indexed]
    exact ⟨hsize, appended_noted E h.noted htrail⟩
  | _ => trivial

theorem instances_protect {starts : TimedRequest → Prop} {allowed : ι → Call → View ι Call.Ans SqlStore → Prop} :
    Protects (SqlStore.exec E) (serviceContract E cfg) (Answers E cfg) starts allowed (Sound E) where
  call := by
    intro v i r c h htrail _ hmay _
    refine ⟨counts_of_sound E cfg h htrail hmay, ?_⟩
    have hread : ∀ {x : c.Ans}, SqlStore.exec E c v.shared = (x, v.shared) → Noted E v.shared.logEntries v.history ⟨c, x⟩ →
        Sound E (v.extend i ⟨c, (SqlStore.exec E c v.shared).1⟩ (SqlStore.exec E c v.shared).2) := by
      intro x hexec hnoted
      rw [hexec]
      exact h.extend E List.prefix_rfl h.indexed h.verified (fun _ _ hk => .inl hk) (fun _ _ hn => .inl hn)
        (fun _ hrow => .inl hrow) hnoted
    have hwrite : Noted E v.shared.logEntries v.history ⟨c, (SqlStore.exec E c v.shared).1⟩ →
        (SqlStore.exec E c v.shared).2.logEntries = v.shared.logEntries →
        (SqlStore.exec E c v.shared).2.submittedStatements = v.shared.submittedStatements →
        (SqlStore.exec E c v.shared).2.signedTreeHeadHistory = v.shared.signedTreeHeadHistory →
        (SqlStore.exec E c v.shared).2.signedTreeHeads = v.shared.signedTreeHeads →
        Sound E (v.extend i ⟨c, (SqlStore.exec E c v.shared).1⟩ (SqlStore.exec E c v.shared).2) := by
      intro hnoted hlog hstatements hheads hlatest
      refine h.extend E (by simp only [hlog, List.prefix_rfl]) (by rw [hlog]; exact h.indexed) (by rw [hlog]; exact h.verified)
        (fun k row hk => .inl ?_) (fun n row hn => .inl ?_) (fun row hrow => .inl ?_) (by rwa [hlog])
      · rwa [hstatements] at hk
      · rwa [hheads] at hn
      · rwa [hlatest] at hrow
    cases c with
    | appendEntry entry => exact sound_appendEntry E h htrail i hmay.2.1
    | allEntries => exact hread (exec_allEntries E h.indexed) List.prefix_rfl
    | entriesAfter afterIndex =>
      obtain rfl : afterIndex = 0 := hmay
      exact hread (exec_entriesAfter E h.indexed) List.prefix_rfl
    | size => exact hread rfl (Nat.le_refl _)
    | putStatement k receipt leafIndex treeSize => exact sound_putStatement E h htrail i hmay.2.1
    | getStatement k =>
      refine hread rfl ?_
      cases hrow : v.shared.submittedStatements.lookup k with
      | none => trivial
      | some row => exact h.cached k row hrow
    | pruneStatementsOlderThan cutoff => exact sound_prune E h i cutoff
    | putSth sth => exact sound_putSth E h htrail i hmay
    | getLatestSth =>
      refine hread rfl ?_
      cases hrow : v.shared.signedTreeHeads with
      | none => trivial
      | some row =>
        have hhead := (h.latest row hrow).head
        rw [← hhead.2.1] at hhead
        exact hhead
    | getSthAt n =>
      refine hread rfl ?_
      cases hrow : v.shared.signedTreeHeadHistory.lookup n with
      | none => trivial
      | some row =>
        obtain ⟨rfl, hhead⟩ := h.heads n row hrow
        exact hhead.head
    | putCheckpointRecord logId mmrSize record =>
      obtain ⟨records, events, hrecord⟩ := putCheckpointRecord_eq v.shared logId mmrSize record
      apply hwrite trivial
      all_goals simp only [SqlStore.exec, hrecord]
    | _ => exact hwrite trivial rfl rfl rfl rfl
  finish := fun v i _ _ h _ _ => h.clear E i

/-! ### What a schedule does to the tables -/

/-- The log grows at its end, no head is lost or replaced, and the latest head only advances. -/
structure Grown (s s' : SqlStore) : Prop where
  log : s.logEntries <+: s'.logEntries
  heads : ∀ n row, s.signedTreeHeadHistory.lookup n = some row → s'.signedTreeHeadHistory.lookup n = some row
  latest : ∀ row, s.signedTreeHeads = some row →
    ∃ row', s'.signedTreeHeads = some row' ∧ (row' = row ∨ SqlStore.advances row' row)

theorem Grown.refl (s : SqlStore) : Grown s s := ⟨List.prefix_rfl, fun _ _ h => h, fun row h => ⟨row, h, .inl rfl⟩⟩

theorem advances_trans {a b c : SthRow} (h : SqlStore.advances b a) (h' : SqlStore.advances c b) :
    SqlStore.advances c a := by
  unfold SqlStore.advances at h h' ⊢
  omega

theorem Grown.trans {a b c : SqlStore} (h : Grown a b) (h' : Grown b c) : Grown a c := by
  refine ⟨h.log.trans h'.log, fun n row hn => h'.heads n row (h.heads n row hn), ?_⟩
  intro row hrow
  obtain ⟨row₁, hrow₁, hadv₁⟩ := h.latest row hrow
  obtain ⟨row₂, hrow₂, hadv₂⟩ := h'.latest row₁ hrow₁
  refine ⟨row₂, hrow₂, ?_⟩
  rcases hadv₁ with rfl | hadv₁
  · exact hadv₂
  · rcases hadv₂ with rfl | hadv₂
    · exact .inr hadv₁
    · exact .inr (advances_trans hadv₁ hadv₂)

theorem exec_grown (c : Call) (s : SqlStore) : Grown s (SqlStore.exec E c s).2 := by
  cases c with
  | appendEntry entry =>
    rcases exec_appendEntry E entry s with ⟨hexec, -⟩ | ⟨hexec, -⟩
    · rw [hexec]
      exact .refl s
    · rw [hexec]
      exact ⟨List.prefix_append _ _, fun _ _ h => h, fun row h => ⟨row, h, .inl rfl⟩⟩
  | putCheckpointRecord logId mmrSize record =>
    obtain ⟨records, events, hrecord⟩ := putCheckpointRecord_eq s logId mmrSize record
    simp only [SqlStore.exec, hrecord]
    exact ⟨List.prefix_rfl, fun _ _ h => h, fun row h => ⟨row, h, .inl rfl⟩⟩
  | putSth sth =>
    refine ⟨List.prefix_rfl, fun n row hn => lookup_insertNew_of_some hn, ?_⟩
    intro row hrow
    rcases putSth_cases s ⟨sth, sth.treeSize, E.tsEpochUs sth.timestamp⟩ with ⟨hnew, hadvances⟩ | hold
    · exact ⟨_, hnew, .inr (hadvances row hrow)⟩
    · exact ⟨row, hold.trans hrow, .inl rfl⟩
  | _ => exact ⟨List.prefix_rfl, fun _ _ h => h, fun row h => ⟨row, h, .inl rfl⟩⟩

/-- Instances, and the tables they share. -/
abbrev ServiceWorld (ι : Type) : Type := World ι Call.Ans ServiceError Reply TimedRequest SqlStore

/-- The instances after a schedule over empty tables. -/
abbrev instancesAfter (as : List (Action ι TimedRequest)) : ServiceWorld ι :=
  after (fun r => r.2.program E cfg r.1) (SqlStore.exec E) (World.idle {}) as

variable {E cfg}

theorem good_instancesAfter {starts : TimedRequest → Prop} {allowed : ι → Call → View ι Call.Ans SqlStore → Prop}
    {as : List (Action ι TimedRequest)}
    (hpermitted : Permitted (fun r => r.2.program E cfg r.1) (SqlStore.exec E) starts allowed
      (World.idle {} : ServiceWorld ι) as) :
    Good (serviceContract E cfg) (Answers E cfg) starts (Sound E) (instancesAfter E cfg as) :=
  invariant (instances_protect E cfg) (fun r _ => program_keeps E cfg r) (good_idle (sound_empty E)) hpermitted

variable (E cfg) in
/-- Every schedule is permitted when nothing is asked of it. -/
theorem good_any (as : List (Action ι TimedRequest)) :
    Good (serviceContract E cfg) (Answers E cfg) (fun _ => True) (Sound E) (instancesAfter E cfg as) := by
  have hpermitted : Permitted (fun r => r.2.program E cfg r.1) (SqlStore.exec E) (fun _ => True) (fun _ _ _ => True)
      (World.idle {} : ServiceWorld ι) as := permitted_any _ _ _ _
  exact good_instancesAfter hpermitted

variable (E cfg) in
theorem grown_after (as later : List (Action ι TimedRequest)) :
    Grown (instancesAfter E cfg as).view.shared (instancesAfter E cfg (as ++ later)).view.shared := by
  rw [instancesAfter, instancesAfter, after, after, Run.after_append]
  exact shared_after Grown.refl (fun h h' => h.trans h') (exec_grown E) _ later

/-! ### What a registration returned -/

/-- The row was handed to the cache by a call that came when it may. -/
theorem covers_of_filed {r : TimedRequest} {t : CallTrail} (h : Lawful (serviceContract E cfg) r t) {row : CachedRow}
    (hrow : row ∈ filed t) : ∃ u, u ⊆ t ∧ Covers E u row := by
  obtain ⟨⟨c, x⟩, hmem, hsome⟩ := List.mem_filterMap.1 hrow
  obtain ⟨pre, post, hsplit⟩ := List.append_of_mem hmem
  obtain ⟨hmay, -⟩ := h pre _ post hsplit
  refine ⟨pre, ?_, ?_⟩
  · rw [hsplit]
    exact fun e he => List.mem_append_left _ he
  · split at hsome
    · rename_i heq
      obtain ⟨rfl, -⟩ := Sigma.mk.inj heq
      obtain rfl := Option.some.inj hsome
      exact hmay.2.1
    · cases hsome

/-- A row that a request hands to the cache is over the log it read. -/
theorem leavesRead_of_filed {r : TimedRequest} {t : CallTrail} (h : Lawful (serviceContract E cfg) r t) {row : CachedRow}
    (hrow : row ∈ filed t) : LeavesRead t row.2.2.2 := by
  obtain ⟨u, hu, hcovers⟩ := covers_of_filed h hrow
  obtain ⟨entry, es, i, loggedAt, grade, continuity, -, -, -, hread, -, -, heq⟩ := hcovers
  refine ⟨es, hu hread, ?_⟩
  rw [heq]

omit [DecidableEq ι] in
/-- What a registration returns is proved by the log. -/
theorem attested_of_registered {w : ServiceWorld ι} {starts : TimedRequest → Prop}
    (hgood : Good (serviceContract E cfg) (Answers E cfg) starts (Sound E) w)
    {o : Outcome ι Call.Ans ServiceError Reply TimedRequest SqlStore} (ho : o ∈ w.outcomes)
    {result : StatementRegistration} (hresult : o.result = .ok (.registered result)) :
    Attested E w.view.shared.logEntries w.view.history result.entryHash result.row := by
  obtain ⟨-, htrail, hlawful, hended⟩ := hgood.ended o ho
  rw [hresult] at hended
  obtain ⟨sub, -, hregistered⟩ := hended.2.1
  rcases hregistered with ⟨k, hkey, -, hrow⟩ | ⟨hkey, hfiled⟩
  · rw [hkey]
    exact hgood.shared.noted _ (htrail hrow)
  · have hmem : (sub.entryHash, result.row) ∈ filed o.trail := by
      rw [hfiled]
      exact List.mem_singleton_self _
    obtain ⟨u, hu, hcovers⟩ := covers_of_filed hlawful hmem
    rw [hkey]
    exact attested_of_covers E hgood.shared.noted (List.Subset.trans hu htrail) hcovers

/-! ### Two instances with the same statement -/

/-- Two instances in the middle of their programs. -/
structure Midway (w : ServiceWorld Bool) (s : SqlStore) (p q : ServiceM Reply) : Prop where
  shared : w.view.shared = s
  first : ∃ r s₀, w.running false = some ⟨r, s₀, p⟩
  second : ∃ r s₀, w.running true = some ⟨r, s₀, q⟩

section Midway

variable {w : ServiceWorld Bool} {s : SqlStore} {p q : ServiceM Reply} {c : Call} {k : c.Ans → ServiceM Reply}

variable (E cfg) in
theorem midway_start (r r' : TimedRequest) :
    Midway (instancesAfter E cfg [.start false r, .start true r']) {} (r.2.program E cfg r.1) (r'.2.program E cfg r'.1) :=
  ⟨rfl, ⟨r, {}, rfl⟩, ⟨r', {}, rfl⟩⟩

theorem Midway.first_calls {as : List (Action Bool TimedRequest)} (h : Midway (instancesAfter E cfg as) s (.call c k) q) :
    Midway (instancesAfter E cfg (as ++ [.advance false])) (SqlStore.exec E c s).2 (k (SqlStore.exec E c s).1) q := by
  obtain ⟨hshared, ⟨r, s₀, hfirst⟩, ⟨r', s₀', hsecond⟩⟩ := h
  rw [instancesAfter, after, Run.after_append]
  obtain ⟨hs, hown, hother⟩ := advance_call (fun r : TimedRequest => r.2.program E cfg r.1) (SqlStore.exec E) hfirst
  rw [hshared] at hs hown
  exact ⟨hs, ⟨r, s₀, hown⟩, ⟨r', s₀', (hother true (by decide)).trans hsecond⟩⟩

theorem Midway.second_calls {as : List (Action Bool TimedRequest)} (h : Midway (instancesAfter E cfg as) s p (.call c k)) :
    Midway (instancesAfter E cfg (as ++ [.advance true])) (SqlStore.exec E c s).2 p (k (SqlStore.exec E c s).1) := by
  obtain ⟨hshared, ⟨r, s₀, hfirst⟩, ⟨r', s₀', hsecond⟩⟩ := h
  rw [instancesAfter, after, Run.after_append]
  obtain ⟨hs, hown, hother⟩ := advance_call (fun r : TimedRequest => r.2.program E cfg r.1) (SqlStore.exec E) hsecond
  rw [hshared] at hs hown
  exact ⟨hs, ⟨r, s₀, (hother false (by decide)).trans hfirst⟩, ⟨r', s₀', hown⟩⟩

end Midway

variable (E cfg) in
/-- The calls of a registration of bytes that are no COSE_Sign1, up to its insert. -/
theorem register_raw_calls {statementBytes : Bytes} (hdecode : decodeCoseSign1 E statementBytes = none)
    (hsize : statementBytes.length ≤ maxStatementBytes) (now : Nat → Datetime) : ∃ f g,
    (Request.register statementBytes).program E cfg now = .call (.getStatement (E.sha256 statementBytes)) f ∧
      f none = .call .size g ∧
      (∃ h, g 0 = .call (.appendEntry (nextEntry E [] logKindScitt statementBytes (now 0) (now 1))) h) ∧
      ∃ h, g 1 = .call .allEntries h ∧
        ∀ e, ∃ h', h [e] = .call (.appendEntry (nextEntry E [e] logKindScitt statementBytes (now 0) (now 1))) h' := by
  have hlookup : lookupStatement (rawSubmission E statementBytes) =
      .call (Call.getStatement (E.sha256 statementBytes)) fun row => .pure (row, .legacy) := by
    simp only [lookupStatement, rawSubmission, ne_eq, not_true_eq_false, if_false]
    refine congrArg (Prog.call (Call.getStatement (E.sha256 statementBytes))) ?_
    funext row
    cases row <;> rfl
  have hprogram : ∃ f, (Request.register statementBytes).program E cfg now =
      .call (Call.getStatement (E.sha256 statementBytes)) f ∧
      f none = Reply.registered <$> registerNew E cfg now (rawSubmission E statementBytes) none none := by
    rw [Request.program, registerSignedStatementFull, prepare_raw E cfg.payloadPolicy hdecode hsize, Prog.ofExcept,
      Prog.pure_bind', registerPrepared, hlookup]
    exact ⟨_, rfl, rfl⟩
  obtain ⟨f, hcall, hmissed⟩ := hprogram
  exact ⟨f, _, hcall, hmissed, ⟨_, rfl⟩, _, rfl, fun e => ⟨_, rfl⟩⟩

/-- Both instances look for the statement before one of them appends it. -/
def raceSchedule (r : TimedRequest) : List (Action Bool TimedRequest) :=
  [.start false r, .start true r, .advance false, .advance true, .advance true, .advance true, .advance false,
    .advance false, .advance false]

variable (E cfg) in
/-- Then both append it. -/
theorem race_appends {statementBytes : Bytes} (hdecode : decodeCoseSign1 E statementBytes = none)
    (hsize : statementBytes.length ≤ maxStatementBytes) (now : Nat → Datetime) :
    let entry := nextEntry E [] logKindScitt statementBytes (now 0) (now 1)
    (instancesAfter E cfg (raceSchedule (now, .register statementBytes))).view.shared.logEntries =
      [entry, nextEntry E [entry] logKindScitt statementBytes (now 0) (now 1)] := by
  intro entry
  obtain ⟨f, g, hprogram, hmiss, ⟨h, hempty⟩, h', hone, hnext⟩ :=
    register_raw_calls E cfg hdecode hsize now
  obtain ⟨h'', hsecond⟩ := hnext entry
  have hindexed : Indexed [entry] := indexed_nil.append rfl
  have hstart := midway_start E cfg (now, .register statementBytes) (now, .register statementBytes)
  rw [hprogram] at hstart
  -- both miss
  have hfound := hstart.first_calls.second_calls
  change Midway _ {} (f none) (f none) at hfound
  rw [hmiss] at hfound
  -- the second instance appends at index 0
  have hsized := hfound.second_calls
  change Midway _ {} _ (g 0) at hsized
  rw [hempty] at hsized
  have happended := hsized.second_calls
  change Midway _ { ({} : SqlStore) with logEntries := [entry] } _ _ at happended
  -- the first one reads that entry and appends at index 1
  have hread := happended.first_calls
  change Midway _ { ({} : SqlStore) with logEntries := [entry] } (g 1) _ at hread
  rw [hone] at hread
  have hbuilt := hread.first_calls
  rw [exec_allEntries E hindexed, hsecond] at hbuilt
  have hdone := hbuilt.first_calls
  exact congrArg SqlStore.logEntries hdone.shared

/-! ### The log -/

theorem ctRoot_run {s : SqlStore} (h : Indexed s.logEntries) {k : Nat} (hk : k ≤ s.logEntries.length) :
    (ctRoot E (some (k : Int))).run (SqlStore.exec E) s = (.ok (rootAt E s.logEntries k), s) := by
  have hread : (transparencyLog 0).run (SqlStore.exec E) s = (.ok s.logEntries, s) := by
    rw [transparencyLog, store, Prog.run_perform, exec_entriesAfter E h]
  rw [ctRoot, Prog.run_bind_ok _ hread]
  have hsize : ¬ ((k : Int) < 0 ∨ ((ctLeaves E s.logEntries).length : Int) < k) := by
    rw [length_ctLeaves]
    omega
  simp only [Option.getD_some, if_neg hsize, Int.toNat_natCast]
  simp [rootAt, ctLeaves, List.map_take]

variable (cfg) in
/-- Whatever instances do at the same time, they build one log whose chain verifies, and every receipt proves its
entry in it. -/
theorem log_integrity (hverify : ∀ payload t, E.verify payload (attest E payload t) = true)
    (as : List (Action ι TimedRequest)) :
    let w := instancesAfter E cfg as
    let log := w.view.shared.logEntries
    (Indexed log ∧ verifyLog E (SqlStore.exec E (.entriesAfter 0) w.view.shared).1 = true) ∧
    (∀ later, log <+: (instancesAfter E cfg (as ++ later)).view.shared.logEntries ∧
      ∀ k : Nat, k ≤ log.length →
        ((ctRoot E (some (k : Int))).run (SqlStore.exec E) w.view.shared).1 = .ok (rootAt E log k) ∧
        ((ctRoot E (some (k : Int))).run (SqlStore.exec E) (instancesAfter E cfg (as ++ later)).view.shared).1 =
          .ok (rootAt E log k)) ∧
    ∀ o ∈ w.outcomes, ∀ result, o.result = .ok (.registered result) →
      (∃ (i : Nat) (entry : TransparencyLogEntry), result.leafIndex = i ∧ log[i]? = some entry ∧ entry.kind = logKindScitt ∧
        entry.payloadHash = result.entryHash) ∧
      LeavesRead w.view.history result.treeSize ∧
      ((result.entryHash, result.row) ∈ filed o.trail → LeavesRead o.trail result.treeSize) ∧
      result.receipt.signature = E.sign (sigStructure E
        (receiptProtected E result.receipt.iat result.receipt.grade result.receipt.continuity)
        (rootAt E log result.treeSize).bytes) ∧
      verifyInclusion E (Issued.proof E log result.entryHash result.receipt result.leafIndex result.treeSize)
        (some (rootAt E log result.treeSize)) = true := by
  intro w log
  have hgood : Good (serviceContract E cfg) (Answers E cfg) (fun _ => True) (Sound E) w := good_any E cfg as
  have hindexed : Indexed log := hgood.shared.indexed
  refine ⟨⟨hindexed, ?_⟩, ?_, ?_⟩
  · rw [exec_entriesAfter E hindexed]
    exact hgood.shared.verified hverify
  · intro later
    have hpre := (grown_after E cfg as later).log
    refine ⟨hpre, ?_⟩
    intro k hk
    have hlater : Indexed (instancesAfter E cfg (as ++ later)).view.shared.logEntries := (good_any E cfg (as ++ later)).shared.indexed
    rw [ctRoot_run hindexed hk, ctRoot_run hlater (hk.trans hpre.length_le)]
    refine ⟨rfl, ?_⟩
    simp only [rootAt, take_of_prefix hpre hk]
    rfl
  · intro o ho result hresult
    obtain ⟨hproven, hread⟩ := attested_of_registered hgood ho hresult
    obtain ⟨i, hi, -, ⟨entry, hentry, hkind, hhash⟩, -⟩ := hproven.entry
    refine ⟨⟨i, entry, hi, hentry, hkind, hhash⟩, hread, ?_, hproven.signature, hproven.verifyInclusion E⟩
    intro hfiled
    exact leavesRead_of_filed (hgood.ended o ho).2.2.1 hfiled

/-- Two instances that append the same statement: the chain over both entries verifies. -/
theorem log_integrity_sample :
    let E := refEnv [] [] fun _ _ _ _ _ => true
    let w := instancesAfter E {} (raceSchedule (fun i => ⟨i, 0⟩, .register [24]))
    w.view.shared.logEntries.length = 2 ∧ Indexed w.view.shared.logEntries ∧
      verifyLog E (SqlStore.exec E (.entriesAfter 0) w.view.shared).1 = true := by
  intro E w
  have hverify : ∀ payload t, E.verify payload (attest E payload t) = true := fun _ _ => beq_self_eq_true _
  have hlog := race_appends E {} (show decodeCoseSign1 E [24] = none from rfl) (by simp [maxStatementBytes]) fun i => ⟨i, 0⟩
  refine ⟨?_, (log_integrity {} hverify (raceSchedule (fun i => ⟨i, 0⟩, .register [24]))).1⟩
  rw [hlog]
  rfl

end CapsuleAnchor
