import CapsuleAnchor.Backends
import CapsuleAnchor.Instances

/-!
# The log behind a store

What the three stores have in common: a log, a cache of statements, a history of tree heads and the latest of them.
`Backend.view` reads these off the dicts and the tables.  `Answered` says of each store method what it answers and what it
does in these terms, and `exec_view` that all three stores do that.  The invariant of a service over any store is then
about its view: `LogView.Sound`, with one lemma for a call that a request may make (`LogView.Sound.call`).
-/

namespace CapsuleAnchor

variable (E : Env) (cfg : Config)

structure LogView where
  log : List TransparencyLogEntry
  cached : Digest → Option (CoseReceipt × Int × Nat)
  heads : Nat → Option SignedTreeHead
  latest : Option SignedTreeHead

def Backend.view : (b : Backend) → b.Store → LogView
  | memory => fun s => ⟨s.log, fun k => s.statements.lookup k, fun n => s.sthHistory.lookup n, s.latestSth⟩
  | sqlite => fun s => ⟨s.logEntries, fun k => s.submittedStatements.lookup k,
      fun n => (s.signedTreeHeadHistory.lookup n).map SthRow.sth, s.signedTreeHeads.map SthRow.sth⟩
  | postgres => fun s => ⟨s.logEntries, fun k => s.submittedStatements.lookup k,
      fun n => (s.signedTreeHeadHistory.lookup n).map SthRow.sth, s.signedTreeHeads.map SthRow.sth⟩

/-! ### The methods -/

/-- Rows were only dropped from the cache. -/
def LogView.Drops (v v' : LogView) : Prop :=
  v'.log = v.log ∧ v'.heads = v.heads ∧ v'.latest = v.latest ∧ ∀ k row, v'.cached k = some row → v.cached k = some row

/-- A row was put into the cache, unless one was there. -/
def LogView.Files (k : Digest) (row : CoseReceipt × Int × Nat) (v v' : LogView) : Prop :=
  v'.log = v.log ∧ v'.heads = v.heads ∧ v'.latest = v.latest ∧
    ∀ k' row', v'.cached k' = some row' → v.cached k' = some row' ∨ k' = k ∧ row' = row

/-- A head was put into the history, unless one was there, and may have become the latest. -/
def LogView.Signs (sth : SignedTreeHead) (v v' : LogView) : Prop :=
  v'.log = v.log ∧ v'.cached = v.cached ∧ (v'.latest = v.latest ∨ v'.latest = some sth) ∧
    ∀ n sth', v'.heads n = some sth' → v.heads n = some sth' ∨ n = sth.treeSize ∧ sth' = sth

/-- What a method answers over an indexed log, and what it leaves. -/
def Answered (v v' : LogView) : (c : Call) → c.Ans → Prop
  | .appendEntry entry, .ok _ => v' = { v with log := v.log ++ [entry] }
  | .allEntries, es => es = v.log ∧ v' = v
  | .entriesAfter afterIndex, es => (afterIndex = 0 → es = v.log) ∧ v' = v
  | .size, n => n = v.log.length ∧ v' = v
  | .getStatement k, row => row = v.cached k ∧ v' = v
  | .getSthAt n, sth => sth = v.heads n ∧ v' = v
  | .getLatestSth, sth => sth = v.latest ∧ v' = v
  | .putStatement k receipt leafIndex treeSize, _ => v.Files k (receipt, leafIndex, treeSize) v'
  | .pruneStatementsOlderThan _, _ => v.Drops v'
  | .putSth sth, _ => v.Signs sth v'
  | _, _ => v' = v

section Methods

private theorem view_memory_eq {m m' : MemoryStore} (hlog : m'.log = m.log) (hstatements : m'.statements = m.statements)
    (hheads : m'.sthHistory = m.sthHistory) (hlatest : m'.latestSth = m.latestSth) :
    Backend.memory.view m' = Backend.memory.view m := by
  simp only [Backend.view, hlog, hstatements, hheads, hlatest]

private theorem latestSth_putSth (m : MemoryStore) (sth : SignedTreeHead) :
    (m.putSth sth).latestSth = m.latestSth ∨ (m.putSth sth).latestSth = some sth := by
  simp only [MemoryStore.putSth]
  split
  · exact .inl rfl
  · exact .inr rfl

/-- The row of an insert that keeps what is there. -/
private theorem lookup_insertNew_cases {K V : Type} [DecidableEq K] {d : Dict K V} {key k : K} {row v : V}
    (h : (insertNew d key row).lookup k = some v) : d.lookup k = some v ∨ k = key ∧ v = row := by
  rw [lookup_insertNew] at h
  split at h
  · rename_i hkey
    subst hkey
    cases hold : d.lookup k with
    | some old =>
      rw [hold] at h
      exact .inl h
    | none =>
      rw [hold] at h
      exact .inr ⟨rfl, (Option.some.inj h).symm⟩
  · exact .inl h

theorem memory_view (c : Call) (m : MemoryStore) (h : Indexed m.log) :
    Answered (Backend.memory.view m) (Backend.memory.view (MemoryStore.exec c m).2) c (MemoryStore.exec c m).1 := by
  cases c with
  | entriesAfter afterIndex =>
    refine ⟨?_, rfl⟩
    rintro rfl
    exact h.entriesAfter
  | allEntries => exact ⟨rfl, rfl⟩
  | size => exact ⟨rfl, rfl⟩
  | getStatement k => exact ⟨rfl, rfl⟩
  | getSthAt n => exact ⟨rfl, rfl⟩
  | getLatestSth => exact ⟨rfl, rfl⟩
  | putStatement k receipt leafIndex treeSize =>
    refine ⟨rfl, rfl, rfl, ?_⟩
    intro k' row' hk'
    change (m.statements.insert k (receipt, leafIndex, treeSize)).lookup k' = some row' at hk'
    by_cases hkey : k' = k
    · subst hkey
      rw [AList.lookup_insert] at hk'
      exact .inr ⟨rfl, (Option.some.inj hk').symm⟩
    · rw [AList.lookup_insert_ne hkey] at hk'
      exact .inl hk'
  | pruneStatementsOlderThan cutoff =>
    simp only [MemoryStore.exec, MemoryStore.pruneStatementsOlderThan]
    split
    · exact ⟨rfl, rfl, rfl, fun _ _ hk => hk⟩
    · exact ⟨rfl, rfl, rfl, fun k row hk => lookup_foldl_erase _ _ k row hk⟩
  | putSth sth =>
    refine ⟨log_putSth m sth, ?_, latestSth_putSth m sth, ?_⟩
    · funext k
      exact congrArg (fun d : Dict Digest _ => d.lookup k) (statements_putSth m sth)
    · intro n sth' hn
      simp only [Backend.view, MemoryStore.exec, sthHistory_putSth] at hn
      exact lookup_insertNew_cases hn
  | putCheckpointRecord logId mmrSize record =>
    simp only [Answered, MemoryStore.exec, MemoryStore.putCheckpointRecord]
    split
    · rfl
    · split <;> rfl
  | _ => rfl

private theorem tables_view (c : Call) (s : SqlStore) (h : Indexed s.logEntries) :
    Answered (Backend.postgres.view s) (Backend.postgres.view (SqlStore.exec E c s).2) c (SqlStore.exec E c s).1 := by
  cases c with
  | appendEntry entry =>
    rcases exec_appendEntry E entry s with ⟨hexec, -⟩ | ⟨hexec, -⟩
    · rw [hexec]
      rfl
    · rw [hexec]
      rfl
  | entriesAfter afterIndex =>
    refine ⟨?_, rfl⟩
    rintro rfl
    rw [exec_entriesAfter E h]
    rfl
  | allEntries =>
    rw [exec_allEntries E h]
    exact ⟨rfl, rfl⟩
  | size => exact ⟨rfl, rfl⟩
  | getStatement k => exact ⟨rfl, rfl⟩
  | getSthAt n => exact ⟨rfl, rfl⟩
  | getLatestSth => exact ⟨rfl, rfl⟩
  | putStatement k receipt leafIndex treeSize => exact ⟨rfl, rfl, rfl, fun _ _ hk => lookup_insertNew_cases hk⟩
  | pruneStatementsOlderThan cutoff =>
    refine ⟨rfl, rfl, rfl, ?_⟩
    intro k row hk
    simp only [Backend.view, SqlStore.exec, SqlStore.pruneStatementsOlderThan, foldl_erase_rows] at hk
    exact lookup_foldl_erase _ _ k row hk
  | putSth sth =>
    refine ⟨rfl, rfl, ?_, ?_⟩
    · rcases putSth_cases s ⟨sth, sth.treeSize, E.tsEpochUs sth.timestamp⟩ with ⟨hnew, -⟩ | hold
      · exact .inr (congrArg (Option.map SthRow.sth) hnew)
      · exact .inl (congrArg (Option.map SthRow.sth) hold)
    · intro n sth' hn
      obtain ⟨row, hrow, rfl⟩ := Option.map_eq_some_iff.1 hn
      rcases lookup_insertNew_cases hrow with hold | ⟨rfl, rfl⟩
      · exact .inl (Option.map_eq_some_iff.2 ⟨row, hold, rfl⟩)
      · exact .inr ⟨rfl, rfl⟩
  | putCheckpointRecord logId mmrSize record =>
    obtain ⟨records, events, hrecord⟩ := putCheckpointRecord_eq s logId mmrSize record
    simp only [Answered, SqlStore.exec, hrecord]
    rfl
  | _ => rfl

/-- All three stores do what `Answered` says. -/
theorem exec_view (b : Backend) (c : Call) (s : b.Store) (h : Indexed (b.view s).log) :
    Answered (b.view s) (b.view (b.exec E c s).2) c (b.exec E c s).1 := by
  cases b with
  | memory => exact memory_view c s h
  | postgres =>
    simp only [Backend.exec, PostgresStore.exec_eq]
    exact tables_view E c s h
  | sqlite =>
    cases c with
    | putRoot root => rfl
    | pruneStatementsOlderThan cutoff =>
      refine ⟨rfl, rfl, rfl, ?_⟩
      intro k row hk
      simp only [Backend.view, Backend.exec, SqliteStore.exec, SqliteStore.pruneStatementsOlderThan, foldl_erase_rows] at hk
      exact lookup_foldl_erase _ _ k row hk
    | _ => exact tables_view E _ s h

/-- An insert that a table accepts is at an index that was free. -/
theorem appendEntry_free {b : Backend} (hb : b ≠ .memory) {entry : TransparencyLogEntry} {s : b.Store} {u : Unit}
    (h : (b.exec E (.appendEntry entry) s).1 = .ok u) : ∀ e ∈ (b.view s).log, e.logIndex ≠ entry.logIndex := by
  have htables : ∀ s : SqlStore, (SqlStore.exec E (.appendEntry entry) s).1 = .ok u →
      ∀ e ∈ s.logEntries, e.logIndex ≠ entry.logIndex := by
    intro s hs
    rcases exec_appendEntry E entry s with ⟨hexec, -⟩ | ⟨-, hfree⟩
    · rw [hexec] at hs
      cases hs
    · exact hfree
  cases b with
  | memory => exact absurd rfl hb
  | sqlite => exact htables s h
  | postgres => exact htables s h

end Methods

/-! ### The invariant -/

/-- The log is indexed, it proves the cached rows, and the heads have the roots of its prefixes; what the calls of
`history` were answered holds still. -/
structure LogView.Sound (v : LogView) (history : CallTrail) : Prop where
  indexed : Indexed v.log
  cached : ∀ k row, v.cached k = some row → Attested E v.log history k row
  heads : ∀ n sth, v.heads n = some sth → HeadAt E v.log n sth
  latest : ∀ sth, v.latest = some sth → HeadAt E v.log sth.treeSize sth
  noted : ∀ e ∈ history, Noted E v.log history e

/-- A view of an empty log, without rows and without heads. -/
def LogView.none : LogView := ⟨[], fun _ => .none, fun _ => .none, .none⟩

theorem view_empty (b : Backend) : b.view b.empty = LogView.none := by
  cases b <;> rfl

theorem sound_none : LogView.none.Sound E [] where
  indexed := indexed_nil
  cached := nofun
  heads := nofun
  latest := nofun
  noted := by
    intro e he
    cases he

section Sound

variable {E cfg} {v v' : LogView} {history history' : CallTrail}

theorem LogView.Sound.extend (h : v.Sound E history) (hlog : v.log <+: v'.log) (hindexed : Indexed v'.log)
    (hcached : ∀ k row, v'.cached k = some row → v.cached k = some row ∨ Attested E v'.log history k row)
    (hheads : ∀ n sth, v'.heads n = some sth → v.heads n = some sth ∨ HeadAt E v'.log n sth)
    (hlatest : ∀ sth, v'.latest = some sth → v.latest = some sth ∨ HeadAt E v'.log sth.treeSize sth)
    (hhistory : history ⊆ history') (hnoted : ∀ e ∈ history', e ∈ history ∨ Noted E v'.log history e) :
    v'.Sound E history' := by
  constructor
  · exact hindexed
  · intro k row hk
    rcases hcached k row hk with hold | hnew
    · exact (h.cached k row hold).mono E hlog hhistory
    · exact hnew.mono E List.prefix_rfl hhistory
  · intro n sth hn
    rcases hheads n sth hn with hold | hnew
    · exact headAt_mono E hlog (h.heads n sth hold)
    · exact hnew
  · intro sth hsth
    rcases hlatest sth hsth with hold | hnew
    · exact headAt_mono E hlog (h.latest sth hold)
    · exact hnew
  · intro e he
    rcases hnoted e he with hold | hnew
    · exact (h.noted e hold).mono E hlog hhistory
    · exact hnew.mono E List.prefix_rfl hhistory

/-- Only an append that succeeds changes the log. -/
theorem Answered.log_eq {c : Call} {x : c.Ans} (h : Answered v v' c x) (hx : appended [⟨c, x⟩] = []) : v'.log = v.log := by
  cases c with
  | appendEntry entry =>
    cases x with
    | error e => exact congrArg LogView.log h
    | ok u => cases hx
  | putStatement k receipt leafIndex treeSize => exact h.1
  | pruneStatementsOlderThan cutoff => exact h.1
  | putSth sth => exact h.1
  | allEntries => exact congrArg LogView.log h.2
  | entriesAfter afterIndex => exact congrArg LogView.log h.2
  | size => exact congrArg LogView.log h.2
  | getStatement k => exact congrArg LogView.log h.2
  | getSthAt n => exact congrArg LogView.log h.2
  | getLatestSth => exact congrArg LogView.log h.2
  | _ => exact congrArg LogView.log h

/-- The log only grows. -/
theorem Answered.log {c : Call} {x : c.Ans} (h : Answered v v' c x) : v.log <+: v'.log := by
  cases happended : appended [⟨c, x⟩] with
  | nil =>
    simp only [h.log_eq happended, List.prefix_rfl]
  | cons entry entries =>
    cases c with
    | appendEntry entry =>
      cases x with
      | error e => cases happended
      | ok u =>
        rw [show v' = _ from h]
        exact List.prefix_append _ _
    | _ => cases happended

/-- A method that leaves the log, the cache and the heads alone keeps the invariant, with its answer noted. -/
private theorem sound_same (h : v.Sound E history) (hsame : v' = v) (hhistory : history ⊆ history')
    (hnoted : ∀ e ∈ history', e ∈ history ∨ Noted E v.log history e) : v'.Sound E history' := by
  subst hsame
  exact h.extend List.prefix_rfl h.indexed (fun _ _ hk => .inl hk) (fun _ _ hn => .inl hn) (fun _ hsth => .inl hsth)
    hhistory hnoted

/-- A call that a request may make keeps the invariant, whether its answer arrives (`history'`) or not; an entry that is
appended has to be the next one. -/
theorem LogView.Sound.call {r : TimedRequest} {t : CallTrail} {c : Call} {x : c.Ans} (h : v.Sound E history)
    (htrail : t ⊆ history) (hmay : May E cfg r t c) (hanswered : Answered v v' c x)
    (hnext : ∀ entry u, (⟨c, x⟩ : Σ c : Call, c.Ans) = ⟨.appendEntry entry, .ok u⟩ → entry.logIndex = v.log.length)
    (hhistory : history ⊆ history') (hnew : ∀ e ∈ history', e ∈ history ∨ e = ⟨c, x⟩) : v'.Sound E history' := by
  have hnoted : Noted E v'.log history ⟨c, x⟩ → ∀ e ∈ history', e ∈ history ∨ Noted E v'.log history e := by
    intro hnoted e he
    rcases hnew e he with hold | rfl
    · exact .inl hold
    · exact .inr hnoted
  have hread : v' = v → Noted E v.log history ⟨c, x⟩ → v'.Sound E history' := by
    intro hsame hnoted'
    exact sound_same h hsame hhistory (by rw [hsame] at hnoted; exact hnoted hnoted')
  cases c with
  | appendEntry entry =>
    cases x with
    | error e => exact hread hanswered trivial
    | ok u =>
      obtain rfl : v' = { v with log := v.log ++ [entry] } := hanswered
      have hindex := hnext entry u rfl
      exact h.extend (List.prefix_append _ _) (h.indexed.append hindex) (fun _ _ hk => .inl hk) (fun _ _ hn => .inl hn)
        (fun _ hsth => .inl hsth) hhistory (hnoted ⟨v.log.length, hindex, by simp⟩)
  | allEntries =>
    obtain ⟨rfl, hsame⟩ := hanswered
    exact hread hsame List.prefix_rfl
  | entriesAfter afterIndex =>
    obtain rfl : x = v.log := hanswered.1 hmay
    exact hread hanswered.2 List.prefix_rfl
  | size =>
    obtain ⟨rfl, hsame⟩ := hanswered
    exact hread hsame (Nat.le_refl _)
  | getStatement k =>
    obtain ⟨rfl, hsame⟩ := hanswered
    refine hread hsame ?_
    cases hrow : v.cached k with
    | none => trivial
    | some row => exact h.cached k row hrow
  | getSthAt n =>
    obtain ⟨rfl, hsame⟩ := hanswered
    refine hread hsame ?_
    cases hrow : v.heads n with
    | none => trivial
    | some sth => exact h.heads n sth hrow
  | getLatestSth =>
    obtain ⟨rfl, hsame⟩ := hanswered
    refine hread hsame ?_
    cases hrow : v.latest with
    | none => trivial
    | some sth => exact h.latest sth hrow
  | putStatement k receipt leafIndex treeSize =>
    obtain ⟨hlog, hheads, hlatest, hcached⟩ := hanswered
    have hrow : Attested E v'.log history k (receipt, leafIndex, treeSize) := by
      rw [hlog]
      exact attested_of_covers E h.noted htrail hmay.2.1
    refine h.extend (hlog ▸ List.prefix_rfl) (hlog ▸ h.indexed) ?_ (fun _ _ hn => .inl (hheads ▸ hn))
      (fun _ hsth => .inl (hlatest ▸ hsth)) hhistory (hnoted hrow)
    intro k' row' hk'
    rcases hcached k' row' hk' with hold | ⟨rfl, rfl⟩
    · exact .inl hold
    · exact .inr hrow
  | pruneStatementsOlderThan cutoff =>
    obtain ⟨hlog, hheads, hlatest, hcached⟩ := hanswered
    exact h.extend (hlog ▸ List.prefix_rfl) (hlog ▸ h.indexed) (fun k row hk => .inl (hcached k row hk))
      (fun _ _ hn => .inl (hheads ▸ hn)) (fun _ hsth => .inl (hlatest ▸ hsth)) hhistory (hnoted trivial)
  | putSth sth =>
    obtain ⟨hlog, hcached, hlatest, hheads⟩ := hanswered
    have hhead : HeadAt E v'.log sth.treeSize sth := by
      rw [hlog]
      exact headAt_of_headed E h.noted htrail hmay
    refine h.extend (hlog ▸ List.prefix_rfl) (hlog ▸ h.indexed) (fun _ _ hk => .inl (hcached ▸ hk)) ?_ ?_ hhistory
      (hnoted hhead)
    · intro n sth' hn
      rcases hheads n sth' hn with hold | ⟨rfl, rfl⟩
      · exact .inl hold
      · exact .inr hhead
    · intro sth' hsth'
      rcases hlatest with hold | hnew
      · exact .inl (hold ▸ hsth')
      · obtain rfl := Option.some.inj (hnew.symm.trans hsth')
        exact .inr hhead
  | _ => exact hread hanswered trivial

/-- The answers are the ones a request counts on. -/
theorem LogView.Sound.counts {r : TimedRequest} {t : CallTrail} {c : Call} {x : c.Ans} (h : v.Sound E history)
    (htrail : t ⊆ history) (hmay : May E cfg r t c) (hanswered : Answered v v' c x) : Counts t c x := by
  have hsize : ∀ n, ⟨.size, n⟩ ∈ t → n ≤ v.log.length := fun n hn => h.noted _ (htrail hn)
  cases c with
  | allEntries =>
    obtain ⟨rfl, -⟩ := hanswered
    exact hsize
  | entriesAfter afterIndex =>
    obtain rfl : x = v.log := hanswered.1 hmay
    exact ⟨hsize, appended_noted E h.noted htrail⟩
  | _ => trivial

end Sound

end CapsuleAnchor
