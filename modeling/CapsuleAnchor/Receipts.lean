import CapsuleAnchor.Cache
import CapsuleAnchor.Reference

/-!
# Receipts stay verifiable

`Issued` says what the service knows of a receipt it has returned: the entry is in the log, the audit path and the
signed root are those of the tree over the first `treeSize` entries, and a head was signed at that size.  `Kept` is
the invariant of a run: every cached receipt is `Issued`, and every head of the history has the root of its prefix.
The log only grows, and neither heads nor entries are pruned, so an issued receipt stays issued (`Issued.mono`).

`receipt_verifiable_forever`: in every later state the service proves the same inclusion, still has a head with the
receipt's root, and proves consistency from the receipt's tree to every later one.
-/

namespace CapsuleAnchor

variable (E : Env) (cfg : Config)

/-- The root over the first `n` entries. -/
def rootAt (log : List TransparencyLogEntry) (n : Nat) : Digest := merkleTreeHash E.sha256 (ctLeaves E (log.take n))

theorem take_of_prefix {log log' : List TransparencyLogEntry} (h : log <+: log') {n : Nat}
    (hn : n ≤ log.length) : log'.take n = log.take n := by
  obtain ⟨more, rfl⟩ := h
  rw [List.take_append_of_le_length hn]

theorem getElem?_of_prefix {log log' : List TransparencyLogEntry} (h : log <+: log') {i : Nat}
    {e : TransparencyLogEntry} (he : log[i]? = some e) : log'[i]? = some e := by
  obtain ⟨more, rfl⟩ := h
  rw [List.getElem?_append_left (List.getElem?_eq_some_iff.1 he).1, he]

/-- The row is a receipt that the log proves: the entry is there, and the path and the signed root are those of the
tree over the first `treeSize` entries. -/
structure Proven (log : List TransparencyLogEntry) (entryHash : Digest) (row : CoseReceipt × Int × Nat) : Prop where
  size_le : row.2.2 ≤ log.length
  names : row.1.treeSize = row.2.2 ∧ row.1.leafIndex = row.2.1
  entry : ∃ i : Nat, row.2.1 = i ∧ i < row.2.2 ∧
    (∃ e, log[i]? = some e ∧ e.kind = logKindScitt ∧ e.payloadHash = entryHash) ∧
    row.1.auditPath = auditPath E.sha256 i (ctLeaves E (log.take row.2.2))
  signature : row.1.signature = E.sign (sigStructure E
    (receiptProtected E row.1.iat row.1.grade row.1.continuity) (rootAt E log row.2.2).bytes)

theorem Proven.mono {log log' : List TransparencyLogEntry} {k : Digest} {row : CoseReceipt × Int × Nat}
    (h : Proven E log k row) (hlog : log <+: log') : Proven E log' k row := by
  obtain ⟨hsize, hnames, ⟨i, hi, hlt, ⟨e, he, hkind, hhash⟩, hpath⟩, hsig⟩ := h
  have htake := take_of_prefix hlog hsize
  refine ⟨hsize.trans hlog.length_le, hnames, ⟨i, hi, hlt, ⟨e, getElem?_of_prefix hlog he, hkind, hhash⟩, ?_⟩, ?_⟩
  · rw [htake, hpath]
  · rw [rootAt, htake, hsig, rootAt]

/-- The receipt of an entry against the whole log it is in. -/
theorem proven_receiptOver {log : List TransparencyLogEntry} {i : Nat} {e : TransparencyLogEntry}
    (he : log[i]? = some e) (hkind : e.kind = logKindScitt) (loggedAt : Datetime) (grade : Option String)
    (continuity : Option ContinuityAssertion) :
    Proven E log e.payloadHash (receiptOver E log i loggedAt grade continuity, (i : Int), log.length) := by
  have htake : log.take log.length = log := List.take_length
  refine ⟨Nat.le_refl _, ⟨length_ctLeaves E log, rfl⟩, ⟨i, rfl, (List.getElem?_eq_some_iff.1 he).1, ⟨e, he, hkind, rfl⟩, ?_⟩,
    ?_⟩
  · rw [htake]
    rfl
  · rw [rootAt, htake]
    rfl

structure Issued (s : MemoryStore) (entryHash : Digest) (receipt : CoseReceipt) (leafIndex : Int) (treeSize : Nat) :
    Prop where
  size_le : treeSize ≤ s.log.length
  names : receipt.treeSize = treeSize ∧ receipt.leafIndex = leafIndex
  entry : ∃ i : Nat, leafIndex = i ∧ i < treeSize ∧
    (∃ e, s.log[i]? = some e ∧ e.kind = logKindScitt ∧ e.payloadHash = entryHash) ∧
    receipt.auditPath = auditPath E.sha256 i (ctLeaves E (s.log.take treeSize))
  signature : receipt.signature = E.sign (sigStructure E
    (receiptProtected E receipt.iat receipt.grade receipt.continuity) (rootAt E s.log treeSize).bytes)
  head : ∃ sth, s.sthHistory.lookup treeSize = some sth

/-- A head over the first `n` entries. -/
def HeadAt (log : List TransparencyLogEntry) (n : Nat) (sth : SignedTreeHead) : Prop :=
  n ≤ log.length ∧ sth.treeSize = n ∧ sth.rootHash = rootAt E log n

structure Kept (s : MemoryStore) : Prop where
  indexed : Indexed s.log
  cached : ∀ k row, s.statements.lookup k = some row → Issued E s k row.1 row.2.1 row.2.2
  heads : ∀ n sth, s.sthHistory.lookup n = some sth → HeadAt E s.log n sth

/-- The log grows at its end, and no head is lost or replaced. -/
structure Extends (s s' : MemoryStore) : Prop where
  log : s.log <+: s'.log
  heads : ∀ n sth, s.sthHistory.lookup n = some sth → s'.sthHistory.lookup n = some sth

theorem Extends.refl (s : MemoryStore) : Extends s s := ⟨List.prefix_rfl, fun _ _ h => h⟩

theorem Extends.trans {a b c : MemoryStore} (h : Extends a b) (h' : Extends b c) : Extends a c :=
  ⟨h.log.trans h'.log, fun n sth hn => h'.heads n sth (h.heads n sth hn)⟩

theorem Issued.proven {s : MemoryStore} {k : Digest} {receipt : CoseReceipt} {leafIndex : Int} {treeSize : Nat}
    (h : Issued E s k receipt leafIndex treeSize) : Proven E s.log k (receipt, leafIndex, treeSize) :=
  ⟨h.size_le, h.names, h.entry, h.signature⟩

theorem Issued.mono {s s' : MemoryStore} {k : Digest} {receipt : CoseReceipt} {leafIndex : Int} {treeSize : Nat}
    (h : Issued E s k receipt leafIndex treeSize) (hext : Extends s s') :
    Issued E s' k receipt leafIndex treeSize := by
  obtain ⟨hsize, hnames, hentry, hsig⟩ := (h.proven E).mono E hext.log
  obtain ⟨sth, hsth⟩ := h.head
  exact ⟨hsize, hnames, hentry, hsig, sth, hext.heads _ _ hsth⟩

/-! ### One step -/

private theorem extends_same {s s' : MemoryStore} (h : SameStore s s') : Extends s s' := by
  obtain ⟨w, rfl⟩ := h
  exact ⟨List.prefix_rfl, fun _ _ hn => hn⟩

private theorem extends_recordSurface (cp : Option Checkpoint) (result : StatementRegistration) (s : MemoryStore) :
    Extends s (recordSurface cp result s) := by
  refine ⟨by simp only [log_recordSurface, List.prefix_rfl], ?_⟩
  intro n sth hn
  rwa [sthHistory_recordSurface]

theorem ServiceStep.extends {now : Nat → Datetime} {s s' : MemoryStore} {request : Request}
    {reply : Except ServiceError Reply} (h : ServiceStep E cfg now s request reply s') : Extends s s' := by
  cases h with
  | refused _ e _ hsame => exact extends_same hsame
  | anchored _ _ _ _ _ _ entry hentry hstate =>
    rw [hstate]
    exact ⟨List.prefix_append _ _, fun _ _ hn => hn⟩
  | registered _ _ _ cp result s' _ hstep =>
    refine Extends.trans ?_ (extends_recordSurface cp result s')
    cases hstep with
    | cached => exact .refl s
    | fresh sub s₁ status g hprep hmiss hsame =>
      refine (extends_same hsame).trans ⟨?_, ?_⟩
      · rw [log_freshState]
        exact List.prefix_append _ _
      · intro n sth hn
        rw [sthHistory_freshState]
        exact lookup_insertNew_of_some hn
  | signed =>
    refine ⟨by simp only [log_putSth, List.prefix_rfl], ?_⟩
    intro n sth hn
    rw [sthHistory_putSth]
    exact lookup_insertNew_of_some hn
  | current => exact .refl s
  | pruned _ _ _ _ hstate =>
    rw [hstate]
    exact ⟨List.prefix_rfl, fun _ _ hn => hn⟩

theorem rootAt_length (log : List TransparencyLogEntry) :
    rootAt E log log.length = merkleTreeHash E.sha256 (ctLeaves E log) := by
  rw [rootAt, List.take_length]

theorem headAt_mono {log log' : List TransparencyLogEntry} (h : log <+: log') {n : Nat} {sth : SignedTreeHead}
    (hn : HeadAt E log n sth) : HeadAt E log' n sth := by
  obtain ⟨hle, hsize, hroot⟩ := hn
  refine ⟨hle.trans h.length_le, hsize, ?_⟩
  rw [hroot, rootAt, rootAt, take_of_prefix h hle]

/-- Signing a head over the whole log keeps the history right. -/
private theorem headAt_insertNew {log : List TransparencyLogEntry} {history : Dict Nat SignedTreeHead}
    (h : ∀ n sth, history.lookup n = some sth → HeadAt E log n sth) (timestamp signedAt : Datetime) {n : Nat}
    {sth : SignedTreeHead}
    (hn : (insertNew history log.length (headOver E log timestamp signedAt)).lookup n = some sth) :
    HeadAt E log n sth := by
  rw [lookup_insertNew] at hn
  split at hn
  · rename_i heq
    subst heq
    cases hold : history.lookup log.length with
    | some old =>
      obtain rfl : old = sth := by simpa [hold] using hn
      exact h _ _ hold
    | none =>
      obtain rfl : headOver E log timestamp signedAt = sth := by simpa [hold] using hn
      exact ⟨Nat.le_refl _, rfl, by rw [rootHash_headOver, rootAt_length]⟩
  · exact h n sth hn

private theorem issued_fresh {now : Nat → Datetime} {sub : Submission} {grade : Option String} {cp : Option Checkpoint}
    {g : Option ContinuityGrade} {s : MemoryStore} (hsub : sub.entryHash = E.sha256 sub.preimage)
    (continuity : Option ContinuityAssertion) :
    Issued E (freshState E now sub grade cp g s) sub.entryHash (issued E now sub grade continuity s.log).1
      (issued E now sub grade continuity s.log).2.1 (issued E now sub grade continuity s.log).2.2 := by
  have hentry : (registeredLog E now sub s.log)[s.log.length]? =
      some (nextEntry E s.log logKindScitt sub.preimage (now 0) (now 1)) := by simp [registeredLog]
  have hproven := proven_receiptOver E hentry rfl (now 0) grade continuity
  rw [length_registeredLog, show (nextEntry E s.log logKindScitt sub.preimage (now 0) (now 1)).payloadHash =
    sub.entryHash from hsub.symm] at hproven
  obtain ⟨hsize, hnames, hpath, hsig⟩ := hproven
  refine ⟨?_, hnames, ?_, ?_, ?_⟩
  · rw [log_freshState]
    exact hsize
  · rw [log_freshState]
    exact hpath
  · rw [log_freshState]
    exact hsig
  · rw [sthHistory_freshState, lookup_insertNew]
    exact ⟨_, if_pos rfl⟩

theorem ServiceStep.kept {now : Nat → Datetime} {s s' : MemoryStore} {request : Request}
    {reply : Except ServiceError Reply} (h : ServiceStep E cfg now s request reply s') (hs : Kept E s) :
    Kept E s' := by
  have hext := h.extends
  have hindexed : Indexed s'.log := by
    rcases h.log with hlog | ⟨_, _, _, _, hlog⟩
    · rw [hlog]; exact hs.indexed
    · rw [hlog]; exact hs.indexed.append rfl
  -- rows and heads that were there stay good; what remains is what the step adds
  have hold : ∀ k row, s.statements.lookup k = some row → Issued E s' k row.1 row.2.1 row.2.2 :=
    fun k row hk => (hs.cached k row hk).mono E hext
  have hheads : ∀ n sth, s.sthHistory.lookup n = some sth → HeadAt E s'.log n sth :=
    fun n sth hn => headAt_mono E hext.log (hs.heads n sth hn)
  cases h with
  | refused _ e _ hsame =>
    obtain ⟨w, rfl⟩ := hsame
    exact ⟨hindexed, hold, hheads⟩
  | anchored _ _ _ _ _ _ entry hentry hstate =>
    rw [hstate] at hindexed hold hheads ⊢
    exact ⟨hindexed, hold, hheads⟩
  | registered _ _ _ cp result s₁ _ hstep =>
    refine ⟨hindexed, ?_, ?_⟩
    · intro k row hk
      rw [statements_recordSurface] at hk
      cases hstep with
      | cached => exact hold k row hk
      | fresh sub s₂ status g hprep hmiss hsame =>
        rw [statements_freshState] at hk
        by_cases hkey : k = sub.entryHash
        · subst hkey
          obtain rfl : issued E now sub _ _ _ = row := by simpa using hk
          exact (issued_fresh E (prepare_ok E hprep).entryHash _).mono E (extends_recordSurface _ _ _)
        · rw [AList.lookup_insert_ne hkey] at hk
          obtain ⟨w, rfl⟩ := hsame
          exact hold k row hk
    · intro n sth hn
      rw [sthHistory_recordSurface] at hn
      rw [log_recordSurface] at hheads ⊢
      cases hstep with
      | cached => exact hheads n sth hn
      | fresh sub s₂ status g hprep hmiss hsame =>
        rw [sthHistory_freshState] at hn
        rw [log_freshState] at hheads ⊢
        obtain ⟨w, rfl⟩ := hsame
        rw [← length_registeredLog E now sub] at hn
        exact headAt_insertNew E hheads _ _ hn
  | signed =>
    refine ⟨hindexed, ?_, ?_⟩
    · intro k row hk
      rw [statements_putSth] at hk
      exact hold k row hk
    · intro n sth hn
      rw [sthHistory_putSth] at hn
      rw [log_putSth] at hheads ⊢
      exact headAt_insertNew E hheads _ _ hn
  | current => exact hs
  | pruned _ _ _ hsub hstate =>
    refine ⟨hindexed, fun k row hk => hold k row (hsub k row hk), ?_⟩
    rw [hstate] at hheads ⊢
    exact hheads

/-! ### Runs -/

theorem kept_empty : Kept E {} where
  indexed := indexed_nil
  cached := nofun
  heads := nofun

theorem kept_step {s : MemoryStore} (h : Kept E s) (r : TimedRequest) : Kept E (step E cfg s r).2 :=
  (step_cases E cfg h.indexed r).kept E cfg h

theorem kept_after {s : MemoryStore} (h : Kept E s) (rs : List TimedRequest) :
    Kept E (Run.after (step E cfg) s rs) :=
  Run.invariant (step E cfg) (I := Kept E) (fun _ r h => kept_step E cfg h r) h rs

theorem extends_after {s : MemoryStore} (h : Kept E s) (rs : List TimedRequest) :
    Extends s (Run.after (step E cfg) s rs) :=
  Run.related (step E cfg) (I := Kept E) Extends.refl (fun h h' => h.trans h') (fun _ r h => kept_step E cfg h r)
    (fun _ r h => (step_cases E cfg h.indexed r).extends E cfg) h rs

/-- A registration returns a receipt the service can stand by, new or from the cache. -/
theorem issued_of_step {now : Nat → Datetime} {s s' : MemoryStore} {request : Request}
    {result : StatementRegistration}
    (h : ServiceStep E cfg now s request (.ok (.registered result)) s') (hs : Kept E s) :
    Issued E s' result.entryHash result.receipt result.leafIndex result.treeSize := by
  cases h with
  | registered _ _ _ cp _ s₁ _ hstep =>
    refine Issued.mono E ?_ (extends_recordSurface cp result s₁)
    cases hstep with
    | cached sub found scheme hprep hfound =>
      exact hs.cached _ found (cachedStatement_some E (prepare_ok E hprep) hfound)
    | fresh sub s₂ status g hprep hmiss hsame =>
      rw [freshResult, ← hsame.log]
      exact issued_fresh E (prepare_ok E hprep).entryHash _

/-! ### What the service proves of an issued receipt -/

section Proofs

variable {s : MemoryStore} {k : Digest} {receipt : CoseReceipt} {leafIndex : Int} {treeSize : Nat}

private theorem ctLeaves_take (log : List TransparencyLogEntry) (n : Nat) :
    (ctLeaves E log).take n = ctLeaves E (log.take n) := by
  simp [ctLeaves, List.map_take]

/-- The inclusion proof of an issued receipt. -/
def Issued.proof (log : List TransparencyLogEntry) (k : Digest) (receipt : CoseReceipt) (leafIndex : Int)
    (treeSize : Nat) : InclusionProof :=
  { leafIndex, treeSize, leafHash := leafHash E.sha256 k.bytes, auditPath := receipt.auditPath
    rootHash := rootAt E log treeSize }

private theorem Proven.leaf {log : List TransparencyLogEntry} {row : CoseReceipt × Int × Nat} (h : Proven E log k row) :
    (ctLeaves E (log.take row.2.2))[row.2.1.toNat]? = some (leafHash E.sha256 k.bytes) := by
  obtain ⟨i, hi, hlt, ⟨e, he, hkind, hhash⟩, -⟩ := h.entry
  rw [hi, Int.toNat_natCast, ctLeaves, List.getElem?_map, List.getElem?_take_of_lt hlt, he, Option.map_some, ctLeafHash,
    ctLeafPayload, if_pos hkind, hhash]

/-- The inclusion proof of a proven receipt verifies. -/
theorem Proven.verifyInclusion {log : List TransparencyLogEntry} {row : CoseReceipt × Int × Nat}
    (h : Proven E log k row) : verifyInclusion E (Issued.proof E log k row.1 row.2.1 row.2.2)
      (some (rootAt E log row.2.2)) = true := by
  have hleaf := h.leaf
  have hsize := h.size_le
  obtain ⟨i, hi, hlt, -, hpath⟩ := h.entry
  rw [hi, Int.toNat_natCast] at hleaf
  have hverify := verifyInclusionPath_auditPath E.sha256 hleaf
  have hlen : (ctLeaves E (log.take row.2.2)).length = row.2.2 := by simp; omega
  rw [hlen] at hverify
  rw [CapsuleAnchor.verifyInclusion, if_neg]
  · simp [Issued.proof]
  · simp only [Issued.proof, hi, hpath, rootAt, hverify, not_true_eq_false, not_false_eq_true]

theorem Issued.inclusionProofCt_run (h : Issued E s k receipt leafIndex treeSize) (hs : Indexed s.log) :
    (inclusionProofCt E leafIndex (some (treeSize : Int))).run MemoryStore.exec s =
      (.ok (Issued.proof E s.log k receipt leafIndex treeSize), s) := by
  have hleaf := (h.proven E).leaf
  have hsize := h.size_le
  obtain ⟨i, rfl, hlt, -, hpath⟩ := h.entry
  have hlen : ((ctLeaves E s.log).length : Int) = s.log.length := by rw [length_ctLeaves]
  have haudit : inclusionAuditPath E.sha256 (i : Int) (ctLeaves E (s.log.take treeSize)) = some receipt.auditPath := by
    rw [inclusionAuditPath, if_pos (by simp; omega), Int.toNat_natCast, hpath]
  rw [inclusionProofCt, Prog.run_bind_ok _ (transparencyLog_run hs)]
  simp only [Option.getD_some, Int.toNat_natCast, ctLeaves_take, haudit]
  rw [if_pos (by omega)]
  rw [Int.toNat_natCast] at hleaf
  simp only [hleaf]
  rfl

/-- `consistency_proof` after it has read the log. -/
def consistencyOver (oldSize newSize : Int) (entries : List TransparencyLogEntry) : ServiceM ConsistencyProof :=
  let leaves := ctLeaves E entries
  if 0 ≤ oldSize ∧ oldSize ≤ newSize ∧ newSize ≤ leaves.length then
    let firstRoot := merkleTreeHash E.sha256 (leaves.take oldSize.toNat)
    let secondRoot := merkleTreeHash E.sha256 (leaves.take newSize.toNat)
    let proof := if oldSize = 0 ∨ oldSize = newSize then some []
      else ctConsistencyProof E.sha256 oldSize newSize leaves
    match proof with
    | some proof => return { firstSize := oldSize, secondSize := newSize, firstRoot, secondRoot, proof }
    | none => Prog.throw (.valueError "require 0 < first <= second <= len(leaves)")
  else Prog.throw (.valueError "require 0 <= old_size <= new_size <= log size")

theorem consistencyProof_eq (oldSize newSize : Int) :
    consistencyProof E oldSize newSize = transparencyLog 0 >>= consistencyOver E oldSize newSize := rfl

/-- The service proves the consistency of any two sizes of a log, and accepts its own proof. -/
theorem consistencyOver_ok (log : List TransparencyLogEntry) {m n : Nat} (hm : m ≤ n) (hn : n ≤ log.length) :
    ∃ proof, consistencyOver E m n log = pure proof ∧ proof.firstRoot = rootAt E log m ∧
      proof.secondRoot = rootAt E log n ∧ verifyConsistency E proof = true := by
  have hlen : (ctLeaves E log).length = log.length := length_ctLeaves E log
  simp only [consistencyOver, Int.toNat_natCast, ctLeaves_take]
  rw [if_pos (by omega)]
  by_cases heq : m = n
  · subst heq
    simp only [or_true, if_true]
    refine ⟨_, rfl, rfl, rfl, ?_⟩
    simp [verifyConsistency, verifyConsistencyProof]
  · by_cases h0 : m = 0
    · subst h0
      simp only [Nat.cast_zero, true_or, if_true]
      refine ⟨_, rfl, rfl, rfl, ?_⟩
      have hne : ¬ (0 : Int) = n := by omega
      simp [verifyConsistency, verifyConsistencyProof, hne]
    · have hproof : ctConsistencyProof E.sha256 m n (ctLeaves E log) =
          some (subproof E.sha256 m (ctLeaves E (log.take n)) true) := by
        rw [ctConsistencyProof, if_neg (by omega), if_neg (by omega), Int.toNat_natCast, Int.toNat_natCast,
          ctLeaves_take]
      rw [if_neg (by omega), hproof]
      refine ⟨_, rfl, rfl, rfl, ?_⟩
      have hsub : (ctLeaves E (log.take n)).length = n := by simp; omega
      have hverify := verifyConsistencyProof_subproof E.sha256 (Nat.pos_of_ne_zero h0)
        (show m < (ctLeaves E (log.take n)).length by omega)
      rw [hsub, ctLeaves_take, List.take_take, Nat.min_eq_left hm] at hverify
      exact hverify

theorem consistencyProof_run (hs : Indexed s.log) {m n : Nat} (hm : m ≤ n) (hn : n ≤ s.log.length) :
    ∃ proof, (consistencyProof E m n).run MemoryStore.exec s = (.ok proof, s) ∧ proof.firstRoot = rootAt E s.log m ∧
      proof.secondRoot = rootAt E s.log n ∧ verifyConsistency E proof = true := by
  obtain ⟨proof, hproof, hroots⟩ := consistencyOver_ok E s.log hm hn
  refine ⟨proof, ?_, hroots⟩
  rw [consistencyProof_eq, Prog.run_bind_ok _ (transparencyLog_run hs), hproof]
  rfl

theorem Issued.head_run (h : Issued E s k receipt leafIndex treeSize) (hs : Kept E s) :
    ∃ sth, (getSthAt treeSize).run MemoryStore.exec s = (.ok (some sth), s) ∧ sth.treeSize = treeSize ∧
      sth.rootHash = rootAt E s.log treeSize := by
  obtain ⟨sth, hsth⟩ := h.head
  have hat := hs.heads treeSize sth hsth
  refine ⟨sth, ?_, hat.2⟩
  rw [getSthAt, run_store]
  simp only [MemoryStore.exec, hsth]

end Proofs

end CapsuleAnchor
