import CapsuleAnchor.Canonical
import CapsuleAnchor.HashTree

/-!
# RFC 6962 Merkle trees (`anchoring/ct.py`)

The tree hash, the inclusion and consistency provers (recursive, largest-power-of-two split) and the two verifiers
(iterative, over the bits of the position).  Hashes are `Digest`s, the 64-digit lowercase hex strings of the source.

`merkleTreeHash_eq_root`, `auditPath_eq_siblings` and `subproof_eq_prefixProof` identify the recursive functions with
the level view of `HashTree`; `inclusionLoop_eq_climb` and `consistencyLoop_eq_climbPair` do the same for the loops.
So every proof the provers build is accepted by the verifiers (`verifyInclusionPath_auditPath`,
`verifyConsistencyProof_subproof`).
-/

namespace CapsuleAnchor

open HashTree

variable (sha256 : Bytes → Digest)

def emptyRoot : Digest := sha256 []

/-- `H(0x00 || leaf_bytes)`. -/
def leafHash (leafBytes : Bytes) : Digest := sha256 (0 :: leafBytes)

/-- `H(0x01 || left || right)`. -/
def nodeHash (left right : Digest) : Digest := sha256 (1 :: (left.bytes ++ right.bytes))

/-- `while (k << 1) < n: k <<= 1`. -/
private def shiftBelow (n k : Nat) (hk : 0 < k) : Nat :=
  if k * 2 < n then shiftBelow n (k * 2) (by omega) else k
termination_by n - k

/-- Largest power of two strictly less than `n` (`n > 1`). -/
def largestPowerOfTwoBelow (n : Nat) : Nat := shiftBelow n 1 (by decide)

private theorem shiftBelow_spec (n k : Nat) (hk : 0 < k) (h : k < n) (hp : ∃ e, k = 2 ^ e) :
    ∃ e, shiftBelow n k hk = 2 ^ e ∧ 2 ^ e < n ∧ n ≤ 2 ^ (e + 1) := by
  induction k, hk using shiftBelow.induct n with
  | case1 k hk hlt ih =>
    obtain ⟨e, rfl⟩ := hp
    rw [shiftBelow, if_pos hlt]
    exact ih hlt ⟨e + 1, by rw [Nat.pow_succ]⟩
  | case2 k hk hge =>
    obtain ⟨e, rfl⟩ := hp
    rw [shiftBelow, if_neg hge]
    exact ⟨e, rfl, h, by rw [Nat.pow_succ]; omega⟩

theorem largestPowerOfTwoBelow_spec {n : Nat} (h : 2 ≤ n) :
    ∃ e, largestPowerOfTwoBelow n = 2 ^ e ∧ 2 ^ e < n ∧ n ≤ 2 ^ (e + 1) :=
  shiftBelow_spec n 1 (by decide) h ⟨0, rfl⟩

theorem largestPowerOfTwoBelow_pos {n : Nat} (h : 2 ≤ n) : 0 < largestPowerOfTwoBelow n := by
  obtain ⟨e, h1, -, -⟩ := largestPowerOfTwoBelow_spec h
  rw [h1]; exact Nat.two_pow_pos e

theorem largestPowerOfTwoBelow_lt {n : Nat} (h : 2 ≤ n) : largestPowerOfTwoBelow n < n := by
  obtain ⟨e, h1, h2, -⟩ := largestPowerOfTwoBelow_spec h
  rw [h1]; exact h2

/-- `merkle_tree_hash`. -/
def merkleTreeHash (leaves : List Digest) : Digest :=
  match leaves with
  | [] => emptyRoot sha256
  | [leaf] => leaf
  | a :: b :: rest =>
    nodeHash sha256 (merkleTreeHash ((a :: b :: rest).take (largestPowerOfTwoBelow (rest.length + 2))))
      (merkleTreeHash ((a :: b :: rest).drop (largestPowerOfTwoBelow (rest.length + 2))))
termination_by leaves.length
decreasing_by
  · have := largestPowerOfTwoBelow_lt (n := rest.length + 2) (by omega)
    simp only [List.length_take, List.length_cons]; omega
  · have := largestPowerOfTwoBelow_pos (n := rest.length + 2) (by omega)
    simp only [List.length_drop, List.length_cons]; omega

/-- The recursion of `inclusion_audit_path`, for an index in range. -/
def auditPath (index : Nat) (leaves : List Digest) : List Digest :=
  if _h : 2 ≤ leaves.length then
    let k := largestPowerOfTwoBelow leaves.length
    if index < k then auditPath index (leaves.take k) ++ [merkleTreeHash sha256 (leaves.drop k)]
    else auditPath (index - k) (leaves.drop k) ++ [merkleTreeHash sha256 (leaves.take k)]
  else []
termination_by leaves.length
decreasing_by
  · have := largestPowerOfTwoBelow_lt _h
    simp only [List.length_take]; omega
  · have := largestPowerOfTwoBelow_pos _h
    simp only [List.length_drop]; omega

/-- `inclusion_audit_path`; `none` is its `IndexError`. -/
def inclusionAuditPath (index : Int) (leaves : List Digest) : Option (List Digest) :=
  if 0 ≤ index ∧ index < leaves.length then some (auditPath sha256 index.toNat leaves) else none

/-- `while not (fn & 1) and fn != 0: fn >>= 1; sn >>= 1`. -/
def skipEven (fn sn : Nat) : Nat × Nat :=
  if fn % 2 = 0 ∧ fn ≠ 0 then skipEven (fn / 2) (sn / 2) else (fn, sn)
termination_by fn
decreasing_by omega

/-- The loop of `verify_inclusion_path`: the hash computed and the rest of the path, `none` when the path is too
short. -/
def inclusionLoop (fn sn : Nat) (acc : Digest) (path : List Digest) : Option (Digest × List Digest) :=
  if 0 < sn then
    match path with
    | [] => none
    | sib :: path =>
      if fn % 2 = 1 ∨ fn = sn then
        inclusionLoop ((skipEven fn sn).1 / 2) ((skipEven fn sn).2 / 2) (nodeHash sha256 sib acc) path
      else inclusionLoop (fn / 2) (sn / 2) (nodeHash sha256 acc sib) path
  else some (acc, path)
termination_by structural path

/-- `verify_inclusion_path`. -/
def verifyInclusionPath (leafHashValue : Digest) (index treeSize : Int) (auditPath : List Digest)
    (rootHash : Digest) : Bool :=
  if ¬ (0 ≤ index ∧ index < treeSize) then false
  else if treeSize = 1 then auditPath.length == 0 && leafHashValue == rootHash
  else match inclusionLoop sha256 index.toNat (treeSize.toNat - 1) leafHashValue auditPath with
    | none => false
    | some (acc, path) => path.length == 0 && acc == rootHash

/-- `_subproof`. -/
def subproof (m : Nat) (leaves : List Digest) (startFromOldRoot : Bool) : List Digest :=
  if m = leaves.length then (if startFromOldRoot then [] else [merkleTreeHash sha256 leaves])
  else if _h : 2 ≤ leaves.length then
    let k := largestPowerOfTwoBelow leaves.length
    if m ≤ k then subproof m (leaves.take k) startFromOldRoot ++ [merkleTreeHash sha256 (leaves.drop k)]
    else subproof (m - k) (leaves.drop k) false ++ [merkleTreeHash sha256 (leaves.take k)]
  else []
termination_by leaves.length
decreasing_by
  · have := largestPowerOfTwoBelow_lt _h
    simp only [List.length_take]; omega
  · have := largestPowerOfTwoBelow_pos _h
    simp only [List.length_drop]; omega

/-- `ct.consistency_proof`; `none` is its `ValueError`. -/
def ctConsistencyProof (first second : Int) (leaves : List Digest) : Option (List Digest) :=
  if ¬ (0 < first ∧ first ≤ second ∧ second ≤ leaves.length) then none
  else if first = second then some []
  else some (subproof sha256 first.toNat (leaves.take second.toNat) true)

/-- `_is_power_of_two`. -/
def isPowerOfTwo (n : Nat) : Bool := n > 0 && n &&& (n - 1) == 0

/-- `while fn & 1: fn >>= 1; sn >>= 1`. -/
def skipOdd (fn sn : Nat) : Nat × Nat :=
  if fn % 2 = 1 then skipOdd (fn / 2) (sn / 2) else (fn, sn)
termination_by fn
decreasing_by omega

/-- The loop of `verify_consistency_proof` over the hashes after the first one. -/
def consistencyLoop (fn sn : Nat) (fr sr : Digest) (proof : List Digest) :
    Option ((Digest × Digest) × List Digest) :=
  if 0 < sn then
    match proof with
    | [] => none
    | c :: proof =>
      if fn % 2 = 1 ∨ fn = sn then
        consistencyLoop ((skipEven fn sn).1 / 2) ((skipEven fn sn).2 / 2) (nodeHash sha256 c fr)
          (nodeHash sha256 c sr) proof
      else consistencyLoop (fn / 2) (sn / 2) fr (nodeHash sha256 sr c) proof
  else some ((fr, sr), proof)
termination_by structural proof

/-- `verify_consistency_proof`. -/
def verifyConsistencyProof (first second : Int) (firstRoot secondRoot : Digest) (proof : List Digest) : Bool :=
  if first > second ∨ first < 0 ∨ second < 0 then false
  else if first = second then firstRoot == secondRoot && proof.isEmpty
  else if first = 0 then proof.isEmpty
  else
    let proof := if isPowerOfTwo first.toNat then firstRoot :: proof else proof
    let (fn, sn) := skipOdd (first.toNat - 1) (second.toNat - 1)
    match proof with
    | [] => false
    | c :: rest =>
      match consistencyLoop sha256 fn sn c c rest with
      | none => false
      | some ((fr, sr), rest) => rest.isEmpty && fr == firstRoot && sr == secondRoot

/-! ### The provers, level by level -/

theorem merkleTreeHash_split {leaves : List Digest} {k : Nat} (h : 2 ≤ leaves.length)
    (hk : k = largestPowerOfTwoBelow leaves.length) :
    merkleTreeHash sha256 leaves =
      nodeHash sha256 (merkleTreeHash sha256 (leaves.take k)) (merkleTreeHash sha256 (leaves.drop k)) := by
  subst hk
  rcases leaves with _ | ⟨a, _ | ⟨b, rest⟩⟩
  · simp at h
  · simp at h
  · rw [merkleTreeHash]; rfl

/-- The strings hashed by the inner nodes of `merkleTreeHash leaves`. -/
def nodeInputs (leaves : List Digest) : List Bytes :=
  if _h : 2 ≤ leaves.length then
    let k := largestPowerOfTwoBelow leaves.length
    (1 :: ((merkleTreeHash sha256 (leaves.take k)).bytes ++ (merkleTreeHash sha256 (leaves.drop k)).bytes)) ::
      (nodeInputs (leaves.take k) ++ nodeInputs (leaves.drop k))
  else []
termination_by leaves.length
decreasing_by
  · have := largestPowerOfTwoBelow_lt _h
    simp only [List.length_take]; omega
  · have := largestPowerOfTwoBelow_pos _h
    simp only [List.length_drop]; omega

private theorem mem_nodeInputs {leaves : List Digest} {k : Nat} (h : 2 ≤ leaves.length)
    (hk : k = largestPowerOfTwoBelow leaves.length) (x : Bytes) :
    x ∈ nodeInputs sha256 leaves ↔
      x = 1 :: ((merkleTreeHash sha256 (leaves.take k)).bytes ++ (merkleTreeHash sha256 (leaves.drop k)).bytes) ∨
        x ∈ nodeInputs sha256 (leaves.take k) ∨ x ∈ nodeInputs sha256 (leaves.drop k) := by
  subst hk
  rw [nodeInputs, dif_pos h, List.mem_cons, List.mem_append]

/-- Two lists of one length with one root are equal when no two of the strings hashed collide. -/
theorem merkleTreeHash_inj {a b : List Digest} (hlen : a.length = b.length)
    (hinj : Set.InjOn sha256 {x | x ∈ nodeInputs sha256 a ∨ x ∈ nodeInputs sha256 b})
    (h : merkleTreeHash sha256 a = merkleTreeHash sha256 b) : a = b := by
  induction hn : a.length using Nat.strong_induction_on generalizing a b with
  | _ n ih =>
    subst hn
    rcases Nat.lt_or_ge 1 a.length with h2 | h1
    · have h2b : 2 ≤ b.length := by omega
      have hlt := largestPowerOfTwoBelow_lt h2
      have hpos := largestPowerOfTwoBelow_pos h2
      obtain ⟨k, hk⟩ : ∃ k, k = largestPowerOfTwoBelow a.length := ⟨_, rfl⟩
      have hkb : k = largestPowerOfTwoBelow b.length := by rw [hk, hlen]
      rw [← hk] at hlt hpos
      rw [merkleTreeHash_split sha256 h2 hk, merkleTreeHash_split sha256 h2b hkb] at h
      -- the two top nodes hash the same 65 bytes, so both halves have equal roots
      have htop := hinj (.inl ((mem_nodeInputs sha256 h2 hk _).2 (.inl rfl)))
        (.inr ((mem_nodeInputs sha256 h2b hkb _).2 (.inl rfl))) h
      obtain ⟨hleft, hright⟩ := List.append_inj (List.cons.inj htop).2
        (by rw [Digest.length_bytes, Digest.length_bytes])
      have htake : a.take k = b.take k := by
        refine ih (a.take k).length (by simp; omega) (by simp; omega) (hinj.mono ?_) (Digest.ext hleft) rfl
        rintro x (hx | hx)
        · exact .inl ((mem_nodeInputs sha256 h2 hk x).2 (.inr (.inl hx)))
        · exact .inr ((mem_nodeInputs sha256 h2b hkb x).2 (.inr (.inl hx)))
      have hdrop : a.drop k = b.drop k := by
        refine ih (a.drop k).length (by simp; omega) (by simp; omega) (hinj.mono ?_) (Digest.ext hright) rfl
        rintro x (hx | hx)
        · exact .inl ((mem_nodeInputs sha256 h2 hk x).2 (.inr (.inr hx)))
        · exact .inr ((mem_nodeInputs sha256 h2b hkb x).2 (.inr (.inr hx)))
      rw [← List.take_append_drop k a, htake, hdrop, List.take_append_drop]
    · rcases a with _ | ⟨x, _ | ⟨y, a⟩⟩
      · exact (List.eq_nil_of_length_eq_zero hlen.symm).symm
      · obtain ⟨z, rfl⟩ := List.length_eq_one_iff.1 hlen.symm
        rw [merkleTreeHash, merkleTreeHash] at h
        rw [h]
      · simp at h1

theorem merkleTreeHash_eq_root (leaves : List Digest) :
    merkleTreeHash sha256 leaves = root (nodeHash sha256) (emptyRoot sha256) leaves := by
  induction hn : leaves.length using Nat.strong_induction_on generalizing leaves with
  | _ n ih =>
    subst hn
    rcases Nat.lt_or_ge 1 leaves.length with h | h
    · obtain ⟨e, hk, h1, h2⟩ := largestPowerOfTwoBelow_spec h
      have hpos := Nat.two_pow_pos e
      rw [merkleTreeHash_split sha256 h hk.symm, root_split _ _ h1 h2,
        ih _ (by simp; omega) (leaves.take (2 ^ e)) rfl, ih _ (by simp; omega) (leaves.drop (2 ^ e)) rfl]
    · rcases leaves with _ | ⟨a, _ | ⟨b, rest⟩⟩
      · rw [merkleTreeHash, root_nil]
      · rw [merkleTreeHash, root_singleton]
      · simp at h

theorem auditPath_eq_siblings {leaves : List Digest} {index : Nat} (hi : index < leaves.length) :
    auditPath sha256 index leaves = siblings (nodeHash sha256) leaves index := by
  induction hn : leaves.length using Nat.strong_induction_on generalizing leaves index with
  | _ n ih =>
    subst hn
    rw [auditPath]
    split
    · rename_i h
      obtain ⟨e, hk, h1, h2⟩ := largestPowerOfTwoBelow_spec h
      have hpos := Nat.two_pow_pos e
      simp only [hk]
      split
      · rename_i hlt
        rw [siblings_split_left _ (emptyRoot sha256) h1 h2 hlt, merkleTreeHash_eq_root,
          ih (leaves.take (2 ^ e)).length (by simp; omega) (by simp; omega) rfl]
      · rename_i hge
        rw [siblings_split_right _ (emptyRoot sha256) h1 h2 (by omega) hi, merkleTreeHash_eq_root,
          ih (leaves.drop (2 ^ e)).length (by simp; omega) (by simp; omega) rfl]
    · rw [siblings_of_le_one _ (by omega)]

private theorem subproof_self (leaves : List Digest) (known : Bool) :
    subproof sha256 leaves.length leaves known = if known then [] else [merkleTreeHash sha256 leaves] := by
  rw [subproof, if_pos rfl]

theorem subproof_eq_prefixProof {leaves : List Digest} {m : Nat} {known : Bool} (h0 : 0 < m)
    (hm : m < leaves.length) :
    subproof sha256 m leaves known = prefixProof (nodeHash sha256) m leaves known := by
  induction hn : leaves.length using Nat.strong_induction_on generalizing leaves m known with
  | _ n ih =>
    subst hn
    have h : 2 ≤ leaves.length := by omega
    obtain ⟨e, hk, h1, h2⟩ := largestPowerOfTwoBelow_spec h
    have hpos := Nat.two_pow_pos e
    have htake : (leaves.take (2 ^ e)).length = 2 ^ e := by simp; omega
    rw [subproof, if_neg (by omega), dif_pos h]
    simp only [hk]
    split
    · rename_i hle
      rcases Nat.lt_or_ge m (2 ^ e) with hlt | hge
      · rw [prefixProof_split_left _ (emptyRoot sha256) h1 h2 h0 hlt, merkleTreeHash_eq_root,
          ih _ (by omega) h0 (by omega) rfl]
      · obtain rfl : m = 2 ^ e := by omega
        rw [prefixProof_split_eq _ (emptyRoot sha256) h1 h2, merkleTreeHash_eq_root]
        conv => lhs; arg 1; arg 2; rw [← htake]
        rw [subproof_self, merkleTreeHash_eq_root]
    · rename_i hgt
      rw [prefixProof_split_right _ (emptyRoot sha256) h2 (by omega) hm, merkleTreeHash_eq_root,
        ih _ (by simp; omega) (by omega) (by simp; omega) rfl]

/-! ### The loops of the verifiers -/

/-- From an even position the inner loop ends at the first odd one. -/
private theorem skipEven_self {fn : Nat} (h : fn ≠ 0) :
    ∃ t m, m % 2 = 1 ∧ fn = 2 ^ t * m ∧ skipEven fn fn = (m, m) := by
  induction fn using Nat.strong_induction_on with
  | _ fn ih =>
    rcases Nat.mod_two_eq_zero_or_one fn with hpar | hpar
    · obtain ⟨t, m, hm, hfn, hs⟩ := ih (fn / 2) (by omega) (by omega)
      refine ⟨t + 1, m, hm, ?_, ?_⟩
      · rw [Nat.pow_succ, Nat.mul_assoc, Nat.mul_left_comm, ← hfn]; omega
      · rw [skipEven, if_pos ⟨hpar, h⟩, hs]
    · exact ⟨0, fn, hpar, by simp, by rw [skipEven, if_neg (by omega)]⟩

private theorem skipEven_odd {fn : Nat} (h : fn % 2 = 1) (sn : Nat) : skipEven fn sn = (fn, sn) := by
  rw [skipEven, if_neg (by omega)]

theorem inclusionLoop_eq_climb (path : List Digest) : ∀ {fn sn : Nat} {acc : Digest}, fn ≤ sn →
    inclusionLoop sha256 fn sn acc path = climb (nodeHash sha256) fn sn acc path := by
  induction path with
  | nil =>
    intro fn sn acc hle
    rw [inclusionLoop.eq_def]
    split
    · rcases Nat.lt_or_ge fn sn with hlt | hge
      · rw [climb.eq_def, if_neg (by omega), if_neg (by omega : ¬ fn = sn)]
        simp only [ite_self]
      · -- the last node of the level is promoted until it is a right child, which needs a sibling
        obtain rfl : fn = sn := by omega
        obtain ⟨t, m, hm, rfl, -⟩ := skipEven_self (show fn ≠ 0 by omega)
        rw [climb_promote _ t (by omega), climb.eq_def, if_neg (by omega), if_pos hm]
    · rw [climb.eq_def, if_pos (by omega)]
  | cons sib path ih =>
    intro fn sn acc hle
    rw [inclusionLoop.eq_def]
    split
    · simp only
      split
      · rename_i hcase
        rcases Nat.mod_two_eq_zero_or_one fn with hpar | hpar
        · obtain rfl : fn = sn := by omega
          obtain ⟨t, m, hm, hfn, hs⟩ := skipEven_self (show fn ≠ 0 by omega)
          rw [hs, ih (Nat.le_refl _), hfn, climb_promote _ t (by omega), climb.eq_def (i := m),
            if_neg (by omega), if_pos hm]
        · rw [skipEven_odd hpar, ih (Nat.div_le_div_right hle), climb.eq_def (i := fn),
            if_neg (by omega), if_pos hpar]
      · rw [ih (Nat.div_le_div_right hle), climb.eq_def (i := fn), if_neg (by omega), if_neg (by omega),
          if_neg (by omega)]
    · rw [climb.eq_def, if_pos (by omega)]

theorem consistencyLoop_eq_climbPair (proof : List Digest) : ∀ {fn sn : Nat} {fr sr : Digest}, fn ≤ sn →
    consistencyLoop sha256 fn sn fr sr proof = climbPair (nodeHash sha256) fn sn fr sr proof := by
  induction proof with
  | nil =>
    intro fn sn fr sr hle
    rw [consistencyLoop.eq_def]
    split
    · rcases Nat.lt_or_ge fn sn with hlt | hge
      · rw [climbPair.eq_def, if_neg (by omega), if_neg (by omega : ¬ fn = sn)]
        simp only [ite_self]
      · obtain rfl : fn = sn := by omega
        obtain ⟨t, m, hm, rfl, -⟩ := skipEven_self (show fn ≠ 0 by omega)
        rw [climbPair_promote _ t (by omega), climbPair.eq_def, if_neg (by omega), if_pos hm]
    · rw [climbPair.eq_def, if_pos (by omega)]
  | cons c proof ih =>
    intro fn sn fr sr hle
    rw [consistencyLoop.eq_def]
    split
    · simp only
      split
      · rename_i hcase
        rcases Nat.mod_two_eq_zero_or_one fn with hpar | hpar
        · obtain rfl : fn = sn := by omega
          obtain ⟨t, m, hm, hfn, hs⟩ := skipEven_self (show fn ≠ 0 by omega)
          rw [hs, ih (Nat.le_refl _), hfn, climbPair_promote _ t (by omega), climbPair.eq_def (i := m),
            if_neg (by omega), if_pos hm]
        · rw [skipEven_odd hpar, ih (Nat.div_le_div_right hle), climbPair.eq_def (i := fn),
            if_neg (by omega), if_pos hpar]
      · rw [ih (Nat.div_le_div_right hle), climbPair.eq_def (i := fn), if_neg (by omega), if_neg (by omega),
          if_neg (by omega)]
    · rw [climbPair.eq_def, if_pos (by omega)]

/-! ### Completeness -/

/-- The audit path of a leaf is accepted, and consumed exactly. -/
theorem verifyInclusionPath_auditPath {leaves : List Digest} {index : Nat} {leaf : Digest}
    (hleaf : leaves[index]? = some leaf) :
    verifyInclusionPath sha256 leaf index leaves.length (auditPath sha256 index leaves)
      (merkleTreeHash sha256 leaves) = true := by
  have hi := (List.getElem?_eq_some_iff.1 hleaf).1
  rw [auditPath_eq_siblings sha256 hi, merkleTreeHash_eq_root, verifyInclusionPath, if_neg (by omega)]
  split
  · obtain ⟨a, rfl⟩ := List.length_eq_one_iff.1 (show leaves.length = 1 by omega)
    obtain rfl : index = 0 := by simp at hi; omega
    rw [siblings_of_le_one _ (by simp), root_singleton]
    simpa using hleaf.symm
  · rw [Int.toNat_natCast, Int.toNat_natCast, inclusionLoop_eq_climb sha256 _ (by omega),
      climb_siblings _ (emptyRoot sha256) hleaf]
    simp

theorem isPowerOfTwo_iff (n : Nat) : isPowerOfTwo n = true ↔ ∃ k, n = 2 ^ k := by
  unfold isPowerOfTwo
  simp only [Bool.and_eq_true, decide_eq_true_eq, beq_iff_eq]
  constructor
  · rintro ⟨h0, h⟩
    exact (Nat.and_sub_one_eq_zero_iff_isPowerOfTwo (by omega)).1 h
  · rintro ⟨k, rfl⟩
    have hpos := Nat.two_pow_pos k
    exact ⟨hpos, (Nat.and_sub_one_eq_zero_iff_isPowerOfTwo (by omega)).2 ⟨k, rfl⟩⟩

private theorem isPowerOfTwo_double {j : Nat} : isPowerOfTwo (2 * j) = isPowerOfTwo j ∨ j = 0 := by
  rcases Nat.eq_zero_or_pos j with h | h
  · exact .inr h
  · left
    rw [Bool.eq_iff_iff, isPowerOfTwo_iff, isPowerOfTwo_iff]
    constructor
    · rintro ⟨k, hk⟩
      rcases k with _ | k
      · simp at hk
      · exact ⟨k, by rw [Nat.pow_succ] at hk; omega⟩
    · rintro ⟨k, rfl⟩
      exact ⟨k + 1, by rw [Nat.pow_succ]; omega⟩

private theorem isPowerOfTwo_odd {m : Nat} (hm : m % 2 = 1) : isPowerOfTwo m = decide (m = 1) := by
  rw [Bool.eq_iff_iff, isPowerOfTwo_iff, decide_eq_true_eq]
  constructor
  · rintro ⟨k, rfl⟩
    rcases k with _ | k
    · rfl
    · rw [Nat.pow_succ] at hm; omega
  · rintro rfl
    exact ⟨0, rfl⟩

/-- The level at which the verifier starts: the last leaf of the prefix is carried up while it is a right child. -/
private theorem skipOdd_level {leaves : List Digest} {m : Nat} (h0 : 0 < m) (hm : m < leaves.length) :
    ∃ m' level, m' % 2 = 1 ∧ m' < level.length ∧ isPowerOfTwo m = isPowerOfTwo m' ∧
      skipOdd (m - 1) (leaves.length - 1) = (m' - 1, level.length - 1) ∧
      (∀ known, prefixProof (nodeHash sha256) m leaves known = prefixProof (nodeHash sha256) m' level known) ∧
      root (nodeHash sha256) (emptyRoot sha256) leaves = root (nodeHash sha256) (emptyRoot sha256) level ∧
      root (nodeHash sha256) (emptyRoot sha256) (leaves.take m) =
        root (nodeHash sha256) (emptyRoot sha256) (level.take m') := by
  induction m using Nat.strong_induction_on generalizing leaves with
  | _ m ih =>
    rcases Nat.mod_two_eq_zero_or_one m with hpar | hpar
    · obtain ⟨j, rfl⟩ : ∃ j, m = 2 * j := ⟨m / 2, by omega⟩
      have hlen := length_pairUp (nodeHash sha256) leaves
      obtain ⟨m', level, h1, h2, h3, h4, h5, h6, h7⟩ :=
        ih j (by omega) (by omega) (show j < (pairUp (nodeHash sha256) leaves).length by omega)
      refine ⟨m', level, h1, h2, ?_, ?_, fun known => ?_, ?_, ?_⟩
      · rw [(isPowerOfTwo_double (j := j)).resolve_right (by omega), h3]
      · rw [skipOdd, if_pos (by omega), show (2 * j - 1) / 2 = j - 1 by omega,
          show (leaves.length - 1) / 2 = (pairUp (nodeHash sha256) leaves).length - 1 by omega, h4]
      · rw [prefixProof_even _ (by omega) hpar, show 2 * j / 2 = j by omega, h5]
      · rw [← root_pairUp, h6]
      · rw [← root_pairUp, pairUp_take _ (by omega), h7]
    · refine ⟨m, leaves, hpar, hm, rfl, ?_, fun _ => rfl, rfl, rfl⟩
      rw [skipOdd, if_neg (by omega)]

/-- The verifier climbs from the node that the prefix ends at, with or without the leading root. -/
theorem subproof_climb {leaves : List Digest} {first : Nat} (h0 : 0 < first) (hlt : first < leaves.length) :
    ∃ fn sn x path, skipOdd (first - 1) (leaves.length - 1) = (fn, sn) ∧ fn ≤ sn ∧
      (if isPowerOfTwo first then merkleTreeHash sha256 (leaves.take first) :: subproof sha256 first leaves true
        else subproof sha256 first leaves true) = x :: path ∧
      climbPair (nodeHash sha256) fn sn x x path =
        some ((merkleTreeHash sha256 (leaves.take first), merkleTreeHash sha256 leaves), []) := by
  obtain ⟨m, level, hodd, hm, hpow, hskip, hproof, hroot, hold⟩ := skipOdd_level sha256 h0 hlt
  rw [subproof_eq_prefixProof sha256 h0 hlt, merkleTreeHash_eq_root, merkleTreeHash_eq_root, hproof, hroot,
    hold, prefixProof_odd _ hodd]
  have hx : level[m - 1]? = some level[m - 1] := List.getElem?_eq_getElem (by omega)
  have hsplit : level = level.take (m - 1) ++ level[m - 1] :: level.drop m := by
    conv => lhs; rw [← List.take_append_drop (m - 1) level, List.drop_eq_getElem_cons (by omega)]
    rw [show m - 1 + 1 = m by omega]
  have htake : level.take m = level.take (m - 1) ++ [level[m - 1]] := by
    conv => lhs; rw [show m = m - 1 + 1 by omega]
    rw [List.take_add_one, hx]; rfl
  have hlen : (level.take (m - 1)).length = m - 1 := by simp; omega
  have hclimb := climbPair_siblings (nodeHash sha256) (emptyRoot sha256) (level.take (m - 1)) (level.drop m)
    level[m - 1] level[m - 1]
  rw [← hsplit, ← htake, hlen] at hclimb
  refine ⟨m - 1, level.length - 1, level[m - 1], siblings (nodeHash sha256) level (m - 1), hskip, by omega, ?_, hclimb⟩
  rw [hpow, isPowerOfTwo_odd hodd, hx]
  by_cases h1 : m = 1
  · subst h1
    obtain ⟨a, l, rfl⟩ := List.exists_cons_of_length_pos (show 0 < level.length by omega)
    simp
  · simp [h1]

/-- The proof that the first `first` leaves are a prefix of the first `second` ones is accepted. -/
theorem verifyConsistencyProof_subproof {leaves : List Digest} {first : Nat} (h0 : 0 < first)
    (hlt : first < leaves.length) :
    verifyConsistencyProof sha256 first leaves.length (merkleTreeHash sha256 (leaves.take first))
      (merkleTreeHash sha256 leaves) (subproof sha256 first leaves true) = true := by
  obtain ⟨fn, sn, x, path, hskip, hle, hproof, hclimb⟩ := subproof_climb sha256 h0 hlt
  rw [verifyConsistencyProof, if_neg (by omega), if_neg (by omega), if_neg (by omega)]
  simp only [Int.toNat_natCast, hskip, hproof]
  rw [consistencyLoop_eq_climbPair sha256 _ hle, hclimb]
  simp

end CapsuleAnchor
