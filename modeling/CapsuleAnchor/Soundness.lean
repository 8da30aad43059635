import CapsuleAnchor.Backends
import CapsuleAnchor.Receipts
import CapsuleAnchor.Reference

/-!
# What the proofs of the tree prove

The two verifiers of `anchoring/ct.py` accept the provers' proofs (`inclusion_complete`, `consistency_complete`), and what
they accept is true of the tree: an accepted inclusion proof is the audit path of that leaf (`inclusion_sound`), and an
accepted consistency proof starts from the root of the prefix (`consistency_sound`).  Soundness supposes that no two of the
strings collide that the verifier hashes for the given proof and for the prover's.
-/

namespace CapsuleAnchor

open HashTree

section Sound

variable (sha256 : Bytes → Digest)

/-! ### The strings a verifier hashes -/

/-- The strings hashed on the way from position `fn` of a level that ends at `sn` to the root. -/
def climbInputs (fn sn : Nat) (acc : Digest) (path : List Digest) : List Bytes :=
  (climbNodes (nodeHash sha256) fn sn acc path).map fun pair => 1 :: (pair.1.bytes ++ pair.2.bytes)

/-- The strings that `verify_inclusion_path` hashes. -/
def inclusionInputs (leafHashValue : Digest) (index treeSize : Int) (auditPath : List Digest) : List Bytes :=
  climbInputs sha256 index.toNat (treeSize.toNat - 1) leafHashValue auditPath

/-- The strings that `verify_consistency_proof` hashes for the second root. -/
def consistencyInputs (first second : Int) (firstRoot : Digest) (proof : List Digest) : List Bytes :=
  let (fn, sn) := skipOdd (first.toNat - 1) (second.toNat - 1)
  match if isPowerOfTwo first.toNat then firstRoot :: proof else proof with
  | [] => []
  | c :: rest => climbInputs sha256 fn sn c rest

variable {sha256}

/-- Pairs whose strings do not collide have different node hashes. -/
private theorem injOn_nodes {fn sn : Nat} {x y : Digest} {p q : List Digest} {s : Set Bytes} (h : Set.InjOn sha256 s)
    (hx : ∀ b ∈ climbInputs sha256 fn sn x p, b ∈ s) (hy : ∀ b ∈ climbInputs sha256 fn sn y q, b ∈ s) :
    Set.InjOn (fun pair : Digest × Digest => nodeHash sha256 pair.1 pair.2)
      {pair | pair ∈ climbNodes (nodeHash sha256) fn sn x p ∨ pair ∈ climbNodes (nodeHash sha256) fn sn y q} := by
  have hmem : ∀ pair : Digest × Digest, pair ∈ climbNodes (nodeHash sha256) fn sn x p ∨
      pair ∈ climbNodes (nodeHash sha256) fn sn y q → (1 :: (pair.1.bytes ++ pair.2.bytes)) ∈ s := by
    rintro pair (hpair | hpair)
    · exact hx _ (List.mem_map_of_mem hpair)
    · exact hy _ (List.mem_map_of_mem hpair)
  intro a ha b hb hab
  have hbytes := (List.cons.inj (h (hmem a ha) (hmem b hb) hab)).2
  obtain ⟨hleft, hright⟩ := List.append_inj hbytes (by rw [Digest.length_bytes, Digest.length_bytes])
  exact Prod.ext (Digest.ext hleft) (Digest.ext hright)

/-! ### Inclusion -/

/-- What the verifier accepts is a climb to the root. -/
private theorem climb_of_verify {leaf root : Digest} {index treeSize : Int} {path : List Digest}
    (h : verifyInclusionPath sha256 leaf index treeSize path root = true) : 0 ≤ index ∧ index < treeSize ∧
      climb (nodeHash sha256) index.toNat (treeSize.toNat - 1) leaf path = some (root, []) := by
  unfold verifyInclusionPath at h
  split at h
  · cases h
  · rename_i hrange
    rw [not_not] at hrange
    refine ⟨hrange.1, hrange.2, ?_⟩
    split at h
    · rename_i hone
      obtain ⟨hnil, rfl⟩ : path = [] ∧ leaf = root := by simpa using h
      rw [climb.eq_def, if_pos (by omega), hnil]
    · split at h
      · cases h
      · rename_i acc rest hloop
        obtain ⟨rfl, rfl⟩ : rest = [] ∧ acc = root := by simpa using h
        rw [← inclusionLoop_eq_climb sha256 _ (by omega)]
        exact hloop

variable (sha256)

/-- An accepted inclusion proof is the audit path of its leaf, unless two of the strings hashed collide. -/
theorem inclusion_sound (leaves : List Digest) (h : Digest) (index : Int) (path : List Digest)
    (hinj : Set.InjOn sha256 {x | x ∈ inclusionInputs sha256 h index leaves.length path ∨
      ∃ leaf, leaves[index.toNat]? = some leaf ∧
        x ∈ inclusionInputs sha256 leaf index leaves.length (auditPath sha256 index.toNat leaves)})
    (hverify : verifyInclusionPath sha256 h index leaves.length path (merkleTreeHash sha256 leaves) = true) :
    (0 ≤ index ∧ index < leaves.length) ∧ leaves[index.toNat]? = some h ∧
      inclusionAuditPath sha256 index leaves = some path := by
  obtain ⟨h0, hlt, hclimb⟩ := climb_of_verify hverify
  obtain ⟨i, rfl⟩ := Int.eq_ofNat_of_zero_le h0
  simp only [Int.toNat_natCast] at hclimb hinj ⊢
  have hi : i < leaves.length := by omega
  have hleaf : leaves[i]? = some leaves[i] := List.getElem?_eq_getElem hi
  obtain ⟨-, -, hhonest⟩ := climb_of_verify (verifyInclusionPath_auditPath sha256 hleaf)
  simp only [Int.toNat_natCast] at hhonest
  obtain ⟨rfl, rfl⟩ := climb_inj (nodeHash sha256)
    (injOn_nodes hinj (fun b hb => .inl hb) fun b hb => .inr ⟨_, hleaf, hb⟩) hclimb hhonest
  refine ⟨⟨h0, hlt⟩, hleaf, ?_⟩
  rw [inclusionAuditPath, if_pos ⟨h0, hlt⟩, Int.toNat_natCast]

/-- The audit path of a leaf is accepted, and the verifier uses it up. -/
theorem inclusion_complete (leaves : List Digest) (index : Int) (h0 : 0 ≤ index) (hlt : index < leaves.length) :
    ∃ leaf path, leaves[index.toNat]? = some leaf ∧ inclusionAuditPath sha256 index leaves = some path ∧
      verifyInclusionPath sha256 leaf index leaves.length path (merkleTreeHash sha256 leaves) = true ∧
      inclusionLoop sha256 index.toNat (leaves.length - 1) leaf path = some (merkleTreeHash sha256 leaves, []) := by
  obtain ⟨i, rfl⟩ := Int.eq_ofNat_of_zero_le h0
  have hi : i < leaves.length := by omega
  have hleaf : leaves[i]? = some leaves[i] := List.getElem?_eq_getElem hi
  have hverify := verifyInclusionPath_auditPath sha256 hleaf
  obtain ⟨-, -, hclimb⟩ := climb_of_verify hverify
  simp only [Int.toNat_natCast] at hclimb ⊢
  refine ⟨leaves[i], auditPath sha256 i leaves, hleaf, ?_, hverify, ?_⟩
  · rw [inclusionAuditPath, if_pos ⟨h0, hlt⟩, Int.toNat_natCast]
  · rw [inclusionLoop_eq_climb sha256 _ (by omega), hclimb]

theorem inclusion_complete_sample : ∃ leaf path, [hashlibSha256 [1], hashlibSha256 [2]][1]? = some leaf ∧
    inclusionAuditPath hashlibSha256 1 [hashlibSha256 [1], hashlibSha256 [2]] = some path ∧
      verifyInclusionPath hashlibSha256 leaf 1 2 path
        (merkleTreeHash hashlibSha256 [hashlibSha256 [1], hashlibSha256 [2]]) = true := by
  obtain ⟨leaf, path, hleaf, hpath, hverify, -⟩ :=
    inclusion_complete hashlibSha256 [hashlibSha256 [1], hashlibSha256 [2]] 1 (by decide) (by decide)
  exact ⟨leaf, path, hleaf, hpath, hverify⟩

private theorem auditPath_two (x y : Digest) : auditPath sha256 1 [x, y] = [x] := by
  rw [auditPath_eq_siblings sha256 (by simp), siblings_of_two_le _ (by simp), siblings_of_le_one _ (by simp)]
  simp [sibling]

private theorem climbInputs_two (x y : Digest) : climbInputs sha256 1 1 y [x] = [1 :: (x.bytes ++ y.bytes)] ∧
    climbInputs sha256 0 1 x [y] = [1 :: (x.bytes ++ y.bytes)] := by
  constructor
  · rw [climbInputs, climbNodes.eq_def, if_neg (by decide), if_pos (by decide)]
    simp only
    rw [climbNodes.eq_def, if_pos (by decide)]
    rfl
  · rw [climbInputs, climbNodes.eq_def, if_neg (by decide), if_neg (by decide), if_neg (by decide)]
    simp only
    rw [climbNodes.eq_def, if_pos (by decide)]
    rfl

theorem inclusion_sound_sample :
    (0 ≤ (1 : Int) ∧ (1 : Int) < 2) ∧ [hashlibSha256 [1], hashlibSha256 [2]][1]? = some (hashlibSha256 [2]) ∧
      inclusionAuditPath hashlibSha256 1 [hashlibSha256 [1], hashlibSha256 [2]] = some [hashlibSha256 [1]] := by
  have hverify := verifyInclusionPath_auditPath hashlibSha256
    (show [hashlibSha256 [1], hashlibSha256 [2]][1]? = some (hashlibSha256 [2]) from rfl)
  rw [auditPath_two] at hverify
  refine inclusion_sound hashlibSha256 [hashlibSha256 [1], hashlibSha256 [2]] (hashlibSha256 [2]) 1 [hashlibSha256 [1]] ?_
    hverify
  -- one string is hashed
  have hone : ∀ x, (x ∈ inclusionInputs hashlibSha256 (hashlibSha256 [2]) 1 2 [hashlibSha256 [1]] ∨
      ∃ leaf, [hashlibSha256 [1], hashlibSha256 [2]][1]? = some leaf ∧ x ∈ inclusionInputs hashlibSha256 leaf 1 2
        (auditPath hashlibSha256 1 [hashlibSha256 [1], hashlibSha256 [2]])) →
      x = 1 :: ((hashlibSha256 [1]).bytes ++ (hashlibSha256 [2]).bytes) := by
    rw [auditPath_two]
    rintro x (hx | ⟨leaf, hleaf, hx⟩)
    · exact List.mem_singleton.1 ((climbInputs_two hashlibSha256 _ _).1 ▸ hx)
    · obtain rfl := Option.some.inj hleaf
      exact List.mem_singleton.1 ((climbInputs_two hashlibSha256 _ _).1 ▸ hx)
  intro x hx y hy _
  rw [hone x hx, hone y hy]

/-! ### Consistency -/

variable {sha256} in
/-- What the verifier accepts for two different sizes is a climb from one hash to both roots. -/
private theorem climbPair_of_verify {firstRoot secondRoot : Digest} {first second : Nat} {proof : List Digest}
    (h0 : 0 < first) (hlt : first < second)
    (h : verifyConsistencyProof sha256 first second firstRoot secondRoot proof = true) :
    ∃ c rest, (if isPowerOfTwo first then firstRoot :: proof else proof) = c :: rest ∧
      consistencyLoop sha256 (skipOdd (first - 1) (second - 1)).1 (skipOdd (first - 1) (second - 1)).2 c c rest =
        some ((firstRoot, secondRoot), []) := by
  rw [verifyConsistencyProof, if_neg (by omega), if_neg (by omega), if_neg (by omega)] at h
  simp only [Int.toNat_natCast] at h
  split at h
  · cases h
  · rename_i c rest hproof
    refine ⟨c, rest, hproof, ?_⟩
    split at h
    · cases h
    · rename_i fr sr left hloop
      obtain ⟨⟨rfl, rfl⟩, rfl⟩ : (left = [] ∧ fr = firstRoot) ∧ sr = secondRoot := by simpa using h
      exact hloop

/-- An accepted consistency proof starts from the root of the prefix, unless two of the strings hashed collide. -/
theorem consistency_sound (first second : Int) (h0 : 0 < first) (hle : first ≤ second) (leaves : List Digest)
    (hlen : leaves.length = second) (firstRoot : Digest) (proof : List Digest)
    (hinj : Set.InjOn sha256 {x | x ∈ consistencyInputs sha256 first second firstRoot proof ∨
      x ∈ consistencyInputs sha256 first second (merkleTreeHash sha256 (leaves.take first.toNat))
        (subproof sha256 first.toNat leaves true)})
    (hverify : verifyConsistencyProof sha256 first second firstRoot (merkleTreeHash sha256 leaves) proof = true) :
    firstRoot = merkleTreeHash sha256 (leaves.take first.toNat) := by
  obtain ⟨m, rfl⟩ := Int.eq_ofNat_of_zero_le h0.le
  subst hlen
  simp only [Int.toNat_natCast] at hinj ⊢
  have hm : 0 < m := by omega
  by_cases heq : m = leaves.length
  · subst heq
    rw [verifyConsistencyProof, if_neg (by omega), if_pos rfl] at hverify
    rw [List.take_length]
    have hroots : firstRoot = merkleTreeHash sha256 leaves ∧ proof = [] := by simpa using hverify
    exact hroots.1
  · have hlt : m < leaves.length := by omega
    obtain ⟨fn, sn, x, path, hskip, hfn, hhonest, hclimb⟩ := subproof_climb sha256 hm hlt
    obtain ⟨c, rest, hgiven, hloop⟩ := climbPair_of_verify hm hlt hverify
    rw [hskip, consistencyLoop_eq_climbPair sha256 _ hfn] at hloop
    simp only [consistencyInputs, Int.toNat_natCast, hskip, hgiven, hhonest] at hinj
    -- the second hash climbs alone, to the same root from both starts
    obtain ⟨rfl, rfl⟩ := climb_inj (nodeHash sha256)
      (injOn_nodes hinj (fun b hb => .inl hb) fun b hb => .inr hb) (climb_of_climbPair _ hloop) (climb_of_climbPair _ hclimb)
    rw [hclimb] at hloop
    cases hloop
    rfl

theorem consistency_sound_sample : hashlibSha256 [1] =
    merkleTreeHash hashlibSha256 ([hashlibSha256 [1], hashlibSha256 [2]].take (1 : Int).toNat) := by
  have hsub : subproof hashlibSha256 1 [hashlibSha256 [1], hashlibSha256 [2]] true = [hashlibSha256 [2]] := by
    rw [subproof_eq_prefixProof _ (by decide) (by decide), prefixProof_odd _ (by decide), siblings_of_two_le _ (by decide),
      siblings_of_le_one _ (by decide)]
    rfl
  have htake : merkleTreeHash hashlibSha256 ([hashlibSha256 [1], hashlibSha256 [2]].take 1) = hashlibSha256 [1] := by
    rw [List.take_succ_cons, List.take_zero, merkleTreeHash]
  have hverify := verifyConsistencyProof_subproof hashlibSha256 (show 0 < 1 by decide)
    (show 1 < [hashlibSha256 [1], hashlibSha256 [2]].length by decide)
  rw [hsub, htake] at hverify
  refine consistency_sound hashlibSha256 1 2 (by decide) (by decide) [hashlibSha256 [1], hashlibSha256 [2]] rfl
    (hashlibSha256 [1]) [hashlibSha256 [2]] ?_ hverify
  have hone : ∀ x, (x ∈ consistencyInputs hashlibSha256 1 2 (hashlibSha256 [1]) [hashlibSha256 [2]] ∨
      x ∈ consistencyInputs hashlibSha256 1 2
        (merkleTreeHash hashlibSha256 ([hashlibSha256 [1], hashlibSha256 [2]].take (1 : Int).toNat))
        (subproof hashlibSha256 (1 : Int).toNat [hashlibSha256 [1], hashlibSha256 [2]] true)) →
      x = 1 :: ((hashlibSha256 [1]).bytes ++ (hashlibSha256 [2]).bytes) := by
    have hinputs : consistencyInputs hashlibSha256 1 2 (hashlibSha256 [1]) [hashlibSha256 [2]] =
        climbInputs hashlibSha256 0 1 (hashlibSha256 [1]) [hashlibSha256 [2]] := by
      have hskip : skipOdd 0 1 = (0, 1) := by
        rw [skipOdd, if_neg (by decide)]
      simp only [consistencyInputs, Int.toNat_one, Nat.sub_self, show (2 : Int).toNat - 1 = 1 from rfl, hskip]
      rfl
    rw [Int.toNat_one, hsub, htake, hinputs, (climbInputs_two hashlibSha256 _ _).2]
    rintro x (hx | hx) <;> exact List.mem_singleton.1 hx
  intro x hx y hy _
  rw [hone x hx, hone y hy]

end Sound

section Complete

variable (E : Env)

/-- The prover's consistency proof is accepted for every two sizes of a tree, and a service over any store accepts its own
for every two sizes of its log. -/
theorem consistency_complete :
    (∀ (leaves : List Digest) (first second : Int), 0 < first → first ≤ second → second ≤ leaves.length →
      ∃ proof, ctConsistencyProof E.sha256 first second leaves = some proof ∧
        verifyConsistencyProof E.sha256 first second (merkleTreeHash E.sha256 (leaves.take first.toNat))
          (merkleTreeHash E.sha256 (leaves.take second.toNat)) proof = true) ∧
    ∀ (b : Backend) (s : b.Store) (oldSize newSize : Int), 0 ≤ oldSize → oldSize ≤ newSize →
      newSize ≤ (b.exec E (.entriesAfter 0) s).1.length →
      ∃ proof, (consistencyProof E oldSize newSize).runRaising (b.Raises E) (b.exec E) s =
          (.ok proof, (b.exec E (.entriesAfter 0) s).2) ∧ verifyConsistency E proof = true := by
  constructor
  · intro leaves first second h0 hle hn
    obtain ⟨m, rfl⟩ := Int.eq_ofNat_of_zero_le h0.le
    obtain ⟨n, rfl⟩ := Int.eq_ofNat_of_zero_le (h0.le.trans hle)
    rw [ctConsistencyProof, if_neg (by omega)]
    simp only [Int.toNat_natCast]
    by_cases heq : (m : Int) = n
    · rw [if_pos heq]
      obtain rfl : m = n := by omega
      exact ⟨[], rfl, by simp [verifyConsistencyProof]⟩
    · rw [if_neg heq]
      refine ⟨_, rfl, ?_⟩
      have hlen : (leaves.take n).length = n := by simp; omega
      have hverify := verifyConsistencyProof_subproof E.sha256 (show 0 < m by omega)
        (show m < (leaves.take n).length by omega)
      rw [hlen, List.take_take, Nat.min_eq_left (by omega)] at hverify
      exact hverify
  · intro b s oldSize newSize h0 hle hn
    obtain ⟨m, rfl⟩ := Int.eq_ofNat_of_zero_le h0
    obtain ⟨n, rfl⟩ := Int.eq_ofNat_of_zero_le (h0.trans hle)
    obtain ⟨proof, hproof, -, -, hverify⟩ := consistencyOver_ok E (b.exec E (.entriesAfter 0) s).1
      (show m ≤ n by omega) (show n ≤ (b.exec E (.entriesAfter 0) s).1.length by omega)
    refine ⟨proof, ?_, hverify⟩
    rw [consistencyProof_eq, Prog.runRaising_bind_ok (b.run_transparencyLog E s), hproof]
    rfl

omit E in
theorem consistency_complete_sample :
    let E := refEnv [] [] fun _ _ _ _ _ => true
    (∃ proof, ctConsistencyProof E.sha256 1 2 [E.sha256 [1], E.sha256 [2]] = some proof ∧
      verifyConsistencyProof E.sha256 1 2 (merkleTreeHash E.sha256 ([E.sha256 [1], E.sha256 [2]].take (1 : Int).toNat))
        (merkleTreeHash E.sha256 ([E.sha256 [1], E.sha256 [2]].take (2 : Int).toNat)) proof = true) ∧
    ∃ proof, (consistencyProof E 0 0).runRaising (Backend.sqlite.Raises E) (Backend.sqlite.exec E) Backend.sqlite.empty =
      (.ok proof, (Backend.sqlite.exec E (.entriesAfter 0) Backend.sqlite.empty).2) ∧ verifyConsistency E proof = true := by
  intro E
  exact ⟨(consistency_complete E).1 [E.sha256 [1], E.sha256 [2]] 1 2 (by decide) (by decide) (by decide),
    (consistency_complete E).2 .sqlite Backend.sqlite.empty 0 0 (by decide) (by decide) (Int.natCast_nonneg _)⟩

end Complete

end CapsuleAnchor
