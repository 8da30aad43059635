import CapsuleAnchor.HashTerms
import CapsuleAnchor.Reference

/-!
# The tree of a tenant's ledger (`contracts/crypto_shim.py`)

`merkle_root`, `merkle_proof` and `verify_merkle_proof`, level by level over hex strings: two neighbours are joined as
the SHA-256 of their concatenated text, an odd node is promoted unchanged.  A string is taken to be a sequence of Unicode
scalar values, so `str.encode` does not raise.

`merkleProof_complete`: the prover returns the siblings of the leaf, and the verifier accepts them.  The tree has no tags
that tell a leaf from an inner node, so the verifier accepts more than leaves: `ledger_inclusion_sound` says what.
-/

namespace CapsuleAnchor

/-- `str.encode`. -/
def utf8 (s : String) : Bytes := s.toUTF8.data.toList

/-- An inclusion proof over the tree of a tenant. -/
structure MerkleProof where
  leafHash : String
  rootHash : String
  /-- The siblings from the leaf to the root, and whether a sibling is on the right. -/
  path : List (String × Bool)

variable (E : Env)

/-- `hashlib.sha256((a + b).encode()).hexdigest()`. -/
def combine (a b : String) : String := (E.sha256 (utf8 (a ++ b))).hex

/-- `range(0, n, 2)`. -/
def evens (n : Nat) : List Nat := (List.range ((n + 1) / 2)).map (2 * ·)

/-- One level of `merkle_root`. -/
def rootLevel (level : List String) : List String :=
  (evens level.length).foldl (fun nxt i =>
    if i + 1 < level.length then nxt ++ [combine E (level.getD i "") (level.getD (i + 1) "")]
    else nxt ++ [level.getD i ""]) []

/-- The variables of `merkle_proof` in a level. -/
structure ProverState where
  path : List (String × Bool)
  idx : Nat
  nxt : List String

/-- The body of the inner loop of `merkle_proof`. -/
def provePair (level : List String) (s : ProverState) (i : Nat) : ProverState :=
  if i + 1 < level.length then
    let parent := combine E (level.getD i "") (level.getD (i + 1) "")
    if i = s.idx ∨ i + 1 = s.idx then
      let sibRight := s.idx = i
      let sib := if sibRight then level.getD (i + 1) "" else level.getD i ""
      { path := s.path ++ [(sib, decide sibRight)], idx := s.nxt.length, nxt := s.nxt ++ [parent] }
    else { s with nxt := s.nxt ++ [parent] }
  else
    { s with idx := if i = s.idx then s.nxt.length else s.idx, nxt := s.nxt ++ [level.getD i ""] }

/-- One level of `merkle_proof`. -/
def proveLevel (level : List String) (path : List (String × Bool)) (idx : Nat) : ProverState :=
  (evens level.length).foldl (provePair E level) { path, idx, nxt := [] }

/-! ### A level -/

private theorem foldl_evens {σ : Type} (f : σ → Nat → σ) (s : σ) (n : Nat) {P : Nat → σ → Prop} (h : P 0 s)
    (hstep : ∀ m s, 2 * m < n → P m s → P (m + 1) (f s (2 * m))) : P ((n + 1) / 2) ((evens n).foldl f s) := by
  have hprefix : ∀ m ≤ (n + 1) / 2, P m (((List.range m).map (2 * ·)).foldl f s) := by
    intro m
    induction m with
    | zero => exact fun _ => h
    | succ m ih =>
      intro hm
      rw [List.range_succ, List.map_append, List.foldl_append]
      exact hstep m _ (by omega) (ih (by omega))
  exact hprefix _ (le_refl _)

/-- The next node of the level above, from the pair at `2 * m`. -/
private theorem take_succ_pairUp (level : List String) {m : Nat} (hm : 2 * m < level.length) :
    (HashTree.pairUp (combine E) level).take (m + 1) = (HashTree.pairUp (combine E) level).take m ++
      [if 2 * m + 1 < level.length then combine E (level.getD (2 * m) "") (level.getD (2 * m + 1) "")
        else level.getD (2 * m) ""] := by
  have hleft : level[2 * m]? = some (level.getD (2 * m) "") := by
    rw [List.getD_eq_getElem?_getD, List.getElem?_eq_getElem hm, Option.getD_some]
  rw [List.take_add_one]
  congr 1
  split
  · rename_i hright
    have hnext : level[2 * m + 1]? = some (level.getD (2 * m + 1) "") := by
      rw [List.getD_eq_getElem?_getD, List.getElem?_eq_getElem hright, Option.getD_some]
    rw [HashTree.getElem?_pairUp_pair (combine E) hleft hnext]
    rfl
  · rw [HashTree.getElem?_pairUp_last (combine E) hleft (by omega)]
    rfl

private theorem take_pairUp_half (level : List String) : (HashTree.pairUp (combine E) level).take
    ((level.length + 1) / 2) = HashTree.pairUp (combine E) level := by
  rw [List.take_of_length_le (by rw [HashTree.length_pairUp])]

theorem rootLevel_eq (level : List String) : rootLevel E level = HashTree.pairUp (combine E) level := by
  rw [← take_pairUp_half E level]
  refine foldl_evens (P := fun m nxt => nxt = (HashTree.pairUp (combine E) level).take m) _ _ _ rfl ?_
  rintro m nxt hm rfl
  rw [take_succ_pairUp E level hm]
  split <;> rfl

/-- What a level adds to the path of the node at `idx`. -/
def pathStep (level : List String) (idx : Nat) : List (String × Bool) :=
  if idx % 2 = 1 then [(level.getD (idx - 1) "", false)]
  else if idx + 1 < level.length then [(level.getD (idx + 1) "", true)] else []

/-- The state of the inner loop after `m` pairs: once the pair of the tracked node is behind, its index is one of the
level above, and no later pair has that index. -/
def Proved (level : List String) (path : List (String × Bool)) (idx m : Nat) : ProverState where
  path := if idx / 2 < m then path ++ pathStep level idx else path
  idx := if idx / 2 < m then idx / 2 else idx
  nxt := (HashTree.pairUp (combine E) level).take m

theorem provePair_step {level : List String} {idx : Nat} (hidx : idx < level.length) (path : List (String × Bool))
    {m : Nat} (hm : 2 * m < level.length) :
    provePair E level (Proved E level path idx m) (2 * m) = Proved E level path idx (m + 1) := by
  have hlen : (HashTree.pairUp (combine E) level).length = (level.length + 1) / 2 := HashTree.length_pairUp _ _
  have htake : ((HashTree.pairUp (combine E) level).take m).length = m := by
    rw [List.length_take, hlen]
    omega
  have hnext := take_succ_pairUp E level hm
  rcases Nat.lt_trichotomy (idx / 2) m with hpast | hhere | hahead
  · -- the pair of the tracked node is behind
    have hnow : Proved E level path idx m =
        ⟨path ++ pathStep level idx, idx / 2, (HashTree.pairUp (combine E) level).take m⟩ := by
      simp [Proved, hpast]
    have hthen : Proved E level path idx (m + 1) =
        ⟨path ++ pathStep level idx, idx / 2, (HashTree.pairUp (combine E) level).take (m + 1)⟩ := by
      simp [Proved, show idx / 2 < m + 1 by omega]
    have hother : ¬ (2 * m = idx / 2 ∨ 2 * m + 1 = idx / 2) := by omega
    have hlast : 2 * m ≠ idx / 2 := by omega
    rw [hnow, hthen, hnext, provePair]
    simp only [if_neg hother, if_neg hlast]
    split <;> rfl
  · have hnow : Proved E level path idx m = ⟨path, idx, (HashTree.pairUp (combine E) level).take m⟩ := by
      simp [Proved, hhere]
    have hthen : Proved E level path idx (m + 1) =
        ⟨path ++ pathStep level idx, m, (HashTree.pairUp (combine E) level).take (m + 1)⟩ := by
      simp [Proved, hhere]
    rw [hnow, hthen, hnext, provePair]
    by_cases hpair : 2 * m + 1 < level.length
    · rcases (show idx = 2 * m ∨ idx = 2 * m + 1 by omega) with rfl | rfl
      · simp [hpair, htake, pathStep]
      · have hodd : (2 * m + 1) % 2 = 1 := by omega
        simp [hpair, htake, pathStep, hodd]
    · obtain rfl : idx = 2 * m := by omega
      simp [hpair, htake, pathStep]
  · have hnow : Proved E level path idx m = ⟨path, idx, (HashTree.pairUp (combine E) level).take m⟩ := by
      simp [Proved, show ¬ idx / 2 < m by omega]
    have hthen : Proved E level path idx (m + 1) = ⟨path, idx, (HashTree.pairUp (combine E) level).take (m + 1)⟩ := by
      simp [Proved, show ¬ idx / 2 < m + 1 by omega]
    have hother : ¬ (2 * m = idx ∨ 2 * m + 1 = idx) := by omega
    have hlast : 2 * m ≠ idx := by omega
    rw [hnow, hthen, hnext, provePair]
    simp only [if_neg hother, if_neg hlast]
    split <;> rfl

/-- A level of the prover. -/
theorem proveLevel_eq {level : List String} {idx : Nat} (hidx : idx < level.length) (path : List (String × Bool)) :
    proveLevel E level path idx =
      ⟨path ++ pathStep level idx, idx / 2, HashTree.pairUp (combine E) level⟩ := by
  have hfold : proveLevel E level path idx = Proved E level path idx ((level.length + 1) / 2) := by
    refine foldl_evens (P := fun m s => s = Proved E level path idx m) _ _ _ (by simp [Proved]) ?_
    rintro m s hm rfl
    exact provePair_step E hidx path hm
  rw [hfold, Proved, take_pairUp_half, if_pos (by omega), if_pos (by omega)]

private theorem length_nxt (level : List String) (path : List (String × Bool)) (idx : Nat) :
    (proveLevel E level path idx).nxt.length = (level.length + 1) / 2 := by
  refine foldl_evens (P := fun m (s : ProverState) => s.nxt.length = m) _ _ _ rfl ?_
  intro m s _ hs
  rw [provePair]
  split
  · split <;> simp [hs]
  · simp [hs]

/-! ### The three functions -/

/-- The loop of `merkle_root`. -/
def rootLoop (level : List String) : String :=
  if 1 < level.length then rootLoop (rootLevel E level) else level.headD ""
termination_by level.length
decreasing_by rw [rootLevel_eq, HashTree.length_pairUp]; omega

/-- `merkle_root`. -/
def merkleRoot (leafHashes : List String) : String := if leafHashes = [] then "" else rootLoop E leafHashes

/-- The loop of `merkle_proof`: the path and the root. -/
def proveLoop (level : List String) (path : List (String × Bool)) (idx : Nat) : List (String × Bool) × String :=
  if 1 < level.length then
    let s := proveLevel E level path idx
    proveLoop s.nxt s.path s.idx
  else (path, level.headD "")
termination_by level.length
decreasing_by rw [length_nxt]; omega

/-- `merkle_proof`. -/
def merkleProof (leafHashes : List String) (index : Int) : Except ServiceError MerkleProof :=
  if leafHashes = [] ∨ ¬ (0 ≤ index ∧ index < leafHashes.length) then .error (.indexError "leaf index out of range")
  else
    let proved := proveLoop E leafHashes [] index.toNat
    .ok { leafHash := leafHashes.getD index.toNat "", rootHash := proved.2, path := proved.1 }

/-- `verify_merkle_proof`. -/
def verifyMerkleProof (proof : MerkleProof) : Bool :=
  (proof.path.foldl (fun acc s => if s.2 then combine E acc s.1 else combine E s.1 acc) proof.leafHash) == proof.rootHash

/-- `inclusion_proof`. -/
def inclusionProof (leafHashes : List String) (index : Int) : Except ServiceError MerkleProof :=
  merkleProof E leafHashes index

/-- `verify_inclusion_ledger`. -/
def verifyInclusionLedger (proof : MerkleProof) (anchoredRootHash : Option String) : Bool :=
  if ¬ verifyMerkleProof E proof then false
  else ¬ (anchoredRootHash.isSome ∧ some proof.rootHash ≠ anchoredRootHash)

/-! ### The tree that they compute -/

theorem rootLoop_eq (level : List String) : rootLoop E level = HashTree.root (combine E) "" level := by
  induction level using rootLoop.induct E with
  | case1 level hlong ih => rw [rootLoop, if_pos hlong, ih, rootLevel_eq, HashTree.root_pairUp]
  | case2 level hshort =>
    rw [rootLoop, if_neg hshort]
    rcases level with _ | ⟨a, _ | ⟨b, level⟩⟩
    · simp
    · simp
    · simp at hshort

/-- The tree over the leaves. -/
def ledgerTree (leafHashes : List String) : HashTree.Term String := HashTree.term "" leafHashes

theorem merkleRoot_eq (leafHashes : List String) :
    merkleRoot E leafHashes = (ledgerTree leafHashes).hash (combine E) := by
  rw [merkleRoot, ledgerTree, HashTree.hash_term]
  split
  · rename_i hnil
    simp [hnil]
  · exact rootLoop_eq E leafHashes

open HashTree (Term Siblings)

/-- A level that is made of trees. -/
theorem proveLoop_spec {ts : List (Term String)} {idx : Nat} {t : Term String} (ht : ts[idx]? = some t)
    (empty : Term String) (path : List (String × Bool)) :
    ∃ up, proveLoop E (ts.map (Term.hash (combine E))) path idx =
      (path ++ up, (HashTree.root Term.node empty ts).hash (combine E)) ∧
      Siblings (combine E) (HashTree.root Term.node empty ts) t up := by
  induction hn : ts.length using Nat.strong_induction_on generalizing ts idx t path with
  | _ n ih =>
    obtain ⟨hidx, -⟩ := List.getElem?_eq_some_iff.1 ht
    by_cases hlong : 1 < ts.length
    · have hlen : (ts.map (Term.hash (combine E))).length = ts.length := List.length_map _
      have hpair : HashTree.pairUp (combine E) (ts.map (Term.hash (combine E))) =
          (HashTree.pairUp Term.node ts).map (Term.hash (combine E)) :=
        (HashTree.map_pairUp (f := Term.hash (combine E)) (fun _ _ => rfl) ts).symm
      have hstep : ∃ above, (HashTree.pairUp Term.node ts)[idx / 2]? = some above ∧
          Siblings (combine E) above t (pathStep (ts.map (Term.hash (combine E))) idx) := by
        have hsib : ∀ i s, ts[i]? = some s →
            (ts.map (Term.hash (combine E))).getD i "" = s.hash (combine E) := by
          intro i s hs
          rw [List.getD_eq_getElem?_getD, List.getElem?_map, hs]
          rfl
        rw [pathStep, hlen]
        by_cases hodd : idx % 2 = 1
        · obtain ⟨s, hs⟩ : ∃ s, ts[idx - 1]? = some s := ⟨_, List.getElem?_eq_getElem (by omega)⟩
          rw [if_pos hodd, hsib _ s hs]
          refine ⟨.node s t, ?_, .right (.refl t)⟩
          refine HashTree.getElem?_pairUp_pair Term.node ?_ ?_
          · rwa [show 2 * (idx / 2) = idx - 1 by omega]
          · rwa [show 2 * (idx / 2) + 1 = idx by omega]
        · rw [if_neg hodd]
          have hleft : ts[2 * (idx / 2)]? = some t := by rwa [show 2 * (idx / 2) = idx by omega]
          by_cases hnext : idx + 1 < ts.length
          · obtain ⟨s, hs⟩ : ∃ s, ts[idx + 1]? = some s := ⟨_, List.getElem?_eq_getElem hnext⟩
            rw [if_pos hnext, hsib _ s hs]
            refine ⟨.node t s, ?_, .left (.refl t)⟩
            refine HashTree.getElem?_pairUp_pair Term.node hleft ?_
            rwa [show 2 * (idx / 2) + 1 = idx + 1 by omega]
          · rw [if_neg hnext]
            exact ⟨t, HashTree.getElem?_pairUp_last Term.node hleft (by omega), .refl t⟩
      obtain ⟨above, habove, hsiblings⟩ := hstep
      have hshorter : (HashTree.pairUp Term.node ts).length < n := by
        rw [HashTree.length_pairUp]
        omega
      obtain ⟨up, hloop, hup⟩ := ih _ hshorter habove
        (path ++ pathStep (ts.map (Term.hash (combine E))) idx) rfl
      rw [HashTree.root_pairUp] at hloop hup
      refine ⟨pathStep (ts.map (Term.hash (combine E))) idx ++ up, ?_, hup.trans hsiblings⟩
      rw [proveLoop, if_pos (by rwa [hlen]), proveLevel_eq E (by rwa [hlen]) path]
      simp only
      rw [hpair, hloop, List.append_assoc]
    · obtain ⟨s, rfl⟩ := List.length_eq_one_iff.1 (show ts.length = 1 by omega)
      obtain rfl : idx = 0 := by simpa using hidx
      obtain rfl : s = t := by simpa using ht
      refine ⟨[], ?_, ?_⟩
      · rw [proveLoop, if_neg (by simp)]
        simp
      · rw [HashTree.root_singleton]
        exact .refl s

/-! ### Completeness -/

theorem verifyMerkleProof_iff {proof : MerkleProof} :
    verifyMerkleProof E proof = true ↔ HashTree.foldPath (combine E) proof.leafHash proof.path = proof.rootHash := by
  simp only [verifyMerkleProof, HashTree.foldPath, beq_iff_eq]
  rfl

/-- The text that a step of the verifier hashes. -/
def stepText (acc : String) (s : String × Bool) : String := if s.2 then acc ++ s.1 else s.1 ++ acc

/-- The strings that `verify_merkle_proof` hashes. -/
def pathTexts (leaf : String) : List (String × Bool) → List Bytes
  | [] => []
  | s :: path => utf8 (stepText leaf s) :: pathTexts (HashTree.joinStep (combine E) leaf s) path

/-- The strings that `merkle_root` hashes. -/
def treeTexts (t : Term String) : List Bytes := (t.pairs (combine E)).map fun p => utf8 (p.1 ++ p.2)

/-- No two of the strings that the tree and the proof hash collide. -/
def CollisionFree (leafHashes : List String) (proof : MerkleProof) : Prop :=
  Set.InjOn E.sha256 {b | b ∈ treeTexts E (ledgerTree leafHashes) ∨ b ∈ pathTexts E proof.leafHash proof.path}

/-- What a verified path proves of a string, in a tree. -/
inductive Provable (t : Term String) (leaf : String) : List (String × Bool) → Prop
  /-- It is a leaf, with its siblings. -/
  | leaf {path : List (String × Bool)} (h : Siblings (combine E) t (.leaf leaf) path) : Provable t leaf path
  /-- It is the hash of an inner node, with its siblings. -/
  | inner {l r : Term String} {path : List (String × Bool)} (h : Siblings (combine E) t (.node l r) path)
    (hleaf : leaf = (Term.node l r).hash (combine E)) : Provable t leaf path
  /-- It is cut from the text of two siblings, elsewhere than between them. -/
  | cut {l r : Term String} {s : String × Bool} {path : List (String × Bool)}
    (h : Siblings (combine E) t (.node l r) path) (hlen : leaf.length ≠ 64)
    (htext : stepText leaf s = l.hash (combine E) ++ r.hash (combine E)) : Provable t leaf (s :: path)
  /-- It lies in a tree below a leaf, which is the root of that. -/
  | deeper {x : String} {below : Term String} {low path : List (String × Bool)}
    (h : Siblings (combine E) t (.leaf x) path) (hlow : low ≠ []) (hroot : below.hash (combine E) = x)
    (hbelow : Siblings (combine E) below (.leaf leaf) low) : Provable t leaf (low ++ path)

private theorem combine_eq (acc : String) (s : String × Bool) :
    HashTree.joinStep (combine E) acc s = (E.sha256 (utf8 (stepText acc s))).hex := by
  obtain ⟨sib, right⟩ := s
  cases right <;> rfl

theorem Provable.verifies {t : Term String} {leaf : String} {path : List (String × Bool)} (h : Provable E t leaf path) :
    HashTree.foldPath (combine E) leaf path = t.hash (combine E) := by
  cases h with
  | leaf h => exact HashTree.foldPath_siblings h
  | inner h hleaf =>
    rw [hleaf]
    exact HashTree.foldPath_siblings h
  | @cut l r s path h hlen htext =>
    have hstep : HashTree.foldPath (combine E) leaf [s] = (Term.node l r).hash (combine E) := by
      rw [HashTree.foldPath, List.foldl_cons, List.foldl_nil, combine_eq, htext]
      rfl
    rw [← List.singleton_append, HashTree.foldPath_append, hstep]
    exact HashTree.foldPath_siblings h
  | deeper h _ hroot hbelow =>
    have hlow := HashTree.foldPath_siblings hbelow
    rw [hroot] at hlow
    rw [HashTree.foldPath_append, show HashTree.foldPath (combine E) leaf _ = _ from hlow]
    exact HashTree.foldPath_siblings h

private theorem Provable.node_left {l r : Term String} {leaf : String} {path : List (String × Bool)}
    (h : Provable E l leaf path) : Provable E (.node l r) leaf (path ++ [(r.hash (combine E), true)]) := by
  cases h with
  | leaf h => exact .leaf h.left
  | inner h hleaf => exact .inner h.left hleaf
  | cut h hlen htext => exact .cut h.left hlen htext
  | deeper h hlow hroot hbelow =>
    rw [List.append_assoc]
    exact .deeper h.left hlow hroot hbelow

private theorem Provable.node_right {l r : Term String} {leaf : String} {path : List (String × Bool)}
    (h : Provable E r leaf path) : Provable E (.node l r) leaf (path ++ [(l.hash (combine E), false)]) := by
  cases h with
  | leaf h => exact .leaf h.right
  | inner h hleaf => exact .inner h.right hleaf
  | cut h hlen htext => exact .cut h.right hlen htext
  | deeper h hlow hroot hbelow =>
    rw [List.append_assoc]
    exact .deeper h.right hlow hroot hbelow

theorem length_hex_string (d : Digest) : d.hex.length = 64 := by
  rw [← String.length_toList]
  exact d.length_hex

private theorem length_hash {t : Term String} (h : ∀ leaf ∈ t.leaves, leaf.length = 64) :
    (t.hash (combine E)).length = 64 := by
  cases t with
  | leaf x => exact h x List.mem_cons_self
  | node l r => exact length_hex_string _

private theorem append_inj {a b c d : String} (h : a ++ b = c ++ d) (hlen : a.length = c.length) : a = c ∧ b = d := by
  have hlist : a.toList ++ b.toList = c.toList ++ d.toList := by
    rw [← String.toList_append, h, String.toList_append]
  obtain ⟨hleft, hright⟩ := List.append_inj hlist (by rw [String.length_toList, String.length_toList, hlen])
  exact ⟨String.toList_inj.1 hleft, String.toList_inj.1 hright⟩

private theorem utf8_inj {a b : String} (h : utf8 a = utf8 b) : a = b := by
  have hdata : a.toUTF8.data = b.toUTF8.data := Array.toList_inj.1 h
  exact String.toByteArray_inj.1 (ByteArray.ext hdata)

private theorem pathTexts_append (leaf : String) (path path' : List (String × Bool)) :
    pathTexts E leaf (path ++ path') =
      pathTexts E leaf path ++ pathTexts E (HashTree.foldPath (combine E) leaf path) path' := by
  induction path generalizing leaf with
  | nil => rfl
  | cons s path ih =>
    rw [List.cons_append, pathTexts, pathTexts, ih]
    rfl

/-- Without a collision, a path that leads to the hash of a tree proves no more than `Provable`. -/
theorem provable_of_foldPath {S : Set Bytes} (hinj : Set.InjOn E.sha256 S) {t : Term String}
    (hleaves : ∀ leaf ∈ t.leaves, leaf.length = 64) (htree : ∀ b ∈ treeTexts E t, b ∈ S) {leaf : String}
    {path : List (String × Bool)} (hpath : ∀ b ∈ pathTexts E leaf path, b ∈ S)
    (h : HashTree.foldPath (combine E) leaf path = t.hash (combine E)) : Provable E t leaf path := by
  induction path using List.reverseRecOn generalizing t with
  | nil =>
    cases t with
    | leaf x =>
      obtain rfl : leaf = x := h
      exact .leaf (.refl _)
    | node l r => exact .inner (.refl _) h
  | append_singleton path s ih =>
    obtain ⟨acc, hacc⟩ : ∃ acc, acc = HashTree.foldPath (combine E) leaf path := ⟨_, rfl⟩
    rw [pathTexts_append, ← hacc] at hpath
    cases t with
    | leaf x =>
      obtain ⟨below, hbelow, hlow⟩ := HashTree.exists_tree_of_foldPath (combine E) leaf (path ++ [s])
      have hdeeper := Provable.deeper (E := E) (.refl (.leaf x)) (show path ++ [s] ≠ [] by simp) (hbelow.trans h) hlow
      rwa [List.append_nil] at hdeeper
    | node l r =>
      have hl : ∀ leaf ∈ l.leaves, leaf.length = 64 := fun x hx => hleaves x (List.mem_append_left _ hx)
      have hr : ∀ leaf ∈ r.leaves, leaf.length = 64 := fun x hx => hleaves x (List.mem_append_right _ hx)
      have htext : stepText acc s = l.hash (combine E) ++ r.hash (combine E) := by
        have hdigest : (E.sha256 (utf8 (stepText acc s))).hex =
            (E.sha256 (utf8 (l.hash (combine E) ++ r.hash (combine E)))).hex := by
          rw [← combine_eq, hacc]
          rw [HashTree.foldPath_append] at h
          exact h
        refine utf8_inj (hinj (hpath _ ?_) (htree _ ?_) (Digest.hex_injective hdigest))
        · exact List.mem_append_right _ List.mem_cons_self
        · exact List.mem_cons_self
      have hbelow : ∀ b ∈ pathTexts E leaf path, b ∈ S := fun b hb => hpath b (List.mem_append_left _ hb)
      by_cases hlen : acc.length = 64
      · -- the step joins the two children, so the path goes on below one of them
        obtain ⟨sib, right⟩ := s
        cases right with
        | true =>
          obtain ⟨hleft, rfl⟩ := append_inj (show acc ++ sib = _ from htext) (by rw [hlen, length_hash E hl])
          refine (ih hl ?_ hbelow (by rw [← hacc, hleft])).node_left
          intro b hb
          obtain ⟨p, hp, rfl⟩ := List.mem_map.1 hb
          exact htree _ (List.mem_map.2 ⟨p, List.mem_cons_of_mem _ (List.mem_append_left _ hp), rfl⟩)
        | false =>
          have hsib : sib.length = (l.hash (combine E)).length := by
            have hsum := congrArg String.length (show sib ++ acc = _ from htext)
            rw [String.length_append, String.length_append, hlen, length_hash E hr] at hsum
            omega
          obtain ⟨rfl, hright⟩ := append_inj (show sib ++ acc = _ from htext) hsib
          refine (ih hr ?_ hbelow (by rw [← hacc, hright])).node_right
          intro b hb
          obtain ⟨p, hp, rfl⟩ := List.mem_map.1 hb
          exact htree _ (List.mem_map.2 ⟨p, List.mem_cons_of_mem _ (List.mem_append_right _ hp), rfl⟩)
      · -- only the string itself need not be a hash
        rcases List.eq_nil_or_concat path with rfl | ⟨path, s', rfl⟩
        · rw [HashTree.foldPath_nil] at hacc
          rw [hacc] at hlen htext
          exact .cut (.refl _) hlen htext
        · have hhex : acc.length = 64 := by
            rw [hacc, List.concat_eq_append, HashTree.foldPath_append, HashTree.foldPath, List.foldl_cons,
              List.foldl_nil, combine_eq]
            exact length_hex_string _
          exact absurd hhex hlen

private theorem length_of_leaf {leafHashes : List String} (hhex : ∀ leaf ∈ leafHashes, (Digest.ofHex? leaf).isSome)
    {leaf : String} (h : leaf ∈ leafHashes) : leaf.length = 64 := by
  obtain ⟨d, hd⟩ := Option.isSome_iff_exists.1 (hhex leaf h)
  exact Digest.length_of_ofHex? hd

private theorem verifyInclusionLedger_iff {proof : MerkleProof} {root : String} :
    verifyInclusionLedger E proof (some root) = true ↔
      proof.rootHash = root ∧ HashTree.foldPath (combine E) proof.leafHash proof.path = root := by
  rw [verifyInclusionLedger]
  by_cases hverify : verifyMerkleProof E proof = true
  · rw [if_neg (not_not.2 hverify)]
    rw [verifyMerkleProof_iff] at hverify
    rw [hverify]
    simp
  · rw [if_pos hverify]
    rw [verifyMerkleProof_iff] at hverify
    constructor
    · nofun
    · rintro ⟨rfl, hfold⟩
      exact absurd hfold hverify

private def leafA : String := String.ofList (List.replicate 64 'a')

private def leafB : String := String.ofList (List.replicate 64 'b')

private theorem leaves_hex : ∀ leaf ∈ [leafA, leafB], (Digest.ofHex? leaf).isSome := by decide +kernel

private theorem merkleRoot_pair (a b : String) : merkleRoot E [a, b] = combine E a b := by
  rw [merkleRoot_eq, ledgerTree, HashTree.hash_term, ← HashTree.root_pairUp]
  simp

private theorem ledgerTree_pair (a b : String) : ledgerTree [a, b] = .node (.leaf a) (.leaf b) := by
  rw [ledgerTree, HashTree.term, List.map_cons, List.map_cons, List.map_nil, ← HashTree.root_pairUp]
  simp

/-- A path that hashes nothing new has no collision with a tree of two leaves. -/
private theorem collisionFree_pair {a b : String} {proof : MerkleProof}
    (h : ∀ x ∈ pathTexts E proof.leafHash proof.path, x = utf8 (a ++ b)) : CollisionFree E [a, b] proof := by
  have htexts : ∀ x, x ∈ treeTexts E (ledgerTree [a, b]) ∨ x ∈ pathTexts E proof.leafHash proof.path →
      x = utf8 (a ++ b) := by
    rintro x (hx | hx)
    · rw [ledgerTree_pair] at hx
      simpa [treeTexts, Term.pairs, Term.hash] using hx
    · exact h x hx
  intro x hx y hy _
  rw [htexts x hx, htexts y hy]

/-- An inner node has a proof of its own. -/
theorem ledger_inclusion_unsound : ¬ ∀ (E : Env) (leafHashes : List String) (proof : MerkleProof), leafHashes ≠ [] →
    (∀ leaf ∈ leafHashes, (Digest.ofHex? leaf).isSome) → CollisionFree E leafHashes proof →
    verifyInclusionLedger E proof (some (merkleRoot E leafHashes)) = true → proof.leafHash ∈ leafHashes := by
  intro h
  have hroot : combine (refEnv [] [] fun _ _ _ _ _ => false) leafA leafB ∉ [leafA, leafB] := by decide +kernel
  obtain ⟨E, hE⟩ : ∃ E, E = refEnv [] [] fun _ _ _ _ _ => false := ⟨_, rfl⟩
  rw [← hE] at hroot
  refine hroot (h E [leafA, leafB] ⟨combine E leafA leafB, combine E leafA leafB, []⟩ (by simp) leaves_hex ?_ ?_)
  · exact collisionFree_pair E nofun
  · rw [verifyInclusionLedger_iff, merkleRoot_pair]
    exact ⟨rfl, rfl⟩

/-- Without a collision, what is accepted under the root of a list of hashes is what `Provable` says; and a string of 64
characters that is accepted on the sides of a leaf is that leaf. -/
theorem ledger_inclusion_sound {leafHashes : List String} (hne : leafHashes ≠ [])
    (hhex : ∀ leaf ∈ leafHashes, (Digest.ofHex? leaf).isSome) {proof : MerkleProof}
    (hfree : CollisionFree E leafHashes proof) :
    (verifyInclusionLedger E proof (some (merkleRoot E leafHashes)) = true ↔
      proof.rootHash = merkleRoot E leafHashes ∧ Provable E (ledgerTree leafHashes) proof.leafHash proof.path) ∧
    (verifyInclusionLedger E proof (some (merkleRoot E leafHashes)) = true → proof.leafHash.length = 64 →
      (∃ leaf up, Siblings (combine E) (ledgerTree leafHashes) (.leaf leaf) up ∧
        up.map Prod.snd = proof.path.map Prod.snd) → proof.leafHash ∈ leafHashes) := by
  have hleaves : (ledgerTree leafHashes).leaves = leafHashes := HashTree.leaves_term hne ""
  have haccepted : verifyInclusionLedger E proof (some (merkleRoot E leafHashes)) = true ↔
      proof.rootHash = merkleRoot E leafHashes ∧
        Provable E (ledgerTree leafHashes) proof.leafHash proof.path := by
    rw [verifyInclusionLedger_iff, merkleRoot_eq]
    refine and_congr_right fun _ => ⟨fun hfold => ?_, fun h => h.verifies⟩
    refine provable_of_foldPath E hfree ?_ (fun b hb => .inl hb) (fun b hb => .inr hb) hfold
    rw [hleaves]
    exact fun leaf hleaf => length_of_leaf hhex hleaf
  refine ⟨haccepted, ?_⟩
  intro hverify hlen hsides
  obtain ⟨leaf, up, hup, hsides⟩ := hsides
  obtain ⟨-, hprovable⟩ := haccepted.1 hverify
  obtain ⟨path, hpath⟩ : ∃ path, path = proof.path := ⟨_, rfl⟩
  rw [← hpath] at hprovable hsides
  cases hprovable with
  | leaf h =>
    have hmem := h.leaves_subset (show proof.leafHash ∈ (Term.leaf proof.leafHash).leaves from List.mem_cons_self)
    rwa [hleaves] at hmem
  | inner h _ => cases (hup.unique h hsides).1
  | cut _ hcut _ => exact absurd hlen hcut
  | deeper h hlow _ _ =>
    -- the sides of a leaf would lead below another one
    have hnil := h.below_leaf hup (hsides.trans (by rw [List.map_append]))
    exact absurd (List.map_eq_nil_iff.1 hnil) hlow

/-- The second of two leaves. -/
theorem ledger_inclusion_sound_sample : ∃ (E : Env) (proof : MerkleProof),
    verifyInclusionLedger E proof (some (merkleRoot E [leafA, leafB])) = true ∧
    Provable E (ledgerTree [leafA, leafB]) proof.leafHash proof.path ∧ proof.leafHash ∈ [leafA, leafB] := by
  obtain ⟨E, -⟩ : ∃ E, E = refEnv [] [] fun _ _ _ _ _ => false := ⟨_, rfl⟩
  have hfree : CollisionFree E [leafA, leafB] ⟨leafB, combine E leafA leafB, [(leafA, false)]⟩ := by
    refine collisionFree_pair E ?_
    intro x hx
    simpa [pathTexts, stepText] using hx
  obtain ⟨haccepted, hmem⟩ := ledger_inclusion_sound E (show [leafA, leafB] ≠ [] by simp) leaves_hex hfree
  have hverify : verifyInclusionLedger E ⟨leafB, combine E leafA leafB, [(leafA, false)]⟩
      (some (merkleRoot E [leafA, leafB])) = true := by
    rw [verifyInclusionLedger_iff, merkleRoot_pair]
    exact ⟨rfl, rfl⟩
  refine ⟨E, _, hverify, (haccepted.1 hverify).2, hmem hverify (show leafB.length = 64 by decide +kernel) ?_⟩
  rw [ledgerTree_pair]
  exact ⟨leafB, _, .right (.refl _), rfl⟩

end CapsuleAnchor
