import Mathlib

/-!
# Hash trees by levels

A binary hash tree over a list of leaf hashes, computed level by level: `pairUp` joins neighbours and promotes a
trailing odd node unchanged, and `root` repeats it until one hash is left.  This is the tree that the largest-power-
of-two split of RFC 6962 computes (`root_split`), and the level view is the one the iterative verifiers follow: the
siblings of a leaf (`siblings`) are read off one level at a time, and `climb` / `climbPair` fold them back.

* `climb_siblings`: folding the siblings of a leaf gives the root;
* `climbPair_siblings`: folding the siblings of the last node of a prefix gives the roots of both lists;
* `siblings_split_left`, `prefixProof_split_left`, …: how the proofs decompose along the split;
* `climb_inj`: a path is determined by the hash it leads to, unless two of the pairs it joins collide.
-/

namespace HashTree

variable {δ : Type*} (node : δ → δ → δ)

/-- One level up: join neighbours, promote a trailing odd node. -/
def pairUp : List δ → List δ
  | a :: b :: l => node a b :: pairUp l
  | l => l

@[simp] theorem pairUp_nil : pairUp node [] = [] := rfl

@[simp] theorem pairUp_singleton (a : δ) : pairUp node [a] = [a] := rfl

@[simp] theorem pairUp_cons_cons (a b : δ) (l : List δ) :
    pairUp node (a :: b :: l) = node a b :: pairUp node l := rfl

theorem length_pairUp (l : List δ) : (pairUp node l).length = (l.length + 1) / 2 := by
  induction l using pairUp.induct with
  | case1 a b l ih => simp [ih]; omega
  | case2 l h =>
    rcases l with _ | ⟨a, _ | ⟨b, l⟩⟩
    · simp
    · simp
    · exact absurd rfl (h a b l)

theorem pairUp_append {l₁ : List δ} (h : l₁.length % 2 = 0) (l₂ : List δ) :
    pairUp node (l₁ ++ l₂) = pairUp node l₁ ++ pairUp node l₂ := by
  induction l₁ using pairUp.induct with
  | case1 a b l ih =>
    simp only [List.length_cons] at h
    simp [ih (by omega)]
  | case2 l hl =>
    rcases l with _ | ⟨a, _ | ⟨b, l⟩⟩
    · rfl
    · simp at h
    · exact absurd rfl (hl a b l)

theorem pairUp_take {l : List δ} {k : Nat} (hk : 2 * k ≤ l.length) :
    pairUp node (l.take (2 * k)) = (pairUp node l).take k := by
  have hl : (l.take (2 * k)).length = 2 * k := by simp; omega
  conv => rhs; rw [← List.take_append_drop (2 * k) l, pairUp_append node (by omega)]
  rw [List.take_left']
  rw [length_pairUp]; omega

theorem pairUp_drop {l : List δ} {k : Nat} (hk : 2 * k ≤ l.length) :
    pairUp node (l.drop (2 * k)) = (pairUp node l).drop k := by
  have hl : (l.take (2 * k)).length = 2 * k := by simp; omega
  conv => rhs; rw [← List.take_append_drop (2 * k) l, pairUp_append node (by omega)]
  rw [List.drop_left']
  rw [length_pairUp]; omega

/-- A list split at the even position `2 * j`, seen one level up. -/
private theorem pairUp_at {l : List δ} {j : Nat} (hj : 2 * j < l.length) :
    ∃ pre x suf, l = pre ++ x :: suf ∧ pre.length = 2 * j := by
  refine ⟨l.take (2 * j), l[2 * j], l.drop (2 * j + 1), ?_, by simp; omega⟩
  rw [← List.drop_eq_getElem_cons hj, List.take_append_drop]

theorem getElem?_pairUp_pair {l : List δ} {j : Nat} {a b : δ} (ha : l[2 * j]? = some a)
    (hb : l[2 * j + 1]? = some b) : (pairUp node l)[j]? = some (node a b) := by
  have hj : 2 * j < l.length := (List.getElem?_eq_some_iff.1 ha).1
  obtain ⟨pre, x, suf, rfl, hp⟩ := pairUp_at hj
  have hl : (pairUp node pre).length = j := by rw [length_pairUp]; omega
  rw [List.getElem?_append_right (by omega), hp] at ha hb
  simp only [Nat.sub_self, List.getElem?_cons_zero, Option.some.injEq] at ha
  rcases suf with _ | ⟨y, suf⟩
  · simp at hb
  · simp only [Nat.add_sub_cancel_left, List.getElem?_cons_succ, List.getElem?_cons_zero,
      Option.some.injEq] at hb
    rw [pairUp_append node (by omega), List.getElem?_append_right (by omega), hl, ha, hb]
    simp

theorem getElem?_pairUp_last {l : List δ} {j : Nat} {a : δ} (ha : l[2 * j]? = some a)
    (hl : l.length = 2 * j + 1) : (pairUp node l)[j]? = some a := by
  obtain ⟨pre, x, suf, rfl, hp⟩ := pairUp_at (l := l) (j := j) (by omega)
  have hlen : (pairUp node pre).length = j := by rw [length_pairUp]; omega
  have hs : suf = [] := by
    simp only [List.length_append, List.length_cons] at hl
    exact List.eq_nil_of_length_eq_zero (by omega)
  rw [List.getElem?_append_right (by omega), hp] at ha
  rw [pairUp_append node (by omega), List.getElem?_append_right (by omega), hlen, hs]
  simpa using ha

/-! ### The root -/

/-- The root of the tree over `l`; `empty` is the root of the tree without leaves. -/
def root (empty : δ) (l : List δ) : δ :=
  match l with
  | [] => empty
  | [a] => a
  | a :: b :: l => root empty (pairUp node (a :: b :: l))
termination_by l.length
decreasing_by simp [length_pairUp]; omega

variable (empty : δ)

@[simp] theorem root_nil : root node empty [] = empty := by rw [root]

@[simp] theorem root_singleton (a : δ) : root node empty [a] = a := by rw [root]

theorem root_pairUp (l : List δ) : root node empty (pairUp node l) = root node empty l := by
  rcases l with _ | ⟨a, _ | ⟨b, l⟩⟩
  · rfl
  · rfl
  · conv => rhs; rw [root]

/-- The RFC 6962 rule: split at the largest power of two below the length. -/
theorem root_split {l : List δ} {h : Nat} (h1 : 2 ^ h < l.length) (h2 : l.length ≤ 2 ^ (h + 1)) :
    root node empty l =
      node (root node empty (l.take (2 ^ h))) (root node empty (l.drop (2 ^ h))) := by
  induction h generalizing l with
  | zero =>
    obtain ⟨a, b, rfl⟩ := List.length_eq_two.1 (show l.length = 2 by simp at h1 h2; omega)
    rw [← root_pairUp, show [a, b].take (2 ^ 0) = [a] from rfl, show [a, b].drop (2 ^ 0) = [b] from rfl]
    simp
  | succ h ih =>
    have e : (2 : Nat) ^ (h + 1) = 2 * 2 ^ h := by ring
    have e' : (2 : Nat) ^ (h + 1 + 1) = 2 * (2 * 2 ^ h) := by ring
    have hlen := length_pairUp node l
    rw [e] at h1; rw [e'] at h2
    rw [← root_pairUp, ih (by omega) (by omega), e, ← pairUp_take node (by omega),
      ← pairUp_drop node (by omega), root_pairUp, root_pairUp]

/-! ### Siblings -/

/-- The sibling of position `i`, if it has one: the left neighbour of an odd position, the right neighbour of an
even position. -/
def sibling (l : List δ) (i : Nat) : Option δ := if i % 2 = 1 then l[i - 1]? else l[i + 1]?

/-- The siblings on the way from leaf `i` to the root, lowest level first. -/
def siblings (l : List δ) (i : Nat) : List δ :=
  if 2 ≤ l.length then (sibling l i).toList ++ siblings (pairUp node l) (i / 2) else []
termination_by l.length
decreasing_by simp [length_pairUp]; omega

theorem siblings_of_le_one {l : List δ} (h : l.length ≤ 1) (i : Nat) : siblings node l i = [] := by
  rw [siblings, if_neg (by omega)]

theorem siblings_of_two_le {l : List δ} (h : 2 ≤ l.length) (i : Nat) :
    siblings node l i = (sibling l i).toList ++ siblings node (pairUp node l) (i / 2) := by
  rw [siblings, if_pos h]

private theorem sibling_take {l : List δ} {k i : Nat} (hi : i < 2 * k) :
    sibling (l.take (2 * k)) i = sibling l i := by
  unfold sibling
  split
  · rw [List.getElem?_take_of_lt (by omega)]
  · rw [List.getElem?_take_of_lt (by omega)]

private theorem sibling_drop {l : List δ} {k i : Nat} (hi : 2 * k ≤ i) :
    sibling (l.drop (2 * k)) (i - 2 * k) = sibling l i := by
  unfold sibling
  have hpar : (i - 2 * k) % 2 = i % 2 := by omega
  rw [hpar]
  split
  · rw [List.getElem?_drop]; congr 1; omega
  · rw [List.getElem?_drop]; congr 1; omega

/-- Left of the split the last sibling is the root of the right part. -/
theorem siblings_split_left {l : List δ} {h i : Nat} (h1 : 2 ^ h < l.length)
    (h2 : l.length ≤ 2 ^ (h + 1)) (hi : i < 2 ^ h) :
    siblings node l i =
      siblings node (l.take (2 ^ h)) i ++ [root node empty (l.drop (2 ^ h))] := by
  induction h generalizing l i with
  | zero =>
    obtain ⟨a, b, rfl⟩ := List.length_eq_two.1 (show l.length = 2 by simp at h1 h2; omega)
    obtain rfl : i = 0 := by simpa using hi
    rw [siblings_of_two_le node (by simp), siblings_of_le_one node (by simp),
      siblings_of_le_one node (by simp)]
    simp [sibling]
  | succ h ih =>
    have e : (2 : Nat) ^ (h + 1) = 2 * 2 ^ h := by ring
    have e' : (2 : Nat) ^ (h + 1 + 1) = 2 * (2 * 2 ^ h) := by ring
    have hlen := length_pairUp node l
    have hpos : 0 < 2 ^ h := Nat.two_pow_pos h
    rw [e] at h1 hi; rw [e'] at h2
    have htl : (l.take (2 * 2 ^ h)).length = 2 * 2 ^ h := by simp; omega
    rw [siblings_of_two_le node (by omega), ih (by omega) (by omega) (by omega), e,
      siblings_of_two_le node (l := l.take (2 * 2 ^ h)) (by omega), sibling_take hi,
      pairUp_take node (by omega), ← pairUp_drop node (by omega), root_pairUp, List.append_assoc]

/-- Right of the split the last sibling is the root of the left part. -/
theorem siblings_split_right {l : List δ} {h i : Nat} (h1 : 2 ^ h < l.length)
    (h2 : l.length ≤ 2 ^ (h + 1)) (hi : 2 ^ h ≤ i) (hil : i < l.length) :
    siblings node l i =
      siblings node (l.drop (2 ^ h)) (i - 2 ^ h) ++ [root node empty (l.take (2 ^ h))] := by
  induction h generalizing l i with
  | zero =>
    obtain ⟨a, b, rfl⟩ := List.length_eq_two.1 (show l.length = 2 by simp at h1 h2; omega)
    obtain rfl : i = 1 := by simp at hi hil; omega
    rw [siblings_of_two_le node (by simp), siblings_of_le_one node (by simp),
      siblings_of_le_one node (by simp), show [a, b].take (2 ^ 0) = [a] from rfl]
    simp [sibling]
  | succ h ih =>
    have e : (2 : Nat) ^ (h + 1) = 2 * 2 ^ h := by ring
    have e' : (2 : Nat) ^ (h + 1 + 1) = 2 * (2 * 2 ^ h) := by ring
    have hlen := length_pairUp node l
    have hpos : 0 < 2 ^ h := Nat.two_pow_pos h
    rw [e] at h1 hi; rw [e'] at h2
    have hdl : (l.drop (2 * 2 ^ h)).length = l.length - 2 * 2 ^ h := by simp
    have hdiv : i / 2 - 2 ^ h = (i - 2 * 2 ^ h) / 2 := by omega
    rw [siblings_of_two_le node (by omega), ih (by omega) (by omega) (by omega) (by omega), e,
      ← pairUp_take node (by omega), ← pairUp_drop node (by omega), root_pairUp, hdiv]
    rcases Nat.lt_or_ge 1 (l.drop (2 * 2 ^ h)).length with hd | hd
    · rw [siblings_of_two_le node hd, sibling_drop hi, List.append_assoc]
    · -- the right part is the single promoted leaf: it has no sibling at this level
      have hi0 : i = 2 * 2 ^ h := by omega
      rw [siblings_of_le_one node hd,
        siblings_of_le_one node (by rw [length_pairUp]; omega)]
      have : sibling l i = none := by
        unfold sibling
        rw [if_neg (by omega)]
        exact List.getElem?_eq_none (by omega)
      rw [this]; rfl

/-! ### Folding a path -/

/-- Fold `path` from position `i` of a level whose last position is `last`, one level at a time; a promoted node
takes no hash from the path.  Returns the hash at the top and what is left of the path. -/
def climb (i last : Nat) (acc : δ) (path : List δ) : Option (δ × List δ) :=
  if last = 0 then some (acc, path)
  else if i % 2 = 1 then
    match path with
    | [] => none
    | s :: path => climb (i / 2) (last / 2) (node s acc) path
  else if i = last then climb (i / 2) (last / 2) acc path
  else
    match path with
    | [] => none
    | s :: path => climb (i / 2) (last / 2) (node acc s) path
termination_by last
decreasing_by all_goals omega

/-- `climb` for the last node of a prefix: the first hash follows the tree of the prefix, the second one the tree
of the whole list. -/
def climbPair (i last : Nat) (fr sr : δ) (path : List δ) : Option ((δ × δ) × List δ) :=
  if last = 0 then some ((fr, sr), path)
  else if i % 2 = 1 then
    match path with
    | [] => none
    | s :: path => climbPair (i / 2) (last / 2) (node s fr) (node s sr) path
  else if i = last then climbPair (i / 2) (last / 2) fr sr path
  else
    match path with
    | [] => none
    | s :: path => climbPair (i / 2) (last / 2) fr (node sr s) path
termination_by last
decreasing_by all_goals omega

/-- Promoting the last node of every level up to the first odd position takes nothing from the path. -/
theorem climb_promote (t : Nat) {m : Nat} (hm : m ≠ 0) (acc : δ) (path : List δ) :
    climb node (2 ^ t * m) (2 ^ t * m) acc path = climb node m m acc path := by
  induction t with
  | zero => simp
  | succ t ih =>
    have e : 2 ^ (t + 1) * m = 2 * (2 ^ t * m) := by ring
    have hpos : 0 < 2 ^ t * m := Nat.mul_pos (Nat.two_pow_pos t) (Nat.pos_of_ne_zero hm)
    rw [e, climb.eq_def, if_neg (by omega), if_neg (by omega), if_pos rfl,
      show 2 * (2 ^ t * m) / 2 = 2 ^ t * m by omega, ih]

theorem climbPair_promote (t : Nat) {m : Nat} (hm : m ≠ 0) (fr sr : δ) (path : List δ) :
    climbPair node (2 ^ t * m) (2 ^ t * m) fr sr path = climbPair node m m fr sr path := by
  induction t with
  | zero => simp
  | succ t ih =>
    have e : 2 ^ (t + 1) * m = 2 * (2 ^ t * m) := by ring
    have hpos : 0 < 2 ^ t * m := Nat.mul_pos (Nat.two_pow_pos t) (Nat.pos_of_ne_zero hm)
    rw [e, climbPair.eq_def, if_neg (by omega), if_neg (by omega), if_pos rfl,
      show 2 * (2 ^ t * m) / 2 = 2 ^ t * m by omega, ih]

private theorem sibling_odd {l : List δ} {i : Nat} {s x : δ} (hi : i % 2 = 1)
    (hx : l[i]? = some x) (hs : sibling l i = some s) : (pairUp node l)[i / 2]? = some (node s x) := by
  rw [sibling, if_pos hi] at hs
  obtain ⟨j, rfl⟩ : ∃ j, i = 2 * j + 1 := ⟨i / 2, by omega⟩
  rw [show (2 * j + 1) / 2 = j by omega]
  exact getElem?_pairUp_pair node hs hx

private theorem sibling_even {l : List δ} {i : Nat} {s x : δ} (hi : ¬ i % 2 = 1)
    (hx : l[i]? = some x) (hs : sibling l i = some s) : (pairUp node l)[i / 2]? = some (node x s) := by
  rw [sibling, if_neg hi] at hs
  obtain ⟨j, rfl⟩ : ∃ j, i = 2 * j := ⟨i / 2, by omega⟩
  rw [show 2 * j / 2 = j by omega]
  exact getElem?_pairUp_pair node hx hs

private theorem sibling_last {l : List δ} {i : Nat} {x : δ} (hi : ¬ i % 2 = 1) (hx : l[i]? = some x)
    (hl : i = l.length - 1) : sibling l i = none ∧ (pairUp node l)[i / 2]? = some x := by
  have hil := (List.getElem?_eq_some_iff.1 hx).1
  obtain ⟨j, rfl⟩ : ∃ j, i = 2 * j := ⟨i / 2, by omega⟩
  constructor
  · rw [sibling, if_neg hi]; exact List.getElem?_eq_none (by omega)
  · rw [show 2 * j / 2 = j by omega]; exact getElem?_pairUp_last node hx (by omega)

private theorem exists_sibling {l : List δ} {i : Nat} (hil : i < l.length)
    (h : i % 2 = 1 ∨ i ≠ l.length - 1) : ∃ s, sibling l i = some s := by
  unfold sibling
  split
  · exact ⟨_, List.getElem?_eq_getElem (by omega)⟩
  · exact ⟨_, List.getElem?_eq_getElem (show i + 1 < l.length by omega)⟩

private theorem root_of_length_one {l : List δ} {x : δ} {i : Nat} (hl : l.length = 1)
    (hx : l[i]? = some x) : l = [x] := by
  obtain ⟨a, rfl⟩ := List.length_eq_one_iff.1 hl
  have : i = 0 := by have := (List.getElem?_eq_some_iff.1 hx).1; simp at this; omega
  subst this
  simpa using hx

/-- Folding the siblings of a leaf gives the root and uses up the path. -/
theorem climb_siblings {l : List δ} {i : Nat} {x : δ} (hx : l[i]? = some x) :
    climb node i (l.length - 1) x (siblings node l i) = some (root node empty l, []) := by
  induction hn : l.length using Nat.strong_induction_on generalizing l i x with
  | _ n ih =>
    subst hn
    have hil := (List.getElem?_eq_some_iff.1 hx).1
    have hlen := length_pairUp node l
    rcases Nat.lt_or_ge 1 l.length with h2 | h1
    · have e : (l.length - 1) / 2 = (pairUp node l).length - 1 := by omega
      rw [climb.eq_def, if_neg (by omega), siblings_of_two_le node h2, ← root_pairUp, e]
      split
      · rename_i hodd
        obtain ⟨s, hs⟩ := exists_sibling hil (.inl hodd)
        rw [hs]
        exact ih _ (by omega) (sibling_odd node hodd hx hs) rfl
      · rename_i heven
        split
        · rename_i hlast
          obtain ⟨hs, hx'⟩ := sibling_last node heven hx hlast
          rw [hs]
          exact ih _ (by omega) hx' rfl
        · rename_i hlast
          obtain ⟨s, hs⟩ := exists_sibling hil (.inr hlast)
          rw [hs]
          exact ih _ (by omega) (sibling_even node heven hx hs) rfl
    · obtain rfl := root_of_length_one (by omega) hx
      rw [climb.eq_def, if_pos (by simp), siblings_of_le_one node (by simp), root_singleton]

/-! ### Prefixes -/

private theorem pairUp_append_odd {pre : List δ} (h : pre.length % 2 = 1) (x : δ) (suf : List δ) :
    ∃ s, sibling (pre ++ x :: suf) pre.length = some s ∧ ∃ pre', pre'.length = pre.length / 2 ∧
      ∀ y suf', pairUp node (pre ++ y :: suf') = pre' ++ node s y :: pairUp node suf' := by
  obtain ⟨pre₀, s, rfl⟩ : ∃ pre₀ s, pre = pre₀ ++ [s] :=
    ⟨_, _, (List.dropLast_append_getLast (by rintro rfl; simp at h)).symm⟩
  simp only [List.length_append, List.length_cons, List.length_nil] at h
  refine ⟨s, ?_, pairUp node pre₀, ?_, fun y suf' => ?_⟩
  · simp [sibling, show (pre₀.length + 1) % 2 = 1 by omega]
  · rw [length_pairUp]; simp
  · rw [List.append_assoc, pairUp_append node (by omega)]; rfl

/-- If two lists agree before position `i`, the first one ends there, and `i` is a position of the second one, then
folding the siblings of `i` in the second list gives both roots. -/
theorem climbPair_siblings (pre suf : List δ) (x y : δ) :
    climbPair node pre.length ((pre ++ y :: suf).length - 1) x y
        (siblings node (pre ++ y :: suf) pre.length) =
      some ((root node empty (pre ++ [x]), root node empty (pre ++ y :: suf)), []) := by
  induction hn : (pre ++ y :: suf).length using Nat.strong_induction_on generalizing pre suf x y with
  | _ n ih =>
    subst hn
    have hlen := length_pairUp node (pre ++ y :: suf)
    have hl : (pre ++ y :: suf).length = pre.length + suf.length + 1 := by simp; omega
    rcases Nat.lt_or_ge 1 (pre ++ y :: suf).length with h2 | h1
    · rw [climbPair.eq_def, if_neg (by omega), siblings_of_two_le node h2]
      have e : ((pre ++ y :: suf).length - 1) / 2 = (pairUp node (pre ++ y :: suf)).length - 1 := by
        omega
      rw [e, ← root_pairUp, ← root_pairUp node empty (pre ++ y :: suf)]
      split
      · rename_i hodd
        obtain ⟨s, hs, pre', hp, hpair⟩ := pairUp_append_odd node hodd y suf
        rw [hs, hpair y suf, hpair x [], ← hp]
        rw [hpair y suf] at hlen
        exact ih _ (by omega) _ _ _ _ rfl
      · rename_i heven
        have hp : (pairUp node pre).length = pre.length / 2 := by rw [length_pairUp]; omega
        rw [pairUp_append node (by omega), pairUp_append node (by omega), ← hp]
        rw [pairUp_append node (by omega)] at hlen
        rcases suf with _ | ⟨s, suf⟩
        · rw [if_pos (by simp)]
          have hs : sibling (pre ++ [y]) pre.length = none := by simp [sibling, heven]
          rw [hs]
          exact ih _ (by omega) _ _ _ _ rfl
        · rw [if_neg (by simp)]
          have hs : sibling (pre ++ y :: s :: suf) pre.length = some s := by
            rw [sibling, if_neg heven, List.getElem?_append_right (by omega)]; simp
          rw [hs]
          exact ih _ (by omega) _ _ _ _ rfl
    · obtain ⟨rfl, rfl⟩ : pre = [] ∧ suf = [] :=
        ⟨List.eq_nil_of_length_eq_zero (by omega), List.eq_nil_of_length_eq_zero (by omega)⟩
      rw [climbPair.eq_def, if_pos (by simp), siblings_of_le_one node (by simp)]
      simp

/-- The proof that the first `m` leaves are a prefix: climb from leaf `m - 1` while it is a right child; then the
node reached (left out when it is the root of the prefix and `known` says the verifier has that root) and its
siblings. -/
def prefixProof (m : Nat) (l : List δ) (known : Bool) : List δ :=
  if m ≠ 0 ∧ m % 2 = 0 then prefixProof (m / 2) (pairUp node l) known
  else (if m = 1 ∧ known then [] else l[m - 1]?.toList) ++ siblings node l (m - 1)
termination_by m
decreasing_by omega

theorem prefixProof_even {m : Nat} (h0 : m ≠ 0) (h : m % 2 = 0) (l : List δ) (known : Bool) :
    prefixProof node m l known = prefixProof node (m / 2) (pairUp node l) known := by
  rw [prefixProof, if_pos ⟨h0, h⟩]

theorem prefixProof_odd {m : Nat} (h : m % 2 = 1) (l : List δ) (known : Bool) :
    prefixProof node m l known =
      (if m = 1 ∧ known then [] else l[m - 1]?.toList) ++ siblings node l (m - 1) := by
  rw [prefixProof, if_neg (by omega)]

/-- The prefix is exactly the left part of the split. -/
theorem prefixProof_split_eq {l : List δ} {h : Nat} {known : Bool} (h1 : 2 ^ h < l.length)
    (h2 : l.length ≤ 2 ^ (h + 1)) :
    prefixProof node (2 ^ h) l known =
      (if known then [] else [root node empty (l.take (2 ^ h))]) ++ [root node empty (l.drop (2 ^ h))] := by
  induction h generalizing l with
  | zero =>
    obtain ⟨a, b, rfl⟩ := List.length_eq_two.1 (show l.length = 2 by simp at h1 h2; omega)
    rw [prefixProof_odd node (by simp), siblings_of_two_le node (by simp),
      siblings_of_le_one node (by simp), show [a, b].take (2 ^ 0) = [a] from rfl]
    cases known <;> simp [sibling]
  | succ h ih =>
    have e : (2 : Nat) ^ (h + 1) = 2 * 2 ^ h := by ring
    have e' : (2 : Nat) ^ (h + 1 + 1) = 2 * (2 * 2 ^ h) := by ring
    have hlen := length_pairUp node l
    have hpos : 0 < 2 ^ h := Nat.two_pow_pos h
    rw [e] at h1; rw [e'] at h2
    rw [prefixProof_even node (by omega) (by omega), e, show 2 * 2 ^ h / 2 = 2 ^ h by omega,
      ih (by omega) (by omega), ← pairUp_take node (by omega), ← pairUp_drop node (by omega),
      root_pairUp, root_pairUp]

/-- The prefix ends inside the left part of the split. -/
theorem prefixProof_split_left {l : List δ} {h m : Nat} {known : Bool} (h1 : 2 ^ h < l.length)
    (h2 : l.length ≤ 2 ^ (h + 1)) (h0 : 0 < m) (hm : m < 2 ^ h) :
    prefixProof node m l known =
      prefixProof node m (l.take (2 ^ h)) known ++ [root node empty (l.drop (2 ^ h))] := by
  induction h generalizing l m with
  | zero => simp at hm; omega
  | succ h ih =>
    have e : (2 : Nat) ^ (h + 1) = 2 * 2 ^ h := by ring
    have e' : (2 : Nat) ^ (h + 1 + 1) = 2 * (2 * 2 ^ h) := by ring
    have hlen := length_pairUp node l
    rcases Nat.mod_two_eq_zero_or_one m with hpar | hpar
    · rw [e] at h1 hm; rw [e'] at h2
      rw [prefixProof_even node (by omega) hpar, ih (by omega) (by omega) (by omega) (by omega),
        prefixProof_even node (by omega) hpar, e, pairUp_take node (by omega),
        ← pairUp_drop node (by omega), root_pairUp]
    · rw [prefixProof_odd node hpar, prefixProof_odd node hpar,
        siblings_split_left node empty h1 h2 (by omega), List.getElem?_take_of_lt (by omega),
        List.append_assoc]

/-- The prefix ends inside the right part of the split. -/
theorem prefixProof_split_right {l : List δ} {h m : Nat} {known : Bool}
    (h2 : l.length ≤ 2 ^ (h + 1)) (hm : 2 ^ h < m) (hml : m < l.length) :
    prefixProof node m l known =
      prefixProof node (m - 2 ^ h) (l.drop (2 ^ h)) false ++ [root node empty (l.take (2 ^ h))] := by
  induction h generalizing l m with
  | zero => simp at h2 hm; omega
  | succ h ih =>
    have e : (2 : Nat) ^ (h + 1) = 2 * 2 ^ h := by ring
    have e' : (2 : Nat) ^ (h + 1 + 1) = 2 * (2 * 2 ^ h) := by ring
    have hlen := length_pairUp node l
    have hpos : 0 < 2 ^ h := Nat.two_pow_pos h
    rcases Nat.mod_two_eq_zero_or_one m with hpar | hpar
    · rw [e] at hm; rw [e'] at h2
      rw [prefixProof_even node (by omega) hpar, ih (by omega) (by omega) (by omega), e,
        prefixProof_even node (m := m - 2 * 2 ^ h) (by omega) (by omega),
        pairUp_drop node (by omega), ← pairUp_take node (by omega), root_pairUp,
        show m / 2 - 2 ^ h = (m - 2 * 2 ^ h) / 2 by omega]
    · rw [prefixProof_odd node hpar, prefixProof_odd node (m := m - 2 ^ (h + 1)) (by omega),
        siblings_split_right node empty (h := h + 1) (by omega) h2 (by omega) (by omega),
        if_neg (by omega), if_neg (by simp), List.getElem?_drop, List.append_assoc,
        show 2 ^ (h + 1) + (m - 2 ^ (h + 1) - 1) = m - 1 by omega,
        show m - 2 ^ (h + 1) - 1 = m - 1 - 2 ^ (h + 1) by omega]

/-! ### Two paths to one hash -/

/-- The pairs that `climb` joins. -/
def climbNodes (i last : Nat) (acc : δ) (path : List δ) : List (δ × δ) :=
  if last = 0 then []
  else if i % 2 = 1 then
    match path with
    | [] => []
    | s :: path => (s, acc) :: climbNodes (i / 2) (last / 2) (node s acc) path
  else if i = last then climbNodes (i / 2) (last / 2) acc path
  else
    match path with
    | [] => []
    | s :: path => (acc, s) :: climbNodes (i / 2) (last / 2) (node acc s) path
termination_by last
decreasing_by all_goals omega

/-- Two paths that lead from one position to one hash are equal, and start at the same hash, unless two of the pairs they
join collide. -/
theorem climb_inj {i last : Nat} {x y r : δ} {p q : List δ}
    (hinj : Set.InjOn (fun pair : δ × δ => node pair.1 pair.2)
      {pair | pair ∈ climbNodes node i last x p ∨ pair ∈ climbNodes node i last y q})
    (hp : climb node i last x p = some (r, [])) (hq : climb node i last y q = some (r, [])) : x = y ∧ p = q := by
  induction hn : last using Nat.strong_induction_on generalizing i last x y p q with
  | _ n ih =>
    subst hn
    rw [climb.eq_def] at hp hq
    by_cases h0 : last = 0
    · rw [if_pos h0] at hp hq
      obtain ⟨rfl, rfl⟩ : x = r ∧ p = [] := by simpa using hp
      obtain ⟨rfl, rfl⟩ : y = x ∧ q = [] := by simpa using hq
      exact ⟨rfl, rfl⟩
    · have hdiv : last / 2 < last := by omega
      rw [if_neg h0] at hp hq
      by_cases hodd : i % 2 = 1
      · rw [if_pos hodd] at hp hq
        rcases p with _ | ⟨s, p⟩
        · cases hp
        rcases q with _ | ⟨u, q⟩
        · cases hq
        have hleft : climbNodes node i last x (s :: p) = (s, x) :: climbNodes node (i / 2) (last / 2) (node s x) p := by
          rw [climbNodes.eq_def, if_neg h0, if_pos hodd]
        have hright : climbNodes node i last y (u :: q) = (u, y) :: climbNodes node (i / 2) (last / 2) (node u y) q := by
          rw [climbNodes.eq_def, if_neg h0, if_pos hodd]
        rw [hleft, hright] at hinj
        obtain ⟨hnode, hpath⟩ := ih (last / 2) hdiv (hinj.mono fun pair hpair =>
          hpair.imp (List.mem_cons_of_mem _) (List.mem_cons_of_mem _)) hp hq rfl
        have hpair := hinj (.inl List.mem_cons_self) (.inr List.mem_cons_self) hnode
        obtain ⟨rfl, rfl⟩ := Prod.mk.inj hpair
        exact ⟨rfl, by rw [hpath]⟩
      · rw [if_neg hodd] at hp hq
        by_cases hlast : i = last
        · rw [if_pos hlast] at hp hq
          have hsame : ∀ (z : δ) (w : List δ), climbNodes node i last z w = climbNodes node (i / 2) (last / 2) z w := by
            intro z w
            rw [climbNodes.eq_def, if_neg h0, if_neg hodd, if_pos hlast]
          rw [hsame, hsame] at hinj
          exact ih (last / 2) hdiv hinj hp hq rfl
        · rw [if_neg hlast] at hp hq
          rcases p with _ | ⟨s, p⟩
          · cases hp
          rcases q with _ | ⟨u, q⟩
          · cases hq
          have hleft : climbNodes node i last x (s :: p) = (x, s) :: climbNodes node (i / 2) (last / 2) (node x s) p := by
            rw [climbNodes.eq_def, if_neg h0, if_neg hodd, if_neg hlast]
          have hright : climbNodes node i last y (u :: q) = (y, u) :: climbNodes node (i / 2) (last / 2) (node y u) q := by
            rw [climbNodes.eq_def, if_neg h0, if_neg hodd, if_neg hlast]
          rw [hleft, hright] at hinj
          obtain ⟨hnode, hpath⟩ := ih (last / 2) hdiv (hinj.mono fun pair hpair =>
            hpair.imp (List.mem_cons_of_mem _) (List.mem_cons_of_mem _)) hp hq rfl
          have hpair := hinj (.inl List.mem_cons_self) (.inr List.mem_cons_self) hnode
          obtain ⟨rfl, rfl⟩ := Prod.mk.inj hpair
          exact ⟨rfl, by rw [hpath]⟩

/-- The second hash of `climbPair` climbs alone. -/
theorem climb_of_climbPair {i last : Nat} {fr sr fr' sr' : δ} {path rest : List δ}
    (h : climbPair node i last fr sr path = some ((fr', sr'), rest)) : climb node i last sr path = some (sr', rest) := by
  induction hn : last using Nat.strong_induction_on generalizing i last fr sr path with
  | _ n ih =>
    subst hn
    rw [climbPair.eq_def] at h
    rw [climb.eq_def]
    by_cases h0 : last = 0
    · rw [if_pos h0] at h ⊢
      obtain ⟨⟨-, rfl⟩, rfl⟩ : (fr = fr' ∧ sr = sr') ∧ path = rest := by simpa using h
      rfl
    · have hdiv : last / 2 < last := by omega
      rw [if_neg h0] at h ⊢
      by_cases hodd : i % 2 = 1
      · rw [if_pos hodd] at h ⊢
        rcases path with _ | ⟨s, path⟩
        · cases h
        exact ih (last / 2) hdiv h rfl
      · rw [if_neg hodd] at h ⊢
        by_cases hlast : i = last
        · rw [if_pos hlast] at h ⊢
          exact ih (last / 2) hdiv h rfl
        · rw [if_neg hlast] at h ⊢
          rcases path with _ | ⟨s, path⟩
          · cases h
          exact ih (last / 2) hdiv h rfl

end HashTree
