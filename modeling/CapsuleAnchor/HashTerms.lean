import CapsuleAnchor.HashTree

/-!
# Hash trees as terms

The tree that `root` computes, before anything is hashed: `term` is `root` at the constructor of an inner node, so its
hash is the root (`hash_term`) and its leaves are the list (`leaves_term`).

`Siblings` relates a subtree to the path that leads up from it, the hash of a sibling and its side at each step;
`foldPath` hashes along a path, and along the path of a subtree it leads to the root (`foldPath_siblings`).
-/

namespace HashTree

section Map

variable {α β : Type*} {node : α → α → α} {node' : β → β → β} {f : α → β}

theorem map_pairUp (hf : ∀ a b, f (node a b) = node' (f a) (f b)) (l : List α) :
    (pairUp node l).map f = pairUp node' (l.map f) := by
  induction l using pairUp.induct with
  | case1 a b l ih => simp [hf, ih]
  | case2 l h =>
    rcases l with _ | ⟨a, _ | ⟨b, l⟩⟩
    · rfl
    · rfl
    · exact absurd rfl (h a b l)

/-- `root` commutes with a homomorphism. -/
theorem map_root (hf : ∀ a b, f (node a b) = node' (f a) (f b)) (empty : α) (l : List α) :
    f (root node empty l) = root node' (f empty) (l.map f) := by
  induction l using root.induct node with
  | case1 => simp
  | case2 a => simp
  | case3 a b l ih => rw [← root_pairUp, ih, map_pairUp hf, root_pairUp]

end Map

variable {δ : Type*}

inductive Term (δ : Type*)
  | leaf (x : δ)
  | node (l r : Term δ)

namespace Term

/-- The hash of a tree. -/
def hash (join : δ → δ → δ) : Term δ → δ
  | leaf x => x
  | node l r => join (l.hash join) (r.hash join)

def leaves : Term δ → List δ
  | leaf x => [x]
  | node l r => l.leaves ++ r.leaves

/-- The pairs that the hash of a tree joins. -/
def pairs (join : δ → δ → δ) : Term δ → List (δ × δ)
  | leaf _ => []
  | node l r => (l.hash join, r.hash join) :: (l.pairs join ++ r.pairs join)

end Term

/-- The tree over a list. -/
def term (empty : δ) (l : List δ) : Term δ := root Term.node (.leaf empty) (l.map .leaf)

@[simp] theorem term_singleton (empty x : δ) : term empty [x] = .leaf x := by simp [term]

theorem hash_term (join : δ → δ → δ) (empty : δ) (l : List δ) : (term empty l).hash join = root join empty l := by
  have hnode : ∀ a b, (Term.node a b).hash join = join (a.hash join) (b.hash join) := fun _ _ => rfl
  rw [term, map_root hnode, List.map_map]
  congr 1
  exact List.map_id l

private theorem flatten_pairUp (ls : List (List δ)) : (pairUp List.append ls).flatten = ls.flatten := by
  induction ls using pairUp.induct with
  | case1 a b l ih => simp [ih]
  | case2 l h =>
    rcases l with _ | ⟨a, _ | ⟨b, l⟩⟩
    · rfl
    · rfl
    · exact absurd rfl (h a b l)

private theorem root_flatten {ls : List (List δ)} (h : ls ≠ []) (empty : List δ) :
    root List.append empty ls = ls.flatten := by
  induction ls using root.induct List.append with
  | case1 => exact absurd rfl h
  | case2 a => simp
  | case3 a b l ih => rw [← root_pairUp, ih (by simp), flatten_pairUp]

theorem leaves_term {l : List δ} (h : l ≠ []) (empty : δ) : (term empty l).leaves = l := by
  have hne : (l.map Term.leaf).map Term.leaves ≠ [] := by simpa using h
  have hnode : ∀ a b : Term δ, (Term.node a b).leaves = List.append a.leaves b.leaves := fun _ _ => rfl
  rw [term, map_root hnode, root_flatten hne, List.map_map]
  simp [Function.comp_def, Term.leaves, List.flatten_eq_flatMap, List.flatMap_map]

/-! ### Paths -/

/-- The subtree, and the siblings from it up to the root; `true` marks a sibling on the right. -/
inductive Siblings (join : δ → δ → δ) : Term δ → Term δ → List (δ × Bool) → Prop
  | refl (t : Term δ) : Siblings join t t []
  | left {l r t : Term δ} {path : List (δ × Bool)} (h : Siblings join l t path) :
    Siblings join (.node l r) t (path ++ [(r.hash join, true)])
  | right {l r t : Term δ} {path : List (δ × Bool)} (h : Siblings join r t path) :
    Siblings join (.node l r) t (path ++ [(l.hash join, false)])

variable {join : δ → δ → δ}

theorem Siblings.leaves_subset {t sub : Term δ} {path : List (δ × Bool)} (h : Siblings join t sub path) :
    sub.leaves ⊆ t.leaves := by
  induction h with
  | refl t => exact List.Subset.refl _
  | left _ ih => exact List.subset_append_of_subset_left _ ih
  | right _ ih => exact List.subset_append_of_subset_right _ ih

theorem Siblings.trans {t mid sub : Term δ} {path path' : List (δ × Bool)} (h : Siblings join t mid path)
    (h' : Siblings join mid sub path') : Siblings join t sub (path' ++ path) := by
  induction h with
  | refl t => rwa [List.append_nil]
  | left _ ih =>
    rw [← List.append_assoc]
    exact .left (ih h')
  | right _ ih =>
    rw [← List.append_assoc]
    exact .right (ih h')

/-- One step up. -/
def joinStep (join : δ → δ → δ) (acc : δ) (s : δ × Bool) : δ := if s.2 then join acc s.1 else join s.1 acc

/-- Hashing from a leaf along a path. -/
def foldPath (join : δ → δ → δ) (leaf : δ) (path : List (δ × Bool)) : δ := path.foldl (joinStep join) leaf

@[simp] theorem foldPath_nil (leaf : δ) : foldPath join leaf [] = leaf := rfl

theorem foldPath_append (leaf : δ) (path path' : List (δ × Bool)) :
    foldPath join leaf (path ++ path') = foldPath join (foldPath join leaf path) path' := List.foldl_append

/-- The path of a subtree leads from its hash to that of the tree. -/
theorem foldPath_siblings {t sub : Term δ} {path : List (δ × Bool)} (h : Siblings join t sub path) :
    foldPath join (sub.hash join) path = t.hash join := by
  induction h with
  | refl t => rfl
  | left _ ih => rw [foldPath_append, ih]; rfl
  | right _ ih => rw [foldPath_append, ih]; rfl

/-- Two subtrees that the same sides lead to are the same. -/
theorem Siblings.unique {t sub sub' : Term δ} {path path' : List (δ × Bool)} (h : Siblings join t sub path)
    (h' : Siblings join t sub' path') (hsides : path.map Prod.snd = path'.map Prod.snd) : sub = sub' ∧ path = path' := by
  induction h generalizing path' sub' with
  | refl t =>
    cases h' with
    | refl => exact ⟨rfl, rfl⟩
    | left => simp at hsides
    | right => simp at hsides
  | left _ ih =>
    cases h' with
    | refl => simp at hsides
    | left h' =>
      rw [List.map_append, List.map_append] at hsides
      obtain ⟨rfl, rfl⟩ := ih h' (List.append_inj_left' hsides rfl)
      exact ⟨rfl, rfl⟩
    | right => simp at hsides
  | right _ ih =>
    cases h' with
    | refl => simp at hsides
    | left => simp at hsides
    | right h' =>
      rw [List.map_append, List.map_append] at hsides
      obtain ⟨rfl, rfl⟩ := ih h' (List.append_inj_left' hsides rfl)
      exact ⟨rfl, rfl⟩

/-- No sides lead below a leaf. -/
theorem Siblings.below_leaf {t sub : Term δ} {x : δ} {path path' : List (δ × Bool)}
    (h : Siblings join t (.leaf x) path) (h' : Siblings join t sub path') {low : List Bool}
    (hsides : path'.map Prod.snd = low ++ path.map Prod.snd) : low = [] := by
  generalize hleaf : Term.leaf x = y at h
  induction h generalizing path' with
  | refl t =>
    subst hleaf
    cases h'
    simpa using hsides.symm
  | left _ ih =>
    cases h' with
    | refl => simp at hsides
    | left h' =>
      rw [List.map_append, List.map_append, ← List.append_assoc] at hsides
      exact ih h' (List.append_inj_left' hsides rfl) hleaf
    | right h' =>
      rw [List.map_append, List.map_append, ← List.append_assoc] at hsides
      cases List.append_inj_right' hsides rfl
  | right _ ih =>
    cases h' with
    | refl => simp at hsides
    | left h' =>
      rw [List.map_append, List.map_append, ← List.append_assoc] at hsides
      cases List.append_inj_right' hsides rfl
    | right h' =>
      rw [List.map_append, List.map_append, ← List.append_assoc] at hsides
      exact ih h' (List.append_inj_left' hsides rfl) hleaf

variable (join) in
/-- What a path from a leaf hashes is the hash of a tree that has the leaf at the end of the path. -/
theorem exists_tree_of_foldPath (leaf : δ) (path : List (δ × Bool)) :
    ∃ t, t.hash join = foldPath join leaf path ∧ Siblings join t (.leaf leaf) path := by
  induction path using List.reverseRecOn with
  | nil => exact ⟨.leaf leaf, rfl, .refl _⟩
  | append_singleton path s ih =>
    obtain ⟨t, ht, hpath⟩ := ih
    obtain ⟨sib, right⟩ := s
    rw [foldPath_append, ← ht]
    cases right with
    | true => exact ⟨.node t (.leaf sib), rfl, .left (r := .leaf sib) hpath⟩
    | false => exact ⟨.node (.leaf sib) t, rfl, .right (l := .leaf sib) hpath⟩

end HashTree
