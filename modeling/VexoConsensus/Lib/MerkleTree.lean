import Mathlib.Data.List.Basic

namespace MerkleTree

open List

inductive HashTree (Leaf : Type) where
  | leaf (content : Leaf)
  | node (left right : HashTree Leaf)

section Trees

variable {Leaf Node : Type} (leafHash : Leaf → Node) (pair : Node → Node → Node)

def HashTree.leaves : HashTree Leaf → List Leaf
  | .leaf content => [content]
  | .node left right => left.leaves ++ right.leaves

def HashTree.hash : HashTree Leaf → Node
  | .leaf content => leafHash content
  | .node left right => pair left.hash right.hash

-- Hashing is injective, and tells a leaf from a node, on what is hashed.
structure Binding (LeafHashed : Leaf → Prop) (PairHashed : Node → Node → Prop) : Prop where
  leafInjective : ∀ {first second}, LeafHashed first → LeafHashed second → leafHash first = leafHash second → first = second
  pairInjective : ∀ {left right left' right'}, PairHashed left right → PairHashed left' right' → pair left right = pair left' right' →
    left = left' ∧ right = right'
  apart : ∀ {content left right}, LeafHashed content → PairHashed left right → leafHash content ≠ pair left right

variable (LeafHashed : Leaf → Prop) (PairHashed : Node → Node → Prop)

def HashTree.Covered : HashTree Leaf → Prop
  | .leaf content => LeafHashed content
  | .node left right => PairHashed (left.hash leafHash pair) (right.hash leafHash pair) ∧ left.Covered ∧ right.Covered

-- A node is reached from another by hashing it with siblings of anyone's choice.
inductive Ascends : Node → Node → Prop where
  | here (node : Node) : Ascends node node
  | withLeft {node sibling top : Node} (hashed : PairHashed sibling node) (above : Ascends (pair sibling node) top) : Ascends node top
  | withRight {node sibling top : Node} (hashed : PairHashed node sibling) (above : Ascends (pair node sibling) top) : Ascends node top

variable {leafHash pair LeafHashed PairHashed}

theorem ascends_top {node top : Node} (ascends : Ascends pair PairHashed node top) :
    node = top ∨ ∃ left right, PairHashed left right ∧ pair left right = top := by
  induction ascends with
  | here node => exact .inl rfl
  | withLeft hashed above ih | withRight hashed above ih =>
    rcases ih with same | below
    · exact .inr ⟨_, _, hashed, same⟩
    · exact .inr below

variable (binding : Binding leafHash pair LeafHashed PairHashed)
include binding

theorem hash_injective {first second : HashTree Leaf} (firstCovered : first.Covered leafHash pair LeafHashed PairHashed)
    (secondCovered : second.Covered leafHash pair LeafHashed PairHashed) (same : first.hash leafHash pair = second.hash leafHash pair) :
    first = second := by
  induction first generalizing second with
  | leaf content =>
    cases second with
    | leaf other => rw [binding.leafInjective firstCovered secondCovered same]
    | node left right => exact absurd same (binding.apart firstCovered secondCovered.1)
  | node left right leftIH rightIH =>
    cases second with
    | leaf other => exact absurd same.symm (binding.apart secondCovered firstCovered.1)
    | node left' right' =>
      obtain ⟨lefts, rights⟩ := binding.pairInjective firstCovered.1 secondCovered.1 same
      rw [leftIH firstCovered.2.1 secondCovered.2.1 lefts, rightIH firstCovered.2.2 secondCovered.2.2 rights]

-- Whatever ascends to the root of a tree is the hash of one of its subtrees.
theorem ascends_subtree {tree : HashTree Leaf} {node : Node} (covered : tree.Covered leafHash pair LeafHashed PairHashed)
    (ascends : Ascends pair PairHashed node (tree.hash leafHash pair)) :
    ∃ sub : HashTree Leaf, sub.Covered leafHash pair LeafHashed PairHashed ∧ sub.hash leafHash pair = node ∧
      ∀ content ∈ sub.leaves, content ∈ tree.leaves := by
  generalize reached : tree.hash leafHash pair = top at ascends
  induction ascends with
  | here node => exact ⟨tree, covered, reached, fun _ listed => listed⟩
  | withLeft hashed above ih =>
    obtain ⟨sub, subCovered, subHash, inside⟩ := ih reached
    cases sub with
    | leaf content => exact absurd subHash (binding.apart subCovered hashed)
    | node left right =>
      obtain ⟨-, same⟩ := binding.pairInjective subCovered.1 hashed subHash
      exact ⟨right, subCovered.2.2, same, fun content listed => inside content (mem_append_right _ listed)⟩
  | withRight hashed above ih =>
    obtain ⟨sub, subCovered, subHash, inside⟩ := ih reached
    cases sub with
    | leaf content => exact absurd subHash (binding.apart subCovered hashed)
    | node left right =>
      obtain ⟨same, -⟩ := binding.pairInjective subCovered.1 hashed subHash
      exact ⟨left, subCovered.2.1, same, fun content listed => inside content (mem_append_left _ listed)⟩

theorem ascending_leaf {tree : HashTree Leaf} {content : Leaf} (covered : tree.Covered leafHash pair LeafHashed PairHashed)
    (hashed : LeafHashed content) (ascends : Ascends pair PairHashed (leafHash content) (tree.hash leafHash pair)) : content ∈ tree.leaves := by
  obtain ⟨sub, subCovered, subHash, inside⟩ := ascends_subtree binding covered ascends
  cases sub with
  | leaf other =>
    rw [← binding.leafInjective subCovered hashed subHash]
    exact inside other (mem_singleton_self _)
  | node left right => exact absurd subHash.symm (binding.apart hashed subCovered.1)

end Trees

section Levels

variable {Node : Type} (pair : Node → Node → Node) (empty : Node)

-- The last node of an odd level goes up as it is.
def nextLevel : List Node → List Node
  | left :: right :: rest => pair left right :: nextLevel rest
  | level => level

def climb : Nat → List Node → Node
  | _, [] => empty
  | _, [root] => root
  | 0, root :: _ => root
  | rounds + 1, level => climb rounds (nextLevel pair level)

def pairs : List Node → List (Node × Node)
  | left :: right :: rest => (left, right) :: pairs rest
  | _ => []

def climbPairs : Nat → List Node → List (Node × Node)
  | _, [] => []
  | _, [_] => []
  | 0, _ => []
  | rounds + 1, level => pairs level ++ climbPairs rounds (nextLevel pair level)

variable {pair empty}

theorem next_level_length (level : List Node) : (nextLevel pair level).length = (level.length + 1) / 2 := by
  induction level using nextLevel.induct with
  | case1 left right rest ih =>
    simp only [nextLevel, length_cons, ih]
    omega
  | case2 level short =>
    match level with
    | [] => simp [nextLevel]
    | [_] => simp [nextLevel]
    | left :: right :: rest => exact absurd rfl (short left right rest)

theorem next_level_get (level : List Node) (index : Nat) :
    (nextLevel pair level)[index]? = level[2 * index]?.map fun left => (level[2 * index + 1]?.map (pair left)).getD left := by
  induction level using nextLevel.induct generalizing index with
  | case1 left right rest ih =>
    cases index with
    | zero => simp [nextLevel]
    | succ index => simpa [nextLevel, Nat.mul_succ] using ih index
  | case2 level short =>
    match level with
    | [] => simp [nextLevel]
    | [only] =>
      cases index with
      | zero => simp [nextLevel]
      | succ index => simp [nextLevel, Nat.mul_succ]
    | left :: right :: rest => exact absurd rfl (short left right rest)

theorem pairs_get {level : List Node} {index : Nat} {left right : Node} (first : level[2 * index]? = some left)
    (second : level[2 * index + 1]? = some right) : (left, right) ∈ pairs level := by
  induction level using nextLevel.induct generalizing index with
  | case1 left' right' rest ih =>
    cases index with
    | zero =>
      cases first
      cases second
      exact mem_cons_self ..
    | succ index => exact mem_cons_of_mem _ (ih (by simpa [Nat.mul_succ] using first) (by simpa [Nat.mul_succ] using second))
  | case2 level short =>
    match level with
    | [] => simp at first
    | [only] => simp at second
    | left' :: right' :: rest => exact absurd rfl (short left' right' rest)

theorem next_level_shorter {rounds : Nat} {level : List Node} (many : 1 < level.length) (enough : level.length ≤ rounds + 1) :
    (nextLevel pair level).length ≤ rounds := by
  rw [next_level_length]
  omega

end Levels

section Growth

variable {Leaf Node : Type} {leafHash : Leaf → Node} {pair : Node → Node → Node} {empty : Node} {LeafHashed : Leaf → Prop}
  {PairHashed : Node → Node → Prop}

theorem next_level_trees {trees : List (HashTree Leaf)} (covered : ∀ tree ∈ trees, tree.Covered leafHash pair LeafHashed PairHashed)
    (hashed : ∀ both ∈ pairs (trees.map (HashTree.hash leafHash pair)), PairHashed both.1 both.2) :
    ∃ raised : List (HashTree Leaf), raised.map (HashTree.hash leafHash pair) = nextLevel pair (trees.map (HashTree.hash leafHash pair)) ∧
      raised.flatMap HashTree.leaves = trees.flatMap HashTree.leaves ∧ ∀ tree ∈ raised, tree.Covered leafHash pair LeafHashed PairHashed := by
  match trees with
  | [] => exact ⟨[], by simp [nextLevel], rfl, covered⟩
  | [only] => exact ⟨[only], by simp [nextLevel], rfl, covered⟩
  | left :: right :: rest =>
    simp only [map_cons, pairs, forall_mem_cons] at covered hashed
    obtain ⟨raised, hashes, leaves, above⟩ := next_level_trees covered.2.2 hashed.2
    refine ⟨.node left right :: raised, ?_, ?_, forall_mem_cons.mpr ⟨⟨hashed.1, covered.1, covered.2.1⟩, above⟩⟩
    · rw [map_cons, map_cons, map_cons, nextLevel, hashes]
      rfl
    · simp only [flatMap_cons, leaves, HashTree.leaves, append_assoc]

theorem climb_tree {rounds : Nat} {trees : List (HashTree Leaf)} (present : trees ≠ []) (enough : trees.length ≤ rounds)
    (covered : ∀ tree ∈ trees, tree.Covered leafHash pair LeafHashed PairHashed)
    (hashed : ∀ both ∈ climbPairs pair rounds (trees.map (HashTree.hash leafHash pair)), PairHashed both.1 both.2) :
    ∃ tree : HashTree Leaf, tree.hash leafHash pair = climb pair empty rounds (trees.map (HashTree.hash leafHash pair)) ∧
      tree.leaves = trees.flatMap HashTree.leaves ∧ tree.Covered leafHash pair LeafHashed PairHashed := by
  induction rounds generalizing trees with
  | zero => exact absurd (eq_nil_of_length_eq_zero (Nat.le_zero.mp enough)) present
  | succ rounds ih =>
    match trees with
    | [only] => exact ⟨only, rfl, by simp, covered only (mem_singleton_self _)⟩
    | left :: right :: rest =>
      obtain ⟨raised, hashes, leaves, above⟩ := next_level_trees covered (forall_mem_append.mp hashed).1
      have length := congrArg length hashes
      rw [length_map, next_level_length, length_map] at length
      have some : raised ≠ [] := by
        intro none
        simp [none] at length
        omega
      have shorter : raised.length ≤ rounds := by
        simp only [length_cons] at length enough
        omega
      obtain ⟨tree, root, under, inside⟩ := ih some shorter above fun both listed =>
        hashed both (mem_append_right _ (hashes ▸ listed))
      exact ⟨tree, root.trans (by rw [hashes]; rfl), under.trans leaves, inside⟩

theorem climb_leaves {rounds : Nat} {contents : List Leaf} (present : contents ≠ []) (enough : contents.length ≤ rounds)
    (leafHashed : ∀ content ∈ contents, LeafHashed content)
    (hashed : ∀ both ∈ climbPairs pair rounds (contents.map leafHash), PairHashed both.1 both.2) :
    ∃ tree : HashTree Leaf, tree.hash leafHash pair = climb pair empty rounds (contents.map leafHash) ∧ tree.leaves = contents ∧
      tree.Covered leafHash pair LeafHashed PairHashed := by
  have hashes : (contents.map HashTree.leaf).map (HashTree.hash leafHash pair) = contents.map leafHash := by
    rw [map_map]
    rfl
  have covered : ∀ tree ∈ contents.map HashTree.leaf, tree.Covered leafHash pair LeafHashed PairHashed := by
    intro tree listed
    obtain ⟨content, inside, rfl⟩ := mem_map.mp listed
    exact leafHashed content inside
  obtain ⟨tree, root, leaves, inside⟩ := @climb_tree _ _ _ _ empty _ _ _ _ (mt map_eq_nil_iff.mp present)
    (by rwa [length_map]) covered (hashes.symm ▸ hashed)
  refine ⟨tree, hashes ▸ root, leaves.trans ?_, inside⟩
  rw [flatMap_map]
  exact flatMap_singleton' contents

end Growth

end MerkleTree
