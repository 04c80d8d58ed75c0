import Mathlib.Data.List.Nodup

namespace MerkleLevels

open List

variable {Node : Type} (pair : Node → Node → Node) (empty : Node)

-- The last node of an odd level is paired with itself.
def nextLevel : List Node → List Node
  | [] => []
  | [last] => [pair last last]
  | left :: right :: rest => pair left right :: nextLevel rest

def climb : Nat → List Node → Node
  | _, [] => empty
  | _, [root] => root
  | 0, root :: _ => root
  | rounds + 1, level => climb rounds (nextLevel pair level)

def pairs : List Node → List (Node × Node)
  | [] => []
  | [last] => [(last, last)]
  | left :: right :: rest => (left, right) :: pairs rest

def climbPairs : Nat → List Node → List (Node × Node)
  | _, [] => []
  | _, [_] => []
  | 0, _ => []
  | rounds + 1, level => pairs level ++ climbPairs rounds (nextLevel pair level)

-- Pairing is injective on the pairs that are hashed, and a node shows how high above the leaves it is.
structure Separated (Hashed : Node × Node → Prop) (Ranked : Nat → Node → Prop) : Prop where
  injective : ∀ {first second}, Hashed first → Hashed second → pair first.1 first.2 = pair second.1 second.2 → first = second
  rises : ∀ {rank both}, Hashed both → Ranked rank both.1 → Ranked rank both.2 → Ranked (rank + 1) (pair both.1 both.2)
  unique : ∀ {rank other node}, Ranked rank node → Ranked other node → rank = other

variable {pair empty} {Hashed : Node × Node → Prop} {Ranked : Nat → Node → Prop}

theorem next_level_pairs (level : List Node) : nextLevel pair level = (pairs level).map fun both => pair both.1 both.2 := by
  fun_induction nextLevel pair level with
  | case1 => rfl
  | case2 last => rfl
  | case3 left right rest ih => simp [pairs, ih]

variable {level : List Node}

theorem pairs_members {both : Node × Node} (member : both ∈ pairs level) : both.1 ∈ level ∧ both.2 ∈ level := by
  fun_induction pairs level with
  | case1 => contradiction
  | case2 last =>
    rw [mem_singleton.mp member]
    simp
  | case3 left right rest ih =>
    rcases mem_cons.mp member with rfl | later
    · simp
    · obtain ⟨first, second⟩ := ih later
      exact ⟨by simp [first], by simp [second]⟩

theorem pairs_nodup (distinct : level.Nodup) : (pairs level).Nodup := by
  fun_induction pairs level with
  | case1 => exact nodup_nil
  | case2 last => exact nodup_singleton _
  | case3 left right rest ih =>
    rw [nodup_cons, nodup_cons] at distinct
    refine nodup_cons.mpr ⟨fun member => ?_, ih distinct.2.2⟩
    exact distinct.1 (mem_cons_of_mem _ (pairs_members member).1)

-- A pair of two different nodes ends a level of even length, a pair of equal ones an odd level.
theorem pairs_injective {left right : List Node} (leftDistinct : left.Nodup) (rightDistinct : right.Nodup)
    (same : pairs left = pairs right) : left = right := by
  induction left using pairs.induct generalizing right with
  | case1 =>
    match right with
    | [] => rfl
    | [_] => contradiction
    | _ :: _ :: _ => contradiction
  | case2 last =>
    match right with
    | [] => contradiction
    | [other] =>
      simp only [pairs, List.cons.injEq, Prod.mk.injEq] at same
      rw [same.1.1]
    | first :: second :: rest =>
      simp only [pairs, List.cons.injEq, Prod.mk.injEq] at same
      rw [← same.1.1, ← same.1.2] at rightDistinct
      simp at rightDistinct
  | case3 first second rest ih =>
    match right with
    | [] => contradiction
    | [other] =>
      simp only [pairs, List.cons.injEq, Prod.mk.injEq] at same
      rw [same.1.1, same.1.2] at leftDistinct
      simp at leftDistinct
    | first' :: second' :: rest' =>
      simp only [pairs, List.cons.injEq, Prod.mk.injEq] at same
      rw [nodup_cons, nodup_cons] at leftDistinct rightDistinct
      rw [same.1.1, same.1.2, ih leftDistinct.2.2 rightDistinct.2.2 same.2]

theorem pairs_length (level : List Node) : (pairs level).length = (level.length + 1) / 2 := by
  fun_induction pairs level with
  | case1 => simp
  | case2 last => simp
  | case3 left right rest ih =>
    simp only [length_cons, ih]
    omega

theorem map_injective_on {Source Target : Type} {write : Source → Target} {left right : List Source}
    (apart : ∀ first ∈ left, ∀ second ∈ right, write first = write second → first = second)
    (same : left.map write = right.map write) : left = right := by
  induction left generalizing right with
  | nil => exact (map_eq_nil_iff.mp same.symm).symm
  | cons first rest ih =>
    cases right with
    | nil => contradiction
    | cons second others =>
      rw [map_cons, map_cons, List.cons.injEq] at same
      rw [apart first mem_cons_self second mem_cons_self same.1,
        ih (fun early listed late listed' => apart early (mem_cons_of_mem _ listed) late (mem_cons_of_mem _ listed')) same.2]

theorem next_level_shorter {rounds : Nat} (many : 1 < level.length) (enough : level.length ≤ rounds + 1) :
    (nextLevel pair level).length ≤ rounds := by
  rw [next_level_pairs, length_map, pairs_length]
  omega

section Climbing

variable (separated : Separated pair Hashed Ranked)
include separated

theorem next_level_nodup (distinct : level.Nodup) (hashed : ∀ both ∈ pairs level, Hashed both) : (nextLevel pair level).Nodup := by
  rw [next_level_pairs]
  refine (pairs_nodup distinct).map_on fun first listed second listed' same => ?_
  exact separated.injective (hashed first listed) (hashed second listed') same

theorem next_level_injective {left right : List Node} (leftDistinct : left.Nodup) (rightDistinct : right.Nodup)
    (leftHashed : ∀ both ∈ pairs left, Hashed both) (rightHashed : ∀ both ∈ pairs right, Hashed both)
    (same : nextLevel pair left = nextLevel pair right) : left = right := by
  rw [next_level_pairs, next_level_pairs] at same
  refine pairs_injective leftDistinct rightDistinct (map_injective_on (fun first listed second listed' equal => ?_) same)
  exact separated.injective (leftHashed first listed) (rightHashed second listed') equal

theorem next_level_ranked {rank : Nat} (ranked : ∀ node ∈ level, Ranked rank node)
    (hashed : ∀ both ∈ pairs level, Hashed both) : ∀ node ∈ nextLevel pair level, Ranked (rank + 1) node := by
  intro node member
  rw [next_level_pairs] at member
  obtain ⟨both, listed, rfl⟩ := mem_map.mp member
  obtain ⟨first, second⟩ := pairs_members listed
  exact separated.rises (hashed both listed) (ranked _ first) (ranked _ second)

theorem climb_ranked {rank rounds : Nat} (present : level ≠ []) (enough : level.length ≤ rounds)
    (ranked : ∀ node ∈ level, Ranked rank node) (hashed : ∀ both ∈ climbPairs pair rounds level, Hashed both) :
    ∃ height, Ranked height (climb pair empty rounds level) ∧ rank ≤ height ∧ (1 < level.length → rank < height) := by
  induction rounds generalizing rank level with
  | zero => exact absurd (eq_nil_of_length_eq_zero (Nat.le_zero.mp enough)) present
  | succ rounds ih =>
    match level with
    | [root] => exact ⟨rank, ranked root (mem_singleton_self _), Nat.le_refl _, fun many => absurd many (Nat.lt_irrefl _)⟩
    | left :: right :: rest =>
      have split : ∀ both, both ∈ pairs (left :: right :: rest) ∨
          both ∈ climbPairs pair rounds (nextLevel pair (left :: right :: rest)) → Hashed both := fun both listed =>
        hashed both (mem_append.mpr listed)
      have shorter := @next_level_shorter _ pair (left :: right :: rest) rounds (by simp) enough
      obtain ⟨height, reached, above, -⟩ := ih (cons_ne_nil _ _) shorter
        (next_level_ranked separated ranked fun both listed => split both (.inl listed)) fun both listed => split both (.inr listed)
      exact ⟨height, reached, by omega, fun _ => by omega⟩

theorem root_above {rank rounds : Nat} {node : Node} (enough : level.length ≤ rounds) (many : 1 < level.length)
    (ranked : ∀ node ∈ level, Ranked rank node) (hashed : ∀ both ∈ climbPairs pair rounds level, Hashed both)
    (low : Ranked rank node) : climb pair empty rounds level ≠ node := by
  rintro rfl
  have present : level ≠ [] := ne_nil_of_length_pos (Nat.lt_trans Nat.zero_lt_one many)
  obtain ⟨height, reached, -, higher⟩ := @climb_ranked _ _ empty _ _ _ separated _ _ present enough ranked hashed
  exact absurd (separated.unique low reached) (Nat.ne_of_lt (higher many))

-- The root determines its leaves when they are distinct: level by level from the top, both sides stay equal.
theorem climb_injective {rank rounds rounds' : Nat} {left right : List Node} (leftPresent : left ≠ []) (rightPresent : right ≠ [])
    (leftEnough : left.length ≤ rounds) (rightEnough : right.length ≤ rounds') (leftDistinct : left.Nodup) (rightDistinct : right.Nodup)
    (leftRanked : ∀ node ∈ left, Ranked rank node) (rightRanked : ∀ node ∈ right, Ranked rank node)
    (leftHashed : ∀ both ∈ climbPairs pair rounds left, Hashed both) (rightHashed : ∀ both ∈ climbPairs pair rounds' right, Hashed both)
    (same : climb pair empty rounds left = climb pair empty rounds' right) : left = right := by
  induction rounds generalizing rank rounds' left right with
  | zero => exact absurd (eq_nil_of_length_eq_zero (Nat.le_zero.mp leftEnough)) leftPresent
  | succ rounds ih =>
    cases rounds' with
    | zero => exact absurd (eq_nil_of_length_eq_zero (Nat.le_zero.mp rightEnough)) rightPresent
    | succ rounds' =>
      match left, right with
      | [first], [second] => exact congrArg (fun node => [node]) same
      | [first], second :: third :: rest =>
        have low := leftRanked first (mem_singleton_self _)
        exact absurd same.symm (root_above separated rightEnough (by simp) rightRanked rightHashed low)
      | first :: second :: rest, [third] =>
        have low := rightRanked third (mem_singleton_self _)
        exact absurd same (root_above separated leftEnough (by simp) leftRanked leftHashed low)
      | first :: second :: rest, third :: fourth :: rest' =>
        have leftPairs := (forall_mem_append.mp leftHashed).1
        have rightPairs := (forall_mem_append.mp rightHashed).1
        apply next_level_injective separated leftDistinct rightDistinct leftPairs rightPairs
        exact ih (cons_ne_nil _ _) (cons_ne_nil _ _) (next_level_shorter (by simp) leftEnough)
          (next_level_shorter (by simp) rightEnough) (next_level_nodup separated leftDistinct leftPairs)
          (next_level_nodup separated rightDistinct rightPairs) (next_level_ranked separated leftRanked leftPairs)
          (next_level_ranked separated rightRanked rightPairs) (forall_mem_append.mp leftHashed).2
          (forall_mem_append.mp rightHashed).2 same

end Climbing

end MerkleLevels
