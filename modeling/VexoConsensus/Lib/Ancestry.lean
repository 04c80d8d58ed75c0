import Mathlib.Computability.StateTransition

namespace Ancestry

open StateTransition

variable {Point : Type} {parent parent' : Point → Option Point}

def OneChain (parent : Point → Option Point) (first second : Point) : Prop :=
  Reaches parent first second ∨ Reaches parent second first

section

variable (kept : ∀ child ancestor, parent child = some ancestor → parent' child = some ancestor)
include kept

theorem reaches_mono {first second : Point} (reaches : Reaches parent first second) : Reaches parent' first second :=
  Relation.ReflTransGen.mono (fun child ancestor link => kept child ancestor link) _ _ reaches

theorem one_chain_mono {first second : Point} (chain : OneChain parent first second) : OneChain parent' first second :=
  chain.imp (reaches_mono kept) (reaches_mono kept)

end

theorem one_chain_of_reached {start first second : Point} (toFirst : Reaches parent start first)
    (chain : OneChain parent start second) : OneChain parent first second := by
  rcases chain with toSecond | fromSecond
  · exact reaches_total toFirst toSecond
  · exact .inr (fromSecond.trans toFirst)

structure Levels (parent : Point → Option Point) (level : Point → Nat → Prop) : Prop where
  unique : ∀ point first second, level point first → level point second → first = second
  down : ∀ child ancestor, parent child = some ancestor → ∃ height, level child (height + 1) ∧ level ancestor height

variable {level : Point → Nat → Prop}
variable (levels : Levels parent level)
include levels

theorem Levels.reaches_le {first second : Point} (reaches : Reaches parent first second)
    {high low : Nat} (atHigh : level first high) (atLow : level second low) : low ≤ high ∧ (low = high → first = second) := by
  induction reaches generalizing low with
  | refl => exact ⟨Nat.le_of_eq (levels.unique _ _ _ atLow atHigh), fun _ => rfl⟩
  | tail earlier link ih =>
    obtain ⟨height, above, below⟩ := levels.down _ _ link
    have same := levels.unique _ _ _ below atLow
    have bound := (ih above).1
    exact ⟨by omega, fun equal => by omega⟩

theorem Levels.ancestor_of_lt {low high : Point} (chain : OneChain parent low high) {lower upper : Nat}
    (atLow : level low lower) (atHigh : level high upper) (below : lower < upper) : Reaches₁ parent high low := by
  rcases chain with upward | downward
  · have bound := (levels.reaches_le upward atLow atHigh).1
    omega
  · rcases Relation.reflTransGen_iff_eq_or_transGen.mp downward with same | proper
    · subst same
      have equal := levels.unique _ _ _ atLow atHigh
      omega
    · exact proper

theorem Levels.eq_of_same {first second : Point} (chain : OneChain parent first second) {height : Nat}
    (atFirst : level first height) (atSecond : level second height) : first = second := by
  rcases chain with reaches | reaches
  · exact (levels.reaches_le reaches atFirst atSecond).2 rfl
  · exact ((levels.reaches_le reaches atSecond atFirst).2 rfl).symm

theorem Levels.parent_of_next {low high : Point} (reaches : Reaches₁ parent high low)
    {height : Nat} (atLow : level low height) (atHigh : level high (height + 1)) : parent high = some low := by
  obtain ⟨next, link, rest⟩ := Relation.TransGen.head'_iff.mp reaches
  obtain ⟨below, above, atNext⟩ := levels.down _ _ link
  have same := levels.unique _ _ _ above atHigh
  have reached : next = low := (levels.reaches_le rest atNext atLow).2 (by omega)
  exact reached ▸ link

end Ancestry
