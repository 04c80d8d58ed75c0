import Mathlib.Data.List.Basic

namespace Segments

open List

variable {Symbol : Type} {separator : Symbol} {first rest first' rest' : List Symbol}

-- Where the second text is cut at its first separator, the first one is cut there or later.
theorem joined_cases (plain : separator ∉ first') (same : first ++ separator :: rest = first' ++ separator :: rest') :
    (first = first' ∧ rest = rest') ∨ ∃ middle, first = first' ++ separator :: middle ∧ rest' = middle ++ separator :: rest := by
  rcases append_eq_append_iff.mp same with ⟨middle, later, tail⟩ | ⟨middle, later, tail⟩
  · cases middle with
    | nil =>
      rw [append_nil] at later
      exact .inl ⟨later.symm, (List.cons.inj tail).2⟩
    | cons symbol middle =>
      have head := (List.cons.inj tail).1
      rw [later, ← head] at plain
      exact absurd (mem_append_right _ mem_cons_self) plain
  · cases middle with
    | nil =>
      rw [append_nil] at later
      exact .inl ⟨later, (List.cons.inj tail).2.symm⟩
    | cons symbol middle =>
      obtain ⟨head, tail⟩ := List.cons.inj tail
      exact .inr ⟨middle, by rw [later, head], tail⟩

theorem first_segment (plain : separator ∉ first) (plain' : separator ∉ first')
    (same : first ++ separator :: rest = first' ++ separator :: rest') : first = first' ∧ rest = rest' := by
  rcases joined_cases plain' same with cut | ⟨middle, later, -⟩
  · exact cut
  · rw [later] at plain
    exact absurd (mem_append_right _ mem_cons_self) plain

theorem last_segment (plain : separator ∉ rest) (plain' : separator ∉ rest')
    (same : first ++ separator :: rest = first' ++ separator :: rest') : first = first' ∧ rest = rest' := by
  have reversed : rest.reverse ++ separator :: first.reverse = rest'.reverse ++ separator :: first'.reverse := by
    simpa using congrArg reverse same
  have cut := first_segment (by simpa using plain) (by simpa using plain') reversed
  exact ⟨reverse_inj.mp cut.2, reverse_inj.mp cut.1⟩

end Segments
