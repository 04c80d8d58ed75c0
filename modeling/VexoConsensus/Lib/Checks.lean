import Mathlib.Logic.Basic

namespace Checks

variable {Reason Value Result : Type}

def require (condition : Prop) [Decidable condition] (reason : Reason) : Except Reason Unit :=
  if condition then .ok () else .error reason

variable {condition : Prop} {reason : Reason}

@[simp] theorem require_ok_iff [Decidable condition] {done : Unit} : require condition reason = .ok done ↔ condition := by
  by_cases holds : condition <;> simp [require, holds]

variable {check next : Value → Except Reason Result} {result : Result} {outcome first : Except Reason Value}

@[simp] theorem bind_ok_iff : (first >>= next) = .ok result ↔ ∃ value, first = .ok value ∧ next value = .ok result := by
  cases first with
  | error reason | ok value => simp [bind, Except.bind]

variable {value : Value}

theorem pure_ok_iff {result : Value} : (pure value : Except Reason Value) = .ok result ↔ value = result := by
  simp [pure, Except.pure]

-- The rules that take a chain of checks apart, in one simp argument.
theorem ok_iff : (∀ {Reason : Type} {condition : Prop} [Decidable condition] {reason : Reason} {done : Unit},
      require condition reason = .ok done ↔ condition) ∧
    (∀ {Reason Value Result : Type} {first : Except Reason Value} {next : Value → Except Reason Result} {result : Result},
      (first >>= next) = .ok result ↔ ∃ value, first = .ok value ∧ next value = .ok result) ∧
    ∀ {holds : Prop}, (∃ _ : Unit, holds) ↔ holds := ⟨require_ok_iff, bind_ok_iff, exists_const _⟩

theorem bind_ok (given : first = .ok value) (rest : next value = .ok result) : (first >>= next) = .ok result := bind_ok_iff.mpr ⟨value, given, rest⟩

theorem require_bind [Decidable condition] {next : Unit → Except Reason Result}
    (holds : condition) (rest : next () = .ok result) : (require condition reason >>= next) = .ok result :=
  bind_ok (require_ok_iff.mpr holds) rest

theorem require_error_iff [Decidable condition] {failure : Reason} : require condition reason = .error failure ↔ ¬ condition ∧ reason = failure := by
  by_cases holds : condition <;> simp [require, holds]

theorem bind_error_iff (first : Except Reason Value) (next : Value → Except Reason Result) (failure : Reason) :
    (first >>= next) = .error failure ↔ first = .error failure ∨ ∃ value, first = .ok value ∧ next value = .error failure := by
  cases first with
  | error reason | ok value => simp [bind, Except.bind]

def Ensures (holds : Value → Prop) (outcome : Except Reason Value) : Prop := ∀ value, outcome = .ok value → holds value

variable {holds : Result → Prop}

theorem Ensures.bind (rest : ∀ value, Ensures holds (next value)) : Ensures holds (first >>= next) := by
  intro result done
  obtain ⟨value, -, done⟩ := bind_ok_iff.mp done
  exact rest value result done

theorem Ensures.returns {wrap : Value → Result} (kept : Ensures (fun value => holds (wrap value)) first) :
    Ensures holds (first >>= fun value => pure (wrap value)) := by
  intro result done
  obtain ⟨value, given, done⟩ := bind_ok_iff.mp done
  exact pure_ok_iff.mp done ▸ kept value given

theorem Ensures.error : Ensures holds (.error reason) := by
  intro result done
  cases done

theorem map_ok_length {values : List Value} {results : List Result} (checked : values.mapM check = .ok results) : results.length = values.length := by
  induction values generalizing results with
  | nil =>
    cases checked
    rfl
  | cons value later ih =>
    simp only [List.mapM_cons, bind_ok_iff] at checked
    obtain ⟨first, -, rest, checkedRest, done⟩ := checked
    cases done
    rw [List.length_cons, List.length_cons, ih checkedRest]

theorem map_ok_of_forall {made : Value → Result} {values : List Value}
    (passes : ∀ value ∈ values, check value = .ok (made value)) : values.mapM check = .ok (values.map made) := by
  induction values with
  | nil => rfl
  | cons value later ih =>
    rw [List.forall_mem_cons] at passes
    rw [List.mapM_cons, passes.1, ih passes.2]
    rfl

theorem exists_of_is_ok (succeeded : outcome.isOk = true) : ∃ value, outcome = .ok value := by
  cases outcome with
  | ok value => exact ⟨value, rfl⟩
  | error reason => contradiction

theorem exists_ok_of_any {test : Value → Bool} (passes : outcome.toOption.any test = true) : ∃ value, outcome = .ok value ∧ test value = true := by
  cases outcome with
  | ok value => exact ⟨value, rfl, passes⟩
  | error reason => cases passes

theorem to_option_iff : outcome.toOption = some value ↔ outcome = .ok value := by
  cases outcome <;> simp [Except.toOption]

end Checks
