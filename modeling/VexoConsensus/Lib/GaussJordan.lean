import Mathlib.Algebra.BigOperators.Group.Finset.Basic
import Mathlib.Algebra.BigOperators.Ring.Finset
import Mathlib.Algebra.Field.Defs
import Mathlib.Data.List.GetD
import Mathlib.Tactic.Ring

namespace GaussJordan

open List

variable {Scalar : Type} [Field Scalar] [DecidableEq Scalar] (rows : List (List Scalar))

def entry (row column : ℕ) : Scalar := (rows.getD row []).getD column 0

def swapRows (first second : ℕ) : List (List Scalar) :=
  if first = second then rows else (rows.set first (rows.getD second [])).set second (rows.getD first [])

def subtract (row pivotRow : List Scalar) (factor : Scalar) : List Scalar := List.zipWith (fun left right => left - factor * right) row pivotRow

variable (column : ℕ)

def scaledPivot : List Scalar :=
  (rows.getD column []).map fun value => value * (entry rows column column)⁻¹

def clearColumn : List (List Scalar) :=
  rows.mapIdx fun index row =>
    if index = column then scaledPivot rows column
    else if row.getD column 0 = 0 then row else subtract row (scaledPivot rows column) (row.getD column 0)

-- The first row from the column's own on that does not vanish in it.
def pivot : ℕ := column + (rows.drop column).findIdx fun row => row.getD column 0 ≠ 0

def reduceColumn : Option (List (List Scalar)) :=
  if pivot rows column = rows.length then none else some (clearColumn (swapRows rows (pivot rows column) column) column)

def unit (size place : ℕ) : List Scalar := (List.range size).map fun index => if index = place then 1 else 0

variable (matrix : List (List Scalar))

def augment : List (List Scalar) := matrix.mapIdx fun index row => row ++ unit matrix.length index

def invert : Option (List (List Scalar)) :=
  ((List.range matrix.length).foldlM reduceColumn (augment matrix)).map fun rows => rows.map (List.drop matrix.length)

structure Shaped (height width : ℕ) (rows : List (List Scalar)) : Prop where
  height : rows.length = height
  width : ∀ row ∈ rows, row.length = width

def dot (width : ℕ) (row : List Scalar) (point : ℕ → Scalar) : Scalar := ∑ index ∈ Finset.range width, row.getD index 0 * point index

def Vanishes (height width : ℕ) (rows : List (List Scalar)) (point : ℕ → Scalar) : Prop :=
  ∀ index < height, dot width (rows.getD index []) point = 0

def Reduced (height columns : ℕ) (rows : List (List Scalar)) : Prop :=
  ∀ row < height, ∀ column < columns, entry rows row column = if row = column then 1 else 0

variable {column first columns row second index : ℕ}

section Shape

omit [Field Scalar] [DecidableEq Scalar]

variable {height width : ℕ} {rows : List (List Scalar)}

theorem shaped_row (shaped : Shaped height width rows) (inside : index < height) : (rows.getD index []).length = width := by
  have bound : index < rows.length := shaped.height ▸ inside
  rw [getD_eq_getElem _ _ bound]
  exact shaped.width _ (getElem_mem bound)

theorem swap_get (firstInside : first < rows.length) (secondInside : second < rows.length) :
    (swapRows rows first second).getD index [] = rows.getD (Equiv.swap first second index) [] := by
  unfold swapRows
  split
  · next same =>
    rw [same, Equiv.swap_self, Equiv.refl_apply]
  · next same =>
    rw [Equiv.swap_apply_def]
    by_cases atSecond : index = second
    · rw [atSecond, if_neg (Ne.symm same), if_pos rfl, getD_eq_getElem?_getD, getElem?_set_self (by simpa using secondInside), Option.getD_some]
    · rw [if_neg atSecond, getD_eq_getElem?_getD, getElem?_set_ne (Ne.symm atSecond)]
      split
      · next atFirst =>
        rw [atFirst, getElem?_set_self firstInside, Option.getD_some]
      · next atFirst =>
        rw [getElem?_set_ne (Ne.symm atFirst), getD_eq_getElem?_getD]

theorem swap_shaped (shaped : Shaped height width rows) (firstInside : first < height) (secondInside : second < height) :
    Shaped height width (swapRows rows first second) := by
  unfold swapRows
  split
  · exact shaped
  · refine ⟨by rw [length_set, length_set, shaped.height], fun row listed => ?_⟩
    rcases mem_or_eq_of_mem_set listed with listed | rfl
    · rcases mem_or_eq_of_mem_set listed with listed | rfl
      · exact shaped.width row listed
      · exact shaped_row shaped secondInside
    · exact shaped_row shaped firstInside

end Shape

theorem zip_get {Value : Type} {combine : Value → Value → Value} {rest : Value} (outside : combine rest rest = rest) {left right : List Value}
    (same : left.length = right.length) (index : ℕ) :
    (zipWith combine left right).getD index rest = combine (left.getD index rest) (right.getD index rest) := by
  by_cases inside : index < left.length
  · have other : index < right.length := same ▸ inside
    rw [getD_eq_getElem _ _ (by simp [inside, other]), getElem_zipWith, getD_eq_getElem _ _ inside, getD_eq_getElem _ _ other]
  · have beyond := Nat.le_of_not_lt inside
    rw [getD_eq_default _ _ (by simp [beyond]), getD_eq_default _ _ beyond, getD_eq_default _ _ (same ▸ beyond), outside]

section Rows

omit [DecidableEq Scalar]

variable {height width : ℕ} {rows : List (List Scalar)}

theorem dot_indicator {line : List Scalar} (inside : row < width) (value : ∀ index < width, line.getD index 0 = if row = index then 1 else 0)
    (point : ℕ → Scalar) : dot width line point = point row := by
  rw [dot, Finset.sum_eq_single_of_mem row (Finset.mem_range.mpr inside)]
  · rw [value row inside, if_pos rfl, one_mul]
  · intro index listed other
    rw [value index (Finset.mem_range.mp listed), if_neg (Ne.symm other), zero_mul]

theorem dot_at (inside : index < width) (line : List Scalar) : dot width line (fun place => if place = index then 1 else 0) = line.getD index 0 := by
  rw [dot, Finset.sum_eq_single_of_mem index (Finset.mem_range.mpr inside)]
  · rw [if_pos rfl, mul_one]
  · intro place _ other
    rw [if_neg other, mul_zero]

theorem dot_map_mul (row : List Scalar) (factor : Scalar) (point : ℕ → Scalar) :
    dot width (row.map fun value => value * factor) point = dot width row point * factor := by
  rw [dot, dot, Finset.sum_mul]
  refine Finset.sum_congr rfl fun index _ => ?_
  have scaled : (row.map fun value => value * factor).getD index 0 = row.getD index 0 * factor := by
    have mapped : _ = row.getD index 0 * factor := getD_map row 0 fun value => value * factor
    rwa [zero_mul] at mapped
  rw [scaled]
  ring

theorem subtract_get {row pivotRow : List Scalar} (same : row.length = pivotRow.length) (factor : Scalar) (index : ℕ) :
    (subtract row pivotRow factor).getD index 0 = row.getD index 0 - factor * pivotRow.getD index 0 :=
  zip_get (by ring) same index

theorem dot_subtract {row pivotRow : List Scalar} (same : row.length = pivotRow.length) (factor : Scalar) (point : ℕ → Scalar) :
    dot width (subtract row pivotRow factor) point = dot width row point - factor * dot width pivotRow point := by
  rw [dot, dot, dot, Finset.mul_sum, ← Finset.sum_sub_distrib]
  refine Finset.sum_congr rfl fun index _ => ?_
  rw [subtract_get same]
  ring

variable (shaped : Shaped height width rows)
include shaped

theorem scaled_length (inside : column < height) : (scaledPivot rows column).length = width := by
  rw [scaledPivot, length_map, shaped_row shaped inside]

theorem swap_vanishes (firstInside : first < height) (secondInside : second < height)
    (point : ℕ → Scalar) : Vanishes height width (swapRows rows first second) point ↔ Vanishes height width rows point := by
  have rowsInside : first < rows.length ∧ second < rows.length := by rw [shaped.height]; exact ⟨firstInside, secondInside⟩
  have moved : ∀ index, (swapRows rows first second).getD index [] = _ := fun index => swap_get rowsInside.1 rowsInside.2
  have within : ∀ index < height, Equiv.swap first second index < height := by
    intro index inside
    rw [Equiv.swap_apply_def]
    split
    · exact secondInside
    · split
      · exact firstInside
      · exact inside
  constructor
  · intro swapped row rowInside
    have value := swapped _ (within row rowInside)
    rwa [moved, Equiv.swap_apply_self] at value
  · intro vanishes row rowInside
    rw [moved]
    exact vanishes _ (within row rowInside)

theorem swap_reduced (reduced : Reduced height columns rows) (below : columns ≤ first) (firstInside : first < height) (inside : columns < height) :
    Reduced height columns (swapRows rows first columns) := by
  intro row rowInside column before
  have moved : (swapRows rows first columns).getD row [] = _ := swap_get (by rwa [shaped.height]) (by rwa [shaped.height])
  rw [entry, moved, Equiv.swap_apply_def]
  split
  · rw [if_neg (by omega)]
    exact (reduced columns inside column before).trans (if_neg (by omega))
  · split
    · rw [if_neg (by omega)]
      exact (reduced first firstInside column before).trans (if_neg (by omega))
    · exact reduced row rowInside column before

end Rows

section Steps

variable {height width : ℕ} {rows : List (List Scalar)}

section

variable (shaped : Shaped height width rows)
include shaped

theorem clear_get (inside : index < height) : (clearColumn rows column).getD index [] = if index = column then scaledPivot rows column
      else if entry rows index column = 0 then rows.getD index []
      else subtract (rows.getD index []) (scaledPivot rows column) (entry rows index column) := by
  have bound : index < rows.length := shaped.height ▸ inside
  have row : rows.getD index [] = rows[index] := getD_eq_getElem _ _ bound
  rw [getD_eq_getElem _ _ (by simpa [clearColumn] using bound), entry, row]
  simp only [clearColumn, getElem_mapIdx]

variable (inside : column < height)
include inside

theorem clear_shaped : Shaped height width (clearColumn rows column) := by
  refine ⟨by rw [clearColumn, length_mapIdx, shaped.height], fun row listed => ?_⟩
  obtain ⟨index, bound, rfl⟩ := mem_iff_getElem.mp listed
  have below : index < height := by
    rw [clearColumn, length_mapIdx, shaped.height] at bound
    exact bound
  rw [← getD_eq_getElem _ [] bound, clear_get shaped below]
  split
  · exact scaled_length shaped inside
  · split
    · exact shaped_row shaped below
    · rw [subtract, length_zipWith, shaped_row shaped below, scaled_length shaped inside, Nat.min_self]

-- A row that already vanishes in the column is left out; subtracting nothing from it says the same.
theorem clear_dot (rowInside : row < height) (point : ℕ → Scalar) : dot width ((clearColumn rows column).getD row []) point =
      if row = column then dot width (rows.getD column []) point * (entry rows column column)⁻¹
      else dot width (rows.getD row []) point - entry rows row column * (dot width (rows.getD column []) point * (entry rows column column)⁻¹) := by
  rw [clear_get shaped rowInside]
  by_cases own : row = column
  · rw [if_pos own, if_pos own, scaledPivot, dot_map_mul]
  · rw [if_neg own, if_neg own]
    split
    · next zero =>
      rw [zero, zero_mul, sub_zero]
    · rw [dot_subtract (by rw [shaped_row shaped rowInside, scaled_length shaped inside]), scaledPivot, dot_map_mul]

theorem clear_entry (rowInside : row < height) (within : index < width) : entry (clearColumn rows column) row index =
      if row = column then entry rows column index * (entry rows column column)⁻¹
      else entry rows row index - entry rows row column * (entry rows column index * (entry rows column column)⁻¹) := by
  have value := clear_dot shaped inside rowInside fun place => if place = index then 1 else 0
  rwa [dot_at within, dot_at within, dot_at within] at value

theorem clear_vanishes (nonzero : entry rows column column ≠ 0)
    (point : ℕ → Scalar) : Vanishes height width (clearColumn rows column) point ↔ Vanishes height width rows point := by
  constructor
  · intro cleared
    have pivotZero : dot width (rows.getD column []) point = 0 := by
      have scaled := cleared column inside
      rw [clear_dot shaped inside inside, if_pos rfl] at scaled
      exact (mul_eq_zero.mp scaled).resolve_right (inv_ne_zero nonzero)
    intro row rowInside
    by_cases own : row = column
    · rw [own, pivotZero]
    · have lowered := cleared row rowInside
      rwa [clear_dot shaped inside rowInside, if_neg own, pivotZero, zero_mul, mul_zero, sub_zero] at lowered
  · intro vanishes row rowInside
    rw [clear_dot shaped inside rowInside, vanishes column inside, vanishes row rowInside, zero_mul, mul_zero, sub_zero, ite_self]

end

theorem pivot_found (inside : column < rows.length) (found : pivot rows column ≠ rows.length) :
    column ≤ pivot rows column ∧ pivot rows column < rows.length ∧ entry rows (pivot rows column) column ≠ 0 := by
  have length : (rows.drop column).length = rows.length - column := length_drop
  have bound : (rows.drop column).findIdx (fun row => row.getD column 0 ≠ 0) < (rows.drop column).length := by
    refine Nat.lt_of_le_of_ne findIdx_le_length fun same => found ?_
    rw [pivot, same, length]
    omega
  have below : pivot rows column < rows.length := by
    rw [pivot]
    omega
  refine ⟨Nat.le_add_right _ _, below, ?_⟩
  have nonzero := @findIdx_getElem _ _ _ bound
  rw [getElem_drop] at nonzero
  rw [entry, getD_eq_getElem _ _ below]
  exact of_decide_eq_true nonzero

theorem pivot_missing (missing : pivot rows column = rows.length)
    (notAbove : column ≤ row) (rowInside : row < rows.length) : entry rows row column = 0 := by
  have before : row - column < (rows.drop column).findIdx fun row => row.getD column 0 ≠ 0 := by
    rw [pivot] at missing
    omega
  have zero := not_of_lt_findIdx before
  rw [getElem_drop] at zero
  rw [entry, getD_eq_getElem _ _ rowInside]
  have same : column + (row - column) = row := by omega
  simpa [same] using zero

theorem clear_reduced (shaped : Shaped height width rows) (reduced : Reduced height column rows) (inside : column < height)
    (fits : height ≤ width) (nonzero : entry rows column column ≠ 0) : Reduced height (column + 1) (clearColumn rows column) := by
  intro row rowInside index below
  rw [clear_entry shaped inside rowInside (by omega)]
  by_cases earlier : index < column
  · have pivotZero : entry rows column index = 0 := (reduced column inside index earlier).trans (if_neg (by omega))
    rw [pivotZero, zero_mul, mul_zero, sub_zero]
    split
    · rw [if_neg (by omega)]
    · exact reduced row rowInside index earlier
  · obtain rfl : index = column := by omega
    rw [mul_inv_cancel₀ nonzero, mul_one, sub_self]

theorem reduce_step {next : List (List Scalar)} (shaped : Shaped height width rows) (reduced : Reduced height column rows)
    (inside : column < height) (fits : height ≤ width) (step : reduceColumn rows column = some next) :
    Shaped height width next ∧ Reduced height (column + 1) next ∧ ∀ point, Vanishes height width next point ↔ Vanishes height width rows point := by
  unfold reduceColumn at step
  split at step
  · contradiction
  · next missing =>
    cases step
    obtain ⟨above, within, nonzero⟩ := pivot_found (shaped.height.symm ▸ inside) missing
    rw [shaped.height] at within
    have swapped := swap_shaped shaped within inside
    have pivotEntry : entry (swapRows rows (pivot rows column) column) column column ≠ 0 := by
      rw [entry, swap_get (shaped.height.symm ▸ within) (shaped.height.symm ▸ inside), Equiv.swap_apply_right]
      exact nonzero
    refine ⟨clear_shaped swapped inside, clear_reduced swapped (swap_reduced shaped reduced above within inside) inside fits pivotEntry, fun point => ?_⟩
    exact (clear_vanishes swapped inside pivotEntry point).trans (swap_vanishes shaped within inside point)

def dependence (rows : List (List Scalar)) (column index : ℕ) : Scalar :=
  if index = column then 1 else if index < column then -entry rows index column else 0

-- Without a pivot the columns so far have a combination that vanishes.
theorem reduce_stuck (shaped : Shaped height width rows) (reduced : Reduced height column rows)
    (fits : column < width) (stuck : reduceColumn rows column = none) : Vanishes height width rows (dependence rows column) := by
  unfold reduceColumn at stuck
  have missing : pivot rows column = rows.length := by
    by_contra found
    rw [if_neg found] at stuck
    contradiction
  intro row rowInside
  have value : ∀ index, (rows.getD row []).getD index 0 = entry rows row index := fun index => rfl
  have later : ∀ index, index ≠ column → ¬ index < column → entry rows row index * dependence rows column index = 0 := by
    intro index other notBefore
    rw [dependence, if_neg other, if_neg notBefore, mul_zero]
  by_cases before : row < column
  · have others : ∀ index ∈ Finset.range width, index ≠ row ∧ index ≠ column →
        (rows.getD row []).getD index 0 * dependence rows column index = 0 := by
      intro index _ other
      by_cases small : index < column
      · rw [value, reduced row rowInside index small, if_neg (Ne.symm other.1), zero_mul]
      · exact later index other.2 small
    rw [dot, Finset.sum_eq_add_of_mem row column (Finset.mem_range.mpr (by omega)) (Finset.mem_range.mpr fits) (by omega) others, value,
      value, reduced row rowInside row before, dependence, dependence, if_pos rfl, if_neg (Nat.ne_of_lt before), if_pos before, if_pos rfl]
    ring
  · refine Finset.sum_eq_zero fun index _ => ?_
    rw [value]
    by_cases own : index = column
    · rw [own, pivot_missing missing (Nat.le_of_not_lt before) (shaped.height.symm ▸ rowInside), zero_mul]
    · by_cases small : index < column
      · rw [reduced row rowInside index small, if_neg (by omega), zero_mul]
      · exact later index own small

end Steps

section Augmented

omit [DecidableEq Scalar]

variable {size : ℕ} {matrix : List (List Scalar)}

theorem augment_shaped (square : Shaped size size matrix) : Shaped size (size + size) (augment matrix) := by
  refine ⟨by rw [augment, length_mapIdx, square.height], fun row listed => ?_⟩
  obtain ⟨index, bound, rfl⟩ := mem_iff_getElem.mp listed
  simp only [augment, getElem_mapIdx, length_append, unit, length_map, length_range, square.height]
  rw [square.width _ (getElem_mem _)]

theorem augment_get (square : Shaped size size matrix) (inside : row < size) :
    (augment matrix).getD row [] = matrix.getD row [] ++ unit size row := by
  have bound : row < matrix.length := square.height ▸ inside
  rw [getD_eq_getElem _ _ (by simpa [augment] using bound), getD_eq_getElem _ _ bound]
  simp only [augment, getElem_mapIdx, square.height]

theorem dot_unit (inside : row < size) (point : ℕ → Scalar) : dot size (unit size row) point = point row := by
  refine dot_indicator inside (fun index below => ?_) point
  rw [unit, getD_eq_getElem _ _ (by simpa using below)]
  simp [eq_comm]

theorem dot_append {left right : List Scalar} (length : left.length = size) (point : ℕ → Scalar) :
    dot (size + size) (left ++ right) point = dot size left point + dot size right fun index => point (size + index) := by
  rw [dot, Finset.sum_range_add, dot, dot]
  congr 1
  · refine Finset.sum_congr rfl fun index listed => ?_
    rw [getD_append _ _ _ _ (by rw [length]; exact Finset.mem_range.mp listed)]
  · refine Finset.sum_congr rfl fun index _ => ?_
    rw [getD_append_right _ _ _ _ (by omega)]
    congr 2
    omega

theorem augment_dot (square : Shaped size size matrix) (inside : row < size) (point : ℕ → Scalar) :
    dot (size + size) ((augment matrix).getD row []) point = dot size (matrix.getD row []) point + point (size + row) := by
  rw [augment_get square inside, dot_append (shaped_row square inside), dot_unit inside]

theorem reduced_dot {rows : List (List Scalar)} (shaped : Shaped size (size + size) rows) (reduced : Reduced size size rows)
    (inside : row < size) (point : ℕ → Scalar) :
    dot (size + size) (rows.getD row []) point = point row + dot size ((rows.getD row []).drop size) fun index => point (size + index) := by
  have halves : rows.getD row [] = (rows.getD row []).take size ++ (rows.getD row []).drop size := (take_append_drop _ _).symm
  have length := shaped_row shaped inside
  have identity : dot size ((rows.getD row []).take size) point = point row := by
    refine dot_indicator inside (fun index below => ?_) point
    rw [← reduced row inside index below, entry, getD_eq_getElem?_getD, getElem?_take_of_lt below, ← getD_eq_getElem?_getD]
  conv_lhs => rw [halves]
  rw [dot_append (by rw [length_take, length]; omega), identity]

end Augmented

section Inversion

variable {size : ℕ} {matrix : List (List Scalar)}

theorem reduce_all {height width : ℕ} {rows final : List (List Scalar)} (shaped : Shaped height width rows) (within : columns ≤ height)
    (fits : height ≤ width) (run : (range columns).foldlM reduceColumn rows = some final) :
    Shaped height width final ∧ Reduced height columns final ∧ ∀ point, Vanishes height width final point ↔ Vanishes height width rows point := by
  induction columns generalizing final with
  | zero =>
    cases run
    exact ⟨shaped, fun _ _ _ none => absurd none (Nat.not_lt_zero _), fun _ => Iff.rfl⟩
  | succ columns ih =>
    rw [range_succ, foldlM_append] at run
    obtain ⟨before, earlier, step⟩ := Option.bind_eq_some_iff.mp run
    rw [foldlM_cons] at step
    obtain ⟨next, taken, done⟩ := Option.bind_eq_some_iff.mp step
    rw [foldlM_nil] at done
    cases done
    obtain ⟨shapedBefore, reduced, same⟩ := ih (by omega) earlier
    obtain ⟨shapedNext, reducedNext, sameNext⟩ := reduce_step shapedBefore reduced (by omega) fits taken
    exact ⟨shapedNext, reducedNext, fun point => (sameNext point).trans (same point)⟩

theorem reduce_total {height width : ℕ} {rows : List (List Scalar)} (shaped : Shaped height width rows) (within : columns ≤ height)
    (fits : height ≤ width) (independent : ∀ point, Vanishes height width rows point → (∀ index, height ≤ index → point index = 0) →
      ∀ index, point index = 0) : ∃ final, (range columns).foldlM reduceColumn rows = some final := by
  induction columns with
  | zero => exact ⟨rows, rfl⟩
  | succ columns ih =>
    obtain ⟨before, earlier⟩ := ih (by omega)
    obtain ⟨shapedBefore, reduced, same⟩ := reduce_all shaped (by omega) fits earlier
    cases step : reduceColumn before columns with
    | none =>
      have vanishes := (same _).mp (reduce_stuck shapedBefore reduced (by omega) step)
      have zero := independent _ vanishes (fun index beyond => by rw [dependence, if_neg (by omega), if_neg (by omega)]) columns
      rw [dependence, if_pos rfl] at zero
      exact absurd zero one_ne_zero
    | some next =>
      refine ⟨next, ?_⟩
      rw [range_succ, foldlM_append, earlier]
      simp [step]

theorem invert_correct (square : Shaped size size matrix) {inverse : List (List Scalar)} (inverted : invert matrix = some inverse) :
    Shaped size size inverse ∧ ∀ (point : ℕ → Scalar), ∀ row < size,
      dot size (inverse.getD row []) (fun index => dot size (matrix.getD index []) point) = point row := by
  obtain ⟨final, run, rfl⟩ := Option.map_eq_some_iff.mp inverted
  rw [square.height] at run ⊢
  obtain ⟨shaped, reduced, same⟩ := reduce_all (augment_shaped square) (Nat.le_refl _) (Nat.le_add_right _ _) run
  constructor
  · refine ⟨by rw [length_map, shaped.height], fun row listed => ?_⟩
    obtain ⟨whole, inside, rfl⟩ := mem_map.mp listed
    rw [length_drop, shaped.width whole inside]
    omega
  · intro point row inside
    let image := fun index => dot size (matrix.getD index []) point
    let extended := fun index => if index < size then point index else -image (index - size)
    have agree : ∀ line : List Scalar, dot size line extended = dot size line point := by
      intro line
      refine Finset.sum_congr rfl fun index listed => ?_
      simp only [extended, if_pos (Finset.mem_range.mp listed)]
    have shifted : ∀ index, extended (size + index) = -image index := by
      intro index
      simp only [extended, if_neg (Nat.not_lt.mpr (Nat.le_add_right size index)), Nat.add_sub_cancel_left]
    have vanishes : Vanishes size (size + size) (augment matrix) extended := by
      intro index below
      rw [augment_dot square below, agree, shifted]
      exact add_neg_cancel _
    have value := (same extended).mpr vanishes row inside
    have negated : (dot size ((final.getD row []).drop size) fun index => extended (size + index)) =
        -dot size ((final.getD row []).drop size) image := by
      rw [dot, dot, ← Finset.sum_neg_distrib]
      refine Finset.sum_congr rfl fun index _ => ?_
      rw [shifted]
      ring
    have bound : row < final.length := shaped.height.symm ▸ inside
    have mapped : (final.map (drop size)).getD row [] = (final.getD row []).drop size := by
      rw [getD_eq_getElem _ _ (by simpa using bound), getElem_map, getD_eq_getElem _ _ bound]
    rw [reduced_dot shaped reduced inside, negated, ← sub_eq_add_neg, sub_eq_zero] at value
    rw [mapped]
    exact value.symm.trans (if_pos inside)

theorem invert_total (square : Shaped size size matrix)
    (independent : ∀ point : ℕ → Scalar, (∀ row < size, dot size (matrix.getD row []) point = 0) → ∀ index < size, point index = 0) :
    ∃ inverse, invert matrix = some inverse := by
  obtain ⟨final, run⟩ := reduce_total (augment_shaped square) (Nat.le_refl size) (Nat.le_add_right _ _) (by
    intro point vanishes beyond index
    by_cases below : index < size
    · refine independent point (fun row inside => ?_) index below
      have value := vanishes row inside
      rwa [augment_dot square inside, beyond _ (Nat.le_add_right _ _), add_zero] at value
    · exact beyond index (Nat.le_of_not_lt below))
  refine ⟨final.map (drop size), ?_⟩
  rw [invert, square.height, run, Option.map_some]

end Inversion

end GaussJordan
