import Mathlib.Data.Nat.Digits.Lemmas
import VexoConsensus.Lib.ByteCodec

namespace BigEndian

open ByteCodec List

def value (bytes : Bytes) : Nat := bytes.foldl (fun number byte => 256 * number + byte.toNat) 0

-- The shortest big-endian form; zero has no bytes.
def minimal (number : Nat) : Bytes := (Nat.digits 256 number).reverse.map UInt8.ofNat

theorem value_minimal (number : Nat) : value (minimal number) = number := by
  calc value ((Nat.digits 256 number).reverse.map UInt8.ofNat)
      = (Nat.digits 256 number).foldr (fun digit total => digit + 256 * total) 0 := by
        rw [value, foldl_map, foldl_reverse]
        apply foldr_ext
        intro digit listed total
        have small := Nat.digits_lt_base (by omega) listed
        rw [UInt8.toNat_ofNat']
        omega
    _ = number := by
        have digits := Nat.ofDigits_eq_foldr 256 (Nat.digits 256 number)
        rw [Nat.ofDigits_digits] at digits
        exact digits.symm

theorem value_lt (bytes : Bytes) : value bytes < 256 ^ bytes.length := by
  induction bytes using reverseRecOn with
  | nil => decide
  | append_singleton earlier byte ih =>
    have small := byte.toNat_lt
    have step : value (earlier ++ [byte]) = 256 * value earlier + byte.toNat := by simp [value, foldl_append]
    rw [step, length_append, length_singleton, Nat.pow_succ]
    omega

theorem minimal_length_le {number size : Nat} (small : number < 256 ^ size) : (minimal number).length ≤ size := by
  rw [minimal, length_map, length_reverse]
  exact (Nat.digits_length_le_iff (by omega) number).mpr small

theorem value_put_uint64 (number : UInt64) : value (putUint64 number) = number.toNat := by
  have bound := number.toNat_lt
  simp only [value, putUint64, map_cons, map_nil, foldl_cons, foldl_nil, UInt8.toNat_ofNat', Nat.shiftRight_eq_div_pow]
  omega

theorem value_injective {left right : Bytes} (length : left.length = right.length) (same : value left = value right) : left = right := by
  induction left using reverseRecOn generalizing right with
  | nil => exact (eq_nil_of_length_eq_zero length.symm).symm
  | append_singleton earlier byte ih =>
    rcases eq_nil_or_concat right with rfl | ⟨others, last, rfl⟩
    · simp at length
    · have step : ∀ (bytes : Bytes) (final : UInt8), value (bytes ++ [final]) = 256 * value bytes + final.toNat := by
        intro bytes final
        simp [value, foldl_append]
      rw [concat_eq_append] at length same ⊢
      rw [step, step] at same
      have small := byte.toNat_lt
      have small' := last.toNat_lt
      rw [ih (by simpa using length) (by omega), UInt8.toNat_inj.mp (show byte.toNat = last.toNat by omega)]

theorem put_uint64_value {bytes : Bytes} (length : bytes.length = 8) : putUint64 (UInt64.ofNat (value bytes)) = bytes := by
  have small := value_lt bytes
  rw [length] at small
  refine value_injective (by rw [put_uint64_length, length]) ?_
  rw [value_put_uint64, UInt64.toNat_ofNat']
  omega

end BigEndian
