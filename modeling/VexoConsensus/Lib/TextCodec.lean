import Mathlib.Data.List.DropRight
import Mathlib.Data.Nat.Digits.Lemmas
import VexoConsensus.Lib.ByteCodec

namespace Hex

open ByteCodec

def digit (value : Nat) : UInt8 := UInt8.ofNat (if value < 10 then 48 + value else 87 + value)

def value (byte : UInt8) : Option Nat :=
  if 48 ≤ byte ∧ byte ≤ 57 then some (byte.toNat - 48)
  else if 97 ≤ byte ∧ byte ≤ 102 then some (byte.toNat - 87)
  else if 65 ≤ byte ∧ byte ≤ 70 then some (byte.toNat - 55)
  else none

variable (bytes : Bytes)

def encode : Bytes := bytes.flatMap fun byte => [digit (byte.toNat / 16), digit (byte.toNat % 16)]

def decode : Bytes → Option Bytes
  | [] => some []
  | [_] => none
  | high :: low :: rest => do
      let upper ← value high
      let lower ← value low
      let bytes ← decode rest
      return UInt8.ofNat (16 * upper + lower) :: bytes

theorem value_digit : ∀ number < 16, value (digit number) = some number := by decide

theorem digit_plain : ∀ number < 16, digit number ≠ 34 ∧ digit number ≠ 92 ∧ 32 ≤ digit number := by decide

theorem digit_small : ∀ number < 16, digit number < 128 := by decide

theorem decode_encode : decode (encode bytes) = some bytes := by
  induction bytes with
  | nil => rfl
  | cons byte rest ih =>
    have bound := byte.toNat_lt
    have whole : 16 * (byte.toNat / 16) + byte.toNat % 16 = byte.toNat := Nat.div_add_mod _ _
    change decode (digit (byte.toNat / 16) :: digit (byte.toNat % 16) :: encode rest) = _
    rw [decode, value_digit _ (by omega), value_digit _ (by omega), ih]
    simp only [Option.bind_eq_bind, Option.bind_some, whole, UInt8.ofNat_toNat, Option.pure_def]

theorem encode_injective {left right : Bytes} (same : encode left = encode right) : left = right :=
  Option.some.inj (by rw [← decode_encode left, same, decode_encode])

@[simp] theorem encode_length : (encode bytes).length = 2 * bytes.length := by
  simp [encode, List.length_flatMap, Nat.mul_comm]

theorem encode_small {bytes : Bytes} {byte : UInt8} (member : byte ∈ encode bytes) : byte < 128 := by
  obtain ⟨source, -, digits⟩ := List.mem_flatMap.mp member
  have bound := source.toNat_lt
  rcases List.mem_pair.mp digits with rfl | rfl <;> exact digit_small _ (by omega)

end Hex

namespace Decimal

open ByteCodec List

def isDigit (byte : UInt8) : Bool := 48 ≤ byte ∧ byte ≤ 57

def digit (value : Nat) : UInt8 := UInt8.ofNat (48 + value)

variable (number : Nat)

def format : Bytes := if number = 0 then [48] else (Nat.digits 10 number).reverse.map digit

def value (text : Bytes) : Nat := text.foldl (fun number byte => 10 * number + (byte.toNat - 48)) 0

theorem digit_to_nat {number : Nat} (small : number < 10) : (digit number).toNat = 48 + number := by
  rw [digit, UInt8.toNat_ofNat']
  omega

theorem is_digit {number : Nat} (small : number < 10) : isDigit (digit number) = true := by
  simp only [isDigit, UInt8.le_iff_toNat_le, digit_to_nat small, UInt8.reduceToNat, decide_eq_true_eq]
  omega

theorem format_digits {byte : UInt8} (member : byte ∈ format number) : isDigit byte = true := by
  unfold format at member
  split at member
  · rw [mem_singleton.mp member]
    rfl
  · obtain ⟨value, listed, rfl⟩ := mem_map.mp member
    exact is_digit (Nat.digits_lt_base (by omega) (mem_reverse.mp listed))

theorem value_format : value (format number) = number := by
  unfold format
  split
  · rename_i zero
    rw [zero]
    rfl
  · calc value ((Nat.digits 10 number).reverse.map digit)
        = (Nat.digits 10 number).foldr (fun digit total => digit + 10 * total) 0 := by
          rw [value, foldl_map, foldl_reverse]
          apply foldr_ext
          intro digit listed total
          rw [digit_to_nat (Nat.digits_lt_base (by omega) listed)]
          omega
      _ = number := by
          have digits := Nat.ofDigits_eq_foldr 10 (Nat.digits 10 number)
          rw [Nat.ofDigits_digits] at digits
          exact digits.symm

theorem format_head {number : Nat} (positive : number ≠ 0) : ∃ first rest, format number = first :: rest ∧ first ≠ 48 := by
  have listed : Nat.digits 10 number ≠ [] := Nat.digits_ne_nil_iff_ne_zero.mpr positive
  have leading := Nat.getLast_digit_ne_zero 10 positive
  have small := Nat.digits_lt_base (by omega : 1 < 10) (getLast_mem listed)
  rw [format, if_neg positive, ← dropLast_append_getLast listed, reverse_append, reverse_singleton, singleton_append, map_cons]
  refine ⟨_, _, rfl, ?_⟩
  intro same
  have equal := digit_to_nat small
  rw [same] at equal
  simp only [UInt8.reduceToNat] at equal
  omega

end Decimal

namespace Utf8

open ByteCodec List

variable (bytes : Bytes)

def decodeRune : Option Char := (bytes.take 4).toByteArray.utf8DecodeChar? 0

-- A byte at which no rune starts is passed over alone.
def runes : Nat → Bytes → List (Option Char)
  | 0, _ => []
  | _ + 1, [] => []
  | fuel + 1, byte :: rest =>
    match decodeRune (byte :: rest) with
    | some rune => some rune :: runes fuel ((byte :: rest).drop rune.utf8Size)
    | none => none :: runes fuel rest

variable (text : List Char)

def encode : Bytes := text.flatMap String.utf8EncodeChar

def replacement : Char := '\uFFFD'

def toValid : Bytes := encode ((runes bytes.length bytes).map (·.getD replacement))

def Valid : Prop := ∃ text, bytes = encode text

theorem decode_rune_encoded (rune : Char) (rest : Bytes) : decodeRune (String.utf8EncodeChar rune ++ rest) = some rune := by
  have size := String.length_utf8EncodeChar rune
  have small := rune.utf8Size_le_four
  rw [decodeRune, take_append, take_of_length_le (by omega), toByteArray_append]
  exact ByteArray.utf8DecodeChar?_utf8EncodeChar_append

theorem runes_encode (fuel : Nat) (enough : (encode text).length ≤ fuel) : runes fuel (encode text) = text.map some := by
  induction text generalizing fuel with
  | nil => cases fuel <;> rfl
  | cons rune rest ih =>
    have whole : encode (rune :: rest) = String.utf8EncodeChar rune ++ encode rest := rfl
    have size := String.length_utf8EncodeChar rune
    have positive := rune.utf8Size_pos
    rw [whole, length_append, size] at enough
    have decoded := decode_rune_encoded rune (encode rest)
    have dropped : (String.utf8EncodeChar rune ++ encode rest).drop rune.utf8Size = encode rest := by
      rw [← size]
      exact drop_left
    rw [whole, map_cons]
    cases fuel with
    | zero => omega
    | succ fuel =>
      cases bytes : String.utf8EncodeChar rune ++ encode rest with
      | nil => exact absurd (append_eq_nil_iff.mp bytes).1 (String.utf8EncodeChar_ne_nil)
      | cons first tail =>
        rw [bytes] at decoded dropped
        rw [runes, decoded]
        simp only [dropped]
        rw [ih fuel (by omega)]

theorem to_valid_encode : toValid (encode text) = encode text := by
  rw [toValid, runes_encode text _ (Nat.le_refl _), map_map]
  congr 1
  exact map_id text

theorem to_valid_twice : toValid (toValid bytes) = toValid bytes := to_valid_encode _

theorem encode_small {byte : UInt8} (small : byte < 128) : String.utf8EncodeChar (Char.ofNat byte.toNat) = [byte] := by
  have below : byte.toNat < 128 := UInt8.lt_iff_toNat_lt.mp small
  have same : (Char.ofNat byte.toNat).val.toNat = byte.toNat := by
    rw [Char.ofNat, dif_pos (.inl (by omega))]
    rfl
  rw [String.utf8EncodeChar]
  simp only [same, show byte.toNat ≤ 127 from by omega, if_true, UInt8.ofNat_toNat]

theorem valid_small {bytes : Bytes} (small : ∀ byte ∈ bytes, byte < 128) : Valid bytes := by
  refine ⟨bytes.map fun byte => Char.ofNat byte.toNat, ?_⟩
  rw [encode, flatMap_map]
  calc bytes = bytes.flatMap fun byte => [byte] := (flatMap_singleton' bytes).symm
    _ = bytes.flatMap fun byte => String.utf8EncodeChar (Char.ofNat byte.toNat) := by
        rw [flatMap_congr]
        exact fun byte member => (encode_small (small byte member)).symm

theorem valid_ascii {bytes : Bytes} (ascii : (bytes.all fun byte => byte < 128) = true) : Valid bytes :=
  valid_small fun byte listed => of_decide_eq_true (all_eq_true.mp ascii byte listed)

theorem encoded_large {rune : Char} (large : 127 < rune.val.toNat) {byte : UInt8} (member : byte ∈ String.utf8EncodeChar rune) : 128 ≤ byte := by
  have ofNat : ∀ number, 128 ≤ number → number < 256 → (128 : UInt8) ≤ UInt8.ofNat number := by
    intro number low high
    rw [UInt8.le_iff_toNat_le, UInt8.toNat_ofNat']
    simp only [UInt8.reduceToNat]
    omega
  unfold String.utf8EncodeChar at member
  simp only [Nat.not_le.mpr large, if_false] at member
  split at member
  · rcases mem_pair.mp member with rfl | rfl <;> exact ofNat _ (by omega) (by omega)
  · split at member
    · simp only [mem_cons, not_mem_nil, or_false] at member
      rcases member with rfl | rfl | rfl <;> exact ofNat _ (by omega) (by omega)
    · simp only [mem_cons, not_mem_nil, or_false] at member
      rcases member with rfl | rfl | rfl | rfl <;> exact ofNat _ (by omega) (by omega)

end Utf8

namespace Rfc3339

open ByteCodec List

def daysIn (year month : Nat) : Nat :=
  if month = 2 then if year % 4 = 0 ∧ (year % 100 ≠ 0 ∨ year % 400 = 0) then 29 else 28
  else if month = 4 ∨ month = 6 ∨ month = 9 ∨ month = 11 then 30
  else 31

-- A moment in UTC, up to the last year the format can write.
structure Utc where
  (year month day hour minute second nanosecond : Nat)
  fourDigits : year ≤ 9999
  ofYear : 1 ≤ month ∧ month ≤ 12
  ofMonth : 1 ≤ day ∧ day ≤ daysIn year month
  ofDay : hour ≤ 23 ∧ minute ≤ 59 ∧ second ≤ 59
  ofSecond : nanosecond < 10 ^ 9

def padded : Nat → Nat → Bytes
  | 0, _ => []
  | width + 1, number => padded width (number / 10) ++ [Decimal.digit (number % 10)]

variable (time : Utc)

def Utc.fraction : Bytes :=
  if time.nanosecond = 0 then [] else 46 :: (padded 9 time.nanosecond).rdropWhile (· = 48)

def Utc.format : Bytes :=
  padded 4 time.year ++ 45 :: padded 2 time.month ++ 45 :: padded 2 time.day ++ 84 :: padded 2 time.hour ++ 58 :: padded 2 time.minute ++
    58 :: padded 2 time.second ++ (time.fraction ++ [90])

def afterFraction : Bytes → Bytes
  | 46 :: digit :: rest => if Decimal.isDigit digit then rest.dropWhile Decimal.isDigit else 46 :: digit :: rest
  | text => text

def number (text : Bytes) (low high : Nat) : Bool :=
  text.all Decimal.isDigit ∧ low ≤ Decimal.value text ∧ Decimal.value text ≤ high

def isZone : Bytes → Bool
  | [zone] => zone = 90
  | [sign, h, h', colon, m, m'] => (sign = 43 ∨ sign = 45) ∧ number [h, h'] 0 23 ∧ colon = 58 ∧ number [m, m'] 0 59
  | _ => false

def accepts : Bytes → Bool
  | y :: y' :: y'' :: y''' :: dash :: m :: m' :: dash' :: d :: d' :: letter :: h :: h' :: colon :: n :: n' :: colon' :: s :: s' :: rest =>
    number [y, y', y'', y'''] 0 9999 ∧ dash = 45 ∧ number [m, m'] 1 12 ∧ dash' = 45 ∧
      number [d, d'] 1 (daysIn (Decimal.value [y, y', y'', y''']) (Decimal.value [m, m'])) ∧ letter = 84 ∧
      number [h, h'] 0 23 ∧ colon = 58 ∧ number [n, n'] 0 59 ∧ colon' = 58 ∧ number [s, s'] 0 59 ∧ isZone (afterFraction rest)
  | _ => false

theorem padded_digits (width value : Nat) {byte : UInt8} (member : byte ∈ padded width value) : Decimal.isDigit byte = true := by
  induction width generalizing value with
  | zero => contradiction
  | succ width ih =>
    rcases mem_append.mp member with earlier | last
    · exact ih _ earlier
    · rw [mem_singleton.mp last]
      exact Decimal.is_digit (Nat.mod_lt _ (by omega))

theorem value_padded (width value : Nat) (small : value < 10 ^ width) : Decimal.value (padded width value) = value := by
  induction width generalizing value with
  | zero => exact (Nat.lt_one_iff.mp small).symm
  | succ width ih =>
    have earlier := ih (value / 10) (Nat.div_lt_of_lt_mul (by rwa [Nat.pow_succ'] at small))
    have last := @Decimal.digit_to_nat (value % 10) (Nat.mod_lt _ (by omega))
    rw [Decimal.value] at earlier ⊢
    rw [padded, foldl_append, earlier, foldl_cons, foldl_nil, last]
    omega

theorem value_zeros {text : Bytes} (zeros : ∀ byte ∈ text, byte = 48) : Decimal.value text = 0 := by
  induction text with
  | nil => rfl
  | cons byte rest ih =>
    rw [zeros byte mem_cons_self]
    exact ih (forall_mem_cons.mp zeros).2

theorem number_padded {width value low high : Nat} (small : high < 10 ^ width) (range : low ≤ value ∧ value ≤ high) :
    number (padded width value) low high = true := by
  rw [number, decide_eq_true_eq, value_padded width value (by omega), all_eq_true]
  exact ⟨fun _ member => padded_digits width value member, range⟩

theorem after_fraction : afterFraction (time.fraction ++ [90]) = [90] := by
  unfold Utc.fraction
  split
  · rfl
  · rename_i positive
    have digits : ∀ byte ∈ (padded 9 time.nanosecond).rdropWhile (· = 48), Decimal.isDigit byte = true := fun byte member =>
      padded_digits 9 _ (( rdropWhile_prefix _ _).subset member)
    have nonempty : (padded 9 time.nanosecond).rdropWhile (· = 48) ≠ [] := by
      intro empty
      have zeros := rdropWhile_eq_nil_iff.mp empty
      refine positive ?_
      rw [← value_padded 9 time.nanosecond time.ofSecond]
      exact value_zeros fun byte member => by simpa using zeros byte member
    obtain ⟨first, rest, shape⟩ := exists_cons_of_ne_nil nonempty
    rw [shape] at digits ⊢
    have head := digits first mem_cons_self
    have tail : ∀ byte ∈ rest, Decimal.isDigit byte = true := (forall_mem_cons.mp digits).2
    rw [cons_append, cons_append, afterFraction, if_pos head, dropWhile_append_of_pos tail]
    rfl

theorem accepts_format : accepts time.format = true := by
  have years := value_padded 4 time.year (by have := time.fourDigits; omega)
  have months := value_padded 2 time.month (by have := time.ofYear; omega)
  have inMonth : daysIn time.year time.month ≤ 31 := by
    unfold daysIn
    split <;> split <;> omega
  obtain ⟨hour, minute, second⟩ := time.ofDay
  have read : number (padded 4 time.year) 0 9999 = true ∧ (45 : UInt8) = 45 ∧ number (padded 2 time.month) 1 12 = true ∧
      (45 : UInt8) = 45 ∧ number (padded 2 time.day) 1 (daysIn (Decimal.value (padded 4 time.year))
        (Decimal.value (padded 2 time.month))) = true ∧ (84 : UInt8) = 84 ∧ number (padded 2 time.hour) 0 23 = true ∧
      (58 : UInt8) = 58 ∧ number (padded 2 time.minute) 0 59 = true ∧ (58 : UInt8) = 58 ∧ number (padded 2 time.second) 0 59 = true ∧
      isZone (afterFraction (time.fraction ++ [90])) = true := by
    rw [years, months, after_fraction]
    exact ⟨number_padded (by omega) ⟨Nat.zero_le _, time.fourDigits⟩, rfl, number_padded (by omega) time.ofYear, rfl,
      number_padded (by omega) time.ofMonth, rfl, number_padded (by omega) ⟨Nat.zero_le _, hour⟩, rfl,
      number_padded (by omega) ⟨Nat.zero_le _, minute⟩, rfl, number_padded (by omega) ⟨Nat.zero_le _, second⟩, rfl⟩
  exact decide_eq_true read

theorem format_plain {byte : UInt8} (member : byte ∈ time.format) : byte ≠ 34 ∧ byte ≠ 92 ∧ 32 ≤ byte := by
  have digit : Decimal.isDigit byte = true → byte ≠ 34 ∧ byte ≠ 92 ∧ 32 ≤ byte := by
    intro isDigit
    simp only [Decimal.isDigit, decide_eq_true_eq] at isDigit
    refine ⟨?_, ?_, UInt8.le_trans (by decide) isDigit.1⟩ <;> (rintro rfl; revert isDigit; decide)
  have sign : byte = 45 ∨ byte = 84 ∨ byte = 58 ∨ byte = 46 ∨ byte = 90 → byte ≠ 34 ∧ byte ≠ 92 ∧ 32 ≤ byte := by
    rintro (rfl | rfl | rfl | rfl | rfl) <;> decide
  simp only [Utc.format, mem_append, mem_cons, not_mem_nil, or_false] at member
  rcases member with (((((year | dash | month) | dash | day) | letter | hour) | colon | minute) | colon | second) | fraction | zone
  · exact digit (padded_digits _ _ year)
  · exact sign (.inl dash)
  · exact digit (padded_digits _ _ month)
  · exact sign (.inl dash)
  · exact digit (padded_digits _ _ day)
  · exact sign (.inr (.inl letter))
  · exact digit (padded_digits _ _ hour)
  · exact sign (by simp [colon])
  · exact digit (padded_digits _ _ minute)
  · exact sign (by simp [colon])
  · exact digit (padded_digits _ _ second)
  · unfold Utc.fraction at fraction
    split at fraction
    · contradiction
    · rcases mem_cons.mp fraction with point | kept
      · exact sign (by simp [point])
      · exact digit (padded_digits 9 _ (( rdropWhile_prefix _ _).subset kept))
  · exact sign (by simp [zone])

@[simp] theorem padded_length (width value : Nat) : (padded width value).length = width := by
  induction width generalizing value with
  | zero => rfl
  | succ width ih => rw [padded, length_append, ih, length_singleton]

theorem format_length : time.format.length ≤ 30 := by
  have fraction : time.fraction.length ≤ 10 := by
    unfold Utc.fraction
    split
    · simp
    · have kept := ( rdropWhile_prefix (· = 48) (padded 9 time.nanosecond)).length_le
      rw [padded_length] at kept
      exact Nat.succ_le_succ kept
  simp only [Utc.format, length_append, length_cons, padded_length, length_nil]
  omega

end Rfc3339
