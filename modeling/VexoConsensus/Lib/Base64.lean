import VexoConsensus.Lib.ByteCodec

namespace Base64

open ByteCodec

variable (byte : UInt8)

def value : Option Nat :=
  if 65 ≤ byte ∧ byte ≤ 90 then some (byte.toNat - 65)
  else if 97 ≤ byte ∧ byte ≤ 122 then some (byte.toNat - 71)
  else if 48 ≤ byte ∧ byte ≤ 57 then some (byte.toNat + 4)
  else if byte = 43 then some 62
  else if byte = 47 then some 63
  else none

def first (a b : Nat) : UInt8 := UInt8.ofNat (4 * a + b / 16)
def second (b c : Nat) : UInt8 := UInt8.ofNat (16 * b + c / 4)
def third (c d : Nat) : UInt8 := UInt8.ofNat (64 * c + d)

-- The last quantum of a padded text ends in one or two equal signs; bits left over in it are not looked at.
def quanta (padded : Bool) : Bytes → Option Bytes
  | [] => some []
  | [a, b] => if padded then none else return [first (← value a) (← value b)]
  | [a, b, c] => if padded then none else return [first (← value a) (← value b), second (← value b) (← value c)]
  | [a, b, 61, 61] => if padded then return [first (← value a) (← value b)] else none
  | [a, b, c, 61] => if padded then return [first (← value a) (← value b), second (← value b) (← value c)] else none
  | a :: b :: c :: d :: rest => do
      let bytes ← quanta padded rest
      return first (← value a) (← value b) :: second (← value b) (← value c) :: third (← value c) (← value d) :: bytes
  | _ => none

variable (text : Bytes)

def unwrapped : Bytes := text.filter fun byte => byte ≠ 10 ∧ byte ≠ 13

-- base64.StdEncoding.DecodeString; line ends are passed over.
def decodeStd : Option Bytes := quanta true (unwrapped text)

-- base64.RawStdEncoding.DecodeString.
def decodeRaw : Option Bytes := quanta false (unwrapped text)

def digit (sextet : Nat) : UInt8 :=
  UInt8.ofNat (if sextet < 26 then sextet + 65 else if sextet < 52 then sextet + 71 else if sextet < 62 then sextet - 4
    else if sextet = 62 then 43 else 47)

-- base64.StdEncoding.EncodeToString.
def encodeStd : Bytes → Bytes
  | [] => []
  | [a] => [digit (a.toNat / 4), digit (a.toNat % 4 * 16), 61, 61]
  | [a, b] => [digit (a.toNat / 4), digit (a.toNat % 4 * 16 + b.toNat / 16), digit (b.toNat % 16 * 4), 61]
  | a :: b :: c :: rest =>
    digit (a.toNat / 4) :: digit (a.toNat % 4 * 16 + b.toNat / 16) :: digit (b.toNat % 16 * 4 + c.toNat / 64) :: digit (c.toNat % 64) ::
      encodeStd rest

variable (bytes : Bytes)

-- RawStdEncoding: the same digits with no padding.
def encodeRaw : Bytes := (encodeStd bytes).filter (· ≠ 61)

def IsCharacter : Prop := (value byte).isSome ∨ byte = 61

theorem quanta_characters (padded : Bool) (text : Bytes) : ∀ bytes, quanta padded text = some bytes → ∀ byte ∈ text, IsCharacter byte := by
  fun_induction quanta padded text with
  | case1 | case2 | case4 | case7 | case9 | case11 => simp
  | case3 | case5 | case6 | case8 =>
    intro bytes decoded
    simp only [bind, Option.bind_eq_some_iff] at decoded
    grind [IsCharacter]
  | case10 a b c d rest _ _ ih =>
    intro bytes decoded
    simp only [bind, Option.bind_eq_some_iff] at decoded
    obtain ⟨tail, decodedTail, decoded⟩ := decoded
    have inside := ih tail decodedTail
    grind [IsCharacter]

theorem decode_std_characters {text bytes : Bytes} (decoded : decodeStd text = some bytes) {byte : UInt8} (member : byte ∈ text) :
    IsCharacter byte ∨ byte = 10 ∨ byte = 13 := by
  by_cases ends : byte ≠ 10 ∧ byte ≠ 13
  · have kept : byte ∈ unwrapped text := List.mem_filter.mpr ⟨member, by simpa using ends⟩
    exact .inl (quanta_characters true _ bytes decoded byte kept)
  · right
    tauto

theorem value_digit : ∀ sextet < 64, value (digit sextet) = some sextet := by decide

theorem digit_plain : ∀ sextet < 64, digit sextet ≠ 61 := by decide

theorem character_plain (known : (value byte).isSome) : byte ≠ 10 ∧ byte ≠ 13 ∧ byte < 128 := by
  refine ⟨?_, ?_, ?_⟩
  · rintro rfl
    contradiction
  · rintro rfl
    contradiction
  · unfold value at known
    grind

theorem join_first (a b : UInt8) : first (a.toNat / 4) (a.toNat % 4 * 16 + b.toNat / 16) = a := by
  have := a.toNat_lt
  have := b.toNat_lt
  apply UInt8.toNat_inj.mp
  rw [first, UInt8.toNat_ofNat']
  omega

theorem join_second (a b c : UInt8) : second (a.toNat % 4 * 16 + b.toNat / 16) (b.toNat % 16 * 4 + c.toNat / 64) = b := by
  have := a.toNat_lt
  have := b.toNat_lt
  have := c.toNat_lt
  apply UInt8.toNat_inj.mp
  rw [second, UInt8.toNat_ofNat']
  omega

theorem join_third (b c : UInt8) : third (b.toNat % 16 * 4 + c.toNat / 64) (c.toNat % 64) = c := by
  have := b.toNat_lt
  have := c.toNat_lt
  apply UInt8.toNat_inj.mp
  rw [third, UInt8.toNat_ofNat']
  omega

theorem quanta_encode : quanta true (encodeStd bytes) = some bytes := by
  have low : ∀ byte : UInt8, byte.toNat / 4 < 64 ∧ byte.toNat % 4 * 16 < 64 ∧ byte.toNat % 16 * 4 < 64 ∧ byte.toNat % 64 < 64 := by
    intro byte
    have := byte.toNat_lt
    omega
  have joined : ∀ byte next : UInt8, byte.toNat % 4 * 16 + next.toNat / 16 < 64 ∧ byte.toNat % 16 * 4 + next.toNat / 64 < 64 := by
    intro byte next
    have := next.toNat_lt
    omega
  fun_induction encodeStd bytes with
  | case1 => rfl
  | case2 a =>
    have same := join_first a 0
    simp only [UInt8.toNat_zero, Nat.zero_div, Nat.add_zero] at same
    simp [quanta, value_digit _ (low a).1, value_digit _ (low a).2.1, same]
  | case3 a b =>
    have firstSame := join_first a b
    have secondSame := join_second a b 0
    simp only [UInt8.toNat_zero, Nat.zero_div, Nat.add_zero] at secondSame
    have other := digit_plain _ (low b).2.2.1
    simp [quanta, value_digit _ (low a).1, value_digit _ (joined a b).1, value_digit _ (low b).2.2.1, firstSame, secondSame]
  | case4 a b c rest ih =>
    have other := digit_plain _ (low c).2.2.2
    rw [quanta.eq_def]
    simp [value_digit _ (low a).1, value_digit _ (joined a b).1, value_digit _ (joined b c).2, value_digit _ (low c).2.2.2, ih,
      join_first, join_second, join_third, other]
theorem encode_characters : ∀ byte ∈ encodeStd bytes, byte ≠ 10 ∧ byte ≠ 13 ∧ byte < 128 := by
  intro byte member
  rcases quanta_characters true _ _ (quanta_encode bytes) byte member with known | rfl
  · exact character_plain byte known
  · decide

theorem decode_encode_std : decodeStd (encodeStd bytes) = some bytes := by
  have whole : unwrapped (encodeStd bytes) = encodeStd bytes := by
    refine List.filter_eq_self.mpr fun byte member => ?_
    obtain ⟨notFeed, notReturn, -⟩ := encode_characters bytes byte member
    exact decide_eq_true ⟨notFeed, notReturn⟩
  rw [decodeStd, whole, quanta_encode]

example : encodeStd (utf8 "bank:send") = utf8 "YmFuazpzZW5k" ∧ decodeStd (utf8 "YmFuazpzZW5k") = some (utf8 "bank:send") := by
  with_unfolding_all decide

example : decodeStd (utf8 "YmE=") = some (utf8 "ba") ∧ decodeStd (utf8 "YmE") = none ∧ decodeRaw (utf8 "YmE") = some (utf8 "ba") := by
  with_unfolding_all decide

end Base64
