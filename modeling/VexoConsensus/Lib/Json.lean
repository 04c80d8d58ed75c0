import VexoConsensus.Lib.TextCodec

namespace Json

open ByteCodec List Decimal

-- Strings and numbers keep their source text, strings without the quotes.
inductive Value where
  | null
  | bool (value : Bool)
  | number (text : Bytes)
  | string (raw : Bytes)
  | array (items : List Value)
  | object (members : List (Bytes × Value))

abbrev Scan (Result : Type) := Bytes → Option (Result × Bytes)

variable (input : Bytes)

def skipSpace : Bytes := input.dropWhile fun byte => byte = 32 ∨ byte = 9 ∨ byte = 10 ∨ byte = 13

-- The letter of a short escape and the byte it stands for.
def shortEscapes : List (UInt8 × UInt8) := [(34, 34), (92, 92), (47, 47), (98, 8), (102, 12), (110, 10), (114, 13), (116, 9)]

def fourHex : Bool := (input.take 4).length = 4 ∧ (input.take 4).all fun byte => (Hex.value byte).isSome

variable (byte : UInt8)

def keep : Bytes × Bytes → Bytes × Bytes := Prod.map (byte :: ·) id

-- After the opening quote: the text up to the closing one.
def scanString : Scan Bytes
  | [] => none
  | byte :: rest =>
    if byte = 34 then some ([], rest)
    else if byte = 92 then
      match rest with
      | [] => none
      | escape :: tail =>
        if (escape = 117 ∧ fourHex tail) ∨ (shortEscapes.lookup escape).isSome then
          (scanString tail).map fun scanned => keep 92 (keep escape scanned)
        else none
    else if byte < 32 then none
    else (scanString rest).map (keep byte)

variable (unit : Nat)

def isHighSurrogate : Bool := 0xD800 ≤ unit ∧ unit < 0xDC00
def isLowSurrogate : Bool := 0xDC00 ≤ unit ∧ unit < 0xE000

def appendRune (rune : Nat) : Bytes :=
  if rune.isValidChar then String.utf8EncodeChar (Char.ofNat rune) else String.utf8EncodeChar Utf8.replacement

def codeUnit (text : Bytes) : Nat := text.foldl (fun unit byte => 16 * unit + (Hex.value byte).getD 0) 0

def flush (high : Option Nat) : Bytes := if high.isSome then String.utf8EncodeChar Utf8.replacement else []

def joinUnit (high : Option Nat) (unit : Nat) : Bytes :=
  match high with
  | some high =>
    if isLowSurrogate unit then appendRune (0x10000 + (high - 0xD800) * 0x400 + (unit - 0xDC00))
    else flush (some high) ++ appendRune unit
  | none => appendRune unit

-- Resolves the escapes of a scanned string; high is a high surrogate waiting for its second half.
def unescape : Option Nat → Bytes → Bytes
  | high, [] => flush high
  | high, byte :: rest =>
    if byte = 92 then
      match rest with
      | [] => flush high
      | escape :: tail =>
        if escape = 117 then
          match tail with
          | first :: second :: third :: fourth :: tail =>
            let unit := codeUnit [first, second, third, fourth]
            if isHighSurrogate unit then flush high ++ unescape (some unit) tail
            else joinUnit high unit ++ unescape none tail
          | _ => flush high
        else flush high ++ (shortEscapes.lookup escape).getD escape :: unescape none tail
    else flush high ++ byte :: unescape none rest

def unquote (raw : Bytes) : Bytes := Utf8.toValid (unescape none raw)

def scanDigits : Scan Bytes := fun input =>
  if input.takeWhile Decimal.isDigit = [] then none
  else some (input.takeWhile Decimal.isDigit, input.dropWhile Decimal.isDigit)

def scanInteger : Scan Bytes
  | [] => none
  | byte :: rest => if byte = 48 then some ([48], rest) else scanDigits (byte :: rest)

def scanFraction : Scan Bytes
  | [] => some ([], [])
  | byte :: rest => if byte = 46 then (scanDigits rest).map (keep 46) else some ([], byte :: rest)

def scanExponent : Scan Bytes
  | [] => some ([], [])
  | byte :: rest =>
    if byte = 101 ∨ byte = 69 then
      match rest with
      | [] => none
      | sign :: tail =>
        if sign = 43 ∨ sign = 45 then (scanDigits tail).map fun scanned => keep byte (keep sign scanned)
        else (scanDigits rest).map (keep byte)
    else some ([], byte :: rest)

def scanNumber : Scan Bytes := fun input => do
  let (sign, rest) := if input.head? = some 45 then ([45], input.tail) else ([], input)
  let (integer, rest) ← scanInteger rest
  let (fraction, rest) ← scanFraction rest
  let (exponent, rest) ← scanExponent rest
  return (sign ++ integer ++ fraction ++ exponent, rest)

def scanLiteral (text : String) (value : Value) : Scan Value := fun input =>
  if (utf8 text).isPrefixOf input then some (value, input.drop (utf8 text).length) else none

mutual

def scanValue : Nat → Scan Value
  | 0, _ => none
  | fuel + 1, input =>
    match skipSpace input with
    | [] => none
    | byte :: rest =>
      if byte = 34 then (scanString rest).map fun (raw, rest) => (.string raw, rest)
      else if byte = 123 then
        if (skipSpace rest).head? = some 125 then some (.object [], (skipSpace rest).tail)
        else (scanMembers fuel rest).map fun (members, rest) => (.object members, rest)
      else if byte = 91 then
        if (skipSpace rest).head? = some 93 then some (.array [], (skipSpace rest).tail)
        else (scanItems fuel rest).map fun (items, rest) => (.array items, rest)
      else if byte = 116 then scanLiteral "true" (.bool true) (byte :: rest)
      else if byte = 102 then scanLiteral "false" (.bool false) (byte :: rest)
      else if byte = 110 then scanLiteral "null" .null (byte :: rest)
      else (scanNumber (byte :: rest)).map fun (text, rest) => (.number text, rest)

def scanMembers : Nat → Scan (List (Bytes × Value))
  | 0, _ => none
  | fuel + 1, input => do
      guard ((skipSpace input).head? = some 34)
      let (key, rest) ← scanString (skipSpace input).tail
      guard ((skipSpace rest).head? = some 58)
      let (value, rest) ← scanValue fuel (skipSpace rest).tail
      match skipSpace rest with
      | [] => none
      | byte :: rest =>
        if byte = 44 then (scanMembers fuel rest).map fun (members, rest) => ((key, value) :: members, rest)
        else if byte = 125 then some ([(key, value)], rest)
        else none

def scanItems : Nat → Scan (List Value)
  | 0, _ => none
  | fuel + 1, input => do
      let (value, rest) ← scanValue fuel input
      match skipSpace rest with
      | [] => none
      | byte :: rest =>
        if byte = 44 then (scanItems fuel rest).map fun (items, rest) => (value :: items, rest)
        else if byte = 93 then some ([value], rest)
        else none

end

def parse : Option Value := do
  let (value, rest) ← scanValue (input.length + 1) input
  guard (skipSpace rest = [])
  return value

def safe : Bool := 32 ≤ byte ∧ byte ≠ 34 ∧ byte ≠ 92 ∧ byte ≠ 60 ∧ byte ≠ 62 ∧ byte ≠ 38

def quoteUnit : Bytes :=
  [92, 117, Hex.digit (unit / 4096 % 16), Hex.digit (unit / 256 % 16), Hex.digit (unit / 16 % 16), Hex.digit (unit % 16)]

def quoteByte : Bytes :=
  if safe byte then [byte]
  else
    match shortEscapes.find? fun escape => escape.2 = byte with
    | some escape => [92, escape.1]
    | none => quoteUnit byte.toNat

def quoteRune : Option Char → Bytes
  | none => quoteUnit 0xFFFD
  | some rune =>
    if rune.val ≤ 127 then quoteByte (UInt8.ofNat rune.val.toNat)
    else if rune.val = 0x2028 ∨ rune.val = 0x2029 then quoteUnit rune.val.toNat
    else String.utf8EncodeChar rune

def quoteBody (bytes : Bytes) : Bytes := (Utf8.runes bytes.length bytes).flatMap quoteRune

-- What a flat object holds; verbatim text is written between quotes as it is.
inductive Scalar where
  | text (bytes : Bytes)
  | verbatim (raw : Bytes)
  | number (value : Nat)

def Scalar.value : Scalar → Value
  | .text bytes => .string (quoteBody bytes)
  | .verbatim raw => .string raw
  | .number value => .number (Decimal.format value)

def Scalar.encode : Scalar → Bytes
  | .text bytes => 34 :: quoteBody bytes ++ [34]
  | .verbatim raw => 34 :: raw ++ [34]
  | .number value => Decimal.format value

def encodeMember (member : Bytes × Scalar) : Bytes := 34 :: quoteBody member.1 ++ 34 :: 58 :: member.2.encode

def encodeObject (members : List (Bytes × Scalar)) : Bytes := 123 :: [44].intercalate (members.map encodeMember) ++ [125]

variable {members : List (Bytes × Scalar)} {bytes : Bytes} (rune : Char) (number : Nat) {byte : UInt8} {raw rest : Bytes}

def Plain (byte : UInt8) : Prop := byte ≠ 34 ∧ byte ≠ 92 ∧ 32 ≤ byte

def Scanned (piece : Bytes) : Prop := ∀ rest, scanString (piece ++ rest) = (scanString rest).map (Prod.map (piece ++ ·) id)

def Unescaped (piece bytes : Bytes) : Prop := ∀ rest, unescape none (piece ++ rest) = bytes ++ unescape none rest

theorem scanned_append {first second : Bytes} (left : Scanned first) (right : Scanned second) : Scanned (first ++ second) := by
  intro rest
  rw [append_assoc, left, right, Option.map_map, Prod.map_comp_map]
  simp only [Function.comp_def, append_assoc]
  rfl

theorem scanned_flatten {Piece : Type} {pieces : List Piece} {write : Piece → Bytes} (each : ∀ piece ∈ pieces, Scanned (write piece)) :
    Scanned (pieces.flatMap write) := by
  induction pieces with
  | nil =>
    intro rest
    exact Option.map_id'.symm
  | cons piece rest ih =>
    exact scanned_append (each piece mem_cons_self) (ih fun later member => each later (mem_cons_of_mem _ member))

theorem scanned_plain (plain : ∀ byte ∈ bytes, Plain byte) : Scanned bytes := by
  have single : ∀ byte ∈ bytes, Scanned [byte] := by
    intro byte member rest
    obtain ⟨notQuote, notEscape, printable⟩ := plain byte member
    rw [singleton_append, scanString.eq_def]
    simp only [notQuote, notEscape, UInt8.not_lt.mpr printable, if_false]
    rfl
  have flat := scanned_flatten single
  rwa [flatMap_singleton'] at flat

theorem scanned_escape {escape : UInt8} {tail : Bytes} (known : (escape = 117 ∧ ∀ rest, fourHex (tail ++ rest) = true) ∨
    (shortEscapes.lookup escape).isSome) (plain : ∀ byte ∈ tail, Plain byte) : Scanned (92 :: escape :: tail) := by
  intro rest
  have allowed : (escape = 117 ∧ fourHex (tail ++ rest) = true) ∨ (shortEscapes.lookup escape).isSome = true :=
    known.imp_left fun ⟨unit, hex⟩ => ⟨unit, hex rest⟩
  rw [cons_append, cons_append, scanString]
  simp only [show (92 : UInt8) ≠ 34 from by decide, if_false, if_true, allowed, scanned_plain plain rest, Option.map_map]
  rfl

theorem scan_string_printable {input : Bytes} (scanned : scanString input = some (raw, rest)) : ∀ byte ∈ raw, 32 ≤ byte := by
  have letters : ∀ escape, (shortEscapes.lookup escape).isSome = true → 32 ≤ escape := by
    intro escape known
    obtain ⟨pair, listed, same⟩ := lookup_isSome_iff.mp known
    have large : ∀ pair ∈ shortEscapes, decide (32 ≤ pair.1) = true := all_eq_true.mp (by decide)
    rw [eq_of_beq same]
    exact of_decide_eq_true (large pair listed)
  fun_induction scanString input generalizing raw rest with
  | case1 => cases scanned
  | case2 tail =>
    cases scanned
    simp
  | case3 => cases scanned
  | case4 escape tail known notQuote ih =>
    obtain ⟨⟨text, remaining⟩, read, same⟩ := Option.map_eq_some_iff.mp scanned
    cases same
    have letter : 32 ≤ escape := by
      rcases known with ⟨rfl, -⟩ | short
      · decide
      · exact letters escape short
    simpa [keep, letter] using ih read
  | case5 => cases scanned
  | case6 => cases scanned
  | case7 byte tail _ _ printable ih =>
    obtain ⟨⟨text, remaining⟩, read, same⟩ := Option.map_eq_some_iff.mp scanned
    cases same
    simpa [keep, UInt8.not_lt.mp printable] using ih read

theorem scanned_printable {piece : Bytes} (scanned : Scanned piece) : ∀ byte ∈ piece, 32 ≤ byte := by
  have read := scanned [34]
  rw [show scanString [34] = some ([], []) from rfl] at read
  exact scan_string_printable (by simpa using read)

theorem unescaped_append {first second left right : Bytes} (earlier : Unescaped first left) (later : Unescaped second right) :
    Unescaped (first ++ second) (left ++ right) := by
  intro rest
  rw [append_assoc, earlier, later, append_assoc]

theorem unescaped_flatten {Piece : Type} {pieces : List Piece} {write bytes : Piece → Bytes}
    (each : ∀ piece ∈ pieces, Unescaped (write piece) (bytes piece)) : Unescaped (pieces.flatMap write) (pieces.flatMap bytes) := by
  induction pieces with
  | nil => exact fun rest => rfl
  | cons piece rest ih =>
    exact unescaped_append (each piece mem_cons_self) (ih fun later member => each later (mem_cons_of_mem _ member))

theorem unescaped_plain (plain : ∀ byte ∈ bytes, byte ≠ 92) : Unescaped bytes bytes := by
  have single : ∀ byte ∈ bytes, Unescaped [byte] [byte] := by
    intro byte member rest
    rw [singleton_append, unescape.eq_def]
    simp only [plain byte member, if_false]
    rfl
  have flat := unescaped_flatten single
  rwa [flatMap_singleton'] at flat

theorem append_rune_val : appendRune rune.val.toNat = String.utf8EncodeChar rune := by
  have valid : rune.val.toNat.isValidChar := rune.valid
  rw [appendRune, if_pos valid]
  congr 1
  exact Char.ofNat_toNat rune

theorem quote_unit_scanned : Scanned (quoteUnit unit) := by
  have digits : ∀ number, (Hex.value (Hex.digit (number % 16))).isSome = true := by
    intro number
    rw [Hex.value_digit _ (Nat.mod_lt _ (by omega))]
    rfl
  refine scanned_escape (.inl ⟨rfl, fun rest => ?_⟩) ?_
  · simp [fourHex, digits]
  · intro digit member
    simp only [mem_cons, not_mem_nil, or_false] at member
    rcases member with rfl | rfl | rfl | rfl <;> exact Hex.digit_plain _ (Nat.mod_lt _ (by omega))

theorem quote_unit_unescaped {unit : Nat} (small : unit < 0x10000) (single : isHighSurrogate unit = false) :
    Unescaped (quoteUnit unit) (appendRune unit) := by
  have digits : ∀ number, Hex.value (Hex.digit (number % 16)) = some (number % 16) := fun number =>
    Hex.value_digit _ (Nat.mod_lt _ (by omega))
  have whole : codeUnit [Hex.digit (unit / 4096 % 16), Hex.digit (unit / 256 % 16), Hex.digit (unit / 16 % 16), Hex.digit (unit % 16)] = unit := by
    simp only [codeUnit, foldl_cons, foldl_nil, digits, Option.getD_some]
    omega
  intro rest
  simp only [quoteUnit, cons_append, nil_append]
  rw [unescape.eq_def]
  simp only [if_true, whole, single, joinUnit]
  rfl

-- Below 128 a rune is written as itself, with a short escape or as a code unit.
theorem quote_byte_read (small : byte < 128) : Scanned (quoteByte byte) ∧ Unescaped (quoteByte byte) (appendRune byte.toNat) := by
  have below : byte.toNat < 128 := UInt8.lt_iff_toNat_lt.mp small
  have single : appendRune byte.toNat = [byte] := by
    rw [appendRune, if_pos (.inl (by omega)), Utf8.encode_small small]
  unfold quoteByte
  split
  · rename_i isSafe
    simp only [safe, decide_eq_true_eq] at isSafe
    obtain ⟨printable, notQuote, notEscape, -⟩ := isSafe
    rw [single]
    exact ⟨scanned_plain (by simpa [Plain] using ⟨notQuote, notEscape, printable⟩), unescaped_plain (by simpa using notEscape)⟩
  · split
    · rename_i escape found
      obtain ⟨letter, meaning⟩ := escape
      obtain rfl : meaning = byte := by simpa using find?_some found
      have escapes : ∀ pair ∈ shortEscapes, decide (pair.1 ≠ 117 ∧ shortEscapes.lookup pair.1 = some pair.2) = true :=
        all_eq_true.mp (by decide)
      obtain ⟨notUnit, short⟩ := of_decide_eq_true (escapes _ (mem_of_find?_eq_some found))
      refine ⟨scanned_escape (.inr (by rw [short]; rfl)) (by simp), fun rest => ?_⟩
      rw [single, cons_append, singleton_append, unescape.eq_def]
      simp only [if_true, notUnit, if_false, short]
      rfl
    · refine ⟨quote_unit_scanned _, quote_unit_unescaped (by omega) ?_⟩
      simp only [isHighSurrogate, decide_eq_false_iff_not]
      omega

theorem quote_rune_read : Scanned (quoteRune (some rune)) ∧ Unescaped (quoteRune (some rune)) (String.utf8EncodeChar rune) := by
  rw [← append_rune_val]
  unfold quoteRune
  simp only
  split
  · rename_i small
    have below : rune.val.toNat ≤ 127 := UInt32.le_iff_toNat_le.mp small
    have same : (UInt8.ofNat rune.val.toNat).toNat = rune.val.toNat := by
      rw [UInt8.toNat_ofNat']
      omega
    have read := @quote_byte_read (UInt8.ofNat rune.val.toNat) (by rw [UInt8.lt_iff_toNat_lt, same]; exact Nat.lt_succ_of_le below)
    rwa [same] at read
  · rename_i large
    have above : 127 < rune.val.toNat := UInt32.lt_iff_toNat_lt.mp (UInt32.not_le.mp large)
    split
    · rename_i separator
      refine ⟨quote_unit_scanned _, ?_⟩
      rcases separator with same | same <;> rw [same] <;> exact quote_unit_unescaped (by decide) (by decide)
    · rw [append_rune_val]
      have bytes : ∀ byte ∈ String.utf8EncodeChar rune, 128 ≤ byte := fun byte member => Utf8.encoded_large above member
      have plain : ∀ byte ∈ String.utf8EncodeChar rune, Plain byte := by
        intro byte member
        have large := UInt8.le_iff_toNat_le.mp (bytes byte member)
        refine ⟨?_, ?_, UInt8.le_trans (by decide) (bytes byte member)⟩ <;> (rintro rfl; revert large; decide)
      exact ⟨scanned_plain plain, unescaped_plain fun byte member => (plain byte member).2.1⟩

theorem quote_body_scanned (bytes : Bytes) : Scanned (quoteBody bytes) := by
  refine scanned_flatten fun rune _ => ?_
  cases rune with
  | none => exact quote_unit_scanned _
  | some rune => exact (quote_rune_read rune).1

theorem unquote_quote_body (valid : Utf8.Valid bytes) : unquote (quoteBody bytes) = bytes := by
  obtain ⟨text, rfl⟩ := valid
  have read : Unescaped (text.flatMap fun rune => quoteRune (some rune)) (text.flatMap String.utf8EncodeChar) :=
    unescaped_flatten fun rune _ => (quote_rune_read rune).2
  have whole := read []
  rw [append_nil] at whole
  rw [unquote, quoteBody, Utf8.runes_encode text _ (Nat.le_refl _), flatMap_map, whole]
  simp only [unescape, flush, Option.isSome_none, if_false, append_nil, Bool.false_eq_true]
  exact Utf8.to_valid_encode text

theorem mem_intercalate {separator : UInt8} {pieces : List Bytes} (member : byte ∈ [separator].intercalate pieces) :
    byte = separator ∨ ∃ piece ∈ pieces, byte ∈ piece := by
  induction pieces with
  | nil => simp at member
  | cons piece later ih =>
    cases later with
    | nil => exact .inr ⟨piece, mem_cons_self .., by simpa using member⟩
    | cons next more =>
      rw [intercalate_cons_cons, mem_append, mem_append, mem_singleton] at member
      rcases member with (first | same) | later
      · exact .inr ⟨piece, mem_cons_self .., first⟩
      · exact .inl same
      · exact (ih later).imp_right fun ⟨other, listed, inside⟩ => ⟨other, mem_cons_of_mem _ listed, inside⟩

theorem intercalate_length_le (separator : UInt8) (pieces : List Bytes) :
    ([separator].intercalate pieces).length ≤ (pieces.map fun piece => piece.length + 1).sum := by
  induction pieces with
  | nil => exact Nat.zero_le _
  | cons piece later ih =>
    cases later with
    | nil => simp
    | cons next more =>
      rw [intercalate_cons_cons, length_append, length_append, map_cons, sum_cons]
      exact Nat.add_le_add (Nat.le_refl _) ih

def Scalar.Sound : Scalar → Prop
  | .verbatim raw => ∀ byte ∈ raw, Plain byte
  | _ => True

def Ends (rest : Bytes) : Prop := ∃ byte tail, rest = byte :: tail ∧ (byte = 44 ∨ byte = 125 ∨ byte = 93)

theorem skip_space_cons (shown : 32 < byte) (rest : Bytes) : skipSpace (byte :: rest) = byte :: rest := by
  have above : 32 < byte.toNat := UInt8.lt_iff_toNat_lt.mp shown
  have visible : ¬ (byte = 32 ∨ byte = 9 ∨ byte = 10 ∨ byte = 13) := by
    rintro (rfl | rfl | rfl | rfl) <;> revert above <;> decide
  rw [skipSpace, dropWhile_cons_of_neg (by simpa using visible)]

theorem scan_quoted (scanned : Scanned raw) (rest : Bytes) : scanString (raw ++ 34 :: rest) = some (raw, rest) := by
  rw [scanned, scanString.eq_def]
  simp

theorem format_ne_nil : format number ≠ [] := by
  by_cases zero : number = 0
  · rw [zero]
    decide
  · obtain ⟨first, more, same, -⟩ := format_head zero
    rw [same]
    exact cons_ne_nil _ _

theorem format_start : ∃ first more, format number = first :: more ∧ isDigit first = true := by
  obtain ⟨first, more, text⟩ := exists_cons_of_ne_nil (format_ne_nil number)
  exact ⟨first, more, text, @format_digits number first (by rw [text]; exact mem_cons_self ..)⟩

theorem scan_digits_format (ends : Ends rest) : scanDigits (format number ++ rest) = some (format number, rest) := by
  obtain ⟨byte, tail, rfl, closing⟩ := ends
  have stop : isDigit byte = false := by
    rcases closing with rfl | rfl | rfl <;> rfl
  have digits : ∀ digit ∈ format number, isDigit digit = true := fun _ member => format_digits number member
  have taken : (format number ++ byte :: tail).takeWhile isDigit = format number := by
    rw [takeWhile_append_of_pos digits, takeWhile_cons_of_neg (by simp [stop]), append_nil]
  have dropped : (format number ++ byte :: tail).dropWhile isDigit = byte :: tail := by
    rw [dropWhile_append_of_pos digits, dropWhile_cons_of_neg (by simp [stop])]
  rw [scanDigits, taken, dropped, if_neg (format_ne_nil number)]

theorem scan_integer_format (ends : Ends rest) : scanInteger (format number ++ rest) = some (format number, rest) := by
  by_cases zero : number = 0
  · rw [zero]
    rfl
  · have digits := scan_digits_format number ends
    obtain ⟨first, more, same, positive⟩ := format_head zero
    rw [same, cons_append] at digits ⊢
    rw [scanInteger, if_neg positive, digits]

theorem scan_end (ends : Ends rest) : scanFraction rest = some ([], rest) ∧ scanExponent rest = some ([], rest) := by
  obtain ⟨byte, tail, rfl, closing⟩ := ends
  rcases closing with rfl | rfl | rfl <;> exact ⟨rfl, rfl⟩

theorem format_unsigned (rest : Bytes) : (format number ++ rest).head? ≠ some 45 := by
  obtain ⟨first, more, text, digit⟩ := format_start number
  rw [text, cons_append, head?_cons, Ne, Option.some.injEq]
  rintro rfl
  contradiction

theorem scan_number_format (ends : Ends rest) : scanNumber (format number ++ rest) = some (format number, rest) := by
  obtain ⟨fraction, exponent⟩ := scan_end ends
  simp only [scanNumber, if_neg (format_unsigned number rest), scan_integer_format number ends, fraction, exponent, Option.bind_eq_bind,
    Option.bind_some, nil_append, append_nil]
  rfl

theorem scan_negative_format (ends : Ends rest) : scanNumber (45 :: format number ++ rest) = some (45 :: format number, rest) := by
  obtain ⟨fraction, exponent⟩ := scan_end ends
  simp only [scanNumber, cons_append, head?_cons, if_true, tail_cons, scan_integer_format number ends, fraction, exponent,
    Option.bind_eq_bind, Option.bind_some, nil_append, append_nil]
  rfl

theorem scan_number_value {text : Bytes} {first : UInt8} {more : Bytes} (start : text = first :: more)
    (numeral : isDigit first = true ∨ first = 45) (read : scanNumber (text ++ rest) = some (text, rest)) (fuel : Nat) :
    scanValue (fuel + 1) (text ++ rest) = some (.number text, rest) := by
  have other : ∀ {byte : UInt8}, isDigit byte = false → byte ≠ 45 → first ≠ byte := by
    rintro byte plain unsigned rfl
    rcases numeral with digit | minus
    · rw [plain] at digit
      contradiction
    · exact unsigned minus
  have shown : 32 < first := by
    rcases numeral with digit | rfl
    · simp only [isDigit, decide_eq_true_eq] at digit
      exact UInt8.lt_of_lt_of_le (by decide) digit.1
    · decide
  rw [start, cons_append] at read ⊢
  rw [scanValue, skip_space_cons shown]
  simp only [@other 34 rfl (by decide), @other 123 rfl (by decide), @other 91 rfl (by decide),
    @other 116 rfl (by decide), @other 102 rfl (by decide), @other 110 rfl (by decide), if_false,
    read]
  rfl

theorem scan_quoted_value (scanned : Scanned raw) (rest : Bytes) (fuel : Nat) :
    scanValue (fuel + 1) (34 :: raw ++ 34 :: rest) = some (.string raw, rest) := by
  rw [cons_append, scanValue, skip_space_cons (by decide)]
  simp [scan_quoted scanned]

def encodeArray (items : List Scalar) : Bytes := 91 :: [44].intercalate (items.map Scalar.encode) ++ [93]

theorem encode_object_printable (sound : ∀ member ∈ members, member.2.Sound) : ∀ byte ∈ encodeObject members, 32 ≤ byte := by
  have scalar : ∀ member ∈ members, ∀ byte ∈ member.2.encode, 32 ≤ byte := by
    intro member listed byte written
    obtain ⟨key, value⟩ := member
    have plain := sound _ listed
    cases value with
    | text bytes =>
      simp only [Scalar.encode, cons_append, mem_cons, mem_append, not_mem_nil, or_false] at written
      rcases written with rfl | inside | rfl
      · decide
      · exact scanned_printable (quote_body_scanned bytes) byte inside
      · decide
    | verbatim raw =>
      simp only [Scalar.encode, cons_append, mem_cons, mem_append, not_mem_nil, or_false] at written
      rcases written with rfl | inside | rfl
      · decide
      · exact (plain byte inside).2.2
      · decide
    | number value =>
      have digit := format_digits value written
      simp only [isDigit, decide_eq_true_eq] at digit
      exact UInt8.le_trans (by decide) digit.1
  intro byte written
  simp only [encodeObject, cons_append, mem_cons, mem_append, not_mem_nil, or_false] at written
  rcases written with rfl | inside | rfl
  · decide
  · rcases mem_intercalate inside with rfl | ⟨piece, encoded, member⟩
    · decide
    · obtain ⟨source, listed, rfl⟩ := mem_map.mp encoded
      simp only [encodeMember, cons_append, mem_cons, mem_append] at member
      rcases member with rfl | key | rfl | rfl | value
      · decide
      · exact scanned_printable (quote_body_scanned source.1) byte key
      · decide
      · decide
      · exact scalar source listed byte value
  · decide

theorem quote_rune_length : (quoteRune (some rune)).length ≤ 6 * rune.utf8Size := by
  have positive := rune.utf8Size_pos
  have byte : ∀ byte, (quoteByte byte).length ≤ 6 := by
    intro byte
    unfold quoteByte
    split
    · simp
    · split <;> simp [quoteUnit]
  unfold quoteRune
  simp only
  split
  · exact Nat.le_trans (byte _) (by omega)
  · split
    · simp only [quoteUnit, length_cons, length_nil]
      omega
    · rw [String.length_utf8EncodeChar]
      omega

theorem quote_body_length (valid : Utf8.Valid bytes) : (quoteBody bytes).length ≤ 6 * bytes.length := by
  obtain ⟨text, rfl⟩ := valid
  rw [quoteBody, Utf8.runes_encode text _ (Nat.le_refl _), Utf8.encode]
  induction text with
  | nil => exact Nat.le_refl _
  | cons rune rest ih =>
    have first := quote_rune_length rune
    have size := String.length_utf8EncodeChar rune
    simp only [map_cons, flatMap_cons, length_append, size]
    omega

-- Two runes outside ASCII fold to ASCII letters.
def foldName : Bytes → Bytes
  | 0xC5 :: 0xBF :: rest => 115 :: foldName rest
  | 0xE2 :: 0x84 :: 0xAA :: rest => 107 :: foldName rest
  | byte :: rest => (if 65 ≤ byte ∧ byte ≤ 90 then byte + 32 else byte) :: foldName rest
  | [] => []

variable (names : List Bytes)

-- A key is compared exactly first, then without regard to case.
def fieldOf (key : Bytes) : Option Bytes :=
  (names.find? fun name => name = key) <|> names.find? fun name => foldName name = foldName key

def setText (texts : Bytes → Bytes) (member : Bytes × Value) : Option (Bytes → Bytes) :=
  match fieldOf names (unquote member.1) with
  | none => some texts
  | some name =>
    match member.2 with
    | .null => some texts
    | .string raw => some (Function.update texts name (unquote raw))
    | _ => none

-- json.Unmarshal into a structure whose fields, under these names, are all strings.
def readTexts (document : Bytes) : Option (Bytes → Bytes) :=
  match parse document with
  | some .null => some fun _ => []
  | some (.object members) => members.foldlM (setText names) fun _ => []
  | _ => none

end Json
