import VexoConsensus.Lib.Base64
import VexoConsensus.Lib.Json

namespace Json

open ByteCodec List Decimal

section

-- Decoding writes into a value that is already there; null leaves it as it is.
abbrev Decoder (Target : Type) := Target → Value → Option Target

variable {Target : Type}

def intoText : Decoder Bytes
  | current, .null => some current
  | _, .string raw => some (unquote raw)
  | _, _ => none

def unsigned (limit : Nat) (text : Bytes) : Option Nat :=
  if text.all Decimal.isDigit ∧ Decimal.value text < limit then some (Decimal.value text) else none

def intoUint64 : Decoder UInt64
  | current, .null => some current
  | _, .number text => (unsigned (2 ^ 64) text).map UInt64.ofNat
  | _, _ => none

def intoUint8 : Decoder UInt8
  | current, .null => some current
  | _, .number text => (unsigned (2 ^ 8) text).map UInt8.ofNat
  | _, _ => none

def intoUint32 : Decoder UInt32
  | current, .null => some current
  | _, .number text => (unsigned (2 ^ 32) text).map UInt32.ofNat
  | _, _ => none

def signed (text : Bytes) : Option Int :=
  if text.head? = some 45 then (unsigned (2 ^ 63 + 1) text.tail).map fun magnitude => -Int.ofNat magnitude
  else (unsigned (2 ^ 63) text).map Int.ofNat

def intoInt64 : Decoder Int64
  | current, .null => some current
  | _, .number text => (signed text).map Int64.ofInt
  | _, _ => none

def intoBool : Decoder Bool
  | current, .null => some current
  | _, .bool value => some value
  | _, _ => none

def intoItems (zero : Target) (item : Decoder Target) : List Target → List Value → Option (List Target)
  | _, [] => some []
  | current, value :: rest => do
      let first ← item (current.headD zero) value
      return first :: (← intoItems zero item current.tail rest)

def intoList (zero : Target) (item : Decoder Target) : Decoder (List Target)
  | _, .null => some []
  | current, .array items => intoItems zero item current items
  | _, _ => none

-- A byte slice is read from base64, or from an array of numbers.
def intoBytes : Decoder Bytes
  | _, .null => some []
  | _, .string raw => Base64.decodeStd (unquote raw)
  | current, .array items => intoItems 0 intoUint8 current items
  | _, _ => none

def intoPointer (zero : Target) (target : Decoder Target) : Decoder (Option Target)
  | _, .null => some none
  | current, value => (target (current.getD zero) value).map some

-- One field of a structure: how it is read and decoded, and how it is put back.
def field {Part : Type} (name : String) (read : Target → Part) (decoder : Decoder Part) (write : Target → Part → Target) : Bytes × Decoder Target :=
  (utf8 name, fun target value => (decoder (read target) value).map (write target))

def intoMembers (fields : List (Bytes × Decoder Target)) (current : Target) (member : Bytes × Value) : Option Target :=
  match fieldOf (fields.map Prod.fst) (unquote member.1) with
  | none => some current
  | some name =>
    match fields.find? fun field => field.1 = name with
    | some field => field.2 current member.2
    | none => some current

def intoStruct (fields : List (Bytes × Decoder Target)) : Decoder Target
  | current, .null => some current
  | current, .object members => members.foldlM (intoMembers fields) current
  | _, _ => none

def unmarshal (zero : Target) (decoder : Decoder Target) (document : Bytes) : Option Target := (parse document).bind (decoder zero)

theorem into_struct_keeps {fields : List (Bytes × Decoder Target)} {Kept : Target → Prop}
    (each : ∀ field ∈ fields, ∀ current value next, Kept current → field.2 current value = some next → Kept next) {current next : Target}
    {value : Value} (kept : Kept current) (decoded : intoStruct fields current value = some next) : Kept next := by
  cases value with
  | null =>
    cases decoded
    exact kept
  | object members =>
    rw [intoStruct] at decoded
    induction members generalizing current with
    | nil =>
      cases decoded
      exact kept
    | cons member later ih =>
      rw [List.foldlM_cons, Option.bind_eq_bind, Option.bind_eq_some_iff] at decoded
      obtain ⟨middle, first, decoded⟩ := decoded
      refine ih ?_ decoded
      unfold intoMembers at first
      split at first
      · cases first
        exact kept
      · split at first
        · rename_i field found
          exact each field (List.mem_of_find?_eq_some found) current member.2 middle kept first
        · cases first
          exact kept
  | bool _ | number _ | string _ | array _ => contradiction

theorem field_keeps {Part : Type} {Kept : Target → Prop} {name : String} {read : Target → Part} {decoder : Decoder Part}
    {write : Target → Part → Target} (writes : ∀ current value part, Kept current → decoder (read current) value = some part →
      Kept (write current part)) :
    ∀ current value next, Kept current → (field name read decoder write).2 current value = some next → Kept next := by
  intro current value next kept decoded
  obtain ⟨part, read, same⟩ := Option.map_eq_some_iff.mp decoded
  cases same
  exact writes current value part kept read

theorem into_text_valid {current : Bytes} {value : Value} {next : Bytes} (kept : Utf8.Valid current)
    (decoded : intoText current value = some next) : Utf8.Valid next := by
  cases value with
  | null =>
    cases decoded
    exact kept
  | string raw =>
    cases decoded
    exact ⟨_, rfl⟩
  | bool _ | number _ | array _ | object _ => contradiction

def encodeNumbers (numbers : List Nat) : Bytes := encodeArray (numbers.map Scalar.number)

theorem into_number (current : UInt64) {number : Nat} (small : number < 2 ^ 64) :
    intoUint64 current (Scalar.number number).value = some (UInt64.ofNat number) := by
  have digits : (Decimal.format number).all Decimal.isDigit = true := List.all_eq_true.mpr fun _ member => Decimal.format_digits _ member
  have same := Decimal.value_format number
  simp only [Scalar.value, intoUint64, unsigned, digits, same, small, and_self, if_true, Option.map_some]

theorem into_numbers (current : List UInt64) {numbers : List Nat} (small : ∀ number ∈ numbers, number < 2 ^ 64) :
    intoItems 0 intoUint64 current ((numbers.map Scalar.number).map Scalar.value) = some (numbers.map UInt64.ofNat) := by
  induction numbers generalizing current with
  | nil => rfl
  | cons number later ih =>
    have first := into_number (current.headD 0) (small number List.mem_cons_self)
    have rest := ih current.tail (List.forall_mem_cons.mp small).2
    simp only [List.map_cons, intoItems, first, rest, Option.bind_eq_bind, Option.bind_some]
    rfl

end

mutual

-- The compact text of a value, as json.Marshal writes it.
def render : Value → Bytes
  | .null => utf8 "null"
  | .bool value => if value then utf8 "true" else utf8 "false"
  | .number text => text
  | .string raw => 34 :: raw ++ [34]
  | .array items => 91 :: renderItems items ++ [93]
  | .object members => 123 :: renderMembers members ++ [125]

def renderItems : List Value → Bytes
  | [] => []
  | item :: rest => render item ++ (if rest.isEmpty then [] else 44 :: renderItems rest)

def renderMembers : List (Bytes × Value) → Bytes
  | [] => []
  | (key, value) :: rest => 34 :: key ++ 34 :: 58 :: render value ++ (if rest.isEmpty then [] else 44 :: renderMembers rest)

end

def integer : Int → Value
  | .ofNat magnitude => .number (Decimal.format magnitude)
  | .negSucc less => .number (45 :: Decimal.format (less + 1))

inductive Written : Value → Prop
  | null : Written .null
  | natural (number : Nat) : Written (.number (Decimal.format number))
  | negative (number : Nat) : Written (.number (45 :: Decimal.format number))
  | string {raw : Bytes} (scanned : Scanned raw) : Written (.string raw)
  | array {items : List Value} (each : ∀ item ∈ items, Written item) : Written (.array items)
  | object {members : List (Bytes × Value)} (keys : ∀ member ∈ members, Scanned member.1) (each : ∀ member ∈ members, Written member.2) :
      Written (.object members)

def ScansBack (value : Value) : Prop :=
  ∀ rest, Ends rest → ∀ fuel, (render value).length ≤ fuel → scanValue (fuel + 1) (render value ++ rest) = some (value, rest)

def Starts (text : Bytes) : Prop := ∃ byte tail, text = byte :: tail ∧ 32 < byte ∧ byte ≠ 93

theorem render_null : render .null = [110, 117, 108, 108] := by with_unfolding_all decide

variable {members : List (Bytes × Value)} {items : List Value} {value : Value}

theorem written_starts (written : Written value) : Starts (render value) := by
  cases written with
  | null => exact ⟨110, _, render_null, by decide, by decide⟩
  | natural number =>
    obtain ⟨first, more, text, digit⟩ := format_start number
    simp only [isDigit, decide_eq_true_eq] at digit
    refine ⟨first, more, text, UInt8.lt_of_lt_of_le (by decide) digit.1, ?_⟩
    rintro rfl
    exact absurd digit.2 (by decide)
  | negative number => exact ⟨45, _, rfl, by decide, by decide⟩
  | string => exact ⟨34, _, rfl, by decide, by decide⟩
  | array => exact ⟨91, _, rfl, by decide, by decide⟩
  | object => exact ⟨123, _, rfl, by decide, by decide⟩

theorem written_integer (number : Int) : Written (integer number) := by
  cases number with
  | ofNat magnitude => exact .natural magnitude
  | negSucc less => exact .negative (less + 1)

theorem string_scans_back {raw : Bytes} (scanned : Scanned raw) : ScansBack (.string raw) := by
  intro rest _ fuel _
  simpa [render] using scan_quoted_value scanned rest fuel

theorem items_scan_back (starts : ∀ item ∈ items, Starts (render item)) (each : ∀ item ∈ items, ScansBack item)
    (nonempty : items ≠ []) (rest : Bytes) (fuel : Nat) (enough : (renderItems items).length + 2 ≤ fuel) :
    scanItems fuel (renderItems items ++ 93 :: rest) = some (items, rest) := by
  induction items generalizing fuel with
  | nil => contradiction
  | cons item later ih =>
    have head := each item mem_cons_self
    obtain ⟨fuel, rfl⟩ : ∃ more, fuel = more + 2 := ⟨fuel - 2, by omega⟩
    cases later with
    | nil =>
      have size : (render item).length ≤ fuel := by simpa [renderItems] using enough
      have value := head (93 :: rest) ⟨93, rest, rfl, .inr (.inr rfl)⟩ fuel size
      simp [renderItems, scanItems, skip_space_cons (show (32 : UInt8) < 93 by decide), value]
    | cons next more =>
      have size : (render item).length + ((renderItems (next :: more)).length + 1) ≤ fuel := by
        simpa [renderItems] using enough
      obtain ⟨byte, tail, start, -⟩ := starts item mem_cons_self
      have positive : 0 < (render item).length := by simp [start]
      have value := head (44 :: (renderItems (next :: more) ++ 93 :: rest)) ⟨44, _, rfl, .inl rfl⟩ fuel (by omega)
      have following := ih (forall_mem_cons.mp starts).2
        (forall_mem_cons.mp each).2 (cons_ne_nil _ _) (fuel + 1) (by omega)
      rw [renderItems, scanItems]
      generalize renderItems (next :: more) = text at value following ⊢
      simp [skip_space_cons (show (32 : UInt8) < 44 by decide), value, following]

theorem members_scan_back (keys : ∀ member ∈ members, Scanned member.1)
    (each : ∀ member ∈ members, ScansBack member.2) (nonempty : members ≠ []) (rest : Bytes) (fuel : Nat)
    (enough : (renderMembers members).length + 2 ≤ fuel) :
    scanMembers fuel (renderMembers members ++ 125 :: rest) = some (members, rest) := by
  induction members generalizing fuel with
  | nil => contradiction
  | cons member later ih =>
    obtain ⟨key, held⟩ := member
    have head : ScansBack held := each (key, held) mem_cons_self
    have quoted := scan_quoted (keys (key, held) mem_cons_self)
    obtain ⟨fuel, rfl⟩ : ∃ more, fuel = more + 2 := ⟨fuel - 2, by omega⟩
    cases later with
    | nil =>
      have size : (render held).length ≤ fuel := by
        simp [renderMembers] at enough
        omega
      have value := head (125 :: rest) ⟨125, rest, rfl, .inr (.inl rfl)⟩ fuel size
      simp [renderMembers, scanMembers, skip_space_cons (show (32 : UInt8) < 34 by decide),
        skip_space_cons (show (32 : UInt8) < 58 by decide), skip_space_cons (show (32 : UInt8) < 125 by decide), quoted, value]
    | cons next more =>
      have size : (render held).length + (renderMembers (next :: more)).length + 4 ≤ fuel := by
        rw [renderMembers] at enough
        simp at enough
        omega
      have value := head (44 :: (renderMembers (next :: more) ++ 125 :: rest)) ⟨44, _, rfl, .inl rfl⟩ fuel (by omega)
      have following := ih (forall_mem_cons.mp keys).2
        (forall_mem_cons.mp each).2 (cons_ne_nil _ _) (fuel + 1) (by omega)
      rw [renderMembers, scanMembers]
      generalize renderMembers (next :: more) = text at value following ⊢
      simp [skip_space_cons (show (32 : UInt8) < 34 by decide), skip_space_cons (show (32 : UInt8) < 58 by decide),
        skip_space_cons (show (32 : UInt8) < 44 by decide), quoted, value, following]

-- A closing bracket ends the text by itself, whatever comes after it.
theorem array_scans_back (starts : ∀ item ∈ items, Starts (render item)) (each : ∀ item ∈ items, ScansBack item)
    (rest : Bytes) (fuel : Nat) (enough : (render (.array items)).length ≤ fuel) :
    scanValue (fuel + 1) (render (.array items) ++ rest) = some (.array items, rest) := by
  rw [render] at enough ⊢
  rw [cons_append, cons_append, scanValue, skip_space_cons (by decide)]
  cases items with
  | nil => simp [renderItems, skip_space_cons (show (32 : UInt8) < 93 by decide)]
  | cons item later =>
    have read := items_scan_back starts each (cons_ne_nil _ _) rest fuel (by simp at enough; omega)
    obtain ⟨byte, tail, start, shown, other⟩ := starts item mem_cons_self
    rw [renderItems, start] at read ⊢
    simp only [cons_append, append_assoc, skip_space_cons shown] at read ⊢
    simpa [other] using read

theorem object_scans_back (keys : ∀ member ∈ members, Scanned member.1)
    (each : ∀ member ∈ members, ScansBack member.2) (rest : Bytes) (fuel : Nat) (enough : (render (.object members)).length ≤ fuel) :
    scanValue (fuel + 1) (render (.object members) ++ rest) = some (.object members, rest) := by
  rw [render] at enough ⊢
  rw [cons_append, cons_append, scanValue, skip_space_cons (by decide)]
  cases members with
  | nil => simp [renderMembers, skip_space_cons (show (32 : UInt8) < 125 by decide)]
  | cons member later =>
    have read := members_scan_back keys each (cons_ne_nil _ _) rest fuel (by simp at enough; omega)
    rw [renderMembers] at read ⊢
    simp only [cons_append, append_assoc, skip_space_cons (show (32 : UInt8) < 34 by decide)] at read ⊢
    simpa using read

theorem null_scans_back : ScansBack .null := by
  intro rest _ fuel _
  have literal : utf8 "null" = [110, 117, 108, 108] := by with_unfolding_all decide
  rw [render_null, cons_append, scanValue, skip_space_cons (by decide)]
  simp [scanLiteral, literal]

theorem written_scans_back (written : Written value) : ScansBack value := by
  induction written with
  | null => exact null_scans_back
  | natural number =>
    obtain ⟨first, more, text, digit⟩ := format_start number
    exact fun rest ends fuel _ => scan_number_value text (.inl digit) (scan_number_format number ends) fuel
  | negative number => exact fun rest ends fuel _ => scan_number_value rfl (.inr rfl) (scan_negative_format number ends) fuel
  | string scanned => exact string_scans_back scanned
  | array each ih => exact fun rest _ fuel enough => array_scans_back (fun item listed => written_starts (each item listed)) ih rest fuel enough
  | object keys _ ih => exact fun rest _ fuel enough => object_scans_back keys ih rest fuel enough

theorem parse_scanned (scans : scanValue ((render value).length + 1) (render value) = some (value, [])) : parse (render value) = some value := by
  simp [parse, scans, skipSpace]

theorem parse_render (written : Written (.object members)) : parse (render (.object members)) = some (.object members) := by
  cases written with
  | object keys each =>
    have read := object_scans_back keys (fun member listed => written_scans_back (each member listed)) [] _ (Nat.le_refl _)
    rw [append_nil] at read
    exact parse_scanned read

theorem parse_render_array (each : ∀ item ∈ items, Written item) : parse (render (.array items)) = some (.array items) := by
  have read := array_scans_back (fun item listed => written_starts (each item listed)) (fun item listed => written_scans_back (each item listed))
    [] _ (Nat.le_refl _)
  rw [append_nil] at read
  exact parse_scanned read

theorem render_scalar (scalar : Scalar) : render scalar.value = scalar.encode := by
  cases scalar <;> rfl

theorem written_scalar {scalar : Scalar} (sound : scalar.Sound) : Written scalar.value := by
  cases scalar with
  | text bytes => exact .string (quote_body_scanned bytes)
  | verbatim raw => exact .string (scanned_plain sound)
  | number value => exact .natural value

theorem render_scalars (items : List Scalar) : render (.array (items.map Scalar.value)) = encodeArray items := by
  have joined : renderItems (items.map Scalar.value) = [44].intercalate (items.map Scalar.encode) := by
    induction items with
    | nil => rfl
    | cons item later ih =>
      rw [map_cons, renderItems, render_scalar, ih]
      cases later <;> simp
  rw [render, joined, encodeArray]

theorem render_flat (members : List (Bytes × Scalar)) :
    render (.object (members.map fun member => (quoteBody member.1, member.2.value))) = encodeObject members := by
  have joined : renderMembers (members.map fun member => (quoteBody member.1, member.2.value)) = [44].intercalate (members.map encodeMember) := by
    induction members with
    | nil => rfl
    | cons member later ih =>
      rw [map_cons, renderMembers, render_scalar, ih]
      cases later <;> simp [encodeMember]
  rw [render, joined, encodeObject]

theorem parse_object {members : List (Bytes × Scalar)} (sound : ∀ member ∈ members, member.2.Sound) :
    parse (encodeObject members) = some (.object (members.map fun member => (quoteBody member.1, member.2.value))) := by
  rw [← render_flat]
  refine parse_render (.object ?_ ?_)
  · intro member listed
    obtain ⟨source, -, rfl⟩ := mem_map.mp listed
    exact quote_body_scanned _
  · intro member listed
    obtain ⟨source, inside, rfl⟩ := mem_map.mp listed
    exact written_scalar (sound source inside)

theorem unmarshal_numbers {numbers : List Nat} (small : ∀ number ∈ numbers, number < 2 ^ 64) :
    unmarshal [] (intoList 0 intoUint64) (encodeNumbers numbers) = some (numbers.map UInt64.ofNat) := by
  have each : ∀ item ∈ (numbers.map Scalar.number).map Scalar.value, Written item := by
    intro item listed
    obtain ⟨scalar, named, rfl⟩ := mem_map.mp listed
    obtain ⟨number, -, rfl⟩ := mem_map.mp named
    exact .natural number
  rw [unmarshal, encodeNumbers, ← render_scalars, parse_render_array each]
  exact into_numbers [] small

example : unmarshal [] (intoList 0 intoUint64) (encodeNumbers [3, 12]) = some [3, 12] := by decide

section Documents

variable {Target : Type} (bytes : Bytes)

def text : Value := .string (quoteBody bytes)

-- A slice that holds nothing is nil in the source, which is written as null.
def base64 : Value := if bytes = [] then .null else .string (quoteBody (Base64.encodeStd bytes))

def list (items : List Value) : Value := if items = [] then .null else .array items

def object (names : List String) (values : List Value) : Value :=
  .object ((names.zip values).map fun member => (quoteBody (utf8 member.1), member.2))

theorem written_text : Written (text bytes) := .string (quote_body_scanned bytes)

theorem written_base64 : Written (base64 bytes) := by
  unfold base64
  split
  · exact .null
  · exact .string (quote_body_scanned _)

theorem written_list (each : ∀ item ∈ items, Written item) : Written (list items) := by
  cases items with
  | nil => exact .null
  | cons item later => exact .array each

theorem written_object (names : List String) {values : List Value} (each : ∀ value ∈ values, Written value) : Written (object names values) := by
  have members : ∀ member ∈ (names.zip values).map fun member => (quoteBody (utf8 member.1), member.2), Scanned member.1 ∧ Written member.2 := by
    intro member listed
    obtain ⟨⟨name, value⟩, inside, rfl⟩ := mem_map.mp listed
    exact ⟨quote_body_scanned _, each value (of_mem_zip inside).2⟩
  exact .object (fun member listed => (members member listed).1) fun member listed => (members member listed).2

theorem into_text (current : Bytes) {bytes : Bytes} (valid : Utf8.Valid bytes) : intoText current (text bytes) = some bytes :=
  congrArg some (unquote_quote_body valid)

theorem into_base64 (current bytes : Bytes) : intoBytes current (base64 bytes) = some bytes := by
  unfold base64
  by_cases empty : bytes = []
  · rw [if_pos empty, empty]
    rfl
  · have ascii := Utf8.valid_small fun byte member => (Base64.encode_characters bytes byte member).2.2
    rw [if_neg empty]
    simp only [intoBytes, unquote_quote_body ascii, Base64.decode_encode_std]

theorem into_uint64 (current value : UInt64) : intoUint64 current (integer value.toNat) = some value := by
  have read := into_number current value.toNat_lt
  rwa [UInt64.ofNat_toNat] at read

theorem into_uint8 (current value : UInt8) : intoUint8 current (integer value.toNat) = some value := by
  have digits : (format value.toNat).all isDigit = true :=
    all_eq_true.mpr fun _ member => format_digits _ member
  simp only [integer, intoUint8, unsigned, digits, value_format, value.toNat_lt, and_self, if_true, Option.map_some, UInt8.ofNat_toNat]

theorem into_int64 (current value : Int64) : intoInt64 current (integer value.toInt) = some value := by
  have low := value.le_toInt
  have high := value.toInt_lt
  have digits : ∀ number, (format number).all isDigit = true := fun number =>
    all_eq_true.mpr fun _ member => format_digits _ member
  have same := Int64.ofInt_toInt value
  generalize value.toInt = number at low high same
  cases number with
  | ofNat magnitude =>
    have small : magnitude < 2 ^ 63 := by
      rw [Int.ofNat_eq_natCast] at high
      omega
    have unsigned' := format_unsigned magnitude []
    rw [append_nil] at unsigned'
    simp only [integer, intoInt64, signed, if_neg unsigned', unsigned, digits, value_format, small, and_self, if_true, Option.map_some, same]
  | negSucc less =>
    have small : less + 1 < 2 ^ 63 + 1 := by omega
    simp only [integer, intoInt64, signed, head?_cons, if_true, tail_cons, unsigned, digits, value_format, small, and_self, Option.map_some]
    exact congrArg some same

theorem into_items {zero : Target} {decoder : Decoder Target} {encode : Target → Value} {items : List Target}
    (each : ∀ item ∈ items, ∀ current, decoder current (encode item) = some item) (current : List Target) :
    intoItems zero decoder current (items.map encode) = some items := by
  induction items generalizing current with
  | nil => rfl
  | cons item later ih =>
    have first := each item mem_cons_self (current.headD zero)
    have rest := ih (forall_mem_cons.mp each).2 current.tail
    simp only [map_cons, intoItems, first, rest, Option.bind_eq_bind, Option.bind_some]
    rfl

theorem into_list {zero : Target} {decoder : Decoder Target} {encode : Target → Value} {items : List Target}
    (each : ∀ item ∈ items, ∀ current, decoder current (encode item) = some item) (current : List Target) :
    intoList zero decoder current (list (items.map encode)) = some items := by
  cases items with
  | nil => rfl
  | cons item later => exact into_items each current

theorem into_members {fields : List (Bytes × Decoder Target)} (distinct : (fields.map Prod.fst).Nodup) {chosen : Bytes × Decoder Target}
    (member : chosen ∈ fields) (ascii : ∀ byte ∈ chosen.1, byte < 128) (current : Target) (value : Value) :
    intoMembers fields current (quoteBody chosen.1, value) = chosen.2 current value := by
  have named : fieldOf (fields.map Prod.fst) chosen.1 = some chosen.1 := by
    have exact : (fields.map Prod.fst).find? (fun name => name = chosen.1) = some chosen.1 := by
      have found : ((fields.map Prod.fst).find? (fun name => name = chosen.1)).isSome :=
        find?_isSome.mpr ⟨chosen.1, mem_map_of_mem member, decide_eq_true rfl⟩
      obtain ⟨name, found⟩ := Option.isSome_iff_exists.mp found
      have same := find?_some found
      rw [found, of_decide_eq_true same]
    rw [fieldOf, exact]
    rfl
  have unique : fields.find? (fun field => field.1 = chosen.1) = some chosen := by
    have found : (fields.find? (fun field => field.1 = chosen.1)).isSome := find?_isSome.mpr ⟨chosen, member, decide_eq_true rfl⟩
    obtain ⟨other, found⟩ := Option.isSome_iff_exists.mp found
    have same := find?_some found
    rw [found, inj_on_of_nodup_map distinct (mem_of_find?_eq_some found) member (of_decide_eq_true same)]
  simp only [intoMembers, unquote_quote_body (Utf8.valid_small ascii), named, unique]

-- An object that names fields of the structure in some order is read by their decoders in that order.
theorem into_object {fields chosen : List (Bytes × Decoder Target)} (distinct : (fields.map Prod.fst).Nodup) (inside : chosen ⊆ fields)
    (ascii : (chosen.all fun field => field.1.all fun byte => byte < 128) = true) {names : List String} (named : names.map utf8 = chosen.map Prod.fst)
    (values : List Value) (current : Target) :
    intoStruct fields current (object names values) = (chosen.zip values).foldlM (fun current pair => pair.1.2 current pair.2) current := by
  have members : ((names.zip values).map fun member => (quoteBody (utf8 member.1), member.2)) =
      (chosen.zip values).map fun pair => (quoteBody pair.1.1, pair.2) := by
    have byName := congrArg (fun keys => (keys.zip values).map fun member => (quoteBody member.1, member.2)) named
    simp only [zip_map_left, map_map] at byName
    exact byName
  rw [object, members, intoStruct]
  have each : ∀ pair ∈ chosen.zip values, pair.1 ∈ fields ∧ ∀ byte ∈ pair.1.1, byte < 128 := by
    intro pair listed
    have member := (of_mem_zip listed).1
    exact ⟨inside member, fun byte inName => of_decide_eq_true (all_eq_true.mp (all_eq_true.mp ascii _ member) byte inName)⟩
  generalize chosen.zip values = pairs at each
  induction pairs generalizing current with
  | nil => rfl
  | cons pair later ih =>
    obtain ⟨member, small⟩ := each pair mem_cons_self
    rw [map_cons, foldlM_cons, foldlM_cons, into_members distinct member small]
    exact Option.bind_congr fun next _ => ih next (forall_mem_cons.mp each).2

end Documents

end Json
