import VexoConsensus.Consensus.BlockTree
import VexoConsensus.Lib.JsonText

namespace Vexo.Consensus

open ByteCodec Finality OrderedMap Rfc3339 List Json

inductive WALEventType where
  | proposal | vote | timeoutVote
  | other (name : GoString)
deriving DecidableEq

def WALEventType.text : WALEventType → GoString
  | .proposal => utf8 "proposal"
  | .vote => utf8 "vote"
  | .timeoutVote => utf8 "timeout_vote"
  | .other name => name

def WALEventType.read (name : GoString) : WALEventType :=
  if name = utf8 "proposal" then .proposal
  else if name = utf8 "vote" then .vote
  else if name = utf8 "timeout_vote" then .timeoutVote
  else .other name

-- The time is kept as its RFC 3339 text; nothing reads it back.
structure WALEvent where
  type : WALEventType
  time : Bytes
  validatorID : ValidatorID
  height : Height
  round : Round
  (blockHash highQC : GoString)
deriving DecidableEq

def WALEvent.zero : WALEvent := ⟨.other [], [], [], 0, 0, [], []⟩

inductive WALField where
  | type | time | validatorID | height | round | blockHash | highQC
deriving DecidableEq

def WALField.all : List WALField := [.type, .time, .validatorID, .height, .round, .blockHash, .highQC]

def WALField.name : WALField → Bytes
  | .type => utf8 "type"
  | .time => utf8 "time"
  | .validatorID => utf8 "validator_id"
  | .height => utf8 "height"
  | .round => utf8 "round"
  | .blockHash => utf8 "block_hash"
  | .highQC => utf8 "high_qc"

def omitEmpty (field : WALField) (present : Bool) (value : Json.Scalar) : List (WALField × Json.Scalar) :=
  if present then [(field, value)] else []

variable (event : WALEvent)

def WALEvent.members : List (WALField × Json.Scalar) :=
  [(.type, .text event.type.text), (.time, .verbatim event.time)] ++ (omitEmpty .validatorID (event.validatorID ≠ []) (.text event.validatorID) ++
    (omitEmpty .height (event.height ≠ 0) (.number event.height.toNat) ++
    (omitEmpty .round (event.round ≠ 0) (.number event.round.toNat) ++
    (omitEmpty .blockHash (event.blockHash ≠ []) (.text event.blockHash) ++
    omitEmpty .highQC (event.highQC ≠ []) (.text event.highQC)))))

-- json.Marshal of an event.
def WALEvent.marshal : Bytes := Json.encodeObject (event.members.map (Prod.map WALField.name id))

-- A key is compared exactly first, then without regard to case.
def WALField.named (key : Bytes) : Option WALField :=
  (WALField.all.find? fun field => field.name = key) <|>
    WALField.all.find? fun field => field.name = key.map fun byte => if 65 ≤ byte ∧ byte ≤ 90 then byte + 32 else byte

def readString (current : GoString) : Json.Value → Except Err GoString
  | .null => .ok current
  | .string raw => .ok (Json.unquote raw)
  | _ => .error .jsonType

def readUint64 (current : UInt64) : Json.Value → Except Err UInt64
  | .null => .ok current
  | .number text =>
    if text.all Decimal.isDigit ∧ Decimal.value text < 2 ^ 64 then .ok (UInt64.ofNat (Decimal.value text)) else .error .jsonType
  | _ => .error .jsonType

def readTime (current : Bytes) : Json.Value → Except Err Bytes
  | .null => .ok current
  | .string raw => if Rfc3339.accepts raw then .ok raw else .error .jsonType
  | _ => .error .jsonType

def WALEvent.set (value : Json.Value) : WALField → Except Err WALEvent
  | .type => (readString event.type.text value).map fun name => { event with type := .read name }
  | .time => (readTime event.time value).map fun time => { event with time }
  | .validatorID => (readString event.validatorID value).map fun validatorID => { event with validatorID }
  | .height => (readUint64 event.height value).map fun height => { event with height }
  | .round => (readUint64 event.round value).map fun round => { event with round }
  | .blockHash => (readString event.blockHash value).map fun blockHash => { event with blockHash }
  | .highQC => (readString event.highQC value).map fun highQC => { event with highQC }

def WALEvent.setMember (member : Bytes × Json.Value) : Except Err WALEvent :=
  match WALField.named (Json.unquote member.1) with
  | some field => event.set member.2 field
  | none => .ok event

-- json.Unmarshal into a zero event.
def WALEvent.unmarshal (line : Bytes) : Except Err WALEvent :=
  match Json.parse line with
  | none => .error .jsonSyntax
  | some .null => .ok .zero
  | some (.object members) => members.foldlM WALEvent.setMember .zero
  | some _ => .error .jsonType

def maxScanTokenSize : Nat := 64 * 1024

variable (file : Bytes)

-- bufio.ScanLines: the last line may lack its newline.
def scanLines : List Bytes :=
  let parts := file.splitOn 10
  if parts.getLast? = some [] then parts.dropLast else parts

def isSpace (byte : UInt8) : Bool := byte = 32 ∨ (9 ≤ byte ∧ byte ≤ 13)

def trimSpace (line : Bytes) : Bytes := (line.dropWhile isSpace).rdropWhile isSpace

def readEvents : List Bytes → Except Err (List WALEvent)
  | [] => .ok []
  | line :: rest =>
    if maxScanTokenSize ≤ line.length then .error .tokenTooLong
    else if trimSpace line = [] then readEvents rest
    else do
      let event ← WALEvent.unmarshal (trimSpace line)
      let events ← readEvents rest
      return event :: events

-- WAL.Replay of what the file holds; a file that does not exist holds nothing.
def replay : Except Err (List WALEvent) := readEvents (scanLines file)

abbrev SignedTable := Table (ValidatorID × Height × Round) GoString

structure WAL where
  file : Bytes
  (votes timeouts : SignedTable)
  closed : Bool

variable (wal : WAL)

def WAL.apply (event : WALEvent) : WAL :=
  match event.type with
  | .vote => { wal with votes := wal.votes.insert (event.validatorID, event.height, event.round) event.blockHash }
  | .timeoutVote => { wal with timeouts := wal.timeouts.insert (event.validatorID, event.height, event.round) event.highQC }
  | _ => wal

def openWAL : Except Err WAL := do
  let events ← replay file
  return events.foldl WAL.apply ⟨file, ∅, ∅, false⟩

-- How the write of one line and its sync end; after a crash the call never returns.
inductive Write where
  | synced
  | failed (kept : Nat)
  | crashed (kept : Nat)

abbrev Returned := Option (Except Err Unit)

def WAL.appendLocked (event : WALEvent) : Write → WAL × Returned
  | .synced => ({ wal with file := wal.file ++ (event.marshal ++ [10]) }, some (.ok ()))
  | .failed kept => ({ wal with file := wal.file ++ (event.marshal ++ [10]).take kept }, some (.error .writeFailed))
  | .crashed kept => ({ wal with file := wal.file ++ (event.marshal ++ [10]).take kept }, none)

def hashString (hash : Hash) : GoString := Hex.encode hash.bytes

def quorumCertFingerprint (qc : QuorumCert) : GoString :=
  Hex.encode (Json.encodeObject [(utf8 "height", .number qc.height.toNat), (utf8 "round", .number qc.round.toNat),
    (utf8 "block_hash", .text (hashString qc.blockHash))])

variable (now : Utc)

def proposalEvent (proposal : Proposal) : WALEvent :=
  ⟨.proposal, now.format, proposal.proposer, proposal.block.header.height, proposal.round, hashString (hashBlock proposal.block), []⟩

def voteEvent (vote : Vote) : WALEvent :=
  ⟨.vote, now.format, vote.validatorID, vote.height, vote.round, hashString vote.blockHash, []⟩

def timeoutEvent (vote : TimeoutVote) : WALEvent :=
  ⟨.timeoutVote, now.format, vote.validatorID, vote.height, vote.round, [], quorumCertFingerprint vote.highQC⟩

def WAL.recordProposal (proposal : Proposal) (write : Write) : WAL × Returned :=
  if wal.closed then (wal, some (.error .walClosed)) else wal.appendLocked (proposalEvent now proposal) write

def WAL.recordVote (vote : Vote) (write : Write) : WAL × Returned :=
  if wal.closed then (wal, some (.error .walClosed))
  else
    let blockHash := hashString vote.blockHash
    let key := (vote.validatorID, vote.height, vote.round)
    match (wal.votes.lookup key).filter fun previous => previous ≠ blockHash with
    | some previous => (wal, some (.error (.doubleSignDetected vote.validatorID vote.height vote.round previous blockHash)))
    | none => { wal with votes := wal.votes.insert key blockHash }.appendLocked (voteEvent now vote) write

def WAL.recordTimeoutVote (vote : TimeoutVote) (write : Write) : WAL × Returned :=
  if wal.closed then (wal, some (.error .walClosed))
  else
    let highQC := quorumCertFingerprint vote.highQC
    let key := (vote.validatorID, vote.height, vote.round)
    match (wal.timeouts.lookup key).filter fun previous => previous ≠ highQC with
    | some _ => (wal, some (.error (.timeoutDoubleSignDetected vote.validatorID vote.height vote.round)))
    | none => { wal with timeouts := wal.timeouts.insert key highQC }.appendLocked (timeoutEvent now vote) write

variable (validatorID : ValidatorID)

def WAL.recordedVote (height : Height) (round : Round) : Except Err (Option Hash) :=
  if wal.closed then .error .walClosed
  else
    match wal.votes.lookup (validatorID, height, round) with
    | none => .ok none
    | some encoded =>
      match Hex.decode encoded with
      | none => .error (.recordedVoteHash "")
      | some decoded =>
        if sized : decoded.length = 32 then .ok (some ⟨decoded, sized⟩) else .error (.recordedVoteHash "expected 32 bytes")

structure Storable : Prop where
  type : WALEventType.read event.type.text = event.type ∧ Utf8.Valid event.type.text
  time : ∃ now : Utc, event.time = now.format
  validatorID : Utf8.Valid event.validatorID
  blockHash : Utf8.Valid event.blockHash
  highQC : Utf8.Valid event.highQC
  fits : event.marshal.length < maxScanTokenSize

variable {event : WALEvent} (field : WALField)

theorem field_named : WALField.named (unquote (quoteBody field.name)) = some field := by
  cases field <;> decide +kernel

theorem read_uint64_number (current value : UInt64) : readUint64 current (Json.Scalar.number value.toNat).value = .ok value := by
  have digits : (Decimal.format value.toNat).all Decimal.isDigit = true :=
    all_eq_true.mpr fun _ member => Decimal.format_digits _ member
  have same := Decimal.value_format value.toNat
  rw [Json.Scalar.value, readUint64, if_pos ⟨digits, by rw [same]; exact value.toNat_lt⟩, same, UInt64.ofNat_toNat]

theorem read_string_text (current : GoString) {text : GoString} (valid : Utf8.Valid text) :
    readString current (Json.Scalar.text text).value = .ok text := by
  rw [Json.Scalar.value, readString, unquote_quote_body valid]

theorem omit_empty_member {field : WALField} {present : Bool} {value : Json.Scalar} {member : WALField × Json.Scalar}
    (listed : member ∈ omitEmpty field present value) : member = (field, value) := by
  unfold omitEmpty at listed
  split at listed
  · exact mem_singleton.mp listed
  · contradiction

theorem event_members_sound (stored : Storable event) : ∀ member ∈ event.members, member.2.Sound := by
  intro member listed
  simp only [WALEvent.members, mem_append, mem_cons, not_mem_nil, or_false] at listed
  rcases listed with (rfl | rfl) | omitted | omitted | omitted | omitted | omitted
  · trivial
  · obtain ⟨now, same⟩ := stored.time
    intro byte member
    rw [same] at member
    exact format_plain now member
  all_goals
    rw [omit_empty_member omitted]
    trivial

def setFields (event : WALEvent) (members : List (WALField × Json.Scalar)) : Except Err WALEvent :=
  members.foldlM (fun event member => event.set member.2.value member.1) event

theorem set_members_fields (members : List (WALField × Json.Scalar)) (event : WALEvent) :
    (members.map fun member => (quoteBody member.1.name, member.2.value)).foldlM WALEvent.setMember event = setFields event members := by
  rw [setFields, foldlM_map]
  congr 1
  funext event member
  rw [WALEvent.setMember, field_named]

theorem set_fields_append (event : WALEvent) (first second : List (WALField × Json.Scalar)) :
    setFields event (first ++ second) = (setFields event first).bind fun next => setFields next second :=
  foldlM_append

-- A field left out keeps its zero value, so it reads back as the value it was left out for.
theorem set_omit_empty {next : WALEvent} {field : WALField} {present : Bool} {value : Json.Scalar}
    (written : event.set value.value field = .ok next) (empty : present = false → next = event) :
    setFields event (omitEmpty field present value) = .ok next := by
  cases present with
  | true =>
    rw [omitEmpty, if_pos rfl, setFields, foldlM_cons, written]
    rfl
  | false =>
    rw [empty rfl]
    rfl

section

variable (stored : Storable event)
include stored

theorem set_event_members : setFields .zero event.members = .ok event := by
  obtain ⟨type, time, validatorID, height, round, blockHash, highQC⟩ := event
  obtain ⟨⟨known, typeValid⟩, ⟨now, rfl⟩, idValid, hashValid, certValid, -⟩ := stored
  have start : setFields .zero [(.type, .text type.text), (.time, .verbatim now.format)] = .ok ⟨type, now.format, [], 0, 0, [], []⟩ := by
    have typed : WALEvent.zero.set (Json.Scalar.text type.text).value .type = .ok ⟨type, [], [], 0, 0, [], []⟩ := by
      rw [WALEvent.set, read_string_text _ typeValid, Except.map, known]
      rfl
    have timed : (⟨type, [], [], 0, 0, [], []⟩ : WALEvent).set (Json.Scalar.verbatim now.format).value .time =
        .ok ⟨type, now.format, [], 0, 0, [], []⟩ := by
      rw [WALEvent.set, Json.Scalar.value, readTime, if_pos (accepts_format now)]
      rfl
    rw [setFields, foldlM_cons, typed]
    change (do let init ← WALEvent.set _ _ _; _) = _
    rw [timed]
    rfl
  have id : setFields ⟨type, now.format, [], 0, 0, [], []⟩ (omitEmpty .validatorID (validatorID ≠ []) (.text validatorID)) =
      .ok ⟨type, now.format, validatorID, 0, 0, [], []⟩ := by
    apply set_omit_empty
    · rw [WALEvent.set, read_string_text _ idValid]
      rfl
    · intro empty
      rw [of_not_not (of_decide_eq_false empty)]
  have heights : setFields ⟨type, now.format, validatorID, 0, 0, [], []⟩ (omitEmpty .height (height ≠ 0) (.number height.toNat)) =
      .ok ⟨type, now.format, validatorID, height, 0, [], []⟩ := by
    apply set_omit_empty
    · rw [WALEvent.set, read_uint64_number]
      rfl
    · intro empty
      rw [of_not_not (of_decide_eq_false empty)]
  have rounds : setFields ⟨type, now.format, validatorID, height, 0, [], []⟩ (omitEmpty .round (round ≠ 0) (.number round.toNat)) =
      .ok ⟨type, now.format, validatorID, height, round, [], []⟩ := by
    apply set_omit_empty
    · rw [WALEvent.set, read_uint64_number]
      rfl
    · intro empty
      rw [of_not_not (of_decide_eq_false empty)]
  have hashes : setFields ⟨type, now.format, validatorID, height, round, [], []⟩
      (omitEmpty .blockHash (blockHash ≠ []) (.text blockHash)) = .ok ⟨type, now.format, validatorID, height, round, blockHash, []⟩ := by
    apply set_omit_empty
    · rw [WALEvent.set, read_string_text _ hashValid]
      rfl
    · intro empty
      rw [of_not_not (of_decide_eq_false empty)]
  have certs : setFields ⟨type, now.format, validatorID, height, round, blockHash, []⟩
      (omitEmpty .highQC (highQC ≠ []) (.text highQC)) = .ok ⟨type, now.format, validatorID, height, round, blockHash, highQC⟩ := by
    apply set_omit_empty
    · rw [WALEvent.set, read_string_text _ certValid]
      rfl
    · intro empty
      rw [of_not_not (of_decide_eq_false empty)]
  simp only [WALEvent.members, set_fields_append, start, id, heights, rounds, hashes, certs, Except.bind]

theorem unmarshal_marshal : WALEvent.unmarshal event.marshal = .ok event := by
  have parsed := @parse_object (event.members.map (Prod.map WALField.name id)) (by
    intro member listed
    obtain ⟨source, sourceListed, rfl⟩ := mem_map.mp listed
    exact event_members_sound stored source sourceListed)
  rw [map_map] at parsed
  rw [WALEvent.unmarshal, WALEvent.marshal, parsed]
  exact (set_members_fields event.members .zero).trans (set_event_members stored)

theorem marshal_printable : ∀ byte ∈ event.marshal, 32 ≤ byte := by
  apply encode_object_printable
  intro member listed
  obtain ⟨source, sourceListed, rfl⟩ := mem_map.mp listed
  exact event_members_sound stored source sourceListed

end

theorem trim_marshal (event : WALEvent) : trimSpace event.marshal = event.marshal := by
  rw [trimSpace, WALEvent.marshal, encodeObject, cons_append, dropWhile_cons_of_neg (by decide), ← cons_append,
    rdropWhile_concat_neg _ _ _ (by decide)]

theorem scan_lines_written {lines : List Bytes} (whole : ∀ line ∈ lines, 10 ∉ line) : scanLines (lines.flatMap fun line => line ++ [10]) = lines := by
  have joined : lines.flatMap (fun line => line ++ [10]) = [10].intercalate (lines ++ [[]]) := by
    induction lines with
    | nil => rfl
    | cons line rest ih =>
      rw [flatMap_cons, ih fun later member => whole later (mem_cons_of_mem _ member)]
      cases rest <;> simp [intercalate_cons_cons]
  have split : (lines.flatMap fun line => line ++ [10]).splitOn 10 = lines ++ [[]] := by
    rw [joined]
    refine splitOn_intercalate 10 ?_ (by simp)
    intro line member
    rcases mem_append.mp member with listed | last
    · exact whole line listed
    · rw [mem_singleton.mp last]
      exact not_mem_nil
  rw [scanLines, split]
  simp

variable {events : List WALEvent}

theorem read_events_written (stored : ∀ event ∈ events, Storable event) : readEvents (events.map WALEvent.marshal) = .ok events := by
  induction events with
  | nil => rfl
  | cons event rest ih =>
    have first := stored event mem_cons_self
    have nonempty : event.marshal ≠ [] := cons_ne_nil _ _
    rw [map_cons, readEvents, trim_marshal, if_neg (Nat.not_le.mpr first.fits), if_neg nonempty, unmarshal_marshal first,
      ih fun later member => stored later (mem_cons_of_mem _ member)]
    rfl

def written (events : List WALEvent) : Bytes := events.flatMap fun event => event.marshal ++ [10]

theorem replay_written (stored : ∀ event ∈ events, Storable event) : replay (written events) = .ok events := by
  have lines : written events = (events.map WALEvent.marshal).flatMap fun line => line ++ [10] := by
    rw [flatMap_map]
    rfl
  rw [replay, lines, scan_lines_written, read_events_written stored]
  intro line member newline
  obtain ⟨event, listed, rfl⟩ := mem_map.mp member
  exact absurd (marshal_printable (stored event listed) 10 newline) (by decide)

theorem decimal_length (value : UInt64) : (Decimal.format value.toNat).length ≤ 20 := by
  unfold Decimal.format
  split
  · decide
  · rw [length_map, length_reverse, Nat.digits_length_le_iff (by omega)]
    exact Nat.lt_of_lt_of_le value.toNat_lt (by norm_num)

theorem text_length {text : GoString} (valid : Utf8.Valid text) : (Json.Scalar.text text).encode.length ≤ 6 * text.length + 2 := by
  have body := quote_body_length valid
  simp only [Json.Scalar.encode, length_append, length_cons, length_nil]
  omega

theorem number_length (value : UInt64) : (Json.Scalar.number value.toNat).encode.length ≤ 20 := decimal_length value

variable (members : List (Bytes × Json.Scalar))

def memberCost : Nat := (members.map fun member => (Json.encodeMember member).length + 1).sum

theorem encode_object_length : (encodeObject members).length ≤ memberCost members + 2 := by
  have joined := intercalate_length_le 44 (members.map encodeMember)
  rw [map_map] at joined
  simp only [encodeObject, memberCost, length_append, length_cons, length_nil, Function.comp_def] at joined ⊢
  omega

theorem field_name_length : (quoteBody field.name).length ≤ 12 := by
  cases field <;> with_unfolding_all decide

theorem omit_empty_cost (present : Bool) (value : Json.Scalar) :
    memberCost ((omitEmpty field present value).map (Prod.map WALField.name id)) ≤ value.encode.length + 16 := by
  have name := field_name_length field
  unfold omitEmpty
  split
  · simp only [memberCost, map_cons, map_nil, sum_cons, sum_nil, Prod.map_apply, encodeMember, id, length_append, length_cons]
    omega
  · exact Nat.zero_le _

theorem member_cost_append (first second : List (WALField × Json.Scalar)) : memberCost ((first ++ second).map (Prod.map WALField.name id)) =
      memberCost (first.map (Prod.map WALField.name id)) + memberCost (second.map (Prod.map WALField.name id)) := by
  simp [memberCost]

structure ShortFields (event : WALEvent) : Prop where
  type : event.type = .proposal ∨ event.type = .vote ∨ event.type = .timeoutVote
  time : ∃ now : Utc, event.time = now.format
  validatorID : Utf8.Valid event.validatorID ∧ event.validatorID.length ≤ 8192
  blockHash : Utf8.Valid event.blockHash ∧ event.blockHash.length ≤ 64
  highQC : Utf8.Valid event.highQC ∧ event.highQC.length ≤ 1000

theorem storable_of_short (short : ShortFields event) : Storable event := by
  have type : WALEventType.read event.type.text = event.type ∧ (event.type.text.all fun byte => byte < 128) = true ∧ event.type.text.length ≤ 12 := by
    rcases short.type with same | same | same <;> rw [same] <;> with_unfolding_all decide
  have typeValid := Utf8.valid_ascii type.2.1
  obtain ⟨now, time⟩ := short.time
  refine ⟨⟨type.1, typeValid⟩, ⟨now, time⟩, short.validatorID.1, short.blockHash.1, short.highQC.1, ?_⟩
  have typeLength := text_length typeValid
  have timeLength := format_length now
  have idLength := text_length short.validatorID.1
  have hashLength := text_length short.blockHash.1
  have certLength := text_length short.highQC.1
  have heightLength := number_length event.height
  have roundLength := number_length event.round
  have object := encode_object_length (event.members.map (Prod.map WALField.name id))
  have first : [(WALField.type, Json.Scalar.text event.type.text), (.time, .verbatim event.time)] =
      omitEmpty .type true (.text event.type.text) ++ omitEmpty .time true (.verbatim event.time) := rfl
  have costs := fun field present value => omit_empty_cost field present value
  rw [WALEvent.members, first, append_assoc] at object
  simp only [member_cost_append] at object
  have written : (Json.Scalar.verbatim event.time).encode.length ≤ 32 := by
    rw [time, Json.Scalar.encode, length_append, length_cons, length_singleton]
    omega
  have typeCost := costs .type true (.text event.type.text)
  have timeCost := costs .time true (.verbatim event.time)
  have idCost := costs .validatorID (event.validatorID ≠ []) (.text event.validatorID)
  have heightCost := costs .height (event.height ≠ 0) (.number event.height.toNat)
  have roundCost := costs .round (event.round ≠ 0) (.number event.round.toNat)
  have hashCost := costs .blockHash (event.blockHash ≠ []) (.text event.blockHash)
  have certCost := costs .highQC (event.highQC ≠ []) (.text event.highQC)
  have idShort := short.validatorID.2
  have hashShort := short.blockHash.2
  have certShort := short.highQC.2
  have typeShort := type.2.2
  rw [WALEvent.marshal, WALEvent.members, first, append_assoc, maxScanTokenSize]
  omega

theorem hash_string_short (hash : Hash) : Utf8.Valid (hashString hash) ∧ (hashString hash).length ≤ 64 := by
  refine ⟨Utf8.valid_small fun _ member => Hex.encode_small member, ?_⟩
  rw [hashString, Hex.encode_length, hash.size]

theorem fingerprint_short (qc : QuorumCert) : Utf8.Valid (quorumCertFingerprint qc) ∧ (quorumCertFingerprint qc).length ≤ 1000 := by
  refine ⟨Utf8.valid_small fun _ member => Hex.encode_small member, ?_⟩
  have hash := text_length (hash_string_short qc.blockHash).1
  have hashShort := (hash_string_short qc.blockHash).2
  have height := number_length qc.height
  have round := number_length qc.round
  have names : (quoteBody (utf8 "height")).length = 6 ∧ (quoteBody (utf8 "round")).length = 5 ∧ (quoteBody (utf8 "block_hash")).length = 10 := by
    with_unfolding_all decide
  have object := encode_object_length [(utf8 "height", .number qc.height.toNat), (utf8 "round", .number qc.round.toNat),
    (utf8 "block_hash", .text (hashString qc.blockHash))]
  simp only [memberCost, map_cons, map_nil, sum_cons, sum_nil, encodeMember, length_append, length_cons, names] at object
  rw [quorumCertFingerprint, Hex.encode_length]
  omega

theorem empty_short : Utf8.Valid ([] : GoString) := ⟨[], rfl⟩

def ShortID : Prop := Utf8.Valid validatorID ∧ validatorID.length ≤ 8192

variable (now : Utc)

theorem proposal_event_storable {proposal : Proposal} (short : ShortID proposal.proposer) : Storable (proposalEvent now proposal) :=
  storable_of_short ⟨.inl rfl, ⟨now, rfl⟩, short, hash_string_short _, empty_short, Nat.zero_le _⟩

theorem vote_event_storable {vote : Vote} (short : ShortID vote.validatorID) : Storable (voteEvent now vote) :=
  storable_of_short ⟨.inr (.inl rfl), ⟨now, rfl⟩, short, hash_string_short _, empty_short, Nat.zero_le _⟩

theorem timeout_event_storable {vote : TimeoutVote} (short : ShortID vote.validatorID) : Storable (timeoutEvent now vote) :=
  storable_of_short ⟨.inr (.inr rfl), ⟨now, rfl⟩, short, ⟨empty_short, Nat.zero_le _⟩, fingerprint_short _⟩

theorem hash_string_injective {left right : Hash} (same : hashString left = hashString right) : left = right := by
  have bytes := Hex.encode_injective same
  cases left
  cases right
  cases bytes
  rfl

theorem fingerprint_injective {left right : QuorumCert} (same : quorumCertFingerprint left = quorumCertFingerprint right) :
    left.height = right.height ∧ left.round = right.round ∧ left.blockHash = right.blockHash := by
  have number : ∀ first second : UInt64, Decimal.format first.toNat = Decimal.format second.toNat → first = second := by
    intro first second equal
    apply UInt64.toNat_inj.mp
    rw [← Decimal.value_format first.toNat, equal, Decimal.value_format]
  have parsed := fun qc : QuorumCert => @parse_object [(utf8 "height", .number qc.height.toNat),
    (utf8 "round", .number qc.round.toNat), (utf8 "block_hash", .text (hashString qc.blockHash))] (by simp [Json.Scalar.Sound])
  have objects := (parsed left).symm.trans ((congrArg parse (Hex.encode_injective same)).trans (parsed right))
  simp only [Option.some.injEq, Json.Value.object.injEq, map_cons, map_nil, List.cons.injEq, Prod.mk.injEq, true_and, and_true,
    Json.Scalar.value, Json.Value.number.injEq, Json.Value.string.injEq] at objects
  obtain ⟨height, round, hash⟩ := objects
  have quoted := congrArg unquote hash
  rw [unquote_quote_body (hash_string_short _).1, unquote_quote_body (hash_string_short _).1] at quoted
  exact ⟨number _ _ height, number _ _ round, hash_string_injective quoted⟩

end Vexo.Consensus
