import VexoConsensus.DataAvailability.Layout

namespace Vexo.DataAvailability

open ByteCodec Checks OrderedMap List BigEndian AList

section

section Ordered

theorem order_chunks_indices {dataByIndex : Table UInt64 Bytes} {count : Nat} {start : UInt64} {ordered : List Chunk}
    (done : orderChunks dataByIndex count start = .ok ordered) :
    ordered.map Chunk.index = (range count).map fun offset => start + UInt64.ofNat offset := by
  induction count generalizing start ordered with
  | zero =>
    cases done
    rfl
  | succ count ih =>
    unfold orderChunks at done
    split at done
    · cases done
    · next data found =>
      simp only [bind_ok_iff] at done
      obtain ⟨later, rest, made⟩ := done
      cases made
      rw [range_succ_eq_map, map_cons, map_cons, ih rest, map_map]
      refine congrArg₂ List.cons (UInt64.add_zero start).symm (map_congr_left fun offset _ => ?_)
      rw [Function.comp_apply, Nat.succ_eq_add_one, UInt64.ofNat_add, UInt64.add_assoc, UInt64.add_comm 1]
      rfl

variable {proof : Proof} {chunks parity ordered : List Chunk}

theorem recover_chunks_ordered (recovered : recoverChunks proof chunks parity = .ok ordered) :
    proof.chunkCount ≠ 0 ∧ ordered.map Chunk.index = (range proof.chunkCount.toNat).map UInt64.ofNat := by
  simp only [recoverChunks, ok_iff] at recovered
  obtain ⟨⟨-, counted, -⟩, -, -, -, table, -, sets, -, full, -, _, -, done⟩ := recovered
  refine ⟨counted, (order_chunks_indices done).trans (map_congr_left fun offset _ => ?_)⟩
  exact UInt64.zero_add _

theorem range_indices_sorted (count : Nat) (small : count ≤ 2 ^ 64) : ((range count).map UInt64.ofNat).Pairwise (· < ·) := by
  rw [pairwise_map]
  refine pairwise_lt_range.imp_of_mem fun {first second} firstIn secondIn less => ?_
  rw [mem_range] at firstIn secondIn
  rw [UInt64.lt_iff_toNat_lt, UInt64.toNat_ofNat', UInt64.toNat_ofNat']
  omega

theorem ordered_strictly {count : Nat} (small : count ≤ 2 ^ 64) (indices : ordered.map Chunk.index = (range count).map UInt64.ofNat) :
    ordered.Pairwise fun first second => first.index < second.index := by
  have sorted := range_indices_sorted count small
  rw [← indices, pairwise_map] at sorted
  exact sorted

theorem chunk_root_sorted (sorted : ordered.Pairwise fun first second => first.index < second.index) :
    chunkRoot ordered = merkleRoot (ordered.map chunkLeaf) := by
  have same : ordered.insertionSort (fun first second => first.index ≤ second.index) = ordered :=
    Pairwise.insertionSort_eq (sorted.imp fun less => UInt64.le_of_lt less)
  rw [chunkRoot, chunkLeaves, same]

end Ordered

variable {txs : List Tx}

theorem decode_txs_encoded {count : Nat} {data : Bytes} (decoded : decodeTxs count data = .ok txs) :
    txs.length = count ∧ data = encodeBody txs ∧ ∀ tx ∈ txs, tx.length < 2 ^ 64 := by
  induction count generalizing data txs with
  | zero =>
    simp only [decodeTxs, ok_iff] at decoded
    obtain ⟨rfl, done⟩ := decoded
    cases done
    exact ⟨rfl, rfl, by simp⟩
  | succ count ih =>
    simp only [decodeTxs, ok_iff] at decoded
    obtain ⟨long, enough, later, rest, done⟩ := decoded
    cases done
    obtain ⟨length, encoded, small⟩ := ih rest
    have field : (data.take 8).length = 8 := by
      rw [length_take]
      omega
    have size := value_lt (data.take 8)
    rw [field] at size
    have taken : ((data.drop 8).take (value (data.take 8))).length = value (data.take 8) := by
      rw [length_take]
      omega
    refine ⟨by rw [length_cons, length], ?_, forall_mem_cons.mpr ⟨by rw [taken]; omega, small⟩⟩
    rw [encodeBody] at encoded
    rw [encodeBody, flatMap_cons, ← encoded, taken, put_uint64_value field, append_assoc, take_append_drop, take_append_drop]

theorem decode_body (small : ∀ tx ∈ txs, tx.length < 2 ^ 64) : decodeTxs txs.length (encodeBody txs) = .ok txs := by
  induction txs with
  | nil => rfl
  | cons tx later ih =>
    rw [forall_mem_cons] at small
    have length := put_uint64_length (UInt64.ofNat tx.length)
    have body : encodeBody (tx :: later) = putUint64 (UInt64.ofNat tx.length) ++ (tx ++ encodeBody later) := by
      rw [encodeBody, flatMap_cons, append_assoc, ← encodeBody]
    have size : value (putUint64 (UInt64.ofNat tx.length)) = tx.length := by
      rw [value_put_uint64, UInt64.toNat_ofNat', Nat.mod_eq_of_lt small.1]
    rw [length_cons, decodeTxs, body, take_left' length, drop_left' length, size]
    simp only [take_left, drop_left, ih small.2]
    refine require_bind ?_ (require_bind ?_ rfl)
    · rw [length_append, length]
      omega
    · rw [length_append]
      omega

theorem decode_encoding (sized : Encodable txs) (fits : txs.length * 24 ≤ maxAlloc) : decodeTransactions (encodeTransactions txs) = .ok txs := by
  have length := put_uint64_length (UInt64.ofNat txs.length)
  have body : encodeTransactions txs = putUint64 (UInt64.ofNat txs.length) ++ encodeBody txs := rfl
  have count : value (putUint64 (UInt64.ofNat txs.length)) = txs.length := by
    rw [value_put_uint64, UInt64.toNat_ofNat']
    unfold maxAlloc at fits
    omega
  rw [decodeTransactions, body, take_left' length, drop_left' length, count]
  refine require_bind ?_ (require_bind fits (decode_body (encodable_tx sized)))
  rw [length_append, length]
  omega

theorem decode_encoded {data : Bytes} (decoded : decodeTransactions data = .ok txs) :
    data = encodeTransactions txs ∧ txs.length < 2 ^ 64 ∧ ∀ tx ∈ txs, tx.length < 2 ^ 64 := by
  simp only [decodeTransactions, ok_iff] at decoded
  obtain ⟨long, _, -, decoded⟩ := decoded
  obtain ⟨length, body, small⟩ := decode_txs_encoded decoded
  have field : (data.take 8).length = 8 := by
    rw [length_take]
    omega
  have count := value_lt (data.take 8)
  rw [field] at count
  refine ⟨?_, by omega, small⟩
  rw [encodeBody] at body
  rw [encodeTransactions, ← body, length, put_uint64_value field, take_append_drop]

theorem decode_transactions_iff (data : Bytes) (sized : data.length < 2 ^ 63) (txs : List Tx) : decodeTransactions data = .ok txs ↔
    data = encodeTransactions txs ∧ txs.length * 24 ≤ maxAlloc := by
  constructor
  · intro decoded
    refine ⟨(decode_encoded decoded).1, ?_⟩
    simp only [decodeTransactions, allocate, ok_iff] at decoded
    obtain ⟨-, fits, decoded⟩ := decoded
    rwa [← (decode_txs_encoded decoded).1] at fits
  · rintro ⟨rfl, fits⟩
    exact decode_encoding sized fits

theorem two_txs_decoded : decodeTransactions (encodeTransactions [[97], [98]]) = .ok [[97], [98]] :=
  (decode_transactions_iff _ (by decide) _).mpr ⟨rfl, by decide⟩

def recoveryMessages (proof : Proof) (chunks parity : List Chunk) : Set Bytes :=
  {message | ∃ ordered, recoverChunks proof chunks parity = .ok ordered ∧ message ∈ chunkMessages ordered}

theorem recovery_never_lies (txs : List Tx) (sized : Encodable txs) (proof : Proof) (committed : proof.commitment = commitment txs)
    (chunks parity : List Chunk)
    (collisionFree : Sha256.CollisionFree {message | message ∈ commitmentMessages txs ∨ message ∈ recoveryMessages proof chunks parity})
    (result : List Tx) (recovered : recoverTransactions proof chunks parity = .ok result) : result = txs := by
  simp only [recoverTransactions, recoverData, ok_iff] at recovered
  obtain ⟨data, ⟨ordered, given, root, _, -, cut⟩, decoded⟩ := recovered
  obtain ⟨counted, indices⟩ := recover_chunks_ordered given
  have sorted := ordered_strictly (Nat.le_of_lt proof.chunkCount.toNat_lt) indices
  have present : ordered ≠ [] := by
    rintro rfl
    have length := congrArg length indices
    simp only [map_nil, length_nil, length_map, length_range] at length
    exact counted (UInt64.toNat_inj.mp length.symm)
  have distinct : ordered.Nodup := sorted.imp fun {first second} less (same : first = second) => UInt64.lt_irrefl _ (same ▸ less)
  rw [chunk_root_sorted sorted, committed] at root
  have same : ordered = chunksOf txs :=
    chunk_list_binding collisionFree present (chunks_present txs) distinct (chunks_distinct sized) (fun message listed => .inr ⟨ordered, given, listed⟩)
      (fun message listed => .inl (commitment_messages_eq txs ▸ listed)) root
  rw [same, chunks_encode] at cut
  cases cut
  obtain ⟨encoded, count, small⟩ := decode_encoded decoded
  have txCount := txs_length_le txs
  have body := encodable_body sized
  have whole := take_append_drop proof.encodedSize.toNat
    (encodeTransactions txs ++ replicate (proof.encodedSize.toNat - (encodeTransactions txs).length) 0)
  rw [encoded] at whole
  exact encode_txs_prefix count (by omega) small (encodable_tx sized) whole

-- One chunk is the whole data; the fields beside the commitment are a caller's.
theorem lone_chunk_recovered : ∃ result, recoverTransactions ⟨commitment [[97, 98]], 0, 0, 18, 1024, 1, 1, 2, 0⟩ (chunksOf [[97, 98]]) [] = .ok result ∧
    result = [[97, 98]] := by
  have ordered : recoverChunks ⟨commitment [[97, 98]], 0, 0, 18, 1024, 1, 1, 2, 0⟩ (chunksOf [[97, 98]]) [] = .ok (chunksOf [[97, 98]]) := by
    decide
  obtain ⟨result, recovered⟩ := exists_of_is_ok (show (recoverTransactions ⟨commitment [[97, 98]], 0, 0, 18, 1024, 1, 1, 2, 0⟩
    (chunksOf [[97, 98]]) []).isOk = true by decide +kernel)
  have messages : commitmentMessages [[97, 98]] = (chunksOf [[97, 98]]).map leafMessage := by rw [commitment_messages_eq]; rfl
  have single : ∀ message, (message ∈ commitmentMessages [[97, 98]] ∨
      message ∈ recoveryMessages ⟨commitment [[97, 98]], 0, 0, 18, 1024, 1, 1, 2, 0⟩ (chunksOf [[97, 98]]) []) →
      message ∈ (chunksOf [[97, 98]]).map leafMessage := by
    rintro message (listed | ⟨found, given, listed⟩)
    · exact messages ▸ listed
    · obtain rfl := Except.ok.inj (ordered.symm.trans given)
      exact messages ▸ (commitment_messages_eq _ ▸ listed)
  refine ⟨result, recovered, recovery_never_lies _ (show (encodeTransactions [[97, 98]]).length < 2 ^ 63 by decide) _ rfl _ _ ?_ _ recovered⟩
  intro first firstIn second secondIn _
  exact (mem_singleton.mp (single first firstIn)).trans (mem_singleton.mp (single second secondIn)).symm

end

-- The places of a group, counted from its start, that no chunk was given for.
def absentOffsets (proof : Proof) (table : Table UInt64 Bytes) (group : UInt64) : List Nat :=
  (List.range ((groupStop proof (group * proof.dataShards)).toNat - (group * proof.dataShards).toNat)).filter fun offset =>
    (table.lookup (group * proof.dataShards + UInt64.ofNat offset)).isNone

section Group

variable (proof : Proof) (table : Table UInt64 Bytes) (group : UInt64)

theorem absent_lt : ∀ offset ∈ absentOffsets proof table group, offset < proof.dataShards.toNat := by
  intro offset listed
  have inside := mem_range.mp (mem_filter.mp listed).1
  have sum : (group * proof.dataShards + proof.dataShards).toNat ≤ (group * proof.dataShards).toNat + proof.dataShards.toNat := by
    rw [UInt64.toNat_add]
    exact Nat.mod_le _ _
  rw [groupStop] at inside
  split at inside
  · next past =>
      have shorter := UInt64.lt_iff_toNat_lt.mp past
      omega
  · omega

theorem missing_absent : missingIn proof table group =
    (absentOffsets proof table group).map fun offset => group * proof.dataShards + UInt64.ofNat offset := by
  rw [missingIn, indicesFrom, filter_map]
  rfl

theorem equation_absent (paritySet : Table UInt64 Bytes) (shard : UInt64) :
    ∃ right, equationRow (group * proof.dataShards) proof.chunkSize.toNat (missingIn proof table group)
      ((indicesFrom (group * proof.dataShards) (groupStop proof (group * proof.dataShards))).filter fun index => index ∉ missingIn proof table group)
      table paritySet shard = .ok (powerRow (absentOffsets proof table group) shard, right) := by
  have row : (missingIn proof table group).map (fun index => gfPow (UInt8.ofNat (shard + 1).toNat) (index - group * proof.dataShards)) =
      powerRow (absentOffsets proof table group) shard := by
    rw [missing_absent, map_map]
    refine map_congr_left fun offset _ => ?_
    rw [Function.comp_apply, UInt64.add_comm (group * _), UInt64.add_sub_cancel]
    rfl
  rw [equationRow, row]
  refine ⟨_, bind_ok (@map_ok_of_forall _ _ _ _ (fun index => (index - group * proof.dataShards, (table.lookup index).getD [])) _
    fun index listed => ?_) rfl⟩
  obtain ⟨inGroup, kept⟩ := mem_filter.mp listed
  cases found : table.lookup index with
  | some data => rfl
  | none => simp [missingIn, inGroup, found] at kept

end Group

def Invertible (dataShards parityShards : UInt64) : Prop :=
  ∀ (missing : List Nat) (shards : List UInt64), missing ≠ [] → missing.Pairwise (· < ·) → shards.Pairwise (· < ·) →
    shards.length = missing.length → (∀ offset ∈ missing, offset < dataShards.toNat) → (∀ shard ∈ shards, shard < parityShards) →
    Inverted missing.length (shards.map (powerRow missing))

def Recoverable (dataShards parityShards : UInt64) : Prop :=
  ∀ (proof : Proof) (sets : Table UInt64 (Table UInt64 Bytes)) (table : Table UInt64 Bytes) (group : UInt64), proof.dataShards = dataShards →
    (∀ shard ∈ ((sets.lookup group).getD ∅).keys, shard < parityShards) →
    (missingIn proof table group).length ≤ ((sets.lookup group).getD ∅).entries.length →
    ∃ next, recoverGroup proof parityShards sets table group = .ok next

theorem invertible_of_narrow {dataShards parityShards : UInt64} (accepted : checkShards dataShards parityShards = .ok ())
    (narrow : parityShards ≤ 2 ∨ dataShards ≤ 3) : Invertible dataShards parityShards := by
  intro missing shards some_missing rising sorted count inData inParity
  simp only [checkShards, ok_iff] at accepted
  obtain ⟨⟨-, fewData⟩, -, fewParity⟩ := accepted
  refine coefficients_invert some_missing ⟨rising, fun offset listed => (inData offset listed).trans_le (UInt64.le_iff_toNat_le.mp fewData), sorted,
    fun shard listed => UInt64.lt_of_lt_of_le (inParity shard listed) fewParity, count, narrow.imp ?_ ?_⟩
  · exact fun two shard listed => UInt64.lt_of_lt_of_le (inParity shard listed) two
  · exact fun three offset listed => (inData offset listed).trans_le (UInt64.le_iff_toNat_le.mp three)

theorem recoverable_of_invertible {dataShards parityShards : UInt64} (invertible : Invertible dataShards parityShards) :
    Recoverable dataShards parityShards := by
  rintro proof sets table group rfl known enough
  rw [recoverGroup]
  split
  · exact ⟨table, rfl⟩
  · next some_missing =>
    obtain ⟨count, inKeys, sorted⟩ := sorted_parity_shards _ enough
    have listed := missing_absent proof table group
    have some_absent : absentOffsets proof table group ≠ [] := fun none => some_missing (by rw [listed, none, map_nil])
    obtain ⟨inverse, inverted, -⟩ := invertible _ _ some_absent (pairwise_lt_range.filter _) sorted (count.trans (by rw [listed, length_map]))
      (absent_lt proof table group) fun shard chosen => known shard (inKeys shard chosen)
    choose right rows using equation_absent proof table group ((sets.lookup group).getD ∅)
    have recovered := recovered_rows enough (fun shard _ => rows shard) inverted
    exact ⟨_, require_bind (enough.trans (shards_bounded known)) (require_bind enough (bind_ok recovered rfl))⟩

-- With three parity points and four data places, the points 1, 2 and 3 add up to zero, which the powers 0, 1 and 3 do not separate.
theorem parity_invertible_iff (dataShards parityShards : UInt64) (accepted : checkShards dataShards parityShards = .ok ()) :
    Invertible dataShards parityShards ∧ Recoverable dataShards parityShards ↔ parityShards ≤ 2 ∨ dataShards ≤ 3 := by
  constructor
  · intro both
    by_contra wide
    rw [not_or, UInt64.not_le, UInt64.not_le] at wide
    have far : 3 < dataShards.toNat := UInt64.lt_iff_toNat_lt.mp wide.2
    have inData : ∀ offset ∈ [0, 1, 3], offset < dataShards.toNat := by
      simp only [forall_mem_cons, not_mem_nil, false_implies, implies_true, and_true]
      omega
    obtain ⟨inverse, inverted, -⟩ := both.1 [0, 1, 3] [0, 1, 2] (by simp) (by decide) (by decide) rfl inData (by grind)
    have singular : invertMatrix ([0, 1, 2].map (powerRow [0, 1, 3])) = .error .insufficientChunks := by decide +kernel
    rw [singular] at inverted
    cases inverted
  · intro narrow
    have invertible := invertible_of_narrow accepted narrow
    exact ⟨invertible, recoverable_of_invertible invertible⟩

-- Three lost chunks of four, with three parity chunks of the group at hand.
theorem three_lost_of_four :
    let zero : Bytes := [0, 0, 0, 0]
    let parity : Table UInt64 Bytes := ((AList.insert 0 zero ∅).insert 1 zero).insert 2 zero
    let kept : Table UInt64 Bytes := AList.insert 2 zero ∅
    checkShards 4 3 = .ok () ∧ missingIn ⟨zeroHash, 0, 0, 16, 4, 4, 4, 3, 3⟩ kept 0 = [0, 1, 3] ∧
      recoverGroup ⟨zeroHash, 0, 0, 16, 4, 4, 4, 3, 3⟩ 3 (AList.insert 0 parity ∅) kept 0 = .error .insufficientChunks := by
  refine ⟨rfl, ?_, ?_⟩ <;> decide +kernel

theorem wide_group_with_two : Invertible 255 2 ∧ Recoverable 255 2 := (parity_invertible_iff 255 2 rfl).mpr (.inl (by decide))

variable {sets : Table UInt64 (Table UInt64 Bytes)}

section Run

variable {data : Bytes} {proof : Proof} (layout : Layout data proof) {present : UInt64 → Prop} [DecidablePred present]
include layout
variable {table : Table UInt64 Bytes}

theorem missing_in_length {group : Nat} (inside : group < (parityGroupCount proof.chunkCount proof.dataShards).toNat)
    (holds : Holds data proof (fun index => present index ∨ index < proof.chunkCount ∧ index.toNat / proof.dataShards.toNat < group) table) :
    (missingIn proof table (UInt64.ofNat group)).length = (missingOffsets data proof present group).length := by
  rw [missing_offsets layout inside holds, length_map, missingOffsets]
  refine congrArg length (filter_congr fun offset listed => decide_eq_decide.mpr (not_congr ⟨fun found => ?_, .inl⟩))
  have own := ((in_group_iff layout inside _).mp (mem_map_of_mem listed)).2
  exact found.resolve_right fun earlier => Nat.ne_of_lt earlier.2 own

theorem recover_groups_hold {given : UInt64 → UInt64 → Prop} (kept : Parities data proof given sets)
    (small : ∀ group shard, given group shard → shard = 0 ∨ shard = 1)
    (enough : ∀ group < (parityGroupCount proof.chunkCount proof.dataShards).toNat,
      (missingOffsets data proof present group).length ≤ ((sets.lookup (UInt64.ofNat group)).getD ∅).entries.length)
    {count group : Nat} (bound : group + count ≤ (parityGroupCount proof.chunkCount proof.dataShards).toNat)
    (holds : Holds data proof (fun index => present index ∨ index < proof.chunkCount ∧ index.toNat / proof.dataShards.toNat < group) table) :
    ∃ next, recoverGroups proof defaultParityShards sets count (UInt64.ofNat group) table = .ok next ∧
      Holds data proof (fun index => present index ∨ index < proof.chunkCount ∧ index.toNat / proof.dataShards.toNat < group + count) next := by
  induction count generalizing group table with
  | zero => exact ⟨table, rfl, holds⟩
  | succ count ih =>
    have inside : group < (parityGroupCount proof.chunkCount proof.dataShards).toNat := by omega
    obtain ⟨next, recovered, holds⟩ := recover_group_holds layout inside holds kept small
      ((missing_in_length layout inside holds).trans_le (enough group inside))
    have merged : Holds data proof
        (fun index => present index ∨ index < proof.chunkCount ∧ index.toNat / proof.dataShards.toNat < group + 1) next :=
      holds_congr holds fun index => by rw [Nat.lt_succ_iff_lt_or_eq]; tauto
    obtain ⟨last, later, holds⟩ := ih (by omega) merged
    refine ⟨last, bind_ok recovered ?_, ?_⟩
    · rw [← later, UInt64.ofNat_add]
      rfl
    · rw [show group + (count + 1) = group + 1 + count by omega]
      exact holds

omit layout in
theorem order_chunks_done {count start : Nat} {value : Nat → Bytes}
    (found : ∀ index, start ≤ index → index < start + count → table.lookup (UInt64.ofNat index) = some (value index)) :
    orderChunks table count (UInt64.ofNat start) = .ok ((range' start count).map fun index => ⟨UInt64.ofNat index, value index⟩) := by
  induction count generalizing start with
  | zero => rfl
  | succ count ih =>
    have rest := @ih (start + 1) fun index after before => found index (by omega) (by omega)
    rw [UInt64.ofNat_add] at rest
    rw [orderChunks, found start (Nat.le_refl _) (by omega)]
    exact bind_ok rest (by rw [range'_succ, map_cons]; rfl)

omit [DecidablePred present] in
theorem ordered_all (holds : Holds data proof present table) (all : ∀ index < proof.chunkCount, present index) :
    orderChunks table proof.chunkCount.toNat 0 = .ok (splitChunks data proof.chunkSize.toNat) := by
  have count := layout_count layout
  rw [split_chunks_eq, ← count, range_eq_range']
  refine order_chunks_done fun index _ before => ?_
  have below : index < proof.chunkCount.toNat := by simpa using before
  have bound := proof.chunkCount.toNat_lt
  have value : (UInt64.ofNat index).toNat = index := by
    rw [UInt64.toNat_ofNat']
    omega
  have inRange : UInt64.ofNat index < proof.chunkCount := by
    rw [UInt64.lt_iff_toNat_lt, value]
    omega
  rw [((holds _).1 (all _ inRange)).2, value]

end Run

section Built

variable {txs : List Tx} {chunkSize dataShards : UInt64} {proof : Proof} {all allParity : List Chunk}

-- The transactions and their encoding are slices, so both were allocated.
structure InMemory (txs : List Tx) : Prop where
  encoding : (encodeTransactions txs).length ≤ maxAlloc
  headers : txs.length * 24 ≤ maxAlloc

theorem split_indices (data : Bytes) (size : Nat) : (splitChunks data size).map Chunk.index = (range (countOf data size)).map UInt64.ofNat := by
  rw [split_chunks_eq, map_map]
  rfl

theorem built_layout (sized : InMemory txs) (built : buildProofWithOptions txs chunkSize dataShards = .ok proof)
    (coded : buildParityChunks txs chunkSize dataShards = .ok allParity) :
    Layout (encodeTransactions txs) proof ∧ proof.chunkSize = chunkSize ∧ proof.dataShards = dataShards ∧
      proof.commitment = chunkRoot (splitChunks (encodeTransactions txs) chunkSize.toNat) ∧
      allParity = reedSolomonParityChunks (splitChunks (encodeTransactions txs) chunkSize.toNat) chunkSize dataShards defaultParityShards := by
  simp only [buildProofWithOptions, buildProofWithErasureOptions, checkShards, buildChunks, allocate, ok_iff] at built
  obtain ⟨⟨⟨shards, few⟩, -⟩, chunks, ⟨⟨positive, -⟩, -, countFits, made⟩, done⟩ := built
  cases made
  cases done
  simp only [buildParityChunks, buildParityChunksWithOptions, checkShards, allocate, buildChunks, ok_iff] at coded
  obtain ⟨-, chunks, ⟨-, -, -, made⟩, chunkFits, -, done⟩ := coded
  cases made
  cases done
  have length : (splitChunks (encodeTransactions txs) chunkSize.toNat).length = countOf (encodeTransactions txs) chunkSize.toNat := by
    rw [split_chunks_eq, length_map, length_range]
  rw [length] at countFits
  refine ⟨⟨rfl, congrArg UInt64.ofNat length, rfl, rfl, ?_, ⟨?_, ?_⟩, ⟨?_, sized.encoding⟩, countFits, by simpa using chunkFits⟩, rfl, rfl, rfl, rfl⟩
  · exact Nat.pos_of_ne_zero fun zero => positive (UInt64.toNat_inj.mp zero)
  · exact Nat.pos_of_ne_zero fun zero => shards (UInt64.toNat_inj.mp zero)
  · exact UInt64.le_iff_toNat_le.mp few
  · rw [encodeTransactions, length_append, put_uint64_length]
    omega

variable {data : Bytes} (layout : Layout data proof)
include layout

theorem split_own {chunk : Chunk} (listed : chunk ∈ splitChunks data proof.chunkSize.toNat) :
    chunk.index < proof.chunkCount ∧ chunk.data = chunkAt data proof.chunkSize.toNat chunk.index.toNat := by
  have count := layout_count layout
  have bound := proof.chunkCount.toNat_lt
  rw [split_chunks_eq, mem_map] at listed
  obtain ⟨index, below, rfl⟩ := listed
  rw [mem_range] at below
  have value : (UInt64.ofNat index).toNat = index := by
    rw [UInt64.toNat_ofNat']
    omega
  exact ⟨by rw [UInt64.lt_iff_toNat_lt, value, count]; exact below, by rw [value]⟩

theorem split_distinct : ((splitChunks data proof.chunkSize.toNat).map Chunk.index).Nodup := by
  rw [split_indices, ← layout_count layout]
  exact (range_indices_sorted _ (Nat.le_of_lt proof.chunkCount.toNat_lt)).imp UInt64.ne_of_lt

omit layout in
theorem parity_indices (chunks : List Chunk) (size shards groups : Nat) :
    ((range groups).flatMap fun group => (range defaultParityShards.toNat).map fun shard =>
      parityChunk chunks size shards defaultParityShards.toNat group shard).map Chunk.index =
      (range (groups * 2)).map UInt64.ofNat := by
  induction groups with
  | zero => rfl
  | succ groups ih =>
    rw [range_succ, flatMap_append, map_append, ih, flatMap_singleton, Nat.succ_mul, range_add, map_append]
    rfl

theorem group_count_lt : (parityGroupCount proof.chunkCount proof.dataShards).toNat * 2 ≤ 2 ^ 64 := by
  have fits := layout.countFits
  have shards := layout.shards
  have most := Nat.div_le_self (countOf data proof.chunkSize.toNat + proof.dataShards.toNat - 1) proof.dataShards.toNat
  rw [layout_groups layout]
  unfold maxAlloc at fits
  omega

theorem parity_own {chunk : Chunk}
    (listed : chunk ∈ reedSolomonParityChunks (splitChunks data proof.chunkSize.toNat) proof.chunkSize proof.dataShards defaultParityShards) :
    IsParity data proof chunk := by
  have length : UInt64.ofNat (splitChunks data proof.chunkSize.toNat).length = proof.chunkCount := by
    rw [split_chunks_eq, length_map, length_range, layout.count]
  have most := group_count_lt layout
  rw [reedSolomonParityChunks, length, mem_flatMap] at listed
  obtain ⟨group, below, listed⟩ := listed
  obtain ⟨shard, one, rfl⟩ := mem_map.mp listed
  rw [mem_range] at below one
  have two : defaultParityShards.toNat = 2 := rfl
  rw [two] at one
  have number : (UInt64.ofNat (group * 2 + shard)).toNat = group * 2 + shard := by
    rw [UInt64.toNat_ofNat']
    omega
  have quotient : (UInt64.ofNat (group * 2 + shard) / defaultParityShards).toNat = group := by
    rw [UInt64.toNat_div, number, two]
    omega
  have rest : UInt64.ofNat (group * 2 + shard) % defaultParityShards = UInt64.ofNat shard := by
    rw [← UInt64.toNat_inj, UInt64.toNat_mod, number, two, UInt64.toNat_ofNat']
    omega
  have point : UInt8.ofNat (shard + 1) = shardPoint (UInt64.ofNat shard) := by
    obtain rfl | rfl : shard = 0 ∨ shard = 1 := by omega
    · rfl
    · rfl
  refine ⟨?_, ?_⟩
  · rw [UInt64.lt_iff_toNat_lt]
    exact quotient.trans_lt below
  · rw [parityChunk, group_chunks_placed, point]
    simp only [two, quotient, rest]
    rfl

theorem parity_distinct :
    ((reedSolomonParityChunks (splitChunks data proof.chunkSize.toNat) proof.chunkSize proof.dataShards defaultParityShards).map Chunk.index).Nodup := by
  have length : UInt64.ofNat (splitChunks data proof.chunkSize.toNat).length = proof.chunkCount := by
    rw [split_chunks_eq, length_map, length_range, layout.count]
  rw [reedSolomonParityChunks, parity_indices, length]
  exact (range_indices_sorted _ (group_count_lt layout)).imp UInt64.ne_of_lt

end Built

section Counting

variable {data : Bytes} {proof : Proof} (layout : Layout data proof) {chunks parity : List Chunk}
include layout

theorem missing_offsets_le {group : Nat} (inside : group < (parityGroupCount proof.chunkCount proof.dataShards).toNat) :
    (missingOffsets data proof (· ∈ chunks.map Chunk.index) group).length ≤
      (splitChunks data proof.chunkSize.toNat).countP fun chunk => chunk.index / proof.dataShards = UInt64.ofNat group ∧ chunk ∉ chunks := by
  have bound := (parityGroupCount proof.chunkCount proof.dataShards).toNat_lt
  have distinct : ((missingOffsets data proof (· ∈ chunks.map Chunk.index) group).map fun offset =>
      (⟨indexAt proof group offset, groupData data proof group offset⟩ : Chunk)).Nodup := by
    refine (nodup_range.filter _).map_on fun first listed second listed' same => ?_
    have equal := congrArg (fun chunk => chunk.index.toNat) same
    simp only [(index_at_nat layout inside (mem_filter.mp listed).1).1, (index_at_nat layout inside (mem_filter.mp listed').1).1] at equal
    omega
  rw [countP_eq_length_filter, ← length_map (fun offset => (⟨indexAt proof group offset, groupData data proof group offset⟩ : Chunk))]
  refine (distinct.subperm fun chunk listed => ?_).length_le
  obtain ⟨offset, lost, rfl⟩ := mem_map.mp listed
  obtain ⟨inGroup, absent⟩ := mem_filter.mp lost
  obtain ⟨value, below, -⟩ := index_at_nat layout inside inGroup
  obtain ⟨-, own⟩ := (in_group_iff layout inside _).mp (mem_map_of_mem inGroup)
  refine mem_filter.mpr ⟨?_, decide_eq_true ⟨?_, fun given => ?_⟩⟩
  · rw [split_chunks_eq]
    exact mem_map.mpr ⟨_, mem_range.mpr below, rfl⟩
  · rw [← UInt64.toNat_inj, UInt64.toNat_div, own, UInt64.toNat_ofNat']
    omega
  · exact of_decide_eq_true absent (mem_map_of_mem given)

omit layout in
theorem supplied_le (distinct : (parity.map Chunk.index).Nodup)
    (kept : Parities data proof (fun group shard => ∃ chunk ∈ parity, group = chunk.index / defaultParityShards ∧ shard = chunk.index % defaultParityShards)
      sets) (group : UInt64) :
    (parity.countP fun chunk => chunk.index / defaultParityShards = group) ≤ ((sets.lookup group).getD ∅).entries.length := by
  have parts : ((parity.filter fun chunk => chunk.index / defaultParityShards = group).map fun chunk => chunk.index % defaultParityShards).Nodup := by
    refine ((distinct.of_map).filter _).map_on fun first listed second listed' same => ?_
    have groups := (of_decide_eq_true (mem_filter.mp listed).2).trans (of_decide_eq_true (mem_filter.mp listed').2).symm
    exact inj_on_of_nodup_map distinct (mem_filter.mp listed).1 (mem_filter.mp listed').1 (same_index groups same)
  have keys : ((sets.lookup group).getD ∅).entries.length = ((sets.lookup group).getD ∅).keys.length := (length_map _).symm
  rw [countP_eq_length_filter, ← length_map (fun chunk => chunk.index % defaultParityShards), keys]
  refine (parts.subperm fun shard listed => ?_).length_le
  obtain ⟨chunk, chosen, rfl⟩ := mem_map.mp listed
  obtain ⟨given, own⟩ := mem_filter.mp chosen
  refine AList.mem_keys.mp (lookup_isSome.mp ?_)
  rw [(kept group _).1 ⟨chunk, given, (of_decide_eq_true own).symm, rfl⟩]
  rfl

end Counting

section Recovered

variable {data : Bytes} {proof : Proof} (layout : Layout data proof) {chunks parity : List Chunk}

theorem subperm_distinct {all : List Chunk} (fromAll : chunks.Subperm all) (distinct : (all.map Chunk.index).Nodup) :
    (chunks.map Chunk.index).Nodup := by
  obtain ⟨kept, perm, sublist⟩ := fromAll
  exact (perm.map Chunk.index).nodup_iff.mp (distinct.sublist (sublist.map Chunk.index))

include layout

theorem layout_checked : (proof.chunkSize ≠ 0 ∧ proof.chunkCount ≠ 0 ∧ proof.dataShards ≠ 0 ∧ proof.encodedSize ≠ 0) ∧
    (proof.dataShards ≤ maxErasureShards ∧ defaultParityShards ≤ maxErasureShards) ∧ proof.encodedSize ≤ proof.chunkSize * proof.chunkCount := by
  have count := layout_count layout
  have size := layout_size layout
  have sizeFits := layout.sizeFits
  have shards := layout.shards
  have chunkFits := layout.chunkFits
  have positive := layout.positive
  obtain ⟨last, whole, some_chunks⟩ := count_bounds layout.positive (some_data layout)
  have nonzero : ∀ {value : UInt64}, 0 < value.toNat → value ≠ 0 := by
    rintro value more rfl
    exact Nat.lt_irrefl _ more
  refine ⟨⟨nonzero positive, nonzero (by omega), nonzero shards.1, nonzero (by omega)⟩, ⟨UInt64.le_iff_toNat_le.mpr shards.2, by decide⟩, ?_⟩
  rw [Nat.sub_mul, Nat.one_mul] at last
  rw [Nat.mul_comm] at last whole
  unfold maxAlloc at sizeFits chunkFits
  rw [UInt64.le_iff_toNat_le, UInt64.toNat_mul, size, count, Nat.mod_eq_of_lt (by omega)]
  exact whole

theorem group_of_lt {index : UInt64} (below : index < proof.chunkCount) :
    index.toNat / proof.dataShards.toNat < (parityGroupCount proof.chunkCount proof.dataShards).toNat := by
  have shards := layout.shards
  rw [UInt64.lt_iff_toNat_lt, layout_count layout] at below
  rw [layout_groups layout, Nat.div_lt_iff_lt_mul shards.1]
  have division := Nat.div_add_mod (countOf data proof.chunkSize.toNat + proof.dataShards.toNat - 1) proof.dataShards.toNat
  have rest := Nat.mod_lt (countOf data proof.chunkSize.toNat + proof.dataShards.toNat - 1) shards.1
  rw [Nat.mul_comm] at division
  omega

theorem recover_chunks_all (fromAll : chunks.Subperm (splitChunks data proof.chunkSize.toNat)) (fromParity : parity.Subperm
      (reedSolomonParityChunks (splitChunks data proof.chunkSize.toNat) proof.chunkSize proof.dataShards defaultParityShards))
    (enough : ∀ group, ((splitChunks data proof.chunkSize.toNat).countP fun chunk => chunk.index / proof.dataShards = group ∧ chunk ∉ chunks) ≤
      parity.countP fun chunk => chunk.index / defaultParityShards = group) :
    recoverChunks proof chunks parity = .ok (splitChunks data proof.chunkSize.toNat) := by
  have effective : effectiveParityShards proof = defaultParityShards := by
    rw [effectiveParityShards, layout.parityShards]
    rfl
  have nothing : Holds data proof (fun _ => False) ∅ := fun index => ⟨False.elim, fun _ => lookup_empty index⟩
  have noParity : Parities data proof (fun _ _ => False) ∅ := fun group shard => ⟨False.elim, fun _ => by simp⟩
  have distinctParity := subperm_distinct fromParity (parity_distinct layout)
  obtain ⟨table, added, holds⟩ := add_chunks_hold nothing (fun chunk listed => split_own layout (fromAll.subset listed)) (fun _ _ => id)
    (subperm_distinct fromAll (split_distinct layout))
  obtain ⟨sets, collected, kept⟩ := add_parities_kept noParity (fun chunk listed => parity_own layout (fromParity.subset listed)) (fun _ _ => id)
    distinctParity
  have given : Parities data proof (fun group shard => ∃ chunk ∈ parity, group = chunk.index / defaultParityShards ∧
      shard = chunk.index % defaultParityShards) sets := parities_congr kept fun group shard => by simp
  have handed : Holds data proof (fun index => index ∈ chunks.map Chunk.index ∨
      index < proof.chunkCount ∧ index.toNat / proof.dataShards.toNat < 0) table := holds_congr holds fun index => by simp
  have small : ∀ group shard, (∃ chunk ∈ parity, group = chunk.index / defaultParityShards ∧ shard = chunk.index % defaultParityShards) →
      shard = 0 ∨ shard = 1 := by
    rintro group shard ⟨chunk, -, -, rfl⟩
    rw [← UInt64.toNat_inj, ← UInt64.toNat_inj, UInt64.toNat_mod, show defaultParityShards.toNat = 2 from rfl]
    exact Nat.mod_two_eq_zero_or_one _
  obtain ⟨full, recovered, holds⟩ := recover_groups_hold layout given small
    (fun group inside => (missing_offsets_le layout inside).trans ((enough _).trans (supplied_le distinctParity given _)))
    (Nat.le_of_eq (Nat.zero_add _)) handed
  obtain ⟨fields, limits, size⟩ := layout_checked layout
  rw [recoverChunks, effective]
  refine require_bind fields (require_bind limits (require_bind size (require_bind (.inr layout.parityCount) (bind_ok added
    (bind_ok collected (bind_ok recovered (require_bind ?_ ?_)))))))
  · rw [layout_count layout]
    exact layout.countFits
  · exact ordered_all layout holds fun index below => .inr ⟨below, by rw [Nat.zero_add]; exact group_of_lt layout below⟩

end Recovered

theorem default_coding_recovers (txs : List Tx) (sized : InMemory txs) (chunkSize dataShards : UInt64) (proof : Proof)
    (built : buildProofWithOptions txs chunkSize dataShards = .ok proof) (all allParity : List Chunk)
    (split : buildChunks txs chunkSize = .ok all) (coded : buildParityChunks txs chunkSize dataShards = .ok allParity)
    (chunks parity : List Chunk) (fromAll : chunks.Subperm all) (fromParity : parity.Subperm allParity)
    (enough : ∀ group, (all.countP fun chunk => chunk.index / dataShards = group ∧ chunk ∉ chunks) ≤
      parity.countP fun chunk => chunk.index / defaultParityShards = group) :
    recoverTransactions proof chunks parity = .ok txs := by
  obtain ⟨layout, rfl, rfl, committed, rfl⟩ := built_layout sized built coded
  obtain rfl : splitChunks (encodeTransactions txs) proof.chunkSize.toNat = all := by
    simp only [buildChunks, ok_iff] at split
    obtain ⟨-, -, _, -, made⟩ := split
    cases made
    rfl
  have ordered := recover_chunks_all layout fromAll fromParity enough
  have data : recoverData proof chunks parity = .ok (encodeTransactions txs) := by
    refine bind_ok ordered (require_bind committed.symm (require_bind ?_ ?_))
    · rw [layout_size layout, Nat.mul_one]
      exact sized.encoding
    · rw [flatMap_def, split_chunks_data _ layout.positive, layout_size layout]
      exact congrArg Except.ok take_left
  refine bind_ok data (decode_encoding ?_ sized.headers)
  have fits := sized.encoding
  unfold maxAlloc at fits
  unfold Encodable
  omega

theorem lost_group_recovered : ∃ proof parity, buildProofWithOptions [[97, 98]] 8 2 = .ok proof ∧ buildParityChunks [[97, 98]] 8 2 = .ok parity ∧
    recoverTransactions proof [⟨2, [97, 98]⟩] parity = .ok [[97, 98]] := by
  have sized : InMemory [[97, 98]] := ⟨by decide, by decide⟩
  have split : buildChunks [[97, 98]] 8 = .ok [⟨0, [0, 0, 0, 0, 0, 0, 0, 1]⟩, ⟨1, [0, 0, 0, 0, 0, 0, 0, 2]⟩, ⟨2, [97, 98]⟩] := by decide
  obtain ⟨proof, built⟩ := exists_of_is_ok (show (buildProofWithOptions [[97, 98]] 8 2).isOk = true by decide)
  obtain ⟨parity, coded⟩ := exists_of_is_ok (show (buildParityChunks [[97, 98]] 8 2).isOk = true by decide)
  refine ⟨proof, parity, built, coded, default_coding_recovers _ sized 8 2 proof built _ parity split coded _ parity ?_ (Subperm.refl _) fun group => ?_⟩
  · exact Sublist.subperm (by decide)
  · obtain ⟨-, -, -, -, rfl⟩ := built_layout sized built coded
    by_cases first : group = 0
    · subst first
      decide
    · refine Nat.le_trans (Nat.le_of_eq ?_) (Nat.zero_le _)
      simp [Ne.symm first]

end Vexo.DataAvailability
