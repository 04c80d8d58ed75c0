import VexoConsensus.Types
import VexoConsensus.Lib.Checks
import VexoConsensus.Lib.MerkleLevels

namespace Vexo.DataAvailability

open ByteCodec Checks List

def defaultChunkSize : Nat := 1024

structure Chunk where
  index : UInt64
  data : Bytes
deriving DecidableEq

def encodeTransactions (txs : List Tx) : Bytes :=
  putUint64 (UInt64.ofNat txs.length) ++ txs.flatMap fun tx => putUint64 (UInt64.ofNat tx.length) ++ tx

-- Commitment always splits with the default size, so the size check of splitChunks never fails here.
def splitChunks (data : Bytes) (chunkSize : Nat) : List Chunk :=
  let chunkCount := max ((data.length + chunkSize - 1) / chunkSize) 1
  (List.range chunkCount).map fun index => ⟨UInt64.ofNat index, (data.drop (index * chunkSize)).take chunkSize⟩

def chunkLeaf (chunk : Chunk) : Hash :=
  Sha256.sum256 (0 :: putUint64 chunk.index ++ putUint64 (UInt64.ofNat chunk.data.length) ++ chunk.data)

def parentHash (left right : Hash) : Hash := Sha256.sum256 (1 :: left.bytes ++ right.bytes)

def nextLevel : List Hash → List Hash
  | [] => []
  | [left] => [parentHash left left]
  | left :: right :: rest => parentHash left right :: nextLevel rest

-- Each level has at most half the nodes of the one below, so as many rounds as leaves reach the root.
def climb : Nat → List Hash → Hash
  | _, [] => zeroHash
  | _, [root] => root
  | 0, root :: _ => root
  | rounds + 1, level => climb rounds (nextLevel level)

def merkleRoot (leaves : List Hash) : Hash := climb leaves.length leaves

def commitment (txs : List Tx) : Hash :=
  merkleRoot ((splitChunks (encodeTransactions txs) defaultChunkSize).map chunkLeaf)

def verify (header : Header) (txs : List Tx) : Except Err Unit :=
  if header.consensusHash = zeroHash then require (txs = []) .missingData
  else require (commitment txs = header.consensusHash) .commitmentMismatch

def attachCommitment (block : Block) : Block :=
  { block with header := { block.header with consensusHash := commitment block.txs } }

def leafMessage (chunk : Chunk) : Bytes := 0 :: putUint64 chunk.index ++ putUint64 (UInt64.ofNat chunk.data.length) ++ chunk.data

def pairMessage (both : Hash × Hash) : Bytes := 1 :: both.1.bytes ++ both.2.bytes

variable (txs : List Tx)

def chunksOf : List Chunk := splitChunks (encodeTransactions txs) defaultChunkSize

def leavesOf : List Hash := (chunksOf txs).map chunkLeaf

def commitmentMessages : List Bytes :=
  (chunksOf txs).map leafMessage ++ (MerkleLevels.climbPairs parentHash (leavesOf txs).length (leavesOf txs)).map pairMessage

theorem next_level_eq (level : List Hash) : nextLevel level = MerkleLevels.nextLevel parentHash level := by
  fun_induction nextLevel level with
  | case1 => rfl
  | case2 left => rfl
  | case3 left right rest ih => rw [ih, MerkleLevels.nextLevel]

theorem climb_eq (rounds : Nat) (level : List Hash) : climb rounds level = MerkleLevels.climb parentHash zeroHash rounds level := by
  induction rounds generalizing level with
  | zero =>
    match level with
    | [] => rfl
    | [_] => rfl
    | _ :: _ :: _ => rfl
  | succ rounds ih =>
    match level with
    | [] => rfl
    | [_] => rfl
    | left :: right :: rest =>
      change climb rounds (nextLevel _) = MerkleLevels.climb parentHash zeroHash rounds (MerkleLevels.nextLevel parentHash _)
      rw [next_level_eq, ih]

inductive Ranked (messages : Set Bytes) : Nat → Hash → Prop where
  | leaf (chunk : Chunk) (hashed : leafMessage chunk ∈ messages) : Ranked messages 0 (chunkLeaf chunk)
  | parent {rank : Nat} (both : Hash × Hash) (hashed : pairMessage both ∈ messages) (left : Ranked messages rank both.1)
      (right : Ranked messages rank both.2) : Ranked messages (rank + 1) (parentHash both.1 both.2)

theorem pair_message_injective {first second : Hash × Hash} (same : pairMessage first = pairMessage second) : first = second := by
  obtain ⟨left, right⟩ := append_inj (List.cons.inj same).2 (by rw [first.1.size, second.1.size])
  exact Prod.ext (digest_bytes_inj left) (digest_bytes_inj right)

theorem leaf_message_injective {first second : Chunk} (same : leafMessage first = leafMessage second) : first = second := by
  have bytes : putUint64 first.index ++ (putUint64 (UInt64.ofNat first.data.length) ++ first.data) =
      putUint64 second.index ++ (putUint64 (UInt64.ofNat second.data.length) ++ second.data) := by
    simpa only [leafMessage, cons_append, append_assoc, List.cons.injEq, true_and] using same
  obtain ⟨index, rest⟩ := append_inj bytes (by simp)
  obtain ⟨-, data⟩ := append_inj rest (by simp)
  cases first
  cases second
  simp only [Chunk.mk.injEq]
  exact ⟨put_uint64_injective _ _ index, data⟩

section Separation

variable {messages : Set Bytes} (collisionFree : Sha256.CollisionFree messages)
include collisionFree

theorem ranked_unique {rank other : Nat} {node : Hash} (first : Ranked messages rank node) (second : Ranked messages other node) : rank = other := by
  induction first generalizing other with
  | leaf chunk hashed =>
    generalize same : chunkLeaf chunk = node at second
    cases second with
    | leaf => rfl
    | parent both hashed' =>
      have equal : leafMessage chunk = pairMessage both := collisionFree _ hashed _ hashed' same
      exact absurd (List.cons.inj equal).1 (by decide)
  | parent both hashed left right leftUnique rightUnique =>
    generalize same : parentHash both.1 both.2 = node at second
    cases second with
    | leaf chunk hashed' =>
      have equal : pairMessage both = leafMessage chunk := collisionFree _ hashed _ hashed' same
      exact absurd (List.cons.inj equal).1 (by decide)
    | parent both' hashed' left' right' =>
      obtain rfl := pair_message_injective (collisionFree _ hashed _ hashed' same)
      rw [leftUnique left']

theorem parent_separated : MerkleLevels.Separated parentHash (fun both => pairMessage both ∈ messages) (Ranked messages) :=
  ⟨fun hashed hashed' same => pair_message_injective (collisionFree _ hashed _ hashed' same),
    fun hashed left right => .parent _ hashed left right, fun first second => ranked_unique collisionFree first second⟩

end Separation

theorem chunks_data (data : Bytes) (chunkSize count : Nat) :
    ((range count).map fun index => (data.drop (index * chunkSize)).take chunkSize).flatten = data.take (count * chunkSize) := by
  induction count with
  | zero => simp
  | succ count ih =>
    rw [range_succ, map_append, flatten_append, ih, map_singleton, flatten_singleton, Nat.succ_mul, take_add]

theorem split_chunks_data (data : Bytes) {chunkSize : Nat} (positive : 0 < chunkSize) :
    ((splitChunks data chunkSize).map Chunk.data).flatten = data := by
  have enough : data.length ≤ max ((data.length + chunkSize - 1) / chunkSize) 1 * chunkSize := by
    have rounded : data.length ≤ (data.length + chunkSize - 1) / chunkSize * chunkSize := by
      have division := Nat.div_add_mod (data.length + chunkSize - 1) chunkSize
      have rest := Nat.mod_lt (data.length + chunkSize - 1) positive
      rw [Nat.mul_comm] at division
      omega
    exact Nat.le_trans rounded (Nat.mul_le_mul_right _ (Nat.le_max_left _ _))
  rw [splitChunks, map_map]
  exact (chunks_data data chunkSize _).trans (take_of_length_le enough)

def encodeBody : Bytes := txs.flatMap fun tx => putUint64 (UInt64.ofNat tx.length) ++ tx

variable {left txs : List Tx}

theorem encode_body_length {tx : Tx} (member : tx ∈ txs) : tx.length ≤ (encodeBody txs).length := by
  induction txs with
  | nil => contradiction
  | cons first rest ih =>
    rw [encodeBody, flatMap_cons, length_append, length_append]
    rcases mem_cons.mp member with rfl | later
    · omega
    · have bound := ih later
      rw [encodeBody] at bound
      omega

theorem txs_length_le (txs : List Tx) : txs.length ≤ (encodeBody txs).length := by
  induction txs with
  | nil => exact Nat.zero_le _
  | cons first rest ih =>
    rw [encodeBody] at ih ⊢
    rw [flatMap_cons, length_append, length_append, put_uint64_length, length_cons]
    omega

theorem length_field_injective {left right : Nat} (leftSmall : left < 2 ^ 64) (rightSmall : right < 2 ^ 64)
    (same : putUint64 (UInt64.ofNat left) = putUint64 (UInt64.ofNat right)) : left = right := by
  have equal := congrArg UInt64.toNat (put_uint64_injective _ _ same)
  rw [UInt64.toNat_ofNat', UInt64.toNat_ofNat'] at equal
  omega

variable {right : List Tx}

theorem encode_body_prefix (count : left.length = right.length) (leftSmall : ∀ tx ∈ left, tx.length < 2 ^ 64)
    (rightSmall : ∀ tx ∈ right, tx.length < 2 ^ 64) {after after' : Bytes} (same : encodeBody left ++ after = encodeBody right ++ after') :
    left = right := by
  induction left generalizing right with
  | nil => exact (eq_nil_of_length_eq_zero count.symm).symm
  | cons first rest ih =>
    cases right with
    | nil => contradiction
    | cons second others =>
      simp only [encodeBody, flatMap_cons, append_assoc] at same
      obtain ⟨field, following⟩ := append_inj same (by simp)
      have length := length_field_injective (leftSmall first mem_cons_self) (rightSmall second mem_cons_self) field
      obtain ⟨head, tail⟩ := append_inj following length
      rw [head, ih (Nat.succ.inj count) (forall_mem_cons.mp leftSmall).2
        (forall_mem_cons.mp rightSmall).2 tail]

-- The encoded transactions are one Go slice, so their length is an int.
def Encodable (txs : List Tx) : Prop := (encodeTransactions txs).length < 2 ^ 63

theorem encodable_body (sized : Encodable txs) : (encodeBody txs).length + 8 < 2 ^ 63 := by
  have length : (encodeTransactions txs).length = 8 + (encodeBody txs).length := by
    rw [encodeTransactions, length_append, put_uint64_length, encodeBody]
  rw [Encodable, length] at sized
  omega

theorem encodable_tx (sized : Encodable txs) : ∀ tx ∈ txs, tx.length < 2 ^ 64 := by
  intro tx member
  have body := encodable_body sized
  have bound := encode_body_length member
  omega

theorem encode_txs_prefix (leftCount : left.length < 2 ^ 64) (rightCount : right.length < 2 ^ 64)
    (leftSmall : ∀ tx ∈ left, tx.length < 2 ^ 64) (rightSmall : ∀ tx ∈ right, tx.length < 2 ^ 64) {after after' : Bytes}
    (same : encodeTransactions left ++ after = encodeTransactions right ++ after') : left = right := by
  rw [encodeTransactions, encodeTransactions, append_assoc, append_assoc] at same
  obtain ⟨field, bodies⟩ := append_inj same (by simp)
  exact encode_body_prefix (length_field_injective leftCount rightCount field) leftSmall rightSmall bodies

theorem encode_txs_injective (leftSized : Encodable left) (rightSized : Encodable right)
    (same : encodeTransactions left = encodeTransactions right) : left = right := by
  have leftBody := encodable_body leftSized
  have rightBody := encodable_body rightSized
  have leftCount := txs_length_le left
  have rightCount := txs_length_le right
  exact encode_txs_prefix (by omega) (by omega) (encodable_tx leftSized) (encodable_tx rightSized) (congrArg (· ++ []) same)

theorem chunks_distinct (sized : Encodable txs) : (chunksOf txs).Nodup := by
  refine nodup_range.map_on fun first listed second listed' same => ?_
  have indices := congrArg (fun chunk => chunk.index.toNat) same
  rw [Encodable] at sized
  have small : max (((encodeTransactions txs).length + defaultChunkSize - 1) / defaultChunkSize) 1 < 2 ^ 64 := by
    simp only [defaultChunkSize]
    omega
  rw [mem_range] at listed listed'
  simp only [UInt64.toNat_ofNat'] at indices
  omega

theorem leaf_inside {chunk : Chunk} (member : chunk ∈ chunksOf txs) : leafMessage chunk ∈ commitmentMessages txs :=
  mem_append_left _ (mem_map_of_mem member)

def chunkMessages (chunks : List Chunk) : List Bytes :=
  chunks.map leafMessage ++ (MerkleLevels.climbPairs parentHash chunks.length (chunks.map chunkLeaf)).map pairMessage

theorem commitment_messages_eq (txs : List Tx) : commitmentMessages txs = chunkMessages (chunksOf txs) := by
  rw [commitmentMessages, chunkMessages, leavesOf, length_map]

theorem chunk_list_binding {left right : List Chunk} {hashed : Set Bytes} (free : Sha256.CollisionFree hashed)
    (leftPresent : left ≠ []) (rightPresent : right ≠ []) (leftDistinct : left.Nodup) (rightDistinct : right.Nodup)
    (leftInside : ∀ message ∈ chunkMessages left, message ∈ hashed) (rightInside : ∀ message ∈ chunkMessages right, message ∈ hashed)
    (same : merkleRoot (left.map chunkLeaf) = merkleRoot (right.map chunkLeaf)) : left = right := by
  have leafHashed : ∀ {chunks : List Chunk}, (∀ message ∈ chunkMessages chunks, message ∈ hashed) → ∀ chunk ∈ chunks, leafMessage chunk ∈ hashed :=
    fun inside chunk listed => inside _ (mem_append_left _ (mem_map_of_mem listed))
  have apart : ∀ {first second : Chunk}, leafMessage first ∈ hashed → leafMessage second ∈ hashed → chunkLeaf first = chunkLeaf second →
      first = second := fun firstIn secondIn equal => leaf_message_injective (free _ firstIn _ secondIn equal)
  have ranked : ∀ {chunks : List Chunk}, (∀ message ∈ chunkMessages chunks, message ∈ hashed) →
      ∀ node ∈ chunks.map chunkLeaf, Ranked hashed 0 node := by
    intro chunks inside node member
    obtain ⟨chunk, listed, rfl⟩ := mem_map.mp member
    exact .leaf chunk (leafHashed inside chunk listed)
  have distinct : ∀ {chunks : List Chunk}, chunks.Nodup → (∀ message ∈ chunkMessages chunks, message ∈ hashed) → (chunks.map chunkLeaf).Nodup :=
    fun different inside => different.map_on fun first listed second listed' => apart (leafHashed inside first listed) (leafHashed inside second listed')
  have pairsHashed : ∀ {chunks : List Chunk}, (∀ message ∈ chunkMessages chunks, message ∈ hashed) →
      ∀ both ∈ MerkleLevels.climbPairs parentHash (chunks.map chunkLeaf).length (chunks.map chunkLeaf), pairMessage both ∈ hashed := by
    intro chunks inside both listed
    rw [length_map] at listed
    exact inside _ (mem_append_right _ (mem_map_of_mem listed))
  have leaves : left.map chunkLeaf = right.map chunkLeaf :=
    MerkleLevels.climb_injective (parent_separated free) (mt map_eq_nil_iff.mp leftPresent) (mt map_eq_nil_iff.mp rightPresent)
      (Nat.le_refl _) (Nat.le_refl _) (distinct leftDistinct leftInside) (distinct rightDistinct rightInside) (ranked leftInside)
      (ranked rightInside) (pairsHashed leftInside) (pairsHashed rightInside) (by rw [← climb_eq, ← climb_eq]; exact same)
  exact MerkleLevels.map_injective_on (fun first listed second listed' => apart (leafHashed leftInside first listed)
    (leafHashed rightInside second listed')) leaves

theorem chunks_present (txs : List Tx) : chunksOf txs ≠ [] := by simp [chunksOf, splitChunks]

theorem chunks_encode (txs : List Tx) : (chunksOf txs).flatMap Chunk.data = encodeTransactions txs := by
  rw [flatMap_def]
  exact split_chunks_data (encodeTransactions txs) (by decide)

theorem commitment_binding (leftSized : Encodable left) (rightSized : Encodable right)
    (collisionFree : Sha256.CollisionFree {message | message ∈ commitmentMessages left ∨ message ∈ commitmentMessages right})
    (same : commitment left = commitment right) : left = right := by
  have chunks : chunksOf left = chunksOf right :=
    chunk_list_binding collisionFree (chunks_present left) (chunks_present right) (chunks_distinct leftSized) (chunks_distinct rightSized)
      (fun message listed => .inl (commitment_messages_eq left ▸ listed)) (fun message listed => .inr (commitment_messages_eq right ▸ listed)) same
  refine encode_txs_injective leftSized rightSized ?_
  rw [← chunks_encode left, ← chunks_encode right, chunks]

end Vexo.DataAvailability
