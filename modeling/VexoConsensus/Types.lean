import Mathlib.Data.UInt
import VexoConsensus.Lib.Sha256

namespace Vexo

open ByteCodec List

abbrev Hash := Sha256.Digest
-- A Go string is any byte sequence, so identifiers are not Lean strings.
abbrev GoString := Bytes
abbrev ValidatorID := GoString
abbrev Tx := Bytes
abbrev Height := UInt64
abbrev Round := UInt64
abbrev VotingPower := UInt64
abbrev Signature := Bytes
abbrev PublicKey := Bytes
abbrev AggregateSignature := Bytes
abbrev Bitmap := Bytes

def zeroHash : Hash := ⟨List.replicate 32 0, rfl⟩

theorem filled_length (byte : UInt8) : (List.replicate 32 byte).length = 32 := List.length_replicate

theorem ones_length : (List.replicate 32 (1 : UInt8)).length = 32 := rfl

inductive Err where
  -- context
  | contextDone
  -- crypto
  | emptyDomain
  | emptySignature
  -- types
  | votingPowerOverflow
  -- validator
  | validatorExists | validatorNotFound | zeroVotingPower | missingCandidateID | insufficientStake | validatorSetFull | candidateDenied
  | missingCandidateKey | validatorSetNotFound | validatorSetMissing
  -- finality
  | emptySigner | validatorSetMismatch | blockHashMismatch | heightMismatch | insufficientQuorum | votingPowerMismatch | missingQCSignature
  | unknownSigner | duplicateSigner | commitChainTooShort | commitChainBroken | noFinalityConflict | finalitySetUnavailable
  | validatorNotInFinalityConflict
  -- dataavailability
  | missingData
  | commitmentMismatch
  -- consensus
  | unknownValidator | conflictingVote | noQuorum
  | proposalChainMismatch (chainID : List UInt8)
  | invalidProposal (detail : String)
  | staleProposal
  | invalidVote (detail : String)
  | unknownVoteBlock | staleVote | unsafeProposal | noActiveValidators
  | unexpectedProposer (height round : UInt64) (expected actual : List UInt8)
  | unsafeVote | aggregateRequired | missingSignature | conflictingCommit | commitRuleNotSatisfied | blockNotFound | invalidBlockCert
  | conflictingTimeoutVote | staleTimeoutCert | walClosed
  | doubleSignDetected (validatorID : List UInt8) (height round : UInt64) (previous next : List UInt8)
  | timeoutDoubleSignDetected (validatorID : List UInt8) (height round : UInt64)
  | recordedVoteHash (detail : String)
  | votesDoNotConflict | timeoutVotesDoNotConflict | votePairMismatch | unsupportedProposalReason | invalidProposalContext
  | evidenceValidatorNotFound | evidenceSignatureVerifier | evidenceFinalityVerifier | unsupportedEvidenceProof
  | invalidEvidenceVoteSignature | invalidEvidenceTimeoutSignature | slashingRegistryMismatch
  -- slashing
  | unknownEvidenceType | emptyProof | missingValidator | missingHeight | duplicateEvidence | penaltyNotConfigured | invalidSlashFraction
  | evidenceExpired | evidenceAppealed
  -- store
  | keyNotFound
  -- queryproof
  | invalidQueryProof
  | stateRootMismatch
  -- encoding/json, bufio and os
  | jsonSyntax | jsonType | tokenTooLong | writeFailed
  -- node
  | invalidCommitQC (detail : String)
  | blockAlreadyCommitted (height committed : UInt64)
  | nonSequentialCommit (height expected : UInt64)
deriving DecidableEq, Repr

-- Only whether the context is already done when a call reads it matters to the modelled functions.
structure Context where
  done : Bool
deriving DecidableEq

def Context.background : Context := ⟨false⟩

def addVotingPower (left right : VotingPower) : Except Err VotingPower :=
  if left.toNat + right.toNat < 2 ^ 64 then .ok (left + right) else .error .votingPowerOverflow

def mustAddVotingPowerSaturating (left right : VotingPower) : VotingPower :=
  match addVotingPower left right with
  | .ok sum => sum
  | .error _ => ~~~0

def twoThirdsQuorumThreshold (total : VotingPower) : VotingPower :=
  if total = 0 then 0
  else
    let base := total / 3 * 2
    let remainder := total % 3
    let extra := if remainder > 0 then (remainder * 2 + 2) / 3 else 0
    mustAddVotingPowerSaturating base extra

def hasTwoThirdsQuorum (power total : VotingPower) : Bool :=
  if total = 0 then false else decide (power ≥ twoThirdsQuorumThreshold total)

structure Header where
  chainID : GoString
  height : Height
  timeUnixNano : Int64
  (previousBlockHash appHash validatorSetHash consensusHash txRoot : Hash)
deriving DecidableEq

structure Block where
  header : Header
  txs : List Tx
deriving DecidableEq

-- The address is the identifier again and the metadata name the module; neither is kept.
structure ValidatorUpdate where
  id : ValidatorID
  publicKey : PublicKey
  votingPower : VotingPower
  stake : UInt64
deriving DecidableEq

theorem add_voting_power_ok {left right sum : VotingPower} (added : addVotingPower left right = .ok sum) : sum.toNat = left.toNat + right.toNat := by
  unfold addVotingPower at added
  split at added
  · rename_i fits
    cases added
    rw [UInt64.toNat_add]
    exact Nat.mod_eq_of_lt fits
  · contradiction

theorem add_voting_power_fits {left right : VotingPower} (fits : left.toNat + right.toNat < 2 ^ 64) :
    addVotingPower left right = .ok (left + right) := if_pos fits

theorem must_add_to_nat (left right : VotingPower) :
    (mustAddVotingPowerSaturating left right).toNat = min (left.toNat + right.toNat) (2 ^ 64 - 1) := by
  unfold mustAddVotingPowerSaturating
  cases added : addVotingPower left right with
  | ok sum =>
    have exact := add_voting_power_ok added
    have bound := sum.toNat_lt
    simp only
    omega
  | error reason =>
    unfold addVotingPower at added
    split at added
    · contradiction
    · have top : (~~~(0 : UInt64)).toNat = 2 ^ 64 - 1 := rfl
      simp only [top]
      omega

-- The threshold is the exact ceiling of two thirds for every 64-bit total.
theorem threshold_to_nat (total : VotingPower) : (twoThirdsQuorumThreshold total).toNat = (2 * total.toNat + 2) / 3 := by
  have bound := total.toNat_lt
  unfold twoThirdsQuorumThreshold
  split
  · rename_i zero
    simp [zero]
  · have remainderNat : (total % 3).toNat = total.toNat % 3 := by simp
    have baseNat : (total / 3 * 2).toNat = total.toNat / 3 * 2 := by
      simp only [UInt64.toNat_mul, UInt64.toNat_div, UInt64.reduceToNat]
      omega
    simp only [must_add_to_nat, baseNat]
    split
    · have extraNat : ((total % 3 * 2 + 2) / 3).toNat = (total.toNat % 3 * 2 + 2) / 3 := by
        simp only [UInt64.toNat_div, UInt64.toNat_add, UInt64.toNat_mul, UInt64.toNat_mod, UInt64.reduceToNat]
        omega
      rename_i positive
      have positiveNat : 0 < total.toNat % 3 := by
        rw [← remainderNat]
        exact UInt64.lt_iff_toNat_lt.mp positive
      rw [extraNat]
      omega
    · rename_i notPositive
      have zeroNat : total.toNat % 3 = 0 := by
        by_contra nonzero
        apply notPositive
        rw [gt_iff_lt, UInt64.lt_iff_toNat_lt, remainderNat]
        exact Nat.pos_of_ne_zero nonzero
      simp only [UInt64.toNat_zero]
      omega

theorem has_quorum_iff (power total : VotingPower) : hasTwoThirdsQuorum power total = true ↔ 0 < total.toNat ∧ 2 * total.toNat ≤ 3 * power.toNat := by
  have zeroIff : total = 0 ↔ total.toNat = 0 := by
    rw [← UInt64.toNat_inj]
    rfl
  unfold hasTwoThirdsQuorum
  split
  · rename_i zero
    simp [zeroIff.mp zero]
  · rename_i positive
    have thresholdNat := threshold_to_nat total
    rw [decide_eq_true_iff, ge_iff_le, UInt64.le_iff_toNat_le, thresholdNat]
    have : total.toNat ≠ 0 := fun isZero => positive (zeroIff.mpr isZero)
    omega

-- No two of these messages have one hash, and none has the zero hash, which stands for a hash that was not set.
structure SafeHashes (hashed : Set Bytes) : Prop where
  collisionFree : Sha256.CollisionFree hashed
  neverZero : ∀ message ∈ hashed, Sha256.sum256 message ≠ zeroHash

-- consensus.HashHeader and finality.hashHeader write the same fields in the same order.
def headerPreimage (header : Header) : Bytes :=
  header.chainID ++ (putUint64 header.height ++ (putUint64 header.timeUnixNano.toUInt64 ++
    (header.previousBlockHash.bytes ++ (header.appHash.bytes ++ (header.validatorSetHash.bytes ++
      (header.consensusHash.bytes ++ header.txRoot.bytes))))))

namespace Finality

def hashHeader (header : Header) : Hash := Sha256.sum256 (headerPreimage header)

end Finality

namespace Consensus

def hashHeader (header : Header) : Hash := Sha256.sum256 (headerPreimage header)

def txRoot (txs : List Tx) : Hash :=
  if txs = [] then zeroHash
  else Sha256.sum256 (txs.flatMap fun tx => putUint64 (UInt64.ofNat tx.length) ++ tx)

def sealedHeader (block : Block) : Header :=
  if block.header.txRoot = zeroHash then { block.header with txRoot := txRoot block.txs } else block.header

def hashBlock (block : Block) : Hash := hashHeader (sealedHeader block)

end Consensus

namespace Signbytes

def vote (height : Height) (round : Round) (blockHash : Hash) : Bytes :=
  utf8 "vote" ++ (putUint64 height ++ (putUint64 round ++ blockHash.bytes))

end Signbytes

namespace Crypto

def domainConsensusProposal : GoString := utf8 "vexo.consensus.proposal.v1"
def domainConsensusVote : GoString := utf8 "vexo.consensus.vote.v1"
def domainConsensusTimeoutVote : GoString := utf8 "vexo.consensus.timeout_vote.v1"

def domainMessage (domain : GoString) (message : Bytes) : Except Err Bytes :=
  if domain = [] then .error .emptyDomain
  else .ok (utf8 "VEXO-DOMAIN" ++ 0 :: domain ++ putUint64 (UInt64.ofNat message.length) ++ message)

end Crypto

theorem digest_bytes_inj {left right : Hash} (same : left.bytes = right.bytes) : left = right := by
  cases left
  cases right
  cases same
  rfl

-- Only the chain identifier has no fixed width, so the preimage determines every header field.
theorem header_preimage_injective {left right : Header} (same : headerPreimage left = headerPreimage right) : left = right := by
  have width : ∀ hash : Hash, hash.bytes.length = 32 := Sha256.Digest.size
  unfold headerPreimage at same
  obtain ⟨chain, same⟩ := append_inj' same (by simp [width])
  obtain ⟨height, same⟩ := append_inj same (by simp)
  obtain ⟨time, same⟩ := append_inj same (by simp)
  obtain ⟨previous, same⟩ := append_inj same (by simp [width])
  obtain ⟨app, same⟩ := append_inj same (by simp [width])
  obtain ⟨set, same⟩ := append_inj same (by simp [width])
  obtain ⟨consensus, root⟩ := append_inj same (by simp [width])
  have heights := put_uint64_injective _ _ height
  have times : left.timeUnixNano = right.timeUnixNano := by
    simpa using congrArg UInt64.toInt64 (put_uint64_injective _ _ time)
  cases left
  cases right
  simp only [Header.mk.injEq]
  exact ⟨chain, heights, times, digest_bytes_inj previous, digest_bytes_inj app, digest_bytes_inj set,
    digest_bytes_inj consensus, digest_bytes_inj root⟩

theorem vote_sign_bytes_injective {height height' : Height} {round round' : Round} {blockHash blockHash' : Hash}
    (same : Signbytes.vote height round blockHash = Signbytes.vote height' round' blockHash') :
    height = height' ∧ round = round' ∧ blockHash = blockHash' := by
  unfold Signbytes.vote at same
  obtain ⟨-, same⟩ := append_inj same rfl
  obtain ⟨heights, same⟩ := append_inj same (by simp)
  obtain ⟨rounds, hashes⟩ := append_inj same (by simp)
  exact ⟨put_uint64_injective _ _ heights, put_uint64_injective _ _ rounds, digest_bytes_inj hashes⟩

namespace Crypto

theorem domain_message_ok {domain : GoString} (message : Bytes) (named : domain ≠ []) : ∃ encoded, domainMessage domain message = .ok encoded :=
  ⟨_, if_neg named⟩

theorem domain_message_injective {domain : GoString} {first second encoded : Bytes} (firstEncoded : domainMessage domain first = .ok encoded)
    (secondEncoded : domainMessage domain second = .ok encoded) : first = second := by
  unfold domainMessage at firstEncoded secondEncoded
  by_cases unnamed : domain = []
  · rw [if_pos unnamed] at firstEncoded
    contradiction
  · rw [if_neg unnamed] at firstEncoded secondEncoded
    have same := Except.ok.inj (firstEncoded.trans secondEncoded.symm)
    exact (append_inj same (by simp)).2

end Crypto

namespace Consensus

@[simp] theorem sealed_header_parent (block : Block) : (sealedHeader block).previousBlockHash = block.header.previousBlockHash := by
  unfold sealedHeader
  split <;> rfl

@[simp] theorem sealed_header_height (block : Block) : (sealedHeader block).height = block.header.height := by
  unfold sealedHeader
  split <;> rfl

abbrev blockPreimages (Known : Block → Prop) : Set Bytes :=
  Set.image (fun block => headerPreimage (sealedHeader block)) {block | Known block}

theorem same_hash_same_header {Known : Block → Prop} (collisionFree : Sha256.CollisionFree (blockPreimages Known))
    {first second : Block} (firstKnown : Known first) (secondKnown : Known second) (same : hashBlock first = hashBlock second) :
    sealedHeader first = sealedHeader second :=
  header_preimage_injective (collisionFree _ ⟨first, firstKnown, rfl⟩ _ ⟨second, secondKnown, rfl⟩ same)

theorem collision_free_blocks {blocks : List Block}
    (distinct : ∀ first ∈ blocks, ∀ second ∈ blocks, hashBlock first = hashBlock second → first = second) :
    Sha256.CollisionFree (blockPreimages (· ∈ blocks)) := by
  rintro _ ⟨first, firstKnown, rfl⟩ _ ⟨second, secondKnown, rfl⟩ same
  rw [distinct first firstKnown second secondKnown same]

end Consensus

end Vexo
