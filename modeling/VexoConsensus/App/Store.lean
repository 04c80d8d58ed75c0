import VexoConsensus.Lib.Checks
import VexoConsensus.Lib.OrderedMap
import VexoConsensus.Types

namespace Vexo.App

open ByteCodec OrderedMap List AList

abbrev Address := GoString

inductive AppErr where
  -- app
  | insufficientFee | insufficientFeeBalance | invalidGas | missingNonce | invalidNonce
  | nonceMismatch (signer : Address) (nonce expected : UInt64)
  | invalidAccountSequence | invalidSignedTx | invalidTxSignature | signerAddressMismatch | missingTxModule | missingTxAction
  | invalidCanonicalTx | outOfGas | malformedRoutedTx | noRouteForTx
  -- address
  | emptyPublicKey
  -- economics
  | invalidAmount
  -- modules/bank
  | invalidGenesisBalance | invalidBankTx | insufficientFunds | balanceOverflow | unauthorizedMint
  -- store
  | keyNotFound
  -- modules/staking
  | invalidStakingTx | insufficientBalance | insufficientStake | invalidStakeRecord | missingValidatorKey | stakeOverflow | noRewards
  | noUnbonding | unbondingNotMature | invalidCommission | unauthorizedStaking | validatorTombstoned
  -- governance
  | missingProposalTitle | missingSubmitter | noProposalChanges | proposalNotFound | duplicateVote | votingPeriodOpen | timelockActive
  | proposalRejected | proposalExecuted | missingVoter | invalidVoteOption
  -- encoding/json
  | jsonError
  -- upgrade
  | missingUpgradeName
  | missingUpgradeHeight
  -- modules/governance
  | invalidGovernanceTx | noGovernanceVotingPower | invalidProposalDeposit
  -- params
  | invalidParam | invalidParamsTx | unauthorizedParam | corruptBase64
  -- queryproof
  | invalidQueryProof
  | rootMismatch
  -- ibc
  | invalidClient | invalidConnection | invalidChannel | invalidTransition | invalidPacket | invalidAck | invalidProof | clientNotFound
  | clientFrozen | clientExpired | staleClientUpdate | unauthorizedClientUpdate | channelNotOpen | connectionNotOpen
  | unexpectedPacketSequence | packetAlreadyExists | packetAcked | packetTimedOut | packetNotTimedOut
  -- modules/ibc
  | invalidIBCTx
deriving DecidableEq, Repr

-- The key-value store is assumed to answer: a missing key is the only error a read gives.
abbrev Store := Table (GoString × Bytes) Bytes

structure KVWrite where
  space : GoString
  key : Bytes
  -- A write without a value deletes the key.
  value : Option Bytes
deriving DecidableEq

variable (store : Store) (space : GoString)

def Store.get (key : Bytes) : Option Bytes := store.lookup (space, key)

def Store.write (store : Store) (write : KVWrite) : Store :=
  match write.value with
  | some value => store.insert (write.space, write.key) value
  | none => store.erase (write.space, write.key)

def Store.setBatch (writes : List KVWrite) : Store := writes.foldl Store.write store

-- ExportNamespace: the pairs of a namespace in the order of their keys.
def Store.exportNamespace : List (Bytes × Bytes) :=
  let pairs := store.entries.filterMap fun entry => if entry.1.1 = space then some (entry.1.2, entry.2) else none
  pairs.mergeSort fun left right => left.1 ≤ right.1

theorem get_insert (key value : Bytes) : Store.get (store.insert (space, key) value) space key = some value :=
  lookup_insert store

variable {store : Store} {space : GoString} {key : Bytes}

theorem get_insert_ne {other : GoString} {key' value : Bytes} (different : (other, key') ≠ (space, key)) :
    Store.get (store.insert (space, key) value) other key' = store.get other key' :=
  lookup_insert_ne different

theorem get_write (store : Store) (write : KVWrite) : (store.write write).get write.space write.key = write.value := by
  unfold Store.write
  cases write.value with
  | some value => exact get_insert ..
  | none => exact lookup_erase ..

theorem get_write_other {write : KVWrite} (different : (write.space, write.key) ≠ (space, key)) :
    (store.write write).get space key = store.get space key := by
  unfold Store.write
  cases write.value with
  | some value => exact get_insert_ne different.symm
  | none => exact lookup_erase_ne different.symm

variable {writes : List KVWrite}

theorem get_set_batch_other (different : ∀ write ∈ writes, (write.space, write.key) ≠ (space, key)) :
    (store.setBatch writes).get space key = store.get space key := by
  induction writes generalizing store with
  | nil => rfl
  | cons write later ih =>
    have rest := @ih (store.write write) (forall_mem_cons.mp different).2
    exact rest.trans (get_write_other (different write mem_cons_self))

theorem get_set_batch_last (store : Store) (before : List KVWrite) (write : KVWrite) {after : List KVWrite}
    (different : ∀ later ∈ after, (later.space, later.key) ≠ (write.space, write.key)) :
    (store.setBatch (before ++ write :: after)).get write.space write.key = write.value := by
  have split : store.setBatch (before ++ write :: after) = ((store.setBatch before).write write).setBatch after := by
    rw [Store.setBatch, foldl_append, foldl_cons]
    rfl
  rw [split, get_set_batch_other different, get_write]

theorem get_set_batch_value {value : Option Bytes} (written : ∃ write ∈ writes, (write.space, write.key) = (space, key))
    (only : ∀ write ∈ writes, (write.space, write.key) = (space, key) → write.value = value) :
    (store.setBatch writes).get space key = value := by
  induction writes generalizing store with
  | nil => simp at written
  | cons write later ih =>
    by_cases again : ∃ write ∈ later, (write.space, write.key) = (space, key)
    · exact ih again (forall_mem_cons.mp only).2
    · have last : (write.space, write.key) = (space, key) := by
        obtain ⟨written, listed, same⟩ := written
        rcases mem_cons.mp listed with rfl | listed
        · exact same
        · exact absurd ⟨written, listed, same⟩ again
      have kept := get_set_batch_last store [] write fun later listed same => again ⟨later, listed, same.trans last⟩
      rw [nil_append, only write mem_cons_self last, (Prod.mk.inj last).1, (Prod.mk.inj last).2] at kept
      exact kept

end Vexo.App
