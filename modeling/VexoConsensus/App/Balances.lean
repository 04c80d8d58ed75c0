import Mathlib.Algebra.BigOperators.Group.Finset.Basic
import Mathlib.Data.List.GetD
import VexoConsensus.Address
import VexoConsensus.Lib.BigEndian

namespace Vexo.App

open ByteCodec Checks

section

open GoText List

def bankSpace : GoString := utf8 "bank"

def hexPrefix : GoString := utf8 "0x"

def addressDigits (raw : GoString) : Bytes :=
  let clean := trimPrefix hexPrefix raw
  if clean.length % 2 = 1 then 48 :: clean else clean

def paddedHex (decoded : Bytes) : Bytes := hexPrefix ++ Hex.encode (List.replicate (20 - decoded.length) 0 ++ decoded)

-- bankBalanceKey of the ante handler and of the staking module.
def bankBalanceKey (address : Address) : Bytes :=
  if hexPrefix.isPrefixOf address then
    match Hex.decode (addressDigits address) with
    | some decoded => if decoded.length > 20 then address else paddedHex decoded
    | none => address
  else address

variable (balanceKey : Address → Bytes)

-- bankBalanceBig of the ante handler and of the staking module, and BalanceBig of the bank: an address with no record under its key
-- may still have one under its own spelling.
def readBalance (invalid : AppErr) (store : Store) (address : Address) : Except AppErr Nat :=
  match (store.get bankSpace (balanceKey address)).or (store.get bankSpace address) with
  | none => .ok 0
  | some value => if value.length > 32 then .error invalid else .ok (BigEndian.value value)

-- encodeBalanceBig of the bank and encodeBankBalanceBig of the ante handler.
def encodeBalanceBig (balance : Nat) : Bytes :=
  if balance < 2 ^ 64 then putUint64 (UInt64.ofNat balance) else BigEndian.minimal balance

structure TransferErrors where
  (invalid insufficient overflow : AppErr)

-- What send and collectFee share: both balances are read before either is written.
def moveBalance (errors : TransferErrors) (store : Store) (sender receiver : Address) (amount : Nat) : Except AppErr Store := do
  let senderBalance ← readBalance balanceKey errors.invalid store sender
  require (amount ≤ senderBalance) errors.insufficient
  let receiverBalance ← readBalance balanceKey errors.invalid store receiver
  require (receiverBalance + amount < 2 ^ 256) errors.overflow
  return store.setBatch
    [⟨bankSpace, balanceKey sender, some (encodeBalanceBig (senderBalance - amount))⟩,
      ⟨bankSpace, balanceKey receiver, some (encodeBalanceBig (receiverBalance + amount))⟩]

def accountCharacters : Bytes := 0 :: 49 :: Address.accountHRP ++ Address.bech32Charset

structure AccountName (address : Address) : Prop where
  starts : address.head? = some 118
  characters : ∀ char ∈ address, char ∈ accountCharacters

theorem account_named {publicKey : PublicKey} {address : Address} (derived : Address.accountFromPublicKey publicKey = .ok address) :
    AccountName address := by
  have word : Address.accountHRP = [118, 101, 120, 111] := by with_unfolding_all decide
  unfold Address.accountFromPublicKey at derived
  split at derived
  · contradiction
  · cases derived
    simp only [Address.bech32Encode]
    refine ⟨?_, ?_⟩
    · rw [word]
      rfl
    · intro char member
      rcases mem_append.mp member with start | member
      · exact mem_append_left _ (mem_cons_of_mem _ (mem_cons_of_mem _ start))
      · rcases mem_cons.mp member with rfl | member
        · exact mem_append_left _ (mem_cons_of_mem _ mem_cons_self)
        · obtain ⟨value, -, rfl⟩ := mem_map.mp member
          by_cases inside : value < Address.bech32Charset.length
          · rw [getD_eq_getElem _ _ inside]
            exact mem_append_right _ (getElem_mem inside)
          · rw [getD_eq_default _ _ (Nat.le_of_not_lt inside)]
            exact mem_append_left _ mem_cons_self

section Spelling

variable {address : Address}

section

variable (account : AccountName address)
include account

theorem AccountName.unslashed : 47 ∉ address := by
  intro slash
  have outside : 47 ∉ accountCharacters := by with_unfolding_all decide
  exact outside (account.characters 47 slash)

theorem AccountName.unprefixed : hexPrefix.isPrefixOf address = false := by
  have digits : hexPrefix = [48, 120] := by with_unfolding_all decide
  cases address with
  | nil => exact absurd account.starts (by simp)
  | cons char rest =>
    cases Option.some.inj account.starts
    rw [digits]
    rfl

-- The balances of an account are kept under its own spelling, and no other address has that key.
theorem account_key : bankBalanceKey address = address := by
  rw [bankBalanceKey, if_neg (by simp [account.unprefixed])]

theorem key_of_account {other : Address} (same : bankBalanceKey other = address) : other = address := by
  have hexed : ∀ decoded, paddedHex decoded ≠ address := by
    rintro decoded rfl
    have starts : hexPrefix.isPrefixOf (paddedHex decoded) = true := by simp [paddedHex]
    rw [account.unprefixed] at starts
    contradiction
  unfold bankBalanceKey at same
  split at same
  · split at same
    · split at same
      · exact same
      · exact absurd same (hexed _)
    · exact same
  · exact same

end

theorem drop_spaces_fixed {runes : List Bytes} {text : Bytes} (none : ∀ rune ∈ runes, rune.isPrefixOf text = false) (fuel : Nat) :
    dropSpaces runes fuel text = text := by
  cases fuel with
  | zero => rfl
  | succ fuel =>
    have found : (runes.find? fun rune => rune.isPrefixOf text) = Option.none :=
      find?_eq_none.mpr fun rune listed => by simp [none rune listed]
    rw [dropSpaces, found]

theorem trim_space_fixed {text : Bytes} (clean : ∀ char ∈ text, char ∈ accountCharacters) : trimSpace text = text := by
  have outside : ∀ rune ∈ spaces ++ spaces.map reverse, ∃ first rest, rune = first :: rest ∧ first ∉ accountCharacters := by
    have checked : ((spaces ++ spaces.map reverse).all fun rune => rune.head?.any fun first => first ∉ accountCharacters) = true := by
      with_unfolding_all decide
    intro rune listed
    have first := all_eq_true.mp checked rune listed
    cases rune with
    | nil => contradiction
    | cons char rest => exact ⟨char, rest, rfl, of_decide_eq_true first⟩
  have kept : ∀ rune ∈ spaces ++ spaces.map reverse, ∀ text : Bytes, (∀ char ∈ text, char ∈ accountCharacters) → rune.isPrefixOf text = false := by
    intro rune listed text clean
    obtain ⟨first, rest, rfl, space⟩ := outside rune listed
    cases text with
    | nil => rfl
    | cons char later =>
      have different : first ≠ char := by
        rintro rfl
        exact space (clean first mem_cons_self)
      simp [isPrefixOf, different]
  have left : dropSpaces spaces text.length text = text :=
    drop_spaces_fixed (fun rune listed => kept rune (mem_append_left _ listed) text clean) _
  have right : dropSpaces (spaces.map reverse) text.length text.reverse = text.reverse :=
    drop_spaces_fixed (fun rune listed => kept rune (mem_append_right _ listed) _ fun char member => clean char (mem_reverse.mp member)) _
  simp only [trimSpace, left, right, reverse_reverse]

end Spelling

end

open Finset

section Ledger

variable (balanceKey : Address → Bytes) (store : Store)

def bankKeys : Finset Bytes := (store.keys.filterMap fun key => if key.1 = bankSpace then some key.2 else none).toFinset

def recordAmount (key : Bytes) : Nat := ((store.get bankSpace key).map BigEndian.value).getD 0

def accounts : Finset Bytes := (bankKeys store).image balanceKey

-- What an account holds: its record, or else the records left under the spellings of its address.
def holdings (account : Bytes) : Nat :=
  if (store.get bankSpace account).isSome then recordAmount store account
  else ∑ key ∈ bankKeys store with balanceKey key = account, recordAmount store key

def supply : Nat := ∑ account ∈ accounts balanceKey store, holdings balanceKey store account

def strayAmount (address : Address) : Nat :=
  if (store.get bankSpace (balanceKey address)).isSome then 0
  else ∑ key ∈ bankKeys store with balanceKey key = balanceKey address ∧ key ≠ address, recordAmount store key

end Ledger

variable {balanceKey : Address → Bytes} {store next : Store}
variable {invalid : AppErr} {key : Bytes}

@[simp] theorem mem_bank_keys : key ∈ bankKeys store ↔ (store.get bankSpace key).isSome = true := by
  rw [bankKeys, List.mem_toFinset, List.mem_filterMap, Store.get, AList.lookup_isSome]
  constructor
  · rintro ⟨⟨space, other⟩, member, found⟩
    split at found
    · next bank =>
      rw [← Option.some.inj found, ← bank]
      exact member
    · contradiction
  · intro member
    exact ⟨(bankSpace, key), member, if_pos rfl⟩

theorem record_amount_of_none (missing : store.get bankSpace key = none) : recordAmount store key = 0 := by
  rw [recordAmount, missing]
  rfl

theorem holdings_outside {account : Bytes} (fixed : balanceKey account = account) (outside : account ∉ accounts balanceKey store) :
    holdings balanceKey store account = 0 := by
  have unrecorded : ¬ (store.get bankSpace account).isSome = true := by
    intro recorded
    exact outside (mem_image.mpr ⟨account, mem_bank_keys.mpr recorded, fixed⟩)
  rw [holdings, if_neg unrecorded]
  refine sum_eq_zero fun key member => ?_
  obtain ⟨recorded, spelled⟩ := mem_filter.mp member
  exact absurd (mem_image.mpr ⟨key, recorded, spelled⟩) outside

theorem supply_over (wider : Finset Bytes) (contains : accounts balanceKey store ⊆ wider) (fixed : ∀ account ∈ wider, balanceKey account = account) :
    supply balanceKey store = ∑ account ∈ wider, holdings balanceKey store account :=
  sum_subset contains fun account inside outside => holdings_outside (fixed account inside) outside

theorem spelled_sum (balanceKey : Address → Bytes) (store : Store) (address : Address) :
    (∑ key ∈ bankKeys store with balanceKey key = balanceKey address, recordAmount store key) = recordAmount store address +
        ∑ key ∈ bankKeys store with balanceKey key = balanceKey address ∧ key ≠ address, recordAmount store key := by
  have others : ((bankKeys store).filter fun key => balanceKey key = balanceKey address ∧ key ≠ address) =
      ((bankKeys store).filter fun key => balanceKey key = balanceKey address).erase address := by
    ext key
    simp only [mem_filter, mem_erase]
    tauto
  rw [others]
  by_cases recorded : address ∈ bankKeys store
  · have member : address ∈ (bankKeys store).filter fun key => balanceKey key = balanceKey address :=
      mem_filter.mpr ⟨recorded, rfl⟩
    exact (add_sum_erase _ (recordAmount store) member).symm
  · have missing : store.get bankSpace address = none := by simpa using recorded
    rw [erase_eq_of_notMem fun member => recorded (mem_filter.mp member).1, record_amount_of_none missing, Nat.zero_add]

variable {address : Address} {balance : Nat}

theorem holdings_read (read : readBalance balanceKey invalid store address = .ok balance) :
    holdings balanceKey store (balanceKey address) = balance + strayAmount balanceKey store address := by
  unfold readBalance at read
  cases keyed : store.get bankSpace (balanceKey address) with
  | some value =>
    simp only [keyed, Option.some_or] at read
    split at read
    · contradiction
    · cases read
      simp [holdings, strayAmount, recordAmount, keyed]
  | none =>
    simp only [keyed, Option.none_or] at read
    have unrecorded : ¬ (store.get bankSpace (balanceKey address)).isSome = true := by simp [keyed]
    rw [holdings, if_neg unrecorded, strayAmount, if_neg unrecorded, spelled_sum, Nat.add_right_cancel_iff]
    split at read
    · next raw =>
      cases read
      exact record_amount_of_none raw
    · next value raw =>
      split at read
      · contradiction
      · cases read
        simp [recordAmount, raw]

structure Moved (balanceKey : Address → Bytes) (store next : Store) (sender receiver : Address) (amount senderBalance receiverBalance : Nat) :
    Prop where
  enough : amount ≤ senderBalance
  bounded : receiverBalance + amount < 2 ^ 256
  written : next = store.setBatch [⟨bankSpace, balanceKey sender, some (encodeBalanceBig (senderBalance - amount))⟩,
    ⟨bankSpace, balanceKey receiver, some (encodeBalanceBig (receiverBalance + amount))⟩]

theorem move_balance_ok {errors : TransferErrors} {sender receiver : Address} {amount : Nat}
    (moved : moveBalance balanceKey errors store sender receiver amount = .ok next) :
    ∃ senderBalance receiverBalance, readBalance balanceKey errors.invalid store sender = .ok senderBalance ∧
      readBalance balanceKey errors.invalid store receiver = .ok receiverBalance ∧
      Moved balanceKey store next sender receiver amount senderBalance receiverBalance := by
  simp only [moveBalance, bind_ok_iff, require_ok_iff] at moved
  obtain ⟨senderBalance, readSender, -, enough, receiverBalance, readReceiver, -, bounded, written⟩ := moved
  exact ⟨senderBalance, receiverBalance, readSender, readReceiver, enough, bounded, (Except.ok.inj written).symm⟩

theorem encode_balance_value (balance : Nat) : BigEndian.value (encodeBalanceBig balance) = balance := by
  unfold encodeBalanceBig
  split
  · rename_i small
    rw [BigEndian.value_put_uint64, UInt64.toNat_ofNat']
    exact Nat.mod_eq_of_lt small
  · exact BigEndian.value_minimal balance

theorem encode_balance_length (small : balance < 2 ^ 256) : (encodeBalanceBig balance).length ≤ 32 := by
  unfold encodeBalanceBig
  split
  · rw [put_uint64_length]
    omega
  · exact BigEndian.minimal_length_le (by omega)

section Writes

variable {sender receiver : Address} {amount senderBalance receiverBalance : Nat}

section

variable (moved : Moved balanceKey store next sender receiver amount senderBalance receiverBalance)
include moved

theorem moved_receiver : next.get bankSpace (balanceKey receiver) = some (encodeBalanceBig (receiverBalance + amount)) := by
  rw [moved.written]
  exact get_insert ..

theorem moved_sender (apart : balanceKey sender ≠ balanceKey receiver) :
    next.get bankSpace (balanceKey sender) = some (encodeBalanceBig (senderBalance - amount)) := by
  rw [moved.written]
  have different : (bankSpace, balanceKey sender) ≠ (bankSpace, balanceKey receiver) := fun same => apart (Prod.mk.inj same).2
  exact (get_insert_ne different).trans (get_insert ..)

theorem moved_other (notSender : key ≠ balanceKey sender) (notReceiver : key ≠ balanceKey receiver) :
    next.get bankSpace key = store.get bankSpace key := by
  rw [moved.written]
  have first : (bankSpace, key) ≠ (bankSpace, balanceKey receiver) := fun same => notReceiver (Prod.mk.inj same).2
  have second : (bankSpace, key) ≠ (bankSpace, balanceKey sender) := fun same => notSender (Prod.mk.inj same).2
  exact (get_insert_ne first).trans (get_insert_ne second)

theorem moved_record_amount (notSender : key ≠ balanceKey sender) (notReceiver : key ≠ balanceKey receiver) :
    recordAmount next key = recordAmount store key := by
  rw [recordAmount, recordAmount, moved_other moved notSender notReceiver]

theorem moved_holdings_receiver : holdings balanceKey next (balanceKey receiver) = receiverBalance + amount := by
  simp [holdings, recordAmount, moved_receiver moved, encode_balance_value]

theorem moved_holdings_sender (apart : balanceKey sender ≠ balanceKey receiver) :
    holdings balanceKey next (balanceKey sender) = senderBalance - amount := by
  simp [holdings, recordAmount, moved_sender moved apart, encode_balance_value]

end

variable (idempotent : ∀ address, balanceKey (balanceKey address) = balanceKey address)
  (moved : Moved balanceKey store next sender receiver amount senderBalance receiverBalance)

include idempotent moved

theorem moved_holdings_other {account : Bytes} (notSender : account ≠ balanceKey sender) (notReceiver : account ≠ balanceKey receiver) :
    holdings balanceKey next account = holdings balanceKey store account := by
  have spelled : ∀ key, balanceKey key = account → key ≠ balanceKey sender ∧ key ≠ balanceKey receiver := by
    intro key spells
    refine ⟨fun same => notSender ?_, fun same => notReceiver ?_⟩ <;> rw [← spells, same, idempotent]
  have keys : ((bankKeys next).filter fun key => balanceKey key = account) = (bankKeys store).filter fun key => balanceKey key = account := by
    ext key
    simp only [mem_filter, mem_bank_keys]
    refine and_congr_left fun spells => ?_
    rw [moved_other moved (spelled key spells).1 (spelled key spells).2]
  rw [holdings, holdings, moved_other moved notSender notReceiver, moved_record_amount moved notSender notReceiver, keys]
  congr 1
  refine sum_congr rfl fun key member => ?_
  obtain ⟨-, spells⟩ := mem_filter.mp member
  exact moved_record_amount moved (spelled key spells).1 (spelled key spells).2

theorem moved_accounts : accounts balanceKey next ⊆ insert (balanceKey sender) (insert (balanceKey receiver) (accounts balanceKey store)) := by
  intro account member
  obtain ⟨key, recorded, rfl⟩ := mem_image.mp member
  rw [mem_insert, mem_insert]
  by_cases atSender : key = balanceKey sender
  · exact .inl (by rw [atSender, idempotent])
  · by_cases atReceiver : key = balanceKey receiver
    · exact .inr (.inl (by rw [atReceiver, idempotent]))
    · rw [mem_bank_keys, moved_other moved atSender atReceiver] at recorded
      exact .inr (.inr (mem_image.mpr ⟨key, mem_bank_keys.mpr recorded, rfl⟩))

theorem moved_supply :
    ∃ rest, supply balanceKey store = rest + ∑ account ∈ {balanceKey sender, balanceKey receiver}, holdings balanceKey store account ∧
      supply balanceKey next = rest + ∑ account ∈ {balanceKey sender, balanceKey receiver}, holdings balanceKey next account := by
  let wider := insert (balanceKey sender) (insert (balanceKey receiver) (accounts balanceKey store))
  have fixed : ∀ account ∈ wider, balanceKey account = account := by
    intro account member
    rcases mem_insert.mp member with rfl | member
    · exact idempotent sender
    · rcases mem_insert.mp member with rfl | member
      · exact idempotent receiver
      · obtain ⟨key, -, rfl⟩ := mem_image.mp member
        exact idempotent key
  have old : accounts balanceKey store ⊆ wider := fun account member => mem_insert_of_mem (mem_insert_of_mem member)
  have pair : {balanceKey sender, balanceKey receiver} ⊆ wider := by
    intro account member
    rcases mem_insert.mp member with rfl | member
    · exact mem_insert_self _ _
    · rw [mem_singleton.mp member]
      exact mem_insert_of_mem (mem_insert_self _ _)
  refine ⟨∑ account ∈ wider \ {balanceKey sender, balanceKey receiver}, holdings balanceKey store account, ?_, ?_⟩
  · rw [supply_over wider old fixed, sum_sdiff pair]
  · rw [supply_over wider (moved_accounts idempotent moved) fixed, ← sum_sdiff pair]
    congr 1
    refine sum_congr rfl fun account member => ?_
    obtain ⟨-, outside⟩ := mem_sdiff.mp member
    rw [mem_insert, mem_singleton, not_or] at outside
    exact moved_holdings_other idempotent moved outside.1 outside.2

end Writes

structure Conserved (balanceKey : Address → Bytes) (invalid : AppErr) (store next : Store) (sender receiver : Address) (amount : Nat) : Prop where
  total : supply balanceKey next = supply balanceKey store
  lowered : balanceKey sender ≠ balanceKey receiver → ∀ balance, readBalance balanceKey invalid store sender = .ok balance →
    amount ≤ balance ∧ readBalance balanceKey invalid next sender = .ok (balance - amount)
  others : ∀ other, balanceKey other ≠ balanceKey sender → balanceKey other ≠ balanceKey receiver →
    readBalance balanceKey invalid next other = readBalance balanceKey invalid store other

-- Two accounts with nothing under stray spellings, or one account whose stray spellings hold just the amount.
def CleanTransfer (balanceKey : Address → Bytes) (store : Store) (sender receiver : Address) (amount : Nat) : Prop :=
  (balanceKey sender ≠ balanceKey receiver ∧ strayAmount balanceKey store sender = 0 ∧ strayAmount balanceKey store receiver = 0) ∨
    (balanceKey sender = balanceKey receiver ∧ strayAmount balanceKey store receiver = amount)

theorem read_balance_lt (read : readBalance balanceKey invalid store address = .ok balance) : balance < 2 ^ 256 := by
  unfold readBalance at read
  split at read
  · cases read
    decide
  · rename_i value _
    split at read
    · contradiction
    · rename_i short
      cases read
      have grows : 256 ^ value.length ≤ 256 ^ 32 := Nat.pow_le_pow_right (by omega) (by omega)
      exact (BigEndian.value_lt value).trans_le (grows.trans (by decide))

theorem read_recorded (small : balance < 2 ^ 256) (recorded : store.get bankSpace (balanceKey address) = some (encodeBalanceBig balance)) :
    readBalance balanceKey invalid store address = .ok balance := by
  have short := encode_balance_length small
  simp only [readBalance, recorded, Option.some_or]
  rw [if_neg (by omega), encode_balance_value]

section Transfer

variable {errors : TransferErrors} {sender receiver : Address} {amount : Nat}
  (idempotent : ∀ address, balanceKey (balanceKey address) = balanceKey address)
  (moved : moveBalance balanceKey errors store sender receiver amount = .ok next)

include idempotent moved

theorem move_balance_others (invalid : AppErr) (other : Address) (notSender : balanceKey other ≠ balanceKey sender)
    (notReceiver : balanceKey other ≠ balanceKey receiver) :
    readBalance balanceKey invalid next other = readBalance balanceKey invalid store other := by
  obtain ⟨senderBalance, receiverBalance, -, -, effect⟩ := move_balance_ok moved
  have raw : next.get bankSpace other = store.get bankSpace other := by
    refine moved_other effect (fun same => notSender ?_) (fun same => notReceiver ?_) <;> rw [same, idempotent]
  rw [readBalance, readBalance, moved_other effect notSender notReceiver, raw]

omit idempotent in
theorem move_balance_lowers (apart : balanceKey sender ≠ balanceKey receiver) (balance : Nat)
    (read : readBalance balanceKey errors.invalid store sender = .ok balance) :
    amount ≤ balance ∧ readBalance balanceKey errors.invalid next sender = .ok (balance - amount) := by
  obtain ⟨senderBalance, receiverBalance, readSender, -, effect⟩ := move_balance_ok moved
  cases read.symm.trans readSender
  have small := read_balance_lt read
  exact ⟨effect.enough, read_recorded (by omega) (moved_sender effect apart)⟩

theorem move_balance_total_iff : supply balanceKey next = supply balanceKey store ↔ CleanTransfer balanceKey store sender receiver amount := by
  obtain ⟨senderBalance, receiverBalance, readSender, readReceiver, effect⟩ := move_balance_ok moved
  obtain ⟨rest, before, after⟩ := moved_supply idempotent effect
  have enough := effect.enough
  rw [before, after, CleanTransfer]
  by_cases apart : balanceKey sender = balanceKey receiver
  · simp only [apart, pair_eq_singleton, sum_singleton, holdings_read readReceiver, moved_holdings_receiver effect]
    simp only [ne_eq, not_true_eq_false, false_and, true_and, false_or]
    omega
  · rw [sum_pair apart, sum_pair apart, holdings_read readSender, holdings_read readReceiver,
      moved_holdings_receiver effect, moved_holdings_sender effect apart]
    simp only [ne_eq, apart, not_false_eq_true, true_and, false_and, or_false]
    omega

theorem move_balance_conserved_iff :
    Conserved balanceKey errors.invalid store next sender receiver amount ↔ CleanTransfer balanceKey store sender receiver amount := by
  constructor
  · intro conserved
    exact (move_balance_total_iff idempotent moved).mp conserved.total
  · intro clean
    exact ⟨(move_balance_total_iff idempotent moved).mpr clean, move_balance_lowers moved, move_balance_others idempotent moved errors.invalid⟩

end Transfer

end Vexo.App
