import VexoConsensus.App.CanonicalTxs

namespace Vexo.Bank

open ByteCodec Checks App GoText

def moduleName : GoString := utf8 "bank"

def mintGasCost : UInt64 := 10
def sendGasCost : UInt64 := 10

structure Module where
  mintAuthority : Address

def balanceKey (address : Address) : Bytes :=
  match Hex.decode (addressDigits address) with
  | some decoded => if decoded.length > 20 ∨ ¬ hexPrefix.isPrefixOf address then address else paddedHex decoded
  | none => address

variable (store : Store)

def balanceBig (address : Address) : Except AppErr Nat := readBalance balanceKey .invalidGenesisBalance store address

def setBalanceBig (address : Address) (balance : Nat) : Except AppErr Store := do
  require (balance < 2 ^ 256) .balanceOverflow
  return store.write ⟨bankSpace, balanceKey address, some (encodeBalanceBig balance)⟩

def parseAmountBig (value : GoString) : Except AppErr Nat :=
  match Economics.parseAmountBig value with
  | .ok amount => if 0 < amount ∧ amount < 2 ^ 256 then .ok amount else .error .invalidBankTx
  | .error _ => .error .invalidBankTx

def mint (receiver : Address) (amount : Int) : Except AppErr Store := do
  require (receiver ≠ [] ∧ 0 < amount) .invalidBankTx
  let balance ← balanceBig store receiver
  let next := balance + amount.toNat
  require (next < 2 ^ 256) .balanceOverflow
  setBalanceBig store receiver next

def sendErrors : TransferErrors := ⟨.invalidGenesisBalance, .insufficientFunds, .balanceOverflow⟩

def send (sender receiver : Address) (amount : Int) : Except AppErr Store := do
  require (sender ≠ [] ∧ receiver ≠ [] ∧ 0 < amount) .invalidBankTx
  moveBalance balanceKey sendErrors store sender receiver amount.toNat

def transferBig (sender receiver : Address) (amount : Int) : Except AppErr Store := send store sender receiver amount

def authorizeMint (module : Module) (tx : Tx) : Except AppErr Unit :=
  require (module.mintAuthority = [] ∨ txTag tx (utf8 "signer") = some module.mintAuthority) .unauthorizedMint

def deliverTx (module : Module) (gas : Option GasMeter) (store : Store) (tx : Tx) : Except Failure (Store × Option GasMeter) :=
  match untaggedParts tx with
  | [name, action, receiver, amount] => do
      require (name = moduleName ∧ action = utf8 "mint") ⟨2, .invalidBankTx⟩
      let gas ← failing 5 (consumeGas gas mintGasCost)
      let amount ← failing 3 (parseAmountBig amount)
      failing 4 (authorizeMint module tx)
      let store ← failing 4 (mint store receiver amount)
      return (store, gas)
  | [name, action, sender, receiver, amount] => do
      require (name = moduleName ∧ action = utf8 "send") ⟨2, .invalidBankTx⟩
      let gas ← failing 5 (consumeGas gas sendGasCost)
      let amount ← failing 3 (parseAmountBig amount)
      let store ← failing 4 (send store sender receiver amount)
      return (store, gas)
  | _ => .error ⟨2, .invalidBankTx⟩

def estimateGas (tx : Tx) : Except AppErr UInt64 :=
  match untaggedParts tx with
  | [_, action, _, _] => if action = utf8 "mint" then .ok mintGasCost else .error .invalidBankTx
  | [_, action, _, _, _] => if action = utf8 "send" then .ok sendGasCost else .error .invalidBankTx
  | _ => .error .invalidBankTx

theorem padded_hex_fixed {decoded : Bytes} (short : decoded.length ≤ 20) : bankBalanceKey (paddedHex decoded) = paddedHex decoded := by
  let padded := List.replicate (20 - decoded.length) 0 ++ decoded
  have size : padded.length = 20 := by
    rw [List.length_append, List.length_replicate]
    omega
  have starts : hexPrefix.isPrefixOf (hexPrefix ++ Hex.encode padded) = true := by simp
  have digits : addressDigits (hexPrefix ++ Hex.encode padded) = Hex.encode padded := by simp [addressDigits, trimPrefix, size]
  have again : paddedHex padded = hexPrefix ++ Hex.encode padded := by simp [paddedHex, size]
  change bankBalanceKey (hexPrefix ++ Hex.encode padded) = hexPrefix ++ Hex.encode padded
  rw [bankBalanceKey, if_pos starts, digits, Hex.decode_encode]
  simp only [size, gt_iff_lt, Nat.lt_irrefl, if_false]
  exact again

theorem bank_balance_key_idempotent (address : Address) : bankBalanceKey (bankBalanceKey address) = bankBalanceKey address := by
  by_cases starts : hexPrefix.isPrefixOf address = true
  · cases digits : Hex.decode (addressDigits address) with
    | none =>
      have plain : bankBalanceKey address = address := by simp [bankBalanceKey, digits]
      rw [plain, plain]
    | some decoded =>
      by_cases long : decoded.length > 20
      · have plain : bankBalanceKey address = address := by simp [bankBalanceKey, digits, long]
        rw [plain, plain]
      · have padded : bankBalanceKey address = paddedHex decoded := by simp [bankBalanceKey, starts, digits, long]
        rw [padded]
        exact padded_hex_fixed (Nat.le_of_not_gt long)
  · have plain : bankBalanceKey address = address := by simp [bankBalanceKey, starts]
    rw [plain, plain]

theorem balance_key_eq : balanceKey = bankBalanceKey := by
  funext address
  unfold balanceKey bankBalanceKey
  by_cases starts : hexPrefix.isPrefixOf address = true <;> cases Hex.decode (addressDigits address) <;> simp [starts]

theorem balance_key_idempotent (address : Address) : balanceKey (balanceKey address) = balanceKey address := by
  rw [balance_key_eq]
  exact bank_balance_key_idempotent address

def feeAccount (config : AnteConfig) : Address := if config.feeCollector = [] then utf8 "fee_collector" else config.feeCollector

theorem collect_fee_cases {config : AnteConfig} {store next : Store} {txMeta : TxMeta} (collected : collectFee config store txMeta = .ok next) :
    (txMeta.feeBig = 0 ∧ next = store) ∨
      (txMeta.feeBig ≠ 0 ∧ moveBalance bankBalanceKey feeErrors store txMeta.signer (feeAccount config) txMeta.feeBig = .ok next) := by
  unfold collectFee at collected
  by_cases free : txMeta.feeBig = 0
  · rw [if_pos free] at collected
    exact .inl ⟨free, (Except.ok.inj collected).symm⟩
  · simp only [if_neg free, bind_ok_iff] at collected
    obtain ⟨-, -, moved⟩ := collected
    exact .inr ⟨free, moved⟩

theorem transfers_conserved_iff (store next : Store) : (∀ sender receiver amount, transferBig store sender receiver amount = .ok next →
      (Conserved balanceKey .invalidGenesisBalance store next sender receiver amount.toNat ↔
        CleanTransfer balanceKey store sender receiver amount.toNat)) ∧
    (∀ config txMeta, collectFee config store txMeta = .ok next →
      (Conserved bankBalanceKey .insufficientFeeBalance store next txMeta.signer (feeAccount config) txMeta.feeBig ↔
        txMeta.feeBig = 0 ∨ CleanTransfer bankBalanceKey store txMeta.signer (feeAccount config) txMeta.feeBig)) := by
  refine ⟨?_, ?_⟩
  · intro sender receiver amount sent
    simp only [transferBig, send, bind_ok_iff] at sent
    obtain ⟨-, -, moved⟩ := sent
    exact move_balance_conserved_iff balance_key_idempotent moved
  · intro config txMeta collected
    rcases collect_fee_cases collected with ⟨free, rfl⟩ | ⟨charged, moved⟩
    · refine ⟨fun _ => .inl free, fun _ => ⟨rfl, fun _ balance read => ?_, fun _ _ _ => rfl⟩⟩
      rw [free]
      exact ⟨Nat.zero_le _, read⟩
    · rw [or_iff_right charged]
      exact move_balance_conserved_iff bank_balance_key_idempotent moved

def alice : Address := utf8 "alice"
def bob : Address := utf8 "bob"

def aliceStore : Store := Store.setBatch ∅ [⟨bankSpace, alice, some (encodeBalanceBig 10)⟩]

-- The balance written last to one key is the one that was raised.
theorem self_send_mints : supply balanceKey aliceStore = 10 ∧
    (transferBig aliceStore alice alice 5).toOption.map (supply balanceKey) = some 15 := by with_unfolding_all decide

theorem alice_pays_bob_evaluated : (transferBig aliceStore alice bob 5).toOption.isSome = true ∧ balanceKey alice ≠ balanceKey bob ∧
    strayAmount balanceKey aliceStore alice = 0 ∧ strayAmount balanceKey aliceStore bob = 0 := by with_unfolding_all decide

theorem alice_pays_bob : ∃ next, transferBig aliceStore alice bob 5 = .ok next ∧
    Conserved balanceKey .invalidGenesisBalance aliceStore next alice bob 5 := by
  obtain ⟨success, apart, cleanAlice, cleanBob⟩ := alice_pays_bob_evaluated
  cases sent : transferBig aliceStore alice bob 5 with
  | error reason =>
    rw [sent] at success
    contradiction
  | ok next =>
    have conserved := (transfers_conserved_iff aliceStore next).1 alice bob 5 sent
    exact ⟨next, rfl, conserved.mpr (.inl ⟨apart, cleanAlice, cleanBob⟩)⟩

end Vexo.Bank
