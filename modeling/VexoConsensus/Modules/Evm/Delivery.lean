import VexoConsensus.App.CanonicalTxs
import VexoConsensus.Lib.JsonText

namespace Vexo.Evm

open ByteCodec Checks GoText OrderedMap App

section

inductive EvmErr where
  | app (reason : AppErr)
  | invalidEVMTx
  -- ethcompat
  | invalidRawTransaction | chainIDMismatch | valueOverflow | signatureMismatch | feeCapTooLow | tipCapAboveFeeCap | unprotectedLegacyTx
  | blobFeeCapTooLow | invalidBlobSidecar
  -- encoding/base64 and encoding/json
  | corruptInput
  -- contract
  | vmNotFound
  | invalidInvocation
  -- What the virtual machine answers with.
  | machine (log : GoString)
deriving DecidableEq

def app {Value : Type} (outcome : Except AppErr Value) : Except EvmErr Value := outcome.mapError .app

def orElse {Value : Type} (reason : EvmErr) : Option Value → Except EvmErr Value
  | some value => .ok value
  | none => .error reason

def tagHash : GoString := utf8 "eth_hash"
def tagRaw : GoString := utf8 "eth_raw"
def tagType : GoString := utf8 "eth_type"
def tagInput : GoString := utf8 "eth_input"
def tagChainID : GoString := utf8 "eth_chain_id"
def tagBaseFee : GoString := utf8 "eth_base_fee"
def tagGasPrice : GoString := utf8 "eth_gas_price"
def tagEthValue : GoString := utf8 "eth_value"
def tagMaxFeePerGas : GoString := utf8 "eth_max_fee_per_gas"
def tagMaxPriorityFeePerGas : GoString := utf8 "eth_max_priority_fee_per_gas"
def tagAccessList : GoString := utf8 "eth_access_list"
def tagBlobBaseFee : GoString := utf8 "eth_blob_base_fee"
def tagBlobGas : GoString := utf8 "eth_blob_gas"
def tagBlobGasFeeCap : GoString := utf8 "eth_blob_gas_fee_cap"
def tagBlobHashes : GoString := utf8 "eth_blob_hashes"
def tagBlobSidecar : GoString := utf8 "eth_blob_sidecar"

def EthAddress := { bytes : Bytes // bytes.length = 20 }

structure Sidecar where
  (blobs commitments proofs : List Bytes)
deriving DecidableEq

-- The accessors of a decoded types.Transaction. The sender is recovered under the chain's signer, or under the Homestead one.
structure EthTx where
  kind : UInt8
  isProtected : Bool
  chainID : Nat
  (nonce gas : UInt64)
  (gasPrice gasFeeCap gasTipCap value : Nat)
  recipient : Option EthAddress
  data : Bytes
  accessList : List (EthAddress × List Hash)
  blobGas : UInt64
  blobGasFeeCap : Nat
  blobHashes : List Hash
  sidecar : Option Sidecar
  hash : Hash
  sender : Option Nat → Option EthAddress

-- go-ethereum's decoder, its hash function and its check of a blob's proof.
structure Geth where
  keccak256 : Bytes → Hash
  unmarshalBinary : Bytes → Option EthTx
  verifyBlobProof : Bytes → Bytes → Bytes → Bool

def hashHex (hash : Hash) : GoString := hexPrefix ++ Hex.encode hash.bytes

def nibble (hash : Hash) (index : Nat) : Nat :=
  let byte := (hash.bytes.getD (index / 2) 0).toNat
  if index % 2 = 0 then byte / 16 else byte % 16

variable (geth : Geth)

-- Address.Hex: a letter is written large where the hash of the small digits says so.
def addressHex (address : EthAddress) : GoString :=
  let digits := Hex.encode address.val
  hexPrefix ++ digits.mapIdx fun index digit => if digit > 57 ∧ nibble (geth.keccak256 digits) index > 7 then digit - 32 else digit

-- hash/fnv, 64-bit FNV-1a.
def fnv64a (text : Bytes) : UInt64 := text.foldl (fun hash byte => (hash ^^^ byte.toUInt64) * 1099511628211) 14695981039346656037

def chainNumericID (chainID : GoString) : UInt64 :=
  let value := fnv64a chainID
  if value = 0 then 1 else value

def normalizeHex (text : GoString) : GoString :=
  let text := trimSpace text
  let text := if (utf8 "0X").isPrefixOf text then hexPrefix ++ trimPrefix (utf8 "0X") text else text
  let text := if hexPrefix.isPrefixOf text then text else hexPrefix ++ text
  let trimmed := trimPrefix hexPrefix text
  let trimmed := if trimmed.length % 2 = 1 then 48 :: trimmed else trimmed
  hexPrefix ++ toLower trimmed

-- gethcommon.HexToHash: what follows a character that is no digit is dropped, and so are bytes beyond the last 32.
def hexToHash (text : GoString) : Bytes :=
  let trimmed := if hexPrefix.isPrefixOf text ∨ (utf8 "0X").isPrefixOf text then text.drop 2 else text
  let digits := (if trimmed.length % 2 = 1 then 48 :: trimmed else trimmed).takeWhile fun byte => (Hex.value byte).isSome
  let bytes := (Hex.decode (digits.take (digits.length / 2 * 2))).getD []
  let bytes := bytes.drop (bytes.length - 32)
  List.replicate (32 - bytes.length) 0 ++ bytes

structure BlobSidecarBundle where
  (blobHashes blobs commitments proofs : List GoString)
deriving DecidableEq

def BlobSidecarBundle.empty : BlobSidecarBundle := ⟨[], [], [], []⟩

-- kzg4844.CalcBlobHashV1.
def versionedHash (commitment : Bytes) : Bytes := 1 :: (Sha256.sum256 commitment).bytes.drop 1

def verifyBlobSidecar (sidecar : Sidecar) (expectedHashes : List GoString) : Except EvmErr Unit :=
  require (sidecar.blobs ≠ [] ∧ sidecar.blobs.length = sidecar.commitments.length ∧ sidecar.blobs.length = sidecar.proofs.length ∧
    expectedHashes.length = sidecar.blobs.length ∧
    (((sidecar.blobs.zip sidecar.commitments).zip (sidecar.proofs.zip expectedHashes)).all fun item =>
      geth.verifyBlobProof item.1.1 item.1.2 item.2.1 ∧
        toLower (hexPrefix ++ Hex.encode (versionedHash item.1.2)) = toLower item.2.2) = true) .invalidBlobSidecar

def decodeFixedHexList (items : List GoString) (expectedBytes : Nat) : Except EvmErr (List Bytes) := do
  require (items ≠ []) .invalidBlobSidecar
  items.mapM fun item => do
    let raw ← orElse .invalidBlobSidecar (Hex.decode (trimPrefix hexPrefix (normalizeHex item)))
    require (raw.length = expectedBytes) .invalidBlobSidecar
    return raw

variable (bundle : BlobSidecarBundle)

def verifyBlobSidecarBundle : Except EvmErr Unit := do
  let blobs ← decodeFixedHexList bundle.blobs 131072
  let commitments ← decodeFixedHexList bundle.commitments 48
  let proofs ← decodeFixedHexList bundle.proofs 48
  require (blobs.length = commitments.length ∧ blobs.length = proofs.length) .invalidBlobSidecar
  verifyBlobSidecar geth ⟨blobs, commitments, proofs⟩ bundle.blobHashes

def normalizeBlobSidecarBundle : Except EvmErr BlobSidecarBundle := do
  let normalized : BlobSidecarBundle := ⟨bundle.blobHashes.map fun item => hexPrefix ++ Hex.encode (hexToHash item),
    bundle.blobs.map normalizeHex, bundle.commitments.map normalizeHex, bundle.proofs.map normalizeHex⟩
  verifyBlobSidecarBundle geth normalized
  return normalized

def intoTexts : Json.Decoder (List GoString) := Json.intoList [] Json.intoText

def bundleFields : List (Bytes × Json.Decoder BlobSidecarBundle) :=
  [Json.field "blob_hashes" BlobSidecarBundle.blobHashes intoTexts fun bundle part => { bundle with blobHashes := part },
    Json.field "blobs" BlobSidecarBundle.blobs intoTexts fun bundle part => { bundle with blobs := part },
    Json.field "commitments" BlobSidecarBundle.commitments intoTexts fun bundle part => { bundle with commitments := part },
    Json.field "proofs" BlobSidecarBundle.proofs intoTexts fun bundle part => { bundle with proofs := part }]

def decodeBlobSidecarBundle (encoded : GoString) : Except EvmErr BlobSidecarBundle := do
  require (encoded ≠ []) .invalidBlobSidecar
  let raw ← orElse .corruptInput (Base64.decodeRaw encoded)
  let bundle ← orElse .corruptInput (Json.unmarshal .empty (Json.intoStruct bundleFields) raw)
  normalizeBlobSidecarBundle geth bundle

section Decoding

variable (geth : Geth)

structure DecodeOptions where
  (chainID baseFee blobBaseFee : UInt64)
  vm : GoString
  allowUnprotectedLegacy : Bool

def defaultVM : GoString := utf8 "evm"

variable (ethTx : EthTx)

def resolvedChainID (expected : UInt64) : Except EvmErr UInt64 :=
  if ethTx.chainID = 0 then .ok (if expected > 0 then expected else 1)
  else do
    require (ethTx.chainID < 2 ^ 64) .valueOverflow
    let actual := UInt64.ofNat ethTx.chainID
    require (¬ (expected > 0 ∧ actual ≠ expected)) .chainIDMismatch
    return actual

-- Legacy transactions have type 0 and those with an access list type 1.
def effectiveGasPriceBig (baseFee : UInt64) : Except EvmErr Nat :=
  if ethTx.kind = 0 ∨ ethTx.kind = 1 then do
    require (¬ (baseFee > 0 ∧ ethTx.gasPrice < baseFee.toNat)) .feeCapTooLow
    return ethTx.gasPrice
  else do
    require (ethTx.gasTipCap ≤ ethTx.gasFeeCap) .tipCapAboveFeeCap
    require (baseFee.toNat ≤ ethTx.gasFeeCap) .feeCapTooLow
    if baseFee = 0 then return ethTx.gasFeeCap
    else return Nat.min (baseFee.toNat + ethTx.gasTipCap) ethTx.gasFeeCap

def legacyUnprotected : Bool := ethTx.kind = 0 ∧ ethTx.isProtected = false

-- signerForTransaction and types.Sender.
def senderOf (chainID : UInt64) : Option EthAddress :=
  ethTx.sender (if legacyUnprotected ethTx then none else some chainID.toNat)

def blobFee (options : DecodeOptions) : Except EvmErr Nat :=
  if ethTx.blobGas > 0 then do
    require (¬ (options.blobBaseFee > 0 ∧ ethTx.blobGasFeeCap < options.blobBaseFee.toNat)) .blobFeeCapTooLow
    return ethTx.blobGas.toNat * (if options.blobBaseFee > 0 then options.blobBaseFee.toNat else ethTx.blobGasFeeCap)
  else return 0

variable (entries : List (EthAddress × List Hash))

def accessListValue : Json.Value :=
  .array (entries.map fun entry =>
    let keys := entry.2.map fun slot => Json.text (hashHex slot)
    if keys = [] then Json.object ["address"] [Json.text (addressHex geth entry.1)]
    else Json.object ["address", "storage_keys"] [Json.text (addressHex geth entry.1), .array keys])

def encodeAccessList : GoString := Base64.encodeRaw (Json.render (accessListValue geth entries))

def encodeBlobHashes (hashes : List Hash) : GoString :=
  Base64.encodeRaw (Json.render (.array (hashes.map fun hash => Json.text (hashHex hash))))

def decimal (value : UInt64) : GoString := Decimal.format value.toNat

def inputHex : GoString := hexPrefix ++ Hex.encode ethTx.data

def decodedTags (rawHex : GoString) (ethTx : EthTx) (sender : EthAddress) (chainID : UInt64) (options : DecodeOptions) (gasPrice fee : Nat) :
    List (GoString × GoString) :=
  [(utf8 "fee", Decimal.format fee), (utf8 "gas", decimal ethTx.gas), (utf8 "signer", addressHex geth sender),
    (utf8 "nonce", decimal ethTx.nonce), (tagHash, hashHex ethTx.hash), (tagRaw, rawHex), (tagType, Decimal.format ethTx.kind.toNat),
    (tagInput, inputHex ethTx), (tagChainID, decimal chainID), (tagBaseFee, decimal options.baseFee), (tagGasPrice, Decimal.format gasPrice),
    (tagEthValue, Decimal.format ethTx.value), (tagMaxFeePerGas, Decimal.format ethTx.gasFeeCap),
    (tagMaxPriorityFeePerGas, Decimal.format ethTx.gasTipCap), (tagBlobBaseFee, decimal options.blobBaseFee),
    (tagBlobGas, decimal ethTx.blobGas), (tagBlobGasFeeCap, Decimal.format ethTx.blobGasFeeCap)] ++
  (if ethTx.blobHashes = [] then [] else [(tagBlobHashes, encodeBlobHashes ethTx.blobHashes)]) ++
  (if ethTx.accessList = [] then [] else [(tagAccessList, encodeAccessList geth ethTx.accessList)])

def evmSpace : GoString := utf8 "evm"

def decodedAction : GoString := if ethTx.recipient.isSome then utf8 "call" else utf8 "eth_deploy"

def decodedArgs (vm : GoString) (ethTx : EthTx) (sender : EthAddress) : List GoString :=
  match ethTx.recipient with
  | none => [vm, addressHex geth sender, Hex.encode ethTx.data, decimal ethTx.nonce, Decimal.format ethTx.value]
  | some recipient =>
    [vm, addressHex geth sender, addressHex geth recipient, utf8 "call", Hex.encode ethTx.data, decimal ethTx.gas, Decimal.format ethTx.value]

-- The canonical transaction of a raw one; the other fields of DecodedTransaction serve the RPC.
def decodeRawTransaction (rawText : GoString) (options : DecodeOptions) : Except EvmErr Tx := do
  let rawHex := normalizeHex rawText
  let raw ← orElse .invalidRawTransaction (Hex.decode (trimPrefix hexPrefix rawHex))
  require (raw ≠ []) .invalidRawTransaction
  let ethTx ← orElse .invalidRawTransaction (geth.unmarshalBinary raw)
  require (¬ (legacyUnprotected ethTx ∧ options.allowUnprotectedLegacy = false)) .unprotectedLegacyTx
  let chainID ← resolvedChainID ethTx options.chainID
  let sender ← orElse .invalidRawTransaction (senderOf ethTx chainID)
  let gasPrice ← effectiveGasPriceBig ethTx options.baseFee
  let blobFee ← blobFee ethTx options
  (match ethTx.sidecar with
    | some sidecar => verifyBlobSidecar geth sidecar (ethTx.blobHashes.map hashHex)
    | none => .ok ())
  let vm := if options.vm = [] then defaultVM else options.vm
  let tags := decodedTags geth rawHex ethTx sender chainID options gasPrice (ethTx.gas.toNat * gasPrice + blobFee)
  app (buildCanonicalTx ⟨evmSpace, decodedAction ethTx, decodedArgs geth vm ethTx sender, tags.foldl (fun table tag => table.insert tag.1 tag.2) ∅⟩)

def CanonicalTx.tag (canonical : CanonicalTx) (key : GoString) : GoString := (canonical.tags.lookup key).getD []

-- The tags that are compared with those of the raw transaction before it is executed.
def executionTags : List GoString :=
  [utf8 "gas", utf8 "signer", utf8 "nonce", tagHash, tagRaw, tagType, tagInput, tagChainID, tagEthValue, tagMaxFeePerGas,
    tagMaxPriorityFeePerGas, tagAccessList, tagBlobGas, tagBlobGasFeeCap, tagBlobHashes]

def validateCanonicalTxForExecution (tx : Tx) (options : DecodeOptions) : Except EvmErr Unit := do
  let raw := (txTag tx tagRaw).getD []
  require (raw ≠ []) .invalidRawTransaction
  let canonical ← app (parseCanonicalTx tx)
  let decodedTx ← decodeRawTransaction geth raw options
  let decodedCanonical ← app (parseCanonicalTx decodedTx)
  require (canonical.module = decodedCanonical.module ∧ canonical.action = decodedCanonical.action) .signatureMismatch
  require (canonical.args = decodedCanonical.args) .signatureMismatch
  require (∀ key ∈ executionTags, CanonicalTx.tag canonical key = CanonicalTx.tag decodedCanonical key) .signatureMismatch

def isEthereumTx (tx : Tx) : Bool := (txTag tx tagRaw).isSome

end Decoding

-- The virtual machine reads the state through the store it is given.
structure Invocation where
  vm : GoString
  (caller contract : Address)
  method : GoString
  input : Bytes
  gasLimit : UInt64
  valueBig : Nat
  (code salt : Bytes)
  accessList : List (GoString × List GoString)
  (blockNumber nonce timestamp baseFee blobBaseFee : UInt64)
  blobHashes : List Bytes
  gasPrice : UInt64
  gasPriceBig : Option Nat
  gasFeeCap : UInt64
  gasFeeCapBig : Option Nat
  gasTipCap : UInt64
  gasTipCapBig : Option Nat
  blobGasFeeCap : UInt64
  blobGasFeeCapBig : Option Nat
  blockGasLimit : UInt64
  coinbase : Address
  ethereumTx : Bool
  rawEthereumTx : GoString
deriving DecidableEq

structure ContractLog where
  address : Address
  topics : List GoString
  data : Bytes
  labels : List (GoString × GoString)

structure CodeWrite where
  address : Address
  -- A write without code deletes it.
  code : Option Bytes

structure StorageWrite where
  address : Address
  slot : GoString
  value : Option Bytes

structure BalanceWrite where
  address : Address
  balance : UInt64
  balanceBig : Option Nat

structure NonceWrite where
  address : Address
  nonce : UInt64

structure ContractResult where
  output : Bytes
  gasUsed : UInt64
  failed : Bool
  error : GoString
  deployedCode : Bytes
  logs : List ContractLog
  vmTrace : Option Json.Value
  codeWrites : List CodeWrite
  storageWrites : List StorageWrite
  balanceWrites : List BalanceWrite
  nonceWrites : List NonceWrite
  accountDeletions : List Address

section Machines

variable (geth : Geth)

structure BlockContext where
  coinbase : Address
  (gasLimit blockNumber time baseFee blobBaseFee : UInt64)

inductive Message where
  -- core.TransactionToMessage.
  | signed (ethTx : EthTx) (sender : EthAddress) (gasPrice : Nat)
  | plain (invocation : Invocation) (gasLimit : UInt64)

def Message.gasLimit : Message → UInt64
  | .signed ethTx _ _ => ethTx.gas
  | .plain _ gasLimit => gasLimit

-- What ApplyMessage is given: the accounts the state database starts with, the block, the message and the gas of the pool.
structure Transition where
  (caller contract : Address)
  method : GoString
  code : Bytes
  block : BlockContext
  message : Message
  pool : UInt64

-- go-ethereum's interpreter. No message without gas passes the check of the intrinsic gas.
structure Vm where
  applyMessage : Transition → Store → Except GoString ContractResult
  interpret : Invocation → Store → Except GoString ContractResult
  starved : ∀ transition store, transition.message.gasLimit = 0 → ∃ log, applyMessage transition store = .error log

variable (invocation : Invocation)

def gethBlockContext : BlockContext where
  coinbase := invocation.coinbase
  gasLimit := if invocation.blockGasLimit = 0 then invocation.gasLimit else invocation.blockGasLimit
  blockNumber := invocation.blockNumber
  time := invocation.timestamp
  baseFee := invocation.baseFee
  blobBaseFee := invocation.blobBaseFee

def ethereumMessage (gasLimit : UInt64) : Except EvmErr Message :=
  if invocation.rawEthereumTx = [] then .ok (.plain invocation gasLimit)
  else do
    let raw ← orElse .invalidInvocation (Hex.decode (trimPrefix hexPrefix invocation.rawEthereumTx))
    require (raw ≠ []) .invalidInvocation
    let ethTx ← orElse .invalidRawTransaction (geth.unmarshalBinary raw)
    let sender ← orElse .invalidRawTransaction (ethTx.sender (if legacyUnprotected ethTx then none else some ethTx.chainID))
    return .signed ethTx sender (Nat.min (ethTx.gasTipCap + invocation.baseFee.toNat) ethTx.gasFeeCap)

def defaultGas : UInt64 := 10000000

def executeStateTransition (vm : Vm) (invocation : Invocation) (store : Store) : Except EvmErr ContractResult := do
  require (invocation.valueBig < 2 ^ 256) .invalidInvocation
  let gasLimit := if invocation.gasLimit = 0 then defaultGas else invocation.gasLimit
  let message ← ethereumMessage geth invocation gasLimit
  let pool := if invocation.blockGasLimit = 0 ∨ invocation.blockGasLimit < gasLimit then gasLimit else invocation.blockGasLimit
  (vm.applyMessage ⟨invocation.caller, invocation.contract, invocation.method, invocation.code, gethBlockContext invocation, message, pool⟩
    store).mapError .machine

-- GethVM.Execute.
def gethExecute (vm : Vm) (invocation : Invocation) (store : Store) : Except EvmErr ContractResult :=
  if invocation.ethereumTx ∧ invocation.salt = [] then executeStateTransition geth vm invocation store
  else (vm.interpret invocation store).mapError .machine

-- Registry.Execute.
def registryExecute (registry : GoString → Option Vm) (invocation : Invocation) (store : Store) : Except EvmErr ContractResult := do
  require (invocation.vm ≠ [] ∧ invocation.caller ≠ [] ∧ invocation.contract ≠ [] ∧ invocation.method ≠ []) .invalidInvocation
  let vm ← orElse .vmNotFound (registry invocation.vm)
  gethExecute geth vm invocation store

end Machines

end

section Keys

variable (geth : Geth)

def evenDigits (text : GoString) : GoString :=
  let clean := trimPrefix hexPrefix text
  if clean.length % 2 = 1 then 48 :: clean else clean

def leftPadded (width : Nat) (bytes : Bytes) : Bytes := List.replicate (width - bytes.length) 0 ++ bytes

variable (address : Address)

def canonicalAddressKey : GoString :=
  match Hex.decode (evenDigits address) with
  | some decoded => if decoded.length > 20 then address else hexPrefix ++ Hex.encode (leftPadded 20 decoded)
  | none => address

def normalizeSlot (slot : GoString) : GoString :=
  let hashed := (geth.keccak256 slot).bytes
  let decoded := match Hex.decode (evenDigits slot) with
    | some decoded => if decoded.length > 32 then hashed else decoded
    | none => hashed
  hexPrefix ++ Hex.encode (leftPadded 32 decoded)

def addressBytes : Bytes :=
  let hashed := (geth.keccak256 address).bytes.drop 12
  match Hex.decode (evenDigits address) with
  | some decoded => if decoded.length ≤ 20 then leftPadded 20 decoded else hashed
  | none => hashed

def create2Salt (raw : GoString) : Bytes :=
  let hashed := (geth.keccak256 raw).bytes
  match Hex.decode (evenDigits raw) with
  | some decoded => if decoded.length ≤ 32 then leftPadded 32 decoded else hashed
  | none => hashed

def createAddress (caller : Address) (code salt : Bytes) : Address :=
  hexPrefix ++ Hex.encode ((geth.keccak256 (0xff :: addressBytes geth caller ++ salt ++ (geth.keccak256 code).bytes)).bytes.drop 12)

def rlpEncodeUint (value : UInt64) : Bytes :=
  let raw := (putUint64 value).dropWhile (· = 0)
  match raw with
  | [] => [0x80]
  | [byte] => if byte < 0x80 then [byte] else [0x81, byte]
  | raw => UInt8.ofNat (0x80 + raw.length) :: raw

def rlpLegacyCreateAddress (address : Bytes) (nonce : UInt64) : Bytes :=
  let payload := UInt8.ofNat (0x80 + address.length) :: address ++ rlpEncodeUint nonce
  UInt8.ofNat (0xc0 + payload.length) :: payload

def createLegacyAddress (caller : Address) (nonce : UInt64) : Address :=
  hexPrefix ++ Hex.encode ((geth.keccak256 (rlpLegacyCreateAddress (addressBytes geth caller) nonce)).bytes.drop 12)

def codeKey : Bytes := utf8 "code/" ++ canonicalAddressKey address

def storageAccountPrefix : Bytes := utf8 "storage/" ++ (canonicalAddressKey address ++ [47])

def storageKey (slot : GoString) : Bytes :=
  storageAccountPrefix address ++ trimPrefix hexPrefix (normalizeSlot geth slot)

def evmBankKey : Bytes := canonicalAddressKey address

def evmNonceKey : Bytes := nonceKey (canonicalAddressKey address)

variable (hash : GoString)

def receiptKey : Bytes := utf8 "receipts/" ++ trimPrefix hexPrefix hash

def receiptIndexKey : Bytes := utf8 "receipt_index/" ++ trimPrefix hexPrefix hash

def blobSidecarKey : Bytes := utf8 "blob_sidecars/by_tx/" ++ toLower (trimPrefix hexPrefix hash)

def blobSidecarHashIndexKey : Bytes := utf8 "blob_sidecars/by_blob/" ++ toLower (trimPrefix hexPrefix hash)

def latestBlockContextKey : Bytes := utf8 "meta/latest_block_context"

end Keys

structure Log where
  address : GoString
  topics : List GoString
  data : GoString
  blockNumber : UInt64
  transactionHash : GoString
  logIndex : UInt64
  labels : List (GoString × GoString)

structure Receipt where
  txHash : GoString
  height : UInt64
  status : UInt32
  (sender recipient contractAddress vm : GoString)
  gasUsed : UInt64
  (error output : GoString)
  logs : List Log
  (stateDiff vmTrace : Option Json.Value)

structure ReceiptIndex where
  txHash : GoString
  (height txIndex : UInt64)

-- A map is written in the order of its keys.
def mapValue (entries : List (GoString × Json.Value)) : Json.Value :=
  .object ((entries.insertionSort fun left right => left.1 ≤ right.1).map fun entry => (Json.quoteBody entry.1, entry.2))

-- A structure's fields in their order, those marked omitempty left out where they are empty.
def fieldsValue (fields : List (String × Option Json.Value)) : Json.Value :=
  .object (fields.filterMap fun field => field.2.map fun value => (Json.quoteBody (utf8 field.1), value))

def omittedText (text : GoString) : Option Json.Value := if text = [] then none else some (Json.text text)

def omittedNumber (number : UInt64) : Option Json.Value := if number = 0 then none else some (Json.integer number.toNat)

def omittedList (items : List Json.Value) : Option Json.Value := if items = [] then none else some (.array items)

def Log.value (log : Log) : Json.Value :=
  fieldsValue [("address", some (Json.text log.address)), ("topics", omittedList (log.topics.map Json.text)), ("data", omittedText log.data),
    ("block_number", omittedNumber log.blockNumber), ("transaction_hash", omittedText log.transactionHash),
    ("log_index", omittedNumber log.logIndex),
    ("meta", if log.labels = [] then none else some (mapValue (log.labels.map fun label => (label.1, Json.text label.2))))]

def Receipt.value (receipt : Receipt) : Json.Value :=
  fieldsValue [("tx_hash", some (Json.text receipt.txHash)), ("height", some (Json.integer receipt.height.toNat)),
    ("status", some (Json.integer receipt.status.toNat)), ("from", some (Json.text receipt.sender)), ("to", omittedText receipt.recipient),
    ("contract_address", omittedText receipt.contractAddress), ("vm", some (Json.text receipt.vm)),
    ("gas_used", some (Json.integer receipt.gasUsed.toNat)), ("error", omittedText receipt.error), ("output", omittedText receipt.output),
    ("logs", omittedList (receipt.logs.map Log.value)), ("state_diff", receipt.stateDiff), ("vm_trace", receipt.vmTrace)]

def ReceiptIndex.value (index : ReceiptIndex) : Json.Value :=
  fieldsValue [("tx_hash", some (Json.text index.txHash)), ("height", some (Json.integer index.height.toNat)),
    ("tx_index", some (Json.integer index.txIndex.toNat))]

def logOrderKey (log : Log) : Bytes :=
  Rfc3339.padded 20 log.blockNumber.toNat ++ 47 :: trimPrefix hexPrefix log.transactionHash ++ 47 :: Rfc3339.padded 20 log.logIndex.toNat

def globalLogKey (log : Log) : Bytes := utf8 "logs/by_height/" ++ logOrderKey log

def addressLogKey (log : Log) : Bytes := utf8 "logs/by_address/" ++ log.address ++ 47 :: logOrderKey log

section Results

variable (geth : Geth)

structure AccountDiff where
  (balance nonce code : Option Json.Value)
  storage : List (GoString × Json.Value)
  deleted : Bool

def AccountDiff.blank : AccountDiff := ⟨none, none, none, [], false⟩

def AccountDiff.value (diff : AccountDiff) : Json.Value :=
  fieldsValue [("balance", diff.balance), ("code", diff.code), ("delete", if diff.deleted then some (.bool true) else none),
    ("nonce", diff.nonce), ("storage", if diff.storage = [] then none else some (mapValue diff.storage))]

def changedTo (text : GoString) : Json.Value := fieldsValue [("to", some (Json.text text))]

def removed : Json.Value := fieldsValue [("delete", some (.bool true))]

def changedBytes : Option Bytes → Json.Value
  | some bytes => changedTo (hexPrefix ++ Hex.encode bytes)
  | none => removed

def hexQuantity (value : Nat) : GoString :=
  hexPrefix ++ (if value = 0 then [48] else (Nat.digits 16 value).reverse.map Hex.digit)

def changeAccount (defaultAddress : Address) (diff : Table GoString AccountDiff) (address : Address) (change : AccountDiff → AccountDiff) :
    Table GoString AccountDiff :=
  let address := if address = [] then defaultAddress else address
  if address = [] then diff
  else
    let key := canonicalAddressKey address
    diff.insert key (change ((diff.lookup key).getD .blank))

def putStorage (slot : GoString) (value : Json.Value) (storage : List (GoString × Json.Value)) : List (GoString × Json.Value) :=
  storage.filter (fun entry => entry.1 ≠ slot) ++ [(slot, value)]

def stateDiffFromResult (result : ContractResult) (defaultAddress : Address) : Option Json.Value :=
  let change := changeAccount defaultAddress
  let diff := result.balanceWrites.foldl (fun diff write => change diff write.address fun account =>
    { account with balance := some (changedTo (hexQuantity (write.balanceBig.getD write.balance.toNat))) }) ∅
  let diff := result.nonceWrites.foldl (fun diff write => change diff write.address fun account =>
    { account with nonce := some (changedTo (hexQuantity write.nonce.toNat)) }) diff
  let diff := result.codeWrites.foldl (fun diff write => change diff write.address fun account =>
    { account with code := some (changedBytes write.code) }) diff
  let diff := result.storageWrites.foldl (fun diff write =>
    if write.slot = [] then diff
    else change diff write.address fun account =>
      { account with storage := putStorage (normalizeSlot geth write.slot) (changedBytes write.value) account.storage }) diff
  let diff := result.accountDeletions.foldl (fun diff address => change diff address fun account => { account with deleted := true }) diff
  if diff.entries = [] then none else some (mapValue (diff.entries.map fun entry => (entry.1, AccountDiff.value entry.2)))

def txHash (tx : Tx) : GoString :=
  let tagged := (txTag tx tagHash).getD []
  if tagged = [] then hashHex (Sha256.sum256 tx) else tagged

-- With a contract address the receipt is that of a deployment.
def receiptFromResult (hash : GoString) (height : Height) (invocation : Invocation) (contractAddress : Address) (result : ContractResult) :
    Receipt where
  txHash := hash
  height := height
  status := if result.failed then 0 else 1
  sender := invocation.caller
  recipient := if contractAddress = [] then invocation.contract else []
  contractAddress := contractAddress
  vm := invocation.vm
  gasUsed := result.gasUsed
  error := if result.failed then result.error else []
  output := hexPrefix ++ Hex.encode result.output
  logs := result.logs.mapIdx fun index log =>
    ⟨log.address, log.topics, hexPrefix ++ Hex.encode log.data, height, hash, UInt64.ofNat index, log.labels⟩
  stateDiff := stateDiffFromResult geth result (if contractAddress = [] then invocation.contract else contractAddress)
  vmTrace := result.vmTrace

def codeKVWrites (writes : List CodeWrite) : Except EvmErr (List KVWrite) :=
  writes.mapM fun write => do
    require (write.address ≠ []) .invalidEVMTx
    return ⟨evmSpace, codeKey write.address, write.code⟩

def storageKVWrites (defaultAddress : Address) (writes : List StorageWrite) : Except EvmErr (List KVWrite) :=
  writes.mapM fun write => do
    let address := if write.address = [] then defaultAddress else write.address
    require (address ≠ [] ∧ write.slot ≠ []) .invalidEVMTx
    return ⟨evmSpace, storageKey geth address write.slot, write.value⟩

def encodeEthereumBalance (write : BalanceWrite) : Except EvmErr Bytes :=
  match write.balanceBig with
  | some balance => do
      require (balance < 2 ^ 256) .invalidEVMTx
      return if balance = 0 then [0] else BigEndian.minimal balance
  | none => .ok (putUint64 write.balance)

def balanceKVWrites (writes : List BalanceWrite) : Except EvmErr (List KVWrite) :=
  writes.mapM fun write => do
    require (write.address ≠ []) .invalidEVMTx
    let encoded ← encodeEthereumBalance write
    return ⟨bankSpace, evmBankKey write.address, some encoded⟩

def nonceKVWrites (writes : List NonceWrite) : Except EvmErr (List KVWrite) :=
  writes.mapM fun write => do
    require (write.address ≠ []) .invalidEVMTx
    return ⟨authSpace, evmNonceKey write.address, some (putUint64 write.nonce)⟩

def accountDeletionKVWrites (store : Store) (deletions : List Address) : Except EvmErr (List KVWrite) := do
  let writes ← deletions.mapM fun address => do
    require (address ≠ []) EvmErr.invalidEVMTx
    let slots := (store.exportNamespace evmSpace).filter fun pair => (storageAccountPrefix address).isPrefixOf pair.1
    return ([⟨evmSpace, codeKey address, none⟩, ⟨bankSpace, evmBankKey address, none⟩, ⟨authSpace, evmNonceKey address, none⟩] ++
      slots.map fun pair => ⟨evmSpace, pair.1, none⟩ : List KVWrite)
  return writes.flatten

def executionResultWrites (store : Store) (defaultAddress : Address) (result : ContractResult) : Except EvmErr (List KVWrite) := do
  let codeWrites ← codeKVWrites result.codeWrites
  let storageWrites ← storageKVWrites geth defaultAddress result.storageWrites
  let balanceWrites ← balanceKVWrites result.balanceWrites
  let nonceWrites ← nonceKVWrites result.nonceWrites
  let deletionWrites ← accountDeletionKVWrites store result.accountDeletions
  return codeWrites ++ storageWrites ++ balanceWrites ++ nonceWrites ++ deletionWrites

def logWrites (log : Log) : List KVWrite :=
  if log.address = [] then []
  else [⟨evmSpace, globalLogKey log, some (Json.render log.value)⟩, ⟨evmSpace, addressLogKey log, some (Json.render log.value)⟩]

def receiptWrites (receipt : Receipt) : List KVWrite :=
  ⟨evmSpace, receiptKey receipt.txHash, some (Json.render receipt.value)⟩ :: receipt.logs.flatMap logWrites

def persistReceipt (store : Store) (receipt : Receipt) : Store := store.setBatch (receiptWrites receipt)

end Results

structure Policy where
  allowUnprotectedLegacyTx : Bool
  (maxBlobSidecarBlobs maxBlobSidecarBytes : UInt64)

structure Module where
  geth : Geth
  registry : GoString → Option Vm
  policy : Policy

-- The fields of vexoapp.Context that the module reads, its store apart.
structure AppContext where
  chainID : GoString
  evmChainID : UInt64
  height : Height
  timeUnixNano : Int64
  (baseFee blobBaseFee : UInt64)
  gas : Option GasMeter

variable (ctx : AppContext)

def AppContext.gasLimit : UInt64 := ctx.gas.elim 0 GasMeter.limit

structure EvmFailure where
  code : Nat
  log : EvmErr
deriving DecidableEq

structure Delivered where
  receipt : Receipt
  gas : Option GasMeter

def headerUnixSeconds (timeUnixNano : Int64) : UInt64 := UInt64.ofNat (timeUnixNano.toInt.toNat / 1000000000)

-- big.Int.SetString in base ten, then the checks of parseAmountBig.
def parseAmountBig (raw : GoString) : Except EvmErr Nat :=
  if raw = [] then .ok 0
  else do
    let digits := if raw.head? = some 43 ∨ raw.head? = some 45 then raw.tail else raw
    require (Economics.decimalDigits digits) .invalidEVMTx
    require (¬ (raw.head? = some 45 ∧ Decimal.value digits ≠ 0) ∧ Decimal.value digits < 2 ^ 256) .invalidEVMTx
    return Decimal.value digits

variable (tx : Tx)

def txAmountTagBig (key : GoString) : Option Nat := (txAmountBigTag tx key).filter fun value => value < 2 ^ 256

def txGasPrice : UInt64 :=
  let txMeta := parseTxMeta tx
  let fee := Nat.min txMeta.feeBig (2 ^ 64 - 1)
  (txUintTag tx tagGasPrice).getD (if txMeta.gas > 0 ∧ fee > 0 then UInt64.ofNat (fee / txMeta.gas.toNat) else 0)

def txGasPriceBig : Option Nat :=
  let txMeta := parseTxMeta tx
  (txAmountTagBig tx tagGasPrice).or (if txMeta.gas > 0 ∧ txMeta.feeBig > 0 then some (txMeta.feeBig / txMeta.gas.toNat) else none)

def txGasFeeCap : UInt64 := (txUintTag tx tagMaxFeePerGas).getD (txGasPrice tx)

def txGasFeeCapBig : Option Nat := (txAmountTagBig tx tagMaxFeePerGas).or (txGasPriceBig tx)

def txGasTipCap : UInt64 := (txUintTag tx tagMaxPriorityFeePerGas).getD (txGasPrice tx)

def txGasTipCapBig : Option Nat := (txAmountTagBig tx tagMaxPriorityFeePerGas).or (txGasPriceBig tx)

def txBlobGasFeeCap : UInt64 := (txUintTag tx tagBlobGasFeeCap).getD 0

def txBlobGasFeeCapBig : Option Nat := txAmountTagBig tx tagBlobGasFeeCap

def txNonce : UInt64 := (txUintTag tx (utf8 "nonce")).getD 0

def txRawEthereum : GoString := (txTag tx tagRaw).getD []

def positive (value : Option UInt64) : Option UInt64 := value.filter fun number => number > 0

def txGasLimit (fallback : UInt64) : UInt64 :=
  if isEthereumTx tx then ((positive (txUintTag tx (utf8 "gas"))).or (positive (txUintTag tx (utf8 "gas_limit")))).getD fallback else fallback

-- txExecutionBaseFee and txExecutionBlobBaseFee.
def executionFee (ofBlock : UInt64) (key : GoString) : UInt64 :=
  if isEthereumTx tx ∧ ofBlock > 0 then ofBlock else (positive (txUintTag tx key)).getD ofBlock

def txExecutionBaseFee (tx : Tx) : UInt64 := executionFee tx ctx.baseFee tagBaseFee

def txExecutionBlobBaseFee (tx : Tx) : UInt64 := executionFee tx ctx.blobBaseFee tagBlobBaseFee

def hashBytes (text : GoString) : Option Bytes := (Hex.decode (trimPrefix hexPrefix text)).filter fun decoded => decoded.length = 32

def txBlobHashStrings : List GoString :=
  let hashes := do
    let raw ← Base64.decodeRaw ((txTag tx tagBlobHashes).getD [])
    Json.unmarshal [] intoTexts raw
  (hashes.getD []).filterMap fun hash => (hashBytes hash).map fun decoded => hexPrefix ++ Hex.encode decoded

def parseBlobHashes (raw : List GoString) : List Bytes := (raw.mapM hashBytes).getD []

def txBlobHashes : List Bytes := parseBlobHashes (txBlobHashStrings tx)

def accessListFields : List (Bytes × Json.Decoder (GoString × List GoString)) :=
  [Json.field "address" Prod.fst Json.intoText fun entry part => (part, entry.2),
    Json.field "storage_keys" Prod.snd intoTexts fun entry part => (entry.1, part)]

def accessListFromTx : List (GoString × List GoString) :=
  let entries := do
    let raw ← Base64.decodeRaw ((txTag tx tagAccessList).getD [])
    Json.unmarshal [] (Json.intoList ([], []) (Json.intoStruct accessListFields)) raw
  entries.getD []

section Handlers

variable (module : Module)
variable (ctx : AppContext) (tx : Tx)

def validateEthereumRawTx : Except EvmErr Unit :=
  if isEthereumTx tx then
    validateCanonicalTxForExecution module.geth tx
      { chainID := if ctx.evmChainID = 0 then chainNumericID ctx.chainID else ctx.evmChainID
        baseFee := ctx.baseFee
        blobBaseFee := ctx.blobBaseFee
        vm := []
        allowUnprotectedLegacy := module.policy.allowUnprotectedLegacyTx }
  else .ok ()

def sameBlobHashes (left right : List GoString) : Bool := left.map toLower = right.map toLower

def validateBlobSidecarLimits (encoded : GoString) (bundle : BlobSidecarBundle) : Except EvmErr Unit := do
  let maxBlobs := if module.policy.maxBlobSidecarBlobs = 0 then 6 else module.policy.maxBlobSidecarBlobs
  let maxBytes := if module.policy.maxBlobSidecarBytes = 0 then 2097152 else module.policy.maxBlobSidecarBytes
  require (bundle.blobHashes.length ≤ maxBlobs.toNat) .invalidBlobSidecar
  require (encoded.length ≤ maxBytes.toNat) .invalidBlobSidecar

def blobSidecarBundleFromTx : Except EvmErr BlobSidecarBundle :=
  let expectedHashes := txBlobHashStrings tx
  let encoded := (txTag tx tagBlobSidecar).getD []
  if encoded = [] then do
    require (expectedHashes = []) .invalidBlobSidecar
    return .empty
  else do
    let bundle ← decodeBlobSidecarBundle module.geth encoded
    require (sameBlobHashes expectedHashes bundle.blobHashes) .invalidBlobSidecar
    validateBlobSidecarLimits module encoded bundle
    return bundle

def sidecarDocument (hash : GoString) (bundle : BlobSidecarBundle) : Json.Value :=
  Json.object ["tx_hash", "sidecar"] [Json.text hash, Json.object ["blob_hashes", "blobs", "commitments", "proofs"]
    ([bundle.blobHashes, bundle.blobs, bundle.commitments, bundle.proofs].map fun items => Json.list (items.map Json.text))]

-- The writes of persistBlobSidecar.
def blobSidecarWrites : Except EvmErr (List KVWrite) := do
  let bundle ← blobSidecarBundleFromTx module tx
  let hash := txHash tx
  return if bundle.blobHashes = [] then []
    else ⟨evmSpace, blobSidecarKey hash, some (Json.render (sidecarDocument hash bundle))⟩ ::
      bundle.blobHashes.map fun blobHash => ⟨evmSpace, blobSidecarHashIndexKey blobHash, some hash⟩

-- A price that fits is kept in both widths.
def narrowed (small : UInt64) (big : Option Nat) : UInt64 := ((big.filter fun value => value < 2 ^ 64).map UInt64.ofNat).getD small

-- What the three handlers read from the block and from the tags, with applyInvocationGasPricing.
def invocationOf (vm : GoString) (caller contract : Address) (method : GoString) (input : Bytes) (gasLimit : UInt64)
    (value : Nat) (code salt : Bytes) (nonce : UInt64) : Invocation where
  vm := vm
  caller := caller
  contract := contract
  method := method
  input := input
  gasLimit := gasLimit
  valueBig := value
  code := code
  salt := salt
  accessList := accessListFromTx tx
  blockNumber := ctx.height
  nonce := nonce
  timestamp := headerUnixSeconds ctx.timeUnixNano
  baseFee := txExecutionBaseFee ctx tx
  blobBaseFee := txExecutionBlobBaseFee ctx tx
  blobHashes := txBlobHashes tx
  gasPrice := narrowed (txGasPrice tx) (txGasPriceBig tx)
  gasPriceBig := txGasPriceBig tx
  gasFeeCap := narrowed (txGasFeeCap tx) (txGasFeeCapBig tx)
  gasFeeCapBig := txGasFeeCapBig tx
  gasTipCap := narrowed (txGasTipCap tx) (txGasTipCapBig tx)
  gasTipCapBig := txGasTipCapBig tx
  blobGasFeeCap := narrowed (txBlobGasFeeCap tx) (txBlobGasFeeCapBig tx)
  blobGasFeeCapBig := txBlobGasFeeCapBig tx
  blockGasLimit := ctx.gasLimit
  coinbase := utf8 "fee_collector"
  ethereumTx := isEthereumTx tx
  rawEthereumTx := txRawEthereum tx

abbrev Outcome := Store × Except EvmFailure Delivered

-- What follows the handler's own checks: the call of the machine, its gas, its writes and the receipt.
def settle (created sidecar : Bool) (store : Store) (invocation : Invocation) : Outcome :=
  match registryExecute module.geth module.registry invocation store with
  | .error reason => (store, .error ⟨4, reason⟩)
  | .ok result =>
    match consumeGas ctx.gas result.gasUsed with
    | .error reason => (store, .error ⟨6, .app reason⟩)
    | .ok gas =>
      let deployed := if result.deployedCode = [] then invocation.input else result.deployedCode
      let store := if created ∧ result.failed = false then store.write ⟨evmSpace, codeKey invocation.contract, some deployed⟩ else store
      match executionResultWrites module.geth store invocation.contract result with
      | .error reason => (store, .error ⟨4, reason⟩)
      | .ok writes =>
        let receipt := receiptFromResult module.geth (txHash tx) ctx.height invocation (if created then invocation.contract else []) result
        let store := persistReceipt (store.setBatch writes) receipt
        match (if sidecar then blobSidecarWrites module tx else .ok []) with
        | .error reason => (store, .error ⟨4, reason⟩)
        | .ok writes => (store.setBatch writes, .ok ⟨receipt, gas⟩)

-- callInvocationFromArgs.
def callArguments (store : Store) : List GoString → Except EvmErr Invocation
  | vm :: caller :: contract :: method :: input :: gasLimit :: value => do
      require (value.length ≤ 1) .invalidEVMTx
      let input ← orElse .invalidEVMTx (Hex.decode (trimPrefix hexPrefix input))
      let gasLimit ← orElse .invalidEVMTx (FairOrdering.parseUint gasLimit)
      let value ← parseAmountBig (value.headD [])
      require (vm ≠ [] ∧ caller ≠ [] ∧ contract ≠ [] ∧ method ≠ []) .invalidEVMTx
      let code := (store.get evmSpace (codeKey contract)).getD []
      return invocationOf ctx tx vm caller contract method input gasLimit value code [] (txNonce tx)
  | _ => .error .invalidEVMTx

def deployArguments : List GoString → Except EvmErr Invocation
  | vm :: caller :: code :: salt :: value => do
      require (value.length ≤ 1) .invalidEVMTx
      let code ← orElse .invalidEVMTx (Hex.decode (trimPrefix hexPrefix code))
      require (code ≠ []) .invalidEVMTx
      let value ← parseAmountBig (value.headD [])
      let salt := create2Salt module.geth salt
      return invocationOf ctx tx vm caller (createAddress module.geth caller code salt) (utf8 "deploy") code (txGasLimit tx ctx.gasLimit) value [] salt
        (txNonce tx)
  | _ => .error .invalidEVMTx

def ethereumDeployArguments : List GoString → Except EvmErr Invocation
  | [vm, caller, code, nonce, value] => do
      let code ← orElse .invalidEVMTx (Hex.decode (trimPrefix hexPrefix code))
      require (code ≠ []) .invalidEVMTx
      let nonce ← orElse .invalidEVMTx (FairOrdering.parseUint nonce)
      let value ← parseAmountBig value
      return invocationOf ctx tx vm caller (createLegacyAddress module.geth caller nonce) (utf8 "deploy") code (txGasLimit tx ctx.gasLimit) value [] []
        nonce
  | _ => .error .invalidEVMTx

-- A handler's own checks answer with code 3 and leave the store alone.
def handle (created sidecar : Bool) (store : Store) (checked : Except EvmErr Invocation) : Outcome :=
  match checked with
  | .error reason => (store, .error ⟨3, reason⟩)
  | .ok invocation => settle module ctx tx created sidecar store invocation

variable (args : List GoString)

def deliverCall (store : Store) : Outcome :=
  handle module ctx tx false true store do
    let _ ← blobSidecarBundleFromTx module tx
    callArguments ctx tx store args

def deliverDeploy (store : Store) : Outcome :=
  handle module ctx tx true false store (deployArguments module ctx tx args)

def deliverEthereumDeploy (store : Store) : Outcome :=
  handle module ctx tx true true store do
    let _ ← blobSidecarBundleFromTx module tx
    ethereumDeployArguments module ctx tx args

def deliverTx (store : Store) : Outcome :=
  match parseCanonicalTx tx with
  | .error _ => (store, .error ⟨2, .invalidEVMTx⟩)
  | .ok canonical =>
    if canonical.module ≠ evmSpace then (store, .error ⟨2, .invalidEVMTx⟩)
    else if canonical.action = utf8 "call" then
      match validateEthereumRawTx module ctx tx with
      | .error reason => (store, .error ⟨3, reason⟩)
      | .ok _ => deliverCall module ctx tx canonical.args store
    else if canonical.action = utf8 "deploy" then deliverDeploy module ctx tx canonical.args store
    else if canonical.action = utf8 "eth_deploy" then
      match validateEthereumRawTx module ctx tx with
      | .error reason => (store, .error ⟨3, reason⟩)
      | .ok _ => deliverEthereumDeploy module ctx tx canonical.args store
    else (store, .error ⟨2, .invalidEVMTx⟩)

end Handlers

end Vexo.Evm
