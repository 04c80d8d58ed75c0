import VexoConsensus.Modules.Evm.Delivery

namespace Vexo.Evm

open ByteCodec Checks GoText OrderedMap App List Hex Decimal

section

variable {tags : List (GoString × GoString)} (bytes : Bytes)

def Plain (text : GoString) : Prop := ∀ byte ∈ text, byte ≠ 58 ∧ byte ≠ 61

theorem Plain.append {left right : GoString} (first : Plain left) (second : Plain right) : Plain (left ++ right) := by
  intro byte member
  rcases mem_append.mp member with inside | inside
  · exact first byte inside
  · exact second byte inside

theorem Plain.colon {text : GoString} (plain : Plain text) : 58 ∉ text := fun member => (plain 58 member).1 rfl

variable {key : GoString}

section Decoded

variable {geth : Geth} {rawHex : GoString} {ethTx : EthTx} {sender : EthAddress} {chainID : UInt64} {options : DecodeOptions} {gasPrice fee : Nat}

def tagNames : List GoString :=
  [utf8 "fee", utf8 "gas", utf8 "signer", utf8 "nonce", tagHash, tagRaw, tagType, tagInput, tagChainID, tagBaseFee, tagGasPrice, tagEthValue,
    tagMaxFeePerGas, tagMaxPriorityFeePerGas, tagBlobBaseFee, tagBlobGas, tagBlobGasFeeCap, tagBlobHashes, tagAccessList]

theorem tag_names_nodup : tagNames.Nodup := by with_unfolding_all decide

theorem decoded_keys : ((decodedTags geth rawHex ethTx sender chainID options gasPrice fee).map Prod.fst).Sublist tagNames := by
  by_cases blobs : ethTx.blobHashes = [] <;> by_cases accesses : ethTx.accessList = [] <;>
    simp only [decodedTags, blobs, accesses, if_true, if_false, append_nil, map_cons, map_nil, tagNames,
      cons_append, nil_append, cons_sublist_cons, Sublist.refl, nil_sublist]
  exact sublist_cons_self ..

def tagTable (tags : List (GoString × GoString)) : Table GoString GoString := tags.foldl (fun table tag => table.insert tag.1 tag.2) ∅

theorem table_tag (distinct : (tags.map Prod.fst).Nodup) {tag : GoString × GoString} (member : tag ∈ tags) :
    (tagTable tags).lookup tag.1 = some tag.2 := lookup_insert_member distinct member ∅

theorem decoded_distinct : ((decodedTags geth rawHex ethTx sender chainID options gasPrice fee).map Prod.fst).Nodup :=
  tag_names_nodup.sublist decoded_keys

structure Reads (geth : Geth) (options : DecodeOptions) (rawText : GoString) (ethTx : EthTx) (sender : EthAddress) (chainID : UInt64)
    (gasPrice fee : Nat) : Prop where
  decoded : ∃ raw, Hex.decode (trimPrefix hexPrefix (normalizeHex rawText)) = some raw ∧ raw ≠ [] ∧ geth.unmarshalBinary raw = some ethTx
  chain : resolvedChainID ethTx options.chainID = .ok chainID
  signed : senderOf ethTx chainID = some sender
  price : effectiveGasPriceBig ethTx options.baseFee = .ok gasPrice
  total : ∃ blobs, blobFee ethTx options = .ok blobs ∧ fee = ethTx.gas.toNat * gasPrice + blobs

end Decoded

section Validated

variable {module : Module} {ctx : AppContext} {tx : Tx}

def executionOptions (module : Module) (ctx : AppContext) : DecodeOptions where
  chainID := if ctx.evmChainID = 0 then chainNumericID ctx.chainID else ctx.evmChainID
  baseFee := ctx.baseFee
  blobBaseFee := ctx.blobBaseFee
  vm := []
  allowUnprotectedLegacy := module.policy.allowUnprotectedLegacyTx

-- A transaction with raw bytes that was validated: its module, action, arguments and execution tags are those of the raw transaction.
structure Carries (module : Module) (ctx : AppContext) (tx : Tx) (canonical : CanonicalTx) (ethTx : EthTx) (sender : EthAddress) (chainID : UInt64)
    (gasPrice fee : Nat) : Prop where
  parsed : parseCanonicalTx tx = .ok canonical
  reads : Reads module.geth (executionOptions module ctx) (txRawEthereum tx) ethTx sender chainID gasPrice fee
  ofModule : canonical.module = evmSpace
  action : canonical.action = decodedAction ethTx
  args : canonical.args = decodedArgs module.geth defaultVM ethTx sender
  tags : ∀ key ∈ executionTags, CanonicalTx.tag canonical key =
    ((tagTable (decodedTags module.geth (normalizeHex (txRawEthereum tx)) ethTx sender chainID (executionOptions module ctx) gasPrice fee)).lookup
      key).getD []

variable {canonical : CanonicalTx} {ethTx : EthTx} {sender : EthAddress} {chainID : UInt64} {gasPrice fee : Nat}

theorem tx_tag_parsed (parsed : parseCanonicalTx tx = .ok canonical) (key : GoString) : txTag tx key = canonical.tags.lookup key := by
  rw [txTag, parsed]

section

variable (carries : Carries module ctx tx canonical ethTx sender chainID gasPrice fee)
include carries

theorem Carries.text (listed : key ∈ executionTags) :
    (txTag tx key).getD [] = ((tagTable (decodedTags module.geth (normalizeHex (txRawEthereum tx)) ethTx sender chainID
      (executionOptions module ctx) gasPrice fee)).lookup key).getD [] := by
  rw [tx_tag_parsed carries.parsed]
  exact carries.tags key listed

theorem Carries.tagged {value : GoString} (listed : key ∈ executionTags)
    (member : (key, value) ∈ decodedTags module.geth (normalizeHex (txRawEthereum tx)) ethTx sender chainID (executionOptions module ctx) gasPrice fee) :
    (txTag tx key).getD [] = value := by
  rw [carries.text listed, table_tag decoded_distinct member]
  rfl

end

theorem execution_tags_listed : [utf8 "gas", utf8 "signer", utf8 "nonce", tagHash, tagRaw, tagBlobHashes] ⊆ executionTags := by
  with_unfolding_all decide

section

variable (carries : Carries module ctx tx canonical ethTx sender chainID gasPrice fee)
include carries

theorem Carries.hash : (txTag tx tagHash).getD [] = hashHex ethTx.hash :=
  carries.tagged (execution_tags_listed (by simp)) (by simp [decodedTags])

theorem Carries.raw : txRawEthereum tx = normalizeHex (txRawEthereum tx) :=
  carries.tagged (execution_tags_listed (by simp)) (by simp [decodedTags])

theorem Carries.gas : (txTag tx (utf8 "gas")).getD [] = decimal ethTx.gas :=
  carries.tagged (execution_tags_listed (by simp)) (by simp [decodedTags])

end

theorem hash_hex_named (hash : Hash) : hashHex hash ≠ [] := append_ne_nil_of_left_ne_nil (by with_unfolding_all decide) _

theorem Carries.txHash (carries : Carries module ctx tx canonical ethTx sender chainID gasPrice fee) : txHash tx = hashHex ethTx.hash := by
  unfold Evm.txHash
  rw [carries.hash]
  exact if_neg (hash_hex_named _)

end Validated

end

section Sidecars

variable {module : Module} {ctx : AppContext} {tx : Tx} {canonical : CanonicalTx} {ethTx : EthTx} {sender : EthAddress} {chainID : UInt64}
  {gasPrice fee : Nat}

variable {bundle : BlobSidecarBundle}

end Sidecars

section Delivered

variable {module : Module} {ctx : AppContext} {tx : Tx} {canonical : CanonicalTx} {ethTx : EthTx} {sender : EthAddress} {chainID : UInt64}
  {gasPrice fee : Nat}

variable (carries : Carries module ctx tx canonical ethTx sender chainID gasPrice fee)
include carries

end Delivered

section Relays

-- The result code, the receipt and the state after it; the text of an error is no part of it.
def observed (outcome : Outcome) : Store × Except Nat Delivered := (outcome.1, outcome.2.mapError EvmFailure.code)

variable {module : Module} {ctx : AppContext} {tx first second : Tx}

variable {sender : EthAddress} {canonical : CanonicalTx} {chainID : UInt64} {gasPrice : Nat} {fee : Nat} {canonical' : CanonicalTx}

end Relays

end Vexo.Evm
