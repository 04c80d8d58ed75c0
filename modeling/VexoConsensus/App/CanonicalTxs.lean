import VexoConsensus.App.Balances
import VexoConsensus.Economics
import VexoConsensus.Lib.Base64
import VexoConsensus.Lib.Json

namespace Vexo.App

open ByteCodec Checks GoText FairOrdering OrderedMap List AList

section

section

structure SignedTxEnvelope where
  (schemaVersion chainID payload publicKey signature : GoString)
deriving DecidableEq

def signedTxPrefix : GoString := utf8 "signed:"

variable (tx : Tx)

def isSignedTx : Bool := signedTxPrefix.isPrefixOf tx

def unmarshalEnvelope (document : Bytes) : Option SignedTxEnvelope :=
  let names := [utf8 "schema_version", utf8 "chain_id", utf8 "payload", utf8 "public_key", utf8 "signature"]
  (Json.readTexts names document).map fun texts =>
    ⟨texts (utf8 "schema_version"), texts (utf8 "chain_id"), texts (utf8 "payload"), texts (utf8 "public_key"), texts (utf8 "signature")⟩

def decoded {Value : Type} (value : Option Value) : Except AppErr Value :=
  match value with
  | some value => .ok value
  | none => .error .invalidSignedTx

def decodeSignedTx : Except AppErr (SignedTxEnvelope × Tx) := do
  require (isSignedTx tx) .invalidSignedTx
  let document ← decoded (Base64.decodeStd (trimPrefix signedTxPrefix tx))
  let envelope ← decoded (unmarshalEnvelope document)
  require (envelope.schemaVersion = utf8 "v1" ∧ envelope.payload ≠ [] ∧ envelope.publicKey ≠ [] ∧ envelope.signature ≠ []) .invalidSignedTx
  let payload ← decoded (Base64.decodeStd envelope.payload)
  return (envelope, payload)

def txPayload : Tx :=
  match decodeSignedTx tx with
  | .ok (_, payload) => payload
  | .error _ => tx

structure CanonicalTx where
  (module action : GoString)
  args : List GoString
  tags : Table GoString GoString

def addPart (canonical : CanonicalTx) (part : GoString) : Except AppErr CanonicalTx :=
  match cut 61 part with
  | some (key, value) =>
    if key = [] then .error .invalidCanonicalTx else .ok { canonical with tags := canonical.tags.insert key value }
  | none => .ok { canonical with args := canonical.args ++ [part] }

def parseCanonicalTx : Except AppErr CanonicalTx :=
  match (txPayload tx).splitOn 58 with
  | [] => .error .missingTxModule
  | [_] => .error .missingTxModule
  | module :: action :: parts =>
    if module = [] then .error .missingTxModule
    else if action = [] then .error .missingTxAction
    else parts.foldlM addPart ⟨module, action, [], ∅⟩

variable (key : GoString)

def txTag : Option GoString :=
  match parseCanonicalTx tx with
  | .ok canonical => canonical.tags.lookup key
  | .error _ => none

def txUintTag : Option UInt64 := (txTag tx key).bind parseUint

def txAmountBigTag : Option Nat := (txTag tx key).bind fun value => (Economics.parseAmountBig value).toOption

variable (chainID : GoString) (payload : Tx)

def signedTxSignBytes : Bytes := utf8 "vexo:signed-tx:v1\n" ++ chainID ++ 10 :: payload

def validatePayloadSignerAddress (publicKey : PublicKey) : Except AppErr Unit :=
  match txTag payload (utf8 "signer") with
  | none => .ok ()
  | some signer =>
    if signer = [] then .ok ()
    else do
      let expected ← Address.accountFromPublicKey publicKey
      require (signer = expected) .signerAddressMismatch

structure Signer where
  publicKey : PublicKey
  sign : Bytes → Except AppErr Signature

def marshalEnvelope (envelope : SignedTxEnvelope) : Bytes :=
  Json.encodeObject [(utf8 "schema_version", .text envelope.schemaVersion), (utf8 "chain_id", .text envelope.chainID),
    (utf8 "payload", .text envelope.payload), (utf8 "public_key", .text envelope.publicKey), (utf8 "signature", .text envelope.signature)]

def signTx (signer : Signer) : Except AppErr Tx := do
  validatePayloadSignerAddress payload signer.publicKey
  let signature ← signer.sign (signedTxSignBytes chainID payload)
  let envelope : SignedTxEnvelope := ⟨utf8 "v1", chainID, Base64.encodeStd payload, Base64.encodeStd signer.publicKey, Base64.encodeStd signature⟩
  return signedTxPrefix ++ Base64.encodeStd (marshalEnvelope envelope)

abbrev TxSignatureVerifier := PublicKey → Bytes → Signature → Bool

def verifySignedTx (tx : Tx) (verify : TxSignatureVerifier) : Except AppErr Unit := do
  let (envelope, payload) ← decodeSignedTx tx
  require (envelope.chainID = chainID) .invalidSignedTx
  let publicKey ← decoded (Base64.decodeStd envelope.publicKey)
  let signature ← decoded (Base64.decodeStd envelope.signature)
  require (verify publicKey (signedTxSignBytes chainID payload) signature) .invalidTxSignature
  validatePayloadSignerAddress payload publicKey

end

structure GasMeter where
  (limit used : UInt64)
deriving DecidableEq

def GasMeter.consume (meter : GasMeter) (amount : UInt64) : Except AppErr GasMeter :=
  if amount = 0 then .ok meter
  else do
    require (meter.used ≤ ~~~0 - amount) .outOfGas
    let next := meter.used + amount
    require (¬ (meter.limit > 0 ∧ next > meter.limit)) .outOfGas
    return { meter with used := next }

-- A transaction runs under a meter only where an ante handler is configured.
def consumeGas (gas : Option GasMeter) (amount : UInt64) : Except AppErr (Option GasMeter) :=
  match gas with
  | none => .ok none
  | some meter => (meter.consume amount).map some

structure Failure where
  code : Nat
  log : AppErr
deriving DecidableEq

def failing {Value : Type} (code : Nat) (outcome : Except AppErr Value) : Except Failure Value := outcome.mapError fun log => ⟨code, log⟩

theorem failing_ok_iff {Value : Type} (code : Nat) (outcome : Except AppErr Value) (value : Value) :
    failing code outcome = .ok value ↔ outcome = .ok value := by
  cases outcome <;> simp [failing, Except.mapError]

-- bankTxParts leaves out every part with an equal sign.
def untaggedParts (tx : Tx) : List GoString := (tx.splitOn 58).filter fun part => 61 ∉ part

def isExecutionTagPart (part : GoString) : Bool :=
  [utf8 "fee=", utf8 "gas=", utf8 "signer=", utf8 "nonce="].any fun tag => tag.isPrefixOf part

-- stakingTxParts and governanceTxParts leave out the parts of the four execution tags.
def executionParts (tx : Tx) : List GoString := (tx.splitOn 58).filter fun part => !isExecutionTagPart part

structure AnteConfig where
  (minFee baseFee minGas maxGas : UInt64)
  requireNonce : Bool
  feeCollector : Address
  requireSigned : Bool
  -- The configured verifier, or the Ed25519 one where none is configured.
  verify : TxSignatureVerifier

structure TxMeta where
  signer : Address
  nonce : UInt64
  feeBig : Nat
  gas : UInt64
  hasNonce : Bool
deriving DecidableEq

-- Fee is FeeBig capped at the largest uint64; nothing here reads it, and a missing fee tag is a fee of zero.
def parseTxMeta (tx : Tx) : TxMeta where
  signer := (txTag tx (utf8 "signer")).getD []
  nonce := (txUintTag tx (utf8 "nonce")).getD 0
  feeBig := (txAmountBigTag tx (utf8 "fee")).getD 0
  gas := ((txUintTag tx (utf8 "gas")).or (txUintTag tx (utf8 "gas_limit"))).getD 0
  hasNonce := (txUintTag tx (utf8 "nonce")).isSome

def isEthereumRawTx (tx : Tx) : Bool := (txTag tx (utf8 "eth_raw")).isSome

def authSpace : GoString := utf8 "auth"

def nonceKey (signer : Address) : Bytes := utf8 "nonce/" ++ signer

variable (store : Store)

def sequence (signer : Address) : Except AppErr UInt64 :=
  if signer = [] then .error .invalidAccountSequence
  else
    match store.get authSpace (nonceKey signer) with
    | none => .ok 0
    | some value => if value.length = 8 then .ok (UInt64.ofNat (BigEndian.value value)) else .error .invalidAccountSequence

def nextSequence (signer : Address) : Except AppErr UInt64 := (sequence store signer).map (· + 1)

def setSequence (signer : Address) (number : UInt64) : Except AppErr Store :=
  if signer = [] then .error .invalidAccountSequence
  else .ok (store.write ⟨authSpace, nonceKey signer, some (putUint64 number)⟩)

section Keeper

variable (config : AnteConfig)
variable (chainID : GoString) (store : Store) (txMeta : TxMeta) (tx : Tx)

def verifySignature : Except AppErr Unit :=
  if isSignedTx tx then verifySignedTx chainID tx config.verify
  else if (txTag tx (utf8 "eth_raw")).isSome ∧ (txTag tx (utf8 "eth_hash")).isSome then .ok ()
  else require (¬ config.requireSigned) .invalidSignedTx

def validateGas : Except AppErr Unit := do
  require (¬ (config.minGas > 0 ∧ txMeta.gas < config.minGas)) .invalidGas
  require (¬ (config.maxGas > 0 ∧ txMeta.gas > config.maxGas)) .invalidGas
  require (¬ (config.requireNonce ∧ (txMeta.signer = [] ∨ txMeta.hasNonce = false))) .missingNonce

def validateMeta : Except AppErr Unit := do
  require (¬ (config.minFee > 0 ∧ txMeta.feeBig < config.minFee.toNat)) .insufficientFee
  if config.baseFee > 0 then do
    require (txMeta.gas ≠ 0) .invalidGas
    require (txMeta.gas.toNat * config.baseFee.toNat ≤ txMeta.feeBig) .insufficientFee
  validateGas config txMeta

def validateMetaForTx (txMeta : TxMeta) : Except AppErr Unit :=
  if isEthereumRawTx tx then do
    require (txMeta.gas ≠ 0) .invalidGas
    validateGas config txMeta
  else validateMeta config txMeta

def expectedSequence (signer : Address) (tx : Tx) : Except AppErr UInt64 :=
  if isEthereumRawTx tx then sequence store signer else nextSequence store signer

def checkNonce (expected : UInt64) : Except AppErr Unit :=
  require (txMeta.nonce = expected) (.nonceMismatch txMeta.signer txMeta.nonce expected)

def checkTx : Except AppErr Unit := do
  verifySignature config chainID tx
  let txMeta := parseTxMeta tx
  validateMetaForTx config tx txMeta
  if txMeta.signer = [] ∨ txMeta.hasNonce = false then .ok ()
  else do
    let expected ← expectedSequence store txMeta.signer tx
    checkNonce txMeta expected

def beforeTx : Except AppErr Unit := checkTx config chainID store tx

-- One round of CheckBlock's loop, with the sequences expected next.
def checkBlockTx (nextBySigner : Table Address UInt64) (tx : Tx) : Except AppErr (Table Address UInt64) := do
  verifySignature config chainID tx
  let txMeta := parseTxMeta tx
  validateMetaForTx config tx txMeta
  if txMeta.signer = [] ∨ txMeta.hasNonce = false then .ok nextBySigner
  else do
    let expected ← match nextBySigner.lookup txMeta.signer with
      | some expected => .ok expected
      | none => expectedSequence store txMeta.signer tx
    checkNonce txMeta expected
    return nextBySigner.insert txMeta.signer (expected + 1)

def checkBlock (txs : List Tx) : Except AppErr Unit := do
  let _ ← txs.foldlM (checkBlockTx config chainID store) ∅
  return ()

def feeErrors : TransferErrors := ⟨.insufficientFeeBalance, .insufficientFeeBalance, .insufficientFeeBalance⟩

def collectFee : Except AppErr Store :=
  if txMeta.feeBig = 0 then .ok store
  else do
    require (txMeta.signer ≠ []) .missingNonce
    let collector := if config.feeCollector = [] then utf8 "fee_collector" else config.feeCollector
    moveBalance bankBalanceKey feeErrors store txMeta.signer collector txMeta.feeBig

def afterTx : Except AppErr Store := do
  let txMeta := parseTxMeta tx
  let store ← if isEthereumRawTx tx then .ok store else collectFee config store txMeta
  if txMeta.signer = [] ∨ txMeta.hasNonce = false then return store
  else if isEthereumRawTx tx then do
    require (txMeta.nonce ≠ ~~~0) .invalidNonce
    setSequence store txMeta.signer (txMeta.nonce + 1)
  else setSequence store txMeta.signer txMeta.nonce

def gasLimit : UInt64 :=
  let txMeta := parseTxMeta tx
  if txMeta.gas > 0 then txMeta.gas else UInt64.ofNat tx.length

end Keeper

end

def tagSortRank (key : GoString) : Nat :=
  (([(utf8 "fee", 10), (utf8 "gas", 20), (utf8 "gas_limit", 21), (utf8 "signer", 30), (utf8 "nonce", 40), (utf8 "priority", 50)] :
    List (GoString × Nat)).lookup key).getD 100

variable (tags : Table GoString GoString)

def canonicalTagKeys : List GoString :=
  tags.keys.insertionSort fun left right =>
    tagSortRank left < tagSortRank right ∨ (tagSortRank left = tagSortRank right ∧ left ≤ right)

def tagPart (key : GoString) : GoString := key ++ 61 :: (tags.lookup key).getD []

variable (canonical : CanonicalTx)

def buildCanonicalTx : Except AppErr Tx := do
  require (canonical.module ≠ []) .missingTxModule
  require (canonical.action ≠ []) .missingTxAction
  return [58].intercalate
    (canonical.module :: canonical.action :: canonical.args ++ (canonicalTagKeys canonical.tags).map (tagPart canonical.tags))

structure CanonicalTx.Readable : Prop where
  module : 58 ∉ canonical.module
  action : 58 ∉ canonical.action
  args : ∀ arg ∈ canonical.args, 58 ∉ arg ∧ 61 ∉ arg
  tags : ∀ key value, canonical.tags.lookup key = some value → key ≠ [] ∧ 58 ∉ key ∧ 61 ∉ key ∧ 58 ∉ value

theorem cut_none {text : GoString} (plain : 61 ∉ text) : cut 61 text = none := if_neg plain

variable {canonical : CanonicalTx} {tx : Tx} {key : GoString} {inner : SignedTxEnvelope × Tx}

theorem cut_tag (plain : 61 ∉ key) (value : GoString) : cut 61 (key ++ 61 :: value) = some (key, value) := by
  have before : ∀ byte ∈ key, decide (byte ≠ 61) = true := fun byte member =>
    decide_eq_true fun same => plain (same ▸ member)
  rw [cut, if_pos (by simp), takeWhile_append_of_pos before, dropWhile_append_of_pos before]
  simp

theorem add_args {args : List GoString} (plain : ∀ arg ∈ args, 61 ∉ arg) (canonical : CanonicalTx) :
    args.foldlM addPart canonical = .ok { canonical with args := canonical.args ++ args } := by
  induction args generalizing canonical with
  | nil => simp [pure, Except.pure]
  | cons arg later ih =>
    have rest := fun next => ih (forall_mem_cons.mp plain).2 next
    have added : addPart canonical arg = .ok { canonical with args := canonical.args ++ [arg] } := by
      rw [addPart, cut_none (plain arg mem_cons_self)]
    rw [foldlM_cons, added]
    simp only [bind, Except.bind, rest, append_assoc, cons_append, nil_append]

theorem add_tags {keys : List GoString} {value : GoString → GoString} (plain : ∀ key ∈ keys, key ≠ [] ∧ 61 ∉ key) (canonical : CanonicalTx) :
    (keys.map fun key => key ++ 61 :: value key).foldlM addPart canonical =
      .ok { canonical with tags := keys.foldl (fun tags key => tags.insert key (value key)) canonical.tags } := by
  induction keys generalizing canonical with
  | nil => rfl
  | cons key later ih =>
    obtain ⟨named, apart⟩ := plain key mem_cons_self
    have added : addPart canonical (key ++ 61 :: value key) = .ok { canonical with tags := canonical.tags.insert key (value key) } := by
      rw [addPart, cut_tag apart]
      exact if_neg named
    rw [map_cons, foldlM_cons, added]
    exact ih (forall_mem_cons.mp plain).2 _

theorem tag_present {tags : Table GoString GoString} (listed : key ∈ canonicalTagKeys tags) : ∃ value, tags.lookup key = some value :=
  Option.isSome_iff_exists.mp (lookup_isSome.mpr (AList.mem_keys.mp ((perm_insertionSort _ _).mem_iff.mp listed)))

section

variable (readable : canonical.Readable)
include readable

theorem CanonicalTx.Readable.tag
    (listed : key ∈ canonicalTagKeys canonical.tags) : key ≠ [] ∧ 58 ∉ key ∧ 61 ∉ key ∧ 58 ∉ (canonical.tags.lookup key).getD [] := by
  obtain ⟨value, found⟩ := tag_present listed
  rw [found]
  exact readable.tags key value found

theorem built_split (built : buildCanonicalTx canonical = .ok tx) :
    tx.splitOn 58 = canonical.module :: canonical.action :: (canonical.args ++ (canonicalTagKeys canonical.tags).map (tagPart canonical.tags)) := by
  simp only [buildCanonicalTx, ok_iff] at built
  obtain ⟨-, -, joined⟩ := built
  rw [← Except.ok.inj joined]
  refine splitOn_intercalate 58 (fun part listed => ?_) (cons_ne_nil _ _)
  simp only [cons_append, mem_cons, mem_append, mem_map] at listed
  rcases listed with rfl | rfl | arg | ⟨key, listed, rfl⟩
  · exact readable.module
  · exact readable.action
  · exact (readable.args part arg).1
  · obtain ⟨-, apart, -, value⟩ := readable.tag listed
    simp [tagPart, apart, value]

theorem parse_build (flat : txPayload tx = tx) (built : buildCanonicalTx canonical = .ok tx) :
    ∃ tags, parseCanonicalTx tx = .ok { canonical with tags := tags } ∧ ∀ key, tags.lookup key = canonical.tags.lookup key := by
  have split := built_split readable built
  simp only [buildCanonicalTx, ok_iff] at built
  obtain ⟨named, acts, -⟩ := built
  let tags : Table GoString GoString := (canonicalTagKeys canonical.tags).foldl (fun tags key => tags.insert key ((canonical.tags.lookup key).getD [])) ∅
  have read : (canonical.args ++ (canonicalTagKeys canonical.tags).map (tagPart canonical.tags)).foldlM addPart
      ⟨canonical.module, canonical.action, [], ∅⟩ = .ok { canonical with tags := tags } := by
    rw [foldlM_append, add_args fun arg listed => (readable.args arg listed).2]
    exact add_tags (fun key listed => ⟨(readable.tag listed).1, (readable.tag listed).2.2.1⟩) _
  refine ⟨tags, ?_, fun key => ?_⟩
  · rw [parseCanonicalTx, flat, split]
    simp only [named, acts, if_false, read]
  · by_cases listed : key ∈ canonicalTagKeys canonical.tags
    · obtain ⟨value, found⟩ := tag_present listed
      have distinct : ((canonicalTagKeys canonical.tags).map id).Nodup := by
        rw [map_id]
        exact (perm_insertionSort _ _).nodup_iff.mpr canonical.tags.keys_nodup
      have kept := @lookup_insert_member _ _ _ _ id (fun key => (canonical.tags.lookup key).getD []) _ distinct key listed ∅
      simp only [id, found, Option.getD_some] at kept
      rw [found]
      exact kept
    · have absent : canonical.tags.lookup key = none :=
        lookup_eq_none.mpr fun member => listed ((perm_insertionSort _ _).mem_iff.mpr (AList.mem_keys.mpr member))
      have kept := @lookup_insert_other _ _ _ _ id (fun key => (canonical.tags.lookup key).getD []) _ key (by simpa using listed) ∅
      rw [absent]
      exact kept.trans rfl

end

theorem split_parts_plain (text : GoString) : ∀ part ∈ text.splitOn 58, 58 ∉ part := by
  induction text with
  | nil => simp
  | cons byte rest ih =>
    rw [splitOn_cons_eq_if_modifyHead]
    split
    · simpa using ih
    · rename_i other
      cases parts : rest.splitOn 58 with
      | nil => exact absurd parts (splitOn_ne_nil _ _)
      | cons first later =>
        rw [parts] at ih
        have head : 58 ∉ byte :: first := by
          simpa [Ne.symm (by simpa using other)] using ih first mem_cons_self
        simpa [head] using (forall_mem_cons.mp ih).2

variable {next : CanonicalTx}

theorem add_part_cases {part : GoString} (added : addPart canonical part = .ok next) :
    (∃ key value, key ≠ [] ∧ 61 ∉ key ∧ key ⊆ part ∧ value ⊆ part ∧ next = { canonical with tags := canonical.tags.insert key value }) ∨
      (61 ∉ part ∧ next = { canonical with args := canonical.args ++ [part] }) := by
  simp only [addPart, cut] at added
  by_cases tagged : 61 ∈ part
  · simp only [if_pos tagged] at added
    split at added
    · cases added
    · rename_i named
      refine .inl ⟨_, _, named, fun member => ?_, (takeWhile_sublist _).subset, ?_, (Except.ok.inj added).symm⟩
      · simpa using mem_takeWhile_imp member
      · exact ((drop_sublist _ _).trans (dropWhile_sublist _)).subset
  · simp only [if_neg tagged] at added
    exact .inr ⟨tagged, (Except.ok.inj added).symm⟩

variable {parts : List GoString}

theorem add_parts_readable (plain : ∀ part ∈ parts, 58 ∉ part)
    (readable : canonical.Readable) (added : parts.foldlM addPart canonical = .ok next) : next.Readable := by
  induction parts generalizing canonical with
  | nil => exact Except.ok.inj added ▸ readable
  | cons part later ih =>
    rw [foldlM_cons, bind_ok_iff] at added
    obtain ⟨middle, first, rest⟩ := added
    have clean := plain part mem_cons_self
    refine ih (forall_mem_cons.mp plain).2 ?_ rest
    rcases add_part_cases first with ⟨key, value, named, apart, inKey, inValue, rfl⟩ | ⟨apart, rfl⟩
    · refine { readable with tags := fun other text stored => ?_ }
      rcases lookup_insert_cases stored with ⟨rfl, rfl⟩ | ⟨-, earlier⟩
      · exact ⟨named, fun member => clean (inKey member), apart, fun member => clean (inValue member)⟩
      · exact readable.tags other text earlier
    · refine { readable with args := fun arg listed => ?_ }
      rcases mem_append.mp listed with earlier | last
      · exact readable.args arg earlier
      · exact mem_singleton.mp last ▸ ⟨clean, apart⟩

theorem add_parts_filled (added : parts.foldlM addPart canonical = .ok next)
    (noArgs : next.args = []) (noTags : ∀ key, next.tags.lookup key = none) : parts = [] := by
  rcases eq_nil_or_concat parts with empty | ⟨front, last, rfl⟩
  · exact empty
  · rw [concat_eq_append, foldlM_append, bind_ok_iff] at added
    obtain ⟨middle, -, added⟩ := added
    simp only [foldlM_cons, foldlM_nil, bind_pure] at added
    rcases add_part_cases added with ⟨key, value, -, -, -, -, rfl⟩ | ⟨-, rfl⟩
    · simpa using noTags key
    · simp at noArgs

theorem parse_parts (parsed : parseCanonicalTx tx = .ok canonical) : ∃ module action parts, (txPayload tx).splitOn 58 = module :: action :: parts ∧
      parts.foldlM addPart ⟨module, action, [], ∅⟩ = .ok canonical := by
  unfold parseCanonicalTx at parsed
  split at parsed
  · cases parsed
  · cases parsed
  · rename_i module action parts split
    split_ifs at parsed
    exact ⟨module, action, parts, split, parsed⟩

theorem decoded_ok_iff {Value : Type} (value : Option Value) (result : Value) : decoded value = .ok result ↔ value = some result := by
  cases value <;> simp [decoded]

theorem decode_signed_ok (opened : decodeSignedTx tx = .ok inner) :
    isSignedTx tx = true ∧ ∃ document, Base64.decodeStd (trimPrefix signedTxPrefix tx) = some document := by
  simp only [decodeSignedTx, ok_iff, decoded_ok_iff] at opened
  obtain ⟨marked, document, readable, -⟩ := opened
  exact ⟨marked, document, readable⟩

theorem signed_prefix_eq : signedTxPrefix = utf8 "signed" ++ [58] := by with_unfolding_all decide

-- What base64 accepts has no colon, so an envelope has no part after its second.
theorem envelope_parts (opened : decodeSignedTx tx = .ok inner) : ∃ text, tx = signedTxPrefix ++ text ∧ tx.splitOn 58 = [utf8 "signed", text] := by
  obtain ⟨marked, document, readable⟩ := decode_signed_ok opened
  have starts : signedTxPrefix.isPrefixOf tx = true := marked
  obtain ⟨text, split⟩ := isPrefixOf_iff_prefix.mp starts
  rw [trimPrefix, if_pos starts, ← split, drop_left] at readable
  have plain : (58 : UInt8) ∉ text := by
    intro member
    rcases Base64.decode_std_characters readable member with character | ends
    · revert character
      unfold Base64.IsCharacter
      decide
    · revert ends
      decide
  have shape : tx = utf8 "signed" ++ 58 :: text := by
    rw [← split, signed_prefix_eq, append_assoc]
    rfl
  have word : (58 : UInt8) ∉ utf8 "signed" := by with_unfolding_all decide
  refine ⟨text, split.symm, ?_⟩
  rw [shape, splitOn_append_cons_self_of_not_mem word, splitOn_eq_singleton plain]

-- A transaction of the form signed:action that opens as an envelope around something else.
def CanonicalTx.Envelope (canonical : CanonicalTx) : Prop :=
  canonical.module = utf8 "signed" ∧ canonical.args = [] ∧ canonical.tags = ∅ ∧
    txPayload (signedTxPrefix ++ canonical.action) ≠ signedTxPrefix ++ canonical.action

theorem built_flat (readable : canonical.Readable) (built : buildCanonicalTx canonical = .ok tx)
    (bare : ¬ canonical.Envelope) : txPayload tx = tx := by
  by_contra wrapped
  cases opened : decodeSignedTx tx with
  | error reason => exact wrapped (by rw [txPayload, opened])
  | ok inner =>
    obtain ⟨text, rfl, parts⟩ := envelope_parts opened
    rw [built_split readable built, List.cons.injEq, List.cons.injEq, append_eq_nil_iff, map_eq_nil_iff] at parts
    obtain ⟨named, rfl, noArgs, noKeys⟩ := parts
    have noTags : canonical.tags.keys = [] := Perm.eq_nil (noKeys ▸ (perm_insertionSort _ _).symm)
    refine bare ⟨named, noArgs, ?_, wrapped⟩
    exact AList.ext (map_eq_nil_iff.mp noTags)

theorem canonical_round_trip_iff (canonical : CanonicalTx) (tx : Tx) (built : buildCanonicalTx canonical = .ok tx) :
    (∃ tags, parseCanonicalTx tx = .ok { canonical with tags := tags } ∧ ∀ key, tags.lookup key = canonical.tags.lookup key) ↔
      canonical.Readable ∧ ¬ canonical.Envelope := by
  constructor
  · rintro ⟨tags, parsed, same⟩
    obtain ⟨module, action, parts, split, added⟩ := parse_parts parsed
    have plain := split_parts_plain (txPayload tx)
    simp only [split, mem_cons, forall_eq_or_imp] at plain
    have readable := add_parts_readable plain.2.2 ⟨plain.1, plain.2.1, by simp, by simp⟩ added
    refine ⟨{ readable with tags := fun key value found => readable.tags key value ((same key).trans found) }, ?_⟩
    rintro ⟨named, noArgs, noTags, wrapped⟩
    have alone : parts = [] := by
      apply add_parts_filled added noArgs
      intro key
      rw [same key, noTags]
      rfl
    subst alone
    obtain ⟨rfl, rfl, -, -⟩ := CanonicalTx.mk.inj (Except.ok.inj added)
    simp only [buildCanonicalTx, ok_iff, noArgs, noTags] at built
    have joined := Except.ok.inj built.2.2
    have whole : [58].intercalate ((txPayload tx).splitOn 58) = txPayload tx := intercalate_splitOn 58
    have prefixed : signedTxPrefix ++ canonical.action = tx := by
      rw [← joined, named, signed_prefix_eq]
      simp [canonicalTagKeys, intercalate]
    rw [prefixed, ← whole, split] at wrapped
    exact wrapped joined
  · rintro ⟨readable, bare⟩
    exact parse_build readable (built_flat readable built bare) built

theorem argument_becomes_tag : ∃ canonical tx parsed, buildCanonicalTx canonical = .ok tx ∧ parseCanonicalTx tx = .ok parsed ∧
    parsed.args ≠ canonical.args ∧ canonical.tags.lookup (utf8 "signer") = none ∧ parsed.tags.lookup (utf8 "signer") = some (utf8 "eve") :=
  ⟨⟨utf8 "bank", utf8 "send", [utf8 "signer=eve"], ∅⟩, utf8 "bank:send:signer=eve", _, by with_unfolding_all rfl, by with_unfolding_all rfl,
    by with_unfolding_all decide, rfl, by with_unfolding_all decide⟩

theorem plain_send_read_back : ∃ tags, parseCanonicalTx (utf8 "bank:send:7") = .ok ⟨utf8 "bank", utf8 "send", [utf8 "7"], tags⟩ := by
  have readable : CanonicalTx.Readable ⟨utf8 "bank", utf8 "send", [utf8 "7"], ∅⟩ :=
    ⟨by with_unfolding_all decide, by with_unfolding_all decide, by with_unfolding_all decide, by simp⟩
  have bare : ¬ CanonicalTx.Envelope ⟨utf8 "bank", utf8 "send", [utf8 "7"], ∅⟩ := fun envelope => cons_ne_nil _ _ envelope.2.1
  obtain ⟨tags, parsed, -⟩ := (canonical_round_trip_iff _ (utf8 "bank:send:7") (by with_unfolding_all rfl)).mpr ⟨readable, bare⟩
  exact ⟨tags, parsed⟩

variable (modules : List GoString)

-- RouteTx of the prefix router, by the names of the modules.
def routeTx (tx : Tx) : Except AppErr GoString :=
  match cut 58 tx with
  | none => .error .malformedRoutedTx
  | some (name, _) =>
    if name = [] then .error .malformedRoutedTx
    else if name ∈ modules then .ok name
    else .error .noRouteForTx

variable (verify : TxSignatureVerifier)

def SignedBy (chainID : GoString) (tx : Tx) (signer : Address) : Prop :=
  ∃ envelope payload publicKey signature, decodeSignedTx tx = .ok (envelope, payload) ∧ envelope.chainID = chainID ∧
    Base64.decodeStd envelope.publicKey = some publicKey ∧ Base64.decodeStd envelope.signature = some signature ∧
    verify publicKey (signedTxSignBytes chainID payload) signature = true ∧ txTag tx (utf8 "signer") = some signer ∧
    Address.accountFromPublicKey publicKey = .ok signer

def ProperlySigned (chainID : GoString) (tx : Tx) : Prop := ∃ signer, SignedBy verify chainID tx signer

def EthereumTagged (tx : Tx) : Prop := isSignedTx tx = false ∧ (txTag tx (utf8 "eth_raw")).isSome ∧ (txTag tx (utf8 "eth_hash")).isSome

section Envelopes

variable {tx payload : Tx} {envelope : SignedTxEnvelope}

theorem tx_payload_of_opened (opened : decodeSignedTx tx = .ok (envelope, payload)) : txPayload tx = payload := by
  rw [txPayload, opened]

theorem tx_tag_congr {tx' : Tx} (same : txPayload tx = txPayload tx') (key : GoString) : txTag tx key = txTag tx' key := by
  rw [txTag, txTag, parseCanonicalTx, parseCanonicalTx, same]

theorem nested_untagged (nested : txPayload tx = payload) {inner : SignedTxEnvelope × Tx}
    (opened : decodeSignedTx payload = .ok inner) (key : GoString) : txTag tx key = none := by
  obtain ⟨text, -, parts⟩ := envelope_parts opened
  unfold txTag parseCanonicalTx
  rw [nested, parts]
  split
  · rename_i canonical parsed
    simp only at parsed
    split_ifs at parsed
    cases parsed
    rfl
  · rfl

-- The signer is looked up in the payload, whose own payload would be read were it an envelope.
theorem tagged_payload_flat (opened : decodeSignedTx tx = .ok (envelope, payload)) {key value : GoString}
    (tagged : txTag tx key = some value) : txPayload payload = payload := by
  cases nested : decodeSignedTx payload with
  | error reason => rw [txPayload, nested]
  | ok inner =>
    rw [nested_untagged (tx_payload_of_opened opened) nested] at tagged
    contradiction

theorem verified_signer {chainID : GoString} {verify : TxSignatureVerifier} (verified : verifySignedTx chainID tx verify = .ok ())
    {signer : Address} (named : txTag tx (utf8 "signer") = some signer) (present : signer ≠ []) : SignedBy verify chainID tx signer := by
  simp only [verifySignedTx, bind_ok_iff, require_ok_iff, decoded_ok_iff] at verified
  obtain ⟨⟨envelope, payload⟩, opened, -, onChain, publicKey, key, signature, signed, -, valid, owned⟩ := verified
  have same : txPayload payload = txPayload tx := (tagged_payload_flat opened named).trans (tx_payload_of_opened opened).symm
  have lookup : txTag payload (utf8 "signer") = some signer := (tx_tag_congr same _).trans named
  unfold validatePayloadSignerAddress at owned
  simp only [lookup, if_neg present, bind_ok_iff, require_ok_iff] at owned
  obtain ⟨expected, account, own⟩ := owned
  exact ⟨envelope, payload, publicKey, signature, opened, onChain, key, signed, valid, named, own ▸ account⟩

end Envelopes

section Accepted

variable {config : AnteConfig} {chainID : GoString} {store : Store} {tx : Tx}

theorem validated_signer (strict : config.requireNonce = true) (validated : validateMetaForTx config tx (parseTxMeta tx) = .ok ()) :
    ∃ signer, txTag tx (utf8 "signer") = some signer ∧ signer ≠ [] := by
  have gas : validateGas config (parseTxMeta tx) = .ok () := by
    simp only [validateMetaForTx, validateMeta] at validated
    split at validated
    · simp only [ok_iff] at validated
      exact validated.2
    · simp only [ok_iff] at validated
      split at validated
      · simp only [ok_iff] at validated
        exact validated.2.2.2
      · exact validated.2
  simp only [validateGas, ok_iff] at gas
  obtain ⟨-, -, nonce⟩ := gas
  have named : (parseTxMeta tx).signer ≠ [] := fun missing => nonce ⟨strict, .inl missing⟩
  cases tag : txTag tx (utf8 "signer") with
  | none =>
    rw [parseTxMeta, tag] at named
    contradiction
  | some signer =>
    rw [parseTxMeta, tag] at named
    exact ⟨signer, rfl, named⟩

theorem validated_signed_iff (signed : config.requireSigned = true) (strict : config.requireNonce = true)
    (verified : verifySignature config chainID tx = .ok ()) (validated : validateMetaForTx config tx (parseTxMeta tx) = .ok ()) :
    ProperlySigned config.verify chainID tx ↔ ¬ EthereumTagged tx := by
  obtain ⟨signer, named, present⟩ := validated_signer strict validated
  constructor
  · rintro ⟨-, envelope, payload, -, -, opened, -⟩ ⟨unmarked, -⟩
    rw [(decode_signed_ok opened).1] at unmarked
    contradiction
  · intro untagged
    unfold verifySignature at verified
    split at verified
    · exact ⟨signer, verified_signer verified named present⟩
    · next marked =>
      by_cases tagged : (txTag tx (utf8 "eth_raw")).isSome ∧ (txTag tx (utf8 "eth_hash")).isSome
      · exact absurd ⟨Bool.eq_false_of_not_eq_true marked, tagged⟩ untagged
      · rw [if_neg tagged, require_ok_iff] at verified
        exact absurd signed verified

theorem check_tx_ok (accepted : checkTx config chainID store tx = .ok ()) :
    verifySignature config chainID tx = .ok () ∧ validateMetaForTx config tx (parseTxMeta tx) = .ok () := by
  simp only [checkTx, bind_ok_iff] at accepted
  obtain ⟨⟨⟩, verified, ⟨⟩, validated, -⟩ := accepted
  exact ⟨verified, validated⟩

theorem check_block_tx_ok {expected next : Table Address UInt64} (accepted : checkBlockTx config chainID store expected tx = .ok next) :
    verifySignature config chainID tx = .ok () ∧ validateMetaForTx config tx (parseTxMeta tx) = .ok () := by
  simp only [checkBlockTx, bind_ok_iff] at accepted
  obtain ⟨⟨⟩, verified, ⟨⟩, validated, -⟩ := accepted
  exact ⟨verified, validated⟩

theorem check_block_txs_ok {txs : List Tx} {expected next : Table Address UInt64}
    (accepted : txs.foldlM (checkBlockTx config chainID store) expected = .ok next) (member : tx ∈ txs) :
    verifySignature config chainID tx = .ok () ∧ validateMetaForTx config tx (parseTxMeta tx) = .ok () := by
  induction txs generalizing expected with
  | nil => contradiction
  | cons first rest ih =>
    simp only [List.foldlM_cons, bind_ok_iff] at accepted
    obtain ⟨advanced, step, remaining⟩ := accepted
    cases member with
    | head => exact check_block_tx_ok step
    | tail _ later => exact ih remaining later

end Accepted

def evmModule : GoString := utf8 "evm"

-- Execution routes the payload, and only what reaches the EVM module has its Ethereum bytes looked at.
def RoutedElsewhere (tx : Tx) : Prop := ∃ name, routeTx modules (txPayload tx) = .ok name ∧ name ≠ evmModule

theorem accepted_properly_signed_iff (config : AnteConfig) (signed : config.requireSigned = true) (strict : config.requireNonce = true)
    (chainID : GoString) (store : Store) (modules : List GoString) :
    (∀ txs, checkBlock config chainID store txs = .ok () → ((∀ tx ∈ txs, RoutedElsewhere modules tx → ProperlySigned config.verify chainID tx) ↔
        ∀ tx ∈ txs, RoutedElsewhere modules tx → ¬ EthereumTagged tx)) ∧
    (∀ tx, beforeTx config chainID store tx = .ok () → RoutedElsewhere modules tx →
      (ProperlySigned config.verify chainID tx ↔ ¬ EthereumTagged tx)) := by
  refine ⟨fun txs accepted => ?_, fun tx accepted _ => ?_⟩
  · simp only [checkBlock, bind_ok_iff] at accepted
    obtain ⟨next, accepted, -⟩ := accepted
    refine forall₂_congr fun tx member => imp_congr_right fun _ => ?_
    obtain ⟨verified, validated⟩ := check_block_txs_ok accepted member
    exact validated_signed_iff signed strict verified validated
  · obtain ⟨verified, validated⟩ := check_tx_ok accepted
    exact validated_signed_iff signed strict verified validated

def vexoChain : GoString := utf8 "vexo"

def echoSigner : Signer := ⟨utf8 "key", fun message => .ok (utf8 "key" ++ message)⟩

def echoTxVerifier : TxSignatureVerifier := fun publicKey message signature => signature = publicKey ++ message

def strictConfig : AnteConfig := ⟨0, 0, 0, 0, true, [], true, echoTxVerifier⟩

def keyAccount : Address := utf8 "vexo1977dkcqh38ewzcjrmq65q0khcjr6jqfqvm5ff5"

def sendPayload : Tx := utf8 "bank:send:" ++ keyAccount ++ utf8 ":bob:5:signer=" ++ keyAccount ++ utf8 ":nonce=1:gas=1"

def signedSend : Tx := (signTx vexoChain sendPayload echoSigner).toOption.getD []

-- Nobody signed it: the bank module never looks at the Ethereum tags that stand in for the signature.
def taggedSend : Tx := utf8 "bank:send:alice:bob:5:eth_raw=x:eth_hash=y:signer=alice:nonce=0:gas=1"

def bankAndEVM : List GoString := [utf8 "bank", evmModule]

theorem signed_sends_evaluated : checkBlock strictConfig vexoChain ∅ [signedSend] = .ok () ∧ beforeTx strictConfig vexoChain ∅ signedSend = .ok () ∧
    routeTx bankAndEVM (txPayload signedSend) = .ok (utf8 "bank") ∧ isSignedTx signedSend = true ∧
    checkBlock strictConfig vexoChain ∅ [taggedSend] = .ok () ∧ beforeTx strictConfig vexoChain ∅ taggedSend = .ok () ∧
    routeTx bankAndEVM (txPayload taggedSend) = .ok (utf8 "bank") ∧ isSignedTx taggedSend = false ∧ utf8 "bank" ≠ evmModule := by
  decide +kernel

theorem unsigned_send_accepted :
    strictConfig.requireSigned = true ∧ strictConfig.requireNonce = true ∧ checkBlock strictConfig vexoChain ∅ [taggedSend] = .ok () ∧
      beforeTx strictConfig vexoChain ∅ taggedSend = .ok () ∧ routeTx bankAndEVM (txPayload taggedSend) = .ok (utf8 "bank") ∧
      ¬ ProperlySigned echoTxVerifier vexoChain taggedSend := by
  obtain ⟨-, -, -, -, inBlock, alone, routed, unmarked, -⟩ := signed_sends_evaluated
  refine ⟨rfl, rfl, inBlock, alone, routed, ?_⟩
  rintro ⟨-, envelope, payload, -, -, opened, -⟩
  rw [(decode_signed_ok opened).1] at unmarked
  contradiction

theorem signed_send_properly_signed : checkBlock strictConfig vexoChain ∅ [signedSend] = .ok () ∧ RoutedElsewhere bankAndEVM signedSend ∧
      ProperlySigned echoTxVerifier vexoChain signedSend := by
  obtain ⟨inBlock, -, routed, marked, -, -, -, -, other⟩ := signed_sends_evaluated
  have elsewhere : RoutedElsewhere bankAndEVM signedSend := ⟨utf8 "bank", routed, other⟩
  have condition := (accepted_properly_signed_iff strictConfig rfl rfl vexoChain ∅ bankAndEVM).1 [signedSend] inBlock
  have untagged : ∀ tx ∈ [signedSend], RoutedElsewhere bankAndEVM tx → ¬ EthereumTagged tx := by
    intro tx member _ tagged
    rw [List.mem_singleton.mp member] at tagged
    rw [tagged.1] at marked
    contradiction
  exact ⟨inBlock, elsewhere, condition.mpr untagged signedSend (List.mem_singleton_self _) elsewhere⟩

end Vexo.App
