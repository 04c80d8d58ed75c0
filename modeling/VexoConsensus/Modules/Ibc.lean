import VexoConsensus.App.CanonicalTxs
import VexoConsensus.StateProof

namespace Vexo.IBC

open ByteCodec Checks App FairOrdering OrderedMap

def namespaceName : GoString := utf8 "ibc"

inductive HandshakeState where
  | init | tryOpen | opened
deriving DecidableEq

inductive ChannelOrdering where
  | ordered
  | unordered
deriving DecidableEq

structure ClientState where
  (clientID chainID : GoString)
  latestHeight : Height
  (validatorSetHash latestStateRoot : Hash)
  frozen : Bool
  trustingPeriodHeight : UInt64
  authority : GoString
deriving DecidableEq

structure ConnectionState where
  (connectionID clientID counterparty : GoString)
  state : HandshakeState
deriving DecidableEq

structure ChannelState where
  (portID channelID connectionID counterparty : GoString)
  ordering : ChannelOrdering
  state : HandshakeState
deriving DecidableEq

structure Packet where
  sequence : UInt64
  (sourcePort sourceChannel destinationPort destinationChannel : GoString)
  data : Bytes
  timeoutHeight : UInt64
deriving DecidableEq

structure PacketReceipt where
  packet : Packet
  commitHeight : Height
  acknowledged : Bool
  ack : Bytes
  ackHeight : Height
  timedOut : Bool
  timeoutAt : Height
deriving DecidableEq

abbrev Documents (Document : Type) := Table Bytes (Option Document)

-- The ibc namespace by the first words of its keys, which keep the kinds of records apart.
structure State where
  clients : Documents ClientState
  connections : Documents ConnectionState
  channels : Documents ChannelState
  sequences : Table Bytes Bytes
  packets : Documents PacketReceipt
  timeouts : Table Bytes Bytes

def clientKey (clientID : GoString) : Bytes := utf8 "clients/" ++ clientID
def connectionKey (connectionID : GoString) : Bytes := utf8 "connections/" ++ connectionID
def channelKey (portID channelID : GoString) : Bytes := utf8 "channels/" ++ portID ++ 47 :: channelID
def nextSequenceKey (portID channelID : GoString) : Bytes := utf8 "next-sequence/" ++ portID ++ 47 :: channelID

variable (packet : Packet)

def packetCommitmentKey : Bytes :=
  utf8 "packets/" ++ packet.sourcePort ++ 47 :: packet.sourceChannel ++ 47 :: Decimal.format packet.sequence.toNat

-- A height is written with twenty digits.
def packetTimeoutHeightPrefix (height : UInt64) : Bytes :=
  let digits := Decimal.format height.toNat
  utf8 "packet-timeouts/" ++ List.replicate (20 - digits.length) 48 ++ digits ++ [47]

def packetTimeoutIndexKey : Bytes := packetTimeoutHeightPrefix packet.timeoutHeight ++ packetCommitmentKey packet

-- What follows the first slash of the first occurrence of the separator.
def packetTimeoutIndexPacketKey : Bytes → Option Bytes
  | [] => none
  | byte :: rest => if (utf8 "/packets/").isPrefixOf (byte :: rest) then some rest else packetTimeoutIndexPacketKey rest

-- What is read back after json.Marshal, which puts the replacement character in place of bytes that are not UTF-8.
def ClientState.written (client : ClientState) : ClientState :=
  { client with clientID := Utf8.toValid client.clientID, chainID := Utf8.toValid client.chainID, authority := Utf8.toValid client.authority }

def ConnectionState.written (connection : ConnectionState) : ConnectionState :=
  { connection with
    connectionID := Utf8.toValid connection.connectionID
    clientID := Utf8.toValid connection.clientID
    counterparty := Utf8.toValid connection.counterparty }

def ChannelState.written (channel : ChannelState) : ChannelState :=
  { channel with
    portID := Utf8.toValid channel.portID
    channelID := Utf8.toValid channel.channelID
    connectionID := Utf8.toValid channel.connectionID
    counterparty := Utf8.toValid channel.counterparty }

def Packet.written : Packet :=
  { packet with
    sourcePort := Utf8.toValid packet.sourcePort
    sourceChannel := Utf8.toValid packet.sourceChannel
    destinationPort := Utf8.toValid packet.destinationPort
    destinationChannel := Utf8.toValid packet.destinationChannel }

def PacketReceipt.written (receipt : PacketReceipt) : PacketReceipt := { receipt with packet := receipt.packet.written }

def packetDecoder : Json.Decoder Packet :=
  Json.intoStruct
    [(utf8 "sequence", fun packet value => (Json.intoUint64 packet.sequence value).map fun sequence => { packet with sequence }),
      (utf8 "source_port", fun packet value => (Json.intoText packet.sourcePort value).map fun sourcePort => { packet with sourcePort }),
      (utf8 "source_channel", fun packet value => (Json.intoText packet.sourceChannel value).map fun sourceChannel => { packet with sourceChannel }),
      (utf8 "destination_port",
        fun packet value => (Json.intoText packet.destinationPort value).map fun destinationPort => { packet with destinationPort }),
      (utf8 "destination_channel",
        fun packet value => (Json.intoText packet.destinationChannel value).map fun destinationChannel => { packet with destinationChannel }),
      (utf8 "data", fun packet value => (Json.intoBytes packet.data value).map fun data => { packet with data }),
      (utf8 "timeout_height",
        fun packet value => (Json.intoUint64 packet.timeoutHeight value).map fun timeoutHeight => { packet with timeoutHeight })]

def receiptDecoder : Json.Decoder PacketReceipt :=
  Json.intoStruct
    [(utf8 "packet", fun receipt value => (packetDecoder receipt.packet value).map fun packet => { receipt with packet }), (utf8 "commit_height",
        fun receipt value => (Json.intoUint64 receipt.commitHeight value).map fun commitHeight => { receipt with commitHeight }),
      (utf8 "acknowledged", fun receipt value => (Json.intoBool receipt.acknowledged value).map fun acknowledged => { receipt with acknowledged }),
      (utf8 "ack", fun receipt value => (Json.intoBytes receipt.ack value).map fun ack => { receipt with ack }),
      (utf8 "ack_height", fun receipt value => (Json.intoUint64 receipt.ackHeight value).map fun ackHeight => { receipt with ackHeight }),
      (utf8 "timed_out", fun receipt value => (Json.intoBool receipt.timedOut value).map fun timedOut => { receipt with timedOut }),
      (utf8 "timeout_at", fun receipt value => (Json.intoUint64 receipt.timeoutAt value).map fun timeoutAt => { receipt with timeoutAt })]

def unmarshalReceipt (document : Bytes) : Option PacketReceipt :=
  Json.unmarshal ⟨⟨0, [], [], [], [], [], 0⟩, 0, false, [], 0, false, 0⟩ receiptDecoder document

def getJSON {Document : Type} (documents : Documents Document) (key : Bytes) : Except AppErr (Option Document) :=
  match documents.lookup key with
  | none => .ok none
  | some none => .error .jsonError
  | some (some document) => .ok (some document)

def found {Document : Type} (missing : AppErr) (lookup : Except AppErr (Option Document)) : Except AppErr Document := do
  match ← lookup with
  | some document => return document
  | none => .error missing

namespace Keeper

variable (state : State) (clientID : GoString)

def client : Except AppErr (Option ClientState) := getJSON state.clients (clientKey clientID)

def validateClient (client : ClientState) : Except AppErr Unit := do
  require (client.clientID ≠ [] ∧ client.chainID ≠ [] ∧ client.latestHeight ≠ 0 ∧ client.validatorSetHash ≠ zeroHash) .invalidClient
  require (¬ (client.trustingPeriodHeight > 0 ∧ client.latestHeight > ~~~0 - client.trustingPeriodHeight)) .invalidClient

def setClient (client : ClientState) : Except AppErr State := do
  validateClient client
  return { state with clients := state.clients.insert (clientKey client.clientID) (some client.written) }

def updateClient (client : ClientState) (latestHeight : Height) (validatorSetHash latestStateRoot : Hash) (authority : GoString) :
    Except AppErr State := do
  require (client.clientID ≠ [] ∧ latestHeight ≠ 0 ∧ validatorSetHash ≠ zeroHash ∧ latestStateRoot ≠ zeroHash) .invalidClient
  require (¬ client.frozen) .clientFrozen
  require (client.authority = [] ∨ authority = client.authority) .unauthorizedClientUpdate
  require (client.latestHeight < latestHeight) .staleClientUpdate
  setClient state { client with latestHeight, validatorSetHash, latestStateRoot }

variable (latestHeight : Height)

def updateClientWithAuthority (validatorSetHash latestStateRoot : Hash) (authority : GoString) : Except AppErr State := do
  require (clientID ≠ [] ∧ latestHeight ≠ 0 ∧ validatorSetHash ≠ zeroHash ∧ latestStateRoot ≠ zeroHash) .invalidClient
  let client ← found .clientNotFound (client state clientID)
  updateClient state client latestHeight validatorSetHash latestStateRoot authority

-- A proof that is not verified is reported as an invalid one.
def proven (verified : Except AppErr Unit) : Except AppErr Unit := verified.mapError fun _ => .invalidProof

def validateClientUpdateProof (client : ClientState) (latestHeight : Height) (latestStateRoot : Hash) (proof : QueryProof.Proof) :
    Except AppErr Unit := do
  require (client.clientID ≠ [] ∧ client.chainID ≠ [] ∧ latestHeight ≠ 0 ∧ latestStateRoot ≠ zeroHash) .invalidClient
  require (proof.chainID = client.chainID ∧ proof.height = latestHeight ∧ proof.stateRoot = latestStateRoot) .invalidProof
  require (proof.space ≠ [] ∧ proof.key ≠ []) .invalidProof
  proven (QueryProof.verify proof client.chainID latestHeight latestStateRoot)

def updateClientWithProof (validatorSetHash latestStateRoot : Hash) (proof : QueryProof.Proof) (authority : GoString) : Except AppErr State := do
  let client ← found .clientNotFound (client state clientID)
  validateClientUpdateProof client latestHeight latestStateRoot proof
  updateClient state client latestHeight validatorSetHash latestStateRoot authority

def clientHasExpired (client : ClientState) (currentHeight : Height) : Bool :=
  currentHeight ≠ 0 ∧ client.trustingPeriodHeight ≠ 0 ∧ currentHeight > client.latestHeight + client.trustingPeriodHeight

variable (currentHeight : Height)

def verifyClientProofAt (proof : QueryProof.Proof) : Except AppErr Unit := do
  let client ← found .clientNotFound (client state clientID)
  require (¬ client.frozen) .clientFrozen
  require (¬ clientHasExpired client currentHeight) .clientExpired
  require (client.latestStateRoot ≠ zeroHash) .invalidProof
  require (proof.height = client.latestHeight) .invalidProof
  proven (QueryProof.verify proof client.chainID client.latestHeight client.latestStateRoot)

variable (connectionID : GoString)

def connection : Except AppErr (Option ConnectionState) := getJSON state.connections (connectionKey connectionID)

def setConnection (connection : ConnectionState) : Except AppErr State := do
  require (connection.connectionID ≠ [] ∧ connection.clientID ≠ [] ∧ connection.counterparty ≠ []) .invalidConnection
  return { state with connections := state.connections.insert (connectionKey connection.connectionID) (some connection.written) }

def validTransition : HandshakeState → HandshakeState → Bool
  | .init, next => next = .opened
  | .tryOpen, next => next = .opened
  | .opened, _ => false

def updateConnectionState (expectedState nextState : HandshakeState) : Except AppErr State := do
  require (connectionID ≠ []) .invalidConnection
  let connection ← found .keyNotFound (connection state connectionID)
  require (connection.state = expectedState ∧ validTransition expectedState nextState) .invalidTransition
  setConnection state { connection with state := nextState }

def channel (portID channelID : GoString) : Except AppErr (Option ChannelState) := getJSON state.channels (channelKey portID channelID)

def setChannel (channel : ChannelState) : Except AppErr State := do
  require (channel.portID ≠ [] ∧ channel.channelID ≠ [] ∧ channel.connectionID ≠ [] ∧ channel.counterparty ≠ []) .invalidChannel
  return { state with channels := state.channels.insert (channelKey channel.portID channel.channelID) (some channel.written) }

def updateChannelState (portID channelID : GoString) (expectedState nextState : HandshakeState) : Except AppErr State := do
  require (portID ≠ [] ∧ channelID ≠ []) .invalidChannel
  let channel ← found .keyNotFound (channel state portID channelID)
  require (channel.state = expectedState ∧ validTransition expectedState nextState) .invalidTransition
  setChannel state { channel with state := nextState }

def validatePacket (packet : Packet) : Except AppErr Unit :=
  require (packet.sequence ≠ 0 ∧ packet.sourcePort ≠ [] ∧ packet.sourceChannel ≠ [] ∧ packet.destinationPort ≠ [] ∧
    packet.destinationChannel ≠ [] ∧ packet.data ≠ []) .invalidPacket

def validatePacketPath (packet : Packet) : Except AppErr Unit := do
  let channel ← found .invalidChannel (channel state packet.sourcePort packet.sourceChannel)
  require (channel.state = .opened) .channelNotOpen
  require (channel.counterparty = packet.destinationChannel) .invalidChannel
  let connection ← found .invalidConnection (connection state channel.connectionID)
  require (connection.state = .opened) .connectionNotOpen
  let _ ← found .clientNotFound (client state connection.clientID)

def packetReceipt (packet : Packet) : Except AppErr (Option PacketReceipt) := getJSON state.packets (packetCommitmentKey packet)

def nextSequence (portID channelID : GoString) : Except AppErr UInt64 :=
  match state.sequences.lookup (nextSequenceKey portID channelID) with
  | none => .ok 1
  | some encoded =>
    match parseUint encoded with
    | some next => if next = 0 then .error .unexpectedPacketSequence else .ok next
    | none => .error .unexpectedPacketSequence

variable (height : Height)

def sendPacket (packet : Packet) : Except AppErr State := do
  validatePacket packet
  validatePacketPath state packet
  let existing ← packetReceipt state packet
  require (existing = none) .packetAlreadyExists
  let expectedSequence ← nextSequence state packet.sourcePort packet.sourceChannel
  require (packet.sequence = expectedSequence) .unexpectedPacketSequence
  let receipt : PacketReceipt := ⟨packet, height, false, [], 0, false, 0⟩
  let sequence := nextSequenceKey packet.sourcePort packet.sourceChannel
  return { state with
    packets := state.packets.insert (packetCommitmentKey packet) (some receipt.written)
    sequences := state.sequences.insert sequence (Decimal.format (packet.sequence + 1).toNat)
    timeouts := if packet.timeoutHeight > 0 then state.timeouts.insert (packetTimeoutIndexKey packet) (packetCommitmentKey packet)
      else state.timeouts }

def acknowledgePacket (packet : Packet) (ack : Bytes) : Except AppErr State := do
  validatePacket packet
  validatePacketPath state packet
  require (ack ≠ []) .invalidAck
  let receipt ← found .keyNotFound (packetReceipt state packet)
  require (¬ receipt.timedOut) .packetTimedOut
  require (¬ receipt.acknowledged) .packetAcked
  let receipt : PacketReceipt := { receipt with acknowledged := true, ack, ackHeight := height }
  return { state with
    packets := state.packets.insert (packetCommitmentKey packet) (some receipt.written)
    timeouts := if receipt.packet.timeoutHeight > 0 then state.timeouts.erase (packetTimeoutIndexKey receipt.packet) else state.timeouts }

def timeoutPacket (packet : Packet) : Except AppErr State := do
  validatePacket packet
  validatePacketPath state packet
  require (packet.timeoutHeight ≠ 0 ∧ packet.timeoutHeight ≤ height) .packetNotTimedOut
  let receipt ← found .keyNotFound (packetReceipt state packet)
  require (¬ receipt.acknowledged) .packetAcked
  require (¬ receipt.timedOut) .packetTimedOut
  let receipt : PacketReceipt := { receipt with timedOut := true, timeoutAt := height }
  return { state with
    packets := state.packets.insert (packetCommitmentKey packet) (some receipt.written)
    timeouts := state.timeouts.erase (packetTimeoutIndexKey receipt.packet) }

def readReceipt (document : Bytes) : Except AppErr PacketReceipt :=
  match unmarshalReceipt document with
  | some receipt => .ok receipt
  | none => .error .invalidProof

def verifiedPacketReceiptProofAt (packet : Packet) (proof : QueryProof.Proof) : Except AppErr PacketReceipt := do
  validatePacket packet
  verifyClientProofAt state clientID currentHeight proof
  require (proof.space = namespaceName ∧ proof.key = packetCommitmentKey packet ∧ proof.found) .invalidProof
  let receipt ← readReceipt proof.value
  require (receipt.packet = packet ∧ receipt.commitHeight ≠ 0) .invalidProof
  return receipt

def verifyPacketAcknowledgementProofAt (packet : Packet) (proof : QueryProof.Proof) (ack : Bytes) : Except AppErr Unit := do
  require (ack ≠ []) .invalidAck
  let receipt ← verifiedPacketReceiptProofAt state clientID currentHeight packet proof
  require (receipt.acknowledged ∧ receipt.ackHeight ≠ 0 ∧ receipt.ack = ack) .invalidProof

def verifyPacketTimeoutProofAt (packet : Packet) (proof : QueryProof.Proof) : Except AppErr Unit := do
  validatePacket packet
  verifyClientProofAt state clientID currentHeight proof
  require (proof.space = namespaceName ∧ proof.key = packetCommitmentKey packet) .invalidProof
  if proof.found then do
    let receipt ← readReceipt proof.value
    require (receipt.packet = packet ∧ ¬ receipt.acknowledged) .invalidProof

def acknowledgePacketWithProof (clientID : GoString) (packet : Packet) (proof : QueryProof.Proof) (ack : Bytes) : Except AppErr State := do
  require (clientID ≠ []) .invalidClient
  verifyPacketAcknowledgementProofAt state clientID height packet proof ack
  acknowledgePacket state height packet ack

def timeoutPacketWithProof (clientID : GoString) (packet : Packet) (proof : QueryProof.Proof) : Except AppErr State := do
  require (clientID ≠ []) .invalidClient
  verifyPacketTimeoutProofAt state clientID height packet proof
  timeoutPacket state height packet

-- The receipt an entry of the timeout index points at, when it is still waiting.
def timeoutReceipt (key : Bytes) : Except AppErr (Option PacketReceipt) :=
  match packetTimeoutIndexPacketKey key with
  | none => .error .invalidPacket
  | some packetKey => do
      match ← getJSON state.packets packetKey with
      | none => return none
      | some receipt =>
        return if receipt.acknowledged ∨ receipt.timedOut ∨ receipt.packet.timeoutHeight ≠ height then none else some receipt

def timeoutReceiptsAt : Except AppErr (List PacketReceipt) := do
  require (height ≠ 0) .invalidPacket
  let start := packetTimeoutHeightPrefix height
  let keys := (state.timeouts.keys.filter fun key => start.isPrefixOf key).mergeSort fun left right => left ≤ right
  let receipts ← keys.mapM (timeoutReceipt state height)
  return receipts.reduceOption

end Keeper

end Vexo.IBC

namespace Vexo.IBCModule

open ByteCodec Checks GoText App FairOrdering OrderedMap IBC

def moduleName : GoString := utf8 "ibc"

def clientCreateGasCost : UInt64 := 20
def clientUpdateGasCost : UInt64 := 20
def connectionOpenGasCost : UInt64 := 15
def connectionAckGasCost : UInt64 := 10
def channelOpenGasCost : UInt64 := 15
def channelAckGasCost : UInt64 := 10
def packetSendGasCost : UInt64 := 25
def packetAckGasCost : UInt64 := 20
def packetTimeoutGasCost : UInt64 := 20

def parseHeight (value : GoString) : Except AppErr Height :=
  match parseUint value with
  | some height => if height = 0 then .error .invalidIBCTx else .ok height
  | none => .error .invalidIBCTx

def parseHash (value : GoString) : Except AppErr Hash :=
  match Hex.decode value with
  | some decoded => if sized : decoded.length = 32 then .ok ⟨decoded, sized⟩ else .error .invalidIBCTx
  | none => .error .invalidIBCTx

def decodePacketData (value : GoString) : Except AppErr Bytes :=
  match Base64.decodeRaw value <|> Base64.decodeStd value with
  | some data => .ok data
  | none => .error .corruptBase64

def decodeProofData (value : GoString) : Except AppErr QueryProof.Proof := do
  let data ← decodePacketData value
  match QueryProof.decode data with
  | some proof => return proof
  | none => .error .jsonError

def parseTimeout (value : Option GoString) : Except AppErr UInt64 :=
  match value with
  | none => .ok 0
  | some value =>
    match parseUint value with
    | some timeoutHeight => .ok timeoutHeight
    | none => .error .invalidIBCTx

def buildPacket (sequence sourcePort sourceChannel destinationPort destinationChannel data : GoString) (timeout : Option GoString) :
    Except AppErr Packet := do
  let sequence ← parseHeight sequence
  let data ← decodePacketData data
  let timeoutHeight ← parseTimeout timeout
  let packet : Packet := ⟨sequence, sourcePort, sourceChannel, destinationPort, destinationChannel, data, timeoutHeight⟩
  Keeper.validatePacket packet
  return packet

def packetFromArgs : List GoString → Except AppErr Packet
  | [number, sourcePort, sourceChannel, destinationPort, destinationChannel, data] =>
    buildPacket number sourcePort sourceChannel destinationPort destinationChannel data none
  | [number, sourcePort, sourceChannel, destinationPort, destinationChannel, data, timeout] =>
    buildPacket number sourcePort sourceChannel destinationPort destinationChannel data (some timeout)
  | _ => .error .invalidIBCTx

def decodeAck (value : GoString) : Except AppErr Bytes :=
  match decodePacketData value with
  | .ok ack => if ack = [] then .error .invalidAck else .ok ack
  | .error _ => .error .invalidAck

def packetAckFromArgs (args : List GoString) : Except AppErr (Packet × Bytes) := do
  require (args.length = 7 ∨ args.length = 8) .invalidIBCTx
  let packet ← packetFromArgs args.dropLast
  let ack ← decodeAck (args.getLastD [])
  return (packet, ack)

def provenBy (args : List GoString) : Except AppErr (GoString × QueryProof.Proof) := do
  let clientID := args.dropLast.getLastD []
  require (clientID ≠ []) .invalidClient
  let proof ← decodeProofData (args.getLastD [])
  return (clientID, proof)

def packetAckProofFromArgs (args : List GoString) : Except AppErr (Packet × Bytes × GoString × QueryProof.Proof) := do
  require (args.length = 9 ∨ args.length = 10) .invalidIBCTx
  let (packet, ack) ← packetAckFromArgs args.dropLast.dropLast
  let (clientID, proof) ← provenBy args
  return (packet, ack, clientID, proof)

def packetTimeoutProofFromArgs (args : List GoString) : Except AppErr (Packet × GoString × QueryProof.Proof) := do
  require (args.length = 9) .invalidIBCTx
  let packet ← packetFromArgs args.dropLast.dropLast
  let (clientID, proof) ← provenBy args
  return (packet, clientID, proof)

-- The tags of the transaction: an authority that is not blank, else the signer.
def clientAuthority (tags : Table GoString GoString) : GoString :=
  let authority := trimSpace ((tags.lookup (utf8 "authority")).getD [])
  if authority ≠ [] then authority else trimSpace ((tags.lookup (utf8 "signer")).getD [])

abbrev Delivery := State × Option GasMeter

variable (height : Height) (state : State) (gas : Option GasMeter)

def spend (cost : UInt64) : Except Failure (Option GasMeter) := failing 6 (consumeGas gas cost)

def createClient (clientID chainID height hash : GoString) (root : Option GoString) (authority : GoString) : Except Failure State := do
  let height ← failing 3 (parseHeight height)
  let hash ← failing 3 (parseHash hash)
  let stateRoot ← match root with
    | none => .ok zeroHash
    | some root => failing 3 (parseHash root)
  failing 4 (Keeper.setClient state ⟨clientID, chainID, height, hash, stateRoot, false, 0, authority⟩)

def deliverClientCreate (args : List GoString) (authority : GoString) : Except Failure Delivery := do
  let gas ← spend gas clientCreateGasCost
  let state ← match args with
    | [clientID, chainID, height, hash] => createClient state clientID chainID height hash none authority
    | [clientID, chainID, height, hash, root] => createClient state clientID chainID height hash (some root) authority
    | _ => .error ⟨2, .invalidIBCTx⟩
  return (state, gas)

def updateClientArgs (clientID height hash root : GoString) (proof : Option GoString) (authority : GoString) : Except Failure State := do
  let height ← failing 3 (parseHeight height)
  let validatorSetHash ← failing 3 (parseHash hash)
  let stateRoot ← failing 3 (parseHash root)
  let client ← failing 4 (found .clientNotFound (Keeper.client state clientID))
  match proof with
  | some proof => do
      let proof ← failing 3 (decodeProofData proof)
      failing 4 (Keeper.updateClientWithProof state clientID height validatorSetHash stateRoot proof authority)
  | none => do
      require (client.authority ≠ []) ⟨4, .invalidProof⟩
      failing 4 (Keeper.updateClientWithAuthority state clientID height validatorSetHash stateRoot authority)

def deliverClientUpdate (args : List GoString) (authority : GoString) : Except Failure Delivery := do
  let gas ← spend gas clientUpdateGasCost
  let state ← match args with
    | [clientID, height, hash, root] => updateClientArgs state clientID height hash root none authority
    | [clientID, height, hash, root, proof] => updateClientArgs state clientID height hash root (some proof) authority
    | _ => .error ⟨2, .invalidIBCTx⟩
  return (state, gas)

def deliverConnectionOpen (args : List GoString) (handshake : HandshakeState) : Except Failure Delivery := do
  let gas ← spend gas connectionOpenGasCost
  match args with
  | [connectionID, clientID, counterparty] => do
      let state ← failing 4 (Keeper.setConnection state ⟨connectionID, clientID, counterparty, handshake⟩)
      return (state, gas)
  | _ => .error ⟨2, .invalidIBCTx⟩

def deliverConnectionTransition (args : List GoString) (expectedState nextState : HandshakeState) : Except Failure Delivery := do
  let gas ← spend gas connectionAckGasCost
  match args with
  | [connectionID] => do
      let state ← failing 4 (Keeper.updateConnectionState state connectionID expectedState nextState)
      return (state, gas)
  | _ => .error ⟨2, .invalidIBCTx⟩

def parseOrdering (value : GoString) : Except AppErr ChannelOrdering :=
  if value = utf8 "ordered" then .ok .ordered
  else if value = utf8 "unordered" then .ok .unordered
  else .error .invalidChannel

def deliverChannelOpen (args : List GoString) (handshake : HandshakeState) : Except Failure Delivery := do
  let gas ← spend gas channelOpenGasCost
  match args with
  | [portID, channelID, connectionID, counterparty, ordering] => do
      let ordering ← failing 4 (parseOrdering ordering)
      let state ← failing 4 (Keeper.setChannel state ⟨portID, channelID, connectionID, counterparty, ordering, handshake⟩)
      return (state, gas)
  | _ => .error ⟨2, .invalidIBCTx⟩

def deliverChannelTransition (args : List GoString) (expectedState nextState : HandshakeState) : Except Failure Delivery := do
  let gas ← spend gas channelAckGasCost
  match args with
  | [portID, channelID] => do
      let state ← failing 4 (Keeper.updateChannelState state portID channelID expectedState nextState)
      return (state, gas)
  | _ => .error ⟨2, .invalidIBCTx⟩

def deliverPacketSend (args : List GoString) : Except Failure Delivery := do
  let gas ← spend gas packetSendGasCost
  let packet ← failing 3 (packetFromArgs args)
  let state ← failing 4 (Keeper.sendPacket state height packet)
  return (state, gas)

def deliverPacketAck (args : List GoString) : Except Failure Delivery := do
  let gas ← spend gas packetAckGasCost
  let (packet, ack) ← failing 3 (packetAckFromArgs args)
  let state ← failing 4 (Keeper.acknowledgePacket state height packet ack)
  return (state, gas)

def deliverPacketAckProof (args : List GoString) : Except Failure Delivery := do
  let gas ← spend gas packetAckGasCost
  let (packet, ack, clientID, proof) ← failing 3 (packetAckProofFromArgs args)
  let state ← failing 4 (Keeper.acknowledgePacketWithProof state height clientID packet proof ack)
  return (state, gas)

def deliverPacketTimeout (args : List GoString) : Except Failure Delivery := do
  let gas ← spend gas packetTimeoutGasCost
  let packet ← failing 3 (packetFromArgs args)
  let state ← failing 4 (Keeper.timeoutPacket state height packet)
  return (state, gas)

def deliverPacketTimeoutProof (args : List GoString) : Except Failure Delivery := do
  let gas ← spend gas packetTimeoutGasCost
  let (packet, clientID, proof) ← failing 3 (packetTimeoutProofFromArgs args)
  let state ← failing 4 (Keeper.timeoutPacketWithProof state height clientID packet proof)
  return (state, gas)

inductive Action where
  | clientCreate
  | clientUpdate
  | connectionOpen (handshake : HandshakeState)
  | connectionTransition (expected : HandshakeState)
  | channelOpen (handshake : HandshakeState)
  | channelTransition (expected : HandshakeState)
  | packetSend | packetAck | packetAckProof | packetTimeout | packetTimeoutProof
deriving DecidableEq

def actions : List (GoString × Action) :=
  [(utf8 "client-create", .clientCreate), (utf8 "client-update", .clientUpdate), (utf8 "connection-open", .connectionOpen .init),
    (utf8 "connection-open-init", .connectionOpen .init), (utf8 "connection-open-try", .connectionOpen .tryOpen),
    (utf8 "connection-open-ack", .connectionTransition .init), (utf8 "connection-open-confirm", .connectionTransition .tryOpen),
    (utf8 "channel-open", .channelOpen .init), (utf8 "channel-open-init", .channelOpen .init),
    (utf8 "channel-open-try", .channelOpen .tryOpen), (utf8 "channel-open-ack", .channelTransition .init),
    (utf8 "channel-open-confirm", .channelTransition .tryOpen), (utf8 "packet-send", .packetSend), (utf8 "packet-ack", .packetAck),
    (utf8 "packet-ack-proof", .packetAckProof), (utf8 "packet-timeout", .packetTimeout),
    (utf8 "packet-timeout-proof", .packetTimeoutProof)]

def Action.named (name : GoString) : Option Action := (actions.find? fun action => action.1 = name).map Prod.snd

def Action.gasCost : Action → UInt64
  | .clientCreate => clientCreateGasCost
  | .clientUpdate => clientUpdateGasCost
  | .connectionOpen _ => connectionOpenGasCost
  | .connectionTransition _ => connectionAckGasCost
  | .channelOpen _ => channelOpenGasCost
  | .channelTransition _ => channelAckGasCost
  | .packetSend => packetSendGasCost
  | .packetAck => packetAckGasCost
  | .packetAckProof => packetAckGasCost
  | .packetTimeout => packetTimeoutGasCost
  | .packetTimeoutProof => packetTimeoutGasCost

def deliverAction (args : List GoString) (authority : GoString) : Action → Except Failure Delivery
  | .clientCreate => deliverClientCreate state gas args authority
  | .clientUpdate => deliverClientUpdate state gas args authority
  | .connectionOpen handshake => deliverConnectionOpen state gas args handshake
  | .connectionTransition expected => deliverConnectionTransition state gas args expected .opened
  | .channelOpen handshake => deliverChannelOpen state gas args handshake
  | .channelTransition expected => deliverChannelTransition state gas args expected .opened
  | .packetSend => deliverPacketSend height state gas args
  | .packetAck => deliverPacketAck height state gas args
  | .packetAckProof => deliverPacketAckProof height state gas args
  | .packetTimeout => deliverPacketTimeout height state gas args
  | .packetTimeoutProof => deliverPacketTimeoutProof height state gas args

def parseAction (tx : Tx) : Except AppErr (CanonicalTx × Action) :=
  match parseCanonicalTx tx with
  | .error _ => .error .invalidIBCTx
  | .ok canonical =>
    if canonical.module ≠ moduleName then .error .invalidIBCTx
    else
      match Action.named canonical.action with
      | some action => .ok (canonical, action)
      | none => .error .invalidIBCTx

def deliverTx (tx : Tx) : Except Failure Delivery := do
  let (canonical, action) ← failing 2 (parseAction tx)
  deliverAction height state gas canonical.args (clientAuthority canonical.tags) action

def estimateGas (tx : Tx) : Except AppErr UInt64 := do
  let (_, action) ← parseAction tx
  return action.gasCost

def sweepPacket (receipt : PacketReceipt) : Except AppErr State :=
  match Keeper.timeoutPacket state height receipt.packet with
  | .ok state => .ok state
  | .error .packetTimedOut => .ok state
  | .error .packetAcked => .ok state
  | .error reason => .error reason

def sweepExpiredPackets : Except AppErr State := do
  let receipts ← Keeper.timeoutReceiptsAt state height
  receipts.foldlM (sweepPacket height) state

def endBlock : Except AppErr State :=
  if height = 0 then .ok state else sweepExpiredPackets height state

end Vexo.IBCModule
