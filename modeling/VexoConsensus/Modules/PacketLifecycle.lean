import VexoConsensus.Lib.Transitions
import VexoConsensus.Modules.Ibc

namespace Vexo.IBCModule

open ByteCodec Checks App IBC Keeper AList StateProof

section

inductive Request where
  | send (packet : Packet)
  | ack (packet : Packet) (answer : Bytes)
  | ackProof (packet : Packet) (answer : Bytes) (clientID : GoString) (proof : QueryProof.Proof)
  | timeout (packet : Packet)
  | timeoutProof (packet : Packet) (clientID : GoString) (proof : QueryProof.Proof)
deriving DecidableEq

def Action.request (args : List GoString) : Action → Option Request
  | .packetSend => (packetFromArgs args).toOption.map .send
  | .packetAck => (packetAckFromArgs args).toOption.map fun (packet, ack) => .ack packet ack
  | .packetAckProof => (packetAckProofFromArgs args).toOption.map fun (packet, ack, clientID, proof) => .ackProof packet ack clientID proof
  | .packetTimeout => (packetFromArgs args).toOption.map .timeout
  | .packetTimeoutProof => (packetTimeoutProofFromArgs args).toOption.map fun (packet, clientID, proof) => .timeoutProof packet clientID proof
  | _ => none

def request (tx : Tx) : Option Request :=
  match parseAction tx with
  | .ok (canonical, action) => action.request canonical.args
  | .error _ => none

def Request.perform (height : Height) (state : State) : Request → Except AppErr State
  | .send packet => Keeper.sendPacket state height packet
  | .ack packet answer => Keeper.acknowledgePacket state height packet answer
  | .ackProof packet answer clientID proof => Keeper.acknowledgePacketWithProof state height clientID packet proof answer
  | .timeout packet => Keeper.timeoutPacket state height packet
  | .timeoutProof packet clientID proof => Keeper.timeoutPacketWithProof state height clientID packet proof

inductive Event where
  | tx (height : Height) (gas : Option GasMeter) (tx : Tx)
  | endBlock (height : Height)

def Event.height : Event → Height
  | .tx height _ _ => height
  | .endBlock height => height

inductive Step : State → Event → State → Prop where
  | delivered {state next : State} {height : Height} {gas left : Option GasMeter} {tx : Tx}
      (done : deliverTx height state gas tx = .ok (next, left)) : Step state (.tx height gas tx) next
  | ended {state next : State} {height : Height} (done : endBlock height state = .ok next) : Step state (.endBlock height) next

variable {answer : Bytes} {clientID authority : GoString}

section Effects

variable {state next : State} {height : Height}

def PacketsKept (state : State) : State → Prop := fun next => next.packets = state.packets

theorem failing_kept {code : Nat} {outcome : Except AppErr State} (kept : Ensures (PacketsKept state) outcome) :
    Ensures (PacketsKept state) (failing code outcome) :=
  fun next done => kept next ((failing_ok_iff ..).mp done)

theorem set_client_packets {client : ClientState} : Ensures (PacketsKept state) (setClient state client) :=
  .bind fun _ _ done => by cases done; rfl

theorem set_connection_packets {connection : ConnectionState} : Ensures (PacketsKept state) (setConnection state connection) :=
  .bind fun _ _ done => by cases done; rfl

theorem set_channel_packets {channel : ChannelState} : Ensures (PacketsKept state) (setChannel state channel) :=
  .bind fun _ _ done => by cases done; rfl

theorem update_client_packets {client : ClientState} {latestHeight : Height} {validatorSetHash latestStateRoot : Hash} :
    Ensures (PacketsKept state) (updateClient state client latestHeight validatorSetHash latestStateRoot authority) :=
  .bind fun _ => .bind fun _ => .bind fun _ => .bind fun _ => set_client_packets

theorem create_client_packets {chainID latestHeight hash : GoString} {root : Option GoString} :
    Ensures (PacketsKept state) (createClient state clientID chainID latestHeight hash root authority) := by
  refine .bind fun _ => .bind fun _ => ?_
  cases root with
  | none | some root => exact .bind fun _ => failing_kept set_client_packets

theorem update_args_packets {latestHeight hash root : GoString} {proof : Option GoString} :
    Ensures (PacketsKept state) (updateClientArgs state clientID latestHeight hash root proof authority) := by
  refine .bind fun _ => .bind fun _ => .bind fun _ => .bind fun _ => ?_
  cases proof with
  | none | some proof => exact .bind fun _ => failing_kept (.bind fun _ => .bind fun _ => update_client_packets)

theorem update_connection_packets {connectionID : GoString} {expected following : HandshakeState} :
    Ensures (PacketsKept state) (updateConnectionState state connectionID expected following) :=
  .bind fun _ => .bind fun _ => .bind fun _ => set_connection_packets

theorem update_channel_packets {portID channelID : GoString} {expected following : HandshakeState} :
    Ensures (PacketsKept state) (updateChannelState state portID channelID expected following) :=
  .bind fun _ => .bind fun _ => .bind fun _ => set_channel_packets

theorem delivered_cases {gas left : Option GasMeter} {tx : Tx} (done : deliverTx height state gas tx = .ok (next, left)) :
    (request tx = none ∧ next.packets = state.packets) ∨ ∃ asked, request tx = some asked ∧ asked.perform height state = .ok next := by
  simp only [deliverTx, bind_ok_iff, failing_ok_iff] at done
  obtain ⟨⟨canonical, action⟩, parsed, done⟩ := done
  have framed : ∀ {outcome : Except Failure Delivery}, Ensures (fun delivery => PacketsKept state delivery.1) outcome →
      outcome = .ok (next, left) → next.packets = state.packets := fun kept => kept _
  rw [request, parsed]
  cases action with
  | clientCreate =>
    refine .inl ⟨rfl, framed (.bind fun _ => ?_) done⟩
    split
    · exact .returns create_client_packets
    · exact .returns create_client_packets
    · exact .returns .error
  | clientUpdate =>
    refine .inl ⟨rfl, framed (.bind fun _ => ?_) done⟩
    split
    · exact .returns update_args_packets
    · exact .returns update_args_packets
    · exact .returns .error
  | connectionOpen handshake =>
    refine .inl ⟨rfl, framed (.bind fun _ => ?_) done⟩
    split
    · exact .returns (failing_kept set_connection_packets)
    · exact .error
  | connectionTransition expected =>
    refine .inl ⟨rfl, framed (.bind fun _ => ?_) done⟩
    split
    · exact .returns (failing_kept update_connection_packets)
    · exact .error
  | channelOpen handshake =>
    refine .inl ⟨rfl, framed (.bind fun _ => ?_) done⟩
    split
    · exact .bind fun _ => .returns (failing_kept set_channel_packets)
    · exact .error
  | channelTransition expected =>
    refine .inl ⟨rfl, framed (.bind fun _ => ?_) done⟩
    split
    · exact .returns (failing_kept update_channel_packets)
    · exact .error
  | packetSend =>
    simp only [deliverAction, deliverPacketSend, bind_ok_iff, failing_ok_iff] at done
    obtain ⟨gas, -, packet, named, _, made, same⟩ := done
    cases same
    exact .inr ⟨.send packet, by simp [Action.request, named, Except.toOption], made⟩
  | packetAck =>
    simp only [deliverAction, deliverPacketAck, bind_ok_iff, failing_ok_iff] at done
    obtain ⟨gas, -, ⟨packet, answer⟩, named, _, made, same⟩ := done
    cases same
    exact .inr ⟨.ack packet answer, by simp [Action.request, named, Except.toOption], made⟩
  | packetAckProof =>
    simp only [deliverAction, deliverPacketAckProof, bind_ok_iff, failing_ok_iff] at done
    obtain ⟨gas, -, ⟨packet, answer, clientID, proof⟩, named, _, made, same⟩ := done
    cases same
    exact .inr ⟨.ackProof packet answer clientID proof, by simp [Action.request, named, Except.toOption], made⟩
  | packetTimeout =>
    simp only [deliverAction, deliverPacketTimeout, bind_ok_iff, failing_ok_iff] at done
    obtain ⟨gas, -, packet, named, _, made, same⟩ := done
    cases same
    exact .inr ⟨.timeout packet, by simp [Action.request, named, Except.toOption], made⟩
  | packetTimeoutProof =>
    simp only [deliverAction, deliverPacketTimeoutProof, bind_ok_iff, failing_ok_iff] at done
    obtain ⟨gas, -, ⟨packet, clientID, proof⟩, named, _, made, same⟩ := done
    cases same
    exact .inr ⟨.timeoutProof packet clientID proof, by simp [Action.request, named, Except.toOption], made⟩

end Effects

section Receipts

variable {state next : State} {height : Height} {packet : Packet} {receipt : PacketReceipt}

theorem found_receipt (loaded : found .keyNotFound (packetReceipt state packet) = .ok receipt) :
    state.packets.lookup (packetCommitmentKey packet) = some (some receipt) := by
  simp only [found, bind_ok_iff, packetReceipt, getJSON] at loaded
  obtain ⟨document, read, loaded⟩ := loaded
  cases stored : state.packets.lookup (packetCommitmentKey packet) with
  | none =>
    rw [stored] at read
    cases read
    cases loaded
  | some document =>
    rw [stored] at read
    cases document with
    | none => cases read
    | some receipt =>
      cases read
      cases loaded
      rfl

theorem send_packet_ok (sent : sendPacket state height packet = .ok next) : state.packets.lookup (packetCommitmentKey packet) = none ∧
      next.packets = state.packets.insert (packetCommitmentKey packet) (some (PacketReceipt.mk packet height false [] 0 false 0).written) := by
  simp only [sendPacket, ok_iff] at sent
  obtain ⟨_, -, _, -, existing, read, rfl, _, -, -, done⟩ := sent
  cases done
  refine ⟨?_, rfl⟩
  rw [packetReceipt, getJSON] at read
  cases stored : state.packets.lookup (packetCommitmentKey packet) with
  | none => rfl
  | some document =>
    rw [stored] at read
    cases document <;> cases read

section

variable (done : acknowledgePacket state height packet answer = .ok next)
include done

theorem acknowledge_packet_ok :
    ∃ receipt, state.packets.lookup (packetCommitmentKey packet) = some (some receipt) ∧ receipt.timedOut = false ∧ receipt.acknowledged = false ∧
      next.packets = state.packets.insert (packetCommitmentKey packet)
        (some ({ receipt with acknowledged := true, ack := answer, ackHeight := height } : PacketReceipt).written) := by
  simp only [acknowledgePacket, ok_iff] at done
  obtain ⟨_, -, _, -, -, receipt, loaded, live, unanswered, done⟩ := done
  cases done
  exact ⟨receipt, found_receipt loaded, by simpa using live, by simpa using unanswered, rfl⟩

theorem acknowledge_path : validatePacketPath state packet = .ok () := by
  simp only [acknowledgePacket, bind_ok_iff] at done
  obtain ⟨_, -, _, path, -⟩ := done
  exact path

end

theorem timeout_packet_ok (done : timeoutPacket state height packet = .ok next) :
    ∃ receipt, state.packets.lookup (packetCommitmentKey packet) = some (some receipt) ∧ receipt.timedOut = false ∧ receipt.acknowledged = false ∧
      packet.timeoutHeight ≠ 0 ∧ packet.timeoutHeight ≤ height ∧
      next.packets = state.packets.insert (packetCommitmentKey packet)
        (some ({ receipt with timedOut := true, timeoutAt := height } : PacketReceipt).written) := by
  simp only [timeoutPacket, ok_iff] at done
  obtain ⟨_, -, _, -, due, receipt, loaded, unanswered, live, done⟩ := done
  cases done
  exact ⟨receipt, found_receipt loaded, by simpa using live, by simpa using unanswered, due.1, due.2, rfl⟩

end Receipts

section Lifecycle

theorem Packet.written_twice (packet : Packet) : packet.written.written = packet.written := by
  simp only [Packet.written, Utf8.to_valid_twice]

structure Committed (packet : Packet) (state : State) (receipt : PacketReceipt) : Prop where
  stored : state.packets.lookup (packetCommitmentKey packet) = some (some receipt)
  same : receipt.packet = packet.written
  apart : ¬ (receipt.acknowledged = true ∧ receipt.timedOut = true)

-- How one step may change a receipt: not at all, from waiting to acknowledged, or from waiting to timed out.
inductive Changed (old : PacketReceipt) (Acked : Bytes → Prop) (Timed : Prop) : PacketReceipt → Prop where
  | kept : Changed old Acked Timed old
  | answered {new : PacketReceipt} (waiting : old.acknowledged = false ∧ old.timedOut = false) (now : new.acknowledged = true)
      (live : new.timedOut = false) (why : Acked new.ack) : Changed old Acked Timed new
  | expired {new : PacketReceipt} (waiting : old.acknowledged = false ∧ old.timedOut = false) (now : new.timedOut = true)
      (unanswered : new.acknowledged = false) (why : Timed) : Changed old Acked Timed new

variable {state next : State} {height : Height} {packet other : Packet} {old : PacketReceipt} {Acked : Bytes → Prop} {Timed : Prop}

theorem Changed.mono {Acked' : Bytes → Prop} {Timed' : Prop} {new : PacketReceipt} (changed : Changed old Acked Timed new)
    (acked : ∀ answer, Acked answer → Acked' answer) (timed : Timed → Timed') : Changed old Acked' Timed' new := by
  cases changed with
  | kept => exact .kept
  | answered waiting now live why => exact .answered waiting now live (acked _ why)
  | expired waiting now unanswered why => exact .expired waiting now unanswered (timed why)

theorem sent_committed (sent : sendPacket state height packet = .ok next) :
    Committed packet next ⟨packet.written, height, false, [], 0, false, 0⟩ := by
  obtain ⟨-, packets⟩ := send_packet_ok sent
  refine ⟨?_, rfl, fun both => Bool.false_ne_true both.1⟩
  rw [packets, lookup_insert, PacketReceipt.written]

theorem committed_same (committed : Committed packet state old) (packets : next.packets = state.packets) : Committed packet next old :=
  ⟨by rw [packets]; exact committed.stored, committed.same, committed.apart⟩

theorem committed_other (committed : Committed packet state old) {value : Option PacketReceipt}
    (packets : next.packets = state.packets.insert (packetCommitmentKey other) value)
    (different : packetCommitmentKey packet ≠ packetCommitmentKey other) : Committed packet next old :=
  ⟨by rw [packets, lookup_insert_ne different]; exact committed.stored, committed.same, committed.apart⟩

theorem written_receipt {receipt : PacketReceipt} (plain : receipt.packet.written = receipt.packet) : receipt.written = receipt := by
  rw [PacketReceipt.written, plain]

section

variable (committed : Committed packet state old)
include committed

theorem Committed.plain : old.packet.written = old.packet := by
  rw [committed.same, Packet.written_twice]

theorem committed_send (sent : sendPacket state height other = .ok next) : Committed packet next old := by
  obtain ⟨fresh, packets⟩ := send_packet_ok sent
  refine committed_other committed packets fun same => ?_
  rw [← same, committed.stored] at fresh
  cases fresh

theorem committed_acknowledge (done : acknowledgePacket state height other answer = .ok next)
    (why : packetCommitmentKey packet = packetCommitmentKey other → Acked answer) :
    ∃ new, Committed packet next new ∧ Changed old Acked Timed new := by
  obtain ⟨receipt, stored, live, unanswered, packets⟩ := acknowledge_packet_ok done
  by_cases same : packetCommitmentKey packet = packetCommitmentKey other
  · rw [← same, committed.stored] at stored
    cases stored
    rw [written_receipt (by exact committed.plain), ← same] at packets
    refine ⟨{ old with acknowledged := true, ack := answer, ackHeight := height }, ⟨?_, committed.same, ?_⟩,
      .answered ⟨unanswered, live⟩ rfl live (why same)⟩
    · rw [packets, lookup_insert]
    · rintro ⟨-, timed⟩
      exact Bool.false_ne_true (live.symm.trans timed)
  · exact ⟨old, committed_other committed packets same, .kept⟩

theorem committed_timeout (done : timeoutPacket state height other = .ok next)
    (why : packetCommitmentKey packet = packetCommitmentKey other → other.timeoutHeight ≠ 0 → other.timeoutHeight ≤ height → Timed) :
    ∃ new, Committed packet next new ∧ Changed old Acked Timed new := by
  obtain ⟨receipt, stored, live, unanswered, positive, due, packets⟩ := timeout_packet_ok done
  by_cases same : packetCommitmentKey packet = packetCommitmentKey other
  · rw [← same, committed.stored] at stored
    cases stored
    rw [written_receipt (by exact committed.plain), ← same] at packets
    refine ⟨{ old with timedOut := true, timeoutAt := height }, ⟨?_, committed.same, ?_⟩,
      .expired ⟨unanswered, live⟩ rfl unanswered (why same positive due)⟩
    · rw [packets, lookup_insert]
    · rintro ⟨acked, -⟩
      exact Bool.false_ne_true (unanswered.symm.trans acked)
  · exact ⟨old, committed_other committed packets same, .kept⟩

end

theorem Changed.trans {middle new : PacketReceipt} (first : Changed old Acked Timed middle) (second : Changed middle Acked Timed new) :
    Changed old Acked Timed new := by
  cases first with
  | kept => exact second
  | answered waiting now live why =>
    cases second with
    | kept => exact .answered waiting now live why
    | answered again | expired again => exact absurd (now.symm.trans again.1) Bool.noConfusion
  | expired waiting now unanswered why =>
    cases second with
    | kept => exact .expired waiting now unanswered why
    | answered again | expired again => exact absurd (now.symm.trans again.2) Bool.noConfusion

theorem committed_sweep {receipts : List PacketReceipt} (committed : Committed packet state old)
    (done : receipts.foldlM (sweepPacket height) state = .ok next)
    (why : ∀ receipt ∈ receipts, packetCommitmentKey packet = packetCommitmentKey receipt.packet → receipt.packet.timeoutHeight ≠ 0 →
      receipt.packet.timeoutHeight ≤ height → Timed) :
    ∃ new, Committed packet next new ∧ Changed old Acked Timed new := by
  induction receipts generalizing state old with
  | nil =>
    cases done
    exact ⟨old, committed, .kept⟩
  | cons receipt later ih =>
    rw [List.forall_mem_cons] at why
    simp only [List.foldlM_cons, bind_ok_iff] at done
    obtain ⟨middle, swept, done⟩ := done
    have first : ∃ new, Committed packet middle new ∧ Changed old Acked Timed new := by
      rw [sweepPacket] at swept
      split at swept
      case h_1 timed =>
        cases swept
        exact committed_timeout committed timed why.1
      case h_4 => cases swept
      all_goals
        cases swept
        exact ⟨old, committed, .kept⟩
    obtain ⟨between, committed, changed⟩ := first
    obtain ⟨new, committed, further⟩ := ih committed done why.2
    exact ⟨new, committed, changed.trans further⟩

end Lifecycle

section Steps

-- The event acknowledges a packet with these bytes: by request, or by request with a proof that was verified.
inductive AckedBy (before : State) (packet : Packet) (answer : Bytes) : Event → Prop where
  | asked {height : Height} {gas : Option GasMeter} {tx : Tx} (named : request tx = some (.ack packet answer)) :
      AckedBy before packet answer (.tx height gas tx)
  | proven {height : Height} {gas : Option GasMeter} {tx : Tx} {clientID : GoString} {proof : QueryProof.Proof}
      (named : request tx = some (.ackProof packet answer clientID proof))
      (verified : Keeper.verifyPacketAcknowledgementProofAt before clientID height packet proof answer = .ok ())
      (path : Keeper.validatePacketPath before packet = .ok ()) : AckedBy before packet answer (.tx height gas tx)

-- The event times a packet out: by request, by request with a proof that was verified, or in the sweep at the end of the block.
inductive TimedBy (before : State) (packet : Packet) : Event → Prop where
  | asked {height : Height} {gas : Option GasMeter} {tx : Tx} (named : request tx = some (.timeout packet)) :
      TimedBy before packet (.tx height gas tx)
  | proven {height : Height} {gas : Option GasMeter} {tx : Tx} {clientID : GoString} {proof : QueryProof.Proof}
      (named : request tx = some (.timeoutProof packet clientID proof))
      (verified : Keeper.verifyPacketTimeoutProofAt before clientID height packet proof = .ok ()) :
      TimedBy before packet (.tx height gas tx)
  | swept {height : Height} {receipts : List PacketReceipt} {receipt : PacketReceipt}
      (due : Keeper.timeoutReceiptsAt before height = .ok receipts) (listed : receipt ∈ receipts) (same : receipt.packet = packet) :
      TimedBy before packet (.endBlock height)

variable {before after : State} {event : Event} {packet : Packet} {old : PacketReceipt}

theorem step_changes (committed : Committed packet before old) (step : Step before event after) : ∃ new, Committed packet after new ∧
      Changed old (fun answer => ∃ other, packetCommitmentKey packet = packetCommitmentKey other ∧ AckedBy before other answer event)
        (∃ other, packetCommitmentKey packet = packetCommitmentKey other ∧ other.timeoutHeight ≠ 0 ∧ other.timeoutHeight ≤ event.height ∧
          TimedBy before other event) new := by
  cases step with
  | delivered done =>
    rcases delivered_cases done with ⟨-, packets⟩ | ⟨asked, named, done⟩
    · exact ⟨old, committed_same committed packets, .kept⟩
    · cases asked with
      | send other => exact ⟨old, committed_send committed done, .kept⟩
      | ack other answer => exact committed_acknowledge committed done fun same => ⟨other, same, .asked named⟩
      | ackProof other answer clientID proof =>
        simp only [Request.perform, acknowledgePacketWithProof, bind_ok_iff] at done
        obtain ⟨_, -, _, verified, done⟩ := done
        exact committed_acknowledge committed done fun same => ⟨other, same, .proven named verified (acknowledge_path done)⟩
      | timeout other =>
        exact committed_timeout committed done fun same positive due => ⟨other, same, positive, due, .asked named⟩
      | timeoutProof other clientID proof =>
        simp only [Request.perform, timeoutPacketWithProof, bind_ok_iff] at done
        obtain ⟨_, -, _, verified, done⟩ := done
        exact committed_timeout committed done fun same positive due => ⟨other, same, positive, due, .proven named verified⟩
  | ended done =>
    rw [endBlock] at done
    split_ifs at done with first
    · cases done
      exact ⟨old, committed, .kept⟩
    · simp only [sweepExpiredPackets, bind_ok_iff] at done
      obtain ⟨receipts, due, done⟩ := done
      exact committed_sweep committed done fun receipt listed same positive reached =>
        ⟨receipt.packet, same, positive, reached, .swept due listed rfl⟩

def Kept (packet : Packet) (state : State) : Prop := ∃ receipt, Committed packet state receipt

theorem run_kept {Allowed : State → Event → Prop} {start sent : State} {height : Height} {events : List Event}
    (commit : sendPacket start height packet = .ok sent) (run : Transitions.Run Step Allowed sent events before) :
    Kept packet before := by
  refine run.invariant ?_ ⟨_, sent_committed commit⟩
  rintro state next event - step ⟨old, committed⟩
  obtain ⟨new, committed, -⟩ := step_changes committed step
  exact ⟨new, committed⟩

end Steps

section Timeouts

variable (state : State)

def Held (packet : Packet) : Prop :=
  ∀ receipt, state.packets.lookup (packetCommitmentKey packet) = some (some receipt) → receipt.packet = packet

def Request.Timely : Request → Prop
  | .timeout packet => Held state packet
  | .timeoutProof packet clientID _ =>
    Held state packet ∧ ∀ client, Keeper.client state clientID = .ok (some client) → packet.timeoutHeight ≤ client.latestHeight
  | _ => True

-- Timeouts name packets as they are stored, and are proved by clients that have reached their heights.
def Timely : Event → Prop
  | .tx _ _ tx => ∀ asked, request tx = some asked → asked.Timely state
  | .endBlock height => ∀ receipts, Keeper.timeoutReceiptsAt state height = .ok receipts → ∀ receipt ∈ receipts, Held state receipt.packet

variable {before after : State} {event : Event} {packet other : Packet} {old : PacketReceipt}

theorem found_ok_iff {Document : Type} {missing : AppErr} {lookup : Except AppErr (Option Document)} {document : Document} :
    found missing lookup = .ok document ↔ lookup = .ok (some document) := by
  rw [found, bind_ok_iff]
  constructor
  · rintro ⟨value, read, same⟩
    cases value with
    | none => cases same
    | some value =>
      cases same
      exact read
  · intro read
    exact ⟨_, read, rfl⟩

theorem client_proof_ok {height : Height} {proof : QueryProof.Proof} (verified : verifyClientProofAt before clientID height proof = .ok ()) :
    ∃ client, Keeper.client before clientID = .ok (some client) ∧ client.frozen = false ∧ clientHasExpired client height = false ∧
      client.latestStateRoot ≠ zeroHash ∧ QueryProof.verify proof client.chainID client.latestHeight client.latestStateRoot = .ok () := by
  simp only [verifyClientProofAt, ok_iff] at verified
  obtain ⟨client, known, thawed, trusted, rooted, -, holds⟩ := verified
  refine ⟨client, found_ok_iff.mp known, by simpa using thawed, by simpa using trusted, rooted, ?_⟩
  rw [Keeper.proven] at holds
  cases outcome : QueryProof.verify proof client.chainID client.latestHeight client.latestStateRoot with
  | ok done => rfl
  | error reason =>
    rw [outcome] at holds
    cases holds

theorem committed_held (committed : Committed packet before old) (held : Held before other)
    (same : packetCommitmentKey packet = packetCommitmentKey other) : other = packet.written := by
  rw [← held old (same ▸ committed.stored), committed.same]

def openState : State where
  clients := (∅ : Documents ClientState).insert (clientKey (utf8 "client"))
    (some ⟨utf8 "client", utf8 "other", 7, zeroHash, zeroHash, false, 0, []⟩)
  connections := (∅ : Documents ConnectionState).insert (connectionKey (utf8 "link"))
    (some ⟨utf8 "link", utf8 "client", utf8 "far", .opened⟩)
  channels := (∅ : Documents ChannelState).insert (channelKey (utf8 "port") (utf8 "here"))
    (some ⟨utf8 "port", utf8 "here", utf8 "link", utf8 "there", .unordered, .opened⟩)
  sequences := ∅
  packets := ∅
  timeouts := ∅

def firstPacket (timeoutHeight : UInt64) : Packet :=
  ⟨1, utf8 "port", utf8 "here", utf8 "port", utf8 "there", utf8 "hi", timeoutHeight⟩

end Timeouts

end

section Counterparty

def Recorded (packet : Packet) (answer : Bytes) (pairs : List Pair) : Prop :=
  ∃ value receipt, ⟨packetCommitmentKey packet, value⟩ ∈ pairs ∧ unmarshalReceipt value = some receipt ∧ receipt.packet = packet ∧
    receipt.acknowledged = true ∧ receipt.ack = answer

-- Every store with this root records it, unless two of the messages hashed for root and proof collide.
def Shown (packet : Packet) (answer : Bytes) (proof : QueryProof.Proof) (stateRoot : Hash) : Prop :=
  ∀ (hashed : Set Bytes) (pairs : List Pair), Sha256.CollisionFree hashed → HeldPairs pairs →
    (∀ message ∈ rootMessages namespaceName (sortPairs pairs), message ∈ hashed) → root namespaceName pairs = some stateRoot →
    StateProof.Held proof.key → StateProof.Held proof.value →
    (∀ message ∈ membershipMessages namespaceName proof.key proof.value proof.merklePath, message ∈ hashed) → Recorded packet answer pairs

structure OwnClient (state : State) (packet : Packet) (client : ClientState) : Prop where
  path : ∃ channel connection, Keeper.channel state packet.sourcePort packet.sourceChannel = .ok (some channel) ∧
    Keeper.connection state channel.connectionID = .ok (some connection) ∧ Keeper.client state connection.clientID = .ok (some client)

inductive Proved (before : State) (packet : Packet) (answer : Bytes) : Event → Prop where
  | shown {height : Height} {gas : Option GasMeter} {tx : Tx} {clientID : GoString} {proof : QueryProof.Proof} {client : ClientState}
      (named : request tx = some (.ackProof packet answer clientID proof)) (own : OwnClient before packet client)
      (thawed : client.frozen = false) (trusted : Keeper.clientHasExpired client height = false)
      (shown : Shown packet answer proof client.latestStateRoot) : Proved before packet answer (.tx height gas tx)

variable {state : State} {packet : Packet} {answer : Bytes} {height : Height} {clientID : GoString} {proof : QueryProof.Proof}

theorem path_ok (path : validatePacketPath state packet = .ok ()) :
    ∃ channel connection client, Keeper.channel state packet.sourcePort packet.sourceChannel = .ok (some channel) ∧
      Keeper.connection state channel.connectionID = .ok (some connection) ∧
      Keeper.client state connection.clientID = .ok (some client) := by
  simp only [validatePacketPath, ok_iff, found_ok_iff] at path
  obtain ⟨channel, channelled, -, -, connection, connected, -, client, known, -⟩ := path
  exact ⟨channel, connection, client, channelled, connected, known⟩

theorem read_receipt_ok {document : Bytes} {receipt : PacketReceipt} (read : readReceipt document = .ok receipt) :
    unmarshalReceipt document = some receipt := by
  rw [readReceipt] at read
  split at read
  · cases read
    assumption
  · cases read

theorem verified_membership {chainID : GoString} {stateRoot : Hash} (found : proof.found = true) (known : stateRoot ≠ zeroHash)
    (verified : QueryProof.verify proof chainID height stateRoot = .ok ()) :
    verifyMembership proof.space proof.key proof.value proof.merklePath stateRoot = true := by
  simp only [QueryProof.verify, ok_iff] at verified
  obtain ⟨-, -, -, rooted, -, holds⟩ := verified
  have same := rooted.resolve_left known
  rw [QueryProof.holds, if_pos found, same] at holds
  exact holds

theorem acknowledgement_shown (verified : verifyPacketAcknowledgementProofAt state clientID height packet proof answer = .ok ()) :
    ∃ client, Keeper.client state clientID = .ok (some client) ∧ client.frozen = false ∧ clientHasExpired client height = false ∧
      Shown packet answer proof client.latestStateRoot := by
  simp only [verifyPacketAcknowledgementProofAt, verifiedPacketReceiptProofAt, ok_iff] at verified
  obtain ⟨-, receipt, ⟨_, -, _, checked, ⟨space, key, found⟩, read, opened, ⟨same, -⟩, done⟩, acknowledged, -, answered⟩ := verified
  cases done
  obtain ⟨client, known, thawed, trusted, rooted, verified⟩ := client_proof_ok checked
  refine ⟨client, known, thawed, trusted, ?_⟩
  intro hashed pairs free held inside rootOf keyHeld valueHeld offered
  have member := verified_membership found rooted verified
  rw [space] at member
  have listed := membership_sound free held inside rootOf keyHeld valueHeld offered member
  rw [key] at listed
  exact ⟨proof.value, receipt, listed, read_receipt_ok opened, same, acknowledged, answered⟩

end Counterparty

section Acknowledgements

variable {before after : State} {event : Event} {packet other : Packet} {old : PacketReceipt}

-- A proof is offered for the packet as it is stored, under the client of its own channel.
def Request.Vouched (state : State) : Request → Prop
  | .ackProof packet _ clientID _ =>
    Held state packet ∧ ∀ channel connection, Keeper.channel state packet.sourcePort packet.sourceChannel = .ok (some channel) →
      Keeper.connection state channel.connectionID = .ok (some connection) → clientID = connection.clientID
  | _ => True

def Vouched (state : State) : Event → Prop
  | .tx _ _ tx => ∀ asked, request tx = some asked → asked.Vouched state
  | .endBlock _ => True

inductive Unproved (packet : Packet) (answer : Bytes) : Event → Prop where
  | asked {height : Height} {gas : Option GasMeter} {tx : Tx} {other : Packet} (same : packetCommitmentKey packet = packetCommitmentKey other)
      (named : request tx = some (.ack other answer)) : Unproved packet answer (.tx height gas tx)

theorem proved_of_acked {answer : Bytes} (committed : Committed packet before old) (vouched : Vouched before event)
    (same : packetCommitmentKey packet = packetCommitmentKey other) (acked : AckedBy before other answer event) :
    Unproved packet answer event ∨ Proved before packet.written answer event := by
  cases acked with
  | asked named => exact .inl (.asked same named)
  | proven named verified path =>
    obtain ⟨held, whose⟩ := vouched _ named
    cases committed_held committed held same
    obtain ⟨channel, connection, client, channelled, connected, known⟩ := path_ok path
    cases whose channel connection channelled connected
    obtain ⟨shownBy, found, thawed, trusted, shown⟩ := acknowledgement_shown verified
    cases known.symm.trans found
    exact .inr (.shown named ⟨channel, connection, channelled, connected, known⟩ thawed trusted shown)

theorem acknowledged_by_request_or_proof {start sent : State} {height : Height} {events : List Event}
    (commit : Keeper.sendPacket start height packet = .ok sent) (run : Transitions.Run Step (fun _ _ => True) sent events before)
    (vouched : Vouched before event) (step : Step before event after) :
    ∃ old new, Committed packet before old ∧ Committed packet after new ∧
      Changed old (fun answer => Unproved packet answer event ∨ Proved before packet.written answer event) True new := by
  obtain ⟨old, committed⟩ := run_kept commit run
  obtain ⟨new, after, changed⟩ := step_changes committed step
  refine ⟨old, new, committed, after, changed.mono ?_ fun _ => trivial⟩
  rintro answer ⟨other, same, acked⟩
  exact proved_of_acked committed vouched same acked

def ackTx : Tx := utf8 "ibc:packet-ack:1:port:here:port:there:aGk:5:YQ"

theorem ack_tx_evaluated : request ackTx = some (.ack (firstPacket 5) (utf8 "a")) ∧ ((sendPacket openState 5 (firstPacket 5)).toOption.any fun sent =>
        (deliverTx 5 sent none ackTx).toOption.any fun (after, _) =>
          after.packets.lookup (packetCommitmentKey (firstPacket 5)) = some (some ⟨firstPacket 5, 5, true, utf8 "a", 5, false, 0⟩)) = true := by
  decide +kernel

theorem acknowledged_without_proof : ∃ sent after, Keeper.sendPacket openState 5 (firstPacket 5) = .ok sent ∧ Step sent (.tx 5 none ackTx) after ∧
      after.packets.lookup (packetCommitmentKey (firstPacket 5)) = some (some ⟨firstPacket 5, 5, true, utf8 "a", 5, false, 0⟩) ∧
      ¬ Proved sent (firstPacket 5) (utf8 "a") (.tx 5 none ackTx) := by
  obtain ⟨named, done⟩ := ack_tx_evaluated
  obtain ⟨sent, commit, done⟩ := exists_ok_of_any done
  obtain ⟨⟨after, left⟩, done, stored⟩ := exists_ok_of_any done
  refine ⟨sent, after, commit, .delivered done, of_decide_eq_true stored, ?_⟩
  rintro ⟨proven, -, -, -, -⟩
  cases named.symm.trans proven

def farReceipt : Bytes :=
  utf8 "\x7b\"packet\":\x7b\"sequence\":1,\"source_port\":\"port\",\"source_channel\":\"here\",\"destination_port\":\"port\"," ++
    utf8 "\"destination_channel\":\"there\",\"data\":\"aGk=\",\"timeout_height\":5\x7d,\"commit_height\":1,\"acknowledged\":true," ++
    utf8 "\"ack\":\"YQ==\",\"ack_height\":2\x7d"

def farRoot : Hash :=
  ⟨[195, 178, 237, 243, 244, 146, 97, 20, 96, 190, 12, 159, 197, 55, 18, 154, 154, 5, 229, 57, 162, 27, 202, 52, 68, 206, 54, 168, 143, 103,
    174, 240], rfl⟩

def farProof : Bytes :=
  let root := 91 :: [44].intercalate (farRoot.bytes.map fun byte => Decimal.format byte.toNat) ++ [93]
  utf8 "\x7b\"schema_version\":\"v1\",\"chain_id\":\"other\",\"height\":7,\"namespace\":\"ibc\",\"exists\":true,\"key\":\"" ++
    Base64.encodeStd (packetCommitmentKey (firstPacket 5)) ++ utf8 "\",\"value\":\"" ++ Base64.encodeStd farReceipt ++
    utf8 "\",\"state_root\":" ++ root ++ utf8 ",\"leaf_hash\":" ++ root ++ utf8 "\x7d"

def ackProofTx : Tx :=
  utf8 "ibc:packet-ack-proof:1:port:here:port:there:aGk:5:YQ:client:" ++ (Base64.encodeStd farProof).filter fun byte => byte ≠ 61

def rootedState : State :=
  { openState with
    clients := (∅ : Documents ClientState).insert (clientKey (utf8 "client"))
      (some ⟨utf8 "client", utf8 "other", 7, zeroHash, farRoot, false, 0, []⟩) }

def asksByClient (tx : Tx) : Option (Packet × GoString) :=
  match request tx with
  | some (.ackProof packet _ clientID _) => some (packet, clientID)
  | _ => none

theorem ack_proof_evaluated : asksByClient ackProofTx = some (firstPacket 5, utf8 "client") ∧ (firstPacket 5).written = firstPacket 5 ∧
      ((sendPacket rootedState 5 (firstPacket 5)).toOption.any fun sent =>
        (Keeper.channel sent (utf8 "port") (utf8 "here")).toOption.any (fun channel => channel.all fun channel => channel.connectionID = utf8 "link") ∧
        (Keeper.connection sent (utf8 "link")).toOption.any (fun connection => connection.all fun connection => connection.clientID = utf8 "client") ∧
        (deliverTx 5 sent none ackProofTx).toOption.any fun (after, _) =>
          after.packets.lookup (packetCommitmentKey (firstPacket 5)) = some (some ⟨firstPacket 5, 5, true, utf8 "a", 5, false, 0⟩)) = true := by
  decide +kernel

theorem acknowledged_by_proof :
    ∃ sent after, Vouched sent (.tx 5 none ackProofTx) ∧ ∃ old new, Committed (firstPacket 5) sent old ∧ Committed (firstPacket 5) after new ∧
      new.acknowledged = true ∧ Changed old (fun answer => Unproved (firstPacket 5) answer (.tx 5 none ackProofTx) ∨
        Proved sent (firstPacket 5).written answer (.tx 5 none ackProofTx)) True new := by
  obtain ⟨asks, plain, done⟩ := ack_proof_evaluated
  obtain ⟨sent, commit, done⟩ := exists_ok_of_any done
  obtain ⟨channelled, connected, done⟩ := of_decide_eq_true done
  obtain ⟨⟨after, left⟩, done, stored⟩ := exists_ok_of_any done
  have vouched : Vouched sent (.tx 5 none ackProofTx) := by
    intro asked named
    rw [asksByClient, named] at asks
    cases asked with
    | ackProof packet answer clientID proof =>
      cases asks
      refine ⟨?_, ?_⟩
      · intro receipt found
        cases (sent_committed commit).stored.symm.trans found
        exact plain
      · intro channel connection channelFound connectionFound
        obtain ⟨_, read, own⟩ := exists_ok_of_any channelled
        cases read.symm.trans channelFound
        rw [of_decide_eq_true own] at connectionFound
        obtain ⟨_, read, own⟩ := exists_ok_of_any connected
        cases read.symm.trans connectionFound
        exact (of_decide_eq_true own).symm
    | _ => trivial
  obtain ⟨old, new, before, kept, changed⟩ := acknowledged_by_request_or_proof commit (.stop sent) vouched (.delivered done)
  refine ⟨sent, after, vouched, old, new, before, kept, ?_, changed⟩
  cases (of_decide_eq_true stored).symm.trans kept.stored
  rfl

end Acknowledgements

end Vexo.IBCModule
