import TwitterLike.Commons.PacketCodec
import TwitterLike.Core.Transport

/-!
# Packets over TCP

`commons/Connection.cpp` and `commons/ClientConnection.cpp`: both classes send
the whole 4096-byte array of a packet, and both take one `recv` for one packet.
The transport is any segmentation of the sent bytes; the packets received are
the packets sent exactly when every `recv` brings a whole array.
-/

namespace TwitterLike.Connections

open TwitterLike.ByteBuffer
open TwitterLike.Traced
open TwitterLike.Transport
open TwitterLike.PacketFormat
open TwitterLike.PacketCodec

/-! ## The two connection classes -/

/-- What one call of `recv` does: it returns the number of bytes it put into
the array, 0 at the end of the stream, or -1. -/
inductive RecvResult where
  | bytes (chunk : List Byte)
  | endOfStream
  | error

/-- The array after the `recv`: zeros where nothing was received. -/
def RecvResult.buffer : RecvResult → MessageBuffer
  | .bytes chunk => Buffer.receive chunk
  | .endOfStream => Buffer.zeros packetBufferLen
  | .error => Buffer.zeros packetBufferLen

inductive ReceiveFault where
  /-- `Connection::receiveMessage` throws -/
  | connectionLost
  | decode (fault : DecodeFault)
  deriving DecidableEq

/-- `packet->fromBytes(buffer_temp)`. -/
def decodeMessage (freeStore : FreeStore) (buffer : MessageBuffer) :
    Except ReceiveFault Packet :=
  (fromBytes freeStore buffer).outcome.mapError .decode

/-- `Connection::receiveMessage`. -/
def Connection.receiveMessage : RecvResult → Except ReceiveFault MessageBuffer
  | .endOfStream => .error .connectionLost
  | result => .ok result.buffer

/-- `Connection::receivePacket`. -/
def Connection.receivePacket (freeStore : FreeStore) (result : RecvResult) :
    Except ReceiveFault Packet := do
  let buffer ← Connection.receiveMessage result
  decodeMessage freeStore buffer

/-- `ClientConnection::receiveMessage` does not look at the result. -/
def ClientConnection.receiveMessage (result : RecvResult) : MessageBuffer :=
  result.buffer

/-- `ClientConnection::receivePacket`. -/
def ClientConnection.receivePacket (freeStore : FreeStore)
    (result : RecvResult) : Except ReceiveFault Packet :=
  decodeMessage freeStore (ClientConnection.receiveMessage result)

/-- `sendPacket` of either class: the bytes put on the stream, if the encoder
stays inside its array. -/
def sendPacket (packet : Packet) : Option (List Byte) :=
  (toBytes packet).map fun buffer => buffer.toList

/-! ## Sent and received sequences -/

/-- A packet that can be encoded and that the codec does not change. -/
structure SendablePacket where
  packet : Packet
  fits : Fits packet
  nulFree : NulFree packet

/-- The array sent for a packet. -/
def SendablePacket.message (sendable : SendablePacket) : MessageBuffer :=
  (toBytes sendable.packet).get
    ((toBytes_isSome_iff sendable.packet).2 sendable.fits)

theorem SendablePacket.sendPacket_eq (sendable : SendablePacket) :
    sendPacket sendable.packet = some sendable.message.toList := by
  obtain ⟨buffer, hbuffer, _⟩ := toBytes_of_fits sendable.fits
  have hmessage : sendable.message = buffer := by
    simp [SendablePacket.message, hbuffer]
  rw [sendPacket, hbuffer, hmessage]
  rfl

/-- The messages put on one connection by a sequence of `sendPacket` calls. -/
def sentMessages (packets : List SendablePacket) : List (List Byte) :=
  packets.map fun sendable => sendable.message.toList

theorem length_of_mem_sentMessages (packets : List SendablePacket) :
    ∀ message ∈ sentMessages packets, message.length = packetBufferLen := by
  intro message hmessage
  obtain ⟨sendable, _, rfl⟩ := List.mem_map.1 hmessage
  exact sendable.message.toList_length

/-- A delivery of the sent bytes in order, without loss or duplication, in
`recv` results of 1 to 4096 bytes. -/
abbrev Delivery (packets : List SendablePacket) :=
  Segmentation packetBufferLen (sentMessages packets).flatten

/-- What successive `Connection::receivePacket` calls return. -/
def Connection.receivePackets (freeStore : FreeStore)
    {packets : List SendablePacket} (delivery : Delivery packets) :
    List (Except ReceiveFault Packet) :=
  delivery.chunks.map fun chunk =>
    Connection.receivePacket freeStore (.bytes chunk)

/-- What successive `ClientConnection::receivePacket` calls return. -/
def ClientConnection.receivePackets (freeStore : FreeStore)
    {packets : List SendablePacket} (delivery : Delivery packets) :
    List (Except ReceiveFault Packet) :=
  delivery.chunks.map fun chunk =>
    ClientConnection.receivePacket freeStore (.bytes chunk)

/-- The two classes differ only at the end of the stream. -/
theorem receivePackets_eq (freeStore : FreeStore)
    {packets : List SendablePacket} (delivery : Delivery packets) :
    Connection.receivePackets freeStore delivery =
      ClientConnection.receivePackets freeStore delivery := rfl

/-- A whole message is received as the packet it was sent for. -/
theorem receivePacket_message (freeStore : FreeStore)
    (sendable : SendablePacket) :
    ClientConnection.receivePacket freeStore
        (.bytes sendable.message.toList) = .ok sendable.packet := by
  obtain ⟨buffer, hbuffer, hinside, hdecoded⟩ :=
    toBytes_sizesInside sendable.fits
  have hmessage : sendable.message = buffer := by
    simp [SendablePacket.message, hbuffer]
  have hpacket : decoded buffer = sendable.packet :=
    hdecoded.trans ((truncated_eq_self_iff _).2 sendable.nulFree)
  rw [ClientConnection.receivePacket, ClientConnection.receiveMessage,
    RecvResult.buffer, Buffer.receive_toList, hmessage, decodeMessage,
    (fromBytes_of_sizesInside freeStore hinside).2, hpacket]
  rfl

theorem clientConnection_receivePackets_eq_iff (freeStore : FreeStore)
    {packets : List SendablePacket} (delivery : Delivery packets) :
    ClientConnection.receivePackets freeStore delivery =
        packets.map (fun sendable => .ok sendable.packet) ↔
      ∀ chunk ∈ delivery.chunks, chunk.length = packetBufferLen := by
  have huniform := length_of_mem_sentMessages packets
  constructor
  · intro hreceived
    apply delivery.full_of_length_eq huniform
    have hlength := congrArg List.length hreceived
    simpa [ClientConnection.receivePackets, sentMessages] using hlength
  · intro hfull
    rw [ClientConnection.receivePackets,
      delivery.chunks_eq_of_full (by decide) huniform hfull, sentMessages,
      List.map_map]
    apply List.map_congr_left
    intro sendable _
    exact receivePacket_message freeStore sendable

/-- On either class, the received sequence is the sent one exactly when every
`recv` returns a whole message. -/
theorem received_eq_sent_iff (freeStore : FreeStore)
    (packets : List SendablePacket) (delivery : Delivery packets) :
    (Connection.receivePackets freeStore delivery =
        packets.map (fun sendable => .ok sendable.packet) ↔
      ∀ chunk ∈ delivery.chunks, chunk.length = packetBufferLen) ∧
    (ClientConnection.receivePackets freeStore delivery =
        packets.map (fun sendable => .ok sendable.packet) ↔
      ∀ chunk ∈ delivery.chunks, chunk.length = packetBufferLen) := by
  rw [receivePackets_eq]
  exact ⟨clientConnection_receivePackets_eq_iff freeStore delivery,
    clientConnection_receivePackets_eq_iff freeStore delivery⟩

/-- `Packet(CmdType::OK)`. -/
def okPacket : SendablePacket where
  packet := new .ok [] [] 0
  fits := by decide
  nulFree := by decide

/-- One message that arrives in two pieces, split after its first byte. -/
def splitDelivery : Delivery [okPacket] where
  chunks := [okPacket.message.toList.take 1, okPacket.message.toList.drop 1]
  flatten_chunks := by
    rw [List.flatten_cons, List.flatten_singleton, List.take_append_drop]
    exact List.flatten_singleton.symm
  nonempty := by
    have hlength : okPacket.message.toList.length = 4096 :=
      okPacket.message.toList_length
    simp [hlength]
  bounded := by
    have hlength := okPacket.message.toList_length
    intro chunk hchunk
    simp only [List.mem_cons, List.not_mem_nil, or_false] at hchunk
    rcases hchunk with rfl | rfl
    · exact (List.take_sublist _ _).length_le.trans hlength.le
    · exact (List.drop_sublist _ _).length_le.trans hlength.le

/-- A message split in two is received as two packets. -/
theorem received_ne_sent_of_split :
    ¬ ∀ (freeStore : FreeStore) (packets : List SendablePacket)
        (delivery : Delivery packets),
      Connection.receivePackets freeStore delivery =
          packets.map (fun sendable => .ok sendable.packet) ∧
        ClientConnection.receivePackets freeStore delivery =
          packets.map (fun sendable => .ok sendable.packet) := by
  intro hreceived
  have hequal := (hreceived ⟨fun _ => true, fun _ _ => rfl⟩ [okPacket]
    splitDelivery).1
  have hlength := congrArg List.length hequal
  simp [Connection.receivePackets, splitDelivery] at hlength

end TwitterLike.Connections
