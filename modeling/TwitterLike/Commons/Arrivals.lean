import TwitterLike.Commons.Connections

/-!
# What a dead peer sends

`receivePacket` of both classes on a connection whose peer has gone.  Only
`Connection` looks at the result of `recv`, and only for the end of the stream;
everything else is decoded, and an untouched buffer is a packet as well.
-/

namespace TwitterLike.Arrivals

open TwitterLike.ByteBuffer
open TwitterLike.PacketFormat
open TwitterLike.PacketCodec
open TwitterLike.Connections

/-- What one `recv` finds on a connection. -/
inductive Incoming where
  /-- the whole array of a packet -/
  | packet (sendable : SendablePacket)
  | endOfStream
  | error

def Incoming.result : Incoming → RecvResult
  | .packet sendable => .bytes sendable.message.toList
  | .endOfStream => .endOfStream
  | .error => .error

/-- What `fromBytes` makes of a buffer of zeros. -/
def zeroPacket : SendablePacket where
  packet := new (.unlisted ⟨0, .inl rfl⟩) [] [] 0
  fits := by decide
  nulFree := by decide

/-- The packet that a class which does not look at the result receives. -/
def Incoming.received : Incoming → Packet
  | .packet sendable => sendable.packet
  | .endOfStream => zeroPacket.packet
  | .error => zeroPacket.packet

/-- How `recv` tells of a dead peer: with 0 or with -1. -/
inductive Death where
  | endOfStream
  | error

def Death.incoming : Death → Incoming
  | .endOfStream => .endOfStream
  | .error => .error

/-- One turn's input: what is received, the requests of other threads that have
been handled since the last turn, and the time stamped on what the turn sends. -/
structure Arrival (Request : Type) where
  incoming : Incoming
  meanwhile : List Request
  time : BitVec 64

/-- A packet that arrives before the peer dies. -/
structure Sent (Request : Type) where
  sendable : SendablePacket
  meanwhile : List Request
  time : BitVec 64

section Arrival

variable {Request : Type}

def Sent.arrival (sent : Sent Request) : Arrival Request where
  incoming := .packet sent.sendable
  meanwhile := sent.meanwhile
  time := sent.time

/-- The peer is dead this way. -/
def Died (death : Death) (arrival : Arrival Request) : Prop :=
  arrival.incoming = death.incoming

theorem exists_died (death : Death) :
    ∃ arrival : Arrival Request, Died death arrival :=
  ⟨⟨death.incoming, [], 0⟩, rfl⟩

theorem received_of_died {death : Death} {arrival : Arrival Request}
    (hdied : Died death arrival) :
    arrival.incoming.received = zeroPacket.packet := by
  rw [hdied]
  cases death with
  | endOfStream => rfl
  | error => rfl

/-- A packet is not the end of the stream. -/
theorem incoming_ne_of_mem {sent : List (Sent Request)}
    {arrival : Arrival Request} (hmem : arrival ∈ sent.map Sent.arrival) :
    arrival.incoming ≠ .endOfStream := by
  obtain ⟨packet, _, rfl⟩ := List.mem_map.1 hmem
  exact nofun

end Arrival

/-! ## Receiving -/

/-- The message of the packet of zeros is the buffer as it was zeroed. -/
theorem message_zeroPacket :
    zeroPacket.message = Buffer.zeros packetBufferLen := by
  obtain ⟨buffer, hbuffer, hfilled⟩ := toBytes_of_fits zeroPacket.fits
  have hmessage : zeroPacket.message = buffer := by
    simp [SendablePacket.message, hbuffer]
  apply List.Vector.toList_injective
  have hlayout : layout zeroPacket.packet = List.replicate 25 0 := by decide
  have hzeros := (Buffer.filled_zeros packetBufferLen).2
  rw [hmessage, hfilled.2, hzeros, hlayout, List.nil_append,
    List.length_replicate, List.replicate_append_replicate]
  rfl

variable (freeStore : FreeStore)

/-- `ClientConnection` receives a packet whatever `recv` returns. -/
theorem clientConnection_receivePacket (incoming : Incoming) :
    ClientConnection.receivePacket freeStore incoming.result =
      .ok incoming.received := by
  have hzeros := receivePacket_message freeStore zeroPacket
  rw [message_zeroPacket, ClientConnection.receivePacket,
    ClientConnection.receiveMessage, RecvResult.buffer, Buffer.receive_toList]
    at hzeros
  cases incoming with
  | packet sendable => exact receivePacket_message freeStore sendable
  | endOfStream => exact hzeros
  | error => exact hzeros

/-- `Connection` differs only at the end of the stream. -/
theorem connection_receivePacket {incoming : Incoming}
    (hincoming : incoming ≠ .endOfStream) :
    Connection.receivePacket freeStore incoming.result =
      .ok incoming.received := by
  have hclient := clientConnection_receivePacket freeStore incoming
  cases incoming with
  | packet sendable => exact hclient
  | endOfStream => exact absurd rfl hincoming
  | error => exact hclient

end TwitterLike.Arrivals
