import TwitterLike.Core.ByteBuffer
import TwitterLike.Core.Traced

/-!
# Packets and their wire format

`commons/Packet.h` and `commons/Packet.cpp`: the command codes, the packet
class, and the two conversions between a packet and the 4096-byte array that is
sent for it.  The encoder has no result where the source would write past its
array; the decoder records every read, every `size + 1` and every advance of
its cursor, and stops where the source would read outside the message or where
an allocation is refused.
-/

namespace TwitterLike.PacketFormat

open TwitterLike.ByteBuffer
open TwitterLike.Traced

/-- `PACKET_BUFFER_LEN`. -/
def packetBufferLen : ℕ := 4096

abbrev MessageBuffer := Buffer packetBufferLen

/-! ## Commands -/

/-- `enum CmdType`.  The decoder casts whatever byte it finds, so a command can
also hold a byte that is the value of no enumerator. -/
inductive CmdType where
  | profile
  | closeConn
  | follow
  | send
  | setPrimaryIfNotExists
  | setPrimary
  | getPrimary
  | setBackup
  | alive
  | ok
  | backupPropagation
  | election
  | elected
  | unlisted (value : {byte : Byte // byte = 0 ∨ 13 < byte})
  deriving DecidableEq

/-- `(char)cmd`. -/
def CmdType.toByte : CmdType → Byte
  | .profile => 1
  | .closeConn => 2
  | .follow => 3
  | .send => 4
  | .setPrimaryIfNotExists => 5
  | .setPrimary => 6
  | .getPrimary => 7
  | .setBackup => 8
  | .alive => 9
  | .ok => 10
  | .backupPropagation => 11
  | .election => 12
  | .elected => 13
  | .unlisted value => value.1

/-- `(CmdType)buffer[pos]`. -/
def CmdType.ofByte (byte : Byte) : CmdType :=
  if hunlisted : byte = 0 ∨ 13 < byte then .unlisted ⟨byte, hunlisted⟩
  else match byte.toNat with
    | 1 => .profile
    | 2 => .closeConn
    | 3 => .follow
    | 4 => .send
    | 5 => .setPrimaryIfNotExists
    | 6 => .setPrimary
    | 7 => .getPrimary
    | 8 => .setBackup
    | 9 => .alive
    | 10 => .ok
    | 11 => .backupPropagation
    | 12 => .election
    | _ => .elected

@[simp]
theorem CmdType.ofByte_toByte (cmd : CmdType) :
    CmdType.ofByte cmd.toByte = cmd := by
  cases cmd with
  | unlisted value => simp [CmdType.toByte, CmdType.ofByte, value.2]
  | _ => rfl

/-! ## Packets -/

structure Packet where
  cmd : CmdType
  payload : ByteString
  timestamp : BitVec 64
  sender : ByteString
  deriving DecidableEq

/-- `Packet(CmdType cmd, string payload, string sender)`; the shorter
constructors leave the strings empty. -/
def new (cmd : CmdType) (payload sender : ByteString) (time : BitVec 64) :
    Packet :=
  { cmd := cmd, payload := payload, timestamp := time, sender := sender }

/-- The number of bytes `toBytes` copies into its array. -/
def encodedLength (packet : Packet) : ℕ :=
  25 + packet.payload.length + packet.sender.length

/-- The packet can be encoded without leaving the array. -/
def Fits (packet : Packet) : Prop :=
  encodedLength packet ≤ packetBufferLen

instance (packet : Packet) : Decidable (Fits packet) :=
  inferInstanceAs (Decidable (_ ≤ _))

/-- Neither string of the packet contains a zero byte. -/
def NulFree (packet : Packet) : Prop :=
  0 ∉ packet.payload ∧ 0 ∉ packet.sender

instance (packet : Packet) : Decidable (NulFree packet) :=
  inferInstanceAs (Decidable (_ ∧ _))

/-! ## Encoder -/

/-- `Packet::toBytes`. -/
def toBytes (packet : Packet) : Option MessageBuffer := do
  let buffer := Buffer.zeros packetBufferLen
  let pos := 0
  let buffer ← buffer.store pos [packet.cmd.toByte]
  let pos := pos + 1
  let buffer ← buffer.store pos (encodeLE 8 packet.timestamp.toNat)
  let pos := pos + 8
  let payloadSize := packet.payload.length
  let buffer ← buffer.store pos (encodeLE 8 payloadSize)
  let pos := pos + 8
  let buffer ← buffer.store pos packet.payload
  let pos := pos + payloadSize
  let senderSize := packet.sender.length
  let buffer ← buffer.store pos (encodeLE 8 senderSize)
  let pos := pos + 8
  buffer.store pos packet.sender

/-! ## Decoder -/

/-- The free store behind `new char[n]`.  Which requests it refuses is up to
the machine; one for no more than a message buffer is granted. -/
structure FreeStore where
  grants : ℕ → Bool
  grants_message : ∀ count ≤ packetBufferLen, grants count = true

/-- What the decoder does that is only safe for some messages. -/
inductive Access where
  /-- reads `length` bytes of the message from `offset` on -/
  | read (offset : ℤ) (length : ℕ)
  /-- computes `size + 1` in `size_t` -/
  | plusOne (size : ℕ)
  /-- computes `pos += size` for the `int` cursor -/
  | advance (pos : ℤ) (size : ℕ)
  deriving DecidableEq

/-- The read stays inside the message, the sum does not wrap around. -/
def Access.Safe : Access → Prop
  | .read offset length => 0 ≤ offset ∧ offset + length ≤ packetBufferLen
  | .plusOne size => size + 1 < 2 ^ 64
  | .advance pos size => pos + size < 2 ^ 31

inductive DecodeFault where
  /-- `new char[n]` throws -/
  | badAlloc
  /-- a read outside the message: the behaviour is undefined from here on -/
  | outOfBounds
  deriving DecidableEq

abbrev Decoder := Recorded Access DecodeFault

/-- `memcpy(&target, &buffer[pos], length)`. -/
def copyFrom (buffer : MessageBuffer) (pos : ℤ) (length : ℕ) :
    Decoder (List Byte) :=
  record (.read pos length)
    (if pos < 0 then .error .outOfBounds
    else match buffer.load pos.toNat length with
      | some bytes => .ok bytes
      | none => .error .outOfBounds)

/-- `new char[size + 1]`, zeroed by the `memset` that follows it. -/
def newChars (freeStore : FreeStore) (size : ℕ) : Decoder Unit :=
  record (.plusOne size)
    (if freeStore.grants ((size + 1) % 2 ^ 64) then .ok ()
    else .error .badAlloc)

/-- `pos += size`, computed in `size_t` and converted back to `int`. -/
def advance (pos : ℤ) (size : ℕ) : Decoder ℤ :=
  record (.advance pos size) (.ok ((pos + size).bmod (2 ^ 32)))

/-- `Packet::fromBytes`. -/
def fromBytes (freeStore : FreeStore) (buffer : MessageBuffer) :
    Decoder Packet := do
  let pos := 0
  let cmd ← copyFrom buffer pos 1
  let pos ← advance pos 1
  let timestamp ← copyFrom buffer pos 8
  let pos ← advance pos 8
  let payloadSize ← copyFrom buffer pos 8
  let payloadSize := decodeLE payloadSize
  let pos ← advance pos 8
  newChars freeStore payloadSize
  let payloadChar ← copyFrom buffer pos payloadSize
  let payload := cString (payloadChar ++ [0])
  let pos ← advance pos payloadSize
  let senderSize ← copyFrom buffer pos 8
  let senderSize := decodeLE senderSize
  let pos ← advance pos 8
  newChars freeStore senderSize
  let senderChar ← copyFrom buffer pos senderSize
  let sender := cString (senderChar ++ [0])
  return {
    cmd := CmdType.ofByte (cmd.headD 0)
    payload := payload
    timestamp := BitVec.ofNat 64 (decodeLE timestamp)
    sender := sender }

end TwitterLike.PacketFormat
