import TwitterLike.Commons.PacketFormat

/-!
# The codec on its image and on arbitrary messages

The encoder fills its array from the front, so it has a result exactly when the
packet fits, and that result is the packet's fields followed by zeros.  The
decoder is followed branch by branch: its safety depends only on the two sizes
stored in the message and on which allocations are granted.
-/

namespace TwitterLike.PacketCodec

open TwitterLike.ByteBuffer
open TwitterLike.Traced
open TwitterLike.PacketFormat

/-! ## What the encoder writes -/

/-- The bytes of an encoded packet, without the zeros behind them. -/
def layout (packet : Packet) : List Byte :=
  [packet.cmd.toByte] ++ encodeLE 8 packet.timestamp.toNat ++
    encodeLE 8 packet.payload.length ++ packet.payload ++
    encodeLE 8 packet.sender.length ++ packet.sender

theorem toBytes_of_fits {packet : Packet} (hfits : Fits packet) :
    ∃ buffer, toBytes packet = some buffer ∧
      Buffer.Filled buffer (layout packet) := by
  have hbound : 25 + packet.payload.length + packet.sender.length ≤
      packetBufferLen := hfits
  have hzeros := Buffer.filled_zeros packetBufferLen
  obtain ⟨cmdWritten, hcmd, hfilled⟩ :=
    hzeros.store_of_le [packet.cmd.toByte] (show 0 = _ from rfl)
      (by simp; omega)
  obtain ⟨timeWritten, htime, hfilled⟩ :=
    hfilled.store_of_le (encodeLE 8 packet.timestamp.toNat)
      (show 0 + 1 = _ from rfl) (by simp; omega)
  obtain ⟨payloadSized, hpayloadSize, hfilled⟩ :=
    hfilled.store_of_le (encodeLE 8 packet.payload.length)
      (show 0 + 1 + 8 = _ by simp) (by simp; omega)
  obtain ⟨payloadWritten, hpayload, hfilled⟩ :=
    hfilled.store_of_le packet.payload
      (show 0 + 1 + 8 + 8 = _ by simp) (by omega)
  obtain ⟨senderSized, hsenderSize, hfilled⟩ :=
    hfilled.store_of_le (encodeLE 8 packet.sender.length)
      (show 0 + 1 + 8 + 8 + packet.payload.length = _ by simp; omega)
      (by simp; omega)
  obtain ⟨senderWritten, hsender, hfilled⟩ :=
    hfilled.store_of_le packet.sender
      (show 0 + 1 + 8 + 8 + packet.payload.length + 8 = _ by simp; omega)
      (by omega)
  refine ⟨senderWritten, ?_, hfilled⟩
  simp only [toBytes, hcmd, htime, hpayloadSize, hpayload, hsenderSize, hsender,
    Option.bind_eq_bind, Option.bind_some]

theorem toBytes_of_not_fits {packet : Packet} (hfits : ¬ Fits packet) :
    toBytes packet = none := by
  have hbound : packetBufferLen <
      0 + 1 + 8 + 8 + packet.payload.length + 8 + packet.sender.length := by
    have hlength : ¬ 25 + packet.payload.length + packet.sender.length ≤
      packetBufferLen := hfits
    omega
  simp only [toBytes, Option.bind_eq_bind, Buffer.store_of_lt _ hbound,
    Option.bind_fun_none]

/-- The encoder stays inside its array exactly for the packets that fit. -/
theorem toBytes_isSome_iff (packet : Packet) :
    (toBytes packet).isSome ↔ Fits packet := by
  constructor
  · intro hsome
    by_contra hfits
    simp [toBytes_of_not_fits hfits] at hsome
  · intro hfits
    obtain ⟨buffer, hbuffer, _⟩ := toBytes_of_fits hfits
    simp [hbuffer]

/-! ## What the decoder reads -/

/-- The bytes from `offset` on, as many of `length` as there are. -/
def slice (buffer : MessageBuffer) (offset length : ℕ) : List Byte :=
  (buffer.toList.drop offset).take length

/-- The payload size declared in the message. -/
def payloadSize (buffer : MessageBuffer) : ℕ :=
  decodeLE (slice buffer 9 8)

/-- The sender size declared in the message, right behind the payload. -/
def senderSize (buffer : MessageBuffer) : ℕ :=
  decodeLE (slice buffer (17 + payloadSize buffer) 8)

/-- The packet the decoder builds when it returns. -/
def decoded (buffer : MessageBuffer) : Packet where
  cmd := CmdType.ofByte ((slice buffer 0 1).headD 0)
  payload := cString (slice buffer 17 (payloadSize buffer))
  timestamp := BitVec.ofNat 64 (decodeLE (slice buffer 1 8))
  sender := cString
    (slice buffer (25 + payloadSize buffer) (senderSize buffer))

theorem copyFrom_of_le (buffer : MessageBuffer) {offset length : ℕ}
    (hbound : offset + length ≤ packetBufferLen) :
    copyFrom buffer offset length =
      record (.read offset length) (.ok (slice buffer offset length)) := by
  have hsign : ¬ (offset : ℤ) < 0 := by omega
  rw [copyFrom, if_neg hsign, Int.toNat_natCast, buffer.load_of_le hbound]
  rfl

theorem copyFrom_of_lt (buffer : MessageBuffer) {offset length : ℕ}
    (hbound : packetBufferLen < offset + length) :
    copyFrom buffer offset length =
      record (.read offset length) (.error .outOfBounds) := by
  have hsign : ¬ (offset : ℤ) < 0 := by omega
  rw [copyFrom, if_neg hsign, Int.toNat_natCast, buffer.load_of_lt hbound]

theorem advance_of_lt {pos size : ℕ} (hbound : pos + size < 2 ^ 31) :
    advance pos size =
      record (.advance pos size) (.ok ((pos + size : ℕ) : ℤ)) := by
  have hbmod : ((pos : ℤ) + size).bmod (2 ^ 32) = ((pos + size : ℕ) : ℤ) := by
    rw [Int.bmod_eq_of_le] <;> push_cast <;> omega
  rw [advance, hbmod]

/-- The accesses made before the payload, the same for every message. -/
def headerTrace : List Access :=
  [.read 0 1, .advance 0 1, .read 1 8, .advance 1 8, .read 9 8, .advance 9 8]

theorem headerTrace_safe : ∀ access ∈ headerTrace, access.Safe := by
  simp [headerTrace, Access.Safe, packetBufferLen]

/-- What `fromBytes` does once it has read the payload size. -/
def decodeStrings (freeStore : FreeStore) (buffer : MessageBuffer) :
    Decoder Packet := do
  newChars freeStore (payloadSize buffer)
  let payloadChar ← copyFrom buffer (17 : ℕ) (payloadSize buffer)
  let pos ← advance (17 : ℕ) (payloadSize buffer)
  let senderSize ← copyFrom buffer pos 8
  let senderSize := decodeLE senderSize
  let pos ← advance pos 8
  newChars freeStore senderSize
  let senderChar ← copyFrom buffer pos senderSize
  return {
    cmd := CmdType.ofByte ((slice buffer 0 1).headD 0)
    payload := cString (payloadChar ++ [0])
    timestamp := BitVec.ofNat 64 (decodeLE (slice buffer 1 8))
    sender := cString (senderChar ++ [0]) }

/-- Reading the header never stops. -/
theorem fromBytes_eq_header (freeStore : FreeStore) (buffer : MessageBuffer) :
    fromBytes freeStore buffer =
      ⟨headerTrace ++ (decodeStrings freeStore buffer).trace,
        (decodeStrings freeStore buffer).outcome⟩ := by
  have hcmd := @copyFrom_of_le buffer 0 1 (by decide)
  have htime := @copyFrom_of_le buffer 1 8 (by decide)
  have hsize := @copyFrom_of_le buffer 9 8 (by decide)
  have hpos₁ := @advance_of_lt 0 1 (by decide)
  have hpos₂ := @advance_of_lt 1 8 (by decide)
  have hpos₃ := @advance_of_lt 9 8 (by decide)
  norm_num only [Nat.cast_zero, Nat.cast_one, Nat.cast_ofNat]
    at hcmd htime hsize hpos₁ hpos₂ hpos₃
  simp only [fromBytes, hcmd, htime, hsize, hpos₁, hpos₂, hpos₃,
    record_ok_bind]
  rfl

theorem newChars_of_refused {freeStore : FreeStore} {size : ℕ}
    (hrefused : freeStore.grants ((size + 1) % 2 ^ 64) = false) :
    newChars freeStore size = record (.plusOne size) (.error .badAlloc) := by
  rw [newChars, hrefused]
  rfl

theorem newChars_of_granted {freeStore : FreeStore} {size : ℕ}
    (hgranted : freeStore.grants ((size + 1) % 2 ^ 64) = true) :
    newChars freeStore size = record (.plusOne size) (.ok ()) := by
  rw [newChars, hgranted]
  rfl

/-- A string that fits in a message can always be allocated. -/
theorem newChars_of_lt (freeStore : FreeStore) {size : ℕ}
    (hsize : size < packetBufferLen) :
    newChars freeStore size = record (.plusOne size) (.ok ()) := by
  apply newChars_of_granted
  apply freeStore.grants_message
  have hbound : size < 4096 := hsize
  rw [Nat.mod_eq_of_lt (by omega)]
  exact hsize

/-- The payload's declared size leads past the end of the message. -/
theorem decodeStrings_of_payload_outside {freeStore : FreeStore}
    {buffer : MessageBuffer}
    (hgranted : freeStore.grants ((payloadSize buffer + 1) % 2 ^ 64) = true)
    (houtside : packetBufferLen < 17 + payloadSize buffer) :
    decodeStrings freeStore buffer =
      ⟨[.plusOne (payloadSize buffer), .read (17 : ℕ) (payloadSize buffer)],
        .error .outOfBounds⟩ := by
  simp only [decodeStrings, newChars_of_granted hgranted, record_ok_bind,
    copyFrom_of_lt buffer houtside, record_error_bind]

/-- The payload ends so close to the end of the message that the sender's size
does not fit behind it. -/
theorem decodeStrings_of_senderSize_outside (freeStore : FreeStore)
    {buffer : MessageBuffer}
    (hinside : 17 + payloadSize buffer ≤ packetBufferLen)
    (houtside : packetBufferLen < 17 + payloadSize buffer + 8) :
    decodeStrings freeStore buffer =
      ⟨[.plusOne (payloadSize buffer), .read (17 : ℕ) (payloadSize buffer),
          .advance (17 : ℕ) (payloadSize buffer),
          .read (17 + payloadSize buffer : ℕ) 8],
        .error .outOfBounds⟩ := by
  have hbound : 17 + payloadSize buffer ≤ 4096 := hinside
  have hlt : payloadSize buffer < packetBufferLen := by
    change _ < 4096
    omega
  have hadvance :=
    @advance_of_lt 17 (payloadSize buffer) (by omega)
  simp only [decodeStrings, newChars_of_lt freeStore hlt, record_ok_bind,
    copyFrom_of_le buffer hinside, hadvance, copyFrom_of_lt buffer houtside,
    record_error_bind]

/-- The accesses made up to the sender's size when it lies inside the
message. -/
def payloadTrace (buffer : MessageBuffer) : List Access :=
  [.plusOne (payloadSize buffer), .read (17 : ℕ) (payloadSize buffer),
    .advance (17 : ℕ) (payloadSize buffer),
    .read (17 + payloadSize buffer : ℕ) 8,
    .advance (17 + payloadSize buffer : ℕ) 8]

theorem payloadTrace_safe {buffer : MessageBuffer}
    (hinside : 25 + payloadSize buffer ≤ packetBufferLen) :
    ∀ access ∈ payloadTrace buffer, access.Safe := by
  have hbound : 25 + payloadSize buffer ≤ 4096 := hinside
  simp only [payloadTrace, List.forall_mem_cons, Access.Safe, packetBufferLen]
  refine ⟨?_, ?_, ?_, ?_, ?_, by simp⟩ <;> omega

/-- What is left to do once the sender's size is known. -/
def decodeSender (freeStore : FreeStore) (buffer : MessageBuffer) :
    Decoder Packet := do
  newChars freeStore (senderSize buffer)
  let senderChar ← copyFrom buffer (25 + payloadSize buffer : ℕ)
    (senderSize buffer)
  return { decoded buffer with sender := cString senderChar }

theorem decodeStrings_of_inside (freeStore : FreeStore)
    {buffer : MessageBuffer}
    (hinside : 25 + payloadSize buffer ≤ packetBufferLen) :
    decodeStrings freeStore buffer =
      ⟨payloadTrace buffer ++ (decodeSender freeStore buffer).trace,
        (decodeSender freeStore buffer).outcome⟩ := by
  have hbound : 25 + payloadSize buffer ≤ 4096 := hinside
  have hlt : payloadSize buffer < packetBufferLen := by
    change _ < 4096
    omega
  have hpayload : 17 + payloadSize buffer ≤ packetBufferLen := by omega
  have hsize : 17 + payloadSize buffer + 8 ≤ packetBufferLen := by omega
  have hadvance :=
    @advance_of_lt 17 (payloadSize buffer) (by omega)
  have hadvance' :=
    @advance_of_lt (17 + payloadSize buffer) 8 (by omega)
  have hpos : 17 + payloadSize buffer + 8 = 25 + payloadSize buffer := by
    omega
  simp only [decodeStrings, newChars_of_lt freeStore hlt, record_ok_bind,
    copyFrom_of_le buffer hpayload, hadvance, copyFrom_of_le buffer hsize,
    hadvance', hpos, cString_append_zero]
  rfl

/-! ## Safety of the decoder -/

/-- Both declared sizes lead to fields inside the message. -/
def SizesInside (buffer : MessageBuffer) : Prop :=
  payloadSize buffer + senderSize buffer ≤ packetBufferLen - 25

instance (buffer : MessageBuffer) : Decidable (SizesInside buffer) :=
  inferInstanceAs (Decidable (_ ≤ _))

theorem decodeSender_of_sizesInside (freeStore : FreeStore)
    {buffer : MessageBuffer} (hinside : SizesInside buffer) :
    decodeSender freeStore buffer =
      ⟨[.plusOne (senderSize buffer),
          .read (25 + payloadSize buffer : ℕ) (senderSize buffer)],
        .ok (decoded buffer)⟩ := by
  have hbound : payloadSize buffer + senderSize buffer ≤ 4096 - 25 := hinside
  have hlt : senderSize buffer < packetBufferLen := by
    change _ < 4096
    omega
  have hsender :
      25 + payloadSize buffer + senderSize buffer ≤ packetBufferLen := by
    change _ ≤ 4096
    omega
  simp only [decodeSender, newChars_of_lt freeStore hlt, record_ok_bind,
    copyFrom_of_le buffer hsender]
  rfl

/-- A message whose sizes stay inside is decoded, and safely. -/
theorem fromBytes_of_sizesInside (freeStore : FreeStore)
    {buffer : MessageBuffer} (hinside : SizesInside buffer) :
    AllSafe Access.Safe (fromBytes freeStore buffer) ∧
      (fromBytes freeStore buffer).outcome = .ok (decoded buffer) := by
  have hbound : payloadSize buffer + senderSize buffer ≤ 4096 - 25 := hinside
  have hpayload : 25 + payloadSize buffer ≤ packetBufferLen := by
    change _ ≤ 4096
    omega
  rw [fromBytes_eq_header, decodeStrings_of_inside freeStore hpayload,
    decodeSender_of_sizesInside freeStore hinside]
  refine ⟨?_, rfl⟩
  intro access haccess
  simp only [List.mem_append, List.mem_cons, List.not_mem_nil, or_false]
    at haccess
  rcases haccess with hheader | hpayloadAccess | rfl | rfl
  · exact headerTrace_safe access hheader
  · exact payloadTrace_safe hpayload access hpayloadAccess
  · simp only [Access.Safe]
    omega
  · simp only [Access.Safe, packetBufferLen]
    omega

/-- The allocator refuses the array for the payload. -/
def PayloadRefused (freeStore : FreeStore) (buffer : MessageBuffer) : Prop :=
  freeStore.grants ((payloadSize buffer + 1) % 2 ^ 64) = false

/-- The payload and the sender's size lie inside the message and the allocator
refuses the array for the sender. -/
def SenderRefused (freeStore : FreeStore) (buffer : MessageBuffer) : Prop :=
  25 + payloadSize buffer ≤ packetBufferLen ∧
    freeStore.grants ((senderSize buffer + 1) % 2 ^ 64) = false

theorem payloadSize_lt (buffer : MessageBuffer) :
    payloadSize buffer < 2 ^ 64 := by
  have hlt := decodeLE_lt (slice buffer 9 8)
  have hlength : (slice buffer 9 8).length ≤ 8 := List.length_take_le _ _
  calc
    payloadSize buffer < 256 ^ (slice buffer 9 8).length := hlt
    _ ≤ 256 ^ 8 := Nat.pow_le_pow_right (by norm_num) hlength
    _ = 2 ^ 64 := by norm_num

theorem senderSize_lt (buffer : MessageBuffer) :
    senderSize buffer < 2 ^ 64 := by
  have hlt := decodeLE_lt (slice buffer (17 + payloadSize buffer) 8)
  have hlength : (slice buffer (17 + payloadSize buffer) 8).length ≤ 8 :=
    List.length_take_le _ _
  calc
    senderSize buffer <
        256 ^ (slice buffer (17 + payloadSize buffer) 8).length := hlt
    _ ≤ 256 ^ 8 := Nat.pow_le_pow_right (by norm_num) hlength
    _ = 2 ^ 64 := by norm_num

/-- A refused request is for a positive number of bytes, so computing it did
not wrap around. -/
theorem plusOne_safe_of_refused {freeStore : FreeStore} {size : ℕ}
    (hsize : size < 2 ^ 64)
    (hrefused : freeStore.grants ((size + 1) % 2 ^ 64) = false) :
    (Access.plusOne size).Safe := by
  by_contra hunsafe
  have hwrap : size + 1 = 2 ^ 64 := by
    simp only [Access.Safe, not_lt] at hunsafe
    omega
  rw [hwrap, Nat.mod_self, freeStore.grants_message 0 (Nat.zero_le _)]
    at hrefused
  contradiction

theorem allSafe_of_payloadRefused {freeStore : FreeStore}
    {buffer : MessageBuffer} (hrefused : PayloadRefused freeStore buffer) :
    AllSafe Access.Safe (fromBytes freeStore buffer) := by
  rw [fromBytes_eq_header]
  intro access haccess
  simp only [decodeStrings, newChars_of_refused hrefused, record_error_bind,
    List.mem_append, List.mem_singleton] at haccess
  rcases haccess with hheader | rfl
  · exact headerTrace_safe access hheader
  · exact plusOne_safe_of_refused (payloadSize_lt buffer) hrefused

theorem allSafe_of_senderRefused {freeStore : FreeStore}
    {buffer : MessageBuffer} (hrefused : SenderRefused freeStore buffer) :
    AllSafe Access.Safe (fromBytes freeStore buffer) := by
  rw [fromBytes_eq_header, decodeStrings_of_inside freeStore hrefused.1]
  intro access haccess
  simp only [decodeSender, newChars_of_refused hrefused.2, record_error_bind,
    List.mem_append, List.mem_singleton] at haccess
  rcases haccess with hheader | hpayload | rfl
  · exact headerTrace_safe access hheader
  · exact payloadTrace_safe hrefused.1 access hpayload
  · exact plusOne_safe_of_refused (senderSize_lt buffer) hrefused.2

/-- Without a refusal, one of the three data-dependent reads of a message with
an outlying size leaves the array. -/
theorem exists_unsafe_read {freeStore : FreeStore} {buffer : MessageBuffer}
    (hinside : ¬ SizesInside buffer)
    (hpayload : ¬ PayloadRefused freeStore buffer)
    (hsender : ¬ SenderRefused freeStore buffer) :
    ∃ access ∈ (fromBytes freeStore buffer).trace, ¬ access.Safe := by
  have hgranted :
      freeStore.grants ((payloadSize buffer + 1) % 2 ^ 64) = true := by
    simpa [PayloadRefused] using hpayload
  rw [fromBytes_eq_header]
  by_cases houtside : packetBufferLen < 17 + payloadSize buffer
  · refine ⟨.read (17 : ℕ) (payloadSize buffer), ?_, ?_⟩
    · simp [decodeStrings_of_payload_outside hgranted houtside]
    · simp only [Access.Safe, packetBufferLen] at houtside ⊢
      omega
  by_cases hsizeOutside : packetBufferLen < 17 + payloadSize buffer + 8
  · refine ⟨.read (17 + payloadSize buffer : ℕ) 8, ?_, ?_⟩
    · simp [decodeStrings_of_senderSize_outside freeStore
        (not_lt.1 houtside) hsizeOutside]
    · simp only [Access.Safe, packetBufferLen] at hsizeOutside ⊢
      omega
  have hfields : 25 + payloadSize buffer ≤ packetBufferLen := by omega
  have hsenderGranted :
      freeStore.grants ((senderSize buffer + 1) % 2 ^ 64) = true := by
    by_contra hrefused
    exact hsender ⟨hfields, by simpa using hrefused⟩
  have hsenderOutside : packetBufferLen <
      25 + payloadSize buffer + senderSize buffer := by
    simp only [SizesInside, packetBufferLen] at hinside ⊢
    omega
  refine ⟨.read (25 + payloadSize buffer : ℕ) (senderSize buffer), ?_, ?_⟩
  · rw [decodeStrings_of_inside freeStore hfields]
    simp only [decodeSender, newChars_of_granted hsenderGranted, record_ok_bind,
      copyFrom_of_lt buffer hsenderOutside, record_error_bind]
    simp
  · simp only [Access.Safe, packetBufferLen] at hsenderOutside ⊢
    omega

/-- The decoder reads only inside the message, without wrap-around, exactly
when the two declared sizes lead to fields inside it or one of the two
allocations is refused before a read could go wrong. -/
theorem allSafe_fromBytes_iff (freeStore : FreeStore)
    (buffer : MessageBuffer) :
    AllSafe Access.Safe (fromBytes freeStore buffer) ↔
      SizesInside buffer ∨ PayloadRefused freeStore buffer ∨
        SenderRefused freeStore buffer := by
  constructor
  · intro hsafe
    by_contra hnone
    rw [not_or, not_or] at hnone
    obtain ⟨access, haccess, hunsafe⟩ :=
      exists_unsafe_read hnone.1 hnone.2.1 hnone.2.2
    exact hunsafe (hsafe access haccess)
  · rintro (hinside | hpayload | hsender)
    · exact (fromBytes_of_sizesInside freeStore hinside).1
    · exact allSafe_of_payloadRefused hpayload
    · exact allSafe_of_senderRefused hsender

/-- A message whose payload is declared as long as the whole message. -/
def oversizedMessage : MessageBuffer :=
  ⟨[4] ++ List.replicate 8 0 ++ encodeLE 8 4096 ++ List.replicate 4079 0, by
    simp only [List.length_append, List.length_replicate, length_encodeLE,
      List.length_singleton]
    rfl⟩

theorem oversizedMessage_payloadSize : payloadSize oversizedMessage = 4096 := by
  decide

/-- A declared payload size of 4096 sends the decoder past the end of the
message, provided the machine can allocate 4097 bytes. -/
theorem fromBytes_leaves_oversizedMessage :
    ¬ ∀ (freeStore : FreeStore) (buffer : MessageBuffer),
      AllSafe Access.Safe (fromBytes freeStore buffer) := by
  intro hsafe
  have hgranted : (⟨fun _ => true, fun _ _ => rfl⟩ : FreeStore).grants
      ((payloadSize oversizedMessage + 1) % 2 ^ 64) = true := rfl
  have haccess := hsafe ⟨fun _ => true, fun _ _ => rfl⟩ oversizedMessage
    (.read (17 : ℕ) (payloadSize oversizedMessage)) (by
      rw [fromBytes_eq_header, decodeStrings_of_payload_outside hgranted]
      · simp
      · rw [oversizedMessage_payloadSize]
        decide)
  rw [oversizedMessage_payloadSize] at haccess
  exact absurd haccess.2 (by decide)

/-! ## Round trip -/

/-- The packet with both strings cut at their first zero byte. -/
def truncated (packet : Packet) : Packet :=
  { packet with
    payload := cString packet.payload
    sender := cString packet.sender }

theorem truncated_eq_self_iff (packet : Packet) :
    truncated packet = packet ↔ NulFree packet := by
  rw [NulFree, ← cString_eq_self_iff, ← cString_eq_self_iff]
  constructor
  · intro heq
    exact ⟨congrArg Packet.payload heq, congrArg Packet.sender heq⟩
  · rintro ⟨hpayload, hsender⟩
    simp [truncated, hpayload, hsender]

theorem slice_middle {buffer : MessageBuffer} {before field after : List Byte}
    {offset length : ℕ} (hlayout : buffer.toList = before ++ (field ++ after))
    (hoffset : offset = before.length) (hlength : length = field.length) :
    slice buffer offset length = field := by
  subst hoffset hlength
  rw [slice, hlayout, List.drop_left, List.take_left]

/-- The array of an encoded packet holds its fields at the places where the
decoder looks for them. -/
theorem decoded_of_filled {packet : Packet} {buffer : MessageBuffer}
    (hfits : Fits packet) (hfilled : Buffer.Filled buffer (layout packet)) :
    payloadSize buffer = packet.payload.length ∧
      senderSize buffer = packet.sender.length ∧
      decoded buffer = truncated packet := by
  have hbound : 25 + packet.payload.length + packet.sender.length ≤ 4096 :=
    hfits
  have hlayout := hfilled.2
  simp only [layout, List.append_assoc] at hlayout
  have hcmd : slice buffer 0 1 = [packet.cmd.toByte] :=
    @slice_middle _ [] _ _ _ _ hlayout rfl rfl
  have htime : slice buffer 1 8 = encodeLE 8 packet.timestamp.toNat :=
    @slice_middle _ [packet.cmd.toByte] _ _ _ _ hlayout rfl (by simp)
  rw [← List.append_assoc] at hlayout
  have hpayloadSize : payloadSize buffer = packet.payload.length := by
    rw [payloadSize, slice_middle hlayout (by simp) (length_encodeLE _ _).symm,
      decodeLE_encodeLE (by norm_num; omega)]
  rw [← List.append_assoc] at hlayout
  have hpayload : slice buffer 17 (payloadSize buffer) = packet.payload :=
    slice_middle hlayout (by simp) hpayloadSize
  rw [← List.append_assoc] at hlayout
  have hsenderSize : senderSize buffer = packet.sender.length := by
    rw [senderSize, slice_middle hlayout (by simp [hpayloadSize]; omega)
      (length_encodeLE _ _).symm, decodeLE_encodeLE (by norm_num; omega)]
  rw [← List.append_assoc] at hlayout
  have hsender :
      slice buffer (25 + payloadSize buffer) (senderSize buffer) =
        packet.sender :=
    slice_middle hlayout (by simp [hpayloadSize]; omega) hsenderSize
  refine ⟨hpayloadSize, hsenderSize, ?_⟩
  have htimestamp : packet.timestamp.toNat < 256 ^ 8 := packet.timestamp.isLt
  simp [decoded, truncated, hcmd, htime, hpayload, hsender,
    decodeLE_encodeLE htimestamp]

theorem toBytes_sizesInside {packet : Packet} (hfits : Fits packet) :
    ∃ buffer, toBytes packet = some buffer ∧ SizesInside buffer ∧
      decoded buffer = truncated packet := by
  obtain ⟨buffer, hbuffer, hfilled⟩ := toBytes_of_fits hfits
  obtain ⟨hpayload, hsender, hdecoded⟩ := decoded_of_filled hfits hfilled
  refine ⟨buffer, hbuffer, ?_, hdecoded⟩
  have hbound : 25 + packet.payload.length + packet.sender.length ≤ 4096 :=
    hfits
  change payloadSize buffer + senderSize buffer ≤ 4096 - 25
  omega

/-- Decoding an encoded packet reads only inside its array and gives the packet
with both strings cut at their first zero byte: the packet itself exactly when
neither string contains one. -/
theorem fromBytes_toBytes (freeStore : FreeStore) (packet : Packet)
    (hfits : 25 + packet.payload.length + packet.sender.length ≤
      packetBufferLen) :
    ∃ buffer, toBytes packet = some buffer ∧
      AllSafe Access.Safe (fromBytes freeStore buffer) ∧
      (fromBytes freeStore buffer).outcome =
        .ok { cmd := packet.cmd
              payload := cString packet.payload
              timestamp := packet.timestamp
              sender := cString packet.sender } ∧
      ((fromBytes freeStore buffer).outcome = .ok packet ↔
        0 ∉ packet.payload ∧ 0 ∉ packet.sender) := by
  obtain ⟨buffer, hbuffer, hinside, hdecoded⟩ := toBytes_sizesInside hfits
  obtain ⟨hsafe, houtcome⟩ := fromBytes_of_sizesInside freeStore hinside
  rw [hdecoded] at houtcome
  refine ⟨buffer, hbuffer, hsafe, houtcome, ?_⟩
  rw [houtcome, Except.ok.injEq, truncated_eq_self_iff]
  rfl

/-- A message with a zero byte inside its payload and a sender behind it. -/
theorem fromBytes_toBytes_interior_nul :
    ∃ buffer,
      toBytes (new .send [104, 0, 105] [97, 98] 7) = some buffer ∧
      AllSafe Access.Safe
        (fromBytes ⟨fun _ => true, fun _ _ => rfl⟩ buffer) ∧
      (fromBytes ⟨fun _ => true, fun _ _ => rfl⟩ buffer).outcome =
        .ok (new .send [104] [97, 98] 7) ∧
      ((fromBytes ⟨fun _ => true, fun _ _ => rfl⟩ buffer).outcome =
          .ok (new .send [104, 0, 105] [97, 98] 7) ↔
        0 ∉ [(104 : Byte), 0, 105] ∧ 0 ∉ [(97 : Byte), 98]) :=
  fromBytes_toBytes ⟨fun _ => true, fun _ _ => rfl⟩
    (new .send [104, 0, 105] [97, 98] 7) (by decide)

/-! ## Decodable packets -/

/-- Some message decodes to the packet without a read outside it. -/
def Decodable (packet : Packet) : Prop :=
  ∃ (freeStore : FreeStore) (buffer : MessageBuffer),
    AllSafe Access.Safe (fromBytes freeStore buffer) ∧
      (fromBytes freeStore buffer).outcome = .ok packet

/-- A packet as `receivePacket` returns it. -/
abbrev Received := {packet : Packet // Decodable packet}

theorem fits_decoded {buffer : MessageBuffer} (hinside : SizesInside buffer) :
    Fits (decoded buffer) := by
  have hbound : payloadSize buffer + senderSize buffer ≤ 4096 - 25 := hinside
  have hpayload : (decoded buffer).payload.length ≤ payloadSize buffer :=
    (length_cString_le _).trans (List.length_take_le _ _)
  have hsender : (decoded buffer).sender.length ≤ senderSize buffer :=
    (length_cString_le _).trans (List.length_take_le _ _)
  change 25 + (decoded buffer).payload.length +
    (decoded buffer).sender.length ≤ 4096
  omega

theorem nulFree_decoded (buffer : MessageBuffer) : NulFree (decoded buffer) :=
  ⟨zero_notMem_cString _, zero_notMem_cString _⟩

/-- A decoder that is refused an allocation has no packet. -/
theorem not_refused_of_ok {freeStore : FreeStore} {buffer : MessageBuffer}
    {packet : Packet} (hok : (fromBytes freeStore buffer).outcome = .ok packet) :
    ¬ (PayloadRefused freeStore buffer ∨ SenderRefused freeStore buffer) := by
  rw [fromBytes_eq_header] at hok
  rintro (hpayload | ⟨hinside, hsender⟩)
  · simp only [decodeStrings, newChars_of_refused hpayload, record_error_bind]
      at hok
    cases hok
  · rw [decodeStrings_of_inside freeStore hinside] at hok
    simp only [decodeSender, newChars_of_refused hsender, record_error_bind]
      at hok
    cases hok

/-- What can be decoded are the packets that fit and contain no zero byte. -/
theorem decodable_iff (packet : Packet) :
    Decodable packet ↔ Fits packet ∧ NulFree packet := by
  constructor
  · rintro ⟨freeStore, buffer, hsafe, hok⟩
    have hinside : SizesInside buffer := by
      rcases (allSafe_fromBytes_iff freeStore buffer).1 hsafe with
        hinside | hrefused
      · exact hinside
      · exact absurd hrefused (not_refused_of_ok hok)
    have houtcome := (fromBytes_of_sizesInside freeStore hinside).2
    obtain rfl : decoded buffer = packet :=
      Except.ok.inj (houtcome.symm.trans hok)
    exact ⟨fits_decoded hinside, nulFree_decoded buffer⟩
  · rintro ⟨hfits, hnulFree⟩
    obtain ⟨buffer, _, hinside, hdecoded⟩ := toBytes_sizesInside hfits
    have hgranting : FreeStore := ⟨fun _ => true, fun _ _ => rfl⟩
    obtain ⟨hsafe, houtcome⟩ := fromBytes_of_sizesInside hgranting hinside
    rw [hdecoded, (truncated_eq_self_iff packet).2 hnulFree] at houtcome
    exact ⟨hgranting, buffer, hsafe, houtcome⟩

theorem fits_new_iff (cmd : CmdType) (payload sender : ByteString)
    (time : BitVec 64) :
    Fits (new cmd payload sender time) ↔
      payload.length + sender.length ≤ 4071 := by
  change 25 + payload.length + sender.length ≤ 4096 ↔ _
  omega

theorem fits_new_nil (cmd : CmdType) (time : BitVec 64) :
    Fits (new cmd [] [] time) := by
  rw [fits_new_iff]
  exact Nat.zero_le _

theorem Received.fits (received : Received) : Fits received.1 :=
  ((decodable_iff received.1).1 received.2).1

/-- The packet keeps the encoder inside its array. -/
def Encodes (packet : Packet) : Prop :=
  25 + packet.payload.length + packet.sender.length ≤ packetBufferLen ∧
    (toBytes packet).isSome

theorem encodes_iff (packet : Packet) : Encodes packet ↔ Fits packet := by
  rw [Encodes, toBytes_isSome_iff]
  exact and_self_iff

end TwitterLike.PacketCodec
