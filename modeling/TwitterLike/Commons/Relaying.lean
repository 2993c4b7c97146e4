import TwitterLike.Commons.PacketCodec

/-!
# Relayed packets

A server decodes what it receives and encodes the packet again for every backup
and follower.  What comes out of the decoder has its strings cut at their first
zero byte, so the next buffer is laid out differently from the received one; the
packet in it is the same at every hop.
-/

namespace TwitterLike.Relaying

open TwitterLike.ByteBuffer
open TwitterLike.Traced
open TwitterLike.PacketFormat
open TwitterLike.PacketCodec

/-- `receivePacket` and a `sendPacket` of the same packet, where both succeed. -/
def relay (freeStore : FreeStore) (buffer : MessageBuffer) :
    Option MessageBuffer :=
  match (fromBytes freeStore buffer).outcome with
  | .ok packet => toBytes packet
  | .error _ => none

/-- The message behind one process after the other. -/
def relayThrough : List FreeStore → MessageBuffer → Option MessageBuffer
  | [], buffer => some buffer
  | freeStore :: freeStores, buffer =>
      (relay freeStore buffer).bind (relayThrough freeStores)

/-- Decoding the message reads only inside it and gives the packet. -/
def Carries (buffer : MessageBuffer) (packet : Packet) : Prop :=
  ∀ freeStore, AllSafe Access.Safe (fromBytes freeStore buffer) ∧
    (fromBytes freeStore buffer).outcome = .ok packet

theorem carries_decoded {buffer : MessageBuffer} (hinside : SizesInside buffer) :
    Carries buffer (decoded buffer) :=
  fun freeStore => fromBytes_of_sizesInside freeStore hinside

/-- A packet without zero bytes that fits is carried by its encoding. -/
theorem exists_carries {packet : Packet} (hfits : Fits packet)
    (hnulFree : NulFree packet) :
    ∃ encoded, toBytes packet = some encoded ∧ Carries encoded packet := by
  obtain ⟨encoded, hencoded, hinside, hdecoded⟩ := toBytes_sizesInside hfits
  rw [(truncated_eq_self_iff packet).2 hnulFree] at hdecoded
  exact ⟨encoded, hencoded, hdecoded ▸ carries_decoded hinside⟩

/-- A relayed message carries the packet that was received. -/
theorem exists_relayThrough {packet : Packet} (hfits : Fits packet)
    (hnulFree : NulFree packet) (freeStores : List FreeStore)
    {buffer : MessageBuffer} (hcarries : Carries buffer packet) :
    ∃ relayed, relayThrough freeStores buffer = some relayed ∧
      Carries relayed packet := by
  induction freeStores generalizing buffer with
  | nil => exact ⟨buffer, rfl, hcarries⟩
  | cons freeStore freeStores ih =>
      obtain ⟨encoded, hencoded, hnext⟩ := exists_carries hfits hnulFree
      obtain ⟨relayed, hrelayed, hlast⟩ := ih hnext
      refine ⟨relayed, ?_, hlast⟩
      rw [relayThrough, relay, (hcarries freeStore).2]
      exact (congrArg (Option.bind · _) hencoded).trans hrelayed

/-- A message whose declared sizes stay inside is decoded to a packet that can be
encoded again; decoding that encoding, and any number of further hops through
whatever processes, gives the same packet. -/
theorem relay_preserves (buffer : MessageBuffer)
    (hinside : payloadSize buffer + senderSize buffer ≤ 4071) :
    ∃ packet, Carries buffer packet ∧ Encodes packet ∧
      (∃ encoded, toBytes packet = some encoded ∧ Carries encoded packet) ∧
      ∀ freeStores, ∃ relayed, relayThrough freeStores buffer = some relayed ∧
        Carries relayed packet := by
  have hfits := fits_decoded hinside
  have hnulFree := nulFree_decoded buffer
  exact ⟨decoded buffer, carries_decoded hinside,
    (encodes_iff _).2 hfits, exists_carries hfits hnulFree,
    fun freeStores => exists_relayThrough hfits hnulFree freeStores
      (carries_decoded hinside)⟩

/-- A message of an unlisted command, with a zero byte inside its payload and
bytes behind its last field. -/
def untidyMessage : MessageBuffer :=
  ⟨[200] ++ List.replicate 8 7 ++ encodeLE 8 3 ++ [104, 0, 105] ++ encodeLE 8 1 ++
    [97] ++ List.replicate 4067 255, by
    simp only [List.length_append, List.length_replicate, length_encodeLE,
      List.length_cons, List.length_nil]
    rfl⟩

theorem relay_preserves_untidyMessage :
    payloadSize untidyMessage + senderSize untidyMessage ≤ 4071 ∧
      ∃ packet, Carries untidyMessage packet ∧ packet.payload = [104] ∧
        ∀ freeStores, ∃ relayed,
          relayThrough freeStores untidyMessage = some relayed ∧
            Carries relayed packet := by
  have hinside : payloadSize untidyMessage + senderSize untidyMessage ≤ 4071 := by
    decide
  obtain ⟨packet, hcarries, _, _, hrelayed⟩ :=
    relay_preserves untidyMessage hinside
  have hdecoded : packet = decoded untidyMessage :=
    Except.ok.inj ((hcarries ⟨fun _ => true, fun _ _ => rfl⟩).2.symm.trans
      (carries_decoded hinside ⟨fun _ => true, fun _ _ => rfl⟩).2)
  refine ⟨hinside, packet, hcarries, ?_, hrelayed⟩
  rw [hdecoded]
  decide

end TwitterLike.Relaying
