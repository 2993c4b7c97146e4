import TwitterLike.Commons.PacketCodec
import TwitterLike.Core.Transition

/-!
# The router's register

`router/main.cpp`: the address of the primary, what the thread of a connection
does with one packet, and the packets that the router sends in a whole run.
-/

namespace TwitterLike.Register

open TwitterLike.ByteBuffer
open TwitterLike.PacketFormat
open TwitterLike.PacketCodec
open TwitterLike.Transition

/-- The globals of `router/main.cpp`. -/
structure Router where
  primaryServer : ByteString
  hasPrimary : Bool

/-- The globals before the first connection. -/
def Router.initial : Router where
  primaryServer := []
  hasPrimary := false

namespace Router

/-- `setPrimary`. -/
def setPrimary (router : Router) (packet : Packet) : Router :=
  { router with primaryServer := packet.payload }

/-- One turn of the loop of `fromClient`: the globals, the packets sent back and
`clientWantsToQuit`. -/
def fromClient (router : Router) (packet : Packet) (time : BitVec 64) :
    Router × List Packet × Bool :=
  match packet.cmd with
  | .setPrimaryIfNotExists =>
      if router.hasPrimary then
        (router, [new .setPrimary router.primaryServer [] time], false)
      else
        let registered := router.setPrimary packet
        ({ registered with hasPrimary := true },
          [new .ok registered.primaryServer [] time], false)
  | .setPrimary =>
      let registered := router.setPrimary packet
      (registered, [new .ok registered.primaryServer [] time], false)
  | .getPrimary =>
      (router, [new .setPrimary router.primaryServer [] time], false)
  | .closeConn => (router, [], true)
  | _ => (router, [], false)

end Router

/-! ## Runs -/

/-- The router and the packets it has passed to `sendPacket`. -/
structure Service where
  router : Router
  sent : List Packet

def Service.start : Service where
  router := Router.initial
  sent := []

/-- A packet that a thread of the router receives. -/
structure Request where
  packet : Received
  time : BitVec 64

def Service.step (service : Service) (request : Request) : Option Service :=
  let result := service.router.fromClient request.packet.1 request.time
  some
    { router := result.1
      sent := service.sent ++ result.2.1 }

/-! ## Bounds -/

/-- What the router has sent fits, and so does what it would answer. -/
structure ServiceFits (service : Service) : Prop where
  sent : ∀ packet ∈ service.sent, Fits packet
  primaryServer : service.router.primaryServer.length ≤ 4071

theorem serviceFits_start : ServiceFits Service.start where
  sent packet hpacket := by cases hpacket
  primaryServer := Nat.zero_le _

/-- An answer is as long as the address it carries, which was received. -/
theorem fromClient_bounds {router : Router} (packet : Received)
    (time : BitVec 64) (hprimary : router.primaryServer.length ≤ 4071) :
    (∀ answer ∈ (router.fromClient packet.1 time).2.1, Fits answer) ∧
      (router.fromClient packet.1 time).1.primaryServer.length ≤ 4071 := by
  have hfits := packet.fits
  have hpayload : packet.1.payload.length ≤ 4071 := by
    change 25 + packet.1.payload.length + packet.1.sender.length ≤ 4096 at hfits
    omega
  have hset : (router.setPrimary packet.1).primaryServer.length ≤ 4071 :=
    hpayload
  have hanswer : ∀ (cmd : CmdType) (address : ByteString),
      address.length ≤ 4071 → Fits (new cmd address [] time) :=
    fun cmd address haddress => (fits_new_iff cmd address [] time).2 haddress
  unfold Router.fromClient
  split
  · split
    · exact ⟨by simpa using hanswer _ _ hprimary, hprimary⟩
    · exact ⟨by simpa using hanswer _ _ hset, hset⟩
  · exact ⟨by simpa using hanswer _ _ hset, hset⟩
  · exact ⟨by simpa using hanswer _ _ hprimary, hprimary⟩
  · exact ⟨by simp, hprimary⟩
  · exact ⟨by simp, hprimary⟩

theorem ServiceFits.step {service next : Service} {request : Request}
    (hfits : ServiceFits service)
    (hstep : service.step request = some next) : ServiceFits next := by
  obtain ⟨hanswers, hprimary⟩ :=
    fromClient_bounds request.packet request.time hfits.primaryServer
  cases hstep
  refine ⟨fun packet hpacket => ?_, hprimary⟩
  rcases List.mem_append.1 hpacket with hbefore | hanswer
  · exact hfits.sent packet hbefore
  · exact hanswers packet hanswer

/-- Every packet that the router passes to `sendPacket` fits. -/
theorem router_fits (requests : List Request) :
    Throughout Service.step (fun service => ∀ packet ∈ service.sent, Fits packet)
      Service.start requests := by
  apply throughout_of_step _ _ serviceFits_start
  · exact fun service hfits => hfits.sent
  · exact fun service request next hfits hstep => hfits.step hstep

end TwitterLike.Register
