import TwitterLike.Server.PacketBounds
import TwitterLike.Server.Replication

/-!
# The life of a server process

`main` of `server/main.cpp` with the threads it starts: the registration with
the router, the loop of `receiveAlive` in a backup, and the accept loop.  The
packets that `main` and `receiveAlive` pass to `sendPacket` are logged; those of
the handlers are in the log of the store.
-/

namespace TwitterLike.Lifecycle

open TwitterLike.ByteBuffer
open TwitterLike.PacketFormat
open TwitterLike.PacketCodec
open TwitterLike.Profiles
open TwitterLike.Handlers
open TwitterLike.Faulting
open TwitterLike.Transition
open TwitterLike.Replication
open TwitterLike.PacketBounds
open TwitterLike.Threads

/-! ## Steps -/

/-- How far the process has come. -/
inductive Stage where
  /-- before the registration -/
  | starting
  /-- waits for the router's answer -/
  | registering
  /-- a backup, before the connection to the primary -/
  | attaching
  /-- in the loop of `receiveAlive` -/
  | following (server : Server)
  /-- in the handler of `receiveAlive` -/
  | handling (server : Server)
  /-- waits for the router's answer in that handler -/
  | promoting (server : Server)
  /-- in the accept loop -/
  | serving (system : System)
  | ended

structure Process where
  /-- `argv[1]` and `argv[2]` -/
  addr : ByteString
  port : ByteString
  stage : Stage
  /-- the packets passed to `sendPacket` outside the handlers -/
  sent : List Packet

def Process.start (addr port : ByteString) : Process where
  addr := addr
  port := port
  stage := .starting
  sent := []

namespace Process

variable (process : Process)

/-- `currentServerAddr`. -/
def currentServerAddr : ByteString := process.addr ++ 58 :: process.port

@[simps]
def sendPacket (packet : Packet) : Process :=
  { process with sent := process.sent ++ [packet] }

@[simps]
def goto (stage : Stage) : Process := { process with stage := stage }

/-- The role of a backup is taken only by this answer to the registration. -/
def backup (routerResponse : Packet) : Bool :=
  routerResponse.cmd = .setPrimary ∧
    routerResponse.payload ≠ process.currentServerAddr

/-- `switch (routerResponse->getCmd())` of `main`, and `CLOSE_CONN` behind it. -/
def takeAnswer (routerResponse : Packet) (time : BitVec 64) : Process :=
  (process.sendPacket (new .closeConn [] [] time)).goto
    (if process.backup routerResponse then .attaching
      else .serving (System.serving Server.new))

/-- One turn of the loop of `receiveAlive`.  An exception leads to its
handler. -/
def receiveAlive (server : Server) (relayed : Relayed) : Option Process :=
  match (Handlers.receiveAlive relayed.message relayed.time).run server with
  | (.ok _, server) => some (process.goto (.following server))
  | (.error .exception, server) => some (process.goto (.handling server))
  | (.error .blocked, _) => none
  | (.error _, _) => some (process.goto .ended)

end Process

/-- A step of a handler thread that receives, if anything, a decodable
packet. -/
abbrev ReceivingLabel :=
  {label : Label // ∀ packet, label.action = .receive packet → Decodable packet}

inductive Event where
  /-- `SET_PRIMARY_IF_NOT_EXISTS` is sent -/
  | register (time : BitVec 64)
  /-- an answer of the router is received -/
  | answered (routerResponse : Received) (time : BitVec 64)
  /-- a backup connects to its primary -/
  | attach (time : BitVec 64)
  /-- a backup receives a packet from its primary -/
  | relayed (relayed : {relayed : Relayed // Decodable relayed.message.packet})
  /-- the connection to the primary has ended -/
  | lost
  /-- `SET_PRIMARY` is sent -/
  | promote (time : BitVec 64)
  /-- a handler thread takes a step -/
  | thread (label : ReceivingLabel)

def stepStage (process : Process) : Stage → Event → Option Process
  | .starting, .register time =>
      some ((process.sendPacket (new .setPrimaryIfNotExists
        process.currentServerAddr [] time)).goto .registering)
  | .registering, .answered routerResponse time =>
      some (process.takeAnswer routerResponse.1 time)
  | .attaching, .attach time =>
      some ((process.sendPacket (new .setBackup
        process.currentServerAddr [] time)).goto (.following Server.new))
  | .following server, .relayed relayed => process.receiveAlive server relayed.1
  | .following server, .lost => some (process.goto (.handling server))
  | .handling server, .promote time =>
      some ((process.sendPacket (new .setPrimary
        process.currentServerAddr [] time)).goto (.promoting server))
  | .promoting server, .answered _ time =>
      some ((process.sendPacket (new .closeConn [] [] time)).goto
        (.serving (System.serving server)))
  | .serving system, .thread label =>
      (Threads.step system label.1).map fun next => process.goto (.serving next)
  | _, _ => none

def step (process : Process) (event : Event) : Option Process :=
  stepStage process process.stage event

/-! ## What is passed to `sendPacket` -/

/-- The packets passed to `sendPacket` by the handlers. -/
def HandlersPass (packet : Packet) : Stage → Prop
  | .following server | .handling server | .promoting server =>
      packet ∈ passedPackets server.store
  | .serving system => ThreadsPass system packet
  | _ => False

/-- The process has passed the packet to `sendPacket`, or a thread of it is
about to. -/
def Process.Passes (process : Process) (packet : Packet) : Prop :=
  packet ∈ process.sent ∨ HandlersPass packet process.stage

/-- The packet that the event makes of data nobody has checked has room for
them. -/
def HasRoom (process : Process) : Event → Prop
  | .register _ | .attach _ | .promote _ =>
      process.currentServerAddr.length ≤ 4071
  | .thread label =>
      match process.stage with
      | .serving system =>
          PacketBounds.HasRoom system (system.threads label.1.conn)
      | _ => True
  | _ => True

/-! ## Bounds -/

/-- What the handlers hold fits. -/
def StageFits : Stage → Prop
  | .following server | .handling server | .promoting server =>
      ServerFits server
  | .serving system => SystemFits system
  | _ => True

structure ProcessFits (process : Process) : Prop where
  sent : ∀ packet ∈ process.sent, Fits packet
  stage : StageFits process.stage

section Bounds

variable {process next : Process}

theorem processFits_start (addr port : ByteString) :
    ProcessFits (Process.start addr port) where
  sent packet hpacket := by cases hpacket
  stage := trivial

theorem ProcessFits.passes (hfits : ProcessFits process) {packet : Packet}
    (hpasses : process.Passes packet) : Fits packet := by
  rcases hpasses with hsent | hhandlers
  · exact hfits.sent packet hsent
  · have hstage := hfits.stage
    cases hpoint : process.stage with
    | following server =>
        rw [hpoint] at hhandlers hstage
        exact hstage.passed packet hhandlers
    | handling server =>
        rw [hpoint] at hhandlers hstage
        exact hstage.passed packet hhandlers
    | promoting server =>
        rw [hpoint] at hhandlers hstage
        exact hstage.passed packet hhandlers
    | serving system =>
        rw [hpoint] at hhandlers hstage
        exact hstage.passes hhandlers
    | _ =>
        rw [hpoint] at hhandlers
        exact hhandlers.elim

theorem ProcessFits.sendPacket (hfits : ProcessFits process) {packet : Packet}
    (hpacket : Fits packet) : ProcessFits (process.sendPacket packet) where
  sent other hother := by
    rcases List.mem_append.1 hother with hbefore | hnew
    · exact hfits.sent other hbefore
    · rwa [List.mem_singleton.1 hnew]
  stage := hfits.stage

theorem ProcessFits.goto (hfits : ProcessFits process) {stage : Stage}
    (hstage : StageFits stage) : ProcessFits (process.goto stage) where
  sent := hfits.sent
  stage := hstage

theorem systemFits_new : SystemFits (System.serving Server.new) :=
  systemFits_serving storeFits_empty

theorem ProcessFits.receiveAlive (hfits : ProcessFits process)
    {server : Server} (hserver : ServerFits server) {relayed : Relayed}
    (hrelayed : Fits relayed.message.packet)
    (hreceive : process.receiveAlive server relayed = some next) :
    ProcessFits next := by
  have hafter := preserves_receiveAlive relayed.time hrelayed server hserver
  unfold Process.receiveAlive at hreceive
  split at hreceive
  · next hrun =>
      rw [hrun] at hafter
      cases hreceive
      exact hfits.goto hafter
  · next hrun =>
      rw [hrun] at hafter
      cases hreceive
      exact hfits.goto hafter
  · cases hreceive
  · cases hreceive
    exact hfits.goto trivial

/-- The ways in which a step goes: the process sends a packet and goes on,
goes on without one, or lets a handler thread take a step. -/
theorem ProcessFits.step (hfits : ProcessFits process) {event : Event}
    (hroom : HasRoom process event)
    (hstep : Lifecycle.step process event = some next) : ProcessFits next := by
  have hstage := hfits.stage
  unfold Lifecycle.step stepStage at hstep
  split at hstep
  case h_1 time hpoint =>
    cases hstep
    exact (hfits.sendPacket ((fits_new_iff _ _ [] time).2 hroom)).goto trivial
  case h_2 routerResponse time hpoint =>
    cases hstep
    apply (hfits.sendPacket (fits_new_nil .closeConn time)).goto
    split
    · trivial
    · exact systemFits_new
  case h_3 time hpoint =>
    cases hstep
    exact (hfits.sendPacket ((fits_new_iff _ _ [] time).2 hroom)).goto
      storeFits_empty
  case h_4 server relayed hpoint =>
    rw [hpoint] at hstage
    exact hfits.receiveAlive hstage (Received.fits ⟨_, relayed.2⟩) hstep
  case h_5 server hpoint =>
    rw [hpoint] at hstage
    cases hstep
    exact hfits.goto hstage
  case h_6 server time hpoint =>
    rw [hpoint] at hstage
    cases hstep
    exact (hfits.sendPacket ((fits_new_iff _ _ [] time).2 hroom)).goto hstage
  case h_7 server routerResponse time hpoint =>
    rw [hpoint] at hstage
    cases hstep
    exact (hfits.sendPacket (fits_new_nil .closeConn time)).goto
      (systemFits_serving hstage)
  case h_8 system label hpoint =>
    rw [hpoint] at hstage
    obtain ⟨after, hthread, rfl⟩ := Option.map_eq_some_iff.1 hstep
    simp only [HasRoom, hpoint] at hroom
    apply hfits.goto
    apply hstage.step _ hroom hthread
    intro packet haction
    exact Received.fits ⟨packet, label.2 packet haction⟩
  case h_9 => cases hstep

/-- A packet with the address of the process, which is too long. -/
theorem passes_address {cmd : CmdType} {time : BitVec 64} {stage : Stage}
    (hroom : ¬ process.currentServerAddr.length ≤ 4071) :
    ∃ packet, ((process.sendPacket
      (new cmd process.currentServerAddr [] time)).goto stage).Passes packet ∧
        ¬ Fits packet := by
  refine ⟨new cmd process.currentServerAddr [] time, .inl ?_, ?_⟩
  · exact List.mem_append_right _ List.mem_cons_self
  · rwa [fits_new_iff]

/-- A step without room passes a packet that does not fit. -/
theorem ProcessFits.overflow (hfits : ProcessFits process) {event : Event}
    (hroom : ¬ HasRoom process event)
    (hstep : Lifecycle.step process event = some next) :
    ∃ packet, next.Passes packet ∧ ¬ Fits packet := by
  have hstage := hfits.stage
  unfold Lifecycle.step stepStage at hstep
  split at hstep
  case h_1 time hpoint =>
    cases hstep
    exact passes_address hroom
  case h_3 time hpoint =>
    cases hstep
    exact passes_address hroom
  case h_6 server time hpoint =>
    cases hstep
    exact passes_address hroom
  case h_8 system label hpoint =>
    rw [hpoint] at hstage
    obtain ⟨after, hthread, rfl⟩ := Option.map_eq_some_iff.1 hstep
    simp only [HasRoom, hpoint] at hroom
    obtain ⟨packet, hpasses, hover⟩ := hstage.overflow hroom hthread
    exact ⟨packet, .inr hpasses, hover⟩
  case h_9 => cases hstep
  all_goals exact absurd trivial hroom

/-- In a run of a server process every packet passed to `sendPacket` fits
exactly when each step has room for what it sends. -/
theorem process_fits_iff (addr port : ByteString) (events : List Event) :
    Throughout step (fun process => ∀ packet, process.Passes packet → Fits packet)
        (Process.start addr port) events ↔
      Along step HasRoom (Process.start addr port) events := by
  apply throughout_iff_along _ _ _ (processFits_start addr port)
  · exact fun process hfits packet hpasses => hfits.passes hpasses
  · exact fun process event next hfits hroom hstep => hfits.step hroom hstep
  · intro process event next hfits hroom hstep hpass
    obtain ⟨packet, hpasses, hover⟩ := hfits.overflow hroom hstep
    exact hover (hpass packet hpasses)

end Bounds

end TwitterLike.Lifecycle
