import TwitterLike.Core.Transition
import TwitterLike.Server.Handlers

/-!
# The handler threads

All `fromClient` threads of `server/main.cpp` together, one for every
connection.  A thread is at a program point between two critical sections or
system calls; one step takes one thread past one of them, and any thread may be
the next.  The write lock is held over `incSessionsOn` and over the loop of
`sendToFollowersOf`, so there the thread stops while it holds it.  A null
dereference or an exception that leaves a thread ends the process.  A receive and
the request of the lock behind it are one step here, and a write does not fail:
the server process has the two steps apart, and broken connections.
-/

namespace TwitterLike.Threads

open TwitterLike.ByteBuffer
open TwitterLike.PacketFormat
open TwitterLike.Profiles
open TwitterLike.ProfilesManager
open TwitterLike.ProfileAccessController
open TwitterLike.Handlers

/-! ## Program points -/

/-- Where a thread goes when `sendToBackups` returns. -/
inductive Next where
  | greet (profile : ProfileRef)
  | loop (profile : ProfileRef)
  | quit
  | leave
  deriving DecidableEq

inductive Point where
  /-- waits for the first packet in `receiveProfileCmd` -/
  | accepted
  /-- behind `getProfileById`, before `updateSessionsOn` -/
  | reconnecting (profile : ProfileRef)
  /-- behind `listBackups->push_back` -/
  | joining (address : ByteString)
  /-- behind `electionServerList->push_back` -/
  | propagating
  /-- holds the lock in `createProfileIfNotExists`, before `incSessionsOn` -/
  | registering (profile : ProfileRef) (packet : Packet) (next : Next)
  /-- holds the lock in `sendToFollowersOf`, before the turn `index` -/
  | sending (profile : ProfileRef) (message : Message) (index : ℕ)
  /-- in `sendToBackups`, before the turn `index` -/
  | forwarding (packet : Packet) (index : ℕ) (next : Next)
  /-- behind `receiveProfileCmd`, before the greeting -/
  | greeting (profile : ProfileRef)
  /-- before `fetchInboxContent` -/
  | fetching (profile : ProfileRef)
  /-- at the test of the loop -/
  | looping (profile : ProfileRef)
  /-- behind the loop -/
  | closing
  | ended
  deriving DecidableEq

def Next.point : Next → Point
  | .greet profile => .greeting profile
  | .loop profile => .looping profile
  | .quit => .closing
  | .leave => .ended

/-- One call of `sendToFollowersOf`, as a ghost: who called it for which packet,
and the followers vector at that moment. -/
structure SendRecord where
  conn : Conn
  profile : ProfileRef
  message : Message
  followers : List ProfileRef
  deriving DecidableEq

structure System where
  server : Server
  threads : Conn → Point
  /-- the number of packets received so far -/
  received : ℕ
  /-- the calls of `sendToFollowersOf` so far -/
  sends : List SendRecord
  /-- how the process has ended -/
  down : Option Exit

/-- A server that has just entered its accept loop. -/
def System.serving (server : Server) : System where
  server := server
  threads := fun _ => .accepted
  received := 0
  sends := []
  down := none

/-- A server started as primary. -/
def System.start : System := .serving Server.new

namespace System

variable (system : System)

@[simp]
abbrev store : Store := system.server.controller.store

@[simp]
abbrev controller : Controller := system.server.controller

/-! ## Parts of a step -/

@[simps]
def goto (conn : Conn) (point : Point) : System :=
  { system with threads := Function.update system.threads conn point }

@[simps]
def onStore (change : Store → Store) : System :=
  { system with server := system.server.onStore change }

@[simps]
def setController (controller : Controller) : System :=
  { system with server := { system.server with controller := controller } }

@[simps]
def crash (exit : Exit) : System := { system with down := some exit }

@[simps]
def countPacket : System := { system with received := system.received + 1 }

/-! ## Logging in -/

/-- `createProfileIfNotExists` from the request for the lock on, up to
`incSessionsOn`. -/
def findProfile (conn : Conn) (packet : Packet) (next : ProfileRef → Next)
    (time : BitVec 64) : Option System :=
  if system.controller.writable then
    let locked := system.controller.requestWrite
    match locked.store.findOrCreate packet.payload (some conn) time with
    | (.ok profile, store) =>
        some ((system.setController { locked with store := store }).goto conn
          (.registering profile packet (next profile)))
    | (.error .threadExit, store) =>
        some ((system.setController { locked with store := store }).goto conn
          .ended)
    | (.error exit, store) =>
        some ((system.setController { locked with store := store }).crash exit)
  else none

/-- The rest of `createProfileIfNotExists`. -/
def registerSession (conn : Conn) (profile : ProfileRef) (packet : Packet)
    (next : Next) : System :=
  let registered := system.onStore fun store =>
    store.incSessionsOn profile (some conn)
  (registered.setController registered.controller.releaseWrite).goto conn
    (.forwarding packet 0 next)

/-- `getProfileById` for the sender of a first packet. -/
def findSender (conn : Conn) (packet : Packet) : Option System :=
  if system.controller.readable then
    match system.store.getProfileById packet.sender with
    | some profile => some (system.goto conn (.reconnecting profile))
    | none => some (system.crash .nullDeref)
  else none

/-- `receiveProfileCmd`, up to its first critical section. -/
def receiveProfileCmd (conn : Conn) (packet : Packet) (time : BitVec 64) :
    Option System :=
  match packet.cmd with
  | .profile => system.findProfile conn packet Next.greet time
  | .setBackup =>
      some (({ system with
        server := { system.server with
          listBackups := system.server.listBackups ++ [conn] } }).goto conn
        (.joining packet.payload))
  | _ => system.findSender conn packet

/-- `electionServerList->push_back(packet->getPayload())`. -/
def pushAddress (conn : Conn) (address : ByteString) : System :=
  ({ system with
    server := { system.server with
      electionServerList := system.server.electionServerList ++ [address] } }).goto
    conn .propagating

/-- `serverListToString` and the call of `sendToBackups`. -/
def propagate (conn : Conn) (time : BitVec 64) : System :=
  system.goto conn (.forwarding
    (new .backupPropagation
      (serverListToString system.server.electionServerList) [] time) 0 .leave)

/-! ## Forwarding -/

/-- One turn of `sendToBackups`. -/
def forward (conn : Conn) (packet : Packet) (index : ℕ) (next : Next) :
    System :=
  match system.server.listBackups[index]? with
  | some backup =>
      (system.onStore fun store => store.sendPacket backup packet).goto conn
        (.forwarding packet (index + 1) next)
  | none => system.goto conn next.point

/-! ## Serving a session -/

/-- `addFollowerTo` of the controller. -/
def follow (conn : Conn) (profile : ProfileRef) (packet : Packet) :
    Option System :=
  match system.controller.addFollowerTo packet.payload (some profile) with
  | (.ok _, controller) =>
      some ((system.setController controller).goto conn
        (.forwarding packet 0 (.loop profile)))
  | (.error .blocked, _) => none
  | (.error exit, controller) =>
      some ((system.setController controller).crash exit)

@[simps]
def recordSend (conn : Conn) (profile : ProfileRef) (message : Message) :
    System :=
  { system with
    sends := system.sends ++
      [{ conn := conn
         profile := profile
         message := message
         followers := (system.store.objects profile).followers }] }

/-- `sendToFollowersOf` of the controller, up to its loop. -/
def beginSend (conn : Conn) (profile : ProfileRef) (message : Message) :
    Option System :=
  if system.controller.writable then
    some (((system.recordSend conn profile message).setController
      system.controller.requestWrite).goto conn (.sending profile message 0))
  else none

/-- One turn of the loop of `sendToFollowersOf`, and the release of the lock
behind it. -/
def sendTurn (conn : Conn) (profile : ProfileRef) (message : Message)
    (index : ℕ) : System :=
  match (system.store.objects profile).followers[index]? with
  | some follower =>
      (system.onStore fun store => store.sendOrInsertInbox follower message).goto
        conn (.sending profile message (index + 1))
  | none =>
      (system.setController system.controller.releaseWrite).goto conn
        (.forwarding message.packet 0 (.loop profile))

/-- `processPacket`, up to the end of its first critical section. -/
def processPacket (conn : Conn) (profile : ProfileRef) (message : Message)
    (time : BitVec 64) : Option System :=
  match message.packet.cmd with
  | .profile =>
      system.findProfile conn message.packet (fun _ => .loop profile) time
  | .follow => system.follow conn profile message.packet
  | .closeConn =>
      some ((system.onStore fun store =>
        store.decSessionsOn profile (some conn)).goto conn
          (.forwarding message.packet 0 .quit))
  | .send => system.beginSend conn profile message
  | .backupPropagation =>
      some { system with
        server := { system.server with
          electionServerList := getLines message.packet.payload } }
  | _ => some system

/-- `fetchInboxContent`. -/
def fetch (conn : Conn) (profile : ProfileRef) : System :=
  let result := system.store.fetchInboxContent profile
  let fetched := system.onStore fun _ => result.2
  match result.1 with
  | .ok _ => fetched.goto conn (.looping profile)
  | .error exit => fetched.crash exit

end System

/-! ## Steps -/

inductive Action where
  /-- the blocking receive of the thread returns this packet -/
  | receive (packet : Packet)
  | proceed
  deriving DecidableEq

structure Label where
  conn : Conn
  time : BitVec 64
  action : Action
  deriving DecidableEq

/-- The thread of the connection takes its next step. -/
def stepThread (system : System) (conn : Conn) (time : BitVec 64) :
    Point → Action → Option System
  | .accepted, .receive packet =>
      system.countPacket.receiveProfileCmd conn packet time
  | .reconnecting profile, .proceed =>
      some ((system.onStore fun store =>
        store.updateSessionsOn profile (some conn)).goto conn
          (.greeting profile))
  | .joining address, .proceed => some (system.pushAddress conn address)
  | .propagating, .proceed => some (system.propagate conn time)
  | .registering profile packet next, .proceed =>
      some (system.registerSession conn profile packet next)
  | .sending profile message index, .proceed =>
      some (system.sendTurn conn profile message index)
  | .forwarding packet index next, .proceed =>
      some (system.forward conn packet index next)
  | .greeting profile, .proceed =>
      some ((system.onStore fun store =>
        store.sendPacket conn (new .send
          (helloText ++ (store.objects profile).profileId) [] time)).goto conn
            (.fetching profile))
  | .fetching profile, .proceed => some (system.fetch conn profile)
  | .looping profile, .receive packet =>
      if conn ∈ system.store.closed then none
      else system.countPacket.processPacket conn profile
        ⟨system.received, packet⟩ time
  | .looping _, .proceed =>
      if conn ∈ system.store.closed then some (system.goto conn .closing)
      else none
  | .closing, .proceed =>
      some ((system.onStore fun store => store.closeConn conn).goto conn .ended)
  | _, _ => none

def step (system : System) (label : Label) : Option System :=
  if system.down = none then
    stepThread system label.conn label.time (system.threads label.conn)
      label.action
  else none

end TwitterLike.Threads
