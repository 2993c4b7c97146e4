import TwitterLike.Core.Faulting
import TwitterLike.Server.ProfileAccessController

/-!
# The request handlers

The functions of `server/main.cpp` that act on a received packet, run from start
to end without another thread in between: the login of `fromClient`,
`processPacket`, and the body of `receiveAlive`.
-/

namespace TwitterLike.Handlers

open TwitterLike.ByteBuffer
open TwitterLike.PacketFormat
open TwitterLike.Profiles
open TwitterLike.ProfilesManager
open TwitterLike.ProfileAccessController
open TwitterLike.Faulting

/-- The globals of `server/main.cpp` that the handlers use. -/
structure Server where
  controller : Controller
  listBackups : List Conn
  electionServerList : List ByteString

/-- The globals when `main` has constructed them. -/
def Server.new : Server where
  controller := Controller.new
  listBackups := []
  electionServerList := []

@[simp]
abbrev Server.store (server : Server) : Store := server.controller.store

/-- A change of the store outside the controller's lock. -/
@[simps]
def Server.onStore (server : Server) (change : Store → Store) : Server :=
  { server with
    controller := { server.controller with store := change server.store } }

abbrev Handler := Computation Server Exit

/-- A call of the controller. -/
def call {α : Type}
    (operation : Controller → Except Exit α × Controller) : Handler α :=
  fun server =>
    let result := operation server.controller
    (result.1, { server with controller := result.2 })

/-- The use of a pointer that may be null. -/
def dereference {α : Type} : Option α → Handler α
  | none => fail .nullDeref
  | some pointer => pure pointer

/-- `conn->sendPacket(packet)`. -/
def sendPacket (conn : Conn) (packet : Packet) : Handler Unit :=
  modify fun server => server.onStore fun store => store.sendPacket conn packet

/-! ## Backups -/

/-- `serverListToString`: every address and a newline. -/
def serverListToString (electionServerList : List ByteString) : ByteString :=
  electionServerList.flatMap fun address => address ++ [10]

/-- The `getline` loop of the `BACKUP_PROPAGATION` branch. -/
def getLines : ByteString → List ByteString
  | [] => []
  | byte :: rest =>
      if byte = 10 then [] :: getLines rest
      else match getLines rest with
        | [] => [[byte]]
        | line :: lines => (byte :: line) :: lines

/-- `sendToBackups`. -/
def sendToBackups (packet : Packet) : Handler Unit :=
  modify fun server => server.onStore fun store =>
    server.listBackups.foldl (fun store backup => store.sendPacket backup packet)
      store

/-- The `SET_BACKUP` branch of `receiveProfileCmd`. -/
def registerBackup (conn : Conn) (address : ByteString) (time : BitVec 64) :
    Handler Unit := do
  modify fun server =>
    { server with listBackups := server.listBackups ++ [conn] }
  modify fun server =>
    { server with electionServerList := server.electionServerList ++ [address] }
  let text ← read fun server => serverListToString server.electionServerList
  sendToBackups (new .backupPropagation text [] time)

/-! ## Clients -/

/-- `receiveProfileCmd`, once the packet has been received. -/
def receiveProfileCmd (conn : Conn) (message : Message) (time : BitVec 64) :
    Handler (Option ProfileRef) := do
  match message.packet.cmd with
  | .setBackup =>
      registerBackup conn message.packet.payload time
      return none
  | .profile =>
      let profile ← call fun controller =>
        controller.createProfileIfNotExists message.packet.payload (some conn)
          time
      sendToBackups message.packet
      return some profile
  | _ =>
      let found ← call fun controller =>
        controller.getProfileById message.packet.sender
      let profile ← dereference found
      modify fun server => server.onStore fun store =>
        store.updateSessionsOn profile (some conn)
      return some profile

/-- `processPacket`.  The result is `clientWantsToQuit`. -/
def processPacket (conn : Option Conn) (profile : Option ProfileRef)
    (message : Message) (time : BitVec 64) : Handler Bool := do
  match message.packet.cmd with
  | .profile =>
      let _ ← call fun controller =>
        controller.createProfileIfNotExists message.packet.payload conn time
      sendToBackups message.packet
      return false
  | .follow =>
      call fun controller =>
        controller.addFollowerTo message.packet.payload profile
      sendToBackups message.packet
      return false
  | .closeConn =>
      let profile ← dereference profile
      modify fun server => server.onStore fun store =>
        store.decSessionsOn profile conn
      sendToBackups message.packet
      return true
  | .send =>
      call fun controller => controller.sendToFollowersOf profile message
      sendToBackups message.packet
      return false
  | .backupPropagation =>
      modify fun server =>
        { server with electionServerList := getLines message.packet.payload }
      return false
  | _ => return false

/-- The text of the greeting, `"Hello client! "`. -/
def helloText : ByteString :=
  [72, 101, 108, 108, 111, 32, 99, 108, 105, 101, 110, 116, 33, 32]

/-- `fromClient` up to its loop. -/
def login (conn : Conn) (message : Message) (time : BitVec 64) :
    Handler (Option ProfileRef) := do
  let profile ← receiveProfileCmd conn message time
  match profile with
  | none => return none
  | some profile =>
      let profileId ← read fun server =>
        (server.store.objects profile).profileId
      sendPacket conn (new .send (helloText ++ profileId) [] time)
      (fun server =>
        let result := server.store.fetchInboxContent profile
        (result.1, server.onStore fun _ => result.2) : Handler Unit)
      return some profile

/-- One turn of the loop of `fromClient`, and the `close` after its last one.
The result tells whether the loop goes on. -/
def serve (conn : Conn) (profile : ProfileRef) (message : Message)
    (time : BitVec 64) : Handler Bool := do
  let clientWantsToQuit ← processPacket (some conn) (some profile) message time
  let isClosed ← read fun server => decide (conn ∈ server.store.closed)
  if clientWantsToQuit ∨ isClosed then
    modify fun server => server.onStore fun store => store.closeConn conn
    return false
  else return true

/-- The body of the loop of `receiveAlive`, once the packet has been
received. -/
def receiveAlive (message : Message) (time : BitVec 64) : Handler Unit := do
  let profile ← call fun controller =>
    controller.getProfileById message.packet.sender
  let _ ← processPacket none profile message time

end TwitterLike.Handlers
