import TwitterLike.Cluster.EndToEnd
import TwitterLike.Server.Grounding

/-!
# A primary, its backup and their clients

The backup has followed the primary from the start.  When the connection to the
primary ends it announces itself to the router and then accepts clients; a client
that asks the router again hangs up, connects to the server that it is told of and
sends `OK`.  Packets already written to a connection may arrive although the server
that wrote them has crashed.
-/

namespace TwitterLike.Failover

open TwitterLike.ByteBuffer
open TwitterLike.PacketFormat
open TwitterLike.Profiles
open TwitterLike.ProfilesManager
open TwitterLike.Handlers (Server)
open TwitterLike.Channels
open TwitterLike.Arrivals (zeroPacket)
open TwitterLike.Terminal (ProfileName Client Event)
open TwitterLike.Threads (System)
open TwitterLike.Replication (writtenTo)
open TwitterLike.BackupConvergence (attachedSystem)
open TwitterLike.BackupLoop (Follower process)
open TwitterLike.Service (Entry Tidy toPrimary typedBy)

/-! ## States -/

/-- The two servers. -/
inductive Side where
  | primary
  | standby
  deriving DecidableEq

/-- A server in its accept loop, what is sent to it, and how much of what it has
written to them the clients have received. -/
structure Site where
  server : System
  requests : Conn → Channel Packet
  shown : Conn → ℕ

def Site.start (server : System) : Site where
  server := server
  requests := fun _ => .empty
  shown := fun _ => 0

/-- The process of the backup. -/
inductive Standby where
  /-- in the loop of `receiveAlive` -/
  | following (follower : Follower)
  /-- in the handler of its exceptions -/
  | leaving (backup : Server)
  /-- the router has set the primary, and `main` goes on -/
  | elected (backup : Server)
  | serving (site : Site)
  /-- has died, or waits for ever -/
  | stuck

/-- The store, which all that the process becomes goes on with. -/
def Standby.store : Standby → Option Store
  | .following follower => some follower.backup.store
  | .leaving backup => some backup.store
  | .elected backup => some backup.store
  | .serving site => some site.server.store
  | .stuck => none

def Standby.follower : Standby → Option Follower
  | .following follower => some follower
  | _ => none

theorem Standby.follower_eq_some {standby : Standby} {follower : Follower}
    (hfollower : standby.follower = some follower) : standby = .following follower := by
  cases standby with
  | following other =>
      cases hfollower
      rfl
  | leaving | elected | serving | stuck => cases hfollower

/-- Who takes part. -/
structure Setting where
  names : Conn → ProfileName
  address : Side → ByteString
  /-- the connection of the backup to the primary -/
  backupConn : Conn

structure Cluster where
  primary : Site
  /-- the process of the primary has been ended from outside -/
  crashed : Bool
  standby : Standby
  /-- what the router answers -/
  router : ByteString
  clients : Conn → Client
  /-- the servers that `con` of a client has been connected to, the last one first -/
  dialed : Conn → List Side
  /-- `updateConn` has connected and is about to send `OK` -/
  announcing : Conn → Bool
  /-- what `fromServer` of a client has received -/
  screen : Conn → List Packet
  typed : List Entry

/-- The backup has joined the primary, and the clients have connected to the
router. -/
def Cluster.start (setting : Setting) : Cluster where
  primary := .start (attachedSystem setting.backupConn (setting.address .standby))
  crashed := false
  standby := .following .start
  router := setting.address .primary
  clients := fun conn => .start (setting.names conn)
  dialed := fun _ => []
  announcing := fun _ => false
  screen := fun _ => []
  typed := []

namespace Cluster

variable (setting : Setting) (cluster : Cluster)

def site : Side → Option Site
  | .primary => some cluster.primary
  | .standby =>
      match cluster.standby with
      | .serving site => some site
      | _ => none

def setSite (site : Site) : Side → Cluster
  | .primary => { cluster with primary := site }
  | .standby => { cluster with standby := .serving site }

def store : Side → Option Store
  | .primary => some cluster.primary.server.store
  | .standby => cluster.standby.store

/-- The server of that side, if its process runs and is in the accept loop. -/
def running (side : Side) : Option Site :=
  if side = .primary ∧ cluster.crashed = true then none
  else (cluster.site side).filter fun site => site.server.down = none

def setClient (conn : Conn) (client : Client) : Cluster :=
  { cluster with clients := Function.update cluster.clients conn client }

/-- Packets on the connection that `con` of the client has. -/
def post (conn : Conn) (packets : List Packet) : Cluster :=
  match (cluster.dialed conn).head? with
  | none => cluster
  | some side =>
      match cluster.site side with
      | none => cluster
      | some site => cluster.setSite { site with
          requests := Function.update site.requests conn
            ((site.requests conn).post packets) } side

/-! ## Clients -/

/-- The router answers with the address it has, to one call of `updateConn` at a
time; connecting and receiving are steps of their own. -/
def Possible (conn : Conn) : Event → Prop
  | .located response _ =>
      response.1.payload = cluster.router ∧ cluster.announcing conn = false
  | .entered line _ => Tidy line
  | .connected _ => False
  | .closeConn => False
  | _ => True

instance (conn : Conn) (event : Event) : Decidable (cluster.Possible conn event) :=
  match event with
  | .located response _ => inferInstanceAs (Decidable
      (response.1.payload = cluster.router ∧ cluster.announcing conn = false))
  | .entered line _ => inferInstanceAs (Decidable (Tidy line))
  | .connected _ | .closeConn => inferInstanceAs (Decidable False)
  | .created | .presented _ | .endOfInput _ | .interrupted _ =>
      inferInstanceAs (Decidable True)

/-- A closed connection takes no packets. -/
def clientMove (conn : Conn) (event : Event) : Option Cluster :=
  if conn ≠ setting.backupConn ∧ cluster.Possible conn event then
    (Terminal.step (cluster.clients conn) event).map fun next =>
      let posted := if (cluster.clients conn).con = .connected then
        toPrimary (cluster.clients conn) next event else []
      { (cluster.post conn posted).setClient conn next with
        typed := cluster.typed ++ typedBy conn event }
  else none

/-- `updateConn` connects to the server that the router has named. -/
def dial (conn : Conn) (side : Side) : Option Cluster :=
  let client := cluster.clients conn
  match client.con with
  | .reconnecting sendOk =>
      if conn ≠ setting.backupConn ∧ client.ended = false ∧
          client.primary = setting.address side ∧ (cluster.running side).isSome then
        some { cluster.setClient conn { client with con := .connected } with
          dialed := Function.update cluster.dialed conn (side :: cluster.dialed conn)
          announcing := Function.update cluster.announcing conn sendOk }
      else none
  | _ => none

/-- `updateConn` sends `OK` with the name of the profile. -/
def announce (conn : Conn) (time : BitVec 64) : Option Cluster :=
  let client := cluster.clients conn
  let packet := new .ok [] client.profile.text time
  if client.ended = false ∧ cluster.announcing conn = true then
    some { (cluster.post conn [packet]).setClient conn (client.sendPacket packet) with
      announcing := Function.update cluster.announcing conn false }
  else none

/-- `fromServer` receives the next packet. -/
def display (conn : Conn) : Option Cluster :=
  let client := cluster.clients conn
  if client.ended = false ∧ client.toServerTh ≠ .notCreated ∧
      client.con = .connected then do
    let side ← (cluster.dialed conn).head?
    let site ← cluster.site side
    let packet ← (writtenTo conn site.server.store)[site.shown conn]?
    let received := { site with
      shown := Function.update site.shown conn (site.shown conn + 1) }
    let next := if packet.cmd = .closeConn then client.exit else client
    some { (cluster.setSite received side).setClient conn next with
      screen := Function.update cluster.screen conn (cluster.screen conn ++ [packet]) }
  else none

/-! ## Servers -/

def serverMove (side : Side) (site : Site) (requests : Conn → Channel Packet)
    (label : Threads.Label) : Option Cluster :=
  (Threads.step site.server label).map fun next =>
    cluster.setSite { site with server := next, requests := requests } side

/-- The thread of the connection receives the next packet. -/
def deliver (side : Side) (conn : Conn) (time : BitVec 64) : Option Cluster := do
  let site ← cluster.running side
  let (packet, channel) ← (site.requests conn).receive
  cluster.serverMove side site (Function.update site.requests conn channel)
    ⟨conn, time, .receive packet⟩

/-- The thread of the connection receives nothing from a client that has ended or
hung up. -/
def vanish (side : Side) (conn : Conn) (time : BitVec 64) : Option Cluster := do
  let site ← cluster.running side
  if side ∈ cluster.dialed conn ∧ (site.requests conn).pending = [] ∧
      ((cluster.clients conn).ended = true ∨
        (cluster.clients conn).con ≠ .connected ∨
        (cluster.dialed conn).head? ≠ some side) then
    cluster.serverMove side site site.requests
      ⟨conn, time, .receive zeroPacket.packet⟩
  else none

def proceed (side : Side) (conn : Conn) (time : BitVec 64) : Option Cluster := do
  let site ← cluster.running side
  cluster.serverMove side site site.requests ⟨conn, time, .proceed⟩

/-! ## The backup -/

/-- One turn of `receiveAlive` with the next packet that the primary has written. -/
def relay (time : BitVec 64) : Option Cluster :=
  match cluster.standby with
  | .following follower =>
      (writtenTo setting.backupConn
        cluster.primary.server.store)[follower.received]?.map fun packet =>
          match process follower packet time with
          | .again later => { cluster with standby := .following later }
          | .ended backup => { cluster with standby := .leaving backup }
          | .stuck => { cluster with standby := .stuck }
  | _ => none

/-- The receive of the backup comes to the end of the stream; what has not arrived
by then is lost. -/
def loseContact : Option Cluster :=
  match cluster.standby with
  | .following follower =>
      if cluster.crashed = true ∨ cluster.primary.server.down ≠ none then
        some { cluster with standby := .leaving follower.backup }
      else none
  | _ => none

/-- The router handles the `SET_PRIMARY` of the backup. -/
def takeOver : Option Cluster :=
  match cluster.standby with
  | .leaving backup =>
      some { cluster with
        standby := .elected backup
        router := setting.address .standby }
  | _ => none

/-- `new Server` in `main`. -/
def listen : Option Cluster :=
  match cluster.standby with
  | .elected backup =>
      some { cluster with standby := .serving (.start (.serving backup)) }
  | _ => none

end Cluster

/-! ## Steps -/

inductive Move where
  | client (conn : Conn) (event : Event)
  | dial (conn : Conn) (side : Side)
  | announce (conn : Conn) (time : BitVec 64)
  | display (conn : Conn)
  | deliver (side : Side) (conn : Conn) (time : BitVec 64)
  | vanish (side : Side) (conn : Conn) (time : BitVec 64)
  | proceed (side : Side) (conn : Conn) (time : BitVec 64)
  | relay (time : BitVec 64)
  | crash
  | loseContact
  | takeOver
  | listen

def step (setting : Setting) (cluster : Cluster) : Move → Option Cluster
  | .client conn event => cluster.clientMove setting conn event
  | .dial conn side => cluster.dial setting conn side
  | .announce conn time => cluster.announce conn time
  | .display conn => cluster.display conn
  | .deliver side conn time => cluster.deliver side conn time
  | .vanish side conn time => cluster.vanish side conn time
  | .proceed side conn time => cluster.proceed side conn time
  | .relay time => cluster.relay setting time
  | .crash => some { cluster with crashed := true }
  | .loseContact => cluster.loseContact
  | .takeOver => cluster.takeOver setting
  | .listen => cluster.listen

end TwitterLike.Failover
