import TwitterLike.Core.Transition
import TwitterLike.Router.Register

/-!
# Servers and their roles

`main` and `receiveAlive` of `server/main.cpp` as far as they decide which server
is the primary: any number of servers that register with the router, act on its
answer, crash, and take over when the connection to their primary ends.  Every
server runs on the machine of the router, to which it connects at `127.0.0.1`.
-/

namespace TwitterLike.Roles

open TwitterLike.ByteBuffer
open TwitterLike.PacketFormat
open TwitterLike.Register

/-! ## Addresses -/

/-- `argv[1]` and `argv[2]`.  `inet_addr` takes no address with a colon. -/
structure Arguments where
  host : ByteString
  port : ByteString
  host_noColon : 58 ∉ host

/-- `currentServerAddr`. -/
def Arguments.address (arguments : Arguments) : ByteString :=
  arguments.host ++ 58 :: arguments.port

/-- `payload.substr(0, payload.find(':'))`, which is the whole text when there is
no colon. -/
def hostOf (payload : ByteString) : ByteString := payload.takeWhile (· ≠ 58)

/-- `payload.substr(payload.find(':') + 1)`, which is the whole text when there
is no colon. -/
def portOf (payload : ByteString) : ByteString :=
  match payload.dropWhile (· ≠ 58) with
  | [] => payload
  | _ :: port => port

def isSpace (byte : Byte) : Bool := byte = 32 ∨ 9 ≤ byte ∧ byte ≤ 13

def isDigit (byte : Byte) : Bool := 48 ≤ byte ∧ byte ≤ 57

/-- `stoi`, without a result where it throws. -/
def stoi (text : ByteString) : Option ℤ :=
  let trimmed := text.dropWhile isSpace
  let signed := trimmed.head? = some 45 ∨ trimmed.head? = some 43
  let digits :=
    (if signed then trimmed.tail else trimmed).takeWhile isDigit
  let magnitude : ℤ :=
    digits.foldl (fun value digit => 10 * value + (digit.toNat - 48)) 0
  let value := if trimmed.head? = some 45 then -magnitude else magnitude
  if digits ≠ [] ∧ -2 ^ 31 ≤ value ∧ value < 2 ^ 31 then some value else none

/-- The `uint16_t` that `Server` and `Connection` are constructed with. -/
def portNumber (port : ByteString) : Option ℕ :=
  (stoi port).map fun value => (value % 2 ^ 16).toNat

/-- The port that `bind` binds for this one: for 0 any that is free. -/
def boundPort (port free : ℕ) : ℕ := if port = 0 then free else port

theorem Arguments.ne_colon (arguments : Arguments) :
    ∀ byte ∈ arguments.host, decide (byte ≠ 58) = true := by
  intro byte hbyte
  rw [decide_eq_true_eq]
  rintro rfl
  exact arguments.host_noColon hbyte

theorem hostOf_address (arguments : Arguments) :
    hostOf arguments.address = arguments.host := by
  rw [hostOf, Arguments.address, List.takeWhile_append_of_pos arguments.ne_colon]
  exact List.append_nil _

theorem portOf_address (arguments : Arguments) :
    portOf arguments.address = arguments.port := by
  rw [portOf, Arguments.address, List.dropWhile_append_of_pos arguments.ne_colon]
  rfl

/-- Servers with one address have one port. -/
theorem port_eq_of_address_eq {left right : Arguments}
    (haddress : left.address = right.address) : left.port = right.port := by
  rw [← portOf_address left, haddress, portOf_address]

/-! ## States -/

/-- How far `main` has come. -/
inductive Phase (Id : Type) where
  /-- not started -/
  | idle
  /-- waits for the answer to `SET_PRIMARY_IF_NOT_EXISTS` -/
  | registering
  /-- backup, before the connection to the primary -/
  | attaching (primaryAddress : ByteString)
  /-- in `receiveAlive`, on a connection to this server -/
  | following (primary : Id)
  /-- in the handler of `receiveAlive`, waits for the answer to `SET_PRIMARY` -/
  | promoting
  /-- behind the backup phase, before `new Server` -/
  | leading
  /-- in the accept loop -/
  | primary
  /-- crashed, or ended by `exit` or an exception -/
  | down
  deriving DecidableEq

structure Cluster (Id : Type) where
  arguments : Id → Arguments
  router : Router
  /-- what a server has sent to the router and no thread of it has received -/
  requests : Id → Option Packet
  /-- the packets on their way from the router on the server's connection -/
  replies : Id → List Packet
  phases : Id → Phase Id
  /-- the listening sockets of the machine, by port -/
  listeners : ℕ → Option Id

variable {Id : Type} [DecidableEq Id]

def Cluster.start (arguments : Id → Arguments) : Cluster Id where
  arguments := arguments
  router := Router.initial
  requests := fun _ => none
  replies := fun _ => []
  phases := fun _ => .idle
  listeners := fun _ => none

namespace Cluster

variable (cluster : Cluster Id) (server : Id)

/-- `currentServerAddr` of the server. -/
def address : ByteString := (cluster.arguments server).address

@[simps]
def goto (phase : Phase Id) : Cluster Id :=
  { cluster with phases := Function.update cluster.phases server phase }

/-- A new connection to the router and one packet on it. -/
@[simps]
def request (packet : Packet) : Cluster Id :=
  { cluster with
    requests := Function.update cluster.requests server (some packet)
    replies := Function.update cluster.replies server [] }

/-- The connection to the router is closed. -/
@[simps]
def hangUp : Cluster Id :=
  { cluster with replies := Function.update cluster.replies server [] }

/-- The process ends, and the machine closes its listening socket. -/
@[simps]
def exit : Cluster Id :=
  { cluster with
    replies := Function.update cluster.replies server []
    phases := Function.update cluster.phases server .down
    listeners := fun port =>
      if cluster.listeners port = some server then none
      else cluster.listeners port }

/-! ## Steps -/

/-- The server gets the role of the primary by this answer to its
registration. -/
def takesRole (reply : Packet) : Bool :=
  ¬ (reply.cmd = .setPrimary ∧ reply.payload ≠ cluster.address server)

/-- A thread of the router receives what the server has sent. -/
def route (packet : Packet) (time : BitVec 64) : Cluster Id :=
  let result := cluster.router.fromClient packet time
  { cluster with
    router := result.1
    requests := Function.update cluster.requests server none
    replies := Function.update cluster.replies server
      (cluster.replies server ++ result.2.1) }

/-- `switch (routerResponse->getCmd())` of `main`. -/
def takeAnswer (reply : Packet) : Cluster Id :=
  (cluster.hangUp server).goto server
    (if cluster.takesRole server reply then .leading
      else .attaching reply.payload)

/-- The `Connection` of a backup to its primary. -/
def connect (primaryAddress : ByteString) : Cluster Id :=
  match (portNumber (portOf primaryAddress)).bind cluster.listeners with
  | some primary => cluster.goto server (.following primary)
  | none => cluster.exit server

/-- `new Server(stoi(port))`, on a machine that has `free` for the port 0. -/
def listen (free : ℕ) : Cluster Id :=
  match portNumber (cluster.arguments server).port with
  | none => cluster.exit server
  | some port =>
      if boundPort port free ≠ 0 ∧
          cluster.listeners (boundPort port free) = none then
        { cluster with
          phases := Function.update cluster.phases server .primary
          listeners := Function.update cluster.listeners (boundPort port free)
            (some server) }
      else cluster.exit server

end Cluster

inductive Action where
  | proceed
  /-- the router receives what the server has sent -/
  | route
  | crash
  deriving DecidableEq

structure Label (Id : Type) where
  server : Id
  time : BitVec 64
  action : Action
  /-- the port that the machine has for a process that binds the port 0 -/
  free : ℕ

/-- The server takes its next step. -/
def stepServer (cluster : Cluster Id) (server : Id) (time : BitVec 64)
    (free : ℕ) : Phase Id → Option (Cluster Id)
  | .idle =>
      some ((cluster.request server (new .setPrimaryIfNotExists
        (cluster.address server) [] time)).goto server .registering)
  | .registering => (cluster.replies server).head?.map (cluster.takeAnswer server)
  | .attaching primaryAddress => some (cluster.connect server primaryAddress)
  | .following primary =>
      -- the receive of `receiveAlive` throws when the other side has ended
      if cluster.phases primary = .down then
        some ((cluster.request server (new .setPrimary
          (cluster.address server) [] time)).goto server .promoting)
      else none
  | .promoting =>
      (cluster.replies server).head?.map fun _ =>
        (cluster.hangUp server).goto server .leading
  | .leading => some (cluster.listen server free)
  | .primary => none
  | .down => none

def step (cluster : Cluster Id) (label : Label Id) : Option (Cluster Id) :=
  match label.action with
  | .proceed =>
      stepServer cluster label.server label.time label.free
        (cluster.phases label.server)
  | .route => (cluster.requests label.server).map fun packet =>
      cluster.route label.server packet label.time
  | .crash =>
      if cluster.phases label.server = .idle then none
      else some (cluster.exit label.server)

end TwitterLike.Roles
