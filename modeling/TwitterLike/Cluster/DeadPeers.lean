import TwitterLike.Router.Register
import TwitterLike.Server.BackupLoop
import TwitterLike.Server.ClientLoop

/-!
# Dead peers

A loop ends with its peer only if the receive throws, and only the receive of a
backup does, at the end of the stream.  Everywhere else it is up to the packets
that the peer has sent whether the loop ends.
-/

namespace TwitterLike.DeadPeers

open TwitterLike.PacketFormat
open TwitterLike.Connections
open TwitterLike.Profiles
open TwitterLike.ProfilesManager
open TwitterLike.Handlers
open TwitterLike.Transition
open TwitterLike.Register
open TwitterLike.Commands
open TwitterLike.Replication
open TwitterLike.BackupSimulation (Primary)
open TwitterLike.RequestRuns
open TwitterLike.ServingRuns
open TwitterLike.Arrivals
open TwitterLike.Consumer
open TwitterLike.ClientLoop (SignedOff DepartsOn)
open TwitterLike.BackupLoop (Follower Dereferences Throws)

/-! ## The router -/

/-- The globals when other threads have handled their packets. -/
def settle (router : Router) (requests : List Register.Request) : Router :=
  requests.foldl
    (fun router request => (router.fromClient request.packet.1 request.time).1)
    router

/-- One turn of `fromClient` of `router/main.cpp`.  An exception of the receive
ends the thread. -/
def fromClient (freeStore : FreeStore) (router : Router)
    (arrival : Arrival Register.Request) : Turn Router Router :=
  match ClientConnection.receivePacket freeStore arrival.incoming.result with
  | .error (.decode .outOfBounds) => .stuck
  | .error _ => .ended router
  | .ok packet =>
      let result :=
        (settle router arrival.meanwhile).fromClient packet arrival.time
      if result.2.2 then .ended result.1 else .again result.1

theorem fromClient_eq (freeStore : FreeStore) (router : Router)
    (arrival : Arrival Register.Request) :
    fromClient freeStore router arrival =
      let result := (settle router arrival.meanwhile).fromClient
        arrival.incoming.received arrival.time
      if result.2.2 then .ended result.1 else .again result.1 := by
  rw [fromClient, clientConnection_receivePacket]

/-- Only `CLOSE_CONN` ends the loop of the router. -/
theorem clientWantsToQuit_iff (router : Router) (packet : Packet)
    (time : BitVec 64) :
    (router.fromClient packet time).2.2 = true ↔ packet.cmd = .closeConn := by
  unfold Router.fromClient
  split
  · split <;> simp_all
  · simp_all
  · simp_all
  · simp_all
  · simp_all

theorem endsWell_iff (router : Router) (arrival : Arrival Register.Request) :
    EndsWell (fun _ => True)
        (let result := (settle router arrival.meanwhile).fromClient
          arrival.incoming.received arrival.time
        if result.2.2 then .ended result.1
          else .again result.1 : Turn Router Router) ↔
      arrival.incoming.received.cmd = .closeConn := by
  rw [← clientWantsToQuit_iff (settle router arrival.meanwhile) _ arrival.time]
  dsimp only
  split
  · next hquits => exact iff_of_true ⟨_, rfl, trivial⟩ hquits
  · next hstays =>
      refine iff_of_false ?_ hstays
      rintro ⟨_, hended, _⟩
      cases hended

theorem fromClient_terminates_iff (freeStore : FreeStore) (death : Death)
    (router : Router) (sent : List (Sent Register.Request)) :
    Terminates (fromClient freeStore) (Died death) (fun _ => True) router
        (sent.map Sent.arrival) ↔
      ∃ packet ∈ sent, packet.sendable.packet.cmd = .closeConn := by
  have hkeeps : Keeps (fromClient freeStore) (fun _ => True) fun _ => True :=
    fun _ _ _ _ _ _ => trivial
  have hreaches : Terminates (fromClient freeStore) (Died death)
      (fun _ => True) router (sent.map Sent.arrival) ↔
        Reaches (fromClient freeStore)
          (fun _ arrival => arrival.incoming.received.cmd = .closeConn) router
          (sent.map Sent.arrival) := by
    apply hkeeps.terminates_iff_reaches _ (exists_died death)
    case hdead => exact fun _ _ => trivial
    case hspins =>
      intro _ arrival hdied hcloses
      rw [received_of_died hdied] at hcloses
      cases hcloses
    case hstart => trivial
    case haccepted => exact fun _ _ => trivial
    intro router arrival _ _
    rw [fromClient_eq]
    exact endsWell_iff router arrival
  rw [hreaches, reaches_iff_exists]
  · simp [Sent.arrival, Incoming.received]
  · intro router arrival hstays
    rw [fromClient_eq]
    dsimp only
    rw [if_neg fun hquits => hstays ((clientWantsToQuit_iff ..).1 hquits)]
    exact ⟨_, rfl⟩

/-! ## The three loops -/

/-- A server when `main` begins to accept connections, as a primary that has
followed nobody or as a promoted backup. -/
structure Accepting where
  server : Server
  received : List Relayed
  followed : exec relay Server.new received = some server

def Accepting.primary (accepting : Accepting) : Primary :=
  Primary.serving accepting.server accepting.received.length

/-- Whatever packets have arrived before, the dead peer ends each of the three
loops, and a client's connection is signed off. -/
def EndHandlers (freeStore : FreeStore) (death : Death) : Prop :=
  (∀ router (sent : List (Sent Register.Request)),
    Terminates (fromClient freeStore) (Died death) (fun _ => True) router
      (sent.map Sent.arrival)) ∧
  (∀ (accepting : Accepting) conn
      (sent : List (Sent BackupSimulation.Request)),
    Terminates (ClientLoop.fromClient freeStore conn) (Died death)
      (SignedOff conn) accepting.primary (sent.map Sent.arrival)) ∧
  ∀ sent : List (Sent Empty),
    Terminates (BackupLoop.receiveAlive freeStore) (Died death) (fun _ => True)
      Follower.start (sent.map Sent.arrival)

section Loops

variable (freeStore : FreeStore)

/-- The router's loop terminates exactly when it has received a `CLOSE_CONN`;
that of a server when a packet ends the thread and its only session; that of a
backup at the end of the stream unless a packet uses a null pointer, and after
an error only when a packet throws. -/
theorem loops_terminate_iff :
    (∀ death router (sent : List (Sent Register.Request)),
      Terminates (fromClient freeStore) (Died death) (fun _ => True) router
          (sent.map Sent.arrival) ↔
        ∃ packet ∈ sent, packet.sendable.packet.cmd = .closeConn) ∧
    (∀ death (accepting : Accepting) conn
        (sent : List (Sent BackupSimulation.Request)),
      Terminates (ClientLoop.fromClient freeStore conn) (Died death)
          (SignedOff conn) accepting.primary (sent.map Sent.arrival) ↔
        Reaches (ClientLoop.fromClient freeStore conn) (DepartsOn conn)
          accepting.primary (sent.map Sent.arrival)) ∧
    (∀ sent : List (Sent Empty),
      Terminates (BackupLoop.receiveAlive freeStore) (Died .endOfStream)
          (fun _ => True) Follower.start (sent.map Sent.arrival) ↔
        ¬ Reaches (BackupLoop.receiveAlive freeStore)
          (fun follower arrival =>
            Dereferences follower.backup arrival.incoming.received)
          Follower.start (sent.map Sent.arrival)) ∧
    ∀ sent : List (Sent Empty),
      Terminates (BackupLoop.receiveAlive freeStore) (Died .error)
          (fun _ => True) Follower.start (sent.map Sent.arrival) ↔
        Reaches (BackupLoop.receiveAlive freeStore)
          (fun follower arrival =>
            Throws follower.backup arrival.incoming.received)
          Follower.start (sent.map Sent.arrival) := by
  refine ⟨fromClient_terminates_iff freeStore, ?_,
    BackupLoop.receiveAlive_terminates_iff_of_endOfStream freeStore,
    BackupLoop.receiveAlive_terminates_iff_of_error freeStore⟩
  intro death accepting conn sent
  apply ClientLoop.fromClient_terminates_iff
  exact serving_of_exec_relay accepting.followed conn _

end Loops

/-- `main` of a primary. -/
def acceptingPrimary : Accepting where
  server := Server.new
  received := []
  followed := rfl

/-- A client that logs in. -/
def loginPacket : SendablePacket where
  packet := new .profile [97, 98] [] 0
  fits := by decide
  nulFree := by decide

/-- When the client dies behind its login, its thread does not end. -/
theorem login_keeps_handler :
    ¬ ∀ freeStore death, EndHandlers freeStore death := by
  intro hends
  let freeStore : FreeStore := ⟨fun _ => true, fun _ _ => rfl⟩
  have hserver := (hends freeStore .endOfStream).2.1 acceptingPrimary 1
    [⟨loginPacket, [], 0⟩]
  have hserving : Serving 1 acceptingPrimary.primary :=
    serving_of_exec_relay acceptingPrimary.followed 1 _
  rcases (ClientLoop.fromClient_terminates_iff freeStore hserving .endOfStream
    _).1 hserver with hdeparts | ⟨next, _, hrest⟩
  · rcases hdeparts with hcmd | ⟨_, _, ref, hfound, _⟩
    · cases hcmd
    · cases hfound
  · exact hrest

end TwitterLike.DeadPeers
