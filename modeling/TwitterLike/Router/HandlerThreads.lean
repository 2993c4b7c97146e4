import TwitterLike.Router.Register

/-!
# The handler threads of the router

All `fromClient` threads of `router/main.cpp` together.  Locking `m`, testing
`hasPrimary`, assigning `primaryServer`, replying, raising the flag and unlocking
are steps of their own, and so is the read of `primaryServer` for `GET_PRIMARY`,
for which nobody locks `m`.  An assignment and a copy of `primaryServer` are one
step each, also where nobody locks `m`: no thread sees half of an address.
-/

namespace TwitterLike.HandlerThreads

open TwitterLike.ByteBuffer
open TwitterLike.PacketFormat
open TwitterLike.PacketCodec
open TwitterLike.Register
open TwitterLike.Transition

/-! ## States -/

inductive Point where
  /-- in `receivePacket` -/
  | receiving
  /-- before `pthread_mutex_lock` -/
  | locking (packet : Packet)
  /-- before the test of `hasPrimary` -/
  | testing (packet : Packet)
  /-- in the first branch, before `setPrimary` -/
  | assigning (packet : Packet)
  /-- behind `setPrimary`, before the reply -/
  | confirming (packet : Packet)
  /-- behind the reply, before `hasPrimary = true` -/
  | flagging
  /-- in the `else` branch, before the reply -/
  | refusing (packet : Packet)
  /-- before `pthread_mutex_unlock` -/
  | unlocking
  /-- in the `SET_PRIMARY` branch, before `setPrimary` -/
  | promoting (packet : Packet)
  /-- in the `SET_PRIMARY` branch, before the reply -/
  | promoted (packet : Packet)
  /-- in the `GET_PRIMARY` branch, before `primaryServer` is read -/
  | reading (packet : Packet)
  /-- before the reply with the address that was read when `assignments`
  registrations had been assigned -/
  | answering (packet : Packet) (address : ByteString) (assignments : ℕ)
  /-- behind the loop -/
  | ended
  deriving DecidableEq

/-- A packet sent back.  As a ghost, it keeps how many registrations had been
assigned when its address was read. -/
structure Reply (Thread : Type) where
  thread : Thread
  request : Packet
  answer : Packet
  assignments : ℕ
  deriving DecidableEq

structure System (Thread : Type) where
  router : Router
  /-- the thread that has locked `m` -/
  holder : Option Thread
  threads : Thread → Point
  replies : List (Reply Thread)
  /-- the registrations whose address has been assigned, as a ghost -/
  assignments : List (Thread × Packet)

variable {Thread : Type}

def System.start : System Thread where
  router := Router.initial
  holder := none
  threads := fun _ => .receiving
  replies := []
  assignments := []

/-! ## Steps -/

section Steps

variable [DecidableEq Thread] (system : System Thread)

namespace System

@[simps]
def goto (thread : Thread) (point : Point) : System Thread :=
  { system with threads := Function.update system.threads thread point }

@[simps]
def setRouter (router : Router) : System Thread :=
  { system with router := router }

@[simps]
def setHolder (holder : Option Thread) : System Thread :=
  { system with holder := holder }

/-- `setPrimary` in the branch of a registration. -/
@[simps]
def assign (thread : Thread) (packet : Packet) : System Thread :=
  { system with
    router := system.router.setPrimary packet
    assignments := system.assignments ++ [(thread, packet)] }

/-- `conn->sendPacket(new Packet(cmd, address))`. -/
@[simps]
def reply (thread : Thread) (request : Packet) (cmd : CmdType)
    (address : ByteString) (time : BitVec 64) (assignments : ℕ) : System Thread :=
  { system with
    replies := system.replies ++
      [⟨thread, request, new cmd address [] time, assignments⟩] }

end System

/-- Where the `switch` leads. -/
def dispatch (packet : Packet) : Point :=
  match packet.cmd with
  | .setPrimaryIfNotExists => .locking packet
  | .setPrimary => .promoting packet
  | .getPrimary => .reading packet
  | .closeConn => .ended
  | _ => .receiving

inductive Action where
  | receive (packet : Packet)
  | proceed
  deriving DecidableEq

structure Label (Thread : Type) where
  thread : Thread
  time : BitVec 64
  action : Action

/-- A step of the thread that receives no packet. -/
def proceed (thread : Thread) (time : BitVec 64) : Point → Option (System Thread)
  | .locking packet =>
      if system.holder = none then
        some ((system.setHolder (some thread)).goto thread (.testing packet))
      else none
  | .testing packet =>
      if system.router.hasPrimary then
        some (system.goto thread (.refusing packet))
      else some (system.goto thread (.assigning packet))
  | .assigning packet =>
      some ((system.assign thread packet).goto thread (.confirming packet))
  | .confirming packet =>
      some ((system.reply thread packet .ok system.router.primaryServer time
        system.assignments.length).goto thread .flagging)
  | .flagging =>
      some ((system.setRouter { system.router with hasPrimary := true }).goto
        thread .unlocking)
  | .refusing packet =>
      some ((system.reply thread packet .setPrimary system.router.primaryServer
        time system.assignments.length).goto thread .unlocking)
  | .unlocking => some ((system.setHolder none).goto thread .receiving)
  | .promoting packet =>
      some ((system.setRouter (system.router.setPrimary packet)).goto thread
        (.promoted packet))
  | .promoted packet =>
      some ((system.reply thread packet .ok system.router.primaryServer time
        system.assignments.length).goto thread .receiving)
  | .reading packet =>
      some (system.goto thread (.answering packet system.router.primaryServer
        system.assignments.length))
  | .answering packet address assignments =>
      some ((system.reply thread packet .setPrimary address time
        assignments).goto thread .receiving)
  | .receiving | .ended => none

def step (label : Label Thread) : Option (System Thread) :=
  match label.action with
  | .receive packet =>
      match system.threads label.thread with
      | .receiving => some (system.goto label.thread (dispatch packet))
      | _ => none
  | .proceed =>
      proceed system label.thread label.time (system.threads label.thread)

end Steps

/-! ## A thread that runs alone -/

section Alone

variable [DecidableEq Thread] {system : System Thread} {thread : Thread}
  {packet : Packet} {time : BitVec 64}

/-- The thread receives the packet and takes `count` more steps. -/
def alone (thread : Thread) (packet : Packet) (time : BitVec 64) (count : ℕ) :
    List (Label Thread) :=
  ⟨thread, time, .receive packet⟩ :: List.replicate count ⟨thread, time, .proceed⟩

/-- What the thread can see of the router. -/
def System.view (system : System Thread) (thread : Thread) :
    Router × List Packet × Option Thread × Point :=
  (system.router, system.replies.map Reply.answer, system.holder,
    system.threads thread)

/-- A thread that nobody disturbs handles a packet as one turn of the loop
does, and unlocks `m`. -/
theorem exec_alone (hpoint : system.threads thread = .receiving)
    (hfree : system.holder = none) (packet : Packet) (time : BitVec 64) :
    ∃ count,
      (exec step system (alone thread packet time count)).map (·.view thread) =
        some ((system.router.fromClient packet time).1,
          system.replies.map Reply.answer ++
            (system.router.fromClient packet time).2.1, none,
          if (system.router.fromClient packet time).2.2 then .ended
          else .receiving) := by
  cases hcmd : packet.cmd with
  | setPrimaryIfNotExists =>
      cases hflag : system.router.hasPrimary with
      | true =>
          refine ⟨4, ?_⟩
          simp [alone, List.replicate, exec, step, hpoint, dispatch, hcmd,
            proceed, hfree, hflag, Router.fromClient, System.view]
      | false =>
          refine ⟨6, ?_⟩
          simp [alone, List.replicate, exec, step, hpoint, dispatch, hcmd,
            proceed, hfree, hflag, Router.fromClient, System.view,
            Router.setPrimary]
  | setPrimary =>
      refine ⟨2, ?_⟩
      simp [alone, List.replicate, exec, step, hpoint, dispatch, hcmd, proceed,
        hfree, Router.fromClient, System.view, Router.setPrimary]
  | getPrimary =>
      refine ⟨2, ?_⟩
      simp [alone, List.replicate, exec, step, hpoint, dispatch, hcmd, proceed,
        hfree, Router.fromClient, System.view]
  | _ =>
      refine ⟨0, ?_⟩
      simp [alone, exec, step, hpoint, dispatch, hcmd, hfree,
        Router.fromClient, System.view]

end Alone

end TwitterLike.HandlerThreads
