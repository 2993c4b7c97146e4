import TwitterLike.Server.LockHolders

/-!
# The server process

The handler threads with two things that their steps leave out.  A thread first
receives a packet and then asks for the lock, so it may wait with the packet in its
hands; and a `send` on a connection that the other side has reset raises `SIGPIPE`,
for which the process has no handler.
-/

namespace TwitterLike.Processes

open TwitterLike.PacketFormat
open TwitterLike.Profiles
open TwitterLike.ProfilesManager
open TwitterLike.Handlers
open TwitterLike.LockHolders
open TwitterLike.Threads
open TwitterLike.Transition

/-! ## Writes -/

/-- The connections that an output is written to. -/
def targets : Output → List Conn
  | .single conn _ => [conn]
  | .pass _ pass => pass.conns

/-- The connections that are written to between the two stores. -/
def written (before after : Store) : List Conn :=
  (after.outputs.drop before.outputs.length).flatMap targets

/-! ## Steps -/

structure Process where
  system : System
  /-- what a thread has received and not begun to work on -/
  held : Conn → Option Packet
  /-- a write to the connection raises `SIGPIPE` -/
  broken : Conn → Bool
  /-- `SIGPIPE` has ended the process -/
  killed : Bool

/-- A server that has just entered its accept loop. -/
def Process.serving (server : Server) : Process where
  system := .serving server
  held := fun _ => none
  broken := fun _ => false
  killed := false

/-- A server started as primary. -/
abbrev Process.start : Process := .serving Server.new

def Process.Alive (process : Process) : Prop :=
  process.system.down = none ∧ process.killed = false

instance (process : Process) : Decidable process.Alive :=
  inferInstanceAs (Decidable (_ ∧ _))

instance (system : System) (conn : Conn) : Decidable (Listens system conn) :=
  match hpoint : system.threads conn with
  | .accepted => isTrue (.inl hpoint)
  | .looping _ =>
      decidable_of_iff (conn ∉ system.store.closed) (by simp [Listens, hpoint])
  | .reconnecting _ | .joining _ | .propagating | .registering _ _ _
  | .sending _ _ _ | .forwarding _ _ _ | .greeting _ | .fetching _ | .closing
  | .ended => isFalse (by simp [Listens, hpoint])

/-- The thread has taken a step. -/
def Process.commit (process : Process) (conn : Conn) (next : System) : Process :=
  { process with
    system := next
    held := Function.update process.held conn none
    killed := (written process.system.store next.store).any process.broken }

inductive Label where
  /-- the receive of the thread returns -/
  | receive (conn : Conn) (packet : Packet)
  /-- the thread begins to work on what it has received, with the lock if the
  packet needs it -/
  | work (conn : Conn) (time : BitVec 64)
  | proceed (conn : Conn) (time : BitVec 64)
  /-- the other side resets the connection -/
  | breaks (conn : Conn)
  deriving DecidableEq

def stepAlive (process : Process) : Label → Option Process
  | .receive conn packet =>
      if process.held conn = none ∧ Listens process.system conn then
        some { process with
          held := Function.update process.held conn (some packet) }
      else none
  | .work conn time =>
      (process.held conn).bind fun packet =>
        (Threads.step process.system ⟨conn, time, .receive packet⟩).map
          (process.commit conn)
  | .proceed conn time =>
      if process.held conn = none then
        (Threads.step process.system ⟨conn, time, .proceed⟩).map
          (process.commit conn)
      else none
  | .breaks conn =>
      some { process with broken := Function.update process.broken conn true }

def step (process : Process) (label : Label) : Option Process :=
  if process.Alive then stepAlive process label else none

/-! ## What a step can do -/

inductive Moves (process : Process) : Label → Process → Prop where
  | received {conn : Conn} {packet : Packet} (hfree : process.held conn = none)
      (hlistens : Listens process.system conn) :
      Moves process (.receive conn packet)
        { process with held := Function.update process.held conn (some packet) }
  | worked {conn : Conn} {time : BitVec 64} {packet : Packet} {next : System}
      (hheld : process.held conn = some packet)
      (hstep : Threads.step process.system ⟨conn, time, .receive packet⟩ =
        some next) :
      Moves process (.work conn time) (process.commit conn next)
  | proceeded {conn : Conn} {time : BitVec 64} {next : System}
      (hfree : process.held conn = none)
      (hstep : Threads.step process.system ⟨conn, time, .proceed⟩ = some next) :
      Moves process (.proceed conn time) (process.commit conn next)
  | broke {conn : Conn} :
      Moves process (.breaks conn)
        { process with broken := Function.update process.broken conn true }

section Steps

variable {process next later : Process} {label : Label} {labels : List Label}

theorem moves_of_step (hstep : step process label = some next) :
    process.Alive ∧ Moves process label next := by
  rw [step] at hstep
  split at hstep
  case isFalse => cases hstep
  case isTrue halive =>
    refine ⟨halive, ?_⟩
    cases label with
    | receive conn packet =>
        rw [stepAlive] at hstep
        split at hstep
        · next hfree =>
            cases hstep
            exact .received hfree.1 hfree.2
        · cases hstep
    | work conn time =>
        obtain ⟨packet, hheld, hstep⟩ := Option.bind_eq_some_iff.1 hstep
        obtain ⟨system, hmove, rfl⟩ := Option.map_eq_some_iff.1 hstep
        exact .worked hheld hmove
    | proceed conn time =>
        rw [stepAlive] at hstep
        split at hstep
        · next hfree =>
            obtain ⟨system, hmove, rfl⟩ := Option.map_eq_some_iff.1 hstep
            exact .proceeded hfree hmove
        · cases hstep
    | breaks conn =>
        cases hstep
        exact .broke

/-- What every step of a thread keeps, every run of the process keeps. -/
theorem invariant_of_exec {Invariant : System → Prop}
    (hkeeps : ∀ system label next, Invariant system →
      Threads.step system label = some next → Invariant next)
    (hstart : Invariant process.system)
    (hrun : exec step process labels = some later) : Invariant later.system := by
  refine @exec_invariant _ _ step _ (fun process => Invariant process.system) ?_
    _ _ _ hstart (along_true process labels) hrun
  intro before label after hbefore _ hstep
  cases (moves_of_step hstep).2 with
  | received => exact hbefore
  | worked _ hmove => exact hkeeps _ _ _ hbefore hmove
  | proceeded _ hmove => exact hkeeps _ _ _ hbefore hmove
  | broke => exact hbefore

end Steps

end TwitterLike.Processes
