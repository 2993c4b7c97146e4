import TwitterLike.Core.Settling
import TwitterLike.Server.Processes
import TwitterLike.Server.SenderAgreement

/-!
# Progress of the server

A server that receives nothing more works off what it has received.  Whether every
packet then gets its turn depends on one thing: a login that is refused ends its
thread with the write lock in its hands, and whoever asks for the lock behind it
waits for ever.
-/

namespace TwitterLike.ServerProgress

open TwitterLike.PacketFormat
open TwitterLike.Profiles
open TwitterLike.ProfilesManager
open TwitterLike.FollowGraph
open TwitterLike.LockHolders
open TwitterLike.Processes
open TwitterLike.SessionAccounting
open TwitterLike.Settling
open TwitterLike.Threads (System Point Next Action Transition transition_of_step
  graphStep_of_transition threads_of_transition)
open TwitterLike.Transition

/-! ## Working off -/

/-- Nothing is received and no connection breaks. -/
def Finishes (_ : Process) : Label → Prop
  | .work _ _ | .proceed _ _ => True
  | .receive _ _ | .breaks _ => False

/-- The thread has received a packet and asks for a lock that is lost. -/
def Stuck (process : Process) (conn : Conn) : Prop :=
  Leaked process.system ∧ ∃ packet, process.held conn = some packet ∧
    NeedsLock (process.system.threads conn) packet

/-- The process has ended, or every thread waits for a packet, has ended, or is
stuck. -/
def Rests (process : Process) : Prop :=
  process.Alive → ∀ conn,
    (process.held conn = none ∧ Waits process.system conn) ∨ Stuck process conn

/-! ## What is left to do -/

/-- The steps that a thread has in front of it, with so many backups to forward
to and so many followers to send to. -/
def cost (backups : ℕ) (followers : ProfileRef → ℕ) : Point → ℕ
  | .accepted | .ended => 0
  | .closing => 1
  | .looping _ => 2
  | .fetching _ => 3
  | .greeting _ => 4
  | .reconnecting _ => 5
  | .forwarding _ index _ => (backups - index) + 5
  | .propagating | .registering _ _ _ => backups + 6
  | .joining _ => backups + 7
  | .sending profile _ index => (followers profile - index) + backups + 6

/-- The same with what the thread has received. -/
def costWith (backups : ℕ) (followers : ProfileRef → ℕ) :
    Point → Option Packet → ℕ
  | point, none => cost backups followers point
  | .looping profile, some _ => followers profile + backups + 8
  | _, some _ => backups + 8

/-- The packets received and not begun: each may add a backup or a follower. -/
def load (members : Finset Conn) (process : Process) : ℕ :=
  ∑ conn ∈ members, if (process.held conn).isSome then 1 else 0

def backupsAtMost (members : Finset Conn) (process : Process) : ℕ :=
  process.system.server.listBackups.length + load members process

def followersAtMost (members : Finset Conn) (process : Process)
    (ref : ProfileRef) : ℕ :=
  (process.system.store.objects ref).followers.length + load members process

def costAt (members : Finset Conn) (process : Process) (conn : Conn) : ℕ :=
  costWith (backupsAtMost members process) (followersAtMost members process)
    (process.system.threads conn) (process.held conn)

def effort (members : Finset Conn) (process : Process) : ℕ :=
  ∑ conn ∈ members, costAt members process conn

theorem cost_next (backups : ℕ) (followers : ProfileRef → ℕ) (next : Next) :
    cost backups followers next.point ≤ 4 := by
  cases next <;> simp [Next.point, cost]

section Costs

variable {backups fewer : ℕ} {followers less : ProfileRef → ℕ}

theorem cost_mono (hbackups : fewer ≤ backups)
    (hfollowers : ∀ ref, less ref ≤ followers ref) (point : Point) :
    cost fewer less point ≤ cost backups followers point := by
  cases point with
  | sending profile message index =>
      have hle := hfollowers profile
      simp only [cost]
      omega
  | _ =>
      simp only [cost]
      omega

theorem costWith_mono (hbackups : fewer ≤ backups)
    (hfollowers : ∀ ref, less ref ≤ followers ref) (point : Point)
    (held : Option Packet) :
    costWith fewer less point held ≤ costWith backups followers point held := by
  cases held with
  | none => exact cost_mono hbackups hfollowers point
  | some packet =>
      cases point with
      | looping profile =>
          have hle := hfollowers profile
          simp only [costWith]
          omega
      | _ => exact Nat.add_le_add_right hbackups 8

end Costs

section Steps

variable {system next : System} {conn : Conn} {time : BitVec 64}
  {backups fewer : ℕ} {followers less : ProfileRef → ℕ}

/-- What a step that receives nothing keeps. -/
structure Keeps (system next : System) : Prop where
  graph : SameGraph system.store next.store
  backups : next.server.listBackups = system.server.listBackups

theorem keeps_of_objects (hobjects : next.store.objects = system.store.objects)
    (hprofiles : next.store.profiles = system.store.profiles)
    (hallocated : next.store.allocated = system.store.allocated)
    (hbackups : next.server.listBackups = system.server.listBackups) :
    Keeps system next :=
  ⟨⟨hprofiles, hallocated, fun ref => by rw [hobjects], fun ref => by rw [hobjects]⟩,
    hbackups⟩

theorem keeps_of_transition
    (htransition : Transition system conn time .proceed next) :
    Keeps system next := by
  cases htransition with
  | reconnected => exact ⟨updateSessionsOn_sameGraph _ _ _, rfl⟩
  | registered => exact ⟨incSessionsOn_sameGraph _ _ _, rfl⟩
  | sent => exact ⟨sendOrInsertInbox_sameGraph _ _ _, rfl⟩
  | fetched => exact ⟨fetchInboxContent_sameGraph _ _, rfl⟩
  | fetchFailed => exact ⟨fetchInboxContent_sameGraph _ _, rfl⟩
  | _ => exact keeps_of_objects rfl rfl rfl rfl

/-- Without null sessions no thread dies of going on, and every step is one less
in front of its thread. -/
theorem cost_lt_of_transition
    (hlive : ∀ ref, none ∉ (system.store.objects ref).sessions)
    (hbackups : system.server.listBackups.length ≤ backups)
    (hfollowers : ∀ ref,
      (system.store.objects ref).followers.length ≤ followers ref)
    (htransition : Transition system conn time .proceed next) :
    next.down = system.down ∧
      cost backups followers (next.threads conn) <
        cost backups followers (system.threads conn) := by
  have hgoto {middle : System} {point : Point}
      (hdown : middle.down = system.down)
      (hless : cost backups followers point <
        cost backups followers (system.threads conn)) :
      (middle.goto conn point).down = system.down ∧
        cost backups followers ((middle.goto conn point).threads conn) <
          cost backups followers (system.threads conn) := by
    rw [System.goto_threads_self]
    exact ⟨hdown, hless⟩
  cases htransition with
  | forwarded hpoint hbackup =>
      apply hgoto rfl
      have hindex := (List.getElem?_eq_some_iff.1 hbackup).1
      rw [hpoint]
      simp only [cost]
      omega
  | forwardDone hpoint hlast =>
      apply hgoto rfl
      rw [hpoint]
      have hle := cost_next backups followers
      simp only [cost]
      exact (hle _).trans_lt (by omega)
  | @sent profile follower message index hpoint hfollower =>
      apply hgoto rfl
      have hindex := (List.getElem?_eq_some_iff.1 hfollower).1
      have hle := hfollowers profile
      rw [hpoint]
      simp only [cost]
      omega
  | @fetchFailed profile exit hpoint hfetch =>
      have hok := fetchInboxContent_of_noNull (hlive profile)
      have hresult : (system.store.fetchInboxContent profile).1 = .ok () := by
        rw [Store.fetchInboxContent, hok]
      cases hresult.symm.trans hfetch
  | reconnected hpoint | addressPushed hpoint | propagated hpoint
  | registered hpoint | greeted hpoint | fetched hpoint | sendDone hpoint
  | loopLeft hpoint | closed hpoint =>
      apply hgoto rfl
      rw [hpoint]
      simp [cost]

theorem not_accepted_of_proceed
    (htransition : Transition system conn time .proceed next) :
    system.threads conn ≠ .accepted := by
  intro haccepted
  cases htransition <;> simp_all

/-- A packet adds at most one backup, or one follower to a profile. -/
theorem growth_of_transition {action : Action}
    (htransition : Transition system conn time action next) :
    next.server.listBackups.length ≤ system.server.listBackups.length + 1 ∧
      ∀ ref, (next.store.objects ref).followers.length ≤
        (system.store.objects ref).followers.length + 1 := by
  constructor
  · cases htransition with
    | joined => simp
    | _ => exact Nat.le_succ _
  · intro ref
    cases graphStep_of_transition htransition with
    | same hsame =>
        rw [hsame.followers]
        exact Nat.le_succ _
    | created profileId _ _ hsame =>
        rw [hsame.objects, created_objects]
        split
        · exact Nat.zero_le _
        · exact Nat.le_succ _
    | pushed _ _ target follower _ _ _ _ _ hsame =>
        rw [hsame.objects, Store.pushFollower]
        by_cases href : ref = target
        · subst href
          rw [Store.update_objects_self]
          simp
        · rw [Store.update_objects_of_ne _ _ _ href]
          exact Nat.le_succ _

/-- The thread has fewer steps in front of it when it has begun to work on what it
has received. -/
theorem costWith_lt_of_receive {packet : Packet} (hbackups : fewer ≤ backups)
    (hfollowers : ∀ ref, less ref ≤ followers ref)
    (htransition : Transition system conn time (.receive packet) next) :
    cost fewer less (next.threads conn) <
      costWith backups followers (system.threads conn) (some packet) := by
  have hgoto {middle : System} {point : Point}
      (hless : cost fewer less point <
        costWith backups followers (system.threads conn) (some packet)) :
      cost fewer less ((middle.goto conn point).threads conn) <
        costWith backups followers (system.threads conn) (some packet) := by
    rw [System.goto_threads_self]
    exact hless
  cases htransition with
  | found henter | refused henter =>
      apply hgoto
      generalize system.threads conn = point at henter
      cases henter <;> simp only [cost, costWith] <;> omega
  | findFailed henter =>
      change cost fewer less (system.threads conn) < _
      generalize system.threads conn = point at henter
      cases henter <;> simp only [cost, costWith] <;> omega
  | @sendBegun _ profile hpoint =>
      apply hgoto
      have hle := hfollowers profile
      rw [hpoint]
      simp only [cost, costWith]
      omega
  | joined hpoint | senderFound hpoint | followed hpoint | left hpoint =>
      apply hgoto
      rw [hpoint]
      simp only [cost, costWith]
      omega
  | senderUnknown hpoint | followFailed hpoint | listReplaced hpoint
  | ignored hpoint =>
      change cost fewer less (system.threads conn) < _
      rw [hpoint]
      simp only [cost, costWith]
      omega

end Steps

section Process

variable {members : Finset Conn} {process next : Process} {conn : Conn}

/-- No session is null, only members have received anything, and who has received
a packet has been waiting for it. -/
structure Serves (members : Finset Conn) (process : Process) : Prop where
  live : ∀ ref, none ∉ (process.system.store.objects ref).sessions
  fresh : ∀ conn, conn ∉ members →
    process.system.threads conn = .accepted ∧ process.held conn = none
  listens : ∀ conn packet, process.held conn = some packet →
    Listens process.system conn

/-- A step of a thread that has nothing in its hands behind it. -/
theorem Serves.commit (hserves : Serves members process) {time : BitVec 64}
    {action : Action} {system : System} (hmember : conn ∈ members)
    (htransition : Transition process.system conn time action system) :
    Serves members (process.commit conn system) where
  live := SenderAgreement.live_of_transition htransition hserves.live
  fresh other habsent := by
    have hother : other ≠ conn := by
      rintro rfl
      exact habsent hmember
    obtain ⟨hpoint, hfree⟩ := hserves.fresh other habsent
    exact ⟨(threads_of_transition hother htransition).trans hpoint,
      (Function.update_of_ne hother ..).trans hfree⟩
  listens other packet hheld := by
    have hother : other ≠ conn := by
      rintro rfl
      cases (Function.update_self ..).symm.trans hheld
    exact listens_of_transition htransition hother
      (hserves.listens other packet
        ((Function.update_of_ne hother ..).symm.trans hheld))

theorem load_commit_le (system : System) :
    load members (process.commit conn system) ≤ load members process := by
  refine Finset.sum_le_sum fun other _ => ?_
  change (if (Function.update process.held conn none other).isSome then 1 else 0) ≤ _
  by_cases hother : other = conn
  · rw [hother, Function.update_self]
    exact Nat.zero_le _
  · rw [Function.update_of_ne hother]

theorem load_commit_lt {packet : Packet} (hmember : conn ∈ members)
    (hheld : process.held conn = some packet) (system : System) :
    load members (process.commit conn system) < load members process := by
  refine Finset.sum_lt_sum (fun other _ => ?_) ⟨conn, hmember, ?_⟩
  · change (if (Function.update process.held conn none other).isSome then 1
      else 0) ≤ _
    by_cases hother : other = conn
    · rw [hother, Function.update_self]
      exact Nat.zero_le _
    · rw [Function.update_of_ne hother]
  · change (if (Function.update process.held conn none conn).isSome then 1
      else 0) < _
    rw [Function.update_self, hheld]
    exact Nat.zero_lt_one

/-- A step pays for itself when no thread gets more to do by it. -/
theorem effort_commit_lt {time : BitVec 64} {action : Action} {system : System}
    (hmember : conn ∈ members)
    (htransition : Transition process.system conn time action system)
    (hbackups : backupsAtMost members (process.commit conn system) ≤
      backupsAtMost members process)
    (hfollowers : ∀ ref, followersAtMost members (process.commit conn system) ref ≤
      followersAtMost members process ref)
    (hpays : costAt members (process.commit conn system) conn <
      costAt members process conn) :
    effort members (process.commit conn system) < effort members process := by
  refine Finset.sum_lt_sum (fun other _ => ?_) ⟨conn, hmember, hpays⟩
  by_cases hother : other = conn
  · rw [hother]
    exact hpays.le
  · have hthreads := threads_of_transition hother htransition
    have hheld : (process.commit conn system).held other = process.held other :=
      Function.update_of_ne hother ..
    rw [costAt, hheld, show (process.commit conn system).system = system from rfl,
      hthreads]
    exact costWith_mono hbackups hfollowers _ _

theorem wanes (members : Finset Conn) :
    Wanes step Finishes (Serves members) (effort members) := by
  intro process label next hserves hfinishes hstep
  have hself (conn : Conn) (system : System) :
      (process.commit conn system).held conn = none := Function.update_self ..
  cases (moves_of_step hstep).2 with
  | received | broke => exact hfinishes.elim
  | @worked conn time packet system hheld hmove =>
      have htransition := (transition_of_step hmove).2
      dsimp only at htransition
      have hmember : conn ∈ members := by
        by_contra habsent
        cases hheld.symm.trans (hserves.fresh conn habsent).2
      obtain ⟨hbackups, hfollowers⟩ := growth_of_transition htransition
      have hload := load_commit_lt hmember hheld system
      have hfewer : backupsAtMost members (process.commit conn system) ≤
          backupsAtMost members process := by
        change system.server.listBackups.length + _ ≤ _
        rw [backupsAtMost]
        omega
      have hless (ref : ProfileRef) :
          followersAtMost members (process.commit conn system) ref ≤
            followersAtMost members process ref := by
        have hle := hfollowers ref
        change (system.store.objects ref).followers.length + _ ≤ _
        rw [followersAtMost]
        omega
      refine ⟨hserves.commit hmember htransition,
        effort_commit_lt hmember htransition hfewer hless ?_⟩
      rw [costAt, costAt, hself, hheld]
      exact costWith_lt_of_receive hfewer hless htransition
  | @proceeded conn time system hfree hmove =>
      have htransition := (transition_of_step hmove).2
      dsimp only at htransition
      have hmember : conn ∈ members := by
        by_contra habsent
        exact not_accepted_of_proceed htransition (hserves.fresh conn habsent).1
      have hkeeps := keeps_of_transition htransition
      have hload := @load_commit_le members process conn system
      have hfewer : backupsAtMost members (process.commit conn system) ≤
          backupsAtMost members process := by
        change system.server.listBackups.length + _ ≤ _
        rw [backupsAtMost, hkeeps.backups]
        omega
      have hless (ref : ProfileRef) :
          followersAtMost members (process.commit conn system) ref ≤
            followersAtMost members process ref := by
        change (system.store.objects ref).followers.length + _ ≤ _
        rw [followersAtMost, hkeeps.graph.followers]
        omega
      refine ⟨hserves.commit hmember htransition,
        effort_commit_lt hmember htransition hfewer hless ?_⟩
      have hpaid := (cost_lt_of_transition hserves.live
        (Nat.le_add_right _ (load members process))
        (fun ref => Nat.le_add_right _ (load members process)) htransition).2
      rw [costAt, costAt, hself, hfree]
      exact (cost_mono hfewer hless _).trans_lt hpaid

/-! ## At rest -/

/-- Where a thread can be when nobody can go on. -/
theorem rested_of_atRest (hserves : Serves members process)
    (hlock : LockInvariant process.system) (hrest : AtRest step Finishes process) :
    Rests process := by
  intro halive
  have hstuck (label : Label) (hfinishes : Finishes process label) :
      stepAlive process label = none := by
    have hnone := hrest label hfinishes
    rwa [step, if_pos halive] at hnone
  have hidle (conn : Conn) (hfree : process.held conn = none) :
      Waits process.system conn := by
    rw [waits_iff_stuck halive.1 conn 0]
    have hnone := hstuck (.proceed conn 0) trivial
    rw [stepAlive, if_pos hfree] at hnone
    exact Option.map_eq_none_iff.1 hnone
  have hblocked (conn : Conn) (packet : Packet)
      (hheld : process.held conn = some packet) :
      NeedsLock (process.system.threads conn) packet ∧
        ¬ process.system.controller.writable = true := by
    have hnone := hstuck (.work conn 0) trivial
    rw [stepAlive, hheld] at hnone
    have hreceive := Option.map_eq_none_iff.1 hnone
    rw [← Option.not_isSome_iff_eq_none, receive_isSome_iff halive.1 hlock
      (hserves.listens conn packet hheld)] at hreceive
    exact Classical.not_imp.1 hreceive
  have hnobody (conn : Conn) : ¬ HoldsLock (process.system.threads conn) := by
    cases hheld : process.held conn with
    | none => exact not_holdsLock_of_waits (hidle conn hheld)
    | some packet =>
        exact not_holdsLock_of_listens (hserves.listens conn packet hheld)
  intro conn
  cases hheld : process.held conn with
  | none => exact .inl ⟨rfl, hidle conn hheld⟩
  | some packet =>
      obtain ⟨hneeds, htaken⟩ := hblocked conn packet hheld
      exact .inr ⟨⟨taken_of_not_writable hlock htaken, hnobody⟩, packet, hheld, hneeds⟩

theorem atRest_of_rested (hserves : Serves members process)
    (hlock : LockInvariant process.system) (hrests : Rests process) :
    AtRest step Finishes process := by
  intro label hfinishes
  rw [step]
  split
  case isFalse => rfl
  case isTrue halive =>
    cases label with
    | receive | breaks => exact hfinishes.elim
    | work conn time =>
        rcases hrests halive conn with ⟨hfree, _⟩ | ⟨hleaked, packet, hheld, hneeds⟩
        · rw [stepAlive, hfree]
          rfl
        · rw [stepAlive, hheld]
          apply Option.map_eq_none_iff.2
          rw [← Option.not_isSome_iff_eq_none, receive_isSome_iff halive.1 hlock
            (hserves.listens conn packet hheld)]
          exact fun hgets => not_writable_of_taken hleaked.taken (hgets hneeds)
    | proceed conn time =>
        rw [stepAlive]
        split
        case isFalse => rfl
        case isTrue hfree =>
          apply Option.map_eq_none_iff.2
          rcases hrests halive conn with ⟨_, hwaits⟩ | ⟨_, packet, hheld, _⟩
          · exact (waits_iff_stuck halive.1 conn time).1 hwaits
          · cases hfree.symm.trans hheld

end Process

/-! ## Runs -/

/-- The connections that take a step in the run. -/
def connOf : Label → Conn
  | .receive conn _ => conn
  | .work conn _ => conn
  | .proceed conn _ => conn
  | .breaks conn => conn

def connsOf (labels : List Label) : Finset Conn := (labels.map connOf).toFinset

section Runs

variable {labels : List Label} {process : Process}

theorem lockInvariant_of_exec (hrun : exec step .start labels = some process) :
    LockInvariant process.system :=
  invariant_of_exec (fun _ _ _ hlock hstep => hlock.step (transition_of_step hstep).2)
    (lockInvariant_serving ready_new) hrun

theorem Serves.step {members : Finset Conn} {next : Process} {label : Label}
    (hserves : Serves members process) (hmember : connOf label ∈ members)
    (hstep : Processes.step process label = some next) : Serves members next := by
  cases (moves_of_step hstep).2 with
  | @received conn packet hfree hlistens =>
      refine ⟨hserves.live, fun other habsent => ?_, fun other packet hheld => ?_⟩
      · have hother : other ≠ conn := by
          rintro rfl
          exact habsent hmember
        obtain ⟨hpoint, hnone⟩ := hserves.fresh other habsent
        exact ⟨hpoint, (Function.update_of_ne hother ..).trans hnone⟩
      · by_cases hother : other = conn
        · exact hother ▸ hlistens
        · exact hserves.listens other packet
            ((Function.update_of_ne hother ..).symm.trans hheld)
  | worked _ hmove => exact hserves.commit hmember (transition_of_step hmove).2
  | proceeded _ hmove => exact hserves.commit hmember (transition_of_step hmove).2
  | broke => exact ⟨hserves.live, hserves.fresh, hserves.listens⟩

theorem serves_of_exec (hrun : exec step .start labels = some process) :
    Serves (connsOf labels) process := by
  have hmembers := @along_of_forall Process Label step
    (fun label => connOf label ∈ connsOf labels) labels
    (fun label hlabel => List.mem_toFinset.2 (List.mem_map_of_mem hlabel)) .start
  refine exec_invariant (fun _ _ _ hserves hmember hstep =>
    hserves.step hmember hstep) ⟨fun _ => List.not_mem_nil, fun _ _ => ⟨rfl, rfl⟩, ?_⟩
    hmembers hrun
  intro conn packet hheld
  cases hheld

end Runs

/-! ## Taking packets -/

/-- A login that finds all sessions of its profile taken begins. -/
def RefusesNow (process : Process) : Label → Prop
  | .work conn time => ∃ packet, process.held conn = some packet ∧
      Refuses process.system ⟨conn, time, .receive packet⟩
  | _ => False

instance (process : Process) : ∀ label, Decidable (RefusesNow process label)
  | .work conn time =>
      match hheld : process.held conn with
      | some packet =>
          decidable_of_iff (Refuses process.system ⟨conn, time, .receive packet⟩)
            (by simp [RefusesNow, hheld])
      | none => isFalse (by simp [RefusesNow, hheld])
  | .receive _ _ | .proceed _ _ | .breaks _ => isFalse id

/-- A thread goes on without a packet. -/
def Proceeds : Label → Prop
  | .proceed _ _ => True
  | _ => False

/-- Every packet that a thread has received or could receive is worked on as soon
as the thread goes on. -/
def Responds (process : Process) : Prop :=
  process.Alive ∧ ∀ conn packet time,
    (process.held conn = some packet ∨
      process.held conn = none ∧ Listens process.system conn) →
    (Threads.step process.system ⟨conn, time, .receive packet⟩).isSome

section Taking

variable {labels : List Label} {process : Process}

/-- The lock is lost exactly by a refused login. -/
theorem leaked_of_exec (hrun : exec step .start labels = some process)
    (hrefused : ¬ Along step (fun process label => ¬ RefusesNow process label)
      .start labels) : Leaked process.system := by
  obtain ⟨front, label, back, middle, next, _, _, hfront, hrefuses, hstep, hback⟩ :=
    exists_first_of_not_along hrefused hrun
  have hlock := lockInvariant_of_exec hfront
  have hleaked : Leaked next.system := by
    rw [not_not] at hrefuses
    cases (moves_of_step hstep).2 with
    | received | proceeded | broke => exact hrefuses.elim
    | worked hheld hmove =>
        obtain ⟨packet, hsame, hrefuses⟩ := hrefuses
        cases hheld.symm.trans hsame
        exact leaked_of_refuses hlock hrefuses hmove
  exact invariant_of_exec (fun _ _ _ hleaked hstep =>
    hleaked.step (transition_of_step hstep).2) hleaked hback

theorem held_of_exec (hrun : exec step .start labels = some process)
    (hunrefused : Along step (fun process label => ¬ RefusesNow process label)
      .start labels) : Held process.system := by
  refine (@exec_invariant _ _ step _
    (fun process => Held process.system ∧ LockInvariant process.system) ?_ _ _ _
    ⟨fun _ htaken => absurd rfl htaken, lockInvariant_serving ready_new⟩
    hunrefused hrun).1
  rintro before label next ⟨hheld, hlock⟩ hrefuses hstep
  cases (moves_of_step hstep).2 with
  | received | broke => exact ⟨hheld, hlock⟩
  | worked hpacket hmove =>
      have htransition := (transition_of_step hmove).2
      exact ⟨hheld.step hlock (fun hrefused => hrefuses ⟨_, hpacket, hrefused⟩)
        htransition, hlock.step htransition⟩
  | proceeded _ hmove =>
      have htransition := (transition_of_step hmove).2
      exact ⟨hheld.step hlock not_refuses_of_proceed htransition,
        hlock.step htransition⟩

/-- Where no connection is broken, who is inside the lock comes out alive. -/
theorem exec_of_goesOut {holder : Conn} {turns : List Threads.Label}
    {system : System} (hgoes : GoesOut holder turns)
    (hfree : process.held holder = none)
    (hwhole : ∀ conn, process.broken conn = false)
    (hkilled : process.killed = false)
    (hturns : exec Threads.step process.system turns = some system) :
    ∃ later after, Along step (fun _ label => Proceeds label) process later ∧
      exec step process later = some after ∧ after.system = system ∧
      after.killed = false := by
  induction turns generalizing process with
  | nil =>
      cases hturns
      exact ⟨[], process, trivial, rfl, rfl, hkilled⟩
  | cons turn turns ih =>
      obtain ⟨next, hmove, hrest⟩ := exec_cons_iff.1 hturns
      obtain ⟨⟨hconn, haction⟩, hturns⟩ := List.forall_mem_cons.1 hgoes
      obtain ⟨conn, time, action⟩ := turn
      cases hconn
      cases haction
      have halive : process.Alive := ⟨(transition_of_step hmove).1, hkilled⟩
      have hstep : step process (.proceed conn time) =
          some (process.commit conn next) := by
        rw [step, if_pos halive, stepAlive, if_pos hfree, hmove]
        rfl
      have hlives : (process.commit conn next).killed = false := by
        change List.any _ _ = false
        simp [hwhole]
      obtain ⟨later, after, hproceeds, hlater, hafter⟩ :=
        @ih (process.commit conn next) hturns (Function.update_self ..) hwhole hlives
          hrest
      refine ⟨.proceed conn time :: later, after, fun other hother => ?_,
        exec_cons_iff.2 ⟨_, hstep, hlater⟩, hafter⟩
      cases hstep.symm.trans hother
      exact ⟨trivial, hproceeds⟩

theorem broken_of_exec (hunbroken : ∀ conn, .breaks conn ∉ labels)
    (hrun : exec step .start labels = some process) (conn : Conn) :
    process.broken conn = false := by
  have hlabels : ∀ label ∈ labels, label ≠ .breaks conn := by
    rintro label hlabel rfl
    exact hunbroken conn hlabel
  refine @exec_invariant _ _ step _ (fun process => process.broken conn = false)
    ?_ _ _ _ rfl (along_of_forall hlabels Process.start) hrun
  intro before label next hbefore hallowed hstep
  cases (moves_of_step hstep).2 with
  | received | worked | proceeded => exact hbefore
  | @broke other =>
      have hother : conn ≠ other := by
        rintro rfl
        exact hallowed rfl
      exact (Function.update_of_ne hother ..).trans hbefore

theorem responds_of_writable {members : Finset Conn}
    (hserves : Serves members process) (hlock : LockInvariant process.system)
    (halive : process.Alive)
    (hwritable : process.system.controller.writable = true) : Responds process := by
  refine ⟨halive, fun conn packet time htakes => ?_⟩
  have hlistens : Listens process.system conn := by
    rcases htakes with hheld | ⟨_, hlistens⟩
    · exact hserves.listens conn packet hheld
    · exact hlistens
  exact (receive_isSome_iff halive.1 hlock hlistens).2 fun _ => hwritable

end Taking

/-! ## A refused login -/

/-- A client logs in, up to the release of the lock. -/
def loginLabels (conn : Conn) : List Label :=
  [.receive conn (new .profile [97] [] 0), .work conn 0, .proceed conn 0]

/-- Two logins of a profile, a third one, which is refused, and a login of another
client, which waits. -/
def refusedRun : List Label :=
  loginLabels 1 ++ loginLabels 2 ++
    [.receive 3 (new .profile [97] [] 0), .work 3 0,
      .receive 4 (new .profile [98] [] 0)]

end TwitterLike.ServerProgress
