import TwitterLike.Server.FollowGraph
import TwitterLike.Server.Threads

/-!
# What one step of a thread can do

One constructor for every way in which a step of the system can go, with the
guards it has passed and the system it leaves.  Invariants are proved by cases
over it.
-/

namespace TwitterLike.Threads

open TwitterLike.ByteBuffer
open TwitterLike.PacketFormat
open TwitterLike.Profiles
open TwitterLike.ProfilesManager
open TwitterLike.ProfileAccessController
open TwitterLike.Handlers

/-- A `PROFILE` packet received at this point makes the thread call
`createProfileIfNotExists` and go on with `next`. -/
inductive Enters : Point → (ProfileRef → Next) → Prop where
  | first : Enters .accepted Next.greet
  | again (session : ProfileRef) :
      Enters (.looping session) fun _ => .loop session

/-- The system after `createProfileIfNotExists` has taken the lock and left
`store`. -/
def System.locked (system : System) (store : Store) : System :=
  system.countPacket.setController
    { system.controller.requestWrite with store := store }

/-- The command is one of those that `processPacket` ignores. -/
def Ignored : CmdType → Prop
  | .profile | .follow | .closeConn | .send | .backupPropagation => False
  | _ => True

inductive Transition (system : System) (conn : Conn) (time : BitVec 64) :
    Action → System → Prop where
  | found {packet : Packet} {next : ProfileRef → Next} {profile : ProfileRef}
      {store : Store} (henter : Enters (system.threads conn) next)
      (hcmd : packet.cmd = .profile)
      (hwritable : system.controller.writable = true)
      (hfind : system.store.findOrCreate packet.payload (some conn) time =
        (.ok profile, store)) :
      Transition system conn time (.receive packet)
        ((system.locked store).goto conn
          (.registering profile packet (next profile)))
  | refused {packet : Packet} {next : ProfileRef → Next} {store : Store}
      (henter : Enters (system.threads conn) next)
      (hcmd : packet.cmd = .profile)
      (hwritable : system.controller.writable = true)
      (hfind : system.store.findOrCreate packet.payload (some conn) time =
        (.error .threadExit, store)) :
      Transition system conn time (.receive packet)
        ((system.locked store).goto conn .ended)
  | findFailed {packet : Packet} {next : ProfileRef → Next} {store : Store}
      {exit : Exit} (henter : Enters (system.threads conn) next)
      (hcmd : packet.cmd = .profile)
      (hwritable : system.controller.writable = true)
      (hfind : system.store.findOrCreate packet.payload (some conn) time =
        (.error exit, store)) (hexit : exit ≠ .threadExit) :
      Transition system conn time (.receive packet)
        ((system.locked store).crash exit)
  | joined {packet : Packet} (hpoint : system.threads conn = .accepted)
      (hcmd : packet.cmd = .setBackup) :
      Transition system conn time (.receive packet)
        ({ system.countPacket with
          server := { system.server with
            listBackups := system.server.listBackups ++ [conn] } }.goto conn
          (.joining packet.payload))
  | senderFound {packet : Packet} {profile : ProfileRef}
      (hpoint : system.threads conn = .accepted)
      (hprofile : packet.cmd ≠ .profile) (hbackup : packet.cmd ≠ .setBackup)
      (hfound : system.store.getProfileById packet.sender = some profile) :
      Transition system conn time (.receive packet)
        (system.countPacket.goto conn (.reconnecting profile))
  | senderUnknown {packet : Packet} (hpoint : system.threads conn = .accepted)
      (hprofile : packet.cmd ≠ .profile) (hbackup : packet.cmd ≠ .setBackup)
      (hunknown : system.store.getProfileById packet.sender = none) :
      Transition system conn time (.receive packet)
        (system.countPacket.crash .nullDeref)
  | reconnected {profile : ProfileRef}
      (hpoint : system.threads conn = .reconnecting profile) :
      Transition system conn time .proceed
        ((system.onStore fun store =>
          store.updateSessionsOn profile (some conn)).goto conn
            (.greeting profile))
  | addressPushed {address : ByteString}
      (hpoint : system.threads conn = .joining address) :
      Transition system conn time .proceed (system.pushAddress conn address)
  | propagated (hpoint : system.threads conn = .propagating) :
      Transition system conn time .proceed (system.propagate conn time)
  | registered {profile : ProfileRef} {packet : Packet} {next : Next}
      (hpoint : system.threads conn = .registering profile packet next) :
      Transition system conn time .proceed
        (system.registerSession conn profile packet next)
  | forwarded {packet : Packet} {index : ℕ} {next : Next} {backup : Conn}
      (hpoint : system.threads conn = .forwarding packet index next)
      (hbackup : system.server.listBackups[index]? = some backup) :
      Transition system conn time .proceed
        ((system.onStore fun store => store.sendPacket backup packet).goto conn
          (.forwarding packet (index + 1) next))
  | forwardDone {packet : Packet} {index : ℕ} {next : Next}
      (hpoint : system.threads conn = .forwarding packet index next)
      (hlast : system.server.listBackups[index]? = none) :
      Transition system conn time .proceed (system.goto conn next.point)
  | greeted {profile : ProfileRef}
      (hpoint : system.threads conn = .greeting profile) :
      Transition system conn time .proceed
        ((system.onStore fun store =>
          store.sendPacket conn (new .send
            (helloText ++ (store.objects profile).profileId) [] time)).goto conn
              (.fetching profile))
  | fetched {profile : ProfileRef}
      (hpoint : system.threads conn = .fetching profile)
      (hfetch : (system.store.fetchInboxContent profile).1 = .ok ()) :
      Transition system conn time .proceed
        ((system.onStore fun store => (store.fetchInboxContent profile).2).goto
          conn (.looping profile))
  | fetchFailed {profile : ProfileRef} {exit : Exit}
      (hpoint : system.threads conn = .fetching profile)
      (hfetch : (system.store.fetchInboxContent profile).1 = .error exit) :
      Transition system conn time .proceed
        ((system.onStore fun store => (store.fetchInboxContent profile).2).crash
          exit)
  | followed {packet : Packet} {profile : ProfileRef} {store : Store}
      (hpoint : system.threads conn = .looping profile)
      (hcmd : packet.cmd = .follow)
      (hwritable : system.controller.writable = true)
      (hfollow : system.store.addFollowerTo packet.payload (some profile) =
        (.ok (), store)) :
      Transition system conn time (.receive packet)
        ((system.countPacket.onStore fun _ => store).goto conn
          (.forwarding packet 0 (.loop profile)))
  | followFailed {packet : Packet} {profile : ProfileRef} {store : Store}
      {exit : Exit} (hpoint : system.threads conn = .looping profile)
      (hcmd : packet.cmd = .follow)
      (hwritable : system.controller.writable = true)
      (hfollow : system.store.addFollowerTo packet.payload (some profile) =
        (.error exit, store)) :
      Transition system conn time (.receive packet)
        ((system.locked store).crash exit)
  | sendBegun {packet : Packet} {profile : ProfileRef}
      (hpoint : system.threads conn = .looping profile)
      (hcmd : packet.cmd = .send)
      (hwritable : system.controller.writable = true) :
      Transition system conn time (.receive packet)
        ((((system.countPacket).recordSend conn profile
          ⟨system.received, packet⟩).setController
            system.controller.requestWrite).goto conn
              (.sending profile ⟨system.received, packet⟩ 0))
  | sent {profile follower : ProfileRef} {message : Message} {index : ℕ}
      (hpoint : system.threads conn = .sending profile message index)
      (hfollower : (system.store.objects profile).followers[index]? =
        some follower) :
      Transition system conn time .proceed
        ((system.onStore fun store =>
          store.sendOrInsertInbox follower message).goto conn
            (.sending profile message (index + 1)))
  | sendDone {profile : ProfileRef} {message : Message} {index : ℕ}
      (hpoint : system.threads conn = .sending profile message index)
      (hlast : (system.store.objects profile).followers[index]? = none) :
      Transition system conn time .proceed
        ((system.setController system.controller.releaseWrite).goto conn
          (.forwarding message.packet 0 (.loop profile)))
  | left {packet : Packet} {profile : ProfileRef}
      (hpoint : system.threads conn = .looping profile)
      (hcmd : packet.cmd = .closeConn) :
      Transition system conn time (.receive packet)
        ((system.countPacket.onStore fun store =>
          store.decSessionsOn profile (some conn)).goto conn
            (.forwarding packet 0 .quit))
  | listReplaced {packet : Packet} {profile : ProfileRef}
      (hpoint : system.threads conn = .looping profile)
      (hcmd : packet.cmd = .backupPropagation) :
      Transition system conn time (.receive packet)
        { system.countPacket with
          server := { system.server with
            electionServerList := getLines packet.payload } }
  | ignored {packet : Packet} {profile : ProfileRef}
      (hpoint : system.threads conn = .looping profile)
      (hcmd : Ignored packet.cmd) :
      Transition system conn time (.receive packet) system.countPacket
  | loopLeft {profile : ProfileRef}
      (hpoint : system.threads conn = .looping profile)
      (hclosed : conn ∈ system.store.closed) :
      Transition system conn time .proceed (system.goto conn .closing)
  | closed (hpoint : system.threads conn = .closing) :
      Transition system conn time .proceed
        ((system.onStore fun store => store.closeConn conn).goto conn .ended)

/-- A known follower is never dereferenced as null: only the file can fail. -/
theorem addFollowerTo_exit {store after : Store} {followed : ByteString}
    {follower : ProfileRef} {exit : Exit}
    (hresult : store.addFollowerTo followed (some follower) =
      (.error exit, after)) : exit = .exception := by
  rcases store.addFollowerTo_cases followed follower with
    hkeep | ⟨target, _, _, _, hpush⟩
  · rw [hkeep] at hresult
    cases hresult
  · rw [hpush] at hresult
    rcases Store.toJsonFile_cases (store.pushFollower target follower) with
      hok | hthrows
    · rw [hresult] at hok
      cases hok
    · rw [hresult] at hthrows
      cases hthrows
      rfl

theorem System.goto_threads_self (system : System) (conn : Conn)
    (point : Point) : (system.goto conn point).threads conn = point :=
  Function.update_self ..

/-- Only the thread that steps is at a new point. -/
theorem System.goto_threads_cases (system : System) (conn : Conn)
    (point : Point) (other : Conn) :
    (other = conn ∧ (system.goto conn point).threads other = point) ∨
      (other ≠ conn ∧ (system.goto conn point).threads other =
        system.threads other) := by
  by_cases hother : other = conn
  · exact .inl ⟨hother, hother ▸ system.goto_threads_self conn point⟩
  · exact .inr ⟨hother, Function.update_of_ne hother ..⟩

theorem System.point_of_goto {system : System} {conn other : Conn}
    {point target : Point}
    (htarget : (system.goto conn point).threads other = target) :
    (other = conn ∧ point = target) ∨
      (other ≠ conn ∧ system.threads other = target) := by
  rcases system.goto_threads_cases conn point other with
    ⟨hother, hgoto⟩ | ⟨hne, hgoto⟩
  · exact .inl ⟨hother, hgoto.symm.trans htarget⟩
  · exact .inr ⟨hne, hgoto.symm.trans htarget⟩

/-- A thread that does not begin a call takes no other thread into one. -/
theorem System.sending_of_goto {system : System} {conn other : Conn}
    {point : Point}
    (hpoint : ∀ profile message index, point = .sending profile message index →
      ∃ before, system.threads conn = .sending profile message before)
    {profile : ProfileRef} {message : Message} {index : ℕ}
    (hsending : (system.goto conn point).threads other =
      .sending profile message index) :
    ∃ before, system.threads other = .sending profile message before := by
  rcases System.point_of_goto hsending with ⟨rfl, hself⟩ | ⟨_, hsame⟩
  · exact hpoint profile message index hself
  · exact ⟨index, hsame⟩

section Inversion

variable {system next : System} {conn : Conn} {time : BitVec 64}

theorem transition_of_findProfile {packet : Packet}
    {continuation : ProfileRef → Next}
    (henter : Enters (system.threads conn) continuation)
    (hcmd : packet.cmd = .profile)
    (hfind : system.countPacket.findProfile conn packet continuation time =
      some next) : Transition system conn time (.receive packet) next := by
  unfold System.findProfile at hfind
  split at hfind
  · next hwritable =>
      rcases hresult : system.store.findOrCreate packet.payload (some conn) time
        with ⟨exit | profile, store⟩
      · have hlocked : system.countPacket.controller.requestWrite.store.findOrCreate
            packet.payload (some conn) time = (.error exit, store) := hresult
        simp only [hlocked] at hfind
        cases exit with
        | threadExit =>
            cases hfind
            exact .refused henter hcmd hwritable hresult
        | blocked =>
            cases hfind
            exact .findFailed henter hcmd hwritable hresult (by simp)
        | exception =>
            cases hfind
            exact .findFailed henter hcmd hwritable hresult (by simp)
        | nullDeref =>
            cases hfind
            exact .findFailed henter hcmd hwritable hresult (by simp)
      · have hlocked : system.countPacket.controller.requestWrite.store.findOrCreate
            packet.payload (some conn) time = (.ok profile, store) := hresult
        simp only [hlocked] at hfind
        cases hfind
        exact .found henter hcmd hwritable hresult
  · cases hfind

theorem transition_of_follow {packet : Packet} {profile : ProfileRef}
    (hpoint : system.threads conn = .looping profile)
    (hcmd : packet.cmd = .follow)
    (hfollow : system.countPacket.follow conn profile packet = some next) :
    Transition system conn time (.receive packet) next := by
  unfold System.follow Controller.addFollowerTo Controller.withWrite at hfollow
  by_cases hwritable : system.controller.writable = true
  · have hcounted : system.countPacket.controller.writable = true := hwritable
    rcases hresult : system.store.addFollowerTo packet.payload (some profile)
      with ⟨exit | _, store⟩
    · have hlocked : system.countPacket.controller.requestWrite.store.addFollowerTo
          packet.payload (some profile) = (.error exit, store) := hresult
      simp only [hcounted, if_true, hlocked] at hfollow
      have hexit := addFollowerTo_exit hresult
      subst hexit
      cases hfollow
      exact .followFailed hpoint hcmd hwritable hresult
    · have hlocked : system.countPacket.controller.requestWrite.store.addFollowerTo
          packet.payload (some profile) = (.ok (), store) := hresult
      simp only [hcounted, if_true, hlocked] at hfollow
      cases hfollow
      have hreleased : ({ system.countPacket.controller.requestWrite with
            store := store } : Controller).releaseWrite =
          { system.controller with store := store } := by
        simp [Controller.releaseWrite, Controller.requestWrite]
      rw [hreleased]
      exact .followed hpoint hcmd hwritable hresult
  · have hcounted : ¬ system.countPacket.controller.writable = true := hwritable
    rw [if_neg hcounted] at hfollow
    cases hfollow

theorem transition_of_processPacket {packet : Packet} {profile : ProfileRef}
    (hpoint : system.threads conn = .looping profile)
    (hprocess : system.countPacket.processPacket conn profile
      ⟨system.received, packet⟩ time = some next) :
    Transition system conn time (.receive packet) next := by
  unfold System.processPacket at hprocess
  dsimp only at hprocess
  split at hprocess
  case h_1 hcmd =>
    exact transition_of_findProfile (hpoint ▸ .again profile) hcmd hprocess
  case h_2 hcmd => exact transition_of_follow hpoint hcmd hprocess
  case h_3 hcmd =>
    cases hprocess
    exact .left hpoint hcmd
  case h_4 hcmd =>
    unfold System.beginSend at hprocess
    split at hprocess
    · next hwritable =>
        cases hprocess
        exact .sendBegun hpoint hcmd hwritable
    · cases hprocess
  case h_5 hcmd =>
    cases hprocess
    exact .listReplaced hpoint hcmd
  case h_6 hprofile hfollow hclose hsend hlist =>
    cases hprocess
    apply Transition.ignored hpoint
    cases hcmd : packet.cmd <;> simp_all [Ignored]

theorem transition_of_receiveProfileCmd {packet : Packet}
    (hpoint : system.threads conn = .accepted)
    (hreceive : system.countPacket.receiveProfileCmd conn packet time =
      some next) : Transition system conn time (.receive packet) next := by
  unfold System.receiveProfileCmd at hreceive
  split at hreceive
  case h_1 hcmd =>
    exact transition_of_findProfile (hpoint ▸ .first) hcmd hreceive
  case h_2 hcmd =>
    cases hreceive
    exact .joined hpoint hcmd
  case h_3 hprofile hbackup =>
    unfold System.findSender at hreceive
    split at hreceive
    · split at hreceive
      · next profile hfound =>
          cases hreceive
          exact .senderFound hpoint hprofile hbackup hfound
      · next hunknown =>
          cases hreceive
          exact .senderUnknown hpoint hprofile hbackup hunknown
    · cases hreceive

theorem transition_of_forward {packet : Packet} {index : ℕ}
    {continuation : Next}
    (hpoint : system.threads conn = .forwarding packet index continuation) :
    Transition system conn time .proceed
      (system.forward conn packet index continuation) := by
  unfold System.forward
  split
  · next backup hbackup => exact .forwarded hpoint hbackup
  · next hlast => exact .forwardDone hpoint hlast

theorem transition_of_sendTurn {profile : ProfileRef} {message : Message}
    {index : ℕ}
    (hpoint : system.threads conn = .sending profile message index) :
    Transition system conn time .proceed
      (system.sendTurn conn profile message index) := by
  unfold System.sendTurn
  split
  · next follower hfollower => exact .sent hpoint hfollower
  · next hlast => exact .sendDone hpoint hlast

theorem transition_of_fetch {profile : ProfileRef}
    (hpoint : system.threads conn = .fetching profile) :
    Transition system conn time .proceed (system.fetch conn profile) := by
  unfold System.fetch
  dsimp only
  split
  · next value hfetch => exact .fetched hpoint hfetch
  · next exit hfetch => exact .fetchFailed hpoint hfetch

/-- A step is taken only while the process runs, and goes one of the listed
ways. -/
theorem transition_of_step {label : Label}
    (hstep : step system label = some next) :
    system.down = none ∧
      Transition system label.conn label.time label.action next := by
  obtain ⟨conn, time, action⟩ := label
  unfold step at hstep
  split at hstep
  · next hdown =>
      refine ⟨hdown, ?_⟩
      dsimp only at hstep ⊢
      unfold stepThread at hstep
      split at hstep
      case h_1 packet hpoint =>
        exact transition_of_receiveProfileCmd hpoint hstep
      case h_2 profile hpoint =>
        cases hstep
        exact .reconnected hpoint
      case h_3 address hpoint =>
        cases hstep
        exact .addressPushed hpoint
      case h_4 hpoint =>
        cases hstep
        exact .propagated hpoint
      case h_5 profile packet continuation hpoint =>
        cases hstep
        exact .registered hpoint
      case h_6 profile message index hpoint =>
        cases hstep
        exact transition_of_sendTurn hpoint
      case h_7 packet index continuation hpoint =>
        cases hstep
        exact transition_of_forward hpoint
      case h_8 profile hpoint =>
        cases hstep
        exact .greeted hpoint
      case h_9 profile hpoint =>
        cases hstep
        exact transition_of_fetch hpoint
      case h_10 profile packet hpoint =>
        split at hstep
        · cases hstep
        · exact transition_of_processPacket hpoint hstep
      case h_11 profile hpoint =>
        split at hstep
        · next hclosed =>
            cases hstep
            exact .loopLeft hpoint hclosed
        · cases hstep
      case h_12 hpoint =>
        cases hstep
        exact .closed hpoint
      case h_13 => cases hstep
  · cases hstep

/-- A step of a thread leaves the other threads where they are. -/
theorem threads_of_transition {action : Action} {other : Conn}
    (hother : other ≠ conn)
    (htransition : Transition system conn time action next) :
    next.threads other = system.threads other := by
  cases htransition with
  | findFailed => rfl
  | senderUnknown => rfl
  | fetchFailed => rfl
  | followFailed => rfl
  | listReplaced => rfl
  | ignored => rfl
  | _ => exact Function.update_of_ne hother ..

/-- A thread that takes no step stays where it is. -/
theorem threads_of_exec {labels : List Label} {other : Conn}
    (hother : ∀ label ∈ labels, other ≠ label.conn)
    (hexec : Transition.exec step system labels = some next) :
    next.threads other = system.threads other := by
  induction labels generalizing system with
  | nil =>
      cases hexec
      rfl
  | cons label labels ih =>
      obtain ⟨middle, hstep, hrest⟩ := Transition.exec_cons_iff.1 hexec
      obtain ⟨hself, hothers⟩ := List.forall_mem_cons.1 hother
      rw [ih hothers hrest]
      exact threads_of_transition hself (transition_of_step hstep).2

end Inversion

end TwitterLike.Threads
