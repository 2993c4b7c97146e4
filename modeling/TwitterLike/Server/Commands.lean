import TwitterLike.Server.GraphHistory
import TwitterLike.Server.Handlers
import TwitterLike.Server.SessionAccounting

/-!
# The commands of a client

What a request handler does to the store for a command that is forwarded to the
backups, when it returns.
-/

namespace TwitterLike.Commands

open TwitterLike.ByteBuffer
open TwitterLike.PacketFormat
open TwitterLike.Profiles
open TwitterLike.ProfilesManager
open TwitterLike.ProfileAccessController
open TwitterLike.Handlers
open TwitterLike.Faulting
open TwitterLike.FollowGraph
open TwitterLike.GraphHistory
open TwitterLike.SessionAccounting
open TwitterLike.Threads (Known known_of_found known_allocated)

/-! ## Calls of the controller that return -/

section Calls

variable {α : Type} {server after : Server}

/-- Nobody is inside the controller. -/
def Idle (server : Server) : Prop :=
  server.controller.numReaders = 0 ∧ server.controller.numWriters = 0

theorem run_call (operation : Controller → Except Exit α × Controller) :
    (call operation).run server =
      ((operation server.controller).1,
        { server with controller := (operation server.controller).2 }) := rfl

/-- A writing operation returns when the lock is free and the store returns, and
gives the lock back. -/
theorem run_call_withWrite_eq_ok_iff
    {operation : Store → Except Exit α × Store} {value : α} :
    (call fun controller => controller.withWrite operation).run server =
        (.ok value, after) ↔
      server.controller.writable = true ∧
        ∃ store, operation server.store = (.ok value, store) ∧
          after = server.onStore fun _ => store := by
  rw [run_call, Controller.withWrite]
  by_cases hwritable : server.controller.writable = true
  · have hstore : server.controller.requestWrite.store = server.store := rfl
    simp only [hwritable, if_true, true_and, hstore]
    rcases operation server.store with ⟨exit | result, store⟩
    · simp
    · simp only [Prod.mk.injEq, Except.ok.injEq, Controller.releaseWrite,
        Controller.requestWrite, add_sub_cancel_right]
      constructor
      · rintro ⟨rfl, rfl⟩
        exact ⟨store, ⟨rfl, rfl⟩, rfl⟩
      · rintro ⟨_, ⟨rfl, rfl⟩, rfl⟩
        exact ⟨rfl, rfl⟩
  · simp [hwritable]

/-- A writing operation that does not return was never entered, or has ended
inside and keeps the lock. -/
theorem run_call_withWrite_eq_error_iff
    {operation : Store → Except Exit α × Store} {exit : Exit} :
    (call fun controller => controller.withWrite operation).run server =
        (.error exit, after) ↔
      (server.controller.writable = false ∧ exit = .blocked ∧ after = server) ∨
      (server.controller.writable = true ∧
        ∃ store, operation server.store = (.error exit, store) ∧
          after = { server with
            controller :=
              { server.controller.requestWrite with store := store } }) := by
  rw [run_call, Controller.withWrite]
  by_cases hwritable : server.controller.writable = true
  · have hstore : server.controller.requestWrite.store = server.store := rfl
    simp only [hwritable, if_true, true_and, hstore]
    rcases operation server.store with ⟨failed | result, store⟩
    · simp [eq_comm]
    · simp
  · have hclosed : server.controller.writable = false :=
      Bool.eq_false_of_not_eq_true hwritable
    simp only [hclosed, Bool.false_eq_true, if_false, true_and, false_and,
      or_false, Prod.mk.injEq, Except.error.injEq]
    constructor
    · rintro ⟨rfl, rfl⟩
      exact ⟨rfl, rfl⟩
    · rintro ⟨rfl, rfl⟩
      exact ⟨rfl, rfl⟩

theorem writable_of_idle (hidle : Idle server) :
    server.controller.writable = true := by
  simp [Controller.writable, hidle.1, hidle.2]

/-- A reading operation returns when no writer is inside, and changes nothing. -/
theorem run_call_withRead_eq_ok_iff {view : Store → α} {value : α} :
    (call fun controller => controller.withRead view).run server =
        (.ok value, after) ↔
      server.controller.readable = true ∧ value = view server.store ∧
        after = server := by
  rw [run_call, Controller.withRead]
  by_cases hreadable : server.controller.readable = true
  · have hreleased :
        server.controller.requestRead.releaseRead = server.controller := by
      simp [Controller.releaseRead, Controller.requestRead]
    simp only [hreadable, if_true, hreleased, Prod.mk.injEq, Except.ok.injEq,
      true_and]
    exact ⟨fun h => ⟨h.1.symm, h.2.symm⟩, fun h => ⟨h.1.symm, h.2.symm⟩⟩
  · simp [hreadable]

theorem blocked_of_run_call_withRead {view : Store → α} {exit : Exit}
    (hcall : (call fun controller => controller.withRead view).run server =
      (.error exit, after)) : exit = .blocked := by
  rw [run_call, Controller.withRead] at hcall
  split at hcall
  · cases hcall
  · cases hcall
    rfl

theorem run_call_withRead_of_idle (hidle : Idle server) (view : Store → α) :
    (call fun controller => controller.withRead view).run server =
      (.ok (view server.store), server) := by
  have hreadable : server.controller.readable = true := by
    simp [Controller.readable, hidle.2]
  exact run_call_withRead_eq_ok_iff.2 ⟨hreadable, rfl, rfl⟩

/-! ### What calls preserve -/

variable {Holds : Store → Prop}

/-- On every way out of a call, the store is as it was or as the operation has
left it. -/
theorem preserves_call_withWrite {operation : Store → Except Exit α × Store}
    (hoperation : ∀ store, Holds store → Holds (operation store).2) :
    Preserves (fun server : Server => Holds server.store)
      (call fun controller => controller.withWrite operation) := by
  intro server hholds
  have hafter := hoperation server.store hholds
  rw [run_call, Controller.withWrite]
  by_cases hwritable : server.controller.writable = true
  · have hstore : server.controller.requestWrite.store = server.store := rfl
    simp only [hwritable, if_true, hstore]
    rcases hrun : operation server.store with ⟨exit | value, store⟩
    · rwa [hrun] at hafter
    · rwa [hrun] at hafter
  · simp only [hwritable]
    exact hholds

theorem preserves_call_withRead (view : Store → α) :
    Preserves (fun server : Server => Holds server.store)
      (call fun controller => controller.withRead view) := by
  intro server hholds
  rw [run_call, Controller.withRead]
  by_cases hreadable : server.controller.readable = true
  · simp only [hreadable, if_true]
    exact hholds
  · simp only [hreadable]
    exact hholds

theorem preserves_dereference {Invariant : Server → Prop}
    (pointer : Option α) : Preserves Invariant (dereference pointer) := by
  cases pointer with
  | none => exact preserves_fail _
  | some value => exact preserves_pure value

end Calls

/-! ## The commands of a client -/

/-- The commands of a client that are forwarded to the backups. -/
def ClientCommand (cmd : CmdType) : Prop :=
  cmd = .profile ∨ cmd = .follow ∨ cmd = .send ∨ cmd = .closeConn

/-- The effect of a client's command on the store, without its forwarding. -/
inductive Applied (conn : Option Conn) (profile : Option ProfileRef)
    (message : Message) (time : BitVec 64) (store : Store) : Store → Prop where
  | registered {ref : ProfileRef} {after : Store}
      (hcmd : message.packet.cmd = .profile)
      (hcreate : store.createProfileIfNotExists message.packet.payload conn
        time = (.ok ref, after)) :
      Applied conn profile message time store after
  | followed {after : Store} (hcmd : message.packet.cmd = .follow)
      (hfollow : store.addFollowerTo message.packet.payload profile =
        (.ok (), after)) :
      Applied conn profile message time store after
  | sent {ref : ProfileRef} (hcmd : message.packet.cmd = .send)
      (hprofile : profile = some ref) :
      Applied conn profile message time store
        (store.sendToFollowersOf (some ref) message).2
  | left {ref : ProfileRef} (hcmd : message.packet.cmd = .closeConn)
      (hprofile : profile = some ref) :
      Applied conn profile message time store (store.decSessionsOn ref conn)

/-- The loop of `sendToBackups`. -/
def forward (backups : List Conn) (packet : Packet) (store : Store) : Store :=
  backups.foldl (fun store backup => store.sendPacket backup packet) store

section Commands

variable {server after : Server} {conn : Option Conn}
  {profile : Option ProfileRef} {message : Message} {time : BitVec 64}

theorem run_sendToBackups (packet : Packet) :
    (sendToBackups packet).run server =
      (.ok (), server.onStore (forward server.listBackups packet)) := rfl

/-- A writing operation and the forwarding behind it: the handler of a command
returns when the operation does. -/
theorem run_command_eq_ok_iff {α : Type}
    {operation : Store → Except Exit α × Store} {packet : Packet}
    {result quit : Bool} :
    ((call fun controller => controller.withWrite operation) >>= fun _ =>
        sendToBackups packet >>= fun _ => (pure result : Handler Bool)).run
          server = (.ok quit, after) ↔
      server.controller.writable = true ∧ quit = result ∧
        ∃ value store, operation server.store = (.ok value, store) ∧
          after = server.onStore fun _ =>
            forward server.listBackups packet store := by
  rw [run_bind_eq_ok_iff]
  constructor
  · rintro ⟨value, middle, hcall, hforward⟩
    obtain ⟨hwritable, store, hoperation, rfl⟩ :=
      run_call_withWrite_eq_ok_iff.1 hcall
    rw [run_bind_of_ok _ (run_sendToBackups packet)] at hforward
    cases hforward
    exact ⟨hwritable, rfl, value, store, hoperation, rfl⟩
  · rintro ⟨hwritable, rfl, value, store, hoperation, rfl⟩
    refine ⟨value, server.onStore fun _ => store, ?_, ?_⟩
    · exact run_call_withWrite_eq_ok_iff.2 ⟨hwritable, store, hoperation, rfl⟩
    · rw [run_bind_of_ok _ (run_sendToBackups packet)]
      rfl

/-- `processPacket` applies the command and forwards its packet. -/
theorem applied_of_processPacket {quit : Bool}
    (hcmd : ClientCommand message.packet.cmd)
    (hprocess : (processPacket conn profile message time).run server =
      (.ok quit, after)) :
    (quit = true ↔ message.packet.cmd = .closeConn) ∧
    ∃ store, Applied conn profile message time server.store store ∧
      after = server.onStore fun _ =>
        forward server.listBackups message.packet store := by
  rcases hcmd with hcmd | hcmd | hcmd | hcmd
  · simp only [processPacket, hcmd] at hprocess
    obtain ⟨_, rfl, ref, store, hcreate, rfl⟩ :=
      run_command_eq_ok_iff.1 hprocess
    exact ⟨by simp [hcmd], store, .registered hcmd hcreate, rfl⟩
  · simp only [processPacket, hcmd] at hprocess
    obtain ⟨_, rfl, _, store, hfollow, rfl⟩ :=
      run_command_eq_ok_iff.1 hprocess
    exact ⟨by simp [hcmd], store, .followed hcmd hfollow, rfl⟩
  · simp only [processPacket, hcmd] at hprocess
    obtain ⟨_, rfl, _, store, hsend, rfl⟩ := run_command_eq_ok_iff.1 hprocess
    cases profile with
    | none => cases hsend
    | some ref =>
        cases hsend
        exact ⟨by simp [hcmd], _, .sent hcmd rfl, rfl⟩
  · cases profile with
    | none =>
        simp only [processPacket, hcmd, dereference, run_fail_bind] at hprocess
        cases hprocess
    | some ref =>
        simp only [processPacket, hcmd, dereference, run_pure_bind,
          run_modify_bind, run_bind_of_ok _ (run_sendToBackups _)] at hprocess
        cases hprocess
        exact ⟨by simp [hcmd], _, .left hcmd rfl, rfl⟩

/-- The other packets change no store. -/
theorem store_of_processPacket {quit : Bool}
    (hcmd : ¬ ClientCommand message.packet.cmd)
    (hprocess : (processPacket conn profile message time).run server =
      (.ok quit, after)) : after.store = server.store := by
  unfold ClientCommand at hcmd
  unfold processPacket at hprocess
  split at hprocess
  case h_1 hprofile => exact absurd (.inl hprofile) hcmd
  case h_2 hfollow => exact absurd (.inr (.inl hfollow)) hcmd
  case h_3 hclose => exact absurd (.inr (.inr (.inr hclose))) hcmd
  case h_4 hsend => exact absurd (.inr (.inr (.inl hsend))) hcmd
  case h_5 hlist =>
    simp only [run_modify_bind, run_pure] at hprocess
    cases hprocess
    rfl
  case h_6 =>
    cases hprocess
    rfl

/-- Forwarding only writes to the backups. -/
theorem forward_eq (backups : List Conn) (packet : Packet) (store : Store) :
    forward backups packet store =
      { store with
        outputs :=
          store.outputs ++ backups.map fun backup => .single backup packet } := by
  induction backups generalizing store with
  | nil => simp [forward]
  | cons backup backups ih =>
      refine (ih (store.sendPacket backup packet)).trans ?_
      simp [Store.sendPacket]

theorem forward_sameGraph (backups : List Conn) (packet : Packet)
    (store : Store) : SameGraph store (forward backups packet store) := by
  induction backups generalizing store with
  | nil => exact .refl store
  | cons backup backups ih =>
      exact (sendPacket_sameGraph store backup packet).trans
        (ih (store.sendPacket backup packet))

theorem forward_sameSessions (backups : List Conn) (packet : Packet)
    (store : Store) : SameSessions store (forward backups packet store) := by
  rw [forward_eq]
  exact .of_objects rfl

end Commands

/-! ## What a command does to the store -/

section Effects

variable {store after : Store} {conn : Option Conn}
  {profile : Option ProfileRef} {message : Message} {time : BitVec 64}

theorem Applied.clientCommand
    (happlied : Applied conn profile message time store after) :
    ClientCommand message.packet.cmd := by
  cases happlied with
  | registered hcmd => exact .inl hcmd
  | followed hcmd => exact .inr (.inl hcmd)
  | sent hcmd => exact .inr (.inr (.inl hcmd))
  | left hcmd => exact .inr (.inr (.inr hcmd))

theorem known_of_createProfileIfNotExists (hwf : WellFormed store)
    {profileId : ByteString} {ref : ProfileRef}
    (hcreate : store.createProfileIfNotExists profileId conn time =
      (.ok ref, after)) : Known after ref := by
  have hknown := (createProfileIfNotExists_extends hwf profileId conn time).2.2 ref
  rw [hcreate] at hknown
  exact hknown rfl

/-- The login has found its profile in the map, or put it there. -/
theorem found_of_createProfileIfNotExists {profileId : ByteString}
    {ref : ProfileRef}
    (hcreate : store.createProfileIfNotExists profileId conn time =
      (.ok ref, after)) : after.getProfileById profileId = some ref := by
  obtain ⟨found, hfind, rfl⟩ := Store.createProfileIfNotExists_ok_iff.1 hcreate
  rw [(incSessionsOn_sameGraph found ref conn).getProfileById]
  rcases Store.findOrCreate_ok _ hfind with ⟨hfound, _, rfl⟩ | ⟨_, rfl, hsame⟩
  · exact hfound
  · rw [(SameGraph.of_sameMemory hsame).getProfileById, created_getProfileById,
      if_pos rfl]

/-- The follow graph after the packet of a command. -/
def replay (graph : Graph) (packet : Packet) : Graph :=
  match packet.cmd with
  | .profile => graph.register packet.payload
  | .follow => graph.follow packet.payload packet.sender
  | _ => graph

theorem replay_ids (graph : Graph) (packet : Packet) :
    (replay graph packet).ids =
      graph.ids ∪ {profileId | packet.cmd = .profile ∧
        packet.payload = profileId} := by
  ext profileId
  unfold replay
  split
  · next hcmd => simp [Graph.register, hcmd, eq_comm]
  · next hcmd => simp [Graph.follow, hcmd]
  · next hprofile _ => simp [show packet.cmd ≠ .profile from hprofile]

theorem replay_edges (graph : Graph) (packet : Packet) :
    (replay graph packet).edges =
      graph.edges ∪ {edge | packet.cmd = .follow ∧
        edge = (packet.payload, packet.sender) ∧
        packet.payload ∈ graph.ids ∧ packet.sender ≠ packet.payload} := by
  ext edge
  unfold replay
  split
  · next hcmd => simp [Graph.register, hcmd]
  · next hcmd => simp [Graph.follow, hcmd]
  · next hfollow => simp [show packet.cmd ≠ .follow from hfollow]

/-- The profile that a command acts on is the one its packet names as its
sender. -/
def ActsForSender (store : Store) (profile : Option ProfileRef)
    (packet : Packet) : Prop :=
  ∀ ref, profile = some ref →
    Known store ref ∧ (store.objects ref).profileId = packet.sender

theorem actsForSender_lookup (hwf : WellFormed store) (packet : Packet) :
    ActsForSender store (store.getProfileById packet.sender) packet :=
  fun ref hfound => ⟨known_of_found hwf hfound, hwf.ids packet.sender ref hfound⟩

theorem Applied.graph (happlied : Applied conn profile message time store after)
    (hwf : WellFormed store)
    (hsender : message.packet.cmd = .follow →
      ActsForSender store profile message.packet) :
    WellFormed after ∧ graph after = replay (graph store) message.packet := by
  cases happlied with
  | @registered ref _ hcmd hcreate =>
      obtain ⟨found, hfind, rfl⟩ := Store.createProfileIfNotExists_ok_iff.1 hcreate
      have hsame := incSessionsOn_sameGraph found ref conn
      have hfound :=
        findOrCreate_graph hwf message.packet.payload conn time
      rw [hfind] at hfound
      rw [replay, hcmd]
      exact ⟨hsame.wellFormed hfound.1, hsame.graph_eq.trans hfound.2⟩
  | followed hcmd hfollow =>
      cases profile with
      | none => cases hfollow
      | some ref =>
          obtain ⟨hknown, hid⟩ := hsender hcmd ref rfl
          have hadded := addFollowerTo_graph hwf hknown message.packet.payload
          rw [hfollow, hid] at hadded
          rw [replay, hcmd]
          exact hadded
  | sent hcmd hprofile =>
      have hsame := sendToFollowersOf_sameGraph store profile message
      rw [replay, hcmd]
      exact hprofile ▸ ⟨hsame.wellFormed hwf, hsame.graph_eq⟩
  | @left ref hcmd hprofile =>
      have hsame := decSessionsOn_sameGraph store ref conn
      rw [replay, hcmd]
      exact ⟨hsame.wellFormed hwf, hsame.graph_eq⟩

/-- A command on a stored profile keeps the graph consistent, whoever its packet
names as the sender. -/
theorem Applied.wellFormed
    (happlied : Applied conn profile message time store after)
    (hwf : WellFormed store) (hknown : ∀ ref, profile = some ref →
      Known store ref) : WellFormed after := by
  cases happlied with
  | registered hcmd hcreate =>
      have hcreated := createProfileIfNotExists_extends hwf
        message.packet.payload conn time
      rw [hcreate] at hcreated
      exact hcreated.1
  | followed hcmd hfollow =>
      cases profile with
      | none => cases hfollow
      | some follower =>
          have hadded := addFollowerTo_graph hwf (hknown follower rfl)
            message.packet.payload
          rw [hfollow] at hadded
          exact hadded.1
  | sent hcmd hprofile =>
      exact (sendToFollowersOf_sameGraph store _ message).wellFormed hwf
  | left hcmd hprofile =>
      exact (decSessionsOn_sameGraph store _ conn).wellFormed hwf

/-- A command removes no profile and no edge. -/
theorem Applied.extends
    (happlied : Applied conn profile message time store after)
    (hwf : WellFormed store) : Extends store after := by
  cases happlied with
  | registered hcmd hcreate =>
      have hextends := createProfileIfNotExists_extends hwf
        message.packet.payload conn time
      rw [hcreate] at hextends
      exact hextends.2.1
  | followed hcmd hfollow =>
      cases profile with
      | none => cases hfollow
      | some follower =>
          have hextends :=
            @addFollowerTo_extends store message.packet.payload follower
          rw [hfollow] at hextends
          exact hextends
  | sent hcmd hprofile =>
      exact .of_sameGraph (sendToFollowersOf_sameGraph store _ message)
  | left hcmd hprofile =>
      exact .of_sameGraph (decSessionsOn_sameGraph store _ conn)

theorem Applied.known {ref : ProfileRef} (hknown : Known store ref)
    (happlied : Applied conn profile message time store after)
    (hwf : WellFormed store) : Known after ref :=
  (happlied.extends hwf).known hknown

/-- Only a login puts an id into the map. -/
theorem Applied.unknown
    (happlied : Applied conn profile message time store after)
    {profileId : ByteString}
    (hother : message.packet.cmd = .profile →
      message.packet.payload ≠ profileId)
    (hunknown : store.getProfileById profileId = none) :
    after.getProfileById profileId = none := by
  cases happlied with
  | registered hcmd hcreate =>
      obtain ⟨found, hfind, rfl⟩ :=
        Store.createProfileIfNotExists_ok_iff.1 hcreate
      rw [(incSessionsOn_sameGraph found _ conn).getProfileById]
      rcases Store.findOrCreate_ok _ hfind with ⟨_, _, rfl⟩ | ⟨_, _, hsame⟩
      · exact hunknown
      · rw [(SameGraph.of_sameMemory hsame).getProfileById,
          created_getProfileById, if_neg (hother hcmd)]
        exact hunknown
  | followed hcmd hfollow =>
      cases profile with
      | none => cases hfollow
      | some follower =>
          rcases store.addFollowerTo_cases message.packet.payload follower with
            hkeep | ⟨target, _, _, _, hpush⟩
          · rw [hkeep] at hfollow
            cases hfollow
            exact hunknown
          · have hsame := Store.toJsonFile_sameMemory
              (store.pushFollower target follower)
            rw [← hpush, hfollow] at hsame
            rw [(SameGraph.of_sameMemory hsame).getProfileById]
            exact hunknown
  | sent hcmd hprofile =>
      rw [(sendToFollowersOf_sameGraph store _ message).getProfileById]
      exact hunknown
  | left hcmd hprofile =>
      rw [(decSessionsOn_sameGraph store _ conn).getProfileById]
      exact hunknown

/-! ### Sessions -/

theorem sendToFollowersOf_sameSessions (store : Store) (ref : ProfileRef)
    (message : Message) :
    SameSessions store (store.sendToFollowersOf (some ref) message).2 := by
  change SameSessions store (List.foldl _ store (store.objects ref).followers)
  generalize (store.objects ref).followers = followers
  induction followers generalizing store with
  | nil => exact .refl store
  | cons follower followers ih =>
      exact (sendOrInsertInbox_sameSessions store follower message).trans
        (ih (store.sendOrInsertInbox follower message))

theorem sendToFollowersOf_closed (store : Store) (ref : ProfileRef)
    (message : Message) :
    (store.sendToFollowersOf (some ref) message).2.closed = store.closed := by
  change (List.foldl _ store (store.objects ref).followers).closed = _
  generalize (store.objects ref).followers = followers
  induction followers generalizing store with
  | nil => rfl
  | cons follower followers ih =>
      exact ih (store.sendOrInsertInbox follower message)

/-- A command closes no connection. -/
theorem Applied.closed
    (happlied : Applied conn profile message time store after) :
    after.closed = store.closed := by
  cases happlied with
  | registered hcmd hcreate =>
      obtain ⟨found, hfind, rfl⟩ := Store.createProfileIfNotExists_ok_iff.1 hcreate
      rcases Store.findOrCreate_ok _ hfind with ⟨_, _, rfl⟩ | ⟨_, _, hsame⟩
      · rfl
      · exact hsame.closed
  | followed hcmd hfollow =>
      have hclosed := store.addFollowerTo_closed message.packet.payload profile
      rwa [hfollow] at hclosed
  | sent hcmd hprofile => exact sendToFollowersOf_closed store _ message
  | left hcmd hprofile => rfl

/-- Every command but `PROFILE` and `CLOSE_CONN` leaves the sessions alone. -/
theorem Applied.sameSessions
    (happlied : Applied conn profile message time store after)
    (hprofile : message.packet.cmd ≠ .profile)
    (hclose : message.packet.cmd ≠ .closeConn) : SameSessions store after := by
  cases happlied with
  | registered hcmd hcreate => exact absurd hcmd hprofile
  | followed hcmd hfollow =>
      cases profile with
      | none => cases hfollow
      | some follower =>
          have hsame :=
            addFollowerTo_sameSessions store message.packet.payload follower
          rw [hfollow] at hsame
          exact hsame
  | sent hcmd hprofile => exact sendToFollowersOf_sameSessions store _ message
  | left hcmd hprofile => exact absurd hcmd hclose

theorem mem_sessions_of_findOrCreate {profileId : ByteString}
    {ref other : ProfileRef} {session : Option Conn}
    (hfind : store.findOrCreate profileId conn time = (.ok ref, after)) :
    (session ∈ (after.objects other).sessions →
      session ∈ (store.objects other).sessions) ∧
    (other < store.allocated → session ∈ (store.objects other).sessions →
      session ∈ (after.objects other).sessions) := by
  rcases Store.findOrCreate_ok _ hfind with ⟨_, _, rfl⟩ | ⟨_, _, hsame⟩
  · exact ⟨id, fun _ => id⟩
  · rw [hsame.objects, created_objects]
    constructor
    · intro hmem
      split at hmem
      · cases hmem
      · exact hmem
    · intro hlt hmem
      rw [if_neg hlt.ne]
      exact hmem

theorem mem_sessions_of_incSessionsOn {ref other : ProfileRef}
    {session : Option Conn} :
    session ∈ ((store.incSessionsOn ref conn).objects other).sessions ↔
      session ∈ (store.objects other).sessions ∨
        session = conn ∧ other = ref := by
  rw [Store.incSessionsOn_objects_sessions]
  by_cases hother : other = ref
  · simp [hother]
  · simp [hother]

theorem mem_sessions_of_decSessionsOn {ref other : ProfileRef}
    {session : Option Conn} :
    (session ∈ ((store.decSessionsOn ref conn).objects other).sessions →
      session ∈ (store.objects other).sessions) ∧
    (session ≠ conn → session ∈ (store.objects other).sessions →
      session ∈ ((store.decSessionsOn ref conn).objects other).sessions) := by
  rw [Store.decSessionsOn_objects_sessions]
  split
  · exact ⟨List.mem_of_mem_erase, fun hne => (List.mem_erase_of_ne hne).2⟩
  · exact ⟨id, fun _ => id⟩

theorem mem_sessions_of_createProfileIfNotExists {profileId : ByteString}
    {ref : ProfileRef}
    (hcreate : store.createProfileIfNotExists profileId conn time =
      (.ok ref, after)) : conn ∈ (after.objects ref).sessions := by
  obtain ⟨found, _, rfl⟩ := Store.createProfileIfNotExists_ok_iff.1 hcreate
  exact mem_sessions_of_incSessionsOn.2 (.inr ⟨rfl, rfl⟩)

/-- A command adds no session but that of its connection. -/
theorem Applied.mem_sessions_before
    (happlied : Applied conn profile message time store after)
    {session : Option Conn} (hne : session ≠ conn) {ref : ProfileRef}
    (hmem : session ∈ (after.objects ref).sessions) :
    session ∈ (store.objects ref).sessions := by
  cases happlied with
  | registered hcmd hcreate =>
      obtain ⟨found, hfind, rfl⟩ := Store.createProfileIfNotExists_ok_iff.1 hcreate
      rcases mem_sessions_of_incSessionsOn.1 hmem with hfound | ⟨heq, _⟩
      · exact (mem_sessions_of_findOrCreate hfind).1 hfound
      · exact absurd heq hne
  | followed hcmd hfollow =>
      have hsame := (followed hcmd hfollow : Applied conn profile message time
        store after).sameSessions (by simp [hcmd]) (by simp [hcmd])
      exact hsame.sessions ref ▸ hmem
  | sent hcmd hprofile =>
      exact (sendToFollowersOf_sameSessions store _ message).sessions ref ▸ hmem
  | left hcmd hprofile => exact mem_sessions_of_decSessionsOn.1 hmem

/-- A command ends no session but that of its connection, which `CLOSE_CONN`
ends. -/
theorem Applied.mem_sessions_after
    (happlied : Applied conn profile message time store after)
    {session : Option Conn}
    (hkeep : session ≠ conn ∨ message.packet.cmd ≠ .closeConn)
    {ref : ProfileRef} (hallocated : ref < store.allocated)
    (hmem : session ∈ (store.objects ref).sessions) :
    session ∈ (after.objects ref).sessions := by
  cases happlied with
  | registered hcmd hcreate =>
      obtain ⟨found, hfind, rfl⟩ := Store.createProfileIfNotExists_ok_iff.1 hcreate
      exact mem_sessions_of_incSessionsOn.2
        (.inl ((mem_sessions_of_findOrCreate hfind).2 hallocated hmem))
  | followed hcmd hfollow =>
      have hsame := (followed hcmd hfollow : Applied conn profile message time
        store after).sameSessions (by simp [hcmd]) (by simp [hcmd])
      exact (hsame.sessions ref).symm ▸ hmem
  | sent hcmd hprofile =>
      exact ((sendToFollowersOf_sameSessions store _ message).sessions
        ref).symm ▸ hmem
  | left hcmd hprofile =>
      exact mem_sessions_of_decSessionsOn.2
        (hkeep.resolve_right (absurd hcmd)) hmem

end Effects

end TwitterLike.Commands
