import Mathlib.Data.List.ReduceOption
import TwitterLike.Server.Commands

/-!
# What is forwarded, and what a backup does with it

The packets written to the connection of a backup, and the effect of one turn of
`receiveAlive` for each command that a primary forwards.
-/

namespace TwitterLike.Replication

open TwitterLike.ByteBuffer
open TwitterLike.PacketFormat
open TwitterLike.Profiles
open TwitterLike.ProfilesManager
open TwitterLike.ProfileAccessController
open TwitterLike.Handlers
open TwitterLike.Faulting
open TwitterLike.SessionAccounting
open TwitterLike.Commands

/-! ## Packets on one connection -/

/-- The packets that one call or one pass writes to the connection. -/
def writtenBy (conn : Conn) : Output → List Packet
  | .single other packet => if other = conn then [packet] else []
  | .pass _ pass =>
      (pass.conns.filter fun other => other = conn).map fun _ =>
        pass.message.packet

/-- The packets written to the connection so far, in order. -/
def writtenTo (conn : Conn) (store : Store) : List Packet :=
  store.outputs.flatMap (writtenBy conn)

section Written

variable (conn : Conn) (store : Store)

theorem writtenTo_of_outputs {after : Store}
    (houtputs : after.outputs = store.outputs) :
    writtenTo conn after = writtenTo conn store := by
  rw [writtenTo, houtputs, writtenTo]

theorem writtenTo_sendPacket (other : Conn) (packet : Packet) :
    writtenTo conn (store.sendPacket other packet) =
      writtenTo conn store ++ if other = conn then [packet] else [] := by
  simp [writtenTo, Store.sendPacket, writtenBy]

/-- Passes over other connections write nothing to this one. -/
theorem writtenTo_sendPasses (ref : ProfileRef) {passes : List Pass}
    (hapart : ∀ pass ∈ passes, conn ∉ pass.conns) :
    writtenTo conn (store.sendPasses ref passes) = writtenTo conn store := by
  have hnone : (passes.map (Output.pass ref)).flatMap (writtenBy conn) = [] := by
    rw [List.flatMap_eq_nil_iff]
    intro output houtput
    obtain ⟨pass, hpass, rfl⟩ := List.mem_map.1 houtput
    have hfilter : pass.conns.filter (fun other => other = conn) = [] := by
      rw [List.filter_eq_nil_iff]
      intro other hother
      rw [decide_eq_true_eq]
      rintro rfl
      exact hapart pass hpass hother
    rw [writtenBy, hfilter, List.map_nil]
  rw [writtenTo, Store.sendPasses_outputs, List.flatMap_append, hnone,
    List.append_nil, writtenTo]

variable {store}

theorem writtenTo_sendOrInsertInbox {ref : ProfileRef} (message : Message)
    (hapart : some conn ∉ (store.objects ref).sessions) :
    writtenTo conn (store.sendOrInsertInbox ref message) =
      writtenTo conn store := by
  rw [Store.sendOrInsertInbox, writtenTo_sendPasses]
  · rfl
  · intro pass hpass
    unfold Profile.sendOrInsertInbox at hpass
    split at hpass
    · rw [List.mem_singleton.1 hpass, List.reduceOption_mem_iff]
      exact hapart
    · cases hpass

/-- Every pass of a drained inbox goes to sessions. -/
theorem conns_subset_of_drain {sessions : List (Option Conn)} {inbox : Inbox}
    {pass : Pass} (hpass : pass ∈ (Profile.drain sessions inbox).2) :
    ∀ other ∈ pass.conns, some other ∈ sessions := by
  induction inbox with
  | nil => cases hpass
  | cons message rest ih =>
      rw [Profile.drain] at hpass
      split at hpass
      · rw [List.mem_singleton.1 hpass]
        intro other hother
        exact (List.takeWhile_sublist _).subset
          (List.reduceOption_mem_iff.1 hother)
      · rcases List.mem_cons.1 hpass with rfl | hrest
        · exact fun other hother => List.reduceOption_mem_iff.1 hother
        · exact ih hrest

theorem writtenTo_fetchInboxContent {ref : ProfileRef}
    (hapart : some conn ∉ (store.objects ref).sessions) :
    writtenTo conn (store.fetchInboxContent ref).2 = writtenTo conn store := by
  rw [Store.fetchInboxContent, writtenTo_sendPasses]
  · rfl
  · exact fun pass hpass hmem => hapart (conns_subset_of_drain hpass conn hmem)

theorem writtenTo_sendToFollowersOf {ref : ProfileRef} (message : Message)
    (hapart : ∀ ref, some conn ∉ (store.objects ref).sessions) :
    writtenTo conn (store.sendToFollowersOf (some ref) message).2 =
      writtenTo conn store := by
  change writtenTo conn (List.foldl _ store (store.objects ref).followers) = _
  generalize (store.objects ref).followers = followers
  induction followers generalizing store with
  | nil => rfl
  | cons follower followers ih =>
      have hsame := sendOrInsertInbox_sameSessions store follower message
      rw [List.foldl_cons, ih fun other => hsame.sessions other ▸ hapart other]
      exact writtenTo_sendOrInsertInbox conn message (hapart follower)

theorem writtenTo_findOrCreate_ok {profileId : ByteString}
    {session : Option Conn} {time : BitVec 64} {ref : ProfileRef} {after : Store}
    (hfind : store.findOrCreate profileId session time = (.ok ref, after)) :
    writtenTo conn after = writtenTo conn store := by
  rcases Store.findOrCreate_ok _ hfind with ⟨_, _, rfl⟩ | ⟨_, _, hsame⟩
  · rfl
  · exact writtenTo_of_outputs conn store hsame.outputs

theorem writtenTo_addFollowerTo (followed : ByteString)
    (follower : Option ProfileRef) :
    writtenTo conn (store.addFollowerTo followed follower).2 =
      writtenTo conn store := by
  cases follower with
  | none => rfl
  | some follower =>
      exact writtenTo_of_outputs conn store
        (store.addFollowerTo_outputs followed follower)

/-- Only the forwarding of a command reaches a connection without a session. -/
theorem writtenTo_of_applied {session : Option Conn}
    {profile : Option ProfileRef} {message : Message} {time : BitVec 64}
    {after : Store}
    (happlied : Applied session profile message time store after)
    (hapart : ∀ ref, some conn ∉ (store.objects ref).sessions) :
    writtenTo conn after = writtenTo conn store := by
  cases happlied with
  | registered hcmd hcreate =>
      obtain ⟨found, hfind, rfl⟩ :=
        Store.createProfileIfNotExists_ok_iff.1 hcreate
      have hfound : writtenTo conn found = writtenTo conn store :=
        writtenTo_findOrCreate_ok conn hfind
      exact (writtenTo_of_outputs conn found rfl).trans hfound
  | followed hcmd hfollow =>
      have hsame := @writtenTo_addFollowerTo conn store message.packet.payload
        profile
      rwa [hfollow] at hsame
  | sent hcmd hprofile => exact writtenTo_sendToFollowersOf conn message hapart
  | left hcmd hprofile => exact writtenTo_of_outputs conn store rfl

end Written

/-! ## One turn of `receiveAlive` -/

/-- A packet that a backup has received from its primary. -/
structure Relayed where
  message : Message
  time : BitVec 64

/-- One turn of the loop of `receiveAlive` that does not leave it. -/
def relay (backup : Server) (relayed : Relayed) : Option Server :=
  match (receiveAlive relayed.message relayed.time).run backup with
  | (.ok _, server) => some server
  | (.error _, _) => none

section Relay

variable {backup after : Server} {relayed : Relayed} {store : Store}

theorem relay_eq_some_iff : relay backup relayed = some after ↔
    (receiveAlive relayed.message relayed.time).run backup = (.ok (), after) := by
  unfold relay
  rcases (receiveAlive relayed.message relayed.time).run backup with
    ⟨exit | _, server⟩
  · simp
  · simp

theorem relay_of_processPacket (quit : Bool) (hidle : Idle backup)
    (hprocess : (processPacket none
      (backup.store.getProfileById relayed.message.packet.sender)
      relayed.message relayed.time).run backup = (.ok quit, after)) :
    relay backup relayed = some after := by
  have hlookup : (call fun controller =>
      controller.getProfileById relayed.message.packet.sender).run backup =
      (.ok (backup.store.getProfileById relayed.message.packet.sender), backup) :=
    run_call_withRead_of_idle hidle _
  rw [relay_eq_some_iff, receiveAlive, run_bind_of_ok backup hlookup,
    run_bind_of_ok backup hprocess]
  rfl

/-- A turn of `receiveAlive` is `processPacket` for the profile that the sender
of the packet names. -/
theorem processed_of_relay (hrelay : relay backup relayed = some after) :
    ∃ clientWantsToQuit,
      (processPacket none
        (backup.store.getProfileById relayed.message.packet.sender)
        relayed.message relayed.time).run backup =
          (.ok clientWantsToQuit, after) := by
  rw [relay_eq_some_iff, receiveAlive, run_bind_eq_ok_iff] at hrelay
  obtain ⟨profile, middle, hlookup, hrest⟩ := hrelay
  obtain ⟨_, rfl, rfl⟩ := run_call_withRead_eq_ok_iff.1 hlookup
  obtain ⟨clientWantsToQuit, final, hprocess, hend⟩ :=
    (run_bind_eq_ok_iff _).1 hrest
  cases hend
  exact ⟨clientWantsToQuit, hprocess⟩

/-- A turn of `receiveAlive` applies a command of a client and forwards it, or
changes no store. -/
theorem applied_of_relay (hrelay : relay backup relayed = some after) :
    (∃ store, Applied none
        (backup.store.getProfileById relayed.message.packet.sender)
        relayed.message relayed.time backup.store store ∧
      after.store =
        forward backup.listBackups relayed.message.packet store) ∨
    ¬ ClientCommand relayed.message.packet.cmd ∧
      after.store = backup.store := by
  obtain ⟨_, hprocess⟩ := processed_of_relay hrelay
  by_cases hcmd : ClientCommand relayed.message.packet.cmd
  · obtain ⟨_, store, happlied, rfl⟩ := applied_of_processPacket hcmd hprocess
    exact .inl ⟨store, happlied, rfl⟩
  · exact .inr ⟨hcmd, store_of_processPacket hcmd hprocess⟩

/-- A backup of nobody forwards nothing. -/
theorem run_sendToBackups_of_nil (hlast : backup.listBackups = [])
    (change : Store → Store) (packet : Packet) :
    (sendToBackups packet).run (backup.onStore change) =
      (.ok (), backup.onStore change) := by
  rw [sendToBackups, run_modify, Server.onStore_listBackups, hlast]
  rfl

/-- A writing operation that returns is all that a backup of nobody does for a
command. -/
theorem run_command_of_idle {α : Type} (hidle : Idle backup)
    (hlast : backup.listBackups = [])
    {operation : Store → Except Exit α × Store} {value : α}
    (hoperation : operation backup.store = (.ok value, store)) (packet : Packet)
    (result : Bool) :
    ((call fun controller => controller.withWrite operation) >>= fun _ =>
        sendToBackups packet >>= fun _ => (pure result : Handler Bool)).run
          backup = (.ok result, backup.onStore fun _ => store) := by
  apply run_command_eq_ok_iff.2
  refine ⟨writable_of_idle hidle, rfl, value, store, hoperation, ?_⟩
  rw [hlast]
  rfl

theorem relay_profile (hidle : Idle backup) (hlast : backup.listBackups = [])
    (hcmd : relayed.message.packet.cmd = .profile) {ref : ProfileRef}
    (hcreate : backup.store.createProfileIfNotExists
      relayed.message.packet.payload none relayed.time = (.ok ref, store)) :
    relay backup relayed = some (backup.onStore fun _ => store) := by
  apply relay_of_processPacket false hidle
  simp only [processPacket, hcmd]
  exact run_command_of_idle hidle hlast hcreate _ _

theorem relay_follow (hidle : Idle backup) (hlast : backup.listBackups = [])
    (hcmd : relayed.message.packet.cmd = .follow)
    (hfollow : backup.store.addFollowerTo relayed.message.packet.payload
      (backup.store.getProfileById relayed.message.packet.sender) =
        (.ok (), store)) :
    relay backup relayed = some (backup.onStore fun _ => store) := by
  apply relay_of_processPacket false hidle
  simp only [processPacket, hcmd]
  exact run_command_of_idle hidle hlast hfollow _ _

theorem relay_send (hidle : Idle backup) (hlast : backup.listBackups = [])
    (hcmd : relayed.message.packet.cmd = .send) {profile : ProfileRef}
    (hsender : backup.store.getProfileById relayed.message.packet.sender =
      some profile) :
    relay backup relayed = some (backup.onStore fun store =>
      (store.sendToFollowersOf (some profile) relayed.message).2) := by
  have hsend : backup.store.sendToFollowersOf (some profile) relayed.message =
      (.ok (), (backup.store.sendToFollowersOf (some profile)
        relayed.message).2) := rfl
  apply relay_of_processPacket false hidle
  rw [hsender]
  simp only [processPacket, hcmd]
  exact run_command_of_idle hidle hlast hsend _ _

theorem relay_closeConn (hidle : Idle backup) (hlast : backup.listBackups = [])
    (hcmd : relayed.message.packet.cmd = .closeConn) {profile : ProfileRef}
    (hsender : backup.store.getProfileById relayed.message.packet.sender =
      some profile) :
    relay backup relayed = some (backup.onStore fun store =>
      store.decSessionsOn profile none) := by
  have hforward : (sendToBackups relayed.message.packet).run
      (backup.onStore fun store => store.decSessionsOn profile none) =
      (.ok (), backup.onStore fun store => store.decSessionsOn profile none) :=
    run_sendToBackups_of_nil hlast _ _
  apply relay_of_processPacket true hidle
  rw [hsender]
  simp only [processPacket, hcmd, dereference, run_pure_bind, run_modify_bind]
  rw [run_bind_of_ok _ hforward]
  rfl

/-- A backup applies a command to the profile of the packet's sender and to a
null connection. -/
theorem relay_of_applied (hidle : Idle backup) (hlast : backup.listBackups = [])
    (happlied : Applied none
      (backup.store.getProfileById relayed.message.packet.sender)
      relayed.message relayed.time backup.store store) :
    relay backup relayed = some (backup.onStore fun _ => store) := by
  cases happlied with
  | registered hcmd hcreate => exact relay_profile hidle hlast hcmd hcreate
  | followed hcmd hfollow => exact relay_follow hidle hlast hcmd hfollow
  | sent hcmd hprofile => exact relay_send hidle hlast hcmd hprofile
  | left hcmd hprofile => exact relay_closeConn hidle hlast hcmd hprofile

theorem relay_backupPropagation (hidle : Idle backup)
    (hcmd : relayed.message.packet.cmd = .backupPropagation) :
    relay backup relayed = some { backup with
      electionServerList := getLines relayed.message.packet.payload } := by
  apply relay_of_processPacket false hidle
  simp only [processPacket, hcmd, run_modify_bind, run_pure]

end Relay

end TwitterLike.Replication
