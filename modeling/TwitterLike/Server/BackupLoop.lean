import TwitterLike.Commons.Arrivals
import TwitterLike.Core.Consumer
import TwitterLike.Server.RequestRuns

/-!
# The loop of a backup

`receiveAlive` of `server/main.cpp` with the receive in front of each turn.  The
receive throws at the end of the stream and the handler ends the thread; a
receive error is the packet of zeros, which does nothing.
-/

namespace TwitterLike.BackupLoop

open TwitterLike.ByteBuffer
open TwitterLike.JsonDump
open TwitterLike.PacketFormat
open TwitterLike.Connections
open TwitterLike.Profiles
open TwitterLike.ProfilesManager
open TwitterLike.Handlers
open TwitterLike.Faulting
open TwitterLike.FollowGraph
open TwitterLike.Commands
open TwitterLike.Replication
open TwitterLike.RequestRuns
open TwitterLike.Arrivals
open TwitterLike.Consumer
open TwitterLike.Threads (known_of_found)

/-! ## Turns -/

/-- A backup and the number of packets it has received. -/
structure Follower where
  backup : Server
  received : ℕ

def Follower.start : Follower where
  backup := Server.new
  received := 0

/-- The backup when the turn has applied the packet. -/
def Follower.applied (follower : Follower) (backup : Server) : Follower where
  backup := backup
  received := follower.received + 1

/-- The `try` block behind its receive.  A null pointer ends the process, and a
lock that is not given back is waited for. -/
def process (follower : Follower) (packet : Packet) (time : BitVec 64) :
    Turn Follower Server :=
  match (Handlers.receiveAlive ⟨follower.received, packet⟩ time).run
      follower.backup with
  | (.ok _, backup) => .again (follower.applied backup)
  | (.error .exception, backup) => .ended backup
  | (.error .threadExit, backup) => .ended backup
  | (.error .blocked, _) => .stuck
  | (.error .nullDeref, _) => .stuck

/-- One turn of the loop of `receiveAlive`, which ends in the handler of its
exceptions.  `main` waits for this thread, and there is no other. -/
def receiveAlive (freeStore : FreeStore) (follower : Follower)
    (arrival : Arrival Empty) : Turn Follower Server :=
  match Connection.receivePacket freeStore arrival.incoming.result with
  | .error (.decode .outOfBounds) => .stuck
  | .error _ => .ended follower.backup
  | .ok packet => process follower packet arrival.time

theorem receiveAlive_of_packet (freeStore : FreeStore) (follower : Follower)
    {arrival : Arrival Empty} (hincoming : arrival.incoming ≠ .endOfStream) :
    receiveAlive freeStore follower arrival =
      process follower arrival.incoming.received arrival.time := by
  rw [receiveAlive, connection_receivePacket freeStore hincoming]

theorem receiveAlive_of_endOfStream (freeStore : FreeStore)
    (follower : Follower) {arrival : Arrival Empty}
    (hend : Died .endOfStream arrival) :
    receiveAlive freeStore follower arrival = .ended follower.backup := by
  rw [receiveAlive, hend]
  rfl

/-- The packet makes the backup use a null pointer: that of the connection when
a profile is full, or that of the sender's profile. -/
def Dereferences (backup : Server) (packet : Packet) : Prop :=
  match packet.cmd with
  | .profile => Full backup.store packet.payload
  | .follow | .send | .closeConn =>
      backup.store.getProfileById packet.sender = none
  | _ => False

/-- The packet registers an id that the file cannot hold. -/
def Throws (backup : Server) (packet : Packet) : Prop :=
  packet.cmd = .profile ∧
    backup.store.getProfileById packet.payload = none ∧
      dumps packet.payload = false

/-! ## One turn -/

/-- A backup between two turns. -/
structure Sound (backup : Server) : Prop where
  idle : Idle backup
  last : backup.listBackups = []
  wellFormed : WellFormed backup.store
  dumping : ∀ profileId ref, backup.store.getProfileById profileId = some ref →
    dumps profileId = true

theorem sound_new : Sound Server.new where
  idle := ⟨rfl, rfl⟩
  last := rfl
  wellFormed := wellFormed_empty
  dumping profileId ref hfound := by
    simp [Store.getProfileById, Server.new, Store.empty,
      ProfileAccessController.Controller.new] at hfound

section Turn

variable {backup : Server} {follower : Follower} {packet : Packet}
  {message : Message} {time : BitVec 64} {store : Store} {exit : Exit}

theorem Sound.dumpable (hsound : Sound backup) :
    backup.store.toJson.dumpable = true := by
  rw [Store.dumpable_toJson_iff]
  intro profileId ref hfound
  refine ⟨hsound.dumping profileId ref hfound, fun name hname => ?_⟩
  obtain ⟨follower, hfollower, rfl⟩ := List.mem_map.1 hname
  exact hsound.dumping _ follower
    (hsound.wellFormed.followers ref follower hfollower)

theorem Sound.noDangling (hsound : Sound backup) :
    backup.store.NoDangling where
  profiles := hsound.wellFormed.allocated
  followers ref follower hfollower :=
    hsound.wellFormed.allocated _ follower
      (hsound.wellFormed.followers ref follower hfollower)

/-- A command that writes no new id that the file cannot hold. -/
theorem Sound.applied (hsound : Sound backup)
    (happlied : Applied none
      (backup.store.getProfileById message.packet.sender) message time
      backup.store store)
    (hdumps : message.packet.cmd = .profile →
      backup.store.getProfileById message.packet.payload = none →
        dumps message.packet.payload = true) :
    Sound (backup.onStore fun _ => store) where
  idle := hsound.idle
  last := hsound.last
  wellFormed := happlied.wellFormed hsound.wellFormed fun _ hfound =>
    known_of_found hsound.wellFormed hfound
  dumping profileId ref hfound := by
    cases hbefore : backup.store.getProfileById profileId with
    | some other => exact hsound.dumping profileId other hbefore
    | none =>
        by_cases hnew : message.packet.cmd = .profile ∧
            message.packet.payload = profileId
        · obtain ⟨hcmd, rfl⟩ := hnew
          exact hdumps hcmd hbefore
        · have hunknown := happlied.unknown
            (fun hcmd hpayload => hnew ⟨hcmd, hpayload⟩) hbefore
          cases hunknown.symm.trans hfound

/-- A turn in which `processPacket` does not return. -/
theorem run_receiveAlive_of_error {after : Server} (hidle : Idle backup)
    (hprocess : (processPacket none
      (backup.store.getProfileById message.packet.sender) message time).run
        backup = (.error exit, after)) :
    (Handlers.receiveAlive message time).run backup =
      (.error exit, after) := by
  have hlookup : (call fun controller =>
      controller.getProfileById message.packet.sender).run backup =
      (.ok (backup.store.getProfileById message.packet.sender), backup) :=
    run_call_withRead_of_idle hidle _
  rw [Handlers.receiveAlive, run_bind_of_ok backup hlookup]
  exact run_bind_of_error backup hprocess _

/-- A command whose operation of the store does not return. -/
theorem run_command_of_error {α : Type} (hidle : Idle backup)
    {operation : Store → Except Exit α × Store}
    (hoperation : operation backup.store = (.error exit, store))
    (next : α → Handler Bool) :
    ∃ after, ((call fun controller => controller.withWrite operation) >>=
      next).run backup = (.error exit, after) := by
  have hcall := (@run_call_withWrite_eq_error_iff _ backup _ operation exit).2
    (.inr ⟨writable_of_idle hidle, store, hoperation, rfl⟩)
  exact ⟨_, run_bind_of_error backup hcall next⟩

theorem process_of_relay {after : Server}
    (hrelay : relay follower.backup ⟨⟨follower.received, packet⟩, time⟩ =
      some after) :
    process follower packet time = .again (follower.applied after) := by
  rw [process, relay_eq_some_iff.1 hrelay]

theorem process_of_nullDeref {after : Server}
    (hrun : (Handlers.receiveAlive ⟨follower.received, packet⟩ time).run
      follower.backup = (.error .nullDeref, after)) :
    process follower packet time = .stuck := by
  rw [process, hrun]

theorem process_of_exception {after : Server}
    (hrun : (Handlers.receiveAlive ⟨follower.received, packet⟩ time).run
      follower.backup = (.error .exception, after)) :
    process follower packet time = .ended after := by
  rw [process, hrun]

end Turn

/-- What one turn does with a packet: it uses a null pointer, or throws, or goes
round and leaves a sound backup. -/
inductive Turned (follower : Follower) (packet : Packet) :
    Turn Follower Server → Prop where
  | dereferences (hnull : Dereferences follower.backup packet) :
      Turned follower packet .stuck
  | throws {after : Server} (hthrows : Throws follower.backup packet) :
      Turned follower packet (.ended after)
  | applied {after : Server} (hnull : ¬ Dereferences follower.backup packet)
      (hthrows : ¬ Throws follower.backup packet) (hsound : Sound after) :
      Turned follower packet (.again (follower.applied after))

section Turned

variable {follower : Follower} {packet : Packet} {time : BitVec 64}

/-- A turn that applies a command. -/
theorem turned_of_applied (hsound : Sound follower.backup) {store : Store}
    (hnull : ¬ Dereferences follower.backup packet)
    (hthrows : ¬ Throws follower.backup packet)
    (happlied : Applied none
      (follower.backup.store.getProfileById packet.sender)
      ⟨follower.received, packet⟩ time follower.backup.store store) :
    Turned follower packet (process follower packet time) := by
  have hrelay := @relay_of_applied follower.backup
    ⟨⟨follower.received, packet⟩, time⟩ store hsound.idle hsound.last happlied
  rw [process_of_relay hrelay]
  apply Turned.applied hnull hthrows
  apply @Sound.applied _ ⟨follower.received, packet⟩ _ _ hsound happlied
  intro hcmd hunknown
  exact Bool.eq_true_of_not_eq_false fun hfalse =>
    hthrows ⟨hcmd, hunknown, hfalse⟩

theorem turned_of_nullDeref (hsound : Sound follower.backup)
    (hnull : Dereferences follower.backup packet) {after : Server}
    (hprocess : (processPacket none
      (follower.backup.store.getProfileById packet.sender)
      ⟨follower.received, packet⟩ time).run follower.backup =
        (.error .nullDeref, after)) :
    Turned follower packet (process follower packet time) := by
  have hrun := @run_receiveAlive_of_error follower.backup
    ⟨follower.received, packet⟩ time .nullDeref after hsound.idle hprocess
  rw [process_of_nullDeref hrun]
  exact .dereferences hnull

theorem turned_of_exception (hsound : Sound follower.backup)
    (hthrows : Throws follower.backup packet) {after : Server}
    (hprocess : (processPacket none
      (follower.backup.store.getProfileById packet.sender)
      ⟨follower.received, packet⟩ time).run follower.backup =
        (.error .exception, after)) :
    Turned follower packet (process follower packet time) := by
  have hrun := @run_receiveAlive_of_error follower.backup
    ⟨follower.received, packet⟩ time .exception after hsound.idle hprocess
  rw [process_of_exception hrun]
  exact .throws hthrows

/-- Registering an id ends in one of three ways. -/
theorem turned_of_profile (hsound : Sound follower.backup)
    (hcmd : packet.cmd = .profile) :
    Turned follower packet (process follower packet time) := by
  let store := follower.backup.store
  have hnull_iff : Dereferences follower.backup packet ↔
      Full store packet.payload := by
    rw [Dereferences, hcmd]
  have hcommand {exit : Exit} {failed : Store}
      (hcreate : store.createProfileIfNotExists packet.payload none time =
        (.error exit, failed)) :
      ∃ after, (processPacket none (store.getProfileById packet.sender)
        ⟨follower.received, packet⟩ time).run follower.backup =
          (.error exit, after) := by
    simp only [processPacket, hcmd]
    exact run_command_of_error hsound.idle hcreate _
  cases hfound : store.getProfileById packet.payload with
  | none =>
      have hnull : ¬ Dereferences follower.backup packet := by
        rw [hnull_iff]
        rintro ⟨ref, hother, _⟩
        cases hfound.symm.trans hother
      have hfind := Store.findOrCreate_of_unknown store hfound none time
      have hdump := Store.dumpable_created_iff hsound.noDangling hfound
      cases hdumps : dumps packet.payload with
      | true =>
          have hwritten := Store.toJsonFile_of_dumpable
            (store.created packet.payload) (hdump.2 ⟨hsound.dumpable, hdumps⟩)
          rw [hwritten] at hfind
          have hthrows : ¬ Throws follower.backup packet := by
            rintro ⟨_, _, hfalse⟩
            cases hdumps.symm.trans hfalse
          exact turned_of_applied hsound hnull hthrows
            (.registered hcmd (Store.createProfileIfNotExists_ok_iff.2
              ⟨_, hfind, rfl⟩))
      | false =>
          have hwritten := Store.toJsonFile_of_not_dumpable
            (store.created packet.payload) fun hdumpable => by
              cases hdumps.symm.trans (hdump.1 hdumpable).2
          rw [hwritten] at hfind
          have hcreate : store.createProfileIfNotExists packet.payload none
              time =
              (.error .exception,
                (store.created packet.payload).toJsonFile.2) := by
            rw [Store.createProfileIfNotExists, hfind]
            rfl
          obtain ⟨after, hprocess⟩ := hcommand hcreate
          exact turned_of_exception hsound ⟨hcmd, hfound, hdumps⟩ hprocess
  | some ref =>
      have hthrows : ¬ Throws follower.backup packet := by
        rintro ⟨_, hunknown, _⟩
        cases hfound.symm.trans hunknown
      by_cases hfull : (store.objects ref).sessionsOn = maxSessions
      · have hcreate : store.createProfileIfNotExists packet.payload none time =
            (.error .nullDeref, store) := by
          rw [Store.createProfileIfNotExists,
            Store.findOrCreate_of_full _ hfound hfull]
          rfl
        obtain ⟨after, hprocess⟩ := hcommand hcreate
        exact turned_of_nullDeref hsound
          (hnull_iff.2 ⟨ref, hfound, hfull⟩) hprocess
      · have hnull : ¬ Dereferences follower.backup packet := by
          rw [hnull_iff]
          rintro ⟨other, hother, hsessions⟩
          cases hfound.symm.trans hother
          exact hfull hsessions
        exact turned_of_applied hsound hnull hthrows
          (.registered hcmd (Store.createProfileIfNotExists_ok_iff.2
            ⟨store, Store.findOrCreate_of_room _ hfound hfull none time, rfl⟩))

/-- The file holds what a stored profile follows. -/
theorem addFollowerTo_ok {backup : Server} (hsound : Sound backup)
    (followed : ByteString) {profileId : ByteString} {ref : ProfileRef}
    (hfound : backup.store.getProfileById profileId = some ref) :
    ∃ store, backup.store.addFollowerTo followed (some ref) =
      (.ok (), store) := by
  rcases backup.store.addFollowerTo_cases followed ref with
    hkeep | ⟨target, htarget, _, _, hpush⟩
  · exact ⟨backup.store, hkeep⟩
  · have hid := hsound.wellFormed.ids profileId ref hfound
    have hdumpable := (Store.dumpable_pushFollower_iff htarget ref).2
      ⟨hsound.dumpable, hid ▸ hsound.dumping profileId ref hfound⟩
    refine ⟨((backup.store.pushFollower target ref).toJsonFile).2, ?_⟩
    rw [hpush, Prod.ext_iff]
    exact ⟨Store.toJsonFile_of_dumpable _ hdumpable, rfl⟩

/-- The commands that need the profile of their sender. -/
theorem turned_of_sender (hsound : Sound follower.backup)
    (hcmd : packet.cmd = .follow ∨ packet.cmd = .send ∨
      packet.cmd = .closeConn) :
    Turned follower packet (process follower packet time) := by
  let store := follower.backup.store
  have hnull_iff : Dereferences follower.backup packet ↔
      store.getProfileById packet.sender = none := by
    rcases hcmd with hcmd | hcmd | hcmd
    · rw [Dereferences, hcmd]
    · rw [Dereferences, hcmd]
    · rw [Dereferences, hcmd]
  have hthrows : ¬ Throws follower.backup packet := by
    rintro ⟨hprofile, _⟩
    simp [hprofile] at hcmd
  cases hsender : store.getProfileById packet.sender with
  | none =>
      suffices ∃ after, (processPacket none none
          ⟨follower.received, packet⟩ time).run follower.backup =
            (.error .nullDeref, after) by
        obtain ⟨after, hprocess⟩ := this
        have hlookup : follower.backup.store.getProfileById packet.sender =
            none := hsender
        refine @turned_of_nullDeref _ _ _ hsound (hnull_iff.2 hsender) after ?_
        rw [hlookup]
        exact hprocess
      rcases hcmd with hcmd | hcmd | hcmd
      · have hfollow : store.addFollowerTo packet.payload none =
            (.error .nullDeref, store) := rfl
        simp only [processPacket, hcmd]
        exact run_command_of_error hsound.idle hfollow _
      · have hsend : store.sendToFollowersOf none
            ⟨follower.received, packet⟩ = (.error .nullDeref, store) := rfl
        simp only [processPacket, hcmd]
        exact run_command_of_error hsound.idle hsend _
      · refine ⟨follower.backup, ?_⟩
        simp only [processPacket, hcmd, dereference, run_fail_bind]
  | some ref =>
      have hnull : ¬ Dereferences follower.backup packet := by
        rw [hnull_iff]
        intro hunknown
        cases hsender.symm.trans hunknown
      rcases hcmd with hcmd | hcmd | hcmd
      · obtain ⟨after, hfollow⟩ :=
          addFollowerTo_ok hsound packet.payload hsender
        rw [← hsender] at hfollow
        exact turned_of_applied hsound hnull hthrows (.followed hcmd hfollow)
      · exact turned_of_applied hsound hnull hthrows (.sent hcmd hsender)
      · exact turned_of_applied hsound hnull hthrows (.left hcmd hsender)

theorem turned_of_other (hsound : Sound follower.backup)
    (hcmd : ¬ ClientCommand packet.cmd) :
    Turned follower packet (process follower packet time) := by
  obtain ⟨list, hprocess⟩ := @run_processPacket_of_other follower.backup
    ⟨follower.received, packet⟩ time
    (follower.backup.store.getProfileById packet.sender) none hcmd
  have hrelay := @relay_of_processPacket follower.backup _
    ⟨⟨follower.received, packet⟩, time⟩ false hsound.idle hprocess
  rw [process_of_relay hrelay]
  apply Turned.applied
  case hnull =>
    intro hnull
    unfold Dereferences at hnull
    unfold ClientCommand at hcmd
    split at hnull <;> simp_all
  case hthrows => exact fun hthrows => hcmd (.inl hthrows.1)
  case hsound =>
    exact ⟨hsound.idle, hsound.last, hsound.wellFormed, hsound.dumping⟩

/-- A turn of a sound backup does one of three things. -/
theorem turned_process (hsound : Sound follower.backup) (packet : Packet)
    (time : BitVec 64) :
    Turned follower packet (process follower packet time) := by
  by_cases hclient : ClientCommand packet.cmd
  · rcases hclient with hcmd | hcmd | hcmd | hcmd
    · exact turned_of_profile hsound hcmd
    · exact turned_of_sender hsound (.inl hcmd)
    · exact turned_of_sender hsound (.inr (.inl hcmd))
    · exact turned_of_sender hsound (.inr (.inr hcmd))
  · exact turned_of_other hsound hclient

theorem Turned.stuck_iff {turn : Turn Follower Server}
    (hturned : Turned follower packet turn) :
    turn = .stuck ↔ Dereferences follower.backup packet := by
  cases hturned with
  | dereferences hnull => exact iff_of_true rfl hnull
  | throws hthrows =>
      refine iff_of_false nofun fun hnull => ?_
      rw [Dereferences, hthrows.1] at hnull
      obtain ⟨ref, hfound, _⟩ := hnull
      cases hthrows.2.1.symm.trans hfound
  | applied hnull hthrows hsound => exact iff_of_false nofun hnull

theorem Turned.endsWell_iff {turn : Turn Follower Server}
    (hturned : Turned follower packet turn) :
    EndsWell (fun _ => True) turn ↔ Throws follower.backup packet := by
  cases hturned with
  | dereferences hnull =>
      refine iff_of_false ?_ fun hthrows => ?_
      · rintro ⟨_, hended, _⟩
        cases hended
      · rw [Dereferences, hthrows.1] at hnull
        obtain ⟨ref, hfound, _⟩ := hnull
        cases hthrows.2.1.symm.trans hfound
  | throws hthrows => exact iff_of_true ⟨_, rfl, trivial⟩ hthrows
  | applied hnull hthrows hsound =>
      refine iff_of_false ?_ hthrows
      rintro ⟨_, hended, _⟩
      cases hended

end Turned

/-! ## Runs of the loop -/

section Runs

variable (freeStore : FreeStore)

theorem keeps_sound :
    Keeps (receiveAlive freeStore) (fun follower => Sound follower.backup)
      fun arrival => arrival.incoming ≠ .endOfStream := by
  intro follower next arrival hsound hincoming hagain
  have hturned := turned_process hsound arrival.incoming.received arrival.time
  rw [receiveAlive_of_packet freeStore follower hincoming] at hagain
  rw [hagain] at hturned
  cases hturned with
  | applied hnull hthrows hsound => exact hsound

/-- At the end of the stream the backup's loop ends, unless a packet before it
has used a null pointer. -/
theorem receiveAlive_terminates_iff_of_endOfStream (sent : List (Sent Empty)) :
    Terminates (receiveAlive freeStore) (Died .endOfStream) (fun _ => True)
        Follower.start (sent.map Sent.arrival) ↔
      ¬ Reaches (receiveAlive freeStore)
        (fun follower arrival =>
          Dereferences follower.backup arrival.incoming.received)
        Follower.start (sent.map Sent.arrival) := by
  apply (keeps_sound freeStore).terminates_iff_not_reaches _
    (exists_died .endOfStream)
  case hends =>
    exact fun follower arrival hend =>
      ⟨_, receiveAlive_of_endOfStream freeStore follower hend⟩
  case hstart => exact sound_new
  case haccepted => exact fun _ hmem => incoming_ne_of_mem hmem
  intro follower arrival hsound hincoming
  rw [receiveAlive_of_packet freeStore follower hincoming]
  exact (turned_process hsound _ _).stuck_iff

/-- After a receive error the backup's loop goes on for ever, unless a packet
before it has thrown. -/
theorem receiveAlive_terminates_iff_of_error (sent : List (Sent Empty)) :
    Terminates (receiveAlive freeStore) (Died .error) (fun _ => True)
        Follower.start (sent.map Sent.arrival) ↔
      Reaches (receiveAlive freeStore)
        (fun follower arrival =>
          Throws follower.backup arrival.incoming.received)
        Follower.start (sent.map Sent.arrival) := by
  apply (keeps_sound freeStore).terminates_iff_reaches _ (exists_died .error)
  case hdead =>
    intro arrival hdied
    rw [hdied]
    exact nofun
  case hspins =>
    rintro follower arrival hdied ⟨hcmd, _⟩
    rw [received_of_died hdied] at hcmd
    cases hcmd
  case hstart => exact sound_new
  case haccepted => exact fun _ hmem => incoming_ne_of_mem hmem
  intro follower arrival hsound hincoming
  rw [receiveAlive_of_packet freeStore follower hincoming]
  exact (turned_process hsound _ _).endsWell_iff

end Runs

end TwitterLike.BackupLoop
