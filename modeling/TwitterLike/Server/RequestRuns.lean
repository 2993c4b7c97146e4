import TwitterLike.Server.BackupSimulation

/-!
# Requests of any kind, one at a time

A request is handled until its thread waits again or has ended.  A login to a
full profile ends its thread inside `createProfileIfNotExists`, with the lock
held, and then only requests that need no lock are still handled.
-/

namespace TwitterLike.RequestRuns

open TwitterLike.ByteBuffer
open TwitterLike.PacketFormat
open TwitterLike.Profiles
open TwitterLike.ProfilesManager
open TwitterLike.ProfileAccessController
open TwitterLike.Handlers
open TwitterLike.Faulting
open TwitterLike.FollowGraph
open TwitterLike.Transition
open TwitterLike.SessionAccounting
open TwitterLike.Commands
open TwitterLike.Replication
open TwitterLike.Mirror
open TwitterLike.BackupSimulation

/-- A request whose thread ends inside its handler. -/
def refuse (primary : Primary) (request : Request) : Option Primary :=
  let message : Message := ⟨primary.received, request.packet⟩
  match primary.sessions request.conn with
  | .finished => none
  | .fresh =>
      match (login request.conn message request.time).run primary.server with
      | (.error .threadExit, server) =>
          some (primary.answered request.conn server .finished)
      | _ => none
  | .loggedIn profile =>
      match (serve request.conn profile message request.time).run
          primary.server with
      | (.error .threadExit, server) =>
          some (primary.answered request.conn server .finished)
      | _ => none

/-- A request handled until its thread waits again or has ended; `none` when the
handler waits for the lock or the process dies. -/
def attend (primary : Primary) (request : Request) : Option Primary :=
  (handle primary request).or (refuse primary request)

/-! ## Handlers that end otherwise than by returning -/

section Exits

variable {server after : Server} {conn : Conn} {profile : ProfileRef}
  {message : Message} {time : BitVec 64}

theorem drain_exit (sessions : List (Option Conn)) (inbox : Inbox) :
    (Profile.drain sessions inbox).1 ≠ .error .threadExit := by
  induction inbox with
  | nil => simp [Profile.drain]
  | cons message rest ih =>
      rw [Profile.drain]
      split
      · simp
      · exact ih

/-- The server that a refused login leaves behind. -/
def refusedServer (server : Server) (conn : Conn) (time : BitVec 64) : Server :=
  { server with
    controller :=
      { server.controller.requestWrite with
        store := (server.store.refuse (some conn) time).2 } }

/-- The profile has as many sessions as it may. -/
def Full (store : Store) (profileId : ByteString) : Prop :=
  ∃ ref, store.getProfileById profileId = some ref ∧
    (store.objects ref).sessionsOn = maxSessions

theorem refused_of_createProfileIfNotExists {profileId : ByteString}
    (hcreate : (call fun controller =>
      controller.createProfileIfNotExists profileId (some conn) time).run
        server = (.error .threadExit, after)) :
    Full server.store profileId ∧ after = refusedServer server conn time := by
  rcases run_call_withWrite_eq_error_iff.1 hcreate with
    ⟨_, hexit, _⟩ | ⟨_, store, hexit, rfl⟩
  · cases hexit
  · rw [Store.createProfileIfNotExists] at hexit
    rcases hfind : server.store.findOrCreate profileId (some conn) time with
      ⟨exit | ref, found⟩
    · rw [hfind] at hexit
      cases hexit
      rcases Store.findOrCreate_error _ hfind with
        ⟨_, hfull, rfl⟩ | ⟨hexception, _⟩
      · exact ⟨hfull, rfl⟩
      · cases hexception
    · rw [hfind] at hexit
      cases hexit

theorem refused_of_receiveProfileCmd
    (hreceive : (receiveProfileCmd conn message time).run server =
      (.error .threadExit, after)) :
    message.packet.cmd = .profile ∧ Full server.store message.packet.payload ∧
      after = refusedServer server conn time := by
  unfold receiveProfileCmd at hreceive
  split at hreceive
  case h_1 =>
    simp only [registerBackup, run_bind_eq_error_iff, run_modify, run_read,
      run_sendToBackups, run_pure] at hreceive
    simp at hreceive
  case h_2 hcmd =>
    rcases (run_bind_eq_error_iff _).1 hreceive with
      hcreate | ⟨_, _, _, hrest⟩
    · obtain ⟨hfull, hafter⟩ := refused_of_createProfileIfNotExists hcreate
      exact ⟨hcmd, hfull, hafter⟩
    · simp only [run_bind_of_ok _ (run_sendToBackups _), run_pure] at hrest
      cases hrest
  case h_3 =>
    rcases (run_bind_eq_error_iff _).1 hreceive with
      hlookup | ⟨found, _, _, hrest⟩
    · cases blocked_of_run_call_withRead hlookup
    · cases found with
      | none => cases hrest
      | some ref => cases hrest

theorem refused_of_login
    (hlogin : (login conn message time).run server =
      (.error .threadExit, after)) :
    message.packet.cmd = .profile ∧ Full server.store message.packet.payload ∧
      after = refusedServer server conn time := by
  rcases (run_bind_eq_error_iff _).1 hlogin with hreceive | ⟨found, middle, _, hrest⟩
  · exact refused_of_receiveProfileCmd hreceive
  · cases found with
    | none => cases hrest
    | some ref =>
        simp only [run_read_bind, sendPacket, run_modify_bind] at hrest
        rcases (run_bind_eq_error_iff _).1 hrest with hfetch | ⟨_, _, _, hend⟩
        · exact absurd (Prod.mk.inj hfetch).1 (drain_exit _ _)
        · cases hend

theorem refused_of_processPacket
    (hprocess : (processPacket (some conn) (some profile) message time).run
      server = (.error .threadExit, after)) :
    message.packet.cmd = .profile ∧ Full server.store message.packet.payload ∧
      after = refusedServer server conn time := by
  unfold processPacket at hprocess
  split at hprocess
  case h_1 hcmd =>
    rcases (run_bind_eq_error_iff _).1 hprocess with
      hcreate | ⟨_, _, _, hrest⟩
    · obtain ⟨hfull, hafter⟩ := refused_of_createProfileIfNotExists hcreate
      exact ⟨hcmd, hfull, hafter⟩
    · simp only [run_bind_of_ok _ (run_sendToBackups _), run_pure] at hrest
      cases hrest
  case h_2 =>
    rcases (run_bind_eq_error_iff _).1 hprocess with
      hfollow | ⟨_, _, _, hrest⟩
    · rcases run_call_withWrite_eq_error_iff.1 hfollow with
        ⟨_, hexit, _⟩ | ⟨_, store, hexit, _⟩
      · cases hexit
      · cases Threads.addFollowerTo_exit hexit
    · simp only [run_bind_of_ok _ (run_sendToBackups _), run_pure] at hrest
      cases hrest
  case h_3 =>
    simp only [dereference, run_pure_bind, run_modify_bind,
      run_bind_of_ok _ (run_sendToBackups _), run_pure] at hprocess
    cases hprocess
  case h_4 =>
    rcases (run_bind_eq_error_iff _).1 hprocess with
      hsend | ⟨_, _, _, hrest⟩
    · rcases run_call_withWrite_eq_error_iff.1 hsend with
        ⟨_, hexit, _⟩ | ⟨_, store, hexit, _⟩
      · cases hexit
      · cases hexit
    · simp only [run_bind_of_ok _ (run_sendToBackups _), run_pure] at hrest
      cases hrest
  case h_5 => cases hprocess
  case h_6 => cases hprocess

theorem refused_of_serve
    (hserve : (serve conn profile message time).run server =
      (.error .threadExit, after)) :
    message.packet.cmd = .profile ∧ Full server.store message.packet.payload ∧
      after = refusedServer server conn time := by
  rcases (run_bind_eq_error_iff _).1 hserve with
    hprocess | ⟨quit, middle, _, hrest⟩
  · exact refused_of_processPacket hprocess
  · simp only [run_read_bind] at hrest
    split at hrest
    · cases hrest
    · cases hrest

end Exits

/-! ## A refused login -/

structure Refused (primary : Primary) (request : Request) (next : Primary) :
    Prop where
  running : primary.sessions request.conn ≠ .finished
  cmd : request.packet.cmd = .profile
  full : Full primary.server.store request.packet.payload
  left : next = primary.answered request.conn
    (refusedServer primary.server request.conn request.time) .finished

section Attend

variable {primary next : Primary} {request : Request}

theorem refused_of_refuse (hrefuse : refuse primary request = some next) :
    Refused primary request next := by
  unfold refuse at hrefuse
  dsimp only at hrefuse
  split at hrefuse
  · cases hrefuse
  · next hsession =>
      split at hrefuse
      · next hlogin =>
          obtain ⟨hcmd, hfull, rfl⟩ := refused_of_login hlogin
          cases hrefuse
          exact ⟨by simp [hsession], hcmd, hfull, rfl⟩
      · cases hrefuse
  · next hsession =>
      split at hrefuse
      · next hserve =>
          obtain ⟨hcmd, hfull, rfl⟩ := refused_of_serve hserve
          cases hrefuse
          exact ⟨by simp [hsession], hcmd, hfull, rfl⟩
      · cases hrefuse

theorem answered_or_refused (hforwards : Forwards primary request)
    (hattend : attend primary request = some next) :
    Answered primary request next ∨ Refused primary request next := by
  rcases Option.or_eq_some_iff.1 hattend with hhandle | ⟨_, hrefuse⟩
  · exact .inl (answered_of_handle hforwards hhandle)
  · exact .inr (refused_of_refuse hrefuse)

theorem Mirroring.forwarded_refused {backupConn : Conn} {backup : Server}
    (hmirroring : Mirroring backupConn primary backup)
    (hrefused : Refused primary request next) :
    forwarded backupConn next = forwarded backupConn primary := by
  have hne : request.conn ≠ backupConn := by
    intro heq
    exact hrefused.running (heq ▸ hmirroring.attached)
  have hwritten := writtenTo_sendPacket backupConn primary.server.store
    request.conn (new .closeConn [] [] request.time)
  rw [if_neg hne, List.append_nil] at hwritten
  rw [hrefused.left]
  exact hwritten

/-- A refused login forwards nothing and touches no profile. -/
theorem Mirroring.refused {backupConn : Conn} {backup : Server}
    (hmirroring : Mirroring backupConn primary backup)
    (hrefused : Refused primary request next) :
    Tracks relay (forwarded backupConn) (fun relayed => relayed.message.packet)
      (Mirroring backupConn) primary next backup := by
  have hlog := Mirroring.forwarded_refused hmirroring hrefused
  have hne : request.conn ≠ backupConn := by
    intro heq
    exact hrefused.running (heq ▸ hmirroring.attached)
  refine ⟨[], hlog.trans (List.append_nil _).symm, fun inputs hinputs => ?_⟩
  rw [List.map_eq_nil_iff] at hinputs
  subst hinputs
  rw [hrefused.left]
  refine ⟨backup, exec_nil backup, ?_⟩
  constructor
  case mirrors =>
    exact ⟨hmirroring.mirrors.profiles, hmirroring.mirrors.allocated,
      hmirroring.mirrors.objects⟩
  case wellFormed =>
    exact (refuse_sameGraph primary.server.store (some request.conn)
      request.time).wellFormed hmirroring.wellFormed
  case idle => exact hmirroring.idle
  case last => exact hmirroring.last
  case backups => exact hmirroring.backups
  case attached =>
    exact (Function.update_of_ne hne.symm _ _).trans hmirroring.attached
  case apart => exact hmirroring.apart
  case loggedIn =>
    intro conn ref hconn
    by_cases hself : conn = request.conn
    · rw [hself] at hconn
      cases (Function.update_self ..).symm.trans hconn
    · exact hmirroring.loggedIn conn ref
        ((Function.update_of_ne hself ..).symm.trans hconn)

/-- A request of a client takes the backup along, also when it is refused. -/
theorem Mirroring.attend {backupConn : Conn} {backup : Server}
    (hmirroring : Mirroring backupConn primary backup)
    (hrequest : ClientRequest primary request)
    (hattend : attend primary request = some next) :
    Tracks relay (forwarded backupConn) (fun relayed => relayed.message.packet)
      (Mirroring backupConn) primary next backup := by
  rcases answered_or_refused hrequest.forwards hattend with
    hanswered | hrefused
  · exact hmirroring.step hrequest hanswered
  · exact Mirroring.refused hmirroring hrefused

end Attend

/-! ## What else a request can do -/

section Attended

/-- The server behind the `SET_BACKUP` of a connection. -/
def joinedServer (server : Server) (conn : Conn) (address : ByteString)
    (time : BitVec 64) : Server :=
  { server with
    listBackups := server.listBackups ++ [conn]
    electionServerList := server.electionServerList ++ [address] }.onStore
      (forward (server.listBackups ++ [conn])
        (new .backupPropagation
          (serverListToString (server.electionServerList ++ [address])) [] time))

/-- What a request of any kind does when its handler comes to its end. -/
inductive Attended (primary : Primary) (request : Request) : Primary → Prop where
  | answered {next : Primary} (hanswered : Answered primary request next) :
      Attended primary request next
  | refused {next : Primary} (hrefused : Refused primary request next) :
      Attended primary request next
  | joined (hsession : primary.sessions request.conn = .fresh)
      (hcmd : request.packet.cmd = .setBackup) :
      Attended primary request (primary.answered request.conn
        (joinedServer primary.server request.conn request.packet.payload
          request.time) .finished)
  | reconnected {ref : ProfileRef} {greeting : Packet}
      (hsession : primary.sessions request.conn = .fresh)
      (hfound : primary.server.store.getProfileById request.packet.sender =
        some ref) :
      Attended primary request (primary.answered request.conn
        (primary.server.onStore fun store =>
          (((store.updateSessionsOn ref (some request.conn)).sendPacket
            request.conn greeting).fetchInboxContent ref).2)
        (.loggedIn ref))
  | passed {ref : ProfileRef} {electionServerList : List ByteString}
      (hsession : primary.sessions request.conn = .loggedIn ref) :
      Attended primary request (primary.answered request.conn
        { primary.server with electionServerList := electionServerList }
        (.loggedIn ref))
  | dropped {ref : ProfileRef} {electionServerList : List ByteString}
      (hsession : primary.sessions request.conn = .loggedIn ref) :
      Attended primary request (primary.answered request.conn
        ({ primary.server with
          electionServerList := electionServerList }.onStore fun store =>
            store.closeConn request.conn)
        .finished)

variable {primary next : Primary} {request : Request} {server after : Server}
  {conn : Conn} {message : Message} {time : BitVec 64}

theorem run_login_of_setBackup (hcmd : message.packet.cmd = .setBackup) :
    (login conn message time).run server =
      (.ok none, joinedServer server conn message.packet.payload time) := by
  simp only [login, receiveProfileCmd, hcmd]
  rfl

theorem attend_of_setBackup (hfresh : primary.sessions request.conn = .fresh)
    (hcmd : request.packet.cmd = .setBackup) :
    attend primary request = some (primary.answered request.conn
      (joinedServer primary.server request.conn request.packet.payload
        request.time)
      .finished) := by
  have hhandle : handle primary request = some (primary.answered request.conn
      (joinedServer primary.server request.conn request.packet.payload
        request.time)
      .finished) := by
    have hlogin := @run_login_of_setBackup primary.server request.conn
      ⟨primary.received, request.packet⟩ request.time hcmd
    simp only [handle, hfresh, hlogin]
  rw [attend, hhandle]
  rfl

theorem reconnected_of_login (hprofile : message.packet.cmd ≠ .profile)
    (hbackup : message.packet.cmd ≠ .setBackup) {profile : Option ProfileRef}
    (hlogin : (login conn message time).run server = (.ok profile, after)) :
    ∃ ref greeting, profile = some ref ∧
      server.store.getProfileById message.packet.sender = some ref ∧
      after = server.onStore fun store =>
        (((store.updateSessionsOn ref (some conn)).sendPacket conn
          greeting).fetchInboxContent ref).2 := by
  obtain ⟨found, middle, hreceive, hrest⟩ := (run_bind_eq_ok_iff _).1 hlogin
  have hfound : ∃ ref, found = some ref ∧
      server.store.getProfileById message.packet.sender = some ref ∧
      middle = server.onStore fun store =>
        store.updateSessionsOn ref (some conn) := by
    unfold receiveProfileCmd at hreceive
    split at hreceive
    case h_1 hcmd => exact absurd hcmd hbackup
    case h_2 hcmd => exact absurd hcmd hprofile
    case h_3 =>
      obtain ⟨looked, same, hlookup, hupdate⟩ :=
        (run_bind_eq_ok_iff _).1 hreceive
      obtain ⟨_, rfl, rfl⟩ := run_call_withRead_eq_ok_iff.1 hlookup
      cases hknown : same.store.getProfileById message.packet.sender with
      | none =>
          rw [hknown] at hupdate
          cases hupdate
      | some ref =>
          rw [hknown] at hupdate
          cases hupdate
          exact ⟨ref, rfl, rfl, rfl⟩
  obtain ⟨ref, rfl, hknown, rfl⟩ := hfound
  simp only [run_read_bind, sendPacket, run_modify_bind] at hrest
  obtain ⟨_, _, hfetch, hend⟩ := (run_bind_eq_ok_iff _).1 hrest
  cases hend
  exact ⟨ref, _, rfl, hknown, (Prod.mk.inj hfetch).2.symm⟩

/-- The other packets change at most the list of servers. -/
theorem run_processPacket_of_other {profile : Option ProfileRef}
    {session : Option Conn} (hcmd : ¬ ClientCommand message.packet.cmd) :
    ∃ electionServerList, (processPacket session profile message time).run
      server =
        (.ok false, { server with electionServerList := electionServerList }) := by
  unfold ClientCommand at hcmd
  unfold processPacket
  split
  case h_1 hprofile => exact absurd (.inl hprofile) hcmd
  case h_2 hfollow => exact absurd (.inr (.inl hfollow)) hcmd
  case h_3 hclose => exact absurd (.inr (.inr (.inr hclose))) hcmd
  case h_4 hsend => exact absurd (.inr (.inr (.inl hsend))) hcmd
  case h_5 hlist => exact ⟨getLines message.packet.payload, rfl⟩
  case h_6 => exact ⟨server.electionServerList, rfl⟩

theorem attended_of_handle (hhandle : handle primary request = some next) :
    Attended primary request next := by
  have hforwarded (hforwards : Forwards primary request) :
      Attended primary request next :=
    .answered (answered_of_handle hforwards hhandle)
  cases hsession : primary.sessions request.conn with
  | finished =>
      rw [handle, hsession] at hhandle
      cases hhandle
  | fresh =>
      by_cases hprofile : request.packet.cmd = .profile
      · apply hforwarded
        rw [Forwards, hsession]
        exact hprofile
      simp only [handle, hsession] at hhandle
      by_cases hbackup : request.packet.cmd = .setBackup
      · rw [run_login_of_setBackup hbackup] at hhandle
        cases hhandle
        exact .joined hsession hbackup
      rcases hlogin : (login request.conn ⟨primary.received, request.packet⟩
        request.time).run primary.server with ⟨exit | profile, server⟩
      · rw [hlogin] at hhandle
        cases hhandle
      · obtain ⟨ref, greeting, rfl, hfound, rfl⟩ :=
          reconnected_of_login hprofile hbackup hlogin
        rw [hlogin] at hhandle
        cases hhandle
        exact .reconnected hsession hfound
  | loggedIn ref =>
      by_cases hcmd : ClientCommand request.packet.cmd
      · apply hforwarded
        rw [Forwards, hsession]
        exact hcmd
      obtain ⟨list, hprocess⟩ :=
        @run_processPacket_of_other primary.server
          ⟨primary.received, request.packet⟩ request.time (some ref)
          (some request.conn) hcmd
      simp only [handle, hsession, serve, run_bind_of_ok _ hprocess,
        run_read_bind] at hhandle
      by_cases hclosed : request.conn ∈ primary.server.store.closed
      · simp only [hclosed, decide_true, or_true, if_true, run_modify_bind,
          run_pure] at hhandle
        cases hhandle
        exact .dropped hsession
      · simp only [hclosed, decide_false, Bool.false_eq_true, or_self, if_false,
          run_pure] at hhandle
        cases hhandle
        exact .passed hsession

theorem attended_of_attend (hattend : attend primary request = some next) :
    Attended primary request next := by
  rcases Option.or_eq_some_iff.1 hattend with hhandle | ⟨_, hrefuse⟩
  · exact attended_of_handle hhandle
  · exact .refused (refused_of_refuse hrefuse)

end Attended

end TwitterLike.RequestRuns
