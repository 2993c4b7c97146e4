import TwitterLike.Core.Transition
import TwitterLike.Server.Mirror
import TwitterLike.Server.Replication

/-!
# A backup simulates its primary

The primary handles the requests of its clients one at a time, each to its end,
and forwards them to the one backup that was attached before the first client.
The backup acts on the profile named by the sender of a packet and on null
connections, and still ends with the same profiles.
-/

namespace TwitterLike.BackupSimulation

open TwitterLike.ByteBuffer
open TwitterLike.PacketFormat
open TwitterLike.Profiles
open TwitterLike.ProfilesManager
open TwitterLike.Handlers
open TwitterLike.Faulting
open TwitterLike.FollowGraph
open TwitterLike.Transition
open TwitterLike.SessionAccounting
open TwitterLike.Commands
open TwitterLike.Replication
open TwitterLike.Mirror
open TwitterLike.Threads (Known)

/-! ## Sequential runs of a primary -/

/-- What the thread of a connection waits for between two requests. -/
inductive Session where
  /-- its first packet -/
  | fresh
  /-- the next packet of the loop of `fromClient` -/
  | loggedIn (profile : ProfileRef)
  /-- nothing, the thread has returned -/
  | finished

structure Primary where
  server : Server
  sessions : Conn → Session
  /-- the number of requests so far -/
  received : ℕ

def Primary.start : Primary where
  server := Server.new
  sessions := fun _ => .fresh
  received := 0

structure Request where
  conn : Conn
  packet : Packet
  time : BitVec 64

/-- The primary when the handler of the connection waits again. -/
def Primary.answered (primary : Primary) (conn : Conn) (server : Server)
    (session : Session) : Primary where
  server := server
  sessions := Function.update primary.sessions conn session
  received := primary.received + 1

/-- A request handled to its end by the thread of its connection; `none` when
the handler does not come to its end. -/
def handle (primary : Primary) (request : Request) : Option Primary :=
  let message : Message := ⟨primary.received, request.packet⟩
  match primary.sessions request.conn with
  | .finished => none
  | .fresh =>
      match (login request.conn message request.time).run primary.server with
      | (.ok none, server) => some (primary.answered request.conn server .finished)
      | (.ok (some profile), server) =>
          some (primary.answered request.conn server (.loggedIn profile))
      | (.error _, _) => none
  | .loggedIn profile =>
      match (serve request.conn profile message request.time).run
          primary.server with
      | (.ok true, server) =>
          some (primary.answered request.conn server (.loggedIn profile))
      | (.ok false, server) => some (primary.answered request.conn server .finished)
      | (.error _, _) => none

/-- A client logs in with `PROFILE`, and sends its own id as the sender of its
other commands. -/
def ClientRequest (primary : Primary) (request : Request) : Prop :=
  match primary.sessions request.conn with
  | .fresh => request.packet.cmd = .profile
  | .loggedIn profile =>
      ClientCommand request.packet.cmd ∧
        (request.packet.cmd ≠ .profile →
          request.packet.sender =
            (primary.server.store.objects profile).profileId)
  | .finished => True

/-- What a request of a client does, when its handler comes to its end. -/
inductive Answered (primary : Primary) (request : Request) : Primary → Prop where
  | greeted {ref : ProfileRef} {store : Store} {greeting : Packet}
      (hsession : primary.sessions request.conn = .fresh)
      (hcmd : request.packet.cmd = .profile)
      (hcreate : primary.server.store.createProfileIfNotExists
        request.packet.payload (some request.conn) request.time =
          (.ok ref, store)) :
      Answered primary request (primary.answered request.conn
        (primary.server.onStore fun _ =>
          (((forward primary.server.listBackups request.packet store).sendPacket
            request.conn greeting).fetchInboxContent ref).2)
        (.loggedIn ref))
  | served {ref : ProfileRef} {store : Store}
      (hsession : primary.sessions request.conn = .loggedIn ref)
      (hcmd : request.packet.cmd ≠ .closeConn)
      (happlied : Applied (some request.conn) (some ref)
        ⟨primary.received, request.packet⟩ request.time primary.server.store
        store) :
      Answered primary request (primary.answered request.conn
        (primary.server.onStore fun _ =>
          forward primary.server.listBackups request.packet store)
        (.loggedIn ref))
  | ended {ref : ProfileRef} {store : Store}
      (hsession : primary.sessions request.conn = .loggedIn ref)
      (happlied : Applied (some request.conn) (some ref)
        ⟨primary.received, request.packet⟩ request.time primary.server.store
        store) :
      Answered primary request (primary.answered request.conn
        (primary.server.onStore fun _ =>
          (forward primary.server.listBackups request.packet store).closeConn
            request.conn)
        .finished)

section Handle

variable {primary next : Primary} {request : Request} {server after : Server}
  {conn : Conn} {message : Message} {time : BitVec 64}

theorem greeted_of_login (hcmd : message.packet.cmd = .profile)
    {profile : Option ProfileRef}
    (hlogin : (login conn message time).run server = (.ok profile, after)) :
    ∃ ref store greeting, profile = some ref ∧
      server.store.createProfileIfNotExists message.packet.payload (some conn)
        time = (.ok ref, store) ∧
      after = server.onStore fun _ =>
        (((forward server.listBackups message.packet store).sendPacket conn
          greeting).fetchInboxContent ref).2 := by
  simp only [login, receiveProfileCmd, hcmd, run_bind_eq_ok_iff,
    run_sendToBackups, run_pure, sendPacket] at hlogin
  obtain ⟨found, middle, ⟨ref, called, hcall, _, _, hforward, hfound⟩, hrest⟩ :=
    hlogin
  obtain ⟨_, store, hcreate, rfl⟩ := run_call_withWrite_eq_ok_iff.1 hcall
  cases hforward
  cases hfound
  simp only [run_bind_eq_ok_iff, run_read, run_modify] at hrest
  obtain ⟨profileId, _, hread, _, _, hgreet, hrest⟩ := hrest
  cases hread
  cases hgreet
  obtain ⟨_, _, hfetch, hend⟩ := (run_bind_eq_ok_iff _).1 hrest
  cases hend
  exact ⟨ref, store, _, rfl, hcreate, (Prod.mk.inj hfetch).2.symm⟩

/-- The request is one that its handler forwards. -/
def Forwards (primary : Primary) (request : Request) : Prop :=
  match primary.sessions request.conn with
  | .fresh => request.packet.cmd = .profile
  | .loggedIn _ => ClientCommand request.packet.cmd
  | .finished => True

theorem ClientRequest.forwards (hrequest : ClientRequest primary request) :
    Forwards primary request := by
  rw [ClientRequest] at hrequest
  rw [Forwards]
  split
  · next hsession =>
      rw [hsession] at hrequest
      exact hrequest
  · next hsession =>
      rw [hsession] at hrequest
      exact hrequest.1
  · trivial

theorem answered_of_handle (hforwards : Forwards primary request)
    (hhandle : handle primary request = some next) :
    Answered primary request next := by
  rw [Forwards] at hforwards
  rw [handle] at hhandle
  cases hsession : primary.sessions request.conn with
  | finished =>
      rw [hsession] at hhandle
      cases hhandle
  | fresh =>
      simp only [hsession] at hhandle hforwards
      rcases hlogin : (login request.conn ⟨primary.received, request.packet⟩
        request.time).run primary.server with ⟨exit | profile, server⟩
      · rw [hlogin] at hhandle
        cases hhandle
      · obtain ⟨ref, store, greeting, rfl, hcreate, rfl⟩ :=
          greeted_of_login hforwards hlogin
        rw [hlogin] at hhandle
        cases hhandle
        exact .greeted hsession hforwards hcreate
  | loggedIn ref =>
      simp only [hsession] at hhandle hforwards
      rcases hserve : (serve request.conn ref ⟨primary.received, request.packet⟩
        request.time).run primary.server with ⟨exit | goesOn, server⟩
      · rw [hserve] at hhandle
        cases hhandle
      · rw [hserve] at hhandle
        simp only [serve, run_bind_eq_ok_iff, run_read] at hserve
        obtain ⟨quit, middle, hprocess, isClosed, _, hread, hrest⟩ := hserve
        obtain ⟨hquit, store, happlied, rfl⟩ :=
          applied_of_processPacket hforwards hprocess
        cases hread
        split at hrest
        · cases hrest
          cases hhandle
          exact .ended hsession happlied
        · next hstay =>
          cases hrest
          cases hhandle
          exact .served hsession (fun hclose => hstay (.inl (hquit.2 hclose)))
            happlied

/-- The session that the request is handled in, or none for a login. -/
def Session.profile : Session → Option ProfileRef
  | .loggedIn profile => some profile
  | _ => none

end Handle

instance (cmd : CmdType) : Decidable (ClientCommand cmd) := by
  unfold ClientCommand
  infer_instance

instance (primary : Primary) (request : Request) :
    Decidable (ClientRequest primary request) := by
  unfold ClientRequest
  split <;> infer_instance

/-! ## One command on both sides -/

section Command

variable {primary backup primaryAfter : Store} {conn : Conn}
  {profile : Option ProfileRef} {sent relayed : Message}
  {time relayTime : BitVec 64}

/-- The session whose connection the primary uses, and the profile that the
backup finds, are those of the sender. -/
structure Paired (primary : Store) (conn : Conn) (profile : Option ProfileRef)
    (packet : Packet) : Prop where
  sender : packet.cmd ≠ .profile →
    ∃ ref, profile = some ref ∧ Known primary ref ∧
      (primary.objects ref).profileId = packet.sender ∧
      some conn ∈ (primary.objects ref).sessions

theorem Paired.actsForSender (hpaired : Paired primary conn profile sent.packet)
    (hcmd : sent.packet.cmd = .follow) :
    ActsForSender primary profile sent.packet := by
  obtain ⟨ref, rfl, hknown, hid, _⟩ := hpaired.sender (by simp [hcmd])
  rintro _ ⟨⟩
  exact ⟨hknown, hid⟩

theorem Paired.lookup (hpaired : Paired primary conn profile sent.packet)
    (hmirrors : Mirrors primary backup)
    (hcmd : sent.packet.cmd ≠ .profile) :
    ∃ ref, profile = some ref ∧
      backup.getProfileById sent.packet.sender = some ref ∧
      some conn ∈ (primary.objects ref).sessions := by
  obtain ⟨ref, hprofile, hknown, hid, hsession⟩ := hpaired.sender hcmd
  refine ⟨ref, hprofile, ?_, hsession⟩
  rw [hmirrors.getProfileById, ← hid]
  exact hknown

/-- The backup can apply what the primary has applied, and then mirrors it
again. -/
theorem Mirrors.applied (hmirrors : Mirrors primary backup)
    (hpacket : relayed.packet = sent.packet)
    (hpaired : Paired primary conn profile sent.packet)
    (happlied : Applied (some conn) profile sent time primary primaryAfter) :
    ∃ backupAfter, Applied none (backup.getProfileById relayed.packet.sender)
        relayed relayTime backup backupAfter ∧
      Mirrors primaryAfter backupAfter := by
  rw [hpacket]
  cases happlied with
  | registered hcmd hcreate =>
      obtain ⟨backupAfter, hcreate', hafter⟩ :=
        Mirrors.createProfileIfNotExists hmirrors hcreate
      rw [← hpacket] at hcmd hcreate'
      exact ⟨backupAfter, .registered hcmd hcreate', hafter⟩
  | followed hcmd hfollow =>
      obtain ⟨ref, rfl, hlookup, _⟩ := hpaired.lookup hmirrors (by simp [hcmd])
      obtain ⟨backupAfter, hfollow', hafter⟩ :=
        Mirrors.addFollowerTo hmirrors hfollow
      rw [← hpacket] at hcmd hfollow'
      exact ⟨backupAfter, .followed hcmd (hlookup ▸ hfollow'), hafter⟩
  | @sent ref hcmd hprofile =>
      obtain ⟨_, hfound, hlookup, _⟩ := hpaired.lookup hmirrors (by simp [hcmd])
      cases hprofile.symm.trans hfound
      rw [← hpacket] at hcmd
      exact ⟨_, .sent hcmd hlookup, hmirrors.sendToFollowersOf ref hpacket⟩
  | @left ref hcmd hprofile =>
      obtain ⟨_, hfound, hlookup, hsession⟩ :=
        hpaired.lookup hmirrors (by simp [hcmd])
      cases hprofile.symm.trans hfound
      rw [← hpacket] at hcmd
      exact ⟨_, .left hcmd hlookup, hmirrors.decSessionsOn hsession⟩

end Command

/-! ## Behind a command -/

section Finish

/-- The backup keeps to a primary that forwards. -/
theorem mirrors_forward {store mirror : Store} (hmirrors : Mirrors store mirror)
    (backups : List Conn) (packet : Packet) :
    Mirrors (forward backups packet store) mirror := by
  rw [forward_eq]
  exact ⟨hmirrors.profiles, hmirrors.allocated, hmirrors.objects⟩

theorem writtenTo_forward (conn : Conn) (backups : List Conn) (packet : Packet)
    (store : Store) :
    writtenTo conn (forward backups packet store) =
      writtenTo conn store ++ List.replicate (backups.count conn) packet := by
  induction backups generalizing store with
  | nil => simp [forward]
  | cons backup backups ih =>
      have htail := ih (store.sendPacket backup packet)
      rw [writtenTo_sendPacket, List.append_assoc] at htail
      rw [List.count_cons]
      refine htail.trans (congrArg (writtenTo conn store ++ ·) ?_)
      by_cases hself : backup = conn
      · simp [hself, List.replicate_succ]
      · simp [hself]

/-- What a handler does behind its command: it forwards the packet, and touches
nothing else but an inbox and its own connection. -/
structure Finishes (backups : List Conn) (request : Request)
    (store final : Store) : Prop where
  graph : SameGraph store final
  sessions : SameSessions store final
  mirrors : ∀ mirror, Mirrors store mirror → Mirrors final mirror
  written : ∀ conn, conn ≠ request.conn →
    (∀ ref, some conn ∉ (store.objects ref).sessions) →
      writtenTo conn final = writtenTo conn store ++
        List.replicate (backups.count conn) request.packet

variable {backups : List Conn} {request : Request} {store final : Store}

theorem finishes_forward (backups : List Conn) (request : Request)
    (store : Store) :
    Finishes backups request store (forward backups request.packet store) where
  graph := forward_sameGraph backups request.packet store
  sessions := forward_sameSessions backups request.packet store
  mirrors _ hmirrors := mirrors_forward hmirrors backups request.packet
  written conn _ _ := writtenTo_forward conn backups request.packet store

theorem Finishes.greeted (hfinishes : Finishes backups request store final)
    (greeting : Packet) (ref : ProfileRef) :
    Finishes backups request store
      ((final.sendPacket request.conn greeting).fetchInboxContent ref).2 where
  graph := (hfinishes.graph.trans (sendPacket_sameGraph final _ greeting)).trans
    (fetchInboxContent_sameGraph _ ref)
  sessions := by
    have hsent : SameSessions final (final.sendPacket request.conn greeting) :=
      .of_objects rfl
    exact (hfinishes.sessions.trans hsent).trans
      (fetchInboxContent_sameSessions _ ref)
  mirrors mirror hmirrors := by
    have hfinal := hfinishes.mirrors mirror hmirrors
    have hsent : Mirrors (final.sendPacket request.conn greeting) mirror :=
      ⟨hfinal.profiles, hfinal.allocated, hfinal.objects⟩
    exact (hsent.fetchInboxContent ref).2
  written conn hne hapart := by
    rw [writtenTo_fetchInboxContent, writtenTo_sendPacket, if_neg hne.symm,
      List.append_nil]
    · exact hfinishes.written conn hne hapart
    · exact fun hmem => hapart ref (hfinishes.sessions.sessions ref ▸ hmem)

theorem Finishes.closed (hfinishes : Finishes backups request store final) :
    Finishes backups request store (final.closeConn request.conn) where
  graph := hfinishes.graph.trans (closeConn_sameGraph final request.conn)
  sessions := hfinishes.sessions.trans (.of_objects rfl)
  mirrors mirror hmirrors := by
    have hfinal := hfinishes.mirrors mirror hmirrors
    exact ⟨hfinal.profiles, hfinal.allocated, hfinal.objects⟩
  written := hfinishes.written

/-- The session of the connection behind the request. -/
inductive Continues (primary : Primary) (request : Request) (store : Store) :
    Session → Prop where
  | entered {ref : ProfileRef}
      (hsession : primary.sessions request.conn = .fresh)
      (hcreate : primary.server.store.createProfileIfNotExists
        request.packet.payload (some request.conn) request.time =
          (.ok ref, store)) :
      Continues primary request store (.loggedIn ref)
  | stayed {ref : ProfileRef}
      (hsession : primary.sessions request.conn = .loggedIn ref)
      (hcmd : request.packet.cmd ≠ .closeConn) :
      Continues primary request store (.loggedIn ref)
  | ended {ref : ProfileRef}
      (hsession : primary.sessions request.conn = .loggedIn ref) :
      Continues primary request store .finished

/-- An answered request applies its command and finishes. -/
theorem Answered.finishes {primary next : Primary}
    (hanswered : Answered primary request next) :
    ∃ store final session,
      next = primary.answered request.conn
        (primary.server.onStore fun _ => final) session ∧
      Applied (some request.conn) (primary.sessions request.conn).profile
        ⟨primary.received, request.packet⟩ request.time primary.server.store
        store ∧
      Finishes primary.server.listBackups request store final ∧
      Continues primary request store session := by
  have hforwarded (store : Store) :=
    finishes_forward primary.server.listBackups request store
  cases hanswered with
  | @greeted ref store greeting hsession hcmd hcreate =>
      exact ⟨store, _, _, rfl, .registered hcmd hcreate,
        (hforwarded store).greeted greeting ref, .entered hsession hcreate⟩
  | @served ref store hsession hcmd happlied =>
      rw [hsession]
      exact ⟨store, _, _, rfl, happlied, hforwarded store, .stayed hsession hcmd⟩
  | @ended ref store hsession happlied =>
      rw [hsession]
      exact ⟨store, _, _, rfl, happlied, (hforwarded store).closed,
        .ended hsession⟩

theorem Continues.running {primary : Primary} {session : Session}
    (hcontinues : Continues primary request store session) :
    primary.sessions request.conn ≠ .finished := by
  cases hcontinues <;> simp_all

end Finish

/-! ## Runs -/

/-- The packets forwarded to the backup so far. -/
def forwarded (backupConn : Conn) (primary : Primary) : List Packet :=
  writtenTo backupConn primary.server.store

/-- The primary forwards once to the connection of the backup, which holds what
it holds. -/
structure Mirroring (backupConn : Conn) (primary : Primary) (backup : Server) :
    Prop where
  mirrors : Mirrors primary.server.store backup.store
  wellFormed : WellFormed primary.server.store
  idle : Idle backup
  last : backup.listBackups = []
  backups : primary.server.listBackups.count backupConn = 1
  attached : primary.sessions backupConn = .finished
  apart : ∀ ref, some backupConn ∉ (primary.server.store.objects ref).sessions
  loggedIn : ∀ conn ref, primary.sessions conn = .loggedIn ref →
    Known primary.server.store ref ∧
      some conn ∈ (primary.server.store.objects ref).sessions

section Step

variable {backupConn : Conn} {primary next : Primary} {backup : Server}
  {request : Request}

/-- The session that a request goes on with is one of its profile's. -/
theorem Mirroring.continues (hmirroring : Mirroring backupConn primary backup)
    {store : Store} {session : Session} {ref : ProfileRef}
    (happlied : Applied (some request.conn)
      (primary.sessions request.conn).profile
      ⟨primary.received, request.packet⟩ request.time primary.server.store store)
    (hcontinues : Continues primary request store session)
    (hsession : session = .loggedIn ref) :
    Known store ref ∧ some request.conn ∈ (store.objects ref).sessions := by
  have hwf := hmirroring.wellFormed
  cases hcontinues with
  | entered hfresh hcreate =>
      cases hsession
      exact ⟨known_of_createProfileIfNotExists hwf hcreate,
        mem_sessions_of_createProfileIfNotExists hcreate⟩
  | stayed hlogged hcmd =>
      cases hsession
      obtain ⟨hknown, hmem⟩ := hmirroring.loggedIn request.conn ref hlogged
      exact ⟨happlied.known hknown hwf,
        happlied.mem_sessions_after (.inr hcmd) (hwf.allocated _ ref hknown) hmem⟩
  | ended => cases hsession

/-- A client's command acts on the profile of its session. -/
theorem Mirroring.paired (hmirroring : Mirroring backupConn primary backup)
    (hrequest : ClientRequest primary request)
    (hrunning : primary.sessions request.conn ≠ .finished) :
    Paired primary.server.store request.conn
      (primary.sessions request.conn).profile request.packet := by
  constructor
  intro hcmd
  rw [ClientRequest] at hrequest
  cases hsession : primary.sessions request.conn with
  | fresh =>
      rw [hsession] at hrequest
      exact absurd hrequest hcmd
  | loggedIn ref =>
      obtain ⟨hknown, hmem⟩ := hmirroring.loggedIn request.conn ref hsession
      rw [hsession] at hrequest
      exact ⟨ref, rfl, hknown, (hrequest.2 hcmd).symm, hmem⟩
  | finished => exact absurd hsession hrunning

/-- The packet of an answered request is forwarded to the backup, once. -/
theorem Mirroring.forwarded_answered
    (hmirroring : Mirroring backupConn primary backup)
    (hanswered : Answered primary request next) :
    forwarded backupConn next =
      forwarded backupConn primary ++ [request.packet] := by
  obtain ⟨store, final, session, rfl, happlied, hfinishes, hcontinues⟩ :=
    hanswered.finishes
  have hne : backupConn ≠ request.conn := by
    rintro heq
    exact hcontinues.running (heq ▸ hmirroring.attached)
  have hapart (ref : ProfileRef) :
      some backupConn ∉ (store.objects ref).sessions := fun hmem =>
    hmirroring.apart ref (happlied.mem_sessions_before (by simpa using hne) hmem)
  change writtenTo backupConn final = _
  rw [hfinishes.written backupConn hne hapart, hmirroring.backups,
    writtenTo_of_applied backupConn happlied hmirroring.apart]
  rfl

/-- A request of a client takes the backup along: its command is applied and
forwarded, and what its handler does besides changes only inboxes and
connections. -/
theorem Mirroring.step (hmirroring : Mirroring backupConn primary backup)
    (hrequest : ClientRequest primary request)
    (hanswered : Answered primary request next) :
    Tracks relay (forwarded backupConn) (fun relayed => relayed.message.packet)
      (Mirroring backupConn) primary next backup := by
  have hlog := hmirroring.forwarded_answered hanswered
  obtain ⟨store, final, session, rfl, happlied, hfinishes, hcontinues⟩ :=
    hanswered.finishes
  have hne : backupConn ≠ request.conn := by
    rintro heq
    exact hcontinues.running (heq ▸ hmirroring.attached)
  have hpaired := hmirroring.paired hrequest hcontinues.running
  have hapart (ref : ProfileRef) :
      some backupConn ∉ (store.objects ref).sessions := fun hmem =>
    hmirroring.apart ref (happlied.mem_sessions_before (by simpa using hne) hmem)
  have hwf : WellFormed store :=
    (happlied.graph hmirroring.wellFormed hpaired.actsForSender).1
  refine ⟨[request.packet], hlog, fun inputs hinputs => ?_⟩
  obtain ⟨relayed, rfl, hpacket⟩ := List.map_eq_singleton_iff.1 hinputs
  obtain ⟨mirror, happlied', hmirrored⟩ :=
    Mirrors.applied hmirroring.mirrors hpacket hpaired happlied
  have hrelay := relay_of_applied hmirroring.idle hmirroring.last happlied'
  refine ⟨backup.onStore fun _ => mirror,
    exec_cons_iff.2 ⟨_, hrelay, exec_nil _⟩, ?_⟩
  constructor
  case mirrors => exact hfinishes.mirrors mirror hmirrored
  case wellFormed => exact hfinishes.graph.wellFormed hwf
  case idle => exact hmirroring.idle
  case last => exact hmirroring.last
  case backups => exact hmirroring.backups
  case attached =>
    exact (Function.update_of_ne hne _ _).trans hmirroring.attached
  case apart =>
    exact fun ref hmem => hapart ref (hfinishes.sessions.sessions ref ▸ hmem)
  case loggedIn =>
    intro conn ref hconn
    suffices Known store ref ∧ some conn ∈ (store.objects ref).sessions from
      ⟨this.1.of_sameGraph hfinishes.graph,
        (hfinishes.sessions.sessions ref).symm ▸ this.2⟩
    by_cases hself : conn = request.conn
    · subst hself
      exact hmirroring.continues happlied hcontinues
        ((Function.update_self ..).symm.trans hconn)
    · have hold : primary.sessions conn = .loggedIn ref :=
        (Function.update_of_ne hself ..).symm.trans hconn
      obtain ⟨hknown, hmem⟩ := hmirroring.loggedIn conn ref hold
      exact ⟨happlied.known hknown hmirroring.wellFormed,
        happlied.mem_sessions_after (.inl (by simpa using hself))
          (hmirroring.wellFormed.allocated _ ref hknown) hmem⟩

end Step

/-! ## From the first request on -/

/-- The list of backups sent to the first one. -/
def propagation (attach : Request) : Packet :=
  new .backupPropagation (serverListToString [attach.packet.payload]) []
    attach.time

/-- The globals once the first request has attached a backup. -/
def attachedServer (attach : Request) : Server where
  controller :=
    { Server.new.controller with
      store := Store.empty.sendPacket attach.conn (propagation attach) }
  listBackups := [attach.conn]
  electionServerList := [attach.packet.payload]

theorem attached_eq {attach : Request} {attached : Primary}
    (hcmd : attach.packet.cmd = .setBackup)
    (hattach : handle Primary.start attach = some attached) :
    attached =
      Primary.start.answered attach.conn (attachedServer attach) .finished := by
  have hlogin : (login attach.conn ⟨0, attach.packet⟩ attach.time).run
      Primary.start.server = (.ok none, attachedServer attach) := by
    simp only [login, receiveProfileCmd, hcmd]
    rfl
  have hfresh : Primary.start.sessions attach.conn = .fresh := rfl
  have hreceived : Primary.start.received = 0 := rfl
  simp only [handle, hfresh, hreceived, hlogin] at hattach
  exact (Option.some.inj hattach).symm

/-- A backup attaches to a primary that has had no request, and receives the
list of backups. -/
theorem followed_of_attach {attach : Request} {attached : Primary}
    (hcmd : attach.packet.cmd = .setBackup)
    (hattach : handle Primary.start attach = some attached) :
    Followed relay (forwarded attach.conn)
      (fun relayed => relayed.message.packet) (Mirroring attach.conn) Server.new
      attached := by
  rw [attached_eq hcmd hattach]
  intro inputs hinputs
  have hforwarded : forwarded attach.conn (Primary.start.answered attach.conn
      (attachedServer attach) .finished) = [propagation attach] := by
    have hsent := writtenTo_sendPacket attach.conn Store.empty attach.conn
      (propagation attach)
    rw [if_pos rfl] at hsent
    exact hsent
  rw [hforwarded] at hinputs
  obtain ⟨relayed, rfl, hpacket⟩ := List.map_eq_singleton_iff.1 hinputs
  have hidle : Idle Server.new := ⟨rfl, rfl⟩
  have hpropagation : relayed.message.packet.cmd = .backupPropagation := by
    rw [hpacket]
    rfl
  refine ⟨_, exec_cons_iff.2
    ⟨_, relay_backupPropagation hidle hpropagation, exec_nil _⟩, ?_⟩
  constructor
  case mirrors =>
    exact ⟨mirrors_empty.profiles, mirrors_empty.allocated, mirrors_empty.objects⟩
  case wellFormed =>
    exact (sendPacket_sameGraph Store.empty attach.conn
      (propagation attach)).wellFormed wellFormed_empty
  case idle => exact hidle
  case last => rfl
  case backups => exact List.count_singleton_self
  case attached => exact Function.update_self ..
  case apart => exact fun ref hmem => List.not_mem_nil hmem
  case loggedIn =>
    intro conn ref hconn
    by_cases hself : conn = attach.conn
    · rw [hself] at hconn
      cases (Function.update_self ..).symm.trans hconn
    · cases (Function.update_of_ne hself ..).symm.trans hconn

/-- The two stores have the same ids, and under each id the same followers in
the same order and the same count of sessions; the primary's inbox ends the
backup's. -/
structure Agree (primary backup : Store) : Prop where
  ids : ∀ profileId, backup.hasProfile profileId = primary.hasProfile profileId
  followers : ∀ profileId ref other,
    primary.getProfileById profileId = some ref →
    backup.getProfileById profileId = some other →
    backup.followerIds other = primary.followerIds ref
  sessionsOn : ∀ profileId ref other,
    primary.getProfileById profileId = some ref →
    backup.getProfileById profileId = some other →
    (backup.objects other).sessionsOn = (primary.objects ref).sessionsOn
  inbox : ∀ profileId ref other,
    primary.getProfileById profileId = some ref →
    backup.getProfileById profileId = some other →
    queued (primary.objects ref) <:+ queued (backup.objects other)

theorem Agree.of_mirrors {primary backup : Store}
    (hmirrors : Mirrors primary backup) : Agree primary backup := by
  have hsame (profileId : ByteString) (ref other : ProfileRef)
      (hprimary : primary.getProfileById profileId = some ref)
      (hbackup : backup.getProfileById profileId = some other) : other = ref := by
    rw [hmirrors.getProfileById, hprimary] at hbackup
    exact (Option.some.inj hbackup).symm
  constructor
  case ids =>
    intro profileId
    rw [Store.hasProfile, hmirrors.profiles, Store.hasProfile]
  case followers =>
    intro profileId ref other hprimary hbackup
    rw [hsame profileId ref other hprimary hbackup]
    exact hmirrors.followerIds ref
  case sessionsOn =>
    intro profileId ref other hprimary hbackup
    rw [hsame profileId ref other hprimary hbackup]
    exact (hmirrors.objects ref).sessionsOn
  case inbox =>
    intro profileId ref other hprimary hbackup
    rw [hsame profileId ref other hprimary hbackup]
    exact (hmirrors.objects ref).inbox

/-- After every request, the backup that has processed the packets forwarded so
far agrees with the primary. -/
theorem backup_agrees_with_primary {attach : Request} {attached primary : Primary}
    {requests : List Request} {received : List Relayed}
    (hcmd : attach.packet.cmd = .setBackup)
    (hattach : handle Primary.start attach = some attached)
    (hclients : Along handle ClientRequest attached requests)
    (hrequests : exec handle attached requests = some primary)
    (hreceived : (received.map fun relayed => relayed.message.packet) =
      forwarded attach.conn primary) :
    ∃ backup, exec relay Server.new received = some backup ∧
      Agree primary.server.store backup.store := by
  have hevent : Function.Surjective fun relayed : Relayed =>
      relayed.message.packet := fun packet => ⟨⟨⟨0, packet⟩, 0⟩, rfl⟩
  have hfollowed := exec_followed hevent
    (fun _ _ _ _ hmirroring hrequest hhandle =>
      hmirroring.step hrequest (answered_of_handle hrequest.forwards hhandle))
    (followed_of_attach hcmd hattach) hclients hrequests
  obtain ⟨backup, hbackup, hmirroring⟩ := hfollowed received hreceived
  exact ⟨backup, hbackup, .of_mirrors hmirroring.mirrors⟩

/-- A backup on connection 9. -/
def attachRequest : Request := ⟨9, new .setBackup [58] [] 0, 0⟩

def attachedPrimary : Primary :=
  (handle Primary.start attachRequest).get (by decide)

/-- `a` and `b` log in, `a` follows `b`, registers `c` in its session, leaves,
and `b` sends a text that waits for `a`. -/
def clientRequests : List Request :=
  [⟨1, new .profile [97] [] 0, 0⟩, ⟨2, new .profile [98] [] 0, 0⟩,
    ⟨1, new .follow [98] [97] 0, 0⟩, ⟨1, new .profile [99] [97] 0, 0⟩,
    ⟨1, new .closeConn [] [97] 0, 0⟩, ⟨2, new .send [104, 105] [98] 0, 0⟩]

/-- The packets that the backup on connection 9 receives in that run. -/
def clientPackets : List Relayed :=
  (propagation attachRequest :: clientRequests.map Request.packet).map
    fun packet => ⟨⟨0, packet⟩, 0⟩

theorem backup_agrees_with_primary_clientRequests :
    ∃ primary backup,
      exec handle attachedPrimary clientRequests = some primary ∧
      exec relay Server.new clientPackets = some backup ∧
      Agree primary.server.store backup.store := by
  have hforwarded :
      (exec handle attachedPrimary clientRequests).map (forwarded 9) =
        some (clientPackets.map fun relayed => relayed.message.packet) := by
    decide
  obtain ⟨primary, hrequests, hpackets⟩ := Option.map_eq_some_iff.1 hforwarded
  obtain ⟨backup, hbackup, hagree⟩ := backup_agrees_with_primary rfl
    (Option.some_get _).symm (by decide) hrequests hpackets.symm
  exact ⟨primary, backup, hrequests, hbackup, hagree⟩

end TwitterLike.BackupSimulation
