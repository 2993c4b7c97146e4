import TwitterLike.Server.ServingRuns

/-!
# A backup that joins later

A new backup is sent the list of servers and from then on what the primary
forwards; nothing hands over what the primary has stored before.  So it ends
with the primary's profiles exactly when there were none at the join.
-/

namespace TwitterLike.LateBackup

open TwitterLike.ByteBuffer
open TwitterLike.PacketFormat
open TwitterLike.Profiles
open TwitterLike.ProfilesManager
open TwitterLike.Handlers
open TwitterLike.FollowGraph
open TwitterLike.Transition
open TwitterLike.SessionAccounting
open TwitterLike.GraphHistory
open TwitterLike.Commands
open TwitterLike.Replication
open TwitterLike.Mirror
open TwitterLike.BackupSimulation
open TwitterLike.RequestRuns
open TwitterLike.ServingRuns
open TwitterLike.Threads (Known known_of_found)

/-! ## Before the join -/

/-- No profile has been stored. -/
structure Untouched (store : Store) : Prop where
  objects : store.objects = Store.empty.objects
  allocated : store.allocated = 0
  profiles : store.profiles = ∅

def Populated (store : Store) : Prop :=
  ∃ profileId ref, store.getProfileById profileId = some ref

theorem Untouched.unknown {store : Store} (huntouched : Untouched store)
    (profileId : ByteString) : store.getProfileById profileId = none := by
  rw [Store.getProfileById, huntouched.profiles]
  rfl

theorem hasProfile_eq_isSome (store : Store) (profileId : ByteString) :
    store.hasProfile profileId = (store.getProfileById profileId).isSome :=
  Std.TreeMap.contains_eq_isSome_getElem?

theorem Populated.extends {store after : Store} (hpopulated : Populated store)
    (hextends : Extends store after) : Populated after := by
  obtain ⟨profileId, ref, hfound⟩ := hpopulated
  exact ⟨profileId, ref, hextends.entries profileId ref hfound⟩

/-- What holds of a primary after any requests: a connection that has not sent a
packet has received none, and either some profile is stored or nothing is. -/
structure Reached (primary : Primary) : Prop where
  wellFormed : WellFormed primary.server.store
  known : ∀ conn ref, primary.sessions conn = .loggedIn ref →
    Known primary.server.store ref
  backups : ∀ conn, primary.sessions conn = .fresh →
    conn ∉ primary.server.listBackups
  apart : ∀ conn, primary.sessions conn = .fresh →
    ∀ ref, some conn ∉ (primary.server.store.objects ref).sessions
  unwritten : ∀ conn, primary.sessions conn = .fresh →
    forwarded conn primary = []
  stored : Populated primary.server.store ∨
    Untouched primary.server.store ∧
      ∀ conn ref, primary.sessions conn ≠ .loggedIn ref

theorem reached_start : Reached Primary.start where
  wellFormed := wellFormed_empty
  known _ _ hsession := by cases hsession
  backups _ _ := List.not_mem_nil
  apart _ _ _ := List.not_mem_nil
  unwritten _ _ := rfl
  stored := .inr ⟨⟨rfl, rfl, rfl⟩, nofun⟩

/-- What a request on the connection does to the others. -/
structure Isolated (conn : Conn) (before after : Server) : Prop where
  backups : ∀ other, other ≠ conn → other ∈ after.listBackups →
    other ∈ before.listBackups
  apart : ∀ other ref, other ≠ conn →
    some other ∈ (after.store.objects ref).sessions →
      some other ∈ (before.store.objects ref).sessions
  written : ∀ other, other ≠ conn → other ∉ before.listBackups →
    (∀ ref, some other ∉ (before.store.objects ref).sessions) →
      writtenTo other after.store = writtenTo other before.store

section Reached

variable {primary next : Primary} {request : Request}

theorem Reached.consistent (hreached : Reached primary) : Consistent primary :=
  ⟨hreached.wellFormed, hreached.known⟩

theorem populated_of_known {store : Store} {ref : ProfileRef}
    (hknown : Known store ref) : Populated store := ⟨_, ref, hknown⟩

/-- A command is isolated, and so is what its handler does behind it. -/
theorem isolated_of_answered (hanswered : Answered primary request next) :
    Isolated request.conn primary.server next.server := by
  obtain ⟨store, final, session, rfl, happlied, hfinishes, _⟩ :=
    hanswered.finishes
  constructor
  case backups => exact fun _ _ hmem => hmem
  case apart =>
    exact fun other ref hne hmem =>
      happlied.mem_sessions_before (by simpa using hne)
        (hfinishes.sessions.sessions ref ▸ hmem)
  case written =>
    intro other hne hbackup hapart
    have hsessions (ref : ProfileRef) :
        some other ∉ (store.objects ref).sessions := fun hmem =>
      hapart ref (happlied.mem_sessions_before (by simpa using hne) hmem)
    have hwritten := hfinishes.written other hne hsessions
    rw [List.count_eq_zero_of_not_mem hbackup, List.replicate_zero,
      List.append_nil, writtenTo_of_applied other happlied hapart] at hwritten
    exact hwritten

/-- A change of the connection's own state only. -/
theorem isolated_of_store {conn : Conn} {before after : Server}
    (hbackups : after.listBackups = before.listBackups)
    (hobjects : after.store.objects = before.store.objects)
    (hwritten : ∀ other, other ≠ conn →
      writtenTo other after.store = writtenTo other before.store) :
    Isolated conn before after where
  backups _ _ hmem := hbackups ▸ hmem
  apart _ ref _ hmem := by
    rw [hobjects] at hmem
    exact hmem
  written other hne _ _ := hwritten other hne

theorem isolated_refused (server : Server) (conn : Conn) (time : BitVec 64) :
    Isolated conn server (refusedServer server conn time) := by
  apply isolated_of_store
  · rfl
  · rfl
  · intro other hne
    have hwritten := writtenTo_sendPacket other server.store conn
      (new .closeConn [] [] time)
    rw [if_neg hne.symm, List.append_nil] at hwritten
    exact hwritten

theorem isolated_joined (server : Server) (conn : Conn) (address : ByteString)
    (time : BitVec 64) :
    Isolated conn server (joinedServer server conn address time) := by
  constructor
  case backups =>
    exact fun other hne hmem =>
      (List.mem_append.1 hmem).resolve_right (by simpa using hne)
  case apart =>
    exact fun other ref _ hmem =>
      (forward_sameSessions _ _ server.store).sessions ref ▸ hmem
  case written =>
    intro other hne hbackup _
    refine (writtenTo_forward other _ _ server.store).trans ?_
    have hnone : other ∉ server.listBackups ++ [conn] := by
      simp [hbackup, hne]
    rw [List.count_eq_zero_of_not_mem hnone, List.replicate_zero,
      List.append_nil]

theorem isolated_reconnected (server : Server) (conn : Conn) (ref : ProfileRef)
    (greeting : Packet) :
    Isolated conn server (server.onStore fun store =>
      (((store.updateSessionsOn ref (some conn)).sendPacket conn
        greeting).fetchInboxContent ref).2) := by
  let updated := server.store.updateSessionsOn ref (some conn)
  have hsessions {other : Conn} {target : ProfileRef} (hne : other ≠ conn)
      (hmem : some other ∈ (updated.objects target).sessions) :
      some other ∈ (server.store.objects target).sessions := by
    rw [Store.updateSessionsOn_objects_sessions] at hmem
    split at hmem
    · simpa [hne] using hmem
    · exact hmem
  have hfetched := fetchInboxContent_sameSessions
    (updated.sendPacket conn greeting) ref
  constructor
  case backups => exact fun _ _ hmem => hmem
  case apart =>
    exact fun other target hne hmem =>
      hsessions hne (hfetched.sessions target ▸ hmem)
  case written =>
    intro other hne _ hapart
    refine (writtenTo_fetchInboxContent other ?_).trans ?_
    · exact fun hmem => hapart ref (hsessions hne hmem)
    · rw [writtenTo_sendPacket, if_neg hne.symm, List.append_nil]
      rfl

theorem isolated_of_attend (hattend : attend primary request = some next) :
    Isolated request.conn primary.server next.server := by
  cases attended_of_attend hattend with
  | answered hanswered => exact isolated_of_answered hanswered
  | refused hrefused =>
      rw [hrefused.left]
      exact isolated_refused primary.server request.conn request.time
  | joined => exact isolated_joined primary.server request.conn _ _
  | reconnected => exact isolated_reconnected primary.server request.conn _ _
  | passed => exact isolated_of_store rfl rfl fun _ _ => rfl
  | dropped => exact isolated_of_store rfl rfl fun _ _ => rfl

/-- On a server without profiles a request stores one, or ends its thread and
stores nothing. -/
theorem stored_of_attend (hconsistent : Consistent primary)
    (huntouched : Untouched primary.server.store)
    (hnobody : ∀ conn ref, primary.sessions conn ≠ .loggedIn ref)
    (hattend : attend primary request = some next) :
    Populated next.server.store ∨
      Untouched next.server.store ∧ ∀ conn ref,
        next.sessions conn ≠ .loggedIn ref := by
  have hgrows := grows_of_attend hconsistent hattend
  obtain ⟨session, _, hsessions⟩ := sessions_of_attend hattend
  have hother (conn : Conn) (ref : ProfileRef) (hne : conn ≠ request.conn) :
      next.sessions conn ≠ .loggedIn ref := by
    rw [hsessions, Function.update_of_ne hne]
    exact hnobody conn ref
  have hentered (ref : ProfileRef)
      (hsession : next.sessions request.conn = .loggedIn ref) :
      Populated next.server.store :=
    populated_of_known (hgrows.known ref hsession)
  cases attended_of_attend hattend with
  | answered hanswered =>
      cases hanswered with
      | greeted => exact .inl (hentered _ (Function.update_self ..))
      | served hsession => exact absurd hsession (hnobody _ _)
      | ended hsession => exact absurd hsession (hnobody _ _)
  | refused hrefused =>
      obtain ⟨ref, hfound, _⟩ := hrefused.full
      cases (huntouched.unknown _).symm.trans hfound
  | joined hsession hcmd =>
      refine .inr ⟨⟨?_, ?_, ?_⟩, fun conn ref => ?_⟩
      · change (forward _ _ primary.server.store).objects = _
        rw [forward_eq]
        exact huntouched.objects
      · exact (forward_sameGraph _ _ _).allocated.trans huntouched.allocated
      · exact (forward_sameGraph _ _ _).profiles.trans huntouched.profiles
      · by_cases hself : conn = request.conn
        · subst hself
          intro hlogged
          cases (Function.update_self ..).symm.trans hlogged
        · exact hother conn ref hself
  | reconnected => exact .inl (hentered _ (Function.update_self ..))
  | passed hsession => exact absurd hsession (hnobody _ _)
  | dropped hsession => exact absurd hsession (hnobody _ _)

theorem Reached.step (hreached : Reached primary)
    (hattend : attend primary request = some next) : Reached next := by
  have hconsistent := hreached.consistent.step hattend
  have hisolated := isolated_of_attend hattend
  obtain ⟨session, hsession, hsessions⟩ := sessions_of_attend hattend
  have hfresh {other : Conn} (hother : next.sessions other = .fresh) :
      other ≠ request.conn ∧ primary.sessions other = .fresh := by
    rw [hsessions] at hother
    by_cases hself : other = request.conn
    · subst hself
      exact absurd ((Function.update_self ..).symm.trans hother) hsession
    · exact ⟨hself, (Function.update_of_ne hself ..).symm.trans hother⟩
  constructor
  case wellFormed => exact hconsistent.wellFormed
  case known => exact hconsistent.known
  case backups =>
    intro other hother hmem
    obtain ⟨hne, hold⟩ := hfresh hother
    exact hreached.backups other hold (hisolated.backups other hne hmem)
  case apart =>
    intro other hother ref hmem
    obtain ⟨hne, hold⟩ := hfresh hother
    exact hreached.apart other hold ref (hisolated.apart other ref hne hmem)
  case unwritten =>
    intro other hother
    obtain ⟨hne, hold⟩ := hfresh hother
    exact (hisolated.written other hne (hreached.backups other hold)
      (hreached.apart other hold)).trans (hreached.unwritten other hold)
  case stored =>
    rcases hreached.stored with hpopulated | ⟨huntouched, hnobody⟩
    · exact .inl (hpopulated.extends
        (grows_of_attend hreached.consistent hattend).keeps)
    · exact stored_of_attend hreached.consistent huntouched hnobody hattend

theorem reached_of_exec {requests : List Request}
    (hexec : exec attend Primary.start requests = some primary) :
    Reached primary :=
  exec_invariant (fun _ _ _ hreached _ hattend => hreached.step hattend)
    reached_start (along_true Primary.start requests) hexec

end Reached

/-! ## From the join on -/

/-- The two stores have the same ids, and under each id the same followers in
the same order and the same count of sessions. -/
structure SameProfiles (primary backup : Store) : Prop where
  ids : ∀ profileId, backup.hasProfile profileId = primary.hasProfile profileId
  followers : ∀ profileId ref other,
    primary.getProfileById profileId = some ref →
    backup.getProfileById profileId = some other →
    backup.followerIds other = primary.followerIds ref
  sessionsOn : ∀ profileId ref other,
    primary.getProfileById profileId = some ref →
    backup.getProfileById profileId = some other →
    (backup.objects other).sessionsOn = (primary.objects ref).sessionsOn

theorem SameProfiles.of_agree {primary backup : Store}
    (hagree : Agree primary backup) : SameProfiles primary backup :=
  ⟨hagree.ids, hagree.followers, hagree.sessionsOn⟩

/-- Whatever the clients do from now on, the backup on the connection that has
processed all it was sent has the primary's profiles. -/
def CatchesUp (backupConn : Conn) (attached : Primary) : Prop :=
  ∀ later primary received,
    Along attend ClientRequest attached later →
    exec attend attached later = some primary →
    (received.map fun relayed : Relayed => relayed.message.packet) =
      forwarded backupConn primary →
    ∃ backup, exec relay Server.new received = some backup ∧
      SameProfiles primary.server.store backup.store

section Join

variable {before attached : Primary} {join : Request}

/-- The list of servers sent to all backups. -/
def joinPacket (before : Primary) (join : Request) : Packet :=
  new .backupPropagation
    (serverListToString
      (before.server.electionServerList ++ [join.packet.payload])) [] join.time

/-- The new backup is sent the list alone. -/
theorem forwarded_of_join (hreached : Reached before)
    (hfresh : before.sessions join.conn = .fresh) :
    forwarded join.conn (before.answered join.conn
      (joinedServer before.server join.conn join.packet.payload join.time)
      .finished) = [joinPacket before join] := by
  refine (writtenTo_forward join.conn _ _ before.server.store).trans ?_
  have hempty : writtenTo join.conn before.server.store = [] :=
    hreached.unwritten join.conn hfresh
  rw [hempty, List.nil_append, List.count_append, List.count_singleton_self,
    List.count_eq_zero_of_not_mem (hreached.backups join.conn hfresh)]
  rfl

/-- The new backup makes of the list what any server does, and stores nothing. -/
theorem relay_joinPacket {relayed : Relayed}
    (hpacket : relayed.message.packet = joinPacket before join) :
    ∃ backup, relay Server.new relayed = some backup ∧
      backup.controller = Server.new.controller ∧ backup.listBackups = [] := by
  have hcmd : relayed.message.packet.cmd = .backupPropagation := by
    rw [hpacket]
    rfl
  exact ⟨_, relay_backupPropagation ⟨rfl, rfl⟩ hcmd, rfl, rfl⟩

theorem followed_of_join (hreached : Reached before)
    (hfresh : before.sessions join.conn = .fresh)
    (huntouched : Untouched before.server.store)
    (hnobody : ∀ conn ref, before.sessions conn ≠ .loggedIn ref) :
    Followed relay (forwarded join.conn) (fun relayed => relayed.message.packet)
      (Mirroring join.conn) Server.new (before.answered join.conn
        (joinedServer before.server join.conn join.packet.payload join.time)
        .finished) := by
  intro inputs hinputs
  rw [forwarded_of_join hreached hfresh] at hinputs
  obtain ⟨relayed, rfl, hpacket⟩ := List.map_eq_singleton_iff.1 hinputs
  obtain ⟨backup, hrelay, hcontroller, hlast⟩ := relay_joinPacket hpacket
  refine ⟨backup, exec_cons_iff.2 ⟨_, hrelay, exec_nil _⟩, ?_⟩
  have hstore : backup.store = Store.empty :=
    congrArg ProfileAccessController.Controller.store hcontroller
  have hmirrors : Mirrors before.server.store backup.store := by
    rw [hstore]
    refine ⟨huntouched.profiles.symm, huntouched.allocated.symm, fun ref => ?_⟩
    rw [huntouched.objects]
    exact mirrored_new []
  have hsessions := forward_sameSessions
    (before.server.listBackups ++ [join.conn]) (joinPacket before join)
    before.server.store
  constructor
  case mirrors => exact mirrors_forward hmirrors _ _
  case wellFormed =>
    exact (forward_sameGraph _ _ before.server.store).wellFormed
      hreached.wellFormed
  case idle => rw [Idle, hcontroller]; exact ⟨rfl, rfl⟩
  case last => exact hlast
  case backups =>
    change (before.server.listBackups ++ [join.conn]).count join.conn = 1
    rw [List.count_append, List.count_singleton_self,
      List.count_eq_zero_of_not_mem (hreached.backups join.conn hfresh)]
  case attached => exact Function.update_self ..
  case apart =>
    exact fun ref hmem =>
      hreached.apart join.conn hfresh ref (hsessions.sessions ref ▸ hmem)
  case loggedIn =>
    intro conn ref hconn
    by_cases hself : conn = join.conn
    · subst hself
      cases (Function.update_self ..).symm.trans hconn
    · exact absurd ((Function.update_of_ne hself ..).symm.trans hconn)
        (hnobody conn ref)

/-- A backup that joins an empty primary catches up. -/
theorem catchesUp_of_untouched (hreached : Reached before)
    (hfresh : before.sessions join.conn = .fresh)
    (hcmd : join.packet.cmd = .setBackup)
    (hjoin : attend before join = some attached)
    (huntouched : Untouched before.server.store)
    (hnobody : ∀ conn ref, before.sessions conn ≠ .loggedIn ref) :
    CatchesUp join.conn attached := by
  cases (attend_of_setBackup hfresh hcmd).symm.trans hjoin
  intro later primary received hclients hlater hreceived
  have hevent : Function.Surjective fun relayed : Relayed =>
      relayed.message.packet := fun packet => ⟨⟨⟨0, packet⟩, 0⟩, rfl⟩
  have hfollowed := exec_followed hevent
    (fun _ _ _ _ hmirroring hrequest hattend =>
      Mirroring.attend hmirroring hrequest hattend)
    (followed_of_join hreached hfresh huntouched hnobody) hclients hlater
  obtain ⟨backup, hbackup, hmirroring⟩ := hfollowed received hreceived
  exact ⟨backup, hbackup, .of_agree (.of_mirrors hmirroring.mirrors)⟩

/-- A backup that joins a primary with a profile has not that profile. -/
theorem not_catchesUp_of_populated (hreached : Reached before)
    (hfresh : before.sessions join.conn = .fresh)
    (hcmd : join.packet.cmd = .setBackup)
    (hjoin : attend before join = some attached)
    (hpopulated : Populated before.server.store) :
    ¬ CatchesUp join.conn attached := by
  cases (attend_of_setBackup hfresh hcmd).symm.trans hjoin
  intro hcatches
  let relayed : Relayed := ⟨⟨0, joinPacket before join⟩, 0⟩
  obtain ⟨known, hknown, hcontroller, _⟩ :=
    @relay_joinPacket before join relayed rfl
  obtain ⟨backup, hbackup, hsame⟩ := hcatches [] _ [relayed] trivial rfl
    (forwarded_of_join hreached hfresh).symm
  obtain ⟨next, hnext, hend⟩ := exec_cons_iff.1 hbackup
  cases hend
  cases hknown.symm.trans hnext
  obtain ⟨profileId, ref, hfound⟩ := hpopulated
  have hstore : known.store = Store.empty :=
    congrArg ProfileAccessController.Controller.store hcontroller
  have hkept := (forward_sameGraph (before.server.listBackups ++ [join.conn])
    (joinPacket before join) before.server.store).getProfileById profileId
  have hids : known.store.hasProfile profileId =
      (forward (before.server.listBackups ++ [join.conn])
        (joinPacket before join) before.server.store).hasProfile profileId :=
    hsame.ids profileId
  rw [hstore, hasProfile_eq_isSome, hasProfile_eq_isSome, hkept, hfound] at hids
  cases hids

/-- After any requests, a backup that joins catches up exactly when no profile is
stored at that moment. -/
theorem catchesUp_iff {earlier : List Request}
    (hearlier : exec attend Primary.start earlier = some before)
    (hfresh : before.sessions join.conn = .fresh)
    (hcmd : join.packet.cmd = .setBackup)
    (hjoin : attend before join = some attached) :
    CatchesUp join.conn attached ↔
      ∀ profileId, before.server.store.hasProfile profileId = false := by
  have hreached := reached_of_exec hearlier
  constructor
  · intro hcatches profileId
    rw [hasProfile_eq_isSome, Option.isSome_eq_false_iff, Option.isNone_iff_eq_none]
    by_contra hstored
    obtain ⟨ref, hfound⟩ := Option.ne_none_iff_exists'.1 hstored
    exact not_catchesUp_of_populated hreached hfresh hcmd hjoin
      ⟨profileId, ref, hfound⟩ hcatches
  · intro hnone
    rcases hreached.stored with ⟨profileId, ref, hfound⟩ | ⟨huntouched, hnobody⟩
    · have hstored := hnone profileId
      rw [hasProfile_eq_isSome, hfound] at hstored
      cases hstored
    · exact catchesUp_of_untouched hreached hfresh hcmd hjoin huntouched hnobody

end Join

/-- A second backup joins behind a first one, before any client. -/
def secondJoin : Request := ⟨8, new .setBackup [56, 58] [] 0, 0⟩

theorem catchesUp_secondJoin :
    ∃ attached, attend attachedPrimary secondJoin = some attached ∧
      CatchesUp 8 attached := by
  have hjoin : (attend attachedPrimary secondJoin).isSome := by decide
  obtain ⟨attached, hattached⟩ := Option.isSome_iff_exists.1 hjoin
  have hearlier : exec attend Primary.start [attachRequest] =
      some attachedPrimary := by
    have hhandle : handle Primary.start attachRequest = some attachedPrimary :=
      (Option.some_get _).symm
    rw [exec, attend, hhandle]
    rfl
  exact ⟨attached, hattached,
    (catchesUp_iff hearlier rfl rfl hattached).2 fun _ => rfl⟩

/-- `ab` has logged in. -/
def loggedInPrimary : Primary :=
  (exec attend Primary.start [⟨1, new .profile [97, 98] [] 0, 0⟩]).get
    (by decide)

/-- A backup that joins behind a login does not catch up. -/
theorem loggedInPrimary_not_catchesUp :
    ¬ ∀ (earlier : List Request) (before attached : Primary) (join : Request),
      exec attend Primary.start earlier = some before →
        before.sessions join.conn = .fresh → join.packet.cmd = .setBackup →
          attend before join = some attached → CatchesUp join.conn attached := by
  intro hall
  have hearlier := (Option.some_get
    (by decide : (exec attend Primary.start
      [⟨1, new .profile [97, 98] [] 0, 0⟩]).isSome)).symm
  have hfresh : loggedInPrimary.sessions attachRequest.conn = .fresh := rfl
  have hpopulated : Populated loggedInPrimary.server.store :=
    ⟨[97, 98], 0, by decide⟩
  have hjoin := attend_of_setBackup hfresh rfl
  exact not_catchesUp_of_populated (reached_of_exec hearlier) hfresh rfl hjoin
    hpopulated (hall _ _ _ attachRequest hearlier hfresh rfl hjoin)

end TwitterLike.LateBackup
