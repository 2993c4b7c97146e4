import TwitterLike.Server.SessionAccounting
import TwitterLike.Server.ThreadGraph

/-!
# Which connections are in a sessions vector

For clients that log in with their first packet and never again, a connection is
in the sessions vector of exactly the profile its thread serves, from the end of
`createProfileIfNotExists` to `decSessionsOn`.  Backups are in none.
-/

namespace TwitterLike.Sessions

open TwitterLike.ByteBuffer
open TwitterLike.PacketFormat
open TwitterLike.Profiles
open TwitterLike.ProfilesManager
open TwitterLike.FollowGraph
open TwitterLike.Threads
open TwitterLike.SessionAccounting

/-- The first packet is `PROFILE`, or `SET_BACKUP` for a backup; every later one
is `FOLLOW`, `SEND` or `CLOSE_CONN`. -/
def ClientPacket : Point → CmdType → Bool
  | .accepted, cmd => cmd = .profile || cmd = .setBackup
  | .looping _, cmd => cmd = .follow || cmd = .send || cmd = .closeConn
  | _, _ => true

/-- The step receives no packet, or one that a client or a backup sends. -/
def ClientStep (system : System) (label : Label) : Prop :=
  match label.action with
  | .receive packet =>
      ClientPacket (system.threads label.conn) packet.cmd = true
  | .proceed => True

instance (system : System) (label : Label) :
    Decidable (ClientStep system label) := by
  unfold ClientStep
  split <;> infer_instance

/-- The profile that the thread serves, once its session is counted. -/
def sessionAt : Point → Option ProfileRef
  | .sending profile _ _ => some profile
  | .forwarding _ _ (.greet profile) => some profile
  | .forwarding _ _ (.loop profile) => some profile
  | .greeting profile => some profile
  | .fetching profile => some profile
  | .looping profile => some profile
  | _ => none

@[simp]
theorem sessionAt_next (packet : Packet) (index : ℕ) (next : Next) :
    sessionAt next.point = sessionAt (.forwarding packet index next) := by
  cases next <;> rfl

theorem mentions_of_sessionAt {point : Point} {ref : ProfileRef}
    (hsession : sessionAt point = some ref) : Mentions point ref := by
  unfold sessionAt at hsession
  split at hsession
  case h_7 => cases hsession
  case h_2 =>
    cases hsession
    exact .inl rfl
  case h_3 =>
    cases hsession
    exact .inr rfl
  all_goals
    cases hsession
    rfl

/-- Points that only logins with a first packet lead to. -/
def FirstLogin : Point → Prop
  | .reconnecting _ => False
  | .registering profile _ next => next = .greet profile
  | _ => True

/-- The points of the thread of a backup behind `push_back`. -/
def AsBackup : Point → Prop
  | .joining _ => True
  | .propagating => True
  | .forwarding _ _ .leave => True
  | .ended => True
  | _ => False

theorem sessionAt_of_asBackup {point : Point} (hbackup : AsBackup point) :
    sessionAt point = none := by
  unfold AsBackup at hbackup
  split at hbackup
  case h_5 => exact hbackup.elim
  all_goals rfl

structure SessionsInvariant (system : System) : Prop where
  member : ∀ ref conn, some conn ∈ (system.store.objects ref).sessions ↔
    sessionAt (system.threads conn) = some ref
  live : ∀ ref, none ∉ (system.store.objects ref).sessions
  nodup : ∀ ref, (system.store.objects ref).sessions.Nodup
  logins : ∀ conn, FirstLogin (system.threads conn)
  closed : ∀ conn ∈ system.store.closed, system.threads conn = .ended
  backups : ∀ conn ∈ system.server.listBackups, AsBackup (system.threads conn)

/-! ## Logins in a session

A client may send any command in its session, also `PROFILE`, as long as that
login goes no further than the search for the profile.
-/

/-- The profile whose vector holds the connection: during another login that is
still the profile that the thread serves. -/
def boundAt : Point → Option ProfileRef
  | .registering _ _ (.loop session) => some session
  | point => sessionAt point

/-- Points that only logins with `PROFILE` lead to. -/
def ProfileLogin : Point → Prop
  | .reconnecting _ => False
  | .registering profile _ next =>
      next = .greet profile ∨ ∃ session, next = .loop session
  | _ => True

theorem profileLogin_of_firstLogin {point : Point} (hlogin : FirstLogin point) :
    ProfileLogin point := by
  cases point with
  | registering profile packet next => exact .inl hlogin
  | reconnecting profile => exact hlogin
  | _ => trivial

theorem boundAt_of_firstLogin {point : Point} (hlogin : FirstLogin point) :
    boundAt point = sessionAt point := by
  cases point with
  | registering profile packet next =>
      cases hlogin
      rfl
  | _ => rfl

@[simp]
theorem boundAt_next (packet : Packet) (index : ℕ) (next : Next) :
    boundAt next.point = boundAt (.forwarding packet index next) := by
  cases next <;> rfl

theorem mentions_of_boundAt {point : Point} {ref : ProfileRef}
    (hbound : boundAt point = some ref) : Mentions point ref := by
  unfold boundAt at hbound
  split at hbound
  · cases hbound
    exact .inr (.inr rfl)
  · exact mentions_of_sessionAt hbound

/-- A thread at this point adds its connection to a second vector, or is refused
a login in its session. -/
def relogsAt (store : Store) : Point → Action → Bool
  | .registering _ _ (.loop _), _ => true
  | .looping _, .receive packet =>
      packet.cmd = .profile &&
        (store.getProfileById packet.payload).any fun ref =>
          (store.objects ref).sessionsOn = maxSessions
  | _, _ => false

def Relogs (system : System) (label : Label) : Prop :=
  relogsAt system.store (system.threads label.conn) label.action = true

instance (system : System) (label : Label) : Decidable (Relogs system label) :=
  inferInstanceAs (Decidable (_ = true))

/-- The first packet is `PROFILE`, or `SET_BACKUP` for a backup. -/
def FirstPacket : Point → CmdType → Prop
  | .accepted, cmd => cmd = .profile ∨ cmd = .setBackup
  | _, _ => True

/-- The step receives no packet, or one that may be received first, if it is the
first. -/
def FirstStep (system : System) (label : Label) : Prop :=
  match label.action with
  | .receive packet => FirstPacket (system.threads label.conn) packet.cmd
  | .proceed => True

/-- A connection is in the vector of the profile that its thread serves, once,
and in no other. -/
structure BoundSessions (system : System) : Prop where
  member : ∀ ref conn, some conn ∈ (system.store.objects ref).sessions ↔
    boundAt (system.threads conn) = some ref
  live : ∀ ref, none ∉ (system.store.objects ref).sessions
  nodup : ∀ ref, (system.store.objects ref).sessions.Nodup
  logins : ∀ conn, ProfileLogin (system.threads conn)
  closed : ∀ conn ∈ system.store.closed, system.threads conn = .ended
  backups : ∀ conn ∈ system.server.listBackups, AsBackup (system.threads conn)

theorem sessionsInvariant_iff (system : System) :
    SessionsInvariant system ↔
      BoundSessions system ∧ ∀ conn, FirstLogin (system.threads conn) := by
  constructor
  · intro hinvariant
    refine ⟨⟨fun ref conn => ?_, hinvariant.live, hinvariant.nodup,
      fun conn => profileLogin_of_firstLogin (hinvariant.logins conn),
      hinvariant.closed, hinvariant.backups⟩, hinvariant.logins⟩
    rw [boundAt_of_firstLogin (hinvariant.logins conn)]
    exact hinvariant.member ref conn
  · rintro ⟨hbound, hlogins⟩
    refine ⟨fun ref conn => ?_, hbound.live, hbound.nodup, hlogins,
      hbound.closed, hbound.backups⟩
    rw [← boundAt_of_firstLogin (hlogins conn)]
    exact hbound.member ref conn

theorem boundSessions_start : BoundSessions System.start where
  member ref conn := by
    constructor
    · intro hmem
      cases hmem
    · intro hbound
      cases hbound
  live ref hmem := by cases hmem
  nodup ref := List.nodup_nil
  logins conn := trivial
  closed conn hmem := by cases hmem
  backups conn hmem := by cases hmem

theorem sessionsInvariant_start : SessionsInvariant System.start :=
  (sessionsInvariant_iff _).2 ⟨boundSessions_start, fun _ => trivial⟩

section Step

variable {system next middle : System} {conn : Conn} {point before : Point}
  {time : BitVec 64} {action : Action}

/-- A step of one thread, given what it does to the sessions. -/
theorem BoundSessions.goto (hinvariant : BoundSessions system)
    (hclosed : ∀ other ∈ middle.store.closed,
      other ∈ system.store.closed ∨ other = conn ∧ point = .ended)
    (hbackups : middle.server.listBackups = system.server.listBackups)
    (hthreads : middle.threads = system.threads)
    (hbefore : system.threads conn = before) (hrunning : before ≠ .ended)
    (hlogin : ProfileLogin point) (hbackup : AsBackup before → AsBackup point)
    (hself : ∀ ref, some conn ∈ (middle.store.objects ref).sessions ↔
      boundAt point = some ref)
    (hothers : ∀ ref, ∀ other ≠ conn,
      some other ∈ (middle.store.objects ref).sessions ↔
        some other ∈ (system.store.objects ref).sessions)
    (hlive : ∀ ref, none ∉ (middle.store.objects ref).sessions)
    (hnodup : ∀ ref, (middle.store.objects ref).sessions.Nodup) :
    BoundSessions (middle.goto conn point) where
  member ref other := by
    rcases middle.goto_threads_cases conn point other with
      ⟨rfl, hpoint⟩ | ⟨hne, hpoint⟩
    · rw [hpoint]
      exact hself ref
    · rw [hpoint, hthreads, ← hinvariant.member]
      exact hothers ref other hne
  live := hlive
  nodup := hnodup
  logins other := by
    rcases middle.goto_threads_cases conn point other with
      ⟨rfl, hpoint⟩ | ⟨_, hpoint⟩
    · rw [hpoint]
      exact hlogin
    · rw [hpoint, hthreads]
      exact hinvariant.logins other
  closed other hmem := by
    rcases middle.goto_threads_cases conn point other with
      ⟨rfl, hpoint⟩ | ⟨hne, hpoint⟩
    · rcases hclosed other hmem with hold | ⟨_, hended⟩
      · exact absurd (hbefore.symm.trans (hinvariant.closed other hold)) hrunning
      · rw [hpoint, hended]
    · rw [hpoint, hthreads]
      exact hinvariant.closed other
        ((hclosed other hmem).resolve_right fun hconn => hne hconn.1)
  backups other hmem := by
    have hold := hinvariant.backups other (hbackups ▸ hmem)
    rcases middle.goto_threads_cases conn point other with
      ⟨rfl, hpoint⟩ | ⟨_, hpoint⟩
    · rw [hpoint]
      exact hbackup (hbefore ▸ hold)
    · rw [hpoint, hthreads]
      exact hold

/-- A step of a thread that keeps all sessions and its own. -/
theorem BoundSessions.move (hinvariant : BoundSessions system)
    (hsame : SameSessions system.store middle.store)
    (hclosed : ∀ other ∈ middle.store.closed,
      other ∈ system.store.closed ∨ other = conn ∧ point = .ended)
    (hbackups : middle.server.listBackups = system.server.listBackups)
    (hthreads : middle.threads = system.threads)
    (hbefore : system.threads conn = before) (hrunning : before ≠ .ended)
    (hlogin : ProfileLogin point) (hbackup : AsBackup before → AsBackup point)
    (hsession : boundAt point = boundAt before) :
    BoundSessions (middle.goto conn point) := by
  refine hinvariant.goto hclosed hbackups hthreads hbefore hrunning hlogin
    hbackup (fun ref => ?_) (fun ref other _ => ?_) (fun ref => ?_) fun ref => ?_
  · rw [hsame.sessions, hinvariant.member, hsession, hbefore]
  · rw [hsame.sessions]
  · rw [hsame.sessions]
    exact hinvariant.live ref
  · rw [hsame.sessions]
    exact hinvariant.nodup ref

/-- A step that moves no thread. -/
theorem BoundSessions.keep (hinvariant : BoundSessions system)
    (hsame : SameSessions system.store next.store)
    (hclosed : next.store.closed = system.store.closed)
    (hbackups : next.server.listBackups = system.server.listBackups)
    (hthreads : next.threads = system.threads) : BoundSessions next where
  member ref other := by
    rw [hsame.sessions, hthreads]
    exact hinvariant.member ref other
  live ref := by
    rw [hsame.sessions]
    exact hinvariant.live ref
  nodup ref := by
    rw [hsame.sessions]
    exact hinvariant.nodup ref
  logins other := hthreads ▸ hinvariant.logins other
  closed other hmem := hthreads ▸ hinvariant.closed other (hclosed ▸ hmem)
  backups other hmem := hthreads ▸ hinvariant.backups other (hbackups ▸ hmem)

/-- Objects that are not allocated have no sessions. -/
theorem sessions_eq_nil (hinvariant : BoundSessions system)
    (hgraph : GraphInvariant system) {ref : ProfileRef}
    (hfresh : system.store.allocated ≤ ref) :
    (system.store.objects ref).sessions = [] := by
  apply List.eq_nil_iff_forall_not_mem.2
  intro session hmem
  cases session with
  | none => exact hinvariant.live ref hmem
  | some other =>
      have hmentions :=
        mentions_of_boundAt ((hinvariant.member ref other).1 hmem)
      have hlt := hgraph.wellFormed.allocated _ ref
        (hgraph.known other ref hmentions)
      exact absurd hlt hfresh.not_gt

theorem created_sameSessions (hinvariant : BoundSessions system)
    (hgraph : GraphInvariant system) (haccounts : Accounts system)
    (profileId : ByteString) :
    SameSessions system.store (system.store.created profileId) := by
  have hsessions := sessions_eq_nil hinvariant hgraph (le_refl _)
  have hcount := (haccounts.accounted system.store.allocated).1
  rw [hsessions] at hcount
  constructor
  · intro ref
    rw [created_objects]
    split
    · next heq => rw [heq, hcount]; rfl
    · rfl
  · intro ref
    rw [created_objects]
    split
    · next heq => rw [heq, hsessions]; rfl
    · rfl

/-- The search for the profile of a login keeps all sessions and closes at most
the refused connection. -/
theorem findOrCreate_sessions (hinvariant : BoundSessions system)
    (hgraph : GraphInvariant system) (haccounts : Accounts system)
    {profileId : ByteString} {result : Except Exit ProfileRef} {store : Store}
    (hfind : system.store.findOrCreate profileId (some conn) time =
      (result, store)) :
    SameSessions system.store store ∧
      ∀ other ∈ store.closed, other ∈ system.store.closed ∨
        other = conn ∧ result = .error .threadExit := by
  have hcreated := created_sameSessions hinvariant hgraph haccounts profileId
  cases result with
  | ok profile =>
      rcases Store.findOrCreate_ok _ hfind with ⟨_, _, rfl⟩ | ⟨_, _, hsame⟩
      · exact ⟨.refl _, fun _ => .inl⟩
      · refine ⟨hcreated.trans (.of_objects hsame.objects), fun other hmem => ?_⟩
        rw [hsame.closed] at hmem
        exact .inl hmem
  | error exit =>
      rcases Store.findOrCreate_error _ hfind with ⟨rfl, _, rfl⟩ | ⟨_, _, hsame⟩
      · refine ⟨.of_objects rfl, fun other hmem => ?_⟩
        rcases List.mem_append.1 hmem with hold | hconn
        · exact .inl hold
        · exact .inr ⟨List.mem_singleton.1 hconn, rfl⟩
      · refine ⟨hcreated.trans (.of_objects hsame.objects), fun other hmem => ?_⟩
        rw [hsame.closed] at hmem
        exact .inl hmem

/-- A login puts the connection at the end of the vector of its profile. -/
theorem BoundSessions.registered (hinvariant : BoundSessions system)
    {profile : ProfileRef} {packet : Packet}
    (hpoint : system.threads conn =
      .registering profile packet (.greet profile)) :
    BoundSessions
      (system.registerSession conn profile packet (.greet profile)) := by
  have habsent (ref : ProfileRef) :
      some conn ∉ (system.store.objects ref).sessions := by
    rw [hinvariant.member, hpoint]
    exact nofun
  refine hinvariant.goto (fun _ => .inl) rfl rfl hpoint (by exact nofun) trivial
    (fun hbackup => hbackup.elim) (fun ref => ?_) (fun ref other hne => ?_)
    (fun ref => ?_) fun ref => ?_
  · change some conn ∈
      ((system.store.incSessionsOn profile (some conn)).objects ref).sessions ↔ _
    rw [Store.incSessionsOn_objects_sessions]
    split
    · next heq => simp [heq, boundAt, sessionAt]
    · next hne => simp [habsent, boundAt, sessionAt, Ne.symm hne]
  · change some other ∈
      ((system.store.incSessionsOn profile (some conn)).objects ref).sessions ↔ _
    rw [Store.incSessionsOn_objects_sessions]
    split
    · simp [hne]
    · rfl
  · change none ∉
      ((system.store.incSessionsOn profile (some conn)).objects ref).sessions
    rw [Store.incSessionsOn_objects_sessions]
    split
    · simpa using hinvariant.live ref
    · exact hinvariant.live ref
  · change ((system.store.incSessionsOn profile (some conn)).objects
      ref).sessions.Nodup
    rw [Store.incSessionsOn_objects_sessions]
    split
    · apply (hinvariant.nodup ref).append (List.nodup_singleton _)
      exact List.disjoint_singleton.2 (habsent ref)
    · exact hinvariant.nodup ref

/-- `CLOSE_CONN` takes the connection out of the vector of its profile. -/
theorem BoundSessions.left (hinvariant : BoundSessions system)
    {packet : Packet} {profile : ProfileRef}
    (hpoint : system.threads conn = .looping profile) :
    BoundSessions ((system.countPacket.onStore fun store =>
      store.decSessionsOn profile (some conn)).goto conn
        (.forwarding packet 0 .quit)) := by
  refine hinvariant.goto (fun _ => .inl) rfl rfl hpoint (by exact nofun) trivial
    (fun hbackup => hbackup.elim) (fun ref => ?_) (fun ref other hne => ?_)
    (fun ref => ?_) fun ref => ?_
  · change some conn ∈
      ((system.store.decSessionsOn profile (some conn)).objects ref).sessions ↔ _
    have hmember := hinvariant.member ref conn
    rw [hpoint] at hmember
    rw [Store.decSessionsOn_objects_sessions]
    split
    · simp [(hinvariant.nodup ref).mem_erase_iff, boundAt, sessionAt]
    · next hne => simp [hmember, boundAt, sessionAt, Ne.symm hne]
  · change some other ∈
      ((system.store.decSessionsOn profile (some conn)).objects ref).sessions ↔ _
    rw [Store.decSessionsOn_objects_sessions]
    split
    · simp [(hinvariant.nodup ref).mem_erase_iff, hne]
    · rfl
  · change none ∉
      ((system.store.decSessionsOn profile (some conn)).objects ref).sessions
    rw [Store.decSessionsOn_objects_sessions]
    split
    · exact fun hmem => hinvariant.live ref (List.mem_of_mem_erase hmem)
    · exact hinvariant.live ref
  · change ((system.store.decSessionsOn profile (some conn)).objects
      ref).sessions.Nodup
    rw [Store.decSessionsOn_objects_sessions]
    split
    · exact (hinvariant.nodup ref).erase _
    · exact hinvariant.nodup ref

/-- A connection that becomes a backup has no session. -/
theorem BoundSessions.joined (hinvariant : BoundSessions system)
    {packet : Packet} (hpoint : system.threads conn = .accepted) :
    BoundSessions ({ system.countPacket with
      server := { system.server with
        listBackups := system.server.listBackups ++ [conn] } }.goto conn
          (.joining packet.payload)) := by
  have hmoved : BoundSessions
      (system.countPacket.goto conn (.joining packet.payload)) :=
    hinvariant.move (.refl _) (fun _ => .inl) rfl rfl hpoint (by exact nofun)
      trivial (fun _ => trivial) rfl
  refine ⟨hmoved.member, hmoved.live, hmoved.nodup, hmoved.logins,
    hmoved.closed, fun other hmem => ?_⟩
  rcases List.mem_append.1 hmem with hold | hconn
  · exact hmoved.backups other hold
  · rw [List.mem_singleton.1 hconn]
    change AsBackup (Function.update system.threads conn _ conn)
    rw [Function.update_self]
    trivial

/-- A login goes on behind the search for its profile, first or not. -/
theorem BoundSessions.found (hinvariant : BoundSessions system)
    (hgraph : GraphInvariant system) (haccounts : Accounts system)
    {packet : Packet} {continuation : ProfileRef → Next} {profile : ProfileRef}
    {store : Store} (henter : Enters (system.threads conn) continuation)
    (hfind : system.store.findOrCreate packet.payload (some conn) time =
      (.ok profile, store)) :
    BoundSessions ((system.locked store).goto conn
      (.registering profile packet (continuation profile))) := by
  obtain ⟨hsame, hclosed⟩ :=
    findOrCreate_sessions hinvariant hgraph haccounts hfind
  have hopen (other : Conn) (hmem : other ∈ store.closed) :
      other ∈ system.store.closed :=
    (hclosed other hmem).resolve_right fun hrefused => nomatch hrefused.2
  generalize hpoint : system.threads conn = point at henter
  cases henter with
  | first =>
      exact hinvariant.move hsame (fun other hmem => .inl (hopen other hmem)) rfl
        rfl hpoint (by exact nofun) (.inl rfl) (fun hbackup => hbackup.elim) rfl
  | again session =>
      exact hinvariant.move hsame (fun other hmem => .inl (hopen other hmem)) rfl
        rfl hpoint (by exact nofun) (.inr ⟨session, rfl⟩)
        (fun hbackup => hbackup.elim) rfl

/-- A refused first login leaves a closed connection without a session. -/
theorem BoundSessions.refused (hinvariant : BoundSessions system)
    (hgraph : GraphInvariant system) (haccounts : Accounts system)
    {packet : Packet} {continuation : ProfileRef → Next} {store : Store}
    (hrelogs : ¬ Relogs system ⟨conn, time, .receive packet⟩)
    (henter : Enters (system.threads conn) continuation)
    (hcmd : packet.cmd = .profile)
    (hfind : system.store.findOrCreate packet.payload (some conn) time =
      (.error .threadExit, store)) :
    BoundSessions ((system.locked store).goto conn .ended) := by
  obtain ⟨hsame, hclosed⟩ :=
    findOrCreate_sessions hinvariant hgraph haccounts hfind
  generalize hpoint : system.threads conn = point at henter
  cases henter with
  | first =>
      refine hinvariant.move hsame (fun other hmem => ?_) rfl rfl hpoint
        (by exact nofun) trivial (fun hbackup => hbackup.elim) rfl
      exact (hclosed other hmem).imp_right fun hrefused => ⟨hrefused.1, rfl⟩
  | again session =>
      rcases Store.findOrCreate_error _ hfind with
        ⟨_, ⟨ref, hfound, hfull⟩, _⟩ | ⟨hexit, _⟩
      · exact absurd (by simp [Relogs, relogsAt, hpoint, hcmd, hfound, hfull])
          hrelogs
      · cases hexit

/-- The first packet of a client or a backup names no sender to look up. -/
theorem not_sender_packet {packet : Packet}
    (hfirst : FirstStep system ⟨conn, time, .receive packet⟩)
    (hpoint : system.threads conn = .accepted) (hprofile : packet.cmd ≠ .profile)
    (hbackup : packet.cmd ≠ .setBackup) : False := by
  change FirstPacket (system.threads conn) packet.cmd at hfirst
  rw [hpoint] at hfirst
  exact hfirst.elim hprofile hbackup

theorem BoundSessions.step (hinvariant : BoundSessions system)
    (hgraph : GraphInvariant system) (haccounts : Accounts system)
    (hfirst : FirstStep system ⟨conn, time, action⟩)
    (hrelogs : ¬ Relogs system ⟨conn, time, action⟩)
    (htransition : Transition system conn time action next) :
    BoundSessions next := by
  cases htransition with
  | found henter hcmd hwritable hfind =>
      exact hinvariant.found hgraph haccounts henter hfind
  | refused henter hcmd hwritable hfind =>
      exact hinvariant.refused hgraph haccounts hrelogs henter hcmd hfind
  | findFailed henter hcmd hwritable hfind hexit =>
      have hsame := (findOrCreate_sessions hinvariant hgraph haccounts hfind).1
      rcases Store.findOrCreate_error _ hfind with
        ⟨hrefused, _⟩ | ⟨_, _, hmemory⟩
      · exact absurd hrefused hexit
      · exact hinvariant.keep hsame hmemory.closed rfl rfl
  | joined hpoint hcmd => exact hinvariant.joined hpoint
  | senderFound hpoint hprofile hbackup hfound =>
      exact (not_sender_packet hfirst hpoint hprofile hbackup).elim
  | senderUnknown hpoint hprofile hbackup hunknown =>
      exact (not_sender_packet hfirst hpoint hprofile hbackup).elim
  | reconnected hpoint =>
      have hlogin := hinvariant.logins conn
      rw [hpoint] at hlogin
      exact hlogin.elim
  | addressPushed hpoint =>
      exact hinvariant.move (.refl _) (fun _ => .inl) rfl rfl hpoint
        (by exact nofun) trivial (fun _ => trivial) rfl
  | propagated hpoint =>
      exact hinvariant.move (.refl _) (fun _ => .inl) rfl rfl hpoint
        (by exact nofun) trivial (fun _ => trivial) rfl
  | @registered profile packet continuation hpoint =>
      have hlogin := hinvariant.logins conn
      rw [hpoint] at hlogin
      rcases hlogin with rfl | ⟨session, rfl⟩
      · exact hinvariant.registered hpoint
      · exact absurd (by simp [Relogs, relogsAt, hpoint]) hrelogs
  | @forwarded packet index continuation backup hpoint hbackup =>
      refine hinvariant.move (.of_objects rfl) (fun _ => .inl) rfl rfl hpoint
        (by exact nofun) trivial (fun hbackup => ?_) ?_
      · cases continuation <;> exact hbackup
      · cases continuation <;> rfl
  | @forwardDone packet index continuation hpoint hlast =>
      refine hinvariant.move (.refl _) (fun _ => .inl) rfl rfl hpoint
        (by exact nofun) ?_ (fun hbackup => ?_)
        (boundAt_next packet index continuation)
      · cases continuation <;> trivial
      · cases continuation <;> first | exact hbackup.elim | trivial
  | greeted hpoint =>
      exact hinvariant.move (.of_objects rfl) (fun _ => .inl) rfl rfl hpoint
        (by exact nofun) trivial (fun hbackup => hbackup.elim) rfl
  | fetched hpoint hfetch =>
      exact hinvariant.move (fetchInboxContent_sameSessions _ _) (fun _ => .inl)
        rfl rfl hpoint (by exact nofun) trivial (fun hbackup => hbackup.elim) rfl
  | fetchFailed =>
      exact hinvariant.keep (fetchInboxContent_sameSessions _ _) rfl rfl rfl
  | @followed packet profile store hpoint hcmd hwritable hfollow =>
      have hsame := addFollowerTo_sameSessions system.store packet.payload profile
      have hclosed :=
        system.store.addFollowerTo_closed packet.payload (some profile)
      rw [hfollow] at hsame hclosed
      exact hinvariant.move hsame (fun _ hmem => .inl (hclosed ▸ hmem)) rfl rfl
        hpoint (by exact nofun) trivial (fun hbackup => hbackup.elim) rfl
  | @followFailed packet profile store exit hpoint hcmd hwritable hfollow =>
      have hsame := addFollowerTo_sameSessions system.store packet.payload profile
      have hclosed :=
        system.store.addFollowerTo_closed packet.payload (some profile)
      rw [hfollow] at hsame hclosed
      exact hinvariant.keep hsame hclosed rfl rfl
  | sendBegun hpoint hcmd hwritable =>
      exact hinvariant.move (.refl _) (fun _ => .inl) rfl rfl hpoint
        (by exact nofun) trivial (fun hbackup => hbackup.elim) rfl
  | sent hpoint hfollower =>
      exact hinvariant.move (sendOrInsertInbox_sameSessions _ _ _)
        (fun _ => .inl) rfl rfl hpoint (by exact nofun) trivial
        (fun hbackup => hbackup.elim) rfl
  | sendDone hpoint hlast =>
      exact hinvariant.move (.refl _) (fun _ => .inl) rfl rfl hpoint
        (by exact nofun) trivial (fun hbackup => hbackup.elim) rfl
  | left hpoint hcmd => exact hinvariant.left hpoint
  | listReplaced => exact hinvariant.keep (.refl _) rfl rfl rfl
  | ignored => exact hinvariant.keep (.refl _) rfl rfl rfl
  | loopLeft hpoint hclosed =>
      have hended := hinvariant.closed conn hclosed
      rw [hpoint] at hended
      cases hended
  | closed hpoint =>
      refine hinvariant.move (.of_objects rfl) (fun other hmem => ?_) rfl rfl
        hpoint (by exact nofun) trivial (fun hbackup => hbackup.elim) rfl
      rcases List.mem_append.1 hmem with hold | hconn
      · exact .inl hold
      · exact .inr ⟨List.mem_singleton.1 hconn, rfl⟩

/-- Clients log in with their first packet. -/
theorem enters_first {packet : Packet} {continuation : ProfileRef → Next}
    (hclient : ClientStep system ⟨conn, time, .receive packet⟩)
    (henter : Enters (system.threads conn) continuation)
    (hcmd : packet.cmd = .profile) :
    system.threads conn = .accepted ∧ continuation = Next.greet := by
  change ClientPacket (system.threads conn) packet.cmd = true at hclient
  generalize system.threads conn = point at henter hclient
  cases henter with
  | first => exact ⟨rfl, rfl⟩
  | again session => simp [ClientPacket, hcmd] at hclient

theorem firstStep_of_clientStep
    (hclient : ClientStep system ⟨conn, time, action⟩) :
    FirstStep system ⟨conn, time, action⟩ := by
  cases action with
  | proceed => trivial
  | receive packet =>
      change ClientPacket (system.threads conn) packet.cmd = true at hclient
      change FirstPacket (system.threads conn) packet.cmd
      generalize system.threads conn = point at hclient
      cases point with
      | accepted => simpa [ClientPacket, FirstPacket] using hclient
      | _ => trivial

/-- Clients that log in only once never log in in their session. -/
theorem not_relogs_of_clientStep (hlogin : FirstLogin (system.threads conn))
    (hclient : ClientStep system ⟨conn, time, action⟩) :
    ¬ Relogs system ⟨conn, time, action⟩ := by
  intro hrelogs
  change relogsAt system.store (system.threads conn) action = true at hrelogs
  have hpacket : ∀ packet, action = .receive packet →
      ClientPacket (system.threads conn) packet.cmd = true := by
    rintro packet rfl
    exact hclient
  generalize system.threads conn = point at hlogin hpacket hrelogs
  unfold relogsAt at hrelogs
  split at hrelogs
  · cases hlogin
  · simp only [Bool.and_eq_true, decide_eq_true_eq] at hrelogs
    simpa [ClientPacket, hrelogs.1] using hpacket _ rfl
  · cases hrelogs

/-- A step leads a thread to a point that only first logins lead to. -/
theorem firstLogin_of_transition
    (hlogins : ∀ other, FirstLogin (system.threads other))
    (hclient : ClientStep system ⟨conn, time, action⟩)
    (htransition : Transition system conn time action next) (other : Conn) :
    FirstLogin (next.threads other) := by
  have hgoto {middle : System} {point : Point}
      (hthreads : middle.threads = system.threads) (hpoint : FirstLogin point) :
      FirstLogin ((middle.goto conn point).threads other) := by
    rcases middle.goto_threads_cases conn point other with
      ⟨_, hmoved⟩ | ⟨_, hkept⟩
    · rwa [hmoved]
    · rw [hkept, hthreads]
      exact hlogins other
  cases htransition with
  | found henter hcmd hwritable hfind =>
      obtain ⟨_, rfl⟩ := enters_first hclient henter hcmd
      exact hgoto rfl rfl
  | findFailed => exact hlogins other
  | senderFound hpoint hprofile hbackup hfound =>
      exact (not_sender_packet (firstStep_of_clientStep hclient) hpoint hprofile
        hbackup).elim
  | senderUnknown => exact hlogins other
  | @forwardDone packet index continuation hpoint hlast =>
      exact hgoto rfl (by cases continuation <;> trivial)
  | fetchFailed => exact hlogins other
  | followFailed => exact hlogins other
  | listReplaced => exact hlogins other
  | ignored => exact hlogins other
  | _ => exact hgoto rfl trivial

theorem SessionsInvariant.step (hinvariant : SessionsInvariant system)
    (hgraph : GraphInvariant system) (haccounts : Accounts system)
    (hclient : ClientStep system ⟨conn, time, action⟩)
    (htransition : Transition system conn time action next) :
    SessionsInvariant next := by
  obtain ⟨hbound, hlogins⟩ := (sessionsInvariant_iff system).1 hinvariant
  have hrelogs := not_relogs_of_clientStep (hlogins conn) hclient
  exact (sessionsInvariant_iff next).2
    ⟨hbound.step hgraph haccounts (firstStep_of_clientStep hclient) hrelogs
      htransition,
    firstLogin_of_transition hlogins hclient htransition⟩

end Step

end TwitterLike.Sessions
