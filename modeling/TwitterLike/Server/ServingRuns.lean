import TwitterLike.Server.BackupConvergence
import TwitterLike.Server.RequestRuns

/-!
# Serving one request after the other

What holds of a server between any two requests from the moment on at which
`main` begins to accept connections, and what one request leaves of the other
connections.
-/

namespace TwitterLike.ServingRuns

open TwitterLike.PacketFormat
open TwitterLike.Profiles
open TwitterLike.ProfilesManager
open TwitterLike.Handlers
open TwitterLike.FollowGraph
open TwitterLike.GraphHistory
open TwitterLike.Transition
open TwitterLike.SessionAccounting
open TwitterLike.Commands
open TwitterLike.Replication
open TwitterLike.BackupConvergence
open TwitterLike.BackupSimulation
open TwitterLike.RequestRuns
open TwitterLike.Threads (Known known_of_found)

/-! ## Consistent servers -/

/-- The accept loop of `main` begins: in a primary with the globals as they were
constructed, in a promoted backup with those that `receiveAlive` has left. -/
def Primary.serving (server : Server) (received : ℕ) : Primary where
  server := server
  sessions := fun _ => .fresh
  received := received

/-- The graph is consistent, and all sessions are of stored profiles. -/
structure Consistent (primary : Primary) : Prop where
  wellFormed : WellFormed primary.server.store
  known : ∀ conn ref, primary.sessions conn = .loggedIn ref →
    Known primary.server.store ref

section Consistent

variable {primary next : Primary} {request : Request}

theorem consistent_serving {server : Server} (hwf : WellFormed server.store)
    (received : ℕ) : Consistent (Primary.serving server received) where
  wellFormed := hwf
  known _ _ hsession := by cases hsession

theorem Consistent.allocated (hconsistent : Consistent primary) {conn : Conn}
    {ref : ProfileRef} (hsession : primary.sessions conn = .loggedIn ref) :
    ref < primary.server.store.allocated :=
  hconsistent.wellFormed.allocated _ ref (hconsistent.known conn ref hsession)

/-- A request changes the session of its own connection alone. -/
theorem sessions_of_attend (hattend : attend primary request = some next) :
    ∃ session, session ≠ .fresh ∧
      next.sessions = Function.update primary.sessions request.conn session := by
  cases attended_of_attend hattend with
  | answered hanswered => cases hanswered <;> exact ⟨_, by simp, rfl⟩
  | refused hrefused =>
      rw [hrefused.left]
      exact ⟨_, by simp, rfl⟩
  | joined => exact ⟨_, by simp, rfl⟩
  | reconnected => exact ⟨_, by simp, rfl⟩
  | passed => exact ⟨_, by simp, rfl⟩
  | dropped => exact ⟨_, by simp, rfl⟩

/-- A request keeps the graph consistent and what is in it, and its connection
is then logged in to a stored profile or to none. -/
structure Grows (primary : Primary) (request : Request) (next : Primary) :
    Prop where
  wellFormed : WellFormed next.server.store
  keeps : Extends primary.server.store next.server.store
  known : ∀ ref, next.sessions request.conn = .loggedIn ref →
    Known next.server.store ref

theorem grows_of_answered (hconsistent : Consistent primary)
    (hanswered : Answered primary request next) :
    Grows primary request next := by
  have hwf := hconsistent.wellFormed
  obtain ⟨store, final, session, rfl, happlied, hfinishes, hcontinues⟩ :=
    hanswered.finishes
  have hacts (ref : ProfileRef)
      (hprofile : (primary.sessions request.conn).profile = some ref) :
      Known primary.server.store ref := by
    apply hconsistent.known request.conn
    cases hsession : primary.sessions request.conn <;>
      simp_all [Session.profile]
  have hkeeps := (happlied.extends hwf).trans (.of_sameGraph hfinishes.graph)
  refine ⟨hfinishes.graph.wellFormed (happlied.wellFormed hwf hacts), hkeeps,
    fun ref hsession => ?_⟩
  have hcontinued := (Function.update_self ..).symm.trans hsession
  cases hcontinues with
  | entered hfresh hcreate =>
      cases hcontinued
      exact (known_of_createProfileIfNotExists hwf hcreate).of_sameGraph
        hfinishes.graph
  | stayed hlogged hcmd =>
      cases hcontinued
      exact hkeeps.known (hconsistent.known request.conn ref hlogged)
  | ended => cases hcontinued

/-- A request that leaves the graph alone. -/
theorem grows_of_sameGraph (hconsistent : Consistent primary) {server : Server}
    {session : Session} (hsame : SameGraph primary.server.store server.store)
    (hknown : ∀ ref, session = .loggedIn ref →
      Known primary.server.store ref) :
    Grows primary request (primary.answered request.conn server session) where
  wellFormed := hsame.wellFormed hconsistent.wellFormed
  keeps := .of_sameGraph hsame
  known ref hsession := (hknown ref
    ((Function.update_self ..).symm.trans hsession)).of_sameGraph hsame

theorem grows_of_attend (hconsistent : Consistent primary)
    (hattend : attend primary request = some next) :
    Grows primary request next := by
  cases attended_of_attend hattend with
  | answered hanswered => exact grows_of_answered hconsistent hanswered
  | refused hrefused =>
      rw [hrefused.left]
      exact grows_of_sameGraph hconsistent (refuse_sameGraph _ _ _) nofun
  | joined hsession hcmd =>
      exact grows_of_sameGraph hconsistent (forward_sameGraph _ _ _) nofun
  | @reconnected ref greeting hsession hfound =>
      have hupdated := updateSessionsOn_sameGraph primary.server.store ref
        (some request.conn)
      apply grows_of_sameGraph hconsistent
      · exact (hupdated.trans (sendPacket_sameGraph _ request.conn
          greeting)).trans (fetchInboxContent_sameGraph _ ref)
      · rintro _ ⟨⟩
        exact known_of_found hconsistent.wellFormed hfound
  | passed hsession =>
      apply grows_of_sameGraph hconsistent
      · exact .refl primary.server.store
      · rintro _ ⟨⟩
        exact hconsistent.known _ _ hsession
  | dropped hsession =>
      exact grows_of_sameGraph hconsistent (closeConn_sameGraph _ request.conn)
        nofun

theorem Consistent.step (hconsistent : Consistent primary)
    (hattend : attend primary request = some next) : Consistent next := by
  have hgrows := grows_of_attend hconsistent hattend
  obtain ⟨session, _, hsessions⟩ := sessions_of_attend hattend
  refine ⟨hgrows.wellFormed, fun conn ref hsession => ?_⟩
  by_cases hself : conn = request.conn
  · exact hgrows.known ref (hself ▸ hsession)
  · rw [hsessions, Function.update_of_ne hself] at hsession
    exact hgrows.keeps.known (hconsistent.known conn ref hsession)

end Consistent

/-! ## What a request leaves alone -/

/-- What a request does to the connections: it closes none but its own, and
ends no session of another. -/
structure Spares (primary : Primary) (request : Request) (next : Primary) :
    Prop where
  elsewhere : ∀ conn, conn ≠ request.conn →
    next.sessions conn = primary.sessions conn
  closed : ∀ conn ∈ next.server.store.closed,
    conn ∈ primary.server.store.closed ∨
      conn = request.conn ∧ next.sessions conn = .finished
  kept : ∀ conn ref, conn ≠ request.conn →
    ref < primary.server.store.allocated →
    some conn ∈ (primary.server.store.objects ref).sessions →
      some conn ∈ (next.server.store.objects ref).sessions
  listed : ∀ ref, next.sessions request.conn = .loggedIn ref →
    (primary.sessions request.conn = .loggedIn ref →
      ref < primary.server.store.allocated ∧
        some request.conn ∈ (primary.server.store.objects ref).sessions) →
    some request.conn ∈ (next.server.store.objects ref).sessions

section Spares

variable {primary next : Primary} {request : Request}

theorem forward_closed (backups : List Conn) (packet : Packet) (store : Store) :
    (forward backups packet store).closed = store.closed := by
  rw [forward_eq]

theorem spares_answered (hanswered : Answered primary request next) :
    Spares primary request next := by
  have hclosed : ∀ conn ∈ next.server.store.closed,
      conn ∈ primary.server.store.closed ∨
        conn = request.conn ∧ next.sessions conn = .finished := by
    intro conn hmem
    cases hanswered with
    | @greeted ref store greeting hsession hcmd hcreate =>
        have happlied : Applied (some request.conn) none
            ⟨primary.received, request.packet⟩ request.time primary.server.store
            store := .registered hcmd hcreate
        change conn ∈ (forward primary.server.listBackups request.packet
          store).closed at hmem
        rw [forward_closed, happlied.closed] at hmem
        exact .inl hmem
    | served hsession hcmd happlied =>
        change conn ∈ (forward _ _ _).closed at hmem
        rw [forward_closed, happlied.closed] at hmem
        exact .inl hmem
    | ended hsession happlied =>
        change conn ∈ (forward _ _ _).closed ++ [request.conn] at hmem
        rw [forward_closed, happlied.closed, List.mem_append,
          List.mem_singleton] at hmem
        refine hmem.imp_right fun hself => ⟨hself, ?_⟩
        rw [hself]
        exact Function.update_self ..
  obtain ⟨store, final, session, rfl, happlied, hfinishes, hcontinues⟩ :=
    hanswered.finishes
  constructor
  case elsewhere => exact fun conn hne => Function.update_of_ne hne ..
  case closed => exact hclosed
  case kept =>
    intro conn ref hne hallocated hmem
    refine (hfinishes.sessions.sessions ref).symm ▸ ?_
    exact happlied.mem_sessions_after (.inl (by simpa using hne)) hallocated hmem
  case listed =>
    intro ref hsession hbefore
    have hcontinued := (Function.update_self ..).symm.trans hsession
    refine (hfinishes.sessions.sessions ref).symm ▸ ?_
    cases hcontinues with
    | entered hfresh hcreate =>
        cases hcontinued
        exact mem_sessions_of_createProfileIfNotExists hcreate
    | stayed hlogged hcmd =>
        cases hcontinued
        obtain ⟨hallocated, hmem⟩ := hbefore hlogged
        exact happlied.mem_sessions_after (.inr hcmd) hallocated hmem
    | ended => cases hcontinued

/-- A request that leaves the objects alone. -/
theorem spares_of_objects {server : Server} {session : Session}
    (hobjects : server.store.objects = primary.server.store.objects)
    (hclosed : ∀ conn ∈ server.store.closed,
      conn ∈ primary.server.store.closed ∨
        conn = request.conn ∧ session = .finished)
    (hsession : ∀ ref, session = .loggedIn ref →
      primary.sessions request.conn = .loggedIn ref) :
    Spares primary request (primary.answered request.conn server session) := by
  constructor
  case elsewhere => exact fun conn hne => Function.update_of_ne hne ..
  case closed =>
    intro conn hmem
    refine (hclosed conn hmem).imp_right fun ⟨hself, hfinished⟩ => ⟨hself, ?_⟩
    rw [hself]
    exact (Function.update_self ..).trans hfinished
  case kept =>
    intro conn ref _ _ hmem
    change some conn ∈ (server.store.objects ref).sessions
    rwa [hobjects]
  case listed =>
    intro ref hlogged hbefore
    have hcontinued := (Function.update_self ..).symm.trans hlogged
    change some request.conn ∈ (server.store.objects ref).sessions
    rw [hobjects]
    exact (hbefore (hsession ref hcontinued)).2

theorem spares_reconnected {ref : ProfileRef} {greeting : Packet} :
    Spares primary request (primary.answered request.conn
      (primary.server.onStore fun store =>
        (((store.updateSessionsOn ref (some request.conn)).sendPacket
          request.conn greeting).fetchInboxContent ref).2)
      (.loggedIn ref)) := by
  let updated := primary.server.store.updateSessionsOn ref (some request.conn)
  have hfetched := fetchInboxContent_sameSessions
    (updated.sendPacket request.conn greeting) ref
  have hmem {conn : Conn} {target : ProfileRef} :
      some conn ∈ (updated.objects target).sessions ↔
        some conn ∈ (primary.server.store.objects target).sessions ∨
          target = ref ∧ conn = request.conn := by
    rw [Store.updateSessionsOn_objects_sessions]
    by_cases htarget : target = ref
    · simp [htarget]
    · simp [htarget]
  constructor
  case elsewhere => exact fun conn hne => Function.update_of_ne hne ..
  case closed => exact fun conn hclosed => .inl hclosed
  case kept =>
    intro conn target _ _ hbefore
    exact (hfetched.sessions target).symm ▸ hmem.2 (.inl hbefore)
  case listed =>
    intro target hlogged _
    cases (Function.update_self ..).symm.trans hlogged
    exact (hfetched.sessions ref).symm ▸ hmem.2 (.inr ⟨rfl, rfl⟩)

theorem spares_of_attend (hattend : attend primary request = some next) :
    Spares primary request next := by
  cases attended_of_attend hattend with
  | answered hanswered => exact spares_answered hanswered
  | refused hrefused =>
      rw [hrefused.left]
      apply spares_of_objects
      · rfl
      · intro conn hmem
        have hclosed := List.mem_append.1 hmem
        exact hclosed.imp_right fun hself => ⟨List.mem_singleton.1 hself, rfl⟩
      · exact nofun
  | joined hsession hcmd =>
      apply spares_of_objects
      · change (forward _ _ primary.server.store).objects = _
        rw [forward_eq]
      · intro conn hmem
        change conn ∈ (forward _ _ primary.server.store).closed at hmem
        rw [forward_closed] at hmem
        exact .inl hmem
      · exact nofun
  | reconnected hsession hfound => exact spares_reconnected
  | passed hsession =>
      apply spares_of_objects
      · rfl
      · exact fun conn hmem => .inl hmem
      · rintro _ ⟨⟩
        exact hsession
  | dropped hsession =>
      apply spares_of_objects
      · rfl
      · intro conn hmem
        have hclosed := List.mem_append.1 hmem
        exact hclosed.imp_right fun hself => ⟨List.mem_singleton.1 hself, rfl⟩
      · exact nofun

end Spares

/-! ## The connection while its thread runs -/

/-- The connection is open, and is in a session of the profile it is logged in
to. -/
structure Serving (conn : Conn) (primary : Primary) : Prop where
  consistent : Consistent primary
  isOpen : conn ∉ primary.server.store.closed
  listed : ∀ ref, primary.sessions conn = .loggedIn ref →
    some conn ∈ (primary.server.store.objects ref).sessions

section Serving

variable {conn : Conn} {primary next : Primary} {request : Request}

theorem Serving.other (hserving : Serving conn primary)
    (hne : conn ≠ request.conn) (hattend : attend primary request = some next) :
    Serving conn next ∧ next.sessions conn = primary.sessions conn := by
  have hspares := spares_of_attend hattend
  have hsame := hspares.elsewhere conn hne
  refine ⟨⟨hserving.consistent.step hattend, ?_, ?_⟩, hsame⟩
  · intro hclosed
    rcases hspares.closed conn hclosed with hbefore | ⟨hself, _⟩
    · exact hserving.isOpen hbefore
    · exact hne hself
  · intro ref hsession
    rw [hsame] at hsession
    exact hspares.kept conn ref hne (hserving.consistent.allocated hsession)
      (hserving.listed ref hsession)

theorem Serving.own (hserving : Serving request.conn primary)
    (hattend : attend primary request = some next)
    (hruns : next.sessions request.conn ≠ .finished) :
    Serving request.conn next := by
  have hspares := spares_of_attend hattend
  refine ⟨hserving.consistent.step hattend, ?_, ?_⟩
  · intro hclosed
    rcases hspares.closed request.conn hclosed with hbefore | ⟨_, hfinished⟩
    · exact hserving.isOpen hbefore
    · exact hruns hfinished
  · exact fun ref hsession => hspares.listed ref hsession fun hbefore =>
      ⟨hserving.consistent.allocated hbefore, hserving.listed ref hbefore⟩

/-- A backup closes no connection. -/
theorem closed_of_exec_relay {received : List Relayed} {backup : Server}
    (hbackup : exec relay Server.new received = some backup) :
    backup.store.closed = [] := by
  have hstep (server : Server) (relayed : Relayed) (after : Server)
      (hclosed : server.store.closed = []) (_ : True)
      (hrelay : relay server relayed = some after) :
      after.store.closed = [] := by
    rcases applied_of_relay hrelay with ⟨store, happlied, hstore⟩ | ⟨_, hstore⟩
    · rw [hstore, forward_closed, happlied.closed, hclosed]
    · rw [hstore, hclosed]
  exact exec_invariant hstep rfl (along_true Server.new received) hbackup

theorem serving_of_exec_relay {received : List Relayed} {backup : Server}
    (hbackup : exec relay Server.new received = some backup) (conn : Conn)
    (count : ℕ) : Serving conn (Primary.serving backup count) where
  consistent := consistent_serving (wellFormed_of_exec_relay wellFormed_empty
    hbackup) count
  isOpen := by
    change conn ∉ backup.store.closed
    rw [closed_of_exec_relay hbackup]
    exact List.not_mem_nil
  listed _ hsession := by cases hsession

end Serving

end TwitterLike.ServingRuns
