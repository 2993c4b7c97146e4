import TwitterLike.Commons.Arrivals
import TwitterLike.Core.Consumer
import TwitterLike.Server.ServingRuns

/-!
# The loop of a client's connection

`fromClient` of `server/main.cpp` on one connection: its first packet and its
loop, each turn after any requests of other connections.  A receive never
fails, so the thread ends only with a packet that ends it.
-/

namespace TwitterLike.ClientLoop

open TwitterLike.PacketFormat
open TwitterLike.Connections
open TwitterLike.Profiles
open TwitterLike.ProfilesManager
open TwitterLike.ProfileAccessController
open TwitterLike.Handlers
open TwitterLike.Faulting
open TwitterLike.FollowGraph
open TwitterLike.SessionAccounting
open TwitterLike.Commands
open TwitterLike.Replication
open TwitterLike.BackupSimulation
open TwitterLike.RequestRuns
open TwitterLike.ServingRuns
open TwitterLike.Arrivals
open TwitterLike.Consumer

/-! ## Turns -/

/-- The requests of the other connections, each handled to its end; one whose
handler does not come to its end is left out. -/
def settle (conn : Conn) (primary : Primary) (requests : List Request) : Primary :=
  requests.foldl
    (fun primary request =>
      if request.conn = conn then primary
      else (attend primary request).getD primary)
    primary

/-- The thread of a connection has ended. -/
structure Departure where
  /-- the profile of the session that it served -/
  profile : Option ProfileRef
  primary : Primary

/-- What the thread of the connection does with one packet. -/
def process (conn : Conn) (primary : Primary) (packet : Packet)
    (time : BitVec 64) : Turn Primary Departure :=
  match attend primary ⟨conn, packet, time⟩ with
  | none => .stuck
  | some next =>
      match next.sessions conn with
      | .finished => .ended ⟨(primary.sessions conn).profile, next⟩
      | _ => .again next

/-- One turn of `fromClient`.  Nothing catches an exception of the receive. -/
def fromClient (freeStore : FreeStore) (conn : Conn) (primary : Primary)
    (arrival : Arrival Request) : Turn Primary Departure :=
  match ClientConnection.receivePacket freeStore arrival.incoming.result with
  | .error _ => .stuck
  | .ok packet =>
      process conn (settle conn primary arrival.meanwhile) packet arrival.time

/-- The connection is in no session of the profile that it served. -/
def SignedOff (conn : Conn) (departure : Departure) : Prop :=
  ∀ ref, departure.profile = some ref →
    some conn ∉ (departure.primary.server.store.objects ref).sessions

/-- The packet ends the thread of the connection, and its session with it. -/
def Departs (conn : Conn) (primary : Primary) (packet : Packet) : Prop :=
  match primary.sessions conn with
  | .fresh =>
      packet.cmd = .setBackup ∨
        packet.cmd = .profile ∧ primary.server.controller.writable = true ∧
          Full primary.server.store packet.payload
  | .loggedIn ref =>
      packet.cmd = .closeConn ∧
        (primary.server.store.objects ref).sessions.count (some conn) ≤ 1
  | .finished => False

theorem fromClient_eq (freeStore : FreeStore) (conn : Conn) (primary : Primary)
    (arrival : Arrival Request) :
    fromClient freeStore conn primary arrival =
      process conn (settle conn primary arrival.meanwhile)
        arrival.incoming.received arrival.time := by
  rw [fromClient, clientConnection_receivePacket]

/-! ## What ends the thread -/

section Settle

variable {conn : Conn} {primary : Primary}

/-- The other connections do not touch this one. -/
theorem serving_settle (hserving : Serving conn primary)
    (requests : List Request) :
    Serving conn (settle conn primary requests) ∧
      (settle conn primary requests).sessions conn = primary.sessions conn := by
  induction requests generalizing primary with
  | nil => exact ⟨hserving, rfl⟩
  | cons request requests ih =>
      rw [ClientLoop.settle, List.foldl_cons]
      split
      · exact ih hserving
      · next hne =>
          cases hattend : attend primary request with
          | none => exact ih hserving
          | some next =>
              obtain ⟨hnext, hsame⟩ := hserving.other (Ne.symm hne) hattend
              obtain ⟨hsettled, hsession⟩ := ih hnext
              exact ⟨hsettled, hsession.trans hsame⟩

end Settle

section Departs

variable {conn : Conn} {primary next : Primary} {packet : Packet}
  {time : BitVec 64} {ref : ProfileRef}

/-- A login to a full profile is refused when the lock is free. -/
theorem attend_of_full (hfresh : primary.sessions conn = .fresh)
    (hcmd : packet.cmd = .profile)
    (hwritable : primary.server.controller.writable = true)
    (hfull : Full primary.server.store packet.payload) :
    attend primary ⟨conn, packet, time⟩ = some (primary.answered conn
      (refusedServer primary.server conn time) .finished) := by
  obtain ⟨ref, hfound, hsessions⟩ := hfull
  have hcreate : primary.server.store.createProfileIfNotExists packet.payload
      (some conn) time =
      (.error .threadExit, (primary.server.store.refuse (some conn) time).2) := by
    rw [Store.createProfileIfNotExists,
      Store.findOrCreate_of_full _ hfound hsessions]
    rfl
  have hcall : (call fun controller => controller.createProfileIfNotExists
      packet.payload (some conn) time).run primary.server =
      (.error .threadExit, refusedServer primary.server conn time) :=
    run_call_withWrite_eq_error_iff.2 (.inr ⟨hwritable, _, hcreate, rfl⟩)
  have hlogin : (login conn ⟨primary.received, packet⟩ time).run
      primary.server =
      (.error .threadExit, refusedServer primary.server conn time) := by
    apply run_bind_of_error
    simp only [receiveProfileCmd, hcmd]
    exact run_bind_of_error _ hcall _
  simp only [attend, handle, refuse, hfresh, hlogin, Option.none_or]

/-- A login waits for a lock that is not free. -/
theorem attend_of_unwritable (hfresh : primary.sessions conn = .fresh)
    (hcmd : packet.cmd = .profile)
    (hlocked : primary.server.controller.writable = false) :
    attend primary ⟨conn, packet, time⟩ = none := by
  have hcall : (call fun controller => controller.createProfileIfNotExists
      packet.payload (some conn) time).run primary.server =
      (.error .blocked, primary.server) :=
    run_call_withWrite_eq_error_iff.2 (.inl ⟨hlocked, rfl, rfl⟩)
  have hlogin : (login conn ⟨primary.received, packet⟩ time).run
      primary.server = (.error .blocked, primary.server) := by
    apply run_bind_of_error
    simp only [receiveProfileCmd, hcmd]
    exact run_bind_of_error _ hcall _
  simp only [attend, handle, refuse, hfresh, hlogin, Option.none_or]

/-- `CLOSE_CONN` takes one session of the connection away and ends the
thread. -/
theorem attend_of_closeConn (hsession : primary.sessions conn = .loggedIn ref)
    (hcmd : packet.cmd = .closeConn) :
    attend primary ⟨conn, packet, time⟩ = some (primary.answered conn
      (primary.server.onStore fun store =>
        (forward primary.server.listBackups packet
          (store.decSessionsOn ref (some conn))).closeConn conn)
      .finished) := by
  have hserve : (serve conn ref ⟨primary.received, packet⟩ time).run
      primary.server =
      (.ok false, primary.server.onStore fun store =>
        (forward primary.server.listBackups packet
          (store.decSessionsOn ref (some conn))).closeConn conn) := by
    simp only [serve, processPacket, hcmd, dereference]
    rfl
  simp only [attend, handle, hsession, hserve, Option.some_or]

/-- In the loop, another packet that is answered does not end the thread. -/
theorem sessions_of_handle (hopen : conn ∉ primary.server.store.closed)
    (hsession : primary.sessions conn = .loggedIn ref)
    (hcmd : packet.cmd ≠ .closeConn)
    (hhandle : handle primary ⟨conn, packet, time⟩ = some next) :
    next.sessions conn = .loggedIn ref := by
  rcases hserve : (serve conn ref ⟨primary.received, packet⟩ time).run
      primary.server with ⟨exit | goesOn, server⟩
  · simp only [handle, hsession, hserve] at hhandle
    cases hhandle
  · cases goesOn with
    | true =>
        simp only [handle, hsession, hserve] at hhandle
        cases hhandle
        exact Function.update_self ..
    | false =>
        obtain ⟨quit, middle, hprocess, hrest⟩ := (run_bind_eq_ok_iff _).1 hserve
        have hstays : quit = false ∧ conn ∉ middle.store.closed := by
          by_cases hclient : ClientCommand packet.cmd
          · obtain ⟨hquit, store, happlied, rfl⟩ :=
              applied_of_processPacket hclient hprocess
            refine ⟨Bool.eq_false_iff.2 fun hquits => hcmd (hquit.1 hquits), ?_⟩
            change conn ∉ (forward _ _ store).closed
            rwa [forward_closed, happlied.closed]
          · obtain ⟨list, hother⟩ :=
              @run_processPacket_of_other primary.server
                ⟨primary.received, packet⟩ time (some ref) (some conn) hclient
            cases hother.symm.trans hprocess
            exact ⟨rfl, hopen⟩
        simp [run_read_bind, hstays.1, hstays.2] at hrest

/-- Behind the first packet the thread runs, unless it was a backup's or was
refused. -/
theorem running_of_attend (hfresh : primary.sessions conn = .fresh)
    (hbackup : packet.cmd ≠ .setBackup)
    (hfull : packet.cmd = .profile →
      ¬ Full primary.server.store packet.payload)
    (hattend : attend primary ⟨conn, packet, time⟩ = some next) :
    next.sessions conn ≠ .finished := by
  cases attended_of_attend hattend with
  | answered hanswered =>
      cases hanswered with
      | greeted hsession hcmd hcreate =>
          rw [show (primary.answered conn _ _).sessions conn = _ from
            Function.update_self ..]
          exact nofun
      | served hsession => cases hfresh.symm.trans hsession
      | ended hsession => cases hfresh.symm.trans hsession
  | refused hrefused => exact absurd hrefused.full (hfull hrefused.cmd)
  | joined hsession hcmd => exact absurd hcmd hbackup
  | reconnected hsession hfound =>
      rw [show (primary.answered conn _ _).sessions conn = _ from
        Function.update_self ..]
      exact nofun
  | passed hsession => cases hfresh.symm.trans hsession
  | dropped hsession => cases hfresh.symm.trans hsession

theorem process_of_none
    (hattend : attend primary ⟨conn, packet, time⟩ = none) :
    process conn primary packet time = .stuck := by
  rw [process, hattend]

theorem process_of_finished
    (hattend : attend primary ⟨conn, packet, time⟩ = some next)
    (hfinished : next.sessions conn = .finished) :
    process conn primary packet time =
      .ended ⟨(primary.sessions conn).profile, next⟩ := by
  simp only [process, hattend, hfinished]

theorem process_of_running
    (hattend : attend primary ⟨conn, packet, time⟩ = some next)
    (hruns : next.sessions conn ≠ .finished) :
    process conn primary packet time = .again next := by
  cases hsession : next.sessions conn with
  | finished => exact absurd hsession hruns
  | fresh => simp only [process, hattend, hsession]
  | loggedIn ref => simp only [process, hattend, hsession]

/-- A turn that goes round keeps the connection served. -/
theorem serving_again (hserving : Serving conn primary)
    (hagain : process conn primary packet time = .again next) :
    Serving conn next := by
  cases hattend : attend primary ⟨conn, packet, time⟩ with
  | none =>
      rw [process_of_none hattend] at hagain
      cases hagain
  | some after =>
      by_cases hfinished : after.sessions conn = .finished
      · rw [process_of_finished hattend hfinished] at hagain
        cases hagain
      · rw [process_of_running hattend hfinished] at hagain
        cases hagain
        exact @Serving.own primary next ⟨conn, packet, time⟩ hserving hattend
          hfinished

theorem endsWell_ended_iff (departure : Departure) :
    EndsWell (SignedOff conn) (.ended departure : Turn Primary Departure) ↔
      SignedOff conn departure := by
  constructor
  · rintro ⟨_, hended, hsigned⟩
    cases hended
    exact hsigned
  · exact fun hsigned => ⟨departure, rfl, hsigned⟩

theorem not_endsWell_again (next : Primary) :
    ¬ EndsWell (SignedOff conn) (.again next : Turn Primary Departure) := by
  rintro ⟨_, hended, _⟩
  cases hended

theorem not_endsWell_stuck :
    ¬ EndsWell (SignedOff conn) (.stuck : Turn Primary Departure) := by
  rintro ⟨_, hended, _⟩
  cases hended

/-- The first packet of a connection. -/
theorem endsWell_fresh_iff (hfresh : primary.sessions conn = .fresh) :
    EndsWell (SignedOff conn) (process conn primary packet time) ↔
      packet.cmd = .setBackup ∨
        packet.cmd = .profile ∧ primary.server.controller.writable = true ∧
          Full primary.server.store packet.payload := by
  have hnobody (next : Primary) :
      SignedOff conn ⟨(primary.sessions conn).profile, next⟩ := by
    rw [hfresh]
    exact nofun
  by_cases hbackup : packet.cmd = .setBackup
  · have hattend := @attend_of_setBackup primary ⟨conn, packet, time⟩ hfresh
      hbackup
    rw [process_of_finished hattend (Function.update_self ..),
      endsWell_ended_iff]
    exact iff_of_true (hnobody _) (.inl hbackup)
  by_cases hrefused : packet.cmd = .profile ∧
      primary.server.controller.writable = true ∧
        Full primary.server.store packet.payload
  · obtain ⟨hcmd, hwritable, hfull⟩ := hrefused
    rw [process_of_finished (attend_of_full hfresh hcmd hwritable hfull)
      (Function.update_self ..), endsWell_ended_iff]
    exact iff_of_true (hnobody _) (.inr ⟨hcmd, hwritable, hfull⟩)
  refine iff_of_false ?_ (fun hdeparts => hdeparts.elim hbackup hrefused)
  cases hattend : attend primary ⟨conn, packet, time⟩ with
  | none =>
      rw [process_of_none hattend]
      exact not_endsWell_stuck
  | some next =>
      have hfull : packet.cmd = .profile →
          ¬ Full primary.server.store packet.payload := by
        intro hcmd hfull
        cases hwritable : primary.server.controller.writable with
        | true => exact hrefused ⟨hcmd, hwritable, hfull⟩
        | false =>
            rw [attend_of_unwritable hfresh hcmd hwritable] at hattend
            cases hattend
      rw [process_of_running hattend
        (running_of_attend hfresh hbackup hfull hattend)]
      exact not_endsWell_again next

/-- A packet of the loop. -/
theorem endsWell_loggedIn_iff (hserving : Serving conn primary)
    (hsession : primary.sessions conn = .loggedIn ref) :
    EndsWell (SignedOff conn) (process conn primary packet time) ↔
      packet.cmd = .closeConn ∧
        (primary.server.store.objects ref).sessions.count (some conn) ≤ 1 := by
  have hprofile : (primary.sessions conn).profile = some ref := by
    rw [hsession]
    rfl
  by_cases hcmd : packet.cmd = .closeConn
  · rw [process_of_finished (attend_of_closeConn hsession hcmd)
      (Function.update_self ..), endsWell_ended_iff, hprofile]
    let left := primary.server.store.decSessionsOn ref (some conn)
    have hobjects : ((forward primary.server.listBackups packet
        left).closeConn conn).objects = left.objects := by
      rw [forward_eq]
      rfl
    have hleft : (left.objects ref).sessions =
        (primary.server.store.objects ref).sessions.erase (some conn) := by
      rw [Store.decSessionsOn_objects_sessions, if_pos rfl]
    have hcount : some conn ∉ (left.objects ref).sessions ↔
        (primary.server.store.objects ref).sessions.count (some conn) ≤ 1 := by
      rw [hleft, ← List.count_eq_zero, List.count_erase_self]
      omega
    simp only [SignedOff, Option.some.injEq, forall_eq', hcmd, true_and]
    change some conn ∉ (((forward _ _ left).closeConn conn).objects
      ref).sessions ↔ _
    rw [hobjects]
    exact hcount
  refine iff_of_false ?_ fun hdeparts => hcmd hdeparts.1
  cases hattend : attend primary ⟨conn, packet, time⟩ with
  | none =>
      rw [process_of_none hattend]
      exact not_endsWell_stuck
  | some next =>
      rcases Option.or_eq_some_iff.1 hattend with hhandle | ⟨_, hrefuse⟩
      · have hnext := sessions_of_handle hserving.isOpen hsession hcmd hhandle
        rw [process_of_running hattend (by rw [hnext]; exact nofun)]
        exact not_endsWell_again next
      · -- a refused login leaves the session it was sent in
        have hleft := (refused_of_refuse hrefuse).left
        rw [hleft] at hattend
        rw [process_of_finished hattend (Function.update_self ..),
          endsWell_ended_iff, hprofile]
        exact fun hsigned => hsigned ref rfl (hserving.listed ref hsession)

theorem endsWell_iff (hserving : Serving conn primary) :
    EndsWell (SignedOff conn) (process conn primary packet time) ↔
      Departs conn primary packet := by
  unfold Departs
  cases hsession : primary.sessions conn with
  | fresh => exact endsWell_fresh_iff hsession
  | loggedIn ref => exact endsWell_loggedIn_iff hserving hsession
  | finished =>
      have hattend : attend primary ⟨conn, packet, time⟩ = none := by
        simp only [attend, handle, refuse, hsession, Option.none_or]
      rw [process_of_none hattend]
      exact iff_of_false not_endsWell_stuck id

end Departs

/-! ## Runs of the loop -/

section Runs

variable {conn : Conn} (freeStore : FreeStore)

theorem keeps_serving :
    Keeps (fromClient freeStore conn) (Serving conn) fun _ => True := by
  intro primary next arrival hserving _ hagain
  rw [fromClient_eq] at hagain
  exact serving_again (serving_settle hserving arrival.meanwhile).1 hagain

/-- The packet of the arrival ends the thread and its session, in the state that
the other connections have brought about. -/
def DepartsOn (conn : Conn) (primary : Primary) (arrival : Arrival Request) :
    Prop :=
  Departs conn (settle conn primary arrival.meanwhile)
    arrival.incoming.received

/-- The packet of zeros ends nothing. -/
theorem not_departsOn_of_died (primary : Primary) {death : Death}
    {arrival : Arrival Request} (hdied : Died death arrival) :
    ¬ DepartsOn conn primary arrival := by
  unfold DepartsOn
  rw [received_of_died hdied]
  unfold Departs
  split
  · rintro (hcmd | ⟨hcmd, _⟩)
    · cases hcmd
    · cases hcmd
  · rintro ⟨hcmd, _⟩
    cases hcmd
  · exact id

/-- The thread of a connection ends, and signs off, only if one of the packets
before the peer's death makes it. -/
theorem fromClient_terminates_iff {primary : Primary}
    (hserving : Serving conn primary) (death : Death)
    (arrivals : List (Arrival Request)) :
    Terminates (fromClient freeStore conn) (Died death) (SignedOff conn) primary
        arrivals ↔
      Reaches (fromClient freeStore conn) (DepartsOn conn) primary
        arrivals := by
  apply (keeps_serving freeStore).terminates_iff_reaches _ (exists_died death)
  case hdead => exact fun _ _ => trivial
  case hspins => exact fun middle _ hdied => not_departsOn_of_died middle hdied
  case hstart => exact hserving
  case haccepted => exact fun _ _ => trivial
  intro middle arrival hserving _
  rw [fromClient_eq]
  exact endsWell_iff (serving_settle hserving arrival.meanwhile).1

end Runs

end TwitterLike.ClientLoop
