import TwitterLike.Server.Deliveries
import TwitterLike.Server.RequestRuns

/-!
# What a request does to the queues

A request hands its own packet over, to inboxes and to sessions, and the first
packet of a connection moves the inbox of its profile to the sessions.
-/

namespace TwitterLike.QueueMoves

open TwitterLike.PacketFormat
open TwitterLike.Profiles
open TwitterLike.ProfilesManager
open TwitterLike.ProfileAccessController
open TwitterLike.Handlers
open TwitterLike.Faulting
open TwitterLike.FollowGraph
open TwitterLike.SessionAccounting
open TwitterLike.Commands
open TwitterLike.BackupSimulation
open TwitterLike.RequestRuns
open TwitterLike.Deliveries

/-! ## Commands -/

section Commands

variable {store after : Store} {conn : Option Conn}
  {profile : Option ProfileRef} {message : Message} {time : BitVec 64}

theorem forward_sameQueues (backups : List Conn) (packet : Packet)
    (store : Store) : SameQueues store (forward backups packet store) := by
  induction backups generalizing store with
  | nil => exact .refl store
  | cons backup backups ih =>
      exact (sendPacket_sameQueues store backup packet).trans
        (ih (store.sendPacket backup packet))

/-- A new profile has an empty inbox. -/
theorem createProfileIfNotExists_inbox {profileId : ByteBuffer.ByteString}
    {ref : ProfileRef}
    (hcreate : store.createProfileIfNotExists profileId conn time =
      (.ok ref, after)) (other : ProfileRef) :
    (after.objects other).inbox =
      if store.getProfileById profileId = none ∧ other = store.allocated then []
      else (store.objects other).inbox := by
  obtain ⟨found, hfind, rfl⟩ := Store.createProfileIfNotExists_ok_iff.1 hcreate
  rw [(incSessionsOn_sameQueues found ref conn).inbox]
  rcases Store.findOrCreate_ok _ hfind with
    ⟨hfound, _, rfl⟩ | ⟨hunknown, _, hsame⟩
  · rw [if_neg (by simp [hfound])]
  · rw [hsame.objects, created_objects]
    by_cases hnew : other = store.allocated
    · rw [if_pos hnew, if_pos ⟨hunknown, hnew⟩]
      rfl
    · rw [if_neg hnew, if_neg (by simp [hnew])]

theorem createProfileIfNotExists_passesTo {profileId : ByteBuffer.ByteString}
    {ref : ProfileRef}
    (hcreate : store.createProfileIfNotExists profileId conn time =
      (.ok ref, after)) (other : ProfileRef) :
    passesTo after other = passesTo store other := by
  obtain ⟨found, hfind, rfl⟩ := Store.createProfileIfNotExists_ok_iff.1 hcreate
  rw [(incSessionsOn_sameQueues found ref conn).passes]
  rcases Store.findOrCreate_ok _ hfind with ⟨_, _, rfl⟩ | ⟨_, _, hsame⟩
  · rfl
  · exact passesTo_of_outputs store other hsame.outputs

/-- A text waits for the followers that are offline. -/
theorem sendToFollowersOf_inbox {sender : ProfileRef}
    (hnodup : (store.objects sender).followers.Nodup) (sent : Message)
    (ref : ProfileRef) :
    ((store.sendToFollowersOf (some sender) sent).2.objects ref).inbox =
      if ref ∈ (store.objects sender).followers ∧
          ¬ (store.objects ref).sessionsOn > 0 then
        (store.objects ref).inbox ++ [sent]
      else (store.objects ref).inbox := by
  change ((List.foldl _ store (store.objects sender).followers).objects
    ref).inbox = _
  generalize (store.objects sender).followers = followers at hnodup ⊢
  induction followers generalizing store with
  | nil => simp
  | cons follower followers ih =>
      obtain ⟨hfirst, hnodup⟩ := List.nodup_cons.1 hnodup
      have hsame := sendOrInsertInbox_sameSessions store follower sent
      rw [List.foldl_cons, ih hnodup, hsame.sessionsOn, sendOrInsertInbox_inbox]
      by_cases hself : ref = follower
      · simp [hself, hfirst]
      · simp [hself]

/-- A text is written to the followers that are online. -/
theorem sendToFollowersOf_passesTo {sender : ProfileRef}
    (hnodup : (store.objects sender).followers.Nodup) (sent : Message)
    (ref : ProfileRef) :
    passesTo (store.sendToFollowersOf (some sender) sent).2 ref =
      passesTo store ref ++
        if ref ∈ (store.objects sender).followers ∧
            (store.objects ref).sessionsOn > 0 then
          [⟨sent, (store.objects ref).sessions.reduceOption⟩]
        else [] := by
  change passesTo (List.foldl _ store (store.objects sender).followers) ref = _
  generalize (store.objects sender).followers = followers at hnodup ⊢
  induction followers generalizing store with
  | nil => simp
  | cons follower followers ih =>
      obtain ⟨hfirst, hnodup⟩ := List.nodup_cons.1 hnodup
      have hsame := sendOrInsertInbox_sameSessions store follower sent
      rw [List.foldl_cons, ih hnodup, hsame.sessionsOn, hsame.sessions,
        sendOrInsertInbox_passesTo]
      by_cases hself : ref = follower
      · simp [hself, hfirst]
      · simp [hself]

/-- What a store has more of after a message has been handed over. -/
structure HandsOver (message : Message) (store after : Store) : Prop where
  inbox : ∀ ref, ∀ waiting ∈ (after.objects ref).inbox,
    waiting ∈ (store.objects ref).inbox ∨ waiting = message
  passes : ∀ ref, ∃ added, passesTo after ref = passesTo store ref ++ added ∧
    ∀ pass ∈ added, pass.message = message

theorem HandsOver.of_sameQueues (hsame : SameQueues store after) :
    HandsOver message store after where
  inbox ref waiting hwaiting := .inl (hsame.inbox ref ▸ hwaiting)
  passes ref := ⟨[], by rw [hsame.passes, List.append_nil], nofun⟩

/-- A command hands its own packet over. -/
theorem Applied.handsOver
    (happlied : Applied conn profile message time store after)
    (hwf : WellFormed store) : HandsOver message store after := by
  cases happlied with
  | registered hcmd hcreate =>
      constructor
      · intro ref waiting hwaiting
        rw [createProfileIfNotExists_inbox hcreate] at hwaiting
        split at hwaiting
        · cases hwaiting
        · exact .inl hwaiting
      · intro ref
        refine ⟨[], ?_, nofun⟩
        rw [createProfileIfNotExists_passesTo hcreate, List.append_nil]
  | followed hcmd hfollow =>
      cases profile with
      | none => cases hfollow
      | some follower =>
          have hsame :=
            addFollowerTo_sameQueues store message.packet.payload follower
          rw [hfollow] at hsame
          exact .of_sameQueues hsame
  | @sent sender hcmd hprofile =>
      have hnodup := hwf.followers_nodup sender
      constructor
      · intro ref waiting hwaiting
        rw [sendToFollowersOf_inbox hnodup] at hwaiting
        split at hwaiting
        · simpa using hwaiting
        · exact .inl hwaiting
      · intro ref
        refine ⟨_, sendToFollowersOf_passesTo hnodup message ref, ?_⟩
        intro pass hpass
        split at hpass
        · rw [List.mem_singleton.1 hpass]
        · cases hpass
  | @left ref hcmd hprofile =>
      exact .of_sameQueues (decSessionsOn_sameQueues store ref conn)

theorem HandsOver.sameQueues {final : Store}
    (hhands : HandsOver message store after)
    (hsame : SameQueues after final) : HandsOver message store final where
  inbox ref waiting hwaiting := hhands.inbox ref waiting
    (hsame.inbox ref ▸ hwaiting)
  passes ref := by
    rw [hsame.passes ref]
    exact hhands.passes ref

end Commands

/-! ## The first packet of a connection -/

/-- The profile that `receiveProfileCmd` returns, and the store behind it. -/
inductive Entered (primary : Primary) (request : Request) :
    ProfileRef → Store → Prop where
  | created {ref : ProfileRef} {store : Store}
      (hcmd : request.packet.cmd = .profile)
      (hwritable : primary.server.controller.writable = true)
      (hcreate : primary.server.store.createProfileIfNotExists
        request.packet.payload (some request.conn) request.time =
          (.ok ref, store)) :
      Entered primary request ref
        (forward primary.server.listBackups request.packet store)
  | reconnected {ref : ProfileRef} (hprofile : request.packet.cmd ≠ .profile)
      (hbackup : request.packet.cmd ≠ .setBackup)
      (hreadable : primary.server.controller.readable = true)
      (hfound : primary.server.store.getProfileById request.packet.sender =
        some ref) :
      Entered primary request ref
        (primary.server.store.updateSessionsOn ref (some request.conn))

/-- The stored profile whose inbox the first packet of a connection fetches. -/
def fetched (primary : Primary) (request : Request) : Option ProfileRef :=
  match primary.sessions request.conn with
  | .fresh =>
      match request.packet.cmd with
      | .setBackup => none
      | .profile =>
          if primary.server.controller.writable then
            (primary.server.store.getProfileById request.packet.payload).filter
              fun ref =>
                (primary.server.store.objects ref).sessionsOn ≠ maxSessions
          else none
      | _ =>
          if primary.server.controller.readable then
            primary.server.store.getProfileById request.packet.sender
          else none
  | _ => none

section Entered

variable {primary next : Primary} {request : Request} {ref : ProfileRef}
  {store : Store}

theorem run_receiveProfileCmd_eq_ok_iff {server : Server} :
    (receiveProfileCmd request.conn ⟨primary.received, request.packet⟩
        request.time).run primary.server = (.ok (some ref), server) ↔
      ∃ store, Entered primary request ref store ∧
        server = primary.server.onStore fun _ => store := by
  constructor
  · intro hreceive
    unfold receiveProfileCmd at hreceive
    split at hreceive
    case h_1 =>
      obtain ⟨_, _, _, hend⟩ := (run_bind_eq_ok_iff _).1 hreceive
      cases hend
    case h_2 hcmd =>
      obtain ⟨created, _, hcall, hrest⟩ := (run_bind_eq_ok_iff _).1 hreceive
      obtain ⟨hwritable, store, hcreate, rfl⟩ :=
        run_call_withWrite_eq_ok_iff.1 hcall
      rw [run_bind_of_ok _ (run_sendToBackups _)] at hrest
      cases hrest
      exact ⟨_, .created hcmd hwritable hcreate, rfl⟩
    case h_3 hbackup hprofile =>
      obtain ⟨found, _, hlookup, hrest⟩ := (run_bind_eq_ok_iff _).1 hreceive
      obtain ⟨hreadable, rfl, rfl⟩ := run_call_withRead_eq_ok_iff.1 hlookup
      cases hfound : primary.server.store.getProfileById
        request.packet.sender with
      | none =>
          rw [hfound] at hrest
          cases hrest
      | some known =>
          rw [hfound] at hrest
          cases hrest
          exact ⟨_, .reconnected hprofile hbackup hreadable hfound, rfl⟩
  · rintro ⟨store, hentered, rfl⟩
    cases hentered with
    | @created store hcmd hwritable hcreate =>
        have hcall : (call fun controller =>
            controller.createProfileIfNotExists request.packet.payload
              (some request.conn) request.time).run primary.server =
            (.ok ref, primary.server.onStore fun _ => store) :=
          run_call_withWrite_eq_ok_iff.2 ⟨hwritable, store, hcreate, rfl⟩
        simp only [receiveProfileCmd, hcmd]
        rw [run_bind_of_ok _ hcall, run_bind_of_ok _ (run_sendToBackups _)]
        rfl
    | reconnected hprofile hbackup hreadable hfound =>
        have hlookup : (call fun controller =>
            controller.getProfileById request.packet.sender).run
              primary.server = (.ok (some ref), primary.server) :=
          run_call_withRead_eq_ok_iff.2 ⟨hreadable, hfound.symm, rfl⟩
        unfold receiveProfileCmd
        split
        case h_1 hcmd => exact absurd hcmd hbackup
        case h_2 hcmd => exact absurd hcmd hprofile
        case h_3 =>
          rw [run_bind_of_ok _ hlookup]
          rfl

theorem fetched_of_profile (hfresh : primary.sessions request.conn = .fresh)
    (hcmd : request.packet.cmd = .profile) :
    fetched primary request = some ref ↔
      primary.server.controller.writable = true ∧
        primary.server.store.getProfileById request.packet.payload = some ref ∧
        (primary.server.store.objects ref).sessionsOn ≠ maxSessions := by
  simp only [fetched, hfresh, hcmd]
  by_cases hwritable : primary.server.controller.writable = true
  · simp [hwritable, Option.filter_eq_some_iff]
  · simp [hwritable]

theorem fetched_of_sender (hfresh : primary.sessions request.conn = .fresh)
    (hprofile : request.packet.cmd ≠ .profile)
    (hbackup : request.packet.cmd ≠ .setBackup) :
    fetched primary request = some ref ↔
      primary.server.controller.readable = true ∧
        primary.server.store.getProfileById request.packet.sender =
          some ref := by
  simp only [fetched, hfresh]
  by_cases hreadable : primary.server.controller.readable = true
  · simp [hreadable]
  · simp [hreadable]

theorem fresh_of_fetched (hfetched : fetched primary request = some ref) :
    primary.sessions request.conn = .fresh := by
  unfold fetched at hfetched
  split at hfetched
  · assumption
  · cases hfetched

theorem Entered.passesTo (hentered : Entered primary request ref store)
    (other : ProfileRef) :
    Deliveries.passesTo store other =
      Deliveries.passesTo primary.server.store other := by
  cases hentered with
  | created hcmd hwritable hcreate =>
      rw [(forward_sameQueues _ _ _).passes,
        createProfileIfNotExists_passesTo hcreate]
  | reconnected => exact (updateSessionsOn_sameQueues _ _ _).passes other

theorem Entered.inbox (hentered : Entered primary request ref store)
    {other : ProfileRef} {waiting : Message}
    (hwaiting : waiting ∈ (store.objects other).inbox) :
    waiting ∈ (primary.server.store.objects other).inbox := by
  cases hentered with
  | created hcmd hwritable hcreate =>
      rw [(forward_sameQueues _ _ _).inbox,
        createProfileIfNotExists_inbox hcreate] at hwaiting
      split at hwaiting
      · cases hwaiting
      · exact hwaiting
  | reconnected =>
      exact (updateSessionsOn_sameQueues _ _ _).inbox other ▸ hwaiting

/-- A connection is in a session of its profile before the inbox is fetched. -/
theorem Entered.mem_sessions (hentered : Entered primary request ref store) :
    some request.conn ∈ (store.objects ref).sessions := by
  cases hentered with
  | created hcmd hwritable hcreate =>
      rw [(forward_sameSessions _ _ _).sessions]
      exact mem_sessions_of_createProfileIfNotExists hcreate
  | reconnected =>
      rw [Store.updateSessionsOn_objects_sessions, if_pos rfl]
      exact List.mem_append_right _ (List.mem_singleton_self _)

/-- The inbox that is fetched is that of a stored profile as it was, or the
empty one of a new profile. -/
theorem Entered.fetches (hentered : Entered primary request ref store)
    (hfresh : primary.sessions request.conn = .fresh) :
    (fetched primary request = some ref ∧
      (store.objects ref).inbox =
        (primary.server.store.objects ref).inbox ∧
      (store.objects ref).sessions =
        (primary.server.store.objects ref).sessions ++ [some request.conn]) ∨
    (fetched primary request = none ∧ (store.objects ref).inbox = []) := by
  cases hentered with
  | @created store hcmd hwritable hcreate =>
      have hinbox := createProfileIfNotExists_inbox hcreate ref
      rw [(forward_sameQueues _ _ store).inbox,
        (forward_sameSessions _ _ store).sessions]
      obtain ⟨found, hfind, rfl⟩ :=
        Store.createProfileIfNotExists_ok_iff.1 hcreate
      rcases Store.findOrCreate_ok _ hfind with
        ⟨hfound, hroom, rfl⟩ | ⟨hunknown, hnew, _⟩
      · left
        refine ⟨(fetched_of_profile hfresh hcmd).2 ⟨hwritable, hfound, hroom⟩,
          (incSessionsOn_sameQueues _ _ _).inbox ref, ?_⟩
        rw [Store.incSessionsOn_objects_sessions, if_pos rfl]
      · right
        refine ⟨?_, hinbox.trans (if_pos ⟨hunknown, hnew⟩)⟩
        rw [Option.eq_none_iff_forall_ne_some]
        intro known hknown
        obtain ⟨_, hfound, _⟩ := (fetched_of_profile hfresh hcmd).1 hknown
        cases hunknown.symm.trans hfound
  | reconnected hprofile hbackup hreadable hfound =>
      left
      refine ⟨(fetched_of_sender hfresh hprofile hbackup).2
        ⟨hreadable, hfound⟩, ?_, ?_⟩
      · exact (updateSessionsOn_sameQueues _ _ _).inbox ref
      · rw [Store.updateSessionsOn_objects_sessions, if_pos rfl]

theorem entered_of_fetched (hfetched : fetched primary request = some ref) :
    ∃ store, Entered primary request ref store := by
  have hfresh := fresh_of_fetched hfetched
  by_cases hbackup : request.packet.cmd = .setBackup
  · simp [fetched, hfresh, hbackup] at hfetched
  by_cases hprofile : request.packet.cmd = .profile
  · obtain ⟨hwritable, hfound, hroom⟩ :=
      (fetched_of_profile hfresh hprofile).1 hfetched
    exact ⟨_, .created hprofile hwritable
      (Store.createProfileIfNotExists_ok_iff.2
        ⟨_, Store.findOrCreate_of_room _ hfound hroom _ _, rfl⟩)⟩
  · obtain ⟨hreadable, hfound⟩ :=
      (fetched_of_sender hfresh hprofile hbackup).1 hfetched
    exact ⟨_, .reconnected hprofile hbackup hreadable hfound⟩

/-- `fromClient` up to its loop, behind `receiveProfileCmd`. -/
theorem run_login_of_entered (hentered : Entered primary request ref store) :
    ∃ greeting, (login request.conn ⟨primary.received, request.packet⟩
        request.time).run primary.server =
      ((store.fetchInboxContent ref).1.map fun _ => some ref,
        primary.server.onStore fun _ =>
          ((store.sendPacket request.conn greeting).fetchInboxContent ref).2) := by
  have hreceive := run_receiveProfileCmd_eq_ok_iff.2 ⟨store, hentered, rfl⟩
  let greeting := new .send (helloText ++ (store.objects ref).profileId) []
    request.time
  let fetch : Handler Unit := fun server =>
    ((server.store.fetchInboxContent ref).1,
      server.onStore fun _ => (server.store.fetchInboxContent ref).2)
  let greeted := primary.server.onStore fun _ =>
    store.sendPacket request.conn greeting
  have hfetch : fetch.run greeted = ((store.fetchInboxContent ref).1,
      primary.server.onStore fun _ =>
        ((store.sendPacket request.conn greeting).fetchInboxContent ref).2) := rfl
  refine ⟨greeting, (run_bind_of_ok _ hreceive _).trans ?_⟩
  change (fetch >>= fun _ => pure (some ref)).run greeted = _
  cases hexit : (store.fetchInboxContent ref).1 with
  | ok =>
      rw [hexit] at hfetch
      exact run_bind_of_ok _ hfetch _
  | error exit =>
      rw [hexit] at hfetch
      exact run_bind_of_error _ hfetch _

theorem attend_of_entered (hentered : Entered primary request ref store)
    (hfresh : primary.sessions request.conn = .fresh)
    (hfetch : (store.fetchInboxContent ref).1 = .ok ()) :
    ∃ greeting, attend primary request = some (primary.answered request.conn
      (primary.server.onStore fun _ =>
        ((store.sendPacket request.conn greeting).fetchInboxContent ref).2)
      (.loggedIn ref)) := by
  obtain ⟨greeting, hlogin⟩ := run_login_of_entered hentered
  rw [hfetch] at hlogin
  refine ⟨greeting, ?_⟩
  simp only [attend, handle, hfresh, hlogin, Except.map, Option.some_or]

theorem entered_of_attend (hfresh : primary.sessions request.conn = .fresh)
    (hattend : attend primary request = some next)
    (hlogged : next.sessions request.conn = .loggedIn ref) :
    ∃ store greeting, Entered primary request ref store ∧
      next.server.store =
        ((store.sendPacket request.conn greeting).fetchInboxContent ref).2 := by
  rcases Option.or_eq_some_iff.1 hattend with hhandle | ⟨_, hrefuse⟩
  · rcases hlogin : (login request.conn ⟨primary.received, request.packet⟩
      request.time).run primary.server with ⟨exit | profile, server⟩
    · simp only [handle, hfresh, hlogin] at hhandle
      cases hhandle
    obtain ⟨found, middle, hreceive, hrest⟩ := (run_bind_eq_ok_iff _).1 hlogin
    cases found with
    | none =>
        cases hrest
        simp only [handle, hfresh, hlogin] at hhandle
        cases hhandle
        cases (Function.update_self ..).symm.trans hlogged
    | some known =>
        obtain ⟨store, hentered, rfl⟩ := run_receiveProfileCmd_eq_ok_iff.1 hreceive
        obtain ⟨greeting, hlogin'⟩ := run_login_of_entered hentered
        rw [hlogin'] at hlogin
        obtain ⟨hfetch, rfl⟩ := Prod.mk.inj hlogin
        cases hok : (store.fetchInboxContent known).1 with
        | error exit =>
            rw [hok] at hfetch
            cases hfetch
        | ok =>
            rw [hok] at hfetch hlogin'
            simp only [handle, hfresh, hlogin', Except.map] at hhandle
            cases hhandle
            cases (Function.update_self ..).symm.trans hlogged
            exact ⟨store, greeting, hentered, rfl⟩
  · rw [(refused_of_refuse hrefuse).left] at hlogged
    cases (Function.update_self ..).symm.trans hlogged

end Entered

/-! ## The fetched inbox -/

theorem drain_eq_nullDeref_iff {sessions : List (Option Conn)} {inbox : Inbox} :
    (Profile.drain sessions inbox).1 = .error .nullDeref ↔
      inbox ≠ [] ∧ none ∈ sessions := by
  by_cases hnull : none ∈ sessions
  · cases inbox with
    | nil => simp [Profile.drain]
    | cons message rest => simp [Profile.drain, hnull]
  · simp [drain_of_noNull hnull, hnull]

/-- `fetchInboxContent`, called for the first packet of a connection, calls
`sendPacket` on a null connection. -/
def UsesNullSession (primary : Primary) (request : Request) : Prop :=
  match primary.sessions request.conn with
  | .fresh =>
      match (receiveProfileCmd request.conn ⟨primary.received, request.packet⟩
          request.time).run primary.server with
      | (.ok (some profile), server) =>
          (server.store.fetchInboxContent profile).1 = .error .nullDeref
      | _ => False
  | _ => False

/-- A request adds its own packet to the queues, and passes over the packets that
it has fetched. -/
structure Delivers (primary : Primary) (request : Request) (next : Primary) :
    Prop where
  inbox : ∀ ref, ∀ waiting ∈ (next.server.store.objects ref).inbox,
    waiting ∈ (primary.server.store.objects ref).inbox ∨
      waiting = ⟨primary.received, request.packet⟩
  passes : ∀ ref, ∃ added,
    passesTo next.server.store ref =
      passesTo primary.server.store ref ++ added ∧
    ∀ pass ∈ added, pass.message = ⟨primary.received, request.packet⟩ ∨
      fetched primary request = some ref ∧
        pass.message ∈ (primary.server.store.objects ref).inbox

section Fetch

variable {primary next : Primary} {request : Request} {ref : ProfileRef}

theorem usesNullSession_iff : UsesNullSession primary request ↔
    ∃ ref, fetched primary request = some ref ∧
      (primary.server.store.objects ref).inbox ≠ [] ∧
      none ∈ (primary.server.store.objects ref).sessions := by
  constructor
  · intro huses
    unfold UsesNullSession at huses
    split at huses
    · next hfresh =>
        split at huses
        · next ref server hreceive =>
            obtain ⟨store, hentered, rfl⟩ :=
              run_receiveProfileCmd_eq_ok_iff.1 hreceive
            obtain ⟨hinbox, hnull⟩ := drain_eq_nullDeref_iff.1 huses
            rcases hentered.fetches hfresh with
              ⟨hfetched, hsame, hsessions⟩ | ⟨_, hempty⟩
            · refine ⟨ref, hfetched, hsame ▸ hinbox, ?_⟩
              have hmem : none ∈ (store.objects ref).sessions := hnull
              rw [hsessions] at hmem
              simpa using hmem
            · exact absurd hempty hinbox
        · exact huses.elim
    · exact huses.elim
  · rintro ⟨ref, hfetched, hinbox, hnull⟩
    have hfresh := fresh_of_fetched hfetched
    obtain ⟨store, hentered⟩ := entered_of_fetched hfetched
    have hreceive := run_receiveProfileCmd_eq_ok_iff.2 ⟨store, hentered, rfl⟩
    simp only [UsesNullSession, hfresh, hreceive]
    rcases hentered.fetches hfresh with
      ⟨_, hsame, hsessions⟩ | ⟨hnone, _⟩
    · refine drain_eq_nullDeref_iff.2 ⟨?_, ?_⟩
      · exact hsame.symm ▸ hinbox
      · exact hsessions.symm ▸ List.mem_append_left _ hnull
    · cases hnone.symm.trans hfetched

/-- Without null sessions a fetched inbox is written to the sessions. -/
theorem attend_of_fetched (hfetched : fetched primary request = some ref)
    (hlive : none ∉ (primary.server.store.objects ref).sessions) :
    ∃ next conns, attend primary request = some next ∧ conns ≠ [] ∧
      passesTo next.server.store ref =
        passesTo primary.server.store ref ++
          (primary.server.store.objects ref).inbox.map fun message =>
            ⟨message, conns⟩ := by
  have hfresh := fresh_of_fetched hfetched
  obtain ⟨store, hentered⟩ := entered_of_fetched hfetched
  rcases hentered.fetches hfresh with ⟨_, hsame, hsessions⟩ | ⟨hnone, _⟩
  · have hstays : none ∉ (store.objects ref).sessions := by
      rw [hsessions]
      simpa using hlive
    have hfetch : (store.fetchInboxContent ref).1 = .ok () := by
      rw [Store.fetchInboxContent, fetchInboxContent_of_noNull hstays]
    obtain ⟨greeting, hattend⟩ := attend_of_entered hentered hfresh hfetch
    refine ⟨_, (store.objects ref).sessions.reduceOption, hattend, ?_, ?_⟩
    · exact List.ne_nil_of_mem
        (List.reduceOption_mem_iff.2 hentered.mem_sessions)
    · have hpasses := @fetchInboxContent_passesTo
        (store.sendPacket request.conn greeting) ref ref hstays
      rw [if_pos rfl, passesTo_sendPacket, hentered.passesTo] at hpasses
      exact hsame ▸ hpasses
  · cases hnone.symm.trans hfetched

theorem Delivers.of_handsOver
    (hhands : HandsOver ⟨primary.received, request.packet⟩ primary.server.store
      next.server.store) : Delivers primary request next where
  inbox := hhands.inbox
  passes ref := by
    obtain ⟨added, hpasses, hmessages⟩ := hhands.passes ref
    exact ⟨added, hpasses, fun pass hpass => .inl (hmessages pass hpass)⟩

theorem Delivers.of_sameQueues
    (hsame : SameQueues primary.server.store next.server.store) :
    Delivers primary request next :=
  .of_handsOver (.of_sameQueues hsame)

theorem delivers_of_entered (hfresh : primary.sessions request.conn = .fresh)
    (hattend : attend primary request = some next)
    (hlogged : next.sessions request.conn = .loggedIn ref) :
    Delivers primary request next := by
  obtain ⟨store, greeting, hentered, hstore⟩ :=
    entered_of_attend hfresh hattend hlogged
  constructor
  · intro other waiting hwaiting
    rw [hstore, fetchInboxContent_inbox] at hwaiting
    split at hwaiting
    · cases hwaiting
    · exact .inl (hentered.inbox hwaiting)
  · intro other
    have hpasses := fetchInboxContent_passesTo_drain
      (store.sendPacket request.conn greeting) other ref
    rw [passesTo_sendPacket, hentered.passesTo] at hpasses
    refine ⟨_, hstore ▸ hpasses, fun pass hpass => .inr ?_⟩
    split at hpass
    · next hself =>
        subst hself
        have hmem : pass.message ∈ (store.objects ref).inbox :=
          message_mem_of_drain hpass
        rcases hentered.fetches hfresh with ⟨hfetched, hsame, _⟩ | ⟨_, hempty⟩
        · exact ⟨hfetched, hsame ▸ hmem⟩
        · rw [hempty] at hmem
          cases hmem
    · cases hpass

theorem delivers_of_attend (hwf : WellFormed primary.server.store)
    (hattend : attend primary request = some next) :
    Delivers primary request next := by
  cases attended_of_attend hattend with
  | answered hanswered =>
      cases hanswered with
      | greeted hsession hcmd hcreate =>
          exact delivers_of_entered hsession hattend (Function.update_self ..)
      | served hsession hcmd happlied =>
          exact .of_handsOver ((Applied.handsOver happlied hwf).sameQueues
            (forward_sameQueues _ _ _))
      | ended hsession happlied =>
          exact .of_handsOver ((Applied.handsOver happlied hwf).sameQueues
            ((forward_sameQueues _ _ _).trans (closeConn_sameQueues _ _)))
  | refused hrefused =>
      rw [hrefused.left]
      exact .of_sameQueues ((sendPacket_sameQueues _ _ _).trans
        (closeConn_sameQueues _ _))
  | joined hsession hcmd => exact .of_sameQueues (forward_sameQueues _ _ _)
  | reconnected hsession hfound =>
      exact delivers_of_entered hsession hattend (Function.update_self ..)
  | passed hsession => exact .of_sameQueues (.refl _)
  | dropped hsession => exact .of_sameQueues (closeConn_sameQueues _ _)

end Fetch

end TwitterLike.QueueMoves
