import TwitterLike.Client.Terminal
import TwitterLike.Server.RequestRuns

/-!
# What a backup survives

A backup acts on the profile that a packet names as its sender.  The shipped
clients name theirs in every packet but the `CLOSE_CONN` that they send at the
end of their input, and a backup that receives that packet uses a null pointer.
-/

namespace TwitterLike.BackupSurvival

open TwitterLike.ByteBuffer
open TwitterLike.PacketFormat
open TwitterLike.Profiles
open TwitterLike.Handlers
open TwitterLike.Faulting
open TwitterLike.Transition
open TwitterLike.GraphHistory
open TwitterLike.Commands
open TwitterLike.Replication
open TwitterLike.BackupSimulation
open TwitterLike.RequestRuns
open TwitterLike.Terminal (ProfileName maxMsgLen)

/-! ## The packets of the shipped client -/

/-- A packet that the client sends to its server behind the first one. -/
def Shipped (profile : ProfileName) (packet : Packet) : Prop :=
  match packet.cmd with
  | .follow => packet.sender = profile.text
  | .send => packet.sender = profile.text ∧ packet.payload.length ≤ maxMsgLen
  | .closeConn => packet.sender = profile.text ∨ packet.sender = []
  | _ => False

instance (profile : ProfileName) (packet : Packet) :
    Decidable (Shipped profile packet) :=
  decidable_of_iff
    ((match packet.cmd with
      | .follow => decide (packet.sender = profile.text)
      | .send =>
          decide (packet.sender = profile.text ∧
            packet.payload.length ≤ maxMsgLen)
      | .closeConn =>
          decide (packet.sender = profile.text ∨ packet.sender = [])
      | _ => false) = true)
    (by
      rw [Shipped]
      split <;> simp only [decide_eq_true_eq, Bool.false_eq_true])

section Client

variable {client next : Terminal.Client} {time : BitVec 64}

/-- The client's thread sends `PROFILE` with its name first. -/
theorem sent_of_presented
    (hstep : Terminal.step client (.presented time) = some next) :
    next.profile = client.profile ∧
      next.sent = client.sent ++ [new .profile client.profile.text [] time] := by
  simp only [Terminal.step, Option.ite_none_left_eq_some] at hstep
  obtain ⟨_, hnext⟩ := Option.ite_none_right_eq_some.1 hstep.2
  cases hnext
  exact ⟨rfl, rfl⟩

/-- What a line makes the client send. -/
theorem shipped_of_toServer (client : Terminal.Client) (line : ByteString)
    (time : BitVec 64) :
    (client.toServer line time).profile = client.profile ∧
      ∃ added, (client.toServer line time).sent = client.sent ++ added ∧
        ∀ packet ∈ added, Shipped client.profile packet := by
  have hnone : ∃ added, client.sent = client.sent ++ added ∧
      ∀ packet ∈ added, Shipped client.profile packet :=
    ⟨[], (List.append_nil _).symm, fun _ hmem => absurd hmem List.not_mem_nil⟩
  rw [Terminal.Client.toServer]
  split
  · exact ⟨rfl, hnone⟩
  · split
    · split
      · next followed _ =>
          refine ⟨rfl, [new .follow followed client.profile.text time], rfl, ?_⟩
          intro packet hpacket
          rw [List.mem_singleton.1 hpacket]
          rfl
      · exact ⟨rfl, hnone⟩
    · split
      · split
        · next message _ =>
            split
            · exact ⟨rfl, hnone⟩
            · next hshort =>
                refine ⟨rfl, [new .send message client.profile.text time], rfl, ?_⟩
                intro packet hpacket
                rw [List.mem_singleton.1 hpacket]
                exact ⟨rfl, not_lt.1 hshort⟩
        · exact ⟨rfl, hnone⟩
      · exact ⟨rfl, hnone⟩

/-- The events in which the client sends to its server once it is logged in. -/
def Serving : Terminal.Event → Prop
  | .entered _ _ => True
  | .endOfInput _ => True
  | .interrupted _ => True
  | _ => False

theorem shipped_of_step {event : Terminal.Event} (hserving : Serving event)
    (hstep : Terminal.step client event = some next) :
    next.profile = client.profile ∧
      ∃ added, next.sent = client.sent ++ added ∧
        ∀ packet ∈ added, Shipped client.profile packet := by
  simp only [Terminal.step, Option.ite_none_left_eq_some] at hstep
  replace hstep := hstep.2
  cases event with
  | entered line time =>
      obtain ⟨_, hnext⟩ := Option.ite_none_right_eq_some.1 hstep
      cases hnext
      exact shipped_of_toServer client line.1 time
  | endOfInput time =>
      obtain ⟨_, hnext⟩ := Option.ite_none_right_eq_some.1 hstep
      cases hnext
      refine ⟨rfl, [new .closeConn [] [] time], rfl, fun packet hpacket => ?_⟩
      rw [List.mem_singleton.1 hpacket]
      exact .inr rfl
  | interrupted time =>
      -- one packet for the server and one for the router
      let packet := new .closeConn [] client.profile.text time
      cases hstep
      refine ⟨rfl, [packet, packet], List.append_assoc .., fun sent hsent => ?_⟩
      have hpacket : sent = packet := by simpa using hsent
      rw [hpacket]
      exact .inl rfl
  | located => exact hserving.elim
  | connected => exact hserving.elim
  | created => exact hserving.elim
  | presented => exact hserving.elim
  | closeConn => exact hserving.elim

end Client

/-! ## Requests of shipped clients -/

/-- Every connection belongs to a client, which logs in with its name. -/
def ShippedRequest (names : Conn → ProfileName) (primary : Primary)
    (request : Request) : Prop :=
  match primary.sessions request.conn with
  | .fresh =>
      request.packet.cmd = .profile ∧
        request.packet.payload = (names request.conn).text
  | .loggedIn _ => Shipped (names request.conn) request.packet
  | .finished => True

instance (names : Conn → ProfileName) (primary : Primary) (request : Request) :
    Decidable (ShippedRequest names primary request) :=
  decidable_of_iff
    ((match primary.sessions request.conn with
      | .fresh =>
          decide (request.packet.cmd = .profile ∧
            request.packet.payload = (names request.conn).text)
      | .loggedIn _ => decide (Shipped (names request.conn) request.packet)
      | .finished => true) = true)
    (by
      rw [ShippedRequest]
      split <;> simp only [decide_eq_true_eq])

/-- A client that is logged in leaves at the end of its input. -/
def LeavesAtEndOfInput (primary : Primary) (request : Request) : Prop :=
  match primary.sessions request.conn with
  | .loggedIn _ => request.packet.cmd = .closeConn ∧ request.packet.sender = []
  | _ => False

instance (primary : Primary) (request : Request) :
    Decidable (LeavesAtEndOfInput primary request) :=
  decidable_of_iff
    ((match primary.sessions request.conn with
      | .loggedIn _ =>
          decide (request.packet.cmd = .closeConn ∧ request.packet.sender = [])
      | _ => false) = true)
    (by
      rw [LeavesAtEndOfInput]
      split <;> simp only [decide_eq_true_eq, Bool.false_eq_true])

/-- A turn of `receiveAlive` with this packet uses a null pointer. -/
def Dereferences (backup : Server) (relayed : Relayed) : Prop :=
  ((receiveAlive relayed.message relayed.time).run backup).1 = .error .nullDeref

/-- A backup that receives what has been forwarded so far uses no null pointer
in any turn. -/
def Survives (backupConn : Conn) (primary : Primary) : Prop :=
  ∀ received : List Relayed,
    (received.map fun relayed => relayed.message.packet) =
      forwarded backupConn primary →
    ∀ front relayed back backup, received = front ++ relayed :: back →
      exec relay Server.new front = some backup →
        ¬ Dereferences backup relayed

/-- The backup is at the primary's state, the clients are logged in as
themselves, and no profile has the empty id. -/
structure Sheltered (names : Conn → ProfileName) (backupConn : Conn)
    (primary : Primary) : Prop where
  followed : Followed relay (forwarded backupConn)
    (fun relayed => relayed.message.packet) (Mirroring backupConn) Server.new
    primary
  named : ∀ conn ref, primary.sessions conn = .loggedIn ref →
    (primary.server.store.objects ref).profileId = (names conn).text
  nonempty : primary.server.store.getProfileById [] = none

section Survival

variable {names : Conn → ProfileName} {backupConn : Conn}
  {primary next : Primary} {request : Request}

theorem surjective_packet :
    Function.Surjective fun relayed : Relayed => relayed.message.packet :=
  fun packet => ⟨⟨⟨0, packet⟩, 0⟩, rfl⟩

/-- Some backup has followed. -/
theorem Sheltered.mirroring (hsheltered : Sheltered names backupConn primary) :
    ∃ received backup,
      (received.map fun relayed => relayed.message.packet) =
        forwarded backupConn primary ∧
      exec relay Server.new received = some backup ∧
      Mirroring backupConn primary backup := by
  obtain ⟨received, hreceived⟩ :=
    List.map_surjective_iff.2 surjective_packet (forwarded backupConn primary)
  obtain ⟨backup, hbackup, hmirroring⟩ := hsheltered.followed received hreceived
  exact ⟨received, backup, hreceived, hbackup, hmirroring⟩

/-- A turn that goes on has used no null pointer. -/
theorem Sheltered.survives (hsheltered : Sheltered names backupConn primary) :
    Survives backupConn primary := by
  intro received hreceived front relayed back backup hsplit hfront hnull
  obtain ⟨after, hafter, _⟩ := hsheltered.followed received hreceived
  rw [hsplit, exec_append_iff] at hafter
  obtain ⟨middle, hmiddle, hrest⟩ := hafter
  cases hfront.symm.trans hmiddle
  obtain ⟨served, hserved, _⟩ := exec_cons_iff.1 hrest
  rw [relay_eq_some_iff] at hserved
  rw [Dereferences, hserved] at hnull
  cases hnull

theorem clientRequest_of_shipped
    (hsheltered : Sheltered names backupConn primary)
    (hshipped : ShippedRequest names primary request)
    (hstays : ¬ LeavesAtEndOfInput primary request) :
    ClientRequest primary request := by
  rw [ShippedRequest] at hshipped
  rw [LeavesAtEndOfInput] at hstays
  rw [ClientRequest]
  cases hsession : primary.sessions request.conn with
  | finished => trivial
  | fresh =>
      rw [hsession] at hshipped
      exact hshipped.1
  | loggedIn ref =>
      rw [hsession] at hshipped hstays
      dsimp only at hshipped hstays ⊢
      rw [hsheltered.named request.conn ref hsession]
      rw [Shipped] at hshipped
      split at hshipped
      · next hcmd => exact ⟨.inr (.inl hcmd), fun _ => hshipped⟩
      · next hcmd => exact ⟨.inr (.inr (.inl hcmd)), fun _ => hshipped.1⟩
      · next hcmd =>
          refine ⟨.inr (.inr (.inr hcmd)), fun _ => ?_⟩
          exact hshipped.resolve_right fun hempty => hstays ⟨hcmd, hempty⟩
      · exact hshipped.elim

theorem payload_of_shipped (hshipped : ShippedRequest names primary request)
    (hrunning : primary.sessions request.conn ≠ .finished)
    (hcmd : request.packet.cmd = .profile) :
    request.packet.payload = (names request.conn).text := by
  rw [ShippedRequest] at hshipped
  split at hshipped
  · exact hshipped.2
  · simp only [Shipped, hcmd] at hshipped
  · next hsession => exact absurd hsession hrunning

/-- A login names its connection's profile, and nobody's name changes. -/
theorem Sheltered.named_answered
    (hsheltered : Sheltered names backupConn primary)
    (hshipped : ShippedRequest names primary request)
    (hanswered : Answered primary request next) :
    (∀ conn ref, next.sessions conn = .loggedIn ref →
      (next.server.store.objects ref).profileId = (names conn).text) ∧
    next.server.store.getProfileById [] = none := by
  obtain ⟨_, _, _, _, hmirroring⟩ := hsheltered.mirroring
  have hwf := hmirroring.wellFormed
  obtain ⟨store, final, session, rfl, happlied, hfinishes, hcontinues⟩ :=
    hanswered.finishes
  have hpayload := payload_of_shipped hshipped hcontinues.running
  have hold (conn : Conn) (ref : ProfileRef)
      (hsession : primary.sessions conn = .loggedIn ref) :
      (final.objects ref).profileId = (names conn).text := by
    have hknown := (hmirroring.loggedIn conn ref hsession).1
    rw [hfinishes.graph.profileId, (happlied.extends hwf).ids _ ref hknown]
    exact hsheltered.named conn ref hsession
  constructor
  · intro conn ref hsession
    by_cases hself : conn = request.conn
    · subst hself
      have hcontinued := (Function.update_self ..).symm.trans hsession
      cases hcontinues with
      | entered hfresh hcreate =>
          cases hcontinued
          have hfound := found_of_createProfileIfNotExists hcreate
          have hcreated := createProfileIfNotExists_extends hwf
            request.packet.payload (some request.conn) request.time
          rw [hcreate] at hcreated
          have hcmd : request.packet.cmd = .profile := by
            rw [ShippedRequest, hfresh] at hshipped
            exact hshipped.1
          rw [← hpayload hcmd]
          exact (hfinishes.graph.profileId ref).trans
            (hcreated.1.ids _ ref hfound)
      | stayed hlogged hcmd =>
          cases hcontinued
          exact hold request.conn ref hlogged
      | ended => cases hcontinued
    · exact hold conn ref ((Function.update_of_ne hself ..).symm.trans hsession)
  · refine (hfinishes.graph.getProfileById _).trans ?_
    apply happlied.unknown _ hsheltered.nonempty
    intro hcmd hempty
    have hname := (names request.conn).atLeast
    rw [← hpayload hcmd, hempty] at hname
    simp at hname

theorem Sheltered.step (hsheltered : Sheltered names backupConn primary)
    (hshipped : ShippedRequest names primary request)
    (hstays : ¬ LeavesAtEndOfInput primary request)
    (hattend : attend primary request = some next) :
    Sheltered names backupConn next := by
  have hrequest := clientRequest_of_shipped hsheltered hshipped hstays
  have hfollowed := hsheltered.followed.advance surjective_packet
    fun middle hmirroring => Mirroring.attend hmirroring hrequest hattend
  rcases answered_or_refused hrequest.forwards hattend with
    hanswered | hrefused
  · obtain ⟨hnamed, hempty⟩ :=
      hsheltered.named_answered hshipped hanswered
    exact ⟨hfollowed, hnamed, hempty⟩
  · have hleft := hrefused.left
    subst hleft
    refine ⟨hfollowed, fun conn ref hsession => ?_, hsheltered.nonempty⟩
    by_cases hself : conn = request.conn
    · subst hself
      cases (Function.update_self ..).symm.trans hsession
    · exact hsheltered.named conn ref
        ((Function.update_of_ne hself ..).symm.trans hsession)

/-- A backup that does not know the sender of a `CLOSE_CONN` uses a null
profile. -/
theorem dereferences_of_unknown {backup : Server} {relayed : Relayed}
    (hidle : Idle backup) (hcmd : relayed.message.packet.cmd = .closeConn)
    (hunknown : backup.store.getProfileById relayed.message.packet.sender =
      none) : Dereferences backup relayed := by
  have hlookup : (call fun controller =>
      controller.getProfileById relayed.message.packet.sender).run backup =
      (.ok none, backup) := by
    rw [← hunknown]
    exact run_call_withRead_of_idle hidle _
  have hprocess : (processPacket none none relayed.message relayed.time).run
      backup = (.error .nullDeref, backup) := by
    simp only [processPacket, hcmd, dereference, run_fail_bind]
  rw [Dereferences, receiveAlive, run_bind_of_ok backup hlookup,
    run_bind_of_error backup hprocess]

/-- The primary forwards the `CLOSE_CONN` of every session. -/
theorem forwarded_of_leaves {backup : Server} {ref : ProfileRef}
    (hmirroring : Mirroring backupConn primary backup)
    (hsession : primary.sessions request.conn = .loggedIn ref)
    (hcmd : request.packet.cmd = .closeConn)
    (hattend : attend primary request = some next) :
    forwarded backupConn next = forwarded backupConn primary ++
      [request.packet] := by
  have hforwards : Forwards primary request := by
    rw [Forwards, hsession]
    exact .inr (.inr (.inr hcmd))
  rcases answered_or_refused hforwards hattend with hanswered | hrefused
  · exact hmirroring.forwarded_answered hanswered
  · cases hcmd.symm.trans hrefused.cmd

theorem not_survives_of_leaves
    (hsheltered : Sheltered names backupConn primary)
    (hleaves : LeavesAtEndOfInput primary request)
    (hattend : attend primary request = some next) :
    ¬ Survives backupConn next := by
  obtain ⟨received, backup, hreceived, hbackup, hmirroring⟩ :=
    hsheltered.mirroring
  rw [LeavesAtEndOfInput] at hleaves
  split at hleaves
  · next ref hsession =>
      obtain ⟨hcmd, hempty⟩ := hleaves
      have hforwarded :=
        forwarded_of_leaves hmirroring hsession hcmd hattend
      let relayed : Relayed := ⟨⟨0, request.packet⟩, 0⟩
      have hunknown : backup.store.getProfileById request.packet.sender =
          none := by
        rw [hmirroring.mirrors.getProfileById, hempty]
        exact hsheltered.nonempty
      intro hsurvives
      apply hsurvives (received ++ [relayed]) _ received relayed [] backup rfl
        hbackup (dereferences_of_unknown hmirroring.idle hcmd hunknown)
      rw [List.map_append, hreceived, hforwarded]
      rfl
  · exact hleaves.elim

theorem sheltered_of_attach {attach : Request} {attached : Primary}
    (names : Conn → ProfileName) (hcmd : attach.packet.cmd = .setBackup)
    (hattach : handle Primary.start attach = some attached) :
    Sheltered names attach.conn attached where
  followed := followed_of_attach hcmd hattach
  named := by
    rw [attached_eq hcmd hattach]
    intro conn ref hsession
    by_cases hself : conn = attach.conn
    · subst hself
      cases (Function.update_self ..).symm.trans hsession
    · cases (Function.update_of_ne hself ..).symm.trans hsession
  nonempty := by
    rw [attached_eq hcmd hattach]
    rfl

end Survival

/-- Among the shipped clients, a backup that was attached before all of them
uses no null pointer in any state of a run exactly when no client that is logged
in leaves at the end of its input. -/
theorem survives_throughout_iff {attach : Request} {attached : Primary}
    {names : Conn → ProfileName} {requests : List Request}
    (hcmd : attach.packet.cmd = .setBackup)
    (hattach : handle Primary.start attach = some attached)
    (hshipped : Along attend (ShippedRequest names) attached requests) :
    Throughout attend (Survives attach.conn) attached requests ↔
      Along attend (fun primary request => ¬ LeavesAtEndOfInput primary request)
        attached requests := by
  apply throughout_iff_along_of_promised _ _ _
    (sheltered_of_attach names hcmd hattach) hshipped
  · exact fun primary hsheltered => hsheltered.survives
  · exact fun primary request next hsheltered hshipped hstays hattend =>
      hsheltered.step hshipped hstays hattend
  · exact fun primary request next hsheltered _ hleaves hattend =>
      not_survives_of_leaves hsheltered (not_not.1 hleaves) hattend

/-- The name of every client in the runs below. -/
def aliceName : ProfileName where
  text := [97, 108, 105, 99, 101]
  noNul := by decide
  atLeast := by decide
  atMost := by decide

/-- A client logs in, sends a text, and is interrupted. -/
def interruptedRun : List Request :=
  [⟨1, new .profile aliceName.text [] 0, 0⟩,
    ⟨1, new .send [104, 105] aliceName.text 0, 0⟩,
    ⟨1, new .closeConn [] aliceName.text 0, 0⟩]

theorem survives_throughout_interruptedRun :
    Throughout attend (Survives 9) attachedPrimary interruptedRun := by
  have hattach : handle Primary.start attachRequest = some attachedPrimary :=
    (Option.some_get _).symm
  have hshipped : Along attend (ShippedRequest fun _ => aliceName)
      attachedPrimary interruptedRun := by decide
  exact (survives_throughout_iff rfl hattach hshipped).2 (by decide)

/-- A client logs in and comes to the end of its input. -/
def endOfInputRun : List Request :=
  [⟨1, new .profile aliceName.text [] 0, 0⟩, ⟨1, new .closeConn [] [] 0, 0⟩]

/-- What the backup on connection 9 receives of the login. -/
def loginPackets : List Relayed :=
  [⟨⟨0, propagation attachRequest⟩, 0⟩,
    ⟨⟨0, new .profile aliceName.text [] 0⟩, 0⟩]

/-- The backup uses a null pointer when a client leaves at the end of its
input. -/
theorem endOfInputRun_dereferences :
    ¬ ∀ requests : List Request,
      Along attend (ShippedRequest fun _ => aliceName) attachedPrimary requests →
        Throughout attend (Survives 9) attachedPrimary requests := by
  intro hall
  let goodbye : Relayed := ⟨⟨0, new .closeConn [] [] 0⟩, 0⟩
  have hpackets : (exec attend attachedPrimary endOfInputRun).map (forwarded 9) =
      some ((loginPackets ++ [goodbye]).map
        fun relayed => relayed.message.packet) := by
    decide
  have hnull : (exec relay Server.new loginPackets).map (fun backup =>
      ((receiveAlive goodbye.message goodbye.time).run backup).1) =
      some (.error .nullDeref) := by
    decide
  obtain ⟨final, hexec, hforwarded⟩ := Option.map_eq_some_iff.1 hpackets
  obtain ⟨backup, hbackup, hderef⟩ := Option.map_eq_some_iff.1 hnull
  have hsurvives := (hall endOfInputRun (by decide)).final hexec
  exact hsurvives _ hforwarded.symm loginPackets goodbye [] backup rfl hbackup
    hderef

end TwitterLike.BackupSurvival
