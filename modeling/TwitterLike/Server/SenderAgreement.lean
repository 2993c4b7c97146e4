import TwitterLike.Server.BackupConvergence
import TwitterLike.Server.HandOver

/-!
# Who a request is from

A handler thread acts for the profile that its connection has logged in as; a
backup acts for the profile that the packet names as its sender, and so do the
clients that show the packet.  Nobody checks that the two are the same.
-/

namespace TwitterLike.SenderAgreement

open TwitterLike.ByteBuffer
open TwitterLike.PacketFormat
open TwitterLike.Profiles
open TwitterLike.ProfilesManager
open TwitterLike.Handlers
open TwitterLike.Faulting
open TwitterLike.FollowGraph
open TwitterLike.GraphHistory
open TwitterLike.Transition
open TwitterLike.Threads
open TwitterLike.SessionAccounting
open TwitterLike.Sessions
open TwitterLike.Commands
open TwitterLike.Replication
open TwitterLike.Deliveries
open TwitterLike.HandOver
open TwitterLike.BackupConvergence

/-! ## What a step only adds to -/

section Growth

variable {system next : System} {conn : Conn} {time : BitVec 64}
  {action : Action}

theorem findOrCreate_outputs {store after : Store} {profileId : ByteString}
    {result : Except Exit ProfileRef}
    (hfind : store.findOrCreate profileId (some conn) time = (result, after)) :
    store.outputs <+: after.outputs := by
  cases result with
  | ok profile =>
      rcases Store.findOrCreate_ok _ hfind with ⟨_, _, rfl⟩ | ⟨_, _, hsame⟩
      · exact List.prefix_rfl
      · rw [hsame.outputs]
        exact List.prefix_rfl
  | error exit =>
      rcases Store.findOrCreate_error _ hfind with ⟨_, _, rfl⟩ | ⟨_, _, hsame⟩
      · exact List.prefix_append _ _
      · rw [hsame.outputs]
        exact List.prefix_rfl

/-- What has been written stays written. -/
theorem outputs_of_transition
    (htransition : Transition system conn time action next) :
    system.store.outputs <+: next.store.outputs := by
  cases htransition with
  | found henter hcmd hwritable hfind => exact findOrCreate_outputs hfind
  | refused henter hcmd hwritable hfind => exact findOrCreate_outputs hfind
  | findFailed henter hcmd hwritable hfind => exact findOrCreate_outputs hfind
  | @followed packet profile store hpoint hcmd hwritable hfollow =>
      have hsame := system.store.addFollowerTo_outputs packet.payload profile
      rw [hfollow] at hsame
      change system.store.outputs <+: store.outputs
      rw [hsame]
  | @followFailed packet profile store exit hpoint hcmd hwritable hfollow =>
      have hsame := system.store.addFollowerTo_outputs packet.payload profile
      rw [hfollow] at hsame
      change system.store.outputs <+: store.outputs
      rw [hsame]
  | forwarded => exact List.prefix_append _ _
  | greeted => exact List.prefix_append _ _
  | fetched => exact List.prefix_append _ _
  | fetchFailed => exact List.prefix_append _ _
  | sent => exact List.prefix_append _ _
  | _ => exact List.prefix_rfl

theorem outputs_of_exec {labels : List Label}
    (hexec : exec Threads.step system labels = some next) :
    system.store.outputs <+: next.store.outputs := by
  induction labels generalizing system with
  | nil =>
      cases hexec
      exact List.prefix_rfl
  | cons label labels ih =>
      obtain ⟨middle, hstep, hrest⟩ := exec_cons_iff.1 hexec
      exact (outputs_of_transition (transition_of_step hstep).2).trans (ih hrest)

theorem writtenTo_mono (conn : Conn) {store after : Store}
    (houtputs : store.outputs <+: after.outputs) :
    writtenTo conn store <+: writtenTo conn after := by
  obtain ⟨added, hadded⟩ := houtputs
  rw [writtenTo, writtenTo, ← hadded, List.flatMap_append]
  exact List.prefix_append _ _

theorem announced_of_outputs {backupConn : Conn} {store after : Store}
    {profileId : ByteString} (hannounced : Announced backupConn store profileId)
    (houtputs : store.outputs <+: after.outputs) :
    Announced backupConn after profileId := by
  obtain ⟨packet, hpacket, hlogin⟩ := hannounced
  exact ⟨packet, (writtenTo_mono backupConn houtputs).subset hpacket,
    hlogin⟩

/-- A null session is never added. -/
theorem live_of_transition (htransition : Transition system conn time action next)
    (hlive : ∀ ref, none ∉ (system.store.objects ref).sessions) (ref : ProfileRef) :
    none ∉ (next.store.objects ref).sessions := fun hmem =>
  hlive ref (mem_sessions_of_transition htransition (by simp) hmem)

/-- The backup that was attached first stays the first one. -/
theorem head_of_transition {backupConn : Conn}
    (htransition : Transition system conn time action next)
    (hfirst : system.server.listBackups[0]? = some backupConn) :
    next.server.listBackups[0]? = some backupConn := by
  cases htransition with
  | joined hpoint hcmd =>
      change (system.server.listBackups ++ [conn])[0]? = _
      rw [List.getElem?_append_left, hfirst]
      exact (List.getElem?_eq_some_iff.1 hfirst).1
  | _ => exact hfirst

end Growth

/-! ## Whose the messages are -/

/-- The message has been handed to some profile, or a thread is about to hand it
over. -/
def Handled (system : System) (message : Message) : Prop :=
  (∃ ref, Present system.store ref message) ∨
    ∃ conn profile index, system.threads conn = .sending profile message index

/-- Every message that was received under the number carries the packet, and the
number has been used. -/
structure Carries (origin : ℕ) (packet : Packet) (system : System) : Prop where
  used : origin < system.received
  carries : ∀ message, Handled system message → message.origin = origin →
    message.packet = packet

/-- The invariant of all runs from an empty server. -/
structure Dated (system : System) : Prop where
  graph : GraphInvariant system
  live : ∀ ref, none ∉ (system.store.objects ref).sessions
  dated : ∀ message, Handled system message → message.origin < system.received

section Messages

variable {system next : System} {conn : Conn} {time : BitVec 64}
  {action : Action} {message : Message}

theorem handled_of_present {ref : ProfileRef}
    (hpresent : Present system.store ref message) : Handled system message :=
  .inl ⟨ref, hpresent⟩

/-- A message comes into being when its call of `sendToFollowersOf` begins. -/
theorem handled_of_messageStep
    (hlive : ∀ ref, none ∉ (system.store.objects ref).sessions)
    (hmessages : MessageStep system next) (hhandled : Handled next message) :
    Handled system message ∨
      message.origin = system.received ∧ system.received < next.received ∧
        ∃ conn session, system.threads conn = .looping session ∧
          next.threads conn = .sending session message 0 := by
  cases hmessages with
  | quiet _ _ hpoints hinbox hpasses =>
      refine .inl ?_
      rcases hhandled with ⟨ref, hwaits | hpassed⟩ | ⟨other, session, index, hpoint⟩
      · rcases hinbox ref with hsame | ⟨_, hempty⟩
        · exact handled_of_present (.inl (hsame ▸ hwaits))
        · rw [hempty] at hwaits
          cases hwaits
      · exact handled_of_present (.inr (hpasses ref ▸ hpassed))
      · rcases hpoints other with hsame | ⟨hout, _⟩
        · exact .inr ⟨other, session, index, hsame ▸ hpoint⟩
        · rw [hpoint] at hout
          exact absurd trivial hout
  | begun other session packet hlooping hnext =>
      subst hnext
      rcases hhandled with ⟨ref, hpresent⟩ | ⟨sender, profile, index, hpoint⟩
      · exact .inl (handled_of_present hpresent)
      · rcases System.point_of_goto hpoint with ⟨rfl, heq⟩ | ⟨_, hsame⟩
        · cases heq
          exact .inr ⟨rfl, Nat.lt_succ_self _, sender, _, hlooping, hpoint⟩
        · exact .inl (.inr ⟨sender, profile, index, hsame⟩)
  | sent other session follower carried index hsending hfollower hnext =>
      subst hnext
      refine .inl ?_
      rcases hhandled with ⟨ref, hpresent⟩ | ⟨sender, profile, turn, hpoint⟩
      · rcases present_sendOrInsertInbox hpresent with hold | ⟨_, rfl⟩
        · exact handled_of_present hold
        · exact .inr ⟨other, session, index, hsending⟩
      · rcases System.point_of_goto hpoint with ⟨rfl, heq⟩ | ⟨_, hsame⟩
        · cases heq
          exact .inr ⟨sender, session, index, hsending⟩
        · exact .inr ⟨sender, profile, turn, hsame⟩
  | done other session carried index hsending hlast hnext =>
      subst hnext
      refine .inl ?_
      rcases hhandled with ⟨ref, hpresent⟩ | ⟨sender, profile, turn, hpoint⟩
      · exact handled_of_present hpresent
      · rcases System.point_of_goto hpoint with ⟨_, heq⟩ | ⟨_, hsame⟩
        · cases heq
        · exact .inr ⟨sender, profile, turn, hsame⟩
  | drained other session hfetching hnext =>
      subst hnext
      refine .inl ?_
      rcases hhandled with ⟨ref, hpresent⟩ | ⟨sender, profile, turn, hpoint⟩
      · exact handled_of_present
          (present_fetchInboxContent (hlive session) hpresent)
      · rcases System.point_of_goto hpoint with ⟨_, heq⟩ | ⟨_, hsame⟩
        · cases heq
        · exact .inr ⟨sender, profile, turn, hsame⟩

theorem received_le_of_transition
    (htransition : Transition system conn time action next) :
    system.received ≤ next.received := by
  cases htransition <;> first | exact le_rfl | exact Nat.le_succ _

theorem dated_start : Dated System.start where
  graph := graphInvariant_start
  live _ hmem := by cases hmem
  dated message hhandled := by
    rcases hhandled with ⟨ref, hwaits | ⟨pass, hpass, _⟩⟩ | ⟨_, _, _, hpoint⟩
    · cases hwaits
    · cases hpass
    · cases hpoint

theorem Dated.step (hdated : Dated system)
    (htransition : Transition system conn time action next) : Dated next where
  graph := hdated.graph.step htransition
  live := live_of_transition htransition hdated.live
  dated message hhandled := by
    have hmessages := messageStep_of_transition hdated.live htransition
    rcases handled_of_messageStep hdated.live hmessages hhandled with
      hold | ⟨horigin, hlt, _⟩
    · exact (hdated.dated message hold).trans_le
        (received_le_of_transition htransition)
    · exact horigin ▸ hlt

theorem dated_of_exec {labels : List Label}
    (hexec : exec Threads.step System.start labels = some system) :
    Dated system :=
  exec_invariant (fun _ _ _ hdated _ hstep =>
    hdated.step (transition_of_step hstep).2) dated_start
    (along_true System.start labels) hexec

/-- The packet that a thread begins to send is the one it has received. -/
theorem packet_of_sending {packet : Packet} {session profile : ProfileRef}
    (htransition : Transition system conn time (.receive packet) next)
    (hlooping : system.threads conn = .looping session)
    (hsending : next.threads conn = .sending profile message 0) :
    message.packet = packet := by
  cases htransition with
  | sendBegun =>
      rw [System.goto_threads_self] at hsending
      cases hsending
      rfl
  | found =>
      rw [System.goto_threads_self] at hsending
      cases hsending
  | refused =>
      rw [System.goto_threads_self] at hsending
      cases hsending
  | joined =>
      rw [System.goto_threads_self] at hsending
      cases hsending
  | senderFound =>
      rw [System.goto_threads_self] at hsending
      cases hsending
  | followed =>
      rw [System.goto_threads_self] at hsending
      cases hsending
  | left =>
      rw [System.goto_threads_self] at hsending
      cases hsending
  | _ =>
      rw [show system.threads conn = _ from hsending] at hlooping
      cases hlooping

/-- A packet received in a session is the only one that carries its number. -/
theorem carries_of_received (hdated : Dated system) {packet : Packet}
    {session : ProfileRef} (hlooping : system.threads conn = .looping session)
    (htransition : Transition system conn time (.receive packet) next) :
    Carries system.received packet next where
  used := by
    cases htransition <;> exact Nat.lt_succ_self _
  carries message hhandled horigin := by
    have hmessages := messageStep_of_transition hdated.live htransition
    rcases handled_of_messageStep hdated.live hmessages hhandled with
      hold | ⟨_, _, other, profile, hbefore, hafter⟩
    · exact absurd horigin (hdated.dated message hold).ne
    · by_cases hself : other = conn
      · subst hself
        exact packet_of_sending htransition hlooping hafter
      · rw [threads_of_transition hself htransition, hbefore] at hafter
        cases hafter

theorem Carries.step {origin : ℕ} {packet : Packet}
    (hcarries : Carries origin packet system)
    (hlive : ∀ ref, none ∉ (system.store.objects ref).sessions)
    (htransition : Transition system conn time action next) :
    Carries origin packet next where
  used := hcarries.used.trans_le (received_le_of_transition htransition)
  carries message hhandled horigin := by
    have hmessages := messageStep_of_transition hlive htransition
    rcases handled_of_messageStep hlive hmessages hhandled with
      hold | ⟨hnew, _⟩
    · exact hcarries.carries message hold horigin
    · exact absurd (horigin.symm.trans hnew) hcarries.used.ne

theorem carries_of_exec {origin : ℕ} {packet : Packet} {labels : List Label}
    (hdated : Dated system) (hcarries : Carries origin packet system)
    (hexec : exec Threads.step system labels = some next) :
    Carries origin packet next :=
  (exec_invariant (fun _ _ after hboth _ hstep =>
    show Dated after ∧ Carries origin packet after from
      ⟨hboth.1.step (transition_of_step hstep).2,
        hboth.2.step hboth.1.live (transition_of_step hstep).2⟩)
    ⟨hdated, hcarries⟩ (along_true system labels) hexec).2

end Messages

/-! ## The request that a thread works on -/

/-- The thread works on the packet, or on none. -/
def WorksOn (packet : Packet) : Point → Prop
  | .registering _ current _ => current = packet
  | .sending _ message _ => message.packet = packet
  | .forwarding current _ _ => current = packet
  | .joining _ => False
  | .propagating => False
  | _ => True

section Requests

variable {system next : System} {conn : Conn} {time : BitVec 64}
  {packet : Packet}

theorem worksOn_next (continuation : Next) :
    WorksOn packet continuation.point := by
  cases continuation <;> trivial

theorem worksOn_of_received {session : ProfileRef}
    (hlooping : system.threads conn = .looping session)
    (htransition : Transition system conn time (.receive packet) next) :
    WorksOn packet (next.threads conn) := by
  have hstay : WorksOn packet (system.threads conn) := by
    rw [hlooping]
    trivial
  cases htransition with
  | found =>
      rw [System.goto_threads_self]
      rfl
  | refused =>
      rw [System.goto_threads_self]
      trivial
  | joined hpoint =>
      rw [hpoint] at hlooping
      cases hlooping
  | senderFound =>
      rw [System.goto_threads_self]
      trivial
  | followed =>
      rw [System.goto_threads_self]
      rfl
  | sendBegun =>
      rw [System.goto_threads_self]
      rfl
  | left =>
      rw [System.goto_threads_self]
      rfl
  | findFailed => exact hstay
  | senderUnknown => exact hstay
  | followFailed => exact hstay
  | listReplaced => exact hstay
  | ignored => exact hstay

theorem WorksOn.step (hworks : WorksOn packet (system.threads conn))
    (htransition : Transition system conn time .proceed next) :
    WorksOn packet (next.threads conn) := by
  cases htransition with
  | addressPushed hpoint =>
      rw [hpoint] at hworks
      exact hworks.elim
  | propagated hpoint =>
      rw [hpoint] at hworks
      exact hworks.elim
  | registered hpoint =>
      rw [System.registerSession, System.goto_threads_self]
      rw [hpoint] at hworks
      exact hworks
  | forwarded hpoint =>
      rw [System.goto_threads_self]
      rw [hpoint] at hworks
      exact hworks
  | forwardDone =>
      rw [System.goto_threads_self]
      exact worksOn_next _
  | sent hpoint =>
      rw [System.goto_threads_self]
      rw [hpoint] at hworks
      exact hworks
  | sendDone hpoint =>
      rw [System.goto_threads_self]
      rw [hpoint] at hworks
      exact hworks
  | fetchFailed => exact hworks
  | _ =>
      rw [System.goto_threads_self]
      trivial

/-- A thread works on one packet until it receives the next. -/
theorem worksOn_of_exec {labels : List Label}
    (hproceeds : ∀ label ∈ labels, label.conn = conn → label.action = .proceed)
    (hworks : WorksOn packet (system.threads conn))
    (hexec : exec Threads.step system labels = some next) :
    WorksOn packet (next.threads conn) := by
  induction labels generalizing system with
  | nil =>
      cases hexec
      exact hworks
  | cons label labels ih =>
      obtain ⟨middle, hstep, hrest⟩ := exec_cons_iff.1 hexec
      obtain ⟨hlabel, hlabels⟩ := List.forall_mem_cons.1 hproceeds
      have htransition := (transition_of_step hstep).2
      refine ih hlabels ?_ hrest
      by_cases hself : conn = label.conn
      · subst hself
        rw [hlabel rfl] at htransition
        exact hworks.step htransition
      · rw [threads_of_transition hself htransition]
        exact hworks

end Requests

/-! ## Whom the backup acts for -/

/-- The profile that `receiveAlive` looks up for a packet. -/
def actingProfile (backup : Server) (packet : Packet) : Option ProfileRef :=
  backup.store.getProfileById packet.sender

/-- The next turn of the thread in `sendToBackups` writes the packet to the
backup. -/
def ForwardsNext (system : System) (conn backupConn : Conn) (packet : Packet) :
    Prop :=
  ∃ index continuation,
    system.threads conn = .forwarding packet index continuation ∧
      system.server.listBackups[index]? = some backupConn

/-- The backup acts for the profile with this id, and the messages that were
received under the number name it as their sender. -/
structure Agrees (backup : Server) (packet : Packet) (primary : System)
    (origin : ℕ) (profileId : ByteString) : Prop where
  acts : ∃ ref ∈ actingProfile backup packet,
    (backup.store.objects ref).profileId = profileId
  speaks : ∀ ref message, Present primary.store ref message →
    message.origin = origin → message.packet.sender = profileId

section Agreement

variable {backup after : Server} {relayed : Relayed} {received : List Relayed}

/-- A turn of `receiveAlive` is `processPacket` for the acting profile. -/
theorem processed_actingProfile (hrelay : relay backup relayed = some after) :
    ∃ clientWantsToQuit,
      (processPacket none (actingProfile backup relayed.message.packet)
        relayed.message relayed.time).run backup =
          (.ok clientWantsToQuit, after) :=
  processed_of_relay hrelay

/-- A backup knows the profiles that have been announced to it. -/
theorem getProfileById_iff_announced {backupConn : Conn} {primary : System}
    (hreceived : (received.map fun relayed => relayed.message.packet) =
      writtenTo backupConn primary.store)
    (hexec : exec relay Server.new received = some backup)
    (profileId : ByteString) :
    (∃ ref, backup.store.getProfileById profileId = some ref) ↔
      Announced backupConn primary.store profileId := by
  have hgraph := exec_relay_graph wellFormed_empty hexec
  have hempty : graph Server.new.store = Graph.empty := graph_empty
  rw [hempty, hreceived] at hgraph
  have hids : (∃ ref, backup.store.getProfileById profileId = some ref) ↔
      profileId ∈ (graph backup.store).ids := by
    rw [← Option.isSome_iff_exists]
    rfl
  rw [hids, hgraph]
  exact mem_replayed_ids _ profileId

/-- A request reaches the followers and the backup under the same name exactly
when it names the profile that its connection has logged in as, and the backup
has been told of that profile. -/
theorem agrees_iff {conn backupConn : Conn} {system taken later : System}
    {labels more : List Label} {profile : ProfileRef}
    {packet forwarded : Packet} {time : BitVec 64}
    (hrun : exec Threads.step System.start labels = some system)
    (hlooping : system.threads conn = .looping profile)
    (htaken : Threads.step system ⟨conn, time, .receive packet⟩ = some taken)
    (hmore : exec Threads.step taken more = some later)
    (hproceeds : ∀ label ∈ more, label.conn = conn → label.action = .proceed)
    (hforwards : ForwardsNext later conn backupConn forwarded)
    (hreceived : (received.map fun relayed => relayed.message.packet) =
      writtenTo backupConn later.store)
    (hexec : exec relay Server.new received = some backup) :
    Agrees backup forwarded later system.received
        (system.store.objects profile).profileId ↔
      packet.sender = (system.store.objects profile).profileId ∧
        Announced backupConn later.store
          (system.store.objects profile).profileId := by
  have hdated := dated_of_exec hrun
  have htransition := (transition_of_step htaken).2
  have hcarries := carries_of_exec (hdated.step htransition)
    (carries_of_received hdated hlooping htransition) hmore
  have hsame : forwarded = packet := by
    obtain ⟨index, continuation, hpoint, _⟩ := hforwards
    have hworks := worksOn_of_exec hproceeds
      (worksOn_of_received hlooping htransition) hmore
    rw [hpoint] at hworks
    exact hworks
  subst hsame
  have hknows := getProfileById_iff_announced hreceived hexec forwarded.sender
  have hwf := wellFormed_of_exec_relay wellFormed_empty hexec
  constructor
  · rintro ⟨⟨ref, hfound, hid⟩, _⟩
    have hsender :
        forwarded.sender = (system.store.objects profile).profileId :=
      (hwf.ids _ ref hfound).symm.trans hid
    exact ⟨hsender, hsender ▸ hknows.1 ⟨ref, hfound⟩⟩
  · rintro ⟨hsender, hannounced⟩
    obtain ⟨ref, hfound⟩ := hknows.2 (hsender ▸ hannounced)
    refine ⟨⟨ref, hfound, (hwf.ids _ ref hfound).trans hsender⟩, ?_⟩
    intro other message hpresent horigin
    rw [hcarries.carries message (handled_of_present hpresent) horigin]
    exact hsender

end Agreement

/-! ## Connections that log in with `PROFILE` -/

/-- The packet announces the profile. -/
def Announces (store : Store) (profile : ProfileRef) (packet : Packet) : Prop :=
  packet.cmd = .profile ∧ packet.payload = (store.objects profile).profileId

/-- The profile and the packet of a login that has not been forwarded. -/
def announcing : Point → Option (ProfileRef × Packet)
  | .registering profile packet (.greet _) => some (profile, packet)
  | .forwarding packet 0 (.greet profile) => some (profile, packet)
  | _ => none

theorem mentions_of_announcing {point : Point} {profile : ProfileRef}
    {packet : Packet} (hannouncing : announcing point = some (profile, packet)) :
    Mentions point profile := by
  unfold announcing at hannouncing
  split at hannouncing
  · cases hannouncing
    exact .inl rfl
  · cases hannouncing
    exact .inl rfl
  · cases hannouncing

/-- What is known at the points of a thread that logs in with `PROFILE`: until
it has forwarded its first packet it holds that packet, and then the first
backup has been sent it. -/
structure LoggedIn (backupConn : Conn) (store : Store) (point : Point) :
    Prop where
  login : ProfileLogin point
  announces : ∀ profile packet, announcing point = some (profile, packet) →
    Announces store profile packet
  announced : ∀ profile, announcing point = none → boundAt point = some profile →
    Announced backupConn store (store.objects profile).profileId

/-- The first packet of the connection is `PROFILE`. -/
def LogsInByName (conn : Conn) (system : System) (label : Label) : Prop :=
  match label.action with
  | .receive packet =>
      label.conn = conn → system.threads conn = .accepted →
        packet.cmd = .profile
  | .proceed => True

/-- The invariant of a server whose first backup is on `backupConn`, for one
connection that logs in with `PROFILE`. -/
structure Named (backupConn conn : Conn) (system : System) : Prop where
  graph : GraphInvariant system
  live : ∀ ref, none ∉ (system.store.objects ref).sessions
  first : system.server.listBackups[0]? = some backupConn
  loggedIn : LoggedIn backupConn system.store (system.threads conn)

section Named

variable {backupConn conn other : Conn} {system next : System}
  {time : BitVec 64} {action : Action}

/-- A point keeps what is known at it while the store grows. -/
theorem LoggedIn.keep {store after : Store} {point : Point}
    (hloggedIn : LoggedIn backupConn store point)
    (hextends : Extends store after) (houtputs : store.outputs <+: after.outputs)
    (hknown : ∀ ref, Mentions point ref → Known store ref) :
    LoggedIn backupConn after point where
  login := hloggedIn.login
  announces profile packet hannouncing := by
    have hmentions := hknown profile (mentions_of_announcing hannouncing)
    rw [Announces, hextends.ids _ profile hmentions]
    exact hloggedIn.announces profile packet hannouncing
  announced profile hnone hbound := by
    have hmentions := hknown profile (mentions_of_boundAt hbound)
    rw [hextends.ids _ profile hmentions]
    exact announced_of_outputs (hloggedIn.announced profile hnone hbound) houtputs

/-- A point for the same session, in the same phase of its login. -/
theorem LoggedIn.move {store : Store} {before point : Point}
    (hloggedIn : LoggedIn backupConn store before)
    (hannouncing : announcing point = announcing before)
    (hbound : boundAt point = boundAt before) (hlogin : ProfileLogin point) :
    LoggedIn backupConn store point where
  login := hlogin
  announces := hannouncing ▸ hloggedIn.announces
  announced := hannouncing ▸ hbound ▸ hloggedIn.announced

/-- A point of no session. -/
theorem loggedIn_of_none {store : Store} {point : Point}
    (hannouncing : announcing point = none) (hbound : boundAt point = none)
    (hlogin : ProfileLogin point) : LoggedIn backupConn store point where
  login := hlogin
  announces _ _ hsome := by
    rw [hannouncing] at hsome
    cases hsome
  announced _ _ hsome := by
    rw [hbound] at hsome
    cases hsome

/-- The thread has found or created the profile that its packet names. -/
theorem loggedIn_of_found {store : Store} {packet : Packet}
    {profile : ProfileRef} (hcmd : packet.cmd = .profile)
    (hid : (store.objects profile).profileId = packet.payload) :
    LoggedIn backupConn store (.registering profile packet (.greet profile)) where
  login := .inl rfl
  announces other sent hannouncing := by
    cases hannouncing
    exact ⟨hcmd, hid.symm⟩
  announced _ hnone := by cases hnone

theorem profileId_of_found (hinvariant : GraphInvariant system)
    {packet : Packet} {profile : ProfileRef} {store : Store}
    (hfind : system.store.findOrCreate packet.payload (some conn) time =
      (.ok profile, store)) :
    (store.objects profile).profileId = packet.payload := by
  rcases Store.findOrCreate_ok _ hfind with ⟨hfound, _, rfl⟩ | ⟨_, rfl, hsame⟩
  · exact hinvariant.wellFormed.ids _ profile hfound
  · rw [hsame.objects, created_objects, if_pos rfl]
    rfl

theorem announcing_next (continuation : Next) :
    announcing continuation.point = none := by
  cases continuation <;> rfl

theorem profileLogin_next (continuation : Next) :
    ProfileLogin continuation.point := by
  cases continuation <;> trivial

/-- The session is counted, and its packet is still to be forwarded. -/
theorem LoggedIn.registered {store : Store} {profile : ProfileRef}
    {packet : Packet} {continuation : Next}
    (hloggedIn : LoggedIn backupConn store
      (.registering profile packet continuation)) :
    LoggedIn backupConn store (.forwarding packet 0 continuation) := by
  rcases hloggedIn.login with rfl | ⟨session, rfl⟩
  · refine ⟨trivial, hloggedIn.announces, fun _ hnone => ?_⟩
    cases hnone
  · exact hloggedIn.move rfl rfl trivial

/-- The first packet of a login goes to the first backup first. -/
theorem LoggedIn.forwarded {store : Store} {packet : Packet} {index : ℕ}
    {continuation : Next} {backup : Conn} {backups : List Conn}
    (hloggedIn : LoggedIn backupConn (store.sendPacket backup packet)
      (.forwarding packet index continuation))
    (hfirst : backups[0]? = some backupConn)
    (hbackup : backups[index]? = some backup) :
    LoggedIn backupConn (store.sendPacket backup packet)
      (.forwarding packet (index + 1) continuation) := by
  cases index with
  | succ index => exact hloggedIn.move rfl (by cases continuation <;> rfl) trivial
  | zero =>
      cases continuation with
      | greet profile =>
          rw [hfirst] at hbackup
          cases hbackup
          refine ⟨trivial, fun _ _ hsome => ?_, fun _ _ hbound => ?_⟩
          · cases hsome
          · cases hbound
            obtain ⟨hcmd, hpayload⟩ := hloggedIn.announces profile packet rfl
            refine ⟨packet, ?_, hcmd, hpayload⟩
            rw [writtenTo_sendPacket, if_pos rfl]
            exact List.mem_append_right _ (List.mem_singleton_self packet)
      | _ => exact hloggedIn.move rfl rfl trivial

/-- What the thread's own step leaves it with. -/
theorem LoggedIn.step (hnamed : Named backupConn conn system)
    (hold : LoggedIn backupConn next.store (system.threads conn))
    (hlogs : LogsInByName conn system ⟨conn, time, action⟩)
    (htransition : Transition system conn time action next) :
    LoggedIn backupConn next.store (next.threads conn) := by
  cases htransition with
  | @found packet continuation profile store henter hcmd hwritable hfind =>
      rw [System.goto_threads_self]
      have hid := profileId_of_found hnamed.graph hfind
      generalize hpoint : system.threads conn = point at henter hold
      cases henter with
      | first => exact loggedIn_of_found hcmd hid
      | again session => exact hold.move rfl rfl (.inr ⟨session, rfl⟩)
  | refused =>
      rw [System.goto_threads_self]
      exact loggedIn_of_none rfl rfl trivial
  | joined =>
      rw [System.goto_threads_self]
      exact loggedIn_of_none rfl rfl trivial
  | senderFound hpoint hprofile =>
      exact absurd (hlogs rfl hpoint) hprofile
  | reconnected hpoint =>
      rw [hpoint] at hold
      exact hold.login.elim
  | @addressPushed address hpoint =>
      have hpushed :
          (system.pushAddress conn address).threads conn = .propagating :=
        System.goto_threads_self _ _ _
      rw [hpushed]
      exact loggedIn_of_none rfl rfl trivial
  | propagated =>
      rw [System.propagate, System.goto_threads_self]
      exact loggedIn_of_none rfl rfl trivial
  | registered hpoint =>
      rw [hpoint] at hold
      rw [System.registerSession, System.goto_threads_self]
      exact hold.registered
  | forwarded hpoint hbackup =>
      rw [System.goto_threads_self]
      exact (hpoint ▸ hold).forwarded hnamed.first hbackup
  | @forwardDone packet index continuation hpoint hlast =>
      rw [System.goto_threads_self]
      rw [hpoint] at hold
      cases index with
      | zero =>
          rw [hnamed.first] at hlast
          cases hlast
      | succ index =>
          exact hold.move (announcing_next continuation)
            (boundAt_next packet (index + 1) continuation)
            (profileLogin_next continuation)
  | greeted hpoint =>
      rw [System.goto_threads_self]
      exact hold.move (hpoint ▸ rfl) (hpoint ▸ rfl) trivial
  | fetched hpoint =>
      rw [System.goto_threads_self]
      exact hold.move (hpoint ▸ rfl) (hpoint ▸ rfl) trivial
  | followed hpoint =>
      rw [System.goto_threads_self]
      exact hold.move (hpoint ▸ rfl) (hpoint ▸ rfl) trivial
  | sendBegun hpoint =>
      rw [System.goto_threads_self]
      exact hold.move (hpoint ▸ rfl) (hpoint ▸ rfl) trivial
  | sent hpoint =>
      rw [System.goto_threads_self]
      exact hold.move (hpoint ▸ rfl) (hpoint ▸ rfl) trivial
  | sendDone hpoint =>
      rw [System.goto_threads_self]
      exact hold.move (hpoint ▸ rfl) (hpoint ▸ rfl) trivial
  | left hpoint =>
      rw [System.goto_threads_self]
      exact loggedIn_of_none rfl rfl trivial
  | loopLeft hpoint =>
      rw [System.goto_threads_self]
      exact loggedIn_of_none rfl rfl trivial
  | closed hpoint =>
      rw [System.goto_threads_self]
      exact loggedIn_of_none rfl rfl trivial
  | findFailed => exact hold
  | senderUnknown => exact hold
  | fetchFailed => exact hold
  | followFailed => exact hold
  | listReplaced => exact hold
  | ignored => exact hold

theorem Named.step (hnamed : Named backupConn conn system)
    (hlogs : LogsInByName conn system ⟨other, time, action⟩)
    (htransition : Transition system other time action next) :
    Named backupConn conn next where
  graph := hnamed.graph.step htransition
  live := live_of_transition htransition hnamed.live
  first := head_of_transition htransition hnamed.first
  loggedIn := by
    have hold := hnamed.loggedIn.keep
      (extends_of_graphStep (graphStep_of_transition htransition)
        hnamed.graph.wellFormed)
      (outputs_of_transition htransition) (hnamed.graph.known conn)
    by_cases hself : conn = other
    · subst hself
      exact LoggedIn.step hnamed hold hlogs htransition
    · rw [threads_of_transition hself htransition]
      exact hold

theorem named_attachedSystem (address : ByteString) :
    Named backupConn conn (attachedSystem backupConn address) where
  graph := (replicates_attachedSystem address).profiles
  live _ hmem := by cases hmem
  first := rfl
  loggedIn := by
    rcases System.goto_threads_cases _ backupConn (.joining address) conn with
      ⟨_, hgoto⟩ | ⟨_, hgoto⟩
    · rw [attachedSystem, hgoto]
      exact loggedIn_of_none rfl rfl trivial
    · rw [attachedSystem, hgoto]
      exact loggedIn_of_none rfl rfl trivial

/-- The backup that was attached first has been told of every profile that a
connection has logged in as with `PROFILE`. -/
theorem announced_of_logsInByName {attach : Packet} {attached later : System}
    {labels more : List Label} {profile : ProfileRef}
    (hcmd : attach.cmd = .setBackup)
    (hattach : Threads.step System.start ⟨backupConn, time, .receive attach⟩ =
      some attached)
    (hlogs : Along Threads.step (LogsInByName conn) attached labels)
    (hrun : exec Threads.step attached labels = some system)
    (hlooping : system.threads conn = .looping profile)
    (hmore : exec Threads.step system more = some later) :
    Announced backupConn later.store
      (system.store.objects profile).profileId := by
  have hstart : Named backupConn conn attached := by
    rw [attached_eq hcmd hattach]
    exact named_attachedSystem attach.payload
  have hnamed : Named backupConn conn system :=
    exec_invariant (fun _ _ _ hnamed hlogs hstep =>
      hnamed.step hlogs (transition_of_step hstep).2) hstart hlogs hrun
  have hloggedIn := hnamed.loggedIn
  rw [hlooping] at hloggedIn
  exact announced_of_outputs (hloggedIn.announced profile rfl rfl)
    (outputs_of_exec hmore)

end Named

/-! ## Speaking in another name -/

/-- `b` logs in and `a` follows it, with a backup on connection 9. -/
def followedRun : List Label :=
  attachLabel :: loginLabels ++ registerLabels ++ announceLabels ++
    [⟨2, 0, .proceed⟩, ⟨2, 0, .proceed⟩] ++ followLabels

def followedPackets : List Relayed :=
  [⟨⟨0, new .backupPropagation [58, 10] [] 0⟩, 0⟩,
    ⟨⟨0, new .profile [97] [] 0⟩, 0⟩, ⟨⟨0, new .profile [98] [] 0⟩, 0⟩,
    ⟨⟨0, new .follow [98] [97] 0⟩, 0⟩]

/-- The turns of `sendToFollowersOf` for the packet of `b`. -/
def turnLabels : List Label := [⟨2, 0, .proceed⟩, ⟨2, 0, .proceed⟩]

def honest : Packet := new .send [104, 105] [98] 0

/-- `b` names `a` as the sender. -/
def forged : Packet := new .send [104, 105] [97] 0

/-- The run up to the packet of `b`, and up to the moment before it is
forwarded. -/
def Requests (packet : Packet) (system later : System) : Prop :=
  exec step System.start followedRun = some system ∧
    system.threads 2 = .looping 1 ∧
    (system.store.objects 1).profileId = [98] ∧
    ∃ taken, step system ⟨2, 0, .receive packet⟩ = some taken ∧
      exec step taken turnLabels = some later ∧
      ForwardsNext later 2 9 packet ∧
      (followedPackets.map fun relayed => relayed.message.packet) =
        writtenTo 9 later.store

theorem requests_of_values {packet : Packet}
    (hfollowed : (exec step System.start followedRun).map (fun system =>
        (system.threads 2, (system.store.objects 1).profileId)) =
      some (.looping 1, [98]))
    (hturned : (exec step System.start
        (followedRun ++ ⟨2, 0, .receive packet⟩ :: turnLabels)).map
          (fun later => (later.threads 2, later.server.listBackups[0]?,
            writtenTo 9 later.store)) =
      some (.forwarding packet 0 (.loop 1), some 9,
        followedPackets.map fun relayed => relayed.message.packet)) :
    ∃ system later, Requests packet system later := by
  obtain ⟨later, hlater, hvalues⟩ := Option.map_eq_some_iff.1 hturned
  obtain ⟨system, hrun, hrest⟩ := exec_append_iff.1 hlater
  obtain ⟨taken, htaken, hmore⟩ := exec_cons_iff.1 hrest
  rw [hrun] at hfollowed
  simp only [Option.map_some, Option.some.injEq, Prod.mk.injEq] at hfollowed
  simp only [Prod.mk.injEq] at hvalues
  obtain ⟨hpoint, hbackup, hwritten⟩ := hvalues
  exact ⟨system, later, hrun, hfollowed.1, hfollowed.2, taken, htaken, hmore,
    ⟨0, .loop 1, hpoint, hbackup⟩, hwritten.symm⟩

theorem agrees_honest :
    ∃ system later backup, Requests honest system later ∧
      exec relay Server.new followedPackets = some backup ∧
      Agrees backup honest later system.received [98] := by
  obtain ⟨system, later, hrequests⟩ :=
    @requests_of_values honest (by decide) (by decide)
  have hsome : (exec relay Server.new followedPackets).isSome := by decide
  obtain ⟨backup, hbackup⟩ := Option.isSome_iff_exists.1 hsome
  refine ⟨system, later, backup, hrequests, hbackup, ?_⟩
  obtain ⟨hrun, hlooping, hid, taken, htaken, hmore, hforwards, hwritten⟩ :=
    hrequests
  have hannounced : Announced 9 later.store [98] := by
    refine ⟨new .profile [98] [] 0, ?_, rfl, rfl⟩
    rw [← hwritten]
    decide
  rw [← hid] at hannounced ⊢
  exact (agrees_iff hrun hlooping htaken hmore (by decide) hforwards hwritten
    hbackup).2 ⟨hid.symm, hannounced⟩

/-- The backup takes the packet of `b` for one of `a`. -/
theorem forged_not_agrees :
    ∃ system later backup, Requests forged system later ∧
      exec relay Server.new followedPackets = some backup ∧
      ¬ Agrees backup forged later system.received [98] := by
  obtain ⟨system, later, hrequests⟩ :=
    @requests_of_values forged (by decide) (by decide)
  have hacts : (exec relay Server.new followedPackets).map (fun backup =>
      (actingProfile backup forged, (backup.store.objects 0).profileId)) =
        some (some 0, [97]) := by decide
  obtain ⟨backup, hbackup, hvalues⟩ := Option.map_eq_some_iff.1 hacts
  refine ⟨system, later, backup, hrequests, hbackup, fun hagrees => ?_⟩
  obtain ⟨ref, hfound, hid⟩ := hagrees.acts
  simp only [Prod.mk.injEq] at hvalues
  rw [hvalues.1] at hfound
  cases hfound
  rw [hvalues.2] at hid
  cases hid

end TwitterLike.SenderAgreement
