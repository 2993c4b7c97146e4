import TwitterLike.Server.LateBackup
import TwitterLike.Server.QueueMoves
import TwitterLike.Server.ServingRuns

/-!
# Queued messages across a failover

Both servers fill the inbox of a profile that is offline; only the primary
drains it.  A promoted backup therefore holds what the primary has written long
ago, and behind the null sessions of the profile or, after they are gone, to the
next connection, it sends it again.
-/

namespace TwitterLike.FailoverQueues

open TwitterLike.ByteBuffer
open TwitterLike.PacketFormat
open TwitterLike.Profiles
open TwitterLike.ProfilesManager
open TwitterLike.Handlers
open TwitterLike.FollowGraph
open TwitterLike.Transition
open TwitterLike.SessionAccounting
open TwitterLike.Commands
open TwitterLike.Replication
open TwitterLike.Mirror
open TwitterLike.BackupSimulation
open TwitterLike.RequestRuns
open TwitterLike.LateBackup
open TwitterLike.ServingRuns
open TwitterLike.Deliveries
open TwitterLike.QueueMoves

/-! ## A primary and its backup -/

structure Cluster where
  primary : Primary
  backup : Server

/-- A request, and the time at which the backup processes what it forwards. -/
structure Turn where
  request : Request
  relayTime : BitVec 64

/-- What `receiveAlive` makes of packets of one request. -/
def relayed (origin : ℕ) (packets : List Packet) (time : BitVec 64) :
    List Relayed :=
  packets.map fun packet => ⟨⟨origin, packet⟩, time⟩

/-- The primary handles a request to its end, and the backup what it has been
sent meanwhile. -/
def Cluster.step (backupConn : Conn) (cluster : Cluster) (turn : Turn) :
    Option Cluster :=
  (attend cluster.primary turn.request).bind fun next =>
    let added := (forwarded backupConn next).drop
      (forwarded backupConn cluster.primary).length
    (exec relay cluster.backup
      (relayed cluster.primary.received added turn.relayTime)).map
        fun backup => ⟨next, backup⟩

/-- A request of a client, or of a further backup that joins. -/
def Admitted (cluster : Cluster) (turn : Turn) : Prop :=
  ClientRequest cluster.primary turn.request ∨
    cluster.primary.sessions turn.request.conn = .fresh ∧
      turn.request.packet.cmd = .setBackup

/-! ## What has been written and what waits -/

/-- The message has been written to a connection of the profile. -/
def Written (store : Store) (ref : ProfileRef) (message : Message) : Prop :=
  ∃ pass ∈ passesTo store ref, pass.message = message ∧ pass.conns ≠ []

/-- Every inbox of the backup is that of the primary behind messages that the
primary has written. -/
structure Lags (primary backup : Store) : Prop where
  stale : ∀ ref, ∃ stale : Inbox,
    (backup.objects ref).inbox = stale ++ (primary.objects ref).inbox ∧
      ∀ message ∈ stale, Written primary ref message
  waiting : ∀ ref, ∀ message ∈ (primary.objects ref).inbox,
    ¬ Written primary ref message

/-- All messages are of requests received so far. -/
def Numbered (primary : Primary) : Prop :=
  ∀ ref message, Present primary.server.store ref message →
    message.origin < primary.received

section Lags

variable {primary backup primaryAfter backupAfter : Store} {ref : ProfileRef}
  {message : Message}

theorem Written.present (hwritten : Written primary ref message) :
    Present primary ref message := by
  obtain ⟨pass, hpass, hmessage, _⟩ := hwritten
  exact .inr ⟨pass, hpass, hmessage⟩

theorem Written.append {added : List Pass}
    (hwritten : Written primary ref message)
    (hpasses : passesTo primaryAfter ref = passesTo primary ref ++ added) :
    Written primaryAfter ref message := by
  obtain ⟨pass, hpass, hmessage⟩ := hwritten
  exact ⟨pass, hpasses ▸ List.mem_append_left _ hpass, hmessage⟩

theorem written_congr
    (hpasses : passesTo primaryAfter ref = passesTo primary ref) :
    Written primaryAfter ref message ↔ Written primary ref message := by
  rw [Written, hpasses, Written]

theorem Lags.congr (hlags : Lags primary backup)
    (hprimary : SameQueues primary primaryAfter)
    (hbackup : SameQueues backup backupAfter) :
    Lags primaryAfter backupAfter where
  stale ref := by
    obtain ⟨stale, hinbox, hwritten⟩ := hlags.stale ref
    refine ⟨stale, ?_, fun message hmessage => ?_⟩
    · rw [hbackup.inbox, hprimary.inbox, hinbox]
    · exact (written_congr (hprimary.passes ref)).2 (hwritten message hmessage)
  waiting ref message hmessage hwritten := by
    rw [hprimary.inbox] at hmessage
    exact hlags.waiting ref message hmessage
      ((written_congr (hprimary.passes ref)).1 hwritten)

/-- Registering empties the inbox of a new profile on both sides. -/
theorem Lags.registered (hlags : Lags primary backup)
    (hmirrors : Mirrors primary backup) {profileId : ByteString} {conn : Conn}
    {time relayTime : BitVec 64} {other : ProfileRef}
    (hcreate : primary.createProfileIfNotExists profileId (some conn) time =
      (.ok ref, primaryAfter))
    (hrelayed : backup.createProfileIfNotExists profileId none relayTime =
      (.ok other, backupAfter)) : Lags primaryAfter backupAfter := by
  have hpasses := createProfileIfNotExists_passesTo hcreate
  constructor
  · intro target
    rw [createProfileIfNotExists_inbox hrelayed,
      createProfileIfNotExists_inbox hcreate, hmirrors.getProfileById,
      hmirrors.allocated]
    split
    · exact ⟨[], rfl, nofun⟩
    · obtain ⟨stale, hinbox, hwritten⟩ := hlags.stale target
      exact ⟨stale, hinbox, fun message hmessage =>
        (written_congr (hpasses target)).2 (hwritten message hmessage)⟩
  · intro target message hmessage hwritten
    rw [createProfileIfNotExists_inbox hcreate] at hmessage
    split at hmessage
    · cases hmessage
    · exact hlags.waiting target message hmessage
        ((written_congr (hpasses target)).1 hwritten)

/-- A text waits on both sides for the followers that are offline. -/
theorem Lags.sent (hlags : Lags primary backup)
    (hmirrors : Mirrors primary backup) {sender : ProfileRef}
    (hnodup : (primary.objects sender).followers.Nodup)
    (hnew : ∀ ref, ¬ Present primary ref message) :
    Lags (primary.sendToFollowersOf (some sender) message).2
      (backup.sendToFollowersOf (some sender) message).2 := by
  have hfollowers := (hmirrors.objects sender).followers
  have hnodup' : (backup.objects sender).followers.Nodup :=
    hfollowers.symm ▸ hnodup
  constructor
  · intro ref
    have hpasses := sendToFollowersOf_passesTo hnodup message ref
    rw [sendToFollowersOf_inbox hnodup, sendToFollowersOf_inbox hnodup',
      hfollowers, (hmirrors.objects ref).sessionsOn]
    obtain ⟨stale, hinbox, hwritten⟩ := hlags.stale ref
    refine ⟨stale, ?_, fun message hmessage =>
      (hwritten message hmessage).append hpasses⟩
    split
    · rw [hinbox, List.append_assoc]
    · exact hinbox
  · intro ref waiting hwaiting hwritten
    have hbefore : waiting ∈ (primary.objects ref).inbox ∨ waiting = message := by
      rw [sendToFollowersOf_inbox hnodup] at hwaiting
      split at hwaiting
      · simpa using hwaiting
      · exact .inl hwaiting
    obtain ⟨pass, hpass, hmessage, hconns⟩ := hwritten
    rw [sendToFollowersOf_passesTo hnodup, List.mem_append] at hpass
    rcases hpass with hold | hadded
    · rcases hbefore with hwaited | rfl
      · exact hlags.waiting ref waiting hwaited ⟨pass, hold, hmessage, hconns⟩
      · exact hnew ref (.inr ⟨pass, hold, hmessage⟩)
    · -- who is written to is online, and nothing is queued for him
      split at hadded
      · next honline =>
          rw [List.mem_singleton.1 hadded] at hmessage
          rw [sendToFollowersOf_inbox hnodup, if_neg (by simp [honline.2]),
            ← hmessage] at hwaiting
          exact hnew ref (.inl hwaiting)
      · cases hadded

/-- A command that both sides have applied. -/
theorem Lags.applied (hlags : Lags primary backup)
    (hmirrors : Mirrors primary backup) (hwf : WellFormed primary) {conn : Conn}
    {profile : Option ProfileRef} {time relayTime : BitVec 64}
    (hpaired : Paired primary conn profile message.packet)
    (hnew : ∀ ref, ¬ Present primary ref message)
    (happlied : Applied (some conn) profile message time primary primaryAfter)
    (hrelayed : Applied none (backup.getProfileById message.packet.sender)
      message relayTime backup backupAfter) : Lags primaryAfter backupAfter := by
  cases happlied with
  | registered hcmd hcreate =>
      cases hrelayed with
      | registered _ hcreate' => exact hlags.registered hmirrors hcreate hcreate'
      | followed hcmd' => cases hcmd.symm.trans hcmd'
      | sent hcmd' => cases hcmd.symm.trans hcmd'
      | left hcmd' => cases hcmd.symm.trans hcmd'
  | followed hcmd hfollow =>
      obtain ⟨follower, rfl, hlookup, _⟩ :=
        hpaired.lookup hmirrors (by simp [hcmd])
      have hsame :=
        addFollowerTo_sameQueues primary message.packet.payload follower
      rw [hfollow] at hsame
      cases hrelayed with
      | followed _ hfollow' =>
          have hsame' :=
            addFollowerTo_sameQueues backup message.packet.payload follower
          rw [← hlookup, hfollow'] at hsame'
          exact hlags.congr hsame hsame'
      | registered hcmd' => cases hcmd.symm.trans hcmd'
      | sent hcmd' => cases hcmd.symm.trans hcmd'
      | left hcmd' => cases hcmd.symm.trans hcmd'
  | @sent sender hcmd hprofile =>
      obtain ⟨_, hfound, hlookup, _⟩ := hpaired.lookup hmirrors (by simp [hcmd])
      cases hprofile.symm.trans hfound
      cases hrelayed with
      | sent _ hprofile' =>
          cases hlookup.symm.trans hprofile'
          exact hlags.sent hmirrors (hwf.followers_nodup sender) hnew
      | registered hcmd' => cases hcmd.symm.trans hcmd'
      | followed hcmd' => cases hcmd.symm.trans hcmd'
      | left hcmd' => cases hcmd.symm.trans hcmd'
  | @left ref hcmd hprofile =>
      cases hrelayed with
      | @left other _ _ =>
          exact hlags.congr (decSessionsOn_sameQueues primary ref (some conn))
            (decSessionsOn_sameQueues backup other none)
      | registered hcmd' => cases hcmd.symm.trans hcmd'
      | followed hcmd' => cases hcmd.symm.trans hcmd'
      | sent hcmd' => cases hcmd.symm.trans hcmd'

/-- Only the primary drains, and what it drains it writes. -/
theorem Lags.fetched (hlags : Lags primary backup) {conn : Conn}
    (hlive : none ∉ (primary.objects ref).sessions)
    (hmem : some conn ∈ (primary.objects ref).sessions) :
    Lags (primary.fetchInboxContent ref).2 backup := by
  have hpasses (other : ProfileRef) := fetchInboxContent_passesTo other hlive
  constructor
  · intro other
    obtain ⟨stale, hinbox, hwritten⟩ := hlags.stale other
    have hstale (message : Message) (hmessage : message ∈ stale) :
        Written (primary.fetchInboxContent ref).2 other message :=
      (hwritten message hmessage).append (hpasses other)
    rw [fetchInboxContent_inbox]
    by_cases hself : other = ref
    · subst hself
      refine ⟨stale ++ (primary.objects other).inbox, ?_, ?_⟩
      · rw [if_pos rfl, List.append_nil, hinbox]
      · intro message hmessage
        rcases List.mem_append.1 hmessage with hold | hdrained
        · exact hstale message hold
        · refine ⟨⟨message, (primary.objects other).sessions.reduceOption⟩,
            ?_, rfl, List.ne_nil_of_mem (List.reduceOption_mem_iff.2 hmem)⟩
          rw [hpasses other, if_pos rfl]
          exact List.mem_append_right _ (List.mem_map_of_mem hdrained)
    · rw [if_neg hself]
      exact ⟨stale, hinbox, hstale⟩
  · intro other message hmessage hwritten
    rw [fetchInboxContent_inbox] at hmessage
    split at hmessage
    · cases hmessage
    · next hother =>
        have hsame := hpasses other
        rw [if_neg (Ne.symm hother), List.append_nil] at hsame
        exact hlags.waiting other message hmessage
          ((written_congr hsame).1 hwritten)

end Lags

/-! ## Until the crash -/

section Numbered

variable {primary next : Primary} {request : Request}

theorem received_of_attend (hattend : attend primary request = some next) :
    next.received = primary.received + 1 := by
  cases attended_of_attend hattend with
  | answered hanswered => cases hanswered <;> rfl
  | refused hrefused =>
      rw [hrefused.left]
      rfl
  | joined => rfl
  | reconnected => rfl
  | passed => rfl
  | dropped => rfl

theorem Numbered.step (hnumbered : Numbered primary)
    (hwf : WellFormed primary.server.store)
    (hattend : attend primary request = some next) : Numbered next := by
  have hdelivers := delivers_of_attend hwf hattend
  intro ref message hpresent
  rw [received_of_attend hattend]
  have hold (hbefore : Present primary.server.store ref message) :
      message.origin < primary.received + 1 :=
    Nat.lt_succ_of_lt (hnumbered ref message hbefore)
  rcases hpresent with hinbox | ⟨pass, hpass, rfl⟩
  · rcases hdelivers.inbox ref message hinbox with hwaited | rfl
    · exact hold (.inl hwaited)
    · exact Nat.lt_succ_self _
  · obtain ⟨added, hpasses, hadded⟩ := hdelivers.passes ref
    rw [hpasses, List.mem_append] at hpass
    rcases hpass with hbefore | hnew
    · exact hold (.inr ⟨pass, hbefore, rfl⟩)
    · rcases hadded pass hnew with hown | ⟨_, hwaited⟩
      · rw [hown]
        exact Nat.lt_succ_self _
      · exact hold (.inl hwaited)

theorem numbered_start : Numbered Primary.start := by
  rintro ref message (hinbox | ⟨pass, hpass, _⟩)
  · cases hinbox
  · cases hpass

theorem numbered_of_exec {requests : List Request}
    (hexec : exec attend Primary.start requests = some primary) :
    Numbered primary := by
  have hboth : Reached primary ∧ Numbered primary := by
    apply exec_invariant _ ⟨reached_start, numbered_start⟩
      (along_true Primary.start requests) hexec
    rintro state request next ⟨hreached, hnumbered⟩ _ hattend
    exact ⟨hreached.step hattend, hnumbered.step hreached.wellFormed hattend⟩
  exact hboth.2

end Numbered

/-- The backup holds what the primary holds, and in the inboxes more. -/
structure Following (backupConn : Conn) (cluster : Cluster) : Prop where
  mirroring : Mirroring backupConn cluster.primary cluster.backup
  lags : Lags cluster.primary.server.store cluster.backup.store
  numbered : Numbered cluster.primary

section Following

variable {backupConn : Conn} {primary next : Primary} {backup after : Server}
  {request : Request} {time : BitVec 64}

theorem Mirroring.count_joined (hmirroring : Mirroring backupConn primary backup)
    (hfresh : primary.sessions request.conn = .fresh) :
    (primary.server.listBackups ++ [request.conn]).count backupConn = 1 := by
  have hne : request.conn ≠ backupConn := by
    rintro rfl
    cases hfresh.symm.trans hmirroring.attached
  rw [List.count_append, hmirroring.backups, List.count_singleton,
    if_neg (by simpa using hne)]

/-- A further backup that joins is made known to the first one. -/
theorem Mirroring.forwarded_joined
    (hmirroring : Mirroring backupConn primary backup)
    (hfresh : primary.sessions request.conn = .fresh) :
    forwarded backupConn (primary.answered request.conn
        (joinedServer primary.server request.conn request.packet.payload
          request.time) .finished) =
      forwarded backupConn primary ++ [joinPacket primary request] := by
  have hlog := writtenTo_forward backupConn
    (primary.server.listBackups ++ [request.conn]) (joinPacket primary request)
    primary.server.store
  rw [Mirroring.count_joined hmirroring hfresh] at hlog
  exact hlog

theorem Mirroring.joined (hmirroring : Mirroring backupConn primary backup)
    (hfresh : primary.sessions request.conn = .fresh) :
    Tracks relay (forwarded backupConn) (fun relayed => relayed.message.packet)
      (Mirroring backupConn) primary
      (primary.answered request.conn
        (joinedServer primary.server request.conn request.packet.payload
          request.time) .finished) backup := by
  have hne : backupConn ≠ request.conn := by
    rintro rfl
    cases hfresh.symm.trans hmirroring.attached
  refine ⟨_, Mirroring.forwarded_joined hmirroring hfresh,
    fun inputs hinputs => ?_⟩
  obtain ⟨relayed, rfl, hpacket⟩ := List.map_eq_singleton_iff.1 hinputs
  have hcmd : relayed.message.packet.cmd = .backupPropagation := by
    rw [hpacket]
    rfl
  refine ⟨_, exec_cons_iff.2
    ⟨_, relay_backupPropagation hmirroring.idle hcmd, exec_nil _⟩, ?_⟩
  have hsessions := forward_sameSessions
    (primary.server.listBackups ++ [request.conn]) (joinPacket primary request)
    primary.server.store
  have hgraph := forward_sameGraph
    (primary.server.listBackups ++ [request.conn]) (joinPacket primary request)
    primary.server.store
  constructor
  case mirrors => exact mirrors_forward hmirroring.mirrors _ _
  case wellFormed => exact hgraph.wellFormed hmirroring.wellFormed
  case idle => exact hmirroring.idle
  case last => exact hmirroring.last
  case backups => exact Mirroring.count_joined hmirroring hfresh
  case attached =>
    exact (Function.update_of_ne hne _ _).trans hmirroring.attached
  case apart =>
    exact fun ref hmem => hmirroring.apart ref (hsessions.sessions ref ▸ hmem)
  case loggedIn =>
    intro conn ref hconn
    by_cases hself : conn = request.conn
    · subst hself
      cases (Function.update_self ..).symm.trans hconn
    · obtain ⟨hknown, hmem⟩ := hmirroring.loggedIn conn ref
        ((Function.update_of_ne hself ..).symm.trans hconn)
      exact ⟨hknown.of_sameGraph hgraph, (hsessions.sessions ref).symm ▸ hmem⟩

/-- The inboxes after an answered request that the backup has processed. -/
theorem Following.answered
    (hfollowing : Following backupConn ⟨primary, backup⟩)
    (hrequest : ClientRequest primary request)
    (hanswered : Answered primary request next)
    (hrelay : relay backup ⟨⟨primary.received, request.packet⟩, time⟩ =
      some after)
    (hafter : Mirroring backupConn next after) :
    Lags next.server.store after.store := by
  have hmirroring := hfollowing.mirroring
  have hforwarded {store : Store}
      (hrunning : primary.sessions request.conn ≠ .finished)
      (happlied : Applied (some request.conn)
        (primary.sessions request.conn).profile
        ⟨primary.received, request.packet⟩ request.time primary.server.store
        store) :
      Lags (forward primary.server.listBackups request.packet store)
        after.store := by
    have hnew (ref : ProfileRef) : ¬ Present primary.server.store ref
        ⟨primary.received, request.packet⟩ := fun hpresent =>
      lt_irrefl _ (hfollowing.numbered ref _ hpresent)
    rcases applied_of_relay hrelay with ⟨relayed, hrelayed, hstore⟩ | ⟨hother, _⟩
    · have hlags : Lags store relayed :=
        hfollowing.lags.applied hmirroring.mirrors hmirroring.wellFormed
          (hmirroring.paired hrequest hrunning) hnew happlied hrelayed
      rw [hstore]
      exact hlags.congr (forward_sameQueues _ _ _) (forward_sameQueues _ _ _)
    · exact absurd happlied.clientCommand hother
  cases hanswered with
  | @greeted ref store greeting hsession hcmd hcreate =>
      have hlags := hforwarded (by rw [hsession]; exact nofun)
        (.registered hcmd hcreate)
      let forwarded := forward primary.server.listBackups request.packet store
      have hsessions := fetchInboxContent_sameSessions
        (forwarded.sendPacket request.conn greeting) ref
      have hlive : none ∉ (forwarded.objects ref).sessions :=
        hsessions.sessions ref ▸ (hafter.mirrors.objects ref).live
      have hmem : some request.conn ∈ (forwarded.objects ref).sessions :=
        ((forward_sameSessions _ _ store).sessions ref).symm ▸
          mem_sessions_of_createProfileIfNotExists hcreate
      exact (hlags.congr (sendPacket_sameQueues _ request.conn greeting)
        (.refl _)).fetched hlive hmem
  | served hsession hcmd happlied =>
      apply hforwarded
      · rw [hsession]
        exact nofun
      · rw [hsession]
        exact happlied
  | ended hsession happlied =>
      refine (hforwarded ?_ ?_).congr (closeConn_sameQueues _ request.conn)
        (.refl _)
      · rw [hsession]
        exact nofun
      · rw [hsession]
        exact happlied

theorem exec_relayed_singleton {packet : Packet} {origin : ℕ} :
    exec relay backup (relayed origin [packet] time) = some after ↔
      relay backup ⟨⟨origin, packet⟩, time⟩ = some after := by
  simp [relayed, exec]

theorem Following.step {cluster final : Cluster} {turn : Turn}
    (hfollowing : Following backupConn cluster)
    (hadmitted : Admitted cluster turn)
    (hstep : Cluster.step backupConn cluster turn = some final) :
    Following backupConn final := by
  obtain ⟨primary, backup⟩ := cluster
  obtain ⟨request, time⟩ := turn
  obtain ⟨next, hattend, hrest⟩ := Option.bind_eq_some_iff.1 hstep
  obtain ⟨after, hrelay, rfl⟩ := Option.map_eq_some_iff.1 hrest
  dsimp only at hattend hrelay
  have hmirroring : Mirroring backupConn primary backup := hfollowing.mirroring
  have hnumbered := hfollowing.numbered.step hmirroring.wellFormed hattend
  -- the backup takes what is logged, and then mirrors the primary
  have htake {added : List Packet}
      (hlog : forwarded backupConn next = forwarded backupConn primary ++ added)
      (htracks : Tracks relay (forwarded backupConn)
        (fun relayed => relayed.message.packet) (Mirroring backupConn) primary
        next backup) :
      exec relay backup (relayed primary.received added time) = some after ∧
        Mirroring backupConn next after := by
    rw [hlog, List.drop_left] at hrelay
    obtain ⟨also, halso, htake⟩ := htracks
    obtain rfl := List.append_cancel_left (halso.symm.trans hlog)
    obtain ⟨known, hknown, hafter⟩ :=
      htake (relayed primary.received also time)
        (by simp [relayed, Function.comp_def])
    cases hknown.symm.trans hrelay
    exact ⟨hrelay, hafter⟩
  rcases hadmitted with hrequest | ⟨hfresh, hcmd⟩
  · have htracks := Mirroring.attend hmirroring hrequest hattend
    rcases answered_or_refused hrequest.forwards hattend with
      hanswered | hrefused
    · obtain ⟨htaken, hafter⟩ :=
        htake (hmirroring.forwarded_answered hanswered) htracks
      exact ⟨hafter, hfollowing.answered hrequest hanswered
        (exec_relayed_singleton.1 htaken) hafter, hnumbered⟩
    · have hlog := Mirroring.forwarded_refused hmirroring hrefused
      obtain ⟨htaken, hafter⟩ :=
        htake (hlog.trans (List.append_nil _).symm) htracks
      cases htaken
      refine ⟨hafter, hfollowing.lags.congr ?_ (.refl _), hnumbered⟩
      rw [hrefused.left]
      exact (sendPacket_sameQueues _ _ _).trans (closeConn_sameQueues _ _)
  · cases (attend_of_setBackup hfresh hcmd).symm.trans hattend
    obtain ⟨htaken, hafter⟩ :=
      htake (Mirroring.forwarded_joined hmirroring hfresh)
        (Mirroring.joined hmirroring hfresh)
    have hother : ¬ ClientCommand (joinPacket primary request).cmd := by
      rintro (hcmd | hcmd | hcmd | hcmd) <;> cases hcmd
    rcases applied_of_relay (exec_relayed_singleton.1 htaken) with
      ⟨_, happlied, _⟩ | ⟨_, hstore⟩
    · exact absurd happlied.clientCommand hother
    · refine ⟨hafter, ?_, hnumbered⟩
      rw [hstore]
      exact hfollowing.lags.congr (forward_sameQueues _ _ _) (.refl _)

/-- A backup that joins an empty primary follows it from then on. -/
theorem following_of_join {before : Primary} {join : Turn} {attached : Cluster}
    (hreached : Reached before) (hnumbered : Numbered before)
    (hempty : ∀ profileId, before.server.store.hasProfile profileId = false)
    (hfresh : before.sessions join.request.conn = .fresh)
    (hcmd : join.request.packet.cmd = .setBackup)
    (hjoin : Cluster.step join.request.conn ⟨before, Server.new⟩ join =
      some attached) : Following join.request.conn attached := by
  obtain ⟨request, time⟩ := join
  dsimp only at hfresh hcmd hjoin ⊢
  obtain ⟨next, hattend, hrest⟩ := Option.bind_eq_some_iff.1 hjoin
  obtain ⟨backup, hrelay, rfl⟩ := Option.map_eq_some_iff.1 hrest
  dsimp only at hattend hrelay
  have hnext := hnumbered.step hreached.wellFormed hattend
  cases (attend_of_setBackup hfresh hcmd).symm.trans hattend
  obtain ⟨huntouched, hnobody⟩ : Untouched before.server.store ∧
      ∀ conn ref, before.sessions conn ≠ .loggedIn ref := by
    refine hreached.stored.resolve_left ?_
    rintro ⟨profileId, ref, hfound⟩
    have hnone := hempty profileId
    rw [hasProfile_eq_isSome, hfound] at hnone
    cases hnone
  have hlog := forwarded_of_join hreached hfresh
  rw [hlog, show forwarded request.conn before = [] from
    hreached.unwritten request.conn hfresh] at hrelay
  obtain ⟨known, hknown, hcontroller, _⟩ :=
    @relay_joinPacket before request
      ⟨⟨before.received, joinPacket before request⟩, time⟩ rfl
  cases hknown.symm.trans (exec_relayed_singleton.1 hrelay)
  have hstore : backup.store = Store.empty :=
    congrArg ProfileAccessController.Controller.store hcontroller
  obtain ⟨after, hafter, hmirroring⟩ :=
    followed_of_join hreached hfresh huntouched hnobody
      (relayed before.received [joinPacket before request] time) hlog.symm
  obtain rfl : after = backup := Option.some.inj (hafter.symm.trans hrelay)
  have hblank (ref : ProfileRef) :
      ((forward (before.server.listBackups ++ [request.conn])
        (joinPacket before request) before.server.store).objects ref).inbox =
          [] := by
    rw [(forward_sameQueues _ _ _).inbox, huntouched.objects]
    rfl
  refine ⟨hmirroring, ⟨fun ref => ⟨[], ?_, nofun⟩, fun ref message hmessage => ?_⟩,
    hnext⟩
  · change (after.store.objects ref).inbox = _ ++ _
    rw [hstore, List.nil_append]
    exact (hblank ref).symm
  · have hmem : message ∈ ((forward (before.server.listBackups ++ [request.conn])
        (joinPacket before request) before.server.store).objects ref).inbox :=
      hmessage
    rw [hblank ref] at hmem
    cases hmem

end Following

/-! ## After the promotion -/

/-- The step writes to a connection of a profile what the old primary has
written to one. -/
def Rewrites (old : Primary) (primary next : Primary) : Prop :=
  ∃ ref, ∃ pass ∈ (passesTo next.server.store ref).drop
      (passesTo primary.server.store ref).length,
    pass.conns ≠ [] ∧ Written old.server.store ref pass.message

/-- The request makes the server call `sendPacket` on no null connection, and
write nothing that the old primary has written. -/
def DeliversOnce (old : Primary) (primary : Primary) (request : Request) : Prop :=
  ¬ UsesNullSession primary request ∧
    ∀ next, attend primary request = some next → ¬ Rewrites old primary next

/-- The inbox that the request fetches is empty; or the profile has no null
session, and what waits for it was waiting on the old primary, too, or is of a
request that came later. -/
def FetchesAnew (old : Primary) (primary : Primary) (request : Request) : Prop :=
  ∀ ref ∈ fetched primary request,
    (primary.server.store.objects ref).inbox = [] ∨
      none ∉ (primary.server.store.objects ref).sessions ∧
        ∀ message ∈ (primary.server.store.objects ref).inbox,
          message ∈ (old.server.store.objects ref).inbox ∨
            old.received ≤ message.origin

/-- The promoted backup: what waits came with the promotion or is new. -/
structure Promoted (crashed : Cluster) (primary : Primary) : Prop where
  consistent : Consistent primary
  later : crashed.primary.received ≤ primary.received
  inbox : ∀ ref, ∀ message ∈ (primary.server.store.objects ref).inbox,
    crashed.primary.received ≤ message.origin ∨
      message ∈ (crashed.backup.store.objects ref).inbox

section Promoted

variable {backupConn : Conn} {crashed : Cluster} {primary next : Primary}
  {request : Request} {ref : ProfileRef} {message : Message}

theorem Promoted.step (hpromoted : Promoted crashed primary)
    (hattend : attend primary request = some next) : Promoted crashed next := by
  have hdelivers :=
    delivers_of_attend hpromoted.consistent.wellFormed hattend
  constructor
  case consistent => exact hpromoted.consistent.step hattend
  case later =>
    rw [received_of_attend hattend]
    exact hpromoted.later.trans (Nat.le_succ _)
  case inbox =>
    intro ref message hmessage
    rcases hdelivers.inbox ref message hmessage with hwaited | rfl
    · exact hpromoted.inbox ref message hwaited
    · exact .inl hpromoted.later

/-- What is new has not been written by the old primary. -/
theorem Following.not_written (hfollowing : Following backupConn crashed)
    (hlater : crashed.primary.received ≤ message.origin) :
    ¬ Written crashed.primary.server.store ref message := fun hwritten =>
  absurd (hfollowing.numbered ref message hwritten.present) hlater.not_gt

/-- What waits on the promoted server has not been written by the old primary
exactly when it waited there, too, or is new. -/
theorem Promoted.not_written_iff (hpromoted : Promoted crashed primary)
    (hfollowing : Following backupConn crashed)
    (hmessage : message ∈ (primary.server.store.objects ref).inbox) :
    ¬ Written crashed.primary.server.store ref message ↔
      message ∈ (crashed.primary.server.store.objects ref).inbox ∨
        crashed.primary.received ≤ message.origin := by
  constructor
  · intro hunwritten
    rcases hpromoted.inbox ref message hmessage with hlater | hbackup
    · exact .inr hlater
    · obtain ⟨stale, hinbox, hstale⟩ := hfollowing.lags.stale ref
      rw [hinbox, List.mem_append] at hbackup
      exact .inl (hbackup.resolve_left fun hmem =>
        hunwritten (hstale message hmem))
  · rintro (hwaited | hlater)
    · exact hfollowing.lags.waiting ref message hwaited
    · exact hfollowing.not_written hlater

theorem deliversOnce_of_fetchesAnew (hpromoted : Promoted crashed primary)
    (hfollowing : Following backupConn crashed)
    (hanew : FetchesAnew crashed.primary primary request) :
    DeliversOnce crashed.primary primary request := by
  constructor
  · rw [usesNullSession_iff]
    rintro ⟨ref, hfetched, hinbox, hnull⟩
    rcases hanew ref hfetched with hempty | ⟨hlive, _⟩
    · exact hinbox hempty
    · exact hlive hnull
  · rintro next hattend ⟨ref, pass, hpass, _, hwritten⟩
    have hdelivers :=
      delivers_of_attend hpromoted.consistent.wellFormed hattend
    obtain ⟨added, hpasses, hadded⟩ := hdelivers.passes ref
    rw [hpasses, List.drop_left] at hpass
    rcases hadded pass hpass with hown | ⟨hfetched, hwaited⟩
    · rw [hown] at hwritten
      exact hfollowing.not_written hpromoted.later hwritten
    · rcases hanew ref hfetched with hempty | ⟨_, hall⟩
      · rw [hempty] at hwaited
        cases hwaited
      · exact (hpromoted.not_written_iff hfollowing hwaited).2
          (hall _ hwaited) hwritten

theorem fetchesAnew_of_deliversOnce (hpromoted : Promoted crashed primary)
    (hfollowing : Following backupConn crashed)
    (hdelivers : DeliversOnce crashed.primary primary request) :
    FetchesAnew crashed.primary primary request := by
  intro ref hfetched
  by_cases hempty : (primary.server.store.objects ref).inbox = []
  · exact .inl hempty
  right
  have hlive : none ∉ (primary.server.store.objects ref).sessions := fun hnull =>
    hdelivers.1 (usesNullSession_iff.2 ⟨ref, hfetched, hempty, hnull⟩)
  refine ⟨hlive, fun message hmessage => ?_⟩
  -- the fetch succeeds, and writes the message
  obtain ⟨next, conns, hattend, hconns, hpasses⟩ :=
    attend_of_fetched hfetched hlive
  refine (hpromoted.not_written_iff hfollowing hmessage).1 fun hwritten => ?_
  refine hdelivers.2 next hattend ⟨ref, ⟨message, conns⟩, ?_, hconns, hwritten⟩
  rw [hpasses, List.drop_left]
  exact List.mem_map_of_mem hmessage

theorem Following.promoted (hfollowing : Following backupConn crashed) :
    Promoted crashed
      (Primary.serving crashed.backup crashed.primary.received) where
  consistent := by
    have hmirrors := hfollowing.mirroring.mirrors
    have hsame : SameGraph crashed.primary.server.store crashed.backup.store :=
      ⟨hmirrors.profiles, hmirrors.allocated,
        fun ref => (hmirrors.objects ref).profileId,
        fun ref => (hmirrors.objects ref).followers⟩
    exact consistent_serving
      (hsame.wellFormed hfollowing.mirroring.wellFormed) _
  later := le_rfl
  inbox _ _ hmessage := .inr hmessage

/-- A backup that joined an empty primary, whatever has gone on before, follows
it until it crashes, and is promoted with the same profiles.  Whatever requests
it handles then, it uses no null session and writes nothing again exactly when
every inbox that it fetches is empty, or is fetched without null sessions and
holds nothing that the primary has drained. -/
theorem deliversOnce_iff {earlier : List Request} {before : Primary}
    {join : Turn} {attached crashed : Cluster} {turns : List Turn}
    (hearlier : exec attend Primary.start earlier = some before)
    (hempty : ∀ profileId, before.server.store.hasProfile profileId = false)
    (hfresh : before.sessions join.request.conn = .fresh)
    (hcmd : join.request.packet.cmd = .setBackup)
    (hjoin : Cluster.step join.request.conn ⟨before, Server.new⟩ join =
      some attached)
    (hadmitted : Along (Cluster.step join.request.conn) Admitted attached turns)
    (hcrash : exec (Cluster.step join.request.conn) attached turns =
      some crashed)
    (requests : List Request) :
    (∀ profileId, crashed.backup.store.getProfileById profileId =
      crashed.primary.server.store.getProfileById profileId) ∧
    (Each attend (DeliversOnce crashed.primary)
        (Primary.serving crashed.backup crashed.primary.received) requests ↔
      Each attend (FetchesAnew crashed.primary)
        (Primary.serving crashed.backup crashed.primary.received) requests) := by
  have hattached := following_of_join (reached_of_exec hearlier)
    (numbered_of_exec hearlier) hempty hfresh hcmd hjoin
  have hfollowing : Following join.request.conn crashed :=
    exec_invariant (fun _ _ _ hfollowing hturn hstep =>
      hfollowing.step hturn hstep) hattached hadmitted hcrash
  refine ⟨hfollowing.mirroring.mirrors.getProfileById, ?_⟩
  refine each_iff (fun _ _ _ hpromoted hattend => hpromoted.step hattend)
    (fun primary request hpromoted => ?_) hfollowing.promoted
  exact ⟨fetchesAnew_of_deliversOnce hpromoted hfollowing,
    deliversOnce_of_fetchesAnew hpromoted hfollowing⟩

end Promoted

instance : ∀ session : Session, Decidable (session = .fresh)
  | .fresh => isTrue rfl
  | .loggedIn _ => isFalse nofun
  | .finished => isFalse nofun

instance (cluster : Cluster) (turn : Turn) : Decidable (Admitted cluster turn) :=
  inferInstanceAs (Decidable (_ ∨ _ ∧ _))

instance (old primary : Primary) (request : Request) :
    Decidable (FetchesAnew old primary request) :=
  inferInstanceAs (Decidable (∀ ref ∈ fetched primary request, _ ∨ _ ∧ _))

/-- A backup on connection 9 joins a primary that has had no request. -/
def joinTurn : Turn := ⟨attachRequest, 0⟩

def attachedCluster : Cluster :=
  (Cluster.step 9 ⟨Primary.start, Server.new⟩ joinTurn).get (by decide)

theorem step_joinTurn : Cluster.step 9 ⟨Primary.start, Server.new⟩ joinTurn =
    some attachedCluster :=
  (Option.some_get _).symm

/-- `a` and `b` log in, `a` follows `b` and leaves, and `b` sends a text that
waits for `a` on both servers. -/
def queuedTurns : List Turn :=
  [⟨⟨1, new .profile [97] [] 0, 0⟩, 0⟩, ⟨⟨2, new .profile [98] [] 0, 0⟩, 0⟩,
    ⟨⟨1, new .follow [98] [97] 0, 0⟩, 0⟩, ⟨⟨1, new .closeConn [] [97] 0, 0⟩, 0⟩,
    ⟨⟨2, new .send [104, 105] [98] 0, 0⟩, 0⟩]

def queuedCluster : Cluster :=
  (exec (Cluster.step 9) attachedCluster queuedTurns).get (by decide)

/-- Behind the crash `b` reconnects, and `a` comes back and gets the text. -/
def returns : List Request :=
  [⟨5, new .ok [] [98] 0, 0⟩, ⟨6, new .profile [97] [] 0, 0⟩]

theorem deliversOnce_queuedTurns :
    exec (Cluster.step 9) attachedCluster queuedTurns = some queuedCluster ∧
      (exec attend (Primary.serving queuedCluster.backup
        queuedCluster.primary.received) returns).isSome ∧
      Each attend (DeliversOnce queuedCluster.primary)
        (Primary.serving queuedCluster.backup queuedCluster.primary.received)
        returns := by
  have hadmitted : Along (Cluster.step 9) Admitted attachedCluster queuedTurns := by
    decide
  have hcrash : exec (Cluster.step 9) attachedCluster queuedTurns =
      some queuedCluster := (Option.some_get _).symm
  exact ⟨hcrash, by decide, (@deliversOnce_iff [] Primary.start joinTurn attachedCluster
    queuedCluster queuedTurns rfl (fun _ => rfl) rfl rfl step_joinTurn hadmitted
    hcrash _).2.2 (by decide)⟩

/-- `a` comes back to the primary and is written the text, which stays in its
inbox on the backup. -/
def drainedTurns : List Turn :=
  queuedTurns ++ [⟨⟨3, new .profile [97] [] 0, 0⟩, 0⟩]

def crashedCluster : Cluster :=
  (exec (Cluster.step 9) attachedCluster drainedTurns).get (by decide)

/-- The client of `a` reconnects, and the promoted server sends the text to the
null session that stands for the one it had. -/
theorem drainedTurns_not_deliversOnce :
    ¬ ∀ (earlier : List Request) (before : Primary) (join : Turn)
        (attached crashed : Cluster) (turns : List Turn)
        (requests : List Request),
      exec attend Primary.start earlier = some before →
      (∀ profileId, before.server.store.hasProfile profileId = false) →
      before.sessions join.request.conn = .fresh →
      join.request.packet.cmd = .setBackup →
      Cluster.step join.request.conn ⟨before, Server.new⟩ join =
        some attached →
      Along (Cluster.step join.request.conn) Admitted attached turns →
      exec (Cluster.step join.request.conn) attached turns = some crashed →
      (∀ request ∈ requests, request.packet.cmd = .ok) →
      Each attend (DeliversOnce crashed.primary)
        (Primary.serving crashed.backup crashed.primary.received) requests := by
  intro hall
  have hdelivers := hall [] Primary.start joinTurn attachedCluster crashedCluster
    drainedTurns [⟨5, new .ok [] [97] 0, 0⟩] rfl (fun _ => rfl) rfl rfl
    step_joinTurn (by decide) (Option.some_get _).symm (by decide)
  exact hdelivers.1.1 rfl

end TwitterLike.FailoverQueues
