import TwitterLike.Core.Channels
import TwitterLike.Server.DeliveryOrder
import TwitterLike.Server.GraphHistory
import TwitterLike.Server.Replication

/-!
# Connections and names

Clients that introduce themselves by their first packet and then follow, send and
leave.  The handler thread of a connection works on the profile of that name, and
what it sends comes from there; what is written to a connection is written to it
as a session of that profile.
-/

namespace TwitterLike.Naming

open TwitterLike.ByteBuffer
open TwitterLike.PacketFormat
open TwitterLike.Profiles
open TwitterLike.ProfilesManager
open TwitterLike.Handlers
open TwitterLike.FollowGraph
open TwitterLike.GraphHistory
open TwitterLike.Channels (subperm_map)
open TwitterLike.Threads
open TwitterLike.Sessions
open TwitterLike.Deliveries
open TwitterLike.HandOver
open TwitterLike.DeliveryOrder (writtenFor)
open TwitterLike.Replication (writtenTo writtenBy)

open scoped List

variable {name : Conn → ByteString}

/-- The first packet of a connection is `PROFILE` with its name; every later one
is `FOLLOW`, `SEND` or `CLOSE_CONN`. -/
def Introduces (name : Conn → ByteString) (system : System) (label : Label) :
    Prop :=
  match label.action, system.threads label.conn with
  | .receive packet, .accepted =>
      packet.cmd = .profile ∧ packet.payload = name label.conn
  | .receive packet, .looping _ =>
      packet.cmd = .follow ∨ packet.cmd = .send ∨ packet.cmd = .closeConn
  | _, _ => True

section Introduced

variable {system : System} {conn : Conn} {time : BitVec 64} {packet : Packet}

theorem introduces_first
    (hintroduces : Introduces name system ⟨conn, time, .receive packet⟩)
    (hpoint : system.threads conn = .accepted) :
    packet.cmd = .profile ∧ packet.payload = name conn := by
  simpa only [Introduces, hpoint] using hintroduces

theorem introduces_later {profile : ProfileRef}
    (hintroduces : Introduces name system ⟨conn, time, .receive packet⟩)
    (hpoint : system.threads conn = .looping profile) :
    packet.cmd = .follow ∨ packet.cmd = .send ∨ packet.cmd = .closeConn := by
  simpa only [Introduces, hpoint] using hintroduces

theorem introduces_proceed : Introduces name system ⟨conn, time, .proceed⟩ := by
  unfold Introduces
  split
  · next haction _ => cases haction
  · next haction _ => cases haction
  · trivial

/-- Only the first packet is a login. -/
theorem payload_of_enters {continuation : ProfileRef → Next}
    (hintroduces : Introduces name system ⟨conn, time, .receive packet⟩)
    (henter : Enters (system.threads conn) continuation)
    (hcmd : packet.cmd = .profile) : packet.payload = name conn := by
  generalize hpoint : system.threads conn = point at henter
  cases henter with
  | first => exact (introduces_first hintroduces hpoint).2
  | again session =>
      rcases introduces_later hintroduces hpoint with hother | hother | hother
      all_goals cases hcmd.symm.trans hother

end Introduced

theorem clientStep_of_introduces {system : System} {label : Label}
    (hintroduces : Introduces name system label) : ClientStep system label := by
  unfold Introduces at hintroduces
  unfold ClientStep
  split
  · next packet haction =>
      rw [haction] at hintroduces
      cases hpoint : system.threads label.conn with
      | accepted =>
          simp only [hpoint] at hintroduces
          simp [ClientPacket, hintroduces.1]
      | looping profile =>
          simp only [hpoint] at hintroduces
          simp [ClientPacket, or_assoc, hintroduces]
      | _ => rfl
  · trivial

/-- The profile is stored under the name of the connection. -/
def Bound (name : Conn → ByteString) (store : Store) (conn : Conn)
    (ref : ProfileRef) : Prop :=
  store.getProfileById (name conn) = some ref

/-- The output is written to the connection. -/
def Reaches (conn : Conn) : Output → Prop
  | .single other _ => other = conn
  | .pass _ pass => conn ∈ pass.conns

/-- Everything that the server has to do with a connection, it has to do with the
profile of its name. -/
structure Named (name : Conn → ByteString) (system : System) : Prop where
  base : HandOver.Invariant system
  noBackups : system.server.listBackups = []
  mentions : ∀ conn ref, Mentions (system.threads conn) ref →
    Bound name system.store conn ref
  singles : ∀ conn packet, Output.single conn packet ∈ system.store.outputs →
    ∃ time, packet = new .closeConn [] [] time ∨
      packet = new .send (helloText ++ name conn) [] time
  passes : ∀ ref pass, Output.pass ref pass ∈ system.store.outputs →
    ∀ conn ∈ pass.conns, Bound name system.store conn ref
  records : ∀ record ∈ system.sends,
    Bound name system.store record.conn record.profile
  recorded : ∀ record ∈ system.sends, record.followers ⊆
    (system.store.objects record.profile).followers
  unheard : ∀ output ∈ system.store.outputs, ∀ conn, Reaches conn output →
    system.threads conn ≠ .accepted

theorem named_start (name : Conn → ByteString) : Named name System.start where
  base := invariant_start
  noBackups := rfl
  mentions _ _ hmentions := hmentions.elim
  singles _ _ houtput := by cases houtput
  passes _ _ houtput := by cases houtput
  records _ hrecord := by cases hrecord
  recorded _ hrecord := by cases hrecord
  unheard _ houtput := by cases houtput

section Steps

variable {system next : System} {conn other : Conn} {time : BitVec 64}
  {action : Action} {ref : ProfileRef}

/-- An entry of the map stays. -/
theorem Bound.extends {before after : Store} (hbound : Bound name before conn ref)
    (hextends : Extends before after) : Bound name after conn ref :=
  hextends.entries (name conn) ref hbound

/-- A login finds or creates the profile that it names. -/
theorem found_of_findOrCreate {profileId : ByteString} {session : Option Conn}
    {before after : Store}
    (hfind : before.findOrCreate profileId session time = (.ok ref, after)) :
    after.getProfileById profileId = some ref := by
  rcases Store.findOrCreate_ok _ hfind with ⟨hfound, _, rfl⟩ | ⟨_, rfl, hsame⟩
  · exact hfound
  · rw [(SameGraph.of_sameMemory hsame).getProfileById, created_getProfileById,
      if_pos rfl]

/-- The profiles that a thread works on are the ones that it has worked on, or one
that its packet names. -/
theorem mentions_of_transition
    (htransition : Transition system conn time action next)
    (hmentions : Mentions (next.threads conn) ref) :
    Mentions (system.threads conn) ref ∨ ∃ packet, action = .receive packet ∧
      ((∃ continuation, Enters (system.threads conn) continuation) ∧
          packet.cmd = .profile ∧ next.store.getProfileById packet.payload = some ref ∨
        system.threads conn = .accepted ∧ packet.cmd ≠ .profile ∧
          next.store.getProfileById packet.sender = some ref) := by
  have hgoto {middle : System} {point : Point} (hnext : next = middle.goto conn point) :
      Mentions point ref := by
    rwa [hnext, System.goto_threads_self] at hmentions
  cases htransition with
  | @found packet continuation _ _ henter hcmd _ hfind =>
      have hfound := found_of_findOrCreate hfind
      have hentered : ∃ continuation, Enters (system.threads conn) continuation :=
        ⟨continuation, henter⟩
      have hmentioned := hgoto rfl
      generalize hpoint : system.threads conn = point at henter
      cases henter with
      | first =>
          rcases hmentioned with rfl | hgreet | hloop
          · exact .inr ⟨packet, rfl, .inl ⟨hpoint ▸ hentered, hcmd, hfound⟩⟩
          · cases hgreet
            exact .inr ⟨packet, rfl, .inl ⟨hpoint ▸ hentered, hcmd, hfound⟩⟩
          · cases hloop
      | again session =>
          rcases hmentioned with rfl | hgreet | hloop
          · exact .inr ⟨packet, rfl, .inl ⟨hpoint ▸ hentered, hcmd, hfound⟩⟩
          · cases hgreet
          · cases hloop
            exact .inl rfl
  | @senderFound packet _ hpoint hprofile _ hfound =>
      cases hgoto rfl
      exact .inr ⟨packet, rfl, .inr ⟨hpoint, hprofile, hfound⟩⟩
  | findFailed | senderUnknown | fetchFailed | followFailed | listReplaced
  | ignored => exact .inl hmentions
  | refused | joined | addressPushed | closed | loopLeft => exact (hgoto rfl).elim
  | registered hpoint =>
      rw [hpoint]
      exact .inl (.inr (hgoto rfl))
  | forwardDone hpoint =>
      rw [hpoint]
      exact .inl (mentions_next (hgoto rfl))
  | propagated | left =>
      rcases hgoto rfl with hquit | hquit
      all_goals cases hquit
  | followed hpoint | sendDone hpoint =>
      rw [hpoint]
      rcases hgoto rfl with hgreet | hloop
      · cases hgreet
      · cases hloop
        exact .inl rfl
  | reconnected hpoint | forwarded hpoint | greeted hpoint | fetched hpoint
  | sendBegun hpoint | sent hpoint =>
      have hsame := hgoto rfl
      rw [hpoint]
      exact .inl hsame

/-- A login is to the profile of the name. -/
theorem bound_of_mentions
    (hintroduces : Introduces name system ⟨conn, time, action⟩)
    (htransition : Transition system conn time action next)
    (hmentions : Mentions (next.threads conn) ref) :
    Mentions (system.threads conn) ref ∨ Bound name next.store conn ref := by
  refine (mentions_of_transition htransition hmentions).imp_right ?_
  rintro ⟨packet, rfl, ⟨⟨_, henter⟩, hcmd, hfound⟩ | ⟨hpoint, hprofile, _⟩⟩
  · rwa [Bound, ← payload_of_enters hintroduces henter hcmd]
  · exact absurd (introduces_first hintroduces hpoint).1 hprofile

/-- What a step adds to the output. -/
inductive Adds (system next : System) (conn : Conn) : Output → Prop where
  | refusal (time : BitVec 64) (hpoint : next.threads conn = .ended) :
      Adds system next conn (.single conn (new .closeConn [] [] time))
  | greeting {profile : ProfileRef} (time : BitVec 64)
      (hpoint : system.threads conn = .greeting profile) :
      Adds system next conn (.single conn
        (new .send (helloText ++ (system.store.objects profile).profileId) [] time))
  | copy {packet : Packet} {backup : Conn}
      (hbackup : backup ∈ system.server.listBackups) :
      Adds system next conn (.single backup packet)
  | pass {ref : ProfileRef} {pass : Pass}
      (hconns : ∀ other ∈ pass.conns,
        some other ∈ (system.store.objects ref).sessions) :
      Adds system next conn (.pass ref pass)

theorem adds_of_sendOrInsertInbox {message : Message} {output : Output}
    (houtput : output ∈ (system.store.sendOrInsertInbox ref message).outputs) :
    output ∈ system.store.outputs ∨ Adds system next conn output := by
  rw [Store.sendOrInsertInbox, Store.sendPasses_outputs] at houtput
  rcases List.mem_append.1 houtput with hold | hnew
  · exact .inl hold
  · obtain ⟨pass, hpass, rfl⟩ := List.mem_map.1 hnew
    refine .inr (.pass fun other hother => ?_)
    unfold Profile.sendOrInsertInbox at hpass
    split at hpass
    · rw [List.mem_singleton.1 hpass, List.reduceOption_mem_iff] at hother
      exact hother
    · cases hpass

theorem adds_of_fetchInboxContent
    (hlive : none ∉ (system.store.objects ref).sessions) {output : Output}
    (houtput : output ∈ (system.store.fetchInboxContent ref).2.outputs) :
    output ∈ system.store.outputs ∨ Adds system next conn output := by
  rw [Store.fetchInboxContent, Store.sendPasses_outputs,
    fetchInboxContent_of_noNull hlive] at houtput
  rcases List.mem_append.1 houtput with hold | hnew
  · exact .inl hold
  · obtain ⟨pass, hpass, rfl⟩ := List.mem_map.1 hnew
    obtain ⟨message, _, rfl⟩ := List.mem_map.1 hpass
    refine .inr (.pass fun other hother => ?_)
    rwa [List.reduceOption_mem_iff] at hother

theorem output_of_findOrCreate {profileId : ByteString} {store : Store}
    {result : Except Exit ProfileRef} {output : Output}
    (hfind : system.store.findOrCreate profileId (some conn) time = (result, store))
    (houtput : output ∈ store.outputs) :
    output ∈ system.store.outputs ∨ result = .error .threadExit ∧
      output = .single conn (new .closeConn [] [] time) := by
  cases result with
  | ok profile =>
      rcases Store.findOrCreate_ok _ hfind with ⟨_, _, rfl⟩ | ⟨_, _, hsame⟩
      · exact .inl houtput
      · exact .inl (hsame.outputs ▸ houtput)
  | error exit =>
      rcases Store.findOrCreate_error _ hfind with ⟨rfl, _, rfl⟩ | ⟨_, _, hsame⟩
      · exact (List.mem_append.1 houtput).imp_right fun hnew =>
          ⟨rfl, List.mem_singleton.1 hnew⟩
      · exact .inl (hsame.outputs ▸ houtput)

theorem adds_of_transition
    (hlive : ∀ ref, none ∉ (system.store.objects ref).sessions)
    (htransition : Transition system conn time action next) {output : Output}
    (houtput : output ∈ next.store.outputs) :
    output ∈ system.store.outputs ∨ Adds system next conn output := by
  cases htransition with
  | found _ _ _ hfind =>
      exact (output_of_findOrCreate hfind houtput).imp_right fun hnew => by
        cases hnew.1
  | refused _ _ _ hfind =>
      refine (output_of_findOrCreate hfind houtput).imp_right fun hnew => ?_
      rw [hnew.2]
      exact .refusal time (System.goto_threads_self ..)
  | findFailed _ _ _ hfind hexit =>
      exact (output_of_findOrCreate hfind houtput).imp_right fun hnew =>
        absurd (Except.error.inj hnew.1) hexit
  | @followed packet profile store _ _ _ hfollow
  | @followFailed packet profile store _ _ _ _ hfollow =>
      have hsame := system.store.addFollowerTo_outputs packet.payload profile
      rw [hfollow] at hsame
      exact .inl (hsame ▸ houtput)
  | forwarded hpoint hbackup =>
      rcases List.mem_append.1 houtput with hold | hnew
      · exact .inl hold
      · rw [List.mem_singleton.1 hnew]
        exact .inr (.copy (List.mem_of_getElem? hbackup))
  | greeted hpoint =>
      rcases List.mem_append.1 houtput with hold | hnew
      · exact .inl hold
      · rw [List.mem_singleton.1 hnew]
        exact .inr (.greeting time hpoint)
  | sent => exact adds_of_sendOrInsertInbox houtput
  | @fetched profile | @fetchFailed profile =>
      exact adds_of_fetchInboxContent (hlive profile) houtput
  | _ => exact .inl houtput

theorem backups_of_transition
    (hintroduces : Introduces name system ⟨conn, time, action⟩)
    (htransition : Transition system conn time action next) :
    next.server.listBackups = system.server.listBackups := by
  cases htransition with
  | joined hpoint hcmd =>
      cases hcmd.symm.trans (introduces_first hintroduces hpoint).1
  | _ => rfl

/-- A thread takes a packet at its first point and leaves it with that packet. -/
theorem accepted_of_transition
    (htransition : Transition system conn time action next) :
    (next.threads conn = .accepted →
        next.down ≠ none ∧ system.threads conn = .accepted) ∧
      (action = .proceed → system.threads conn ≠ .accepted) := by
  have hgoto {middle : System} {point : Point} {other : Prop}
      (hpoint : point ≠ .accepted)
      (haccepted : (middle.goto conn point).threads conn = .accepted) : other := by
    rw [System.goto_threads_self] at haccepted
    exact absurd haccepted hpoint
  cases htransition with
  | found | refused | joined | senderFound | followed | sendBegun | left =>
      exact ⟨hgoto (by simp), by simp⟩
  | findFailed | senderUnknown | followFailed =>
      exact ⟨fun hsame => ⟨by simp [System.crash], hsame⟩, by simp⟩
  | fetchFailed hpoint | listReplaced hpoint | ignored hpoint =>
      refine ⟨fun hsame => ?_, by simp [hpoint]⟩
      cases hpoint.symm.trans hsame
  | @forwardDone _ _ continuation hpoint =>
      refine ⟨hgoto ?_, by simp [hpoint]⟩
      cases continuation <;> simp [Next.point]
  | reconnected hpoint | addressPushed hpoint | propagated hpoint
  | registered hpoint | forwarded hpoint | greeted hpoint | fetched hpoint
  | sent hpoint | sendDone hpoint | loopLeft hpoint | closed hpoint =>
      exact ⟨hgoto (by simp), by simp [hpoint]⟩

/-- No thread comes back to its first point. -/
theorem not_accepted_of_transition
    (htransition : Transition system conn time action next)
    (hleft : system.threads other ≠ .accepted) :
    next.threads other ≠ .accepted := by
  by_cases hother : other = conn
  · subst hother
    exact fun hpoint => hleft ((accepted_of_transition htransition).1 hpoint).2
  · rwa [threads_of_transition hother htransition]

/-- A session belongs to the profile of its name. -/
theorem Named.bound_of_session (hnamed : Named name system)
    (hsession : some conn ∈ (system.store.objects ref).sessions) :
    Bound name system.store conn ref :=
  hnamed.mentions conn ref
    (mentions_of_sessionAt ((hnamed.base.sessions.member ref conn).1 hsession))

theorem Named.profileId_eq (hnamed : Named name system)
    (hbound : Bound name system.store conn ref) :
    (system.store.objects ref).profileId = name conn :=
  hnamed.base.graph.wellFormed.ids _ _ hbound

theorem Named.step (hnamed : Named name system) {label : Label}
    (hintroduces : Introduces name system label)
    (hstep : Threads.step system label = some next) : Named name next := by
  obtain ⟨conn, time, action⟩ := label
  have htransition := (transition_of_step hstep).2
  have hextends := extends_of_graphStep (graphStep_of_transition htransition)
    hnamed.base.graph.wellFormed
  have hadds (output : Output) (houtput : output ∈ next.store.outputs) :=
    adds_of_transition hnamed.base.sessions.live htransition houtput
  have hrecords (record : SendRecord) (hrecord : record ∈ next.sends) :
      record ∈ system.sends ∨ Bound name system.store record.conn record.profile ∧
        record.followers = (system.store.objects record.profile).followers := by
    refine (recorded_of_messageStep (messageStep_of_transition
      hnamed.base.sessions.live htransition) hrecord).imp_right fun hnew => ?_
    exact ⟨hnamed.mentions _ _ (by rw [hnew.1]; rfl), hnew.2⟩
  constructor
  case base => exact hnamed.base.step (clientStep_of_introduces hintroduces) hstep
  case noBackups =>
    exact (backups_of_transition hintroduces htransition).trans hnamed.noBackups
  case mentions =>
    intro other ref hmentions
    by_cases heq : other = conn
    · subst heq
      rcases bound_of_mentions hintroduces htransition hmentions with
        hold | hnew
      · exact (hnamed.mentions other ref hold).extends hextends
      · exact hnew
    · rw [threads_of_transition heq htransition] at hmentions
      exact (hnamed.mentions other ref hmentions).extends hextends
  case singles =>
    intro other packet houtput
    rcases hadds _ houtput with hold | hnew
    · exact hnamed.singles other packet hold
    · cases hnew with
      | refusal time => exact ⟨time, .inl rfl⟩
      | greeting time hpoint =>
          have hbound := hnamed.mentions conn _ (by rw [hpoint]; rfl)
          rw [hnamed.profileId_eq hbound]
          exact ⟨time, .inr rfl⟩
      | copy hbackup =>
          rw [hnamed.noBackups] at hbackup
          cases hbackup
  case passes =>
    intro ref pass houtput other hother
    rcases hadds _ houtput with hold | hnew
    · exact (hnamed.passes ref pass hold other hother).extends hextends
    · cases hnew with
      | pass hconns =>
          exact (hnamed.bound_of_session (hconns other hother)).extends hextends
  case records =>
    intro record hrecord
    rcases hrecords record hrecord with hold | ⟨hbound, _⟩
    · exact (hnamed.records record hold).extends hextends
    · exact hbound.extends hextends
  case recorded =>
    intro record hrecord
    rcases hrecords record hrecord with hold | ⟨hbound, hfollowers⟩
    · have hbound := hnamed.records record hold
      exact List.Subset.trans (hnamed.recorded record hold)
        (hextends.followers _ _ hbound).subset
    · rw [hfollowers]
      exact (hextends.followers _ _ hbound).subset
  case unheard =>
    intro output houtput other hreaches
    rcases hadds output houtput with hold | hnew
    · exact not_accepted_of_transition htransition
        (hnamed.unheard output hold other hreaches)
    · cases hnew with
      | refusal _ hpoint =>
          cases hreaches
          rw [hpoint]
          exact nofun
      | greeting _ hpoint =>
          cases hreaches
          exact not_accepted_of_transition htransition (by simp [hpoint])
      | copy hbackup =>
          rw [hnamed.noBackups] at hbackup
          cases hbackup
      | pass hconns =>
          have hsession := (hnamed.base.sessions.member _ other).1
            (hconns other hreaches)
          apply not_accepted_of_transition htransition
          intro hpoint
          rw [hpoint] at hsession
          cases hsession

/-- A packet that `processPacket` ignores is only counted. -/
theorem Named.ignored (hnamed : Named name system) {packet : Packet}
    (hpoint : system.threads conn = .looping ref) (hcmd : Ignored packet.cmd) :
    Named name system.countPacket := by
  have htransition : Transition system conn 0 (.receive packet) system.countPacket :=
    .ignored hpoint hcmd
  have hbase := hnamed.base
  refine ⟨⟨?_, hbase.graph.step htransition, ?_, ?_, ?_⟩, hnamed.noBackups,
    hnamed.mentions, hnamed.singles, hnamed.passes, hnamed.records,
    hnamed.recorded, hnamed.unheard⟩
  · apply hbase.accounts.step htransition
    rw [hpoint]
    exact fun _ => nofun
  · exact ⟨hbase.sessions.member, hbase.sessions.live, hbase.sessions.nodup,
      hbase.sessions.logins, hbase.sessions.closed, hbase.sessions.backups⟩
  · exact ⟨hbase.history.distinct,
      fun record hrecord => Nat.lt_succ_of_lt (hbase.history.old record hrecord),
      hbase.history.nodup, hbase.history.allocated, hbase.history.active⟩
  · exact ⟨hbase.delivered.settled, hbase.delivered.handedOver⟩

/-! ## Followers -/

theorem follower_of_addFollowerTo {store : Store} {followed : ByteString}
    {profile target follower : ProfileRef}
    (hfollower : follower ∈
      ((store.addFollowerTo followed (some profile)).2.objects target).followers) :
    follower ∈ (store.objects target).followers ∨
      follower = profile ∧ store.getProfileById followed = some target := by
  rcases store.addFollowerTo_cases followed profile with
    hkeep | ⟨pushed, hpushed, _, _, hpush⟩
  · rw [hkeep] at hfollower
    exact .inl hfollower
  · rw [hpush, (Store.toJsonFile_sameMemory _).objects, Store.pushFollower]
      at hfollower
    by_cases htarget : target = pushed
    · subst htarget
      rw [Store.update_objects_self] at hfollower
      rcases List.mem_append.1 hfollower with hold | hnew
      · exact .inl hold
      · exact .inr ⟨List.mem_singleton.1 hnew, hpushed⟩
    · rw [Store.update_objects_of_ne _ _ _ htarget] at hfollower
      exact .inl hfollower

theorem follower_of_created {store : Store} {profileId : ByteString}
    {target follower : ProfileRef}
    (hfollower : follower ∈ ((store.created profileId).objects target).followers) :
    follower ∈ (store.objects target).followers := by
  rw [created_objects] at hfollower
  split at hfollower
  · cases hfollower
  · exact hfollower

theorem follower_of_findOrCreate {store : Store} {profileId : ByteString}
    {result : Except Exit ProfileRef} {target follower : ProfileRef}
    (hfind : system.store.findOrCreate profileId (some conn) time = (result, store))
    (hfollower : follower ∈ (store.objects target).followers) :
    follower ∈ (system.store.objects target).followers := by
  cases result with
  | ok profile =>
      rcases Store.findOrCreate_ok _ hfind with ⟨_, _, rfl⟩ | ⟨_, _, hsame⟩
      · exact hfollower
      · rw [hsame.objects] at hfollower
        exact follower_of_created hfollower
  | error exit =>
      rcases Store.findOrCreate_error _ hfind with ⟨_, _, rfl⟩ | ⟨_, _, hsame⟩
      · exact hfollower
      · rw [hsame.objects] at hfollower
        exact follower_of_created hfollower

/-- A profile comes into a followers vector by a `FOLLOW` of its own session. -/
theorem follower_of_transition
    (htransition : Transition system conn time action next)
    {target follower : ProfileRef}
    (hfollower : follower ∈ (next.store.objects target).followers) :
    follower ∈ (system.store.objects target).followers ∨
      ∃ packet, action = .receive packet ∧ packet.cmd = .follow ∧
        system.threads conn = .looping follower ∧
        system.store.getProfileById packet.payload = some target := by
  cases htransition with
  | found _ _ _ hfind | refused _ _ _ hfind | findFailed _ _ _ hfind =>
      exact .inl (follower_of_findOrCreate hfind hfollower)
  | @followed packet profile store hpoint hcmd _ hfollow
  | @followFailed packet profile store _ hpoint hcmd _ hfollow =>
      have hstore : store =
          (system.store.addFollowerTo packet.payload (some profile)).2 := by
        rw [hfollow]
      change follower ∈ (store.objects target).followers at hfollower
      rw [hstore] at hfollower
      rcases follower_of_addFollowerTo hfollower with hold | ⟨rfl, htarget⟩
      · exact .inl hold
      · exact .inr ⟨packet, rfl, hcmd, hpoint, htarget⟩
  | reconnected =>
      exact .inl ((updateSessionsOn_sameGraph _ _ _).followers target ▸ hfollower)
  | registered =>
      exact .inl ((incSessionsOn_sameGraph _ _ _).followers target ▸ hfollower)
  | left =>
      exact .inl ((decSessionsOn_sameGraph _ _ _).followers target ▸ hfollower)
  | sent =>
      exact .inl ((sendOrInsertInbox_sameGraph _ _ _).followers target ▸ hfollower)
  | fetched | fetchFailed =>
      exact .inl ((fetchInboxContent_sameGraph _ _).followers target ▸ hfollower)
  | _ => exact .inl hfollower

/-- Exactly the `SEND` packets begin a call of `sendToFollowersOf`. -/
theorem sends_of_transition
    (hintroduces : Introduces name system ⟨conn, time, action⟩)
    (htransition : Transition system conn time action next) :
    (∃ packet record, action = .receive packet ∧ packet.cmd = .send ∧
        record.conn = conn ∧ record.message.packet = packet ∧
        next.sends = system.sends ++ [record]) ∨
      (∀ packet, action = .receive packet → packet.cmd ≠ .send) ∧
        next.sends = system.sends := by
  have hother {packet : Packet} (hne : packet.cmd ≠ .send) (other : Packet)
      (haction : Action.receive packet = .receive other) : other.cmd ≠ .send := by
    cases haction
    exact hne
  cases htransition with
  | @sendBegun packet profile hpoint hcmd =>
      exact .inl ⟨packet, _, rfl, hcmd, rfl, rfl, rfl⟩
  | found _ hcmd | refused _ hcmd | findFailed _ hcmd | joined _ hcmd
  | followed _ hcmd | followFailed _ hcmd | left _ hcmd | listReplaced _ hcmd =>
      exact .inr ⟨hother (by simp [hcmd]), rfl⟩
  | senderFound hpoint | senderUnknown hpoint =>
      have hcmd := (introduces_first hintroduces hpoint).1
      exact .inr ⟨hother (by simp [hcmd]), rfl⟩
  | @ignored packet _ _ hignored =>
      have hne : packet.cmd ≠ .send := by
        intro hcmd
        rw [hcmd] at hignored
        exact hignored
      exact .inr ⟨hother hne, rfl⟩
  | _ => exact .inr ⟨by simp, rfl⟩

/-- A new call works on the followers vector of that moment. -/
theorem calls_of_messageStep (hmessages : MessageStep system next) :
    ∃ calls, next.sends = system.sends ++ calls ∧ ∀ record ∈ calls,
      record.followers = (system.store.objects record.profile).followers := by
  cases hmessages with
  | quiet hsends => exact ⟨[], by rw [hsends, List.append_nil], by simp⟩
  | begun conn profile packet hpoint hnext =>
      subst hnext
      exact ⟨[_], rfl, by simp⟩
  | sent _ _ _ _ _ _ _ hnext | done _ _ _ _ _ _ hnext | drained _ _ _ hnext =>
      subst hnext
      exact ⟨[], (List.append_nil _).symm, by simp⟩

theorem ignored_of_transition {packet : Packet}
    (hlater : system.threads conn ≠ .accepted) (hcmd : Ignored packet.cmd)
    (htransition : Transition system conn time (.receive packet) next) :
    ∃ profile, system.threads conn = .looping profile ∧
      next = system.countPacket := by
  have hother {cmd : CmdType} (heq : packet.cmd = cmd) : Ignored cmd := heq ▸ hcmd
  cases htransition with
  | @ignored _ profile hpoint => exact ⟨profile, hpoint, rfl⟩
  | joined hpoint | senderFound hpoint | senderUnknown hpoint =>
      exact absurd hpoint hlater
  | found _ hother' | refused _ hother' | findFailed _ hother' | followed _ hother'
  | followFailed _ hother' | sendBegun _ hother' | left _ hother'
  | listReplaced _ hother' => exact (hother hother').elim

end Steps

/-! ## What is written to a connection -/

/-- The packets of clients, which have a sender; the server's own have none. -/
def fromClients (packets : List Packet) : List Packet :=
  packets.filter fun packet => packet.sender ≠ []

/-- The calls of `sendToFollowersOf` whose packets are for the profile of the
connection. -/
def heardBy (name : Conn → ByteString) (system : System) (conn : Conn) :
    List SendRecord :=
  system.sends.filter fun record =>
    ∃ ref ∈ record.followers, system.store.getProfileById (name conn) = some ref

section Written

variable {system : System} {conn : Conn} {ref : ProfileRef}

/-- A connection that gets only passes over one profile, besides packets of the
server, gets each of them once. -/
theorem fromClients_writtenTo {store : Store}
    (hsingles : ∀ packet, Output.single conn packet ∈ store.outputs →
      packet.sender = [])
    (hpasses : ∀ other pass, Output.pass other pass ∈ store.outputs →
      conn ∈ pass.conns → other = ref ∧ pass.conns.Nodup) :
    (fromClients (writtenTo conn store)).Sublist
      ((writtenFor store ref conn).map Message.packet) := by
  obtain ⟨objects, allocated, profiles, jsonFile, outputs, closed⟩ := store
  simp only [writtenTo, writtenFor, passesTo, fromClients] at *
  induction outputs with
  | nil => exact List.nil_sublist _
  | cons output outputs ih =>
      have hrest := ih
        (fun packet houtput => hsingles packet (List.mem_cons_of_mem _ houtput))
        (fun other pass houtput => hpasses other pass (List.mem_cons_of_mem _ houtput))
      rw [List.flatMap_cons, List.filter_append]
      cases output with
      | single other packet =>
          have hnone : (writtenBy conn (.single other packet)).filter
              (fun packet => packet.sender ≠ []) = [] := by
            rw [writtenBy]
            split
            · next heq =>
                subst heq
                simp [hsingles packet List.mem_cons_self]
            · rfl
          rw [hnone, List.nil_append]
          exact hrest
      | pass other pass =>
          by_cases hconn : conn ∈ pass.conns
          · obtain ⟨rfl, hnodup⟩ := hpasses other pass List.mem_cons_self hconn
            have hone : (pass.conns.filter fun other => other = conn) = [conn] := by
              rw [List.filter_eq, List.count_eq_one_of_mem hnodup hconn]
              rfl
            rw [writtenBy, hone, List.filterMap_cons]
            simp only [if_true]
            rw [List.filter_cons_of_pos (by simpa using hconn), List.map_cons,
              List.map_cons]
            exact List.Sublist.append (@List.filter_sublist _ _ [_]) hrest
          · have hnone : (pass.conns.filter fun other => other = conn) = [] := by
              rw [List.filter_eq, List.count_eq_zero_of_not_mem hconn]
              rfl
            rw [writtenBy, hnone, List.map_nil, List.filter_nil, List.nil_append]
            refine hrest.trans (((List.Sublist.filter _ ?_).map _).map _)
            exact (List.sublist_cons_self _ _).filterMap _

/-- What is written to a connection for clients has been sent for its profile,
and no less often. -/
theorem Named.written_subperm (hnamed : Named name system) (conn : Conn) :
    fromClients (writtenTo conn system.store) <+~
      (heardBy name system conn).map fun record => record.message.packet := by
  obtain ⟨ref, href⟩ : ∃ ref, ∀ other, Bound name system.store conn other →
      other = ref := by
    unfold Bound
    cases system.store.getProfileById (name conn) with
    | none => exact ⟨0, fun other hbound => by cases hbound⟩
    | some ref => exact ⟨ref, fun other hbound => (Option.some.inj hbound).symm⟩
  have hwritten : (fromClients (writtenTo conn system.store)).Sublist
      ((writtenFor system.store ref conn).map Message.packet) := by
    apply fromClients_writtenTo
    · intro packet houtput
      obtain ⟨time, rfl | rfl⟩ := hnamed.singles conn packet houtput
      · rfl
      · rfl
    · intro other pass hpass hconn
      cases href other (hnamed.passes other pass hpass conn hconn)
      exact ⟨rfl, (pass_unique hnamed.base (mem_passesTo.2 hpass)).2⟩
  have hnodup : (writtenFor system.store ref conn).Nodup :=
    (passesTo_nodup hnamed.base ref).sublist (List.filter_sublist.map _)
  have hheard : writtenFor system.store ref conn ⊆
      (heardBy name system conn).map SendRecord.message := by
    intro message hmessage
    obtain ⟨pass, hpass, rfl⟩ := List.mem_map.1 hmessage
    obtain ⟨hmem, hconn⟩ := List.mem_filter.1 hpass
    obtain ⟨record, hrecord, hsame, hhandled⟩ :=
      hnamed.base.delivered.handedOver ref pass.message (.inr ⟨pass, hmem, rfl⟩)
    refine List.mem_map.2 ⟨record, List.mem_filter.2 ⟨hrecord, ?_⟩, hsame⟩
    rw [decide_eq_true_eq]
    exact ⟨ref, handled_subset system record ref hhandled,
      hnamed.passes ref pass (mem_passesTo.1 hmem) conn (of_decide_eq_true hconn)⟩
  have hmapped := subperm_map Message.packet (List.subperm_of_subset hnodup hheard)
  rw [List.map_map] at hmapped
  exact hwritten.subperm.trans hmapped

end Written

end TwitterLike.Naming
