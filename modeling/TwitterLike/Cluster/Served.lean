import TwitterLike.Cluster.Service
import TwitterLike.Server.Naming

/-!
# What a primary has done for its clients

The server has received from every client a first part of what the client has
sent, and the client has sent its name and what it has made of the lines typed at
it.  So the calls of `sendToFollowersOf` and the edges of the follow graph come
from those lines.
-/

namespace TwitterLike.Service

open TwitterLike.ByteBuffer
open TwitterLike.PacketFormat
open TwitterLike.Profiles
open TwitterLike.ProfilesManager
open TwitterLike.GraphHistory
open TwitterLike.Channels
open TwitterLike.Arrivals (zeroPacket)
open TwitterLike.Terminal (ProfileName Client Event)
open TwitterLike.Threads (System Ignored transition_of_step threads_of_transition)
open TwitterLike.Replication (writtenTo)
open TwitterLike.Naming

/-! ## The connection of a client -/

/-- The profile name of a connection. -/
def nameOf (names : Conn → ProfileName) (conn : Conn) : ByteString :=
  (names conn).text

/-- What a client has sent: `PROFILE`, then what it has made of its lines, and
`CLOSE_CONN`. -/
structure Stream (names : Conn → ProfileName) (world : World) (conn : Conn) :
    Prop where
  profile : (world.clients conn).profile = names conn
  faithful : Faithful world.address (world.clients conn)
  silent : Unpresented (world.clients conn) →
    (world.clients conn).ended = false ∧ (world.requests conn).log = []
  opening : ¬ Unpresented (world.clients conn) → ∃ time rest,
    (world.requests conn).log = new .profile (nameOf names conn) [] time :: rest ∧
      ∀ packet ∈ rest, Spoken packet ∨ packet.cmd = .closeConn
  closing : ∀ packet ∈ (world.requests conn).log, packet.cmd = .closeConn →
    (world.clients conn).ended = true
  last : ∀ packet ∈ (world.requests conn).log.dropLast, packet.cmd ≠ .closeConn
  sendable : ∀ packet ∈ (world.requests conn).log, Sendable packet
  spoken : (world.requests conn).log.filter (fun packet => Spoken packet) =
    (world.typed.filter fun entry => entry.conn = conn).filterMap (packetOf names)

theorem stream_start (address : ByteString) (names : Conn → ProfileName)
    (conn : Conn) : Stream names (.start address names) conn where
  profile := rfl
  faithful := faithful_start address (names conn)
  silent _ := ⟨rfl, rfl⟩
  opening hpresented := absurd (.inl rfl) hpresented
  closing _ hpacket := by cases hpacket
  last _ hpacket := by cases hpacket
  sendable _ hpacket := by cases hpacket
  spoken := rfl

section Streams

variable {names : Conn → ProfileName} {world next : World} {conn other : Conn}

/-- Nothing happens at the client of another connection. -/
theorem Stream.congr (hstream : Stream names world conn)
    (haddress : next.address = world.address)
    (hclient : next.clients conn = world.clients conn)
    (hlog : (next.requests conn).log = (world.requests conn).log)
    (htyped : next.typed.filter (fun entry => entry.conn = conn) =
      world.typed.filter fun entry => entry.conn = conn) :
    Stream names next conn := by
  obtain ⟨hprofile, hfaithful, hsilent, hopening, hclosing, hlast, hsendable,
    hspoken⟩ := hstream
  constructor
  · rwa [hclient]
  · rwa [hclient, haddress]
  · rwa [hclient, hlog]
  · rwa [hclient, hlog]
  · rwa [hclient, hlog]
  · rwa [hlog]
  · rwa [hlog]
  · rwa [hlog, htyped]

theorem typedBy_filter_self (event : Event) :
    (typedBy conn event).filter (fun entry => entry.conn = conn) =
      typedBy conn event := by
  cases event <;> simp [typedBy]

theorem typedBy_filter_other (hother : other ≠ conn) (event : Event) :
    (typedBy conn event).filter (fun entry => entry.conn = other) = [] := by
  cases event <;> simp [typedBy, hother.symm]

theorem Stream.move (hstream : Stream names world conn) {event : Event}
    {client : Client}
    (heffect : Effect names conn event (world.clients conn) client)
    (hsendable : ∀ packet ∈ toPrimary (world.clients conn) client event,
      Sendable packet)
    (hrunning : (world.clients conn).ended = false)
    (hfaithful : Faithful world.address client)
    (hprofile : client.profile = (world.clients conn).profile)
    (haddress : next.address = world.address) (hclient : next.clients conn = client)
    (hlog : (next.requests conn).log = (world.requests conn).log ++
      toPrimary (world.clients conn) client event)
    (htyped : next.typed = world.typed ++ typedBy conn event) :
    Stream names next conn := by
  have hspoken : (next.typed.filter fun entry => entry.conn = conn).filterMap
      (packetOf names) =
        (world.requests conn).log.filter (fun packet => Spoken packet) ++
          (typedBy conn event).filterMap (packetOf names) := by
    rw [htyped, List.filter_append, List.filterMap_append, hstream.spoken,
      typedBy_filter_self]
  have hsame : (next.clients conn).profile = names conn := by
    rw [hclient, hprofile, hstream.profile]
  have hlinked : Faithful next.address (next.clients conn) := by
    rwa [hclient, haddress]
  have harriving : ∀ packet ∈ (next.requests conn).log, Sendable packet := by
    rw [hlog]
    intro packet hpacket
    exact (List.mem_append.1 hpacket).elim (hstream.sendable packet) (hsendable packet)
  -- a client that runs has not sent its `CLOSE_CONN`
  have hopen : ∀ packet ∈ (world.requests conn).log, packet.cmd ≠ .closeConn := by
    intro packet hpacket hcmd
    cases hrunning.symm.trans (hstream.closing packet hpacket hcmd)
  cases heffect with
  | quiet hsent hphase hended hsays =>
      rw [hsent, List.append_nil] at hlog
      refine ⟨hsame, hlinked, ?_, ?_, ?_, ?_, harriving, ?_⟩
      · rw [hclient, hphase, hlog]
        intro hunpresented
        rw [hended hunpresented]
        exact hstream.silent hunpresented
      · rw [hclient, hphase, hlog]
        exact hstream.opening
      · rw [hlog]
        exact fun packet hpacket hcmd => absurd hcmd (hopen packet hpacket)
      · rw [hlog]
        exact hstream.last
      · rw [hspoken, hlog, hsays, List.append_nil]
  | opening time hsent hbefore hafter hsays =>
      have hempty := (hstream.silent hbefore).2
      rw [hsent, hempty, List.nil_append] at hlog
      refine ⟨hsame, hlinked, ?_, fun _ => ⟨time, [], hlog, nofun⟩, ?_, ?_,
        harriving, ?_⟩
      · rw [hclient]
        exact fun hnot => absurd hnot hafter
      · simp [hlog, new]
      · simp [hlog]
      · rw [hspoken, hlog, hempty, hsays]
        rfl
  | later packet hsent hbefore hafter hcmd hclosing hsays =>
      obtain ⟨time, rest, hopening, hrest⟩ := hstream.opening hbefore
      refine ⟨hsame, hlinked, ?_, fun _ => ⟨time, rest ++ [packet], ?_, ?_⟩, ?_, ?_,
        harriving, ?_⟩
      · rw [hclient]
        exact fun hnot => absurd hnot hafter
      · rw [hlog, hopening, hsent]
        rfl
      · intro other hother
        rcases List.mem_append.1 hother with hold | hnew
        · exact hrest other hold
        · rwa [List.mem_singleton.1 hnew]
      · intro other hother hclose
        rw [hlog, hsent] at hother
        rcases List.mem_append.1 hother with hold | hnew
        · exact absurd hclose (hopen other hold)
        · rw [hclient]
          exact hclosing (List.mem_singleton.1 hnew ▸ hclose)
      · rw [hlog, hsent, List.dropLast_concat]
        exact hopen
      · rw [hspoken, hlog, hsent, hsays, List.filter_append]

theorem running_of_step {client after : Client} {event : Event}
    (hstep : Terminal.step client event = some after) : client.ended = false := by
  simp only [Terminal.step, Option.ite_none_left_eq_some] at hstep
  exact Bool.eq_false_of_not_eq_true hstep.1

theorem exit_of_closeConn {client after : Client}
    (hstep : Terminal.step client .closeConn = some after) : after = client.exit := by
  simp only [Terminal.step, Option.ite_none_left_eq_some] at hstep
  obtain ⟨_, hafter⟩ := Option.ite_none_right_eq_some.1 hstep.2
  exact (Option.some.inj hafter).symm

/-- A client that has presented itself may end. -/
theorem Stream.exit (hstream : Stream names world conn)
    (hpresented : ¬ Unpresented (world.clients conn)) {client : Client}
    (hexit : client = (world.clients conn).exit)
    (haddress : next.address = world.address) (hclient : next.clients conn = client)
    (hlog : (next.requests conn).log = (world.requests conn).log)
    (htyped : next.typed = world.typed) : Stream names next conn := by
  subst hexit
  obtain ⟨hprofile, hfaithful, _, hopening, _, hlast, hsendable, hspoken⟩ := hstream
  constructor
  · rwa [hclient]
  · rw [hclient, haddress]
    exact hfaithful.keep rfl rfl .inl
  · rw [hclient]
    exact fun hnot => absurd hnot hpresented
  · rw [hlog]
    exact fun _ => hopening hpresented
  · rw [hclient]
    exact fun _ _ _ => rfl
  · rwa [hlog]
  · rwa [hlog]
  · rwa [hlog, htyped]

end Streams

/-! ## The invariant -/

/-- The server has received from each client a first part of what that client has
sent, and has done with it what it says. -/
structure Served (names : Conn → ProfileName) (world : World) : Prop where
  named : Named (nameOf names) world.server
  streams : ∀ conn, Stream names world conn
  first : world.server.down = none → ∀ conn,
    world.server.threads conn = .accepted → (world.requests conn).received = []
  later : ∀ conn, (world.requests conn).received = [] →
    world.server.threads conn = .accepted
  /-- a call of `sendToFollowersOf` for every `SEND` -/
  handled : ∀ conn,
    (world.server.sends.filter fun record => record.conn = conn).map
        (fun record => record.message.packet) =
      (world.requests conn).received.filter fun packet => packet.cmd = .send
  /-- an edge only by a `FOLLOW` -/
  asked : ∀ target, ∀ follower ∈ (world.server.store.objects target).followers,
    ∃ fan, Bound (nameOf names) world.server.store fan follower ∧
      ∃ packet ∈ (world.requests fan).received, packet.cmd = .follow ∧
        world.server.store.getProfileById packet.payload = some target

theorem served_start (address : ByteString) (names : Conn → ProfileName) :
    Served names (.start address names) where
  named := named_start _
  streams := stream_start address names
  first _ _ _ := rfl
  later _ _ := rfl
  handled _ := rfl
  asked _ _ hfollower := by cases hfollower

section Steps

variable {names : Conn → ProfileName} {world next : World} {conn : Conn}
  {time : BitVec 64}

theorem Served.clientMove (hserved : Served names world) {event : Event}
    (hpatient : Patient world (.client conn event))
    (hmove : world.clientMove conn event = some next) : Served names next := by
  have hreceived := (same_of_clientMove hmove).2.1
  unfold World.clientMove at hmove
  obtain ⟨hpossible, hmove⟩ := Option.ite_none_right_eq_some.1 hmove
  obtain ⟨client, hstep, rfl⟩ := Option.map_eq_some_iff.1 hmove
  have hstream := hserved.streams conn
  have hprofile := profile_of_step hstep
  obtain ⟨heffect, hfaithful⟩ := effect_of_step hstream.profile
    hstream.faithful hpossible (fun time heq => by rw [heq] at hpatient; exact hpatient)
    hstep
  refine ⟨hserved.named, fun other => ?_, ?_, ?_, ?_, ?_⟩
  · by_cases hother : other = conn
    · subst hother
      have hsendable := fun packet hpacket =>
        (utterance_of_step hstep packet hpacket).sendable fun line time heq => by
          rw [heq] at hpossible
          exact hpossible
      refine hstream.move heffect hsendable (running_of_step hstep) hfaithful hprofile rfl
        (Function.update_self ..) ?_ rfl
      dsimp only
      rw [Function.update_self, Channel.post_log]
    · refine (hserved.streams other).congr rfl (Function.update_of_ne hother ..) ?_ ?_
      · dsimp only
        rw [Function.update_of_ne hother]
      · dsimp only
        rw [List.filter_append, typedBy_filter_other hother, List.append_nil]
  · intro hdown other
    rw [hreceived]
    exact hserved.first hdown other
  · intro other
    rw [hreceived]
    exact hserved.later other
  · intro other
    rw [hreceived]
    exact hserved.handled other
  · intro target follower hfollower
    obtain ⟨fan, hbound, hasked⟩ := hserved.asked target follower hfollower
    refine ⟨fan, hbound, ?_⟩
    rwa [hreceived]

theorem ignored_zeroPacket : Ignored zeroPacket.packet.cmd := trivial

/-- The packets that the step receives. -/
def taken : Threads.Action → List Packet
  | .receive packet => [packet]
  | .proceed => []

/-- A step of a thread, with the packet that it takes off its channel. -/
theorem Served.serverStep (hserved : Served names world) {action : Threads.Action}
    {server : System} {requests : Conn → Channel Packet}
    (hintroduces : Introduces (nameOf names) world.server ⟨conn, time, action⟩)
    (hstep : Threads.step world.server ⟨conn, time, action⟩ = some server)
    (hlog : ∀ other, (requests other).log = (world.requests other).log)
    (hreceived : ∀ other, (requests other).received =
      (world.requests other).received ++ if other = conn then taken action else []) :
    Served names { world with server := server, requests := requests } := by
  obtain ⟨hdown, htransition⟩ := transition_of_step hstep
  dsimp only at htransition
  have hnamed := hserved.named
  have hextends := extends_of_graphStep
    (Threads.graphStep_of_transition htransition) hnamed.base.graph.wellFormed
  have hkept {other : Conn} {packet : Packet}
      (hpacket : packet ∈ (world.requests other).received) :
      packet ∈ (requests other).received := by
    rw [hreceived]
    exact List.mem_append_left _ hpacket
  obtain ⟨hleaves, htakes⟩ := accepted_of_transition htransition
  constructor
  case named => exact hnamed.step hintroduces hstep
  case streams =>
    exact fun other => (hserved.streams other).congr rfl rfl (hlog other) rfl
  case first =>
    intro hup other hpoint
    by_cases hother : other = conn
    · subst hother
      exact absurd hup (hleaves hpoint).1
    · have hsame := hreceived other
      rw [if_neg hother, List.append_nil] at hsame
      rw [threads_of_transition hother htransition] at hpoint
      rw [hsame]
      exact hserved.first hdown other hpoint
  case later =>
    intro other hnone
    rw [hreceived, List.append_eq_nil_iff] at hnone
    have hpoint := hserved.later other hnone.1
    by_cases hother : other = conn
    · subst hother
      rw [if_pos rfl] at hnone
      cases action with
      | receive packet => cases hnone.2
      | proceed => exact absurd hpoint (htakes rfl)
    · rwa [threads_of_transition hother htransition]
  case handled =>
    intro other
    have hbefore := hserved.handled other
    rw [hreceived, List.filter_append, ← hbefore]
    rcases sends_of_transition hintroduces htransition with
      ⟨packet, record, rfl, hcmd, hconn, hpacket, hsends⟩ | ⟨hcmd, hsends⟩
    · rw [hsends, List.filter_append, List.map_append, List.append_cancel_left_eq]
      by_cases hother : other = conn
      · subst hother
        simp [hconn, hpacket, taken, hcmd]
      · simp [hconn, hother, Ne.symm hother]
    · rw [hsends, List.self_eq_append_right]
      split
      · cases action with
        | receive packet => simp [taken, hcmd packet rfl]
        | proceed => rfl
      · rfl
  case asked =>
    intro target follower hfollower
    rcases follower_of_transition htransition hfollower with
      hold | ⟨packet, rfl, hcmd, hpoint, htarget⟩
    · obtain ⟨fan, hbound, packet, hpacket, hcmd, htarget⟩ :=
        hserved.asked target follower hold
      exact ⟨fan, hbound.extends hextends, packet, hkept hpacket, hcmd,
        hextends.entries _ _ htarget⟩
    · have hbound := hnamed.mentions conn follower (by rw [hpoint]; rfl)
      refine ⟨conn, hbound.extends hextends, packet, ?_, hcmd,
        hextends.entries _ _ htarget⟩
      rw [hreceived, if_pos rfl]
      exact List.mem_append_right _ List.mem_cons_self

theorem Served.proceed (hserved : Served names world)
    (hmove : world.serverMove world.requests ⟨conn, time, .proceed⟩ = some next) :
    Served names next := by
  obtain ⟨server, hstep, rfl⟩ := Option.map_eq_some_iff.1 hmove
  refine hserved.serverStep introduces_proceed hstep (fun _ => rfl) fun other => ?_
  rw [taken, ite_self, List.append_nil]

/-- The first packet of a connection is the `PROFILE` of its client, and the later
ones are what a client in its session sends. -/
theorem Served.introduces (hserved : Served names world)
    (hdown : world.server.down = none) {packet : Packet} {channel : Channel Packet}
    (hreceive : (world.requests conn).receive = some (packet, channel)) :
    Introduces (nameOf names) world.server ⟨conn, time, .receive packet⟩ := by
  have hstream := hserved.streams conn
  have hmem : packet ∈ (world.requests conn).log := by
    have hlog := Channel.log_of_receive hreceive
    rw [← hlog]
    apply Channel.mem_log_of_received
    rw [Channel.received_of_receive hreceive]
    simp
  have hpresented : ¬ Unpresented (world.clients conn) := by
    intro hunpresented
    rw [(hstream.silent hunpresented).2] at hmem
    cases hmem
  obtain ⟨start, rest, hopening, hrest⟩ := hstream.opening hpresented
  unfold Introduces
  dsimp only
  split
  · next heq hpoint =>
      cases heq
      have hhead := Channel.head_of_receive hreceive
        (Channel.received_eq_nil_iff.1 (hserved.first hdown conn hpoint))
      rw [hopening] at hhead
      cases hhead
      exact ⟨rfl, rfl⟩
  · next _ session heq hpoint =>
      cases heq
      have hlater : (world.requests conn).position ≠ 0 := by
        intro hzero
        cases hpoint.symm.trans
          (hserved.later conn (Channel.received_eq_nil_iff.2 hzero))
      have htail := Channel.mem_tail_of_receive hreceive hlater
      rw [hopening] at htail
      exact or_assoc.1 (hrest _ htail)
  · trivial

/-- What is received of one channel is taken off that channel. -/
theorem update_receive {requests : Conn → Channel Packet} {packet : Packet}
    {channel : Channel Packet}
    (hreceive : (requests conn).receive = some (packet, channel)) (other : Conn) :
    (Function.update requests conn channel other).log = (requests other).log ∧
      (Function.update requests conn channel other).received =
        (requests other).received ++
          if other = conn then taken (.receive packet) else [] := by
  by_cases hother : other = conn
  · subst hother
    rw [Function.update_self, if_pos rfl]
    exact ⟨Channel.log_of_receive hreceive, Channel.received_of_receive hreceive⟩
  · rw [Function.update_of_ne hother, if_neg hother, List.append_nil]
    exact ⟨rfl, rfl⟩

theorem packet_of_deliver (hmove : world.deliver conn time = some next) :
    ∃ packet channel server,
      (world.requests conn).receive = some (packet, channel) ∧
      Threads.step world.server ⟨conn, time, .receive packet⟩ = some server ∧
      next = { world with
        server := server
        requests := Function.update world.requests conn channel } := by
  unfold World.deliver at hmove
  split at hmove
  · next packet channel hreceive =>
      obtain ⟨server, hstep, hnext⟩ := Option.map_eq_some_iff.1 hmove
      exact ⟨packet, channel, server, hreceive, hstep, hnext.symm⟩
  · cases hmove

theorem Served.deliver (hserved : Served names world)
    (hmove : world.deliver conn time = some next) : Served names next := by
  obtain ⟨packet, channel, server, hreceive, hstep, rfl⟩ := packet_of_deliver hmove
  have hdown := (transition_of_step hstep).1
  exact hserved.serverStep (hserved.introduces hdown hreceive) hstep
    (fun other => (update_receive hreceive other).1)
    fun other => (update_receive hreceive other).2

/-- A client that has ended has sent its `PROFILE`, and what is received when all
its packets have been is only counted. -/
theorem counted_of_vanish (hserved : Served names world)
    (hmove : world.vanish conn time = some next) :
    (∃ profile, world.server.threads conn = .looping profile) ∧
      next = { world with server := world.server.countPacket } := by
  unfold World.vanish at hmove
  obtain ⟨⟨hended, hdrained⟩, hmove⟩ := Option.ite_none_right_eq_some.1 hmove
  obtain ⟨server, hstep, rfl⟩ := Option.map_eq_some_iff.1 hmove
  obtain ⟨hdown, htransition⟩ := transition_of_step hstep
  have hstream := hserved.streams conn
  have hpresented : ¬ Unpresented (world.clients conn) := by
    intro hunpresented
    rw [(hstream.silent hunpresented).1] at hended
    cases hended
  obtain ⟨start, rest, hopening, _⟩ := hstream.opening hpresented
  have hfirst : world.server.threads conn ≠ .accepted := by
    intro hpoint
    have hnone := hserved.first hdown conn hpoint
    rw [Channel.received_of_drained hdrained, hopening] at hnone
    cases hnone
  obtain ⟨profile, hpoint, rfl⟩ := ignored_of_transition hfirst ignored_zeroPacket
    htransition
  exact ⟨⟨profile, hpoint⟩, rfl⟩

theorem Served.vanish (hserved : Served names world)
    (hmove : world.vanish conn time = some next) : Served names next := by
  obtain ⟨⟨profile, hpoint⟩, rfl⟩ := counted_of_vanish hserved hmove
  exact ⟨hserved.named.ignored hpoint ignored_zeroPacket,
    fun other => (hserved.streams other).congr rfl rfl rfl rfl,
    hserved.first, hserved.later, hserved.handled, hserved.asked⟩

/-- Nothing is written to a client before its `PROFILE` has been received. -/
theorem Served.presented (hserved : Served names world) {packet : Packet}
    (hwritten : packet ∈ writtenTo conn world.server.store) :
    ¬ Unpresented (world.clients conn) := by
  intro hunpresented
  obtain ⟨output, houtput, hpacket⟩ := List.mem_flatMap.1 hwritten
  have hreaches : Reaches conn output := by
    cases output with
    | single other sent =>
        exact (List.mem_ite_nil_right.1 hpacket).1
    | pass ref pass =>
        obtain ⟨other, hother, _⟩ := List.mem_map.1 hpacket
        obtain ⟨hmem, hsame⟩ := List.mem_filter.1 hother
        exact of_decide_eq_true hsame ▸ hmem
  apply hserved.named.unheard output houtput conn hreaches
  apply hserved.later
  have hempty := ((hserved.streams conn).silent hunpresented).2
  rw [← @Channel.received_append_pending _ (world.requests conn),
    List.append_eq_nil_iff] at hempty
  exact hempty.1

theorem Served.display (hserved : Served names world)
    (hmove : world.display conn = some next) : Served names next := by
  unfold World.display at hmove
  dsimp only at hmove
  obtain ⟨⟨_, hcreated, _⟩, hmove⟩ := Option.ite_none_right_eq_some.1 hmove
  split at hmove
  · next packet hpacket =>
      have hpresented := hserved.presented (List.mem_of_getElem? hpacket)
      split at hmove
      · obtain ⟨client, hstep, rfl⟩ := Option.map_eq_some_iff.1 hmove
        refine ⟨hserved.named, fun other => ?_, hserved.first, hserved.later,
          hserved.handled, hserved.asked⟩
        by_cases hother : other = conn
        · subst hother
          exact (hserved.streams other).exit hpresented (exit_of_closeConn hstep) rfl
            (Function.update_self ..) rfl rfl
        · exact (hserved.streams other).congr rfl (Function.update_of_ne hother ..)
            rfl rfl
      · cases hmove
        exact ⟨hserved.named,
          fun other => (hserved.streams other).congr rfl rfl rfl rfl,
          hserved.first, hserved.later, hserved.handled, hserved.asked⟩
  · cases hmove

theorem Served.step (hserved : Served names world) {move : Move}
    (hpatient : Patient world move) (hmove : step world move = some next) :
    Served names next := by
  cases move with
  | client conn event => exact hserved.clientMove hpatient hmove
  | deliver conn time => exact hserved.deliver hmove
  | vanish conn time => exact hserved.vanish hmove
  | proceed conn time => exact hserved.proceed hmove
  | display conn => exact hserved.display hmove

end Steps

end TwitterLike.Service
