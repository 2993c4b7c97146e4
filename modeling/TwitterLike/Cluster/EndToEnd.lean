import TwitterLike.Cluster.Served

/-!
# From terminal to terminal

What is shown at a terminal has been typed at another one, by somebody whom the
viewer has asked to follow, and no less often; and what is typed is handed to all
who followed by then.
-/

namespace TwitterLike.EndToEnd

open TwitterLike.ByteBuffer
open TwitterLike.PacketFormat
open TwitterLike.PacketCodec (Received decodable_iff)
open TwitterLike.Connections (sendPacket)
open TwitterLike.Profiles
open TwitterLike.ProfilesManager
open TwitterLike.Handlers (helloText)
open TwitterLike.GraphHistory
open TwitterLike.Channels
open TwitterLike.Transition
open TwitterLike.Terminal (ProfileName Line Client Event)
open TwitterLike.Threads (System SendRecord transition_of_step)
open TwitterLike.Deliveries
open TwitterLike.HandOver
open TwitterLike.Replication (writtenTo writtenBy)
open TwitterLike.Naming
open TwitterLike.Service

open scoped List

/-! ## What has been typed -/

/-- The packets made of the lines typed, each with the connection of its client. -/
def posts (names : Conn → ProfileName) (typed : List Entry) : List (Conn × Packet) :=
  typed.filterMap fun entry => (packetOf names entry).map (Prod.mk entry.conn)

/-- A client of the one name has typed that it follows the other name. -/
def Requested (names : Conn → ProfileName) (typed : List Entry)
    (viewer sender : ByteString) : Prop :=
  ∃ post ∈ posts names typed, nameOf names post.1 = viewer ∧
    post.2.cmd = .follow ∧ post.2.payload = sender

instance (names : Conn → ProfileName) (typed : List Entry)
    (viewer sender : ByteString) :
    Decidable (Requested names typed viewer sender) :=
  inferInstanceAs (Decidable (∃ post ∈ _, _))

/-- The `SEND` packets that the client of the connection has asked for. -/
def wanted (names : Conn → ProfileName) (typed : List Entry) (conn : Conn) :
    List Packet :=
  ((posts names typed).filter fun post => post.2.cmd = .send ∧
    Requested names typed (nameOf names conn) (nameOf names post.1)).map Prod.snd

section Posts

variable {names : Conn → ProfileName} {typed : List Entry} {conn : Conn}

theorem posts_filter (names : Conn → ProfileName) (typed : List Entry) (conn : Conn) :
    ((posts names typed).filter fun post => post.1 = conn).map Prod.snd =
      (typed.filter fun entry => entry.conn = conn).filterMap (packetOf names) := by
  induction typed with
  | nil => rfl
  | cons entry typed ih =>
      rw [posts, List.filterMap_cons]
      by_cases hentry : entry.conn = conn
      · rw [List.filter_cons_of_pos (by simpa using hentry), List.filterMap_cons]
        cases packetOf names entry with
        | none => exact ih
        | some packet =>
            simp only [Option.map_some]
            rw [List.filter_cons_of_pos (by simpa using hentry), List.map_cons]
            exact congrArg _ ih
      · rw [List.filter_cons_of_neg (by simpa using hentry)]
        cases packetOf names entry with
        | none => exact ih
        | some packet =>
            simp only [Option.map_some]
            rw [List.filter_cons_of_neg (by simpa using hentry)]
            exact ih

/-- Of a sender whom the client has asked for, every `SEND` is wanted. -/
theorem wanted_filter {sender : Conn} {viewer : ByteString}
    (hrequested : Requested names typed viewer (nameOf names sender)) :
    ((posts names typed).filter fun post => decide (post.1 = sender) &&
        decide (post.2.cmd = .send ∧
          Requested names typed viewer (nameOf names post.1))).map Prod.snd =
      (((posts names typed).filter fun post => post.1 = sender).map Prod.snd).filter
        fun packet => packet.cmd = .send := by
  rw [List.filter_map, List.filter_filter]
  congr 1
  apply List.filter_congr
  intro post _
  rw [Bool.eq_iff_iff]
  simp only [Function.comp_apply, Bool.and_eq_true, decide_eq_true_eq]
  constructor
  · exact fun hpost => ⟨hpost.2.1, hpost.1⟩
  · rintro ⟨hcmd, rfl⟩
    exact ⟨rfl, hcmd, hrequested⟩

/-- A packet made of a line bears the name of its client. -/
theorem sender_of_post {post : Conn × Packet} (hpost : post ∈ posts names typed) :
    post.2.sender = nameOf names post.1 := by
  obtain ⟨entry, _, hmade⟩ := List.mem_filterMap.1 hpost
  obtain ⟨packet, hpacket, rfl⟩ := Option.map_eq_some_iff.1 hmade
  unfold packetOf at hpacket
  split at hpacket
  · cases hpacket
    rfl
  · cases hpacket
  · cases hpacket

theorem nameOf_ne_nil (names : Conn → ProfileName) (conn : Conn) :
    nameOf names conn ≠ [] := by
  intro hnil
  have hlength := (names conn).atLeast
  rw [nameOf] at hnil
  simp [hnil] at hlength

end Posts

section Served

variable {names : Conn → ProfileName} {world : World} {conn : Conn}

/-- What the server has received of a line is one of the posts. -/
theorem post_of_received (hserved : Served names world) {packet : Packet}
    (hpacket : packet ∈ (world.requests conn).received) (hspoken : Spoken packet) :
    (conn, packet) ∈ posts names world.typed := by
  have hlog : packet ∈ (world.requests conn).log.filter fun packet => Spoken packet :=
    List.mem_filter.2 ⟨Channel.mem_log_of_received hpacket, decide_eq_true hspoken⟩
  rw [(hserved.streams conn).spoken, ← posts_filter] at hlog
  obtain ⟨⟨other, made⟩, hpost, rfl⟩ := List.mem_map.1 hlog
  obtain ⟨hmem, hconn⟩ := List.mem_filter.1 hpost
  cases of_decide_eq_true hconn
  exact hmem

/-- The packet of a call has been received as a `SEND`. -/
theorem received_of_record (hserved : Served names world) {record : SendRecord}
    (hrecord : record ∈ world.server.sends) :
    record.message.packet ∈ (world.requests record.conn).received ∧
      record.message.packet.cmd = .send := by
  have hmem : record.message.packet ∈
      (world.requests record.conn).received.filter fun packet => packet.cmd = .send := by
    rw [← hserved.handled record.conn]
    exact List.mem_map.2 ⟨record, List.mem_filter.2 ⟨hrecord, by simp⟩, rfl⟩
  exact (List.mem_filter.1 hmem).imp_right of_decide_eq_true

/-- The packet of a call is a `SEND` that its client has sent. -/
theorem post_of_record (hserved : Served names world) {record : SendRecord}
    (hrecord : record ∈ world.server.sends) :
    (record.conn, record.message.packet) ∈ posts names world.typed ∧
      record.message.packet.cmd = .send := by
  obtain ⟨hreceived, hsend⟩ := received_of_record hserved hrecord
  exact ⟨post_of_received hserved hreceived (.inr hsend), hsend⟩

/-- A packet is for a profile that has asked to follow its sender. -/
theorem requested_of_heard (hserved : Served names world) {record : SendRecord}
    (hheard : record ∈ heardBy (nameOf names) world.server conn) :
    Requested names world.typed (nameOf names conn) (nameOf names record.conn) := by
  have hnamed := hserved.named
  have hids := hnamed.base.graph.wellFormed.ids
  obtain ⟨hrecord, hfollows⟩ := List.mem_filter.1 hheard
  obtain ⟨ref, href, hviewer⟩ := of_decide_eq_true hfollows
  obtain ⟨fan, hfan, packet, hpacket, hcmd, htarget⟩ :=
    hserved.asked record.profile ref (hnamed.recorded record hrecord href)
  have hpost := post_of_received hserved hpacket (.inl hcmd)
  refine ⟨_, hpost, ?_, hcmd, ?_⟩
  · exact (hids _ _ hfan).symm.trans (hids _ _ hviewer)
  · exact (hids _ _ htarget).symm.trans (hids _ _ (hnamed.records record hrecord))

/-- The calls for a client come from what its profile has asked for. -/
theorem heard_subperm (hserved : Served names world) (conn : Conn) :
    (heardBy (nameOf names) world.server conn).map
        (fun record => record.message.packet) <+~ wanted names world.typed conn := by
  refine subperm_of_keys SendRecord.conn (fun record => record.message.packet) Prod.fst
    Prod.snd fun sender => ?_
  by_cases hrequested :
      Requested names world.typed (nameOf names conn) (nameOf names sender)
  · have hright : (((posts names world.typed).filter fun post => post.2.cmd = .send ∧
        Requested names world.typed (nameOf names conn)
          (nameOf names post.1)).filter fun post => post.1 = sender).map Prod.snd =
        (world.requests sender).log.filter fun packet => packet.cmd = .send := by
      rw [List.filter_filter, wanted_filter hrequested, posts_filter,
        ← (hserved.streams sender).spoken, List.filter_filter]
      apply List.filter_congr
      intro packet _
      rw [Bool.eq_iff_iff]
      simp +contextual [Spoken]
    have hleft : ((heardBy (nameOf names) world.server conn).filter fun record =>
        record.conn = sender).map (fun record => record.message.packet) <+
          (world.requests sender).received.filter fun packet => packet.cmd = .send := by
      rw [← hserved.handled sender]
      exact (List.filter_sublist.filter _).map _
    rw [hright]
    exact (hleft.trans (Channel.received_prefix.sublist.filter _)).subperm
  · have hnone : (heardBy (nameOf names) world.server conn).filter
        (fun record => record.conn = sender) = [] := by
      rw [List.filter_eq_nil_iff]
      intro record hrecord hconn
      cases of_decide_eq_true hconn
      exact hrequested (requested_of_heard hserved hrecord)
    rw [hnone]
    exact List.nil_subperm

/-- A packet without a sender is the server's own. -/
theorem own_of_written (hserved : Served names world) {packet : Packet}
    (hwritten : packet ∈ writtenTo conn world.server.store)
    (hsender : packet.sender = []) :
    ∃ time, packet = new .closeConn [] [] time ∨
      packet = new .send (helloText ++ nameOf names conn) [] time := by
  have hnamed := hserved.named
  obtain ⟨output, houtput, hpacket⟩ := List.mem_flatMap.1 hwritten
  cases output with
  | single other sent =>
      obtain ⟨rfl, hsent⟩ := List.mem_ite_nil_right.1 hpacket
      cases List.mem_singleton.1 hsent
      exact hnamed.singles other packet houtput
  | pass ref pass =>
      obtain ⟨_, _, rfl⟩ := List.mem_map.1 hpacket
      obtain ⟨record, hrecord, hmessage, _⟩ :=
        hnamed.base.delivered.handedOver ref pass.message
          (.inr ⟨pass, mem_passesTo.2 houtput, rfl⟩)
      have hpost := (post_of_record hserved hrecord).1
      rw [hmessage] at hpost
      exact absurd ((sender_of_post hpost).symm.trans hsender) (nameOf_ne_nil names _)

/-- What is written to a client arrives as it is sent. -/
theorem sendable_of_written (hserved : Served names world) {packet : Packet}
    (hwritten : packet ∈ writtenTo conn world.server.store) : Sendable packet := by
  have hnamed := hserved.named
  obtain ⟨output, houtput, hpacket⟩ := List.mem_flatMap.1 hwritten
  cases output with
  | single other sent =>
      obtain ⟨rfl, hsent⟩ := List.mem_ite_nil_right.1 hpacket
      cases List.mem_singleton.1 hsent
      obtain ⟨time, rfl | rfl⟩ := hnamed.singles other packet houtput
      · exact sendable_closing time
      · exact sendable_greeting (names other) time
  | pass ref pass =>
      obtain ⟨_, _, rfl⟩ := List.mem_map.1 hpacket
      obtain ⟨record, hrecord, hmessage, _⟩ :=
        hnamed.base.delivered.handedOver ref pass.message
          (.inr ⟨pass, mem_passesTo.2 houtput, rfl⟩)
      rw [← hmessage]
      exact (hserved.streams record.conn).sendable _
        (Channel.mem_log_of_received (received_of_record hserved hrecord).1)

end Served

theorem sendable_of_run {address : ByteString} {names : Conn → ProfileName}
    {moves : List Move} {world : World}
    (halong : Along step Patient (.start address names) moves)
    (hrun : exec step (.start address names) moves = some world) (conn : Conn) :
    (∀ packet ∈ (world.requests conn).log, Sendable packet) ∧
      ∀ packet ∈ writtenTo conn world.server.store, Sendable packet := by
  have hserved : Served names world :=
    exec_invariant (fun _ _ _ hserved hpatient hstep => hserved.step hpatient hstep)
      (served_start address names) halong hrun
  exact ⟨(hserved.streams conn).sendable, fun _ => sendable_of_written hserved⟩

/-- In every run, what a client or the server sends has an encoding, and both
receivers read the packet back from it, whatever stands behind the buffer. -/
theorem everything_arrives {address : ByteString} {names : Conn → ProfileName}
    {moves : List Move} {world : World}
    (halong : Along step Patient (.start address names) moves)
    (hrun : exec step (.start address names) moves = some world) (conn : Conn)
    {packet : Packet}
    (hsent : packet ∈ (world.requests conn).log ∨
      packet ∈ writtenTo conn world.server.store) (freeStore : FreeStore) :
    ∃ message, sendPacket packet = some message ∧
      Connections.Connection.receivePacket freeStore (.bytes message) = .ok packet ∧
      Connections.ClientConnection.receivePacket freeStore (.bytes message) =
        .ok packet := by
  obtain ⟨hrequests, hwritten⟩ := sendable_of_run halong hrun conn
  exact (hsent.elim (hrequests packet) (hwritten packet)).arrives freeStore

/-! ## Only what was asked for -/

/-- In every run, what has been shown at a terminal and bears a name is among the
`SEND` lines typed at clients whom a client of the viewer's name has typed that it
follows, with multiplicities; what bears no name is the greeting or the refusal. -/
theorem shown_was_wanted {address : ByteString} {names : Conn → ProfileName}
    {moves : List Move} {world : World}
    (halong : Along step Patient (.start address names) moves)
    (hrun : exec step (.start address names) moves = some world) (conn : Conn) :
    fromClients (world.shownTo conn) <+~ wanted names (typedIn moves) conn ∧
      ∀ packet ∈ world.shownTo conn, packet.sender = [] →
        ∃ time, packet = new .closeConn [] [] time ∨
          packet = new .send (helloText ++ nameOf names conn) [] time := by
  have hserved : Served names world :=
    exec_invariant (fun _ _ _ hserved hpatient hstep => hserved.step hpatient hstep)
      (served_start address names) halong hrun
  have htyped : world.typed = typedIn moves := typed_of_exec hrun
  have hshown : world.shownTo conn <+ writtenTo conn world.server.store :=
    List.take_sublist _ _
  constructor
  · have hwritten := hserved.named.written_subperm conn
    have hheard := heard_subperm hserved conn
    rw [htyped] at hheard
    exact (hshown.filter _).subperm.trans (hwritten.trans hheard)
  · intro packet hpacket hsender
    exact own_of_written hserved (hshown.subset hpacket) hsender

def bobName : ProfileName where
  text := [98, 98, 98, 98, 98]
  noNul := by decide
  atLeast := by decide
  atMost := by decide

def dianaName : ProfileName where
  text := [100, 105, 97, 110, 97]
  noNul := by decide
  atLeast := by decide
  atMost := by decide

/-- The first client is Bob's, all others are Diana's. -/
def bobAndDiana (conn : Conn) : ProfileName := if conn = 1 then bobName else dianaName

/-- The address `a:1`. -/
def bobsServer : ByteString := [97, 58, 49]

def bobsAnswer : Received :=
  ⟨new .ok bobsServer [] 0, (decodable_iff _).2 (by decide)⟩

/-- A client finds the primary and logs in. -/
def joinMoves (conn : Conn) : List Move :=
  [.client conn (.located bobsAnswer 0), .client conn (.connected 0),
    .client conn .created, .client conn (.presented 0), .deliver conn 0,
    .proceed conn 0, .proceed conn 0, .proceed conn 0, .proceed conn 0]

def followBob : Line := Terminal.followLine bobName.text (by decide)

def sayHey : Line := ⟨Terminal.sendText ++ [32, 104, 101, 121], by decide⟩

/-- Diana follows Bob. -/
def dianaMoves : List Move :=
  joinMoves 1 ++ joinMoves 2 ++
    [.client 2 (.entered followBob 0), .deliver 2 0, .proceed 2 0]

/-- The server passes on what Bob has typed, and Diana's terminal shows it behind the
greeting. -/
def passMoves : List Move :=
  [.deliver 1 0, .proceed 1 0, .proceed 1 0, .proceed 1 0, .display 2, .display 2]

def heyMoves : List Move := dianaMoves ++ .client 1 (.entered sayHey 0) :: passMoves

theorem shown_was_wanted_heyMoves :
    ∃ world, exec step (.start bobsServer bobAndDiana) heyMoves = some world ∧
      fromClients (world.shownTo 2) = [new .send [104, 101, 121] bobName.text 0] ∧
      fromClients (world.shownTo 2) <+~ wanted bobAndDiana (typedIn heyMoves) 2 := by
  have hshown : (exec step (.start bobsServer bobAndDiana) heyMoves).map
      (fun world => fromClients (world.shownTo 2)) =
        some [new .send [104, 101, 121] bobName.text 0] := by decide
  obtain ⟨world, hrun, hworld⟩ := Option.map_eq_some_iff.1 hshown
  exact ⟨world, hrun, hworld, (shown_was_wanted (by decide) hrun 2).1⟩

theorem everything_arrives_heyMoves :
    ∃ world, exec step (.start bobsServer bobAndDiana) heyMoves = some world ∧
      ∀ freeStore, ∃ message,
        sendPacket (new .send [104, 101, 121] bobName.text 0) = some message ∧
          Connections.Connection.receivePacket freeStore (.bytes message) =
            .ok (new .send [104, 101, 121] bobName.text 0) ∧
          Connections.ClientConnection.receivePacket freeStore (.bytes message) =
            .ok (new .send [104, 101, 121] bobName.text 0) := by
  have hwritten : (exec step (.start bobsServer bobAndDiana) heyMoves).map
      (fun world => (writtenTo 2 world.server.store)[1]?) =
        some (some (new .send [104, 101, 121] bobName.text 0)) := by decide
  obtain ⟨world, hrun, hworld⟩ := Option.map_eq_some_iff.1 hwritten
  exact ⟨world, hrun, everything_arrives (by decide) hrun 2
    (.inr (List.mem_of_getElem? hworld))⟩

/-! ## Everything that was asked for -/

/-- What has been sent up to some moment stays sent, and the calls behind that
moment have the follower that was there. -/
structure Since (names : Conn → ProfileName) (conn : Conn) (sent : List Packet)
    (earlier : List SendRecord) (sender follower : ProfileRef) (world : World) :
    Prop where
  served : Served names world
  bound : Bound (nameOf names) world.server.store conn sender
  edge : follower ∈ (world.server.store.objects sender).followers
  kept : sent <+: (world.requests conn).log
  calls : ∃ calls, world.server.sends = earlier ++ calls ∧
    ∀ record ∈ calls, record.profile = sender → follower ∈ record.followers

section Since

variable {names : Conn → ProfileName} {conn : Conn} {sent : List Packet}
  {earlier : List SendRecord} {sender follower : ProfileRef} {world next : World}

theorem Since.step (hsince : Since names conn sent earlier sender follower world)
    {move : Move} (hpatient : Patient world move)
    (hstep : Service.step world move = some next) :
    Since names conn sent earlier sender follower next := by
  have hserved := hsince.served
  have hnext := hserved.step hpatient hstep
  have hkept := hsince.kept.trans ((sent_of_step hstep).1 conn)
  rcases server_of_step hstep with hsame | ⟨label, hserver⟩
  · refine ⟨hnext, ?_, ?_, hkept, ?_⟩
    · rw [hsame]
      exact hsince.bound
    · rw [hsame]
      exact hsince.edge
    · rw [hsame]
      exact hsince.calls
  · have hnamed := hserved.named
    have htransition := (transition_of_step hserver).2
    have hextends := extends_of_graphStep
      (Threads.graphStep_of_transition htransition) hnamed.base.graph.wellFormed
    obtain ⟨calls, hsends, hcalls⟩ := hsince.calls
    obtain ⟨more, hmore, hfollowers⟩ := calls_of_messageStep
      (messageStep_of_transition hnamed.base.sessions.live htransition)
    refine ⟨hnext, hsince.bound.extends hextends,
      (hextends.followers _ _ hsince.bound).subset hsince.edge, hkept,
      calls ++ more, ?_, ?_⟩
    · rw [hmore, hsends, List.append_assoc]
    · intro record hrecord hprofile
      rcases List.mem_append.1 hrecord with hold | hnew
      · exact hcalls record hold hprofile
      · rw [hfollowers record hnew, hprofile]
        exact hsince.edge

/-- When the server has received everything from the client and its thread has
returned, a packet sent in the meantime has been handed to the follower. -/
theorem Since.handed {packet : Packet} {before : List Packet}
    (hsince : Since names conn (before ++ [packet]) earlier sender follower world)
    (hcmd : packet.cmd = .send)
    (hearlier : (earlier.filter fun record => record.conn = conn).length ≤
      (before.filter fun packet => packet.cmd = .send).length)
    (hdrained : (world.requests conn).pending = [])
    (hreturned : ¬ Sending (world.server.threads conn)) :
    ∃ record ∈ world.server.sends, record.conn = conn ∧
      record.message.packet = packet ∧
      Settled world.server.store follower record.message := by
  have hserved := hsince.served
  have hnamed := hserved.named
  obtain ⟨calls, hsends, hcalls⟩ := hsince.calls
  obtain ⟨rest, hlog⟩ := hsince.kept
  have hhandled := hserved.handled conn
  rw [Channel.received_of_drained hdrained, ← hlog, hsends, List.filter_append,
    List.map_append, List.append_assoc, List.filter_append, List.singleton_append,
    List.filter_cons_of_pos (by simpa using hcmd)] at hhandled
  have hmem := mem_of_append_eq hhandled (by rwa [List.length_map])
  obtain ⟨record, hrecord, hpacket⟩ := List.mem_map.1 hmem
  obtain ⟨hcall, hdecide⟩ := List.mem_filter.1 hrecord
  have hconn := of_decide_eq_true hdecide
  have hsent : record ∈ world.server.sends := hsends ▸ List.mem_append_right _ hcall
  have hprofile : record.profile = sender := by
    have hbound := hnamed.records record hsent
    rw [hconn] at hbound
    exact Option.some.inj (hbound.symm.trans hsince.bound)
  refine ⟨record, hsent, hconn, hpacket, ?_⟩
  apply hnamed.base.delivered.settled record hsent
  rw [handled_of_not_sending (hconn ▸ hreturned)]
  exact hcalls record hcall hprofile

/-- A `SEND` line is sent to the server. -/
theorem posted_of_entered {before after : World} {line : Line} {time : BitVec 64}
    {message : ByteString} (hserved : Served names before)
    (hstep : Service.step before (.client conn (.entered line time)) = some after)
    (hread : Grammar.read line.1 = .packet .send message) :
    after.server = before.server ∧ (after.requests conn).log =
      (before.requests conn).log ++ [new .send message (nameOf names conn) time] := by
  have hstream := hserved.streams conn
  simp only [Service.step, World.clientMove] at hstep
  obtain ⟨_, hmove⟩ := Option.ite_none_right_eq_some.1 hstep
  obtain ⟨client, hclient, rfl⟩ := Option.map_eq_some_iff.1 hmove
  simp only [Terminal.step, Option.ite_none_left_eq_some] at hclient
  obtain ⟨hreading, hturn⟩ := Option.ite_none_right_eq_some.1 hclient.2
  have hcon := hstream.faithful.joined (by simp [hreading])
  have hopen : (before.clients conn).isClosed = false := by
    rw [Client.isClosed, hcon]
  rw [Grammar.toServer_eq time hopen, hread] at hturn
  cases hturn
  refine ⟨rfl, ?_⟩
  dsimp only
  rw [Function.update_self, Channel.post_log]
  simp [toPrimary, Grammar.Reading.turn, hstream.profile, nameOf]

end Since

/-- In every run, a `SEND` line that is typed when somebody follows has been handed
to that follower by the time the server has received everything from the client and
its thread has returned: it waits in the inbox, or has been written once to each of
the sessions of some moment. -/
theorem typed_is_handed_on {address : ByteString} {names : Conn → ProfileName}
    {moves more : List Move} {before after later : World} {conn : Conn} {line : Line}
    {time : BitVec 64} {message : ByteString} {sender follower : ProfileRef}
    (halong : Along step Patient (.start address names)
      (moves ++ .client conn (.entered line time) :: more))
    (hbefore : exec step (.start address names) moves = some before)
    (htyped : step before (.client conn (.entered line time)) = some after)
    (hlater : exec step after more = some later)
    (hread : Grammar.read line.1 = .packet .send message)
    (hsender : before.server.store.getProfileById (nameOf names conn) = some sender)
    (hfollower : follower ∈ (before.server.store.objects sender).followers)
    (hdrained : (later.requests conn).pending = [])
    (hreturned : ¬ Sending (later.server.threads conn)) :
    ∃ record ∈ later.server.sends, record.conn = conn ∧
      record.message.packet = new .send message (nameOf names conn) time ∧
      Settled later.server.store follower record.message := by
  obtain ⟨hfront, hback⟩ := halong.append hbefore
  obtain ⟨hpatient, hback⟩ := hback after htyped
  have hserved : Served names before :=
    exec_invariant (fun _ _ _ hserved hpatient hstep => hserved.step hpatient hstep)
      (served_start address names) hfront hbefore
  obtain ⟨hserver, hposted⟩ := posted_of_entered hserved htyped hread
  have hafter : Since names conn ((before.requests conn).log ++
      [new .send message (nameOf names conn) time]) before.server.sends sender follower
        after := by
    refine ⟨hserved.step hpatient htyped, ?_, ?_, hposted ▸ List.prefix_rfl, [], ?_,
      ?_⟩
    · rw [hserver]
      exact hsender
    · rw [hserver]
      exact hfollower
    · rw [hserver, List.append_nil]
    · simp
  have hsince : Since names conn ((before.requests conn).log ++
      [new .send message (nameOf names conn) time]) before.server.sends sender follower
        later :=
    exec_invariant (fun _ _ _ hsince hpatient hstep => hsince.step hpatient hstep)
      hafter hback hlater
  have hearlier := congrArg List.length (hserved.handled conn)
  rw [List.length_map] at hearlier
  refine hsince.handed rfl ?_ hdrained hreturned
  rw [hearlier]
  exact (Channel.received_prefix.sublist.filter _).length_le

theorem typed_is_handed_on_heyMoves :
    ∃ later, exec step (.start bobsServer bobAndDiana) heyMoves = some later ∧
      ∃ record ∈ later.server.sends, record.conn = 1 ∧
        record.message.packet = new .send [104, 101, 121] bobName.text 0 ∧
        Settled later.server.store 1 record.message := by
  have hsome : (exec step (.start bobsServer bobAndDiana) heyMoves).isSome := by decide
  have hstate : (exec step (.start bobsServer bobAndDiana) dianaMoves).map
      (fun world => (world.server.store.getProfileById bobName.text,
        (world.server.store.objects 0).followers)) = some (some 0, [1]) := by decide
  have hrest : (exec step (.start bobsServer bobAndDiana) heyMoves).map
      (fun world => ((world.requests 1).pending, world.server.threads 1)) =
        some ([], .looping 0) := by decide
  obtain ⟨later, hlater⟩ := Option.isSome_iff_exists.1 hsome
  obtain ⟨before, hbefore, hback⟩ := exec_append_iff.1 hlater
  obtain ⟨after, htyped, hmore⟩ := exec_cons_iff.1 hback
  rw [hbefore] at hstate
  rw [hlater] at hrest
  obtain ⟨hsender, hfollowers⟩ := Prod.mk.inj (Option.some.inj hstate)
  obtain ⟨hdrained, hpoint⟩ := Prod.mk.inj (Option.some.inj hrest)
  exact ⟨later, hlater, typed_is_handed_on (by decide) hbefore htyped hmore rfl hsender
    (by simp [hfollowers]) hdrained (by simp [hpoint, Sending])⟩

end TwitterLike.EndToEnd
