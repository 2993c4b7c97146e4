import TwitterLike.Client.Grammar
import TwitterLike.Commons.Arrivals
import TwitterLike.Core.Channels
import TwitterLike.Server.Replication

/-!
# A primary and its clients

The handler threads of one primary and the clients that are connected to it, each
with its own connection and under any interleaving.  Packets of a client reach the
server in order, and so do the packets of the server the client, whole and as they
were sent: the lines typed have no zero bytes and leave room for the name.  The
router names this primary to everyone who asks.
-/

namespace TwitterLike.Service

open TwitterLike.ByteBuffer
open TwitterLike.PacketFormat
open TwitterLike.PacketCodec
open TwitterLike.Profiles
open TwitterLike.ProfilesManager
open TwitterLike.Connections (SendablePacket sendPacket receivePacket_message)
open TwitterLike.Handlers (helloText)
open TwitterLike.Channels
open TwitterLike.Arrivals (zeroPacket)
open TwitterLike.Terminal (ProfileName Line Client Event substr length_of_substr)
open TwitterLike.Grammar (read toServer_eq)
open TwitterLike.Threads (System)
open TwitterLike.Replication (writtenTo)

/-! ## States -/

/-- A line that has been typed at the client of a connection. -/
structure Entry where
  conn : Conn
  line : Line
  time : BitVec 64
  deriving DecidableEq

structure World where
  /-- what the router answers -/
  address : ByteString
  server : System
  clients : Conn → Client
  /-- from the clients to the server -/
  requests : Conn → Channel Packet
  /-- how many of the packets written to them the clients have received -/
  shown : Conn → ℕ
  /-- the lines typed so far -/
  typed : List Entry

/-- A server that has just entered its accept loop, and clients that have
connected to the router. -/
def World.start (address : ByteString) (names : Conn → ProfileName) : World where
  address := address
  server := .start
  clients := fun conn => .start (names conn)
  requests := fun _ => .empty
  shown := fun _ => 0
  typed := []

/-- The packets that have been shown at the terminal, or received as the last. -/
def World.shownTo (world : World) (conn : Conn) : List Packet :=
  (writtenTo conn world.server.store).take (world.shown conn)

/-! ## Steps -/

/-- What the client has sent to the server in a step; the request for the primary
goes to the router, and so does the second packet of `interruptionHandler`. -/
def toPrimary (client next : Client) : Event → List Packet
  | .located _ _ => []
  | .interrupted _ => (next.sent.drop client.sent.length).take 1
  | _ => next.sent.drop client.sent.length

def typedBy (conn : Conn) : Event → List Entry
  | .entered line time => [⟨conn, line, time⟩]
  | _ => []

/-- A line without zero bytes that leaves room for the longest name. -/
def Tidy (line : Line) : Prop := 0 ∉ line.1 ∧ line.1.length ≤ 4057

instance (line : Line) : Decidable (Tidy line) := inferInstanceAs (Decidable (_ ∧ _))

/-- The router answers with the address, and `CLOSE_CONN` comes from the
server. -/
def Possible (address : ByteString) : Event → Prop
  | .located response _ => response.1.payload = address
  | .entered line _ => Tidy line
  | .closeConn => False
  | _ => True

instance (address : ByteString) (event : Event) :
    Decidable (Possible address event) := by
  unfold Possible
  split <;> infer_instance

inductive Move where
  | client (conn : Conn) (event : Event)
  /-- the thread of the connection receives the next packet -/
  | deliver (conn : Conn) (time : BitVec 64)
  /-- the thread of the connection receives nothing from a client that has ended -/
  | vanish (conn : Conn) (time : BitVec 64)
  | proceed (conn : Conn) (time : BitVec 64)
  /-- `fromServer` receives the next packet -/
  | display (conn : Conn)

namespace World

variable (world : World)

def setClient (conn : Conn) (client : Client) : World :=
  { world with clients := Function.update world.clients conn client }

def clientMove (conn : Conn) (event : Event) : Option World :=
  if Possible world.address event then
    (Terminal.step (world.clients conn) event).map fun next =>
      { world.setClient conn next with
        requests := Function.update world.requests conn
          ((world.requests conn).post (toPrimary (world.clients conn) next event))
        typed := world.typed ++ typedBy conn event }
  else none

def serverMove (requests : Conn → Channel Packet) (label : Threads.Label) :
    Option World :=
  (Threads.step world.server label).map fun next =>
    { world with server := next, requests := requests }

def deliver (conn : Conn) (time : BitVec 64) : Option World :=
  match (world.requests conn).receive with
  | some (packet, channel) =>
      world.serverMove (Function.update world.requests conn channel)
        ⟨conn, time, .receive packet⟩
  | none => none

def vanish (conn : Conn) (time : BitVec 64) : Option World :=
  if (world.clients conn).ended = true ∧ (world.requests conn).pending = [] then
    world.serverMove world.requests ⟨conn, time, .receive zeroPacket.packet⟩
  else none

def display (conn : Conn) : Option World :=
  let client := world.clients conn
  if client.ended = false ∧ client.toServerTh ≠ .notCreated ∧
      client.con = .connected then
    match (writtenTo conn world.server.store)[world.shown conn]? with
    | some packet =>
        let after := { world with
          shown := Function.update world.shown conn (world.shown conn + 1) }
        if packet.cmd = .closeConn then
          (Terminal.step client .closeConn).map (after.setClient conn)
        else some after
    | none => none
  else none

end World

def step (world : World) : Move → Option World
  | .client conn event => world.clientMove conn event
  | .deliver conn time => world.deliver conn time
  | .vanish conn time => world.vanish conn time
  | .proceed conn time => world.serverMove world.requests ⟨conn, time, .proceed⟩
  | .display conn => world.display conn

/-- The client has not sent its `PROFILE`. -/
def Unpresented (client : Client) : Prop :=
  client.toServerTh = .notCreated ∨ client.toServerTh = .presenting

instance (client : Client) : Decidable (Unpresented client) :=
  inferInstanceAs (Decidable (_ ∨ _))

/-- Nobody interrupts a client that has not presented itself. -/
def Patient (world : World) : Move → Prop
  | .client conn (.interrupted _) => ¬ Unpresented (world.clients conn)
  | _ => True

instance (world : World) (move : Move) : Decidable (Patient world move) := by
  unfold Patient
  split <;> infer_instance

/-- The lines typed in a run. -/
def typedIn (moves : List Move) : List Entry :=
  moves.flatMap fun
    | .client conn event => typedBy conn event
    | _ => []

section Moves

variable {world next : World} {move : Move}

theorem same_of_display {conn : Conn} (hmove : world.display conn = some next) :
    next.server = world.server ∧ next.requests = world.requests ∧
      next.typed = world.typed := by
  obtain ⟨_, hmove⟩ := Option.ite_none_right_eq_some.1 hmove
  split at hmove
  · split at hmove
    · obtain ⟨client, _, rfl⟩ := Option.map_eq_some_iff.1 hmove
      exact ⟨rfl, rfl, rfl⟩
    · cases hmove
      exact ⟨rfl, rfl, rfl⟩
  · cases hmove

/-- A client posts on its own channel only. -/
theorem same_of_clientMove {conn : Conn} {event : Event}
    (hmove : world.clientMove conn event = some next) :
    next.server = world.server ∧
      (∀ other, (next.requests other).received = (world.requests other).received) ∧
      ∀ other, other ≠ conn → next.requests other = world.requests other := by
  obtain ⟨_, hmove⟩ := Option.ite_none_right_eq_some.1 hmove
  obtain ⟨client, _, rfl⟩ := Option.map_eq_some_iff.1 hmove
  refine ⟨rfl, fun other => ?_, fun other hother => Function.update_of_ne hother ..⟩
  by_cases hother : other = conn
  · subst hother
    dsimp only
    rw [Function.update_self, Channel.received_post]
  · dsimp only
    rw [Function.update_of_ne hother]

/-- A step of the world is a step of one thread of the server, or none. -/
theorem server_of_step (hstep : step world move = some next) :
    next.server = world.server ∨
      ∃ label, Threads.step world.server label = some next.server := by
  cases move with
  | client conn event => exact .inl (same_of_clientMove hstep).1
  | deliver conn time =>
      simp only [step, World.deliver] at hstep
      split at hstep
      · obtain ⟨server, hserver, rfl⟩ := Option.map_eq_some_iff.1 hstep
        exact .inr ⟨_, hserver⟩
      · cases hstep
  | vanish conn time =>
      obtain ⟨_, hmove⟩ := Option.ite_none_right_eq_some.1 hstep
      obtain ⟨server, hserver, rfl⟩ := Option.map_eq_some_iff.1 hmove
      exact .inr ⟨_, hserver⟩
  | proceed conn time =>
      obtain ⟨server, hserver, rfl⟩ := Option.map_eq_some_iff.1 hstep
      exact .inr ⟨_, hserver⟩
  | display conn => exact .inl (same_of_display hstep).1

/-- Nothing that has been sent is taken back, and the lines are those of the
moves. -/
theorem sent_of_step (hstep : step world move = some next) :
    (∀ conn, (world.requests conn).log <+: (next.requests conn).log) ∧
      next.typed = world.typed ++ typedIn [move] := by
  have hkept (requests : Conn → Channel Packet) (conn other : Conn)
      {channel : Channel Packet} (hlog : (requests conn).log <+: channel.log) :
      (requests other).log <+: (Function.update requests conn channel other).log := by
    by_cases hother : other = conn
    · subst hother
      rwa [Function.update_self]
    · rw [Function.update_of_ne hother]
  have hsilent : world.typed = world.typed ++ [] := (List.append_nil _).symm
  cases move with
  | client conn event =>
      obtain ⟨_, hmove⟩ := Option.ite_none_right_eq_some.1 hstep
      obtain ⟨client, _, rfl⟩ := Option.map_eq_some_iff.1 hmove
      refine ⟨fun other => hkept _ conn other (List.prefix_append _ _), ?_⟩
      rw [typedIn, List.flatMap_singleton]
  | deliver conn time =>
      simp only [step, World.deliver] at hstep
      split at hstep
      · next packet channel hreceive =>
          obtain ⟨server, _, rfl⟩ := Option.map_eq_some_iff.1 hstep
          have hlog := Channel.log_of_receive hreceive
          exact ⟨fun other => hkept _ conn other (by rw [hlog]), hsilent⟩
      · cases hstep
  | vanish conn time =>
      obtain ⟨_, hmove⟩ := Option.ite_none_right_eq_some.1 hstep
      obtain ⟨server, _, rfl⟩ := Option.map_eq_some_iff.1 hmove
      exact ⟨fun _ => List.prefix_rfl, hsilent⟩
  | proceed conn time =>
      obtain ⟨server, _, rfl⟩ := Option.map_eq_some_iff.1 hstep
      exact ⟨fun _ => List.prefix_rfl, hsilent⟩
  | display conn =>
      obtain ⟨_, hrequests, htyped⟩ := same_of_display hstep
      refine ⟨fun other => ?_, htyped.trans hsilent⟩
      rw [hrequests]

theorem typed_of_exec {moves : List Move}
    (hrun : Transition.exec step world moves = some next) :
    next.typed = world.typed ++ typedIn moves := by
  induction moves generalizing world with
  | nil =>
      cases hrun
      exact (List.append_nil _).symm
  | cons move moves ih =>
      obtain ⟨middle, hstep, hrest⟩ := Transition.exec_cons_iff.1 hrun
      rw [ih hrest, (sent_of_step hstep).2, List.append_assoc, typedIn, typedIn,
        ← List.flatMap_append, List.singleton_append, typedIn]

end Moves

/-! ## What a client sends -/

/-- The packet that the client makes of the line. -/
def packetOf (names : Conn → ProfileName) (entry : Entry) : Option Packet :=
  match read entry.line.1 with
  | .packet cmd payload => some (new cmd payload (names entry.conn).text entry.time)
  | .refused => none
  | .throws => none

/-- The command is one that a line is made into. -/
def Spoken (packet : Packet) : Prop := packet.cmd = .follow ∨ packet.cmd = .send

instance (packet : Packet) : Decidable (Spoken packet) :=
  inferInstanceAs (Decidable (_ ∨ _))

/-- The packet arrives as it is sent. -/
structure Sendable (packet : Packet) : Prop where
  fits : Fits packet
  nulFree : NulFree packet

/-- The array of such a packet is received as that packet. -/
theorem Sendable.arrives {packet : Packet} (hsendable : Sendable packet)
    (freeStore : FreeStore) :
    ∃ message, sendPacket packet = some message ∧
      Connections.Connection.receivePacket freeStore (.bytes message) = .ok packet ∧
      Connections.ClientConnection.receivePacket freeStore (.bytes message) =
        .ok packet := by
  have hreceived := receivePacket_message freeStore
    ⟨packet, hsendable.fits, hsendable.nulFree⟩
  exact ⟨_, SendablePacket.sendPacket_eq ⟨packet, hsendable.fits, hsendable.nulFree⟩,
    hreceived, hreceived⟩

/-- The server's `CLOSE_CONN`. -/
theorem sendable_closing (time : BitVec 64) : Sendable (new .closeConn [] [] time) :=
  ⟨fits_new_nil .closeConn time, List.not_mem_nil, List.not_mem_nil⟩

theorem sendable_greeting (name : ProfileName) (time : BitVec 64) :
    Sendable (new .send (helloText ++ name.text) [] time) := by
  have hname := name.atMost
  refine ⟨(fits_new_iff _ _ _ _).2 ?_, ?_, List.not_mem_nil⟩
  · rw [List.length_append, List.length_nil, show helloText.length = 14 from rfl]
    omega
  · rw [new, List.mem_append, not_or]
    exact ⟨by decide, name.noNul⟩

/-- A client that has never been told of another primary. -/
structure Faithful (address : ByteString) (client : Client) : Prop where
  joined : client.toServerTh ≠ .notCreated → client.con = .connected
  linked : client.con ≠ .null → client.primary = address
  waiting : ∀ sendOk, client.con = .reconnecting sendOk → sendOk = false

theorem faithful_start (address : ByteString) (profile : ProfileName) :
    Faithful address (Client.start profile) where
  joined hcreated := absurd rfl hcreated
  linked hcon := absurd rfl hcon
  waiting _ hcon := by cases hcon

/-- What a step of a client means to the server. -/
inductive Effect (names : Conn → ProfileName) (conn : Conn) (event : Event)
    (client next : Client) : Prop where
  | quiet (hsent : toPrimary client next event = [])
      (hphase : Unpresented next ↔ Unpresented client)
      (hended : Unpresented client → next.ended = client.ended)
      (htyped : (typedBy conn event).filterMap (packetOf names) = [])
  | opening (time : BitVec 64)
      (hsent : toPrimary client next event =
        [new .profile (names conn).text [] time])
      (hbefore : Unpresented client) (hafter : ¬ Unpresented next)
      (htyped : (typedBy conn event).filterMap (packetOf names) = [])
  | later (packet : Packet) (hsent : toPrimary client next event = [packet])
      (hbefore : ¬ Unpresented client) (hafter : ¬ Unpresented next)
      (hcmd : Spoken packet ∨ packet.cmd = .closeConn)
      (hclosing : packet.cmd = .closeConn → next.ended = true)
      (htyped : (typedBy conn event).filterMap (packetOf names) =
        [packet].filter fun packet => Spoken packet)

section Clients

variable {names : Conn → ProfileName} {address : ByteString} {conn : Conn}
  {client next : Client} {event : Event}

theorem read_spoken {line : ByteString} {cmd : CmdType} {payload : ByteString}
    (hread : read line = .packet cmd payload) : cmd = .follow ∨ cmd = .send := by
  unfold Grammar.read at hread
  split at hread
  · split at hread
    · cases hread
      exact .inl rfl
    · cases hread
  · split at hread
    · split at hread
      · split at hread
        · cases hread
        · cases hread
          exact .inr rfl
      · cases hread
    · cases hread

/-- The loop of `toServer` with an open connection. -/
theorem effect_of_entered (hprofile : client.profile = names conn)
    (hreading : client.toServerTh = .reading) (hcon : client.con = .connected)
    (line : Line) (time : BitVec 64) :
    Effect names conn (.entered line time) client (client.toServer line.1 time) := by
  have hopen : client.isClosed = false := by rw [Client.isClosed, hcon]
  have hpresented : ¬ Unpresented client := by simp [Unpresented, hreading]
  have htyped : (typedBy conn (.entered line time)).filterMap (packetOf names) =
      (packetOf names ⟨conn, line, time⟩).toList := by
    cases hpacket : packetOf names ⟨conn, line, time⟩ <;> simp [typedBy, hpacket]
  rw [toServer_eq time hopen]
  cases hread : read line.1 with
  | packet cmd payload =>
      have hcmd := read_spoken hread
      refine .later (new cmd payload (names conn).text time) ?_ hpresented hpresented
        (.inl hcmd) ?_ ?_
      · simp [toPrimary, Grammar.Reading.turn, hprofile]
      · rintro (rfl : cmd = .closeConn)
        exact absurd hcmd (by simp)
      · rw [htyped, List.filter_cons_of_pos]
        · simp [packetOf, hread]
        · rw [decide_eq_true_eq]
          exact hcmd
  | refused =>
      refine .quiet ?_ ?_ (fun hnot => absurd hnot hpresented) ?_
      · simp [toPrimary, Grammar.Reading.turn]
      · simp [Unpresented, Grammar.Reading.turn, hreading]
      · rw [htyped]
        simp [packetOf, hread]
  | throws =>
      refine .quiet ?_ Iff.rfl (fun hnot => absurd hnot hpresented) ?_
      · simp [toPrimary, Grammar.Reading.turn]
      · rw [htyped]
        simp [packetOf, hread]

/-- What a tidy line is made into fits, and has no zero bytes. -/
theorem sendable_of_read {line : Line} (htidy : Tidy line) {cmd : CmdType}
    {payload : ByteString} (hread : read line.1 = .packet cmd payload)
    (profile : ProfileName) (time : BitVec 64) :
    Sendable (new cmd payload profile.text time) := by
  have hname := profile.atMost
  have hdrop {pos : ℕ} {rest : ByteString} (hsubstr : substr line.1 pos = some rest) :
      rest.length + pos = line.1.length ∧ 0 ∉ rest := by
    refine ⟨length_of_substr hsubstr, ?_⟩
    unfold substr at hsubstr
    obtain ⟨_, hrest⟩ := Option.ite_none_right_eq_some.1 hsubstr
    cases hrest
    exact fun hmem => htidy.1 (List.mem_of_mem_drop hmem)
  have hmake (hlength : payload.length ≤ 4050) (hclean : 0 ∉ payload) :
      Sendable (new cmd payload profile.text time) := by
    refine ⟨(fits_new_iff cmd payload profile.text time).2 ?_, hclean, profile.noNul⟩
    omega
  unfold Grammar.read at hread
  split at hread
  · split at hread
    · next followed hsubstr =>
        cases hread
        obtain ⟨hlength, hclean⟩ := hdrop hsubstr
        exact hmake (by have := htidy.2; omega) hclean
    · cases hread
  · split at hread
    · split at hread
      · next message hsubstr =>
          split at hread
          · cases hread
          · next hshort =>
              cases hread
              have hbound : payload.length ≤ 128 := not_lt.1 hshort
              exact hmake (by omega) (hdrop hsubstr).2
      · cases hread
    · cases hread

/-- What a client of this profile may send to its server. -/
inductive Utterance (profile : ProfileName) (event : Event) : Packet → Prop where
  | login (time : BitVec 64) :
      Utterance profile event (new .profile profile.text [] time)
  | back (time : BitVec 64) : Utterance profile event (new .ok [] profile.text time)
  | farewell (time : BitVec 64) : Utterance profile event (new .closeConn [] [] time)
  | interrupt (time : BitVec 64) :
      Utterance profile event (new .closeConn [] profile.text time)
  | command {line : Line} {time : BitVec 64} {cmd : CmdType} {payload : ByteString}
      (hevent : event = .entered line time)
      (hread : read line.1 = .packet cmd payload) :
      Utterance profile event (new cmd payload profile.text time)

theorem utterance_of_step (hstep : Terminal.step client event = some next) :
    ∀ packet ∈ toPrimary client next event, Utterance client.profile event packet := by
  simp only [Terminal.step, Option.ite_none_left_eq_some] at hstep
  replace hstep := hstep.2
  intro packet hpacket
  cases event with
  | located => cases hpacket
  | connected time =>
      simp only [Terminal.stepClient] at hstep
      split at hstep
      · next sendOk _ =>
          cases hstep
          cases sendOk with
          | false => simp [toPrimary, Client.reconnect] at hpacket
          | true =>
              simp only [toPrimary, Client.reconnect, if_true, Client.sendPacket_sent,
                List.drop_left, List.mem_singleton] at hpacket
              exact hpacket ▸ .back time
      · cases hstep
  | created =>
      obtain ⟨_, hnext⟩ := Option.ite_none_right_eq_some.1 hstep
      cases hnext
      simp [toPrimary] at hpacket
  | presented time =>
      obtain ⟨_, hnext⟩ := Option.ite_none_right_eq_some.1 hstep
      cases hnext
      simp only [toPrimary, Client.sendPresentation, Client.goto_sent,
        Client.sendPacket_sent, List.drop_left, List.mem_singleton] at hpacket
      exact hpacket ▸ .login time
  | entered line time =>
      obtain ⟨_, hnext⟩ := Option.ite_none_right_eq_some.1 hstep
      cases hnext
      cases hclosed : client.isClosed with
      | true => simp [toPrimary, Client.toServer, hclosed] at hpacket
      | false =>
          rw [toServer_eq time hclosed] at hpacket
          cases hread : read line.1 with
          | packet cmd payload =>
              simp only [toPrimary, hread, Grammar.Reading.turn, Client.sendPacket_sent,
                List.drop_left, List.mem_singleton] at hpacket
              exact hpacket ▸ .command rfl hread
          | refused | throws => simp [toPrimary, hread, Grammar.Reading.turn] at hpacket
  | endOfInput time =>
      obtain ⟨_, hnext⟩ := Option.ite_none_right_eq_some.1 hstep
      cases hnext
      simp only [toPrimary, Client.exit_sent, Client.sendPacket_sent, List.drop_left,
        List.mem_singleton] at hpacket
      exact hpacket ▸ .farewell time
  | closeConn =>
      obtain ⟨_, hnext⟩ := Option.ite_none_right_eq_some.1 hstep
      cases hnext
      simp [toPrimary] at hpacket
  | interrupted time =>
      cases hstep
      simp only [toPrimary, Client.interruptionHandler, Client.exit_sent,
        Client.sendPacket_sent, List.append_assoc, List.drop_left] at hpacket
      exact List.mem_singleton.1 hpacket ▸ .interrupt time

/-- What a client sends to the server arrives as it is sent. -/
theorem Utterance.sendable {profile : ProfileName} {packet : Packet}
    (hutterance : Utterance profile event packet)
    (htidy : ∀ line time, event = .entered line time → Tidy line) :
    Sendable packet := by
  have hname := profile.atMost
  cases hutterance with
  | login time =>
      refine ⟨(fits_new_iff _ _ _ _).2 ?_, profile.noNul, List.not_mem_nil⟩
      rw [List.length_nil]
      omega
  | back time | interrupt time =>
      refine ⟨(fits_new_iff _ _ _ _).2 ?_, List.not_mem_nil, profile.noNul⟩
      rw [List.length_nil]
      omega
  | farewell time => exact sendable_closing time
  | command hevent hread => exact sendable_of_read (htidy _ _ hevent) hread profile _

theorem updateConn_keeps (response : Packet) (time : BitVec 64) :
    (client.updateConn response time).toServerTh = client.toServerTh ∧
      (client.updateConn response time).ended = client.ended ∧
      (client.updateConn response time).profile = client.profile := by
  unfold Client.updateConn
  dsimp only
  split <;> exact ⟨rfl, rfl, rfl⟩

theorem turn_keeps (reading : Grammar.Reading) (time : BitVec 64) :
    (reading.turn client time).con = client.con ∧
      (reading.turn client time).primary = client.primary ∧
      (reading.turn client time).profile = client.profile := by
  cases reading <;> exact ⟨rfl, rfl, rfl⟩

theorem Faithful.updateConn (hfaithful : Faithful address client)
    {response : Packet} (hanswer : response.payload = address) (time : BitVec 64) :
    Faithful address (client.updateConn response time) := by
  unfold Client.updateConn
  dsimp only
  split
  · exact ⟨hfaithful.joined, hfaithful.linked, hfaithful.waiting⟩
  · next hother =>
      have hnull : client.con = .null := by
        by_contra hcon
        exact hother (hanswer.trans (hfaithful.linked hcon).symm)
      have hcreated : client.toServerTh = .notCreated := by
        by_contra hcreated
        cases hnull.symm.trans (hfaithful.joined hcreated)
      refine ⟨fun hnot => absurd hcreated hnot, fun _ => hanswer, ?_⟩
      intro sendOk hcon
      cases hcon
      simp [hcreated]

/-- A step that leaves the connection alone. -/
theorem Faithful.keep (hfaithful : Faithful address client)
    (hcon : next.con = client.con) (hprimary : next.primary = client.primary)
    (hcreated : next.toServerTh ≠ .notCreated →
      client.toServerTh ≠ .notCreated ∨ client.con = .connected) :
    Faithful address next where
  joined hnot := by
    rw [hcon]
    exact (hcreated hnot).elim hfaithful.joined id
  linked hlinked := hprimary.trans (hfaithful.linked (hcon ▸ hlinked))
  waiting sendOk hwaiting := hfaithful.waiting sendOk (hcon ▸ hwaiting)

/-- No step changes the name. -/
theorem profile_of_step (hstep : Terminal.step client event = some next) :
    next.profile = client.profile := by
  simp only [Terminal.step, Option.ite_none_left_eq_some] at hstep
  replace hstep := hstep.2
  cases event with
  | located response time =>
      simp only [Terminal.stepClient] at hstep
      split at hstep
      · cases hstep
      · cases hstep
        exact (updateConn_keeps response.1 time).2.2
  | connected time =>
      simp only [Terminal.stepClient] at hstep
      split at hstep
      · next sendOk _ =>
          cases hstep
          cases sendOk <;> rfl
      · cases hstep
  | entered line time =>
      obtain ⟨_, hnext⟩ := Option.ite_none_right_eq_some.1 hstep
      cases hnext
      cases hclosed : client.isClosed with
      | true => simp [Client.toServer, hclosed]
      | false =>
          rw [toServer_eq time hclosed]
          exact (turn_keeps _ time).2.2
  | created | presented | endOfInput | closeConn =>
      obtain ⟨_, hnext⟩ := Option.ite_none_right_eq_some.1 hstep
      cases hnext
      rfl
  | interrupted time =>
      cases hstep
      rfl

theorem effect_of_step (hprofile : client.profile = names conn)
    (hfaithful : Faithful address client) (hpossible : Possible address event)
    (hpatient : ∀ time, event = .interrupted time → ¬ Unpresented client)
    (hstep : Terminal.step client event = some next) :
    Effect names conn event client next ∧ Faithful address next := by
  simp only [Terminal.step, Option.ite_none_left_eq_some] at hstep
  replace hstep := hstep.2
  cases event with
  | located response time =>
      simp only [Terminal.stepClient] at hstep
      split at hstep
      · cases hstep
      · cases hstep
        obtain ⟨hthread, hended, _⟩ := @updateConn_keeps client response.1 time
        refine ⟨.quiet rfl ?_ (fun _ => hended) rfl,
          hfaithful.updateConn hpossible time⟩
        rw [Unpresented, hthread, Unpresented]
  | connected time =>
      simp only [Terminal.stepClient] at hstep
      split at hstep
      · next sendOk hcon =>
          cases hstep
          cases hfaithful.waiting sendOk hcon
          have hlinked := hfaithful.linked (by simp [hcon])
          refine ⟨.quiet ?_ Iff.rfl (fun _ => rfl) rfl, ⟨fun _ => rfl, fun _ => hlinked,
            fun _ hwaiting => by cases hwaiting⟩⟩
          simp [toPrimary, Client.reconnect]
      · cases hstep
  | created =>
      obtain ⟨⟨hcreated, hcon⟩, hnext⟩ := Option.ite_none_right_eq_some.1 hstep
      cases hnext
      refine ⟨.quiet ?_ ?_ (fun _ => rfl) rfl,
        hfaithful.keep rfl rfl fun _ => .inr hcon⟩
      · simp [toPrimary]
      · simp [Unpresented, hcreated]
  | presented time =>
      obtain ⟨hpresenting, hnext⟩ := Option.ite_none_right_eq_some.1 hstep
      cases hnext
      refine ⟨.opening time ?_ (.inr hpresenting) ?_ rfl,
        hfaithful.keep rfl rfl ?_⟩
      · simp [toPrimary, Client.sendPresentation, hprofile]
      · simp [Unpresented]
      · simp [hpresenting]
  | entered line time =>
      obtain ⟨hreading, hnext⟩ := Option.ite_none_right_eq_some.1 hstep
      cases hnext
      have hcon := hfaithful.joined (by simp [hreading])
      have heffect := effect_of_entered hprofile hreading hcon line time
      have hopen : client.isClosed = false := by rw [Client.isClosed, hcon]
      rw [toServer_eq time hopen] at heffect ⊢
      obtain ⟨hkeep, hprimary, _⟩ := @turn_keeps client (Grammar.read line.1) time
      exact ⟨heffect, hfaithful.keep hkeep hprimary fun _ => .inr hcon⟩
  | endOfInput time =>
      obtain ⟨hreading, hnext⟩ := Option.ite_none_right_eq_some.1 hstep
      cases hnext
      refine ⟨.later (new .closeConn [] [] time) ?_ ?_ ?_ (.inr rfl) (fun _ => rfl) rfl,
        hfaithful.keep rfl rfl ?_⟩
      · simp [toPrimary]
      · simp [Unpresented, hreading]
      · simp [Unpresented, hreading]
      · simp [hreading]
  | closeConn => exact hpossible.elim
  | interrupted time =>
      cases hstep
      have hpresented := hpatient time rfl
      refine ⟨.later (new .closeConn [] client.profile.text time) ?_ hpresented
        hpresented (.inr rfl) (fun _ => rfl) rfl, hfaithful.keep rfl rfl .inl⟩
      · simp [toPrimary, Client.interruptionHandler]

end Clients

end TwitterLike.Service
