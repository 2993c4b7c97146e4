import TwitterLike.Cluster.EndToEnd
import TwitterLike.Server.NamedProgress

/-!
# The service comes to rest

What the clients have sent is received and worked off.  A thread receives a packet
before it asks for the lock, and a write to a connection that its client has reset
ends the process; everything else that the server does comes to an end, and then
every packet of every client has been received, unless its login is one that the
server would refuse.
-/

namespace TwitterLike.ServiceProgress

open TwitterLike.ByteBuffer
open TwitterLike.PacketFormat
open TwitterLike.Profiles
open TwitterLike.ProfilesManager
open TwitterLike.JsonDump (dumps)
open TwitterLike.Channels
open TwitterLike.Settling
open TwitterLike.Transition
open TwitterLike.Terminal (ProfileName)
open TwitterLike.Threads (System transition_of_step threads_of_transition)
open TwitterLike.LockHolders
open TwitterLike.Processes (written)
open TwitterLike.Naming
open TwitterLike.NamedProgress
open TwitterLike.Service
open TwitterLike.EndToEnd (bobName bobAndDiana bobsServer dianaMoves sayHey)

/-! ## Work -/

/-- The next packet of the client is a login that finds all sessions of its profile
taken. -/
def TurnsAway (world : World) (conn : Conn) : Prop :=
  ∃ packet ∈ (world.requests conn).pending.head?,
    Refuses world.server ⟨conn, 0, .receive packet⟩

instance (world : World) (conn : Conn) : Decidable (TurnsAway world conn) :=
  inferInstanceAs (Decidable (∃ packet ∈ (world.requests conn).pending.head?,
    Refuses world.server ⟨conn, 0, .receive packet⟩))

/-! ## Receiving and working -/

/-- The service with what the process of the server adds to its threads. -/
structure Station where
  world : World
  /-- the thread has received the next packet of its client and not begun to work
  on it -/
  holding : Conn → Bool
  /-- a write to the connection raises `SIGPIPE` -/
  broken : Conn → Bool
  /-- `SIGPIPE` has ended the server -/
  killed : Bool

def Station.start (address : ByteString) (names : Conn → ProfileName) : Station where
  world := .start address names
  holding := fun _ => false
  broken := fun _ => false
  killed := false

/-- The thread of the connection has taken a step. -/
def Station.commit (station : Station) (conn : Conn) (next : World) : Station :=
  { station with
    world := next
    holding := Function.update station.holding conn false
    killed := (written station.world.server.store next.server.store).any
      station.broken }

inductive Event where
  /-- the receive of the thread returns -/
  | receive (conn : Conn)
  /-- the thread begins to work on what it has received, with the lock if the
  packet needs it -/
  | work (conn : Conn) (time : BitVec 64)
  | proceed (conn : Conn) (time : BitVec 64)
  /-- the thread receives nothing from a client that has ended -/
  | vanish (conn : Conn) (time : BitVec 64)
  | client (conn : Conn) (event : Terminal.Event)
  | display (conn : Conn)
  /-- the client's side resets the connection -/
  | breaks (conn : Conn)

/-- A step of a thread of the server. -/
def Station.serve (station : Station) (conn : Conn) (holding : Bool) (move : Move) :
    Option Station :=
  if station.killed = false ∧ station.holding conn = holding then
    (Service.step station.world move).map (station.commit conn)
  else none

def step (station : Station) : Event → Option Station
  | .receive conn =>
      if station.killed = false ∧ station.world.server.down = none ∧
          station.holding conn = false ∧ Listens station.world.server conn ∧
          (station.world.requests conn).pending ≠ [] then
        some { station with holding := Function.update station.holding conn true }
      else none
  | .work conn time => station.serve conn true (.deliver conn time)
  | .proceed conn time => station.serve conn false (.proceed conn time)
  | .vanish conn time => station.serve conn false (.vanish conn time)
  | .client conn event =>
      (Service.step station.world (.client conn event)).map fun world =>
        { station with world := world }
  | .display conn =>
      (Service.step station.world (.display conn)).map fun world =>
        { station with world := world }
  | .breaks conn =>
      some { station with broken := Function.update station.broken conn true }

/-- Nobody interrupts a client that has not presented itself. -/
def Awaits (station : Station) : Event → Prop
  | .client conn event => Patient station.world (.client conn event)
  | _ => True

instance (station : Station) : ∀ event, Decidable (Awaits station event)
  | .client conn event =>
      inferInstanceAs (Decidable (Patient station.world (.client conn event)))
  | .receive _ | .work _ _ | .proceed _ _ | .vanish _ _ | .display _
  | .breaks _ => isTrue trivial

/-- No login is refused. -/
def Welcomes (station : Station) : Event → Prop
  | .work conn _ => ¬ TurnsAway station.world conn
  | _ => True

instance (station : Station) : ∀ event, Decidable (Welcomes station event)
  | .work conn _ => inferInstanceAs (Decidable (¬ TurnsAway station.world conn))
  | .receive _ | .proceed _ _ | .vanish _ _ | .client _ _ | .display _
  | .breaks _ => isTrue trivial

/-- The server receives what has been sent, begins to work on a packet that it does
not refuse, or goes on. -/
def Works (station : Station) : Event → Prop
  | .work conn _ => ¬ TurnsAway station.world conn
  | .receive _ | .proceed _ _ => True
  | .vanish _ _ | .client _ _ | .display _ | .breaks _ => False

/-- The server has died, or every thread waits for a packet or has ended, and has
received everything but logins that it would refuse. -/
def Rests (station : Station) : Prop :=
  station.killed = false → ∀ conn, Waits station.world.server conn ∧
    (station.holding conn = false ∧ (station.world.requests conn).pending = [] ∨
      station.holding conn = true ∧ TurnsAway station.world conn)

/-- The steps in front of the threads and in the packets under way, with so many
clients. -/
def effort (members : Finset Conn) (station : Station) : ℕ :=
  ∑ conn ∈ members, (reach members.card (station.world.server.threads conn) +
    (station.world.requests conn).pending.length * (members.card + 9) +
    if station.holding conn then 0 else 1)

/-! ## What holds while nobody is refused -/

/-- The process runs and has refused nobody; only members have sent anything. -/
structure Running (names : Conn → ProfileName) (members : Finset Conn)
    (world : World) : Prop where
  served : Served names world
  up : world.server.down = none
  dumping : Dumping world.server.store
  held : Held world.server
  silent : ∀ conn, conn ∉ members → (world.requests conn).log = []
  quits : ∀ conn, Quitting (world.server.threads conn) →
    ∃ packet ∈ (world.requests conn).received, packet.cmd = .closeConn

section Steps

variable {names : Conn → ProfileName} {members : Finset Conn} {world next : World}
  {conn : Conn} {time : BitVec 64}

theorem refuses_congr {system : System} {left right : Threads.Label}
    (haction : left.action = right.action) :
    Refuses system left ↔ Refuses system right := by
  rw [Refuses, Refuses, haction]

/-- A profile has no more followers than there are clients. -/
theorem Running.followers_le (hrunning : Running names members world)
    (ref : ProfileRef) :
    (world.server.store.objects ref).followers.length ≤ members.card := by
  have hserved := hrunning.served
  have hnodup := hserved.named.base.graph.wellFormed.followers_nodup ref
  rw [← List.toFinset_card_of_nodup hnodup]
  have hsubset : (world.server.store.objects ref).followers.toFinset ⊆
      members.image fun conn =>
        (world.server.store.getProfileById (nameOf names conn)).getD 0 := by
    intro follower hfollower
    obtain ⟨fan, hbound, packet, hpacket, _⟩ :=
      hserved.asked ref follower (List.mem_toFinset.1 hfollower)
    refine Finset.mem_image.2 ⟨fan, ?_, by rw [hbound]; rfl⟩
    by_contra habsent
    have hlog := Channel.mem_log_of_received hpacket
    rw [hrunning.silent fan habsent] at hlog
    cases hlog
  exact (Finset.card_le_card hsubset).trans Finset.card_image_le

/-- A step of a thread that is not a refusal. -/
theorem Running.serverStep (hrunning : Running names members world)
    (hdumps : ∀ conn, dumps (nameOf names conn) = true) {action : Threads.Action}
    (hintroduces : Introduces (nameOf names) world.server ⟨conn, time, action⟩)
    (hadmitted : ¬ Refuses world.server ⟨conn, time, action⟩)
    (hstep : Threads.step world.server ⟨conn, time, action⟩ = some next.server)
    (hserved : Served names next)
    (hlog : ∀ other, (next.requests other).log = (world.requests other).log)
    (hreceived : ∀ other, (next.requests other).received =
      (world.requests other).received ++ if other = conn then taken action else []) :
    Running names members next := by
  have hnamed := hrunning.served.named
  have htransition := (transition_of_step hstep).2
  dsimp only at htransition
  obtain ⟨hdown, hdumping⟩ := survives_of_transition hnamed hrunning.dumping hdumps
    hintroduces htransition
  refine ⟨hserved, hdown.trans hrunning.up, hdumping, ?_, ?_, ?_⟩
  · exact hrunning.held.step hnamed.base.accounts.lock hadmitted htransition
  · intro other habsent
    rw [hlog]
    exact hrunning.silent other habsent
  · intro other hquits
    rw [hreceived]
    by_cases hother : other = conn
    · subst hother
      rw [if_pos rfl]
      rcases quits_of_transition hnamed hintroduces hadmitted htransition hquits with
        hbefore | ⟨packet, rfl, hcmd⟩
      · obtain ⟨packet, hpacket, hcmd⟩ := hrunning.quits other hbefore
        exact ⟨packet, List.mem_append_left _ hpacket, hcmd⟩
      · exact ⟨packet, List.mem_append_right _ List.mem_cons_self, hcmd⟩
    · rw [threads_of_transition hother htransition] at hquits
      rw [if_neg hother, List.append_nil]
      exact hrunning.quits other hquits

theorem Running.proceed (hrunning : Running names members world)
    (hdumps : ∀ conn, dumps (nameOf names conn) = true)
    (hmove : world.serverMove world.requests ⟨conn, time, .proceed⟩ = some next) :
    Running names members next := by
  have hserved := hrunning.served.proceed hmove
  obtain ⟨server, hstep, rfl⟩ := Option.map_eq_some_iff.1 hmove
  refine hrunning.serverStep hdumps introduces_proceed not_refuses_of_proceed
    hstep hserved (fun _ => rfl) fun other => ?_
  rw [taken, ite_self, List.append_nil]

theorem Running.deliver (hrunning : Running names members world)
    (hdumps : ∀ conn, dumps (nameOf names conn) = true)
    (hadmits : ¬ TurnsAway world conn)
    (hmove : world.deliver conn time = some next) : Running names members next := by
  have hserved := hrunning.served.deliver hmove
  obtain ⟨packet, channel, server, hreceive, hstep, rfl⟩ := packet_of_deliver hmove
  have hintroduces :=
    @Served.introduces _ _ _ time hrunning.served hrunning.up _ _ hreceive
  refine hrunning.serverStep hdumps hintroduces (fun hrefuses => hadmits ?_) hstep
    hserved (fun other => (update_receive hreceive other).1)
    fun other => (update_receive hreceive other).2
  refine ⟨packet, ?_, (refuses_congr rfl).1 hrefuses⟩
  rw [Channel.pending_of_receive hreceive]
  rfl

theorem Running.vanish (hrunning : Running names members world)
    (hmove : world.vanish conn time = some next) : Running names members next := by
  have hserved := hrunning.served.vanish hmove
  obtain ⟨_, rfl⟩ := counted_of_vanish hrunning.served hmove
  exact ⟨hserved, hrunning.up, hrunning.dumping, hrunning.held, hrunning.silent,
    hrunning.quits⟩

/-- Nothing happens at the server. -/
theorem Running.idle (hrunning : Running names members world)
    (hserved : Served names next) (hserver : next.server = world.server)
    (hreceived : ∀ other,
      (next.requests other).received = (world.requests other).received)
    (hlog : ∀ other, other ∉ members →
      (next.requests other).log = (world.requests other).log) :
    Running names members next where
  served := hserved
  up := hserver ▸ hrunning.up
  dumping := hserver ▸ hrunning.dumping
  held := hserver ▸ hrunning.held
  silent other habsent := (hlog other habsent).trans (hrunning.silent other habsent)
  quits other hquits := by
    rw [hserver] at hquits
    rw [hreceived]
    exact hrunning.quits other hquits

theorem running_start (address : ByteString) (names : Conn → ProfileName)
    (members : Finset Conn) : Running names members (.start address names) where
  served := served_start address names
  up := rfl
  dumping _ _ hentry := by
    rw [show Store.getProfileById _ _ = none from rfl] at hentry
    cases hentry
  held _ htaken := absurd rfl htaken
  silent _ _ := rfl
  quits _ hquits := hquits.elim

/-- A client that has sent something is a member. -/
theorem Running.mem_of_log (hrunning : Running names members world)
    (hlog : (world.requests conn).log ≠ []) : conn ∈ members := by
  by_contra habsent
  exact hlog (hrunning.silent conn habsent)

/-- The packets behind a `CLOSE_CONN` are none. -/
theorem pending_of_quitting (hrunning : Running names members world)
    (hquits : Quitting (world.server.threads conn)) :
    (world.requests conn).pending = [] := by
  obtain ⟨packet, hpacket, hcmd⟩ := hrunning.quits conn hquits
  by_contra hmore
  apply (hrunning.served.streams conn).last packet _ hcmd
  rw [← @Channel.received_append_pending _ (world.requests conn),
    List.dropLast_append_of_ne_nil hmore]
  exact List.mem_append_left _ hpacket

end Steps

/-- What a thread has received is the next packet of its client. -/
structure Serving (names : Conn → ProfileName) (members : Finset Conn)
    (station : Station) : Prop where
  running : Running names members station.world
  listens : ∀ conn, station.holding conn = true →
    Listens station.world.server conn ∧ (station.world.requests conn).pending ≠ []

section Stations

variable {names : Conn → ProfileName} {members : Finset Conn}
  {station next : Station} {conn : Conn} {time : BitVec 64}

theorem Serving.mem_of_pending (hserving : Serving names members station)
    (hpending : (station.world.requests conn).pending ≠ []) : conn ∈ members := by
  refine hserving.running.mem_of_log fun hempty => hpending ?_
  have hsplit := @Channel.received_append_pending _ (station.world.requests conn)
  rw [hempty] at hsplit
  exact (List.append_eq_nil_iff.1 hsplit).2

/-- A thread has taken a step, and the packets of the others are where they were. -/
theorem Serving.commit (hserving : Serving names members station)
    {action : Threads.Action} {world : World} (hrunning : Running names members world)
    (hstep : Threads.step station.world.server ⟨conn, time, action⟩ =
      some world.server)
    (hothers : ∀ other, other ≠ conn →
      (world.requests other).pending = (station.world.requests other).pending) :
    Serving names members (station.commit conn world) where
  running := hrunning
  listens other hholding := by
    have hother : other ≠ conn := by
      rintro rfl
      cases (Function.update_self ..).symm.trans hholding
    obtain ⟨hlistens, hpending⟩ :=
      hserving.listens other ((Function.update_of_ne hother ..).symm.trans hholding)
    exact ⟨listens_of_transition (transition_of_step hstep).2 hother hlistens,
      hothers other hother ▸ hpending⟩

theorem station_of_serve {holding : Bool} {move : Move}
    (hserve : station.serve conn holding move = some next) :
    station.killed = false ∧ station.holding conn = holding ∧
      ∃ world, Service.step station.world move = some world ∧
        next = station.commit conn world := by
  obtain ⟨⟨hkilled, hholding⟩, hserve⟩ := Option.ite_none_right_eq_some.1 hserve
  obtain ⟨world, hmove, hnext⟩ := Option.map_eq_some_iff.1 hserve
  exact ⟨hkilled, hholding, world, hmove, hnext.symm⟩

theorem Serving.deliver (hserving : Serving names members station)
    (hdumps : ∀ conn, dumps (nameOf names conn) = true)
    (hadmits : ¬ TurnsAway station.world conn) {world : World}
    (hmove : station.world.deliver conn time = some world) :
    Serving names members (station.commit conn world) := by
  have hrunning := hserving.running.deliver hdumps hadmits hmove
  obtain ⟨packet, channel, server, _, hstep, rfl⟩ := packet_of_deliver hmove
  refine hserving.commit hrunning hstep fun other hother => ?_
  dsimp only
  rw [Function.update_of_ne hother]

theorem Serving.proceed (hserving : Serving names members station)
    (hdumps : ∀ conn, dumps (nameOf names conn) = true) {world : World}
    (hmove : station.world.serverMove station.world.requests
      ⟨conn, time, .proceed⟩ = some world) :
    Serving names members (station.commit conn world) := by
  have hrunning := hserving.running.proceed hdumps hmove
  obtain ⟨server, hstep, rfl⟩ := Option.map_eq_some_iff.1 hmove
  exact hserving.commit hrunning hstep fun _ _ => rfl

theorem Serving.receive (hserving : Serving names members station)
    (hlistens : Listens station.world.server conn)
    (hpending : (station.world.requests conn).pending ≠ []) :
    Serving names members
      { station with holding := Function.update station.holding conn true } where
  running := hserving.running
  listens other hholding := by
    by_cases hother : other = conn
    · rw [hother]
      exact ⟨hlistens, hpending⟩
    · exact hserving.listens other
        ((Function.update_of_ne hother ..).symm.trans hholding)

/-- Nothing happens at the server, and what has been sent stays sent. -/
theorem Serving.idle (hserving : Serving names members station) {world : World}
    (hrunning : Running names members world)
    (hserver : world.server = station.world.server)
    (hpending : ∀ other, (station.world.requests other).pending ≠ [] →
      (world.requests other).pending ≠ []) :
    Serving names members { station with world := world } where
  running := hrunning
  listens other hholding := by
    obtain ⟨hlistens, hsome⟩ := hserving.listens other hholding
    rw [show ({ station with world := world } : Station).world.server =
      station.world.server from hserver]
    exact ⟨hlistens, hpending other hsome⟩

/-- The connection of an event. -/
def connOf : Event → Conn
  | .receive conn => conn
  | .work conn _ => conn
  | .proceed conn _ => conn
  | .vanish conn _ => conn
  | .client conn _ => conn
  | .display conn => conn
  | .breaks conn => conn

theorem Serving.step (hserving : Serving names members station)
    (hdumps : ∀ conn, dumps (nameOf names conn) = true) {event : Event}
    (hawaits : Awaits station event) (hwelcomes : Welcomes station event)
    (hmember : connOf event ∈ members)
    (hstep : ServiceProgress.step station event = some next) :
    Serving names members next := by
  cases event with
  | receive conn =>
      obtain ⟨⟨_, _, _, hlistens, hpending⟩, hnext⟩ :=
        Option.ite_none_right_eq_some.1 hstep
      cases hnext
      exact hserving.receive hlistens hpending
  | work conn time =>
      obtain ⟨_, _, world, hmove, rfl⟩ := station_of_serve hstep
      exact hserving.deliver hdumps hwelcomes hmove
  | proceed conn time =>
      obtain ⟨_, _, world, hmove, rfl⟩ := station_of_serve hstep
      exact hserving.proceed hdumps hmove
  | vanish conn time =>
      obtain ⟨_, _, world, hmove, rfl⟩ := station_of_serve hstep
      have hrunning := hserving.running.vanish hmove
      obtain ⟨_, hmove⟩ := Option.ite_none_right_eq_some.1 hmove
      obtain ⟨server, hserver, rfl⟩ := Option.map_eq_some_iff.1 hmove
      exact hserving.commit hrunning hserver fun _ _ => rfl
  | client conn event =>
      obtain ⟨world, hmove, rfl⟩ := Option.map_eq_some_iff.1 hstep
      have hserved := hserving.running.served.step hawaits hmove
      obtain ⟨hserver, hreceived, hothers⟩ := same_of_clientMove hmove
      refine hserving.idle (hserving.running.idle hserved hserver hreceived
        fun other habsent => ?_) hserver fun other hsome => ?_
      · rw [hothers]
        rintro rfl
        exact habsent hmember
      · intro hnone
        apply hsome
        have hlog := (sent_of_step hmove).1 other
        have hbefore :=
          @Channel.received_append_pending _ (station.world.requests other)
        have hafter := @Channel.received_append_pending _ (world.requests other)
        rw [hnone, List.append_nil, hreceived] at hafter
        rw [← hafter, ← hbefore] at hlog
        have hlength := hlog.length_le
        rw [List.length_append] at hlength
        exact List.length_eq_zero_iff.1 (by omega)
  | display conn =>
      obtain ⟨world, hmove, rfl⟩ := Option.map_eq_some_iff.1 hstep
      have hserved := hserving.running.served.step (by trivial) hmove
      obtain ⟨hserver, hrequests, _⟩ := same_of_display hmove
      refine hserving.idle (hserving.running.idle hserved hserver
        (fun _ => by rw [hrequests]) fun _ _ => by rw [hrequests]) hserver ?_
      intro other hsome
      rwa [hrequests]
  | breaks conn =>
      cases hstep
      exact ⟨hserving.running, hserving.listens⟩

theorem serving_start (address : ByteString) (names : Conn → ProfileName)
    (members : Finset Conn) : Serving names members (.start address names) :=
  ⟨running_start address names members, fun _ hholding => by cases hholding⟩

/-! ## The work gets less -/

/-- One thread pays for the step, and nothing changes for the others. -/
theorem effort_lt {world : World} {holding : Conn → Bool}
    (hmember : conn ∈ members)
    (hothers : ∀ other, other ≠ conn →
      world.server.threads other = station.world.server.threads other ∧
      world.requests other = station.world.requests other ∧
      holding other = station.holding other)
    (hpays : reach members.card (world.server.threads conn) +
        (world.requests conn).pending.length * (members.card + 9) +
        (if holding conn then 0 else 1) <
      reach members.card (station.world.server.threads conn) +
        (station.world.requests conn).pending.length * (members.card + 9) +
        (if station.holding conn then 0 else 1)) (broken : Conn → Bool)
    (killed : Bool) :
    effort members ⟨world, holding, broken, killed⟩ < effort members station := by
  refine Finset.sum_lt_sum (fun other _ => ?_) ⟨conn, hmember, hpays⟩
  by_cases hother : other = conn
  · rw [hother]
    exact hpays.le
  · obtain ⟨hthread, hrequest, hheld⟩ := hothers other hother
    simp only [hthread, hrequest, hheld]
    exact le_refl _

theorem wanes (hdumps : ∀ conn, dumps (nameOf names conn) = true) :
    Wanes step Works (Serving names members) (effort members) := by
  intro station event next hserving hworks hstep
  have hrunning := hserving.running
  cases event with
  | vanish | client | display | breaks => exact hworks.elim
  | receive conn =>
      obtain ⟨⟨_, _, hfree, hlistens, hpending⟩, hnext⟩ :=
        Option.ite_none_right_eq_some.1 hstep
      cases hnext
      refine ⟨hserving.receive hlistens hpending,
        effort_lt (hserving.mem_of_pending hpending) (fun other hother => ?_) ?_ _ _⟩
      · exact ⟨rfl, rfl, Function.update_of_ne hother ..⟩
      · rw [Function.update_self, hfree]
        simp
  | proceed conn time =>
      obtain ⟨_, hfree, world, hmove, rfl⟩ := station_of_serve hstep
      have hnext := hserving.proceed hdumps hmove
      obtain ⟨server, hserver, rfl⟩ := Option.map_eq_some_iff.1 hmove
      have htransition := (transition_of_step hserver).2
      have hless := reach_lt_of_transition hrunning.served.named
        hrunning.followers_le htransition
      have hsent : (station.world.requests conn).log ≠ [] := by
        intro hempty
        apply (accepted_of_transition htransition).2 rfl
        apply hrunning.served.later conn
        exact List.prefix_nil.1 (hempty ▸ Channel.received_prefix)
      refine ⟨hnext, effort_lt (hrunning.mem_of_log hsent) (fun other hother => ?_) ?_
        _ _⟩
      · exact ⟨threads_of_transition hother htransition, rfl,
          Function.update_of_ne hother ..⟩
      · rw [Function.update_self, hfree]
        dsimp only at hless ⊢
        omega
  | work conn time =>
      obtain ⟨_, hholding, world, hmove, rfl⟩ := station_of_serve hstep
      have hnext := hserving.deliver hdumps hworks hmove
      have hmember := hserving.mem_of_pending (hserving.listens conn hholding).2
      obtain ⟨packet, channel, server, hreceive, hserver, rfl⟩ :=
        packet_of_deliver hmove
      have htransition := (transition_of_step hserver).2
      have hpending := Channel.pending_of_receive hreceive
      refine ⟨hnext, effort_lt hmember (fun other hother => ?_) ?_ _ _⟩
      · exact ⟨threads_of_transition hother htransition,
          Function.update_of_ne hother .., Function.update_of_ne hother ..⟩
      · have hreach := reach_le members.card (server.threads conn)
        dsimp only
        rw [Function.update_self, Function.update_self, hholding, hpending,
          List.length_cons, Nat.add_one_mul]
        simp only [if_true, Bool.false_eq_true, if_false]
        omega

/-! ## At rest -/

/-- What a thread has received it can begin to work on, unless the lock is taken or
it would refuse. -/
theorem deliver_isSome (hrunning : Running names members station.world)
    (hlock : station.world.server.controller.writable = true)
    (hlistens : Listens station.world.server conn)
    (hpending : (station.world.requests conn).pending ≠ []) (time : BitVec 64) :
    (Service.step station.world (.deliver conn time)).isSome := by
  obtain ⟨packet, rest, hsome⟩ := List.exists_cons_of_ne_nil hpending
  obtain ⟨channel, hreceive⟩ := Channel.receive_of_pending hsome
  have htakes := (@receive_isSome_iff station.world.server conn packet time hrunning.up
    hrunning.served.named.base.accounts.lock hlistens).2 fun _ => hlock
  change (station.world.deliver conn time).isSome
  simp only [World.deliver, World.serverMove]
  rw [hreceive]
  simpa using htakes

/-- When every thread waits, the lock is free, for nobody has been refused. -/
theorem writable_of_waits {world : World} (hrunning : Running names members world)
    (hwaits : ∀ conn, Waits world.server conn) :
    world.server.controller.writable = true := by
  have hlock := hrunning.served.named.base.accounts.lock
  by_contra htaken
  obtain ⟨holder, hholds⟩ :=
    hrunning.held hrunning.up (taken_of_not_writable hlock htaken).ne'
  exact not_holdsLock_of_waits (hwaits holder) hholds

/-- The server has nothing to do exactly when it has died, or every thread waits or
has ended, and everything but refusals has been worked off. -/
theorem atRest_iff (hserving : Serving names members station) :
    AtRest step Works station ↔ Rests station := by
  have hrunning := hserving.running
  constructor
  · intro hrest halive
    have hwaits (conn : Conn) : Waits station.world.server conn := by
      cases hholding : station.holding conn with
      | true => exact .inl (hserving.listens conn hholding).1
      | false =>
          rw [waits_iff_stuck hrunning.up conn 0]
          have hnone := hrest (.proceed conn 0) trivial
          rw [step, Station.serve, if_pos ⟨halive, hholding⟩] at hnone
          exact Option.map_eq_none_iff.1 (Option.map_eq_none_iff.1 hnone)
    intro conn
    refine ⟨hwaits conn, ?_⟩
    cases hholding : station.holding conn with
    | true =>
        refine .inr ⟨rfl, ?_⟩
        by_contra hadmits
        obtain ⟨hlistens, hpending⟩ := hserving.listens conn hholding
        have hsome := deliver_isSome hrunning (writable_of_waits hrunning hwaits)
          hlistens hpending 0
        have hnone := hrest (.work conn 0) hadmits
        rw [step, Station.serve, if_pos ⟨halive, hholding⟩] at hnone
        rw [Option.map_eq_none_iff.1 hnone] at hsome
        cases hsome
    | false =>
        refine .inl ⟨rfl, ?_⟩
        rcases hwaits conn with hlistens | hended
        · by_contra hpending
          have hnone := hrest (.receive conn) trivial
          rw [step, if_pos ⟨halive, hrunning.up, hholding, hlistens, hpending⟩] at hnone
          cases hnone
        · exact pending_of_quitting hrunning (by rw [hended]; trivial)
  · intro hrests event hworks
    cases event with
    | vanish | client | display | breaks => exact hworks.elim
    | receive conn =>
        apply if_neg
        rintro ⟨halive, _, hfree, _, hpending⟩
        rcases (hrests halive conn).2 with ⟨_, hdrained⟩ | ⟨hholding, _⟩
        · exact hpending hdrained
        · cases hfree.symm.trans hholding
    | work conn time =>
        apply if_neg
        rintro ⟨halive, hholding⟩
        rcases (hrests halive conn).2 with ⟨hfree, _⟩ | ⟨_, haway⟩
        · cases hfree.symm.trans hholding
        · exact hworks haway
    | proceed conn time =>
        rw [step, Station.serve]
        split
        case isFalse => rfl
        case isTrue hfree =>
          apply Option.map_eq_none_iff.2
          apply Option.map_eq_none_iff.2
          exact (waits_iff_stuck hrunning.up conn time).1 (hrests hfree.1 conn).1

end Stations

/-! ## Runs -/

/-- What a move of the service looks like here: the receive is a step of its own. -/
def eventsOf : Move → List Event
  | .client conn event => [.client conn event]
  | .deliver conn time => [.receive conn, .work conn time]
  | .proceed conn time => [.proceed conn time]
  | .vanish conn time => [.vanish conn time]
  | .display conn => [.display conn]

/-- Diana follows, resets her connection, and Bob types. -/
def brokenEvents : List Event :=
  dianaMoves.flatMap eventsOf ++ [.breaks 2, .client 1 (.entered sayHey 0)]

end TwitterLike.ServiceProgress
