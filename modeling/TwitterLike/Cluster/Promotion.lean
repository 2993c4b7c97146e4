import TwitterLike.Cluster.Roles

/-!
# At most one primary

The router gives the role away once, by `SET_PRIMARY_IF_NOT_EXISTS`, and then to
whoever asks with `SET_PRIMARY`.  As long as it handles the latter only when no
other server that lives has the role, there is never more than one primary; two
backups of one crashed primary are enough to break this.  Servers on one address
also share a port, which only one of them can bind, unless it is the port 0.
-/

namespace TwitterLike.Promotion

open TwitterLike.PacketFormat
open TwitterLike.Register
open TwitterLike.Roles
open TwitterLike.Transition

variable {Id : Type} [DecidableEq Id]

/-- The server lives and has the role of the primary, or an answer that gives it
the role is on its way. -/
def Granted (cluster : Cluster Id) (server : Id) : Prop :=
  match cluster.phases server with
  | .registering =>
      ∃ reply ∈ (cluster.replies server).head?,
        cluster.takesRole server reply = true
  | .promoting => cluster.replies server ≠ []
  | .leading => True
  | .primary => True
  | _ => False

/-- `bind` gives the port to every process that asks for it. -/
def AnyPort (cluster : Cluster Id) (server : Id) : Prop :=
  portNumber (cluster.arguments server).port = some 0

/-- The router handles `SET_PRIMARY` only when no server on another address has
the role, and any request only when no other server on its address has the role
and needs no port of its own. -/
def TakesOverAlone (cluster : Cluster Id) (label : Label Id) : Prop :=
  label.action = .route →
    ∀ packet ∈ cluster.requests label.server, ∀ other, Granted cluster other →
      (packet.cmd = .setPrimary →
        cluster.address other = cluster.address label.server) ∧
      (other ≠ label.server →
        cluster.address other = cluster.address label.server →
          ¬ AnyPort cluster other)

omit [DecidableEq Id] in
instance (cluster : Cluster Id) (server : Id) :
    Decidable (AnyPort cluster server) :=
  inferInstanceAs (Decidable (_ = _))

instance (cluster : Cluster Id) (server : Id) :
    Decidable (Granted cluster server) := by
  unfold Granted
  split <;> infer_instance

instance [Fintype Id] (cluster : Cluster Id) (label : Label Id) :
    Decidable (TakesOverAlone cluster label) := by
  unfold TakesOverAlone
  infer_instance

def AtMostOnePrimary (cluster : Cluster Id) : Prop :=
  ∀ left right, cluster.phases left = .primary →
    cluster.phases right = .primary → left = right

/-! ## The invariant -/

/-- A server in this phase has been answered by the router before. -/
def Answered : Phase Id → Prop
  | .idle => False
  | .registering => False
  | .down => False
  | _ => True

structure OneHolder (cluster : Cluster Id) : Prop where
  /-- who has the role is in the register -/
  granted : ∀ server, Granted cluster server →
    cluster.router.hasPrimary = true ∧
      cluster.address server = cluster.router.primaryServer
  answered : ∀ server, Answered (cluster.phases server) →
    cluster.router.hasPrimary = true
  /-- a server asks for itself, first to register and later to take over -/
  requests : ∀ server, ∀ packet ∈ cluster.requests server,
    packet.payload = cluster.address server ∧
      (packet.cmd = .setPrimaryIfNotExists ∧
        ¬ Answered (cluster.phases server) ∨
      packet.cmd = .setPrimary ∧ cluster.router.hasPrimary = true)
  replied : ∀ server, cluster.replies server ≠ [] →
    cluster.router.hasPrimary = true ∧ cluster.requests server = none
  listening : ∀ server, cluster.phases server = .primary →
    ∃ port ∈ portNumber (cluster.arguments server).port,
      port = 0 ∨ cluster.listeners port = some server
  /-- two servers with the role have a port for one of them only -/
  ports : ∀ left right, Granted cluster left → Granted cluster right →
    left ≠ right → ¬ AnyPort cluster left

omit [DecidableEq Id] in
theorem oneHolder_start (arguments : Id → Arguments) :
    OneHolder (Cluster.start arguments) where
  granted _ hgranted := hgranted.elim
  answered _ hanswered := hanswered.elim
  requests _ _ hrequest := by cases hrequest
  replied _ hreplied := absurd rfl hreplied
  listening _ hprimary := by cases hprimary
  ports _ _ hgranted := hgranted.elim

section Invariant

variable {cluster next : Cluster Id} {server : Id} {time : BitVec 64}

omit [DecidableEq Id] in
/-- Holders share an address, so a port, and only one process listens there. -/
theorem OneHolder.atMostOnePrimary (hholder : OneHolder cluster) :
    AtMostOnePrimary cluster := by
  intro left right hleft hright
  have hgranted (server : Id) (hprimary : cluster.phases server = .primary) :
      Granted cluster server := by
    rw [Granted, hprimary]
    trivial
  have haddress (server : Id) (hprimary : cluster.phases server = .primary) :
      cluster.address server = cluster.router.primaryServer :=
    (hholder.granted server (hgranted server hprimary)).2
  have hport : (cluster.arguments left).port = (cluster.arguments right).port :=
    port_eq_of_address_eq
      ((haddress left hleft).trans (haddress right hright).symm)
  by_contra hne
  have hbound := hholder.ports left right (hgranted left hleft)
    (hgranted right hright) hne
  obtain ⟨port, hleftPort, hleftListens⟩ := hholder.listening left hleft
  obtain ⟨rightPort, hrightPort, hrightListens⟩ :=
    hholder.listening right hright
  rw [← hport] at hrightPort
  cases Option.mem_unique hleftPort hrightPort
  have hnonzero : port ≠ 0 := by
    rintro rfl
    exact hbound hleftPort
  have hsame := (hleftListens.resolve_left hnonzero).symm.trans
    (hrightListens.resolve_left hnonzero)
  exact hne (Option.some.inj hsame)

omit [DecidableEq Id] in
theorem granted_congr {other : Id}
    (harguments : next.arguments = cluster.arguments)
    (hphase : next.phases other = cluster.phases other)
    (hreplies : next.replies other = cluster.replies other) :
    Granted next other ↔ Granted cluster other := by
  have haddress : next.address other = cluster.address other := by
    rw [Cluster.address, harguments, Cluster.address]
  rw [Granted, hphase, hreplies, Granted]
  simp only [Cluster.takesRole, haddress]

omit [DecidableEq Id] in
/-- A step of one server gives nobody else the role. -/
theorem granted_of_move {other : Id}
    (harguments : next.arguments = cluster.arguments)
    (hothers : ∀ other ≠ server, next.phases other = cluster.phases other ∧
      next.replies other = cluster.replies other ∧
      next.requests other = cluster.requests other)
    (hgranted : Granted next server → Granted cluster server)
    (hother : Granted next other) : Granted cluster other := by
  by_cases hself : other = server
  · rw [hself] at hother ⊢
    exact hgranted hother
  · obtain ⟨hphase, hreplies, _⟩ := hothers other hself
    exact (granted_congr harguments hphase hreplies).1 hother

/-- A step of one server that the router takes no part in, and that gives the
server no role it did not have. -/
theorem OneHolder.move (hholder : OneHolder cluster) (server : Id)
    (harguments : next.arguments = cluster.arguments)
    (hrouter : next.router = cluster.router)
    (hothers : ∀ other ≠ server, next.phases other = cluster.phases other ∧
      next.replies other = cluster.replies other ∧
      next.requests other = cluster.requests other)
    (hgranted : Granted next server → Granted cluster server)
    (hanswered : Answered (next.phases server) →
      cluster.router.hasPrimary = true)
    (hrequests : ∀ packet ∈ next.requests server,
      packet.payload = cluster.address server ∧
        (packet.cmd = .setPrimaryIfNotExists ∧
          ¬ Answered (next.phases server) ∨
        packet.cmd = .setPrimary ∧ cluster.router.hasPrimary = true))
    (hreplied : next.replies server ≠ [] →
      cluster.router.hasPrimary = true ∧ next.requests server = none)
    (hlistening : ∀ other, next.phases other = .primary →
      ∃ port ∈ portNumber (cluster.arguments other).port,
        port = 0 ∨ next.listeners port = some other) : OneHolder next where
  granted other hother := by
    have haddress : next.address other = cluster.address other := by
      rw [Cluster.address, harguments, Cluster.address]
    rw [hrouter, haddress]
    exact hholder.granted other (granted_of_move harguments hothers hgranted hother)
  ports left right hleft hright hne := by
    rw [AnyPort, harguments]
    exact hholder.ports left right (granted_of_move harguments hothers hgranted hleft)
      (granted_of_move harguments hothers hgranted hright) hne
  answered other hother := by
    rw [hrouter]
    by_cases hself : other = server
    · rw [hself] at hother
      exact hanswered hother
    · rw [(hothers other hself).1] at hother
      exact hholder.answered other hother
  requests other packet hpacket := by
    rw [hrouter, Cluster.address, harguments]
    by_cases hself : other = server
    · rw [hself] at hpacket ⊢
      exact hrequests packet hpacket
    · obtain ⟨hphase, _, hrequest⟩ := hothers other hself
      rw [hrequest] at hpacket
      rw [hphase]
      exact hholder.requests other packet hpacket
  replied other hother := by
    rw [hrouter]
    by_cases hself : other = server
    · rw [hself] at hother ⊢
      exact hreplied hother
    · obtain ⟨_, hreplies, hrequest⟩ := hothers other hself
      rw [hreplies] at hother
      rw [hrequest]
      exact hholder.replied other hother
  listening other hother := by
    rw [harguments]
    exact hlistening other hother

/-- The listening sockets stay, and no server enters the accept loop. -/
theorem OneHolder.keepListening (hholder : OneHolder cluster)
    {phase : Phase Id} (hphases : next.phases =
      Function.update cluster.phases server phase)
    (hphase : phase ≠ .primary) (hlisteners : ∀ port other, other ≠ server →
      cluster.listeners port = some other → next.listeners port = some other)
    (other : Id) (hprimary : next.phases other = .primary) :
    ∃ port ∈ portNumber (cluster.arguments other).port,
      port = 0 ∨ next.listeners port = some other := by
  rw [hphases] at hprimary
  have hother : other ≠ server := by
    rintro rfl
    rw [Function.update_self] at hprimary
    exact hphase hprimary
  rw [Function.update_of_ne hother] at hprimary
  obtain ⟨port, hport, hlistens⟩ := hholder.listening other hprimary
  exact ⟨port, hport, hlistens.imp_right (hlisteners port other hother)⟩

omit [DecidableEq Id] in
/-- Behind the answer to its registration a server asks for nothing but its
promotion. -/
theorem OneHolder.promotes (hholder : OneHolder cluster)
    (hanswered : Answered (cluster.phases server)) {packet : Packet}
    (hpacket : packet ∈ cluster.requests server) :
    packet.payload = cluster.address server ∧ packet.cmd = .setPrimary ∧
      cluster.router.hasPrimary = true := by
  obtain ⟨hpayload, hcmd⟩ := hholder.requests server packet hpacket
  exact ⟨hpayload, hcmd.resolve_left fun hregister => hregister.2 hanswered⟩

theorem OneHolder.exit (hholder : OneHolder cluster) (server : Id) :
    OneHolder (cluster.exit server) := by
  have hdown : (cluster.exit server).phases server = .down :=
    Function.update_self ..
  apply hholder.move server
  case harguments => rfl
  case hrouter => rfl
  case hothers =>
    intro other hother
    exact ⟨Function.update_of_ne hother .., Function.update_of_ne hother .., rfl⟩
  case hgranted =>
    intro hgranted
    rw [Granted, hdown] at hgranted
    exact hgranted.elim
  case hanswered =>
    intro hanswered
    rw [hdown] at hanswered
    exact hanswered.elim
  case hrequests =>
    intro packet hpacket
    obtain ⟨hpayload, hcmd⟩ := hholder.requests server packet hpacket
    rw [hdown]
    exact ⟨hpayload, hcmd.imp_left fun hregister => ⟨hregister.1, id⟩⟩
  case hreplied => exact fun hreplied => absurd (Function.update_self ..) hreplied
  case hlistening =>
    apply hholder.keepListening rfl (by simp)
    intro port other hother hlistens
    have hne : ¬ cluster.listeners port = some server := by
      rw [hlistens]
      exact fun heq => hother (Option.some.inj heq)
    exact (if_neg hne).trans hlistens

/-- A server goes on to a phase in which it has no role. -/
theorem OneHolder.goto (hholder : OneHolder cluster) {phase : Phase Id}
    (hgranted : Granted (cluster.goto server phase) server →
      Granted cluster server)
    (hanswered : Answered (cluster.phases server))
    (hphase : phase ≠ .primary) : OneHolder (cluster.goto server phase) := by
  apply hholder.move server
  case harguments => rfl
  case hrouter => rfl
  case hothers =>
    intro other hother
    exact ⟨Function.update_of_ne hother .., rfl, rfl⟩
  case hgranted => exact hgranted
  case hanswered => exact fun _ => hholder.answered server hanswered
  case hrequests =>
    intro packet hpacket
    obtain ⟨hpayload, hpromotes⟩ := hholder.promotes hanswered hpacket
    exact ⟨hpayload, .inr hpromotes⟩
  case hreplied => exact hholder.replied server
  case hlistening =>
    exact hholder.keepListening rfl hphase fun _ _ _ => id

/-- A server opens a connection to the router and asks for something. -/
theorem OneHolder.request (hholder : OneHolder cluster) {phase : Phase Id}
    {packet : Packet}
    (hphase : phase = .registering ∨ phase = .promoting)
    (hpayload : packet.payload = cluster.address server)
    (hcmd : packet.cmd = .setPrimaryIfNotExists ∧ ¬ Answered phase ∨
      packet.cmd = .setPrimary ∧ cluster.router.hasPrimary = true)
    (hanswered : Answered phase → cluster.router.hasPrimary = true) :
    OneHolder ((cluster.request server packet).goto server phase) := by
  have hself : ((cluster.request server packet).goto server phase).phases
      server = phase := Function.update_self ..
  have hempty : ((cluster.request server packet).goto server phase).replies
      server = [] := Function.update_self ..
  apply hholder.move server
  case harguments => rfl
  case hrouter => rfl
  case hothers =>
    intro other hother
    exact ⟨Function.update_of_ne hother .., Function.update_of_ne hother ..,
      Function.update_of_ne hother ..⟩
  case hgranted =>
    intro hgranted
    rw [Granted, hself, hempty] at hgranted
    rcases hphase with rfl | rfl
    · obtain ⟨_, hreply, _⟩ := hgranted
      cases hreply
    · exact absurd rfl hgranted
  case hanswered =>
    rw [hself]
    exact hanswered
  case hrequests =>
    intro sent hsent
    cases (Function.update_self ..).symm.trans hsent
    rw [hself]
    exact ⟨hpayload, hcmd⟩
  case hreplied => exact fun hreplied => absurd hempty hreplied
  case hlistening =>
    have hne : phase ≠ .primary := by
      rcases hphase with rfl | rfl <;> simp
    exact hholder.keepListening rfl hne fun _ _ _ => id

/-- A server acts on an answer of the router, and hangs up. -/
theorem OneHolder.hangUp (hholder : OneHolder cluster) {phase : Phase Id}
    (hreply : cluster.replies server ≠ [])
    (hgranted : Granted ((cluster.hangUp server).goto server phase) server →
      Granted cluster server) (hphase : phase ≠ .primary) :
    OneHolder ((cluster.hangUp server).goto server phase) := by
  obtain ⟨hasPrimary, hserved⟩ := hholder.replied server hreply
  apply hholder.move server
  case harguments => rfl
  case hrouter => rfl
  case hothers =>
    intro other hother
    exact ⟨Function.update_of_ne hother .., Function.update_of_ne hother .., rfl⟩
  case hgranted => exact hgranted
  case hanswered => exact fun _ => hasPrimary
  case hrequests =>
    intro packet hpacket
    cases hserved.symm.trans hpacket
  case hreplied => exact fun hreplied => absurd (Function.update_self ..) hreplied
  case hlistening =>
    exact hholder.keepListening rfl hphase fun _ _ _ => id

theorem OneHolder.takeAnswer (hholder : OneHolder cluster)
    (hphase : cluster.phases server = .registering) {reply : Packet}
    (hreply : (cluster.replies server).head? = some reply) :
    OneHolder (cluster.takeAnswer server reply) := by
  have hreplies : cluster.replies server ≠ [] := by
    intro hempty
    rw [hempty] at hreply
    cases hreply
  rw [Cluster.takeAnswer]
  by_cases htakes : cluster.takesRole server reply = true
  · rw [if_pos htakes]
    apply hholder.hangUp hreplies _ (by simp)
    intro _
    rw [Granted, hphase]
    exact ⟨reply, hreply, htakes⟩
  · rw [if_neg htakes]
    apply hholder.hangUp hreplies _ (by simp)
    intro hgranted
    rw [Granted, Cluster.goto_phases, Function.update_self] at hgranted
    exact hgranted.elim

theorem OneHolder.listen (hholder : OneHolder cluster)
    (hphase : cluster.phases server = .leading) (free : ℕ) :
    OneHolder (cluster.listen server free) := by
  rw [Cluster.listen]
  split
  · exact hholder.exit server
  next port hport =>
  split
  case isFalse hbusy => exact hholder.exit server
  case isTrue hfree =>
  have hanswered : Answered (cluster.phases server) := hphase ▸ trivial
  apply hholder.move server
  case harguments => rfl
  case hrouter => rfl
  case hothers =>
    intro other hother
    exact ⟨Function.update_of_ne hother .., rfl, rfl⟩
  case hgranted =>
    intro _
    rw [Granted, hphase]
    trivial
  case hanswered => exact fun _ => hholder.answered server hanswered
  case hrequests =>
    intro packet hpacket
    obtain ⟨hpayload, hpromotes⟩ := hholder.promotes hanswered hpacket
    exact ⟨hpayload, .inr hpromotes⟩
  case hreplied => exact hholder.replied server
  case hlistening =>
    intro other hother
    by_cases hself : other = server
    · subst hself
      refine ⟨port, hport, ?_⟩
      by_cases hzero : port = 0
      · exact .inl hzero
      · rw [boundPort, if_neg hzero]
        exact .inr (Function.update_self ..)
    · have hold : cluster.phases other = .primary :=
        (Function.update_of_ne hself ..).symm.trans hother
      obtain ⟨otherPort, hotherPort, hlistens⟩ := hholder.listening other hold
      refine ⟨otherPort, hotherPort, hlistens.imp_right fun hlistens => ?_⟩
      refine (Function.update_of_ne ?_ ..).trans hlistens
      rintro rfl
      rw [hfree.2] at hlistens
      cases hlistens

/-- A step of a server's own process. -/
theorem OneHolder.proceed (hholder : OneHolder cluster) {free : ℕ}
    (hstep : stepServer cluster server time free (cluster.phases server) =
      some next) : OneHolder next := by
  cases hphase : cluster.phases server with
  | idle =>
      rw [hphase] at hstep
      cases hstep
      apply hholder.request (.inl rfl) rfl (.inl ⟨rfl, id⟩)
      exact False.elim
  | registering =>
      simp only [hphase, stepServer, Option.map_eq_some_iff] at hstep
      obtain ⟨reply, hreply, rfl⟩ := hstep
      exact hholder.takeAnswer hphase hreply
  | attaching primaryAddress =>
      rw [hphase] at hstep
      cases hstep
      rw [Cluster.connect]
      split
      · next primary _ =>
          apply hholder.goto _ (hphase ▸ trivial) (by simp)
          intro hgranted
          rw [Granted, Cluster.goto_phases, Function.update_self] at hgranted
          exact hgranted.elim
      · exact hholder.exit server
  | following primary =>
      simp only [hphase, stepServer] at hstep
      split at hstep
      · cases hstep
        have hanswered := hholder.answered server (hphase ▸ trivial)
        apply hholder.request (.inr rfl) rfl (.inr ⟨rfl, hanswered⟩)
        exact fun _ => hanswered
      · cases hstep
  | promoting =>
      simp only [hphase, stepServer, Option.map_eq_some_iff] at hstep
      obtain ⟨reply, hreply, rfl⟩ := hstep
      have hreplies : cluster.replies server ≠ [] := by
        intro hempty
        rw [hempty] at hreply
        cases hreply
      apply hholder.hangUp hreplies _ (by simp)
      intro _
      rw [Granted, hphase]
      exact hreplies
  | leading =>
      rw [hphase] at hstep
      cases hstep
      exact hholder.listen hphase free
  | primary =>
      rw [hphase] at hstep
      cases hstep
  | down =>
      rw [hphase] at hstep
      cases hstep

/-- The router answers a server, and its register names whoever has the role
then. -/
theorem OneHolder.answer (hholder : OneHolder cluster) {packet : Packet}
    {router : Router} {answers : List Packet} {quit : Bool}
    (hanswer : cluster.router.fromClient packet time = (router, answers, quit))
    (hasPrimary : router.hasPrimary = true)
    (hself : Granted (cluster.route server packet time) server →
      cluster.address server = router.primaryServer)
    (hothers : ∀ other ≠ server, Granted cluster other →
      cluster.address other = router.primaryServer)
    (halone : ∀ other ≠ server, Granted cluster other →
      cluster.address other = cluster.address server → ¬ AnyPort cluster other) :
    OneHolder (cluster.route server packet time) := by
  have hrouter : (cluster.route server packet time).router = router := by
    rw [Cluster.route, hanswer]
  have hreplies (other : Id) (hother : other ≠ server) :
      (cluster.route server packet time).replies other =
        cluster.replies other := Function.update_of_ne hother ..
  have hrequests (other : Id) (hother : other ≠ server) :
      (cluster.route server packet time).requests other =
        cluster.requests other := Function.update_of_ne hother ..
  have hbefore (other : Id) (hother : other ≠ server)
      (hgranted : Granted (cluster.route server packet time) other) :
      Granted cluster other := by
    have harguments : (cluster.route server packet time).arguments =
        cluster.arguments := rfl
    exact (granted_congr harguments rfl (hreplies other hother)).1 hgranted
  constructor
  case granted =>
    intro other hgranted
    rw [hrouter]
    refine ⟨hasPrimary, ?_⟩
    by_cases hother : other = server
    · rw [hother] at hgranted ⊢
      exact hself hgranted
    · exact hothers other hother (hbefore other hother hgranted)
  case answered => exact fun _ _ => hrouter ▸ hasPrimary
  case requests =>
    intro other sent hsent
    by_cases hother : other = server
    · rw [hother] at hsent
      cases (Function.update_self ..).symm.trans hsent
    · rw [hrequests other hother] at hsent
      obtain ⟨hpayload, hcmd⟩ := hholder.requests other sent hsent
      rw [hrouter]
      exact ⟨hpayload, hcmd.imp_right fun htake => ⟨htake.1, hasPrimary⟩⟩
  case replied =>
    intro other hreplied
    rw [hrouter]
    refine ⟨hasPrimary, ?_⟩
    by_cases hother : other = server
    · rw [hother]
      exact Function.update_self ..
    · rw [hreplies other hother] at hreplied
      rw [hrequests other hother]
      exact (hholder.replied other hreplied).2
  case listening => exact hholder.listening
  case ports =>
    intro left right hleft hright hne
    change ¬ AnyPort cluster left
    by_cases hlast : left = server
    · subst hlast
      have hold := hbefore right (Ne.symm hne) hright
      have haddress := (hothers right (Ne.symm hne) hold).trans (hself hleft).symm
      have hport := halone right (Ne.symm hne) hold haddress
      rwa [AnyPort, ← port_eq_of_address_eq haddress]
    · have hold := hbefore left hlast hleft
      by_cases hother : right = server
      · subst hother
        exact halone left hne hold ((hothers left hne hold).trans (hself hright).symm)
      · exact hholder.ports left right hold (hbefore right hother hright) hne

/-- A registering server has the role when its answer is its own address. -/
theorem address_of_granted_route {packet : Packet}
    (hasPrimary : cluster.router.hasPrimary = true)
    (hcmd : packet.cmd = .setPrimaryIfNotExists)
    (hphase : ¬ Answered (cluster.phases server))
    (hempty : cluster.replies server = [])
    (hgranted : Granted (cluster.route server packet time) server) :
    cluster.address server = cluster.router.primaryServer := by
  have hreplies : (cluster.route server packet time).replies server =
      [new .setPrimary cluster.router.primaryServer [] time] := by
    have hself : (cluster.route server packet time).replies server =
        cluster.replies server ++ (cluster.router.fromClient packet time).2.1 :=
      Function.update_self ..
    rw [hself, hempty]
    simp only [Router.fromClient, hcmd, hasPrimary, if_true, List.nil_append]
  have hphases :
      (cluster.route server packet time).phases server =
        cluster.phases server := rfl
  rw [Granted, hphases, hreplies] at hgranted
  cases hcase : cluster.phases server with
  | registering =>
      rw [hcase] at hgranted
      obtain ⟨reply, hreply, htakes⟩ := hgranted
      cases hreply
      by_contra hne
      apply of_decide_eq_true htakes
      exact ⟨rfl, fun heq => hne heq.symm⟩
  | idle =>
      rw [hcase] at hgranted
      exact hgranted.elim
  | down =>
      rw [hcase] at hgranted
      exact hgranted.elim
  | _ =>
      rw [hcase] at hphase
      exact absurd trivial hphase

/-- A thread of the router handles what a server has sent. -/
theorem OneHolder.route (hholder : OneHolder cluster) {packet : Packet}
    (hrequest : packet ∈ cluster.requests server)
    (halone : ∀ other, Granted cluster other →
      (packet.cmd = .setPrimary →
        cluster.address other = cluster.address server) ∧
      (other ≠ server → cluster.address other = cluster.address server →
        ¬ AnyPort cluster other)) :
    OneHolder (cluster.route server packet time) := by
  have hports : ∀ other ≠ server, Granted cluster other →
      cluster.address other = cluster.address server → ¬ AnyPort cluster other :=
    fun other hother hgranted => (halone other hgranted).2 hother
  obtain ⟨hpayload, ⟨hcmd, hphase⟩ | ⟨hcmd, hasPrimary⟩⟩ :=
    hholder.requests server packet hrequest
  · by_cases hasPrimary : cluster.router.hasPrimary = true
    · have hanswer : cluster.router.fromClient packet time =
          (cluster.router,
            [new .setPrimary cluster.router.primaryServer [] time], false) := by
        simp only [Router.fromClient, hcmd, hasPrimary, if_true]
      have hempty : cluster.replies server = [] := by
        by_contra hreplied
        cases (hholder.replied server hreplied).2.symm.trans hrequest
      apply hholder.answer hanswer hasPrimary
      · exact address_of_granted_route hasPrimary hcmd hphase hempty
      · exact fun other _ hgranted => (hholder.granted other hgranted).2
      · exact hports
    · have hanswer : cluster.router.fromClient packet time =
          (⟨packet.payload, true⟩, [new .ok packet.payload [] time],
            false) := by
        simp only [Router.fromClient, hcmd, hasPrimary]
        rfl
      apply hholder.answer hanswer rfl
      · exact fun _ => hpayload.symm
      · intro other _ hgranted
        exact absurd (hholder.granted other hgranted).1 hasPrimary
      · exact hports
  · have hanswer : cluster.router.fromClient packet time =
        (cluster.router.setPrimary packet,
          [new .ok packet.payload [] time], false) := by
      simp only [Router.fromClient, hcmd]
      rfl
    apply hholder.answer hanswer hasPrimary
    · exact fun _ => hpayload.symm
    · intro other _ hgranted
      exact ((halone other hgranted).1 hcmd).trans hpayload.symm
    · exact hports

theorem OneHolder.step {label : Label Id} (hholder : OneHolder cluster)
    (halone : TakesOverAlone cluster label)
    (hstep : Roles.step cluster label = some next) : OneHolder next := by
  rw [Roles.step] at hstep
  split at hstep
  case h_1 => exact hholder.proceed hstep
  case h_2 haction =>
    obtain ⟨packet, hrequest, rfl⟩ := Option.map_eq_some_iff.1 hstep
    exact hholder.route hrequest (halone haction packet hrequest)
  case h_3 =>
    split at hstep
    · cases hstep
    · cases hstep
      exact hholder.exit label.server

end Invariant

/-! ## Runs -/

/-- Three servers on the ports 1, 2 and 3. -/
def threeServers (server : Fin 3) : Arguments where
  host := [104]
  port := [49 + UInt8.ofNat server.val]
  host_noColon := by decide

/-- The server registers and acts on the answer up to its next wait. -/
def registers (server : Fin 3) : List (Label (Fin 3)) :=
  [⟨server, 0, .proceed, 0⟩, ⟨server, 0, .route, 0⟩, ⟨server, 0, .proceed, 0⟩,
    ⟨server, 0, .proceed, 0⟩]

/-- The backup notices the end of its primary and takes over. -/
def takesOver (server : Fin 3) : List (Label (Fin 3)) :=
  [⟨server, 0, .proceed, 0⟩, ⟨server, 0, .route, 0⟩, ⟨server, 0, .proceed, 0⟩,
    ⟨server, 0, .proceed, 0⟩]

/-- A primary and its one backup, which takes over and gets a backup itself. -/
def successionRun : List (Label (Fin 3)) :=
  registers 0 ++ registers 1 ++ [⟨0, 0, .crash, 0⟩] ++ takesOver 1 ++ registers 2

/-- A primary and its two backups, which both take over. -/
def rivalryRun : List (Label (Fin 3)) :=
  registers 0 ++ registers 1 ++ registers 2 ++ [⟨0, 0, .crash, 0⟩] ++
    takesOver 1 ++ takesOver 2

end TwitterLike.Promotion
