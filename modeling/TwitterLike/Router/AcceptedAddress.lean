import TwitterLike.Router.Register

/-!
# The address the router has accepted last

What the clients of the router can expect of it, in terms of the packets alone:
once an address has been accepted, the router answers with the last one accepted
and registers no other.  `SET_PRIMARY` stores an address without raising
`hasPrimary`, so the order of the requests decides whether this is so.
-/

namespace TwitterLike.AcceptedAddress

open TwitterLike.ByteBuffer
open TwitterLike.PacketFormat
open TwitterLike.PacketCodec
open TwitterLike.Register
open TwitterLike.Transition

/-! ## Conversations -/

/-- A request and the answers to it. -/
structure Exchange where
  request : Packet
  answers : List Packet

/-- The address of a registration or a promotion that was answered `OK`. -/
def Exchange.accepted (exchange : Exchange) : Option ByteString :=
  if (exchange.request.cmd = .setPrimaryIfNotExists ∨
      exchange.request.cmd = .setPrimary) ∧
      ∃ answer ∈ exchange.answers, answer.cmd = .ok then
    some exchange.request.payload
  else none

/-- The most recently accepted address. -/
def lastAccepted (exchanges : List Exchange) : Option ByteString :=
  (exchanges.filterMap Exchange.accepted).getLast?

/-- The router and what it has been asked and answered. -/
structure Conversation where
  router : Router
  exchanges : List Exchange

def Conversation.start : Conversation where
  router := Router.initial
  exchanges := []

/-- The answers to a request. -/
def Conversation.answers (conversation : Conversation) (request : Request) :
    List Packet :=
  (conversation.router.fromClient request.packet.1 request.time).2.1

/-- One request, handled to its end. -/
def Conversation.step (conversation : Conversation) (request : Request) :
    Option Conversation :=
  some
    { router :=
        (conversation.router.fromClient request.packet.1 request.time).1
      exchanges := conversation.exchanges ++
        [⟨request.packet.1, conversation.answers request⟩] }

abbrev command (request : Request) : CmdType := request.packet.1.cmd

/-- If an address has been accepted, a registration is answered with the last
one and leaves it stored, and so is the question for the primary. -/
def AnswersLast (conversation : Conversation) (request : Request) : Prop :=
  ∀ address, lastAccepted conversation.exchanges = some address →
    (command request = .setPrimaryIfNotExists →
      conversation.answers request =
          [new .setPrimary address [] request.time] ∧
        ∀ next, conversation.step request = some next →
          next.router.primaryServer = address) ∧
    (command request = .getPrimary →
      conversation.answers request = [new .setPrimary address [] request.time])

/-- No promotion comes before the first registration, if there is one. -/
def RegistersFirst (requests : List Request) : Prop :=
  (∃ request ∈ requests, command request = .setPrimaryIfNotExists) →
    ∀ request ∈ requests.takeWhile
        (fun request => command request ≠ .setPrimaryIfNotExists),
      command request ≠ .setPrimary

/-! ## What one request does -/

section Step

variable {conversation : Conversation} {request : Request}

theorem lastAccepted_append (exchanges : List Exchange) (exchange : Exchange) :
    lastAccepted (exchanges ++ [exchange]) =
      exchange.accepted.or (lastAccepted exchanges) := by
  rw [lastAccepted, List.filterMap_append]
  cases haccepted : exchange.accepted with
  | none => simp [haccepted, lastAccepted]
  | some address => simp [haccepted]

/-- A registration that finds no primary is accepted. -/
theorem step_of_first (hcmd : command request = .setPrimaryIfNotExists)
    (hflag : conversation.router.hasPrimary = false) :
    ∃ next, conversation.step request = some next ∧
      next.router = ⟨request.packet.1.payload, true⟩ ∧
      lastAccepted next.exchanges = some request.packet.1.payload := by
  have hresult : conversation.router.fromClient request.packet.1 request.time =
      (⟨request.packet.1.payload, true⟩,
        [new .ok request.packet.1.payload [] request.time], false) := by
    simp [Router.fromClient, hcmd, hflag, Router.setPrimary]
  refine ⟨_, rfl, ?_, ?_⟩
  · rw [hresult]
  · rw [lastAccepted_append, Exchange.accepted, Conversation.answers, hresult,
      if_pos ⟨.inl hcmd, _, List.mem_cons_self, rfl⟩]
    rfl

/-- A promotion is always accepted, and leaves the flag alone. -/
theorem step_of_promotion (hcmd : command request = .setPrimary) :
    ∃ next, conversation.step request = some next ∧
      next.router =
        ⟨request.packet.1.payload, conversation.router.hasPrimary⟩ ∧
      lastAccepted next.exchanges = some request.packet.1.payload := by
  have hresult : conversation.router.fromClient request.packet.1 request.time =
      (⟨request.packet.1.payload, conversation.router.hasPrimary⟩,
        [new .ok request.packet.1.payload [] request.time], false) := by
    simp [Router.fromClient, hcmd, Router.setPrimary]
  refine ⟨_, rfl, ?_, ?_⟩
  · rw [hresult]
  · rw [lastAccepted_append, Exchange.accepted, Conversation.answers, hresult,
      if_pos ⟨.inr hcmd, _, List.mem_cons_self, rfl⟩]
    rfl

/-- Every other request leaves the router as it is, and no other answer is
`OK`. -/
theorem step_of_query (hpromotion : command request ≠ .setPrimary)
    (hfirst : command request = .setPrimaryIfNotExists →
      conversation.router.hasPrimary = true) :
    ∃ next, conversation.step request = some next ∧
      next.router = conversation.router ∧
      lastAccepted next.exchanges = lastAccepted conversation.exchanges ∧
      (command request = .setPrimaryIfNotExists ∨
          command request = .getPrimary →
        conversation.answers request =
          [new .setPrimary conversation.router.primaryServer [] request.time]) := by
  by_cases hcmd : command request = .setPrimaryIfNotExists
  · have hresult : conversation.router.fromClient request.packet.1 request.time =
        (conversation.router,
          [new .setPrimary conversation.router.primaryServer [] request.time],
          false) := by
      simp [Router.fromClient, hcmd, hfirst hcmd]
    refine ⟨_, rfl, by rw [hresult], ?_, fun _ => ?_⟩
    · rw [lastAccepted_append, Exchange.accepted, Conversation.answers, hresult,
        if_neg]
      · rfl
      · simp [new]
    · rw [Conversation.answers, hresult]
  · have hnone : (⟨request.packet.1, conversation.answers request⟩ :
        Exchange).accepted = none := by
      apply if_neg
      rintro ⟨hregister | hpromote, _⟩
      · exact hcmd hregister
      · exact hpromotion hpromote
    refine ⟨_, rfl, ?_, ?_, ?_⟩
    · unfold Router.fromClient
      split
      · next heq => exact absurd heq hcmd
      · next heq => exact absurd heq hpromotion
      · rfl
      · rfl
      · rfl
    · rw [lastAccepted_append, hnone]
      rfl
    · rintro (hregister | hget)
      · exact absurd hregister hcmd
      · simp [Conversation.answers, Router.fromClient, hget]

end Step

/-! ## Runs -/

/-- The router has accepted an address and stores it. -/
def Stores (conversation : Conversation) : Prop :=
  lastAccepted conversation.exchanges = some conversation.router.primaryServer

section Runs

variable {conversation : Conversation} {request : Request}
  {requests : List Request}

theorem each_cons_iff {next : Conversation}
    (hstep : conversation.step request = some next) :
    Each Conversation.step AnswersLast conversation (request :: requests) ↔
      AnswersLast conversation request ∧
        Each Conversation.step AnswersLast next requests := by
  rw [Each, hstep]
  simp

theorem answersLast_of_promotion (hcmd : command request = .setPrimary) :
    AnswersLast conversation request := by
  intro _ _
  constructor
  · intro hregister
    cases hcmd.symm.trans hregister
  · intro hget
    cases hcmd.symm.trans hget

/-- Before the first acceptance nothing is promised. -/
theorem answersLast_of_none (hnone : lastAccepted conversation.exchanges = none) :
    AnswersLast conversation request := by
  intro address haddress
  cases hnone.symm.trans haddress

theorem answersLast_of_query (hstores : Stores conversation)
    (hpromotion : command request ≠ .setPrimary)
    (hfirst : command request = .setPrimaryIfNotExists →
      conversation.router.hasPrimary = true) :
    AnswersLast conversation request := by
  obtain ⟨next, hstep, hrouter, _, hanswers⟩ :=
    step_of_query hpromotion hfirst
  intro address haddress
  cases hstores.symm.trans haddress
  refine ⟨fun hregister => ⟨hanswers (.inl hregister), ?_⟩,
    fun hget => hanswers (.inr hget)⟩
  intro other hother
  cases hstep.symm.trans hother
  rw [hrouter]

/-- A registration that is accepted behind a promotion breaks the promise. -/
theorem not_answersLast_of_first (hstores : Stores conversation)
    (hcmd : command request = .setPrimaryIfNotExists)
    (hflag : conversation.router.hasPrimary = false) :
    ¬ AnswersLast conversation request := by
  intro hanswers
  have hanswer := ((hanswers _ hstores).1 hcmd).1
  simp [Conversation.answers, Router.fromClient, hcmd, hflag, new] at hanswer

/-- A promotion is promised nothing, and behind it the router stores what it has
accepted. -/
theorem each_of_promotion (hcmd : command request = .setPrimary)
    (requests : List Request) :
    ∃ next : Conversation,
      next.router.hasPrimary = conversation.router.hasPrimary ∧ Stores next ∧
      (Each Conversation.step AnswersLast conversation (request :: requests) ↔
        Each Conversation.step AnswersLast next requests) := by
  obtain ⟨next, hstep, hrouter, haccepted⟩ :=
    @step_of_promotion conversation request hcmd
  refine ⟨next, by rw [hrouter], by rw [Stores, haccepted, hrouter], ?_⟩
  rw [each_cons_iff hstep, and_iff_right (answersLast_of_promotion hcmd)]

/-- A request that accepts nothing and is answered as promised. -/
theorem each_of_query (hpromotion : command request ≠ .setPrimary)
    (hfirst : command request = .setPrimaryIfNotExists →
      conversation.router.hasPrimary = true)
    (hanswers : AnswersLast conversation request) (requests : List Request) :
    ∃ next : Conversation, next.router = conversation.router ∧
      lastAccepted next.exchanges = lastAccepted conversation.exchanges ∧
      (Each Conversation.step AnswersLast conversation (request :: requests) ↔
        Each Conversation.step AnswersLast next requests) := by
  obtain ⟨next, hstep, hrouter, haccepted, _⟩ := step_of_query hpromotion hfirst
  refine ⟨next, hrouter, haccepted, ?_⟩
  rw [each_cons_iff hstep, and_iff_right hanswers]

theorem Stores.of_same {next : Conversation} (hstores : Stores conversation)
    (hrouter : next.router = conversation.router)
    (haccepted : lastAccepted next.exchanges =
      lastAccepted conversation.exchanges) : Stores next := by
  rw [Stores, haccepted, hrouter]
  exact hstores

/-- From its first registration on, the router answers with the last address. -/
theorem each_of_registered (requests : List Request)
    (hflag : conversation.router.hasPrimary = true)
    (hstores : Stores conversation) :
    Each Conversation.step AnswersLast conversation requests := by
  induction requests generalizing conversation with
  | nil => trivial
  | cons request requests ih =>
      by_cases hcmd : command request = .setPrimary
      · obtain ⟨next, hsame, hstores', heach⟩ :=
          @each_of_promotion conversation request hcmd requests
        exact heach.2 (ih (hsame.trans hflag) hstores')
      · have hanswers := answersLast_of_query hstores hcmd fun _ => hflag
        obtain ⟨next, hrouter, haccepted, heach⟩ :=
          each_of_query hcmd (fun _ => hflag) hanswers requests
        exact heach.2 (ih (hrouter ▸ hflag) (hstores.of_same hrouter haccepted))

/-- Between a promotion and the first registration, the next registration breaks
the promise. -/
theorem each_of_promoted (requests : List Request)
    (hflag : conversation.router.hasPrimary = false)
    (hstores : Stores conversation) :
    Each Conversation.step AnswersLast conversation requests ↔
      ∀ request ∈ requests, command request ≠ .setPrimaryIfNotExists := by
  induction requests generalizing conversation with
  | nil => exact iff_of_true trivial nofun
  | cons request requests ih =>
      rw [List.forall_mem_cons]
      by_cases hregister : command request = .setPrimaryIfNotExists
      · apply iff_of_false
        · exact fun heach => not_answersLast_of_first hstores hregister hflag heach.1
        · exact fun hnone => hnone.1 hregister
      rw [and_iff_right hregister]
      by_cases hcmd : command request = .setPrimary
      · obtain ⟨next, hsame, hstores', heach⟩ :=
          @each_of_promotion conversation request hcmd requests
        exact heach.trans (ih (hsame.trans hflag) hstores')
      · have hfirst : command request = .setPrimaryIfNotExists →
            conversation.router.hasPrimary = true :=
          fun hfirst => absurd hfirst hregister
        obtain ⟨next, hrouter, haccepted, heach⟩ := each_of_query hcmd hfirst
          (answersLast_of_query hstores hcmd hfirst) requests
        exact heach.trans
          (ih (hrouter ▸ hflag) (hstores.of_same hrouter haccepted))

/-- Before anything has been accepted. -/
theorem each_of_fresh (requests : List Request)
    (hflag : conversation.router.hasPrimary = false)
    (hnone : lastAccepted conversation.exchanges = none) :
    Each Conversation.step AnswersLast conversation requests ↔
      RegistersFirst requests := by
  induction requests generalizing conversation with
  | nil => exact iff_of_true trivial (by simp [RegistersFirst])
  | cons request requests ih =>
      by_cases hregister : command request = .setPrimaryIfNotExists
      · obtain ⟨next, hstep, hrouter, haccepted⟩ :=
          @step_of_first conversation request hregister hflag
        apply iff_of_true
        · refine (each_cons_iff hstep).2
            ⟨answersLast_of_none hnone, each_of_registered requests ?_ ?_⟩
          · rw [hrouter]
          · rw [Stores, haccepted, hrouter]
        · simp [RegistersFirst, hregister]
      by_cases hcmd : command request = .setPrimary
      · obtain ⟨next, hsame, hstores, heach⟩ :=
          @each_of_promotion conversation request hcmd requests
        rw [heach, each_of_promoted requests (hsame.trans hflag) hstores]
        simp [RegistersFirst, hcmd]
      · obtain ⟨next, hrouter, haccepted, heach⟩ := @each_of_query conversation
          request hcmd (fun hfirst => absurd hfirst hregister)
          (answersLast_of_none hnone) requests
        rw [heach, ih (hrouter ▸ hflag) (haccepted.trans hnone)]
        simp [RegistersFirst, hregister, hcmd]

/-- In a sequence of requests to a fresh router, every registration and every
question behind an accepted address is answered with the last one accepted, and
no registration replaces it, exactly when no promotion comes before the first
registration. -/
theorem answersLast_iff (requests : List Request) :
    Each Conversation.step AnswersLast Conversation.start requests ↔
      RegistersFirst requests :=
  each_of_fresh requests rfl rfl

end Runs

/-- A backup takes over at a restarted router, and another server registers. -/
def restartedRun : List Request :=
  [⟨⟨new .setPrimary [98, 58, 50] [] 0, (decodable_iff _).2 (by decide)⟩, 0⟩,
    ⟨⟨new .setPrimaryIfNotExists [97, 58, 49] [] 0,
      (decodable_iff _).2 (by decide)⟩, 0⟩]

/-- The second address is registered, though the first had been accepted. -/
theorem restartedRun_not_answersLast :
    ¬ ∀ requests,
      Each Conversation.step AnswersLast Conversation.start requests := by
  intro hanswers
  have hpromotion := (hanswers restartedRun).2 _ rfl
  have haddress := (hpromotion.1 [98, 58, 50] rfl).1 rfl
  exact absurd haddress.1 (by decide)

end TwitterLike.AcceptedAddress
