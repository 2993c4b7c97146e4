import TwitterLike.Router.HandlerThreads

/-!
# One winner of concurrent registrations

As long as nobody sends `SET_PRIMARY`, the router goes through four phases: no
registration assigned, the first one assigned, answered, and the flag raised.
The thread of the first registration holds `m` from the test of the flag to its
raising, so no other thread tests the flag in between.
-/

namespace TwitterLike.SingleWinner

open TwitterLike.ByteBuffer
open TwitterLike.PacketFormat
open TwitterLike.Register
open TwitterLike.HandlerThreads
open TwitterLike.Transition

/-- The request of a server for its own, non-empty address. -/
def Registration (packet : Packet) : Prop :=
  packet.cmd = .setPrimaryIfNotExists ∧ packet.payload ≠ []

variable {Thread : Type}

/-- No thread receives a promotion, or a registration of nothing. -/
def Considered (label : Label Thread) : Prop :=
  ∀ packet, label.action = .receive packet →
    packet.cmd ≠ .setPrimary ∧
      (packet.cmd = .setPrimaryIfNotExists → packet.payload ≠ [])

instance (label : Label Thread) : Decidable (Considered label) :=
  match haction : label.action with
  | .receive packet =>
      decidable_of_iff (packet.cmd ≠ .setPrimary ∧
        (packet.cmd = .setPrimaryIfNotExists → packet.payload ≠ []))
        (by simp [Considered, haction])
  | .proceed => isTrue fun _ hreceive => by cases haction.symm.trans hreceive

/-- The reply tells a server that it is the primary. -/
def Confirms (reply : Reply Thread) : Prop :=
  reply.request.cmd = .setPrimaryIfNotExists ∧ reply.answer.cmd = .ok

instance (reply : Reply Thread) : Decidable (Confirms reply) :=
  inferInstanceAs (Decidable (_ ∧ _))

/-! ## Phases -/

inductive Phase (Thread : Type) where
  | unassigned
  | assigned (thread : Thread) (packet : Packet)
  | confirmed (thread : Thread) (packet : Packet)
  | flagged (thread : Thread) (packet : Packet)

namespace Phase

/-- The thread and the packet of the registration that was assigned. -/
def winner : Phase Thread → Option (Thread × Packet)
  | unassigned => none
  | assigned thread packet | confirmed thread packet | flagged thread packet =>
      some (thread, packet)

/-- The thread that is between the test and the flag. -/
def owner : Phase Thread → Option Thread
  | assigned thread _ | confirmed thread _ => some thread
  | unassigned | flagged _ _ => none

def router : Phase Thread → Router
  | unassigned => Router.initial
  | assigned _ packet | confirmed _ packet => ⟨packet.payload, false⟩
  | flagged _ packet => ⟨packet.payload, true⟩

/-- The number of registrations answered `OK`. -/
def confirmations : Phase Thread → ℕ
  | unassigned | assigned _ _ => 0
  | confirmed _ _ | flagged _ _ => 1

variable (phase : Phase Thread)

/-- What a read of `primaryServer` may have given: nothing before the assignment,
the address of the winner behind it. -/
def Seen (address : ByteString) (assignments : ℕ) : Prop :=
  (assignments = 0 ∧ address = []) ∨
    ∃ thread packet, phase.winner = some (thread, packet) ∧
      assignments = 1 ∧ address = packet.payload

/-- Where a thread can be. -/
def Fits (thread : Thread) : Point → Prop
  | .receiving | .ended => True
  | .locking packet => Registration packet
  | .testing packet => Registration packet ∧ phase.owner = none
  | .assigning packet => Registration packet ∧ phase = unassigned
  | .confirming packet => Registration packet ∧ phase = assigned thread packet
  | .flagging => ∃ packet, phase = confirmed thread packet
  | .refusing packet =>
      Registration packet ∧ ∃ winner registered, phase = flagged winner registered
  | .unlocking => ∃ winner registered, phase = flagged winner registered
  | .promoting _ | .promoted _ => False
  | .reading packet => packet.cmd = .getPrimary
  | .answering packet address assignments =>
      packet.cmd = .getPrimary ∧ phase.Seen address assignments

/-- The answer to a registration: `OK` for the winner, its address for the
others. -/
def AnswersRegistration (reply : Reply Thread) : Prop :=
  phase.confirmations = 1 ∧
    ∃ thread packet, phase.winner = some (thread, packet) ∧
      reply.answer.payload = packet.payload ∧
      (reply.answer.cmd = .ok ∧ reply.thread = thread ∧ reply.request = packet ∨
        reply.answer.cmd = .setPrimary)

def ReplyFits (reply : Reply Thread) : Prop :=
  (reply.request.cmd = .setPrimaryIfNotExists ∧ phase.AnswersRegistration reply) ∨
    (reply.request.cmd = .getPrimary ∧
      phase.Seen reply.answer.payload reply.assignments)

end Phase

/-- The thread has locked `m`. -/
def Critical : Point → Prop
  | .testing _ | .assigning _ | .confirming _ | .flagging | .refusing _
  | .unlocking => True
  | _ => False

/-! ## The invariant -/

structure At (phase : Phase Thread) (system : System Thread) : Prop where
  holder : ∀ thread, Critical (system.threads thread) →
    system.holder = some thread
  owner : ∀ thread, phase.owner = some thread → system.holder = some thread
  points : ∀ thread, phase.Fits thread (system.threads thread)
  router : system.router = phase.router
  assignments : system.assignments = phase.winner.toList
  registered : ∀ thread packet, phase.winner = some (thread, packet) →
    Registration packet
  replies : ∀ reply ∈ system.replies, phase.ReplyFits reply
  confirmations : (system.replies.filter (Confirms ·)).length =
    phase.confirmations

theorem at_start : At .unassigned (System.start : System Thread) where
  holder _ := False.elim
  owner _ := nofun
  points _ := trivial
  router := rfl
  assignments := rfl
  registered _ _ := nofun
  replies _ := nofun
  confirmations := rfl

section Step

variable [DecidableEq Thread] {system next : System Thread}
  {phase : Phase Thread} {thread : Thread} {point : Point} {packet : Packet}

theorem forall_goto {Holds : Thread → Point → Prop}
    (hothers : ∀ other, other ≠ thread → Holds other (system.threads other))
    (hself : Holds thread point) (other : Thread) :
    Holds other ((system.goto thread point).threads other) := by
  rw [System.goto_threads, Function.update_apply]
  split
  · next heq => exact heq ▸ hself
  · next hne => exact hothers other hne

/-- A thread moves on without touching the globals. -/
theorem At.move (hat : At phase system)
    (hcritical : Critical point → system.holder = some thread)
    (hfits : phase.Fits thread point) : At phase (system.goto thread point) where
  holder := @forall_goto _ _ system _ _
    (fun other point => Critical point → system.holder = some other)
    (fun other _ => hat.holder other) hcritical
  owner := hat.owner
  points := @forall_goto _ _ system _ _ phase.Fits
    (fun other _ => hat.points other) hfits
  router := hat.router
  assignments := hat.assignments
  registered := hat.registered
  replies := hat.replies
  confirmations := hat.confirmations

omit [DecidableEq Thread] in
/-- The threads that have not locked `m` fit in every later phase. -/
theorem fits_of_not_critical {later : Phase Thread}
    (hcritical : ¬ Critical point) (hfits : phase.Fits thread point)
    (hseen : ∀ address assignments, phase.Seen address assignments →
      later.Seen address assignments) : later.Fits thread point := by
  cases point with
  | receiving | ended | locking | promoting | promoted | reading => exact hfits
  | answering packet address assignments =>
      exact ⟨hfits.1, hseen address assignments hfits.2⟩
  | testing | assigning | confirming | flagging | refusing | unlocking =>
      exact absurd trivial hcritical

/-- The thread that has locked `m` takes the router to the next phase. -/
theorem At.change (hat : At phase system) (changed : System Thread)
    (later : Phase Thread) (hlocked : Critical (system.threads thread))
    (hthreads : changed.threads = system.threads)
    (hholder : changed.holder = system.holder)
    (hseen : ∀ address assignments, phase.Seen address assignments →
      later.Seen address assignments)
    (hfits : later.Fits thread point)
    (howner : ∀ other, later.owner = some other → other = thread)
    (hrouter : changed.router = later.router)
    (hassignments : changed.assignments = later.winner.toList)
    (hregistered : ∀ winner registered,
      later.winner = some (winner, registered) → Registration registered)
    (hreplies : ∀ reply ∈ changed.replies, later.ReplyFits reply)
    (hconfirmations : (changed.replies.filter (Confirms ·)).length =
      later.confirmations) : At later (changed.goto thread point) := by
  have hself : changed.holder = some thread :=
    hholder.trans (hat.holder thread hlocked)
  constructor
  case holder =>
    apply @forall_goto _ _ changed _ _
      (fun other point => Critical point → changed.holder = some other)
    · intro other _ hcritical
      rw [hthreads] at hcritical
      exact hholder.trans (hat.holder other hcritical)
    · exact fun _ => hself
  case owner =>
    intro other hother
    rw [howner other hother]
    exact hself
  case points =>
    apply @forall_goto _ _ changed _ _ later.Fits _ hfits
    intro other hne
    rw [hthreads]
    apply fits_of_not_critical _ (hat.points other) hseen
    intro hcritical
    have hother := hat.holder other hcritical
    rw [hat.holder thread hlocked] at hother
    exact hne (Option.some.inj hother).symm
  case router => exact hrouter
  case assignments => exact hassignments
  case registered => exact hregistered
  case replies => exact hreplies
  case confirmations => exact hconfirmations

omit [DecidableEq Thread] in
theorem Phase.ReplyFits.later {reply : Reply Thread}
    (hfits : phase.ReplyFits reply) (later : Phase Thread)
    (hseen : ∀ address assignments, phase.Seen address assignments →
      later.Seen address assignments)
    (hanswers : phase.AnswersRegistration reply →
      later.AnswersRegistration reply) : later.ReplyFits reply :=
  hfits.imp (fun hregister => ⟨hregister.1, hanswers hregister.2⟩)
    fun hget => ⟨hget.1, hseen _ _ hget.2⟩

/-! ### The steps of a registration -/

theorem At.lock (hat : At phase system)
    (hpoint : system.threads thread = .locking packet)
    (hfree : system.holder = none) :
    At phase ((system.setHolder (some thread)).goto thread (.testing packet)) := by
  have hnobody (other : Thread) : system.holder ≠ some other := by
    rw [hfree]
    exact nofun
  have hfits := hat.points thread
  rw [hpoint] at hfits
  have howner : phase.owner = none := by
    rw [Option.eq_none_iff_forall_ne_some]
    exact fun other hother => hnobody other (hat.owner other hother)
  constructor
  case holder =>
    apply @forall_goto _ _ (system.setHolder (some thread)) _ _
      (fun other point => Critical point → some thread = some other)
    · exact fun other _ hcritical =>
        absurd (hat.holder other hcritical) (hnobody other)
    · exact fun _ => rfl
  case owner =>
    intro other hother
    cases howner.symm.trans hother
  case points =>
    exact @forall_goto _ _ (system.setHolder (some thread)) _ _ phase.Fits
      (fun other _ => hat.points other) ⟨hfits, howner⟩
  case router => exact hat.router
  case assignments => exact hat.assignments
  case registered => exact hat.registered
  case replies => exact hat.replies
  case confirmations => exact hat.confirmations

theorem At.test (hat : At phase system)
    (hpoint : system.threads thread = .testing packet) :
    At phase (system.goto thread
      (if system.router.hasPrimary then .refusing packet
        else .assigning packet)) := by
  have hholder := hat.holder thread (by rw [hpoint]; trivial)
  have hfits := hat.points thread
  rw [hpoint] at hfits
  obtain ⟨hregistration, howner⟩ := hfits
  apply hat.move (fun _ => hholder)
  rw [hat.router]
  cases phase with
  | unassigned => exact ⟨hregistration, rfl⟩
  | flagged winner registered => exact ⟨hregistration, winner, registered, rfl⟩
  | assigned | confirmed => cases howner

theorem At.assign (hat : At phase system)
    (hpoint : system.threads thread = .assigning packet) :
    At (.assigned thread packet)
      ((system.assign thread packet).goto thread (.confirming packet)) := by
  have hfits := hat.points thread
  rw [hpoint] at hfits
  obtain ⟨hregistration, rfl⟩ := hfits
  have hseen (address : ByteString) (assignments : ℕ)
      (hbefore : (Phase.unassigned : Phase Thread).Seen address assignments) :
      (Phase.assigned thread packet).Seen address assignments := by
    rcases hbefore with hnothing | ⟨_, _, hwinner, _⟩
    · exact .inl hnothing
    · cases hwinner
  apply hat.change (system.assign thread packet) (.assigned thread packet)
    (by rw [hpoint]; trivial) rfl rfl hseen
  case hfits => exact ⟨hregistration, rfl⟩
  case howner => exact fun other hother => (Option.some.inj hother).symm
  case hrouter =>
    rw [System.assign_router, hat.router]
    rfl
  case hassignments =>
    rw [System.assign_assignments, hat.assignments]
    rfl
  case hregistered =>
    intro winner registered hwinner
    cases hwinner
    exact hregistration
  case hreplies =>
    intro reply hreply
    apply (hat.replies reply hreply).later _ hseen
    rintro ⟨hnone, _⟩
    cases hnone
  case hconfirmations => exact hat.confirmations

/-- The winner is told so with its own address. -/
theorem At.confirm (hat : At phase system) (time : BitVec 64)
    (hpoint : system.threads thread = .confirming packet) :
    At (.confirmed thread packet)
      ((system.reply thread packet .ok system.router.primaryServer time
        system.assignments.length).goto thread .flagging) := by
  have hfits := hat.points thread
  rw [hpoint] at hfits
  obtain ⟨hregistration, rfl⟩ := hfits
  apply hat.change (system.reply thread packet .ok system.router.primaryServer
    time system.assignments.length) (.confirmed thread packet)
    (by rw [hpoint]; trivial) rfl rfl (fun _ _ => id)
  case hfits => exact ⟨packet, rfl⟩
  case howner => exact fun other hother => (Option.some.inj hother).symm
  case hrouter => exact hat.router
  case hassignments => exact hat.assignments
  case hregistered => exact hat.registered
  case hreplies =>
    intro reply hreply
    rcases List.mem_append.1 hreply with hbefore | hnew
    · apply (hat.replies reply hbefore).later (.confirmed thread packet)
        fun _ _ => id
      rintro ⟨hnone, _⟩
      cases hnone
    · cases List.mem_singleton.1 hnew
      refine .inl ⟨hregistration.1, rfl, thread, packet, rfl, ?_, .inl ?_⟩
      · exact congrArg Router.primaryServer hat.router
      · exact ⟨rfl, rfl, rfl⟩
  case hconfirmations =>
    have hconfirms : Confirms (⟨thread, packet, new .ok
        system.router.primaryServer [] time, system.assignments.length⟩ :
        Reply Thread) := ⟨hregistration.1, rfl⟩
    rw [System.reply_replies, List.filter_append, List.length_append,
      hat.confirmations, List.filter_singleton, decide_eq_true hconfirms]
    rfl

theorem At.flag (hat : At phase system)
    (hpoint : system.threads thread = .flagging) :
    ∃ packet, At (.flagged thread packet)
      ((system.setRouter { system.router with hasPrimary := true }).goto thread
        .unlocking) := by
  have hfits := hat.points thread
  rw [hpoint] at hfits
  obtain ⟨packet, rfl⟩ := hfits
  refine ⟨packet, ?_⟩
  apply hat.change (system.setRouter { system.router with hasPrimary := true })
    (.flagged thread packet) (by rw [hpoint]; trivial) rfl rfl (fun _ _ => id)
  case hfits => exact ⟨thread, packet, rfl⟩
  case howner => exact fun other hother => nomatch hother
  case hrouter =>
    rw [System.setRouter_router, hat.router]
    rfl
  case hassignments => exact hat.assignments
  case hregistered => exact hat.registered
  case hreplies =>
    exact fun reply hreply =>
      (hat.replies reply hreply).later _ (fun _ _ => id) id
  case hconfirmations => exact hat.confirmations

/-! ### Replies that change no phase -/

omit [DecidableEq Thread] in
theorem At.reply (hat : At phase system) {address : ByteString}
    {time : BitVec 64} {assignments : ℕ}
    (hfits : phase.ReplyFits
      ⟨thread, packet, new .setPrimary address [] time, assignments⟩) :
    At phase (system.reply thread packet .setPrimary address time
      assignments) where
  holder := hat.holder
  owner := hat.owner
  points := hat.points
  router := hat.router
  assignments := hat.assignments
  registered := hat.registered
  replies reply hreply := by
    rcases List.mem_append.1 hreply with hbefore | hnew
    · exact hat.replies reply hbefore
    · cases List.mem_singleton.1 hnew
      exact hfits
  confirmations := by
    have hconfirms : ¬ Confirms (⟨thread, packet, new .setPrimary address []
        time, assignments⟩ : Reply Thread) := fun hconfirms => nomatch hconfirms.2
    rw [System.reply_replies, List.filter_append, List.length_append,
      hat.confirmations, List.filter_singleton, decide_eq_false hconfirms]
    rfl

/-- Who finds the flag raised gets the address of the winner. -/
theorem At.refuse (hat : At phase system) (time : BitVec 64)
    (hpoint : system.threads thread = .refusing packet) :
    At phase ((system.reply thread packet .setPrimary
      system.router.primaryServer time system.assignments.length).goto thread
        .unlocking) := by
  have hholder := hat.holder thread (by rw [hpoint]; trivial)
  have hfits := hat.points thread
  rw [hpoint] at hfits
  obtain ⟨hregistration, winner, registered, rfl⟩ := hfits
  have hreplied : At (.flagged winner registered) (system.reply thread packet
      .setPrimary system.router.primaryServer time
      system.assignments.length) := by
    apply hat.reply
    refine .inl ⟨hregistration.1, rfl, winner, registered, rfl, ?_, .inr rfl⟩
    exact congrArg Router.primaryServer hat.router
  exact hreplied.move (fun _ => hholder) ⟨winner, registered, rfl⟩

theorem At.unlock (hat : At phase system)
    (hpoint : system.threads thread = .unlocking) :
    At phase ((system.setHolder none).goto thread .receiving) := by
  have hholder := hat.holder thread (by rw [hpoint]; trivial)
  have hfits := hat.points thread
  rw [hpoint] at hfits
  obtain ⟨winner, registered, rfl⟩ := hfits
  constructor
  case holder =>
    apply @forall_goto _ _ (system.setHolder none) _ _
      (fun other point => Critical point → none = some other)
    · intro other hne hcritical
      have hother := hat.holder other hcritical
      rw [hholder] at hother
      exact absurd (Option.some.inj hother).symm hne
    · exact False.elim
  case owner => exact fun _ => nofun
  case points =>
    exact @forall_goto _ _ (system.setHolder none) _ _ (Phase.Fits _)
      (fun other _ => hat.points other) trivial
  case router => exact hat.router
  case assignments => exact hat.assignments
  case registered => exact hat.registered
  case replies => exact hat.replies
  case confirmations => exact hat.confirmations

/-! ### The steps of the other requests -/

omit [DecidableEq Thread] in
theorem fits_dispatch (hpromotion : packet.cmd ≠ .setPrimary)
    (haddress : packet.cmd = .setPrimaryIfNotExists → packet.payload ≠ []) :
    ¬ Critical (dispatch packet) ∧ phase.Fits thread (dispatch packet) := by
  unfold dispatch
  split
  · next hcmd => exact ⟨id, hcmd, haddress hcmd⟩
  · next hcmd => exact absurd hcmd hpromotion
  · next hcmd => exact ⟨id, hcmd⟩
  · exact ⟨id, trivial⟩
  · exact ⟨id, trivial⟩

omit [DecidableEq Thread] in
/-- A read gives nothing before the assignment and the winner's address behind
it. -/
theorem At.seen (hat : At phase system) :
    phase.Seen system.router.primaryServer system.assignments.length := by
  rw [hat.router, hat.assignments]
  cases phase with
  | unassigned => exact .inl ⟨rfl, rfl⟩
  | assigned winner registered | confirmed winner registered
  | flagged winner registered =>
      exact .inr ⟨winner, registered, rfl, rfl, rfl⟩

theorem At.proceed (hat : At phase system) {time : BitVec 64}
    (hstep : HandlerThreads.proceed system thread time (system.threads thread) =
      some next) : ∃ phase, At phase next := by
  have hfits := hat.points thread
  cases hpoint : system.threads thread with
  | receiving | ended =>
      rw [hpoint] at hstep
      cases hstep
  | promoting packet | promoted packet =>
      rw [hpoint] at hfits
      exact hfits.elim
  | locking packet =>
      rw [hpoint] at hstep
      obtain ⟨hfree, hnext⟩ := Option.ite_none_right_eq_some.1 hstep
      cases hnext
      exact ⟨phase, hat.lock hpoint hfree⟩
  | testing packet =>
      have htested := hat.test hpoint
      rw [hpoint, HandlerThreads.proceed, ← apply_ite some] at hstep
      cases hstep
      refine ⟨phase, ?_⟩
      split
      · next hflag => rwa [if_pos hflag] at htested
      · next hflag => rwa [if_neg hflag] at htested
  | assigning packet =>
      rw [hpoint] at hstep
      cases hstep
      exact ⟨_, hat.assign hpoint⟩
  | confirming packet =>
      rw [hpoint] at hstep
      cases hstep
      exact ⟨_, hat.confirm time hpoint⟩
  | flagging =>
      rw [hpoint] at hstep
      cases hstep
      obtain ⟨packet, hflagged⟩ := hat.flag hpoint
      exact ⟨_, hflagged⟩
  | refusing packet =>
      rw [hpoint] at hstep
      cases hstep
      exact ⟨phase, hat.refuse time hpoint⟩
  | unlocking =>
      rw [hpoint] at hstep
      cases hstep
      exact ⟨phase, hat.unlock hpoint⟩
  | reading packet =>
      rw [hpoint] at hstep hfits
      cases hstep
      exact ⟨phase, hat.move False.elim ⟨hfits, hat.seen⟩⟩
  | answering packet address assignments =>
      rw [hpoint] at hstep hfits
      cases hstep
      exact ⟨phase, At.move (hat.reply (.inr hfits)) False.elim trivial⟩

theorem At.step (hat : At phase system) {label : Label Thread}
    (hconsidered : Considered label)
    (hstep : HandlerThreads.step system label = some next) :
    ∃ phase, At phase next := by
  unfold HandlerThreads.step at hstep
  split at hstep
  · next packet haction =>
      split at hstep
      · cases hstep
        obtain ⟨hpromotion, haddress⟩ := hconsidered packet haction
        obtain ⟨hcritical, hfits⟩ := fits_dispatch hpromotion haddress
        exact ⟨phase, hat.move (absurd · hcritical) hfits⟩
      · cases hstep
  · exact hat.proceed hstep

end Step

/-! ## Runs -/

/-- The outcome of concurrent registrations. -/
structure OneWinner (system : System Thread) : Prop where
  atMostOne : (system.replies.filter (Confirms ·)).length ≤ 1
  /-- the winner is told its own address, and it is the one assigned -/
  own : ∀ reply ∈ system.replies, Confirms reply →
    reply.answer.payload = reply.request.payload ∧
      system.assignments = [(reply.thread, reply.request)]
  others : ∀ reply ∈ system.replies,
    reply.request.cmd = .setPrimaryIfNotExists → ¬ Confirms reply →
      reply.answer.cmd = .setPrimary ∧
        ∃ winner ∈ system.replies, Confirms winner ∧
          reply.answer.payload = winner.request.payload
  questions : ∀ reply ∈ system.replies, reply.request.cmd = .getPrimary →
    reply.answer.payload = [] ∨
      ∃ winner registered, system.assignments = [(winner, registered)] ∧
        reply.answer.payload = registered.payload
  /-- once the winner's address is assigned, no read finds nothing -/
  neverEmptyAgain : ∀ reply ∈ system.replies, reply.request.cmd = .getPrimary →
    reply.assignments ≠ 0 → reply.answer.payload ≠ []

section Runs

variable {system : System Thread} {phase : Phase Thread} {reply : Reply Thread}

theorem At.answersRegistration (hat : At phase system)
    (hreply : reply ∈ system.replies)
    (hcmd : reply.request.cmd = .setPrimaryIfNotExists) :
    phase.AnswersRegistration reply := by
  rcases hat.replies reply hreply with ⟨_, hanswers⟩ | ⟨hget, _⟩
  · exact hanswers
  · cases hcmd.symm.trans hget

theorem At.seenBy (hat : At phase system) (hreply : reply ∈ system.replies)
    (hcmd : reply.request.cmd = .getPrimary) :
    phase.Seen reply.answer.payload reply.assignments := by
  rcases hat.replies reply hreply with ⟨hregister, _⟩ | ⟨_, hseen⟩
  · cases hcmd.symm.trans hregister
  · exact hseen

theorem At.winnerOf_confirms (hat : At phase system)
    (hreply : reply ∈ system.replies) (hconfirms : Confirms reply) :
    phase.winner = some (reply.thread, reply.request) ∧
      reply.answer.payload = reply.request.payload := by
  obtain ⟨_, winner, registered, hwinner, hpayload, hok | hrefused⟩ :=
    hat.answersRegistration hreply hconfirms.1
  · obtain ⟨_, rfl, rfl⟩ := hok
    exact ⟨hwinner, hpayload⟩
  · cases hconfirms.2.symm.trans hrefused

/-- A registration that was answered has a winner that was answered. -/
theorem At.exists_confirms (hat : At phase system)
    (hreply : reply ∈ system.replies)
    (hcmd : reply.request.cmd = .setPrimaryIfNotExists) :
    ∃ winner ∈ system.replies, Confirms winner := by
  have hcount := hat.confirmations
  rw [(hat.answersRegistration hreply hcmd).1] at hcount
  obtain ⟨winner, hwinner⟩ := List.length_eq_one_iff.1 hcount
  have hmem : winner ∈ system.replies.filter (Confirms ·) := by
    rw [hwinner]
    exact List.mem_cons_self
  obtain ⟨hmem, hconfirms⟩ := List.mem_filter.1 hmem
  exact ⟨winner, hmem, of_decide_eq_true hconfirms⟩

theorem At.oneWinner (hat : At phase system) : OneWinner system := by
  constructor
  case atMostOne =>
    rw [hat.confirmations]
    cases phase <;> simp [Phase.confirmations]
  case own =>
    intro reply hreply hconfirms
    obtain ⟨hwinner, hpayload⟩ := hat.winnerOf_confirms hreply hconfirms
    rw [hat.assignments, hwinner]
    exact ⟨hpayload, rfl⟩
  case others =>
    intro reply hreply hcmd hother
    obtain ⟨_, winner, registered, hwinner, hpayload, hok | hrefused⟩ :=
      hat.answersRegistration hreply hcmd
    · exact absurd ⟨hcmd, hok.1⟩ hother
    · obtain ⟨confirmed, hmem, hconfirms⟩ := hat.exists_confirms hreply hcmd
      obtain ⟨hsame, _⟩ := hat.winnerOf_confirms hmem hconfirms
      cases hwinner.symm.trans hsame
      exact ⟨hrefused, confirmed, hmem, hconfirms, hpayload⟩
  case questions =>
    intro reply hreply hcmd
    rcases hat.seenBy hreply hcmd with
      ⟨_, hempty⟩ | ⟨winner, registered, hwinner, _, hpayload⟩
    · exact .inl hempty
    · refine .inr ⟨winner, registered, ?_, hpayload⟩
      rw [hat.assignments, hwinner]
      rfl
  case neverEmptyAgain =>
    intro reply hreply hcmd hassigned
    rcases hat.seenBy hreply hcmd with
      ⟨hnone, _⟩ | ⟨winner, registered, hwinner, _, hpayload⟩
    · exact absurd hnone hassigned
    · rw [hpayload]
      exact (hat.registered winner registered hwinner).2

/-- For any number of servers and clients and any order of their threads' steps,
without a promotion and without empty addresses, the router registers one
server: at most one registration is answered `OK`, with its own address, every
other one with that of the winner, and `GET_PRIMARY` with nothing or the address
of the winner, and with the latter once it has been assigned. -/
theorem oneWinner_of_run [DecidableEq Thread] {labels : List (Label Thread)}
    (hconsidered : ∀ label ∈ labels, Considered label)
    (hrun : exec step System.start labels = some system) :
    OneWinner system := by
  have hexists : ∃ phase, At phase system := by
    apply exec_invariant _ ⟨.unassigned, at_start⟩
      (along_of_forall hconsidered System.start) hrun
    rintro before label next ⟨phase, hat⟩ hlabel hstep
    exact hat.step hlabel hstep
  obtain ⟨phase, hat⟩ := hexists
  exact hat.oneWinner

end Runs

/-- Server 0 is assigned, client 2 asks before it is answered, and server 1 is
refused. -/
def raceRun : List (Label ℕ) :=
  [⟨1, 0, .receive (new .setPrimaryIfNotExists [98, 58, 50] [] 0)⟩,
    ⟨0, 0, .receive (new .setPrimaryIfNotExists [97, 58, 49] [] 0)⟩,
    ⟨0, 0, .proceed⟩, ⟨0, 0, .proceed⟩, ⟨0, 0, .proceed⟩,
    ⟨2, 0, .receive (new .getPrimary [] [] 0)⟩, ⟨2, 0, .proceed⟩,
    ⟨2, 0, .proceed⟩, ⟨0, 0, .proceed⟩, ⟨0, 0, .proceed⟩, ⟨0, 0, .proceed⟩,
    ⟨1, 0, .proceed⟩, ⟨1, 0, .proceed⟩, ⟨1, 0, .proceed⟩]

theorem oneWinner_raceRun :
    ∃ system, exec step System.start raceRun = some system ∧
      (system.replies.map fun reply =>
          (reply.thread, reply.answer.cmd, reply.answer.payload)) =
        [(2, .setPrimary, [97, 58, 49]), (0, .ok, [97, 58, 49]),
          (1, .setPrimary, [97, 58, 49])] ∧
      OneWinner system := by
  have hfinal : (exec step System.start raceRun).map (fun system =>
      system.replies.map fun reply =>
        (reply.thread, reply.answer.cmd, reply.answer.payload)) =
      some [(2, .setPrimary, [97, 58, 49]), (0, .ok, [97, 58, 49]),
        (1, .setPrimary, [97, 58, 49])] := by
    decide
  obtain ⟨system, hrun, hreplies⟩ := Option.map_eq_some_iff.1 hfinal
  exact ⟨system, hrun, hreplies, oneWinner_of_run (by decide) hrun⟩

end TwitterLike.SingleWinner
