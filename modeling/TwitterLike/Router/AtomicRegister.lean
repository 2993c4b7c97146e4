import TwitterLike.Core.Linearization
import TwitterLike.Router.SingleWinner

/-!
# The router as an atomic register

Every interleaving of the router's threads answers like a register that handles
one request at a time, at a moment between the receipt of the request and its
answer.  An `OK` carries the address that is stored when it is sent, which may be
a later one; nobody reads it.
-/

namespace TwitterLike.AtomicRegister

open TwitterLike.ByteBuffer
open TwitterLike.PacketFormat
open TwitterLike.Register
open TwitterLike.HandlerThreads
open TwitterLike.Transition
open TwitterLike.Linearization
open TwitterLike.SingleWinner (Critical)

variable {Thread : Type}

/-- A request that is handled at once. -/
structure Handled (Thread : Type) where
  thread : Thread
  packet : Packet
  time : BitVec 64

/-- The register and its answers. -/
structure Atomic (Thread : Type) where
  router : Router
  answers : List (Thread × Packet)

namespace Atomic

def start : Atomic Thread where
  router := Router.initial
  answers := []

def handle (atomic : Atomic Thread) (handled : Handled Thread) :
    Option (Atomic Thread) :=
  let result := atomic.router.fromClient handled.packet handled.time
  some
    { router := result.1
      answers := atomic.answers ++ result.2.1.map fun answer => (handled.thread, answer) }

end Atomic

/-! ## Linearisation points -/

/-- A registration is handled when it stores its address or finds the flag
raised, a promotion when it stores its address, and a query when it reads. -/
def commitsAt (label : Label Thread) : Point → Action → List (Handled Thread)
  | .receiving, .receive packet =>
      if dispatch packet = .receiving ∨ dispatch packet = .ended then
        [⟨label.thread, packet, label.time⟩]
      else []
  | .assigning packet, .proceed | .refusing packet, .proceed
  | .promoting packet, .proceed | .reading packet, .proceed =>
      [⟨label.thread, packet, label.time⟩]
  | _, _ => []

def commits (system : System Thread) (label : Label Thread) : List (Handled Thread) :=
  commitsAt label (system.threads label.thread) label.action

/-- The request that the thread has received and not handled. -/
def pending : Point → List Packet
  | .locking packet | .testing packet | .assigning packet | .refusing packet
  | .promoting packet | .reading packet => [packet]
  | _ => []

/-- What a client looks at in an answer. -/
abbrev Answer := CmdType × ByteString

def answerOf (packet : Packet) : Answer :=
  (packet.cmd, packet.payload)

/-- The same answer, up to the address of an `OK`. -/
def Agrees (answer expected : Answer) : Prop :=
  answer.1 = expected.1 ∧ (answer.1 ≠ .ok → answer.2 = expected.2)

/-- The answer to the request that the thread has handled and not answered. -/
def owed : Point → List Answer
  | .confirming packet | .promoted packet => [(.ok, packet.payload)]
  | .answering _ address _ => [(.setPrimary, address)]
  | _ => []

/-- The registration has been handled and the flag is not raised. -/
def Committed : Point → Prop
  | .confirming _ | .flagging => True
  | _ => False

/-- The thread got where it is with a packet of that command, past a test of the
flag that still holds. -/
def Fits (hasPrimary : Bool) : Point → Prop
  | .locking packet | .testing packet | .confirming packet =>
      packet.cmd = .setPrimaryIfNotExists
  | .assigning packet => packet.cmd = .setPrimaryIfNotExists ∧ hasPrimary = false
  | .refusing packet => packet.cmd = .setPrimaryIfNotExists ∧ hasPrimary = true
  | .promoting packet | .promoted packet => packet.cmd = .setPrimary
  | .reading packet | .answering packet _ _ => packet.cmd = .getPrimary
  | _ => True

section Answers

variable [DecidableEq Thread]

/-- What the thread has answered, in order. -/
def answeredBy (system : System Thread) (thread : Thread) : List Answer :=
  (system.replies.filter (·.thread = thread)).map fun reply => answerOf reply.answer

def Atomic.answeredTo (atomic : Atomic Thread) (thread : Thread) : List Answer :=
  (atomic.answers.filter (·.1 = thread)).map fun answer => answerOf answer.2

/-- The register has handled what the threads have. -/
structure Simulates (system : System Thread) (atomic : Atomic Thread) : Prop where
  holder : ∀ thread, Critical (system.threads thread) →
    system.holder = some thread
  address : atomic.router.primaryServer = system.router.primaryServer
  flag : atomic.router.hasPrimary = true ↔ system.router.hasPrimary = true ∨
    ∃ thread, Committed (system.threads thread)
  points : ∀ thread, Fits system.router.hasPrimary (system.threads thread)
  answers : ∀ thread, List.Forall₂ Agrees
    (answeredBy system thread ++ owed (system.threads thread))
    (atomic.answeredTo thread)

end Answers

theorem simulates_start [DecidableEq Thread] :
    Simulates (System.start : System Thread) Atomic.start where
  holder _ := False.elim
  address := rfl
  flag := by
    constructor
    · exact nofun
    · rintro (hflag | ⟨_, hcommitted⟩)
      · cases hflag
      · exact hcommitted.elim
  points _ := trivial
  answers _ := .nil

section Agreement

variable {answer expected other : Answer}

theorem Agrees.refl (answer : Answer) : Agrees answer answer :=
  ⟨rfl, fun _ => rfl⟩

theorem agrees_ok (address other : ByteString) :
    Agrees (.ok, address) (.ok, other) :=
  ⟨rfl, fun hne => absurd rfl hne⟩

theorem Agrees.trans (hfirst : Agrees answer expected)
    (hsecond : Agrees expected other) : Agrees answer other :=
  ⟨hfirst.1.trans hsecond.1, fun hne =>
    (hfirst.2 hne).trans (hsecond.2 fun hok => hne (hfirst.1.trans hok))⟩

/-- The last answer may be replaced by one that agrees with it. -/
theorem forall₂_replace {front back : List Answer} {last : Answer}
    (hall : List.Forall₂ Agrees (front ++ [expected]) back)
    (hagrees : Agrees last expected) :
    List.Forall₂ Agrees (front ++ [last]) back := by
  induction front generalizing back with
  | nil =>
      obtain _ | ⟨hlast, _ | _⟩ := hall
      exact .cons (hagrees.trans hlast) .nil
  | cons answer front ih =>
      obtain _ | ⟨hfirst, hrest⟩ := hall
      exact .cons hfirst (ih hrest)

theorem forall₂_concat {front back : List Answer}
    (hall : List.Forall₂ Agrees front back) (hagrees : Agrees answer expected) :
    List.Forall₂ Agrees (front ++ [answer]) (back ++ [expected]) :=
  List.rel_append hall (.cons hagrees .nil)

end Agreement

/-! ## Steps -/

section Steps

variable [DecidableEq Thread] {system next : System Thread}
  {atomic : Atomic Thread} {thread other : Thread} {packet : Packet}
  {point : Point} {time : BitVec 64}

theorem answeredBy_reply_self (cmd : CmdType) (address : ByteString)
    (assignments : ℕ) :
    answeredBy (system.reply thread packet cmd address time assignments) thread =
      answeredBy system thread ++ [(cmd, address)] := by
  simp [answeredBy, answerOf, new]

theorem answeredBy_reply_of_ne (hne : other ≠ thread) (cmd : CmdType)
    (address : ByteString) (assignments : ℕ) :
    answeredBy (system.reply thread packet cmd address time assignments) other =
      answeredBy system other := by
  simp [answeredBy, Ne.symm hne]

/-- The register when it has handled a request of the thread. -/
def Atomic.after (atomic : Atomic Thread) (thread : Thread) (router : Router)
    (answers : List Packet) : Atomic Thread :=
  { router := router
    answers := atomic.answers ++ answers.map fun answer => (thread, answer) }

theorem answeredTo_after_self (router : Router) (answers : List Packet) :
    (atomic.after thread router answers).answeredTo thread =
      atomic.answeredTo thread ++ answers.map answerOf := by
  simp [Atomic.answeredTo, Atomic.after, List.filter_map, Function.comp_def]

theorem answeredTo_after_of_ne (hne : other ≠ thread) (router : Router)
    (answers : List Packet) :
    (atomic.after thread router answers).answeredTo other =
      atomic.answeredTo other := by
  simp [Atomic.answeredTo, Atomic.after, List.filter_map, Function.comp_def,
    Ne.symm hne]

/-- One thread moves, over globals that no other thread has tested. -/
theorem Simulates.move (hsimulates : Simulates system atomic)
    (changed : System Thread) (router : Router) (answers : List Packet)
    (hthreads : changed.threads = system.threads)
    (hholder : ∀ other, other ≠ thread → Critical (system.threads other) →
      changed.holder = some other)
    (hself : Critical point → changed.holder = some thread)
    (haddress : router.primaryServer = changed.router.primaryServer)
    (hflag : router.hasPrimary = true ↔ changed.router.hasPrimary = true ∨
      Committed point ∨
        ∃ other, other ≠ thread ∧ Committed (system.threads other))
    (hpoints : ∀ other, other ≠ thread →
      Fits changed.router.hasPrimary (system.threads other))
    (hfits : Fits changed.router.hasPrimary point)
    (hothers : ∀ other, other ≠ thread →
      answeredBy changed other = answeredBy system other)
    (hanswers : List.Forall₂ Agrees (answeredBy changed thread ++ owed point)
      (atomic.answeredTo thread ++ answers.map answerOf)) :
    Simulates (changed.goto thread point) (atomic.after thread router answers) where
  holder := by
    apply @SingleWinner.forall_goto _ _ changed _ _
      (fun other point => Critical point → changed.holder = some other) _ hself
    intro other hne
    rw [hthreads]
    exact hholder other hne
  address := haddress
  flag := by
    refine hflag.trans (or_congr_right ?_)
    constructor
    · rintro (hcommitted | ⟨other, hne, hcommitted⟩)
      · refine ⟨thread, ?_⟩
        rwa [System.goto_threads, Function.update_self]
      · refine ⟨other, ?_⟩
        rwa [System.goto_threads, Function.update_of_ne hne, hthreads]
    · rintro ⟨other, hcommitted⟩
      rw [System.goto_threads, Function.update_apply] at hcommitted
      split at hcommitted
      · exact .inl hcommitted
      · next hne => exact .inr ⟨other, hne, hthreads ▸ hcommitted⟩
  points := by
    apply @SingleWinner.forall_goto _ _ changed _ _
      (fun _ point => Fits changed.router.hasPrimary point) _ hfits
    intro other hne
    rw [hthreads]
    exact hpoints other hne
  answers := by
    intro other
    by_cases heq : other = thread
    · subst heq
      rw [System.goto_threads, Function.update_self, answeredTo_after_self]
      exact hanswers
    · have hsame : answeredBy (changed.goto thread point) other =
          answeredBy changed other := rfl
      rw [System.goto_threads, Function.update_of_ne heq, hthreads, hsame,
        hothers other heq, answeredTo_after_of_ne heq]
      exact hsimulates.answers other

/-- A move that is nothing to the register. -/
theorem Simulates.keep (hsimulates : Simulates system atomic)
    (changed : System Thread) (point : Point)
    (hthreads : changed.threads = system.threads)
    (hholder : ∀ other, other ≠ thread → Critical (system.threads other) →
      changed.holder = some other)
    (hself : Critical point → changed.holder = some thread)
    (haddress : atomic.router.primaryServer = changed.router.primaryServer)
    (hflag : atomic.router.hasPrimary = true ↔ changed.router.hasPrimary = true ∨
      Committed point ∨
        ∃ other, other ≠ thread ∧ Committed (system.threads other))
    (hpoints : ∀ other, other ≠ thread →
      Fits changed.router.hasPrimary (system.threads other))
    (hfits : Fits changed.router.hasPrimary point)
    (hothers : ∀ other, other ≠ thread →
      answeredBy changed other = answeredBy system other)
    (hanswers : List.Forall₂ Agrees (answeredBy changed thread ++ owed point)
      (atomic.answeredTo thread)) :
    Simulates (changed.goto thread point) atomic := by
  have hmove := hsimulates.move changed atomic.router [] hthreads hholder hself
    haddress hflag hpoints hfits hothers
    (by rwa [List.map_nil, List.append_nil])
  rwa [Atomic.after, List.map_nil, List.append_nil] at hmove

/-- A thread moves without touching the globals and without an answer. -/
theorem Simulates.stay (hsimulates : Simulates system atomic)
    (hself : Critical point → system.holder = some thread)
    (hcommitted : Committed point ↔ Committed (system.threads thread))
    (hfits : Fits system.router.hasPrimary point)
    (howed : owed point = owed (system.threads thread)) :
    Simulates (system.goto thread point) atomic := by
  refine hsimulates.keep system point rfl (fun other _ => hsimulates.holder other)
    hself hsimulates.address ?_ (fun other _ => hsimulates.points other) hfits
    (fun _ _ => rfl) (howed ▸ hsimulates.answers thread)
  refine hsimulates.flag.trans (or_congr_right ?_)
  constructor
  · rintro ⟨other, hother⟩
    by_cases heq : other = thread
    · exact .inl (hcommitted.2 (heq ▸ hother))
    · exact .inr ⟨other, heq, hother⟩
  · rintro (hpoint | ⟨other, _, hother⟩)
    · exact ⟨thread, hcommitted.1 hpoint⟩
    · exact ⟨other, hother⟩

/-- The thread that has locked `m` is the only one in its critical section. -/
theorem Simulates.not_critical (hsimulates : Simulates system atomic)
    (hcritical : Critical (system.threads thread)) (hne : other ≠ thread) :
    ¬ Critical (system.threads other) := by
  intro hother
  have hholder := hsimulates.holder thread hcritical
  rw [hsimulates.holder other hother] at hholder
  exact hne (Option.some.inj hholder)

omit [DecidableEq Thread] in
theorem critical_of_committed (hcommitted : Committed point) : Critical point := by
  cases point <;> trivial

omit [DecidableEq Thread] in
/-- Outside of the critical section nothing depends on the flag. -/
theorem fits_of_not_critical {before after : Bool} (hcritical : ¬ Critical point)
    (hfits : Fits before point) : Fits after point := by
  cases point with
  | assigning | refusing => exact absurd trivial hcritical
  | _ => exact hfits

/-- The flag of the register, for a thread that has locked `m` and is not
between the assignment and the flag. -/
theorem Simulates.flag_of_critical (hsimulates : Simulates system atomic)
    (hcritical : Critical (system.threads thread))
    (hcommitted : ¬ Committed (system.threads thread)) :
    atomic.router.hasPrimary = system.router.hasPrimary := by
  rw [Bool.eq_iff_iff, hsimulates.flag, or_iff_left]
  rintro ⟨other, hother⟩
  by_cases heq : other = thread
  · exact hcommitted (heq ▸ hother)
  · exact hsimulates.not_critical hcritical heq (critical_of_committed hother)

/-- A thread that has handled no registration adds nothing to the flag. -/
theorem Simulates.flag_others (hsimulates : Simulates system atomic)
    (hself : ¬ Committed (system.threads thread)) :
    atomic.router.hasPrimary = true ↔ system.router.hasPrimary = true ∨
      False ∨ ∃ other, other ≠ thread ∧ Committed (system.threads other) := by
  refine hsimulates.flag.trans (or_congr_right ?_)
  rw [false_or]
  constructor
  · rintro ⟨other, hother⟩
    refine ⟨other, ?_, hother⟩
    rintro rfl
    exact hself hother
  · rintro ⟨other, _, hother⟩
    exact ⟨other, hother⟩

/-! ### A registration -/

theorem Simulates.lock (hsimulates : Simulates system atomic)
    (hpoint : system.threads thread = .locking packet)
    (hfree : system.holder = none) :
    Simulates ((system.setHolder (some thread)).goto thread (.testing packet))
      atomic := by
  have hcmd := hsimulates.points thread
  rw [hpoint] at hcmd
  have hnobody (other : Thread) : ¬ Critical (system.threads other) := by
    intro hcritical
    rw [hsimulates.holder other hcritical] at hfree
    cases hfree
  have hlocked : Simulates (system.setHolder (some thread)) atomic :=
    ⟨fun other hcritical => absurd hcritical (hnobody other), hsimulates.address,
      hsimulates.flag, hsimulates.points, hsimulates.answers⟩
  refine hlocked.stay (fun _ => rfl) ?_ hcmd ?_
  · rw [System.setHolder_threads, hpoint]
    exact Iff.rfl
  · rw [System.setHolder_threads, hpoint]
    rfl

theorem Simulates.test (hsimulates : Simulates system atomic)
    (hpoint : system.threads thread = .testing packet) :
    Simulates (system.goto thread
      (if system.router.hasPrimary then .refusing packet else .assigning packet))
      atomic := by
  have hcmd := hsimulates.points thread
  have hholder := hsimulates.holder thread
  rw [hpoint] at hcmd hholder
  split
  · next hflag =>
    exact hsimulates.stay (fun _ => hholder trivial) (hpoint ▸ Iff.rfl)
      ⟨hcmd, hflag⟩ (hpoint ▸ rfl)
  · next hflag =>
    exact hsimulates.stay (fun _ => hholder trivial) (hpoint ▸ Iff.rfl)
      ⟨hcmd, Bool.eq_false_of_not_eq_true hflag⟩ (hpoint ▸ rfl)

/-- The first registration is handled when it stores its address. -/
theorem Simulates.assign (hsimulates : Simulates system atomic)
    (hpoint : system.threads thread = .assigning packet) :
    ∃ after, atomic.handle ⟨thread, packet, time⟩ = some after ∧
      Simulates ((system.assign thread packet).goto thread (.confirming packet))
        after := by
  have hcritical : Critical (system.threads thread) := hpoint ▸ trivial
  have hflag := hsimulates.flag_of_critical hcritical (hpoint ▸ id)
  have hfits := hsimulates.points thread
  have hanswers := hsimulates.answers thread
  rw [hpoint] at hfits hanswers
  obtain ⟨hcmd, hfalse⟩ := hfits
  rw [hfalse] at hflag
  have hhandle : atomic.router.fromClient packet time =
      ({ atomic.router.setPrimary packet with hasPrimary := true },
        [new .ok packet.payload [] time], false) := by
    simp [Router.fromClient, hcmd, hflag, Router.setPrimary]
  refine ⟨atomic.after thread { atomic.router.setPrimary packet with
    hasPrimary := true } [new .ok packet.payload [] time], ?_, ?_⟩
  · rw [Atomic.handle, hhandle]
    rfl
  · apply hsimulates.move (system.assign thread packet) _ _ rfl
    case hholder => exact fun other _ => hsimulates.holder other
    case hself => exact fun _ => hsimulates.holder thread hcritical
    case haddress => rfl
    case hflag => exact iff_of_true rfl (.inr (.inl trivial))
    case hpoints => exact fun other _ => hsimulates.points other
    case hfits => exact hcmd
    case hothers => exact fun _ _ => rfl
    case hanswers =>
      simp only [owed, List.append_nil] at hanswers
      exact forall₂_concat hanswers (agrees_ok _ _)

theorem Simulates.confirm (hsimulates : Simulates system atomic)
    (hpoint : system.threads thread = .confirming packet) (assignments : ℕ) :
    Simulates ((system.reply thread packet .ok system.router.primaryServer time
      assignments).goto thread .flagging) atomic := by
  have hcommitted : Committed (system.threads thread) := hpoint ▸ trivial
  have hholder := hsimulates.holder thread (critical_of_committed hcommitted)
  have hanswers := hsimulates.answers thread
  rw [hpoint] at hanswers
  refine hsimulates.keep (system.reply thread packet .ok
    system.router.primaryServer time assignments) .flagging rfl
    (fun other _ => hsimulates.holder other) (fun _ => hholder) hsimulates.address
    (iff_of_true (hsimulates.flag.2 (.inr ⟨thread, hcommitted⟩)) (.inr (.inl trivial)))
    (fun other _ => hsimulates.points other) trivial
    (fun other hne => answeredBy_reply_of_ne hne _ _ _) ?_
  simp only [answeredBy_reply_self, owed, List.append_nil]
  exact forall₂_replace hanswers (agrees_ok _ _)

theorem Simulates.raise (hsimulates : Simulates system atomic)
    (hpoint : system.threads thread = .flagging) :
    Simulates ((system.setRouter { system.router with hasPrimary := true }).goto
      thread .unlocking) atomic := by
  have hcommitted : Committed (system.threads thread) := hpoint ▸ trivial
  have hcritical := critical_of_committed hcommitted
  have hanswers := hsimulates.answers thread
  rw [hpoint] at hanswers
  exact hsimulates.keep
    (system.setRouter { system.router with hasPrimary := true }) .unlocking rfl
    (fun other _ => hsimulates.holder other)
    (fun _ => hsimulates.holder thread hcritical) hsimulates.address
    (iff_of_true (hsimulates.flag.2 (.inr ⟨thread, hcommitted⟩)) (.inl rfl))
    (fun other hne => fits_of_not_critical
      (hsimulates.not_critical hcritical hne) (hsimulates.points other))
    trivial (fun _ _ => rfl) hanswers

/-- A later registration is handled when it is answered. -/
theorem Simulates.refuse (hsimulates : Simulates system atomic)
    (hpoint : system.threads thread = .refusing packet) (assignments : ℕ) :
    ∃ after, atomic.handle ⟨thread, packet, time⟩ = some after ∧
      Simulates ((system.reply thread packet .setPrimary
        system.router.primaryServer time assignments).goto thread .unlocking)
        after := by
  have hcritical : Critical (system.threads thread) := hpoint ▸ trivial
  have hflag := hsimulates.flag_of_critical hcritical (hpoint ▸ id)
  have hfits := hsimulates.points thread
  have hanswers := hsimulates.answers thread
  rw [hpoint] at hfits hanswers
  obtain ⟨hcmd, htrue⟩ := hfits
  rw [htrue] at hflag
  have hhandle : atomic.router.fromClient packet time =
      (atomic.router, [new .setPrimary system.router.primaryServer [] time],
        false) := by
    simp [Router.fromClient, hcmd, hflag, hsimulates.address]
  refine ⟨atomic.after thread atomic.router
    [new .setPrimary system.router.primaryServer [] time], ?_, ?_⟩
  · rw [Atomic.handle, hhandle]
    rfl
  · apply hsimulates.move (system.reply thread packet .setPrimary
      system.router.primaryServer time assignments) _ _ rfl
    case hholder => exact fun other _ => hsimulates.holder other
    case hself => exact fun _ => hsimulates.holder thread hcritical
    case haddress => exact hsimulates.address
    case hflag => exact iff_of_true hflag (.inl htrue)
    case hpoints => exact fun other _ => hsimulates.points other
    case hfits => trivial
    case hothers => exact fun other hne => answeredBy_reply_of_ne hne _ _ _
    case hanswers =>
      simp only [owed, List.append_nil] at hanswers
      simp only [answeredBy_reply_self, owed, List.append_nil]
      exact forall₂_concat hanswers (Agrees.refl _)

theorem Simulates.unlock (hsimulates : Simulates system atomic)
    (hpoint : system.threads thread = .unlocking) :
    Simulates ((system.setHolder none).goto thread .receiving) atomic := by
  have hcritical : Critical (system.threads thread) := hpoint ▸ trivial
  have hanswers := hsimulates.answers thread
  rw [hpoint] at hanswers
  refine hsimulates.keep (system.setHolder none) .receiving rfl
    (fun other hne hother => absurd hother (hsimulates.not_critical hcritical hne))
    False.elim hsimulates.address ?_ (fun other _ => hsimulates.points other) trivial
    (fun _ _ => rfl) hanswers
  have hflag := hsimulates.flag_of_critical hcritical (hpoint ▸ id)
  rw [hflag, System.setHolder_router]
  refine (or_iff_left ?_).symm
  rintro (hnone | ⟨other, hne, hother⟩)
  · exact hnone
  · exact hsimulates.not_critical hcritical hne (critical_of_committed hother)

/-! ### Promotions and queries -/

/-- A promotion is handled when it stores its address. -/
theorem Simulates.promote (hsimulates : Simulates system atomic)
    (hpoint : system.threads thread = .promoting packet) :
    ∃ after, atomic.handle ⟨thread, packet, time⟩ = some after ∧
      Simulates ((system.setRouter (system.router.setPrimary packet)).goto thread
        (.promoted packet)) after := by
  have hcmd := hsimulates.points thread
  have hanswers := hsimulates.answers thread
  rw [hpoint] at hcmd hanswers
  have hhandle : atomic.router.fromClient packet time =
      (atomic.router.setPrimary packet, [new .ok packet.payload [] time], false) := by
    rw [Router.fromClient, hcmd]
    rfl
  refine ⟨atomic.after thread (atomic.router.setPrimary packet)
    [new .ok packet.payload [] time], ?_, ?_⟩
  · rw [Atomic.handle, hhandle]
    rfl
  · apply hsimulates.move (system.setRouter (system.router.setPrimary packet)) _ _ rfl
    case hholder => exact fun other _ => hsimulates.holder other
    case hself => exact False.elim
    case haddress => rfl
    case hflag => exact hsimulates.flag_others (hpoint ▸ id)
    case hpoints => exact fun other _ => hsimulates.points other
    case hfits => exact hcmd
    case hothers => exact fun _ _ => rfl
    case hanswers =>
      simp only [owed, List.append_nil] at hanswers
      exact forall₂_concat hanswers (agrees_ok _ _)

/-- The reply to a promotion, with the address that is stored by then. -/
theorem Simulates.promoted (hsimulates : Simulates system atomic)
    (hpoint : system.threads thread = .promoted packet) (assignments : ℕ) :
    Simulates ((system.reply thread packet .ok system.router.primaryServer time
      assignments).goto thread .receiving) atomic := by
  have hanswers := hsimulates.answers thread
  rw [hpoint] at hanswers
  refine hsimulates.keep (system.reply thread packet .ok
    system.router.primaryServer time assignments) .receiving rfl
    (fun other _ => hsimulates.holder other) False.elim hsimulates.address
    (hsimulates.flag_others (hpoint ▸ id)) (fun other _ => hsimulates.points other)
    trivial (fun other hne => answeredBy_reply_of_ne hne _ _ _) ?_
  simp only [answeredBy_reply_self, owed, List.append_nil]
  exact forall₂_replace hanswers (agrees_ok _ _)

/-- A query is handled when it reads the address. -/
theorem Simulates.query (hsimulates : Simulates system atomic)
    (hpoint : system.threads thread = .reading packet) (assignments : ℕ) :
    ∃ after, atomic.handle ⟨thread, packet, time⟩ = some after ∧
      Simulates (system.goto thread
        (.answering packet system.router.primaryServer assignments)) after := by
  have hcmd := hsimulates.points thread
  have hanswers := hsimulates.answers thread
  rw [hpoint] at hcmd hanswers
  have hhandle : atomic.router.fromClient packet time =
      (atomic.router, [new .setPrimary system.router.primaryServer [] time],
        false) := by
    rw [Router.fromClient, hcmd, hsimulates.address]
  refine ⟨atomic.after thread atomic.router
    [new .setPrimary system.router.primaryServer [] time], ?_, ?_⟩
  · rw [Atomic.handle, hhandle]
    rfl
  · apply hsimulates.move system _ _ rfl
    case hholder => exact fun other _ => hsimulates.holder other
    case hself => exact False.elim
    case haddress => exact hsimulates.address
    case hflag => exact hsimulates.flag_others (hpoint ▸ id)
    case hpoints => exact fun other _ => hsimulates.points other
    case hfits => exact hcmd
    case hothers => exact fun _ _ => rfl
    case hanswers =>
      simp only [owed, List.append_nil] at hanswers
      exact forall₂_concat hanswers (Agrees.refl _)

theorem Simulates.answer {address : ByteString} {assignments : ℕ}
    (hsimulates : Simulates system atomic)
    (hpoint : system.threads thread = .answering packet address assignments) :
    Simulates ((system.reply thread packet .setPrimary address time
      assignments).goto thread .receiving) atomic := by
  have hanswers := hsimulates.answers thread
  rw [hpoint] at hanswers
  refine hsimulates.keep (system.reply thread packet .setPrimary address time
    assignments) .receiving rfl (fun other _ => hsimulates.holder other) False.elim
    hsimulates.address (hsimulates.flag_others (hpoint ▸ id))
    (fun other _ => hsimulates.points other) trivial
    (fun other hne => answeredBy_reply_of_ne hne _ _ _) ?_
  simp only [answeredBy_reply_self, owed, List.append_nil]
  exact hanswers

/-! ### Any step -/

/-- Where a packet leads, it is pending, unless the router ignores it. -/
theorem dispatch_spec (packet : Packet) (flag : Bool) :
    ¬ Critical (dispatch packet) ∧ owed (dispatch packet) = [] ∧
      AtomicRegister.Fits flag (dispatch packet) ∧
      ((pending (dispatch packet) = [packet] ∧
          ¬ (dispatch packet = .receiving ∨ dispatch packet = .ended)) ∨
        (pending (dispatch packet) = [] ∧
          (dispatch packet = .receiving ∨ dispatch packet = .ended) ∧
          ∀ (router : Router) (time : BitVec 64),
            (router.fromClient packet time).1 = router ∧
              (router.fromClient packet time).2.1 = [])) := by
  cases hcmd : packet.cmd <;>
    simp [dispatch, hcmd, Critical, owed, AtomicRegister.Fits, pending,
      Router.fromClient]

/-- A packet that the router ignores is handled when it is received. -/
theorem Simulates.receive (hsimulates : Simulates system atomic)
    (hpoint : system.threads thread = .receiving) (packet : Packet) :
    ∃ after, exec Atomic.handle atomic
        (commitsAt ⟨thread, time, .receive packet⟩ .receiving (.receive packet)) =
          some after ∧
      Simulates (system.goto thread (dispatch packet)) after := by
  obtain ⟨hcritical, howed, hfits, hcases⟩ :=
    dispatch_spec packet system.router.hasPrimary
  have hgoto : Simulates (system.goto thread (dispatch packet)) atomic := by
    apply hsimulates.stay (absurd · hcritical) _ hfits
    · rw [howed, hpoint]
      rfl
    · rw [hpoint]
      exact iff_of_false (hcritical ∘ critical_of_committed) id
  rcases hcases with ⟨_, hpending⟩ | ⟨_, hignored, hsame⟩
  · rw [commitsAt, if_neg hpending]
    exact ⟨atomic, rfl, hgoto⟩
  · obtain ⟨hrouter, hnone⟩ := hsame atomic.router time
    have hhandle : atomic.handle ⟨thread, packet, time⟩ = some atomic := by
      rw [Atomic.handle, hrouter, hnone, List.map_nil, List.append_nil]
    rw [commitsAt, if_pos hignored]
    exact ⟨atomic, exec_cons_iff.2 ⟨atomic, hhandle, rfl⟩, hgoto⟩

theorem Simulates.proceed (hsimulates : Simulates system atomic)
    (hstep : HandlerThreads.proceed system thread time (system.threads thread) =
      some next) :
    ∃ after, exec Atomic.handle atomic
        (commitsAt ⟨thread, time, .proceed⟩ (system.threads thread) .proceed) =
          some after ∧
      Simulates next after := by
  have honce {packet : Packet} {next : System Thread}
      (hhandled : ∃ after, atomic.handle ⟨thread, packet, time⟩ = some after ∧
        Simulates next after) :
      ∃ after, exec Atomic.handle atomic [⟨thread, packet, time⟩] = some after ∧
        Simulates next after := by
    obtain ⟨after, hhandle, hnext⟩ := hhandled
    exact ⟨after, exec_cons_iff.2 ⟨after, hhandle, rfl⟩, hnext⟩
  cases hpoint : system.threads thread with
  | receiving | ended =>
      rw [hpoint] at hstep
      cases hstep
  | locking packet =>
      rw [hpoint] at hstep
      obtain ⟨hfree, hnext⟩ := Option.ite_none_right_eq_some.1 hstep
      cases hnext
      exact ⟨atomic, rfl, hsimulates.lock hpoint hfree⟩
  | testing packet =>
      have htested := hsimulates.test hpoint
      rw [hpoint, HandlerThreads.proceed, ← apply_ite some,
        ← apply_ite (system.goto thread)] at hstep
      cases hstep
      exact ⟨atomic, rfl, htested⟩
  | assigning packet =>
      rw [hpoint] at hstep
      cases hstep
      exact honce (hsimulates.assign hpoint)
  | confirming packet =>
      rw [hpoint] at hstep
      cases hstep
      exact ⟨atomic, rfl, hsimulates.confirm hpoint _⟩
  | flagging =>
      rw [hpoint] at hstep
      cases hstep
      exact ⟨atomic, rfl, hsimulates.raise hpoint⟩
  | refusing packet =>
      rw [hpoint] at hstep
      cases hstep
      exact honce (hsimulates.refuse hpoint _)
  | unlocking =>
      rw [hpoint] at hstep
      cases hstep
      exact ⟨atomic, rfl, hsimulates.unlock hpoint⟩
  | promoting packet =>
      rw [hpoint] at hstep
      cases hstep
      exact honce (hsimulates.promote hpoint)
  | promoted packet =>
      rw [hpoint] at hstep
      cases hstep
      exact ⟨atomic, rfl, hsimulates.promoted hpoint _⟩
  | reading packet =>
      rw [hpoint] at hstep
      cases hstep
      exact honce (hsimulates.query hpoint _)
  | answering packet address assignments =>
      rw [hpoint] at hstep
      cases hstep
      exact ⟨atomic, rfl, hsimulates.answer hpoint⟩

theorem Simulates.step (hsimulates : Simulates system atomic)
    (label : Label Thread) (hstep : HandlerThreads.step system label = some next) :
    ∃ after, exec Atomic.handle atomic (commits system label) = some after ∧
      Simulates next after := by
  obtain ⟨thread, time, _ | _⟩ := label
  · next packet =>
    cases hpoint : system.threads thread with
    | receiving =>
        rw [HandlerThreads.step] at hstep
        simp only [hpoint] at hstep
        cases hstep
        rw [commits, hpoint]
        exact hsimulates.receive hpoint packet
    | _ => simp [HandlerThreads.step, hpoint] at hstep
  · exact hsimulates.proceed hstep

end Steps

/-! ## Requests and their order -/

section Order

variable [DecidableEq Thread] {system next : System Thread}

/-- The packet that the thread receives. -/
def arrives (thread : Thread) (label : Label Thread) : List Packet :=
  match label.action with
  | .receive packet => if label.thread = thread then [packet] else []
  | .proceed => []

def serves (thread : Thread) (handled : Handled Thread) : List Packet :=
  if handled.thread = thread then [handled.packet] else []

omit [DecidableEq Thread] in
theorem serves_of_commits {label : Label Thread} {handled : Handled Thread}
    (hhandled : handled ∈ commits system label) : handled.thread = label.thread := by
  simp only [commits, commitsAt] at hhandled
  split at hhandled
  · split at hhandled
    · rw [List.mem_singleton.1 hhandled]
    · cases hhandled
  · rw [List.mem_singleton.1 hhandled]
  · rw [List.mem_singleton.1 hhandled]
  · rw [List.mem_singleton.1 hhandled]
  · rw [List.mem_singleton.1 hhandled]
  · cases hhandled

/-- What the thread does that takes the step. -/
theorem balance_self {label : Label Thread}
    (hstep : HandlerThreads.step system label = some next) :
    ∃ point, next.threads = Function.update system.threads label.thread point ∧
      pending (system.threads label.thread) ++ arrives label.thread label =
        (commits system label).flatMap (serves label.thread) ++ pending point := by
  obtain ⟨thread, time, _ | _⟩ := label
  · next packet =>
    cases hpoint : system.threads thread with
    | receiving =>
        simp only [HandlerThreads.step, hpoint] at hstep
        cases hstep
        refine ⟨dispatch packet, rfl, ?_⟩
        have hnone : pending .receiving = [] := rfl
        obtain ⟨_, _, _, hcases⟩ := dispatch_spec packet true
        rcases hcases with ⟨hpending, hanswered⟩ | ⟨hpending, hignored, _⟩
        · simp [commits, hpoint, commitsAt, hanswered, hpending, hnone, arrives]
        · simp [commits, hpoint, commitsAt, hignored, hpending, hnone, arrives, serves]
    | _ => simp [HandlerThreads.step, hpoint] at hstep
  · cases hpoint : system.threads thread with
    | receiving | ended =>
        simp [HandlerThreads.step, HandlerThreads.proceed, hpoint] at hstep
    | locking packet =>
        simp only [HandlerThreads.step, HandlerThreads.proceed, hpoint,
          Option.ite_none_right_eq_some] at hstep
        obtain ⟨_, hnext⟩ := hstep
        cases hnext
        exact ⟨_, rfl, by simp [commits, hpoint, commitsAt, pending, arrives]⟩
    | testing packet =>
        simp only [HandlerThreads.step, HandlerThreads.proceed, hpoint] at hstep
        split at hstep
        all_goals
          cases hstep
          exact ⟨_, rfl, by simp [commits, hpoint, commitsAt, pending, arrives]⟩
    | _ =>
        simp only [HandlerThreads.step, HandlerThreads.proceed, hpoint] at hstep
        cases hstep
        exact ⟨_, rfl, by simp [commits, hpoint, commitsAt, pending, arrives, serves]⟩

/-- A request is handled once, between its receipt and its answer. -/
theorem balance_step (thread : Thread) (label : Label Thread)
    (hstep : HandlerThreads.step system label = some next) :
    pending (system.threads thread) ++ arrives thread label =
      (commits system label).flatMap (serves thread) ++
        pending (next.threads thread) := by
  obtain ⟨point, hthreads, hbalance⟩ := balance_self hstep
  by_cases heq : thread = label.thread
  · rw [hthreads, heq, Function.update_self]
    exact hbalance
  · have hnone : (commits system label).flatMap (serves thread) = [] := by
      rw [List.flatMap_eq_nil_iff]
      intro handled hhandled
      exact if_neg fun hsame =>
        heq (hsame.symm.trans (serves_of_commits hhandled))
    have harrives : arrives thread label = [] := by
      rw [arrives]
      split
      · exact if_neg (Ne.symm heq)
      · rfl
    rw [hthreads, Function.update_of_ne heq, hnone, harrives, List.append_nil,
      List.nil_append]

/-- An order in which the register may have handled the requests of a run. -/
structure Linearizes (labels : List (Label Thread)) (final : System Thread)
    (history : List (Handled Thread)) : Prop where
  /-- every thread's requests, once each and in the order in which they came; the
  last one may be pending -/
  requests : ∀ thread, labels.flatMap (arrives thread) =
    history.flatMap (serves thread) ++ pending (final.threads thread)
  /-- handled one at a time, they are answered as they were; the last answer may
  be under way -/
  register : ∃ atomic, exec Atomic.handle Atomic.start history = some atomic ∧
    atomic.router.primaryServer = final.router.primaryServer ∧
    ∀ thread, List.Forall₂ Agrees
      (answeredBy final thread ++ owed (final.threads thread))
      (atomic.answeredTo thread)

/-- The order in which the register handles the requests of a run. -/
def order (labels : List (Label Thread)) : List (Handled Thread) :=
  log HandlerThreads.step commits System.start labels

theorem linearizes_order {labels : List (Label Thread)} {final : System Thread}
    (hrun : exec HandlerThreads.step System.start labels = some final) :
    Linearizes labels final (order labels) where
  requests thread := by
    apply @log_balance _ _ _ _ _ commits _ _ _
      (fun system => pending (system.threads thread)) _ _ _ hrun
    exact fun _ label _ hstep => balance_step thread label hstep
  register := by
    obtain ⟨atomic, hlog, hsimulates⟩ := exec_log
      (fun _ _ label _ hsimulates hstep => Simulates.step hsimulates label hstep)
      simulates_start hrun
    exact ⟨atomic, hlog, hsimulates.address, hsimulates.answers⟩

/-- What the register has handled stays handled. -/
theorem order_prefix {front : List (Label Thread)} {middle : System Thread}
    (hfront : exec HandlerThreads.step System.start front = some middle)
    (back : List (Label Thread)) : order front <+: order (front ++ back) := by
  rw [order, order, log_append hfront]
  exact List.prefix_append _ _

/-- Whatever the order of the threads' steps, the router is a register that
handles one request at a time: one order explains every state of the run by what
has been handled till then, so a request that was answered before another one came
stands before it. -/
theorem linearizes_throughout {labels : List (Label Thread)} {final : System Thread}
    (hrun : exec HandlerThreads.step System.start labels = some final) :
    Linearizes labels final (order labels) ∧
      ∀ front back, labels = front ++ back →
        ∃ middle, exec HandlerThreads.step System.start front = some middle ∧
          Linearizes front middle (order front) ∧ order front <+: order labels := by
  refine ⟨linearizes_order hrun, ?_⟩
  rintro front back rfl
  obtain ⟨middle, hfront, _⟩ := exec_append_iff.1 hrun
  exact ⟨middle, hfront, linearizes_order hfront, order_prefix hfront back⟩

end Order

/-- Server 0 is assigned while client 2 asks, and the promotion of server 1 comes
before the answer to server 0, which then carries the address of server 1. -/
def overtakenRun : List (Label ℕ) :=
  [⟨2, 0, .receive (new .getPrimary [] [] 0)⟩,
    ⟨0, 0, .receive (new .setPrimaryIfNotExists [97, 58, 49] [] 0)⟩,
    ⟨0, 0, .proceed⟩, ⟨0, 0, .proceed⟩, ⟨0, 0, .proceed⟩,
    ⟨1, 0, .receive (new .setPrimary [98, 58, 50] [] 0)⟩, ⟨1, 0, .proceed⟩,
    ⟨0, 0, .proceed⟩, ⟨1, 0, .proceed⟩, ⟨2, 0, .proceed⟩, ⟨2, 0, .proceed⟩]

theorem linearizes_overtakenRun :
    ∃ final, exec step System.start overtakenRun = some final ∧
      (final.replies.map fun reply => (reply.thread, answerOf reply.answer)) =
        [(0, .ok, [98, 58, 50]), (1, .ok, [98, 58, 50]),
          (2, .setPrimary, [98, 58, 50])] ∧
      (order overtakenRun).map Handled.thread = [0, 1, 2] ∧
      Linearizes overtakenRun final (order overtakenRun) := by
  have hfinal : (exec step System.start overtakenRun).map
      (fun system => system.replies.map fun reply =>
        (reply.thread, answerOf reply.answer)) =
      some [(0, .ok, [98, 58, 50]), (1, .ok, [98, 58, 50]),
        (2, .setPrimary, [98, 58, 50])] := by
    decide
  obtain ⟨final, hrun, hreplies⟩ := Option.map_eq_some_iff.1 hfinal
  exact ⟨final, hrun, hreplies, by decide, (linearizes_throughout hrun).1⟩

end TwitterLike.AtomicRegister
