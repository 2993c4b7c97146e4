import TwitterLike.Core.Settling
import TwitterLike.Server.LockWakeups

/-!
# Progress of the reader-writer lock

Without new calls and without wake-ups that nobody signalled, the operations that
have been called come to an end: their threads return, or the process dies, or a
writing operation has ended its thread without a release and everybody else waits
for the lock.
-/

namespace TwitterLike.LockProgress

open TwitterLike.ProfilesManager
open TwitterLike.ProfileAccessController
open TwitterLike.LockMonitor
open TwitterLike.LockWakeups
open TwitterLike.Settling
open TwitterLike.Transition

variable {Thread : Type*}

/-- A step of an operation that has been called. -/
def Proceeds : Label Thread → Prop
  | .request _ | .body _ | .release _ _ => True
  | .call _ _ | .wake _ => False

/-- Such a step, with a signal that finds a waiting thread if there is one. -/
def Works (monitor : Monitor Thread) (label : Label Thread) : Prop :=
  Proceeds label ∧ SignalsWaiter monitor label

/-- How the called operations end. -/
inductive Rests (monitor : Monitor Thread) : Prop where
  | returned (houtside : ∀ thread, monitor.threads thread = .outside)
  | died (hdown : monitor.down = true)
  | leaked (thread : Thread) (operation : Operation)
      (hexited : monitor.threads thread = .exited operation)
      (hwrites : writes operation = true)
      (hothers : ∀ other, other ≠ thread → monitor.threads other = .outside ∨
        ∃ waiting, monitor.threads other = .waiting waiting)

/-! ## The work of a thread -/

/-- The steps that a thread has in front of it among `size` threads.  A release
pays for the threads that it wakes. -/
def cost (size : ℕ) : Point → ℕ
  | .outside | .exited _ => 0
  | .releasing _ => size + 1
  | .inside _ => size + 2
  | .waiting _ => size + 3
  | .requesting _ => size + 4

theorem cost_le (size : ℕ) (point : Point) : cost size point ≤ size + 4 := by
  cases point <;> simp [cost]

theorem cost_awake (size : ℕ) (point : Point) :
    cost size (awake point) ≤ cost size point + 1 := by
  cases point <;> simp [cost, awake]

/-- The work of the threads that have called, and the end of the process. -/
def effort (members : Finset Thread) (monitor : Monitor Thread) : ℕ :=
  ∑ thread ∈ members, cost members.card (monitor.threads thread) +
    if monitor.down then 0 else 1

theorem broadcastRead_cases (point : Point) :
    broadcastRead point = point ∨ broadcastRead point = awake point := by
  cases point with
  | waiting operation =>
      rw [broadcastRead]
      split
      · exact .inl rfl
      · exact .inr rfl
  | _ => exact .inl rfl

theorem signalWrite_cases (point : Point) :
    signalWrite point = point ∨ signalWrite point = awake point := by
  cases point with
  | waiting operation =>
      rw [signalWrite]
      split
      · exact .inr rfl
      · exact .inl rfl
  | _ => exact .inl rfl

/-- One thread pays for the step; the others stay where they are or are woken. -/
structure Pays (before after : Thread → Point) (payer : Thread) (raise : ℕ) :
    Prop where
  others : ∀ other, other ≠ payer →
    after other = before other ∨ (raise = 1 ∧ after other = awake (before other))
  pays : ∀ size, cost size (after payer) + raise * size < cost size (before payer)

theorem pays_release {before after : Thread → Point} {thread : Thread}
    {operation : Operation} (hpoint : before thread = .releasing operation)
    (hself : after thread = .outside)
    (hothers : ∀ other, other ≠ thread →
      after other = before other ∨ after other = awake (before other)) :
    Pays before after thread 1 where
  others other hne := (hothers other hne).imp_right fun hawake => ⟨rfl, hawake⟩
  pays size := by
    rw [hself, hpoint]
    simp [cost]

section Steps

variable [DecidableEq Thread] {monitor next : Monitor Thread}
  {label : Label Thread} {threads : Thread → Point} {thread : Thread} {point : Point}

theorem pays_update (hless : ∀ size, cost size point < cost size (threads thread)) :
    Pays threads (Function.update threads thread point) thread 0 where
  others other hne := .inl (Function.update_of_ne hne _ _)
  pays size := by
    rw [Function.update_self, Nat.zero_mul]
    exact hless size

/-- A step of a called operation ends the process or is paid for. -/
theorem pays_of_step (hproceeds : Proceeds label)
    (hstep : step monitor label = some next) :
    (next.down = true ∧ next.threads = monitor.threads) ∨
      (next.down = monitor.down ∧
        ∃ payer raise, Pays monitor.threads next.threads payer raise) := by
  cases moves_of_step hstep with
  | called | woken => exact hproceeds.elim
  | died => exact .inl ⟨rfl, rfl⟩
  | @entered thread operation controller hpoint hrequest =>
      refine .inr ⟨rfl, thread, 0, pays_update fun size => ?_⟩
      rw [hpoint]
      simp [cost]
  | @slept thread operation hpoint hrequest =>
      refine .inr ⟨rfl, thread, 0, pays_update fun size => ?_⟩
      rw [hpoint]
      simp [cost]
  | @returned thread operation hpoint =>
      refine .inr ⟨rfl, thread, 0, pays_update fun size => ?_⟩
      rw [hpoint]
      simp [cost]
  | @exited thread operation hpoint =>
      refine .inr ⟨rfl, thread, 0, pays_update fun size => ?_⟩
      rw [hpoint]
      simp [cost]
  | @releasedWrite thread picked operation hpoint hwrites =>
      refine .inr ⟨rfl, thread, 1, pays_release hpoint ?_ fun other hne => ?_⟩
      · rw [Monitor.broadcast_threads, signalled_threads, released_threads, if_pos rfl]
        split
        · rfl
        · rfl
      · rw [Monitor.broadcast_threads, signalled_threads, released_threads,
          if_neg hne]
        split
        · rcases signalWrite_cases (monitor.threads other) with hsame | hawake
          · rw [hsame]
            exact broadcastRead_cases _
          · rw [hawake]
            cases monitor.threads other <;> exact .inr rfl
        · exact broadcastRead_cases _
  | @releasedLast thread picked operation hpoint hreads =>
      refine .inr ⟨rfl, thread, 1, pays_release hpoint ?_ fun other hne => ?_⟩
      · rw [signalled_threads, released_threads, if_pos rfl]
        split
        · rfl
        · rfl
      · rw [signalled_threads, released_threads, if_neg hne]
        split
        · exact signalWrite_cases _
        · exact .inl rfl
  | @releasedRead thread picked operation hpoint hreads hmore =>
      refine .inr ⟨rfl, thread, 1, pays_release hpoint ?_ fun other hne => ?_⟩
      · rw [released_threads, if_pos rfl]
      · rw [released_threads, if_neg hne]
        exact .inl rfl

theorem Pays.sum_lt {members : Finset Thread} {before after : Thread → Point}
    {payer : Thread} {raise : ℕ} (hpays : Pays before after payer raise)
    (hmem : payer ∈ members) :
    ∑ thread ∈ members, cost members.card (after thread) <
      ∑ thread ∈ members, cost members.card (before thread) := by
  apply sum_lt_of_payer hmem _ (hpays.pays members.card)
  intro other hne
  rcases hpays.others other hne with hsame | ⟨rfl, hawake⟩
  · rw [hsame]
    exact Nat.le_add_right _ _
  · rw [hawake]
    exact cost_awake _ _

/-- Called operations, all of them of some members. -/
theorem wanes (members : Finset Thread) :
    Wanes step Works
      (fun monitor => ∀ thread, thread ∉ members → monitor.threads thread = .outside)
      (effort members) := by
  intro monitor label next houtside hworks hstep
  have hdown : monitor.down = false := by
    by_contra hdown
    rw [step, if_pos (Bool.eq_true_of_not_eq_false hdown)] at hstep
    cases hstep
  rcases pays_of_step hworks.1 hstep with
    ⟨hdied, hthreads⟩ | ⟨hsame, payer, raise, hpays⟩
  · constructor
    · intro thread habsent
      rw [hthreads]
      exact houtside thread habsent
    · simp [effort, hthreads, hdied, hdown]
  · have hmem : payer ∈ members := by
      by_contra habsent
      have hnothing := hpays.pays members.card
      rw [houtside payer habsent, cost] at hnothing
      exact Nat.not_lt_zero _ hnothing
    constructor
    · intro thread habsent
      have hbefore := houtside thread habsent
      rcases hpays.others thread (fun heq => habsent (heq ▸ hmem)) with
        hafter | ⟨_, hafter⟩
      · rw [hafter, hbefore]
      · rw [hafter, hbefore]
        rfl
    · rw [effort, effort, hsame]
      exact Nat.add_lt_add_right (hpays.sum_lt hmem) _

omit [DecidableEq Thread] in
theorem effort_le (members : Finset Thread) (monitor : Monitor Thread) :
    effort members monitor ≤ members.card * (members.card + 4) + 1 := by
  have hsum : ∑ thread ∈ members, cost members.card (monitor.threads thread) ≤
      members.card * (members.card + 4) := by
    apply Finset.sum_le_card_nsmul
    exact fun thread _ => cost_le _ _
  rw [effort]
  split <;> omega

/-! ## At rest -/

/-- Only a writing operation ends its thread. -/
def ExitsWrite (monitor : Monitor Thread) : Prop :=
  ∀ thread operation, monitor.threads thread = .exited operation →
    writes operation = true

/-- A call into the store that reads returns. -/
theorem body_of_reads {operation : Operation} (store : Store)
    (hreads : writes operation = false) : (body store operation).1 = none := by
  cases operation with
  | getProfileById profileId => rfl
  | hasProfile profileId => rfl
  | _ => cases hreads

omit [DecidableEq Thread] in
theorem exited_of_awake {operation : Operation}
    (hexited : awake point = .exited operation) : point = .exited operation := by
  cases point with
  | waiting other => cases hexited
  | _ => exact hexited

theorem exited_of_goto {other : Thread} {operation : Operation}
    (hexited : (monitor.goto thread point).threads other = .exited operation) :
    monitor.threads other = .exited operation ∨
      (other = thread ∧ point = .exited operation) := by
  rw [Monitor.goto_threads, Function.update_apply] at hexited
  split at hexited
  · next heq => exact .inr ⟨heq, hexited⟩
  · exact .inl hexited

theorem exited_of_released {other : Thread} {operation released : Operation}
    (hexited : (monitor.released thread released).threads other =
      .exited operation) : monitor.threads other = .exited operation := by
  rw [released_threads] at hexited
  split at hexited
  · cases hexited
  · exact hexited

theorem exited_of_signalled {picked other : Thread} {operation : Operation}
    (hexited : (monitor.signalled picked).threads other = .exited operation) :
    monitor.threads other = .exited operation := by
  rw [signalled_threads] at hexited
  split at hexited
  · rcases signalWrite_cases (monitor.threads other) with hsame | hawake
    · exact hsame ▸ hexited
    · exact exited_of_awake (hawake ▸ hexited)
  · exact hexited

omit [DecidableEq Thread] in
theorem exited_of_broadcast {other : Thread} {operation : Operation}
    (hexited : monitor.broadcast.threads other = .exited operation) :
    monitor.threads other = .exited operation := by
  rw [Monitor.broadcast_threads] at hexited
  rcases broadcastRead_cases (monitor.threads other) with hsame | hawake
  · exact hsame ▸ hexited
  · exact exited_of_awake (hawake ▸ hexited)

/-- A call into the store that ends its thread writes. -/
theorem writes_of_exited {operation : Operation}
    (hstep : step monitor (.body thread) =
      some ((monitor.called operation).goto thread (.exited operation)))
    (hpoint : monitor.threads thread = .inside operation) :
    writes operation = true := by
  by_contra hreads
  have hreturns := body_of_reads monitor.controller.store
    (Bool.eq_false_of_not_eq_true hreads)
  have hthreads : (step monitor (.body thread)).map (·.threads thread) =
      some (.exited operation) := by
    rw [hstep, Option.map_some, Monitor.goto_threads, Function.update_self]
  unfold step at hthreads
  split at hthreads
  · cases hthreads
  · simp [stepThread, hpoint, stepBody, hreturns] at hthreads

theorem exitsWrite_step (hexits : ExitsWrite monitor)
    (hstep : step monitor label = some next) : ExitsWrite next := by
  intro other operation hexited
  cases moves_of_step hstep with
  | called | entered | slept | returned =>
      exact hexits other operation
        ((exited_of_goto hexited).resolve_right fun hpoint => nomatch hpoint.2)
  | woken =>
      apply hexits other operation
      rcases exited_of_goto hexited with hbefore | ⟨rfl, hawake⟩
      · exact hbefore
      · exact exited_of_awake hawake
  | exited hpoint =>
      rcases exited_of_goto hexited with hbefore | ⟨_, hsame⟩
      · exact hexits other operation hbefore
      · cases hsame
        exact writes_of_exited hstep hpoint
  | died => exact hexits other operation hexited
  | releasedWrite =>
      exact hexits other operation (exited_of_released
        (exited_of_signalled (exited_of_broadcast hexited)))
  | releasedLast =>
      exact hexits other operation
        (exited_of_released (exited_of_signalled hexited))
  | releasedRead => exact hexits other operation (exited_of_released hexited)

/-- Where a thread can be when no called operation can go on. -/
theorem idle_of_atRest (hup : monitor.down = false)
    (hrest : AtRest step Works monitor) (thread : Thread) :
    monitor.threads thread = .outside ∨
      (∃ operation, monitor.threads thread = .waiting operation) ∨
      ∃ operation, monitor.threads thread = .exited operation := by
  have hstuck {label : Label Thread} (hworks : Works monitor label) :
      stepThread monitor label = none := by
    have hnone := hrest label hworks
    rwa [step, hup] at hnone
  cases hpoint : monitor.threads thread with
  | outside => exact .inl rfl
  | waiting operation => exact .inr (.inl ⟨operation, rfl⟩)
  | exited operation => exact .inr (.inr ⟨operation, rfl⟩)
  | requesting operation =>
      have hnone := @hstuck (.request thread) ⟨trivial, trivial⟩
      rw [stepThread, hpoint, stepRequest] at hnone
      split at hnone <;> cases hnone
  | inside operation =>
      have hnone := @hstuck (.body thread) ⟨trivial, trivial⟩
      rw [stepThread, hpoint, stepBody] at hnone
      dsimp only at hnone
      split at hnone <;> cases hnone
  | releasing operation =>
      obtain ⟨picked, hpicked⟩ :
          ∃ picked, SignalsWaiter monitor (.release thread picked) := by
        by_cases hasleep : ∃ other, AsleepToWrite (monitor.threads other)
        · obtain ⟨other, hother⟩ := hasleep
          exact ⟨other, fun _ => hother⟩
        · exact ⟨thread, fun hexists => absurd hexists hasleep⟩
      have hnone := @hstuck (.release thread picked) ⟨trivial, hpicked⟩
      rw [stepThread, hpoint, stepRelease] at hnone
      split at hnone
      · cases hnone
      · split at hnone <;> cases hnone

omit [DecidableEq Thread] in
/-- A lock that nobody holds lets nobody wait. -/
theorem outside_of_nobody {woken : Thread → Bool}
    (hattended : Attended monitor woken)
    (hidle : ∀ thread, monitor.threads thread = .outside ∨
      ∃ operation, monitor.threads thread = .waiting operation) (thread : Thread) :
    monitor.threads thread = .outside := by
  have hnobody (other : Thread) (operation : Operation) :
      holding (monitor.threads other) ≠ some operation := by
    rcases hidle other with hother | ⟨_, hother⟩
    · rw [hother]
      exact nofun
    · rw [hother]
      exact nofun
  have hreaders : monitor.controller.numReaders = 0 :=
    hattended.exclusive.readers.eq_zero fun other ⟨operation, hholding, _⟩ =>
      hnobody other operation hholding
  have hwriters : monitor.controller.numWriters = 0 :=
    hattended.exclusive.writers.eq_zero fun other ⟨operation, hholding, _⟩ =>
      hnobody other operation hholding
  refine (hidle thread).resolve_right ?_
  rintro ⟨operation, hwaiting⟩
  cases hwrites : writes operation with
  | false =>
      exact hattended.readers hwriters thread ⟨operation, hwaiting, hwrites⟩
  | true =>
      obtain ⟨other, _, request, hrequest, _⟩ :=
        hattended.writers ⟨hreaders, hwriters⟩ thread ⟨operation, hwaiting, hwrites⟩
      rcases hidle other with hother | ⟨_, hother⟩
      · cases hother.symm.trans hrequest
      · cases hother.symm.trans hrequest

theorem rests_of_atRest {woken : Thread → Bool}
    (hattended : Attended monitor woken) (hexits : ExitsWrite monitor)
    (hrest : AtRest step Works monitor) : Rests monitor := by
  by_cases hup : monitor.down = false
  swap
  · exact .died (Bool.eq_true_of_not_eq_false hup)
  have hidle := idle_of_atRest hup hrest
  by_cases hleaked :
      ∃ thread operation, monitor.threads thread = .exited operation
  · obtain ⟨thread, operation, hexited⟩ := hleaked
    have hwrites := hexits thread operation hexited
    refine .leaked thread operation hexited hwrites fun other hne => ?_
    rcases hidle other with houtside | hwaiting | ⟨access, haccess⟩
    · exact .inl houtside
    · exact .inr hwaiting
    · have hwriting : Writing (monitor.threads thread) :=
        ⟨operation, hexited ▸ rfl, hwrites⟩
      have hholding : holding (monitor.threads other) = some access := haccess ▸ rfl
      exact absurd (hattended.exclusive.noOverlap hwriting hholding) hne
  · refine .returned (outside_of_nobody hattended fun thread => ?_)
    refine (hidle thread).imp_right fun hother => hother.resolve_right ?_
    exact fun ⟨operation, hexited⟩ => hleaked ⟨thread, operation, hexited⟩

theorem atRest_of_rests (hrests : Rests monitor) : AtRest step Works monitor := by
  rintro label ⟨hproceeds, _⟩
  by_cases hup : monitor.down = false
  swap
  · exact if_pos (Bool.eq_true_of_not_eq_false hup)
  have hidle (thread : Thread) : monitor.threads thread = .outside ∨
      (∃ operation, monitor.threads thread = .waiting operation) ∨
      ∃ operation, monitor.threads thread = .exited operation := by
    cases hrests with
    | returned houtside => exact .inl (houtside thread)
    | died hdown => cases hup.symm.trans hdown
    | leaked exited operation hexited _ hothers =>
        by_cases heq : thread = exited
        · exact .inr (.inr ⟨operation, heq ▸ hexited⟩)
        · exact (hothers thread heq).imp_right .inl
  rw [step, hup, if_neg Bool.false_ne_true]
  cases label with
  | call | wake => exact hproceeds.elim
  | request thread | body thread | release thread picked =>
      rcases hidle thread with hpoint | ⟨_, hpoint⟩ | ⟨_, hpoint⟩
      all_goals simp [stepThread, hpoint, stepRequest, stepBody, stepRelease]

end Steps

/-! ## Runs -/

section Runs

variable [DecidableEq Thread] {labels : List (Label Thread)}
  {monitor : Monitor Thread} {members : Finset Thread}

theorem exitsWrite_of_run (hrun : exec step Monitor.start labels = some monitor) :
    ExitsWrite monitor :=
  (throughout_of_step (fun _ => id)
    (fun _ _ _ hexits hstep => exitsWrite_step hexits hstep)
    (fun _ _ hexited => by cases hexited)).final hrun

theorem atRest_iff (hrun : exec step Monitor.start labels = some monitor)
    (hsignals : Along step SignalsWaiter Monitor.start labels) :
    AtRest step Works monitor ↔ Rests monitor := by
  have hexits := exitsWrite_of_run hrun
  rw [← @exec_recording _ _ step _ recordWoken Monitor.start (fun _ => false),
    Option.map_eq_some_iff] at hrun
  obtain ⟨⟨monitor, woken⟩, hwatch, rfl⟩ := hrun
  exact ⟨rests_of_atRest (attended_of_run hwatch hsignals) hexits, atRest_of_rests⟩

/-- No deadlock and no livelock: whatever the called operations do, they come to
rest after a bounded number of steps, and then they have returned, or the process
has died, or one of them has ended its thread without giving the lock back. -/
theorem lock_settles (hrun : exec step Monitor.start labels = some monitor)
    (hsignals : Along step SignalsWaiter Monitor.start labels)
    (hmembers : ∀ thread, thread ∉ members → monitor.threads thread = .outside) :
    (∀ later after, Along step Works monitor later →
      exec step monitor later = some after →
        later.length ≤ members.card * (members.card + 4) + 1 ∧
        (AtRest step Works after ↔ Rests after)) ∧
      ∃ later after, Along step Works monitor later ∧
        exec step monitor later = some after ∧ Rests after := by
  have hafter (later : List (Label Thread)) (after : Monitor Thread)
      (hworks : Along step Works monitor later)
      (hlater : exec step monitor later = some after) :
      AtRest step Works after ↔ Rests after :=
    atRest_iff (exec_append_iff.2 ⟨monitor, hrun, hlater⟩)
      (hsignals.concat hrun (hworks.imp fun _ _ hworks => hworks.2))
  constructor
  · intro later after hworks hlater
    obtain ⟨_, hle⟩ := (wanes members).length_le hmembers hworks hlater
    have hbound := effort_le members monitor
    exact ⟨by omega, hafter later after hworks hlater⟩
  · obtain ⟨later, after, hworks, hlater, hrest⟩ :=
      (wanes members).exists_atRest hmembers
    exact ⟨later, after, hworks, hlater, (hafter later after hworks hlater).1 hrest⟩

/-- Once a writing operation has ended its thread, nobody gets the lock again,
whatever happens. -/
theorem leaked_for_ever {thread : Thread} {operation : Operation}
    (hrun : exec step Monitor.start labels = some monitor)
    (hexited : monitor.threads thread = .exited operation)
    {later : List (Label Thread)} {after : Monitor Thread}
    (hlater : exec step monitor later = some after) :
    after.threads thread = .exited operation ∧
      ∀ other access, holding (after.threads other) = some access →
        other = thread := by
  have hstays : after.threads thread = .exited operation := by
    refine @exec_invariant _ _ step _
      (fun monitor => monitor.threads thread = .exited operation) ?_ _ _ _ hexited
      (along_true monitor later) hlater
    intro before label next hbefore _ hstep
    have hpasses := passes_of_step hstep thread
    rw [hbefore] at hpasses
    generalize next.threads thread = point at hpasses ⊢
    cases hpasses with
    | stays => rfl
  have hrun := exec_append_iff.2 ⟨monitor, hrun, hlater⟩
  have hexclusive : Exclusive after :=
    (throughout_of_step (fun _ => id)
      (fun _ _ _ hexclusive hstep => hexclusive.step hstep)
      exclusive_start).final hrun
  refine ⟨hstays, fun other access haccess => hexclusive.noOverlap ?_ haccess⟩
  exact ⟨operation, hstays ▸ rfl, exitsWrite_of_run hrun thread operation hstays⟩

end Runs

theorem lock_settles_contendedRun :
    ∃ monitor : Monitor (Fin 4),
      exec step Monitor.start contendedRun = some monitor ∧
      (∃ operation, monitor.threads 2 = .waiting operation) ∧
      ∃ later after, Along step Works monitor later ∧
        exec step monitor later = some after ∧ Rests after := by
  have hfinal : (exec step (Monitor.start : Monitor (Fin 4)) contendedRun).map
      (fun monitor => decide (AsleepToWrite (monitor.threads 2))) = some true := by
    decide
  obtain ⟨monitor, hrun, hasleep⟩ := Option.map_eq_some_iff.1 hfinal
  obtain ⟨operation, hwaiting, _⟩ := of_decide_eq_true hasleep
  exact ⟨monitor, hrun, ⟨operation, hwaiting⟩,
    (@lock_settles _ _ _ _ Finset.univ hrun (by decide)
      fun thread habsent => absurd (Finset.mem_univ thread) habsent).2⟩

/-- The three threads log `a` in; the third one is refused. -/
def refusedRun : List (Label ℕ) :=
  [.call 0 (.createProfileIfNotExists [97] (some 1) 0), .request 0, .body 0,
    .release 0 0, .call 1 (.createProfileIfNotExists [97] (some 2) 0), .request 1,
    .body 1, .release 1 0, .call 2 (.createProfileIfNotExists [97] (some 3) 0),
    .request 2, .body 2]

theorem leaked_refusedRun :
    ∃ monitor after : Monitor ℕ, exec step Monitor.start refusedRun = some monitor ∧
      exec step monitor [.call 0 (.hasProfile [97]), .request 0] = some after ∧
      ∀ other access, holding (after.threads other) = some access → other = 2 := by
  have hfinal : (exec step (Monitor.start : Monitor ℕ)
      (refusedRun ++ [.call 0 (.hasProfile [97]), .request 0])).isSome := by
    decide
  have hexited : ((exec step (Monitor.start : Monitor ℕ) refusedRun).map
      fun monitor => match monitor.threads 2 with
        | .exited _ => true
        | _ => false) = some true := by
    decide
  obtain ⟨after, hafter⟩ := Option.isSome_iff_exists.1 hfinal
  obtain ⟨monitor, hrun, hlater⟩ := exec_append_iff.1 hafter
  rw [hrun, Option.map_some, Option.some.injEq] at hexited
  split at hexited
  · next hpoint =>
      exact ⟨monitor, after, hrun, hlater, (leaked_for_ever hrun hpoint hlater).2⟩
  · cases hexited

end TwitterLike.LockProgress
