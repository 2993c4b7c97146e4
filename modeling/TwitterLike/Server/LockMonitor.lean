import TwitterLike.Core.Census
import TwitterLike.Core.Transition
import TwitterLike.Server.ProfileAccessController

/-!
# The reader-writer lock as a monitor

`requestRead`, `requestWrite`, `releaseRead` and `releaseWrite` of
`server/ProfileAccessController.cpp` with the mutex `m` and the two condition
variables, for any number of threads.  What a thread does while it has `m` is
one step, and so is the call into the store between a request and its release.
-/

namespace TwitterLike.LockMonitor

open TwitterLike.ByteBuffer
open TwitterLike.Profiles
open TwitterLike.ProfilesManager
open TwitterLike.ProfileAccessController
open TwitterLike.Census
open TwitterLike.Transition

/-! ## Operations -/

/-- The operation is enclosed in `requestWrite` and `releaseWrite`. -/
def writes : Operation → Bool
  | .getProfileById _ | .hasProfile _ => false
  | _ => true

/-- What `requestRead` or `requestWrite` does while it has `m`: it gets past its
loop and counts, or has to wait. -/
def request (controller : Controller) (operation : Operation) :
    Option Controller :=
  if writes operation then
    if controller.writable then some controller.requestWrite else none
  else
    if controller.readable then some controller.requestRead else none

/-- The exit of a result, `none` for a normal return. -/
def exitOf {α : Type} : Except Exit α → Option Exit
  | .ok _ => none
  | .error exit => some exit

/-- The call into the store. -/
def body (store : Store) : Operation → Option Exit × Store
  | .insertProfile profileId profile =>
      let result := store.insertProfile profileId profile
      (exitOf result.1, result.2)
  | .getProfileById _ => (none, store)
  | .hasProfile _ => (none, store)
  | .addFollowerTo followed follower =>
      let result := store.addFollowerTo followed follower
      (exitOf result.1, result.2)
  | .sendToFollowersOf profile message =>
      let result := store.sendToFollowersOf profile message
      (exitOf result.1, result.2)
  | .createProfileIfNotExists profileId conn time =>
      let result := store.createProfileIfNotExists profileId conn time
      (exitOf result.1, result.2)
  | .sendCloseConnToAll time =>
      let result := store.sendCloseConnToAll time
      (exitOf result.1, result.2)

/-- `releaseRead` or `releaseWrite`, without its signals. -/
def release (controller : Controller) (operation : Operation) : Controller :=
  if writes operation then controller.releaseWrite else controller.releaseRead

/-- How an operation goes on behind the call into the store, from the controller
that its request has left. -/
def finish (operation : Operation) (entered : Controller) :
    Option Exit × Store → Option Exit × Controller
  | (none, store) => (none, release { entered with store := store } operation)
  | (some exit, store) => (some exit, { entered with store := store })

section Alone

variable {controller entered : Controller} {operation : Operation}

theorem wayOut_withRead {α : Type} (call : Store → α)
    (hreads : writes operation = false)
    (hrequest : request controller operation = some entered) :
    wayOut (controller.withRead call) =
      finish operation entered (none, entered.store) := by
  rw [request, hreads] at hrequest
  by_cases hreadable : controller.readable = true
  · simp only [hreadable] at hrequest
    cases hrequest
    rw [Controller.withRead, if_pos hreadable, finish, release, hreads]
    rfl
  · simp [hreadable] at hrequest

theorem wayOut_withWrite {α : Type} (call : Store → Except Exit α × Store)
    (hwrites : writes operation = true)
    (hrequest : request controller operation = some entered) :
    wayOut (controller.withWrite call) =
      finish operation entered
        (exitOf (call entered.store).1, (call entered.store).2) := by
  rw [request, hwrites] at hrequest
  by_cases hwritable : controller.writable = true
  · simp only [hwritable] at hrequest
    cases hrequest
    rw [Controller.withWrite, if_pos hwritable]
    dsimp only
    rcases call controller.requestWrite.store with ⟨exit | value, store⟩
    · rfl
    · rw [exitOf, finish, release, hwrites]
      rfl
  · simp [hwritable] at hrequest

/-- An operation that runs alone is its request, its call into the store and,
if that returns, its release. -/
theorem run_eq_of_request
    (hrequest : request controller operation = some entered) :
    operation.run controller =
      finish operation entered (body entered.store operation) := by
  cases operation with
  | getProfileById profileId => exact wayOut_withRead _ rfl hrequest
  | hasProfile profileId => exact wayOut_withRead _ rfl hrequest
  | _ => exact wayOut_withWrite _ rfl hrequest

/-- A request that has to wait blocks the operation that runs alone. -/
theorem run_of_request_eq_none (hrequest : request controller operation = none) :
    operation.run controller = (some .blocked, controller) := by
  have hread {α : Type} (call : Store → α)
      (hblocked : ¬ controller.readable = true) :
      wayOut (controller.withRead call) = (some .blocked, controller) := by
    rw [Controller.withRead, if_neg hblocked]
    rfl
  have hwrite {α : Type} (call : Store → Except Exit α × Store)
      (hblocked : ¬ controller.writable = true) :
      wayOut (controller.withWrite call) = (some .blocked, controller) := by
    rw [Controller.withWrite, if_neg hblocked]
    rfl
  cases operation with
  | getProfileById profileId =>
      exact hread _ (by simpa [request, writes] using hrequest)
  | hasProfile profileId =>
      exact hread _ (by simpa [request, writes] using hrequest)
  | _ => exact hwrite _ (by simpa [request, writes] using hrequest)

end Alone

/-! ## States -/

/-- Where a thread is in an operation of the controller. -/
inductive Point where
  | outside
  /-- about to lock `m` in the request, for the first time or after a wait -/
  | requesting (operation : Operation)
  /-- in `pthread_cond_wait` -/
  | waiting (operation : Operation)
  /-- behind the request, in the call into the store -/
  | inside (operation : Operation)
  /-- the call has returned -/
  | releasing (operation : Operation)
  /-- the call has ended the thread, which will never get to the release -/
  | exited (operation : Operation)

structure Monitor (Thread : Type*) where
  controller : Controller
  threads : Thread → Point
  /-- the process has died -/
  down : Bool

variable {Thread : Type*}

def Monitor.start : Monitor Thread where
  controller := Controller.new
  threads := fun _ => .outside
  down := false

/-- The operation whose request the thread has got through and whose release it
has not begun. -/
def holding : Point → Option Operation
  | .inside operation | .releasing operation | .exited operation => some operation
  | _ => none

/-- The thread is between the end of `requestRead` and `releaseRead`. -/
def Reading (point : Point) : Prop :=
  ∃ operation, holding point = some operation ∧ writes operation = false

/-- The thread is between the end of `requestWrite` and `releaseWrite`. -/
def Writing (point : Point) : Prop :=
  ∃ operation, holding point = some operation ∧ writes operation = true

/-! ## Signals -/

/-- A thread that wakes up in `pthread_cond_wait` has to lock `m` again. -/
def awake : Point → Point
  | .waiting operation => .requesting operation
  | point => point

/-- `pthread_cond_broadcast(&ok_to_read)`. -/
def broadcastRead : Point → Point
  | .waiting operation =>
      if writes operation then .waiting operation else .requesting operation
  | point => point

/-- What `pthread_cond_signal(&ok_to_write)` does to the thread it picks. -/
def signalWrite : Point → Point
  | .waiting operation =>
      if writes operation then .requesting operation else .waiting operation
  | point => point

section Steps

variable [DecidableEq Thread] (monitor : Monitor Thread)

@[simps]
def Monitor.goto (thread : Thread) (point : Point) : Monitor Thread :=
  { monitor with threads := Function.update monitor.threads thread point }

/-- The signal reaches the picked thread if that waits for `ok_to_write`. -/
def Monitor.signalled (picked : Thread) : Monitor Thread :=
  monitor.goto picked (signalWrite (monitor.threads picked))

@[simps]
def Monitor.broadcast : Monitor Thread :=
  { monitor with threads := fun thread => broadcastRead (monitor.threads thread) }

@[simps]
def Monitor.setController (controller : Controller) : Monitor Thread :=
  { monitor with controller := controller }

/-! ## Steps -/

inductive Label (Thread : Type*) where
  /-- the thread calls an operation -/
  | call (thread : Thread) (operation : Operation)
  /-- the thread locks `m` in the request -/
  | request (thread : Thread)
  /-- a wait ends without a signal -/
  | wake (thread : Thread)
  | body (thread : Thread)
  /-- the thread locks `m` in the release; a signal would go to `picked` -/
  | release (thread picked : Thread)

/-- The critical section of a request. -/
def stepRequest (thread : Thread) : Point → Option (Monitor Thread)
  | .requesting operation =>
      match request monitor.controller operation with
      | some controller =>
          some ((monitor.setController controller).goto thread
            (.inside operation))
      | none => some (monitor.goto thread (.waiting operation))
  | _ => none

/-- The call into the store.  A null dereference kills the process, and
`pthread_exit` or an exception ends the thread. -/
def stepBody (thread : Thread) : Point → Option (Monitor Thread)
  | .inside operation =>
      let result := body monitor.controller.store operation
      let called := monitor.setController
        { monitor.controller with store := result.2 }
      match result.1 with
      | none => some (called.goto thread (.releasing operation))
      | some .nullDeref => some { called with down := true }
      | some _ => some (called.goto thread (.exited operation))
  | _ => none

/-- The critical section of a release: `releaseRead` signals when the last
reader leaves, `releaseWrite` always and to all readers. -/
def stepRelease (thread picked : Thread) : Point → Option (Monitor Thread)
  | .releasing operation =>
      let released := (monitor.setController
        (release monitor.controller operation)).goto thread .outside
      if writes operation then some (released.signalled picked).broadcast
      else if released.controller.numReaders = 0 then
        some (released.signalled picked)
      else some released
  | _ => none

def stepThread : Label Thread → Option (Monitor Thread)
  | .call thread operation =>
      match monitor.threads thread with
      | .outside => some (monitor.goto thread (.requesting operation))
      | _ => none
  | .request thread => stepRequest monitor thread (monitor.threads thread)
  | .wake thread => some (monitor.goto thread (awake (monitor.threads thread)))
  | .body thread => stepBody monitor thread (monitor.threads thread)
  | .release thread picked =>
      stepRelease monitor thread picked (monitor.threads thread)

def step (monitor : Monitor Thread) (label : Label Thread) :
    Option (Monitor Thread) :=
  if monitor.down then none else stepThread monitor label

/-! ### What a step can do -/

/-- The monitor when the call into the store has ended. -/
@[simps!]
def Monitor.called (operation : Operation) : Monitor Thread :=
  monitor.setController
    { monitor.controller with
      store := (body monitor.controller.store operation).2 }

/-- The monitor when the thread has released the lock, without the signals. -/
def Monitor.released (thread : Thread) (operation : Operation) : Monitor Thread :=
  (monitor.setController (release monitor.controller operation)).goto thread
    .outside

inductive Moves : Label Thread → Monitor Thread → Prop where
  | called {thread : Thread} {operation : Operation}
      (hpoint : monitor.threads thread = .outside) :
      Moves (.call thread operation) (monitor.goto thread (.requesting operation))
  | entered {thread : Thread} {operation : Operation} {controller : Controller}
      (hpoint : monitor.threads thread = .requesting operation)
      (hrequest : request monitor.controller operation = some controller) :
      Moves (.request thread)
        ((monitor.setController controller).goto thread (.inside operation))
  | slept {thread : Thread} {operation : Operation}
      (hpoint : monitor.threads thread = .requesting operation)
      (hrequest : request monitor.controller operation = none) :
      Moves (.request thread) (monitor.goto thread (.waiting operation))
  | woken {thread : Thread} :
      Moves (.wake thread)
        (monitor.goto thread (awake (monitor.threads thread)))
  | returned {thread : Thread} {operation : Operation}
      (hpoint : monitor.threads thread = .inside operation) :
      Moves (.body thread)
        ((monitor.called operation).goto thread (.releasing operation))
  | exited {thread : Thread} {operation : Operation}
      (hpoint : monitor.threads thread = .inside operation) :
      Moves (.body thread)
        ((monitor.called operation).goto thread (.exited operation))
  | died {thread : Thread} {operation : Operation} :
      Moves (.body thread) { monitor.called operation with down := true }
  | releasedWrite {thread picked : Thread} {operation : Operation}
      (hpoint : monitor.threads thread = .releasing operation)
      (hwrites : writes operation = true) :
      Moves (.release thread picked)
        ((monitor.released thread operation).signalled picked).broadcast
  | releasedLast {thread picked : Thread} {operation : Operation}
      (hpoint : monitor.threads thread = .releasing operation)
      (hreads : writes operation = false) :
      Moves (.release thread picked)
        ((monitor.released thread operation).signalled picked)
  | releasedRead {thread picked : Thread} {operation : Operation}
      (hpoint : monitor.threads thread = .releasing operation)
      (hreads : writes operation = false)
      (hmore : (monitor.released thread operation).controller.numReaders ≠ 0) :
      Moves (.release thread picked) (monitor.released thread operation)

variable {monitor}

theorem moves_of_stepBody {thread : Thread} {next : Monitor Thread}
    (hstep : stepBody monitor thread (monitor.threads thread) = some next) :
    Moves monitor (.body thread) next := by
  unfold stepBody at hstep
  split at hstep
  · next operation hpoint =>
      dsimp only at hstep
      split at hstep
      · cases hstep
        exact .returned hpoint
      · cases hstep
        exact .died
      · cases hstep
        exact .exited hpoint
  · cases hstep

theorem moves_of_stepRelease {thread picked : Thread} {next : Monitor Thread}
    (hstep : stepRelease monitor thread picked (monitor.threads thread) =
      some next) : Moves monitor (.release thread picked) next := by
  unfold stepRelease at hstep
  split at hstep
  · next operation hpoint =>
      dsimp only at hstep
      split at hstep
      · next hwrites =>
          cases hstep
          exact .releasedWrite hpoint hwrites
      · next hreads =>
          have hreads := Bool.eq_false_of_not_eq_true hreads
          split at hstep
          · cases hstep
            exact .releasedLast hpoint hreads
          · next hmore =>
              cases hstep
              exact .releasedRead hpoint hreads hmore
  · cases hstep

theorem moves_of_step {label : Label Thread} {next : Monitor Thread}
    (hstep : step monitor label = some next) : Moves monitor label next := by
  unfold step at hstep
  split at hstep
  · cases hstep
  cases label with
  | call thread operation =>
      rw [stepThread] at hstep
      split at hstep
      · next hpoint =>
          cases hstep
          exact .called hpoint
      · cases hstep
  | request thread =>
      unfold stepThread stepRequest at hstep
      dsimp only at hstep
      split at hstep
      · next operation hpoint =>
          split at hstep
          · next controller hrequest =>
              cases hstep
              exact .entered hpoint hrequest
          · next hrequest =>
              cases hstep
              exact .slept hpoint hrequest
      · cases hstep
  | wake thread =>
      cases hstep
      exact .woken
  | body thread => exact moves_of_stepBody hstep
  | release thread picked => exact moves_of_stepRelease hstep

end Steps

/-! ## The invariant -/

/-- The counters count the threads that hold the lock, and a writer holds it
alone. -/
structure Exclusive (monitor : Monitor Thread) : Prop where
  readers : Counts monitor.threads Reading monitor.controller.numReaders
  writers : Counts monitor.threads Writing monitor.controller.numWriters
  atMostOne : monitor.controller.numWriters ≤ 1
  alone : monitor.controller.numWriters = 1 → monitor.controller.numReaders = 0

theorem exclusive_start : Exclusive (Monitor.start : Monitor Thread) where
  readers := counts_zero fun _ => nofun
  writers := counts_zero fun _ => nofun
  atMostOne := zero_le_one
  alone _ := rfl

section Invariant

variable [DecidableEq Thread] {monitor next : Monitor Thread} {thread : Thread}
  {point : Point} {operation : Operation}

theorem reading_congr {left right : Point} (hsame : holding left = holding right) :
    Reading left ↔ Reading right := by
  unfold Reading
  rw [hsame]

theorem writing_congr {left right : Point} (hsame : holding left = holding right) :
    Writing left ↔ Writing right := by
  unfold Writing
  rw [hsame]

theorem holding_awake (point : Point) : holding (awake point) = holding point := by
  cases point <;> rfl

theorem holding_broadcastRead (point : Point) :
    holding (broadcastRead point) = holding point := by
  cases point with
  | waiting operation =>
      rw [broadcastRead]
      split <;> rfl
  | _ => rfl

theorem holding_signalWrite (point : Point) :
    holding (signalWrite point) = holding point := by
  cases point with
  | waiting operation =>
      rw [signalWrite]
      split <;> rfl
  | _ => rfl

/-- A thread moves without getting or giving back the lock. -/
theorem Exclusive.goto (hexclusive : Exclusive monitor)
    (hsame : holding point = holding (monitor.threads thread)) :
    Exclusive (monitor.goto thread point) where
  readers := hexclusive.readers.keep (reading_congr hsame)
  writers := hexclusive.writers.keep (writing_congr hsame)
  atMostOne := hexclusive.atMostOne
  alone := hexclusive.alone

theorem Exclusive.signalled (hexclusive : Exclusive monitor) (picked : Thread) :
    Exclusive (monitor.signalled picked) :=
  hexclusive.goto (holding_signalWrite _)

omit [DecidableEq Thread] in
theorem Exclusive.broadcast (hexclusive : Exclusive monitor) :
    Exclusive monitor.broadcast where
  readers := hexclusive.readers.congr fun _ =>
    reading_congr (holding_broadcastRead _)
  writers := hexclusive.writers.congr fun _ =>
    writing_congr (holding_broadcastRead _)
  atMostOne := hexclusive.atMostOne
  alone := hexclusive.alone

omit [DecidableEq Thread] in
/-- The call into the store leaves the counters alone. -/
theorem Exclusive.setStore (hexclusive : Exclusive monitor) (store : Store) :
    Exclusive (monitor.setController { monitor.controller with store := store }) where
  readers := hexclusive.readers
  writers := hexclusive.writers
  atMostOne := hexclusive.atMostOne
  alone := hexclusive.alone

theorem reading_inside (hreads : writes operation = false) :
    Reading (.inside operation) :=
  ⟨operation, rfl, hreads⟩

theorem writing_inside (hwrites : writes operation = true) :
    Writing (.inside operation) :=
  ⟨operation, rfl, hwrites⟩

theorem not_reading_of_writes (hholding : holding point = some operation)
    (hwrites : writes operation = true) : ¬ Reading point := by
  rintro ⟨other, hother, hreads⟩
  cases hholding.symm.trans hother
  rw [hwrites] at hreads
  cases hreads

theorem not_writing_of_reads (hholding : holding point = some operation)
    (hreads : writes operation = false) : ¬ Writing point := by
  rintro ⟨other, hother, hwrites⟩
  cases hholding.symm.trans hother
  rw [hreads] at hwrites
  cases hwrites

/-- `requestRead` counts a reader only while nobody writes. -/
theorem Exclusive.enterRead (hexclusive : Exclusive monitor)
    (hpoint : monitor.threads thread = .requesting operation)
    (hreads : writes operation = false)
    (hreadable : monitor.controller.readable = true) :
    Exclusive ((monitor.setController monitor.controller.requestRead).goto thread
      (.inside operation)) := by
  have hwriters := hexclusive.writers.nonneg
  have hnone : monitor.controller.numWriters = 0 := by
    simp only [Controller.readable, gt_iff_lt, not_lt, decide_eq_true_eq]
      at hreadable
    exact le_antisymm hreadable hwriters
  constructor
  case readers =>
    apply hexclusive.readers.enter
    · rw [hpoint]
      exact nofun
    · exact reading_inside hreads
  case writers =>
    apply hexclusive.writers.keep
    rw [hpoint]
    exact iff_of_false (not_writing_of_reads rfl hreads) nofun
  case atMostOne => exact hexclusive.atMostOne
  case alone =>
    intro hone
    exact absurd (hnone.symm.trans hone) zero_ne_one

/-- `requestWrite` counts a writer only while nobody holds the lock. -/
theorem Exclusive.enterWrite (hexclusive : Exclusive monitor)
    (hpoint : monitor.threads thread = .requesting operation)
    (hwrites : writes operation = true)
    (hwritable : monitor.controller.writable = true) :
    Exclusive ((monitor.setController monitor.controller.requestWrite).goto thread
      (.inside operation)) := by
  have hreaders := hexclusive.readers.nonneg
  have hwriters := hexclusive.writers.nonneg
  simp only [Controller.writable, gt_iff_lt, not_or, not_lt, decide_eq_true_eq]
    at hwritable
  constructor
  case readers =>
    apply hexclusive.readers.keep
    rw [hpoint]
    exact iff_of_false (not_reading_of_writes rfl hwrites) nofun
  case writers =>
    apply hexclusive.writers.enter
    · rw [hpoint]
      exact nofun
    · exact writing_inside hwrites
  case atMostOne =>
    change monitor.controller.numWriters + 1 ≤ 1
    omega
  case alone =>
    intro _
    exact le_antisymm hwritable.1 hreaders

theorem Exclusive.request (hexclusive : Exclusive monitor)
    (hpoint : monitor.threads thread = .requesting operation)
    {controller : Controller}
    (hrequest : LockMonitor.request monitor.controller operation =
      some controller) :
    Exclusive ((monitor.setController controller).goto thread
      (.inside operation)) := by
  unfold LockMonitor.request at hrequest
  split at hrequest
  · next hwrites =>
      split at hrequest
      · next hwritable =>
          cases hrequest
          exact hexclusive.enterWrite hpoint hwrites hwritable
      · cases hrequest
  · next hreads =>
      split at hrequest
      · next hreadable =>
          cases hrequest
          exact hexclusive.enterRead hpoint (Bool.eq_false_of_not_eq_true hreads)
            hreadable
      · cases hrequest

/-- A release takes one thread out of the count of its kind. -/
theorem Exclusive.release (hexclusive : Exclusive monitor)
    (hpoint : monitor.threads thread = .releasing operation) :
    Exclusive ((monitor.setController
      (LockMonitor.release monitor.controller operation)).goto thread
        .outside) := by
  have hholding : holding (monitor.threads thread) = some operation := by
    rw [hpoint]
    rfl
  have hatMostOne := hexclusive.atMostOne
  cases hwrites : writes operation with
  | true =>
      have hreleased : LockMonitor.release monitor.controller operation =
          monitor.controller.releaseWrite := if_pos hwrites
      rw [hreleased]
      constructor
      case readers =>
        apply hexclusive.readers.keep
        exact iff_of_false nofun (not_reading_of_writes hholding hwrites)
      case writers =>
        exact hexclusive.writers.leave ⟨operation, hholding, hwrites⟩ nofun
      case atMostOne =>
        change monitor.controller.numWriters - 1 ≤ 1
        omega
      case alone =>
        intro hone
        change monitor.controller.numWriters - 1 = 1 at hone
        omega
  | false =>
      have hreleased : LockMonitor.release monitor.controller operation =
          monitor.controller.releaseRead := by
        simp [LockMonitor.release, hwrites]
      have hreading : Reading (monitor.threads thread) :=
        ⟨operation, hholding, hwrites⟩
      rw [hreleased]
      constructor
      case readers => exact hexclusive.readers.leave hreading nofun
      case writers =>
        apply hexclusive.writers.keep
        exact iff_of_false nofun (not_writing_of_reads hholding hwrites)
      case atMostOne => exact hatMostOne
      case alone =>
        intro hone
        have hnone := hexclusive.readers
        rw [hexclusive.alone hone] at hnone
        exact absurd hreading (hnone.none_of_zero thread)

theorem Exclusive.step (hexclusive : Exclusive monitor) {label : Label Thread}
    (hstep : LockMonitor.step monitor label = some next) : Exclusive next := by
  cases moves_of_step hstep with
  | called hpoint => exact hexclusive.goto (by rw [hpoint]; rfl)
  | entered hpoint hrequest => exact hexclusive.request hpoint hrequest
  | slept hpoint => exact hexclusive.goto (by rw [hpoint]; rfl)
  | woken => exact hexclusive.goto (holding_awake _)
  | returned hpoint =>
      apply (hexclusive.setStore _).goto
      rw [Monitor.setController_threads, hpoint]
      rfl
  | exited hpoint =>
      apply (hexclusive.setStore _).goto
      rw [Monitor.setController_threads, hpoint]
      rfl
  | died =>
      have hcalled := hexclusive.setStore
      exact ⟨(hcalled _).readers, (hcalled _).writers, (hcalled _).atMostOne,
        (hcalled _).alone⟩
  | releasedWrite hpoint =>
      exact ((hexclusive.release hpoint).signalled _).broadcast
  | releasedLast hpoint => exact (hexclusive.release hpoint).signalled _
  | releasedRead hpoint => exact hexclusive.release hpoint

end Invariant

/-! ## Runs -/

/-- A thread that holds the lock for a writing operation holds it alone. -/
theorem Exclusive.noOverlap {monitor : Monitor Thread}
    (hexclusive : Exclusive monitor) {writer other : Thread}
    (hwriting : Writing (monitor.threads writer)) {access : Operation}
    (haccess : holding (monitor.threads other) = some access) :
    other = writer := by
  cases hwrites : writes access with
  | true =>
      exact hexclusive.writers.unique hexclusive.atMostOne
        ⟨access, haccess, hwrites⟩ hwriting
  | false =>
      have hne : monitor.controller.numWriters ≠ 0 := by
        intro hzero
        have hnone := hexclusive.writers
        rw [hzero] at hnone
        exact hnone.none_of_zero writer hwriting
      have hone : monitor.controller.numWriters = 1 := by
        have hnonneg := hexclusive.writers.nonneg
        have hatMostOne := hexclusive.atMostOne
        omega
      have hnone := hexclusive.readers
      rw [hexclusive.alone hone] at hnone
      exact absurd ⟨access, haccess, hwrites⟩ (hnone.none_of_zero other)

/-- Reader-writer exclusion, for any number of threads and any order of steps,
wake-ups and signals: the counters count the threads behind a request that have
not begun the release, there is at most one writer and then no reader, and no
writing operation overlaps another one. -/
theorem exclusion_of_run [DecidableEq Thread] {labels : List (Label Thread)}
    {monitor : Monitor Thread}
    (hrun : exec step Monitor.start labels = some monitor) :
    Exclusive monitor ∧
      ∀ writer other access, Writing (monitor.threads writer) →
        holding (monitor.threads other) = some access → other = writer := by
  have hexclusive : Exclusive monitor :=
    (throughout_of_step (fun _ => id)
      (fun _ _ _ hexclusive hstep => hexclusive.step hstep)
      exclusive_start).final hrun
  exact ⟨hexclusive, fun _ _ _ hwriting haccess =>
    hexclusive.noOverlap hwriting haccess⟩

/-- Thread 0 looks `a` up while thread 1 waits to create it, wakes up too early,
waits again and gets in when the reader has left. -/
def waitingRun : List (Label ℕ) :=
  [.call 0 (.getProfileById [97]), .request 0,
    .call 1 (.createProfileIfNotExists [97] (some 1) 0), .request 1, .wake 1,
    .request 1, .body 0, .release 0 1, .request 1, .call 0 (.hasProfile [97]),
    .request 0]

theorem exclusion_of_waitingRun :
    ∃ monitor : Monitor ℕ, exec step Monitor.start waitingRun = some monitor ∧
      monitor.controller.numWriters = 1 ∧
      Counts monitor.threads Writing monitor.controller.numWriters := by
  have hwriters : (exec step (Monitor.start : Monitor ℕ) waitingRun).map
      (fun monitor => monitor.controller.numWriters) = some 1 := by
    decide
  obtain ⟨monitor, hrun, hone⟩ := Option.map_eq_some_iff.1 hwriters
  exact ⟨monitor, hrun, hone, (exclusion_of_run hrun).1.writers⟩

end TwitterLike.LockMonitor
