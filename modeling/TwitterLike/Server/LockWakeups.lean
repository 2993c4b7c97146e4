import Mathlib.Data.Fintype.Basic
import TwitterLike.Server.LockMonitor

/-!
# Wake-ups of the reader-writer lock

Which threads sleep on `ok_to_read` and `ok_to_write`, and which have been woken
and not yet tested the condition of their loop again.  The signals are sent only
by some releases, so a free lock with a sleeping writer needs a writer that is
on its way.
-/

namespace TwitterLike.LockWakeups

open TwitterLike.ProfilesManager
open TwitterLike.ProfileAccessController
open TwitterLike.LockMonitor
open TwitterLike.Transition

/-! ## Sleeping and woken threads -/

/-- Blocked on `ok_to_read` without a signal. -/
def AsleepToRead (point : Point) : Prop :=
  ∃ operation, point = .waiting operation ∧ writes operation = false

/-- Blocked on `ok_to_write` without a signal. -/
def AsleepToWrite (point : Point) : Prop :=
  ∃ operation, point = .waiting operation ∧ writes operation = true

/-- Whether a thread has been woken from `ok_to_write` and not tested its
condition since, when a step takes it from one point to another. -/
def wokenAfter (before after : Point) (woken : Bool) : Bool :=
  match before, after with
  | .waiting operation, .requesting _ => writes operation
  | .requesting _, .requesting _ => woken
  | _, _ => false

variable {Thread : Type*}

/-- The woken threads, after a step. -/
def recordWoken (monitor next : Monitor Thread) (woken : Thread → Bool) :
    Thread → Bool :=
  fun thread =>
    wokenAfter (monitor.threads thread) (next.threads thread) (woken thread)

/-- The thread has been woken from `ok_to_write` and is about to test the
condition of `requestWrite` again. -/
def Retries (monitor : Monitor Thread) (woken : Thread → Bool)
    (thread : Thread) : Prop :=
  woken thread = true ∧
    ∃ operation, monitor.threads thread = .requesting operation ∧
      writes operation = true

/-- Nobody holds the lock. -/
def Free (monitor : Monitor Thread) : Prop :=
  monitor.controller.numReaders = 0 ∧ monitor.controller.numWriters = 0

variable [DecidableEq Thread]

/-- The lock, with the threads that have been woken from `ok_to_write`. -/
def watch : Monitor Thread × (Thread → Bool) → Label Thread →
    Option (Monitor Thread × (Thread → Bool)) :=
  recording step recordWoken

instance (point : Point) : Decidable (AsleepToWrite point) :=
  match point with
  | .waiting operation =>
      decidable_of_iff (writes operation = true) (by simp [AsleepToWrite])
  | .outside | .requesting _ | .inside _ | .releasing _ | .exited _ =>
      isFalse nofun

omit [DecidableEq Thread] in
/-- `pthread_cond_signal(&ok_to_write)` wakes a thread that waits for it if there
is one.  It may wake more: a further thread is a wake-up of its own. -/
def SignalsWaiter (monitor : Monitor Thread) : Label Thread → Prop
  | .release _ picked =>
      (∃ thread, AsleepToWrite (monitor.threads thread)) →
        AsleepToWrite (monitor.threads picked)
  | _ => True

instance [Fintype Thread] (monitor : Monitor Thread) (label : Label Thread) :
    Decidable (SignalsWaiter monitor label) :=
  match label with
  | .release _ _ => inferInstanceAs (Decidable (_ → _))
  | .call _ _ | .request _ | .wake _ | .body _ => isTrue trivial

/-! ## What a step does to one thread -/

/-- The points between which a step can take a thread. -/
inductive Passes : Point → Point → Prop where
  | stays (point : Point) : Passes point point
  | called (operation : Operation) : Passes .outside (.requesting operation)
  | entered (operation : Operation) :
      Passes (.requesting operation) (.inside operation)
  | slept (operation : Operation) :
      Passes (.requesting operation) (.waiting operation)
  | woken (operation : Operation) :
      Passes (.waiting operation) (.requesting operation)
  | returned (operation : Operation) :
      Passes (.inside operation) (.releasing operation)
  | exited (operation : Operation) :
      Passes (.inside operation) (.exited operation)
  | released (operation : Operation) :
      Passes (.releasing operation) .outside

theorem passes_awake (point : Point) : Passes point (awake point) := by
  cases point with
  | waiting operation => exact .woken operation
  | _ => exact .stays _

theorem passes_broadcastRead (point : Point) :
    Passes point (broadcastRead point) := by
  cases point with
  | waiting operation =>
      rw [broadcastRead]
      split
      · exact .stays _
      · exact .woken operation
  | _ => exact .stays _

theorem passes_signalWrite (point : Point) :
    Passes point (signalWrite point) := by
  cases point with
  | waiting operation =>
      rw [signalWrite]
      split
      · exact .woken operation
      · exact .stays _
  | _ => exact .stays _

/-- `releaseWrite` first signals, then broadcasts. -/
theorem passes_broadcastRead_signalWrite (point : Point) :
    Passes point (broadcastRead (signalWrite point)) := by
  cases point with
  | waiting operation =>
      cases hwrites : writes operation with
      | true =>
          simp only [signalWrite, hwrites, if_true, broadcastRead]
          exact .woken operation
      | false =>
          simp only [signalWrite, hwrites, Bool.false_eq_true, if_false]
          exact passes_broadcastRead _
  | _ => exact .stays _

section Threads

variable {monitor next : Monitor Thread} {label : Label Thread}

theorem signalled_threads (picked other : Thread) :
    (monitor.signalled picked).threads other =
      if other = picked then signalWrite (monitor.threads other)
      else monitor.threads other := by
  rw [Monitor.signalled, Monitor.goto_threads, Function.update_apply]
  split
  · next heq => rw [heq]
  · rfl

theorem released_threads (thread other : Thread) (operation : Operation) :
    (monitor.released thread operation).threads other =
      if other = thread then .outside else monitor.threads other := by
  rw [Monitor.released, Monitor.goto_threads, Function.update_apply]
  rfl

theorem passes_goto {thread : Thread} {point : Point}
    (hpasses : Passes (monitor.threads thread) point) (other : Thread) :
    Passes (monitor.threads other) ((monitor.goto thread point).threads other) := by
  rw [Monitor.goto_threads, Function.update_apply]
  split
  · next heq =>
      rw [heq]
      exact hpasses
  · exact .stays _

theorem passes_of_step (hstep : step monitor label = some next)
    (other : Thread) : Passes (monitor.threads other) (next.threads other) := by
  cases moves_of_step hstep with
  | called hpoint =>
      apply passes_goto
      rw [hpoint]
      exact .called _
  | entered hpoint hrequest =>
      apply @passes_goto _ _ (monitor.setController _)
      rw [Monitor.setController_threads, hpoint]
      exact .entered _
  | slept hpoint hrequest =>
      apply passes_goto
      rw [hpoint]
      exact .slept _
  | woken => exact passes_goto (passes_awake _) other
  | @returned thread operation hpoint =>
      apply @passes_goto _ _ (monitor.called operation)
      rw [Monitor.called_threads, hpoint]
      exact .returned _
  | @exited thread operation hpoint =>
      apply @passes_goto _ _ (monitor.called operation)
      rw [Monitor.called_threads, hpoint]
      exact .exited _
  | died => exact .stays _
  | @releasedWrite thread picked operation hpoint hwrites =>
      rw [Monitor.broadcast_threads, signalled_threads, released_threads]
      by_cases hself : other = thread
      · rw [if_pos hself, hself, hpoint]
        split
        · exact .released operation
        · exact .released operation
      · rw [if_neg hself]
        split
        · exact passes_broadcastRead_signalWrite _
        · exact passes_broadcastRead _
  | @releasedLast thread picked operation hpoint hreads =>
      rw [signalled_threads, released_threads]
      by_cases hself : other = thread
      · rw [if_pos hself, hself, hpoint]
        split
        · exact .released operation
        · exact .released operation
      · rw [if_neg hself]
        split
        · exact passes_signalWrite _
        · exact .stays _
  | releasedRead hpoint hreads hmore =>
      rw [released_threads]
      split
      · next heq =>
          rw [heq, hpoint]
          exact .released _
      · exact .stays _

end Threads

/-! ## The invariant -/

/-- Readers sleep only behind a writer, and writers sleep at a free lock only
when one of them has been woken. -/
structure Attended (monitor : Monitor Thread) (woken : Thread → Bool) : Prop where
  exclusive : Exclusive monitor
  retries : ∀ thread, woken thread = true → Retries monitor woken thread
  readers : monitor.controller.numWriters = 0 →
    ∀ thread, ¬ AsleepToRead (monitor.threads thread)
  writers : Free monitor →
    ∀ thread, AsleepToWrite (monitor.threads thread) →
      ∃ other, Retries monitor woken other

omit [DecidableEq Thread] in
theorem attended_start :
    Attended (Monitor.start : Monitor Thread) (fun _ => false) where
  exclusive := exclusive_start
  retries _ hwoken := by cases hwoken
  readers _ _ := nofun
  writers _ _ := nofun

section Step

variable {monitor next : Monitor Thread} {woken : Thread → Bool}
  {label : Label Thread}

/-- Only a sleeping writer becomes a woken thread, and a woken thread stays one
until it tests its condition. -/
theorem Attended.retries_step (hattended : Attended monitor woken)
    (hstep : step monitor label = some next) (thread : Thread)
    (hwoken : recordWoken monitor next woken thread = true) :
    Retries next (recordWoken monitor next woken) thread := by
  refine ⟨hwoken, ?_⟩
  have hpasses := passes_of_step hstep thread
  unfold recordWoken at hwoken
  generalize hbefore : monitor.threads thread = before at hwoken hpasses
  generalize next.threads thread = after at hwoken hpasses ⊢
  cases hpasses with
  | stays =>
      cases before with
      | requesting operation =>
          obtain ⟨_, other, hother, hwrites⟩ := hattended.retries thread hwoken
          cases hbefore.symm.trans hother
          exact ⟨operation, rfl, hwrites⟩
      | _ => cases hwoken
  | woken operation => exact ⟨operation, rfl, hwoken⟩
  | _ => cases hwoken

omit [DecidableEq Thread] in
/-- A woken writer that the step does not move is woken after it. -/
theorem Retries.keep {thread : Thread} (hretries : Retries monitor woken thread)
    (hsame : next.threads thread = monitor.threads thread) :
    Retries next (recordWoken monitor next woken) thread := by
  obtain ⟨hwoken, operation, hpoint, hwrites⟩ := hretries
  refine ⟨?_, operation, hsame.trans hpoint, hwrites⟩
  rw [recordWoken, hsame, hpoint]
  exact hwoken

omit [DecidableEq Thread] in
/-- A writer that was asleep and is about to test its condition has been
woken. -/
theorem retries_of_asleep {thread : Thread} {operation : Operation}
    (hbefore : monitor.threads thread = .waiting operation)
    (hwrites : writes operation = true)
    (hafter : next.threads thread = .requesting operation) :
    Retries next (recordWoken monitor next woken) thread := by
  refine ⟨?_, operation, hafter, hwrites⟩
  rw [recordWoken, hbefore, hafter]
  exact hwrites

/-- What remains to be shown of a step. -/
theorem Attended.after (hattended : Attended monitor woken)
    (hstep : step monitor label = some next)
    (hreaders : next.controller.numWriters = 0 →
      ∀ thread, ¬ AsleepToRead (next.threads thread))
    (hwriters : Free next → ∀ thread, AsleepToWrite (next.threads thread) →
      ∃ other, Retries next (recordWoken monitor next woken) other) :
    Attended next (recordWoken monitor next woken) where
  exclusive := hattended.exclusive.step hstep
  retries := hattended.retries_step hstep
  readers := hreaders
  writers := hwriters

/-- A step that leaves the counters alone, puts nobody to sleep and does not move
a thread that is about to test its condition. -/
theorem Attended.keep (hattended : Attended monitor woken)
    (hstep : step monitor label = some next)
    (hreaders : next.controller.numReaders = monitor.controller.numReaders)
    (hwriters : next.controller.numWriters = monitor.controller.numWriters)
    (hasleep : ∀ thread operation, next.threads thread = .waiting operation →
      monitor.threads thread = .waiting operation)
    (hrequests : ∀ thread operation,
      monitor.threads thread = .requesting operation →
        next.threads thread = .requesting operation) :
    Attended next (recordWoken monitor next woken) := by
  apply hattended.after hstep
  · rintro hnone thread ⟨operation, hpoint, hreads⟩
    exact hattended.readers (hwriters ▸ hnone) thread
      ⟨operation, hasleep thread operation hpoint, hreads⟩
  · rintro hfree thread ⟨operation, hpoint, hwrites⟩
    obtain ⟨other, hretries⟩ := hattended.writers
      ⟨hreaders ▸ hfree.1, hwriters ▸ hfree.2⟩ thread
      ⟨operation, hasleep thread operation hpoint, hwrites⟩
    obtain ⟨request, hrequest, _⟩ := hretries.2
    exact ⟨other, hretries.keep
      ((hrequests other request hrequest).trans hrequest.symm)⟩

/-- Who is asleep behind a step that moves one thread was asleep before, or is
that thread. -/
theorem asleep_of_goto {thread other : Thread} {point : Point}
    {operation : Operation}
    (hasleep : (monitor.goto thread point).threads other = .waiting operation) :
    monitor.threads other = .waiting operation ∨ point = .waiting operation := by
  rw [Monitor.goto_threads, Function.update_apply] at hasleep
  split at hasleep
  · exact .inr hasleep
  · exact .inl hasleep

/-- A step that moves one thread keeps the requests, if that thread is not taken
out of its own. -/
theorem requesting_of_goto {thread : Thread} {point : Point}
    (hpoint : ∀ operation, monitor.threads thread = .requesting operation →
      point = .requesting operation) (other : Thread) (operation : Operation)
    (hrequest : monitor.threads other = .requesting operation) :
    (monitor.goto thread point).threads other = .requesting operation := by
  rw [Monitor.goto_threads, Function.update_apply]
  split
  · next heq => exact hpoint operation (heq ▸ hrequest)
  · exact hrequest

omit [DecidableEq Thread] in
/-- A request that gets past its loop takes the lock. -/
theorem counts_of_request {controller after : Controller} {operation : Operation}
    (hrequest : request controller operation = some after) :
    after.numReaders + after.numWriters =
        controller.numReaders + controller.numWriters + 1 ∧
      controller.numWriters ≤ after.numWriters := by
  unfold request at hrequest
  split at hrequest
  · obtain ⟨_, hafter⟩ := Option.ite_none_right_eq_some.1 hrequest
    cases hafter
    simp only [Controller.requestWrite]
    omega
  · obtain ⟨_, hafter⟩ := Option.ite_none_right_eq_some.1 hrequest
    cases hafter
    simp only [Controller.requestRead]
    omega

omit [DecidableEq Thread] in
/-- A request that has to wait has found the lock taken. -/
theorem taken_of_request {controller : Controller} {operation : Operation}
    (hrequest : request controller operation = none) :
    0 < controller.numWriters ∨
      writes operation = true ∧ 0 < controller.numReaders := by
  unfold request at hrequest
  split at hrequest
  · next hwrites =>
      have htaken : ¬ controller.writable = true := by simpa using hrequest
      simp only [Controller.writable, decide_not, Bool.not_eq_true',
        decide_eq_false_iff_not, not_not] at htaken
      exact htaken.elim (fun hreaders => .inr ⟨hwrites, hreaders⟩) .inl
  · have htaken : ¬ controller.readable = true := by simpa using hrequest
    simp only [Controller.readable, decide_not, Bool.not_eq_true',
      decide_eq_false_iff_not, not_not] at htaken
    exact .inl htaken

/-- The critical section of a request leaves the lock taken, or finds it taken
and puts the thread to sleep. -/
theorem Attended.request (hattended : Attended monitor woken) {thread : Thread}
    (hstep : step monitor (.request thread) = some next) :
    Attended next (recordWoken monitor next woken) := by
  have hreaders := hattended.exclusive.readers.nonneg
  have hwriters := hattended.exclusive.writers.nonneg
  cases moves_of_step hstep with
  | @entered _ operation controller hpoint hrequest =>
      obtain ⟨hcounts, hle⟩ := counts_of_request hrequest
      apply hattended.after hstep
      · rintro hnone other ⟨asleep, hasleep, hreads⟩
        have hbefore : monitor.controller.numWriters = 0 :=
          le_antisymm (hle.trans_eq hnone) hwriters
        rcases asleep_of_goto hasleep with hother | hinside
        · exact hattended.readers hbefore other ⟨asleep, hother, hreads⟩
        · cases hinside
      · rintro ⟨hnoReader, hnoWriter⟩
        simp only [Monitor.goto_controller, Monitor.setController_controller]
          at hnoReader hnoWriter
        omega
  | @slept _ operation hpoint hrequest =>
      have htaken := taken_of_request hrequest
      apply hattended.after hstep
      · rintro hnone other ⟨asleep, hasleep, hreads⟩
        rcases asleep_of_goto hasleep with hother | ⟨⟨⟩⟩
        · exact hattended.readers hnone other ⟨asleep, hother, hreads⟩
        · rcases htaken with hwriter | ⟨hwrites, _⟩
          · exact hwriter.ne' hnone
          · cases hreads.symm.trans hwrites
      · rintro ⟨hnoReader, hnoWriter⟩
        simp only [Monitor.goto_controller] at hnoReader hnoWriter
        omega

omit [DecidableEq Thread] in
/-- Behind a broadcast only writers are asleep. -/
theorem waiting_of_broadcast {other : Thread} {operation : Operation}
    (hasleep : monitor.broadcast.threads other = .waiting operation) :
    monitor.threads other = .waiting operation ∧ writes operation = true := by
  rw [Monitor.broadcast_threads] at hasleep
  generalize monitor.threads other = point at hasleep ⊢
  cases point with
  | waiting other =>
      rw [broadcastRead] at hasleep
      split at hasleep
      · next hwrites =>
          cases hasleep
          exact ⟨rfl, hwrites⟩
      · cases hasleep
  | _ => cases hasleep

theorem waiting_of_released {thread other : Thread} {operation asleep : Operation}
    (hasleep : (monitor.released thread operation).threads other =
      .waiting asleep) : monitor.threads other = .waiting asleep := by
  rw [released_threads] at hasleep
  split at hasleep
  · cases hasleep
  · exact hasleep

theorem waiting_of_signalled {picked other : Thread} {operation : Operation}
    (hasleep : (monitor.signalled picked).threads other = .waiting operation) :
    monitor.threads other = .waiting operation := by
  rw [signalled_threads] at hasleep
  split at hasleep
  · generalize monitor.threads other = point at hasleep ⊢
    cases point with
    | waiting other =>
        rw [signalWrite] at hasleep
        split at hasleep
        · cases hasleep
        · exact hasleep
    | _ => cases hasleep
  · exact hasleep

/-- A signal that finds the picked thread asleep wakes it. -/
theorem signalled_picked {thread picked : Thread} {operation asleep : Operation}
    (hpoint : monitor.threads thread = .releasing operation)
    (hasleep : monitor.threads picked = .waiting asleep)
    (hwrites : writes asleep = true) :
    ((monitor.released thread operation).signalled picked).threads picked =
      .requesting asleep := by
  have hne : picked ≠ thread := by
    rintro rfl
    cases hpoint.symm.trans hasleep
  rw [signalled_threads, if_pos rfl, released_threads, if_neg hne, hasleep,
    signalWrite, if_pos hwrites]

/-- `releaseWrite` wakes all readers, and every release that leaves the lock
free wakes a writer. -/
theorem Attended.release (hattended : Attended monitor woken)
    {thread picked : Thread}
    (hsignals : SignalsWaiter monitor (.release thread picked))
    (hstep : step monitor (.release thread picked) = some next) :
    Attended next (recordWoken monitor next woken) := by
  cases moves_of_step hstep with
  | @releasedWrite _ _ operation hpoint hwrites =>
      apply hattended.after hstep
      · rintro _ other ⟨asleep, hasleep, hreads⟩
        cases hreads.symm.trans (waiting_of_broadcast hasleep).2
      · rintro _ other ⟨asleep, hasleep, hwrites⟩
        have hbefore := waiting_of_released
          (waiting_of_signalled (waiting_of_broadcast hasleep).1)
        obtain ⟨waiter, hwaiter, hwaits⟩ :=
          hsignals ⟨other, asleep, hbefore, hwrites⟩
        refine ⟨picked, retries_of_asleep hwaiter hwaits ?_⟩
        rw [Monitor.broadcast_threads, signalled_picked hpoint hwaiter hwaits]
        rfl
  | @releasedLast _ _ operation hpoint hreads =>
      have hwriters : (release monitor.controller operation).numWriters =
          monitor.controller.numWriters := by
        simp [LockMonitor.release, hreads]
      apply hattended.after hstep
      · rintro hnone other ⟨asleep, hasleep, hreader⟩
        have hbefore := waiting_of_released (waiting_of_signalled hasleep)
        exact hattended.readers (hwriters.symm.trans hnone) other
          ⟨asleep, hbefore, hreader⟩
      · rintro _ other ⟨asleep, hasleep, hwrites⟩
        have hbefore := waiting_of_released (waiting_of_signalled hasleep)
        obtain ⟨waiter, hwaiter, hwaits⟩ :=
          hsignals ⟨other, asleep, hbefore, hwrites⟩
        exact ⟨picked, retries_of_asleep hwaiter hwaits
          (signalled_picked hpoint hwaiter hwaits)⟩
  | @releasedRead _ _ operation hpoint hreads hmore =>
      have hwriters : (release monitor.controller operation).numWriters =
          monitor.controller.numWriters := by
        simp [LockMonitor.release, hreads]
      apply hattended.after hstep
      · rintro hnone other ⟨asleep, hasleep, hreader⟩
        exact hattended.readers (hwriters.symm.trans hnone) other
          ⟨asleep, waiting_of_released hasleep, hreader⟩
      · exact fun hfree => absurd hfree.1 hmore

theorem Attended.step (hattended : Attended monitor woken)
    (hsignals : SignalsWaiter monitor label)
    (hstep : LockMonitor.step monitor label = some next) :
    Attended next (recordWoken monitor next woken) := by
  cases label with
  | request thread => exact hattended.request hstep
  | release thread picked => exact hattended.release hsignals hstep
  | call thread operation =>
      cases moves_of_step hstep with
      | called hpoint =>
          apply hattended.keep hstep rfl rfl
          · intro other asleep hasleep
            exact (asleep_of_goto hasleep).resolve_right nofun
          · exact requesting_of_goto (by rw [hpoint]; exact nofun)
  | wake thread =>
      cases moves_of_step hstep with
      | woken =>
          apply hattended.keep hstep rfl rfl
          · intro other asleep hasleep
            apply (asleep_of_goto hasleep).resolve_right
            cases monitor.threads thread <;> nofun
          · exact requesting_of_goto fun request hrequest => by
              rw [hrequest]
              rfl
  | body thread =>
      cases moves_of_step hstep with
      | @returned _ operation hpoint =>
          apply hattended.keep hstep rfl rfl
          · intro other asleep hasleep
            exact (asleep_of_goto hasleep).resolve_right nofun
          · exact requesting_of_goto (by rw [hpoint]; exact nofun)
      | @exited _ operation hpoint =>
          apply hattended.keep hstep rfl rfl
          · intro other asleep hasleep
            exact (asleep_of_goto hasleep).resolve_right nofun
          · exact requesting_of_goto (by rw [hpoint]; exact nofun)
      | died =>
          exact hattended.keep hstep rfl rfl (fun _ _ => id) fun _ _ => id

end Step

/-! ## Runs -/

theorem attended_of_run {labels : List (Label Thread)}
    {monitor : Monitor Thread} {woken : Thread → Bool}
    (hrun : exec watch (Monitor.start, fun _ => false) labels =
      some (monitor, woken))
    (hsignals : Along step SignalsWaiter Monitor.start labels) :
    Attended monitor woken := by
  have hkeep (watched : Monitor Thread × (Thread → Bool)) (label : Label Thread)
      (next : Monitor Thread × (Thread → Bool))
      (hbefore : Attended watched.1 watched.2)
      (hsignal : SignalsWaiter watched.1 label)
      (hwatch : watch watched label = some next) : Attended next.1 next.2 := by
    obtain ⟨hstep, hrecord⟩ := recording_eq_some_iff.1 hwatch
    rw [← hrecord]
    exact hbefore.step hsignal hstep
  exact @exec_invariant _ _ watch _
    (fun watched => Attended watched.1 watched.2) hkeep _ _ _ attended_start
    (hsignals.recording _) hrun

omit [DecidableEq Thread] in
/-- The woken thread is not the one that sleeps. -/
theorem Attended.retriesOther {monitor : Monitor Thread}
    {woken : Thread → Bool} (hattended : Attended monitor woken)
    (hreaders : monitor.controller.numReaders = 0)
    (hwriters : monitor.controller.numWriters = 0) (thread : Thread)
    (hasleep : AsleepToWrite (monitor.threads thread)) :
    ∃ other, other ≠ thread ∧ Retries monitor woken other := by
  obtain ⟨other, hretries⟩ :=
    hattended.writers ⟨hreaders, hwriters⟩ thread hasleep
  refine ⟨other, ?_, hretries⟩
  rintro rfl
  obtain ⟨operation, hwaiting, _⟩ := hasleep
  obtain ⟨request, hrequesting, _⟩ := hretries.2
  cases hwaiting.symm.trans hrequesting

/-- No wake-up is lost, for any number of threads and any order of steps: nobody
sleeps on `ok_to_read` without a writer, and when the lock is free and a thread
sleeps on `ok_to_write`, another one has been woken from there and is about to
test its condition.  So a free lock with sleeping threads has one that is
awake. -/
theorem noLostWakeup_of_run {labels : List (Label Thread)}
    {monitor : Monitor Thread}
    (hrun : exec step Monitor.start labels = some monitor)
    (hsignals : Along step SignalsWaiter Monitor.start labels) :
    ∃ woken, exec watch (Monitor.start, fun _ => false) labels =
        some (monitor, woken) ∧
      (monitor.controller.numWriters = 0 →
        ∀ thread, ¬ AsleepToRead (monitor.threads thread)) ∧
      (monitor.controller.numReaders = 0 → monitor.controller.numWriters = 0 →
        ∀ thread, AsleepToWrite (monitor.threads thread) →
          ∃ other, other ≠ thread ∧ Retries monitor woken other) ∧
      (monitor.controller.numReaders = 0 → monitor.controller.numWriters = 0 →
        ∀ thread operation, monitor.threads thread = .waiting operation →
          ∃ other request, other ≠ thread ∧
            monitor.threads other = .requesting request) := by
  rw [← @exec_recording _ _ step _ recordWoken Monitor.start (fun _ => false),
    Option.map_eq_some_iff] at hrun
  obtain ⟨⟨_, woken⟩, hwatch, rfl⟩ := hrun
  have hattended := attended_of_run hwatch hsignals
  refine ⟨woken, hwatch, hattended.readers, hattended.retriesOther, ?_⟩
  intro hreader hwriter thread operation hwaiting
  cases hwrites : writes operation with
  | true =>
      obtain ⟨other, hne, hretries⟩ := hattended.retriesOther hreader hwriter
        thread ⟨operation, hwaiting, hwrites⟩
      obtain ⟨request, hrequest, _⟩ := hretries.2
      exact ⟨other, request, hne, hrequest⟩
  | false =>
      exact absurd ⟨operation, hwaiting, hwrites⟩
        (hattended.readers hwriter thread)

/-- Threads 1 and 2 wait to write while thread 0 reads; its release wakes
thread 1.  Thread 3 makes no call. -/
def contendedRun : List (Label (Fin 4)) :=
  [.call 0 (.getProfileById [97]), .request 0,
    .call 1 (.createProfileIfNotExists [97] (some 1) 0), .request 1,
    .call 2 (.createProfileIfNotExists [98] (some 2) 0), .request 2,
    .body 0, .release 0 1]

theorem noLostWakeup_contendedRun :
    ∃ (monitor : Monitor (Fin 4)) (woken : Fin 4 → Bool),
      exec watch (Monitor.start, fun _ => false) contendedRun =
        some (monitor, woken) ∧
      Free monitor ∧ AsleepToWrite (monitor.threads 2) ∧
      ∃ other, other ≠ 2 ∧ Retries monitor woken other := by
  have hfinal : (exec step (Monitor.start : Monitor (Fin 4)) contendedRun).map
      (fun monitor => (monitor.controller.numReaders,
        monitor.controller.numWriters,
        decide (AsleepToWrite (monitor.threads 2)))) = some (0, 0, true) := by
    decide
  obtain ⟨monitor, hrun, hvalues⟩ := Option.map_eq_some_iff.1 hfinal
  simp only [Prod.mk.injEq, decide_eq_true_eq] at hvalues
  obtain ⟨hreaders, hwriters, hasleep⟩ := hvalues
  obtain ⟨woken, hwatch, _, hretries, _⟩ :=
    noLostWakeup_of_run hrun (by decide)
  exact ⟨monitor, woken, hwatch, ⟨hreaders, hwriters⟩, hasleep,
    hretries hreaders hwriters 2 hasleep⟩

end TwitterLike.LockWakeups
