import TwitterLike.Server.ThreadTransitions

/-!
# Session accounting

`sessions_on` counts the sessions vector as long as no client reconnects: the
first packet of a connection that is neither `PROFILE` nor `SET_BACKUP` adds the
connection to the vector of its sender without counting it.
-/

namespace TwitterLike.SessionAccounting

open TwitterLike.ByteBuffer
open TwitterLike.PacketFormat
open TwitterLike.Profiles
open TwitterLike.ProfilesManager
open TwitterLike.ProfileAccessController
open TwitterLike.Threads
open TwitterLike.Transition

/-! ## The write lock -/

/-- The thread is inside a critical section of the controller. -/
def HoldsLock : Point → Prop
  | .registering _ _ _ => True
  | .sending _ _ _ => True
  | _ => False

@[simp]
theorem not_holdsLock_next (next : Next) : ¬ HoldsLock next.point := by
  cases next <;> exact id

/-- At most one thread is inside, and only while `num_writers` says so. -/
structure LockInvariant (system : System) : Prop where
  noReaders : system.controller.numReaders = 0
  nonneg : 0 ≤ system.controller.numWriters
  held : ∀ conn, HoldsLock (system.threads conn) →
    system.controller.numWriters = 1
  unique : ∀ conn other, HoldsLock (system.threads conn) →
    HoldsLock (system.threads other) → conn = other

theorem lockInvariant_start : LockInvariant System.start where
  noReaders := rfl
  nonneg := le_refl _
  held _ hholds := hholds.elim
  unique _ _ hholds := hholds.elim

section Lock

variable {system next : System} {conn : Conn}

theorem not_holdsLock_of_writable (hlock : LockInvariant system)
    (hwritable : system.controller.writable = true) (other : Conn) :
    ¬ HoldsLock (system.threads other) := by
  intro hholds
  have hwriters := hlock.held other hholds
  simp [Controller.writable, hwriters] at hwritable

theorem numWriters_of_writable (hlock : LockInvariant system)
    (hwritable : system.controller.writable = true) :
    system.controller.numWriters = 0 := by
  have hnonneg := hlock.nonneg
  simp only [Controller.writable, not_or, not_lt, Bool.decide_and,
    Bool.and_eq_true, decide_eq_true_eq, gt_iff_lt] at hwritable
  exact le_antisymm hwritable.2 hnonneg

theorem LockInvariant.keep (hlock : LockInvariant system)
    (hreaders : next.controller.numReaders = system.controller.numReaders)
    (hwriters : next.controller.numWriters = system.controller.numWriters)
    (hpoints : ∀ other, HoldsLock (next.threads other) →
      HoldsLock (system.threads other)) : LockInvariant next where
  noReaders := hreaders.trans hlock.noReaders
  nonneg := hwriters ▸ hlock.nonneg
  held other hholds := hwriters.trans (hlock.held other (hpoints other hholds))
  unique left right hleft hright :=
    hlock.unique left right (hpoints left hleft) (hpoints right hright)

theorem LockInvariant.request (hlock : LockInvariant system) (conn : Conn)
    (hwritable : system.controller.writable = true)
    (hreaders : next.controller.numReaders = system.controller.numReaders)
    (hwriters : next.controller.numWriters = system.controller.numWriters + 1)
    (hpoints : ∀ other, HoldsLock (next.threads other) →
      other = conn ∨ HoldsLock (system.threads other)) : LockInvariant next where
  noReaders := hreaders.trans hlock.noReaders
  nonneg := by rw [hwriters, numWriters_of_writable hlock hwritable]; decide
  held _ _ := by rw [hwriters, numWriters_of_writable hlock hwritable]; rfl
  unique left right hleft hright := by
    have honly (other : Conn) (hholds : HoldsLock (next.threads other)) :
        other = conn :=
      (hpoints other hholds).resolve_right
        (not_holdsLock_of_writable hlock hwritable other)
    rw [honly left hleft, honly right hright]

theorem LockInvariant.release (hlock : LockInvariant system)
    (hholds : HoldsLock (system.threads conn))
    (hreaders : next.controller.numReaders = system.controller.numReaders)
    (hwriters : next.controller.numWriters = system.controller.numWriters - 1)
    (hpoints : ∀ other, HoldsLock (next.threads other) →
      other ≠ conn ∧ HoldsLock (system.threads other)) :
    LockInvariant next := by
  have hnone (other : Conn) : ¬ HoldsLock (next.threads other) := by
    intro hother
    obtain ⟨hne, hheld⟩ := hpoints other hother
    exact hne (hlock.unique other conn hheld hholds)
  refine ⟨hreaders.trans hlock.noReaders, ?_, ?_, ?_⟩
  · rw [hwriters, hlock.held conn hholds]
    decide
  · intro other hother
    exact absurd hother (hnone other)
  · intro left right hleft
    exact absurd hleft (hnone left)

/-- A thread that moves to a point outside the lock is the only one to move. -/
theorem holdsLock_of_goto {point : Point} (other : Conn)
    (hholds : HoldsLock ((system.goto conn point).threads other))
    (hpoint : ¬ HoldsLock point) :
    other ≠ conn ∧ HoldsLock (system.threads other) := by
  rcases system.goto_threads_cases conn point other with
    ⟨_, hgoto⟩ | ⟨hne, hgoto⟩
  · exact absurd (hgoto ▸ hholds) hpoint
  · exact ⟨hne, hgoto ▸ hholds⟩

theorem holdsLock_or_of_goto {point : Point} (other : Conn)
    (hholds : HoldsLock ((system.goto conn point).threads other)) :
    other = conn ∨ HoldsLock (system.threads other) := by
  rcases system.goto_threads_cases conn point other with
    ⟨hother, _⟩ | ⟨_, hgoto⟩
  · exact .inl hother
  · exact .inr (hgoto ▸ hholds)

/-- A step of a thread to a point outside the lock that leaves the counters
alone. -/
theorem LockInvariant.move {middle : System} {point : Point}
    (hlock : LockInvariant system)
    (hreaders : middle.controller.numReaders = system.controller.numReaders)
    (hwriters : middle.controller.numWriters = system.controller.numWriters)
    (hthreads : middle.threads = system.threads) (hpoint : ¬ HoldsLock point) :
    LockInvariant (middle.goto conn point) := by
  refine hlock.keep hreaders hwriters fun other hholds => ?_
  rw [← hthreads]
  exact (holdsLock_of_goto other hholds hpoint).2

/-- Every step keeps the lock discipline; a refused login and a failure leave
`num_writers` at one with nobody inside. -/
theorem LockInvariant.step {time : BitVec 64} {action : Action}
    (hlock : LockInvariant system)
    (htransition : Transition system conn time action next) :
    LockInvariant next := by
  cases htransition with
  | found henter hcmd hwritable hfind =>
      exact hlock.request conn hwritable rfl rfl fun _ => holdsLock_or_of_goto _
  | refused henter hcmd hwritable hfind =>
      exact hlock.request conn hwritable rfl rfl fun _ => holdsLock_or_of_goto _
  | findFailed henter hcmd hwritable hfind hexit =>
      exact hlock.request conn hwritable rfl rfl fun _ => .inr
  | followFailed hpoint hcmd hwritable hfollow =>
      exact hlock.request conn hwritable rfl rfl fun _ => .inr
  | sendBegun hpoint hcmd hwritable =>
      exact hlock.request conn hwritable rfl rfl fun _ => holdsLock_or_of_goto _
  | registered hpoint =>
      exact hlock.release (hpoint ▸ trivial) rfl rfl
        fun other hholds => holdsLock_of_goto other hholds not_false
  | sendDone hpoint hlast =>
      exact hlock.release (hpoint ▸ trivial) rfl rfl
        fun other hholds => holdsLock_of_goto other hholds not_false
  | sent hpoint hfollower =>
      refine hlock.keep rfl rfl fun other hholds => ?_
      rcases holdsLock_or_of_goto other hholds with rfl | hother
      · rw [hpoint]
        trivial
      · exact hother
  | forwardDone => exact hlock.move rfl rfl rfl (not_holdsLock_next _)
  | senderUnknown => exact hlock.keep rfl rfl fun _ => id
  | fetchFailed => exact hlock.keep rfl rfl fun _ => id
  | listReplaced => exact hlock.keep rfl rfl fun _ => id
  | ignored => exact hlock.keep rfl rfl fun _ => id
  | _ => exact hlock.move rfl rfl rfl not_false

end Lock

/-! ## Changes that keep all sessions -/

structure SameSessions (before after : Store) : Prop where
  sessionsOn : ∀ ref,
    (after.objects ref).sessionsOn = (before.objects ref).sessionsOn
  sessions : ∀ ref,
    (after.objects ref).sessions = (before.objects ref).sessions

section SameSessions

variable {before middle after : Store}

theorem SameSessions.refl (store : Store) : SameSessions store store :=
  ⟨fun _ => rfl, fun _ => rfl⟩

theorem SameSessions.of_objects (hobjects : after.objects = before.objects) :
    SameSessions before after :=
  ⟨fun ref => by rw [hobjects], fun ref => by rw [hobjects]⟩

theorem SameSessions.trans (hfirst : SameSessions before middle)
    (hsecond : SameSessions middle after) : SameSessions before after where
  sessionsOn ref := (hsecond.sessionsOn ref).trans (hfirst.sessionsOn ref)
  sessions ref := (hsecond.sessions ref).trans (hfirst.sessions ref)

theorem SameSessions.update (store : Store) (ref : ProfileRef)
    {change : Profile → Profile}
    (hsessionsOn : (change (store.objects ref)).sessionsOn =
      (store.objects ref).sessionsOn)
    (hsessions : (change (store.objects ref)).sessions =
      (store.objects ref).sessions) :
    SameSessions store (store.update ref change) where
  sessionsOn := store.update_objects_field ref Profile.sessionsOn hsessionsOn
  sessions := store.update_objects_field ref Profile.sessions hsessions

theorem sendOrInsertInbox_sameSessions (store : Store) (ref : ProfileRef)
    (message : Message) :
    SameSessions store (store.sendOrInsertInbox ref message) := by
  have hupdate : SameSessions store (store.update ref fun _ =>
      ((store.objects ref).sendOrInsertInbox message).1) :=
    .update store ref (sendOrInsertInbox_sessionsOn _ _)
      (sendOrInsertInbox_sessions _ _)
  exact hupdate.trans (.of_objects rfl)

theorem fetchInboxContent_sameSessions (store : Store) (ref : ProfileRef) :
    SameSessions store (store.fetchInboxContent ref).2 := by
  have hupdate : SameSessions store (store.update ref fun _ =>
      (store.objects ref).fetchInboxContent.2.1) := .update store ref rfl rfl
  exact hupdate.trans (.of_objects rfl)

theorem addFollowerTo_sameSessions (store : Store) (followed : ByteString)
    (follower : ProfileRef) :
    SameSessions store (store.addFollowerTo followed (some follower)).2 := by
  rcases store.addFollowerTo_cases followed follower with
    hkeep | ⟨target, _, _, _, hpush⟩
  · rw [hkeep]
    exact .refl store
  · rw [hpush]
    have hpushed : SameSessions store (store.pushFollower target follower) :=
      .update store target rfl rfl
    exact hpushed.trans (.of_objects (Store.toJsonFile_sameMemory _).objects)

end SameSessions

/-! ## The counter and the vector -/

/-- The counter of every profile is the length of its sessions vector and stays
within the limit. -/
def Accounted (store : Store) : Prop :=
  ∀ ref, (store.objects ref).sessionsOn = (store.objects ref).sessions.length ∧
    0 ≤ (store.objects ref).sessionsOn ∧
    (store.objects ref).sessionsOn ≤ maxSessions

section Accounted

variable {store after : Store}

theorem accounted_empty : Accounted Store.empty := by
  intro ref
  simp [Store.empty, Profile.new, maxSessions]

theorem Accounted.keep (haccounted : Accounted store)
    (hsame : SameSessions store after) : Accounted after := by
  intro ref
  rw [hsame.sessionsOn, hsame.sessions]
  exact haccounted ref

theorem Accounted.created (haccounted : Accounted store)
    (profileId : ByteString) : Accounted (store.created profileId) := by
  intro ref
  rw [FollowGraph.created_objects]
  split
  · simp [Profile.new, maxSessions]
  · exact haccounted ref

theorem Accounted.update (haccounted : Accounted store) (ref : ProfileRef)
    {change : Profile → Profile}
    (hlength : (change (store.objects ref)).sessionsOn =
      (change (store.objects ref)).sessions.length)
    (hbound : (change (store.objects ref)).sessionsOn ≤ maxSessions) :
    Accounted (store.update ref change) := by
  intro other
  by_cases hother : other = ref
  · subst other
    rw [Store.update_objects_self]
    exact ⟨hlength, hlength ▸ Int.natCast_nonneg _, hbound⟩
  · rw [Store.update_objects_of_ne _ _ _ hother]
    exact haccounted other

theorem Accounted.incSessionsOn (haccounted : Accounted store)
    {ref : ProfileRef} (hroom : (store.objects ref).sessionsOn < maxSessions)
    (conn : Option Conn) : Accounted (store.incSessionsOn ref conn) := by
  apply haccounted.update ref
  · simp [(haccounted ref).1]
  · exact Int.add_one_le_of_lt hroom

/-- Erasing takes one element out exactly when the counter goes down. -/
theorem Accounted.decSessionsOn (haccounted : Accounted store)
    (ref : ProfileRef) (conn : Option Conn) :
    Accounted (store.decSessionsOn ref conn) := by
  by_cases hmem : conn ∈ (store.objects ref).sessions
  · have hpos : 0 < (store.objects ref).sessions.length :=
      List.length_pos_of_mem hmem
    have hcount := (haccounted ref).1
    apply haccounted.update ref
    · rw [decSessionsOn_sessionsOn_of_mem _ _ hmem, decSessionsOn_sessions,
        List.length_erase_of_mem hmem]
      omega
    · rw [decSessionsOn_sessionsOn_of_mem _ _ hmem]
      exact (Int.sub_le_self _ zero_le_one).trans (haccounted ref).2.2
  · apply haccounted.update ref
    · rw [decSessionsOn_of_notMem _ _ hmem]
      exact (haccounted ref).1
    · rw [decSessionsOn_of_notMem _ _ hmem]
      exact (haccounted ref).2.2

theorem decSessionsOn_sessionsOn_le (store : Store) (ref other : ProfileRef)
    (conn : Option Conn) :
    ((store.decSessionsOn ref conn).objects other).sessionsOn ≤
      (store.objects other).sessionsOn := by
  by_cases hother : other = ref
  · subst other
    rw [Store.decSessionsOn, Store.update_objects_self]
    by_cases hmem : conn ∈ (store.objects ref).sessions
    · rw [decSessionsOn_sessionsOn_of_mem _ _ hmem]
      exact Int.sub_le_self _ zero_le_one
    · rw [decSessionsOn_of_notMem _ _ hmem]
  · rw [Store.decSessionsOn, Store.update_objects_of_ne _ _ _ hother]

/-- A reconnect puts one more connection into the vector. -/
theorem not_accounted_updateSessionsOn (haccounted : Accounted store)
    (ref : ProfileRef) (conn : Option Conn) :
    ¬ Accounted (store.updateSessionsOn ref conn) := by
  intro hbroken
  have hlength := (hbroken ref).1
  rw [Store.updateSessionsOn, Store.update_objects_self,
    updateSessionsOn_sessionsOn, updateSessionsOn_sessions, List.length_append,
    (haccounted ref).1] at hlength
  simp at hlength

end Accounted

/-! ## Runs -/

/-- The step registers a connection whose first packet was neither `PROFILE`
nor `SET_BACKUP` and named an existing profile as its sender. -/
def Reconnects (system : System) (label : Label) : Prop :=
  ∃ profile, system.threads label.conn = .reconnecting profile

/-- The profile that the thread is about to add its session to. -/
def registeringAt : Point → Option ProfileRef
  | .registering profile _ _ => some profile
  | _ => none

theorem holdsLock_of_registeringAt {point : Point} {profile : ProfileRef}
    (hpoint : registeringAt point = some profile) : HoldsLock point := by
  cases point with
  | registering => trivial
  | _ => cases hpoint

@[simp]
theorem registeringAt_next (next : Next) : registeringAt next.point = none := by
  cases next <;> rfl

/-- The counters are right, and a thread about to count a session has room. -/
structure Accounts (system : System) : Prop where
  lock : LockInvariant system
  accounted : Accounted system.store
  room : ∀ conn profile,
    registeringAt (system.threads conn) = some profile →
      (system.store.objects profile).sessionsOn < maxSessions

theorem accounts_start : Accounts System.start where
  lock := lockInvariant_start
  accounted := accounted_empty
  room _ _ hpoint := by cases hpoint

section Step

variable {system next : System} {conn : Conn} {time : BitVec 64}
  {action : Action}

theorem Accounts.keep (haccounts : Accounts system)
    (hlock : LockInvariant next)
    (hsame : SameSessions system.store next.store)
    (hpoints : ∀ other, registeringAt (next.threads other) = none ∨
      next.threads other = system.threads other) : Accounts next where
  lock := hlock
  accounted := haccounts.accounted.keep hsame
  room other profile hprofile := by
    rw [hsame.sessionsOn]
    rcases hpoints other with hnone | hother
    · rw [hnone] at hprofile
      cases hprofile
    · exact haccounts.room other profile (hother ▸ hprofile)

/-- A step of a thread that changes no session and does not enter
`createProfileIfNotExists`. -/
theorem Accounts.move {middle : System} {point : Point}
    (haccounts : Accounts system)
    (hlock : LockInvariant (middle.goto conn point))
    (hsame : SameSessions system.store middle.store)
    (hthreads : middle.threads = system.threads)
    (hpoint : registeringAt point = none) :
    Accounts (middle.goto conn point) := by
  apply haccounts.keep hlock hsame
  intro other
  rcases middle.goto_threads_cases conn point other with
    ⟨_, hgoto⟩ | ⟨_, hgoto⟩
  · rw [hgoto]
    exact .inl hpoint
  · rw [hgoto, hthreads]
    exact .inr rfl

/-- A thread enters `createProfileIfNotExists` alone and has found room. -/
theorem Accounts.found (haccounts : Accounts system) {packet : Packet}
    {profile : ProfileRef} {store : Store} {continuation : Next}
    (hwritable : system.controller.writable = true)
    (hfind : system.store.findOrCreate packet.payload (some conn) time =
      (.ok profile, store))
    (hlock : LockInvariant ((system.locked store).goto conn
      (.registering profile packet continuation))) :
    Accounts ((system.locked store).goto conn
      (.registering profile packet continuation)) := by
  have hstore : Accounted store ∧
      (store.objects profile).sessionsOn < maxSessions := by
    rcases Store.findOrCreate_ok _ hfind with
      ⟨_, hroom, rfl⟩ | ⟨_, rfl, hsame⟩
    · exact ⟨haccounts.accounted,
        lt_of_le_of_ne (haccounts.accounted profile).2.2 hroom⟩
    · refine ⟨(haccounts.accounted.created _).keep
        (.of_objects hsame.objects), ?_⟩
      rw [hsame.objects, FollowGraph.created_objects, if_pos rfl]
      exact zero_lt_two
  refine ⟨hlock, hstore.1, fun other found hregistering => ?_⟩
  rcases System.goto_threads_cases (system.locked store) conn
      (.registering profile packet continuation) other with
    ⟨_, hgoto⟩ | ⟨_, hgoto⟩
  · rw [hgoto] at hregistering
    cases hregistering
    exact hstore.2
  · rw [hgoto] at hregistering
    exact absurd (holdsLock_of_registeringAt hregistering)
      (not_holdsLock_of_writable haccounts.lock hwritable other)

theorem Accounts.registered (haccounts : Accounts system)
    {profile : ProfileRef} {packet : Packet} {continuation : Next}
    (hpoint : system.threads conn = .registering profile packet continuation)
    (hlock : LockInvariant
      (system.registerSession conn profile packet continuation)) :
    Accounts (system.registerSession conn profile packet continuation) := by
  have hroom := haccounts.room conn profile (by rw [hpoint]; rfl)
  refine ⟨hlock, haccounts.accounted.incSessionsOn hroom (some conn), ?_⟩
  intro other found hregistering
  have hholds := holdsLock_of_registeringAt hregistering
  obtain ⟨hne, hheld⟩ := holdsLock_of_goto other hholds not_false
  have hinside : HoldsLock (system.threads conn) := by
    rw [hpoint]
    trivial
  exact absurd (haccounts.lock.unique other conn hheld hinside) hne

theorem Accounts.left (haccounts : Accounts system) {profile : ProfileRef}
    {packet : Packet}
    (hlock : LockInvariant ((system.countPacket.onStore fun store =>
      store.decSessionsOn profile (some conn)).goto conn
        (.forwarding packet 0 .quit))) :
    Accounts ((system.countPacket.onStore fun store =>
      store.decSessionsOn profile (some conn)).goto conn
        (.forwarding packet 0 .quit)) := by
  refine ⟨hlock, haccounts.accounted.decSessionsOn profile (some conn), ?_⟩
  intro other found hregistering
  apply (decSessionsOn_sessionsOn_le system.store profile found
    (some conn)).trans_lt
  apply haccounts.room other found
  rcases System.goto_threads_cases (system.countPacket.onStore fun store =>
      store.decSessionsOn profile (some conn)) conn
      (.forwarding packet 0 .quit) other with ⟨_, hgoto⟩ | ⟨_, hgoto⟩
  · rw [hgoto] at hregistering
    cases hregistering
  · rw [hgoto] at hregistering
    exact hregistering

theorem Accounts.step (haccounts : Accounts system)
    (htransition : Transition system conn time action next)
    (hcounted : ∀ profile, system.threads conn ≠ .reconnecting profile) :
    Accounts next := by
  have hlock := haccounts.lock.step htransition
  cases htransition with
  | found henter hcmd hwritable hfind =>
      exact haccounts.found hwritable hfind hlock
  | refused henter hcmd hwritable hfind =>
      rcases Store.findOrCreate_error _ hfind with ⟨_, _, rfl⟩ | ⟨hexit, _⟩
      · exact haccounts.move hlock (.of_objects rfl) rfl rfl
      · cases hexit
  | @findFailed _ _ store _ henter hcmd hwritable hfind hexit =>
      rcases Store.findOrCreate_error _ hfind with
        ⟨hrefused, _⟩ | ⟨_, hunknown, hsame⟩
      · exact absurd hrefused hexit
      · refine ⟨hlock, (haccounts.accounted.created _).keep
          (.of_objects hsame.objects), fun other found hregistering => ?_⟩
        exact absurd (holdsLock_of_registeringAt hregistering)
          (not_holdsLock_of_writable haccounts.lock hwritable other)
  | reconnected hpoint => exact absurd hpoint (hcounted _)
  | registered hpoint => exact haccounts.registered hpoint hlock
  | fetched hpoint hfetch =>
      exact haccounts.move hlock (fetchInboxContent_sameSessions _ _) rfl rfl
  | fetchFailed hpoint hfetch =>
      exact haccounts.keep hlock (fetchInboxContent_sameSessions _ _)
        fun _ => .inr rfl
  | @followed packet profile store hpoint hcmd hwritable hfollow =>
      have hsame := addFollowerTo_sameSessions system.store packet.payload profile
      rw [hfollow] at hsame
      exact haccounts.move hlock hsame rfl rfl
  | @followFailed packet profile store exit hpoint hcmd hwritable hfollow =>
      have hsame := addFollowerTo_sameSessions system.store packet.payload profile
      rw [hfollow] at hsame
      exact haccounts.keep hlock hsame fun _ => .inr rfl
  | sent hpoint hfollower =>
      exact haccounts.move hlock (sendOrInsertInbox_sameSessions _ _ _) rfl rfl
  | left hpoint hcmd => exact haccounts.left hlock
  | forwardDone =>
      exact haccounts.move hlock (.refl _) rfl (registeringAt_next _)
  | senderUnknown => exact haccounts.keep hlock (.refl _) fun _ => .inr rfl
  | listReplaced => exact haccounts.keep hlock (.refl _) fun _ => .inr rfl
  | ignored => exact haccounts.keep hlock (.refl _) fun _ => .inr rfl
  | _ => exact haccounts.move hlock (.of_objects rfl) rfl rfl

/-- The only step from a reconnect adds to the vector alone. -/
theorem not_accounted_of_reconnects {label : Label}
    (haccounted : Accounted system.store)
    (hreconnects : Reconnects system label)
    (hstep : Threads.step system label = some next) :
    ¬ Accounted next.store := by
  obtain ⟨profile, hpoint⟩ := hreconnects
  obtain ⟨conn, time, action⟩ := label
  unfold Threads.step at hstep
  split at hstep
  · dsimp only at hpoint hstep
    rw [hpoint] at hstep
    cases action with
    | receive packet => cases hstep
    | proceed =>
        cases hstep
        exact not_accounted_updateSessionsOn haccounted profile (some conn)
  · cases hstep

end Step

/-- For a server started as primary, every state a run visits has all counters
equal to the lengths of their vectors and within the limit exactly when no step
of the run registers a reconnecting client. -/
theorem accounted_throughout_iff (labels : List Label) :
    Throughout step (fun system => Accounted system.store) System.start labels ↔
      Along step (fun system label => ¬ Reconnects system label) System.start
        labels := by
  refine throughout_iff_along (fun system haccounts => haccounts.accounted)
    ?_ ?_ accounts_start labels
  · intro system label next haccounts hcounted hstep
    exact haccounts.step (transition_of_step hstep).2
      fun profile hpoint => hcounted ⟨profile, hpoint⟩
  · intro system label next haccounts hreconnects hstep
    exact not_accounted_of_reconnects haccounts.accounted
      (not_not.1 hreconnects) hstep

/-- One client logs in as `ab`; a second one reconnects with `OK` and the same
name. -/
def reconnectRun : List Label :=
  [⟨1, 0, .receive (new .profile [97, 98] [] 0)⟩, ⟨1, 0, .proceed⟩,
    ⟨2, 0, .receive (new .ok [] [97, 98] 0)⟩, ⟨2, 0, .proceed⟩]

/-- Behind a reconnect the vector is longer than the counter says. -/
theorem reconnect_breaks_accounting :
    ¬ ∀ labels : List Label,
      Throughout step (fun system => Accounted system.store) System.start
        labels := by
  intro hall
  have hview : (exec step System.start reconnectRun).map (fun system =>
      ((system.store.objects 0).sessionsOn,
        (system.store.objects 0).sessions)) =
      some (1, [some 1, some 2]) := by
    decide
  obtain ⟨final, hexec, hfinal⟩ := Option.map_eq_some_iff.1 hview
  have hlength := ((hall reconnectRun).final hexec 0).1
  rw [Prod.mk.injEq] at hfinal
  rw [hfinal.1, hfinal.2] at hlength
  exact absurd hlength (by decide)

end TwitterLike.SessionAccounting
