import TwitterLike.Server.SessionAccounting

/-!
# Who has the lock

The lock of the handler threads is free, or a thread is inside and on its way out,
or a refused login has ended its thread there and it is lost.
-/

namespace TwitterLike.LockHolders

open TwitterLike.ByteBuffer
open TwitterLike.PacketFormat
open TwitterLike.Profiles
open TwitterLike.ProfilesManager
open TwitterLike.ProfileAccessController
open TwitterLike.FollowGraph
open TwitterLike.Handlers
open TwitterLike.SessionAccounting
open TwitterLike.Threads
open TwitterLike.Transition

/-- The thread is in a receive that the connection has not ended. -/
def Listens (system : System) (conn : Conn) : Prop :=
  system.threads conn = .accepted ∨
    ∃ profile, system.threads conn = .looping profile ∧
      conn ∉ system.store.closed

theorem not_holdsLock_of_listens {system : System} {conn : Conn}
    (hlistens : Listens system conn) : ¬ HoldsLock (system.threads conn) := by
  rcases hlistens with hpoint | ⟨_, hpoint, _⟩
  all_goals
    rw [hpoint]
    exact id

/-- The thread has nothing to do before the next packet. -/
def Waits (system : System) (conn : Conn) : Prop :=
  Listens system conn ∨ system.threads conn = .ended

theorem not_holdsLock_of_waits {system : System} {conn : Conn}
    (hwaits : Waits system conn) : ¬ HoldsLock (system.threads conn) := by
  rcases hwaits with hlistens | hpoint
  · exact not_holdsLock_of_listens hlistens
  · rw [hpoint]
    exact id

/-- A thread goes on without a packet unless it waits for one. -/
theorem waits_iff_stuck {system : System} (hup : system.down = none)
    (conn : Conn) (time : BitVec 64) :
    Waits system conn ↔ step system ⟨conn, time, .proceed⟩ = none := by
  have hstep : step system ⟨conn, time, .proceed⟩ =
      stepThread system conn time (system.threads conn) .proceed := if_pos hup
  rw [hstep]
  cases hpoint : system.threads conn with
  | accepted => exact iff_of_true (.inl (.inl hpoint)) rfl
  | ended => exact iff_of_true (.inr hpoint) rfl
  | looping profile => simp [Waits, Listens, hpoint, stepThread]
  | _ => simp [Waits, Listens, hpoint, stepThread]

/-- Only its own thread closes a connection. -/
theorem closed_of_findOrCreate {store after : Store} {profileId : ByteString}
    {conn other : Conn} {time : BitVec 64} {result : Except Exit ProfileRef}
    (hfind : store.findOrCreate profileId (some conn) time = (result, after))
    (hother : other ≠ conn) (hclosed : other ∈ after.closed) :
    other ∈ store.closed := by
  cases result with
  | ok profile =>
      rcases Store.findOrCreate_ok _ hfind with ⟨_, _, rfl⟩ | ⟨_, _, hsame⟩
      · exact hclosed
      · rw [hsame.closed] at hclosed
        exact hclosed
  | error exit =>
      rcases Store.findOrCreate_error _ hfind with ⟨_, _, rfl⟩ | ⟨_, _, hsame⟩
      · refine (List.mem_append.1 hclosed).resolve_right fun hlast => ?_
        exact hother (List.mem_singleton.1 hlast)
      · rw [hsame.closed] at hclosed
        exact hclosed

theorem closed_of_transition {system next : System} {conn other : Conn}
    {time : BitVec 64} {action : Action}
    (htransition : Transition system conn time action next)
    (hother : other ≠ conn) (hclosed : other ∈ next.store.closed) :
    other ∈ system.store.closed := by
  cases htransition with
  | found _ _ _ hfind | refused _ _ _ hfind | findFailed _ _ _ hfind =>
      exact closed_of_findOrCreate hfind hother hclosed
  | @followed packet profile store _ _ _ hfollow
  | @followFailed packet profile store _ _ _ _ hfollow =>
      have hsame := system.store.addFollowerTo_closed packet.payload (some profile)
      rw [hfollow] at hsame
      exact hsame ▸ hclosed
  | closed =>
      refine (List.mem_append.1 hclosed).resolve_right fun hlast => ?_
      exact hother (List.mem_singleton.1 hlast)
  | _ => exact hclosed

/-- A thread that listens goes on listening while others take their steps. -/
theorem listens_of_transition {system next : System} {conn other : Conn}
    {time : BitVec 64} {action : Action}
    (htransition : Transition system conn time action next)
    (hother : other ≠ conn) (hlistens : Listens system other) :
    Listens next other := by
  have hthreads := threads_of_transition hother htransition
  rcases hlistens with hpoint | ⟨profile, hpoint, hopen⟩
  · exact .inl (hthreads.trans hpoint)
  · exact .inr ⟨profile, hthreads.trans hpoint,
      fun hclosed => hopen (closed_of_transition htransition hother hclosed)⟩

/-! ## A lost lock -/

/-- A login that finds all sessions of its profile taken. -/
def Refuses (system : System) (label : Label) : Prop :=
  ∃ packet, label.action = .receive packet ∧ packet.cmd = .profile ∧
    ∃ ref, system.store.getProfileById packet.payload = some ref ∧
      (system.store.objects ref).sessionsOn = maxSessions

instance (system : System) (label : Label) : Decidable (Refuses system label) :=
  match haction : label.action with
  | .receive packet =>
      decidable_of_iff (packet.cmd = .profile ∧
        ∃ ref ∈ system.store.getProfileById packet.payload,
          (system.store.objects ref).sessionsOn = maxSessions)
        (by simp [Refuses, haction])
  | .proceed => isFalse fun ⟨_, hreceive, _⟩ => by cases haction.symm.trans hreceive

/-- The lock is taken and nobody will give it back. -/
structure Leaked (system : System) : Prop where
  taken : 0 < system.controller.numWriters
  nobody : ∀ conn, ¬ HoldsLock (system.threads conn)

/-- As long as the process runs, a taken lock is held by a thread. -/
def Held (system : System) : Prop :=
  system.down = none → system.controller.numWriters ≠ 0 →
    ∃ conn, HoldsLock (system.threads conn)

section Lock

variable {system next : System} {conn : Conn} {time : BitVec 64} {action : Action}

theorem held_of_goto {middle : System} {point : Point}
    (hholds : HoldsLock point) : Held (middle.goto conn point) := by
  intro _ _
  exact ⟨conn, by rwa [System.goto_threads_self]⟩

/-- A step that leaves the lock alone and is not taken inside of it. -/
theorem Held.keep (hheld : Held system)
    (hdown : next.down = none → system.down = none)
    (hwriters : next.controller.numWriters = system.controller.numWriters)
    (hself : ¬ HoldsLock (system.threads conn))
    (hthreads : ∀ other, other ≠ conn →
      next.threads other = system.threads other) : Held next := by
  intro hup htaken
  obtain ⟨other, hholds⟩ := hheld (hdown hup) (hwriters ▸ htaken)
  refine ⟨other, ?_⟩
  rwa [hthreads other]
  rintro rfl
  exact hself hholds

theorem not_refuses_of_proceed : ¬ Refuses system ⟨conn, time, .proceed⟩ := by
  rintro ⟨packet, hreceive, _⟩
  cases hreceive

theorem refuses_of_refused {packet : Packet} {store : Store}
    (hcmd : packet.cmd = .profile)
    (hfind : system.store.findOrCreate packet.payload (some conn) time =
      (.error .threadExit, store)) :
    Refuses system ⟨conn, time, .receive packet⟩ := by
  rcases Store.findOrCreate_error _ hfind with ⟨_, hfull, _⟩ | ⟨hexit, _⟩
  · exact ⟨packet, rfl, hcmd, hfull⟩
  · cases hexit

theorem Held.step (hheld : Held system) (hlock : LockInvariant system)
    (hunrefused : ¬ Refuses system ⟨conn, time, action⟩)
    (htransition : Transition system conn time action next) : Held next := by
  have hkeep := fun hup hwriters hself =>
    @Held.keep system next conn hheld hup hwriters hself
      fun other hne => threads_of_transition hne htransition
  have hfree {middle : System} (hholds : HoldsLock (system.threads conn))
      (hwriters : middle.controller.numWriters = system.controller.numWriters - 1) :
      Held middle := by
    intro _ htaken
    rw [hwriters, hlock.held conn hholds] at htaken
    exact absurd rfl htaken
  cases htransition with
  | found | sendBegun | sent => exact held_of_goto trivial
  | refused _ hcmd _ hfind => exact absurd (refuses_of_refused hcmd hfind) hunrefused
  | findFailed | senderUnknown | fetchFailed | followFailed => exact nofun
  | registered hpoint | sendDone hpoint => exact hfree (hpoint ▸ trivial) rfl
  | joined hpoint | senderFound hpoint | reconnected hpoint | addressPushed hpoint
  | propagated hpoint | forwarded hpoint | forwardDone hpoint | greeted hpoint
  | fetched hpoint | followed hpoint | left hpoint | listReplaced hpoint
  | ignored hpoint | loopLeft hpoint | closed hpoint =>
      exact hkeep id rfl (hpoint ▸ id)

theorem leaked_of_refuses {label : Label} (hlock : LockInvariant system)
    (hrefuses : Refuses system label) (hstep : Threads.step system label = some next) :
    Leaked next := by
  obtain ⟨conn, time, action⟩ := label
  obtain ⟨packet, rfl, hcmd, ref, hfound, hfull⟩ := hrefuses
  have hfind := Store.findOrCreate_of_full _ hfound hfull (some conn) time
  cases (transition_of_step hstep).2 with
  | found _ _ _ hother => cases hfind.symm.trans hother
  | findFailed _ _ _ hother hexit =>
      cases hfind.symm.trans hother
      exact absurd rfl hexit
  | refused _ _ hwritable =>
      constructor
      · change 0 < system.controller.numWriters + 1
        rw [numWriters_of_writable hlock hwritable]
        decide
      · intro other hholds
        exact not_holdsLock_of_writable hlock hwritable other
          (holdsLock_of_goto other hholds id).2
  | joined _ hother | followed _ hother | followFailed _ hother
  | sendBegun _ hother | left _ hother | listReplaced _ hother =>
      cases hcmd.symm.trans hother
  | senderFound _ hprofile | senderUnknown _ hprofile => exact absurd hcmd hprofile
  | ignored _ hignored =>
      rw [hcmd] at hignored
      exact hignored.elim

theorem not_writable_of_taken (htaken : 0 < system.controller.numWriters) :
    ¬ system.controller.writable = true := by
  simp [Controller.writable, htaken]

theorem taken_of_not_writable (hlock : LockInvariant system)
    (htaken : ¬ system.controller.writable = true) :
    0 < system.controller.numWriters := by
  simpa [Controller.writable, hlock.noReaders] using htaken

/-- What nobody holds nobody releases, and nobody gets past a request. -/
theorem Leaked.step (hleaked : Leaked system)
    (htransition : Transition system conn time action next) : Leaked next := by
  have hlocked := not_writable_of_taken hleaked.taken
  have hmove {middle : System} {point : Point}
      (hwriters : middle.controller.numWriters = system.controller.numWriters)
      (hthreads : middle.threads = system.threads) (hpoint : ¬ HoldsLock point) :
      Leaked (middle.goto conn point) := by
    refine ⟨hwriters ▸ hleaked.taken, fun other hholds => ?_⟩
    apply hleaked.nobody other
    rw [← hthreads]
    exact (holdsLock_of_goto other hholds hpoint).2
  cases htransition with
  | found _ _ hwritable | refused _ _ hwritable | findFailed _ _ hwritable
  | followed _ _ hwritable | followFailed _ _ hwritable
  | sendBegun _ _ hwritable => exact absurd hwritable hlocked
  | registered hpoint | sent hpoint | sendDone hpoint =>
      exact absurd (hpoint ▸ trivial) (hleaked.nobody conn)
  | forwardDone => exact hmove rfl rfl (not_holdsLock_next _)
  | senderUnknown | fetchFailed | listReplaced | ignored =>
      exact ⟨hleaked.taken, hleaked.nobody⟩
  | _ => exact hmove rfl rfl id

end Lock

/-! ## What a listening thread takes -/

/-- The packet makes the thread ask for the lock. -/
def NeedsLock : Point → Packet → Prop
  | .accepted, packet => packet.cmd ≠ .setBackup
  | .looping _, packet =>
      packet.cmd = .profile ∨ packet.cmd = .follow ∨ packet.cmd = .send
  | _, _ => False

section Taking

theorem readable_eq_writable {system : System} (hlock : LockInvariant system) :
    system.controller.readable = system.controller.writable := by
  simp [Controller.readable, Controller.writable, hlock.noReaders]

variable {system : System} {conn : Conn} {packet : Packet} {time : BitVec 64}

theorem findProfile_isSome (next : ProfileRef → Next) :
    (system.findProfile conn packet next time).isSome =
      system.controller.writable := by
  rw [System.findProfile]
  cases system.controller.writable with
  | false => rfl
  | true =>
      rw [if_pos rfl]
      dsimp only
      split <;> rfl

theorem findSender_isSome :
    (system.findSender conn packet).isSome = system.controller.readable := by
  rw [System.findSender]
  cases system.controller.readable with
  | false => rfl
  | true =>
      rw [if_pos rfl]
      split <;> rfl

theorem beginSend_isSome (profile : ProfileRef) (message : Message) :
    (system.beginSend conn profile message).isSome =
      system.controller.writable := by
  rw [System.beginSend]
  cases system.controller.writable with
  | false => rfl
  | true => rfl

theorem follow_isSome (profile : ProfileRef) :
    (system.follow conn profile packet).isSome = system.controller.writable := by
  rw [System.follow, Controller.addFollowerTo, Controller.withWrite]
  cases system.controller.writable with
  | false => rfl
  | true =>
      rw [if_pos rfl]
      dsimp only
      rcases hresult : system.controller.requestWrite.store.addFollowerTo
        packet.payload (some profile) with ⟨exit | _, store⟩
      · rw [addFollowerTo_exit hresult]
        rfl
      · rfl

/-- A thread that listens takes a packet unless it needs the lock for it and the
lock is taken. -/
theorem receive_isSome_iff (hup : system.down = none)
    (hlock : LockInvariant system) (hlistens : Listens system conn) :
    (step system ⟨conn, time, .receive packet⟩).isSome ↔
      (NeedsLock (system.threads conn) packet →
        system.controller.writable = true) := by
  have hreadable := readable_eq_writable hlock
  have hstep : step system ⟨conn, time, .receive packet⟩ =
      stepThread system conn time (system.threads conn) (.receive packet) :=
    if_pos hup
  rw [hstep]
  rcases hlistens with hpoint | ⟨profile, hpoint, hopen⟩
  · rw [hpoint, stepThread, System.receiveProfileCmd]
    cases hcmd : packet.cmd with
    | profile => simp [NeedsLock, hcmd, findProfile_isSome]
    | setBackup => simp [NeedsLock, hcmd]
    | _ => simp [NeedsLock, hcmd, findSender_isSome, hreadable]
  · rw [hpoint, stepThread, if_neg hopen, System.processPacket]
    cases hcmd : packet.cmd with
    | profile => simp [NeedsLock, hcmd, findProfile_isSome]
    | follow => simp [NeedsLock, hcmd, follow_isSome]
    | send => simp [NeedsLock, hcmd, beginSend_isSome]
    | _ => simp [NeedsLock, hcmd]

end Taking

/-! ## The way out -/

section Release

variable {system : System} {conn : Conn}

/-- The thread inside goes on, and nobody else. -/
def GoesOut (conn : Conn) (labels : List Label) : Prop :=
  ∀ label ∈ labels, label.conn = conn ∧ label.action = .proceed

/-- The turns of `sendToFollowersOf` end with the release. -/
theorem exists_release_of_sending (hup : system.down = none)
    (hlock : LockInvariant system) {profile : ProfileRef} {message : Message}
    {index : ℕ} (hpoint : system.threads conn = .sending profile message index) :
    ∃ labels later, GoesOut conn labels ∧ exec step system labels = some later ∧
      later.down = none ∧ later.controller.writable = true := by
  generalize hturns :
    (system.store.objects profile).followers.length - index = turns
  induction turns generalizing system index with
  | zero =>
      have hlast : (system.store.objects profile).followers[index]? = none :=
        List.getElem?_eq_none (by omega)
      have hwriters := hlock.held conn (by rw [hpoint]; trivial)
      refine ⟨[⟨conn, 0, .proceed⟩], system.sendTurn conn profile message index,
        by simp [GoesOut], exec_cons_iff.2 ⟨_, ?_, rfl⟩, ?_⟩
      · simp [step, hup, hpoint, stepThread]
      · simp [System.sendTurn, hlast, hup, Controller.writable, hwriters,
          hlock.noReaders]
  | succ turns ih =>
      have hlt : index < (system.store.objects profile).followers.length := by
        omega
      have hstep : step system ⟨conn, 0, .proceed⟩ =
          some (system.sendTurn conn profile message index) := by
        simp [step, hup, hpoint, stepThread]
      have hsent : system.sendTurn conn profile message index =
          (system.onStore fun store => store.sendOrInsertInbox
            (system.store.objects profile).followers[index] message).goto conn
              (.sending profile message (index + 1)) := by
        rw [System.sendTurn, List.getElem?_eq_getElem hlt]
      have hdown : (system.sendTurn conn profile message index).down = none := by
        rw [hsent]
        exact hup
      have hnext : (system.sendTurn conn profile message index).threads conn =
          .sending profile message (index + 1) := by
        rw [hsent]
        exact System.goto_threads_self _ _ _
      have hsame := sendOrInsertInbox_sameGraph system.store
        (system.store.objects profile).followers[index] message
      have hrest : ((system.sendTurn conn profile message index).store.objects
          profile).followers.length - (index + 1) = turns := by
        rw [hsent]
        change ((system.store.sendOrInsertInbox _ message).objects
          profile).followers.length - (index + 1) = turns
        rw [hsame.followers]
        omega
      obtain ⟨labels, later, hgoes, hrun, hlater⟩ :=
        ih hdown (hlock.step (transition_of_step hstep).2) hnext hrest
      refine ⟨⟨conn, 0, .proceed⟩ :: labels, later, ?_,
        exec_cons_iff.2 ⟨_, hstep, hrun⟩, hlater⟩
      exact List.forall_mem_cons.2 ⟨⟨rfl, rfl⟩, hgoes⟩

/-- Who is inside comes out, and the lock is free. -/
theorem exists_release (hup : system.down = none) (hlock : LockInvariant system)
    (hholds : HoldsLock (system.threads conn)) :
    ∃ labels later, GoesOut conn labels ∧ exec step system labels = some later ∧
      later.down = none ∧ later.controller.writable = true := by
  cases hpoint : system.threads conn with
  | registering profile packet next =>
      have hwriters := hlock.held conn hholds
      refine ⟨[⟨conn, 0, .proceed⟩],
        system.registerSession conn profile packet next, by simp [GoesOut],
        exec_cons_iff.2 ⟨_, ?_, rfl⟩, ?_⟩
      · simp [step, hup, hpoint, stepThread]
      · simp [System.registerSession, hup, Controller.writable, hwriters,
          hlock.noReaders]
  | sending profile message index =>
      exact exists_release_of_sending hup hlock hpoint
  | _ =>
      rw [hpoint] at hholds
      exact hholds.elim

end Release

/-! ## Runs -/

/-- A server whose counters are in order when it begins to serve, as primary from
the start or behind its time as a backup. -/
structure Ready (server : Server) : Prop where
  noReaders : server.controller.numReaders = 0
  nonneg : 0 ≤ server.controller.numWriters

theorem ready_new : Ready Server.new := ⟨rfl, le_refl _⟩

theorem lockInvariant_serving {server : Server} (hready : Ready server) :
    LockInvariant (.serving server) where
  noReaders := hready.noReaders
  nonneg := hready.nonneg
  held _ hholds := hholds.elim
  unique _ _ hholds := hholds.elim

theorem lockInvariant_of_run {server : Server} {labels : List Label}
    {system : System} (hready : Ready server)
    (hrun : exec step (.serving server) labels = some system) :
    LockInvariant system :=
  (throughout_of_step (fun _ => id)
    (fun _ _ _ hlock hstep => hlock.step (transition_of_step hstep).2)
    (lockInvariant_serving hready)).final hrun

/-- A lost lock stays lost. -/
theorem Leaked.of_run {labels : List Label} {system later : System}
    (hleaked : Leaked system)
    (hrun : exec Threads.step system labels = some later) : Leaked later :=
  (throughout_of_step (fun _ => id)
    (fun _ _ _ hleaked hstep => hleaked.step (transition_of_step hstep).2)
    hleaked).final hrun

end TwitterLike.LockHolders
