import TwitterLike.Server.BackupConvergence

/-!
# Sessions of a promoted server

A backup counts the sessions of its primary and keeps a null pointer for each.
Promotion leaves both alone, and a client that reconnects adds its connection
without being counted again: a session is claimed back by every reconnect, and
the ones that are not claimed keep a profile online that nobody is connected to.
-/

namespace TwitterLike.PromotedServer

open TwitterLike.ByteBuffer
open TwitterLike.PacketFormat
open TwitterLike.Profiles
open TwitterLike.ProfilesManager
open TwitterLike.Handlers
open TwitterLike.FollowGraph
open TwitterLike.GraphHistory
open TwitterLike.Transition
open TwitterLike.Threads
open TwitterLike.SessionAccounting
open TwitterLike.Commands
open TwitterLike.Replication
open TwitterLike.BackupConvergence

/-! ## One message for one profile -/

/-- `sendOrInsertInbox` writes the message to a connection of the profile or
appends it to the inbox. -/
def HandsOver (profile : Profile) (message : Message) : Prop :=
  (∃ pass ∈ (profile.sendOrInsertInbox message).2,
    pass.message = message ∧ ∃ conn ∈ pass.conns, some conn ∈ profile.sessions) ∨
  (profile.sendOrInsertInbox message).1.inbox = profile.inbox ++ [message]

/-- The sessions that are counted and that no connection belongs to. -/
def unclaimed (profile : Profile) : ℤ :=
  profile.sessionsOn - profile.sessions.countP Option.isSome

section Profile

variable (profile : Profile) (conn : Conn) (message : Message)

/-- A message is lost exactly when the profile is counted as online and nobody
is connected. -/
theorem handsOver_iff_unclaimed :
    HandsOver profile message ↔
      (∃ conn, some conn ∈ profile.sessions) ∨ unclaimed profile ≤ 0 := by
  by_cases honline : profile.sessionsOn > 0
  · have hkept : profile.inbox ≠ profile.inbox ++ [message] := by simp
    rw [HandsOver, sendOrInsertInbox_of_online _ _ honline]
    constructor
    · rintro (⟨pass, _, _, conn, _, hmem⟩ | hinbox)
      · exact .inl ⟨conn, hmem⟩
      · exact absurd hinbox hkept
    · rintro (⟨conn, hmem⟩ | hclaimed)
      · exact .inl ⟨_, List.mem_singleton_self _, rfl, conn,
          List.reduceOption_mem_iff.2 hmem, hmem⟩
      · have hlive : 0 < profile.sessions.countP Option.isSome := by
          rw [unclaimed] at hclaimed
          omega
        obtain ⟨session, hmem, hsome⟩ := List.countP_pos_iff.1 hlive
        obtain ⟨conn, rfl⟩ := Option.isSome_iff_exists.1 hsome
        exact .inl ⟨_, List.mem_singleton_self _, rfl, conn,
          List.reduceOption_mem_iff.2 hmem, hmem⟩
  · rw [HandsOver, sendOrInsertInbox_of_offline _ _ honline]
    refine ⟨fun _ => .inr ?_, fun _ => .inr rfl⟩
    rw [unclaimed]
    omega

theorem unclaimed_new (profileId : ByteString) :
    unclaimed (Profile.new profileId) = 0 := rfl

theorem unclaimed_incSessionsOn :
    unclaimed (profile.incSessionsOn (some conn)) = unclaimed profile := by
  simp only [unclaimed, incSessionsOn_sessionsOn, incSessionsOn_sessions,
    List.countP_append, List.countP_singleton, Option.isSome_some, if_true,
    Nat.cast_add, Nat.cast_one]
  omega

theorem unclaimed_updateSessionsOn :
    unclaimed (profile.updateSessionsOn (some conn)) = unclaimed profile - 1 := by
  simp only [unclaimed, updateSessionsOn_sessionsOn, updateSessionsOn_sessions,
    List.countP_append, List.countP_singleton, Option.isSome_some, if_true,
    Nat.cast_add, Nat.cast_one]
  omega

/-- A session that ends was counted and had its connection. -/
theorem unclaimed_decSessionsOn :
    unclaimed (profile.decSessionsOn (some conn)) = unclaimed profile := by
  by_cases hmem : some conn ∈ profile.sessions
  · have hpos : 0 < profile.sessions.countP Option.isSome :=
      List.countP_pos_iff.2 ⟨some conn, hmem, rfl⟩
    rw [unclaimed, decSessionsOn_sessionsOn_of_mem _ _ hmem,
      decSessionsOn_sessions, List.countP_erase, if_pos ⟨hmem, rfl⟩, unclaimed]
    omega
  · rw [decSessionsOn_of_notMem _ _ hmem]

end Profile

/-! ## One step -/

/-- Objects that are not allocated have no unclaimed session. -/
def Fresh (store : Store) : Prop :=
  ∀ ref, store.allocated ≤ ref → unclaimed (store.objects ref) = 0

section Step

variable {store after : Store} {system next : System} {conn : Conn}
  {time : BitVec 64} {action : Action}

theorem unclaimed_congr (hsame : SameSessions store after) (ref : ProfileRef) :
    unclaimed (after.objects ref) = unclaimed (store.objects ref) := by
  rw [unclaimed, hsame.sessionsOn, hsame.sessions, unclaimed]

theorem unclaimed_update (store : Store) (ref : ProfileRef)
    {change : Profile → Profile}
    (hkeep : ∀ profile, unclaimed (change profile) = unclaimed profile)
    (other : ProfileRef) :
    unclaimed ((store.update ref change).objects other) =
      unclaimed (store.objects other) :=
  store.update_objects_field ref unclaimed (hkeep _) other

theorem created_unclaimed (hfresh : Fresh store) (profileId : ByteString)
    (ref : ProfileRef) :
    unclaimed ((store.created profileId).objects ref) =
      unclaimed (store.objects ref) := by
  rw [created_objects]
  split
  · next heq =>
      rw [unclaimed_new, hfresh ref heq.ge]
  · rfl

theorem findOrCreate_unclaimed {profileId : ByteString}
    {result : Except Exit ProfileRef}
    (hfind : store.findOrCreate profileId (some conn) time = (result, after))
    (hfresh : Fresh store) (ref : ProfileRef) :
    unclaimed (after.objects ref) = unclaimed (store.objects ref) := by
  cases result with
  | ok profile =>
      rcases Store.findOrCreate_ok _ hfind with ⟨_, _, rfl⟩ | ⟨_, _, hsame⟩
      · rfl
      · rw [hsame.objects]
        exact created_unclaimed hfresh profileId ref
  | error exit =>
      rcases Store.findOrCreate_error _ hfind with ⟨_, _, rfl⟩ | ⟨_, _, hsame⟩
      · rfl
      · rw [hsame.objects]
        exact created_unclaimed hfresh profileId ref

theorem unclaimed_of_transition (hfresh : Fresh system.store)
    (htransition : Transition system conn time action next)
    (hstays : ∀ profile, system.threads conn ≠ .reconnecting profile)
    (ref : ProfileRef) :
    unclaimed (next.store.objects ref) =
      unclaimed (system.store.objects ref) := by
  cases htransition with
  | found henter hcmd hwritable hfind =>
      exact findOrCreate_unclaimed hfind hfresh ref
  | refused henter hcmd hwritable hfind =>
      exact findOrCreate_unclaimed hfind hfresh ref
  | findFailed henter hcmd hwritable hfind hexit =>
      exact findOrCreate_unclaimed hfind hfresh ref
  | reconnected hpoint => exact absurd hpoint (hstays _)
  | @registered profile packet continuation hpoint =>
      exact unclaimed_update system.store profile
        (fun _ => unclaimed_incSessionsOn _ conn) ref
  | @left packet profile hpoint hcmd =>
      exact unclaimed_update system.store profile
        (fun _ => unclaimed_decSessionsOn _ conn) ref
  | @followed packet profile store hpoint hcmd hwritable hfollow =>
      have hsame := addFollowerTo_sameSessions system.store packet.payload profile
      rw [hfollow] at hsame
      exact unclaimed_congr hsame ref
  | @followFailed packet profile store exit hpoint hcmd hwritable hfollow =>
      have hsame := addFollowerTo_sameSessions system.store packet.payload profile
      rw [hfollow] at hsame
      exact unclaimed_congr hsame ref
  | sent => exact unclaimed_congr (sendOrInsertInbox_sameSessions _ _ _) ref
  | fetched => exact unclaimed_congr (fetchInboxContent_sameSessions _ _) ref
  | fetchFailed => exact unclaimed_congr (fetchInboxContent_sameSessions _ _) ref
  | _ => rfl

/-- The step of a client that reconnects to the profile. -/
def claims (ref : ProfileRef) (system : System) (label : Label) : ℕ :=
  if system.threads label.conn = .reconnecting ref then 1 else 0

/-- Every reconnect claims one session of its profile, and no other step claims
or gives up any. -/
theorem unclaimed_of_step {label : Label} (hfresh : Fresh system.store)
    (hstep : step system label = some next) (ref : ProfileRef) :
    unclaimed (next.store.objects ref) =
      unclaimed (system.store.objects ref) - claims ref system label := by
  by_cases hreconnects : ∃ profile,
      system.threads label.conn = .reconnecting profile
  · obtain ⟨profile, hpoint⟩ := hreconnects
    obtain ⟨conn, time, action⟩ := label
    dsimp only at hpoint
    rw [Threads.step, if_pos (transition_of_step hstep).1] at hstep
    dsimp only at hstep
    rw [hpoint] at hstep
    cases action with
    | receive packet => cases hstep
    | proceed =>
        cases hstep
        change unclaimed ((system.store.updateSessionsOn profile
          (some conn)).objects ref) = _
        by_cases hself : ref = profile
        · subst hself
          rw [Store.updateSessionsOn, Store.update_objects_self,
            unclaimed_updateSessionsOn, claims, if_pos hpoint, Nat.cast_one]
        · have hother : Point.reconnecting profile ≠ .reconnecting ref := by
            rintro ⟨⟩
            exact hself rfl
          rw [Store.updateSessionsOn, Store.update_objects_of_ne _ _ _ hself,
            claims, hpoint, if_neg hother, Nat.cast_zero, sub_zero]
  · rw [not_exists] at hreconnects
    rw [unclaimed_of_transition hfresh (transition_of_step hstep).2 hreconnects,
      claims, if_neg (hreconnects ref), Nat.cast_zero, sub_zero]

end Step

/-! ## Runs of the promoted server -/

/-- How often a client has reconnected to the profile in the run. -/
def reconnects (ref : ProfileRef) : System → List Label → ℕ
  | _, [] => 0
  | system, label :: labels =>
      claims ref system label +
        (step system label).elim 0 fun next => reconnects ref next labels

structure Claimable (system : System) : Prop where
  graph : GraphInvariant system
  fresh : Fresh system.store

section Runs

variable {system next final : System} {label : Label}

theorem Claimable.step (hclaimable : Claimable system)
    (hstep : Threads.step system label = some next) : Claimable next := by
  have htransition := (transition_of_step hstep).2
  refine ⟨hclaimable.graph.step htransition, fun ref hfresh => ?_⟩
  have hallocated : system.store.allocated ≤ ref :=
    (allocated_le (graphStep_of_transition htransition)).trans hfresh
  have hnone : system.threads label.conn ≠ .reconnecting ref := by
    intro hpoint
    have hknown := hclaimable.graph.known label.conn ref (by rw [hpoint]; rfl)
    exact absurd (hclaimable.graph.wellFormed.allocated _ ref hknown)
      hallocated.not_gt
  rw [unclaimed_of_step hclaimable.fresh hstep, claims, if_neg hnone,
    hclaimable.fresh ref hallocated, Nat.cast_zero, sub_zero]

/-- Over a run, the sessions that have been claimed are those of the clients
that have reconnected. -/
theorem unclaimed_of_exec {labels : List Label} (hclaimable : Claimable system)
    (hrun : exec Threads.step system labels = some final) (ref : ProfileRef) :
    unclaimed (final.store.objects ref) =
      unclaimed (system.store.objects ref) - reconnects ref system labels := by
  induction labels generalizing system with
  | nil =>
      cases hrun
      rw [reconnects, Nat.cast_zero, sub_zero]
  | cons label labels ih =>
      obtain ⟨next, hstep, hrest⟩ := exec_cons_iff.1 hrun
      rw [ih (hclaimable.step hstep) hrest, unclaimed_of_step hclaimable.fresh hstep,
        reconnects, hstep, Option.elim_some, Nat.cast_add, sub_sub]

end Runs

/-! ## What a backup is promoted with -/

/-- The store of a backup: its sessions are null pointers. -/
structure Orphaned (store : Store) : Prop where
  wellFormed : WellFormed store
  nulls : ∀ ref, ∀ session ∈ (store.objects ref).sessions, session = none
  fresh : Fresh store

section Backup

variable {store after : Store} {backup promoted : Server} {relayed : Relayed}

theorem Orphaned.unclaimed (horphaned : Orphaned store) (ref : ProfileRef) :
    unclaimed (store.objects ref) = (store.objects ref).sessionsOn := by
  have hnone : (store.objects ref).sessions.countP Option.isSome = 0 := by
    rw [List.countP_eq_zero]
    intro session hmem
    rw [horphaned.nulls ref session hmem]
    exact Bool.false_ne_true
  rw [PromotedServer.unclaimed, hnone, Nat.cast_zero, sub_zero]

theorem orphaned_empty : Orphaned Store.empty where
  wellFormed := wellFormed_empty
  nulls _ _ hmem := by cases hmem
  fresh _ _ := rfl

theorem Fresh.congr (hfresh : Fresh store)
    (hallocated : store.allocated ≤ after.allocated)
    (hkept : ∀ ref, after.allocated ≤ ref →
      after.objects ref = store.objects ref) : Fresh after := by
  intro ref hle
  rw [hkept ref hle]
  exact hfresh ref (hallocated.trans hle)

theorem Fresh.update (hfresh : Fresh store) {ref : ProfileRef}
    (hlt : ref < store.allocated) (change : Profile → Profile) :
    Fresh (store.update ref change) :=
  hfresh.congr le_rfl fun _ hle =>
    Store.update_objects_of_ne _ _ _ (hlt.trans_le hle).ne'

theorem Fresh.createProfileIfNotExists (hfresh : Fresh store)
    (hwf : WellFormed store) {profileId : ByteString} {session : Option Conn}
    {time : BitVec 64} {ref : ProfileRef}
    (hcreate : store.createProfileIfNotExists profileId session time =
      (.ok ref, after)) : Fresh after := by
  obtain ⟨found, hfind, rfl⟩ := Store.createProfileIfNotExists_ok_iff.1 hcreate
  rcases Store.findOrCreate_ok _ hfind with ⟨hfound, _, rfl⟩ | ⟨_, rfl, hsame⟩
  · exact hfresh.update (hwf.allocated _ ref hfound) _
  · have hallocated : found.allocated = store.allocated + 1 := hsame.allocated
    have hcreated : Fresh found := by
      refine hfresh.congr (hallocated ▸ Nat.le_succ _) fun ref hle => ?_
      rw [hallocated] at hle
      rw [hsame.objects, created_objects, if_neg (Nat.lt_of_succ_le hle).ne']
    exact hcreated.update (hallocated ▸ Nat.lt_succ_self _) _

theorem addFollowerTo_allocated (store : Store) (followed : ByteString)
    (follower : ProfileRef) :
    (store.addFollowerTo followed (some follower)).2.allocated =
      store.allocated := by
  rcases store.addFollowerTo_cases followed follower with
    hkeep | ⟨target, _, _, _, hpush⟩
  · rw [hkeep]
  · rw [hpush]
    exact (Store.toJsonFile_sameMemory (store.pushFollower target follower)).allocated

/-- A command of a backup counts no session of an object that is not
allocated. -/
theorem Fresh.applied (hfresh : Fresh store) (hwf : WellFormed store)
    {session : Option Conn} {profile : Option ProfileRef} {message : Message}
    {time : BitVec 64}
    (happlied : Applied session profile message time store after)
    (hknown : ∀ ref, profile = some ref → ref < store.allocated) :
    Fresh after := by
  cases happlied with
  | registered hcmd hcreate => exact hfresh.createProfileIfNotExists hwf hcreate
  | followed hcmd hfollow =>
      cases profile with
      | none => cases hfollow
      | some follower =>
          have hsame :=
            addFollowerTo_sameSessions store message.packet.payload follower
          have hallocated :=
            addFollowerTo_allocated store message.packet.payload follower
          rw [hfollow] at hsame hallocated
          intro ref hle
          rw [unclaimed_congr hsame]
          exact hfresh ref (hallocated ▸ hle)
  | @sent sender hcmd hprofile =>
      have hallocated :=
        (sendToFollowersOf_sameGraph store (some sender) message).allocated
      intro ref hle
      rw [unclaimed_congr (sendToFollowersOf_sameSessions store sender message)]
      exact hfresh ref (hallocated ▸ hle)
  | left hcmd hprofile => exact hfresh.update (hknown _ hprofile) _

theorem Orphaned.relay (horphaned : Orphaned backup.store)
    (hrelay : Replication.relay backup relayed = some promoted) :
    Orphaned promoted.store := by
  have hwf := horphaned.wellFormed
  rcases applied_of_relay hrelay with ⟨store, happlied, hstore⟩ | ⟨_, hstore⟩
  · have hforwarded := forward_sameSessions backup.listBackups
      relayed.message.packet store
    have hallocated := (forward_sameGraph backup.listBackups
      relayed.message.packet store).allocated
    refine ⟨(relay_graph hwf hrelay).1, fun ref session hmem => ?_,
      fun ref hle => ?_⟩
    · rw [hstore, hforwarded.sessions] at hmem
      by_contra hlive
      exact hlive (horphaned.nulls ref session
        (happlied.mem_sessions_before hlive hmem))
    · rw [hstore, hallocated] at hle
      rw [hstore, unclaimed_congr hforwarded]
      exact horphaned.fresh.applied hwf happlied
        (fun sender hfound => hwf.allocated _ sender hfound) ref hle
  · rw [hstore]
    exact horphaned

theorem orphaned_of_exec_relay {received : List Relayed}
    (hbackup : exec Replication.relay Server.new received = some backup) :
    Orphaned backup.store :=
  exec_invariant (fun _ _ _ horphaned _ hrelay => Orphaned.relay horphaned hrelay)
    orphaned_empty (along_true Server.new received) hbackup

theorem claimable_serving (horphaned : Orphaned backup.store) :
    Claimable (System.serving backup) where
  graph := ⟨horphaned.wellFormed, fun _ _ hmentions => hmentions.elim⟩
  fresh := horphaned.fresh

end Backup

/-! ## Hand-over by a promoted server -/

section Promotion

variable {received : List Relayed} {backup : Server} {labels : List Label}
  {system : System}

/-- In every state of a promoted server, whatever it has been sent before as a
backup, a message for a profile is written to a connection of the profile or
queued exactly when a client is connected to it or as many clients have
reconnected to it as sessions were counted when the server was promoted. -/
theorem handsOver_iff
    (hbackup : exec relay Server.new received = some backup)
    (hrun : exec step (System.serving backup) labels = some system)
    (ref : ProfileRef) (message : Message) :
    HandsOver (system.store.objects ref) message ↔
      (∃ conn, some conn ∈ (system.store.objects ref).sessions) ∨
        (backup.store.objects ref).sessionsOn ≤
          reconnects ref (System.serving backup) labels := by
  have horphaned := orphaned_of_exec_relay hbackup
  have hclaimed := unclaimed_of_exec (claimable_serving horphaned) hrun ref
  have hcounted : unclaimed ((System.serving backup).store.objects ref) =
      (backup.store.objects ref).sessionsOn := horphaned.unclaimed ref
  rw [handsOver_iff_unclaimed, hclaimed, hcounted, sub_nonpos]

/-- Every counted session has been claimed. -/
structure Claimed (system : System) : Prop extends Claimable system where
  claimed : ∀ ref, unclaimed (system.store.objects ref) ≤ 0

theorem Claimed.step {next : System} {label : Label} (hclaimed : Claimed system)
    (hstep : Threads.step system label = some next) : Claimed next where
  toClaimable := hclaimed.toClaimable.step hstep
  claimed ref := by
    rw [unclaimed_of_step hclaimed.fresh hstep ref]
    exact (Int.sub_le_self _ (Int.natCast_nonneg _)).trans (hclaimed.claimed ref)

/-- A server that is promoted while a session is counted can lose messages from
the start, and one that is promoted while none is never can. -/
theorem handsOver_throughout_iff
    (hbackup : exec relay Server.new received = some backup) :
    Throughout step (fun system => ∀ ref message,
        HandsOver (system.store.objects ref) message) (System.serving backup)
          labels ↔
      ∀ ref, (backup.store.objects ref).sessionsOn ≤ 0 := by
  have horphaned := orphaned_of_exec_relay hbackup
  constructor
  · intro hthroughout ref
    have hhands := hthroughout.head ref ⟨0, new .send [] [] 0⟩
    rw [handsOver_iff_unclaimed] at hhands
    rcases hhands with ⟨conn, hlive⟩ | hclaimed
    · cases horphaned.nulls ref _ hlive
    · exact horphaned.unclaimed ref ▸ hclaimed
  · intro hoffline
    have hstart : Claimed (System.serving backup) :=
      ⟨claimable_serving horphaned,
        fun ref => (horphaned.unclaimed ref).trans_le (hoffline ref)⟩
    refine throughout_of_step (fun system hclaimed ref message => ?_)
      (fun system label next hclaimed hstep => hclaimed.step hstep) hstart
    exact (handsOver_iff_unclaimed _ message).2 (.inr (hclaimed.claimed ref))

end Promotion

/-- `ab` and `cd` log in and `ab` follows `cd`, as a backup sees it. -/
def followedPackets : List Relayed :=
  [new .backupPropagation [58, 10] [] 0, new .profile [97, 98] [] 0,
    new .profile [99, 100] [] 0, new .follow [99, 100] [97, 98] 0].map
      fun packet => ⟨⟨0, packet⟩, 0⟩

def promotedServer : Server :=
  (exec relay Server.new followedPackets).get (by decide)

/-- `cd` reconnects. -/
def senderLabels : List Label :=
  [⟨1, 0, .receive (new .ok [] [99, 100] 0)⟩, ⟨1, 0, .proceed⟩,
    ⟨1, 0, .proceed⟩, ⟨1, 0, .proceed⟩]

/-- `ab` reconnects. -/
def followerLabels : List Label :=
  [⟨2, 0, .receive (new .ok [] [97, 98] 0)⟩, ⟨2, 0, .proceed⟩,
    ⟨2, 0, .proceed⟩, ⟨2, 0, .proceed⟩]

/-- `cd` sends a text while `ab` has not come back. -/
def earlyRun : List Label :=
  senderLabels ++ [⟨1, 0, .receive (new .send [104, 105] [99, 100] 0)⟩]

/-- `cd` sends a text when both have come back. -/
def lateRun : List Label :=
  senderLabels ++ followerLabels ++
    [⟨1, 0, .receive (new .send [104, 105] [99, 100] 0)⟩]

theorem promotedServer_eq :
    exec relay Server.new followedPackets = some promotedServer :=
  (Option.some_get _).symm

theorem handsOver_lateRun :
    ∃ system message, exec step (System.serving promotedServer) lateRun =
        some system ∧
      system.threads 1 = .sending 1 message 0 ∧
      (system.store.objects 1).followers = [0] ∧
      HandsOver (system.store.objects 0) message := by
  have hvalues : (exec step (System.serving promotedServer) lateRun).map
      (fun system => (system.threads 1, (system.store.objects 1).followers)) =
        some (.sending 1 ⟨2, new .send [104, 105] [99, 100] 0⟩ 0, [0]) := by
    decide
  obtain ⟨system, hrun, hpoint⟩ := Option.map_eq_some_iff.1 hvalues
  rw [Prod.mk.injEq] at hpoint
  refine ⟨system, _, hrun, hpoint.1, hpoint.2, ?_⟩
  exact (handsOver_iff promotedServer_eq hrun 0 _).2 (.inr (by decide))

/-- The text of `cd` is on its way to `ab`, whose session nobody has claimed. -/
theorem earlyRun_not_handsOver :
    ∃ system message, exec step (System.serving promotedServer) earlyRun =
        some system ∧
      system.threads 1 = .sending 1 message 0 ∧
      (system.store.objects 1).followers = [0] ∧
      ¬ HandsOver (system.store.objects 0) message := by
  have hvalues : (exec step (System.serving promotedServer) earlyRun).map
      (fun system => (system.threads 1, (system.store.objects 1).followers,
        (system.store.objects 0).sessionsOn,
        (system.store.objects 0).sessions)) =
      some (.sending 1 ⟨1, new .send [104, 105] [99, 100] 0⟩ 0, [0], 1,
        [none]) := by
    decide
  obtain ⟨system, hrun, hpoint⟩ := Option.map_eq_some_iff.1 hvalues
  simp only [Prod.mk.injEq] at hpoint
  obtain ⟨hthread, hfollowers, hcounted, hsessions⟩ := hpoint
  refine ⟨system, _, hrun, hthread, hfollowers, ?_⟩
  rw [handsOver_iff_unclaimed, unclaimed, hcounted, hsessions]
  rintro (⟨conn, hlive⟩ | hclaimed)
  · cases List.mem_singleton.1 hlive
  · exact absurd hclaimed (by decide)

end TwitterLike.PromotedServer
