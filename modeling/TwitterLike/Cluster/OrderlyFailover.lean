import TwitterLike.Cluster.FailoverRuns

/-!
# An orderly failover

When the primary has forwarded in order and its backup has received everything, both
have the same graph, and the server that the backup becomes keeps it.
-/

namespace TwitterLike.Failover

open TwitterLike.ByteBuffer
open TwitterLike.PacketFormat
open TwitterLike.Profiles
open TwitterLike.ProfilesManager
open TwitterLike.FollowGraph
open TwitterLike.Transition
open TwitterLike.Channels
open TwitterLike.Arrivals (zeroPacket)
open TwitterLike.Threads (System Label Action threads_of_transition transition_of_step)
open TwitterLike.Replication (writtenTo)
open TwitterLike.BackupLoop (Follower)
open TwitterLike.BackupConvergence
open TwitterLike.Service (nameOf)
open TwitterLike.Provenance

/-! ## The threads of the primary -/

/-- What a move is for the threads of the primary. -/
def primaryLabel (cluster : Cluster) : Move → Option Label
  | .deliver .primary conn time =>
      (cluster.primary.requests conn).receive.map fun next =>
        ⟨conn, time, .receive next.1⟩
  | .vanish .primary conn time => some ⟨conn, time, .receive zeroPacket.packet⟩
  | .proceed .primary conn time => some ⟨conn, time, .proceed⟩
  | _ => none

/-- The first packet on a connection is `PROFILE`. -/
def PresentsFirst (system : System) (label : Label) : Prop :=
  match label.action with
  | .receive packet =>
      system.threads label.conn = .accepted → packet.cmd = .profile
  | .proceed => True

instance (system : System) (label : Label) :
    Decidable (PresentsFirst system label) :=
  match haction : label.action with
  | .receive packet => decidable_of_iff
      (system.threads label.conn = .accepted → packet.cmd = .profile)
      (by rw [PresentsFirst, haction])
  | .proceed => .isTrue (by simp only [PresentsFirst, haction])

/-- Clients present themselves before all else, and no `FOLLOW` changes places with
the `PROFILE` of its target on the way to the backup. -/
def Orderly (setting : Setting) (cluster : Cluster) (move : Move) : Prop :=
  ∀ label ∈ (primaryLabel cluster move).toList,
    PresentsFirst cluster.primary.server label ∧
      ForwardsInOrder setting.backupConn cluster.primary.server label

instance (setting : Setting) (cluster : Cluster) (move : Move) :
    Decidable (Orderly setting cluster move) :=
  inferInstanceAs (Decidable (∀ label ∈ (primaryLabel cluster move).toList, _ ∧ _))

section Steps

variable {setting : Setting} {ledger : Ledger} {cluster next : Cluster} {side : Side}
  {conn : Conn} {time : BitVec 64}

/-- The primary has done nothing, or one of its threads what the label says. -/
def Stays (setting : Setting) (ledger : Ledger) (cluster : Cluster)
    (label : Option Label) (next : Cluster) : Prop :=
  next.primary.server = cluster.primary.server ∨
    ∃ taken ∈ label.toList,
      Honest (nameOf setting.names) ledger taken.conn taken.action ∧
      Threads.step cluster.primary.server taken = some next.primary.server

theorem post_primary (packets : List Packet) :
    (cluster.post conn packets).primary.server = cluster.primary.server := by
  unfold Cluster.post
  split
  · rfl
  · next side _ =>
      split
      · rfl
      · next hsite =>
          cases side with
          | primary =>
              cases hsite
              rfl
          | standby => rfl

theorem stays_of_serverMove {site : Site} {requests : Conn → Channel Packet}
    {action : Action} (hrunning : cluster.running side = some site)
    (hmove : cluster.serverMove side site requests ⟨conn, time, action⟩ = some next)
    (hhonest : side = .primary → Honest (nameOf setting.names) ledger conn action)
    {label : Option Label}
    (hlabel : side = .primary → label = some ⟨conn, time, action⟩) :
    Stays setting ledger cluster label next := by
  have hsite := site_of_running hrunning
  obtain ⟨system, hstep, rfl⟩ := Option.map_eq_some_iff.1 hmove
  cases side with
  | standby => exact .inl rfl
  | primary =>
      cases hsite
      rw [hlabel rfl]
      exact .inr ⟨_, List.mem_singleton_self _, hhonest rfl, hstep⟩

theorem stays_of_step {move : Move} (hattested : Attested setting ledger cluster)
    (hstep : step setting cluster move = some next) :
    Stays setting ledger cluster (primaryLabel cluster move) next := by
  cases move with
  | client conn event =>
      obtain ⟨_, hmove⟩ := Option.ite_none_right_eq_some.1 hstep
      obtain ⟨_, _, rfl⟩ := Option.map_eq_some_iff.1 hmove
      exact .inl (post_primary _)
  | dial conn side =>
      simp only [step, Cluster.dial] at hstep
      split at hstep
      · obtain ⟨_, hnext⟩ := Option.ite_none_right_eq_some.1 hstep
        cases hnext
        exact .inl rfl
      · cases hstep
  | announce conn time =>
      obtain ⟨_, hnext⟩ := Option.ite_none_right_eq_some.1 hstep
      cases hnext
      exact .inl (post_primary _)
  | display conn =>
      obtain ⟨_, hmove⟩ := Option.ite_none_right_eq_some.1 hstep
      simp only [Option.bind_eq_bind, Option.bind_eq_some_iff] at hmove
      obtain ⟨side, _, site, hsite, packet, _, hnext⟩ := hmove
      cases hnext
      cases side with
      | primary =>
          cases hsite
          exact .inl rfl
      | standby => exact .inl rfl
  | deliver side conn time =>
      simp only [step, Cluster.deliver, Option.bind_eq_bind,
        Option.bind_eq_some_iff] at hstep
      obtain ⟨site, hrunning, ⟨packet, channel⟩, hreceive, hmove⟩ := hstep
      refine stays_of_serverMove hrunning hmove (fun _ => ?_) fun hside => ?_
      · exact (hattested.ofRunning hrunning).requests conn packet
          (Channel.mem_log_of_receive hreceive)
      · subst hside
        cases site_of_running hrunning
        rw [primaryLabel, hreceive]
        rfl
  | vanish side conn time =>
      simp only [step, Cluster.vanish, Option.bind_eq_bind,
        Option.bind_eq_some_iff] at hstep
      obtain ⟨site, hrunning, hmove⟩ := hstep
      obtain ⟨_, hmove⟩ := Option.ite_none_right_eq_some.1 hmove
      refine stays_of_serverMove hrunning hmove (fun _ => genuine_zeroPacket)
        fun hside => ?_
      subst hside
      rfl
  | proceed side conn time =>
      simp only [step, Cluster.proceed, Option.bind_eq_bind,
        Option.bind_eq_some_iff] at hstep
      obtain ⟨site, hrunning, hmove⟩ := hstep
      refine stays_of_serverMove hrunning hmove (fun _ => trivial) fun hside => ?_
      subst hside
      rfl
  | relay time =>
      simp only [step, Cluster.relay] at hstep
      split at hstep
      · obtain ⟨_, _, hnext⟩ := Option.map_eq_some_iff.1 hstep
        split at hnext <;> cases hnext <;> exact .inl rfl
      · cases hstep
  | crash =>
      cases hstep
      exact .inl rfl
  | loseContact =>
      simp only [step, Cluster.loseContact] at hstep
      split at hstep
      · obtain ⟨_, hnext⟩ := Option.ite_none_right_eq_some.1 hstep
        cases hnext
        exact .inl rfl
      · cases hstep
  | takeOver =>
      simp only [step, Cluster.takeOver] at hstep
      split at hstep <;> cases hstep
      exact .inl rfl
  | listen =>
      simp only [step, Cluster.listen] at hstep
      split at hstep <;> cases hstep
      exact .inl rfl

/-- Clients that present themselves first and speak in their own name are well
behaved. -/
theorem wellBehaved_of_honest {system : System} {name : Conn → ByteString}
    {backups : List Conn} {label : Label}
    (hgrounded : Grounded name ledger backups system)
    (hhonest : Honest name ledger label.conn label.action)
    (hfirst : PresentsFirst system label) : WellBehaved system label := by
  have hmentions := hgrounded.mentions label.conn
  unfold WellBehaved
  split
  · next haction hpoint =>
      rw [PresentsFirst, haction] at hfirst
      exact hfirst hpoint
  · next profile haction hpoint =>
      rw [haction] at hhonest
      rw [hpoint] at hmentions
      intro hcmd
      rw [hhonest.spoken (.inl hcmd)]
      exact (hgrounded.vouched.backed.wellFormed.ids _ _ (hmentions profile rfl)).symm
  · trivial

/-- A server that is down takes no further step. -/
def Replicating (setting : Setting) (cluster : Cluster) : Prop :=
  cluster.primary.server.down = none →
    Replicates setting.backupConn cluster.primary.server

theorem Replicating.step {move : Move} (hreplicating : Replicating setting cluster)
    (hattested : Attested setting ledger cluster)
    (horderly : Orderly setting cluster move)
    (hstep : step setting cluster move = some next) : Replicating setting next := by
  intro hdown
  rcases stays_of_step hattested hstep with hsame | ⟨label, hlabel, hhonest, htaken⟩
  · rw [hsame] at hdown ⊢
    exact hreplicating hdown
  · obtain ⟨hfirst, horder⟩ := horderly label hlabel
    exact (hreplicating (transition_of_step htaken).1).step
      (wellBehaved_of_honest hattested.primary.grounded hhonest hfirst) horder htaken
      hdown

end Steps

/-! ## Runs -/

section Runs

variable {setting : Setting} {moves more : List Move} {before later : Cluster}

theorem replicating_of_run
    (halong : Along (step setting) (Orderly setting) (.start setting) moves)
    (hrun : exec (step setting) (.start setting) moves = some later) :
    Replicating setting later :=
  (@exec_invariant _ _ _ _
    (fun cluster => Attested setting (ledgerOf setting.names cluster.typed) cluster ∧
      Replicating setting cluster)
    (fun _ _ _ hinvariant horderly hstep =>
      ⟨(hinvariant.1.step hstep).1, hinvariant.2.step hinvariant.1 horderly hstep⟩)
    _ _ _ ⟨attested_start setting, fun _ => replicates_attachedSystem _⟩ halong hrun).2

/-- An orderly failover loses nothing: when no thread of the primary has anything left
to forward and the backup has received all that has been forwarded, both have the same
graph, and the server that the backup becomes keeps it. -/
theorem orderly_failover {follower : Follower} {store : Store}
    (halong : Along (step setting) (Orderly setting) (.start setting) moves)
    (hbefore : exec (step setting) (.start setting) moves = some before)
    (hdown : before.primary.server.down = none)
    (hforwarded : ∀ conn, pending before.primary.server conn = none)
    (hfollowing : before.standby = .following follower)
    (hreceived : follower.received =
      (writtenTo setting.backupConn before.primary.server.store).length)
    (hlater : exec (step setting) before more = some later)
    (hstore : later.store .standby = some store) :
    graph follower.backup.store = graph before.primary.server.store ∧
      (graph before.primary.server.store).ids ⊆ (graph store).ids ∧
      (graph before.primary.server.store).edges ⊆ (graph store).edges := by
  have hheard := (attested_of_run hbefore).heard
  rw [hfollowing] at hheard
  have hreplicates := replicating_of_run halong hbefore hdown
  have hsame : graph follower.backup.store = graph before.primary.server.store := by
    rw [hheard.2, hreceived, List.take_length]
    exact hreplicates.lagging.settled hforwarded
  rw [← hsame]
  exact ⟨rfl, backup_graph_le hbefore hfollowing hlater hstore⟩

/-- A thread that no move is about stays where it is. -/
theorem threads_of_run {conn : Conn}
    (halong : Along (step setting) (fun cluster move =>
      ∀ label ∈ (primaryLabel cluster move).toList, conn ≠ label.conn)
      (.start setting) moves)
    (hrun : exec (step setting) (.start setting) moves = some later) :
    later.primary.server.threads conn =
      (Cluster.start setting).primary.server.threads conn :=
  (@exec_invariant _ _ _ _
    (fun cluster => Attested setting (ledgerOf setting.names cluster.typed) cluster ∧
      cluster.primary.server.threads conn =
        (Cluster.start setting).primary.server.threads conn)
    (fun _ _ _ hinvariant hother hstep => by
      refine ⟨(hinvariant.1.step hstep).1, ?_⟩
      rcases stays_of_step hinvariant.1 hstep with hsame | ⟨label, hlabel, _, htaken⟩
      · rw [hsame]
        exact hinvariant.2
      · rw [threads_of_transition (hother label hlabel) (transition_of_step htaken).2]
        exact hinvariant.2)
    _ _ _ ⟨attested_start setting, rfl⟩ halong hrun).2

end Runs

theorem orderly_failover_failoverMoves :
    ∃ before later follower store, exec (step bobsSetting) (.start bobsSetting)
        followMoves = some before ∧ exec (step bobsSetting) before failoverMoves =
        some later ∧ before.standby = .following follower ∧
      later.store .standby = some store ∧
        graph follower.backup.store = graph before.primary.server.store ∧
        (graph before.primary.server.store).ids ⊆ (graph store).ids ∧
        (graph before.primary.server.store).edges ⊆ (graph store).edges := by
  have hstate : (exec (step bobsSetting) (.start bobsSetting) followMoves).map
      (fun cluster => (cluster.standby.follower.map Follower.received,
        (writtenTo 0 cluster.primary.server.store).length, cluster.primary.server.down,
        pending cluster.primary.server 1, pending cluster.primary.server 2)) =
          some (some 3, 3, none, none, none) := by decide
  have hserving : ((exec (step bobsSetting) (.start bobsSetting)
      (followMoves ++ failoverMoves)).bind fun cluster =>
        cluster.store .standby).isSome := by decide
  obtain ⟨store, hstore⟩ := Option.isSome_iff_exists.1 hserving
  obtain ⟨later, hrun, hstore⟩ := Option.bind_eq_some_iff.1 hstore
  obtain ⟨before, hbefore, hlater⟩ := exec_append_iff.1 hrun
  rw [hbefore] at hstate
  simp only [Option.map_some, Option.some.injEq, Prod.mk.injEq] at hstate
  obtain ⟨hstage, hwritten, hdown, hbob, hdiana⟩ := hstate
  obtain ⟨follower, hfollower, hreceived⟩ := Option.map_eq_some_iff.1 hstage
  have hforwarded (conn : Conn) : pending before.primary.server conn = none := by
    by_cases hconn : conn = 1 ∨ conn = 2
    · rcases hconn with rfl | rfl
      · exact hbob
      · exact hdiana
    · have hothers : Along (step bobsSetting) (fun cluster move =>
          ∀ label ∈ (primaryLabel cluster move).toList, label.conn ∈ [1, 2])
          (.start bobsSetting) followMoves := by decide
      have hthread := threads_of_run (hothers.imp fun _ _ hlabels label hlabel heq =>
        hconn (by simpa [← heq] using hlabels label hlabel)) hbefore
      have hstart : pending (Cluster.start bobsSetting).primary.server conn = none := by
        change pending (attachedSystem 0 _) conn = none
        rw [attachedSystem, pending_goto]
        exact congrFun (Function.update_eq_self ..) conn
      rwa [pending, ← hthread] at hstart
  have hfollowing := Standby.follower_eq_some hfollower
  exact ⟨before, later, follower, store, hbefore, hlater, hfollowing, hstore,
    orderly_failover (by decide) hbefore hdown hforwarded hfollowing
      (hreceived.trans hwritten.symm) hlater hstore⟩

end TwitterLike.Failover
