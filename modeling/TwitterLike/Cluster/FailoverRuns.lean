import TwitterLike.Cluster.Attested

/-!
# Runs with a failover

What the clients are shown, and what the servers know, at every moment of every run
of a primary, its backup and their clients.
-/

namespace TwitterLike.Failover

open TwitterLike.ByteBuffer
open TwitterLike.PacketFormat
open TwitterLike.Profiles
open TwitterLike.ProfilesManager
open TwitterLike.PacketCodec (Received decodable_iff)
open TwitterLike.FollowGraph
open TwitterLike.Transition
open TwitterLike.Threads (System)
open TwitterLike.Replication (writtenTo)
open TwitterLike.BackupLoop (Follower)
open TwitterLike.BackupConvergence (attachedSystem replayed)
open TwitterLike.Service (nameOf)
open TwitterLike.EndToEnd
open TwitterLike.Provenance

/-! ## Runs -/

theorem grounded_attached {name : Conn → ByteString} {ledger : Ledger}
    {backupConn : Conn} {address : ByteString} :
    Grounded name ledger [backupConn] (attachedSystem backupConn address) where
  vouched := ⟨backed_empty, rfl⟩
  mentions conn ref hmentions := by
    rw [attachedSystem, System.goto_threads] at hmentions
    by_cases hconn : conn = backupConn
    · rw [hconn, Function.update_self] at hmentions
      exact hmentions.elim
    · rw [Function.update_of_ne hconn] at hmentions
      exact hmentions.elim
  carried conn := by
    rw [attachedSystem, System.goto_threads]
    by_cases hconn : conn = backupConn
    · rw [hconn, Function.update_self]
      trivial
    · rw [Function.update_of_ne hconn]
      trivial
  aside conn hbackup := by
    rw [List.mem_singleton.1 hbackup, attachedSystem, System.goto_threads_self]
    trivial

theorem attested_start (setting : Setting) :
    Attested setting (ledgerOf setting.names []) (.start setting) where
  profiles _ := rfl
  primary := ⟨grounded_attached, fun _ _ hpacket => by cases hpacket⟩
  standby := vouched_new
  heard := ⟨Nat.zero_le _, graph_empty⟩
  apart := rfl
  screens _ _ hpacket := by cases hpacket

section Runs

variable {setting : Setting} {moves more : List Move} {before later : Cluster}
  {conn : Conn} {packet : Packet}

theorem attested_of_exec
    (hattested : Attested setting (ledgerOf setting.names before.typed) before)
    (hrun : exec (step setting) before moves = some later) :
    Attested setting (ledgerOf setting.names later.typed) later ∧ Grown before later :=
  @exec_related _ _ _
    (fun cluster => Attested setting (ledgerOf setting.names cluster.typed) cluster)
    Grown (fun _ => .of_same rfl) Grown.trans (fun _ _ _ => Attested.step) _ _ _
    hattested hrun

theorem attested_of_run
    (hrun : exec (step setting) (.start setting) moves = some later) :
    Attested setting (ledgerOf setting.names later.typed) later :=
  (attested_of_exec (attested_start setting) hrun).1

/-- The content of the store of either server. -/
theorem Attested.ofStore {cluster : Cluster} {ledger : Ledger}
    (hattested : Attested setting ledger cluster) {side : Side} {store : Store}
    (hstore : cluster.store side = some store) :
    Backed (nameOf setting.names) ledger (setting.backups side) store := by
  cases side with
  | primary =>
      cases hstore
      exact hattested.primary.grounded.vouched.backed
  | standby =>
      have hstandby := hattested.standby
      rw [Cluster.store] at hstore
      cases hstage : cluster.standby with
      | following | leaving | elected =>
          rw [hstage] at hstandby hstore
          cases hstore
          exact hstandby.backed
      | serving =>
          rw [hstage] at hstandby hstore
          cases hstore
          exact hstandby.grounded.vouched.backed
      | stuck =>
          rw [hstage] at hstore
          cases hstore

/-- A server, the primary or what becomes of its backup, keeps every profile and
every edge that it has once had, and has none but those that have been typed. -/
theorem graphs_between {side : Side} {store : Store}
    (hbefore : exec (step setting) (.start setting) moves = some before)
    (hlater : exec (step setting) before more = some later)
    (hstore : later.store side = some store) :
    (∃ earlier, before.store side = some earlier ∧
      (graph earlier).ids ⊆ (graph store).ids ∧
        (graph earlier).edges ⊆ (graph store).edges) ∧
      (∀ profileId ∈ (graph store).ids, ∃ conn, nameOf setting.names conn = profileId) ∧
        ∀ edge ∈ (graph store).edges,
          Requested setting.names later.typed edge.2 edge.1 := by
  have hattested := attested_of_run hbefore
  obtain ⟨hafter, hgrown⟩ := attested_of_exec hattested hlater
  obtain ⟨earlier, hearlier, hextends⟩ := hgrown side store hstore
  have hbacked := hafter.ofStore hstore
  exact ⟨⟨earlier, hearlier, hextends.graph_le (hattested.ofStore hearlier).wellFormed⟩,
    hbacked.profiles, hbacked.edges⟩

/-- The server that a backup becomes has all that the backup had. -/
theorem backup_graph_le {follower : Follower} {store : Store}
    (hbefore : exec (step setting) (.start setting) moves = some before)
    (hfollowing : before.standby = .following follower)
    (hlater : exec (step setting) before more = some later)
    (hstore : later.store .standby = some store) :
    (graph follower.backup.store).ids ⊆ (graph store).ids ∧
      (graph follower.backup.store).edges ⊆ (graph store).edges := by
  have hattested := attested_of_run hbefore
  obtain ⟨earlier, hearlier, hextends⟩ :=
    (attested_of_exec hattested hlater).2 .standby store hstore
  have hstanding : before.store .standby = some follower.backup.store := by
    rw [Cluster.store, hfollowing, Standby.store]
  cases hstanding.symm.trans hearlier
  exact hextends.graph_le (hattested.ofStore hstanding).wellFormed

/-- What a backup has received before it leaves its role, the server that it becomes
has for ever: a failover loses only what stands behind it in the stream of the
primary. -/
theorem heard_survives {follower : Follower} {store : Store}
    (hbefore : exec (step setting) (.start setting) moves = some before)
    (hfollowing : before.standby = .following follower)
    (hlater : exec (step setting) before more = some later)
    (hstore : later.store .standby = some store) :
    ∃ heard, heard <+: writtenTo setting.backupConn before.primary.server.store ∧
      heard.length = follower.received ∧
      graph follower.backup.store = replayed heard ∧
        (replayed heard).ids ⊆ (graph store).ids ∧
        (replayed heard).edges ⊆ (graph store).edges := by
  have hheard := (attested_of_run hbefore).heard
  rw [hfollowing] at hheard
  obtain ⟨hreceived, hgraph⟩ := hheard
  have hle := backup_graph_le hbefore hfollowing hlater hstore
  rw [hgraph] at hle
  exact ⟨_, List.take_prefix .., List.length_take_of_le hreceived, hgraph, hle⟩

end Runs

/-! ## A run with a failover -/

def bobsSetting : Setting where
  names := bobAndDiana
  address
    | .primary => bobsServer
    | .standby => [98, 58, 50]
  backupConn := 0

def nextAnswer : Received :=
  ⟨new .ok (bobsSetting.address .standby) [] 0, (decodable_iff _).2 (by decide)⟩

/-- A client logs in, and the backup hears of it. -/
def loginMoves (conn : Conn) : List Move :=
  [.client conn (.located bobsAnswer 0), .dial conn .primary, .client conn .created,
    .client conn (.presented 0), .deliver .primary conn 0, .proceed .primary conn 0,
    .proceed .primary conn 0, .proceed .primary conn 0, .proceed .primary conn 0,
    .proceed .primary conn 0, .relay 0]

/-- Diana follows Bob. -/
def followMoves : List Move :=
  loginMoves 1 ++ loginMoves 2 ++
    [.client 2 (.entered followBob 0), .deliver .primary 2 0, .proceed .primary 2 0,
      .proceed .primary 2 0, .relay 0]

/-- A client comes to the server that was the backup. -/
def returnMoves (conn : Conn) : List Move :=
  [.client conn (.located nextAnswer 0), .dial conn .standby, .announce conn 0,
    .deliver .standby conn 0, .proceed .standby conn 0, .proceed .standby conn 0,
    .proceed .standby conn 0]

/-- The primary dies, and the backup passes on what Bob types then. -/
def failoverMoves : List Move :=
  [.crash, .loseContact, .takeOver, .listen] ++ returnMoves 1 ++ returnMoves 2 ++
    [.client 1 (.entered sayHey 0), .deliver .standby 1 0, .proceed .standby 1 0,
      .proceed .standby 1 0, .proceed .standby 1 0, .display 2, .display 2]

/-- What Diana has asked for at the primary, the server that was its backup knows. -/
theorem graphs_between_failoverMoves :
    ∃ before later store, exec (step bobsSetting) (.start bobsSetting) followMoves =
        some before ∧ exec (step bobsSetting) before failoverMoves = some later ∧
      later.store .standby = some store ∧
        (bobName.text, dianaName.text) ∈ (graph store).edges ∧
        Requested bobAndDiana later.typed dianaName.text bobName.text := by
  have hfollowed : (exec (step bobsSetting) (.start bobsSetting) followMoves).map
      (fun cluster => (cluster.store .standby).map fun store =>
        (store.getProfileById bobName.text, store.followerIds 0)) =
          some (some (some 0, [dianaName.text])) := by decide
  have hserving : ((exec (step bobsSetting) (.start bobsSetting)
      (followMoves ++ failoverMoves)).bind fun cluster =>
        cluster.store .standby).isSome := by decide
  obtain ⟨store, hstore⟩ := Option.isSome_iff_exists.1 hserving
  obtain ⟨later, hrun, hstore⟩ := Option.bind_eq_some_iff.1 hstore
  obtain ⟨before, hbefore, hlater⟩ := exec_append_iff.1 hrun
  rw [hbefore] at hfollowed
  obtain ⟨⟨earlier, hearlier, _, hedges⟩, _, hasked⟩ :=
    graphs_between hbefore hlater hstore
  simp only [Option.map_some, hearlier, Option.some.injEq, Prod.mk.injEq] at hfollowed
  have hedge : (bobName.text, dianaName.text) ∈ (graph earlier).edges := by
    rw [mem_edges_iff earlier hfollowed.1, hfollowed.2]
    exact List.mem_singleton_self _
  exact ⟨before, later, store, hbefore, hlater, hstore, hedges hedge,
    hasked _ (hedges hedge)⟩

theorem heard_survives_failoverMoves :
    ∃ before later follower store, exec (step bobsSetting) (.start bobsSetting)
        followMoves = some before ∧ before.standby = .following follower ∧
      follower.received = 3 ∧
      exec (step bobsSetting) before failoverMoves = some later ∧
      later.store .standby = some store ∧ ∃ heard,
        heard <+: writtenTo 0 before.primary.server.store ∧ heard.length = 3 ∧
        graph follower.backup.store = replayed heard ∧
          (replayed heard).ids ⊆ (graph store).ids ∧
          (replayed heard).edges ⊆ (graph store).edges := by
  have hstage : (exec (step bobsSetting) (.start bobsSetting) followMoves).map
      (fun cluster => cluster.standby.follower.map Follower.received) =
        some (some 3) := by decide
  have hserving : ((exec (step bobsSetting) (.start bobsSetting)
      (followMoves ++ failoverMoves)).bind fun cluster =>
        cluster.store .standby).isSome := by decide
  obtain ⟨store, hstore⟩ := Option.isSome_iff_exists.1 hserving
  obtain ⟨later, hrun, hstore⟩ := Option.bind_eq_some_iff.1 hstore
  obtain ⟨before, hbefore, hlater⟩ := exec_append_iff.1 hrun
  rw [hbefore, Option.map_some, Option.some.injEq] at hstage
  obtain ⟨follower, hfollower, hreceived⟩ := Option.map_eq_some_iff.1 hstage
  have hfollowing := Standby.follower_eq_some hfollower
  have hsurvives := heard_survives hbefore hfollowing hlater hstore
  rw [hreceived] at hsurvives
  exact ⟨before, later, follower, store, hbefore, hfollowing, hreceived, hlater, hstore,
    hsurvives⟩

end TwitterLike.Failover
