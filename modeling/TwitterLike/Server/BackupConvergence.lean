import TwitterLike.Server.Replication
import TwitterLike.Server.Sessions

/-!
# Replication under interleaving

A handler thread forwards a packet some time after it has applied it, and other
threads apply and forward theirs in between.  `PROFILE` packets commute, and so
do `FOLLOW` packets, but a `FOLLOW` does not commute with the `PROFILE` of its
target: the backup ends with the primary's profiles and edges as long as no such
pair changes places between the store and the connection of the backup.
-/

namespace TwitterLike.BackupConvergence

open TwitterLike.ByteBuffer
open TwitterLike.PacketFormat
open TwitterLike.Profiles
open TwitterLike.ProfilesManager
open TwitterLike.ProfileAccessController
open TwitterLike.Handlers
open TwitterLike.Faulting
open TwitterLike.FollowGraph
open TwitterLike.Transition
open TwitterLike.Threads
open TwitterLike.SessionAccounting
open TwitterLike.Sessions
open TwitterLike.Commands
open TwitterLike.Replication

/-! ## Graphs with updates on their way -/

/-- The graph of a replica that has processed the packets. -/
def replayed (packets : List Packet) : Graph :=
  packets.foldl replay Graph.empty

theorem replayed_concat (packets : List Packet) (packet : Packet) :
    replayed (packets ++ [packet]) = replay (replayed packets) packet := by
  rw [replayed, List.foldl_concat, replayed]

theorem mem_replayed_ids (packets : List Packet) (profileId : ByteString) :
    profileId ∈ (replayed packets).ids ↔
      ∃ packet ∈ packets, packet.cmd = .profile ∧
        packet.payload = profileId := by
  induction packets using List.reverseRecOn with
  | nil => simp [replayed, Graph.empty]
  | append_singleton packets packet ih =>
      rw [replayed_concat, replay_ids, Set.mem_union, ih]
      simp [or_and_right, exists_or]

/-- Some thread has applied, but not forwarded, a packet of this kind. -/
def Waiting (pending : Conn → Option Packet) (Kind : Packet → Prop) : Prop :=
  ∃ conn packet, pending conn = some packet ∧ Kind packet

section Waiting

variable {pending : Conn → Option Packet} {Kind : Packet → Prop} {conn : Conn}
  {packet : Packet}

theorem waiting_self (hkind : Kind packet) :
    Waiting (Function.update pending conn (some packet)) Kind :=
  ⟨conn, packet, Function.update_self .., hkind⟩

theorem Waiting.update (hwaiting : Waiting pending Kind)
    (hnone : pending conn = none) (change : Option Packet) :
    Waiting (Function.update pending conn change) Kind := by
  obtain ⟨other, waits, hpending, hkind⟩ := hwaiting
  have hother : other ≠ conn := by
    rintro rfl
    rw [hpending] at hnone
    cases hnone
  exact ⟨other, waits, (Function.update_of_ne hother ..).trans hpending, hkind⟩

theorem Waiting.forwarded (hwaiting : Waiting pending Kind)
    (hpending : pending conn = some packet) :
    Kind packet ∨ Waiting (Function.update pending conn none) Kind := by
  obtain ⟨other, waits, hother, hkind⟩ := hwaiting
  by_cases hself : other = conn
  · rw [hself, hpending] at hother
    cases hother
    exact .inl hkind
  · exact .inr ⟨other, waits, (Function.update_of_ne hself ..).trans hother, hkind⟩

end Waiting

/-- The replica lacks only what waits to be forwarded. -/
structure Lagging (graph replica : Graph) (pending : Conn → Option Packet) :
    Prop where
  ids_subset : replica.ids ⊆ graph.ids
  ids_waiting : ∀ profileId ∈ graph.ids, profileId ∈ replica.ids ∨
    Waiting pending fun packet =>
      packet.cmd = .profile ∧ packet.payload = profileId
  registered : ∀ conn packet, pending conn = some packet →
    packet.cmd = .profile → packet.payload ∈ graph.ids
  edges_subset : replica.edges ⊆ graph.edges
  edges_waiting : ∀ edge ∈ graph.edges, edge ∈ replica.edges ∨
    Waiting pending fun packet =>
      packet.cmd = .follow ∧ edge = (packet.payload, packet.sender)
  irreflexive : ∀ edge ∈ graph.edges, edge.2 ≠ edge.1

section Lagging

variable {graph replica : Graph} {pending : Conn → Option Packet} {conn : Conn}
  {packet : Packet}

theorem lagging_empty : Lagging Graph.empty Graph.empty fun _ => none where
  ids_subset := subset_rfl
  ids_waiting profileId hmem := hmem.elim
  registered conn packet hpending := by cases hpending
  edges_subset := subset_rfl
  edges_waiting edge hmem := hmem.elim
  irreflexive edge hmem := hmem.elim

/-- A thread applies a packet. -/
theorem Lagging.apply (hlagging : Lagging graph replica pending)
    (hnone : pending conn = none) (packet : Packet) :
    Lagging (replay graph packet) replica
      (Function.update pending conn (some packet)) where
  ids_subset := by
    rw [replay_ids]
    exact hlagging.ids_subset.trans Set.subset_union_left
  ids_waiting profileId hmem := by
    rw [replay_ids] at hmem
    rcases hmem with hold | hnew
    · exact (hlagging.ids_waiting profileId hold).imp_right fun hwaiting =>
        hwaiting.update hnone _
    · exact .inr (waiting_self hnew)
  registered other waits hother hcmd := by
    rw [replay_ids]
    by_cases hself : other = conn
    · rw [hself, Function.update_self] at hother
      cases hother
      exact .inr ⟨hcmd, rfl⟩
    · rw [Function.update_of_ne hself] at hother
      exact .inl (hlagging.registered other waits hother hcmd)
  edges_subset := by
    rw [replay_edges]
    exact hlagging.edges_subset.trans Set.subset_union_left
  edges_waiting edge hmem := by
    rw [replay_edges] at hmem
    rcases hmem with hold | ⟨hcmd, hedge, _⟩
    · exact (hlagging.edges_waiting edge hold).imp_right fun hwaiting =>
        hwaiting.update hnone _
    · exact .inr (waiting_self ⟨hcmd, hedge⟩)
  irreflexive edge hmem := by
    rw [replay_edges] at hmem
    rcases hmem with hold | ⟨_, rfl, _, hself⟩
    · exact hlagging.irreflexive edge hold
    · exact hself

/-- A forwarded `FOLLOW` finds its target at the replica exactly when the
primary has the edge. -/
def InOrder (graph replica : Graph) (packet : Packet) : Prop :=
  packet.cmd = .follow → packet.sender ≠ packet.payload →
    ((packet.payload, packet.sender) ∈ graph.edges ↔
      packet.payload ∈ replica.ids)

/-- A thread forwards the packet it has applied. -/
theorem Lagging.forward (hlagging : Lagging graph replica pending)
    (hpending : pending conn = some packet)
    (horder : InOrder graph replica packet) :
    Lagging graph (replay replica packet)
      (Function.update pending conn none) where
  ids_subset := by
    rw [replay_ids]
    apply Set.union_subset hlagging.ids_subset
    rintro profileId ⟨hcmd, rfl⟩
    exact hlagging.registered conn packet hpending hcmd
  ids_waiting profileId hmem := by
    rw [replay_ids]
    rcases hlagging.ids_waiting profileId hmem with hold | hwaiting
    · exact .inl (.inl hold)
    · exact (hwaiting.forwarded hpending).imp_left .inr
  registered other waits hother hcmd := by
    by_cases hself : other = conn
    · rw [hself, Function.update_self] at hother
      cases hother
    · rw [Function.update_of_ne hself] at hother
      exact hlagging.registered other waits hother hcmd
  edges_subset := by
    rw [replay_edges]
    apply Set.union_subset hlagging.edges_subset
    rintro edge ⟨hcmd, rfl, hknown, hself⟩
    exact (horder hcmd hself).2 hknown
  edges_waiting edge hmem := by
    rw [replay_edges]
    rcases hlagging.edges_waiting edge hmem with hold | hwaiting
    · exact .inl (.inl hold)
    · refine (hwaiting.forwarded hpending).imp_left ?_
      rintro ⟨hcmd, rfl⟩
      have hself := hlagging.irreflexive _ hmem
      exact .inr ⟨hcmd, rfl, (horder hcmd hself).1 hmem, hself⟩
  irreflexive := hlagging.irreflexive

/-- A replica that nothing is on its way to is the primary's graph. -/
theorem Lagging.settled (hlagging : Lagging graph replica pending)
    (hnone : ∀ conn, pending conn = none) : replica = graph := by
  have hidle (Kind : Packet → Prop) : ¬ Waiting pending Kind := by
    rintro ⟨conn, packet, hpending, _⟩
    rw [hnone conn] at hpending
    cases hpending
  ext1
  · apply hlagging.ids_subset.antisymm
    intro profileId hmem
    exact (hlagging.ids_waiting profileId hmem).resolve_right (hidle _)
  · apply hlagging.edges_subset.antisymm
    intro edge hmem
    exact (hlagging.edges_waiting edge hmem).resolve_right (hidle _)

end Lagging

/-! ## What a backup makes of the packets -/

section Backup

variable {backup after : Server} {relayed : Relayed}

theorem replay_of_not_clientCommand (graph : Graph) {packet : Packet}
    (hcmd : ¬ ClientCommand packet.cmd) : replay graph packet = graph := by
  unfold replay
  split
  · next hprofile => exact absurd (.inl hprofile) hcmd
  · next hfollow => exact absurd (.inr (.inl hfollow)) hcmd
  · rfl

theorem relay_graph (hwf : WellFormed backup.store)
    (hrelay : relay backup relayed = some after) :
    WellFormed after.store ∧
      graph after.store = replay (graph backup.store) relayed.message.packet := by
  rcases applied_of_relay hrelay with ⟨store, happlied, hstore⟩ | ⟨hcmd, hstore⟩
  · have hforwarded := forward_sameGraph backup.listBackups
      relayed.message.packet store
    obtain ⟨hafter, hgraph⟩ := happlied.graph hwf
      fun _ => actsForSender_lookup hwf relayed.message.packet
    rw [hstore]
    exact ⟨hforwarded.wellFormed hafter, hforwarded.graph_eq.trans hgraph⟩
  · rw [hstore, replay_of_not_clientCommand _ hcmd]
    exact ⟨hwf, rfl⟩

theorem wellFormed_of_exec_relay {received : List Relayed}
    (hwf : WellFormed backup.store)
    (hexec : exec relay backup received = some after) :
    WellFormed after.store :=
  exec_invariant (fun _ _ _ hwf _ hrelay => (relay_graph hwf hrelay).1) hwf
    (along_true backup received) hexec

theorem exec_relay_graph {received : List Relayed} (hwf : WellFormed backup.store)
    (hexec : exec relay backup received = some after) :
    graph after.store =
      (received.map fun relayed => relayed.message.packet).foldl replay
        (graph backup.store) := by
  induction received generalizing backup with
  | nil =>
      cases hexec
      rfl
  | cons relayed received ih =>
      obtain ⟨next, hrelay, hrest⟩ := exec_cons_iff.1 hexec
      obtain ⟨hnext, hgraph⟩ := relay_graph hwf hrelay
      rw [ih hnext hrest, hgraph]
      rfl

end Backup

/-! ## Steps of the primary -/

/-- The packet that the thread has applied, or applies, and has not
forwarded. -/
def unforwarded : Point → Option Packet
  | .registering _ packet _ => some packet
  | .sending _ message _ => some message.packet
  | .forwarding packet 0 _ => some packet
  | _ => none

@[simp]
theorem unforwarded_next (next : Next) : unforwarded next.point = none := by
  cases next <;> rfl

def pending (system : System) (conn : Conn) : Option Packet :=
  unforwarded (system.threads conn)

theorem pending_goto (system : System) (conn : Conn) (point : Point) :
    pending (system.goto conn point) =
      Function.update (pending system) conn (unforwarded point) := by
  funext other
  rcases system.goto_threads_cases conn point other with
    ⟨rfl, hgoto⟩ | ⟨hne, hgoto⟩
  · rw [pending, hgoto, Function.update_self]
  · rw [pending, hgoto, Function.update_of_ne hne, pending]

/-- The first packet of a client is `PROFILE`, and it sends its own id as the
sender of a `FOLLOW`. -/
def WellBehaved (system : System) (label : Label) : Prop :=
  match label.action, system.threads label.conn with
  | .receive packet, .accepted => packet.cmd = .profile
  | .receive packet, .looping profile =>
      packet.cmd = .follow →
        packet.sender = (system.store.objects profile).profileId
  | _, _ => True

instance (system : System) (label : Label) :
    Decidable (WellBehaved system label) :=
  decidable_of_iff
    ((match label.action, system.threads label.conn with
      | .receive packet, .accepted => decide (packet.cmd = .profile)
      | .receive packet, .looping profile =>
          decide (packet.cmd = .follow →
            packet.sender = (system.store.objects profile).profileId)
      | _, _ => true) = true)
    (by
      unfold WellBehaved
      split <;> simp only [decide_eq_true_eq])

/-- The primary has one backup, on a connection without sessions. -/
structure Attached (backupConn : Conn) (system : System) : Prop where
  backups : system.server.listBackups = [backupConn]
  asBackup : AsBackup (system.threads backupConn)
  apart : ∀ ref, some backupConn ∉ (system.store.objects ref).sessions

section Step

variable {backupConn conn : Conn} {system next : System} {time : BitVec 64}
  {action : Action}

theorem findOrCreate_error_sessions {store after : Store}
    {profileId : ByteString} {exit : Exit} {session : Option Conn}
    {ref : ProfileRef}
    (hfind : store.findOrCreate profileId (some conn) time =
      (.error exit, after))
    (hmem : session ∈ (after.objects ref).sessions) :
    session ∈ (store.objects ref).sessions := by
  rcases Store.findOrCreate_error _ hfind with ⟨_, _, hrefused⟩ | ⟨_, _, hsame⟩
  · rw [hrefused] at hmem
    exact hmem
  · rw [hsame.objects, created_objects] at hmem
    split at hmem
    · cases hmem
    · exact hmem

/-- A step adds no session but that of its own connection. -/
theorem mem_sessions_of_transition
    (htransition : Transition system conn time action next)
    {session : Option Conn} (hne : session ≠ some conn) {ref : ProfileRef}
    (hmem : session ∈ (next.store.objects ref).sessions) :
    session ∈ (system.store.objects ref).sessions := by
  cases htransition with
  | found henter hcmd hwritable hfind =>
      exact (mem_sessions_of_findOrCreate hfind).1 hmem
  | refused henter hcmd hwritable hfind =>
      exact findOrCreate_error_sessions hfind hmem
  | findFailed henter hcmd hwritable hfind hexit =>
      exact findOrCreate_error_sessions hfind hmem
  | @followed packet profile store hpoint hcmd hwritable hfollow =>
      have hsame :=
        addFollowerTo_sameSessions system.store packet.payload profile
      rw [hfollow] at hsame
      exact hsame.sessions ref ▸ hmem
  | @followFailed packet profile store exit hpoint hcmd hwritable hfollow =>
      have hsame :=
        addFollowerTo_sameSessions system.store packet.payload profile
      rw [hfollow] at hsame
      exact hsame.sessions ref ▸ hmem
  | @reconnected profile hpoint =>
      -- the vector grows as by a login
      have hsame := (system.store.updateSessionsOn_objects_sessions profile ref
        (some conn)).trans (system.store.incSessionsOn_objects_sessions profile
          ref (some conn)).symm
      exact (mem_sessions_of_incSessionsOn.1 (hsame ▸ hmem)).resolve_right
        fun hnew => hne hnew.1
  | registered hpoint =>
      exact (mem_sessions_of_incSessionsOn.1 hmem).resolve_right
        fun hnew => hne hnew.1
  | left hpoint hcmd => exact mem_sessions_of_decSessionsOn.1 hmem
  | @sent profile follower message index hpoint hfollower =>
      exact (sendOrInsertInbox_sameSessions system.store follower
        message).sessions ref ▸ hmem
  | @fetched profile hpoint hfetch =>
      exact (fetchInboxContent_sameSessions system.store profile).sessions
        ref ▸ hmem
  | @fetchFailed profile exit hpoint hfetch =>
      exact (fetchInboxContent_sameSessions system.store profile).sessions
        ref ▸ hmem
  | _ => exact hmem

/-- A thread at the point of a client is not the backup's. -/
theorem Attached.ne (hattached : Attached backupConn system)
    {point : Point} (hpoint : system.threads conn = point)
    (hclient : ¬ AsBackup point) : conn ≠ backupConn := by
  rintro rfl
  exact hclient (hpoint ▸ hattached.asBackup)

theorem not_asBackup_of_enters {point : Point}
    {continuation : ProfileRef → Next} (henter : Enters point continuation) :
    ¬ AsBackup point := by
  cases henter <;> exact id

/-- The thread of a client steps. -/
theorem Attached.client {middle : System} {point : Point}
    (hattached : Attached backupConn system) (hne : conn ≠ backupConn)
    (hbackups : middle.server.listBackups = system.server.listBackups)
    (hthreads : middle.threads = system.threads)
    (hsessions : ∀ session ref, session ≠ some conn →
      session ∈ (middle.store.objects ref).sessions →
      session ∈ (system.store.objects ref).sessions) :
    Attached backupConn (middle.goto conn point) where
  backups := hbackups.trans hattached.backups
  asBackup := by
    rw [System.goto_threads, Function.update_of_ne hne.symm, hthreads]
    exact hattached.asBackup
  apart ref hmem :=
    hattached.apart ref (hsessions _ ref (by simpa using hne.symm) hmem)

/-- A thread that touches no profile steps, and stays a backup's if it was. -/
theorem Attached.any {middle : System} {point before : Point}
    (hattached : Attached backupConn system)
    (hpoint : system.threads conn = before)
    (hasBackup : AsBackup before → AsBackup point)
    (hbackups : middle.server.listBackups = system.server.listBackups)
    (hthreads : middle.threads = system.threads)
    (hobjects : middle.store.objects = system.store.objects) :
    Attached backupConn (middle.goto conn point) where
  backups := hbackups.trans hattached.backups
  asBackup := by
    rcases middle.goto_threads_cases conn point backupConn with
      ⟨rfl, hgoto⟩ | ⟨_, hgoto⟩
    · rw [hgoto]
      exact hasBackup (hpoint ▸ hattached.asBackup)
    · rw [hgoto, hthreads]
      exact hattached.asBackup
  apart ref := by
    have hapart := hattached.apart ref
    rw [← hobjects] at hapart
    exact hapart

theorem asBackup_forwarding {packet : Packet} {index later : ℕ} {next : Next}
    (hasBackup : AsBackup (.forwarding packet index next)) :
    AsBackup (.forwarding packet later next) := by
  cases next <;> exact hasBackup

theorem asBackup_next {packet : Packet} {index : ℕ} {next : Next}
    (hasBackup : AsBackup (.forwarding packet index next)) :
    AsBackup next.point := by
  cases next with
  | leave => trivial
  | greet profile => exact hasBackup.elim
  | loop profile => exact hasBackup.elim
  | quit => exact hasBackup.elim

theorem Attached.step (hattached : Attached backupConn system)
    (hbehaved : WellBehaved system ⟨conn, time, action⟩)
    (htransition : Transition system conn time action next)
    (hdown : next.down = none) : Attached backupConn next := by
  have hsessions := fun session ref hne =>
    @mem_sessions_of_transition conn system next time action htransition session
      hne ref
  cases htransition with
  | found henter =>
      exact hattached.client
        (hattached.ne rfl (not_asBackup_of_enters henter)) rfl rfl hsessions
  | refused henter =>
      exact hattached.client
        (hattached.ne rfl (not_asBackup_of_enters henter)) rfl rfl hsessions
  | joined hpoint hcmd =>
      simp only [WellBehaved, hpoint, hcmd] at hbehaved
      cases hbehaved
  | senderFound hpoint hprofile =>
      simp only [WellBehaved, hpoint] at hbehaved
      exact absurd hbehaved hprofile
  | addressPushed hpoint => exact hattached.any hpoint (fun _ => trivial) rfl rfl rfl
  | propagated hpoint => exact hattached.any hpoint (fun _ => trivial) rfl rfl rfl
  | forwarded hpoint =>
      exact hattached.any hpoint asBackup_forwarding rfl rfl rfl
  | forwardDone hpoint => exact hattached.any hpoint asBackup_next rfl rfl rfl
  | listReplaced hpoint =>
      exact ⟨hattached.backups, hattached.asBackup, hattached.apart⟩
  | ignored hpoint =>
      exact ⟨hattached.backups, hattached.asBackup, hattached.apart⟩
  | findFailed => cases hdown
  | senderUnknown => cases hdown
  | fetchFailed => cases hdown
  | followFailed => cases hdown
  | reconnected hpoint =>
      exact hattached.client (hattached.ne hpoint not_false) rfl rfl hsessions
  | registered hpoint =>
      exact hattached.client (hattached.ne hpoint not_false) rfl rfl hsessions
  | greeted hpoint =>
      exact hattached.client (hattached.ne hpoint not_false) rfl rfl hsessions
  | fetched hpoint =>
      exact hattached.client (hattached.ne hpoint not_false) rfl rfl hsessions
  | followed hpoint =>
      exact hattached.client (hattached.ne hpoint not_false) rfl rfl hsessions
  | sendBegun hpoint =>
      exact hattached.client (hattached.ne hpoint not_false) rfl rfl hsessions
  | sent hpoint =>
      exact hattached.client (hattached.ne hpoint not_false) rfl rfl hsessions
  | sendDone hpoint =>
      exact hattached.client (hattached.ne hpoint not_false) rfl rfl hsessions
  | left hpoint =>
      exact hattached.client (hattached.ne hpoint not_false) rfl rfl hsessions
  | loopLeft hpoint =>
      exact hattached.client (hattached.ne hpoint not_false) rfl rfl hsessions
  | closed hpoint =>
      exact hattached.client (hattached.ne hpoint not_false) rfl rfl hsessions

/-- What a step does to the primary's graph, to the packets written to the
backup and to those that wait. -/
inductive ReplicaStep (backupConn conn : Conn) (system next : System) : Prop
  | quiet (hgraph : graph next.store = graph system.store)
      (hwritten : writtenTo backupConn next.store =
        writtenTo backupConn system.store)
      (hpending : pending next = pending system)
  | applied (packet : Packet) (hnone : pending system conn = none)
      (hgraph : graph next.store = replay (graph system.store) packet)
      (hwritten : writtenTo backupConn next.store =
        writtenTo backupConn system.store)
      (hpending : pending next =
        Function.update (pending system) conn (some packet))
  | forwarded (packet : Packet) (continuation : Next)
      (hpoint : system.threads conn = .forwarding packet 0 continuation)
      (hgraph : graph next.store = graph system.store)
      (hwritten : writtenTo backupConn next.store =
        writtenTo backupConn system.store ++ [packet])
      (hpending : pending next = Function.update (pending system) conn none)

theorem pending_of_threads {middle : System}
    (hthreads : middle.threads = system.threads) :
    pending middle = pending system := by
  funext other
  rw [pending, hthreads, pending]

/-- The thread applies nothing and forwards nothing. -/
theorem replicaStep_of_quiet {middle : System} {point before : Point}
    (hpoint : system.threads conn = before)
    (hsame : unforwarded point = unforwarded before)
    (hthreads : middle.threads = system.threads)
    (hgraph : graph middle.store = graph system.store)
    (hwritten : writtenTo backupConn middle.store =
      writtenTo backupConn system.store) :
    ReplicaStep backupConn conn system (middle.goto conn point) := by
  have hself : unforwarded point = pending system conn := by
    rw [hsame, pending, hpoint]
  have hpending : pending (middle.goto conn point) = pending system := by
    rw [pending_goto, pending_of_threads hthreads, hself,
      Function.update_eq_self]
  exact .quiet hgraph hwritten hpending

/-- The thread applies a packet. -/
theorem replicaStep_of_applied {middle : System} {point before : Point}
    {packet : Packet} (hpoint : system.threads conn = before)
    (hbefore : unforwarded before = none)
    (hafter : unforwarded point = some packet)
    (hthreads : middle.threads = system.threads)
    (hgraph : graph middle.store = replay (graph system.store) packet)
    (hwritten : writtenTo backupConn middle.store =
      writtenTo backupConn system.store) :
    ReplicaStep backupConn conn system (middle.goto conn point) := by
  have hnone : pending system conn = none := by rw [pending, hpoint, hbefore]
  have hpending : pending (middle.goto conn point) =
      Function.update (pending system) conn (some packet) := by
    rw [pending_goto, pending_of_threads hthreads, hafter]
  exact .applied packet hnone hgraph hwritten hpending

theorem unforwarded_of_enters {point : Point} {continuation : ProfileRef → Next}
    (henter : Enters point continuation) : unforwarded point = none := by
  cases henter <;> rfl

theorem writtenTo_findOrCreate {store after : Store} {profileId : ByteString}
    {result : Except Exit ProfileRef} (hne : conn ≠ backupConn)
    (hfind : store.findOrCreate profileId (some conn) time = (result, after)) :
    writtenTo backupConn after = writtenTo backupConn store := by
  cases result with
  | ok profile => exact writtenTo_findOrCreate_ok backupConn hfind
  | error exit =>
      rcases Store.findOrCreate_error _ hfind with ⟨_, _, rfl⟩ | ⟨_, _, hsame⟩
      · have hsent := writtenTo_sendPacket backupConn store conn
          (new .closeConn [] [] time)
        rw [if_neg hne, List.append_nil] at hsent
        exact hsent
      · exact writtenTo_of_outputs backupConn store hsame.outputs

/-- A refused login has found its profile. -/
theorem refused_graph {store after : Store} {profileId : ByteString}
    (hfind : store.findOrCreate profileId (some conn) time =
      (.error .threadExit, after)) : graph after = graph store := by
  rcases Store.findOrCreate_error _ hfind with ⟨_, _, rfl⟩ | ⟨hexit, _, _⟩
  · exact (refuse_sameGraph store (some conn) time).graph_eq
  · cases hexit

theorem replicaStep_of_transition (hinvariant : GraphInvariant system)
    (hattached : Attached backupConn system)
    (hbehaved : WellBehaved system ⟨conn, time, action⟩)
    (htransition : Transition system conn time action next)
    (hdown : next.down = none) : ReplicaStep backupConn conn system next := by
  have hwf := hinvariant.wellFormed
  cases htransition with
  | @found packet continuation profile store henter hcmd hwritable hfind =>
      have hne := hattached.ne rfl (not_asBackup_of_enters henter)
      have hgraph := (findOrCreate_graph hwf packet.payload (some conn) time).2
      rw [hfind] at hgraph
      apply replicaStep_of_applied rfl (unforwarded_of_enters henter)
      case hgraph =>
        change graph store = replay (graph system.store) packet
        rw [replay, hcmd]
        exact hgraph
      case hwritten => exact writtenTo_findOrCreate hne hfind
      all_goals rfl
  | refused henter hcmd hwritable hfind =>
      have hne := hattached.ne rfl (not_asBackup_of_enters henter)
      apply replicaStep_of_quiet rfl
      case hsame => exact (unforwarded_of_enters henter).symm
      case hthreads => rfl
      case hgraph => exact refused_graph hfind
      case hwritten => exact writtenTo_findOrCreate hne hfind
  | findFailed => cases hdown
  | joined hpoint hcmd =>
      simp only [WellBehaved, hpoint, hcmd] at hbehaved
      cases hbehaved
  | senderFound hpoint hprofile =>
      simp only [WellBehaved, hpoint] at hbehaved
      exact absurd hbehaved hprofile
  | senderUnknown => cases hdown
  | @reconnected profile hpoint =>
      apply replicaStep_of_quiet hpoint
      case hgraph =>
        exact (updateSessionsOn_sameGraph system.store profile _).graph_eq
      all_goals rfl
  | addressPushed hpoint => exact replicaStep_of_quiet hpoint rfl rfl rfl rfl
  | propagated hpoint =>
      exact replicaStep_of_applied hpoint rfl rfl rfl rfl rfl
  | @registered profile packet continuation hpoint =>
      apply replicaStep_of_quiet hpoint
      case hgraph =>
        exact (incSessionsOn_sameGraph system.store profile _).graph_eq
      all_goals rfl
  | @forwarded packet index continuation backup hpoint hbackup =>
      rw [hattached.backups] at hbackup
      cases index with
      | succ index => cases hbackup
      | zero =>
          cases hbackup
          have hsent := writtenTo_sendPacket backupConn system.store backupConn
            packet
          rw [if_pos rfl] at hsent
          exact .forwarded packet continuation hpoint rfl hsent
            (pending_goto _ conn _)
  | @forwardDone packet index continuation hpoint hlast =>
      rw [hattached.backups] at hlast
      cases index with
      | zero => cases hlast
      | succ index =>
          exact replicaStep_of_quiet hpoint (unforwarded_next continuation) rfl
            rfl rfl
  | @greeted profile hpoint =>
      have hne := hattached.ne hpoint not_false
      have hsent := writtenTo_sendPacket backupConn system.store conn
        (new .send (helloText ++ (system.store.objects profile).profileId) []
          time)
      rw [if_neg hne, List.append_nil] at hsent
      exact replicaStep_of_quiet hpoint rfl rfl rfl hsent
  | @fetched profile hpoint hfetch =>
      apply replicaStep_of_quiet hpoint
      case hgraph =>
        exact (fetchInboxContent_sameGraph system.store profile).graph_eq
      case hwritten =>
        exact writtenTo_fetchInboxContent backupConn (hattached.apart profile)
      all_goals rfl
  | fetchFailed => cases hdown
  | @followed packet profile store hpoint hcmd hwritable hfollow =>
      simp only [WellBehaved, hpoint] at hbehaved
      have hknown := hinvariant.known conn profile (by rw [hpoint]; rfl)
      have hgraph := (addFollowerTo_graph hwf hknown packet.payload).2
      have hsame := @writtenTo_addFollowerTo backupConn system.store
        packet.payload (some profile)
      rw [hfollow, ← hbehaved hcmd] at hgraph
      rw [hfollow] at hsame
      apply replicaStep_of_applied hpoint
      case hgraph =>
        change graph store = replay (graph system.store) packet
        rw [replay, hcmd]
        exact hgraph
      case hwritten => exact hsame
      all_goals rfl
  | followFailed => cases hdown
  | @sendBegun packet profile hpoint hcmd hwritable =>
      apply replicaStep_of_applied hpoint
      case hgraph =>
        change graph system.store = replay (graph system.store) packet
        rw [replay, hcmd]
      all_goals rfl
  | @sent profile follower message index hpoint hfollower =>
      apply replicaStep_of_quiet hpoint
      case hgraph =>
        exact (sendOrInsertInbox_sameGraph system.store follower
          message).graph_eq
      case hwritten =>
        exact writtenTo_sendOrInsertInbox backupConn message
          (hattached.apart follower)
      all_goals rfl
  | sendDone hpoint => exact replicaStep_of_quiet hpoint rfl rfl rfl rfl
  | @left packet profile hpoint hcmd =>
      apply replicaStep_of_applied hpoint
      case hgraph =>
        change graph (system.store.decSessionsOn profile (some conn)) =
          replay (graph system.store) packet
        rw [replay, hcmd]
        exact (decSessionsOn_sameGraph system.store profile _).graph_eq
      all_goals rfl
  | listReplaced => exact .quiet rfl rfl rfl
  | ignored => exact .quiet rfl rfl rfl
  | loopLeft hpoint => exact replicaStep_of_quiet hpoint rfl rfl rfl rfl
  | closed hpoint => exact replicaStep_of_quiet hpoint rfl rfl rfl rfl

end Step

/-! ## Runs -/

def Follows (store : Store) (followed follower : ByteString) : Prop :=
  ∃ ref ∈ store.getProfileById followed, follower ∈ store.followerIds ref

instance (store : Store) (followed follower : ByteString) :
    Decidable (Follows store followed follower) :=
  decidable_of_iff
    ((store.getProfileById followed).any fun ref =>
      (store.followerIds ref).contains follower)
    (by simp [Follows, Option.any_eq_true])

theorem follows_iff_mem_edges (store : Store) (followed follower : ByteString) :
    Follows store followed follower ↔
      (followed, follower) ∈ (graph store).edges := Iff.rfl

/-- The `PROFILE` packet of the id has been forwarded. -/
def Announced (backupConn : Conn) (store : Store) (profileId : ByteString) :
    Prop :=
  ∃ packet ∈ writtenTo backupConn store,
    packet.cmd = .profile ∧ packet.payload = profileId

instance (backupConn : Conn) (store : Store) (profileId : ByteString) :
    Decidable (Announced backupConn store profileId) := by
  unfold Announced
  infer_instance

/-- A `FOLLOW` is forwarded behind the `PROFILE` of its target exactly when it
has added its edge. -/
def ForwardsInOrder (backupConn : Conn) (system : System) (label : Label) :
    Prop :=
  match system.threads label.conn with
  | .forwarding packet 0 _ =>
      packet.cmd = .follow → packet.sender ≠ packet.payload →
        (Follows system.store packet.payload packet.sender ↔
          Announced backupConn system.store packet.payload)
  | _ => True

instance (backupConn : Conn) (system : System) (label : Label) :
    Decidable (ForwardsInOrder backupConn system label) :=
  decidable_of_iff
    ((match system.threads label.conn with
      | .forwarding packet 0 _ =>
          decide (packet.cmd = .follow → packet.sender ≠ packet.payload →
            (Follows system.store packet.payload packet.sender ↔
              Announced backupConn system.store packet.payload))
      | _ => true) = true)
    (by
      unfold ForwardsInOrder
      split <;> simp only [decide_eq_true_eq])

/-- A running primary whose threads have forwarded all they have applied, and a
backup that has processed all forwarded packets, have the same profile ids and
the same follow edges. -/
def Converges (backupConn : Conn) (system : System) : Prop :=
  system.down = none → (∀ conn, pending system conn = none) →
    ∀ received backup,
      (received.map fun relayed => relayed.message.packet) =
        writtenTo backupConn system.store →
      exec relay Server.new received = some backup →
      (graph backup.store).ids = (graph system.store).ids ∧
        (graph backup.store).edges = (graph system.store).edges

structure Replicates (backupConn : Conn) (system : System) : Prop where
  profiles : GraphInvariant system
  attached : Attached backupConn system
  lagging : Lagging (graph system.store)
    (replayed (writtenTo backupConn system.store)) (pending system)

section Runs

variable {backupConn : Conn} {system next : System} {label : Label}

theorem Replicates.converges (hreplicates : Replicates backupConn system) :
    Converges backupConn system := by
  intro _ hnone received backup hreceived hbackup
  have hgraph := exec_relay_graph wellFormed_empty hbackup
  have hempty : graph Server.new.store = Graph.empty := graph_empty
  rw [hempty, hreceived] at hgraph
  have hsettled := hreplicates.lagging.settled hnone
  rw [replayed, ← hgraph] at hsettled
  rw [hsettled]
  exact ⟨rfl, rfl⟩

theorem inOrder_of_forwardsInOrder {packet : Packet} {continuation : Next}
    (hpoint : system.threads label.conn = .forwarding packet 0 continuation)
    (horder : ForwardsInOrder backupConn system label) :
    InOrder (graph system.store) (replayed (writtenTo backupConn system.store))
      packet := by
  simp only [ForwardsInOrder, hpoint] at horder
  intro hcmd hself
  rw [mem_replayed_ids]
  exact horder hcmd hself

theorem Replicates.step (hreplicates : Replicates backupConn system)
    (hbehaved : WellBehaved system label)
    (horder : ForwardsInOrder backupConn system label)
    (hstep : step system label = some next) (hdown : next.down = none) :
    Replicates backupConn next := by
  obtain ⟨_, htransition⟩ := transition_of_step hstep
  have hreplica := replicaStep_of_transition hreplicates.profiles
    hreplicates.attached hbehaved htransition hdown
  refine ⟨hreplicates.profiles.step htransition,
    hreplicates.attached.step hbehaved htransition hdown, ?_⟩
  have hlagging := hreplicates.lagging
  cases hreplica with
  | quiet hgraph hwritten hpending =>
      rw [hgraph, hwritten, hpending]
      exact hlagging
  | applied packet hnone hgraph hwritten hpending =>
      rw [hgraph, hwritten, hpending]
      exact hlagging.apply hnone packet
  | forwarded packet continuation hpoint hgraph hwritten hpending =>
      have hwaits : pending system label.conn = some packet := by
        rw [pending, hpoint]
        rfl
      rw [hgraph, hwritten, hpending, replayed_concat]
      exact hlagging.forward hwaits (inOrder_of_forwardsInOrder hpoint horder)

/-- The server once the first packet has attached a backup. -/
def attachedSystem (backupConn : Conn) (address : ByteString) : System :=
  { System.start.countPacket with
    server := { Server.new with listBackups := [backupConn] } }.goto backupConn
      (.joining address)

theorem attached_eq {packet : Packet} {time : BitVec 64} {attached : System}
    (hcmd : packet.cmd = .setBackup)
    (hattach : Threads.step System.start ⟨backupConn, time, .receive packet⟩ =
      some attached) : attached = attachedSystem backupConn packet.payload := by
  change System.receiveProfileCmd _ backupConn packet time = some attached
    at hattach
  rw [System.receiveProfileCmd, hcmd] at hattach
  exact (Option.some.inj hattach).symm

theorem replicates_attachedSystem (address : ByteString) :
    Replicates backupConn (attachedSystem backupConn address) := by
  constructor
  case profiles =>
    refine ⟨wellFormed_empty, fun conn ref hmentions => ?_⟩
    rcases System.goto_threads_cases _ backupConn (.joining address) conn with
      ⟨_, hgoto⟩ | ⟨_, hgoto⟩
    · rw [attachedSystem, hgoto] at hmentions
      exact hmentions.elim
    · rw [attachedSystem, hgoto] at hmentions
      exact hmentions.elim
  case attached =>
    refine ⟨rfl, ?_, fun ref hmem => List.not_mem_nil hmem⟩
    rw [attachedSystem, System.goto_threads_self]
    trivial
  case lagging =>
    have hpending : pending (attachedSystem backupConn address) =
        fun _ => none := by
      rw [attachedSystem, pending_goto]
      exact Function.update_eq_self ..
    have hempty : graph Store.empty = Graph.empty := graph_empty
    rw [hpending]
    exact hempty.symm ▸ lagging_empty

/-- In every run of clients and handler threads in which no `FOLLOW` changes
places with the `PROFILE` of its target, the backup converges in every state. -/
theorem converges_of_forwardsInOrder {packet : Packet} {time : BitVec 64}
    {attached : System} {labels : List Label} (hcmd : packet.cmd = .setBackup)
    (hattach : Threads.step System.start ⟨backupConn, time, .receive packet⟩ =
      some attached)
    (hbehaved : Along Threads.step WellBehaved attached labels)
    (horder : Along Threads.step (ForwardsInOrder backupConn) attached labels) :
    Throughout Threads.step (Converges backupConn) attached labels := by
  -- a server that is down takes no further step
  have hgood (system : System)
      (hreplicates : system.down = none → Replicates backupConn system) :
      Converges backupConn system := fun hdown =>
    (hreplicates hdown).converges hdown
  have hkeep (system : System) (label : Label) (next : System)
      (hreplicates : system.down = none → Replicates backupConn system)
      (hallowed : WellBehaved system label ∧
        ForwardsInOrder backupConn system label)
      (hstep : Threads.step system label = some next) :
      next.down = none → Replicates backupConn next :=
    (hreplicates (transition_of_step hstep).1).step hallowed.1 hallowed.2 hstep
  have hstart : attached.down = none → Replicates backupConn attached := by
    rw [attached_eq hcmd hattach]
    exact fun _ => replicates_attachedSystem packet.payload
  exact throughout_of_along hgood hkeep hstart (hbehaved.and horder)

end Runs

/-! ## A `FOLLOW` that overtakes a `PROFILE` -/

/-- A backup on connection 9. -/
def attachLabel : Label := ⟨9, 0, .receive (new .setBackup [58] [] 0)⟩

/-- The backup receives the list, and `a` logs in. -/
def loginLabels : List Label :=
  [⟨9, 0, .proceed⟩, ⟨9, 0, .proceed⟩, ⟨9, 0, .proceed⟩, ⟨9, 0, .proceed⟩,
    ⟨1, 0, .receive (new .profile [97] [] 0)⟩, ⟨1, 0, .proceed⟩,
    ⟨1, 0, .proceed⟩, ⟨1, 0, .proceed⟩, ⟨1, 0, .proceed⟩, ⟨1, 0, .proceed⟩]

/-- The login of `b`, up to the forwarding of its packet. -/
def registerLabels : List Label :=
  [⟨2, 0, .receive (new .profile [98] [] 0)⟩, ⟨2, 0, .proceed⟩]

def announceLabels : List Label := [⟨2, 0, .proceed⟩, ⟨2, 0, .proceed⟩]

/-- `a` follows `b`. -/
def followLabels : List Label :=
  [⟨1, 0, .receive (new .follow [98] [97] 0)⟩, ⟨1, 0, .proceed⟩,
    ⟨1, 0, .proceed⟩]

def orderedRun : List Label :=
  loginLabels ++ registerLabels ++ announceLabels ++ followLabels

def overtakenRun : List Label :=
  loginLabels ++ registerLabels ++ followLabels ++ announceLabels

theorem converges_orderedRun :
    ∃ attached, step System.start attachLabel = some attached ∧
      Throughout step (Converges 9) attached orderedRun := by
  have hsome : (step System.start attachLabel).isSome := by decide
  obtain ⟨attached, hattach⟩ := Option.isSome_iff_exists.1 hsome
  have hallowed : Along step WellBehaved (attachedSystem 9 [58]) orderedRun ∧
      Along step (ForwardsInOrder 9) (attachedSystem 9 [58]) orderedRun := by
    decide
  have heq : attached = attachedSystem 9 [58] := attached_eq rfl hattach
  refine ⟨attached, hattach, ?_⟩
  rw [← heq] at hallowed
  exact converges_of_forwardsInOrder rfl hattach hallowed.1 hallowed.2

/-- The packets that the backup receives in the run in which the `FOLLOW` of `a`
is forwarded before the `PROFILE` of `b`. -/
def overtakenPackets : List Relayed :=
  [⟨⟨0, new .backupPropagation [58, 10] [] 0⟩, 0⟩,
    ⟨⟨0, new .profile [97] [] 0⟩, 0⟩, ⟨⟨0, new .follow [98] [97] 0⟩, 0⟩,
    ⟨⟨0, new .profile [98] [] 0⟩, 0⟩]

theorem overtakenRun_not_converges :
    ∃ attached system, step System.start attachLabel = some attached ∧
      Along step WellBehaved attached overtakenRun ∧
      exec step attached overtakenRun = some system ∧
      ¬ Converges 9 system := by
  have hrun : (exec step System.start (attachLabel :: overtakenRun)).map
      (fun system => (system.down, [1, 2, 9].map (pending system),
        writtenTo 9 system.store, decide (Follows system.store [98] [97]))) =
      some (none, [none, none, none],
        overtakenPackets.map fun relayed => relayed.message.packet, true) := by
    decide
  have hlost : (exec relay Server.new overtakenPackets).map
      (fun backup => decide (Follows backup.store [98] [97])) = some false := by
    decide
  have hbehaved : Along step WellBehaved (attachedSystem 9 [58])
      overtakenRun := by decide
  obtain ⟨system, hexec, hvalues⟩ := Option.map_eq_some_iff.1 hrun
  obtain ⟨backup, hbackup, hdropped⟩ := Option.map_eq_some_iff.1 hlost
  obtain ⟨attached, hattach, hrest⟩ := exec_cons_iff.1 hexec
  simp only [Prod.mk.injEq, List.map_cons, List.map_nil, List.cons.injEq,
    decide_eq_true_eq] at hvalues
  obtain ⟨hdown, ⟨hfirst, hsecond, hninth, _⟩, hpackets, hedge⟩ := hvalues
  have hconns : ∀ label ∈ attachLabel :: overtakenRun,
      label.conn ∈ [1, 2, 9] := by decide
  have hnone (conn : Conn) : pending system conn = none := by
    by_cases hconn : conn ∈ [1, 2, 9]
    · simp only [List.mem_cons, List.not_mem_nil, or_false] at hconn
      rcases hconn with rfl | rfl | rfl
      · exact hfirst
      · exact hsecond
      · exact hninth
    · have hother : ∀ label ∈ attachLabel :: overtakenRun,
          conn ≠ label.conn := by
        rintro label hlabel rfl
        exact hconn (hconns label hlabel)
      rw [pending, threads_of_exec hother hexec]
      rfl
  refine ⟨attached, system, hattach, ?_, hrest, fun hconverges => ?_⟩
  · rw [show attached = attachedSystem 9 [58] from attached_eq rfl hattach]
    exact hbehaved
  · have hedges := (hconverges hdown hnone overtakenPackets backup
      hpackets.symm hbackup).2
    rw [follows_iff_mem_edges, ← hedges, ← follows_iff_mem_edges] at hedge
    exact of_decide_eq_false hdropped hedge

end TwitterLike.BackupConvergence
