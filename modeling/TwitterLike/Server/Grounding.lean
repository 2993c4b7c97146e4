import TwitterLike.Server.BackupConvergence
import TwitterLike.Server.BackupLoop
import TwitterLike.Server.Naming
import TwitterLike.Server.Provenance

/-!
# Where the content of a server comes from

Clients that speak in their own name keep a server backed by what they have said:
a primary with its handler threads, the backup that follows it, and that backup once
it accepts clients.
-/

namespace TwitterLike.Provenance

open TwitterLike.ByteBuffer
open TwitterLike.PacketFormat
open TwitterLike.Profiles
open TwitterLike.ProfilesManager
open TwitterLike.ProfileAccessController
open TwitterLike.Handlers
open TwitterLike.Faulting
open TwitterLike.FollowGraph
open TwitterLike.GraphHistory
open TwitterLike.Commands
open TwitterLike.Replication (relay relay_eq_some_iff)
open TwitterLike.BackupLoop (Follower process)
open TwitterLike.Threads
open TwitterLike.Sessions (AsBackup)
open TwitterLike.BackupConvergence
open TwitterLike.Naming (Bound mentions_of_transition)

/-! ## A backup that follows -/

section Backup

variable {name : Conn → ByteString} {ledger : Ledger} {backups : List Conn}
  {server after : Server} {store : Store} {message : Message} {packet : Packet}
  {follower : Follower} {time : BitVec 64}

/-- What a packet makes of the store of a backup, also when an exception ends the
turn. -/
inductive Performed (message : Message) (store : Store) : Store → Prop where
  | untouched : Performed message store store
  | registered (hcmd : message.packet.cmd = .profile) (time : BitVec 64) :
      Performed message store
        (store.createProfileIfNotExists message.packet.payload none time).2
  | followed {ref : ProfileRef} (hcmd : message.packet.cmd = .follow)
      (hsender : store.getProfileById message.packet.sender = some ref) :
      Performed message store (store.addFollowerTo message.packet.payload (some ref)).2
  | sent {ref : ProfileRef} (hcmd : message.packet.cmd = .send)
      (hsender : store.getProfileById message.packet.sender = some ref) :
      Performed message store (store.sendToFollowersOf (some ref) message).2
  | left (ref : ProfileRef) : Performed message store (store.decSessionsOn ref none)

/-- The handler has gone from one server without backups to the other. -/
structure Performs (message : Message) (server after : Server) : Prop where
  store : Performed message server.store after.store
  listed : after.listBackups = []

/-- Whatever its way out, a call leaves the store as it was or as the operation has
left it. -/
theorem performs_call {α : Type} (hlisted : server.listBackups = [])
    {operation : Store → Except Exit α × Store}
    (hoperation : Performed message server.store (operation server.store).2) :
    Performs message server
      ((call fun controller => controller.withWrite operation).run server).2 := by
  refine ⟨?_, hlisted⟩
  rw [run_call, Controller.withWrite]
  by_cases hwritable : server.controller.writable = true
  · have hstore : server.controller.requestWrite.store = server.store := rfl
    simp only [hwritable, if_true, hstore]
    rcases hrun : operation server.store with ⟨exit | value, store⟩
    · rwa [hrun] at hoperation
    · rwa [hrun] at hoperation
  · simp only [hwritable]
    exact .untouched

/-- There is nobody to forward to. -/
theorem run_sendToBackups_of_none (hlisted : server.listBackups = []) :
    (sendToBackups packet).run server = (.ok (), server) := by
  rw [run_sendToBackups, hlisted]
  rfl

/-- A command that is applied and forwarded. -/
theorem performs_command {α : Type} (hlisted : server.listBackups = [])
    {operation : Store → Except Exit α × Store}
    (hoperation : Performed message server.store (operation server.store).2)
    {result : Bool} :
    Performs message server
      (((call fun controller => controller.withWrite operation) >>= fun _ =>
        sendToBackups packet >>= fun _ => (pure result : Handler Bool)).run
          server).2 := by
  have hmiddle := performs_call hlisted hoperation
  rcases hcall : (call fun controller =>
      controller.withWrite operation).run server with ⟨exit | value, middle⟩
  · rw [run_bind_of_error server hcall]
    rwa [hcall] at hmiddle
  · rw [hcall] at hmiddle
    rw [run_bind_of_ok server hcall,
      run_bind_of_ok _ (run_sendToBackups_of_none hmiddle.listed)]
    exact hmiddle

theorem performs_processPacket (hlisted : server.listBackups = []) :
    Performs message server ((processPacket none
      (server.store.getProfileById message.packet.sender) message time).run
        server).2 := by
  have huntouched : Performs message server server := ⟨.untouched, hlisted⟩
  unfold processPacket
  split
  · next hcmd => exact performs_command hlisted (.registered hcmd time)
  · next hcmd =>
      refine performs_command hlisted ?_
      cases hsender : server.store.getProfileById message.packet.sender with
      | none => exact .untouched
      | some ref => exact .followed hcmd hsender
  · cases server.store.getProfileById message.packet.sender with
    | none => exact huntouched
    | some ref =>
        have hleft : (server.onStore fun store =>
            store.decSessionsOn ref none).listBackups = [] := hlisted
        simp only [dereference, run_pure_bind, run_modify_bind,
          run_bind_of_ok _ (run_sendToBackups_of_none hleft)]
        exact ⟨.left ref, hlisted⟩
  · next hcmd =>
      refine performs_command hlisted ?_
      cases hsender : server.store.getProfileById message.packet.sender with
      | none => exact .untouched
      | some ref => exact .sent hcmd hsender
  · exact ⟨.untouched, hlisted⟩
  · exact huntouched

theorem performs_receiveAlive (hlisted : server.listBackups = []) :
    Performs message server ((receiveAlive message time).run server).2 := by
  have hread : Performs message server ((call fun controller =>
      controller.getProfileById message.packet.sender).run server).2 :=
    ⟨preserves_call_withRead _ server .untouched, hlisted⟩
  rcases hlookup : (call fun controller =>
      controller.getProfileById message.packet.sender).run server with
    ⟨exit | found, middle⟩
  · rw [receiveAlive, run_bind_of_error server hlookup]
    rwa [hlookup] at hread
  · obtain ⟨_, rfl, rfl⟩ := run_call_withRead_eq_ok_iff.1 hlookup
    have hprocess := @performs_processPacket middle message time hlisted
    rw [receiveAlive, run_bind_of_ok _ hlookup]
    rcases hrun : (processPacket none
        (middle.store.getProfileById message.packet.sender) message time).run middle
      with ⟨exit | quit, after⟩
    · rw [run_bind_of_error _ hrun]
      rwa [hrun] at hprocess
    · rw [run_bind_of_ok _ hrun]
      rwa [hrun] at hprocess

/-- One turn of the loop of the backup. -/
theorem performs_of_process (hlisted : follower.backup.listBackups = []) :
    (∀ later, process follower packet time = .again later →
        Performs ⟨follower.received, packet⟩ follower.backup later.backup) ∧
      ∀ later, process follower packet time = .ended later →
        Performs ⟨follower.received, packet⟩ follower.backup later := by
  have hafter := @performs_receiveAlive follower.backup ⟨follower.received, packet⟩ time
    hlisted
  unfold process
  rcases hrun : (receiveAlive ⟨follower.received, packet⟩ time).run follower.backup
    with ⟨exit | value, after⟩
  · rw [hrun] at hafter
    cases exit with
    | exception | threadExit =>
        refine ⟨fun _ hturn => ?_, fun _ hturn => ?_⟩
        · cases hturn
        · cases hturn
          exact hafter
    | blocked | nullDeref =>
        refine ⟨fun _ hturn => ?_, fun _ hturn => ?_⟩
        · cases hturn
        · cases hturn
  · rw [hrun] at hafter
    refine ⟨fun _ hturn => ?_, fun _ hturn => ?_⟩
    · cases hturn
      exact hafter
    · cases hturn

/-- The graph of a backup that goes on is the one that the packet asks for. -/
theorem graph_of_process {later : Follower} (hwf : WellFormed follower.backup.store)
    (hturn : process follower packet time = .again later) :
    later.received = follower.received + 1 ∧
      graph later.backup.store = replay (graph follower.backup.store) packet := by
  unfold process at hturn
  split at hturn
  · next after hrun =>
      cases hturn
      have hrelay : relay follower.backup ⟨⟨follower.received, packet⟩, time⟩ =
          some after := relay_eq_some_iff.2 hrun
      exact ⟨rfl, (relay_graph hwf hrelay).2⟩
  all_goals cases hturn

/-- A turn removes no profile and no edge. -/
theorem Performed.extends {after : Store} (hperformed : Performed message store after)
    (hwf : WellFormed store) : Extends store after := by
  cases hperformed with
  | untouched => exact .refl store
  | registered hcmd time =>
      exact (createProfileIfNotExists_extends hwf message.packet.payload none time).2.1
  | followed => exact addFollowerTo_extends _ _
  | sent => exact .of_sameGraph (sendToFollowersOf_sameGraph store _ message)
  | left ref => exact .of_sameGraph (decSessionsOn_sameGraph store ref none)

/-- A backup does what the sender of the packet has asked for. -/
theorem Backed.performed {after : Store} (hbacked : Backed name ledger backups store)
    (hperformed : Performed message store after)
    (hcredible : ledger.Credible message.packet) :
    Backed name ledger backups after := by
  cases hperformed with
  | untouched => exact hbacked
  | registered hcmd time =>
      have hfound := @Backed.findOrCreate _ _ _ _ hbacked _ (hcredible.introduced hcmd)
        none nofun time
      unfold Store.createProfileIfNotExists
      rcases hfind : store.findOrCreate message.packet.payload none time with
        ⟨exit | ref, created⟩
      · rwa [hfind] at hfound
      · rw [hfind] at hfound
        exact hfound.incSessionsOn nofun
  | followed hcmd hsender => exact hbacked.addFollowerTo hsender (hcredible.asked hcmd)
  | sent hcmd hsender => exact hbacked.sendToFollowersOf (hcredible.said hcmd) hsender
  | left => exact hbacked.decSessionsOn none

/-- A server that speaks to nobody but its backups. -/
structure Vouched (name : Conn → ByteString) (ledger : Ledger) (backups : List Conn)
    (server : Server) : Prop where
  backed : Backed name ledger backups server.store
  listed : server.listBackups = backups

theorem vouched_new : Vouched name ledger [] Server.new where
  backed := backed_empty
  listed := rfl

theorem Vouched.performs (hvouched : Vouched name ledger [] server)
    (hperforms : Performs message server after)
    (hcredible : ledger.Credible message.packet) : Vouched name ledger [] after where
  backed := hvouched.backed.performed hperforms.store hcredible
  listed := hperforms.listed

end Backup

/-! ## A server that serves -/

/-- What a thread is about to pass on, on the connection of this name. -/
def Carried (ledger : Ledger) (name : ByteString) : Point → Prop
  | .registering _ packet _ => ledger.Credible packet
  | .forwarding packet _ _ => ledger.Credible packet
  | .sending _ message _ => ledger.Credible message.packet ∧
      message.packet ∈ ledger.said ∧ message.packet.sender = name
  | _ => True

/-- The threads work on the profiles of their connections, and pass on what their
clients have said. -/
structure Grounded (name : Conn → ByteString) (ledger : Ledger) (backups : List Conn)
    (system : System) : Prop where
  vouched : Vouched name ledger backups system.server
  mentions : ∀ conn ref, Mentions (system.threads conn) ref →
    Bound name system.store conn ref
  carried : ∀ conn, Carried ledger (name conn) (system.threads conn)
  aside : ∀ conn ∈ backups, AsBackup (system.threads conn)

section Threads

variable {name : Conn → ByteString} {ledger : Ledger} {backups : List Conn}
  {system next : System} {conn : Conn} {time : BitVec 64} {action : Action}

theorem grounded_serving {server : Server} (hvouched : Vouched name ledger [] server) :
    Grounded name ledger [] (System.serving server) where
  vouched := hvouched
  mentions _ _ hmentions := hmentions.elim
  carried _ := trivial
  aside _ hbackup := by cases hbackup

theorem Grounded.grows (hgrounded : Grounded name ledger backups system)
    {later : Ledger} (hgrows : ledger.Grows later) :
    Grounded name later backups system where
  vouched := ⟨hgrounded.vouched.backed.grows hgrows, hgrounded.vouched.listed⟩
  mentions := hgrounded.mentions
  carried other := by
    have hcarried := hgrounded.carried other
    unfold Carried at hcarried ⊢
    split at hcarried
    · exact hgrows.credible hcarried
    · exact hgrows.credible hcarried
    · exact ⟨hgrows.credible hcarried.1, hgrows.said hcarried.2.1, hcarried.2.2⟩
    · trivial
  aside := hgrounded.aside

/-- What a received packet may be. -/
def Honest (name : Conn → ByteString) (ledger : Ledger) (conn : Conn) :
    Action → Prop
  | .receive packet => ledger.Genuine (name conn) packet
  | .proceed => True

/-- The thread of a backup is at none of the points of a client. -/
theorem Grounded.notMem (hgrounded : Grounded name ledger backups system)
    {point : Point} (hpoint : system.threads conn = point) (hother : ¬ AsBackup point) :
    conn ∉ backups :=
  fun hbackup => hother (hpoint ▸ hgrounded.aside conn hbackup)

theorem backed_of_transition (hgrounded : Grounded name ledger backups system)
    (hhonest : Honest name ledger conn action)
    (htransition : Transition system conn time action next) :
    Backed name ledger backups next.store := by
  have hbacked := hgrounded.vouched.backed
  have hmentions := hgrounded.mentions conn
  have hcarried := hgrounded.carried conn
  cases htransition with
  | found henter hcmd _ hfind | refused henter hcmd _ hfind
  | findFailed henter hcmd _ hfind =>
      have hclient := hgrounded.notMem rfl (not_asBackup_of_enters henter)
      have hstore := @Backed.findOrCreate _ _ _ _ hbacked _
        (hhonest.credible.introduced hcmd) (some conn)
        (fun other hother => Option.some.inj hother ▸ hclient) time
      rwa [hfind] at hstore
  | reconnected hpoint =>
      rw [hpoint] at hmentions
      refine hbacked.updateSessionsOn fun other hother => ?_
      cases hother
      exact ⟨hgrounded.notMem hpoint id, hmentions _ rfl⟩
  | registered hpoint =>
      rw [hpoint] at hmentions
      refine hbacked.incSessionsOn fun other hother => ?_
      cases hother
      exact ⟨hgrounded.notMem hpoint id, hmentions _ (.inl rfl)⟩
  | forwarded hpoint hbackup =>
      rw [hpoint] at hcarried
      refine hbacked.sendPacket ?_
      rw [Permitted, if_pos (hgrounded.vouched.listed ▸ List.mem_of_getElem? hbackup)]
      exact hcarried
  | @greeted profile hpoint =>
      rw [hpoint] at hmentions
      have hname : (system.store.objects profile).profileId = name conn :=
        hbacked.wellFormed.ids _ _ (hmentions profile rfl)
      refine hbacked.sendPacket ?_
      rw [Permitted, if_neg (hgrounded.notMem hpoint id)]
      exact .inl ⟨time, .inr (by rw [hname])⟩
  | fetched | fetchFailed => exact hbacked.fetchInboxContent
  | followed hpoint hcmd _ hfollow | followFailed hpoint hcmd _ hfollow =>
      rw [hpoint] at hmentions
      have hasked := hhonest.credible.asked hcmd
      rw [hhonest.spoken (.inl hcmd)] at hasked
      have hstore := hbacked.addFollowerTo (hmentions _ rfl) hasked
      rwa [hfollow] at hstore
  | sent hpoint hfollower =>
      rw [hpoint] at hmentions hcarried
      obtain ⟨_, hsaid, hsender⟩ := hcarried
      refine hbacked.sendOrInsertInbox fun viewer hviewer => ⟨hsaid, ?_⟩
      rw [hsender]
      exact hbacked.asked (hmentions _ rfl) (List.mem_of_getElem? hfollower) hviewer
  | left => exact hbacked.decSessionsOn (some conn)
  | closed => exact hbacked.closeConn conn
  | _ => exact hbacked

theorem listed_of_transition (hhonest : Honest name ledger conn action)
    (htransition : Transition system conn time action next) :
    next.server.listBackups = system.server.listBackups := by
  cases htransition with
  | joined _ hcmd => exact absurd hcmd hhonest.noBackup
  | _ => rfl

/-- A thread logs in to the profile of its name only. -/
theorem bound_of_honest (hgrounded : Grounded name ledger backups system)
    (hhonest : Honest name ledger conn action)
    (htransition : Transition system conn time action next) {ref : ProfileRef}
    (hmentions : Mentions (next.threads conn) ref) :
    Mentions (system.threads conn) ref ∨ Bound name next.store conn ref := by
  refine (mentions_of_transition htransition hmentions).imp_right ?_
  rintro ⟨packet, rfl, ⟨_, hcmd, hfound⟩ | ⟨_, _, hfound⟩⟩
  · rwa [Bound, ← hhonest.login hcmd]
  · have hafter := backed_of_transition hgrounded hhonest htransition
    rcases hhonest.sender with hsender | hnobody
    · rwa [Bound, ← hsender]
    · exact absurd hnobody (hafter.ne_nil hfound)

theorem carried_of_transition (hgrounded : Grounded name ledger backups system)
    (hhonest : Honest name ledger conn action)
    (htransition : Transition system conn time action next) :
    Carried ledger (name conn) (next.threads conn) := by
  have hcarried := hgrounded.carried conn
  have hgoto {middle : System} {point : Point}
      (hpoint : Carried ledger (name conn) point) :
      Carried ledger (name conn) ((middle.goto conn point).threads conn) := by
    rwa [System.goto_threads_self]
  cases htransition with
  | found | followed | left => exact hgoto hhonest.credible
  | sendBegun _ hcmd =>
      exact hgoto ⟨hhonest.credible, hhonest.credible.said hcmd,
        hhonest.spoken (.inr hcmd)⟩
  | registered hpoint | forwarded hpoint | sent hpoint =>
      rw [hpoint] at hcarried
      exact hgoto hcarried
  | sendDone hpoint =>
      rw [hpoint] at hcarried
      exact hgoto hcarried.1
  | propagated => exact hgoto trivial
  | @forwardDone _ _ continuation =>
      refine hgoto ?_
      cases continuation <;> trivial
  | findFailed | senderUnknown | fetchFailed | followFailed | listReplaced
  | ignored => exact hcarried
  | refused | joined | senderFound | reconnected | addressPushed | greeted
  | fetched | loopLeft | closed => exact hgoto trivial

/-- The thread of a backup goes on to its end and receives nothing. -/
theorem asBackup_of_transition (hbackup : AsBackup (system.threads conn))
    (htransition : Transition system conn time action next) :
    AsBackup (next.threads conn) := by
  have hgoto {middle : System} {point : Point} (hpoint : AsBackup point) :
      AsBackup ((middle.goto conn point).threads conn) := by
    rwa [System.goto_threads_self]
  cases htransition with
  | found henter | refused henter | findFailed henter =>
      exact absurd hbackup (not_asBackup_of_enters henter)
  | addressPushed | propagated | closed => exact hgoto trivial
  | forwarded hpoint =>
      rw [hpoint] at hbackup
      exact hgoto (asBackup_forwarding hbackup)
  | forwardDone hpoint =>
      rw [hpoint] at hbackup
      exact hgoto (asBackup_next hbackup)
  | joined hpoint | senderFound hpoint | senderUnknown hpoint | reconnected hpoint
  | registered hpoint | greeted hpoint | fetched hpoint | fetchFailed hpoint
  | followed hpoint | followFailed hpoint | sendBegun hpoint | sent hpoint
  | sendDone hpoint | left hpoint | listReplaced hpoint | ignored hpoint
  | loopLeft hpoint =>
      rw [hpoint] at hbackup
      exact hbackup.elim

theorem Grounded.extends (hgrounded : Grounded name ledger backups system)
    (hstep : step system ⟨conn, time, action⟩ = some next) :
    Extends system.store next.store :=
  extends_of_graphStep (graphStep_of_transition (transition_of_step hstep).2)
    hgrounded.vouched.backed.wellFormed

theorem Grounded.step (hgrounded : Grounded name ledger backups system)
    (hhonest : Honest name ledger conn action)
    (hstep : step system ⟨conn, time, action⟩ = some next) :
    Grounded name ledger backups next := by
  have hextends := hgrounded.extends hstep
  have htransition := (transition_of_step hstep).2
  dsimp only at htransition
  refine ⟨⟨backed_of_transition hgrounded hhonest htransition, ?_⟩, ?_, ?_, ?_⟩
  · exact (listed_of_transition hhonest htransition).trans hgrounded.vouched.listed
  · intro other ref hmentions
    by_cases hother : other = conn
    · subst hother
      rcases bound_of_honest hgrounded hhonest htransition hmentions with
        hold | hnew
      · exact (hgrounded.mentions other ref hold).extends hextends
      · exact hnew
    · rw [threads_of_transition hother htransition] at hmentions
      exact (hgrounded.mentions other ref hmentions).extends hextends
  · intro other
    by_cases hother : other = conn
    · subst hother
      exact carried_of_transition hgrounded hhonest htransition
    · rw [threads_of_transition hother htransition]
      exact hgrounded.carried other
  · intro other hbackup
    have hbefore := hgrounded.aside other hbackup
    by_cases hother : other = conn
    · subst hother
      exact asBackup_of_transition hbefore htransition
    · rwa [threads_of_transition hother htransition]

end Threads

end TwitterLike.Provenance
