import TwitterLike.Commons.PacketCodec
import TwitterLike.Server.Commands

/-!
# The sizes of the packets of a server

What is queued or written to a connection is a received packet, a packet without
strings, the greeting, or the list of the backups.  The first two always fit in
a message; the other two are made of texts that nothing bounds.
-/

namespace TwitterLike.PacketBounds

open TwitterLike.ByteBuffer
open TwitterLike.PacketFormat
open TwitterLike.PacketCodec
open TwitterLike.Profiles
open TwitterLike.ProfilesManager
open TwitterLike.ProfilesManager.Store
open TwitterLike.ProfileAccessController
open TwitterLike.Handlers
open TwitterLike.Faulting
open TwitterLike.Commands
open TwitterLike.Threads

/-! ## The store -/

/-- The packets that one logged loop or call passes to `sendPacket`. -/
def packetsOf : Output → List Packet
  | .single _ packet => [packet]
  | .pass _ pass => pass.conns.map fun _ => pass.message.packet

/-- The packets passed to `sendPacket` so far. -/
def passedPackets (store : Store) : List Packet :=
  store.outputs.flatMap packetsOf

/-- What has been passed to `sendPacket` or waits in an inbox fits. -/
structure StoreFits (store : Store) : Prop where
  passed : ∀ packet ∈ passedPackets store, Fits packet
  queued : ∀ ref, ∀ message ∈ (store.objects ref).inbox, Fits message.packet

theorem storeFits_empty : StoreFits Store.empty where
  passed packet hpacket := by cases hpacket
  queued ref message hmessage := by cases hmessage

namespace StoreFits

variable {store after : Store}

/-- Nothing else in the store matters. -/
theorem congr (hfits : StoreFits store) (houtputs : after.outputs = store.outputs)
    (hinbox : ∀ ref, (after.objects ref).inbox = (store.objects ref).inbox) :
    StoreFits after where
  passed packet hpacket := by
    rw [passedPackets, houtputs] at hpacket
    exact hfits.passed packet hpacket
  queued ref message hmessage := by
    rw [hinbox ref] at hmessage
    exact hfits.queued ref message hmessage

theorem sameMemory (hfits : StoreFits store) (hsame : SameMemory store after) :
    StoreFits after :=
  hfits.congr hsame.outputs fun ref => by rw [hsame.objects]

theorem update (hfits : StoreFits store) (ref : ProfileRef)
    {change : Profile → Profile}
    (hchange : ∀ message ∈ (change (store.objects ref)).inbox,
      Fits message.packet) : StoreFits (store.update ref change) where
  passed := hfits.passed
  queued other message hmessage := by
    by_cases hother : other = ref
    · subst hother
      rw [update_objects_self] at hmessage
      exact hchange message hmessage
    · rw [update_objects_of_ne _ _ _ hother] at hmessage
      exact hfits.queued other message hmessage

theorem keepInbox (hfits : StoreFits store) (ref : ProfileRef)
    {change : Profile → Profile}
    (hkeep : (change (store.objects ref)).inbox = (store.objects ref).inbox) :
    StoreFits (store.update ref change) :=
  hfits.congr rfl (store.update_objects_field ref Profile.inbox hkeep)

theorem sendPacket (hfits : StoreFits store) (conn : Conn) {packet : Packet}
    (hpacket : Fits packet) : StoreFits (store.sendPacket conn packet) where
  passed other hother := by
    rw [passedPackets, Store.sendPacket, List.flatMap_append, List.mem_append]
      at hother
    rcases hother with hbefore | hnew
    · exact hfits.passed other hbefore
    · have heq : other = packet := by simpa [packetsOf] using hnew
      rwa [heq]
  queued := hfits.queued

theorem sendPasses (hfits : StoreFits store) (ref : ProfileRef)
    {passes : List Pass}
    (hpasses : ∀ pass ∈ passes, Fits pass.message.packet) :
    StoreFits (store.sendPasses ref passes) where
  passed packet hpacket := by
    rw [passedPackets, sendPasses_outputs, List.flatMap_append, List.mem_append]
      at hpacket
    rcases hpacket with hbefore | hnew
    · exact hfits.passed packet hbefore
    · obtain ⟨output, houtput, hmem⟩ := List.mem_flatMap.1 hnew
      obtain ⟨pass, hpass, rfl⟩ := List.mem_map.1 houtput
      obtain ⟨conn, _, rfl⟩ := List.mem_map.1 hmem
      exact hpasses pass hpass
  queued := hfits.queued

/-! ### Operations -/

theorem created (hfits : StoreFits store) (profileId : ByteString) :
    StoreFits (store.created profileId) where
  passed := hfits.passed
  queued ref message hmessage := by
    rw [FollowGraph.created_objects] at hmessage
    split at hmessage
    · cases hmessage
    · exact hfits.queued ref message hmessage

theorem findOrCreate (hfits : StoreFits store) (profileId : ByteString)
    (conn : Option Conn) (time : BitVec 64) :
    StoreFits (store.findOrCreate profileId conn time).2 := by
  cases hfound : store.getProfileById profileId with
  | none =>
      rw [store.findOrCreate_of_unknown hfound]
      exact (hfits.created profileId).sameMemory (toJsonFile_sameMemory _)
  | some ref =>
      by_cases hfull : (store.objects ref).sessionsOn = maxSessions
      · rw [store.findOrCreate_of_full hfound hfull]
        cases conn with
        | none => exact hfits
        | some conn =>
            exact (hfits.sendPacket conn (fits_new_nil .closeConn time)).congr rfl
              fun _ => rfl
      · rw [store.findOrCreate_of_room hfound hfull]
        exact hfits

theorem incSessionsOn (hfits : StoreFits store) (ref : ProfileRef)
    (conn : Option Conn) : StoreFits (store.incSessionsOn ref conn) :=
  hfits.keepInbox ref rfl

theorem decSessionsOn (hfits : StoreFits store) (ref : ProfileRef)
    (conn : Option Conn) : StoreFits (store.decSessionsOn ref conn) :=
  hfits.keepInbox ref (decSessionsOn_inbox _ _)

theorem updateSessionsOn (hfits : StoreFits store) (ref : ProfileRef)
    (conn : Option Conn) : StoreFits (store.updateSessionsOn ref conn) :=
  hfits.keepInbox ref rfl

theorem createProfileIfNotExists (hfits : StoreFits store)
    (profileId : ByteString) (conn : Option Conn) (time : BitVec 64) :
    StoreFits (store.createProfileIfNotExists profileId conn time).2 := by
  have hfound := hfits.findOrCreate profileId conn time
  rw [Store.createProfileIfNotExists]
  rcases hfind : store.findOrCreate profileId conn time with ⟨exit | ref, found⟩
  · rwa [hfind] at hfound
  · rw [hfind] at hfound
    exact hfound.incSessionsOn ref conn

theorem addFollowerTo (hfits : StoreFits store) (followed : ByteString)
    (follower : Option ProfileRef) :
    StoreFits (store.addFollowerTo followed follower).2 := by
  cases follower with
  | none => exact hfits
  | some follower =>
      rcases store.addFollowerTo_cases followed follower with
        hkeep | ⟨target, _, _, _, hpush⟩
      · rwa [hkeep]
      · rw [hpush]
        have hpushed : StoreFits (store.pushFollower target follower) :=
          hfits.keepInbox target rfl
        exact hpushed.sameMemory (toJsonFile_sameMemory _)

theorem sendOrInsertInbox (hfits : StoreFits store) (ref : ProfileRef)
    {message : Message} (hmessage : Fits message.packet) :
    StoreFits (store.sendOrInsertInbox ref message) := by
  by_cases honline : (store.objects ref).sessionsOn > 0
  · rw [Store.sendOrInsertInbox, sendOrInsertInbox_of_online _ _ honline]
    apply (hfits.keepInbox ref rfl).sendPasses
    intro pass hpass
    rwa [List.mem_singleton.1 hpass]
  · rw [Store.sendOrInsertInbox, sendOrInsertInbox_of_offline _ _ honline]
    apply (hfits.update ref _).sendPasses
    · exact fun pass hpass => absurd hpass List.not_mem_nil
    · intro other hother
      rcases List.mem_append.1 hother with hbefore | hnew
      · exact hfits.queued ref other hbefore
      · rwa [List.mem_singleton.1 hnew]

theorem sendToFollowersOf (hfits : StoreFits store)
    (profile : Option ProfileRef) {message : Message}
    (hmessage : Fits message.packet) :
    StoreFits (store.sendToFollowersOf profile message).2 := by
  cases profile with
  | none => exact hfits
  | some profile =>
      change StoreFits (List.foldl _ store (store.objects profile).followers)
      generalize (store.objects profile).followers = followers
      induction followers generalizing store with
      | nil => exact hfits
      | cons follower followers ih =>
          exact ih (hfits.sendOrInsertInbox follower hmessage)

theorem fetchInboxContent (hfits : StoreFits store) (ref : ProfileRef) :
    StoreFits (store.fetchInboxContent ref).2 := by
  rw [Store.fetchInboxContent]
  apply (hfits.update ref _).sendPasses
  · intro pass hpass
    exact hfits.queued ref _ (message_mem_of_drain hpass)
  · exact fun message hmessage => absurd hmessage List.not_mem_nil

end StoreFits

/-! ## The handlers -/

section Handlers

/-- The store of the server fits. -/
def ServerFits (server : Server) : Prop := StoreFits server.store

theorem preserves_sendToBackups {packet : Packet} (hpacket : Fits packet) :
    Preserves ServerFits (sendToBackups packet) := by
  intro server hfits
  rw [run_sendToBackups]
  change StoreFits (forward server.listBackups packet server.store)
  have hstore : StoreFits server.store := hfits
  generalize server.store = store at hstore
  generalize server.listBackups = backups
  induction backups generalizing store with
  | nil => exact hstore
  | cons backup backups ih =>
      exact ih _ (hstore.sendPacket backup hpacket)

theorem preserves_forwarding {packet : Packet} (hpacket : Fits packet)
    (result : Bool) :
    Preserves ServerFits
      (sendToBackups packet >>= fun _ => (pure result : Handler Bool)) :=
  (preserves_sendToBackups hpacket).bind fun _ => preserves_pure result

theorem preserves_processPacket (conn : Option Conn)
    (profile : Option ProfileRef) {message : Message} (time : BitVec 64)
    (hmessage : Fits message.packet) :
    Preserves ServerFits (processPacket conn profile message time) := by
  unfold processPacket
  split
  · apply Preserves.bind
    · exact preserves_call_withWrite fun store hfits =>
        hfits.createProfileIfNotExists _ conn time
    · exact fun _ => preserves_forwarding hmessage false
  · apply Preserves.bind
    · exact preserves_call_withWrite fun store hfits => hfits.addFollowerTo _ profile
    · exact fun _ => preserves_forwarding hmessage false
  · apply Preserves.bind
    · exact preserves_dereference profile
    · intro ref
      apply Preserves.bind
      · exact preserves_modify fun server hfits =>
          StoreFits.decSessionsOn hfits ref conn
      · exact fun _ => preserves_forwarding hmessage true
  · apply Preserves.bind
    · exact preserves_call_withWrite fun store hfits =>
        hfits.sendToFollowersOf profile hmessage
    · exact fun _ => preserves_forwarding hmessage false
  · apply Preserves.bind
    · exact preserves_modify fun server hfits => hfits
    · exact fun _ => preserves_pure false
  · exact preserves_pure false

theorem preserves_receiveAlive {message : Message} (time : BitVec 64)
    (hmessage : Fits message.packet) :
    Preserves ServerFits (receiveAlive message time) :=
  (preserves_call_withRead _).bind fun profile =>
    (preserves_processPacket none profile time hmessage).bind fun _ =>
      preserves_pure ()

end Handlers

/-! ## The threads -/

/-- The thread passes the packet to `sendPacket` when it takes its next step. -/
def AboutToPass (listBackups : List Conn) (packet : Packet) : Point → Prop
  | .forwarding forwarded index _ =>
      forwarded = packet ∧ index < listBackups.length
  | _ => False

/-- A packet that a thread has passed to `sendPacket` or is about to. -/
def ThreadsPass (system : System) (packet : Packet) : Prop :=
  packet ∈ passedPackets system.store ∨
    ∃ conn, AboutToPass system.server.listBackups packet (system.threads conn)

/-- What a thread makes a packet of, and nobody has checked, is short enough:
the id in a greeting, and the list of the backups with its newlines. -/
def HasRoom (system : System) : Point → Prop
  | .greeting profile => (system.store.objects profile).profileId.length ≤ 4057
  | .propagating =>
      (system.server.electionServerList.map fun address =>
        address.length + 1).sum ≤ 4071
  | _ => True

/-- The packet that a thread holds fits, and a thread that serves a backup has
put the backup into the list. -/
def PointFits (listBackups : List Conn) : Point → Prop
  | .registering _ packet _ => Fits packet
  | .sending _ message _ => Fits message.packet
  | .forwarding packet _ _ => Fits packet
  | .joining _ => listBackups ≠ []
  | .propagating => listBackups ≠ []
  | _ => True

structure SystemFits (system : System) : Prop where
  store : StoreFits system.store
  points : ∀ conn, PointFits system.server.listBackups (system.threads conn)

section Threads

variable {system middle next : System} {conn : Conn} {time : BitVec 64}
  {action : Action}

theorem length_serverListToString (electionServerList : List ByteString) :
    (serverListToString electionServerList).length =
      (electionServerList.map fun address => address.length + 1).sum := by
  simp [serverListToString, List.length_flatMap]

theorem fits_greeting_iff (profileId : ByteString) (time : BitVec 64) :
    Fits (new .send (helloText ++ profileId) [] time) ↔
      profileId.length ≤ 4057 := by
  have hlength : helloText.length = 14 := rfl
  rw [fits_new_iff, List.length_append, hlength, List.length_nil]
  omega

theorem fits_propagation_iff (electionServerList : List ByteString)
    (time : BitVec 64) :
    Fits (new .backupPropagation (serverListToString electionServerList) []
        time) ↔
      (electionServerList.map fun address => address.length + 1).sum ≤ 4071 := by
  rw [fits_new_iff, length_serverListToString, List.length_nil, add_zero]

theorem systemFits_serving {server : Server} (hfits : ServerFits server) :
    SystemFits (System.serving server) where
  store := hfits
  points _ := trivial

theorem SystemFits.passes (hfits : SystemFits system) {packet : Packet}
    (hpasses : ThreadsPass system packet) : Fits packet := by
  rcases hpasses with hpassed | ⟨conn, habout⟩
  · exact hfits.store.passed packet hpassed
  · have hpoint := hfits.points conn
    cases hthread : system.threads conn with
    | forwarding forwarded index next =>
        rw [hthread] at habout hpoint
        rwa [← habout.1]
    | _ =>
        rw [hthread] at habout
        exact habout.elim

theorem pointFits_next (listBackups : List Conn) (continuation : Next) :
    PointFits listBackups continuation.point := by
  cases continuation <;> trivial

theorem PointFits.append {listBackups : List Conn} {point : Point}
    (hpoint : PointFits listBackups point) (conn : Conn) :
    PointFits (listBackups ++ [conn]) point := by
  cases point with
  | joining address => exact List.concat_ne_nil conn listBackups
  | propagating => exact List.concat_ne_nil conn listBackups
  | _ => exact hpoint

/-- A step that moves no thread. -/
theorem SystemFits.keep (hfits : SystemFits system)
    (hthreads : next.threads = system.threads)
    (hbackups : next.server.listBackups = system.server.listBackups)
    (hstore : StoreFits next.store) : SystemFits next where
  store := hstore
  points conn := by
    rw [hthreads, hbackups]
    exact hfits.points conn

/-- A step of the thread of one connection. -/
theorem SystemFits.move (hmiddle : SystemFits middle) {point : Point}
    (hpoint : PointFits middle.server.listBackups point) :
    SystemFits (middle.goto conn point) where
  store := hmiddle.store
  points other := by
    rcases middle.goto_threads_cases conn point other with
      ⟨_, hgoto⟩ | ⟨_, hgoto⟩
    · rw [hgoto]
      exact hpoint
    · rw [hgoto]
      exact hmiddle.points other

theorem SystemFits.onStore (hfits : SystemFits system) {change : Store → Store}
    (hstore : StoreFits (change system.store)) :
    SystemFits (system.onStore change) :=
  hfits.keep rfl rfl hstore

/-- Taking and releasing the lock changes no store. -/
theorem SystemFits.setController (hfits : SystemFits system)
    (controller : Controller) (hsame : controller.store = system.store) :
    SystemFits (system.setController controller) where
  store := by
    change StoreFits controller.store
    rw [hsame]
    exact hfits.store
  points := hfits.points

theorem SystemFits.locked (hfits : SystemFits system) {packet : Packet}
    {result : Except Exit ProfileRef} {store : Store}
    (hfind : system.store.findOrCreate packet.payload (some conn) time =
      (result, store)) : SystemFits (system.locked store) := by
  have hfound := hfits.store.findOrCreate packet.payload (some conn) time
  rw [hfind] at hfound
  exact hfits.keep rfl rfl hfound

theorem storeFits_of_addFollowerTo (hfits : SystemFits system)
    {packet : Packet} {profile : ProfileRef} {result : Except Exit Unit}
    {store : Store}
    (hfollow : system.store.addFollowerTo packet.payload (some profile) =
      (result, store)) : StoreFits store := by
  have hafter := hfits.store.addFollowerTo packet.payload (some profile)
  rwa [hfollow] at hafter

theorem SystemFits.transition (hfits : SystemFits system)
    (hreceived : ∀ packet, action = .receive packet → Fits packet)
    (hroom : HasRoom system (system.threads conn))
    (htransition : Transition system conn time action next) :
    SystemFits next := by
  have hstore := hfits.store
  have hthread := hfits.points conn
  have hcounted : SystemFits system.countPacket := hfits.keep rfl rfl hstore
  cases htransition with
  | found henter hcmd hwritable hfind =>
      exact (hfits.locked hfind).move (hreceived _ rfl)
  | refused henter hcmd hwritable hfind => exact (hfits.locked hfind).move trivial
  | findFailed henter hcmd hwritable hfind hexit =>
      exact (hfits.locked hfind).keep rfl rfl (hfits.locked hfind).store
  | joined hpoint hcmd =>
      have hjoined : SystemFits { system.countPacket with
          server := { system.server with
            listBackups := system.server.listBackups ++ [conn] } } :=
        ⟨hstore, fun other => (hfits.points other).append conn⟩
      exact hjoined.move (List.concat_ne_nil conn _)
  | senderFound hpoint hprofile hbackup hfound => exact hcounted.move trivial
  | senderUnknown hpoint hprofile hbackup hunknown =>
      exact hfits.keep rfl rfl hstore
  | reconnected hpoint =>
      exact (hfits.onStore (hstore.updateSessionsOn _ (some conn))).move trivial
  | @addressPushed address hpoint =>
      rw [hpoint] at hthread
      have hpushed : SystemFits { system with
          server := { system.server with
            electionServerList :=
              system.server.electionServerList ++ [address] } } :=
        hfits.keep rfl rfl hstore
      apply hpushed.move
      exact hthread
  | propagated hpoint =>
      rw [hpoint] at hroom
      exact hfits.move ((fits_propagation_iff _ time).2 hroom)
  | @registered profile packet continuation hpoint =>
      rw [hpoint] at hthread
      have hregistered : SystemFits (system.onStore fun store =>
          store.incSessionsOn profile (some conn)) :=
        hfits.onStore (hstore.incSessionsOn profile (some conn))
      apply SystemFits.move
      · exact hregistered.setController _ rfl
      · exact hthread
  | forwarded hpoint hbackup =>
      rw [hpoint] at hthread
      exact (hfits.onStore (hstore.sendPacket _ hthread)).move hthread
  | forwardDone hpoint hlast => exact hfits.move (pointFits_next _ _)
  | greeted hpoint =>
      rw [hpoint] at hroom
      have hgreeting := (fits_greeting_iff _ time).2 hroom
      exact (hfits.onStore (hstore.sendPacket conn hgreeting)).move trivial
  | fetched hpoint hfetch =>
      exact (hfits.onStore (hstore.fetchInboxContent _)).move trivial
  | fetchFailed hpoint hfetch =>
      exact hfits.keep rfl rfl (hstore.fetchInboxContent _)
  | followed hpoint hcmd hwritable hfollow =>
      exact (hcounted.onStore (storeFits_of_addFollowerTo hfits hfollow)).move
        (hreceived _ rfl)
  | followFailed hpoint hcmd hwritable hfollow =>
      exact hfits.keep rfl rfl (storeFits_of_addFollowerTo hfits hfollow)
  | @sendBegun packet profile hpoint hcmd hwritable =>
      have hrecorded : SystemFits (system.countPacket.recordSend conn profile
          ⟨system.received, packet⟩) := hfits.keep rfl rfl hstore
      apply (hrecorded.setController system.controller.requestWrite rfl).move
      exact hreceived packet rfl
  | sent hpoint hfollower =>
      rw [hpoint] at hthread
      exact (hfits.onStore (hstore.sendOrInsertInbox _ hthread)).move hthread
  | sendDone hpoint hlast =>
      rw [hpoint] at hthread
      apply (hfits.setController system.controller.releaseWrite rfl).move
      exact hthread
  | left hpoint hcmd =>
      exact (hcounted.onStore (hstore.decSessionsOn _ (some conn))).move
        (hreceived _ rfl)
  | listReplaced hpoint hcmd => exact hfits.keep rfl rfl hstore
  | ignored hpoint hcmd => exact hcounted
  | loopLeft hpoint hclosed => exact hfits.move trivial
  | closed hpoint =>
      exact (hfits.onStore (hstore.congr rfl fun _ => rfl)).move trivial

theorem SystemFits.step (hfits : SystemFits system) {label : Label}
    (hreceived : ∀ packet, label.action = .receive packet → Fits packet)
    (hroom : HasRoom system (system.threads label.conn))
    (hstep : Threads.step system label = some next) : SystemFits next :=
  hfits.transition hreceived hroom (transition_of_step hstep).2

/-- A greeting of a profile with too long an id does not fit. -/
theorem overflow_of_greeting {label : Label} {profile : ProfileRef}
    (hpoint : system.threads label.conn = .greeting profile)
    (hroom : ¬ HasRoom system (.greeting profile))
    (hstep : Threads.step system label = some next) :
    ∃ packet, ThreadsPass next packet ∧ ¬ Fits packet := by
  obtain ⟨conn, time, action⟩ := label
  cases action with
  | receive packet => simp [Threads.step, stepThread, hpoint] at hstep
  | proceed =>
      simp only [Threads.step, hpoint, stepThread, Option.ite_none_right_eq_some,
        Option.some.injEq] at hstep
      obtain ⟨_, rfl⟩ := hstep
      refine ⟨_, .inl ?_, fun hgreeting =>
        hroom ((fits_greeting_iff _ time).1 hgreeting)⟩
      simp [passedPackets, packetsOf, Store.sendPacket]

/-- Too long a list of backups is about to be sent to the first of them. -/
theorem overflow_of_propagating (hfits : SystemFits system) {label : Label}
    (hpoint : system.threads label.conn = .propagating)
    (hroom : ¬ HasRoom system .propagating)
    (hstep : Threads.step system label = some next) :
    ∃ packet, ThreadsPass next packet ∧ ¬ Fits packet := by
  have hbackups := hfits.points label.conn
  rw [hpoint] at hbackups
  obtain ⟨conn, time, action⟩ := label
  cases action with
  | receive packet => simp [Threads.step, stepThread, hpoint] at hstep
  | proceed =>
      simp only [Threads.step, hpoint, stepThread, Option.ite_none_right_eq_some,
        Option.some.injEq] at hstep
      obtain ⟨_, rfl⟩ := hstep
      refine ⟨_, .inr ⟨conn, ?_⟩, fun hlist =>
        hroom ((fits_propagation_iff _ time).1 hlist)⟩
      rw [System.propagate, System.goto_threads_self]
      exact ⟨rfl, List.length_pos_of_ne_nil hbackups⟩

/-- A step without room passes a packet that does not fit. -/
theorem SystemFits.overflow (hfits : SystemFits system) {label : Label}
    (hroom : ¬ HasRoom system (system.threads label.conn))
    (hstep : Threads.step system label = some next) :
    ∃ packet, ThreadsPass next packet ∧ ¬ Fits packet := by
  cases hpoint : system.threads label.conn with
  | greeting profile =>
      rw [hpoint] at hroom
      exact overflow_of_greeting hpoint hroom hstep
  | propagating =>
      rw [hpoint] at hroom
      exact overflow_of_propagating hfits hpoint hroom hstep
  | _ =>
      rw [hpoint] at hroom
      exact absurd trivial hroom

end Threads

end TwitterLike.PacketBounds
