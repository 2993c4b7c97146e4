import TwitterLike.Commons.Arrivals
import TwitterLike.Server.PacketBounds
import TwitterLike.Server.Processes

/-!
# The first packet of a connection

`receiveProfileCmd` on a packet from anywhere: which packets a server takes as a
login, as a backup or as a reconnecting client, and which ones end in a null
pointer, in an exception, in a write that fails, or in a wait for a lock that nobody
gives back.
-/

namespace TwitterLike.FirstPacket

open TwitterLike.ByteBuffer
open TwitterLike.PacketFormat
open TwitterLike.Profiles
open TwitterLike.ProfilesManager
open TwitterLike.Handlers
open TwitterLike.Faulting
open TwitterLike.Commands
open TwitterLike.Arrivals
open TwitterLike.SessionAccounting
open TwitterLike.Threads
open TwitterLike.LockHolders
open TwitterLike.Processes (targets)
open TwitterLike.PacketBounds (packetsOf fits_propagation_iff)
open TwitterLike.Transition

/-! ## What becomes of the connection -/

/-- What the connection may be when `receiveProfileCmd` has returned. -/
inductive Admitted (conn : Conn) (before after : Server) :
    Option ProfileRef → Prop where
  | session {ref : ProfileRef}
      (hstored : ∃ profileId, after.store.getProfileById profileId = some ref)
      (hsession : some conn ∈ (after.store.objects ref).sessions) :
      Admitted conn before after (some ref)
  | backup (hlisted : conn ∈ after.listBackups) : Admitted conn before after none
  | ignored (hsame : after.store = before.store) : Admitted conn before after none

/-- The packet is encoded inside its buffer, and writing it raises no `SIGPIPE`. -/
def Delivers (broken : Conn → Prop) (conn : Conn) (packet : Packet) : Prop :=
  ¬ broken conn ∧ Fits packet

/-- All that has been written between the two stores. -/
def DeliversAll (broken : Conn → Prop) (before after : Store) : Prop :=
  ∀ output ∈ after.outputs.drop before.outputs.length,
    ∀ conn ∈ targets output, ∀ packet ∈ packetsOf output, Delivers broken conn packet

/-- The packet does not bring the server down, and the connection is registered
or ignored. -/
def Handles (broken : Conn → Prop) (server : Server) (conn : Conn)
    (message : Message) (time : BitVec 64) : Prop :=
  ((receiveProfileCmd conn message time).run server).1 ≠ .error .nullDeref ∧
    ∃ profile after,
      (receiveProfileCmd conn message time).run server = (.ok profile, after) ∧
        Admitted conn server after profile ∧
        DeliversAll broken server.store after.store

/-- A login under the id has a profile to go to. -/
def HasRoom (store : Store) (profileId : ByteString) : Prop :=
  match store.getProfileById profileId with
  | some ref => (store.objects ref).sessionsOn ≠ maxSessions
  | none => (store.created profileId).toJson.dumpable = true

/-- The packets that `receiveProfileCmd` is prepared for, once it has the lock. -/
def Prepared (broken : Conn → Prop) (server : Server) (conn : Conn)
    (packet : Packet) : Prop :=
  match packet.cmd with
  | .setBackup => ((server.electionServerList ++ [packet.payload]).map
        fun address => address.length + 1).sum ≤ 4071 ∧
      ∀ backup ∈ server.listBackups ++ [conn], ¬ broken backup
  | .profile => HasRoom server.store packet.payload ∧
      ∀ backup ∈ server.listBackups, Delivers broken backup packet
  | _ => (server.store.getProfileById packet.sender).isSome

/-- The call of the controller that the packet leads to gets past its loop. -/
def LetIn (system : System) (packet : Packet) : Prop :=
  match packet.cmd with
  | .setBackup => True
  | .profile => system.controller.writable = true
  | _ => system.controller.readable = true

/-- The thread of the connection waits, and the others go on. -/
def OthersReach (conn : Conn) (system later : System) : Prop :=
  ∃ labels, (∀ label ∈ labels, label.conn ≠ conn) ∧
    exec step system labels = some later

/-- At this moment the packet is let in and handled, or it waits, and not for ever:
what becomes of it then is for the state in which it is let in to say. -/
def Withstands (broken : Conn → Prop) (system : System) (conn : Conn)
    (packet : Packet) (time : BitVec 64) : Prop :=
  (LetIn system packet →
    Handles broken system.server conn ⟨system.received, packet⟩ time) ∧
  (¬ LetIn system packet → ∃ later, OthersReach conn system later ∧
    later.down = none ∧ LetIn later packet)

/-- The packets that the server expects: behind a lock that nobody has taken for
good. -/
def Expected (broken : Conn → Prop) (system : System) (conn : Conn)
    (packet : Packet) : Prop :=
  (LetIn system packet → Prepared broken system.server conn packet) ∧
  (¬ LetIn system packet → ¬ Leaked system)

section Logins

variable {store : Store} {conn : Option Conn} {profileId : ByteString}
  {time : BitVec 64}

theorem hasRoom_iff :
    HasRoom store profileId ↔ ∃ ref after,
      store.createProfileIfNotExists profileId conn time = (.ok ref, after) := by
  have hfind : (∃ ref after, store.createProfileIfNotExists profileId conn time =
        (.ok ref, after)) ↔
      ∃ ref found, store.findOrCreate profileId conn time = (.ok ref, found) := by
    simp only [Store.createProfileIfNotExists_ok_iff]
    constructor
    · rintro ⟨ref, _, found, hfound, _⟩
      exact ⟨ref, found, hfound⟩
    · rintro ⟨ref, found, hfound⟩
      exact ⟨ref, _, found, hfound, rfl⟩
  rw [hfind, HasRoom]
  cases hfound : store.getProfileById profileId with
  | some ref =>
      by_cases hfull : (store.objects ref).sessionsOn = maxSessions
      · rw [store.findOrCreate_of_full hfound hfull]
        simp [hfull]
      · rw [store.findOrCreate_of_room hfound hfull]
        simp [hfull]
  | none =>
      rw [store.findOrCreate_of_unknown hfound]
      by_cases hdump : (store.created profileId).toJson.dumpable = true
      · rw [Store.toJsonFile_of_dumpable _ hdump]
        simp [hdump, Except.map]
      · rw [Store.toJsonFile_of_not_dumpable _ hdump]
        simp [hdump, Except.map]

end Logins

/-! ## The branches -/

section Branches

variable {broken : Conn → Prop} {server after : Server} {conn : Conn}
  {message : Message} {time : BitVec 64}

theorem deliversAll_forward (backups : List Conn) (packet : Packet)
    {store before : Store} (houtputs : store.outputs = before.outputs) :
    DeliversAll broken before (forward backups packet store) ↔
      ∀ backup ∈ backups, Delivers broken backup packet := by
  have hwritten : (forward backups packet store).outputs.drop
      before.outputs.length = backups.map fun backup => .single backup packet := by
    rw [forward_eq, ← houtputs]
    exact List.drop_left
  rw [DeliversAll, hwritten, List.forall_mem_map]
  simp only [targets, packetsOf, List.forall_mem_singleton]

theorem deliversAll_of_outputs {before after : Store}
    (houtputs : after.outputs = before.outputs) : DeliversAll broken before after := by
  intro output houtput
  rw [houtputs, List.drop_length] at houtput
  cases houtput

theorem handles_iff_of_ok {profile : Option ProfileRef}
    (hrun : (receiveProfileCmd conn message time).run server =
      (.ok profile, after)) (hadmitted : Admitted conn server after profile) :
    Handles broken server conn message time ↔
      DeliversAll broken server.store after.store := by
  constructor
  · rintro ⟨_, other, final, hother, _, hwritten⟩
    cases hrun.symm.trans hother
    exact hwritten
  · intro hwritten
    exact ⟨by rw [hrun]; exact nofun, profile, after, hrun, hadmitted, hwritten⟩

theorem receiveProfileCmd_of_other (hprofile : message.packet.cmd ≠ .profile)
    (hbackup : message.packet.cmd ≠ .setBackup) :
    receiveProfileCmd conn message time = (do
      let found ← call fun controller =>
        controller.getProfileById message.packet.sender
      let profile ← dereference found
      modify fun server => server.onStore fun store =>
        store.updateSessionsOn profile (some conn)
      return some profile) := by
  rw [receiveProfileCmd]
  split
  · next hcmd => exact absurd hcmd hbackup
  · next hcmd => exact absurd hcmd hprofile
  · rfl

theorem handles_setBackup_iff (hcmd : message.packet.cmd = .setBackup) :
    Handles broken server conn message time ↔
      ((server.electionServerList ++ [message.packet.payload]).map
        fun address => address.length + 1).sum ≤ 4071 ∧
      ∀ backup ∈ server.listBackups ++ [conn], ¬ broken backup := by
  have hrun : ∃ after,
      (receiveProfileCmd conn message time).run server = (.ok none, after) ∧
        after.listBackups = server.listBackups ++ [conn] ∧
        after.store = forward (server.listBackups ++ [conn])
          (new .backupPropagation (serverListToString
            (server.electionServerList ++ [message.packet.payload])) [] time)
          server.store := by
    simp only [receiveProfileCmd, hcmd, registerBackup]
    exact ⟨_, rfl, rfl, rfl⟩
  obtain ⟨after, hreturns, hlisted, hstore⟩ := hrun
  have hmem : conn ∈ server.listBackups ++ [conn] :=
    List.mem_append_right _ List.mem_cons_self
  rw [handles_iff_of_ok hreturns (.backup (hlisted ▸ hmem)), hstore,
    deliversAll_forward _ _ rfl, ← fits_propagation_iff _ time]
  constructor
  · exact fun hall => ⟨(hall conn hmem).2, fun backup hbackup => (hall backup hbackup).1⟩
  · exact fun hall backup hbackup => ⟨hall.2 backup hbackup, hall.1⟩

/-- A login writes nothing before it is forwarded. -/
theorem outputs_of_createProfileIfNotExists {store final : Store}
    {profileId : ByteString} {login : Option Conn} {ref : ProfileRef}
    (hcreate : store.createProfileIfNotExists profileId login time =
      (.ok ref, final)) : final.outputs = store.outputs := by
  obtain ⟨found, hfind, rfl⟩ := Store.createProfileIfNotExists_ok_iff.1 hcreate
  rcases Store.findOrCreate_ok _ hfind with ⟨_, _, rfl⟩ | ⟨_, _, hsame⟩
  · rfl
  · exact hsame.outputs

theorem handles_profile_iff (hcmd : message.packet.cmd = .profile)
    (hwritable : server.controller.writable = true) :
    Handles broken server conn message time ↔
      HasRoom server.store message.packet.payload ∧
        ∀ backup ∈ server.listBackups, Delivers broken backup message.packet := by
  rw [@hasRoom_iff _ (some conn) _ time]
  by_cases hroom : ∃ ref store, server.store.createProfileIfNotExists
      message.packet.payload (some conn) time = (.ok ref, store)
  case neg =>
    refine iff_of_false ?_ fun hholds => hroom hholds.1
    rintro ⟨_, profile, after, hrun, _⟩
    simp only [receiveProfileCmd, hcmd] at hrun
    obtain ⟨ref, _, hcall, _⟩ := (run_bind_eq_ok_iff _).1 hrun
    obtain ⟨_, store, hcreate, _⟩ := run_call_withWrite_eq_ok_iff.1 hcall
    exact hroom ⟨ref, store, hcreate⟩
  case pos =>
    rw [and_iff_right hroom]
    obtain ⟨ref, store, hcreate⟩ := hroom
    have hcall : (call fun controller =>
        controller.createProfileIfNotExists message.packet.payload (some conn)
          time).run server = (.ok ref, server.onStore fun _ => store) :=
      run_call_withWrite_eq_ok_iff.2 ⟨hwritable, store, hcreate, rfl⟩
    have hrun : (receiveProfileCmd conn message time).run server = (.ok (some ref),
        server.onStore fun _ => forward server.listBackups message.packet store) := by
      simp only [receiveProfileCmd, hcmd]
      rw [run_bind_of_ok _ hcall, run_bind_of_ok _ (run_sendToBackups _)]
      rfl
    have hgraph := forward_sameGraph server.listBackups message.packet store
    have hsessions := forward_sameSessions server.listBackups message.packet store
    have hstored := (hgraph.getProfileById message.packet.payload).trans
      (found_of_createProfileIfNotExists hcreate)
    have hsession := (hsessions.sessions ref).symm ▸
      mem_sessions_of_createProfileIfNotExists hcreate
    rw [handles_iff_of_ok hrun
      (.session ⟨message.packet.payload, hstored⟩ hsession)]
    exact deliversAll_forward _ _ (outputs_of_createProfileIfNotExists hcreate)

theorem handles_other_iff (hprofile : message.packet.cmd ≠ .profile)
    (hbackup : message.packet.cmd ≠ .setBackup)
    (hreadable : server.controller.readable = true) :
    Handles broken server conn message time ↔
      (server.store.getProfileById message.packet.sender).isSome := by
  have hcall : (call fun controller =>
      controller.getProfileById message.packet.sender).run server =
        (.ok (server.store.getProfileById message.packet.sender), server) :=
    run_call_withRead_eq_ok_iff.2 ⟨hreadable, rfl, rfl⟩
  cases hfound : server.store.getProfileById message.packet.sender with
  | none =>
      -- the null pointer is used for `updateSessionsOn`
      refine iff_of_false ?_ Bool.false_ne_true
      rintro ⟨hlives, _⟩
      rw [receiveProfileCmd_of_other hprofile hbackup, run_bind_of_ok _ hcall,
        hfound] at hlives
      exact hlives rfl
  | some ref =>
      have hrun : (receiveProfileCmd conn message time).run server =
          (.ok (some ref),
            server.onStore fun store => store.updateSessionsOn ref (some conn)) := by
        rw [receiveProfileCmd_of_other hprofile hbackup, run_bind_of_ok _ hcall,
          hfound]
        rfl
      have hsession : some conn ∈
          ((server.store.updateSessionsOn ref (some conn)).objects ref).sessions := by
        rw [Store.updateSessionsOn_objects_sessions, if_pos rfl]
        exact List.mem_append_right _ List.mem_cons_self
      rw [handles_iff_of_ok hrun
        (.session ⟨message.packet.sender, hfound⟩ hsession)]
      exact iff_of_true (deliversAll_of_outputs rfl) rfl

/-- What the call does once it has the lock. -/
theorem handles_iff {system : System} {packet : Packet}
    (hletIn : LetIn system packet) {origin : ℕ} :
    Handles broken system.server conn ⟨origin, packet⟩ time ↔
      Prepared broken system.server conn packet := by
  rw [LetIn] at hletIn
  rw [Prepared]
  split
  · next hcmd => exact handles_setBackup_iff hcmd
  · next hcmd =>
      simp only [hcmd] at hletIn
      exact handles_profile_iff hcmd hletIn
  · next hbackup hprofile =>
      split at hletIn
      · next hcmd => exact absurd hcmd hbackup
      · next hcmd => exact absurd hcmd hprofile
      · exact handles_other_iff hprofile hbackup hletIn

end Branches

/-! ## The wait -/

section Waiting

variable {system later : System} {conn : Conn} {packet : Packet}

theorem letIn_of_writable (hlock : LockInvariant system)
    (hwritable : system.controller.writable = true) : LetIn system packet := by
  rw [LetIn]
  split
  · trivial
  · exact hwritable
  · rw [readable_eq_writable hlock]
    exact hwritable

/-- Who waits, waits for a writer. -/
theorem not_writable_of_waits (hlock : LockInvariant system)
    (hwaits : ¬ LetIn system packet) : ¬ system.controller.writable = true :=
  fun hwritable => hwaits (letIn_of_writable hlock hwritable)

theorem letIn_iff_of_needsLock (hlock : LockInvariant system)
    (hneeds : packet.cmd ≠ .setBackup) :
    LetIn system packet ↔ system.controller.writable = true := by
  rw [LetIn]
  split
  · next hcmd => exact absurd hcmd hneeds
  · rfl
  · rw [readable_eq_writable hlock]

theorem needsLock_of_waits (hwaits : ¬ LetIn system packet) :
    packet.cmd ≠ .setBackup := by
  intro hcmd
  simp [LetIn, hcmd] at hwaits

/-- A packet that waits is let in some time, unless the lock is lost. -/
theorem waits_iff {server : Server} {labels : List Label} (hready : Ready server)
    (hrun : exec step (.serving server) labels = some system)
    (hup : system.down = none) (hconn : system.threads conn = .accepted)
    (hwaits : ¬ LetIn system packet) :
    (∃ later, OthersReach conn system later ∧ later.down = none ∧
      LetIn later packet) ↔ ¬ Leaked system := by
  have hlock := lockInvariant_of_run hready hrun
  constructor
  · rintro ⟨later, ⟨others, _, hothers⟩, _, hletIn⟩ hleaked
    have hlater :=
      lockInvariant_of_run hready (exec_append_iff.2 ⟨system, hrun, hothers⟩)
    exact not_writable_of_taken (hleaked.of_run hothers).taken
      ((letIn_iff_of_needsLock hlater (needsLock_of_waits hwaits)).1 hletIn)
  · intro hkept
    obtain ⟨holder, hholds⟩ : ∃ holder, HoldsLock (system.threads holder) := by
      by_contra hnobody
      exact hkept ⟨taken_of_not_writable hlock (not_writable_of_waits hlock hwaits),
        not_exists.1 hnobody⟩
    have hother : holder ≠ conn := by
      rintro rfl
      rw [hconn] at hholds
      exact hholds
    obtain ⟨others, later, hgoes, hothers, hlater, hwritable⟩ :=
      exists_release hup hlock hholds
    refine ⟨later, ⟨others, fun label hlabel => ?_, hothers⟩, hlater, ?_⟩
    · rw [(hgoes label hlabel).1]
      exact hother
    · exact letIn_of_writable (lockInvariant_of_run hready
        (exec_append_iff.2 ⟨system, hrun, hothers⟩)) hwritable

end Waiting

/-- Whatever first packet a thread has received in whatever state a server can
reach, at every moment of its wait for the lock, the one that ends it included, the
server withstands it exactly when it is one that the server expects. -/
theorem withstands_iff {broken : Conn → Prop} {server : Server}
    {labels : List Label} {arrival system : System} {conn : Conn}
    (hready : Ready server)
    (hrun : exec step (.serving server) labels = some arrival)
    (hconn : arrival.threads conn = .accepted)
    (hothers : OthersReach conn arrival system) (hup : system.down = none)
    (packet : Packet) (time : BitVec 64) :
    Withstands broken system conn packet time ↔
      Expected broken system conn packet := by
  obtain ⟨others, hapart, hothers⟩ := hothers
  have hpoint : system.threads conn = .accepted :=
    (threads_of_exec (fun label hlabel => (hapart label hlabel).symm) hothers).trans
      hconn
  have hrun := exec_append_iff.2 ⟨arrival, hrun, hothers⟩
  apply and_congr
  · exact forall_congr' fun hletIn => handles_iff hletIn
  · exact forall_congr' fun hwaits => waits_iff hready hrun hup hpoint hwaits

/-- The first client is inside the lock when the second one's `PROFILE` arrives, and
has left it when the second one is let in. -/
theorem withstands_iff_behindLogin :
    ∃ arrival system, exec step System.start
        [⟨1, 0, .receive (new .profile [97] [] 0)⟩] = some arrival ∧
      exec step arrival [⟨1, 0, .proceed⟩, ⟨1, 0, .proceed⟩] = some system ∧
      ¬ LetIn arrival (new .profile [98] [] 0) ∧
      LetIn system (new .profile [98] [] 0) ∧
      (Withstands (fun _ => False) system 2 (new .profile [98] [] 0) 0 ↔
        Expected (fun _ => False) system 2 (new .profile [98] [] 0)) := by
  have hfirst : (exec step System.start
      [⟨1, 0, .receive (new .profile [97] [] 0)⟩]).map (fun arrival =>
        (arrival.threads 2, arrival.controller.writable,
          (exec step arrival [⟨1, 0, .proceed⟩, ⟨1, 0, .proceed⟩]).map fun system =>
            (system.down, system.controller.writable))) =
      some (.accepted, false, some (none, true)) := by decide
  obtain ⟨arrival, hrun, harrival⟩ := Option.map_eq_some_iff.1 hfirst
  obtain ⟨hconn, hbusy, hlast⟩ : arrival.threads 2 = .accepted ∧
      arrival.controller.writable = false ∧ _ = some (none, true) := by
    simpa only [Prod.mk.injEq] using harrival
  obtain ⟨system, hothers, hsystem⟩ := Option.map_eq_some_iff.1 hlast
  obtain ⟨hup, hfree⟩ := Prod.mk.inj hsystem
  refine ⟨arrival, system, hrun, hothers, ?_, hfree,
    withstands_iff ready_new hrun hconn ⟨_, ?_, hothers⟩ hup _ _⟩
  · change ¬ arrival.controller.writable = true
    rw [hbusy]
    exact Bool.false_ne_true
  · decide

/-- A connection to a server that has just started is closed at once. -/
theorem zeroPacket_not_withstands :
    ¬ Withstands (fun _ => False) System.start 1 zeroPacket.packet 0 := by
  intro hwithstands
  exact (hwithstands.1 rfl).1 rfl

end TwitterLike.FirstPacket
