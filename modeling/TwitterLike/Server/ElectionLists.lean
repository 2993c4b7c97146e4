import TwitterLike.Core.Snapshots
import TwitterLike.Commons.Relaying
import TwitterLike.Server.PacketBounds
import TwitterLike.Server.Replication

/-!
# The server lists of the backups

Registrations of backups by any number of handler threads at once.  A thread
appends the connection, appends the address, builds the list and sends it to one
backup after the other, and in between other threads do the same; what a backup
has in the end is the list that it was sent last.
-/

namespace TwitterLike.ElectionLists

open TwitterLike.ByteBuffer
open TwitterLike.PacketFormat
open TwitterLike.PacketCodec
open TwitterLike.Transition
open TwitterLike.Profiles
open TwitterLike.ProfilesManager
open TwitterLike.ProfileAccessController
open TwitterLike.Handlers
open TwitterLike.Faulting
open TwitterLike.Threads
open TwitterLike.Snapshots

/-! ## Lists as texts -/

/-- An address that survives as a line. -/
def IsLine (address : ByteString) : Prop :=
  0 ∉ address ∧ 10 ∉ address

instance (address : ByteString) : Decidable (IsLine address) :=
  inferInstanceAs (Decidable (_ ∧ _))

theorem getLines_cons {address : ByteString} (hline : 10 ∉ address)
    (rest : ByteString) :
    getLines (address ++ 10 :: rest) = address :: getLines rest := by
  induction address with
  | nil => simp [getLines]
  | cons byte address ih =>
      have hbyte : byte ≠ 10 := fun heq => hline (heq ▸ List.mem_cons_self)
      have haddress : 10 ∉ address := fun hmem =>
        hline (List.mem_cons_of_mem _ hmem)
      rw [List.cons_append, getLines, if_neg hbyte, ih haddress]

/-- A list of lines is read back. -/
theorem getLines_serverListToString {addresses : List ByteString}
    (hlines : ∀ address ∈ addresses, 10 ∉ address) :
    getLines (serverListToString addresses) = addresses := by
  induction addresses with
  | nil => rfl
  | cons address addresses ih =>
      obtain ⟨hfirst, hrest⟩ := List.forall_mem_cons.1 hlines
      have hsplit : serverListToString (address :: addresses) =
          address ++ 10 :: serverListToString addresses := by
        simp [serverListToString]
      rw [hsplit, getLines_cons hfirst, ih hrest]

/-- `std::getline` on what is left of the stream: the line and what is left
behind it, if there is anything to extract. -/
def getline : ByteString → Option (ByteString × ByteString)
  | [] => none
  | byte :: rest =>
      some ((byte :: rest).takeWhile (· ≠ 10),
        ((byte :: rest).dropWhile (· ≠ 10)).tail)

/-- `getLines` calls `getline` until it fails. -/
theorem getLines_eq_getline (text : ByteString) :
    getLines text = match getline text with
      | none => []
      | some (line, rest) => line :: getLines rest := by
  induction text with
  | nil => rfl
  | cons byte rest ih =>
      by_cases hbyte : byte = 10
      · simp [getLines, getline, hbyte]
      · rw [getLines, if_neg hbyte, ih]
        cases rest with
        | nil => simp [getline, getLines, hbyte]
        | cons other rest => simp [getline, hbyte]

theorem length_dropWhile_tail (byte : Byte) (rest : ByteString) :
    ((byte :: rest).dropWhile (· ≠ 10)).tail.length ≤ rest.length := by
  have hdrop := (List.dropWhile_suffix (· ≠ 10) (l := byte :: rest)).length_le
  rw [List.length_tail]
  rw [List.length_cons] at hdrop
  omega

/-- A line ends before the next newline. -/
theorem newline_notMem_of_getLines {text line : ByteString}
    (hline : line ∈ getLines text) : 10 ∉ line := by
  induction hlength : text.length using Nat.strong_induction_on
    generalizing text with
  | _ length ih =>
      rw [getLines_eq_getline] at hline
      cases text with
      | nil => cases hline
      | cons byte rest =>
          rcases List.mem_cons.1 hline with rfl | hlater
          · intro hnewline
            simpa using List.mem_takeWhile_imp hnewline
          · refine ih _ ?_ hlater rfl
            rw [← hlength, List.length_cons]
            exact Nat.lt_succ_of_le (length_dropWhile_tail byte rest)

/-- The branch of `BACKUP_PROPAGATION` restores a list of addresses exactly when
none of them contains a newline. -/
theorem electionServerList_propagated_iff (server : Server) (conn : Option Conn)
    (profile : Option ProfileRef) (origin : ℕ) (stamp time : BitVec 64)
    (addresses : List ByteString) :
    ((processPacket conn profile ⟨origin, new .backupPropagation
        (serverListToString addresses) [] stamp⟩ time).run
          server).2.electionServerList = addresses ↔
      ∀ address ∈ addresses, 10 ∉ address := by
  change getLines (serverListToString addresses) = addresses ↔ _
  constructor
  · intro hrestored address haddress
    rw [← hrestored] at haddress
    exact newline_notMem_of_getLines haddress
  · exact getLines_serverListToString

/-- Empty and repeated addresses are restored, and nothing is read from the text
of the empty list. -/
example : getLines (serverListToString [[], [97], [], [97]]) =
    [[], [97], [], [97]] ∧ getLines (serverListToString []) = [] := by
  decide

/-! ## Announcements -/

/-- The packet is written to the connection and announces a list.  A loop over
sessions passes on texts of clients. -/
def announcement (conn : Conn) : Output → Option Packet
  | .single other packet =>
      if other = conn ∧ packet.cmd = .backupPropagation then some packet else none
  | .pass _ _ => none

/-- The lists announced on the connection so far. -/
def announcedTo (conn : Conn) (store : Store) : List Packet :=
  store.outputs.filterMap (announcement conn)

/-- What the thread of a connection has to do with announcements. -/
def stageOf : Point → Stage ByteString
  | .joining address => .joining address
  | .propagating => .announcing
  | .forwarding packet index _ =>
      if packet.cmd = .backupPropagation then
        .sending (getLines packet.payload) index
      else .idle
  | _ => .idle

/-- The server as a log of addresses and the backups that are to know it. -/
def board (system : System) : Board Conn Conn ByteString where
  log := system.server.electionServerList
  members := system.server.listBackups
  stage conn := stageOf (system.threads conn)
  sent conn := (announcedTo conn system.store).map fun packet =>
    getLines packet.payload

/-! ## Runs -/

/-- What the thread receives has been decoded, the address of a backup is one
line, and nobody sends the primary a list. -/
def Registers (label : Label) : Prop :=
  match label.action with
  | .receive packet =>
      Decodable packet ∧ packet.cmd ≠ .backupPropagation ∧
        (packet.cmd = .setBackup → 10 ∉ packet.payload)
  | .proceed => True

/-- The thread is not about to send a backup fewer addresses than the backup was
sent last. -/
def SendsInOrder (system : System) (label : Label) : Prop :=
  InOrder (board system) label.conn

instance (system : System) (label : Label) : Decidable (SendsInOrder system label) :=
  inferInstanceAs (Decidable (Stage.InOrder _ _))

/-- A server that no backup has joined yet. -/
structure Starting (server : Server) : Prop where
  noBackups : server.listBackups = []
  lines : ∀ address ∈ server.electionServerList, IsLine address
  silent : ∀ conn, announcedTo conn server.store = []

theorem starting_new : Starting Server.new where
  noBackups := rfl
  lines _ haddress := by cases haddress
  silent _ := rfl

/-- No thread is on its way to announce a list. -/
def Settled (system : System) : Prop :=
  ∀ conn, stageOf (system.threads conn) = .idle

/-- The list fits one packet. -/
def ListFits (system : System) : Prop :=
  Fits (new .backupPropagation
    (serverListToString system.server.electionServerList) [] 0)

instance (system : System) : Decidable (ListFits system) :=
  inferInstanceAs (Decidable (Fits _))

/-! ## Backups -/

/-- `receiveAlive` of a backup on the announcements, one after the other; it has
no result where one of them cannot be encoded, decoded or processed. -/
def absorb (freeStore : FreeStore) (backup : Server) : List Packet → Option Server
  | [] => some backup
  | packet :: packets => do
      let buffer ← toBytes packet
      let received ← (fromBytes freeStore buffer).outcome.toOption
      let after ← Replication.relay backup ⟨⟨0, received⟩, 0⟩
      absorb freeStore after packets

/-- Whatever the backups were before, once they have processed all announcements
they have the list of the primary. -/
def ListsAgree (system : System) : Prop :=
  ∀ conn ∈ system.server.listBackups, ∀ (freeStore : FreeStore) (backup : Server),
    Commands.Idle backup →
      ∃ after,
        absorb freeStore backup (announcedTo conn system.store) = some after ∧
          after.electionServerList = system.server.electionServerList

/-! ## What a step does about announcements -/

/-- The packet announces a part of the list from its beginning on. -/
structure IsSnapshot (addresses : List ByteString) (packet : Packet) : Prop where
  cmd : packet.cmd = .backupPropagation
  sender : packet.sender = []
  payload : ∃ snapshot, snapshot <+: addresses ∧
    packet.payload = serverListToString snapshot

def TidyPoint (addresses : List ByteString) : Point → Prop
  | .joining address => IsLine address
  | .registering _ packet _ => packet.cmd = .profile
  | .sending _ message _ => message.packet.cmd = .send
  | .forwarding packet _ _ =>
      packet.cmd = .backupPropagation → IsSnapshot addresses packet
  | _ => True

/-- Only parts of the list have been announced or are about to be. -/
structure Tidy (system : System) : Prop where
  lines : ∀ address ∈ system.server.electionServerList, IsLine address
  points : ∀ conn,
    TidyPoint system.server.electionServerList (system.threads conn)
  announced : ∀ conn, ∀ packet ∈ announcedTo conn system.store,
    IsSnapshot system.server.electionServerList packet

/-- The lists and the announcements after a step of the thread of `conn`, which
takes it to `point`. -/
structure Changed (system next : System) (conn : Conn) (point : Point)
    (addresses : List ByteString) (backups : List Conn) : Prop where
  addresses : next.server.electionServerList = addresses
  backups : next.server.listBackups = backups
  threads : next.threads = Function.update system.threads conn point

inductive Effect (system next : System) (conn : Conn) : Prop where
  | quiet {point : Point}
      (hchanged : Changed system next conn point
        system.server.electionServerList system.server.listBackups)
      (hidle : stageOf (system.threads conn) = .idle)
      (hpoint : stageOf point = .idle)
      (htidy : TidyPoint system.server.electionServerList point)
      (hsent : ∀ other, announcedTo other next.store =
        announcedTo other system.store)
  | joined {address : ByteString}
      (hidle : stageOf (system.threads conn) = .idle) (hline : IsLine address)
      (hsent : next.store = system.store)
      (hchanged : Changed system next conn (.joining address)
        system.server.electionServerList (system.server.listBackups ++ [conn]))
  | pushed {address : ByteString}
      (hpoint : system.threads conn = .joining address)
      (hsent : next.store = system.store)
      (hchanged : Changed system next conn .propagating
        (system.server.electionServerList ++ [address])
        system.server.listBackups)
  | taken {time : BitVec 64} (hpoint : system.threads conn = .propagating)
      (hsent : next.store = system.store)
      (hchanged : Changed system next conn
        (.forwarding (new .backupPropagation
          (serverListToString system.server.electionServerList) [] time) 0
          .leave)
        system.server.electionServerList system.server.listBackups)
  | sent {packet : Packet} {index : ℕ} {continuation : Next} {backup : Conn}
      (hcmd : packet.cmd = .backupPropagation)
      (hpoint : system.threads conn = .forwarding packet index continuation)
      (hbackup : system.server.listBackups[index]? = some backup)
      (hsent : next.store = system.store.sendPacket backup packet)
      (hchanged : Changed system next conn
        (.forwarding packet (index + 1) continuation)
        system.server.electionServerList system.server.listBackups)
  | finished {packet : Packet} {index : ℕ} {continuation : Next}
      (hcmd : packet.cmd = .backupPropagation)
      (hpoint : system.threads conn = .forwarding packet index continuation)
      (hlast : system.server.listBackups[index]? = none)
      (hsent : next.store = system.store)
      (hchanged : Changed system next conn continuation.point
        system.server.electionServerList system.server.listBackups)

section Announced

variable {store after : Store}

theorem announcedTo_of_outputs (conn : Conn)
    (houtputs : after.outputs = store.outputs) :
    announcedTo conn after = announcedTo conn store := by
  rw [announcedTo, houtputs, announcedTo]

theorem announcedTo_sendPacket (conn other : Conn) (packet : Packet) :
    announcedTo conn (store.sendPacket other packet) =
      announcedTo conn store ++
        if other = conn ∧ packet.cmd = .backupPropagation then [packet]
        else [] := by
  rw [announcedTo, Store.sendPacket, List.filterMap_append, announcedTo]
  congr 1
  by_cases hmeant : other = conn ∧ packet.cmd = .backupPropagation
  · simp [announcement, hmeant]
  · simp [announcement, hmeant]

/-- Any other packet announces nothing. -/
theorem announcedTo_sendPacket_of_ne (conn other : Conn) {packet : Packet}
    (hcmd : packet.cmd ≠ .backupPropagation) :
    announcedTo conn (store.sendPacket other packet) =
      announcedTo conn store := by
  rw [announcedTo_sendPacket, if_neg (fun hmeant => hcmd hmeant.2),
    List.append_nil]

theorem announcedTo_sendPasses (conn : Conn) (ref : ProfileRef)
    (passes : List Pass) :
    announcedTo conn (store.sendPasses ref passes) = announcedTo conn store := by
  have hnone : (passes.map (Output.pass ref)).filterMap (announcement conn) =
      [] := by
    simp [List.filterMap_eq_nil_iff, announcement]
  rw [announcedTo, Store.sendPasses_outputs, List.filterMap_append, hnone,
    List.append_nil, announcedTo]

theorem announcedTo_findOrCreate (conn other : Conn) {profileId : ByteString}
    {time : BitVec 64} {result : Except Exit ProfileRef}
    (hfind : store.findOrCreate profileId (some other) time = (result, after)) :
    announcedTo conn after = announcedTo conn store := by
  cases result with
  | ok profile =>
      rcases Store.findOrCreate_ok _ hfind with ⟨_, _, rfl⟩ | ⟨_, _, hsame⟩
      · rfl
      · exact announcedTo_of_outputs conn hsame.outputs
  | error exit =>
      rcases Store.findOrCreate_error _ hfind with ⟨_, _, rfl⟩ | ⟨_, _, hsame⟩
      · exact announcedTo_sendPacket_of_ne conn other nofun
      · exact announcedTo_of_outputs conn hsame.outputs

end Announced

section Effects

variable {system next : System} {conn : Conn} {time : BitVec 64}
  {action : Action}

theorem stageOf_forwarding {packet : Packet}
    (hcmd : packet.cmd ≠ .backupPropagation) (index : ℕ) (continuation : Next) :
    stageOf (.forwarding packet index continuation) = .idle :=
  if_neg hcmd

theorem stageOf_propagation {packet : Packet}
    (hcmd : packet.cmd = .backupPropagation) (index : ℕ) (continuation : Next) :
    stageOf (.forwarding packet index continuation) =
      .sending (getLines packet.payload) index :=
  if_pos hcmd

theorem stageOf_next (continuation : Next) :
    stageOf continuation.point = .idle := by
  cases continuation <;> rfl

theorem stageOf_of_enters {point : Point} {continuation : ProfileRef → Next}
    (henter : Enters point continuation) : stageOf point = .idle := by
  cases henter <;> rfl

theorem tidyPoint_forwarding {addresses : List ByteString} {packet : Packet}
    (hcmd : packet.cmd ≠ .backupPropagation) (index : ℕ) (continuation : Next) :
    TidyPoint addresses (.forwarding packet index continuation) :=
  fun hpropagation => absurd hpropagation hcmd

theorem tidyPoint_next (addresses : List ByteString) (continuation : Next) :
    TidyPoint addresses continuation.point := by
  cases continuation <;> trivial

/-- A thread that stays where it is. -/
theorem Effect.stay (hidle : stageOf (system.threads conn) = .idle)
    (htidy : Tidy system)
    (hsent : ∀ other, announcedTo other next.store =
      announcedTo other system.store)
    (haddresses : next.server.electionServerList =
      system.server.electionServerList)
    (hbackups : next.server.listBackups = system.server.listBackups)
    (hthreads : next.threads = system.threads) : Effect system next conn :=
  .quiet ⟨haddresses, hbackups, by rw [hthreads, Function.update_eq_self]⟩
    hidle hidle (htidy.points conn) hsent

/-- A thread that goes on to forward a packet that announces nothing. -/
theorem Effect.forward {packet : Packet} {index : ℕ} {continuation : Next}
    (hcmd : packet.cmd ≠ .backupPropagation)
    (hidle : stageOf (system.threads conn) = .idle)
    (hchanged : Changed system next conn (.forwarding packet index continuation)
      system.server.electionServerList system.server.listBackups)
    (hsent : ∀ other, announcedTo other next.store =
      announcedTo other system.store) : Effect system next conn :=
  .quiet hchanged hidle (stageOf_forwarding hcmd index continuation)
    (tidyPoint_forwarding hcmd index continuation) hsent

theorem effect_of_transition (htidy : Tidy system)
    (hregisters : Registers ⟨conn, time, action⟩)
    (htransition : Transition system conn time action next) :
    Effect system next conn := by
  have hpointTidy := htidy.points conn
  cases htransition with
  | found henter hcmd hwritable hfind =>
      exact .quiet ⟨rfl, rfl, rfl⟩ (stageOf_of_enters henter) rfl hcmd
        (fun other => announcedTo_findOrCreate other conn hfind)
  | refused henter hcmd hwritable hfind =>
      exact .quiet ⟨rfl, rfl, rfl⟩ (stageOf_of_enters henter) rfl trivial
        (fun other => announcedTo_findOrCreate other conn hfind)
  | findFailed henter hcmd hwritable hfind hexit =>
      exact .stay (stageOf_of_enters henter) htidy
        (fun other => announcedTo_findOrCreate other conn hfind) rfl rfl rfl
  | joined hpoint hcmd =>
      obtain ⟨hdecodable, _, hline⟩ := hregisters
      have hnul := ((decodable_iff _).1 hdecodable).2.1
      exact .joined (congrArg stageOf hpoint) ⟨hnul, hline hcmd⟩ rfl ⟨rfl, rfl, rfl⟩
  | senderFound hpoint hprofile hbackup hfound =>
      exact .quiet ⟨rfl, rfl, rfl⟩ (congrArg stageOf hpoint) rfl trivial (fun _ => rfl)
  | senderUnknown hpoint hprofile hbackup hunknown =>
      exact .stay (congrArg stageOf hpoint) htidy (fun _ => rfl) rfl rfl rfl
  | reconnected hpoint =>
      exact .quiet ⟨rfl, rfl, rfl⟩ (congrArg stageOf hpoint) rfl trivial (fun _ => rfl)
  | addressPushed hpoint => exact .pushed hpoint rfl ⟨rfl, rfl, rfl⟩
  | propagated hpoint => exact .taken hpoint rfl ⟨rfl, rfl, rfl⟩
  | @registered profile packet continuation hpoint =>
      rw [hpoint] at hpointTidy
      have hcmd : packet.cmd ≠ .backupPropagation := by
        rw [show packet.cmd = .profile from hpointTidy]
        exact nofun
      exact .forward hcmd (congrArg stageOf hpoint) ⟨rfl, rfl, rfl⟩ fun _ => rfl
  | @forwarded packet index continuation backup hpoint hbackup =>
      by_cases hcmd : packet.cmd = .backupPropagation
      · exact .sent hcmd hpoint hbackup rfl ⟨rfl, rfl, rfl⟩
      · exact .forward hcmd (by rw [hpoint, stageOf_forwarding hcmd])
          ⟨rfl, rfl, rfl⟩
          fun other => announcedTo_sendPacket_of_ne other backup hcmd
  | @forwardDone packet index continuation hpoint hlast =>
      by_cases hcmd : packet.cmd = .backupPropagation
      · exact .finished hcmd hpoint hlast rfl ⟨rfl, rfl, rfl⟩
      · exact .quiet ⟨rfl, rfl, rfl⟩ (by rw [hpoint, stageOf_forwarding hcmd])
          (stageOf_next continuation) (tidyPoint_next _ continuation)
          (fun _ => rfl)
  | greeted hpoint =>
      exact .quiet ⟨rfl, rfl, rfl⟩ (congrArg stageOf hpoint) rfl trivial
        (fun other => announcedTo_sendPacket_of_ne other conn nofun)
  | fetched hpoint hfetch =>
      exact .quiet ⟨rfl, rfl, rfl⟩ (congrArg stageOf hpoint) rfl trivial
        (fun other => announcedTo_sendPasses other _ _)
  | fetchFailed hpoint hfetch =>
      exact .stay (congrArg stageOf hpoint) htidy
        (fun other => announcedTo_sendPasses other _ _) rfl rfl rfl
  | @followed packet profile store hpoint hcmd hwritable hfollow =>
      have houtputs := system.store.addFollowerTo_outputs packet.payload profile
      rw [hfollow] at houtputs
      have hother : packet.cmd ≠ .backupPropagation := by rw [hcmd]; exact nofun
      exact .forward hother (congrArg stageOf hpoint) ⟨rfl, rfl, rfl⟩
        fun other => announcedTo_of_outputs other houtputs
  | @followFailed packet profile store exit hpoint hcmd hwritable hfollow =>
      have houtputs := system.store.addFollowerTo_outputs packet.payload profile
      rw [hfollow] at houtputs
      exact .stay (congrArg stageOf hpoint) htidy
        (fun other => announcedTo_of_outputs other houtputs) rfl rfl rfl
  | sendBegun hpoint hcmd hwritable =>
      exact .quiet ⟨rfl, rfl, rfl⟩ (congrArg stageOf hpoint) rfl hcmd (fun _ => rfl)
  | sent hpoint hfollower =>
      rw [hpoint] at hpointTidy
      exact .quiet ⟨rfl, rfl, rfl⟩ (congrArg stageOf hpoint) rfl hpointTidy
        (fun other => announcedTo_sendPasses other _ _)
  | @sendDone profile message index hpoint hlast =>
      rw [hpoint] at hpointTidy
      have hcmd : message.packet.cmd ≠ .backupPropagation := by
        rw [show message.packet.cmd = .send from hpointTidy]
        exact nofun
      exact .forward hcmd (congrArg stageOf hpoint) ⟨rfl, rfl, rfl⟩ fun _ => rfl
  | @left packet profile hpoint hcmd =>
      have hother : packet.cmd ≠ .backupPropagation := by rw [hcmd]; exact nofun
      exact .forward hother (congrArg stageOf hpoint) ⟨rfl, rfl, rfl⟩ fun _ => rfl
  | listReplaced hpoint hcmd => exact absurd hcmd hregisters.2.1
  | ignored hpoint hcmd =>
      exact .stay (congrArg stageOf hpoint) htidy (fun _ => rfl) rfl rfl rfl
  | loopLeft hpoint hclosed =>
      exact .quiet ⟨rfl, rfl, rfl⟩ (congrArg stageOf hpoint) rfl trivial (fun _ => rfl)
  | closed hpoint =>
      exact .quiet ⟨rfl, rfl, rfl⟩ (congrArg stageOf hpoint) rfl trivial (fun _ => rfl)

end Effects

/-! ## What a step keeps -/

section Steps

variable {system next : System} {conn : Conn} {point : Point}
  {addresses later : List ByteString} {backups : List Conn} {packet : Packet}

theorem IsSnapshot.mono (hsnapshot : IsSnapshot addresses packet)
    (hgrows : addresses <+: later) : IsSnapshot later packet where
  cmd := hsnapshot.cmd
  sender := hsnapshot.sender
  payload := by
    obtain ⟨snapshot, hpart, hpayload⟩ := hsnapshot.payload
    exact ⟨snapshot, hpart.trans hgrows, hpayload⟩

theorem TidyPoint.mono (htidy : TidyPoint addresses point)
    (hgrows : addresses <+: later) : TidyPoint later point := by
  cases point with
  | forwarding packet index continuation =>
      exact fun hcmd => (htidy hcmd).mono hgrows
  | _ => exact htidy

theorem Tidy.change (htidy : Tidy system)
    (hchanged : Changed system next conn point addresses backups)
    (hgrows : system.server.electionServerList <+: addresses)
    (hlines : ∀ address ∈ addresses, IsLine address)
    (hpoint : TidyPoint addresses point)
    (hannounced : ∀ other, ∀ packet ∈ announcedTo other next.store,
      packet ∈ announcedTo other system.store ∨ IsSnapshot addresses packet) :
    Tidy next := by
  obtain ⟨hnext, _, hthreads⟩ := hchanged
  subst hnext
  constructor
  case lines => exact hlines
  case points =>
    intro other
    rw [hthreads]
    by_cases heq : other = conn
    · subst heq
      rwa [Function.update_self]
    · rw [Function.update_of_ne heq]
      exact (htidy.points other).mono hgrows
  case announced =>
    intro other packet hpacket
    rcases hannounced other packet hpacket with hold | hnew
    · exact (htidy.announced other packet hold).mono hgrows
    · exact hnew

theorem Tidy.effect (htidy : Tidy system) (heffect : Effect system next conn) :
    Tidy next := by
  have hpoint := htidy.points conn
  cases heffect with
  | quiet hchanged hidle hstage htidyPoint hsent =>
      refine htidy.change hchanged List.prefix_rfl htidy.lines htidyPoint ?_
      exact fun other packet hpacket => .inl (hsent other ▸ hpacket)
  | joined hidle hline hsent hchanged =>
      refine htidy.change hchanged List.prefix_rfl htidy.lines hline ?_
      exact fun other packet hpacket => .inl (hsent ▸ hpacket)
  | pushed hjoining hsent hchanged =>
      rw [hjoining] at hpoint
      refine htidy.change hchanged (List.prefix_append _ _) ?_ trivial ?_
      · exact List.forall_mem_append.2
          ⟨htidy.lines, List.forall_mem_singleton.2 hpoint⟩
      · exact fun other packet hpacket => .inl (hsent ▸ hpacket)
  | taken hpropagating hsent hchanged =>
      refine htidy.change hchanged List.prefix_rfl htidy.lines ?_ ?_
      · exact fun _ => ⟨rfl, rfl, _, List.prefix_rfl, rfl⟩
      · exact fun other packet hpacket => .inl (hsent ▸ hpacket)
  | @sent packet index continuation backup hcmd hforwarding hbackup hsent hchanged =>
      rw [hforwarding] at hpoint
      refine htidy.change hchanged List.prefix_rfl htidy.lines hpoint ?_
      intro other announced hannounced
      rw [hsent, announcedTo_sendPacket, List.mem_append] at hannounced
      refine hannounced.imp_right fun hnew => ?_
      split at hnew
      · rw [List.mem_singleton.1 hnew]
        exact hpoint hcmd
      · cases hnew
  | finished hcmd hforwarding hlast hsent hchanged =>
      refine htidy.change hchanged List.prefix_rfl htidy.lines
        (tidyPoint_next _ _) ?_
      exact fun other packet hpacket => .inl (hsent ▸ hpacket)

/-- The board behind a step of the thread. -/
theorem board_eq (hchanged : Changed system next conn point addresses backups)
    {sent : Conn → List (List ByteString)}
    (hsent : ∀ other, (announcedTo other next.store).map
      (fun packet => getLines packet.payload) = sent other) :
    board next =
      { log := addresses
        members := backups
        stage := Function.update (board system).stage conn (stageOf point)
        sent := sent } := by
  have hstage : (board next).stage =
      Function.update (board system).stage conn (stageOf point) := by
    change stageOf ∘ next.threads = _
    rw [hchanged.threads, Function.comp_update]
    rfl
  rw [board, hchanged.addresses, hchanged.backups, ← hstage, ← funext hsent]
  rfl

/-- A step leaves the board alone or makes a move on it. -/
theorem board_of_effect (htidy : Tidy system)
    (heffect : Effect system next conn) :
    board next = board system ∨ Move (board system) conn (board next) := by
  cases heffect with
  | @quiet point hchanged hidle hstage htidyPoint hsent =>
      left
      rw [board_eq hchanged fun other => by rw [hsent other], hstage, ← hidle]
      exact congrArg (fun stage => { board system with stage := stage })
        (Function.update_eq_self conn (board system).stage)
  | joined hidle hline hsent hchanged =>
      right
      rw [board_eq hchanged fun other => by rw [hsent]]
      exact .joined hidle
  | pushed hjoining hsent hchanged =>
      right
      rw [board_eq hchanged fun other => by rw [hsent]]
      exact .logged (congrArg stageOf hjoining)
  | @taken time hpropagating hsent hchanged =>
      right
      have hlines := getLines_serverListToString fun address hmem =>
        (htidy.lines address hmem).2
      have hstage := stageOf_propagation
        (rfl : (new .backupPropagation (serverListToString
          system.server.electionServerList) [] time).cmd = _) 0 .leave
      rw [board_eq hchanged fun other => by rw [hsent], hstage, new, hlines]
      exact .taken (congrArg stageOf hpropagating)
  | @sent packet index continuation backup hcmd hforwarding hbackup hsent hchanged =>
      right
      have hstage : (board system).stage conn =
          .sending (getLines packet.payload) index :=
        (congrArg stageOf hforwarding).trans
          (stageOf_propagation hcmd index continuation)
      have hdelivered (other : Conn) :
          (announcedTo other next.store).map (fun packet => getLines packet.payload) =
            ((board system).deliver backup (getLines packet.payload)).sent other := by
        rw [hsent, announcedTo_sendPacket, List.map_append]
        by_cases heq : other = backup
        · subst heq
          rw [if_pos ⟨rfl, hcmd⟩, deliver_sent_self]
          rfl
        · rw [if_neg (fun hmeant => heq hmeant.1.symm), deliver_sent_of_ne heq,
            List.map_nil, List.append_nil]
          rfl
      rw [board_eq hchanged hdelivered, stageOf_propagation hcmd]
      exact .sent hstage hbackup
  | @finished packet index continuation hcmd hforwarding hlast hsent hchanged =>
      right
      have hstage : (board system).stage conn =
          .sending (getLines packet.payload) index :=
        (congrArg stageOf hforwarding).trans
          (stageOf_propagation hcmd index continuation)
      rw [board_eq hchanged fun other => by rw [hsent], stageOf_next]
      exact .finished hstage hlast

end Steps

/-! ## What a backup takes over -/

section Absorbing

variable {freeStore : FreeStore} {backup after : Server} {packet : Packet}
  {packets : List Packet} {addresses : List ByteString}

theorem length_serverListToString_of_prefix {snapshot : List ByteString}
    (hpart : snapshot <+: addresses) :
    (serverListToString snapshot).length ≤ (serverListToString addresses).length := by
  obtain ⟨rest, rfl⟩ := hpart
  simp [serverListToString]

/-- What announces a part of a list that fits is carried. -/
theorem IsSnapshot.exists_carries (hsnapshot : IsSnapshot addresses packet)
    (hlines : ∀ address ∈ addresses, IsLine address)
    (hfits : Fits (new .backupPropagation (serverListToString addresses) [] 0)) :
    ∃ encoded, toBytes packet = some encoded ∧ Relaying.Carries encoded packet := by
  obtain ⟨snapshot, hpart, hpayload⟩ := hsnapshot.payload
  have hnul : 0 ∉ packet.payload := by
    rw [hpayload]
    intro hzero
    obtain ⟨address, haddress, hbyte⟩ := List.mem_flatMap.1 hzero
    rcases List.mem_append.1 hbyte with hinside | hnewline
    · exact (hlines address (hpart.subset haddress)).1 hinside
    · cases List.mem_singleton.1 hnewline
  have hsender : 0 ∉ packet.sender := by
    rw [hsnapshot.sender]
    exact List.not_mem_nil
  apply Relaying.exists_carries _ ⟨hnul, hsender⟩
  rw [fits_new_iff] at hfits
  have hlength := length_serverListToString_of_prefix hpart
  change 25 + packet.payload.length + packet.sender.length ≤ 4096
  rw [hpayload, hsnapshot.sender]
  simp only [List.length_nil] at hfits ⊢
  omega

theorem absorb_cons (hidle : Commands.Idle backup)
    (hcmd : packet.cmd = .backupPropagation) {encoded : MessageBuffer}
    (hencoded : toBytes packet = some encoded)
    (hcarries : Relaying.Carries encoded packet) :
    absorb freeStore backup (packet :: packets) =
      absorb freeStore
        { backup with electionServerList := getLines packet.payload } packets := by
  have hreceived : (fromBytes freeStore encoded).outcome.toOption =
      some packet := by
    rw [(hcarries freeStore).2]
    rfl
  have hrelay := @Replication.relay_backupPropagation backup ⟨⟨0, packet⟩, 0⟩
    hidle hcmd
  simp only [absorb, hencoded, hreceived, hrelay, Option.bind_eq_bind,
    Option.bind_some]

/-- A backup ends with the list that was announced last. -/
theorem exists_absorb (hidle : Commands.Idle backup)
    (hlines : ∀ address ∈ addresses, IsLine address)
    (hfits : Fits (new .backupPropagation (serverListToString addresses) [] 0))
    (hsnapshots : ∀ packet ∈ packets, IsSnapshot addresses packet) :
    ∃ after, absorb freeStore backup packets = some after ∧
      after.electionServerList =
        ((packets.map fun packet => getLines packet.payload).getLast?).getD
          backup.electionServerList := by
  induction packets generalizing backup with
  | nil => exact ⟨backup, rfl, rfl⟩
  | cons packet packets ih =>
      obtain ⟨hfirst, hrest⟩ := List.forall_mem_cons.1 hsnapshots
      obtain ⟨encoded, hencoded, hcarries⟩ := hfirst.exists_carries hlines hfits
      obtain ⟨after, hafter, hlist⟩ := @ih
        { backup with electionServerList := getLines packet.payload } hidle hrest
      rw [absorb_cons hidle hfirst.cmd hencoded hcarries]
      refine ⟨after, hafter, hlist.trans ?_⟩
      rw [List.map_cons, List.getLast?_cons, Option.getD_some]

end Absorbing

/-! ## Runs of registrations -/

section Runs

variable {server : Server} {system next final : System} {label : Label}
  {labels : List Label}

/-- Every backup has been sent the list, or a thread is on its way to it. -/
structure Announced (system : System) : Prop where
  tidy : Tidy system
  current : Current (board system)

theorem announced_of_starting (hstarting : Starting server) :
    Announced (System.serving server) where
  tidy :=
    { lines := hstarting.lines
      points := fun _ => trivial
      announced := by
        intro conn packet hpacket
        have hsilent : announcedTo conn (System.serving server).store = [] :=
          hstarting.silent conn
        rw [hsilent] at hpacket
        cases hpacket }
  current :=
    { pending := nofun
      covered := by
        intro index conn hconn
        have hnone : (board (System.serving server)).members = [] :=
          hstarting.noBackups
        rw [hnone] at hconn
        cases hconn }

theorem effect_of_step (htidy : Tidy system) (hregisters : Registers label)
    (hstep : step system label = some next) : Effect system next label.conn :=
  effect_of_transition htidy hregisters (transition_of_step hstep).2

theorem tidy_exec (htidy : Tidy system)
    (hregisters : ∀ label ∈ labels, Registers label)
    (hrun : exec step system labels = some final) : Tidy final := by
  refine exec_invariant ?_ htidy (along_of_forall hregisters system) hrun
  intro before label next hbefore hlabel hstep
  exact hbefore.effect (effect_of_step hbefore hlabel hstep)

theorem announced_step (hannounced : Announced system)
    (hregisters : Registers label) (horder : SendsInOrder system label)
    (hstep : step system label = some next) : Announced next := by
  have heffect := effect_of_step hannounced.tidy hregisters hstep
  refine ⟨hannounced.tidy.effect heffect, ?_⟩
  rcases board_of_effect hannounced.tidy heffect with hsame | hmove
  · rw [hsame]
    exact hannounced.current
  · exact hannounced.current.move horder hmove

theorem announced_exec (hannounced : Announced system)
    (hregisters : ∀ label ∈ labels, Registers label)
    (horder : Along step SendsInOrder system labels)
    (hrun : exec step system labels = some final) : Announced final := by
  have halong := (along_of_forall hregisters system).and horder
  refine exec_invariant ?_ hannounced halong hrun
  intro before label next hbefore hallowed hstep
  exact announced_step hbefore hallowed.1 hallowed.2 hstep

/-- The backups end with the list of the primary exactly when every backup was
sent the whole list last. -/
theorem listsAgree_iff (htidy : Tidy system) (hfits : ListFits system) :
    ListsAgree system ↔ ∀ conn ∈ system.server.listBackups,
      ((board system).sent conn).getLast? =
        some system.server.electionServerList := by
  constructor
  · intro hagree conn hconn
    -- a backup that starts with another list takes one over
    obtain ⟨after, hafter, hlist⟩ := hagree conn hconn
      ⟨fun _ => true, fun _ _ => rfl⟩
      { Server.new with
        electionServerList := [] :: system.server.electionServerList } ⟨rfl, rfl⟩
    obtain ⟨other, hother, hlast⟩ := exists_absorb
      (⟨rfl, rfl⟩ : Commands.Idle { Server.new with
        electionServerList := [] :: system.server.electionServerList })
      htidy.lines hfits (htidy.announced conn)
    cases hafter.symm.trans hother
    rw [hlist] at hlast
    change ((announcedTo conn system.store).map fun packet =>
      getLines packet.payload).getLast? = _
    cases hsent : ((announcedTo conn system.store).map fun packet =>
      getLines packet.payload).getLast? with
    | none =>
        rw [hsent] at hlast
        exact absurd hlast.symm (List.cons_ne_self _ _)
    | some snapshot =>
        rw [hsent] at hlast
        exact congrArg some hlast.symm
  · intro hsent conn hconn freeStore backup hidle
    obtain ⟨after, hafter, hlist⟩ := @exists_absorb freeStore backup _ _ hidle
      htidy.lines hfits (htidy.announced conn)
    have hlast : ((announcedTo conn system.store).map fun packet =>
        getLines packet.payload).getLast? =
          some system.server.electionServerList := hsent conn hconn
    rw [hlast, Option.getD_some] at hlist
    exact ⟨after, hafter, hlist⟩

theorem Announced.listsAgree (hannounced : Announced system)
    (hsettled : Settled system) (hfits : ListFits system) : ListsAgree system :=
  (listsAgree_iff hannounced.tidy hfits).2 fun _ hconn =>
    hannounced.current.last_eq_log hsettled hconn

theorem settled_of_exec (hrun : exec step (System.serving server) labels = some final)
    (hidle : ∀ label ∈ labels, stageOf (final.threads label.conn) = .idle) :
    Settled final := by
  intro conn
  by_cases htakes : ∃ label ∈ labels, label.conn = conn
  · obtain ⟨label, hlabel, rfl⟩ := htakes
    exact hidle label hlabel
  · have hother : ∀ label ∈ labels, conn ≠ label.conn :=
      fun label hlabel heq => htakes ⟨label, hlabel, heq.symm⟩
    rw [threads_of_exec hother hrun]
    rfl

theorem registers_setBackup {address : ByteString} (hlength : address.length ≤ 4071)
    (hline : IsLine address) (conn : Conn) (time : BitVec 64) :
    Registers ⟨conn, time, .receive (new .setBackup address [] time)⟩ :=
  ⟨(decodable_iff _).2 ⟨(fits_new_iff ..).2 hlength, hline.1, List.not_mem_nil⟩,
    nofun, fun _ => hline.2⟩

/-- Whatever the interleaving, when no step sends a backup fewer addresses than
it was sent last, all backups end with the list of the primary. -/
theorem listsAgree_of_run (hstarting : Starting server)
    (hregisters : ∀ label ∈ labels, Registers label)
    (horder : Along step SendsInOrder (System.serving server) labels)
    (hrun : exec step (System.serving server) labels = some final)
    (hsettled : Settled final) (hfits : ListFits final) : ListsAgree final :=
  (announced_exec (announced_of_starting hstarting) hregisters horder
    hrun).listsAgree hsettled hfits

end Runs

/-- The thread of 21 sends its list before the one of 22 sends its own. -/
def orderedLabels : List Label :=
  [⟨21, 0, .receive (new .setBackup [97] [] 0)⟩,
    ⟨22, 0, .receive (new .setBackup [98] [] 0)⟩,
    ⟨21, 0, .proceed⟩, ⟨21, 0, .proceed⟩, ⟨21, 0, .proceed⟩, ⟨22, 0, .proceed⟩,
    ⟨21, 0, .proceed⟩, ⟨22, 0, .proceed⟩, ⟨21, 0, .proceed⟩, ⟨22, 0, .proceed⟩,
    ⟨22, 0, .proceed⟩, ⟨22, 0, .proceed⟩]

/-- The thread of 21 builds its list before 22 has pushed its address and sends
it when the thread of 22 is done. -/
def overtakenLabels : List Label :=
  [⟨21, 0, .receive (new .setBackup [97] [] 0)⟩,
    ⟨22, 0, .receive (new .setBackup [98] [] 0)⟩,
    ⟨21, 0, .proceed⟩, ⟨21, 0, .proceed⟩,
    ⟨22, 0, .proceed⟩, ⟨22, 0, .proceed⟩, ⟨22, 0, .proceed⟩, ⟨22, 0, .proceed⟩,
    ⟨22, 0, .proceed⟩,
    ⟨21, 0, .proceed⟩, ⟨21, 0, .proceed⟩, ⟨21, 0, .proceed⟩]

/-- The system behind the first run. -/
def orderedSystem : System :=
  (exec step (System.serving Server.new) orderedLabels).get (by decide)

/-- The system behind the second run. -/
def overtakenSystem : System :=
  (exec step (System.serving Server.new) overtakenLabels).get (by decide)

theorem registers_twoBackups : ∀ label ∈ orderedLabels ++ overtakenLabels,
    Registers label := by
  have hfirst := registers_setBackup (by decide) (by decide : IsLine [97]) 21 0
  have hsecond := registers_setBackup (by decide) (by decide : IsLine [98]) 22 0
  simp only [orderedLabels, overtakenLabels, List.forall_mem_append,
    List.forall_mem_cons, hfirst, hsecond, true_and]
  simp [Registers]

theorem listsAgree_orderedSystem :
    exec step (System.serving Server.new) orderedLabels = some orderedSystem ∧
      ListsAgree orderedSystem ∧
      orderedSystem.server.listBackups = [21, 22] ∧
      orderedSystem.server.electionServerList = [[97], [98]] := by
  have hrun : exec step (System.serving Server.new) orderedLabels =
      some orderedSystem := (Option.some_get _).symm
  have hregisters : ∀ label ∈ orderedLabels, Registers label :=
    fun label hlabel => registers_twoBackups label (List.mem_append_left _ hlabel)
  exact ⟨hrun, listsAgree_of_run starting_new hregisters (by decide) hrun
    (settled_of_exec hrun (by decide)) (by decide), by decide, by decide⟩

/-- Both backups end with the list that misses the second one. -/
theorem overtakenSystem_not_listsAgree :
    ¬ ∀ (server : Server) (labels : List Label) (final : System),
      Starting server → (∀ label ∈ labels, Registers label) →
        exec step (System.serving server) labels = some final →
          Settled final → ListFits final → ListsAgree final := by
  intro hall
  have hrun : exec step (System.serving Server.new) overtakenLabels =
      some overtakenSystem := (Option.some_get _).symm
  have hregisters : ∀ label ∈ overtakenLabels, Registers label :=
    fun label hlabel => registers_twoBackups label (List.mem_append_right _ hlabel)
  have hfits : ListFits overtakenSystem := by decide
  have hagree := hall _ _ _ starting_new hregisters hrun
    (settled_of_exec hrun (by decide)) hfits
  have htidy := tidy_exec (announced_of_starting starting_new).tidy hregisters hrun
  have hlast := (listsAgree_iff htidy hfits).1 hagree 21 (by decide)
  revert hlast
  decide

end TwitterLike.ElectionLists
