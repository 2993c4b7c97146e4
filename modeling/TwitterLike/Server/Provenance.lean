import TwitterLike.Server.Deliveries
import TwitterLike.Server.Replication

/-!
# Where the content of a store comes from

A ledger says who has been introduced, who has asked for whom and what has been
said.  A store is backed by a ledger when neither what it holds nor what has been
written goes beyond it; every operation of the store keeps it so when its arguments
are in the ledger.
-/

namespace TwitterLike.Provenance

open TwitterLike.ByteBuffer
open TwitterLike.PacketFormat
open TwitterLike.Profiles
open TwitterLike.ProfilesManager
open TwitterLike.Handlers (helloText)
open TwitterLike.FollowGraph
open TwitterLike.GraphHistory
open TwitterLike.SessionAccounting
open TwitterLike.Deliveries
open TwitterLike.Replication

/-! ## Ledgers -/

/-- What clients have said.  Nobody has the empty name. -/
structure Ledger where
  introduced : Set ByteString
  /-- a viewer has asked for an author -/
  asked : ByteString → ByteString → Prop
  said : Set Packet
  anonymous : [] ∉ introduced

namespace Ledger

variable (ledger : Ledger)

/-- The viewer has asked for the author of the text. -/
def Due (viewer : ByteString) (packet : Packet) : Prop :=
  packet ∈ ledger.said ∧ ledger.asked viewer packet.sender

/-- The packet says what its sender has said. -/
def Credible (packet : Packet) : Prop :=
  match packet.cmd with
  | .profile => packet.payload ∈ ledger.introduced
  | .follow => ledger.asked packet.sender packet.payload
  | .send => packet ∈ ledger.said
  | _ => True

/-- The packet comes from a client of this name. -/
structure Genuine (name : ByteString) (packet : Packet) : Prop where
  credible : ledger.Credible packet
  login : packet.cmd = .profile → packet.payload = name
  spoken : packet.cmd = .follow ∨ packet.cmd = .send → packet.sender = name
  sender : packet.sender = name ∨ packet.sender = []
  noBackup : packet.cmd ≠ .setBackup

/-- The later ledger says more. -/
structure Grows (earlier later : Ledger) : Prop where
  introduced : earlier.introduced ⊆ later.introduced
  asked : ∀ viewer author, earlier.asked viewer author → later.asked viewer author
  said : earlier.said ⊆ later.said

variable {ledger} {later : Ledger}

theorem Grows.due (hgrows : ledger.Grows later) {viewer : ByteString}
    {packet : Packet} (hdue : ledger.Due viewer packet) : later.Due viewer packet :=
  ⟨hgrows.said hdue.1, hgrows.asked _ _ hdue.2⟩

theorem Grows.credible (hgrows : ledger.Grows later) {packet : Packet}
    (hcredible : ledger.Credible packet) : later.Credible packet := by
  unfold Credible at hcredible ⊢
  split at hcredible
  · exact hgrows.introduced hcredible
  · exact hgrows.asked _ _ hcredible
  · exact hgrows.said hcredible
  · trivial

theorem Grows.genuine (hgrows : ledger.Grows later) {name : ByteString}
    {packet : Packet} (hgenuine : ledger.Genuine name packet) :
    later.Genuine name packet where
  credible := hgrows.credible hgenuine.credible
  login := hgenuine.login
  spoken := hgenuine.spoken
  sender := hgenuine.sender
  noBackup := hgenuine.noBackup

theorem Credible.introduced {packet : Packet} (hcredible : ledger.Credible packet)
    (hcmd : packet.cmd = .profile) : packet.payload ∈ ledger.introduced := by
  rwa [Credible, hcmd] at hcredible

theorem Credible.asked {packet : Packet} (hcredible : ledger.Credible packet)
    (hcmd : packet.cmd = .follow) : ledger.asked packet.sender packet.payload := by
  rwa [Credible, hcmd] at hcredible

theorem Credible.said {packet : Packet} (hcredible : ledger.Credible packet)
    (hcmd : packet.cmd = .send) : packet ∈ ledger.said := by
  rwa [Credible, hcmd] at hcredible

end Ledger

/-! ## Backed stores -/

/-- The server's own packets for a client. -/
def Own (name : ByteString) (packet : Packet) : Prop :=
  ∃ time, packet = new .closeConn [] [] time ∨
    packet = new .send (helloText ++ name) [] time

/-- The packet may be written to the connection: a copy to a backup, and to a client
what is due to it or is the server's own. -/
def Permitted (name : Conn → ByteString) (ledger : Ledger) (backups : List Conn)
    (conn : Conn) (packet : Packet) : Prop :=
  if conn ∈ backups then ledger.Credible packet
  else Own (name conn) packet ∨ ledger.Due (name conn) packet

/-- The session belongs to a client of the profile's name. -/
def Entitled (name : Conn → ByteString) (backups : List Conn) (store : Store)
    (ref : ProfileRef) (session : Option Conn) : Prop :=
  ∀ conn, session = some conn →
    conn ∉ backups ∧ store.getProfileById (name conn) = some ref

/-- Nothing in the store and nothing written goes beyond the ledger. -/
structure Backed (name : Conn → ByteString) (ledger : Ledger) (backups : List Conn)
    (store : Store) : Prop where
  wellFormed : WellFormed store
  profiles : (graph store).ids ⊆ ledger.introduced
  edges : ∀ edge ∈ (graph store).edges, ledger.asked edge.2 edge.1
  inboxes : ∀ profileId ref, store.getProfileById profileId = some ref →
    ∀ message ∈ (store.objects ref).inbox, ledger.Due profileId message.packet
  sessions : ∀ ref, ∀ session ∈ (store.objects ref).sessions,
    Entitled name backups store ref session
  written : ∀ conn, ∀ packet ∈ writtenTo conn store,
    Permitted name ledger backups conn packet

section Backed

variable {name : Conn → ByteString} {ledger : Ledger} {backups : List Conn}
  {store after : Store} {ref : ProfileRef} {conn : Conn}

theorem backed_empty : Backed name ledger backups Store.empty where
  wellFormed := wellFormed_empty
  profiles := by
    rw [graph_empty]
    exact Set.empty_subset _
  edges := by
    rw [graph_empty]
    exact fun _ hedge => hedge.elim
  inboxes _ _ _ _ hmessage := by cases hmessage
  sessions _ _ hsession := by cases hsession
  written _ _ hpacket := by cases hpacket

theorem Backed.grows (hbacked : Backed name ledger backups store) {later : Ledger}
    (hgrows : ledger.Grows later) : Backed name later backups store where
  wellFormed := hbacked.wellFormed
  profiles := hbacked.profiles.trans hgrows.introduced
  edges edge hedge := hgrows.asked _ _ (hbacked.edges edge hedge)
  inboxes profileId ref hfound message hmessage :=
    hgrows.due (hbacked.inboxes profileId ref hfound message hmessage)
  sessions := hbacked.sessions
  written conn packet hpacket := by
    have hpermitted := hbacked.written conn packet hpacket
    unfold Permitted at hpermitted ⊢
    split
    · next hbackup =>
        rw [if_pos hbackup] at hpermitted
        exact hgrows.credible hpermitted
    · next hclient =>
        rw [if_neg hclient] at hpermitted
        exact hpermitted.imp_right hgrows.due

/-- A profile is stored under a name that somebody has. -/
theorem Backed.ne_nil (hbacked : Backed name ledger backups store)
    {profileId : ByteString} (hfound : store.getProfileById profileId = some ref) :
    profileId ≠ [] := by
  rintro rfl
  exact ledger.anonymous (hbacked.profiles ((mem_ids_iff store []).2 ⟨ref, hfound⟩))

/-- The author of a text and its reader are joined by an edge. -/
theorem Backed.asked (hbacked : Backed name ledger backups store)
    {author viewer : ByteString} {follower : ProfileRef}
    (hauthor : store.getProfileById author = some ref)
    (hfollower : follower ∈ (store.objects ref).followers)
    (hviewer : store.getProfileById viewer = some follower) :
    ledger.asked viewer author := by
  have hid := hbacked.wellFormed.ids viewer follower hviewer
  have hedge : (author, viewer) ∈ (graph store).edges := by
    rw [mem_edges_iff store hauthor, Store.followerIds, ← hid]
    exact List.mem_map_of_mem hfollower
  exact hbacked.edges _ hedge

/-! ### The operations -/

/-- An operation that leaves the graph alone. -/
theorem Backed.sameGraph (hbacked : Backed name ledger backups store)
    (hsame : SameGraph store after)
    (hinboxes : ∀ profileId ref, store.getProfileById profileId = some ref →
      ∀ message ∈ (after.objects ref).inbox,
        message ∈ (store.objects ref).inbox ∨ ledger.Due profileId message.packet)
    (hsessions : ∀ ref, ∀ session ∈ (after.objects ref).sessions,
      session ∈ (store.objects ref).sessions ∨
        Entitled name backups store ref session)
    (hwritten : ∀ conn, ∀ packet ∈ writtenTo conn after,
      packet ∈ writtenTo conn store ∨ Permitted name ledger backups conn packet) :
    Backed name ledger backups after where
  wellFormed := hsame.wellFormed hbacked.wellFormed
  profiles := by
    rw [hsame.graph_eq]
    exact hbacked.profiles
  edges := by
    rw [hsame.graph_eq]
    exact hbacked.edges
  inboxes profileId ref hfound message hmessage := by
    rw [hsame.getProfileById] at hfound
    rcases hinboxes profileId ref hfound message hmessage with hold | hdue
    · exact hbacked.inboxes profileId ref hfound message hold
    · exact hdue
  sessions ref session hsession conn hconn := by
    rw [hsame.getProfileById]
    exact (hsessions ref session hsession).elim
      (fun hold => hbacked.sessions ref session hold conn hconn)
      (fun hnew => hnew conn hconn)
  written conn packet hpacket :=
    (hwritten conn packet hpacket).elim (hbacked.written conn packet) id

/-- A session of a profile is a connection of its name. -/
theorem Backed.addSession (hbacked : Backed name ledger backups store)
    {session : Option Conn} (hsession : Entitled name backups store ref session)
    (hsame : SameGraph store after)
    (hinboxes : ∀ other, (after.objects other).inbox = (store.objects other).inbox)
    (hsessions : ∀ other, (after.objects other).sessions =
      if other = ref then (store.objects other).sessions ++ [session]
      else (store.objects other).sessions)
    (houtputs : after.outputs = store.outputs) :
    Backed name ledger backups after := by
  refine hbacked.sameGraph hsame ?_ ?_ ?_
  · intro profileId other _ message hmessage
    exact .inl (hinboxes other ▸ hmessage)
  · intro other added hadded
    rw [hsessions] at hadded
    split at hadded
    · next heq =>
        subst heq
        rcases List.mem_append.1 hadded with hold | hnew
        · exact .inl hold
        · exact .inr (List.mem_singleton.1 hnew ▸ hsession)
    · exact .inl hadded
  · intro conn packet hpacket
    rw [writtenTo_of_outputs conn store houtputs] at hpacket
    exact .inl hpacket

theorem Backed.incSessionsOn (hbacked : Backed name ledger backups store)
    {session : Option Conn} (hsession : Entitled name backups store ref session) :
    Backed name ledger backups (store.incSessionsOn ref session) :=
  hbacked.addSession hsession (incSessionsOn_sameGraph store ref session)
    (store.update_objects_field ref Profile.inbox rfl)
    (fun other => store.incSessionsOn_objects_sessions ref other session) rfl

theorem Backed.updateSessionsOn (hbacked : Backed name ledger backups store)
    {session : Option Conn} (hsession : Entitled name backups store ref session) :
    Backed name ledger backups (store.updateSessionsOn ref session) :=
  hbacked.addSession hsession (updateSessionsOn_sameGraph store ref session)
    (store.update_objects_field ref Profile.inbox rfl)
    (fun other => store.updateSessionsOn_objects_sessions ref other session) rfl

theorem Backed.decSessionsOn (hbacked : Backed name ledger backups store)
    (session : Option Conn) :
    Backed name ledger backups (store.decSessionsOn ref session) := by
  refine hbacked.sameGraph (decSessionsOn_sameGraph store ref session) ?_ ?_
    fun _ _ => .inl
  · intro profileId other _ message hmessage
    have hinbox := store.update_objects_field ref Profile.inbox
      (decSessionsOn_inbox (store.objects ref) session) other
    rw [← hinbox]
    exact .inl hmessage
  · intro other kept hkept
    rw [Store.decSessionsOn_objects_sessions] at hkept
    split at hkept
    · exact .inl (List.mem_of_mem_erase hkept)
    · exact .inl hkept

theorem Backed.sendPacket (hbacked : Backed name ledger backups store)
    {packet : Packet} (hpacket : Permitted name ledger backups conn packet) :
    Backed name ledger backups (store.sendPacket conn packet) := by
  refine hbacked.sameGraph (sendPacket_sameGraph store conn packet)
    (fun _ _ _ _ => .inl) (fun _ _ => .inl) fun other sent hsent => ?_
  rw [writtenTo, Store.sendPacket, List.flatMap_append] at hsent
  rcases List.mem_append.1 hsent with hold | hnew
  · exact .inl hold
  · rw [List.flatMap_singleton, writtenBy] at hnew
    split at hnew
    · next heq =>
        cases List.mem_singleton.1 hnew
        exact .inr (heq ▸ hpacket)
    · cases hnew

theorem Backed.closeConn (hbacked : Backed name ledger backups store)
    (conn : Conn) : Backed name ledger backups (store.closeConn conn) :=
  hbacked.sameGraph (closeConn_sameGraph store conn) (fun _ _ _ _ => .inl)
    (fun _ _ => .inl) fun _ _ => .inl

theorem Backed.sameMemory (hbacked : Backed name ledger backups store)
    (hsame : Store.SameMemory store after) : Backed name ledger backups after := by
  refine hbacked.sameGraph (.of_sameMemory hsame) ?_ ?_ ?_
  · rw [hsame.objects]
    exact fun _ _ _ _ => .inl
  · rw [hsame.objects]
    exact fun _ _ => .inl
  · intro conn packet hpacket
    rw [writtenTo_of_outputs conn store hsame.outputs] at hpacket
    exact .inl hpacket

/-- What is due to the name of a profile is due to its sessions. -/
theorem Backed.permitted (hbacked : Backed name ledger backups store)
    {session : Option Conn} (hsession : session ∈ (store.objects ref).sessions)
    (hconn : session = some conn) {packet : Packet}
    (hdue : ∀ profileId, store.getProfileById profileId = some ref →
      ledger.Due profileId packet) : Permitted name ledger backups conn packet := by
  obtain ⟨hclient, hfound⟩ := hbacked.sessions ref session hsession conn hconn
  rw [Permitted, if_neg hclient]
  exact .inr (hdue _ hfound)

theorem Backed.sendPasses (hbacked : Backed name ledger backups store)
    {passes : List Pass}
    (hpasses : ∀ pass ∈ passes, ∀ conn ∈ pass.conns,
      Permitted name ledger backups conn pass.message.packet) :
    Backed name ledger backups (store.sendPasses ref passes) := by
  refine hbacked.sameGraph (sendPasses_sameGraph store ref passes)
    (fun _ _ _ _ => .inl) (fun _ _ => .inl) fun conn packet hpacket => ?_
  rw [writtenTo, Store.sendPasses_outputs, List.flatMap_append] at hpacket
  rcases List.mem_append.1 hpacket with hold | hnew
  · exact .inl hold
  · obtain ⟨output, houtput, hwritten⟩ := List.mem_flatMap.1 hnew
    obtain ⟨pass, hpass, rfl⟩ := List.mem_map.1 houtput
    obtain ⟨other, hother, rfl⟩ := List.mem_map.1 hwritten
    obtain ⟨hmem, hsame⟩ := List.mem_filter.1 hother
    exact .inr (hpasses pass hpass conn (of_decide_eq_true hsame ▸ hmem))

theorem Backed.sendOrInsertInbox (hbacked : Backed name ledger backups store)
    {message : Message}
    (hdue : ∀ profileId, store.getProfileById profileId = some ref →
      ledger.Due profileId message.packet) :
    Backed name ledger backups (store.sendOrInsertInbox ref message) := by
  have hupdated : Backed name ledger backups (store.update ref fun _ =>
      ((store.objects ref).sendOrInsertInbox message).1) := by
    refine hbacked.sameGraph (.update ref (sendOrInsertInbox_profileId _ _)
      (sendOrInsertInbox_followers _ _)) ?_ ?_ fun _ _ => .inl
    · intro profileId other hfound waiting hwaiting
      have hinbox := sendOrInsertInbox_inbox store other ref message
      rw [Store.sendOrInsertInbox, Store.sendPasses_objects] at hinbox
      rw [hinbox] at hwaiting
      split at hwaiting
      · next hoffline =>
          rcases List.mem_append.1 hwaiting with hold | hnew
          · exact .inl hold
          · rw [List.mem_singleton.1 hnew]
            exact .inr (hdue profileId (hoffline.1 ▸ hfound))
      · exact .inl hwaiting
    · intro other conn hsession
      rw [store.update_objects_field ref Profile.sessions
        (sendOrInsertInbox_sessions _ _)] at hsession
      exact .inl hsession
  refine hupdated.sendPasses fun pass hpass conn hconn => ?_
  unfold Profile.sendOrInsertInbox at hpass
  split at hpass
  · rw [List.mem_singleton.1 hpass] at hconn ⊢
    exact hbacked.permitted (List.reduceOption_mem_iff.1 hconn) rfl hdue
  · cases hpass

theorem mem_sessions_of_drain {sessions : List (Option Conn)} {inbox : Inbox}
    {pass : Pass} (hpass : pass ∈ (Profile.drain sessions inbox).2)
    (hconn : conn ∈ pass.conns) : some conn ∈ sessions := by
  induction inbox with
  | nil => cases hpass
  | cons message rest ih =>
      rw [Profile.drain] at hpass
      split at hpass
      · rw [List.mem_singleton.1 hpass, List.reduceOption_mem_iff] at hconn
        exact List.takeWhile_sublist _ |>.subset hconn
      · rcases List.mem_cons.1 hpass with rfl | hrest
        · exact List.reduceOption_mem_iff.1 hconn
        · exact ih hrest

theorem Backed.fetchInboxContent (hbacked : Backed name ledger backups store) :
    Backed name ledger backups (store.fetchInboxContent ref).2 := by
  have hupdated : Backed name ledger backups (store.update ref fun _ =>
      (store.objects ref).fetchInboxContent.2.1) := by
    refine hbacked.sameGraph (.update ref rfl rfl) ?_ ?_ fun _ _ => .inl
    · intro profileId other _ message hmessage
      by_cases hother : other = ref
      · subst hother
        rw [Store.update_objects_self] at hmessage
        cases hmessage
      · rw [Store.update_objects_of_ne _ _ _ hother] at hmessage
        exact .inl hmessage
    · intro other conn hsession
      rw [store.update_objects_field ref Profile.sessions rfl] at hsession
      exact .inl hsession
  refine hupdated.sendPasses fun pass hpass conn hconn => ?_
  exact hbacked.permitted (mem_sessions_of_drain hpass hconn) rfl
    fun profileId hfound =>
      hbacked.inboxes profileId ref hfound _ (message_mem_of_drain hpass)

theorem Backed.created (hbacked : Backed name ledger backups store)
    {profileId : ByteString} (hunknown : store.getProfileById profileId = none)
    (hintroduced : profileId ∈ ledger.introduced) :
    Backed name ledger backups (store.created profileId) := by
  have hwf := hbacked.wellFormed
  have hgraph := graph_created profileId hwf hunknown
  have hnew {other : ProfileRef} (hfresh : other = store.allocated) :
      (store.created profileId).objects other = Profile.new profileId := by
    rw [created_objects, if_pos hfresh]
  have hold {other : ProfileRef} (hother : other ≠ store.allocated) :
      (store.created profileId).objects other = store.objects other := by
    rw [created_objects, if_neg hother]
  have hentries := (extends_created hwf hunknown).entries
  constructor
  case wellFormed => exact wellFormed_created profileId hwf hunknown
  case profiles =>
    rw [hgraph]
    exact Set.insert_subset hintroduced hbacked.profiles
  case edges =>
    rw [hgraph]
    exact hbacked.edges
  case inboxes =>
    intro key other hfound message hmessage
    by_cases hfresh : other = store.allocated
    · rw [hnew hfresh] at hmessage
      cases hmessage
    · rw [hold hfresh] at hmessage
      rw [created_getProfileById] at hfound
      split at hfound
      · exact absurd (Option.some.inj hfound).symm hfresh
      · exact hbacked.inboxes key other hfound message hmessage
  case sessions =>
    intro other session hsession conn hconn
    by_cases hfresh : other = store.allocated
    · rw [hnew hfresh] at hsession
      cases hsession
    · rw [hold hfresh] at hsession
      exact (hbacked.sessions other session hsession conn hconn).imp_right
        (hentries _ _)
  case written => exact hbacked.written

theorem Backed.findOrCreate (hbacked : Backed name ledger backups store)
    {profileId : ByteString} (hintroduced : profileId ∈ ledger.introduced)
    {session : Option Conn} (hclient : ∀ conn, session = some conn → conn ∉ backups)
    (time : BitVec 64) :
    Backed name ledger backups (store.findOrCreate profileId session time).2 := by
  cases hfound : store.getProfileById profileId with
  | none =>
      rw [store.findOrCreate_of_unknown hfound]
      exact (hbacked.created hfound hintroduced).sameMemory
        (Store.toJsonFile_sameMemory _)
  | some found =>
      by_cases hfull : (store.objects found).sessionsOn = maxSessions
      · rw [store.findOrCreate_of_full hfound hfull]
        cases session with
        | none => exact hbacked
        | some conn =>
            refine (hbacked.sendPacket ?_).closeConn conn
            rw [Permitted, if_neg (hclient conn rfl)]
            exact .inl ⟨time, .inl rfl⟩
      · rw [store.findOrCreate_of_room hfound hfull]
        exact hbacked

theorem Backed.addFollowerTo (hbacked : Backed name ledger backups store)
    {viewer author : ByteString} (hviewer : store.getProfileById viewer = some ref)
    (hasked : ledger.asked viewer author) :
    Backed name ledger backups (store.addFollowerTo author (some ref)).2 := by
  have hwf := hbacked.wellFormed
  have hid := hwf.ids viewer ref hviewer
  obtain ⟨hwellFormed, hgraph⟩ := addFollowerTo_graph hwf (by rwa [hid]) author
  have hextends := @addFollowerTo_extends store author ref
  have hqueues := addFollowerTo_sameQueues store author ref
  have hsessions := addFollowerTo_sameSessions store author ref
  have houtputs := store.addFollowerTo_outputs author ref
  constructor
  case wellFormed => exact hwellFormed
  case profiles =>
    rw [hgraph]
    exact hbacked.profiles
  case edges =>
    rw [hgraph, hid]
    rintro edge (hedge | ⟨rfl, _, _⟩)
    · exact hbacked.edges edge hedge
    · exact hasked
  case inboxes =>
    intro key other hfound message hmessage
    have hknown : key ∈ (graph store).ids := by
      have hmem := (mem_ids_iff _ key).2 ⟨other, hfound⟩
      rwa [hgraph] at hmem
    obtain ⟨before, hbefore⟩ := (mem_ids_iff store key).1 hknown
    cases (hextends.entries key before hbefore).symm.trans hfound
    rw [hqueues.inbox] at hmessage
    exact hbacked.inboxes key other hbefore message hmessage
  case sessions =>
    intro other session hsession conn hconn
    rw [hsessions.sessions] at hsession
    exact (hbacked.sessions other session hsession conn hconn).imp_right
      (hextends.entries _ other)
  case written =>
    intro conn
    rw [writtenTo_of_outputs conn store houtputs]
    exact hbacked.written conn

/-- What is handed to the followers of its author is due to them. -/
theorem Backed.sendToFollowersOf (hbacked : Backed name ledger backups store)
    {message : Message} (hsaid : message.packet ∈ ledger.said)
    (hauthor : store.getProfileById message.packet.sender = some ref) :
    Backed name ledger backups
      (store.sendToFollowersOf (some ref) message).2 := by
  change Backed name ledger backups (List.foldl _ store (store.objects ref).followers)
  have hdue : ∀ follower ∈ (store.objects ref).followers, ∀ viewer,
      store.getProfileById viewer = some follower →
        ledger.Due viewer message.packet :=
    fun follower hfollower viewer hviewer =>
      ⟨hsaid, hbacked.asked hauthor hfollower hviewer⟩
  clear hauthor
  generalize (store.objects ref).followers = followers at hdue ⊢
  induction followers generalizing store with
  | nil => exact hbacked
  | cons follower followers ih =>
      have hfirst := hbacked.sendOrInsertInbox (hdue follower List.mem_cons_self)
      refine ih hfirst fun other hother viewer hviewer => ?_
      rw [(sendOrInsertInbox_sameGraph store follower message).getProfileById]
        at hviewer
      exact hdue other (List.mem_cons_of_mem _ hother) viewer hviewer

end Backed

end TwitterLike.Provenance
