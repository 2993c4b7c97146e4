import TwitterLike.Cluster.Failover
import TwitterLike.Server.SenderAgreement

/-!
# What a failover leaves of what was typed

The lines typed at the clients make up a ledger.  Whatever a client has received,
from the primary or from the backup that has taken over, is in that ledger or is the
server's own.
-/

namespace TwitterLike.Failover

open TwitterLike.ByteBuffer
open TwitterLike.PacketFormat
open TwitterLike.Profiles
open TwitterLike.ProfilesManager
open TwitterLike.Handlers (Server)
open TwitterLike.FollowGraph
open TwitterLike.GraphHistory (Extends)
open TwitterLike.Channels
open TwitterLike.Arrivals (zeroPacket)
open TwitterLike.Terminal (ProfileName Client Event)
open TwitterLike.Threads (transition_of_step)
open TwitterLike.Replication (writtenTo)
open TwitterLike.BackupLoop (Follower process)
open TwitterLike.BackupConvergence (replayed replayed_concat)
open TwitterLike.SenderAgreement (outputs_of_transition writtenTo_mono)
open TwitterLike.Service (Entry Utterance utterance_of_step nameOf packetOf
  read_spoken toPrimary typedBy profile_of_step)
open TwitterLike.EndToEnd
open TwitterLike.Provenance

/-! ## The ledger -/

/-- The names of the clients, and what has been typed at them. -/
def ledgerOf (names : Conn → ProfileName) (typed : List Entry) : Ledger where
  introduced := Set.range (nameOf names)
  asked := Requested names typed
  said := {packet | packet.cmd = .send ∧ ∃ conn, (conn, packet) ∈ posts names typed}
  anonymous := by
    rintro ⟨conn, hnil⟩
    exact nameOf_ne_nil names conn hnil

section Ledgers

variable {names : Conn → ProfileName} {typed : List Entry} {conn : Conn}

theorem posts_append (more : List Entry) :
    posts names (typed ++ more) = posts names typed ++ posts names more :=
  List.filterMap_append

theorem ledger_grows (more : List Entry) :
    (ledgerOf names typed).Grows (ledgerOf names (typed ++ more)) where
  introduced := subset_rfl
  asked := by
    rintro viewer author ⟨post, hpost, hsays⟩
    exact ⟨post, posts_append more ▸ List.mem_append_left _ hpost, hsays⟩
  said := by
    rintro packet ⟨hcmd, conn, hpost⟩
    exact ⟨hcmd, conn, posts_append more ▸ List.mem_append_left _ hpost⟩

theorem genuine_back {ledger : Ledger} {name : ByteString} (time : BitVec 64) :
    ledger.Genuine name (new .ok [] name time) :=
  ⟨trivial, by simp [new], by simp [new], .inl rfl, by simp [new]⟩

/-- What a client sends is genuine, as soon as the line is in the ledger. -/
theorem genuine_of_utterance {event : Event} {packet : Packet}
    (hutterance : Utterance (names conn) event packet) :
    (ledgerOf names (typed ++ typedBy conn event)).Genuine (nameOf names conn)
      packet := by
  cases hutterance with
  | login time =>
      exact ⟨⟨conn, rfl⟩, fun _ => rfl, by simp [new], .inr rfl, by simp [new]⟩
  | back time => exact genuine_back time
  | interrupt time =>
      exact ⟨trivial, by simp [new], by simp [new], .inl rfl, by simp [new]⟩
  | farewell time =>
      exact ⟨trivial, by simp [new], by simp [new], .inr rfl, by simp [new]⟩
  | @command line time cmd payload hevent hread =>
      subst hevent
      have hpost : (conn, new cmd payload (names conn).text time) ∈
          posts names (typed ++ typedBy conn (.entered line time)) := by
        rw [posts_append]
        refine List.mem_append_right _ (List.mem_filterMap.2
          ⟨⟨conn, line, time⟩, List.mem_singleton_self _, ?_⟩)
        simp [packetOf, hread]
      rcases read_spoken hread with rfl | rfl
      · exact ⟨⟨_, hpost, rfl, rfl, rfl⟩, by simp [new], fun _ => rfl, .inl rfl,
          by simp [new]⟩
      · exact ⟨⟨rfl, conn, hpost⟩, by simp [new], fun _ => rfl, .inl rfl, by simp [new]⟩

theorem genuine_zeroPacket {ledger : Ledger} {name : ByteString} :
    ledger.Genuine name zeroPacket.packet where
  credible := trivial
  login hcmd := by cases hcmd
  spoken hcmd := by
    rcases hcmd with hcmd | hcmd
    all_goals cases hcmd
  sender := .inr rfl
  noBackup hcmd := by cases hcmd

end Ledgers

/-! ## The invariant -/

/-- A server and what is on its way to it. -/
structure SiteAttested (name : Conn → ByteString) (ledger : Ledger)
    (backups : List Conn) (site : Site) : Prop where
  grounded : Grounded name ledger backups site.server
  requests : ∀ conn, ∀ packet ∈ (site.requests conn).log,
    ledger.Genuine (name conn) packet

def StandbyAttested (name : Conn → ByteString) (ledger : Ledger) : Standby → Prop
  | .following follower => Vouched name ledger [] follower.backup
  | .leaving backup => Vouched name ledger [] backup
  | .elected backup => Vouched name ledger [] backup
  | .serving site => SiteAttested name ledger [] site
  | .stuck => True

/-- A backup that follows has the graph of the packets it has received, the first
ones that the primary has written to it. -/
def Heard (written : List Packet) : Standby → Prop
  | .following follower => follower.received ≤ written.length ∧
      graph follower.backup.store = replayed (written.take follower.received)
  | _ => True

/-- The backups that a server has. -/
def Setting.backups (setting : Setting) : Side → List Conn
  | .primary => [setting.backupConn]
  | .standby => []

/-- Nothing goes beyond what has been typed, and the backup has what it has heard. -/
structure Attested (setting : Setting) (ledger : Ledger) (cluster : Cluster) :
    Prop where
  profiles : ∀ conn, (cluster.clients conn).profile = setting.names conn
  primary : SiteAttested (nameOf setting.names) ledger [setting.backupConn]
    cluster.primary
  standby : StandbyAttested (nameOf setting.names) ledger cluster.standby
  heard : Heard (writtenTo setting.backupConn cluster.primary.server.store)
    cluster.standby
  apart : cluster.dialed setting.backupConn = []
  screens : ∀ conn, ∀ packet ∈ cluster.screen conn,
    Own (nameOf setting.names conn) packet ∨
      ledger.Due (nameOf setting.names conn) packet

section Attested

variable {setting : Setting} {ledger : Ledger} {cluster : Cluster} {side : Side}
  {site : Site} {conn : Conn} {time : BitVec 64}

theorem Heard.mono {standby : Standby} {written later : List Packet}
    (hheard : Heard written standby) (hwritten : written <+: later) :
    Heard later standby := by
  cases standby with
  | following follower =>
      obtain ⟨hreceived, hgraph⟩ := hheard
      obtain ⟨added, rfl⟩ := hwritten
      refine ⟨hreceived.trans (List.length_append ▸ Nat.le_add_right _ _), ?_⟩
      rw [hgraph, List.take_append_of_le_length hreceived]
  | leaving | elected | serving | stuck => trivial

/-- The next packet is the next one of what has been written. -/
theorem Heard.next {written : List Packet} {follower later : Follower} {packet : Packet}
    (hheard : Heard written (.following follower))
    (hwf : FollowGraph.WellFormed follower.backup.store)
    (hpacket : written[follower.received]? = some packet)
    (hturn : process follower packet time = .again later) :
    Heard written (.following later) := by
  obtain ⟨hreceived, hgraph⟩ := graph_of_process hwf hturn
  obtain ⟨hmore, rfl⟩ := List.getElem?_eq_some_iff.1 hpacket
  refine ⟨hreceived ▸ hmore, ?_⟩
  rw [hgraph, hheard.2, hreceived, List.take_succ_eq_append_getElem hmore,
    replayed_concat]

theorem Attested.ofSite (hattested : Attested setting ledger cluster)
    (hsite : cluster.site side = some site) :
    SiteAttested (nameOf setting.names) ledger (setting.backups side) site := by
  cases side with
  | primary =>
      cases hsite
      exact hattested.primary
  | standby =>
      have hstandby := hattested.standby
      cases hstage : cluster.standby with
      | serving server =>
          rw [hstage] at hstandby
          rw [Cluster.site, hstage] at hsite
          cases hsite
          exact hstandby
      | following | leaving | elected | stuck =>
          rw [Cluster.site, hstage] at hsite
          cases hsite

theorem Attested.setSite (hattested : Attested setting ledger cluster) {earlier : Site}
    (hearlier : cluster.site side = some earlier)
    (hsite : SiteAttested (nameOf setting.names) ledger (setting.backups side) site)
    (houtputs : earlier.server.store.outputs <+: site.server.store.outputs) :
    Attested setting ledger (cluster.setSite site side) := by
  obtain ⟨hprofiles, hprimary, hstandby, hheard, hapart, hscreens⟩ := hattested
  cases side with
  | primary =>
      cases hearlier
      have hlater := hheard.mono (writtenTo_mono setting.backupConn houtputs)
      exact ⟨hprofiles, hsite, hstandby, hlater, hapart, hscreens⟩
  | standby => exact ⟨hprofiles, hprimary, hsite, trivial, hapart, hscreens⟩

theorem Attested.setClient (hattested : Attested setting ledger cluster)
    {client : Client} (hprofile : client.profile = (cluster.clients conn).profile) :
    Attested setting ledger (cluster.setClient conn client) := by
  obtain ⟨hprofiles, hprimary, hstandby, hheard, hapart, hscreens⟩ := hattested
  refine ⟨fun other => ?_, hprimary, hstandby, hheard, hapart, hscreens⟩
  rw [Cluster.setClient]
  dsimp only
  by_cases hother : other = conn
  · subst hother
    rw [Function.update_self, hprofile]
    exact hprofiles other
  · rw [Function.update_of_ne hother]
    exact hprofiles other

theorem SiteAttested.post {name : Conn → ByteString} {backups : List Conn}
    (hattested : SiteAttested name ledger backups site) {packets : List Packet}
    (hgenuine : ∀ packet ∈ packets, ledger.Genuine (name conn) packet) :
    SiteAttested name ledger backups { site with
      requests := Function.update site.requests conn
        ((site.requests conn).post packets) } := by
  refine ⟨hattested.grounded, fun other packet hpacket => ?_⟩
  dsimp only at hpacket
  by_cases hother : other = conn
  · subst hother
    rw [Function.update_self, Channel.post_log] at hpacket
    exact (List.mem_append.1 hpacket).elim (hattested.requests other packet)
      (hgenuine packet)
  · rw [Function.update_of_ne hother] at hpacket
    exact hattested.requests other packet hpacket

theorem Attested.post (hattested : Attested setting ledger cluster)
    {packets : List Packet}
    (hgenuine : ∀ packet ∈ packets, ledger.Genuine (nameOf setting.names conn) packet) :
    Attested setting ledger (cluster.post conn packets) := by
  unfold Cluster.post
  split
  · exact hattested
  · split
    · exact hattested
    · next hsite =>
        have hposted := (hattested.ofSite hsite).post hgenuine
        exact hattested.setSite hsite hposted List.prefix_rfl

theorem SiteAttested.grows {name : Conn → ByteString} {backups : List Conn}
    (hattested : SiteAttested name ledger backups site) {later : Ledger}
    (hgrows : ledger.Grows later) : SiteAttested name later backups site where
  grounded := hattested.grounded.grows hgrows
  requests conn packet hpacket :=
    hgrows.genuine (hattested.requests conn packet hpacket)

theorem Attested.grows (hattested : Attested setting ledger cluster) {later : Ledger}
    (hgrows : ledger.Grows later) : Attested setting later cluster where
  profiles := hattested.profiles
  primary := hattested.primary.grows hgrows
  standby := by
    have hstandby := hattested.standby
    cases hstage : cluster.standby with
    | following | leaving | elected =>
        rw [hstage] at hstandby
        exact ⟨hstandby.backed.grows hgrows, hstandby.listed⟩
    | serving site =>
        rw [hstage] at hstandby
        exact SiteAttested.grows hstandby hgrows
    | stuck => trivial
  heard := hattested.heard
  apart := hattested.apart
  screens conn packet hpacket :=
    (hattested.screens conn packet hpacket).imp_right hgrows.due

/-- Of the rest of the state nothing matters. -/
theorem Attested.congr {after : Cluster} (hattested : Attested setting ledger cluster)
    (hclients : after.clients = cluster.clients)
    (hprimary : after.primary = cluster.primary)
    (hstandby : StandbyAttested (nameOf setting.names) ledger after.standby)
    (hheard : Heard (writtenTo setting.backupConn cluster.primary.server.store)
      after.standby)
    (hapart : after.dialed setting.backupConn = cluster.dialed setting.backupConn)
    (hscreen : after.screen = cluster.screen) : Attested setting ledger after where
  profiles := hclients ▸ hattested.profiles
  primary := hprimary ▸ hattested.primary
  standby := hstandby
  heard := hprimary ▸ hheard
  apart := hapart.trans hattested.apart
  screens := hscreen ▸ hattested.screens

end Attested

/-! ## Growth -/

/-- Neither server has lost a profile or an edge. -/
def Grown (before after : Cluster) : Prop :=
  ∀ side store, after.store side = some store →
    ∃ earlier, before.store side = some earlier ∧ Extends earlier store

section Grown

variable {before middle after : Cluster} {side : Side} {site served : Site}
  {conn : Conn}

theorem Grown.of_same (hsame : after.store = before.store) : Grown before after :=
  fun _ store hstore => ⟨store, hsame ▸ hstore, .refl store⟩

theorem Grown.trans (hfirst : Grown before middle) (hsecond : Grown middle after) :
    Grown before after := by
  intro side store hstore
  obtain ⟨between, hbetween, hlater⟩ := hsecond side store hstore
  obtain ⟨earlier, hearlier, hextends⟩ := hfirst side between hbetween
  exact ⟨earlier, hearlier, hextends.trans hlater⟩

theorem store_of_site (hsite : before.site side = some site) :
    before.store side = some site.server.store := by
  cases side with
  | primary =>
      cases hsite
      rfl
  | standby =>
      cases hstage : before.standby with
      | serving server =>
          rw [Cluster.site, hstage] at hsite
          cases hsite
          rw [Cluster.store, hstage, Standby.store]
      | following | leaving | elected | stuck =>
          rw [Cluster.site, hstage] at hsite
          cases hsite

theorem grown_setSite (hsite : before.site side = some site)
    (hextends : Extends site.server.store served.server.store) :
    Grown before (before.setSite served side) := by
  intro other store hstore
  by_cases hother : other = side
  · subst hother
    refine ⟨site.server.store, store_of_site hsite, ?_⟩
    have hserved : (before.setSite served other).store other =
        some served.server.store := by cases other <;> rfl
    cases hserved.symm.trans hstore
    exact hextends
  · have hsame : (before.setSite served side).store other = before.store other := by
      cases side <;> cases other <;> first | rfl | exact absurd rfl hother
    exact ⟨store, hsame ▸ hstore, .refl store⟩

theorem grown_post (packets : List Packet) :
    Grown before (before.post conn packets) := by
  unfold Cluster.post
  split
  · exact .of_same rfl
  · split
    · exact .of_same rfl
    · next hsite => exact grown_setSite hsite (.refl _)

end Grown

/-! ## Steps -/

/-- What a move at which nobody types leaves. -/
structure Kept (setting : Setting) (ledger : Ledger) (cluster next : Cluster) :
    Prop where
  attested : Attested setting ledger next
  typed : next.typed = cluster.typed
  grown : Grown cluster next

section Steps

variable {setting : Setting} {ledger : Ledger} {cluster next : Cluster} {side : Side}
  {site : Site} {conn : Conn} {time : BitVec 64}

theorem setSite_typed : (cluster.setSite site side).typed = cluster.typed := by
  cases side <;> rfl

theorem setSite_clients : (cluster.setSite site side).clients = cluster.clients := by
  cases side <;> rfl

theorem post_keeps (packets : List Packet) :
    (cluster.post conn packets).clients = cluster.clients ∧
      (cluster.post conn packets).typed = cluster.typed := by
  unfold Cluster.post
  split
  · exact ⟨rfl, rfl⟩
  · split
    · exact ⟨rfl, rfl⟩
    · exact ⟨setSite_clients, setSite_typed⟩

theorem attested_clientMove {event : Event}
    (hattested : Attested setting (ledgerOf setting.names cluster.typed) cluster)
    (hmove : cluster.clientMove setting conn event = some next) :
    Attested setting (ledgerOf setting.names next.typed) next ∧ Grown cluster next := by
  obtain ⟨_, hmove⟩ := Option.ite_none_right_eq_some.1 hmove
  obtain ⟨client, hstep, hnext⟩ := Option.map_eq_some_iff.1 hmove
  have hprofile := hattested.profiles conn
  have hgrown := hattested.grows (ledger_grows (typedBy conn event))
  have hgenuine : ∀ packet ∈ (if (cluster.clients conn).con = .connected then
      toPrimary (cluster.clients conn) client event else []),
      (ledgerOf setting.names (cluster.typed ++ typedBy conn event)).Genuine
        (nameOf setting.names conn) packet := by
    intro packet hpacket
    split at hpacket
    · have hutterance := utterance_of_step hstep packet hpacket
      rw [hprofile] at hutterance
      exact genuine_of_utterance hutterance
    · cases hpacket
  dsimp only at hnext
  generalize (if (cluster.clients conn).con = .connected then
    toPrimary (cluster.clients conn) client event else []) = posted at hnext hgenuine
  have hposted := hgrown.post hgenuine
  have hclient : client.profile =
      ((cluster.post conn posted).clients conn).profile := by
    rw [(post_keeps _).1]
    exact profile_of_step hstep
  have hset := hposted.setClient hclient
  have hgrown := @grown_post cluster conn posted
  cases hnext
  exact ⟨hset.congr rfl rfl hset.standby hset.heard rfl rfl, hgrown⟩

theorem attested_dial (hattested : Attested setting ledger cluster)
    (hmove : cluster.dial setting conn side = some next) :
    Kept setting ledger cluster next := by
  unfold Cluster.dial at hmove
  dsimp only at hmove
  split at hmove
  · obtain ⟨⟨hclient, _⟩, hnext⟩ := Option.ite_none_right_eq_some.1 hmove
    cases hnext
    have hset := @Attested.setClient _ _ _ conn hattested
      { cluster.clients conn with con := .connected } rfl
    exact ⟨hset.congr rfl rfl hset.standby hset.heard
      (Function.update_of_ne (Ne.symm hclient) _ _) rfl, rfl, .of_same rfl⟩
  · cases hmove

theorem attested_announce (hattested : Attested setting ledger cluster)
    (hmove : cluster.announce conn time = some next) :
    Kept setting ledger cluster next := by
  obtain ⟨_, hnext⟩ := Option.ite_none_right_eq_some.1 hmove
  have hgenuine : ledger.Genuine (nameOf setting.names conn)
      (new .ok [] (cluster.clients conn).profile.text time) := by
    rw [hattested.profiles conn]
    exact genuine_back time
  have hposted := hattested.post (List.forall_mem_singleton.2 hgenuine)
  obtain ⟨hclients, htyped⟩ := @post_keeps cluster conn
    [new .ok [] (cluster.clients conn).profile.text time]
  have hset := @Attested.setClient _ _ _ conn hposted ((cluster.clients conn).sendPacket
    (new .ok [] (cluster.clients conn).profile.text time)) (by
      rw [hclients]
      rfl)
  have hgrown := @grown_post cluster conn
    [new .ok [] (cluster.clients conn).profile.text time]
  cases hnext
  exact ⟨hset.congr rfl rfl hset.standby hset.heard rfl rfl, htyped, hgrown⟩

theorem Attested.shows (hattested : Attested setting ledger cluster) {packet : Packet}
    (hdue : Own (nameOf setting.names conn) packet ∨
      ledger.Due (nameOf setting.names conn) packet) :
    Attested setting ledger { cluster with
      screen := Function.update cluster.screen conn
        (cluster.screen conn ++ [packet]) } := by
  obtain ⟨hprofiles, hprimary, hstandby, hheard, hapart, hscreens⟩ := hattested
  refine ⟨hprofiles, hprimary, hstandby, hheard, hapart, fun other shown hshown => ?_⟩
  dsimp only at hshown
  by_cases hother : other = conn
  · subst hother
    rw [Function.update_self] at hshown
    rcases List.mem_append.1 hshown with hold | hnew
    · exact hscreens other shown hold
    · exact List.mem_singleton.1 hnew ▸ hdue
  · rw [Function.update_of_ne hother] at hshown
    exact hscreens other shown hshown

/-- A client is no backup. -/
theorem Attested.notMem (hattested : Attested setting ledger cluster)
    (hdialed : (cluster.dialed conn).head? = some side) :
    conn ∉ setting.backups side := by
  intro hbackup
  cases side with
  | primary =>
      rw [List.mem_singleton.1 hbackup, hattested.apart] at hdialed
      cases hdialed
  | standby => cases hbackup

theorem attested_display (hattested : Attested setting ledger cluster)
    (hmove : cluster.display conn = some next) :
    Kept setting ledger cluster next := by
  obtain ⟨_, hmove⟩ := Option.ite_none_right_eq_some.1 hmove
  simp only [Option.bind_eq_bind, Option.bind_eq_some_iff] at hmove
  obtain ⟨side, hdialed, site, hsite, packet, hpacket, hnext⟩ := hmove
  have hserver := hattested.ofSite hsite
  have hdue := hserver.grounded.vouched.backed.written conn packet
    (List.mem_of_getElem? hpacket)
  rw [Permitted, if_neg (hattested.notMem hdialed)] at hdue
  have hshown : SiteAttested (nameOf setting.names) ledger (setting.backups side)
      { site with shown := Function.update site.shown conn (site.shown conn + 1) } :=
    ⟨hserver.grounded, hserver.requests⟩
  have hreceived := hattested.setSite hsite hshown List.prefix_rfl
  have hset := @Attested.setClient _ _ _ conn hreceived
    (if packet.cmd = .closeConn then (cluster.clients conn).exit
      else cluster.clients conn) (by
    rw [setSite_clients]
    split <;> rfl)
  have hgrown := @grown_setSite _ _ _ { site with
    shown := Function.update site.shown conn (site.shown conn + 1) } hsite (.refl _)
  cases hnext
  cases side <;> exact ⟨hset.shows hdue, rfl, hgrown⟩

/-! ### The servers -/

theorem site_of_running (hrunning : cluster.running side = some site) :
    cluster.site side = some site := by
  unfold Cluster.running at hrunning
  split at hrunning
  · cases hrunning
  · exact (Option.filter_eq_some_iff.1 hrunning).1

theorem Attested.ofRunning (hattested : Attested setting ledger cluster)
    (hrunning : cluster.running side = some site) :
    SiteAttested (nameOf setting.names) ledger (setting.backups side) site :=
  hattested.ofSite (site_of_running hrunning)

theorem attested_serverMove (hattested : Attested setting ledger cluster)
    (hrunning : cluster.running side = some site)
    {requests : Conn → Channel Packet} {action : Threads.Action}
    (hrequests : ∀ other, (requests other).log = (site.requests other).log)
    (hhonest : Honest (nameOf setting.names) ledger conn action)
    (hmove : cluster.serverMove side site requests ⟨conn, time, action⟩ = some next) :
    Kept setting ledger cluster next := by
  have hserver := hattested.ofRunning hrunning
  have hsite := site_of_running hrunning
  obtain ⟨system, hstep, rfl⟩ := Option.map_eq_some_iff.1 hmove
  have houtputs := outputs_of_transition (transition_of_step hstep).2
  refine ⟨hattested.setSite hsite ⟨hserver.grounded.step hhonest hstep, ?_⟩ houtputs,
    setSite_typed, grown_setSite hsite (hserver.grounded.extends hstep)⟩
  intro other packet
  rw [hrequests]
  exact hserver.requests other packet

theorem attested_deliver (hattested : Attested setting ledger cluster)
    (hmove : cluster.deliver side conn time = some next) :
    Kept setting ledger cluster next := by
  simp only [Cluster.deliver, Option.bind_eq_bind, Option.bind_eq_some_iff] at hmove
  obtain ⟨site, hrunning, ⟨packet, channel⟩, hreceive, hmove⟩ := hmove
  refine attested_serverMove hattested hrunning (fun other => ?_) ?_ hmove
  · by_cases hother : other = conn
    · subst hother
      rw [Function.update_self, Channel.log_of_receive hreceive]
    · rw [Function.update_of_ne hother]
  · exact (hattested.ofRunning hrunning).requests conn packet
      (Channel.mem_log_of_receive hreceive)

theorem attested_vanish (hattested : Attested setting ledger cluster)
    (hmove : cluster.vanish side conn time = some next) :
    Kept setting ledger cluster next := by
  simp only [Cluster.vanish, Option.bind_eq_bind, Option.bind_eq_some_iff] at hmove
  obtain ⟨site, hrunning, hmove⟩ := hmove
  obtain ⟨_, hmove⟩ := Option.ite_none_right_eq_some.1 hmove
  refine attested_serverMove hattested hrunning (fun _ => rfl) ?_ hmove
  exact genuine_zeroPacket

theorem attested_proceed (hattested : Attested setting ledger cluster)
    (hmove : cluster.proceed side conn time = some next) :
    Kept setting ledger cluster next := by
  simp only [Cluster.proceed, Option.bind_eq_bind, Option.bind_eq_some_iff] at hmove
  obtain ⟨site, hrunning, hmove⟩ := hmove
  refine attested_serverMove hattested hrunning (fun _ => rfl) ?_ hmove
  exact trivial

/-- The backup becomes something that has all that it had. -/
theorem Attested.setStandby (hattested : Attested setting ledger cluster)
    {standby : Standby} {router : ByteString}
    (hstandby : StandbyAttested (nameOf setting.names) ledger standby)
    (hheard : Heard (writtenTo setting.backupConn cluster.primary.server.store) standby)
    (hgrown : ∀ store, standby.store = some store →
      ∃ earlier, cluster.standby.store = some earlier ∧ Extends earlier store) :
    Kept setting ledger cluster
      { cluster with standby := standby, router := router } where
  attested := hattested.congr rfl rfl hstandby hheard rfl rfl
  typed := rfl
  grown side store hstore := by
    cases side with
    | primary => exact ⟨store, hstore, .refl store⟩
    | standby => exact hgrown store hstore

/-- The backup hears of nothing that has not been said. -/
theorem attested_relay (hattested : Attested setting ledger cluster)
    (hmove : cluster.relay setting time = some next) :
    Kept setting ledger cluster next := by
  have hstandby := hattested.standby
  have hheard := hattested.heard
  unfold Cluster.relay at hmove
  split at hmove
  · next follower hstage =>
      rw [hstage] at hstandby hheard
      obtain ⟨packet, hpacket, hnext⟩ := Option.map_eq_some_iff.1 hmove
      have hcredible := hattested.primary.grounded.vouched.backed.written
        setting.backupConn packet (List.mem_of_getElem? hpacket)
      rw [Permitted, if_pos (List.mem_singleton_self _)] at hcredible
      obtain ⟨hagain, hended⟩ := @performs_of_process packet follower time
        hstandby.listed
      have hgrown {later : Server} {store : Store}
          (hperforms : Performs ⟨follower.received, packet⟩ follower.backup later)
          (hstore : some later.store = some store) :
          ∃ earlier, cluster.standby.store = some earlier ∧ Extends earlier store := by
        rw [hstage, ← Option.some.inj hstore]
        exact ⟨_, rfl, hperforms.store.extends hstandby.backed.wellFormed⟩
      split at hnext
      · next later hturn =>
          cases hnext
          have hperforms := hagain later hturn
          exact hattested.setStandby (hstandby.performs hperforms hcredible)
            (hheard.next hstandby.backed.wellFormed hpacket hturn)
            fun _ => hgrown hperforms
      · next later hturn =>
          cases hnext
          have hperforms := hended later hturn
          exact hattested.setStandby (hstandby.performs hperforms hcredible) trivial
            fun _ => hgrown hperforms
      · cases hnext
        exact hattested.setStandby trivial trivial fun _ hstore => by cases hstore
  · cases hmove

/-- The backup becomes a server with what it has. -/
theorem attested_standby (hattested : Attested setting ledger cluster)
    (hmove : cluster.loseContact = some next ∨ cluster.takeOver setting = some next ∨
      cluster.listen = some next) :
    Kept setting ledger cluster next := by
  have hstandby := hattested.standby
  have hsame {standby : Standby} (hkept : cluster.standby.store = standby.store) store
      (hstore : standby.store = some store) :
      ∃ earlier, cluster.standby.store = some earlier ∧ Extends earlier store :=
    ⟨store, hkept.trans hstore, .refl store⟩
  rcases hmove with hmove | hmove | hmove
  · unfold Cluster.loseContact at hmove
    split at hmove
    · next hstage =>
        rw [hstage] at hstandby hsame
        obtain ⟨_, hnext⟩ := Option.ite_none_right_eq_some.1 hmove
        cases hnext
        exact hattested.setStandby hstandby trivial (hstage ▸ hsame rfl)
    · cases hmove
  · unfold Cluster.takeOver at hmove
    split at hmove
    · next hstage =>
        rw [hstage] at hstandby hsame
        cases hmove
        exact hattested.setStandby hstandby trivial (hstage ▸ hsame rfl)
    · cases hmove
  · unfold Cluster.listen at hmove
    split at hmove
    · next hstage =>
        rw [hstage] at hstandby hsame
        cases hmove
        have hserving : SiteAttested (nameOf setting.names) ledger []
            (.start (.serving _)) :=
          ⟨grounded_serving hstandby, fun _ _ hpacket => by cases hpacket⟩
        exact hattested.setStandby hserving trivial (hstage ▸ hsame rfl)
    · cases hmove

theorem Attested.step {move : Move}
    (hattested : Attested setting (ledgerOf setting.names cluster.typed) cluster)
    (hstep : step setting cluster move = some next) :
    Attested setting (ledgerOf setting.names next.typed) next ∧ Grown cluster next := by
  have hsilent
      (hkept : Kept setting (ledgerOf setting.names cluster.typed) cluster next) :
      Attested setting (ledgerOf setting.names next.typed) next ∧
        Grown cluster next := by
    rw [hkept.typed]
    exact ⟨hkept.attested, hkept.grown⟩
  cases move with
  | client conn event => exact attested_clientMove hattested hstep
  | dial conn side => exact hsilent (attested_dial hattested hstep)
  | announce conn time => exact hsilent (attested_announce hattested hstep)
  | display conn => exact hsilent (attested_display hattested hstep)
  | deliver side conn time => exact hsilent (attested_deliver hattested hstep)
  | vanish side conn time => exact hsilent (attested_vanish hattested hstep)
  | proceed side conn time => exact hsilent (attested_proceed hattested hstep)
  | relay time => exact hsilent (attested_relay hattested hstep)
  | crash =>
      cases hstep
      exact ⟨hattested.congr rfl rfl hattested.standby hattested.heard rfl rfl,
        .of_same rfl⟩
  | loseContact => exact hsilent (attested_standby hattested (.inl hstep))
  | takeOver => exact hsilent (attested_standby hattested (.inr (.inl hstep)))
  | listen => exact hsilent (attested_standby hattested (.inr (.inr hstep)))

end Steps

end TwitterLike.Failover
