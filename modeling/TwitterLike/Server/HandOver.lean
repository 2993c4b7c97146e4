import TwitterLike.Server.Deliveries
import TwitterLike.Server.Sessions

/-!
# Exactly-once hand-over

On a primary whose clients log in once and then follow, send and leave, a packet
handed to a follower waits in its inbox or has been written to its sessions in
one pass, exactly once and for good.
-/

namespace TwitterLike.HandOver

open TwitterLike.ByteBuffer
open TwitterLike.PacketFormat
open TwitterLike.Profiles
open TwitterLike.ProfilesManager
open TwitterLike.FollowGraph
open TwitterLike.Threads
open TwitterLike.SessionAccounting
open TwitterLike.Sessions
open TwitterLike.Deliveries
open TwitterLike.Transition

/-! ## Followers handled so far -/

/-- How many turns of its loop a call of `sendToFollowersOf` has made. -/
def progress (system : System) (record : SendRecord) : ℕ :=
  match system.threads record.conn with
  | .sending _ message index =>
      if message = record.message then index else record.followers.length
  | _ => record.followers.length

/-- The followers that the call has handled. -/
def handled (system : System) (record : SendRecord) : List ProfileRef :=
  record.followers.take (progress system record)

theorem handled_subset (system : System) (record : SendRecord) :
    ∀ follower ∈ handled system record, follower ∈ record.followers :=
  fun _ => List.mem_of_mem_take

/-- The point is in the loop of `sendToFollowersOf`. -/
def Sending : Point → Prop
  | .sending _ _ _ => True
  | _ => False

theorem handled_of_not_sending {system : System} {record : SendRecord}
    (hpoint : ¬ Sending (system.threads record.conn)) :
    handled system record = record.followers := by
  have hprogress : progress system record = record.followers.length := by
    rw [progress]
    split
    · next hsending =>
        rw [hsending] at hpoint
        exact absurd trivial hpoint
    · rfl
  rw [handled, hprogress, List.take_length]

theorem handled_of_sending {system : System} {record : SendRecord}
    {profile : ProfileRef} {index : ℕ}
    (hpoint : system.threads record.conn =
      .sending profile record.message index) :
    handled system record = record.followers.take index := by
  simp [handled, progress, hpoint]

theorem handled_of_sending_other {system : System} {record : SendRecord}
    {profile : ProfileRef} {message : Message} {index : ℕ}
    (hpoint : system.threads record.conn = .sending profile message index)
    (hother : message ≠ record.message) :
    handled system record = record.followers := by
  simp [handled, progress, hpoint, hother]

theorem handled_congr {system next : System} {record : SendRecord}
    (hpoint : next.threads record.conn = system.threads record.conn) :
    handled next record = handled system record := by
  simp only [handled, progress, hpoint]

/-! ## Records -/

/-- The records of the calls of `sendToFollowersOf`: each call has its own
message, and a call in progress works on the followers vector it has recorded. -/
structure History (system : System) : Prop where
  distinct : (system.sends.map SendRecord.message).Nodup
  old : ∀ record ∈ system.sends, record.message.origin < system.received
  nodup : ∀ record ∈ system.sends, record.followers.Nodup
  allocated : ∀ record ∈ system.sends, ∀ follower ∈ record.followers,
    follower < system.store.allocated
  active : ∀ conn profile message index,
    system.threads conn = .sending profile message index →
      ∃ record ∈ system.sends, record.conn = conn ∧ record.profile = profile ∧
        record.message = message ∧
        record.followers = (system.store.objects profile).followers

theorem history_start : History System.start where
  distinct := List.nodup_nil
  old _ hrecord := by cases hrecord
  nodup _ hrecord := by cases hrecord
  allocated _ hrecord := by cases hrecord
  active _ _ _ _ hpoint := by cases hpoint

/-- A message belongs to one call. -/
theorem History.record_unique {system : System} (hhistory : History system)
    {left right : SendRecord} (hleft : left ∈ system.sends)
    (hright : right ∈ system.sends) (hmessage : left.message = right.message) :
    left = right :=
  List.inj_on_of_nodup_map hhistory.distinct hleft hright hmessage

/-- What a step does to the messages and to the calls in progress. -/
inductive MessageStep (system next : System) : Prop where
  | quiet (hsends : next.sends = system.sends)
      (hreceived : system.received ≤ next.received)
      (hpoints : ∀ conn, next.threads conn = system.threads conn ∨
        ¬ Sending (next.threads conn) ∧ ¬ Sending (system.threads conn))
      (hinbox : ∀ ref,
        (next.store.objects ref).inbox = (system.store.objects ref).inbox ∨
          system.store.allocated ≤ ref ∧ (next.store.objects ref).inbox = [])
      (hpasses : ∀ ref, passesTo next.store ref = passesTo system.store ref)
  | begun (conn : Conn) (profile : ProfileRef) (packet : Packet)
      (hpoint : system.threads conn = .looping profile)
      (hnext : next = (((system.countPacket).recordSend conn profile
        ⟨system.received, packet⟩).setController
          system.controller.requestWrite).goto conn
            (.sending profile ⟨system.received, packet⟩ 0))
  | sent (conn : Conn) (profile follower : ProfileRef) (message : Message)
      (index : ℕ)
      (hpoint : system.threads conn = .sending profile message index)
      (hfollower : (system.store.objects profile).followers[index]? =
        some follower)
      (hnext : next = (system.onStore fun store =>
        store.sendOrInsertInbox follower message).goto conn
          (.sending profile message (index + 1)))
  | done (conn : Conn) (profile : ProfileRef) (message : Message) (index : ℕ)
      (hpoint : system.threads conn = .sending profile message index)
      (hlast : (system.store.objects profile).followers[index]? = none)
      (hnext : next = (system.setController
        system.controller.releaseWrite).goto conn
          (.forwarding message.packet 0 (.loop profile)))
  | drained (conn : Conn) (profile : ProfileRef)
      (hpoint : system.threads conn = .fetching profile)
      (hnext : next = (system.onStore fun store =>
        (store.fetchInboxContent profile).2).goto conn (.looping profile))

section Steps

variable {system next middle : System} {conn : Conn} {point before : Point}
  {time : BitVec 64} {action : Action}

/-- The two stores have the same messages, up to a new profile. -/
structure SameMessages (before after : Store) : Prop where
  inbox : ∀ ref, (after.objects ref).inbox = (before.objects ref).inbox ∨
    before.allocated ≤ ref ∧ (after.objects ref).inbox = []
  passes : ∀ ref, passesTo after ref = passesTo before ref

theorem SameMessages.of_objects {store after : Store}
    (hinbox : ∀ ref, (after.objects ref).inbox = (store.objects ref).inbox)
    (hpasses : ∀ ref, passesTo after ref = passesTo store ref) :
    SameMessages store after :=
  ⟨fun ref => .inl (hinbox ref), hpasses⟩

theorem SameMessages.of_sameQueues {store after : Store}
    (hsame : SameQueues store after) : SameMessages store after :=
  .of_objects hsame.inbox hsame.passes

theorem SameMessages.refl (store : Store) : SameMessages store store :=
  .of_sameQueues (.refl store)

theorem SameMessages.trans_sameMemory {store middle after : Store}
    (hsame : SameMessages store middle)
    (hmemory : Store.SameMemory middle after) : SameMessages store after where
  inbox ref := by
    rw [hmemory.objects]
    exact hsame.inbox ref
  passes ref := by
    rw [passesTo_of_outputs middle ref hmemory.outputs]
    exact hsame.passes ref

theorem created_sameMessages (store : Store) (profileId : ByteString) :
    SameMessages store (store.created profileId) where
  inbox ref := by
    rw [created_objects]
    split
    · next heq => exact .inr ⟨heq.ge, rfl⟩
    · exact .inl rfl
  passes _ := rfl

theorem findOrCreate_sameMessages {profileId : ByteString} {store : Store}
    {result : Except Exit ProfileRef}
    (hfind : system.store.findOrCreate profileId (some conn) time =
      (result, store)) : SameMessages system.store store := by
  cases result with
  | ok profile =>
      rcases Store.findOrCreate_ok _ hfind with ⟨_, _, rfl⟩ | ⟨_, _, hsame⟩
      · exact .of_objects (fun _ => rfl) fun _ => rfl
      · exact (created_sameMessages _ _).trans_sameMemory hsame
  | error exit =>
      rcases Store.findOrCreate_error _ hfind with ⟨_, _, rfl⟩ | ⟨_, _, hsame⟩
      · exact .of_objects (fun _ => rfl)
          fun ref => passesTo_sendPacket system.store ref conn _
      · exact (created_sameMessages _ _).trans_sameMemory hsame

/-- A step of a thread that neither is nor comes into the loop and moves no
message. -/
theorem messageStep_of_goto (hsends : middle.sends = system.sends)
    (hreceived : system.received ≤ middle.received)
    (hthreads : middle.threads = system.threads)
    (hbefore : system.threads conn = before) (hout : ¬ Sending before)
    (hpoint : ¬ Sending point)
    (hsame : SameMessages system.store middle.store) :
    MessageStep system (middle.goto conn point) := by
  refine .quiet hsends hreceived (fun other => ?_) hsame.inbox hsame.passes
  rcases middle.goto_threads_cases conn point other with
    ⟨rfl, hgoto⟩ | ⟨_, hgoto⟩
  · rw [hgoto, hbefore]
    exact .inr ⟨hpoint, hout⟩
  · rw [hgoto, hthreads]
    exact .inl rfl

/-- A step that moves no thread and no message. -/
theorem messageStep_of_keep (hsends : next.sends = system.sends)
    (hreceived : system.received ≤ next.received)
    (hthreads : next.threads = system.threads)
    (hsame : SameMessages system.store next.store) : MessageStep system next :=
  .quiet hsends hreceived (fun _ => .inl (by rw [hthreads])) hsame.inbox
    hsame.passes

theorem not_sending_of_enters {continuation : ProfileRef → Next}
    (henter : Enters before continuation) : ¬ Sending before := by
  cases henter with
  | first => exact not_false
  | again session => exact not_false

theorem not_sending_next (continuation : Next) :
    ¬ Sending continuation.point := by
  cases continuation <;> exact not_false

theorem messageStep_of_transition
    (hlive : ∀ ref, none ∉ (system.store.objects ref).sessions)
    (htransition : Transition system conn time action next) :
    MessageStep system next := by
  cases htransition with
  | found henter hcmd hwritable hfind =>
      exact messageStep_of_goto rfl (Nat.le_succ _) rfl rfl
        (not_sending_of_enters henter) not_false
        (findOrCreate_sameMessages hfind)
  | refused henter hcmd hwritable hfind =>
      exact messageStep_of_goto rfl (Nat.le_succ _) rfl rfl
        (not_sending_of_enters henter) not_false
        (findOrCreate_sameMessages hfind)
  | findFailed henter hcmd hwritable hfind hexit =>
      exact messageStep_of_keep rfl (Nat.le_succ _) rfl
        (findOrCreate_sameMessages hfind)
  | joined hpoint hcmd =>
      exact messageStep_of_goto rfl (Nat.le_succ _) rfl hpoint not_false
        not_false (.refl _)
  | senderFound hpoint hprofile hbackup hfound =>
      exact messageStep_of_goto rfl (Nat.le_succ _) rfl hpoint not_false
        not_false (.refl _)
  | senderUnknown hpoint hprofile hbackup hunknown =>
      exact messageStep_of_keep rfl (Nat.le_succ _) rfl (.refl _)
  | reconnected hpoint =>
      exact messageStep_of_goto rfl (le_refl _) rfl hpoint not_false not_false
        (.of_sameQueues (updateSessionsOn_sameQueues _ _ _))
  | addressPushed hpoint =>
      exact messageStep_of_goto rfl (le_refl _) rfl hpoint not_false not_false
        (.refl _)
  | propagated hpoint =>
      exact messageStep_of_goto rfl (le_refl _) rfl hpoint not_false not_false
        (.refl _)
  | registered hpoint =>
      exact messageStep_of_goto rfl (le_refl _) rfl hpoint not_false not_false
        (.of_sameQueues (incSessionsOn_sameQueues _ _ _))
  | forwarded hpoint hbackup =>
      exact messageStep_of_goto rfl (le_refl _) rfl hpoint not_false not_false
        (.of_objects (fun _ => rfl) fun ref => passesTo_sendPacket _ ref _ _)
  | forwardDone hpoint hlast =>
      exact messageStep_of_goto rfl (le_refl _) rfl hpoint not_false
        (not_sending_next _) (.refl _)
  | greeted hpoint =>
      exact messageStep_of_goto rfl (le_refl _) rfl hpoint not_false not_false
        (.of_objects (fun _ => rfl) fun ref => passesTo_sendPacket _ ref _ _)
  | fetched hpoint hfetch => exact .drained conn _ hpoint rfl
  | fetchFailed hpoint hfetch =>
      rw [Store.fetchInboxContent, fetchInboxContent_of_noNull (hlive _)]
        at hfetch
      cases hfetch
  | @followed packet profile store hpoint hcmd hwritable hfollow =>
      have hsame := SameMessages.of_sameQueues
        (addFollowerTo_sameQueues system.store packet.payload profile)
      rw [hfollow] at hsame
      exact messageStep_of_goto rfl (Nat.le_succ _) rfl hpoint not_false
        not_false hsame
  | @followFailed packet profile store exit hpoint hcmd hwritable hfollow =>
      have hsame := SameMessages.of_sameQueues
        (addFollowerTo_sameQueues system.store packet.payload profile)
      rw [hfollow] at hsame
      exact messageStep_of_keep rfl (Nat.le_succ _) rfl hsame
  | sendBegun hpoint hcmd hwritable => exact .begun conn _ _ hpoint rfl
  | sent hpoint hfollower => exact .sent conn _ _ _ _ hpoint hfollower rfl
  | sendDone hpoint hlast => exact .done conn _ _ _ hpoint hlast rfl
  | left hpoint hcmd =>
      exact messageStep_of_goto rfl (Nat.le_succ _) rfl hpoint not_false
        not_false (.of_sameQueues (decSessionsOn_sameQueues _ _ _))
  | listReplaced => exact messageStep_of_keep rfl (Nat.le_succ _) rfl (.refl _)
  | ignored => exact messageStep_of_keep rfl (Nat.le_succ _) rfl (.refl _)
  | loopLeft hpoint hclosed =>
      exact messageStep_of_goto rfl (le_refl _) rfl hpoint not_false not_false
        (.refl _)
  | closed hpoint =>
      exact messageStep_of_goto rfl (le_refl _) rfl hpoint not_false not_false
        (.of_objects (fun _ => rfl) fun _ => rfl)

/-- While a call of `sendToFollowersOf` runs, no other thread changes the follow
graph. -/
theorem followers_eq_of_sending (hlock : LockInvariant system)
    (hgraph : GraphStep system next) {other : Conn}
    (hsending : Sending (system.threads other)) (ref : ProfileRef) :
    (next.store.objects ref).followers =
      (system.store.objects ref).followers := by
  have hholds : HoldsLock (system.threads other) := by
    generalize system.threads other = inside at hsending
    cases inside with
    | sending => trivial
    | _ => exact hsending.elim
  cases hgraph with
  | same hsame => exact hsame.followers ref
  | created _ hwritable _ _ =>
      exact absurd hholds (not_holdsLock_of_writable hlock hwritable other)
  | pushed _ _ _ _ _ hwritable _ _ _ _ =>
      exact absurd hholds (not_holdsLock_of_writable hlock hwritable other)

/-- The calls in progress after the step are those before it, and their records
are kept. -/
theorem History.keep (hhistory : History system) (hlock : LockInvariant system)
    (hgraph : GraphStep system next) (hsends : next.sends = system.sends)
    (hreceived : system.received ≤ next.received)
    (hpoints : ∀ other profile message index,
      next.threads other = .sending profile message index →
        ∃ before, system.threads other = .sending profile message before) :
    History next where
  distinct := hsends ▸ hhistory.distinct
  old record hrecord :=
    (hhistory.old record (hsends ▸ hrecord)).trans_le hreceived
  nodup record hrecord := hhistory.nodup record (hsends ▸ hrecord)
  allocated record hrecord follower hfollower :=
    (hhistory.allocated record (hsends ▸ hrecord) follower hfollower).trans_le
      (allocated_le hgraph)
  active other profile message index hpoint := by
    obtain ⟨before, hbefore⟩ := hpoints other profile message index hpoint
    obtain ⟨record, hrecord, hconn, hprofile, hmessage, hfollowers⟩ :=
      hhistory.active other profile message before hbefore
    refine ⟨record, hsends ▸ hrecord, hconn, hprofile, hmessage, ?_⟩
    rw [hfollowers, followers_eq_of_sending hlock hgraph (by rw [hbefore]; trivial)]

/-- A new call records its message and the followers vector. -/
theorem History.begun (hhistory : History system)
    (hwf : WellFormed system.store) {profile : ProfileRef} {packet : Packet}
    (hpoint : system.threads conn = .looping profile) :
    History ((((system.countPacket).recordSend conn profile
      ⟨system.received, packet⟩).setController
        system.controller.requestWrite).goto conn
          (.sending profile ⟨system.received, packet⟩ 0)) where
  distinct := by
    change ((system.sends ++ [_]).map SendRecord.message).Nodup
    rw [List.map_append]
    apply hhistory.distinct.append (List.nodup_singleton _)
    rw [List.disjoint_singleton]
    intro hmem
    obtain ⟨record, hrecord, hmessage⟩ := List.mem_map.1 hmem
    have hold := hhistory.old record hrecord
    rw [hmessage] at hold
    exact absurd hold (lt_irrefl _)
  old record hrecord := by
    rcases List.mem_append.1 hrecord with hold | hnew
    · exact (hhistory.old record hold).trans (Nat.lt_succ_self _)
    · rw [List.mem_singleton.1 hnew]
      exact Nat.lt_succ_self _
  nodup record hrecord := by
    rcases List.mem_append.1 hrecord with hold | hnew
    · exact hhistory.nodup record hold
    · rw [List.mem_singleton.1 hnew]
      exact hwf.followers_nodup profile
  allocated record hrecord := by
    rcases List.mem_append.1 hrecord with hold | hnew
    · exact hhistory.allocated record hold
    · rw [List.mem_singleton.1 hnew]
      exact fun _ => hwf.follower_lt
  active other sender message index hsending := by
    rcases System.point_of_goto hsending with ⟨rfl, hturn⟩ | ⟨_, hsending⟩
    · cases hturn
      exact ⟨_, List.mem_append_right _ List.mem_cons_self, rfl, rfl, rfl, rfl⟩
    · obtain ⟨record, hrecord, hfacts⟩ :=
        hhistory.active other sender message index hsending
      exact ⟨record, List.mem_append_left _ hrecord, hfacts⟩

theorem History.step (hhistory : History system) (hlock : LockInvariant system)
    (hinvariant : GraphInvariant system) (hgraph : GraphStep system next)
    (hmessages : MessageStep system next) : History next := by
  cases hmessages with
  | quiet hsends hreceived hpoints hinbox hpasses =>
      refine hhistory.keep hlock hgraph hsends hreceived ?_
      intro other profile message index hpoint
      rcases hpoints other with hsame | ⟨hout, _⟩
      · exact ⟨index, hsame ▸ hpoint⟩
      · rw [hpoint] at hout
        exact absurd trivial hout
  | begun conn profile packet hpoint hnext =>
      subst hnext
      exact hhistory.begun hinvariant.wellFormed hpoint
  | sent conn profile follower message index hpoint hfollower hnext =>
      subst hnext
      refine hhistory.keep hlock hgraph rfl (le_refl _) fun _ _ _ _ =>
        System.sending_of_goto ?_
      rintro _ _ _ ⟨⟩
      exact ⟨index, hpoint⟩
  | done conn profile message index hpoint hlast hnext =>
      subst hnext
      refine hhistory.keep hlock hgraph rfl (le_refl _) fun _ _ _ _ =>
        System.sending_of_goto ?_
      rintro _ _ _ ⟨⟩
  | drained conn profile hpoint hnext =>
      subst hnext
      refine hhistory.keep hlock hgraph rfl (le_refl _) fun _ _ _ _ =>
        System.sending_of_goto ?_
      rintro _ _ _ ⟨⟩

end Steps

/-! ## Deliveries -/

/-- Every handled follower has the message in one place, and every message that
is somewhere has been handed over there by a call. -/
structure Delivered (system : System) : Prop where
  settled : ∀ record ∈ system.sends, ∀ follower ∈ handled system record,
    Settled system.store follower record.message
  handedOver : ∀ ref message, Present system.store ref message →
    ∃ record ∈ system.sends, record.message = message ∧
      ref ∈ handled system record

theorem delivered_start : Delivered System.start where
  settled _ hrecord := by cases hrecord
  handedOver _ _ hpresent := by
    rcases hpresent with hinbox | ⟨_, hpass, _⟩
    · cases hinbox
    · cases hpass

/-- Everything that holds in the runs of well-behaved clients. -/
structure Invariant (system : System) : Prop where
  accounts : Accounts system
  graph : GraphInvariant system
  sessions : SessionsInvariant system
  history : History system
  delivered : Delivered system

theorem invariant_start : Invariant System.start where
  accounts := accounts_start
  graph := graphInvariant_start
  sessions := sessionsInvariant_start
  history := history_start
  delivered := delivered_start

theorem Invariant.writable {system : System} (hinvariant : Invariant system)
    (ref : ProfileRef) : Writable system.store ref where
  live := hinvariant.sessions.live ref
  nodup := hinvariant.sessions.nodup ref
  counted := (hinvariant.accounts.accounted ref).1

theorem not_mem_take_of_nodup {followers : List ProfileRef}
    (hnodup : followers.Nodup) {index : ℕ} {follower : ProfileRef}
    (hfollower : followers[index]? = some follower) :
    follower ∉ followers.take index := by
  intro hmem
  obtain ⟨hlt, hget⟩ := List.getElem?_eq_some_iff.1 hfollower
  obtain ⟨other, hother, hsame⟩ := List.mem_take_iff_getElem.1 hmem
  have hindex := (List.Nodup.getElem_inj_iff hnodup).1 (hsame.trans hget.symm)
  omega

section Deliveries

variable {system next : System} {conn : Conn} {profile follower : ProfileRef}
  {message : Message} {index : ℕ}

theorem handled_quiet (hpoints : ∀ conn,
      next.threads conn = system.threads conn ∨
        ¬ Sending (next.threads conn) ∧ ¬ Sending (system.threads conn))
    (record : SendRecord) : handled next record = handled system record := by
  rcases hpoints record.conn with hsame | ⟨hafter, hbefore⟩
  · exact handled_congr hsame
  · rw [handled_of_not_sending hafter, handled_of_not_sending hbefore]

/-- A new call has handled nobody, and the others are where they were. -/
theorem handled_begun (hhistory : History system) {packet : Packet}
    (hpoint : system.threads conn = .looping profile) {record : SendRecord}
    (hrecord : record ∈ system.sends) :
    handled ((((system.countPacket).recordSend conn profile
      ⟨system.received, packet⟩).setController
        system.controller.requestWrite).goto conn
          (.sending profile ⟨system.received, packet⟩ 0)) record =
      handled system record := by
  rcases System.goto_threads_cases (((system.countPacket).recordSend conn
      profile ⟨system.received, packet⟩).setController
        system.controller.requestWrite) conn
          (.sending profile ⟨system.received, packet⟩ 0) record.conn with
    ⟨hconn, hgoto⟩ | ⟨_, hgoto⟩
  · have hold := hhistory.old record hrecord
    have hother : (⟨system.received, packet⟩ : Message) ≠ record.message := by
      intro heq
      rw [← heq] at hold
      exact absurd hold (lt_irrefl _)
    rw [handled_of_sending_other hgoto hother, handled_of_not_sending]
    rw [hconn, hpoint]
    exact not_false
  · exact handled_congr hgoto

theorem Delivered.quiet (hdelivered : Delivered system)
    (hhistory : History system) (hsends : next.sends = system.sends)
    (hhandled : ∀ record ∈ system.sends,
      handled next record = handled system record)
    (hinbox : ∀ ref,
      (next.store.objects ref).inbox = (system.store.objects ref).inbox ∨
        system.store.allocated ≤ ref ∧ (next.store.objects ref).inbox = [])
    (hpasses : ∀ ref, passesTo next.store ref = passesTo system.store ref) :
    Delivered next where
  settled record hrecord ref href := by
    rw [hsends] at hrecord
    rw [hhandled record hrecord] at href
    have hlt := hhistory.allocated record hrecord ref
      (handled_subset system record ref href)
    refine (hdelivered.settled record hrecord ref href).congr ?_ (hpasses ref)
    exact (hinbox ref).resolve_right fun hfresh => absurd hlt hfresh.1.not_gt
  handedOver ref message hpresent := by
    have hbefore : Present system.store ref message := by
      rw [Present, hpasses] at hpresent
      rcases hinbox ref with hsame | ⟨_, hempty⟩
      · rw [hsame] at hpresent
        exact hpresent
      · rw [hempty] at hpresent
        exact .inr (hpresent.resolve_left List.not_mem_nil)
    obtain ⟨record, hrecord, hmessage, href⟩ :=
      hdelivered.handedOver ref message hbefore
    refine ⟨record, hsends ▸ hrecord, hmessage, ?_⟩
    rw [hhandled record hrecord]
    exact href

theorem Delivered.begun (hdelivered : Delivered system)
    (hhistory : History system) {packet : Packet}
    (hpoint : system.threads conn = .looping profile) :
    Delivered ((((system.countPacket).recordSend conn profile
      ⟨system.received, packet⟩).setController
        system.controller.requestWrite).goto conn
          (.sending profile ⟨system.received, packet⟩ 0)) where
  settled record hrecord ref href := by
    rcases List.mem_append.1 hrecord with hold | hnew
    · rw [handled_begun hhistory hpoint hold] at href
      exact hdelivered.settled record hold ref href
    · rw [List.mem_singleton.1 hnew] at href
      rw [handled_of_sending (Function.update_self ..), List.take_zero] at href
      cases href
  handedOver ref message hpresent := by
    obtain ⟨record, hrecord, hmessage, href⟩ :=
      hdelivered.handedOver ref message hpresent
    refine ⟨record, List.mem_append_left _ hrecord, hmessage, ?_⟩
    rw [handled_begun hhistory hpoint hrecord]
    exact href

/-- One turn of the loop handles one more follower of its own call. -/
theorem handled_sent (hhistory : History system)
    (hpoint : system.threads conn = .sending profile message index)
    (hfollower : (system.store.objects profile).followers[index]? =
      some follower) {record : SendRecord} (hrecord : record ∈ system.sends) :
    handled ((system.onStore fun store =>
        store.sendOrInsertInbox follower message).goto conn
          (.sending profile message (index + 1))) record =
      handled system record ++
        if record.message = message then [follower] else [] := by
  obtain ⟨active, hactive, hconn, -, hmessage, hfollowers⟩ :=
    hhistory.active conn profile message index hpoint
  by_cases hown : record.message = message
  · have heq : record = active :=
      hhistory.record_unique hrecord hactive (hown.trans hmessage.symm)
    subst heq
    subst hconn
    subst hown
    rw [handled_of_sending hpoint, handled_of_sending (Function.update_self ..),
      hfollowers, List.take_add_one, hfollower, if_pos rfl]
    rfl
  · rw [if_neg hown, List.append_nil]
    by_cases hthread : record.conn = conn
    · subst hthread
      rw [handled_of_sending_other hpoint (Ne.symm hown),
        handled_of_sending_other (Function.update_self ..) (Ne.symm hown)]
    · exact handled_congr (Function.update_of_ne hthread ..)

theorem Delivered.sent (hinvariant : Invariant system)
    (hpoint : system.threads conn = .sending profile message index)
    (hfollower : (system.store.objects profile).followers[index]? =
      some follower) :
    Delivered ((system.onStore fun store =>
      store.sendOrInsertInbox follower message).goto conn
        (.sending profile message (index + 1))) := by
  have hhistory := hinvariant.history
  obtain ⟨active, hactive, hconn, -, hmessage, hfollowers⟩ :=
    hhistory.active conn profile message index hpoint
  have hnew : follower ∉ handled system active := by
    subst hconn hmessage
    rw [handled_of_sending hpoint]
    exact not_mem_take_of_nodup (hhistory.nodup active hactive)
      (hfollowers ▸ hfollower)
  constructor
  · intro record hrecord ref href
    rw [handled_sent hhistory hpoint hfollower hrecord] at href
    rcases List.mem_append.1 href with hold | hlast
    · refine (hinvariant.delivered.settled record hrecord ref
        hold).sendOrInsertInbox fun heq hsame => ?_
      have hactive' :=
        hhistory.record_unique hrecord hactive (hsame.trans hmessage.symm)
      rw [heq, hactive'] at hold
      exact hnew hold
    · split at hlast
      · next hown =>
          rw [List.mem_singleton.1 hlast, hown]
          refine settled_sendOrInsertInbox (hinvariant.writable follower) ?_
          intro hpresent
          obtain ⟨other, hother, hsame, hmem⟩ :=
            hinvariant.delivered.handedOver follower message hpresent
          rw [hhistory.record_unique hother hactive
            (hsame.trans hmessage.symm)] at hmem
          exact hnew hmem
      · cases hlast
  · intro ref found hpresent
    rcases present_sendOrInsertInbox hpresent with hold | ⟨rfl, rfl⟩
    · obtain ⟨record, hrecord, hsame, hmem⟩ :=
        hinvariant.delivered.handedOver ref found hold
      refine ⟨record, hrecord, hsame, ?_⟩
      rw [handled_sent hhistory hpoint hfollower hrecord]
      exact List.mem_append_left _ hmem
    · refine ⟨active, hactive, hmessage, ?_⟩
      rw [handled_sent hhistory hpoint hfollower hactive, if_pos hmessage]
      exact List.mem_append_right _ List.mem_cons_self

/-- Behind the loop all followers are handled, as they were at its end. -/
theorem handled_done (hhistory : History system)
    (hpoint : system.threads conn = .sending profile message index)
    (hlast : (system.store.objects profile).followers[index]? = none)
    {record : SendRecord} (hrecord : record ∈ system.sends) :
    handled ((system.setController system.controller.releaseWrite).goto conn
        (.forwarding message.packet 0 (.loop profile))) record =
      handled system record := by
  obtain ⟨active, hactive, hconn, -, hmessage, hfollowers⟩ :=
    hhistory.active conn profile message index hpoint
  by_cases hthread : record.conn = conn
  · subst hthread
    have hafter : ¬ Sending
        (((system.setController system.controller.releaseWrite).goto record.conn
          (.forwarding message.packet 0 (.loop profile))).threads
            record.conn) := by
      rw [System.goto_threads_self]
      exact not_false
    rw [handled_of_not_sending hafter]
    by_cases hown : record.message = message
    · have heq : record = active :=
        hhistory.record_unique hrecord hactive (hown.trans hmessage.symm)
      subst hown
      rw [handled_of_sending hpoint, List.take_of_length_le]
      rw [heq, hfollowers]
      exact List.getElem?_eq_none_iff.1 hlast
    · rw [handled_of_sending_other hpoint (Ne.symm hown)]
  · exact handled_congr (Function.update_of_ne hthread ..)

theorem handled_drained
    (hpoint : system.threads conn = .fetching profile) (record : SendRecord) :
    handled ((system.onStore fun store =>
        (store.fetchInboxContent profile).2).goto conn (.looping profile))
          record = handled system record := by
  refine handled_quiet (fun other => ?_) record
  rcases System.goto_threads_cases (system.onStore fun store =>
      (store.fetchInboxContent profile).2) conn (.looping profile) other with
    ⟨rfl, hgoto⟩ | ⟨_, hgoto⟩
  · rw [hgoto, hpoint]
    exact .inr ⟨not_false, not_false⟩
  · exact .inl hgoto

theorem Delivered.drained (hinvariant : Invariant system)
    (hpoint : system.threads conn = .fetching profile) :
    Delivered ((system.onStore fun store =>
      (store.fetchInboxContent profile).2).goto conn (.looping profile)) := by
  have hsessions : (system.store.objects profile).sessions ≠ [] := by
    have hmem : some conn ∈ (system.store.objects profile).sessions := by
      rw [hinvariant.sessions.member, hpoint]
      rfl
    exact List.ne_nil_of_mem hmem
  constructor
  · intro record hrecord ref href
    rw [handled_drained hpoint] at href
    exact (hinvariant.delivered.settled record hrecord ref
      href).fetchInboxContent (hinvariant.writable profile) hsessions
  · intro ref found hpresent
    obtain ⟨record, hrecord, hsame, hmem⟩ :=
      hinvariant.delivered.handedOver ref found
        (present_fetchInboxContent (hinvariant.writable profile).live hpresent)
    refine ⟨record, hrecord, hsame, ?_⟩
    rw [handled_drained hpoint]
    exact hmem

theorem Delivered.step (hinvariant : Invariant system)
    (hmessages : MessageStep system next) : Delivered next := by
  have hdelivered := hinvariant.delivered
  have hhistory := hinvariant.history
  cases hmessages with
  | quiet hsends hreceived hpoints hinbox hpasses =>
      exact hdelivered.quiet hhistory hsends
        (fun record _ => handled_quiet hpoints record) hinbox hpasses
  | begun conn profile packet hpoint hnext =>
      subst hnext
      exact hdelivered.begun hhistory hpoint
  | sent conn profile follower message index hpoint hfollower hnext =>
      subst hnext
      exact Delivered.sent hinvariant hpoint hfollower
  | done conn profile message index hpoint hlast hnext =>
      subst hnext
      exact hdelivered.quiet hhistory rfl
        (fun record => handled_done hhistory hpoint hlast)
        (fun _ => .inl rfl) fun _ => rfl
  | drained conn profile hpoint hnext =>
      subst hnext
      exact Delivered.drained hinvariant hpoint

/-- No step takes back what a call has handled. -/
theorem handled_mono (hhistory : History system)
    (hmessages : MessageStep system next) {record : SendRecord}
    (hrecord : record ∈ system.sends) :
    record ∈ next.sends ∧ handled system record ⊆ handled next record := by
  cases hmessages with
  | quiet hsends hreceived hpoints hinbox hpasses =>
      refine ⟨hsends ▸ hrecord, ?_⟩
      rw [handled_quiet hpoints]
      exact List.Subset.refl _
  | begun conn profile packet hpoint hnext =>
      subst hnext
      refine ⟨List.mem_append_left _ hrecord, ?_⟩
      rw [handled_begun hhistory hpoint hrecord]
      exact List.Subset.refl _
  | sent conn profile follower message index hpoint hfollower hnext =>
      subst hnext
      refine ⟨hrecord, ?_⟩
      rw [handled_sent hhistory hpoint hfollower hrecord]
      exact List.subset_append_left _ _
  | done conn profile message index hpoint hlast hnext =>
      subst hnext
      refine ⟨hrecord, ?_⟩
      rw [handled_done hhistory hpoint hlast hrecord]
      exact List.Subset.refl _
  | drained conn profile hpoint hnext =>
      subst hnext
      refine ⟨hrecord, ?_⟩
      rw [handled_drained hpoint]
      exact List.Subset.refl _

/-- A step writes a message only to all sessions that the profile has then, each
once, and there is at least one. -/
def WritesToSessions (system next : System) : Prop :=
  ∀ ref passes, passesTo next.store ref =
      passesTo system.store ref ++ passes → ∀ pass ∈ passes,
    (system.store.objects ref).sessions = pass.conns.map some ∧
      pass.conns ≠ [] ∧ pass.conns.Nodup

theorem writesToSessions_of_messageStep (hinvariant : Invariant system)
    (hmessages : MessageStep system next) : WritesToSessions system next := by
  intro ref passes hpasses pass hpass
  have hwritable := hinvariant.writable ref
  have hsessions := (map_some_reduceOption hwritable.live).symm
  have hnone (hsame : passesTo next.store ref = passesTo system.store ref) :
      False := by
    rw [hsame, List.self_eq_append_right] at hpasses
    rw [hpasses] at hpass
    cases hpass
  cases hmessages with
  | quiet _ _ _ _ hsame => exact (hnone (hsame ref)).elim
  | begun conn profile packet hpoint hnext =>
      subst hnext
      exact (hnone rfl).elim
  | sent conn profile follower message index hpoint hfollower hnext =>
      subst hnext
      change passesTo (system.store.sendOrInsertInbox follower message) ref = _
        at hpasses
      rw [sendOrInsertInbox_passesTo, List.append_cancel_left_eq] at hpasses
      rw [← hpasses] at hpass
      split at hpass
      · next honline =>
          rw [List.mem_singleton.1 hpass]
          exact ⟨hsessions,
            hwritable.conns_ne_nil (hwritable.sessions_ne_nil honline.2),
            hwritable.conns_nodup⟩
      · cases hpass
  | done conn profile message index hpoint hlast hnext =>
      subst hnext
      exact (hnone rfl).elim
  | drained conn profile hpoint hnext =>
      subst hnext
      change passesTo (system.store.fetchInboxContent profile).2 ref = _
        at hpasses
      rw [fetchInboxContent_passesTo ref (hinvariant.writable profile).live,
        List.append_cancel_left_eq] at hpasses
      rw [← hpasses] at hpass
      split at hpass
      · next heq =>
          subst heq
          have hmem : some conn ∈ (system.store.objects profile).sessions := by
            rw [hinvariant.sessions.member, hpoint]
            rfl
          obtain ⟨message, _, rfl⟩ := List.mem_map.1 hpass
          exact ⟨hsessions, hwritable.conns_ne_nil (List.ne_nil_of_mem hmem),
            hwritable.conns_nodup⟩
      · cases hpass

end Deliveries

/-! ## Whose connection it is -/

/-- The client has left: its thread reaches no session any more. -/
def Left : Point → Prop
  | .forwarding _ _ .quit => True
  | .closing => True
  | .ended => True
  | _ => False

theorem sessionAt_of_left {point : Point} (hleft : Left point) :
    sessionAt point = none := by
  simp only [Left] at hleft
  split at hleft
  case h_4 => exact hleft.elim
  all_goals rfl

/-- The thread serves the profile or has left. -/
def ServesOrLeft (ref : ProfileRef) (point : Point) : Prop :=
  sessionAt point = some ref ∨ Left point

theorem ServesOrLeft.eq {ref other : ProfileRef} {point : Point}
    (hserves : ServesOrLeft ref point) (hsession : sessionAt point = some other) :
    other = ref := by
  rcases hserves with hsame | hleft
  · exact Option.some.inj (hsession.symm.trans hsame)
  · rw [sessionAt_of_left hleft] at hsession
    cases hsession

/-- The connection is one of the profile: no other profile has written to it, and
none will. -/
structure BelongsTo (system : System) (conn : Conn) (ref : ProfileRef) :
    Prop where
  passes : ∀ other, ∀ pass ∈ passesTo system.store other, conn ∈ pass.conns →
    other = ref
  serves : ServesOrLeft ref (system.threads conn)

/-- Whom a profile writes to, belongs to it. -/
def Owned (system : System) : Prop :=
  ∀ ref, ∀ pass ∈ passesTo system.store ref, ∀ conn ∈ pass.conns,
    BelongsTo system conn ref

theorem owned_start : Owned System.start := by
  intro ref pass hpass
  cases hpass

section Owners

variable {system next : System} {conn other : Conn} {ref : ProfileRef}
  {time : BitVec 64} {action : Action}

theorem servesOrLeft_goto {middle : System} {point before : Point}
    (hthreads : middle.threads = system.threads)
    (hbefore : system.threads conn = before)
    (hpoint : ServesOrLeft ref before → ServesOrLeft ref point)
    (hserves : ServesOrLeft ref (system.threads other)) :
    ServesOrLeft ref ((middle.goto conn point).threads other) := by
  rcases middle.goto_threads_cases conn point other with
    ⟨rfl, hgoto⟩ | ⟨_, hgoto⟩
  · rw [hgoto]
    exact hpoint (hbefore ▸ hserves)
  · rw [hgoto, hthreads]
    exact hserves

theorem not_servesOrLeft {point : Point} (hsession : sessionAt point = none)
    (hleft : ¬ Left point) : ¬ ServesOrLeft ref point := by
  rintro (hsame | hgone)
  · rw [hsession] at hsame
    cases hsame
  · exact hleft hgone

/-- A thread serves one profile, until it leaves for good. -/
theorem servesOrLeft_of_transition
    (hlogin : FirstLogin (system.threads conn))
    (hclient : ClientStep system ⟨conn, time, action⟩)
    (htransition : Transition system conn time action next)
    (hserves : ServesOrLeft ref (system.threads other)) :
    ServesOrLeft ref (next.threads other) := by
  cases htransition with
  | found henter hcmd hwritable hfind =>
      exact servesOrLeft_goto rfl (enters_first hclient henter hcmd).1
        (fun hbefore => absurd hbefore (not_servesOrLeft rfl not_false)) hserves
  | refused henter hcmd hwritable hfind =>
      exact servesOrLeft_goto rfl rfl (fun _ => .inr trivial) hserves
  | findFailed => exact hserves
  | joined hpoint hcmd =>
      exact servesOrLeft_goto rfl hpoint
        (fun hbefore => absurd hbefore (not_servesOrLeft rfl not_false)) hserves
  | senderFound hpoint hprofile hbackup hfound =>
      exact servesOrLeft_goto rfl hpoint
        (fun hbefore => absurd hbefore (not_servesOrLeft rfl not_false)) hserves
  | senderUnknown => exact hserves
  | reconnected hpoint =>
      rw [hpoint] at hlogin
      exact hlogin.elim
  | addressPushed hpoint =>
      exact servesOrLeft_goto rfl hpoint
        (fun hbefore => absurd hbefore (not_servesOrLeft rfl not_false)) hserves
  | propagated hpoint =>
      exact servesOrLeft_goto rfl hpoint
        (fun hbefore => absurd hbefore (not_servesOrLeft rfl not_false)) hserves
  | registered hpoint =>
      exact servesOrLeft_goto rfl hpoint
        (fun hbefore => absurd hbefore (not_servesOrLeft rfl not_false)) hserves
  | @forwarded packet index continuation backup hpoint hbackup =>
      refine servesOrLeft_goto rfl hpoint (fun hbefore => ?_) hserves
      cases continuation <;> exact hbefore
  | @forwardDone packet index continuation hpoint hlast =>
      refine servesOrLeft_goto rfl hpoint (fun hbefore => ?_) hserves
      cases continuation with
      | leave => exact absurd hbefore (not_servesOrLeft rfl not_false)
      | _ => exact hbefore
  | greeted hpoint => exact servesOrLeft_goto rfl hpoint id hserves
  | fetched hpoint hfetch => exact servesOrLeft_goto rfl hpoint id hserves
  | fetchFailed => exact hserves
  | followed hpoint hcmd hwritable hfollow =>
      exact servesOrLeft_goto rfl hpoint id hserves
  | followFailed => exact hserves
  | sendBegun hpoint hcmd hwritable =>
      exact servesOrLeft_goto rfl hpoint id hserves
  | sent hpoint hfollower => exact servesOrLeft_goto rfl hpoint id hserves
  | sendDone hpoint hlast => exact servesOrLeft_goto rfl hpoint id hserves
  | left hpoint hcmd =>
      exact servesOrLeft_goto rfl hpoint (fun _ => .inr trivial) hserves
  | listReplaced => exact hserves
  | ignored => exact hserves
  | loopLeft hpoint hclosed =>
      exact servesOrLeft_goto rfl hpoint (fun _ => .inr trivial) hserves
  | closed hpoint =>
      exact servesOrLeft_goto rfl hpoint (fun _ => .inr trivial) hserves

/-- The passes of a step come behind those before it. -/
theorem passesTo_of_messageStep
    (hlive : ∀ ref, none ∉ (system.store.objects ref).sessions)
    (hmessages : MessageStep system next) (ref : ProfileRef) :
    ∃ passes, passesTo next.store ref = passesTo system.store ref ++ passes := by
  cases hmessages with
  | quiet _ _ _ _ hsame => exact ⟨[], by rw [hsame, List.append_nil]⟩
  | begun conn profile packet hpoint hnext =>
      subst hnext
      exact ⟨[], (List.append_nil _).symm⟩
  | sent conn profile follower message index hpoint hfollower hnext =>
      subst hnext
      exact ⟨_, sendOrInsertInbox_passesTo system.store ref follower message⟩
  | done conn profile message index hpoint hlast hnext =>
      subst hnext
      exact ⟨[], (List.append_nil _).symm⟩
  | drained conn profile hpoint hnext =>
      subst hnext
      exact ⟨_, fetchInboxContent_passesTo ref (hlive profile)⟩

/-- A pass over a profile that a step makes is over connections whose threads
serve it. -/
theorem pass_of_messageStep (hinvariant : Invariant system)
    (hmessages : MessageStep system next) {pass : Pass}
    (hpass : pass ∈ passesTo next.store ref) :
    pass ∈ passesTo system.store ref ∨
      ∀ conn ∈ pass.conns, sessionAt (system.threads conn) = some ref := by
  obtain ⟨passes, happend⟩ :=
    passesTo_of_messageStep hinvariant.sessions.live hmessages ref
  rw [happend] at hpass
  refine (List.mem_append.1 hpass).imp_right fun hnew conn hconn => ?_
  obtain ⟨hsessions, -, -⟩ :=
    writesToSessions_of_messageStep hinvariant hmessages ref passes happend pass hnew
  rw [← hinvariant.sessions.member, hsessions]
  exact List.mem_map_of_mem hconn

theorem BelongsTo.step (hbelongs : BelongsTo system other ref)
    (hinvariant : Invariant system)
    (hclient : ClientStep system ⟨conn, time, action⟩)
    (htransition : Transition system conn time action next) :
    BelongsTo next other ref where
  passes profile pass hpass hconn := by
    have hmessages :=
      messageStep_of_transition hinvariant.sessions.live htransition
    rcases pass_of_messageStep hinvariant hmessages hpass with hold | hnew
    · exact hbelongs.passes profile pass hold hconn
    · exact hbelongs.serves.eq (hnew other hconn)
  serves := servesOrLeft_of_transition (hinvariant.sessions.logins conn) hclient
    htransition hbelongs.serves

/-- A connection in the sessions of a profile belongs to it. -/
theorem Owned.belongsTo (howned : Owned system)
    (hsession : sessionAt (system.threads conn) = some ref) :
    BelongsTo system conn ref :=
  ⟨fun other pass hpass hconn =>
    ((howned other pass hpass conn hconn).serves.eq hsession).symm, .inl hsession⟩

theorem Owned.step (howned : Owned system) (hinvariant : Invariant system)
    (hclient : ClientStep system ⟨conn, time, action⟩)
    (htransition : Transition system conn time action next) : Owned next := by
  intro ref pass hpass other hother
  have hmessages :=
    messageStep_of_transition hinvariant.sessions.live htransition
  have hbelongs : BelongsTo system other ref := by
    rcases pass_of_messageStep hinvariant hmessages hpass with hold | hnew
    · exact howned ref pass hold other hother
    · exact howned.belongsTo (hnew other hother)
  exact hbelongs.step hinvariant hclient htransition

end Owners

section Passes

variable {system : System} {ref : ProfileRef}

/-- A message is written in one pass. -/
theorem pass_unique (hinvariant : Invariant system) {pass : Pass}
    (hpass : pass ∈ passesTo system.store ref) :
    (passesTo system.store ref).filter (fun other => other.message = pass.message) =
        [pass] ∧ pass.conns.Nodup := by
  obtain ⟨record, hrecord, hmessage, hhandled⟩ :=
    hinvariant.delivered.handedOver ref pass.message (.inr ⟨pass, hpass, rfl⟩)
  rw [← hmessage]
  rcases hinvariant.delivered.settled record hrecord ref hhandled with
    ⟨_, hnone⟩ | ⟨_, only, honly, _, hnodup⟩
  · exact absurd hmessage.symm (hnone pass hpass)
  · have hmem : pass ∈ [only] := by
      rw [← honly, hmessage]
      simpa using hpass
    cases List.mem_singleton.1 hmem
    exact ⟨honly, hnodup⟩

theorem passesTo_nodup (hinvariant : Invariant system) (ref : ProfileRef) :
    ((passesTo system.store ref).map Pass.message).Nodup := by
  rw [List.nodup_iff_count_le_one]
  intro message
  by_cases hmem : message ∈ (passesTo system.store ref).map Pass.message
  · obtain ⟨pass, hpass, rfl⟩ := List.mem_map.1 hmem
    have hone := congrArg List.length (pass_unique hinvariant hpass).1
    rw [List.count, List.countP_map, List.countP_eq_length_filter]
    exact hone.le
  · rw [List.count_eq_zero_of_not_mem hmem]
    exact Nat.zero_le 1

/-- No message is written to a connection twice. -/
theorem messagesTo_nodup (hinvariant : Invariant system) (howned : Owned system)
    (conn : Conn) : (messagesTo conn system.store).Nodup := by
  by_cases hnone : messagesTo conn system.store = []
  · rw [hnone]
    exact List.nodup_nil
  · obtain ⟨message, hmessage⟩ := List.exists_mem_of_ne_nil _ hnone
    obtain ⟨ref, pass, hpass, hconn, -⟩ := mem_messagesTo.1 hmessage
    have hbelongs := howned ref pass hpass conn hconn
    rw [messagesTo_of_one_profile fun other pass hpass hconn =>
      ⟨hbelongs.passes other pass hpass hconn, (pass_unique hinvariant hpass).2⟩]
    exact (passesTo_nodup hinvariant ref).sublist (List.filter_sublist.map _)

end Passes

/-! ## Runs -/

theorem Invariant.step {system next : System} {label : Label}
    (hinvariant : Invariant system) (hclient : ClientStep system label)
    (hstep : Threads.step system label = some next) : Invariant next := by
  have htransition := (transition_of_step hstep).2
  have hgraph := graphStep_of_transition htransition
  have hmessages :=
    messageStep_of_transition hinvariant.sessions.live htransition
  refine ⟨hinvariant.accounts.step htransition fun profile hpoint => ?_,
    hinvariant.graph.step htransition,
    hinvariant.sessions.step hinvariant.graph hinvariant.accounts hclient
      htransition,
    hinvariant.history.step hinvariant.accounts.lock hinvariant.graph hgraph
      hmessages,
    Delivered.step hinvariant hmessages⟩
  have hlogin := hinvariant.sessions.logins label.conn
  rw [hpoint] at hlogin
  exact hlogin

theorem invariant_of_run {system : System} {labels : List Label}
    (halong : Along step ClientStep System.start labels)
    (hrun : exec step System.start labels = some system) : Invariant system :=
  exec_invariant (fun _ _ _ hinvariant hclient hstep =>
    hinvariant.step hclient hstep) invariant_start halong hrun

/-- In a run from the start, whom a profile writes to belongs to it, and what
belongs to a profile stays with it. -/
theorem owned_of_run {system later : System} {labels : List Label}
    (hinvariant : Invariant system) (howned : Owned system)
    (halong : Along step ClientStep system labels)
    (hrun : exec step system labels = some later) :
    Owned later ∧ ∀ conn ref, BelongsTo system conn ref →
      BelongsTo later conn ref := by
  have hkept := exec_invariant (fun middle label next hmiddle hclient hstep =>
    show Invariant next ∧ Owned next ∧ ∀ conn ref, BelongsTo system conn ref →
        BelongsTo next conn ref from by
      obtain ⟨hinvariant, howned, hbelongs⟩ := hmiddle
      have htransition := (transition_of_step hstep).2
      exact ⟨hinvariant.step hclient hstep,
        howned.step hinvariant hclient htransition, fun conn ref hold =>
          (hbelongs conn ref hold).step hinvariant hclient htransition⟩)
    ⟨hinvariant, howned, fun _ _ => id⟩ halong hrun
  exact hkept.2

/-- What a call has handled stays handled in the rest of the run. -/
theorem handled_later {system later : System} {labels : List Label}
    (hinvariant : Invariant system)
    (halong : Along step ClientStep system labels)
    (hrun : exec step system labels = some later) {record : SendRecord}
    (hrecord : record ∈ system.sends) :
    record ∈ later.sends ∧ handled system record ⊆ handled later record := by
  have hkept := exec_invariant (fun middle label next hmiddle hclient hstep =>
    show Invariant next ∧ record ∈ next.sends ∧
        handled system record ⊆ handled next record from by
      obtain ⟨hinvariant, hmem, hsubset⟩ := hmiddle
      have hmessages := messageStep_of_transition hinvariant.sessions.live
        (transition_of_step hstep).2
      obtain ⟨hnext, hmono⟩ := handled_mono hinvariant.history hmessages hmem
      exact ⟨hinvariant.step hclient hstep, hnext, List.Subset.trans hsubset hmono⟩)
    ⟨hinvariant, hrecord, List.Subset.refl _⟩ halong hrun
  exact hkept.2

/-- Everything a later state of a run owes to what had been handed over in an
earlier one. -/
structure ExactlyOnce (system later : System) : Prop where
  /-- a packet handed over is in the inbox once or in one pass over the
  sessions -/
  settled : ∀ record ∈ system.sends, ∀ follower ∈ handled system record,
    Settled later.store follower record.message
  /-- and nowhere but with the followers its sender had -/
  onlyFollowers : ∀ ref message, Present later.store ref message →
    ∃ record ∈ later.sends, record.message = message ∧ ref ∈ record.followers
  /-- different calls hand over different packets -/
  distinct : (later.sends.map SendRecord.message).Nodup
  /-- the copies forwarded to backups reach no session -/
  backups : ∀ backup ∈ later.server.listBackups, ∀ ref,
    some backup ∉ (later.store.objects ref).sessions
  /-- a write goes to the sessions of that moment -/
  writes : ∀ label next, step later label = some next →
    WritesToSessions later next
  /-- a call works on the followers its caller has at that moment -/
  calls : ∀ label next, step later label = some next →
    ∀ record ∈ next.sends, record ∈ later.sends ∨
      later.threads record.conn = .looping record.profile ∧
        record.followers = (later.store.objects record.profile).followers
  /-- a connection is in the sessions of at most one profile in the whole run -/
  apart : ∀ conn ref other, some conn ∈ (system.store.objects ref).sessions →
    some conn ∈ (later.store.objects other).sessions → other = ref
  /-- no packet is written to a connection twice -/
  once : ∀ conn, (messagesTo conn later.store).Nodup
  /-- a connection gets only packets of senders that the one profile it belongs
  to follows -/
  toFollowers : ∀ conn, ∀ message ∈ messagesTo conn later.store,
    ∃ record ∈ later.sends, record.message = message ∧
      ∃ follower ∈ record.followers, BelongsTo later conn follower ∧
        ∀ ref, some conn ∈ (system.store.objects ref).sessions → ref = follower

theorem recorded_of_messageStep {system next : System}
    (hmessages : MessageStep system next) {record : SendRecord}
    (hrecord : record ∈ next.sends) :
    record ∈ system.sends ∨
      system.threads record.conn = .looping record.profile ∧
        record.followers = (system.store.objects record.profile).followers := by
  cases hmessages with
  | quiet hsends _ _ _ _ => exact .inl (hsends ▸ hrecord)
  | begun conn profile packet hpoint hnext =>
      subst hnext
      rcases List.mem_append.1 hrecord with hold | hnew
      · exact .inl hold
      · rw [List.mem_singleton.1 hnew]
        exact .inr ⟨hpoint, rfl⟩
  | sent _ _ _ _ _ _ _ hnext =>
      subst hnext
      exact .inl hrecord
  | done _ _ _ _ _ _ hnext =>
      subst hnext
      exact .inl hrecord
  | drained _ _ _ hnext =>
      subst hnext
      exact .inl hrecord

/-- Exactly-once hand-over, over all interleavings of clients that log in with
their first packet: what a call of `sendToFollowersOf` has handed to a follower
stays with that follower, once, at every later point of the run. -/
theorem handed_over_exactly_once {labels more : List Label}
    {system later : System}
    (halong : Along step ClientStep System.start (labels ++ more))
    (hrun : exec step System.start labels = some system)
    (hmore : exec step system more = some later) : ExactlyOnce system later := by
  obtain ⟨hfront, hback⟩ := halong.append hrun
  have hinvariant := invariant_of_run hfront hrun
  have hlater : Invariant later :=
    exec_invariant (fun _ _ _ hinvariant hclient hstep =>
      hinvariant.step hclient hstep) hinvariant hback hmore
  have howned := (owned_of_run invariant_start owned_start hfront hrun).1
  obtain ⟨hownedLater, hkeeps⟩ := owned_of_run hinvariant howned hback hmore
  have hbelongs (conn ref) (hmem : some conn ∈ (system.store.objects ref).sessions) :
      BelongsTo later conn ref :=
    hkeeps conn ref (howned.belongsTo ((hinvariant.sessions.member ref conn).1 hmem))
  have hmessages {label : Label} {next : System}
      (hstep : step later label = some next) : MessageStep later next :=
    messageStep_of_transition hlater.sessions.live (transition_of_step hstep).2
  constructor
  case settled =>
    intro record hrecord follower hfollower
    obtain ⟨hkept, hsubset⟩ := handled_later hinvariant hback hmore hrecord
    exact hlater.delivered.settled record hkept follower (hsubset hfollower)
  case onlyFollowers =>
    intro ref message hpresent
    obtain ⟨record, hrecord, hmessage, hhandled⟩ :=
      hlater.delivered.handedOver ref message hpresent
    exact ⟨record, hrecord, hmessage, handled_subset later record ref hhandled⟩
  case distinct => exact hlater.history.distinct
  case backups =>
    intro backup hbackup ref hmem
    have hsession := (hlater.sessions.member ref backup).1 hmem
    rw [sessionAt_of_asBackup (hlater.sessions.backups backup hbackup)]
      at hsession
    cases hsession
  case writes =>
    intro label next hstep
    exact writesToSessions_of_messageStep hlater (hmessages hstep)
  case calls =>
    intro label next hstep record hrecord
    exact recorded_of_messageStep (hmessages hstep) hrecord
  case apart =>
    intro conn ref other hmem hother
    exact (hbelongs conn ref hmem).serves.eq
      ((hlater.sessions.member other conn).1 hother)
  case once => exact messagesTo_nodup hlater hownedLater
  case toFollowers =>
    intro conn message hmessage
    obtain ⟨ref, pass, hpass, hconn, hsame⟩ := mem_messagesTo.1 hmessage
    obtain ⟨record, hrecord, hsent, hhandled⟩ :=
      hlater.delivered.handedOver ref message (.inr ⟨pass, hpass, hsame⟩)
    refine ⟨record, hrecord, hsent, ref,
      handled_subset later record ref hhandled, hownedLater ref pass hpass conn hconn,
      fun other hmem => ?_⟩
    exact ((hbelongs conn other hmem).passes ref pass hpass hconn).symm

/-- `b` and `a` log in, `a` follows `b`, and `b` sends: `a` has been handed the
packet. -/
def sendRun : List Label :=
  [⟨1, 0, .receive (new .profile [98] [] 0)⟩, ⟨1, 0, .proceed⟩,
    ⟨1, 0, .proceed⟩, ⟨1, 0, .proceed⟩, ⟨1, 0, .proceed⟩,
    ⟨2, 0, .receive (new .profile [97] [] 0)⟩, ⟨2, 0, .proceed⟩,
    ⟨2, 0, .proceed⟩, ⟨2, 0, .proceed⟩, ⟨2, 0, .proceed⟩,
    ⟨2, 0, .receive (new .follow [98] [97] 0)⟩, ⟨2, 0, .proceed⟩,
    ⟨1, 0, .receive (new .send [104, 105] [98] 0)⟩, ⟨1, 0, .proceed⟩]

/-- The call of `b` returns and `a` leaves. -/
def leaveRun : List Label :=
  [⟨1, 0, .proceed⟩, ⟨2, 0, .receive (new .closeConn [] [97] 0)⟩,
    ⟨2, 0, .proceed⟩]

/-- One packet has been handed to one follower, and stays with it when the
follower leaves. -/
theorem handed_over_exactly_once_sendRun :
    ∃ system later, exec step System.start sendRun = some system ∧
      exec step system leaveRun = some later ∧
      system.sends.map (handled system) = [[1]] ∧ ExactlyOnce system later := by
  have hhandled : (exec step System.start sendRun).map (fun system =>
      system.sends.map (handled system)) = some [[1]] := by decide
  have hsome : (exec step System.start (sendRun ++ leaveRun)).isSome := by
    decide
  obtain ⟨later, hlater⟩ := Option.isSome_iff_exists.1 hsome
  obtain ⟨system, hrun, hmore⟩ := exec_append_iff.1 hlater
  rw [hrun] at hhandled
  exact ⟨system, later, hrun, hmore, Option.some.inj hhandled,
    handed_over_exactly_once (by decide) hrun hmore⟩

end TwitterLike.HandOver
