import TwitterLike.Core.Precedence
import TwitterLike.Server.HandOver

/-!
# The order in which a follower is written to

The packets of one sender reach a follower on two ways: directly, when it is
online, and through its inbox, when it is not.  A login first makes the follower
online and drains the inbox later, and a packet that is sent in between
overtakes those that wait.
-/

namespace TwitterLike.DeliveryOrder

open TwitterLike.ByteBuffer
open TwitterLike.PacketFormat
open TwitterLike.Profiles
open TwitterLike.ProfilesManager
open TwitterLike.FollowGraph
open TwitterLike.Precedence
open TwitterLike.Transition
open TwitterLike.Threads
open TwitterLike.SessionAccounting
open TwitterLike.Sessions
open TwitterLike.Deliveries
open TwitterLike.HandOver

/-! ## Packets of a sender and packets for a follower -/

/-- The packets of a profile, in the order of the calls of `sendToFollowersOf`. -/
def sentBy (system : System) (sender : ProfileRef) : List Message :=
  (system.sends.filter fun record => record.profile = sender).map
    SendRecord.message

/-- The packets for a profile that have been written to the connection, in
order. -/
def writtenFor (store : Store) (ref : ProfileRef) (conn : Conn) : List Message :=
  ((passesTo store ref).filter fun pass => conn ∈ pass.conns).map Pass.message

/-- What is written to a connection of a follower comes in the order in which
its sender has sent it. -/
def InOrder (system : System) : Prop :=
  ∀ sender ref conn first second,
    Precedes (sentBy system sender) first second →
    first ∈ writtenFor system.store ref conn →
    second ∈ writtenFor system.store ref conn →
    Precedes (writtenFor system.store ref conn) first second

/-- The next turn of the thread in `sendToFollowersOf` writes to a follower that
is online and for whom an earlier packet of the same sender waits. -/
def Overtakes (system : System) (label : Label) : Prop :=
  match system.threads label.conn with
  | .sending sender _ index =>
      ∃ follower ∈ (system.store.objects sender).followers[index]?,
        (system.store.objects follower).sessionsOn > 0 ∧
        ∃ waiting ∈ (system.store.objects follower).inbox,
          waiting ∈ sentBy system sender
  | _ => False

/-- The packets for a profile, first those that have been written and then those
that wait. -/
def accepted (store : Store) (ref : ProfileRef) : List Message :=
  (passesTo store ref).map Pass.message ++ (store.objects ref).inbox

/-- Received earlier. -/
def Older (first second : Message) : Prop := first.origin < second.origin

instance : Std.Asymm Older := ⟨fun _ _ => lt_asymm⟩

/-- Packets of one sender are accepted for a profile in the order in which they
were received, and so are the calls of `sendToFollowersOf`. -/
structure Sequenced (system : System) : Prop where
  increasing : (system.sends.map SendRecord.message).Pairwise Older
  latest : ∀ conn profile message index,
    system.threads conn = .sending profile message index →
      ∀ record ∈ system.sends, record.message.origin ≤ message.origin
  ordered : ∀ sender ref, ((accepted system.store ref).filter fun message =>
    message ∈ sentBy system sender).Pairwise Older

theorem sequenced_start : Sequenced System.start where
  increasing := List.Pairwise.nil
  latest _ _ _ _ hpoint := by cases hpoint
  ordered _ _ := List.Pairwise.nil

section Lists

variable {system : System} {store : Store} {sender ref : ProfileRef}
  {message : Message}

theorem mem_accepted_iff :
    message ∈ accepted store ref ↔ Present store ref message := by
  rw [accepted, List.mem_append, List.mem_map, or_comm]
  rfl

theorem mem_sentBy_iff :
    message ∈ sentBy system sender ↔
      ∃ record ∈ system.sends, record.profile = sender ∧
        record.message = message := by
  simp [sentBy, and_assoc]

theorem sentBy_sublist (system : System) (sender : ProfileRef) :
    (sentBy system sender).Sublist (system.sends.map SendRecord.message) :=
  List.filter_sublist.map _

theorem writtenFor_sublist (store : Store) (ref : ProfileRef) (conn : Conn) :
    (writtenFor store ref conn).Sublist (accepted store ref) :=
  (List.filter_sublist.map _).trans (List.sublist_append_left _ _)

theorem Sequenced.inOrder (hsequenced : Sequenced system) : InOrder system := by
  intro sender ref conn first second hprecedes hfirst hsecond
  have hsent : (sentBy system sender).Pairwise Older :=
    hsequenced.increasing.sublist (sentBy_sublist system sender)
  have hwritten : ((writtenFor system.store ref conn).filter fun message =>
      message ∈ sentBy system sender).Pairwise Older :=
    (hsequenced.ordered sender ref).sublist
      ((writtenFor_sublist system.store ref conn).filter _)
  have hmem := hprecedes.1.subset
  exact precedes_of_sorted hwritten hfirst hsecond
    (by simpa using hmem List.mem_cons_self)
    (by simpa using hmem (List.mem_cons_of_mem _ List.mem_cons_self))
    (rel_of_sublist hsent hprecedes.1)

/-- Calls are told apart by when their packets were received. -/
theorem Sequenced.message_unique (hsequenced : Sequenced system)
    {left right : Message}
    (hleft : left ∈ system.sends.map SendRecord.message)
    (hright : right ∈ system.sends.map SendRecord.message)
    (horigin : left.origin = right.origin) : left = right := by
  by_contra hne
  rcases sublist_or_of_mem hleft hright hne with hfirst | hsecond
  · exact (rel_of_sublist hsequenced.increasing hfirst).ne horigin
  · exact (rel_of_sublist hsequenced.increasing hsecond).ne horigin.symm

end Lists

/-! ## One step -/

section Step

variable {system next : System} {conn : Conn} {sender follower ref : ProfileRef}
  {message waiting : Message} {index : ℕ}

theorem sentBy_congr (hsends : next.sends = system.sends) (sender : ProfileRef) :
    sentBy next sender = sentBy system sender := by
  rw [sentBy, hsends, sentBy]

/-- The message of a call in progress is newer than all that its next follower
has accepted. -/
theorem older_of_accepted (hinvariant : Invariant system)
    (hsequenced : Sequenced system)
    (hpoint : system.threads conn = .sending sender message index)
    (hfollower : (system.store.objects sender).followers[index]? =
      some follower)
    (haccepted : waiting ∈ accepted system.store follower) :
    Older waiting message := by
  obtain ⟨record, hrecord, rfl, hhandled⟩ :=
    hinvariant.delivered.handedOver follower waiting
      (mem_accepted_iff.1 haccepted)
  obtain ⟨active, hactive, hconn, hprofile, hmessage, hfollowers⟩ :=
    hinvariant.history.active conn sender message index hpoint
  refine lt_of_le_of_ne
    (hsequenced.latest conn sender message index hpoint record hrecord) ?_
  intro horigin
  have hsame : record = active :=
    hinvariant.history.record_unique hrecord hactive
      (hsequenced.message_unique (List.mem_map_of_mem hrecord)
        (List.mem_map_of_mem hactive) (hmessage ▸ horigin))
  subst hsame
  rw [handled_of_sending (hconn ▸ hmessage ▸ hpoint), hfollowers] at hhandled
  exact not_mem_take_of_nodup
    (hinvariant.graph.wellFormed.followers_nodup sender) hfollower hhandled

/-- The message of a call in progress is a packet of its sender. -/
theorem mem_sentBy_of_sending (hhistory : History system)
    (hpoint : system.threads conn = .sending sender message index) :
    message ∈ sentBy system sender := by
  obtain ⟨record, hrecord, _, hprofile, hmessage, _⟩ :=
    hhistory.active conn sender message index hpoint
  exact mem_sentBy_iff.2 ⟨record, hrecord, hprofile, hmessage⟩

theorem sender_unique (hhistory : History system) {other : ProfileRef}
    (hpoint : system.threads conn = .sending sender message index)
    (hsent : message ∈ sentBy system other) : other = sender := by
  obtain ⟨record, hrecord, rfl, hmessage⟩ := mem_sentBy_iff.1 hsent
  obtain ⟨active, hactive, rfl, hsame⟩ :=
    mem_sentBy_iff.1 (mem_sentBy_of_sending hhistory hpoint)
  rw [hhistory.record_unique hrecord hactive (hmessage.trans hsame.symm)]

theorem accepted_sendOrInsertInbox (store : Store) (ref other : ProfileRef)
    (sent : Message) :
    accepted (store.sendOrInsertInbox other sent) ref =
      (passesTo store ref).map Pass.message ++
        (if ref = other ∧ (store.objects ref).sessionsOn > 0 then [sent] else []) ++
        (store.objects ref).inbox ++
        (if ref = other ∧ ¬ (store.objects ref).sessionsOn > 0 then [sent]
          else []) := by
  rw [accepted, sendOrInsertInbox_passesTo, sendOrInsertInbox_inbox,
    List.map_append]
  split_ifs <;> simp

theorem accepted_fetchInboxContent {store : Store} {other : ProfileRef}
    (ref : ProfileRef) (hlive : none ∉ (store.objects other).sessions) :
    accepted (store.fetchInboxContent other).2 ref = accepted store ref := by
  rw [accepted, fetchInboxContent_passesTo ref hlive, fetchInboxContent_inbox,
    List.map_append, accepted]
  by_cases href : ref = other
  · subst href
    simp [Function.comp_def]
  · rw [if_neg (Ne.symm href), if_neg href]
    simp

/-- The next turn of the call writes to no follower for whom an earlier packet of
the sender waits. -/
theorem inbox_filter_eq_nil {time : BitVec 64} {action : Action}
    (hpoint : system.threads conn = .sending sender message index)
    (hfollower : (system.store.objects sender).followers[index]? =
      some follower)
    (honline : (system.store.objects follower).sessionsOn > 0)
    (horderly : ¬ Overtakes system ⟨conn, time, action⟩) :
    (system.store.objects follower).inbox.filter
      (fun message => message ∈ sentBy system sender) = [] := by
  rw [List.filter_eq_nil_iff]
  intro waiting hwaiting hsent
  simp only [Overtakes, hpoint] at horderly
  exact horderly ⟨follower, hfollower, honline, waiting, hwaiting,
    of_decide_eq_true hsent⟩

/-- One message handed to one more follower keeps the order, whoever sent it. -/
theorem ordered_of_sent {time : BitVec 64} {action : Action}
    (hinvariant : Invariant system) (hsequenced : Sequenced system)
    (hpoint : system.threads conn = .sending sender message index)
    (hfollower : (system.store.objects sender).followers[index]? =
      some follower)
    (horderly : ¬ Overtakes system ⟨conn, time, action⟩)
    (other ref : ProfileRef) :
    ((accepted (system.store.sendOrInsertInbox follower message) ref).filter
      fun message => message ∈ sentBy system other).Pairwise Older := by
  have hordered := hsequenced.ordered other ref
  rw [accepted_sendOrInsertInbox]
  by_cases href : ref = follower
  · subst href
    have holder (waiting : Message) (hmem : waiting ∈ accepted system.store ref) :
        Older waiting message :=
      older_of_accepted hinvariant hsequenced hpoint hfollower hmem
    by_cases honline : (system.store.objects ref).sessionsOn > 0
    · rw [if_pos ⟨rfl, honline⟩, if_neg (by simp [honline]), List.append_nil,
        List.filter_append]
      rw [accepted, List.filter_append] at hordered
      by_cases hmine : message ∈ sentBy system other
      · have hother : other = sender :=
          sender_unique hinvariant.history hpoint hmine
        subst hother
        rw [inbox_filter_eq_nil hpoint hfollower honline horderly, List.append_nil]
        rw [List.pairwise_append] at hordered
        exact sorted_concat hordered.1 fun waiting hmem =>
          holder waiting (List.mem_append_left _ hmem)
      · rw [List.filter_append, List.filter_singleton, decide_eq_false hmine,
          cond_false, List.append_nil]
        exact hordered
    · rw [if_neg (by simp [honline]), if_pos ⟨rfl, honline⟩, List.append_nil]
      exact sorted_concat hordered holder
  · simpa [href, accepted] using hordered

/-- A step that begins no call. -/
theorem Sequenced.keep (hsequenced : Sequenced system)
    (hsends : next.sends = system.sends)
    (hpoints : ∀ other profile message index,
      next.threads other = .sending profile message index →
        ∃ before, system.threads other = .sending profile message before)
    (hordered : ∀ sender ref, ((accepted next.store ref).filter fun message =>
      message ∈ sentBy system sender).Pairwise Older) : Sequenced next where
  increasing := hsends ▸ hsequenced.increasing
  latest other profile message index hpoint record hrecord := by
    obtain ⟨before, hbefore⟩ := hpoints other profile message index hpoint
    exact hsequenced.latest other profile message before hbefore record
      (hsends ▸ hrecord)
  ordered sender ref := by
    rw [sentBy_congr hsends]
    exact hordered sender ref

/-- What a step that moves no message leaves is part of what was there. -/
theorem accepted_sublist {ref : ProfileRef}
    (hinbox : (next.store.objects ref).inbox = (system.store.objects ref).inbox ∨
      system.store.allocated ≤ ref ∧ (next.store.objects ref).inbox = [])
    (hpasses : passesTo next.store ref = passesTo system.store ref) :
    (accepted next.store ref).Sublist (accepted system.store ref) := by
  rw [accepted, accepted, hpasses]
  apply List.Sublist.append_left
  rcases hinbox with hsame | ⟨_, hempty⟩
  · rw [hsame]
  · rw [hempty]
    exact List.nil_sublist _

/-- A packet that has been accepted was sent by a call that has begun. -/
theorem mem_sentBy_concat (hinvariant : Invariant system) {record : SendRecord}
    (horigin : record.message.origin = system.received)
    (hsends : next.sends = system.sends ++ [record])
    (haccepted : waiting ∈ accepted system.store ref) :
    waiting ∈ sentBy next sender ↔ waiting ∈ sentBy system sender := by
  obtain ⟨made, hmade, rfl, _⟩ :=
    hinvariant.delivered.handedOver ref waiting (mem_accepted_iff.1 haccepted)
  have hold := hinvariant.history.old made hmade
  rw [mem_sentBy_iff, mem_sentBy_iff, hsends]
  constructor
  · rintro ⟨other, hother, hprofile, hmessage⟩
    rcases List.mem_append.1 hother with hbefore | hnew
    · exact ⟨other, hbefore, hprofile, hmessage⟩
    · rw [← hmessage, List.mem_singleton.1 hnew, horigin] at hold
      exact absurd hold (lt_irrefl _)
  · rintro ⟨other, hother, hrest⟩
    exact ⟨other, List.mem_append_left _ hother, hrest⟩

/-- A call begins, and it is the only one in progress. -/
theorem Sequenced.begun (hsequenced : Sequenced system)
    (hinvariant : Invariant system) {record : SendRecord}
    (horigin : record.message.origin = system.received)
    (hsends : next.sends = system.sends ++ [record])
    (hkept : next.store = system.store)
    (honly : ∀ other profile message index,
      next.threads other = .sending profile message index →
        message = record.message) : Sequenced next where
  increasing := by
    rw [hsends, List.map_append, List.pairwise_append]
    refine ⟨hsequenced.increasing, List.pairwise_singleton _ _, ?_⟩
    intro before hbefore last hlast
    obtain ⟨made, hmade, rfl⟩ := List.mem_map.1 hbefore
    rw [List.mem_singleton.1 hlast, Older, horigin]
    exact hinvariant.history.old made hmade
  latest other profile message index hpoint made hmade := by
    rw [honly other profile message index hpoint]
    rw [hsends] at hmade
    rcases List.mem_append.1 hmade with hbefore | hnew
    · exact horigin ▸ (hinvariant.history.old made hbefore).le
    · rw [List.mem_singleton.1 hnew]
  ordered sender ref := by
    have hsame : ∀ waiting ∈ accepted system.store ref,
        decide (waiting ∈ sentBy next sender) =
          decide (waiting ∈ sentBy system sender) := fun waiting haccepted =>
      decide_eq_decide.2
        (mem_sentBy_concat hinvariant horigin hsends haccepted)
    rw [hkept, List.filter_congr hsame]
    exact hsequenced.ordered sender ref

theorem Sequenced.step {label : Label} (hinvariant : Invariant system)
    (hsequenced : Sequenced system) (horderly : ¬ Overtakes system label)
    (hlock : LockInvariant next)
    (hstep : Threads.step system label = some next) : Sequenced next := by
  have htransition := (transition_of_step hstep).2
  have hmessages :=
    messageStep_of_transition hinvariant.sessions.live htransition
  cases hmessages with
  | quiet hsends _ hpoints hinbox hpasses =>
      refine hsequenced.keep hsends (fun other profile message index hpoint => ?_)
        fun sender ref => (hsequenced.ordered sender ref).sublist
          ((accepted_sublist (hinbox ref) (hpasses ref)).filter _)
      rcases hpoints other with hsame | ⟨hout, _⟩
      · exact ⟨index, hsame ▸ hpoint⟩
      · rw [hpoint] at hout
        exact absurd trivial hout
  | begun other profile packet hpoint hnext =>
      have hsending : next.threads other = .sending profile
          ⟨system.received, packet⟩ 0 := by
        rw [hnext, System.goto_threads_self]
      refine hsequenced.begun hinvariant rfl (by rw [hnext]; rfl)
        (by rw [hnext]; rfl) fun sender session message index hpoint => ?_
      have hsame := hlock.unique sender other (by rw [hpoint]; trivial)
        (by rw [hsending]; trivial)
      rw [hsame, hsending] at hpoint
      cases hpoint
      rfl
  | sent other sender follower message index hpoint hfollower hnext =>
      have hself : other = label.conn := by
        by_contra hne
        have hsame := threads_of_transition hne htransition
        rw [hnext, System.goto_threads_self, hpoint] at hsame
        simp at hsame
      subst hself
      subst hnext
      refine hsequenced.keep rfl (fun _ _ _ _ => System.sending_of_goto ?_)
        (ordered_of_sent hinvariant hsequenced hpoint hfollower horderly)
      rintro _ _ _ ⟨⟩
      exact ⟨index, hpoint⟩
  | done other sender message index hpoint hlast hnext =>
      subst hnext
      refine hsequenced.keep rfl (fun _ _ _ _ => System.sending_of_goto ?_)
        hsequenced.ordered
      rintro _ _ _ ⟨⟩
  | drained other profile hpoint hnext =>
      subst hnext
      refine hsequenced.keep rfl (fun _ _ _ _ => System.sending_of_goto ?_)
        fun sender ref => ?_
      · rintro _ _ _ ⟨⟩
      · change ((accepted (system.store.fetchInboxContent profile).2
          ref).filter _).Pairwise Older
        rw [accepted_fetchInboxContent ref (hinvariant.sessions.live profile)]
        exact hsequenced.ordered sender ref

end Step

/-! ## Runs -/

structure Orderly (system : System) : Prop where
  invariant : Invariant system
  sequenced : Sequenced system

theorem Orderly.step {system next : System} {label : Label}
    (horderly : Orderly system) (hclient : ClientStep system label)
    (hwaits : ¬ Overtakes system label)
    (hstep : Threads.step system label = some next) : Orderly next := by
  have hinvariant := horderly.invariant.step hclient hstep
  exact ⟨hinvariant, horderly.sequenced.step horderly.invariant hwaits
    hinvariant.accounts.lock hstep⟩

/-- In every run of clients in which nothing is written to a follower for whom an
earlier packet of the same sender waits, the packets of every sender reach every
connection in the order in which they were sent. -/
theorem inOrder_of_run {labels : List Label}
    (hclients : Along step ClientStep System.start labels)
    (hwaits : Along step (fun system label => ¬ Overtakes system label)
      System.start labels) : Throughout step InOrder System.start labels :=
  throughout_of_along (fun _ horderly => horderly.sequenced.inOrder)
    (fun _ _ _ horderly hallowed hstep =>
      horderly.step hallowed.1 hallowed.2 hstep)
    (⟨invariant_start, sequenced_start⟩ : Orderly System.start)
    (hclients.and hwaits)

instance (system : System) (label : Label) :
    Decidable (Overtakes system label) :=
  decidable_of_iff
    ((match system.threads label.conn with
      | .sending sender _ index =>
          (system.store.objects sender).followers[index]?.any fun follower =>
            decide ((system.store.objects follower).sessionsOn > 0) &&
              (system.store.objects follower).inbox.any fun waiting =>
                decide (waiting ∈ sentBy system sender)
      | _ => false) = true)
    (by
      unfold Overtakes
      split
      · simp [Option.any_eq_true]
      · simp)

/-- `b` and `a` log in, `a` follows `b` and leaves, and `b` sends a text. -/
def offlineRun : List Label :=
  [⟨1, 0, .receive (new .profile [98] [] 0)⟩, ⟨1, 0, .proceed⟩,
    ⟨1, 0, .proceed⟩, ⟨1, 0, .proceed⟩, ⟨1, 0, .proceed⟩,
    ⟨2, 0, .receive (new .profile [97] [] 0)⟩, ⟨2, 0, .proceed⟩,
    ⟨2, 0, .proceed⟩, ⟨2, 0, .proceed⟩, ⟨2, 0, .proceed⟩,
    ⟨2, 0, .receive (new .follow [98] [97] 0)⟩, ⟨2, 0, .proceed⟩,
    ⟨2, 0, .receive (new .closeConn [] [97] 0)⟩,
    ⟨1, 0, .receive (new .send [49] [98] 0)⟩, ⟨1, 0, .proceed⟩,
    ⟨1, 0, .proceed⟩, ⟨1, 0, .proceed⟩]

/-- `a` is counted as online again. -/
def countLabels : List Label :=
  [⟨3, 0, .receive (new .profile [97] [] 0)⟩, ⟨3, 0, .proceed⟩]

/-- The rest of that login, up to the end of `fetchInboxContent`. -/
def fetchLabels : List Label :=
  [⟨3, 0, .proceed⟩, ⟨3, 0, .proceed⟩, ⟨3, 0, .proceed⟩]

/-- `b` sends another text. -/
def secondLabels : List Label :=
  [⟨1, 0, .receive (new .send [50] [98] 0)⟩, ⟨1, 0, .proceed⟩]

def fetchedRun : List Label :=
  offlineRun ++ countLabels ++ fetchLabels ++ secondLabels

def overtakenRun : List Label :=
  offlineRun ++ countLabels ++ secondLabels ++ fetchLabels

theorem inOrder_fetchedRun : Throughout step InOrder System.start fetchedRun :=
  inOrder_of_run (by decide) (by decide)

/-- The text that waits for `a` is written behind the one that was sent while
`a` was logging in. -/
theorem overtakenRun_not_inOrder :
    ∃ system, Along step ClientStep System.start overtakenRun ∧
      exec step System.start overtakenRun = some system ∧ ¬ InOrder system := by
  have hvalues : (exec step System.start overtakenRun).map (fun system =>
      (sentBy system 0, writtenFor system.store 1 3)) =
        some ([⟨4, new .send [49] [98] 0⟩, ⟨6, new .send [50] [98] 0⟩],
          [⟨6, new .send [50] [98] 0⟩, ⟨4, new .send [49] [98] 0⟩]) := by
    decide
  obtain ⟨system, hrun, hlists⟩ := Option.map_eq_some_iff.1 hvalues
  rw [Prod.mk.injEq] at hlists
  refine ⟨system, by decide, hrun, fun hinOrder => ?_⟩
  have hordered := hinOrder 0 1 3 ⟨4, new .send [49] [98] 0⟩
    ⟨6, new .send [50] [98] 0⟩
  rw [hlists.1, hlists.2] at hordered
  exact absurd hordered (by decide)

end TwitterLike.DeliveryOrder
