import Mathlib.Data.List.ReduceOption
import TwitterLike.Server.StoreEffects

/-!
# Where a message is

A message handed to a profile waits in its inbox or has been written to its
sessions in a pass.  What the two critical sections that move messages do to the
whereabouts of one message, on a profile without null sessions.
-/

namespace TwitterLike.Deliveries

open TwitterLike.ByteBuffer
open TwitterLike.Profiles
open TwitterLike.ProfilesManager

/-! ## Passes over one profile -/

/-- The passes over the sessions of a profile so far. -/
def passesTo (store : Store) (ref : ProfileRef) : List Pass :=
  store.outputs.filterMap fun
    | .single _ _ => none
    | .pass profile pass => if profile = ref then some pass else none

section Passes

variable (store : Store) (ref other : ProfileRef)

theorem passesTo_of_outputs {after : Store}
    (houtputs : after.outputs = store.outputs) :
    passesTo after ref = passesTo store ref := by
  rw [passesTo, houtputs, passesTo]

theorem passesTo_sendPacket (conn : Conn) (packet : PacketFormat.Packet) :
    passesTo (store.sendPacket conn packet) ref = passesTo store ref := by
  simp [passesTo, Store.sendPacket]

theorem passesTo_sendPasses (passes : List Pass) :
    passesTo (store.sendPasses other passes) ref =
      passesTo store ref ++ if other = ref then passes else [] := by
  rw [passesTo, Store.sendPasses_outputs, List.filterMap_append,
    List.filterMap_map]
  congr 1
  split
  · next heq =>
      subst heq
      simp
  · next hne => simp [hne]

end Passes

/-- A pass over a profile is one of the outputs. -/
theorem mem_passesTo {store : Store} {ref : ProfileRef} {pass : Pass} :
    pass ∈ passesTo store ref ↔ Output.pass ref pass ∈ store.outputs := by
  rw [passesTo, List.mem_filterMap]
  constructor
  · rintro ⟨output, houtput, hpass⟩
    cases output with
    | single => cases hpass
    | pass profile other =>
        obtain ⟨rfl, hsame⟩ := Option.ite_none_right_eq_some.1 hpass
        cases hsame
        exact houtput
  · intro houtput
    exact ⟨_, houtput, if_pos rfl⟩

/-! ## Messages on one connection -/

/-- The messages that one output writes to the connection. -/
def messagesBy (conn : Conn) : Output → List Message
  | .single _ _ => []
  | .pass _ pass =>
      (pass.conns.filter fun other => other = conn).map fun _ => pass.message

/-- The messages that the passes have written to the connection, in order. -/
def messagesTo (conn : Conn) (store : Store) : List Message :=
  store.outputs.flatMap (messagesBy conn)

section Messages

variable {store : Store} {ref : ProfileRef} {conn : Conn}

theorem mem_messagesTo {message : Message} :
    message ∈ messagesTo conn store ↔ ∃ ref, ∃ pass ∈ passesTo store ref,
      conn ∈ pass.conns ∧ pass.message = message := by
  rw [messagesTo, List.mem_flatMap]
  constructor
  · rintro ⟨output, houtput, hmessage⟩
    cases output with
    | single => cases hmessage
    | pass profile pass =>
        obtain ⟨other, hother, hsame⟩ := List.mem_map.1 hmessage
        obtain ⟨hconn, heq⟩ := List.mem_filter.1 hother
        exact ⟨profile, pass, mem_passesTo.2 houtput,
          of_decide_eq_true heq ▸ hconn, hsame⟩
  · rintro ⟨profile, pass, hpass, hconn, hsame⟩
    refine ⟨_, mem_passesTo.1 hpass, List.mem_map.2 ⟨conn, ?_, hsame⟩⟩
    exact List.mem_filter.2 ⟨hconn, decide_eq_true rfl⟩

/-- A connection that is in the passes over one profile only gets the message of
each of them once. -/
theorem messagesTo_of_one_profile
    (hone : ∀ other, ∀ pass ∈ passesTo store other, conn ∈ pass.conns →
      other = ref ∧ pass.conns.Nodup) :
    messagesTo conn store = ((passesTo store ref).filter fun pass =>
      conn ∈ pass.conns).map Pass.message := by
  have houtputs : ∀ other pass, Output.pass other pass ∈ store.outputs →
      conn ∈ pass.conns → other = ref ∧ pass.conns.Nodup :=
    fun other pass hpass => hone other pass (mem_passesTo.2 hpass)
  rw [messagesTo, passesTo]
  generalize store.outputs = outputs at houtputs
  induction outputs with
  | nil => rfl
  | cons output outputs ih =>
      have hrest := ih fun other pass hpass =>
        houtputs other pass (List.mem_cons_of_mem _ hpass)
      rw [List.flatMap_cons, hrest]
      cases output with
      | single other packet => rfl
      | pass other pass =>
          by_cases hconn : conn ∈ pass.conns
          · obtain ⟨rfl, hnodup⟩ := houtputs other pass List.mem_cons_self hconn
            have hcopy : messagesBy conn (.pass other pass) = [pass.message] := by
              rw [messagesBy, List.filter_eq,
                List.count_eq_one_of_mem hnodup hconn]
              rfl
            simp [hcopy, hconn]
          · have hcopy : messagesBy conn (.pass other pass) = [] := by
              rw [messagesBy, List.filter_eq, List.count_eq_zero_of_not_mem hconn]
              rfl
            by_cases href : other = ref
            · subst href
              simp [hcopy, hconn]
            · simp [hcopy, href]

end Messages

/-- A vector without null sessions is the list of its connections. -/
theorem map_some_reduceOption {sessions : List (Option Conn)}
    (hlive : none ∉ sessions) : sessions.reduceOption.map some = sessions := by
  induction sessions with
  | nil => rfl
  | cons session rest ih =>
      rw [List.mem_cons, not_or] at hlive
      cases session with
      | none => exact absurd rfl hlive.1
      | some conn =>
          rw [List.reduceOption_cons_of_some, List.map_cons, ih hlive.2]

/-! ## What moves no message -/

/-- The two stores have the same messages in the same places. -/
structure SameQueues (before after : Store) : Prop where
  inbox : ∀ ref, (after.objects ref).inbox = (before.objects ref).inbox
  passes : ∀ ref, passesTo after ref = passesTo before ref

section SameQueues

variable {store middle after : Store}

theorem SameQueues.refl (store : Store) : SameQueues store store :=
  ⟨fun _ => rfl, fun _ => rfl⟩

theorem SameQueues.trans (hfirst : SameQueues store middle)
    (hsecond : SameQueues middle after) : SameQueues store after where
  inbox ref := (hsecond.inbox ref).trans (hfirst.inbox ref)
  passes ref := (hsecond.passes ref).trans (hfirst.passes ref)

theorem SameQueues.update (store : Store) (ref : ProfileRef)
    {change : Profile → Profile}
    (hkeep : (change (store.objects ref)).inbox = (store.objects ref).inbox) :
    SameQueues store (store.update ref change) where
  inbox := store.update_objects_field ref Profile.inbox hkeep
  passes _ := rfl

theorem SameQueues.of_sameMemory (hsame : Store.SameMemory store after) :
    SameQueues store after where
  inbox _ := by rw [hsame.objects]
  passes ref := passesTo_of_outputs store ref hsame.outputs

theorem sendPacket_sameQueues (store : Store) (conn : Conn)
    (packet : PacketFormat.Packet) :
    SameQueues store (store.sendPacket conn packet) where
  inbox _ := rfl
  passes ref := passesTo_sendPacket store ref conn packet

theorem closeConn_sameQueues (store : Store) (conn : Conn) :
    SameQueues store (store.closeConn conn) :=
  ⟨fun _ => rfl, fun _ => rfl⟩

theorem addFollowerTo_sameQueues (store : Store) (followed : ByteString)
    (follower : ProfileRef) :
    SameQueues store (store.addFollowerTo followed (some follower)).2 := by
  rcases store.addFollowerTo_cases followed follower with
    hkeep | ⟨target, _, _, _, hpush⟩
  · rw [hkeep]
    exact .refl store
  · rw [hpush]
    have hpushed : SameQueues store (store.pushFollower target follower) :=
      .update store target rfl
    exact hpushed.trans (.of_sameMemory (Store.toJsonFile_sameMemory _))

theorem incSessionsOn_sameQueues (store : Store) (ref : ProfileRef)
    (session : Option Conn) :
    SameQueues store (store.incSessionsOn ref session) :=
  .update store ref rfl

theorem decSessionsOn_sameQueues (store : Store) (ref : ProfileRef)
    (session : Option Conn) :
    SameQueues store (store.decSessionsOn ref session) :=
  .update store ref (decSessionsOn_inbox _ _)

theorem updateSessionsOn_sameQueues (store : Store) (ref : ProfileRef)
    (session : Option Conn) :
    SameQueues store (store.updateSessionsOn ref session) :=
  .update store ref rfl

end SameQueues

/-! ## One message -/

/-- The message is in the inbox of the profile or in a pass over it. -/
def Present (store : Store) (ref : ProfileRef) (message : Message) : Prop :=
  message ∈ (store.objects ref).inbox ∨
    ∃ pass ∈ passesTo store ref, pass.message = message

/-- The message is in exactly one place: once in the inbox and in no pass, or
not in the inbox and in exactly one pass, which wrote it once to each of at
least one connection. -/
def Settled (store : Store) (ref : ProfileRef) (message : Message) : Prop :=
  ((store.objects ref).inbox.count message = 1 ∧
    ∀ pass ∈ passesTo store ref, pass.message ≠ message) ∨
  (message ∉ (store.objects ref).inbox ∧
    ∃ pass, (passesTo store ref).filter (fun pass => pass.message = message) =
        [pass] ∧
      pass.conns ≠ [] ∧ pass.conns.Nodup)

/-- The sessions of the profile can be written to, and their number is known. -/
structure Writable (store : Store) (ref : ProfileRef) : Prop where
  live : none ∉ (store.objects ref).sessions
  nodup : (store.objects ref).sessions.Nodup
  counted : (store.objects ref).sessionsOn =
    (store.objects ref).sessions.length

theorem Settled.congr {store after : Store} {ref : ProfileRef}
    {message : Message} (hsettled : Settled store ref message)
    (hinbox : (after.objects ref).inbox = (store.objects ref).inbox)
    (hpasses : passesTo after ref = passesTo store ref) :
    Settled after ref message := by
  rw [Settled, hinbox, hpasses]
  exact hsettled

section Writable

variable {store : Store} {ref : ProfileRef}

theorem Writable.conns_nodup (hwritable : Writable store ref) :
    (store.objects ref).sessions.reduceOption.Nodup := by
  apply List.Nodup.of_map some
  rw [map_some_reduceOption hwritable.live]
  exact hwritable.nodup

theorem Writable.conns_ne_nil (hwritable : Writable store ref)
    (hsessions : (store.objects ref).sessions ≠ []) :
    (store.objects ref).sessions.reduceOption ≠ [] := by
  intro hnil
  have hmap := map_some_reduceOption hwritable.live
  rw [hnil] at hmap
  exact hsessions hmap.symm

theorem Writable.sessions_ne_nil (hwritable : Writable store ref)
    (honline : (store.objects ref).sessionsOn > 0) :
    (store.objects ref).sessions ≠ [] := by
  intro hnil
  rw [hwritable.counted, hnil] at honline
  exact absurd honline (by decide)

end Writable

/-! ## `sendOrInsertInbox` -/

section Send

variable {store : Store} {ref other : ProfileRef} {message sent : Message}

theorem sendOrInsertInbox_inbox (store : Store) (ref other : ProfileRef)
    (sent : Message) :
    ((store.sendOrInsertInbox other sent).objects ref).inbox =
      if ref = other ∧ ¬ (store.objects ref).sessionsOn > 0 then
        (store.objects ref).inbox ++ [sent]
      else (store.objects ref).inbox := by
  rw [Store.sendOrInsertInbox, Store.sendPasses_objects]
  by_cases href : ref = other
  · subst href
    rw [Store.update_objects_self]
    by_cases honline : (store.objects ref).sessionsOn > 0
    · rw [sendOrInsertInbox_of_online _ _ honline, if_neg (by simp [honline])]
    · rw [sendOrInsertInbox_of_offline _ _ honline, if_pos ⟨rfl, honline⟩]
  · rw [Store.update_objects_of_ne _ _ _ href, if_neg (by simp [href])]

theorem sendOrInsertInbox_passesTo (store : Store) (ref other : ProfileRef)
    (sent : Message) :
    passesTo (store.sendOrInsertInbox other sent) ref =
      passesTo store ref ++
        if ref = other ∧ (store.objects ref).sessionsOn > 0 then
          [⟨sent, (store.objects ref).sessions.reduceOption⟩]
        else [] := by
  rw [Store.sendOrInsertInbox, passesTo_sendPasses]
  congr 1
  by_cases href : other = ref
  · subst href
    by_cases honline : (store.objects other).sessionsOn > 0
    · rw [sendOrInsertInbox_of_online _ _ honline, if_pos rfl,
        if_pos ⟨rfl, honline⟩]
    · rw [sendOrInsertInbox_of_offline _ _ honline, if_pos rfl,
        if_neg (by simp [honline])]
  · rw [if_neg href, if_neg (by simp [Ne.symm href])]

/-- Handing over another message, or to another profile, leaves the message
where it is. -/
theorem Settled.sendOrInsertInbox (hsettled : Settled store ref message)
    (hdiffers : ref = other → message ≠ sent) :
    Settled (store.sendOrInsertInbox other sent) ref message := by
  by_cases href : ref = other
  · have hne := hdiffers href
    rw [Settled, sendOrInsertInbox_inbox, sendOrInsertInbox_passesTo]
    by_cases honline : (store.objects ref).sessionsOn > 0
    · rw [if_neg (by simp [honline]), if_pos ⟨href, honline⟩]
      rcases hsettled with ⟨hcount, hpasses⟩ | ⟨hinbox, pass, hfilter, hconns⟩
      · refine .inl ⟨hcount, fun pass hpass => ?_⟩
        rcases List.mem_append.1 hpass with hold | hnew
        · exact hpasses pass hold
        · rw [List.mem_singleton.1 hnew]
          exact hne.symm
      · refine .inr ⟨hinbox, pass, ?_, hconns⟩
        rw [List.filter_append, hfilter]
        simp [hne.symm]
    · rw [if_pos ⟨href, honline⟩, if_neg (by simp [honline]), List.append_nil]
      rcases hsettled with ⟨hcount, hpasses⟩ | ⟨hinbox, hpass⟩
      · refine .inl ⟨?_, hpasses⟩
        rw [List.count_append, hcount,
          List.count_eq_zero_of_not_mem (by simpa using hne)]
      · exact .inr ⟨by simp [hinbox, hne], hpass⟩
  · refine hsettled.congr ?_ ?_
    · rw [sendOrInsertInbox_inbox, if_neg (by simp [href])]
    · rw [sendOrInsertInbox_passesTo, if_neg (by simp [href]), List.append_nil]

/-- A message that has not been there before is settled when it has been handed
over. -/
theorem settled_sendOrInsertInbox (hwritable : Writable store ref)
    (habsent : ¬ Present store ref message) :
    Settled (store.sendOrInsertInbox ref message) ref message := by
  rw [Present, not_or] at habsent
  obtain ⟨hinbox, hpasses⟩ := habsent
  have hpasses : ∀ pass ∈ passesTo store ref, pass.message ≠ message :=
    fun pass hpass heq => hpasses ⟨pass, hpass, heq⟩
  rw [Settled, sendOrInsertInbox_inbox, sendOrInsertInbox_passesTo]
  by_cases honline : (store.objects ref).sessionsOn > 0
  · rw [if_neg (by simp [honline]), if_pos ⟨rfl, honline⟩]
    refine .inr ⟨hinbox,
      ⟨message, (store.objects ref).sessions.reduceOption⟩, ?_,
      hwritable.conns_ne_nil (hwritable.sessions_ne_nil honline),
      hwritable.conns_nodup⟩
    rw [List.filter_append,
      List.filter_eq_nil_iff.2 (by simpa using hpasses)]
    simp
  · rw [if_pos ⟨rfl, honline⟩, if_neg (by simp [honline]), List.append_nil]
    refine .inl ⟨?_, hpasses⟩
    rw [List.count_append, List.count_eq_zero_of_not_mem hinbox]
    simp

theorem present_sendOrInsertInbox
    (hpresent : Present (store.sendOrInsertInbox other sent) ref message) :
    Present store ref message ∨ ref = other ∧ message = sent := by
  rcases hpresent with hinbox | ⟨pass, hpass, hmessage⟩
  · rw [sendOrInsertInbox_inbox] at hinbox
    split at hinbox
    · next hoffline =>
        rcases List.mem_append.1 hinbox with hold | hnew
        · exact .inl (.inl hold)
        · exact .inr ⟨hoffline.1, List.mem_singleton.1 hnew⟩
    · exact .inl (.inl hinbox)
  · rw [sendOrInsertInbox_passesTo] at hpass
    rcases List.mem_append.1 hpass with hold | hnew
    · exact .inl (.inr ⟨pass, hold, hmessage⟩)
    · split at hnew
      · next honline =>
          rw [List.mem_singleton.1 hnew] at hmessage
          exact .inr ⟨honline.1, hmessage.symm⟩
      · cases hnew

end Send

/-! ## `fetchInboxContent` -/

section Fetch

variable {store : Store} {ref other : ProfileRef} {message : Message}

theorem fetchInboxContent_inbox (store : Store) (ref other : ProfileRef) :
    ((store.fetchInboxContent other).2.objects ref).inbox =
      if ref = other then [] else (store.objects ref).inbox := by
  rw [Store.fetchInboxContent]
  split
  · next heq =>
      subst heq
      rw [Store.sendPasses_objects, Store.update_objects_self]
      rfl
  · next hne =>
      rw [Store.sendPasses_objects, Store.update_objects_of_ne _ _ _ hne]

theorem fetchInboxContent_passesTo_drain (store : Store) (ref other : ProfileRef) :
    passesTo (store.fetchInboxContent other).2 ref =
      passesTo store ref ++ if other = ref then
        (Profile.drain (store.objects other).sessions
          (store.objects other).inbox).2
      else [] := by
  rw [Store.fetchInboxContent, passesTo_sendPasses]
  rfl

theorem fetchInboxContent_passesTo (ref : ProfileRef)
    (hlive : none ∉ (store.objects other).sessions) :
    passesTo (store.fetchInboxContent other).2 ref =
      passesTo store ref ++ if other = ref then
        (store.objects other).inbox.map fun message =>
          ⟨message, (store.objects other).sessions.reduceOption⟩
      else [] := by
  rw [fetchInboxContent_passesTo_drain, drain_of_noNull hlive]

/-- Draining the inbox into sessions turns a waiting message into one pass. -/
theorem Settled.fetchInboxContent (hsettled : Settled store ref message)
    (hwritable : Writable store other)
    (hsessions : (store.objects other).sessions ≠ []) :
    Settled (store.fetchInboxContent other).2 ref message := by
  rw [Settled, fetchInboxContent_inbox,
    fetchInboxContent_passesTo ref hwritable.live]
  by_cases href : ref = other
  · subst href
    rw [if_pos rfl, if_pos rfl]
    right
    rcases hsettled with ⟨hcount, hpasses⟩ | ⟨hinbox, pass, hfilter, hconns⟩
    · refine ⟨List.not_mem_nil,
        ⟨message, (store.objects ref).sessions.reduceOption⟩, ?_,
        hwritable.conns_ne_nil hsessions, hwritable.conns_nodup⟩
      rw [List.filter_append,
        List.filter_eq_nil_iff.2 (by simpa using hpasses), List.nil_append,
        List.filter_map]
      have hreplicate : (store.objects ref).inbox.filter
          (fun other => other = message) = [message] := by
        rw [List.filter_eq, hcount]
        rfl
      rw [show ((fun pass : Pass => decide (pass.message = message)) ∘
        fun message => (⟨message, _⟩ : Pass)) =
          fun other => decide (other = message) from rfl, hreplicate]
      rfl
    · refine ⟨List.not_mem_nil, pass, ?_, hconns⟩
      rw [List.filter_append, hfilter, List.filter_eq_nil_iff.2, List.append_nil]
      intro drained hdrained
      obtain ⟨waiting, hwaiting, rfl⟩ := List.mem_map.1 hdrained
      simp only [decide_eq_true_eq]
      rintro rfl
      exact hinbox hwaiting
  · rw [if_neg href, if_neg (Ne.symm href), List.append_nil]
    exact hsettled

theorem present_fetchInboxContent
    (hlive : none ∉ (store.objects other).sessions)
    (hpresent : Present (store.fetchInboxContent other).2 ref message) :
    Present store ref message := by
  rcases hpresent with hinbox | ⟨pass, hpass, hmessage⟩
  · rw [fetchInboxContent_inbox] at hinbox
    split at hinbox
    · cases hinbox
    · exact .inl hinbox
  · rw [fetchInboxContent_passesTo ref hlive] at hpass
    rcases List.mem_append.1 hpass with hold | hnew
    · exact .inr ⟨pass, hold, hmessage⟩
    · split at hnew
      · next heq =>
          subst heq
          obtain ⟨waiting, hwaiting, rfl⟩ := List.mem_map.1 hnew
          exact .inl (hmessage ▸ hwaiting)
      · cases hnew

end Fetch

end TwitterLike.Deliveries
