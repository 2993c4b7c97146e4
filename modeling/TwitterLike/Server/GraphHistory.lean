import TwitterLike.Server.ThreadGraph

/-!
# The follow graph over sequences of calls

What the server does with the store, as a sequence of calls that pass as
follower only profiles that earlier calls have returned.  The map and the
followers vectors stay consistent, and both only grow.
-/

namespace TwitterLike.GraphHistory

open TwitterLike.ByteBuffer
open TwitterLike.PacketFormat
open TwitterLike.Profiles
open TwitterLike.ProfilesManager
open TwitterLike.FollowGraph
open TwitterLike.Transition
open TwitterLike.Threads (Known known_of_found known_allocated)

/-! ## Growth -/

/-- Entries stay in the map, objects keep their ids, and followers vectors are
only appended to. -/
structure Extends (before after : Store) : Prop where
  entries : ∀ (profileId : ByteString) (ref : ProfileRef),
    before.getProfileById profileId = some ref →
      after.getProfileById profileId = some ref
  ids : ∀ (profileId : ByteString) (ref : ProfileRef),
    before.getProfileById profileId = some ref →
      (after.objects ref).profileId = (before.objects ref).profileId
  followers : ∀ (profileId : ByteString) (ref : ProfileRef),
    before.getProfileById profileId = some ref →
      (before.objects ref).followers <+: (after.objects ref).followers

section Extends

variable {before middle after : Store}

theorem Extends.of_sameGraph (hsame : SameGraph before after) :
    Extends before after where
  entries profileId ref hfound := by rwa [hsame.getProfileById]
  ids _ ref _ := hsame.profileId ref
  followers _ ref _ := by rw [hsame.followers]

theorem Extends.refl (store : Store) : Extends store store :=
  .of_sameGraph (.refl store)

theorem Extends.trans (hfirst : Extends before middle)
    (hsecond : Extends middle after) : Extends before after where
  entries profileId ref hfound :=
    hsecond.entries profileId ref (hfirst.entries profileId ref hfound)
  ids profileId ref hfound :=
    (hsecond.ids profileId ref (hfirst.entries profileId ref hfound)).trans
      (hfirst.ids profileId ref hfound)
  followers profileId ref hfound :=
    (hfirst.followers profileId ref hfound).trans
      (hsecond.followers profileId ref (hfirst.entries profileId ref hfound))

theorem extends_created {store : Store} (hwf : WellFormed store)
    {profileId : ByteString}
    (hunknown : store.getProfileById profileId = none) :
    Extends store (store.created profileId) where
  entries key ref hfound := by
    have hne : profileId ≠ key := by
      rintro rfl
      rw [hunknown] at hfound
      cases hfound
    rw [created_getProfileById, if_neg hne]
    exact hfound
  ids key ref hfound := by
    rw [created_objects_of_lt profileId (hwf.allocated key ref hfound)]
  followers key ref hfound := by
    rw [created_objects_of_lt profileId (hwf.allocated key ref hfound)]

theorem extends_pushFollower (store : Store) (target follower : ProfileRef) :
    Extends store (store.pushFollower target follower) where
  entries _ _ hfound := hfound
  ids _ ref _ := pushFollower_profileId ref
  followers _ ref _ := by
    by_cases htarget : ref = target
    · subst htarget
      rw [Store.pushFollower, Store.update_objects_self]
      exact List.prefix_append _ _
    · rw [Store.pushFollower, Store.update_objects_of_ne _ _ _ htarget]

/-- An id that is in the map keeps its entry, whatever profile is inserted. -/
theorem extends_insertProfile (store : Store) (profileId : ByteString)
    (ref : ProfileRef) :
    Extends store (store.insertProfile profileId ref).2 := by
  have hwritten := Extends.of_sameGraph
    (.of_sameMemory (store.insertProfile_sameMemory profileId ref))
  refine Extends.trans ?_ hwritten
  split
  · exact .refl store
  · next habsent =>
      refine ⟨fun key other hfound => ?_, fun _ _ _ => rfl,
        fun _ _ _ => List.prefix_rfl⟩
      have hne : profileId ≠ key := by
        rintro rfl
        have hknown : store.profiles[profileId]? = some other := hfound
        rw [Std.TreeMap.contains_eq_isSome_getElem?, hknown] at habsent
        exact habsent rfl
      rw [Store.getProfileById, Store.insertEntry_getElem?, if_neg hne]
      exact hfound

theorem Extends.known (hextends : Extends before after) {ref : ProfileRef}
    (hknown : Known before ref) : Known after ref := by
  have hentry := hextends.entries _ ref hknown
  rwa [← hextends.ids _ ref hknown] at hentry

/-- No step of a thread loses a profile or an edge. -/
theorem extends_of_graphStep {system next : Threads.System}
    (hgraph : Threads.GraphStep system next)
    (hwf : WellFormed system.store) : Extends system.store next.store := by
  cases hgraph with
  | same hsame => exact .of_sameGraph hsame
  | created profileId hwritable hunknown hsame =>
      exact (extends_created hwf hunknown).trans
        (.of_sameGraph (.of_sameMemory hsame))
  | pushed conn followed target follower hpoint hwritable htarget hself hnew
      hsame =>
      exact (extends_pushFollower system.store target follower).trans
        (.of_sameGraph (.of_sameMemory hsame))

/-- In terms of the graph, no id and no edge is lost. -/
theorem Extends.graph_le (hextends : Extends before after)
    (hwf : WellFormed before) :
    (graph before).ids ⊆ (graph after).ids ∧
      (graph before).edges ⊆ (graph after).edges := by
  constructor
  · intro profileId hmem
    obtain ⟨ref, hfound⟩ := (mem_ids_iff before profileId).1 hmem
    exact (mem_ids_iff after profileId).2
      ⟨ref, hextends.entries profileId ref hfound⟩
  · rintro ⟨followed, name⟩ ⟨ref, hfound, hname⟩
    refine ⟨ref, hextends.entries followed ref hfound, ?_⟩
    obtain ⟨follower, hfollower, rfl⟩ := List.mem_map.1 hname
    have hknown : Known before follower := hwf.followers ref follower hfollower
    rw [← hextends.ids _ follower hknown]
    exact List.mem_map_of_mem
      ((hextends.followers followed ref hfound).subset hfollower)

end Extends

/-! ## Calls -/

/-- The store and the profiles that calls have returned so far. -/
structure Holder where
  store : Store
  obtained : List ProfileRef

def Holder.start : Holder where
  store := Store.empty
  obtained := []

/-- The calls that the server makes, from whatever thread. -/
inductive Call where
  | getProfileById (profileId : ByteString)
  | createProfileIfNotExists (profileId : ByteString) (conn : Option Conn)
      (time : BitVec 64)
  | addFollowerTo (followed : ByteString) (follower : ProfileRef)
  | sendToFollowersOf (profile : Option ProfileRef) (message : Message)
  | decSessionsOn (profile : ProfileRef) (conn : Option Conn)
  | updateSessionsOn (profile : ProfileRef) (conn : Option Conn)
  | fetchInboxContent (profile : ProfileRef)
  | sendCloseConnToAll (time : BitVec 64)

/-- The profile that a result returns, if any, is at hand from then on. -/
def Holder.obtain (holder : Holder) (store : Store)
    (profile : Option ProfileRef) : Holder where
  store := store
  obtained := holder.obtained ++ profile.toList

/-- Whatever its way out, a call leaves its store to the next one. -/
def call (holder : Holder) : Call → Option Holder
  | .getProfileById profileId =>
      some (holder.obtain holder.store (holder.store.getProfileById profileId))
  | .createProfileIfNotExists profileId conn time =>
      let result := holder.store.createProfileIfNotExists profileId conn time
      some (holder.obtain result.2 result.1.toOption)
  | .addFollowerTo followed follower =>
      if follower ∈ holder.obtained then
        some (holder.obtain
          (holder.store.addFollowerTo followed (some follower)).2 none)
      else none
  | .sendToFollowersOf profile message =>
      some (holder.obtain (holder.store.sendToFollowersOf profile message).2 none)
  | .decSessionsOn profile conn =>
      some (holder.obtain (holder.store.decSessionsOn profile conn) none)
  | .updateSessionsOn profile conn =>
      some (holder.obtain (holder.store.updateSessionsOn profile conn) none)
  | .fetchInboxContent profile =>
      some (holder.obtain (holder.store.fetchInboxContent profile).2 none)
  | .sendCloseConnToAll time =>
      some (holder.obtain (holder.store.sendCloseConnToAll time).2 none)

/-! ## What a call keeps -/

structure Consistent (holder : Holder) : Prop where
  wellFormed : WellFormed holder.store
  known : ∀ ref ∈ holder.obtained, Known holder.store ref

theorem consistent_start : Consistent Holder.start where
  wellFormed := wellFormed_empty
  known ref hmem := by cases hmem

section Step

variable {store : Store} {holder next : Holder}

theorem closeSessions_sameGraph (time : BitVec 64)
    (sessions : List (Option Conn)) :
    SameGraph store (Store.closeSessions time store sessions).2 := by
  induction sessions generalizing store with
  | nil => exact .refl store
  | cons session sessions ih =>
      cases session with
      | none => exact .refl store
      | some conn =>
          have hclosed : SameGraph store ((store.sendPacket conn
              (new .closeConn [] [] time)).closeConn conn) :=
            (sendPacket_sameGraph store conn _).trans (closeConn_sameGraph _ conn)
          exact hclosed.trans ih

theorem closeProfiles_sameGraph (time : BitVec 64) (refs : List ProfileRef) :
    SameGraph store (Store.closeProfiles time store refs).2 := by
  induction refs generalizing store with
  | nil => exact .refl store
  | cons ref refs ih =>
      have hsessions := @closeSessions_sameGraph store time
        (store.objects ref).sessions
      unfold Store.closeProfiles
      rcases hresult : Store.closeSessions time store
        (store.objects ref).sessions with ⟨exit | _, closed⟩
      · rw [hresult] at hsessions
        exact hsessions
      · rw [hresult] at hsessions
        exact hsessions.trans ih

theorem addFollowerTo_extends (followed : ByteString) (follower : ProfileRef) :
    Extends store (store.addFollowerTo followed (some follower)).2 := by
  rcases store.addFollowerTo_cases followed follower with
    hkeep | ⟨target, _, _, _, hpush⟩
  · rw [hkeep]
    exact .refl store
  · rw [hpush]
    exact (extends_pushFollower store target follower).trans
      (.of_sameGraph (.of_sameMemory (Store.toJsonFile_sameMemory _)))

theorem findOrCreate_extends (hwf : WellFormed store) (profileId : ByteString)
    (conn : Option Conn) (time : BitVec 64) :
    Extends store (store.findOrCreate profileId conn time).2 := by
  cases hfound : store.getProfileById profileId with
  | none =>
      rw [store.findOrCreate_of_unknown hfound]
      exact (extends_created hwf hfound).trans
        (.of_sameGraph (.of_sameMemory (Store.toJsonFile_sameMemory _)))
  | some ref =>
      by_cases hfull : (store.objects ref).sessionsOn = maxSessions
      · rw [store.findOrCreate_of_full hfound hfull]
        exact .of_sameGraph (refuse_sameGraph store conn time)
      · rw [store.findOrCreate_of_room hfound hfull]
        exact .refl store

/-- The profile that the search returns is in the map it leaves. -/
theorem known_of_findOrCreate (hwf : WellFormed store) {profileId : ByteString}
    {conn : Option Conn} {time : BitVec 64} {ref : ProfileRef} {found : Store}
    (hfind : store.findOrCreate profileId conn time = (.ok ref, found)) :
    Known found ref := by
  rcases Store.findOrCreate_ok _ hfind with ⟨hfound, _, rfl⟩ | ⟨_, rfl, hsame⟩
  · exact known_of_found hwf hfound
  · exact (known_allocated profileId).of_sameGraph (.of_sameMemory hsame)

theorem createProfileIfNotExists_extends (hwf : WellFormed store)
    (profileId : ByteString) (conn : Option Conn) (time : BitVec 64) :
    WellFormed (store.createProfileIfNotExists profileId conn time).2 ∧
      Extends store (store.createProfileIfNotExists profileId conn time).2 ∧
      ∀ ref, (store.createProfileIfNotExists profileId conn time).1 = .ok ref →
        Known (store.createProfileIfNotExists profileId conn time).2 ref := by
  have hwell := (findOrCreate_graph hwf profileId conn time).1
  have hextends := findOrCreate_extends hwf profileId conn time
  unfold Store.createProfileIfNotExists
  rcases hfind : store.findOrCreate profileId conn time with
    ⟨exit | ref, found⟩
  · rw [hfind] at hwell hextends
    exact ⟨hwell, hextends, nofun⟩
  · rw [hfind] at hwell hextends
    have hsame := incSessionsOn_sameGraph found ref conn
    refine ⟨hsame.wellFormed hwell, hextends.trans (.of_sameGraph hsame), ?_⟩
    rintro _ ⟨⟩
    exact (known_of_findOrCreate hwf hfind).of_sameGraph hsame

/-- A call that leaves the graph alone. -/
theorem Consistent.same (hconsistent : Consistent holder)
    (hsame : SameGraph holder.store store) :
    Consistent (holder.obtain store none) ∧ Extends holder.store store := by
  refine ⟨⟨hsame.wellFormed hconsistent.wellFormed, fun ref hmem => ?_⟩,
    .of_sameGraph hsame⟩
  rw [Holder.obtain, Option.toList_none, List.append_nil] at hmem
  exact (hconsistent.known ref hmem).of_sameGraph hsame

/-- A call that returns a profile of the map it leaves. -/
theorem Consistent.obtain (hconsistent : Consistent holder)
    (hwf : WellFormed store) (hextends : Extends holder.store store)
    {profile : Option ProfileRef}
    (hprofile : ∀ ref, profile = some ref → Known store ref) :
    Consistent (holder.obtain store profile) := by
  refine ⟨hwf, fun ref hmem => ?_⟩
  rcases List.mem_append.1 hmem with hold | hnew
  · exact hextends.known (hconsistent.known ref hold)
  · exact hprofile ref (Option.mem_toList.1 hnew)

/-- Every call keeps the store consistent and removes nothing. -/
theorem Consistent.call (hconsistent : Consistent holder) {made : Call}
    (hcall : GraphHistory.call holder made = some next) :
    Consistent next ∧ Extends holder.store next.store := by
  have hwf := hconsistent.wellFormed
  cases made with
  | getProfileById profileId =>
      cases hcall
      exact ⟨hconsistent.obtain hwf (.refl _) fun ref hfound =>
        known_of_found hwf hfound, .refl _⟩
  | createProfileIfNotExists profileId conn time =>
      cases hcall
      obtain ⟨hwell, hextends, hknown⟩ :=
        createProfileIfNotExists_extends hwf profileId conn time
      refine ⟨hconsistent.obtain hwell hextends fun ref hreturned => ?_, hextends⟩
      apply hknown
      revert hreturned
      cases (holder.store.createProfileIfNotExists profileId conn time).1 with
      | error exit => exact nofun
      | ok profile => exact fun hprofile => congrArg _ (Option.some.inj hprofile)
  | addFollowerTo followed follower =>
      rw [GraphHistory.call] at hcall
      split at hcall
      · next hobtained =>
          cases hcall
          have hextends := @addFollowerTo_extends holder.store followed follower
          have hwell := (addFollowerTo_graph hwf
            (hconsistent.known follower hobtained) followed).1
          exact ⟨hconsistent.obtain hwell hextends nofun, hextends⟩
      · cases hcall
  | sendToFollowersOf profile message =>
      cases hcall
      exact hconsistent.same (sendToFollowersOf_sameGraph _ profile message)
  | decSessionsOn profile conn =>
      cases hcall
      exact hconsistent.same (decSessionsOn_sameGraph _ profile conn)
  | updateSessionsOn profile conn =>
      cases hcall
      exact hconsistent.same (updateSessionsOn_sameGraph _ profile conn)
  | fetchInboxContent profile =>
      cases hcall
      exact hconsistent.same (fetchInboxContent_sameGraph _ profile)
  | sendCloseConnToAll time =>
      cases hcall
      exact hconsistent.same (closeProfiles_sameGraph time _)

end Step

/-! ## Runs -/

/-- The map and the followers vectors describe a follow graph, entry by
entry. -/
structure FollowInvariant (store : Store) : Prop where
  ids : ∀ (profileId : ByteString) (ref : ProfileRef),
    store.getProfileById profileId = some ref →
      (store.objects ref).profileId = profileId
  unshared : ∀ (left right : ByteString) (ref : ProfileRef),
    store.getProfileById left = some ref →
      store.getProfileById right = some ref → left = right
  nodup : ∀ (profileId : ByteString) (ref : ProfileRef),
    store.getProfileById profileId = some ref → (store.followerIds ref).Nodup
  irreflexive : ∀ (profileId : ByteString) (ref : ProfileRef),
    store.getProfileById profileId = some ref →
      ref ∉ (store.objects ref).followers
  followers : ∀ (profileId : ByteString) (ref : ProfileRef),
    store.getProfileById profileId = some ref →
      ∀ follower ∈ (store.objects ref).followers,
        store.getProfileById (store.objects follower).profileId = some follower

theorem followInvariant_of_wellFormed {store : Store} (hwf : WellFormed store) :
    FollowInvariant store where
  ids := hwf.ids
  unshared _ _ _ hleft hright := hwf.ref_inj hleft hright
  nodup _ ref _ := hwf.nodup ref
  irreflexive _ ref _ hmem := hwf.irreflexive ref (List.mem_map_of_mem hmem)
  followers _ ref _ := hwf.followers ref

/-- After every sequence of calls the follow graph is consistent, and neither a
later sequence of calls nor the insertion of a profile removes a profile or an
edge. -/
theorem followGraph_of_calls {calls : List Call} {holder : Holder}
    (hcalls : exec call Holder.start calls = some holder) :
    FollowInvariant holder.store ∧
      (∀ more later, exec call holder more = some later →
        Extends holder.store later.store) ∧
      ∀ profileId ref,
        Extends holder.store (holder.store.insertProfile profileId ref).2 := by
  have hrun {first last : Holder} {made : List Call}
      (hfirst : Consistent first) (hmade : exec call first made = some last) :
      Consistent last ∧ Extends first.store last.store := by
    apply exec_related _ _ _ hfirst hmade
    · exact fun holder => Extends.refl holder.store
    · exact Extends.trans
    · exact fun _ _ _ hconsistent hcall => hconsistent.call hcall
  have hconsistent := (hrun consistent_start hcalls).1
  exact ⟨followInvariant_of_wellFormed hconsistent.wellFormed,
    fun _ _ hmore => (hrun hconsistent hmore).2,
    extends_insertProfile holder.store⟩

/-- `a` and `b` log in, `b` follows `a` twice and itself once, and a text of
`a` waits for `b`. -/
def friendCalls : List Call :=
  [.createProfileIfNotExists [97] (some 1) 0,
    .createProfileIfNotExists [98] none 0, .addFollowerTo [97] 1,
    .addFollowerTo [97] 1, .addFollowerTo [98] 1,
    .decSessionsOn 1 none, .sendToFollowersOf (some 0) ⟨0, new .send [104] [] 0⟩]

theorem followGraph_of_friendCalls :
    ∃ holder, exec call Holder.start friendCalls = some holder ∧
      holder.store.followerIds 0 = [[98]] ∧ holder.store.followerIds 1 = [] ∧
      FollowInvariant holder.store := by
  have hids : (exec call Holder.start friendCalls).map (fun holder =>
      (holder.store.followerIds 0, holder.store.followerIds 1)) =
      some ([[98]], []) := by
    decide
  obtain ⟨holder, hcalls, hfollowers⟩ := Option.map_eq_some_iff.1 hids
  obtain ⟨hfirst, hsecond⟩ := Prod.mk.inj hfollowers
  exact ⟨holder, hcalls, hfirst, hsecond, (followGraph_of_calls hcalls).1⟩

end TwitterLike.GraphHistory
