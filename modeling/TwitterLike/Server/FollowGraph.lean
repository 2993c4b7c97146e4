import TwitterLike.Server.StoreEffects

/-!
# The follow graph

What the profile store is for: a set of profile ids and a set of edges from a
follower to the profile it follows.  A store is well formed when its map and its
followers vectors represent such a graph, and on well-formed stores logging in
and following are two operations on the graph.
-/

namespace TwitterLike.FollowGraph

open TwitterLike.ByteBuffer
open TwitterLike.JsonDump
open TwitterLike.Profiles
open TwitterLike.ProfilesManager

/-! ## Graphs -/

@[ext]
structure Graph where
  ids : Set ByteString
  /-- pairs of a followed id and the id of a follower -/
  edges : Set (ByteString × ByteString)

namespace Graph

def empty : Graph := ⟨∅, ∅⟩

def register (graph : Graph) (profileId : ByteString) : Graph :=
  { graph with ids := insert profileId graph.ids }

/-- Nobody follows itself or an unknown profile. -/
def follow (graph : Graph) (followed follower : ByteString) : Graph :=
  { graph with
    edges := graph.edges ∪
      {edge | edge = (followed, follower) ∧ followed ∈ graph.ids ∧
        follower ≠ followed} }

theorem register_of_mem {graph : Graph} {profileId : ByteString}
    (hmem : profileId ∈ graph.ids) : graph.register profileId = graph := by
  ext1
  · exact Set.insert_eq_of_mem hmem
  · rfl

theorem follow_of_unknown {graph : Graph} {followed : ByteString}
    (hunknown : followed ∉ graph.ids) (follower : ByteString) :
    graph.follow followed follower = graph := by
  ext1
  · rfl
  · apply Set.union_eq_left.2
    rintro edge ⟨_, hknown, _⟩
    exact absurd hknown hunknown

theorem follow_self (graph : Graph) (profileId : ByteString) :
    graph.follow profileId profileId = graph := by
  ext1
  · rfl
  · apply Set.union_eq_left.2
    rintro edge ⟨_, _, hself⟩
    exact absurd rfl hself

theorem follow_of_mem {graph : Graph} {followed follower : ByteString}
    (hmem : (followed, follower) ∈ graph.edges) :
    graph.follow followed follower = graph := by
  ext1
  · rfl
  · apply Set.union_eq_left.2
    rintro edge ⟨hedge, _⟩
    exact hedge ▸ hmem

end Graph

/-! ## The graph of a store -/

section Store

variable (store : Store)

def graph : Graph where
  ids := {profileId | (store.getProfileById profileId).isSome}
  edges := {edge | ∃ ref, store.getProfileById edge.1 = some ref ∧
    edge.2 ∈ store.followerIds ref}

theorem mem_ids_iff (profileId : ByteString) :
    profileId ∈ (graph store).ids ↔
      ∃ ref, store.getProfileById profileId = some ref :=
  Option.isSome_iff_exists

theorem notMem_ids_iff (profileId : ByteString) :
    profileId ∉ (graph store).ids ↔ store.getProfileById profileId = none := by
  rw [mem_ids_iff, ← Option.isSome_iff_exists, Option.not_isSome_iff_eq_none]

theorem mem_edges_iff {followed : ByteString} {ref : ProfileRef}
    (hfound : store.getProfileById followed = some ref)
    (follower : ByteString) :
    (followed, follower) ∈ (graph store).edges ↔
      follower ∈ store.followerIds ref := by
  constructor
  · rintro ⟨other, hother, hmem⟩
    cases hfound.symm.trans hother
    exact hmem
  · intro hmem
    exact ⟨ref, hfound, hmem⟩

/-- The map and the followers vectors represent the graph: profiles are stored
under their ids, and every followers vector holds profiles of the map, each once
and never its owner. -/
structure WellFormed : Prop where
  ids : ∀ (profileId : ByteString) (ref : ProfileRef),
    store.getProfileById profileId = some ref →
      (store.objects ref).profileId = profileId
  allocated : ∀ (profileId : ByteString) (ref : ProfileRef),
    store.getProfileById profileId = some ref → ref < store.allocated
  followers : ∀ ref, ∀ follower ∈ (store.objects ref).followers,
    store.getProfileById (store.objects follower).profileId = some follower
  nodup : ∀ ref, (store.followerIds ref).Nodup
  irreflexive : ∀ ref, (store.objects ref).profileId ∉ store.followerIds ref

theorem wellFormed_empty : WellFormed Store.empty where
  ids profileId ref hfound := by simp [Store.getProfileById, Store.empty] at hfound
  allocated profileId ref hfound := by
    simp [Store.getProfileById, Store.empty] at hfound
  followers ref follower hfollower := by
    simp [Store.empty, Profile.new] at hfollower
  nodup ref := by simp [Store.followerIds, Store.empty, Profile.new]
  irreflexive ref := by simp [Store.followerIds, Store.empty, Profile.new]

theorem graph_empty : graph Store.empty = Graph.empty := by
  ext1
  · ext profileId
    simp [graph, Graph.empty, Store.getProfileById, Store.empty]
  · ext edge
    simp [graph, Graph.empty, Store.getProfileById, Store.empty]

end Store

variable {store after : Store}

theorem WellFormed.follower_lt (hwf : WellFormed store) {ref : ProfileRef}
    {follower : ProfileRef}
    (hfollower : follower ∈ (store.objects ref).followers) :
    follower < store.allocated :=
  hwf.allocated _ follower (hwf.followers ref follower hfollower)

theorem WellFormed.noDangling (hwf : WellFormed store) : store.NoDangling where
  profiles := hwf.allocated
  followers _ _ hfollower := hwf.follower_lt hfollower

/-- Distinct ids are stored in distinct objects. -/
theorem WellFormed.ref_inj (hwf : WellFormed store) {left right : ByteString}
    {ref : ProfileRef} (hleft : store.getProfileById left = some ref)
    (hright : store.getProfileById right = some ref) : left = right :=
  (hwf.ids left ref hleft).symm.trans (hwf.ids right ref hright)

/-- A followers vector holds no profile twice. -/
theorem WellFormed.followers_nodup (hwf : WellFormed store) (ref : ProfileRef) :
    (store.objects ref).followers.Nodup :=
  (hwf.nodup ref).of_map _

/-! ## Changes outside the graph -/

/-- The two stores have the same map, ids and followers vectors. -/
structure SameGraph (before after : Store) : Prop where
  profiles : after.profiles = before.profiles
  allocated : after.allocated = before.allocated
  profileId : ∀ ref,
    (after.objects ref).profileId = (before.objects ref).profileId
  followers : ∀ ref,
    (after.objects ref).followers = (before.objects ref).followers

theorem SameGraph.refl (store : Store) : SameGraph store store :=
  ⟨rfl, rfl, fun _ => rfl, fun _ => rfl⟩

theorem SameGraph.trans {middle : Store} (hfirst : SameGraph store middle)
    (hsecond : SameGraph middle after) : SameGraph store after where
  profiles := hsecond.profiles.trans hfirst.profiles
  allocated := hsecond.allocated.trans hfirst.allocated
  profileId ref := (hsecond.profileId ref).trans (hfirst.profileId ref)
  followers ref := (hsecond.followers ref).trans (hfirst.followers ref)

theorem SameGraph.of_sameMemory (hsame : Store.SameMemory store after) :
    SameGraph store after where
  profiles := hsame.profiles
  allocated := hsame.allocated
  profileId ref := by rw [hsame.objects]
  followers ref := by rw [hsame.objects]

theorem SameGraph.update (ref : ProfileRef) {change : Profile → Profile}
    (hid : (change (store.objects ref)).profileId =
      (store.objects ref).profileId)
    (hfollowers : (change (store.objects ref)).followers =
      (store.objects ref).followers) :
    SameGraph store (store.update ref change) where
  profiles := rfl
  allocated := rfl
  profileId := store.update_objects_field ref Profile.profileId hid
  followers := store.update_objects_field ref Profile.followers hfollowers

namespace SameGraph

variable (hsame : SameGraph store after)

include hsame

theorem getProfileById (profileId : ByteString) :
    after.getProfileById profileId = store.getProfileById profileId := by
  rw [Store.getProfileById, hsame.profiles, Store.getProfileById]

theorem followerIds (ref : ProfileRef) :
    after.followerIds ref = store.followerIds ref := by
  simp only [Store.followerIds, hsame.followers, hsame.profileId]

theorem graph_eq : graph after = graph store := by
  ext1
  · ext profileId
    simp only [graph, hsame.getProfileById]
  · ext edge
    simp only [graph, hsame.getProfileById, hsame.followerIds]

theorem wellFormed (hwf : WellFormed store) : WellFormed after where
  ids profileId ref hfound := by
    rw [hsame.profileId]
    exact hwf.ids profileId ref (hsame.getProfileById profileId ▸ hfound)
  allocated profileId ref hfound := by
    rw [hsame.allocated]
    exact hwf.allocated profileId ref (hsame.getProfileById profileId ▸ hfound)
  followers ref follower hfollower := by
    rw [hsame.followers] at hfollower
    rw [hsame.profileId, hsame.getProfileById]
    exact hwf.followers ref follower hfollower
  nodup ref := by
    rw [hsame.followerIds]
    exact hwf.nodup ref
  irreflexive ref := by
    rw [hsame.profileId, hsame.followerIds]
    exact hwf.irreflexive ref

end SameGraph

/-! ## Registering -/

section Created

variable (store) (profileId : ByteString)

theorem created_getProfileById (key : ByteString) :
    (store.created profileId).getProfileById key =
      if profileId = key then some store.allocated
      else store.getProfileById key :=
  Store.insertEntry_getElem? _ profileId key store.allocated

theorem created_objects (ref : ProfileRef) :
    (store.created profileId).objects ref =
      if ref = store.allocated then Profile.new profileId
      else store.objects ref := by
  change Function.update store.objects store.allocated _ ref = _
  rw [Function.update_apply]

theorem created_allocated :
    (store.created profileId).allocated = store.allocated + 1 := rfl

variable {store}

theorem created_objects_of_lt {ref : ProfileRef}
    (hlt : ref < store.allocated) :
    (store.created profileId).objects ref = store.objects ref := by
  rw [created_objects, if_neg hlt.ne]

theorem created_followerIds (hsound : store.NoDangling) (ref : ProfileRef) :
    (store.created profileId).followerIds ref =
      if ref = store.allocated then [] else store.followerIds ref := by
  rw [Store.followerIds, created_objects]
  split
  · rfl
  · apply List.map_congr_left
    intro follower hfollower
    rw [created_objects_of_lt profileId (hsound.followers ref follower hfollower)]

theorem wellFormed_created (hwf : WellFormed store)
    (hunknown : store.getProfileById profileId = none) :
    WellFormed (store.created profileId) where
  ids key ref hfound := by
    rw [created_getProfileById] at hfound
    rw [created_objects]
    split at hfound
    · next heq =>
        cases hfound
        rw [if_pos rfl]
        exact heq
    · rw [if_neg (hwf.allocated key ref hfound).ne]
      exact hwf.ids key ref hfound
  allocated key ref hfound := by
    rw [created_getProfileById] at hfound
    rw [created_allocated]
    split at hfound
    · cases hfound
      exact Nat.lt_succ_self _
    · exact Nat.lt_succ_of_lt (hwf.allocated key ref hfound)
  followers ref follower hfollower := by
    rw [created_objects] at hfollower
    split at hfollower
    · simp [Profile.new] at hfollower
    · have hfound := hwf.followers ref follower hfollower
      have hne : profileId ≠ (store.objects follower).profileId := by
        intro heq
        rw [← heq, hunknown] at hfound
        contradiction
      rw [created_objects_of_lt profileId (hwf.follower_lt hfollower),
        created_getProfileById, if_neg hne]
      exact hfound
  nodup ref := by
    rw [created_followerIds profileId hwf.noDangling]
    split
    · exact List.nodup_nil
    · exact hwf.nodup ref
  irreflexive ref := by
    rw [created_followerIds profileId hwf.noDangling, created_objects]
    split
    · exact List.not_mem_nil
    · exact hwf.irreflexive ref

theorem graph_created (hwf : WellFormed store)
    (hunknown : store.getProfileById profileId = none) :
    graph (store.created profileId) = (graph store).register profileId := by
  ext1
  · ext key
    simp only [graph, Graph.register, Set.mem_ofPred_eq, Set.mem_insert_iff,
      created_getProfileById]
    split
    · next heq => simp [heq]
    · next hne => simp [Ne.symm hne]
  · ext ⟨followed, follower⟩
    simp only [graph, Graph.register, Set.mem_ofPred_eq, created_getProfileById,
      created_followerIds profileId hwf.noDangling]
    constructor
    · rintro ⟨ref, hfound, hmem⟩
      split at hfound
      · cases hfound
        simp at hmem
      · rw [if_neg (hwf.allocated followed ref hfound).ne] at hmem
        exact ⟨ref, hfound, hmem⟩
    · rintro ⟨ref, hfound, hmem⟩
      have hne : profileId ≠ followed := by
        rintro rfl
        rw [hunknown] at hfound
        contradiction
      refine ⟨ref, by rw [if_neg hne, hfound], ?_⟩
      rw [if_neg (hwf.allocated followed ref hfound).ne]
      exact hmem

end Created

/-! ## Following -/

section Pushed

variable {target follower : ProfileRef}

theorem pushFollower_profileId (ref : ProfileRef) :
    ((store.pushFollower target follower).objects ref).profileId =
      (store.objects ref).profileId :=
  store.update_objects_field target Profile.profileId rfl ref

theorem wellFormed_pushFollower (hwf : WellFormed store)
    (hfound : store.getProfileById (store.objects follower).profileId =
      some follower)
    (hself : (store.objects follower).profileId ≠
      (store.objects target).profileId)
    (hnew : (store.objects follower).profileId ∉ store.followerIds target) :
    WellFormed (store.pushFollower target follower) where
  ids key ref hkey := by
    rw [pushFollower_profileId]
    exact hwf.ids key ref hkey
  allocated := hwf.allocated
  followers ref other hother := by
    rw [pushFollower_profileId]
    by_cases htarget : ref = target
    · subst ref
      rw [Store.pushFollower, Store.update_objects_self, List.mem_append,
        List.mem_singleton] at hother
      cases hother with
      | inl hold => exact hwf.followers target other hold
      | inr hadded => rw [hadded, Store.getProfileById]; exact hfound
    · rw [Store.pushFollower, Store.update_objects_of_ne _ _ _ htarget] at hother
      exact hwf.followers ref other hother
  nodup ref := by
    rw [Store.followerIds_pushFollower]
    split
    · next heq =>
        subst heq
        apply (hwf.nodup ref).append (List.nodup_singleton _)
        exact List.disjoint_singleton.2 hnew
    · exact hwf.nodup ref
  irreflexive ref := by
    rw [Store.followerIds_pushFollower, pushFollower_profileId]
    split
    · next heq =>
        subst heq
        rw [List.mem_append, List.mem_singleton, not_or]
        exact ⟨hwf.irreflexive ref, hself.symm⟩
    · exact hwf.irreflexive ref

theorem graph_pushFollower {followed : ByteString}
    (htarget : store.getProfileById followed = some target)
    (hunshared : ∀ other, store.getProfileById other = some target →
      followed = other)
    (hself : (store.objects follower).profileId ≠ followed) :
    graph (store.pushFollower target follower) =
      (graph store).follow followed (store.objects follower).profileId := by
  ext1
  · rfl
  · ext ⟨key, name⟩
    simp only [graph, Graph.follow, Set.mem_union, Set.mem_ofPred_eq,
      Prod.mk.injEq, Store.followerIds_pushFollower]
    constructor
    · rintro ⟨ref, hfound, hmem⟩
      split at hmem
      · next heq =>
          subst heq
          cases hunshared key hfound
          rcases List.mem_append.1 hmem with hold | hadded
          · exact .inl ⟨ref, hfound, hold⟩
          · refine .inr ⟨⟨rfl, List.mem_singleton.1 hadded⟩, ?_, hself⟩
            rw [htarget]
            rfl
      · exact .inl ⟨ref, hfound, hmem⟩
    · rintro (⟨ref, hfound, hmem⟩ | ⟨⟨rfl, rfl⟩, _, _⟩)
      · refine ⟨ref, hfound, ?_⟩
        split
        · exact List.mem_append_left _ hmem
        · exact hmem
      · refine ⟨target, htarget, ?_⟩
        rw [if_pos rfl]
        exact List.mem_append_right _ List.mem_cons_self

end Pushed

/-! ## The store operations on the graph -/

/-- Whatever its way out, `addFollowerTo` adds the edge that following adds. -/
theorem graph_addFollowerTo {followed : ByteString} {follower : ProfileRef}
    (hunshared : ∀ target other, store.getProfileById followed = some target →
      store.getProfileById other = some target → followed = other) :
    graph (store.addFollowerTo followed (some follower)).2 =
      (graph store).follow followed (store.objects follower).profileId := by
  by_cases hself : (store.objects follower).profileId = followed
  · rw [Store.addFollowerTo, if_pos hself, hself, Graph.follow_self]
  cases htarget : store.getProfileById followed with
  | none =>
      rw [Graph.follow_of_unknown ((notMem_ids_iff store followed).2 htarget)]
      simp only [Store.addFollowerTo, if_neg hself, htarget]
  | some target =>
      simp only [Store.addFollowerTo, if_neg hself, htarget]
      by_cases hfollows :
          (store.objects follower).profileId ∈ store.followerIds target
      · rw [if_pos hfollows,
          Graph.follow_of_mem ((mem_edges_iff store htarget _).2 hfollows)]
      · have hsame := SameGraph.of_sameMemory
          (store.pushFollower target follower).toJsonFile_sameMemory
        rw [if_neg hfollows, hsame.graph_eq]
        exact graph_pushFollower htarget
          (fun other hother => hunshared target other htarget hother) hself

theorem wellFormed_addFollowerTo (hwf : WellFormed store) {follower : ProfileRef}
    (hfound : store.getProfileById (store.objects follower).profileId =
      some follower) (followed : ByteString) :
    WellFormed (store.addFollowerTo followed (some follower)).2 := by
  rcases store.addFollowerTo_cases followed follower with
    hkeep | ⟨target, htarget, hself, hnew, hpush⟩
  · rw [hkeep]
    exact hwf
  · have hsame := SameGraph.of_sameMemory
      (store.pushFollower target follower).toJsonFile_sameMemory
    rw [← hwf.ids followed target htarget] at hself
    rw [hpush]
    exact hsame.wellFormed (wellFormed_pushFollower hwf hfound hself hnew)

theorem addFollowerTo_graph (hwf : WellFormed store) {follower : ProfileRef}
    (hfound : store.getProfileById (store.objects follower).profileId =
      some follower) (followed : ByteString) :
    WellFormed (store.addFollowerTo followed (some follower)).2 ∧
      graph (store.addFollowerTo followed (some follower)).2 =
        (graph store).follow followed (store.objects follower).profileId :=
  ⟨wellFormed_addFollowerTo hwf hfound followed,
    graph_addFollowerTo fun _ _ => hwf.ref_inj⟩

theorem sendPacket_sameGraph (store : Store) (conn : Conn)
    (packet : PacketFormat.Packet) :
    SameGraph store (store.sendPacket conn packet) :=
  ⟨rfl, rfl, fun _ => rfl, fun _ => rfl⟩

theorem sendPasses_sameGraph (store : Store) (ref : ProfileRef)
    (passes : List Pass) : SameGraph store (store.sendPasses ref passes) :=
  ⟨rfl, rfl, fun _ => rfl, fun _ => rfl⟩

theorem closeConn_sameGraph (store : Store) (conn : Conn) :
    SameGraph store (store.closeConn conn) :=
  ⟨rfl, rfl, fun _ => rfl, fun _ => rfl⟩

theorem refuse_sameGraph (store : Store) (conn : Option Conn)
    (time : BitVec 64) : SameGraph store (store.refuse conn time).2 := by
  cases conn with
  | none => exact .refl store
  | some conn =>
      exact (sendPacket_sameGraph store conn _).trans (closeConn_sameGraph _ conn)

/-- Whatever its way out, the search for the profile of a login registers its
id. -/
theorem findOrCreate_graph (hwf : WellFormed store) (profileId : ByteString)
    (conn : Option Conn) (time : BitVec 64) :
    WellFormed (store.findOrCreate profileId conn time).2 ∧
      graph (store.findOrCreate profileId conn time).2 =
        (graph store).register profileId := by
  cases hfound : store.getProfileById profileId with
  | none =>
      have hsame := SameGraph.of_sameMemory
        (store.created profileId).toJsonFile_sameMemory
      rw [store.findOrCreate_of_unknown hfound, hsame.graph_eq,
        graph_created profileId hwf hfound]
      exact ⟨hsame.wellFormed (wellFormed_created profileId hwf hfound), rfl⟩
  | some ref =>
      rw [Graph.register_of_mem ((mem_ids_iff store profileId).2 ⟨ref, hfound⟩)]
      by_cases hfull : (store.objects ref).sessionsOn = maxSessions
      · have hsame := refuse_sameGraph store conn time
        rw [store.findOrCreate_of_full hfound hfull, hsame.graph_eq]
        exact ⟨hsame.wellFormed hwf, rfl⟩
      · rw [store.findOrCreate_of_room hfound hfull]
        exact ⟨hwf, rfl⟩

theorem sendOrInsertInbox_sameGraph (store : Store) (ref : ProfileRef)
    (message : Message) :
    SameGraph store (store.sendOrInsertInbox ref message) := by
  have hupdate : SameGraph store (store.update ref fun _ =>
      ((store.objects ref).sendOrInsertInbox message).1) :=
    .update ref (sendOrInsertInbox_profileId _ _)
      (sendOrInsertInbox_followers _ _)
  exact hupdate.trans (sendPasses_sameGraph _ ref _)

theorem sendToFollowersOf_sameGraph (store : Store)
    (profile : Option ProfileRef) (message : Message) :
    SameGraph store (store.sendToFollowersOf profile message).2 := by
  cases profile with
  | none => exact .refl store
  | some ref =>
      change SameGraph store
        (List.foldl _ store (store.objects ref).followers)
      generalize (store.objects ref).followers = followers
      induction followers generalizing store with
      | nil => exact .refl store
      | cons follower followers ih =>
          exact (sendOrInsertInbox_sameGraph store follower message).trans
            (ih _)

theorem incSessionsOn_sameGraph (store : Store) (ref : ProfileRef)
    (conn : Option Conn) : SameGraph store (store.incSessionsOn ref conn) :=
  .update ref rfl rfl

theorem decSessionsOn_sameGraph (store : Store) (ref : ProfileRef)
    (conn : Option Conn) : SameGraph store (store.decSessionsOn ref conn) :=
  .update ref (by simp) (by simp)

theorem updateSessionsOn_sameGraph (store : Store) (ref : ProfileRef)
    (conn : Option Conn) : SameGraph store (store.updateSessionsOn ref conn) :=
  .update ref rfl rfl

theorem fetchInboxContent_sameGraph (store : Store) (ref : ProfileRef) :
    SameGraph store (store.fetchInboxContent ref).2 := by
  have hupdate : SameGraph store (store.update ref fun _ =>
      (store.objects ref).fetchInboxContent.2.1) := .update ref rfl rfl
  exact hupdate.trans (sendPasses_sameGraph _ ref _)

end TwitterLike.FollowGraph
