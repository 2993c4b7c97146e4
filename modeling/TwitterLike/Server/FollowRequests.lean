import TwitterLike.Server.GraphHistory

/-!
# Follow requests in any order

The followers that a list of requests leaves, as a set: the order of the requests
and how often each is made only decide the order in the followers vectors.
-/

namespace TwitterLike.FollowRequests

open TwitterLike.ByteBuffer
open TwitterLike.Profiles
open TwitterLike.ProfilesManager
open TwitterLike.FollowGraph
open TwitterLike.GraphHistory
open TwitterLike.Threads (Known)

/-! ## On the graph -/

/-- Follow requests one after the other. -/
def followPairs (graph : Graph) (pairs : List (ByteString × ByteString)) : Graph :=
  pairs.foldl (fun graph pair => graph.follow pair.1 pair.2) graph

section Graph

variable {graph : Graph} {pairs : List (ByteString × ByteString)}

/-- An edge is there from the beginning or it is asked for. -/
theorem mem_followPairs_iff {edge : ByteString × ByteString} :
    edge ∈ (followPairs graph pairs).edges ↔
      edge ∈ graph.edges ∨ edge ∈ pairs ∧ edge.1 ∈ graph.ids ∧ edge.2 ≠ edge.1 := by
  induction pairs generalizing graph with
  | nil => simp [followPairs]
  | cons pair pairs ih =>
      have hstep : edge ∈ (followPairs graph (pair :: pairs)).edges ↔
          edge ∈ (graph.follow pair.1 pair.2).edges ∨
            edge ∈ pairs ∧ edge.1 ∈ graph.ids ∧ edge.2 ≠ edge.1 := ih
      rw [hstep, Graph.follow, Set.mem_union, Set.mem_ofPred_eq, List.mem_cons,
        or_and_right, or_assoc]
      have hpair :
          (edge = (pair.1, pair.2) ∧ pair.1 ∈ graph.ids ∧ pair.2 ≠ pair.1) ↔
            edge = pair ∧ edge.1 ∈ graph.ids ∧ edge.2 ≠ edge.1 := by
        constructor
        · rintro ⟨rfl, hmade⟩
          exact ⟨rfl, hmade⟩
        · rintro ⟨rfl, hmade⟩
          exact ⟨rfl, hmade⟩
      rw [hpair]

end Graph

/-! ## On the store -/

/-- A `FOLLOW` of `followed` by a profile. -/
structure Request where
  followed : ByteString
  follower : ProfileRef
  deriving DecidableEq

/-- One call of `addFollowerTo` a request, whatever the way out of it. -/
def addFollowers (store : Store) (requests : List Request) : Store :=
  requests.foldl (fun store request =>
    (store.addFollowerTo request.followed (some request.follower)).2) store

/-- The ids involved in a request. -/
def Request.pair (store : Store) (request : Request) : ByteString × ByteString :=
  (request.followed, (store.objects request.follower).profileId)

/-- The ids that a profile is to be followed by. -/
def asked (store : Store) (requests : List Request) (profileId : ByteString)
    (ref : ProfileRef) : Set ByteString :=
  {name | name ∈ store.followerIds ref} ∪
    {name | ∃ request ∈ requests, request.followed = profileId ∧
      (store.objects request.follower).profileId = name ∧ name ≠ profileId}

/-- The same profiles under the same ids. -/
structure SameProfiles (before after : Store) : Prop where
  profiles : after.profiles = before.profiles
  profileId : ∀ ref,
    (after.objects ref).profileId = (before.objects ref).profileId

section Requests

variable {store middle after : Store} {followed : ByteString}
  {target follower : ProfileRef}

theorem SameProfiles.refl (store : Store) : SameProfiles store store :=
  ⟨rfl, fun _ => rfl⟩

theorem SameProfiles.trans (hfirst : SameProfiles store middle)
    (hsecond : SameProfiles middle after) : SameProfiles store after where
  profiles := hsecond.profiles.trans hfirst.profiles
  profileId ref := (hsecond.profileId ref).trans (hfirst.profileId ref)

theorem SameProfiles.getProfileById (hsame : SameProfiles store after)
    (profileId : ByteString) :
    after.getProfileById profileId = store.getProfileById profileId := by
  rw [Store.getProfileById, hsame.profiles, Store.getProfileById]

theorem SameProfiles.known (hsame : SameProfiles store after)
    (hknown : Known store follower) : Known after follower := by
  rw [Known, hsame.profileId, hsame.getProfileById]
  exact hknown

theorem sameProfiles_pushFollower :
    SameProfiles store (store.pushFollower target follower) :=
  ⟨rfl, pushFollower_profileId⟩

theorem followInvariant_of_sameGraph (hinvariant : FollowInvariant store)
    (hsame : SameGraph store after) : FollowInvariant after where
  ids profileId ref hfound := by
    rw [hsame.getProfileById] at hfound
    rw [hsame.profileId]
    exact hinvariant.ids profileId ref hfound
  unshared left right ref hleft hright := by
    rw [hsame.getProfileById] at hleft hright
    exact hinvariant.unshared left right ref hleft hright
  nodup profileId ref hfound := by
    rw [hsame.getProfileById] at hfound
    rw [hsame.followerIds]
    exact hinvariant.nodup profileId ref hfound
  irreflexive profileId ref hfound := by
    rw [hsame.getProfileById] at hfound
    rw [hsame.followers]
    exact hinvariant.irreflexive profileId ref hfound
  followers profileId ref hfound follower hfollower := by
    rw [hsame.getProfileById] at hfound
    rw [hsame.followers] at hfollower
    rw [hsame.profileId, hsame.getProfileById]
    exact hinvariant.followers profileId ref hfound follower hfollower

theorem followInvariant_pushFollower (hinvariant : FollowInvariant store)
    (hknown : Known store follower)
    (htarget : store.getProfileById followed = some target)
    (hself : (store.objects follower).profileId ≠ followed)
    (hnew : (store.objects follower).profileId ∉ store.followerIds target) :
    FollowInvariant (store.pushFollower target follower) where
  ids profileId ref hfound := by
    rw [pushFollower_profileId]
    exact hinvariant.ids profileId ref hfound
  unshared := hinvariant.unshared
  nodup profileId ref hfound := by
    rw [Store.followerIds_pushFollower]
    split
    · next heq =>
        subst heq
        exact (hinvariant.nodup profileId ref hfound).append
          (List.nodup_singleton _) (List.disjoint_singleton.2 hnew)
    · exact hinvariant.nodup profileId ref hfound
  irreflexive profileId ref hfound := by
    have hold := hinvariant.irreflexive profileId ref hfound
    by_cases heq : ref = target
    · subst heq
      rw [Store.pushFollower, Store.update_objects_self, List.mem_append,
        List.mem_singleton, not_or]
      refine ⟨hold, ?_⟩
      rintro rfl
      exact hself (hinvariant.ids followed ref htarget)
    · rw [Store.pushFollower, Store.update_objects_of_ne _ _ _ heq]
      exact hold
  followers profileId ref hfound other hother := by
    rw [pushFollower_profileId]
    by_cases heq : ref = target
    · subst heq
      rw [Store.pushFollower, Store.update_objects_self, List.mem_append,
        List.mem_singleton] at hother
      rcases hother with hold | rfl
      · exact hinvariant.followers profileId ref hfound other hold
      · exact hknown
    · rw [Store.pushFollower, Store.update_objects_of_ne _ _ _ heq] at hother
      exact hinvariant.followers profileId ref hfound other hother

/-- One request adds its edge, whatever the way out of the call. -/
theorem addFollowerTo_request (hinvariant : FollowInvariant store)
    (hknown : Known store follower) (followed : ByteString) :
    FollowInvariant (store.addFollowerTo followed (some follower)).2 ∧
      SameProfiles store (store.addFollowerTo followed (some follower)).2 ∧
      graph (store.addFollowerTo followed (some follower)).2 =
        (graph store).follow followed (store.objects follower).profileId := by
  refine ⟨?_, ?_, graph_addFollowerTo fun target other htarget hother =>
    hinvariant.unshared followed other target htarget hother⟩
  all_goals
    rcases store.addFollowerTo_cases followed follower with
      hkeep | ⟨target, htarget, hself, hnew, hpush⟩
  · rw [hkeep]
    exact hinvariant
  · rw [hpush]
    exact followInvariant_of_sameGraph
      (followInvariant_pushFollower hinvariant hknown htarget hself hnew)
      (.of_sameMemory (store.pushFollower target follower).toJsonFile_sameMemory)
  · rw [hkeep]
    exact .refl store
  · have hsame := (store.pushFollower target follower).toJsonFile_sameMemory
    rw [hpush]
    exact sameProfiles_pushFollower.trans
      ⟨hsame.profiles, fun ref => by rw [hsame.objects]⟩

/-- All requests together add their edges and leave the profiles alone. -/
theorem addFollowers_requests (hinvariant : FollowInvariant store)
    {requests : List Request}
    (hknown : ∀ request ∈ requests, Known store request.follower) :
    FollowInvariant (addFollowers store requests) ∧
      SameProfiles store (addFollowers store requests) ∧
      graph (addFollowers store requests) =
        followPairs (graph store) (requests.map (Request.pair store)) := by
  induction requests generalizing store with
  | nil => exact ⟨hinvariant, .refl store, rfl⟩
  | cons request requests ih =>
      obtain ⟨hfollower, hothers⟩ := List.forall_mem_cons.1 hknown
      obtain ⟨hafter, hsame, hgraph⟩ :=
        addFollowerTo_request hinvariant hfollower request.followed
      obtain ⟨hlast, hsame', hgraph'⟩ := ih hafter fun other hother =>
        hsame.known (hothers other hother)
      refine ⟨hlast, hsame.trans hsame', ?_⟩
      have hpairs : requests.map (Request.pair
          (store.addFollowerTo request.followed (some request.follower)).2) =
            requests.map (Request.pair store) :=
        List.map_congr_left fun other _ => by
          rw [Request.pair, hsame.profileId, Request.pair]
      rw [hgraph, hpairs] at hgraph'
      exact hgraph'

/-- Every profile ends with the followers that it had and those that asked. -/
theorem followerIds_addFollowers (hinvariant : FollowInvariant store)
    {requests : List Request}
    (hknown : ∀ request ∈ requests, Known store request.follower)
    {profileId : ByteString} {ref : ProfileRef}
    (hfound : store.getProfileById profileId = some ref) :
    (addFollowers store requests).getProfileById profileId = some ref ∧
      {name | name ∈ (addFollowers store requests).followerIds ref} =
        asked store requests profileId ref ∧
      ((addFollowers store requests).followerIds ref).Nodup := by
  obtain ⟨hafter, hsame, hgraph⟩ := addFollowers_requests hinvariant hknown
  have hkept : (addFollowers store requests).getProfileById profileId = some ref :=
    (hsame.getProfileById profileId).trans hfound
  refine ⟨hkept, ?_, hafter.nodup profileId ref hkept⟩
  ext name
  have hid : profileId ∈ (graph store).ids := (mem_ids_iff _ _).2 ⟨ref, hfound⟩
  rw [Set.mem_ofPred_eq, ← mem_edges_iff _ hkept, hgraph, mem_followPairs_iff,
    mem_edges_iff _ hfound, asked, Set.mem_union, Set.mem_ofPred_eq, List.mem_map]
  refine or_congr_right ⟨?_, ?_⟩
  · rintro ⟨⟨request, hmem, hpair⟩, _, hne⟩
    obtain ⟨hfollowed, hname⟩ := Prod.mk.inj hpair
    exact ⟨request, hmem, hfollowed, hname, hne⟩
  · rintro ⟨request, hmem, hfollowed, hname, hne⟩
    exact ⟨⟨request, hmem, Prod.ext hfollowed hname⟩, hid, hne⟩

end Requests

/-! ## Lists with the same requests -/

/-- Two lists of the same requests, whatever their order and however often a
request is made, leave every profile with the same set of followers. -/
theorem sameFollowers_of_sameRequests {store : Store}
    (hinvariant : FollowInvariant store) {left right : List Request}
    (hknown : ∀ request ∈ left, Known store request.follower)
    (hsame : ∀ request, request ∈ left ↔ request ∈ right)
    {profileId : ByteString} {ref : ProfileRef}
    (hfound : store.getProfileById profileId = some ref) :
    ((addFollowers store left).getProfileById profileId = some ref ∧
      (addFollowers store right).getProfileById profileId = some ref) ∧
    ({name | name ∈ (addFollowers store left).followerIds ref} =
        asked store left profileId ref ∧
      {name | name ∈ (addFollowers store right).followerIds ref} =
        asked store left profileId ref) ∧
    ((addFollowers store left).followerIds ref).Nodup ∧
      ((addFollowers store right).followerIds ref).Nodup := by
  have hknown' : ∀ request ∈ right, Known store request.follower :=
    fun request hmem => hknown request ((hsame request).2 hmem)
  have hasked : asked store right profileId ref =
      asked store left profileId ref := by
    simp only [asked, hsame]
  obtain ⟨hleft, hset, hnodup⟩ := followerIds_addFollowers hinvariant hknown hfound
  obtain ⟨hright, hset', hnodup'⟩ :=
    followerIds_addFollowers hinvariant hknown' hfound
  exact ⟨⟨hleft, hright⟩, ⟨hset, hset'.trans hasked⟩, hnodup, hnodup'⟩

/-- The profiles `a` and `b`, both logged in. -/
def couple : Store :=
  ((Store.empty.createProfileIfNotExists [97] none 0).2.createProfileIfNotExists
    [98] none 0).2

theorem followInvariant_couple : FollowInvariant couple := by
  have hfirst := (createProfileIfNotExists_extends wellFormed_empty [97] none 0).1
  exact followInvariant_of_wellFormed
    (createProfileIfNotExists_extends hfirst [98] none 0).1

/-- `b` follows `a`; in between `a` asks for itself and for an unknown profile. -/
def someRequests : List Request :=
  [⟨[97], 1⟩, ⟨[97], 0⟩, ⟨[99], 0⟩]

/-- The same in another order, and the first of them twice. -/
def sameRequests : List Request :=
  [⟨[99], 0⟩, ⟨[97], 1⟩, ⟨[97], 0⟩, ⟨[97], 1⟩]

theorem sameFollowers_couple :
    {name | name ∈ (addFollowers couple someRequests).followerIds 0} =
        {name | name ∈ (addFollowers couple sameRequests).followerIds 0} ∧
      ((addFollowers couple sameRequests).followerIds 0).Nodup := by
  have hknown : ∀ request ∈ someRequests, Known couple request.follower := by
    unfold Known
    decide
  have hsame (request : Request) :
      request ∈ someRequests ↔ request ∈ sameRequests := by
    simp only [someRequests, sameRequests, List.mem_cons]
    grind
  obtain ⟨_, ⟨hsome, hother⟩, _, hnodup⟩ :=
    @sameFollowers_of_sameRequests couple followInvariant_couple someRequests
      sameRequests hknown hsame [97] 0 (by decide)
  exact ⟨hsome.trans hother.symm, hnodup⟩

end TwitterLike.FollowRequests
