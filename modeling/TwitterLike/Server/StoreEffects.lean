import TwitterLike.Server.ProfilesManager

/-!
# What each store operation changes

One description for every operation of the profile store: which fields it
leaves alone, and for the operations that branch, what each way out means for
the state it leaves.
-/

namespace TwitterLike.ProfilesManager.Store

open TwitterLike.ByteBuffer
open TwitterLike.PacketFormat
open TwitterLike.JsonDump
open TwitterLike.Profiles

variable (store : Store)

/-! ## Single updates -/

section Update

variable (ref : ProfileRef) (change : Profile → Profile)

@[simp]
theorem update_objects_self :
    (store.update ref change).objects ref = change (store.objects ref) :=
  Function.update_self ..

theorem update_objects_of_ne {other : ProfileRef} (hne : other ≠ ref) :
    (store.update ref change).objects other = store.objects other :=
  Function.update_of_ne hne ..

/-- A field that the change keeps is kept in every object. -/
theorem update_objects_field {β : Type*} {change : Profile → Profile}
    (field : Profile → β)
    (hkeep : field (change (store.objects ref)) = field (store.objects ref))
    (other : ProfileRef) :
    field ((store.update ref change).objects other) =
      field (store.objects other) := by
  by_cases hother : other = ref
  · subst other
    rw [update_objects_self, hkeep]
  · rw [update_objects_of_ne store ref change hother]

/-- What a change does to the sessions vectors. -/
theorem update_objects_sessions {change : Profile → Profile}
    (sessions : List (Option Conn) → List (Option Conn))
    (hchange : ∀ profile, (change profile).sessions = sessions profile.sessions)
    (other : ProfileRef) :
    ((store.update ref change).objects other).sessions =
      if other = ref then sessions (store.objects other).sessions
      else (store.objects other).sessions := by
  split
  · next heq =>
      subst heq
      rw [update_objects_self, hchange]
  · next hne => rw [update_objects_of_ne store ref change hne]

@[simp]
theorem update_profiles : (store.update ref change).profiles = store.profiles :=
  rfl

@[simp]
theorem update_allocated :
    (store.update ref change).allocated = store.allocated := rfl

@[simp]
theorem update_outputs : (store.update ref change).outputs = store.outputs :=
  rfl

@[simp]
theorem update_closed : (store.update ref change).closed = store.closed := rfl

@[simp]
theorem sendPasses_objects (passes : List Pass) :
    (store.sendPasses ref passes).objects = store.objects := rfl

@[simp]
theorem sendPasses_profiles (passes : List Pass) :
    (store.sendPasses ref passes).profiles = store.profiles := rfl

@[simp]
theorem sendPasses_allocated (passes : List Pass) :
    (store.sendPasses ref passes).allocated = store.allocated := rfl

@[simp]
theorem sendPasses_closed (passes : List Pass) :
    (store.sendPasses ref passes).closed = store.closed := rfl

@[simp]
theorem sendPasses_outputs (passes : List Pass) :
    (store.sendPasses ref passes).outputs =
      store.outputs ++ passes.map (.pass ref) := rfl

variable (other : ProfileRef) (conn : Option Conn)

theorem incSessionsOn_objects_sessions :
    ((store.incSessionsOn ref conn).objects other).sessions =
      if other = ref then (store.objects other).sessions ++ [conn]
      else (store.objects other).sessions :=
  store.update_objects_sessions ref (· ++ [conn]) (fun _ => rfl) other

theorem updateSessionsOn_objects_sessions :
    ((store.updateSessionsOn ref conn).objects other).sessions =
      if other = ref then (store.objects other).sessions ++ [conn]
      else (store.objects other).sessions :=
  store.update_objects_sessions ref (· ++ [conn]) (fun _ => rfl) other

theorem decSessionsOn_objects_sessions :
    ((store.decSessionsOn ref conn).objects other).sessions =
      if other = ref then (store.objects other).sessions.erase conn
      else (store.objects other).sessions :=
  store.update_objects_sessions ref (·.erase conn)
    (fun profile => decSessionsOn_sessions profile conn) other

end Update

theorem insertEntry_getElem? (profileId key : ByteString) (ref : ProfileRef) :
    (store.insertEntry profileId ref).profiles[key]? =
      if profileId = key then some ref else store.profiles[key]? := by
  simp only [insertEntry, Std.TreeMap.getElem?_insert,
    Std.LawfulEqCmp.compare_eq_iff_eq]

/-! ## The JSON file -/

/-- The two states agree on everything but the file. -/
structure SameMemory (before after : Store) : Prop where
  objects : after.objects = before.objects
  allocated : after.allocated = before.allocated
  profiles : after.profiles = before.profiles
  outputs : after.outputs = before.outputs
  closed : after.closed = before.closed

theorem toJsonFile_sameMemory : SameMemory store store.toJsonFile.2 := by
  unfold toJsonFile
  split
  · exact ⟨rfl, rfl, rfl, rfl, rfl⟩
  · exact ⟨rfl, rfl, rfl, rfl, rfl⟩

theorem toJsonFile_of_dumpable (hdump : store.toJson.dumpable = true) :
    store.toJsonFile.1 = .ok () := by
  rw [toJsonFile, if_pos hdump]

theorem toJsonFile_of_not_dumpable (hdump : ¬ store.toJson.dumpable = true) :
    store.toJsonFile.1 = .error .exception := by
  rw [toJsonFile, if_neg hdump]

theorem toJsonFile_cases :
    store.toJsonFile.1 = .ok () ∨ store.toJsonFile.1 = .error .exception := by
  by_cases hdump : store.toJson.dumpable = true
  · exact .inl (store.toJsonFile_of_dumpable hdump)
  · exact .inr (store.toJsonFile_of_not_dumpable hdump)

/-- `operator<<` does not throw exactly when all keys and all follower ids of
the map are UTF-8. -/
theorem dumpable_toJson_iff :
    store.toJson.dumpable = true ↔
      ∀ (profileId : ByteString) (ref : ProfileRef),
        store.profiles[profileId]? = some ref →
        dumps profileId = true ∧
          ∀ name ∈ store.followerIds ref, dumps name = true := by
  simp only [JsonObject.dumpable, toJson, List.all_map, List.all_eq_true,
    Function.comp_apply, Bool.and_eq_true, Prod.forall]
  constructor
  · intro hall profileId ref hentry
    exact hall profileId ref
      (Std.TreeMap.mem_toList_iff_getElem?_eq_some.2 hentry)
  · intro hall profileId ref hentry
    exact hall profileId ref
      (Std.TreeMap.mem_toList_iff_getElem?_eq_some.1 hentry)

/-! ## Pointers -/

/-- Every pointer of the store is to an allocated object. -/
structure NoDangling : Prop where
  profiles : ∀ (profileId : ByteString) (ref : ProfileRef),
        store.profiles[profileId]? = some ref → ref < store.allocated
  followers : ∀ ref, ∀ follower ∈ (store.objects ref).followers,
    follower < store.allocated

theorem noDangling_empty : NoDangling Store.empty where
  profiles profileId ref hentry := by simp [Store.empty] at hentry
  followers ref follower hfollower := by
    simp [Store.empty, Profile.new] at hfollower

variable {store}

/-- Only the map, the followers vectors and the number of objects matter. -/
theorem NoDangling.of_eq {after : Store} (hsound : store.NoDangling)
    (hprofiles : after.profiles = store.profiles)
    (hallocated : after.allocated = store.allocated)
    (hfollowers : ∀ ref,
      (after.objects ref).followers = (store.objects ref).followers) :
    after.NoDangling where
  profiles profileId ref hentry := by
    rw [hallocated]
    exact hsound.profiles profileId ref (hprofiles ▸ hentry)
  followers ref follower hfollower := by
    rw [hallocated]
    exact hsound.followers ref follower (hfollowers ref ▸ hfollower)

theorem NoDangling.sameMemory {after : Store} (hsound : store.NoDangling)
    (hsame : SameMemory store after) : after.NoDangling :=
  hsound.of_eq hsame.profiles hsame.allocated fun ref => by rw [hsame.objects]

/-- A change of one object that keeps its followers keeps the pointers sound. -/
theorem NoDangling.update (hsound : store.NoDangling) {ref : ProfileRef}
    {change : Profile → Profile}
    (hkeep : (change (store.objects ref)).followers =
      (store.objects ref).followers) :
    (store.update ref change).NoDangling :=
  hsound.of_eq rfl rfl (store.update_objects_field ref Profile.followers hkeep)

theorem NoDangling.allocate (hsound : store.NoDangling)
    (profileId : ByteString) : (store.allocate profileId).2.NoDangling where
  profiles key ref hentry :=
    Nat.lt_succ_of_lt (hsound.profiles key ref hentry)
  followers ref follower hfollower := by
    apply Nat.lt_succ_of_lt
    by_cases hfresh : ref = store.allocated
    · subst ref
      simp [Store.allocate, Profile.new] at hfollower
    · apply hsound.followers ref follower
      simpa [Store.allocate, Function.update_of_ne hfresh] using hfollower

theorem NoDangling.insertEntry (hsound : store.NoDangling)
    {profileId : ByteString} {ref : ProfileRef}
    (hallocated : ref < store.allocated) :
    (store.insertEntry profileId ref).NoDangling where
  profiles key other hentry := by
    rw [insertEntry_getElem?] at hentry
    split at hentry
    · cases hentry
      exact hallocated
    · exact hsound.profiles key other hentry
  followers := hsound.followers

theorem NoDangling.pushFollower (hsound : store.NoDangling)
    {target follower : ProfileRef} (hallocated : follower < store.allocated) :
    (store.pushFollower target follower).NoDangling where
  profiles := hsound.profiles
  followers ref other hother := by
    by_cases htarget : ref = target
    · subst ref
      rw [Store.pushFollower, update_objects_self, List.mem_append,
        List.mem_singleton] at hother
      rcases hother with hold | rfl
      · exact hsound.followers target other hold
      · exact hallocated
    · rw [Store.pushFollower, update_objects_of_ne _ _ _ htarget] at hother
      exact hsound.followers ref other hother

/-! ## The operations -/

/-- The memory after the creation of a profile. -/
def created (store : Store) (profileId : ByteString) : Store :=
  (store.allocate profileId).2.insertEntry profileId store.allocated

variable (store)

theorem insertProfile_sameMemory (profileId : ByteString) (ref : ProfileRef) :
    SameMemory
      (if store.profiles.contains profileId then store
        else store.insertEntry profileId ref)
      (store.insertProfile profileId ref).2 :=
  toJsonFile_sameMemory _

/-- Either the call has nothing to do, or it appends the follower and rewrites
the file. -/
theorem addFollowerTo_cases (followed : ByteString) (follower : ProfileRef) :
    store.addFollowerTo followed (some follower) = (.ok (), store) ∨
      ∃ target, store.getProfileById followed = some target ∧
        (store.objects follower).profileId ≠ followed ∧
        (store.objects follower).profileId ∉ store.followerIds target ∧
        store.addFollowerTo followed (some follower) =
          (store.pushFollower target follower).toJsonFile := by
  unfold addFollowerTo
  by_cases hself : (store.objects follower).profileId = followed
  · left
    simp [hself]
  cases htarget : store.getProfileById followed with
  | none =>
      left
      simp [hself]
  | some target =>
      by_cases hfollows :
          (store.objects follower).profileId ∈ store.followerIds target
      · left
        simp [hself, hfollows]
      · right
        exact ⟨target, rfl, hself, hfollows, by simp [hself, hfollows]⟩

theorem addFollowerTo_outputs (followed : ByteString) (follower : ProfileRef) :
    (store.addFollowerTo followed (some follower)).2.outputs = store.outputs := by
  rcases store.addFollowerTo_cases followed follower with
    hkeep | ⟨target, _, _, _, hpush⟩
  · rw [hkeep]
  · rw [hpush]
    exact (toJsonFile_sameMemory (store.pushFollower target follower)).outputs

theorem addFollowerTo_closed (followed : ByteString)
    (follower : Option ProfileRef) :
    (store.addFollowerTo followed follower).2.closed = store.closed := by
  cases follower with
  | none => rfl
  | some follower =>
      rcases store.addFollowerTo_cases followed follower with
        hkeep | ⟨target, _, _, _, hpush⟩
      · rw [hkeep]
      · rw [hpush]
        exact (toJsonFile_sameMemory _).closed

theorem findOrCreate_of_full {profileId : ByteString} {ref : ProfileRef}
    (hfound : store.getProfileById profileId = some ref)
    (hfull : (store.objects ref).sessionsOn = maxSessions)
    (conn : Option Conn) (time : BitVec 64) :
    store.findOrCreate profileId conn time =
      (.error (store.refuse conn time).1, (store.refuse conn time).2) := by
  simp [findOrCreate, hfound, hfull]

theorem findOrCreate_of_room {profileId : ByteString} {ref : ProfileRef}
    (hfound : store.getProfileById profileId = some ref)
    (hroom : (store.objects ref).sessionsOn ≠ maxSessions)
    (conn : Option Conn) (time : BitVec 64) :
    store.findOrCreate profileId conn time = (.ok ref, store) := by
  simp [findOrCreate, hfound, hroom]

theorem findOrCreate_of_unknown {profileId : ByteString}
    (hunknown : store.getProfileById profileId = none)
    (conn : Option Conn) (time : BitVec 64) :
    store.findOrCreate profileId conn time =
      ((store.created profileId).toJsonFile.1.map fun _ => store.allocated,
        (store.created profileId).toJsonFile.2) := by
  have habsent : (store.allocate profileId).2.profiles.contains profileId =
      false := by
    rw [Std.TreeMap.contains_eq_isSome_getElem?]
    exact congrArg Option.isSome hunknown
  simp only [findOrCreate, hunknown]
  rw [show (store.allocate profileId).2.insertProfile profileId
      (store.allocate profileId).1 =
        ((store.created profileId).toJsonFile.1.map fun _ => !false,
          (store.created profileId).toJsonFile.2) by
    simp only [insertProfile, habsent]
    rfl]
  cases (store.created profileId).toJsonFile.1 <;> rfl

/-- A login that goes on has found a profile with room or created one. -/
theorem findOrCreate_ok {profileId : ByteString} {conn : Option Conn}
    {time : BitVec 64} {ref : ProfileRef} {after : Store}
    (hfind : store.findOrCreate profileId conn time = (.ok ref, after)) :
    (store.getProfileById profileId = some ref ∧
      (store.objects ref).sessionsOn ≠ maxSessions ∧ after = store) ∨
    (store.getProfileById profileId = none ∧ ref = store.allocated ∧
      SameMemory (store.created profileId) after) := by
  cases hfound : store.getProfileById profileId with
  | none =>
      rw [store.findOrCreate_of_unknown hfound] at hfind
      have hsame := toJsonFile_sameMemory (store.created profileId)
      rcases hwritten : (store.created profileId).toJsonFile with
        ⟨exit | _, written⟩
      · rw [hwritten] at hfind
        cases hfind
      · rw [hwritten] at hfind hsame
        cases hfind
        exact .inr ⟨rfl, rfl, hsame⟩
  | some found =>
      by_cases hfull : (store.objects found).sessionsOn = maxSessions
      · rw [store.findOrCreate_of_full hfound hfull] at hfind
        cases hfind
      · rw [store.findOrCreate_of_room hfound hfull] at hfind
        cases hfind
        exact .inl ⟨rfl, hfull, rfl⟩

/-- A login that does not go on has been refused or has created a profile that
cannot be written to the file. -/
theorem findOrCreate_error {profileId : ByteString} {conn : Conn}
    {time : BitVec 64} {exit : Exit} {after : Store}
    (hfind : store.findOrCreate profileId (some conn) time =
      (.error exit, after)) :
    (exit = .threadExit ∧
      (∃ ref, store.getProfileById profileId = some ref ∧
        (store.objects ref).sessionsOn = maxSessions) ∧
      after =
        (store.sendPacket conn (new .closeConn [] [] time)).closeConn conn) ∨
    (exit = .exception ∧ store.getProfileById profileId = none ∧
      SameMemory (store.created profileId) after) := by
  cases hfound : store.getProfileById profileId with
  | none =>
      rw [store.findOrCreate_of_unknown hfound] at hfind
      have hsame := toJsonFile_sameMemory (store.created profileId)
      rcases toJsonFile_cases (store.created profileId) with hok | hthrows
      · rw [hok] at hfind
        cases hfind
      · rw [hthrows] at hfind
        cases hfind
        exact .inr ⟨rfl, rfl, hsame⟩
  | some found =>
      by_cases hfull : (store.objects found).sessionsOn = maxSessions
      · rw [store.findOrCreate_of_full hfound hfull] at hfind
        cases hfind
        exact .inl ⟨rfl, ⟨found, rfl, hfull⟩, rfl⟩
      · rw [store.findOrCreate_of_room hfound hfull] at hfind
        cases hfind

variable {store}

/-- A login that returns has added the session to a profile that was found or
has been created. -/
theorem createProfileIfNotExists_ok_iff {profileId : ByteString}
    {conn : Option Conn} {time : BitVec 64} {ref : ProfileRef} {after : Store} :
    store.createProfileIfNotExists profileId conn time = (.ok ref, after) ↔
      ∃ found, store.findOrCreate profileId conn time = (.ok ref, found) ∧
        after = found.incSessionsOn ref conn := by
  rw [createProfileIfNotExists]
  rcases store.findOrCreate profileId conn time with ⟨exit | other, found⟩
  · simp
  · simp only [Prod.mk.injEq, Except.ok.injEq]
    constructor
    · rintro ⟨rfl, rfl⟩
      exact ⟨found, ⟨rfl, rfl⟩, rfl⟩
    · rintro ⟨_, ⟨rfl, rfl⟩, rfl⟩
      exact ⟨rfl, rfl⟩

/-! ## When the file can be written -/

theorem dumpable_insertEntry_iff {profileId : ByteString}
    (hunknown : store.getProfileById profileId = none) (ref : ProfileRef) :
    (store.insertEntry profileId ref).toJson.dumpable = true ↔
      store.toJson.dumpable = true ∧ dumps profileId = true ∧
        ∀ name ∈ store.followerIds ref, dumps name = true := by
  have hids (other : ProfileRef) :
      (store.insertEntry profileId ref).followerIds other =
        store.followerIds other := rfl
  simp only [dumpable_toJson_iff, hids, insertEntry_getElem?]
  constructor
  · intro hall
    refine ⟨fun key other hentry => ?_, hall profileId ref (if_pos rfl)⟩
    have hne : profileId ≠ key := by
      rintro rfl
      rw [getProfileById, hentry] at hunknown
      contradiction
    exact hall key other (by rw [if_neg hne, hentry])
  · rintro ⟨hall, hid, hnames⟩ key other hentry
    split at hentry
    · next heq =>
        cases hentry
        rw [← heq]
        exact ⟨hid, hnames⟩
    · exact hall key other hentry

/-- A new object is not in the map and follows nobody. -/
theorem toJson_allocate (hsound : store.NoDangling) (profileId : ByteString) :
    (store.allocate profileId).2.toJson = store.toJson := by
  apply List.map_congr_left
  intro entry hentry
  have hlookup : store.profiles[entry.1]? = some entry.2 :=
    Std.TreeMap.mem_toList_iff_getElem?_eq_some.1 hentry
  have href : entry.2 ≠ store.allocated :=
    (hsound.profiles entry.1 entry.2 hlookup).ne
  rw [Prod.mk.injEq]
  refine ⟨rfl, ?_⟩
  simp only [followerIds, allocate, Function.update_of_ne href]
  apply List.map_congr_left
  intro follower hfollower
  have hne : follower ≠ store.allocated :=
    (hsound.followers entry.2 follower hfollower).ne
  rw [Function.update_of_ne hne]

theorem dumpable_created_iff (hsound : store.NoDangling)
    {profileId : ByteString}
    (hunknown : store.getProfileById profileId = none) :
    (store.created profileId).toJson.dumpable = true ↔
      store.toJson.dumpable = true ∧ dumps profileId = true := by
  have hnew :
      (store.allocate profileId).2.followerIds store.allocated = [] := by
    simp [followerIds, allocate, Profile.new]
  have hunknown' :
      (store.allocate profileId).2.getProfileById profileId = none := hunknown
  rw [created, dumpable_insertEntry_iff hunknown', hnew,
    toJson_allocate hsound]
  simp

theorem followerIds_pushFollower (target follower ref : ProfileRef) :
    (store.pushFollower target follower).followerIds ref =
      if ref = target then
        store.followerIds ref ++ [(store.objects follower).profileId]
      else store.followerIds ref := by
  have hid (other : ProfileRef) :
      ((store.pushFollower target follower).objects other).profileId =
        (store.objects other).profileId :=
    store.update_objects_field target Profile.profileId rfl other
  simp only [followerIds, hid]
  split
  · next heq =>
      subst heq
      simp [pushFollower]
  · next hne => rw [pushFollower, update_objects_of_ne _ _ _ hne]

theorem dumpable_pushFollower_iff {followed : ByteString}
    {target : ProfileRef}
    (htarget : store.getProfileById followed = some target)
    (follower : ProfileRef) :
    (store.pushFollower target follower).toJson.dumpable = true ↔
      store.toJson.dumpable = true ∧
        dumps (store.objects follower).profileId = true := by
  have hprofiles :
      (store.pushFollower target follower).profiles = store.profiles := rfl
  rw [dumpable_toJson_iff, dumpable_toJson_iff]
  constructor
  · intro hall
    refine ⟨fun key ref hentry => ?_, ?_⟩
    · obtain ⟨hkey, hnames⟩ := hall key ref hentry
      refine ⟨hkey, fun name hname => hnames name ?_⟩
      rw [followerIds_pushFollower]
      split
      · exact List.mem_append_left _ hname
      · exact hname
    · apply (hall followed target htarget).2
      rw [followerIds_pushFollower, if_pos rfl]
      exact List.mem_append_right _ List.mem_cons_self
  · rintro ⟨hall, hid⟩ key ref hentry
    obtain ⟨hkey, hnames⟩ := hall key ref hentry
    refine ⟨hkey, fun name hname => ?_⟩
    rw [followerIds_pushFollower] at hname
    split at hname
    · rcases List.mem_append.1 hname with hold | hnew
      · exact hnames name hold
      · rw [List.mem_singleton.1 hnew]
        exact hid
    · exact hnames name hname

end TwitterLike.ProfilesManager.Store
