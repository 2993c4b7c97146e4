import TwitterLike.Server.GraphHistory

/-!
# The file of the store

What the calls that write the file leave in it, and the store that
`fromJsonFile` builds from it.  The loader replays the follows one at a time, and
each of them rewrites the file with what has been rebuilt so far; behind the last
one the file is what it was.
-/

namespace TwitterLike.Persistence

open TwitterLike.ByteBuffer
open TwitterLike.JsonDump
open TwitterLike.Profiles
open TwitterLike.ProfilesManager
open TwitterLike.FollowGraph
open TwitterLike.GraphHistory
open TwitterLike.Transition
open TwitterLike.Threads (Known)

/-! ## Stores as directories -/

/-- The ids of the followers of a profile, in order. -/
def followersOf (store : Store) (profileId : ByteString) :
    Option (List ByteString) :=
  (store.getProfileById profileId).map store.followerIds

/-- The object has one entry for every profile, which lists its followers. -/
structure Records (entries : JsonObject)
    (followers : ByteString → Option (List ByteString)) : Prop where
  keys : (entries.map Prod.fst).Nodup
  entries : ∀ profileId names,
    (profileId, names) ∈ entries ↔ followers profileId = some names

/-- The file maps every id of the store to the ids of its followers. -/
def Mirrors (store : Store) : Prop :=
  ∃ entries, store.jsonFile = .object entries ∧
    Records entries (followersOf store)

/-- A manager that has been constructed over the file. -/
def fresh (jsonFile : JsonFile) : Store :=
  { Store.empty with jsonFile := jsonFile }

/-- Loading the file returns, so no null follower has been passed on the way, and
gives a store with the same ids and followers, over the same file. -/
def LoadsBack (store : Store) : Prop :=
  ∃ loaded, (fresh store.jsonFile).fromJsonFile = (.ok (), loaded) ∧
    followersOf loaded = followersOf store ∧ loaded.jsonFile = store.jsonFile

section Directories

variable {store after : Store} {profileId followed : ByteString}
  {names : List ByteString} {ref : ProfileRef}

theorem followersOf_of_found (hfound : store.getProfileById profileId = some ref) :
    followersOf store profileId = some (store.followerIds ref) := by
  rw [followersOf, hfound, Option.map_some]

theorem followersOf_eq_some_iff : followersOf store profileId = some names ↔
    ∃ ref, store.getProfileById profileId = some ref ∧
      store.followerIds ref = names :=
  Option.map_eq_some_iff

theorem followersOf_eq_none_iff : followersOf store profileId = none ↔
    store.getProfileById profileId = none :=
  Option.map_eq_none_iff

theorem followersOf_of_sameGraph (hsame : SameGraph store after) :
    followersOf after = followersOf store := by
  have hids : after.followerIds = store.followerIds := funext hsame.followerIds
  unfold followersOf
  rw [hids]
  exact funext fun profileId => by rw [hsame.getProfileById]

theorem followersOf_created (hwf : WellFormed store) (profileId : ByteString) :
    followersOf (store.created profileId) =
      Function.update (followersOf store) profileId (some []) := by
  funext key
  rw [followersOf, created_getProfileById]
  by_cases heq : profileId = key
  · subst heq
    rw [if_pos rfl, Function.update_self, Option.map_some,
      created_followerIds profileId hwf.noDangling, if_pos rfl]
  · rw [if_neg heq, Function.update_of_ne (Ne.symm heq), followersOf]
    apply Option.map_congr
    intro ref hfound
    rw [created_followerIds profileId hwf.noDangling,
      if_neg (hwf.allocated key ref hfound).ne]

theorem followersOf_pushFollower (hwf : WellFormed store) {target : ProfileRef}
    (htarget : store.getProfileById followed = some target)
    (follower : ProfileRef) :
    followersOf (store.pushFollower target follower) =
      Function.update (followersOf store) followed
        (some (store.followerIds target ++
          [(store.objects follower).profileId])) := by
  funext key
  have hids : (store.pushFollower target follower).getProfileById key =
      store.getProfileById key := rfl
  rw [followersOf, hids]
  by_cases heq : key = followed
  · subst heq
    rw [htarget, Function.update_self, Option.map_some,
      Store.followerIds_pushFollower, if_pos rfl]
  · rw [Function.update_of_ne heq, followersOf]
    apply Option.map_congr
    intro ref hfound
    have hother : ref ≠ target := by
      rintro rfl
      exact heq (hwf.ref_inj hfound htarget)
    rw [Store.followerIds_pushFollower, if_neg hother]

/-! ## Objects -/

theorem records_toJson (store : Store) :
    Records store.toJson (followersOf store) where
  keys := by
    have hkeys : store.toJson.map Prod.fst = store.profiles.keys := by
      rw [Store.toJson, List.map_map]
      exact Std.TreeMap.map_fst_toList_eq_keys
    rw [hkeys]
    exact Std.TreeMap.nodup_keys
  entries profileId names := by
    rw [followersOf_eq_some_iff, Store.toJson, List.mem_map]
    constructor
    · rintro ⟨⟨key, ref⟩, hmem, heq⟩
      cases heq
      exact ⟨ref, Std.TreeMap.mem_toList_iff_getElem?_eq_some.1 hmem, rfl⟩
    · rintro ⟨ref, hfound, rfl⟩
      exact ⟨(profileId, ref),
        Std.TreeMap.mem_toList_iff_getElem?_eq_some.2 hfound, rfl⟩

theorem pairwise_toJson (store : Store) :
    store.toJson.Pairwise fun first second =>
      compare first.1 second.1 = .lt := by
  rw [Store.toJson, List.pairwise_map]
  exact Std.TreeMap.ordered_keys_toList

/-- The object is in key order, so it depends on the directory only. -/
theorem toJson_congr (hsame : followersOf after = followersOf store) :
    after.toJson = store.toJson := by
  have hperm : after.toJson.Perm store.toJson := by
    rw [List.perm_ext_iff_of_nodup (records_toJson after).keys.of_map
      (records_toJson store).keys.of_map]
    rintro ⟨profileId, names⟩
    rw [(records_toJson after).entries, (records_toJson store).entries, hsame]
  refine hperm.eq_of_pairwise ?_ (pairwise_toJson after) (pairwise_toJson store)
  intro first second _ _ hlt hgt
  exact absurd hgt (Std.OrientedCmp.not_lt_of_lt hlt)

end Directories

/-! ## Writing through -/

/-- The store is consistent, and all its ids can be written. -/
structure Storable (store : Store) : Prop where
  wellFormed : WellFormed store
  names : ∀ (profileId : ByteString) (ref : ProfileRef),
    store.getProfileById profileId = some ref → dumps profileId = true

/-- The file has been written since the store was changed last. -/
structure Persisted (store : Store) : Prop extends Storable store where
  file : store.jsonFile = .object store.toJson

section Writing

variable {store after : Store} {profileId followed name : ByteString}
  {names : List ByteString} {follower : ProfileRef}

theorem storable_empty : Storable Store.empty where
  wellFormed := wellFormed_empty
  names profileId ref hfound := by
    simp [Store.getProfileById, Store.empty] at hfound

theorem Storable.of_sameGraph (hstorable : Storable store)
    (hsame : SameGraph store after) : Storable after where
  wellFormed := hsame.wellFormed hstorable.wellFormed
  names profileId ref hfound :=
    hstorable.names profileId ref (hsame.getProfileById profileId ▸ hfound)

theorem Persisted.of_sameGraph (hpersisted : Persisted store)
    (hsame : SameGraph store after) (hfile : after.jsonFile = store.jsonFile) :
    Persisted after where
  toStorable := hpersisted.toStorable.of_sameGraph hsame
  file := by
    rw [hfile, hpersisted.file, toJson_congr (followersOf_of_sameGraph hsame)]

/-- Follower ids are ids of the map. -/
theorem Storable.dumpable (hstorable : Storable store) :
    store.toJson.dumpable = true := by
  refine store.dumpable_toJson_iff.2 fun profileId ref hfound => ?_
  refine ⟨hstorable.names profileId ref hfound, fun name hname => ?_⟩
  obtain ⟨follower, hfollower, rfl⟩ := List.mem_map.1 hname
  exact hstorable.names _ follower
    (hstorable.wellFormed.followers ref follower hfollower)

/-- Writing a store that has a profile succeeds. -/
theorem Storable.toJsonFile (hstorable : Storable store) {ref : ProfileRef}
    (hfound : store.getProfileById profileId = some ref) :
    ∃ written, store.toJsonFile = (.ok (), written) ∧ Persisted written ∧
      followersOf written = followersOf store := by
  have hentry : (profileId, store.followerIds ref) ∈ store.toJson :=
    ((records_toJson store).entries _ _).2 (followersOf_of_found hfound)
  have hsome : store.toJson ≠ [] := List.ne_nil_of_mem hentry
  have hwritten : store.toJsonFile =
      (.ok (), { store with jsonFile := .object store.toJson }) := by
    rw [Store.toJsonFile, if_pos hstorable.dumpable, if_neg hsome]
  have hsame : SameGraph store { store with jsonFile := .object store.toJson } :=
    ⟨rfl, rfl, fun _ => rfl, fun _ => rfl⟩
  exact ⟨_, hwritten, ⟨hstorable.of_sameGraph hsame, rfl⟩,
    followersOf_of_sameGraph hsame⟩

theorem Storable.created (hstorable : Storable store)
    (hunknown : store.getProfileById profileId = none)
    (hdumps : dumps profileId = true) : Storable (store.created profileId) where
  wellFormed := wellFormed_created profileId hstorable.wellFormed hunknown
  names key ref hfound := by
    rw [created_getProfileById] at hfound
    split at hfound
    · next heq => exact heq ▸ hdumps
    · exact hstorable.names key ref hfound

/-- A login writes the profile that it creates; any other changes no follower. -/
theorem persisted_createProfileIfNotExists (hstorable : Storable store)
    (hfile : ∀ ref, store.getProfileById profileId = some ref → Persisted store)
    (hdumps : dumps profileId = true) (conn : Option Conn) (time : BitVec 64) :
    Persisted (store.createProfileIfNotExists profileId conn time).2 := by
  rw [Store.createProfileIfNotExists]
  cases hfound : store.getProfileById profileId with
  | none =>
      have hnew : (store.created profileId).getProfileById profileId =
          some store.allocated := by
        rw [created_getProfileById, if_pos rfl]
      obtain ⟨written, hwritten, hpersisted, _⟩ :=
        (hstorable.created hfound hdumps).toJsonFile hnew
      rw [store.findOrCreate_of_unknown hfound, hwritten]
      exact hpersisted.of_sameGraph (incSessionsOn_sameGraph ..) rfl
  | some ref =>
      have hpersisted := hfile ref hfound
      by_cases hfull : (store.objects ref).sessionsOn = maxSessions
      · rw [store.findOrCreate_of_full hfound hfull]
        refine hpersisted.of_sameGraph (refuse_sameGraph store conn time) ?_
        cases conn <;> rfl
      · rw [store.findOrCreate_of_room hfound hfull]
        exact hpersisted.of_sameGraph (incSessionsOn_sameGraph ..) rfl

theorem Storable.pushFollower (hstorable : Storable store) {target : ProfileRef}
    (hknown : Known store follower)
    (htarget : store.getProfileById followed = some target)
    (hself : (store.objects follower).profileId ≠ followed)
    (hnew : (store.objects follower).profileId ∉ store.followerIds target) :
    Storable (store.pushFollower target follower) where
  wellFormed := by
    rw [← hstorable.wellFormed.ids followed target htarget] at hself
    exact wellFormed_pushFollower hstorable.wellFormed hknown hself hnew
  names := hstorable.names

theorem persisted_addFollowerTo (hpersisted : Persisted store)
    (hknown : Known store follower) (followed : ByteString) :
    Persisted (store.addFollowerTo followed (some follower)).2 := by
  rcases store.addFollowerTo_cases followed follower with
    hkeep | ⟨target, htarget, hself, hnew, hpush⟩
  · rw [hkeep]
    exact hpersisted
  · have hpushed := hpersisted.toStorable.pushFollower hknown htarget hself hnew
    obtain ⟨written, hwritten, hafter, _⟩ := hpushed.toJsonFile htarget
    rw [hpush, hwritten]
    exact hafter

end Writing

/-! ## Calls -/

/-- A call that writes the file, with a text as the id of a profile to create. -/
def Writes : Call → Prop
  | .createProfileIfNotExists profileId _ _ => IsUtf8 profileId
  | .addFollowerTo _ _ => True
  | _ => False

section Calls

variable {holder next final : Holder} {made : Call} {calls : List Call}

/-- The first call can only create a profile. -/
theorem persisted_first (hwrites : Writes made)
    (hcall : call Holder.start made = some next) : Persisted next.store := by
  cases made with
  | createProfileIfNotExists profileId conn time =>
      cases hcall
      refine persisted_createProfileIfNotExists storable_empty ?_
        (dumps_of_isUtf8 hwrites) conn time
      intro ref hfound
      simp [Store.getProfileById, Store.empty] at hfound
  | addFollowerTo followed follower => cases hcall
  | _ => cases hwrites

theorem persisted_call (hconsistent : Consistent holder)
    (hpersisted : Persisted holder.store) (hwrites : Writes made)
    (hcall : call holder made = some next) : Persisted next.store := by
  cases made with
  | createProfileIfNotExists profileId conn time =>
      cases hcall
      exact persisted_createProfileIfNotExists hpersisted.toStorable
        (fun _ _ => hpersisted) (dumps_of_isUtf8 hwrites) conn time
  | addFollowerTo followed follower =>
      rw [call] at hcall
      split at hcall
      · next hobtained =>
          cases hcall
          exact persisted_addFollowerTo hpersisted
            (hconsistent.known follower hobtained) followed
      · cases hcall
  | _ => cases hwrites

theorem persisted_exec (hnonempty : calls ≠ [])
    (hwrites : ∀ made ∈ calls, Writes made)
    (hrun : exec call Holder.start calls = some final) :
    Persisted final.store := by
  cases calls with
  | nil => exact absurd rfl hnonempty
  | cons first rest =>
      obtain ⟨hfirst, hrest⟩ := List.forall_mem_cons.1 hwrites
      obtain ⟨next, hcall, hrun⟩ := exec_cons_iff.1 hrun
      have hstart : Consistent next ∧ Persisted next.store :=
        ⟨(consistent_start.call hcall).1, persisted_first hfirst hcall⟩
      refine (@exec_invariant _ _ call _
        (fun holder => Consistent holder ∧ Persisted holder.store) ?_ _ _ _
        hstart (along_of_forall hrest next) hrun).2
      rintro holder made after ⟨hconsistent, hpersisted⟩ hmade hstep
      exact ⟨(hconsistent.call hstep).1,
        persisted_call hconsistent hpersisted hmade hstep⟩

end Calls

/-! ## Loading -/

/-- A store that is being rebuilt: the file is the one that is loaded, or has
been written behind the last follow. -/
structure Loading (jsonFile : JsonFile) (store : Store) : Prop
    extends Storable store where
  file : store.jsonFile = jsonFile ∨ store.jsonFile = .object store.toJson

section Loading

variable {store : Store} {jsonFile : JsonFile} {entries : JsonObject}
  {profileId followed name : ByteString} {names : List ByteString}

theorem loading_fresh (jsonFile : JsonFile) :
    Loading jsonFile (fresh jsonFile) where
  toStorable := storable_empty.of_sameGraph
    ⟨rfl, rfl, fun _ => rfl, fun _ => rfl⟩
  file := .inl rfl

theorem followersOf_fresh (jsonFile : JsonFile) (profileId : ByteString) :
    followersOf (fresh jsonFile) profileId = none := by
  simp [followersOf_eq_none_iff, Store.getProfileById, fresh, Store.empty]

theorem ne_of_notMem_keys (hkey : profileId ∉ entries.map Prod.fst)
    {entry : ByteString × List ByteString} (hmem : entry ∈ entries) :
    entry.1 ≠ profileId :=
  fun heq => hkey (heq ▸ List.mem_map_of_mem hmem)

/-- The first loop creates the profiles, and nothing is written. -/
theorem insertProfiles_spec (hstorable : Storable store)
    (hkeys : (entries.map Prod.fst).Nodup)
    (hdumps : ∀ entry ∈ entries, dumps entry.1 = true)
    (hunknown : ∀ entry ∈ entries, followersOf store entry.1 = none) :
    Storable (store.insertProfiles entries) ∧
      (store.insertProfiles entries).jsonFile = store.jsonFile ∧
      (∀ entry ∈ entries,
        followersOf (store.insertProfiles entries) entry.1 = some []) ∧
      ∀ profileId ∉ entries.map Prod.fst,
        followersOf (store.insertProfiles entries) profileId =
          followersOf store profileId := by
  induction entries generalizing store with
  | nil => exact ⟨hstorable, rfl, nofun, fun _ _ => rfl⟩
  | cons entry entries ih =>
      obtain ⟨hkey, hkeys⟩ := List.nodup_cons.1 hkeys
      obtain ⟨hdump, hdumps⟩ := List.forall_mem_cons.1 hdumps
      obtain ⟨hfirst, hunknown⟩ := List.forall_mem_cons.1 hunknown
      have hnone := followersOf_eq_none_iff.1 hfirst
      have hcreated : store.insertProfiles (entry :: entries) =
          (store.created entry.1).insertProfiles entries := by
        have habsent : (store.allocate entry.1).2.profiles.contains entry.1 =
            false := by
          rw [Std.TreeMap.contains_eq_isSome_getElem?]
          exact congrArg Option.isSome hnone
        rw [Store.insertProfiles]
        simp only [habsent, Bool.false_eq_true, if_false]
        rfl
      have hfollowers := followersOf_created hstorable.wellFormed entry.1
      have hunknown' : ∀ other ∈ entries,
          followersOf (store.created entry.1) other.1 = none := by
        intro other hmem
        rw [hfollowers, Function.update_of_ne (ne_of_notMem_keys hkey hmem)]
        exact hunknown other hmem
      obtain ⟨hstorable', hfile, hin, hout⟩ :=
        ih (hstorable.created hnone hdump) hkeys hdumps hunknown'
      rw [hcreated]
      refine ⟨hstorable', hfile, List.forall_mem_cons.2 ⟨?_, hin⟩, ?_⟩
      · rw [hout _ hkey, hfollowers, Function.update_self]
      · intro profileId hnotMem
        rw [List.map_cons, List.mem_cons, not_or] at hnotMem
        rw [hout _ hnotMem.2, hfollowers, Function.update_of_ne hnotMem.1]

/-- A follow that is new is appended and written. -/
theorem addFollowerTo_of_new (hloading : Loading jsonFile store)
    (hfollowed : followersOf store followed = some names)
    (hknown : followersOf store name ≠ none) (hself : name ≠ followed)
    (hnew : name ∉ names) :
    ∃ added, store.addFollowerTo followed (store.getProfileById name) =
        (.ok (), added) ∧ Loading jsonFile added ∧
      followersOf added =
        Function.update (followersOf store) followed (some (names ++ [name])) := by
  obtain ⟨target, htarget, rfl⟩ := followersOf_eq_some_iff.1 hfollowed
  obtain ⟨follower, hfollower⟩ := Option.ne_none_iff_exists'.1
    (mt followersOf_eq_none_iff.2 hknown)
  obtain rfl := hloading.wellFormed.ids name follower hfollower
  have hpushed :=
    hloading.toStorable.pushFollower hfollower htarget hself hnew
  obtain ⟨added, hadded, hpersisted, hfollowers⟩ := hpushed.toJsonFile htarget
  refine ⟨added, ?_, ⟨hpersisted.toStorable, .inr hpersisted.file⟩, ?_⟩
  · rw [hfollower]
    simp only [Store.addFollowerTo, if_neg hself, htarget, if_neg hnew]
    exact hadded
  · rw [hfollowers, followersOf_pushFollower hloading.wellFormed htarget]

/-- Follows make no profile unknown. -/
theorem followersOf_ne_none {added : Store} (hknown : followersOf store name ≠ none)
    (hadded : followersOf added =
      Function.update (followersOf store) followed (some names)) :
    followersOf added name ≠ none := by
  rw [hadded]
  by_cases heq : name = followed
  · rw [heq, Function.update_self]
    exact Option.some_ne_none _
  · rwa [Function.update_of_ne heq]

/-- The follows of one entry, `done` of which have been replayed. -/
theorem addFollowers_spec {done rest : List ByteString}
    (hloading : Loading jsonFile store)
    (hfollowed : followersOf store followed = some done)
    (hnodup : (done ++ rest).Nodup) (hself : followed ∉ rest)
    (hknown : ∀ name ∈ rest, followersOf store name ≠ none) :
    ∃ added, Store.addFollowers followed store rest = (.ok (), added) ∧
      Loading jsonFile added ∧
      followersOf added =
        Function.update (followersOf store) followed (some (done ++ rest)) := by
  induction rest generalizing store done with
  | nil =>
      refine ⟨store, rfl, hloading, ?_⟩
      rw [List.append_nil, ← hfollowed, Function.update_eq_self]
  | cons name rest ih =>
      obtain ⟨hfirst, hrest⟩ := List.forall_mem_cons.1 hknown
      rw [List.mem_cons, not_or] at hself
      have hnew : name ∉ done := fun hmem =>
        (List.nodup_append.1 hnodup).2.2 name hmem name List.mem_cons_self rfl
      obtain ⟨added, hadded, hloading', hfollowers⟩ := addFollowerTo_of_new
        hloading hfollowed hfirst (Ne.symm hself.1) hnew
      have hstill : ∀ other ∈ rest, followersOf added other ≠ none :=
        fun other hother => followersOf_ne_none (hrest other hother) hfollowers
      rw [List.append_cons] at hnodup
      obtain ⟨loaded, hloaded, hlast, hall⟩ := ih hloading'
        (by rw [hfollowers, Function.update_self]) hnodup hself.2 hstill
      refine ⟨loaded, ?_, hlast, ?_⟩
      · rw [Store.addFollowers, hadded]
        exact hloaded
      · rw [hall, hfollowers, Function.update_idem, ← List.append_cons]

/-- The last loops, over entries that have not been replayed yet. -/
theorem addAllFollowers_spec (hloading : Loading jsonFile store)
    (hkeys : (entries.map Prod.fst).Nodup)
    (hempty : ∀ entry ∈ entries, followersOf store entry.1 = some [])
    (hnodup : ∀ entry ∈ entries, entry.2.Nodup)
    (hself : ∀ entry ∈ entries, entry.1 ∉ entry.2)
    (hknown : ∀ entry ∈ entries, ∀ name ∈ entry.2,
      followersOf store name ≠ none) :
    ∃ loaded, Store.addAllFollowers store entries = (.ok (), loaded) ∧
      Loading jsonFile loaded ∧
      (∀ entry ∈ entries, followersOf loaded entry.1 = some entry.2) ∧
      ∀ profileId ∉ entries.map Prod.fst,
        followersOf loaded profileId = followersOf store profileId := by
  induction entries generalizing store with
  | nil => exact ⟨store, rfl, hloading, nofun, fun _ _ => rfl⟩
  | cons entry entries ih =>
      obtain ⟨hkey, hkeys⟩ := List.nodup_cons.1 hkeys
      obtain ⟨hfirst, hempty⟩ := List.forall_mem_cons.1 hempty
      obtain ⟨hfirstNodup, hnodup⟩ := List.forall_mem_cons.1 hnodup
      obtain ⟨hfirstSelf, hself⟩ := List.forall_mem_cons.1 hself
      obtain ⟨hfirstKnown, hknown⟩ := List.forall_mem_cons.1 hknown
      obtain ⟨added, hadded, hloading', hfollowers⟩ := addFollowers_spec
        hloading hfirst hfirstNodup hfirstSelf hfirstKnown
      rw [List.nil_append] at hfollowers
      have hempty' : ∀ other ∈ entries, followersOf added other.1 = some [] := by
        intro other hmem
        rw [hfollowers, Function.update_of_ne (ne_of_notMem_keys hkey hmem)]
        exact hempty other hmem
      have hknown' : ∀ other ∈ entries, ∀ name ∈ other.2,
          followersOf added name ≠ none := fun other hmem name hname =>
        followersOf_ne_none (hknown other hmem name hname) hfollowers
      obtain ⟨loaded, hloaded, hlast, hin, hout⟩ :=
        ih hloading' hkeys hempty' hnodup hself hknown'
      refine ⟨loaded, ?_, hlast, List.forall_mem_cons.2 ⟨?_, hin⟩, ?_⟩
      · rw [Store.addAllFollowers, hadded]
        exact hloaded
      · rw [hout _ hkey, hfollowers, Function.update_self]
      · intro profileId hnotMem
        rw [List.map_cons, List.mem_cons, not_or] at hnotMem
        rw [hout _ hnotMem.2, hfollowers, Function.update_of_ne hnotMem.1]

/-! ## The file and the store -/

theorem Persisted.mirrors (hpersisted : Persisted store) : Mirrors store :=
  ⟨store.toJson, hpersisted.file, records_toJson store⟩

/-- What the loader needs of the entries. -/
structure Loadable (entries : JsonObject) : Prop where
  keys : (entries.map Prod.fst).Nodup
  dumps : ∀ entry ∈ entries, dumps entry.1 = true
  nodup : ∀ entry ∈ entries, entry.2.Nodup
  irreflexive : ∀ entry ∈ entries, entry.1 ∉ entry.2
  known : ∀ entry ∈ entries, ∀ name ∈ entry.2, name ∈ entries.map Prod.fst

theorem Storable.loadable (hstorable : Storable store) :
    Loadable store.toJson := by
  have hwf := hstorable.wellFormed
  have hentry (entry) (hmem : entry ∈ store.toJson) :
      ∃ ref, store.getProfileById entry.1 = some ref ∧
        store.followerIds ref = entry.2 :=
    followersOf_eq_some_iff.1 (((records_toJson store).entries _ _).1 hmem)
  constructor
  case keys => exact (records_toJson store).keys
  case dumps =>
    intro entry hmem
    obtain ⟨ref, hfound, _⟩ := hentry entry hmem
    exact hstorable.names _ ref hfound
  case nodup =>
    intro entry hmem
    obtain ⟨ref, _, hnames⟩ := hentry entry hmem
    exact hnames ▸ hwf.nodup ref
  case irreflexive =>
    intro entry hmem
    obtain ⟨ref, hfound, hnames⟩ := hentry entry hmem
    rw [← hnames, ← hwf.ids _ ref hfound]
    exact hwf.irreflexive ref
  case known =>
    intro entry hmem name hname
    obtain ⟨ref, _, hnames⟩ := hentry entry hmem
    rw [← hnames] at hname
    obtain ⟨follower, hfollower, rfl⟩ := List.mem_map.1 hname
    have hfound := hwf.followers ref follower hfollower
    exact List.mem_map_of_mem
      (((records_toJson store).entries _ _).2 (followersOf_of_found hfound))

/-- The loops over such an object give its directory, whatever the file is now. -/
theorem replayed_of_loadable (hloadable : Loadable entries) (jsonFile : JsonFile) :
    ∃ loaded, Store.addAllFollowers ((fresh jsonFile).insertProfiles entries)
        entries = (.ok (), loaded) ∧
      Loading jsonFile loaded ∧ Records entries (followersOf loaded) := by
  have hfresh := loading_fresh jsonFile
  obtain ⟨hstorable, hfile, hin, hout⟩ := insertProfiles_spec hfresh.toStorable
    hloadable.keys hloadable.dumps fun entry _ => followersOf_fresh _ _
  have hknown : ∀ entry ∈ entries, ∀ name ∈ entry.2,
      followersOf ((fresh jsonFile).insertProfiles entries) name ≠
        none := by
    intro entry hmem name hname
    obtain ⟨other, hother, rfl⟩ :=
      List.mem_map.1 (hloadable.known entry hmem name hname)
    rw [hin other hother]
    exact Option.some_ne_none _
  obtain ⟨loaded, hloaded, hloading, hall, hnone⟩ := addAllFollowers_spec
    ⟨hstorable, .inl hfile⟩ hloadable.keys hin hloadable.nodup
    hloadable.irreflexive hknown
  refine ⟨loaded, hloaded, hloading, hloadable.keys, fun profileId names => ?_⟩
  constructor
  · exact hall (profileId, names)
  · intro hsome
    have hkey : profileId ∈ entries.map Prod.fst := by
      by_contra hnotMem
      rw [hnone profileId hnotMem, hout profileId hnotMem,
        followersOf_fresh] at hsome
      cases hsome
    obtain ⟨entry, hmem, rfl⟩ := List.mem_map.1 hkey
    cases (hall entry hmem).symm.trans hsome
    exact hmem

/-- The loops over the object of a store give the directory of the store. -/
theorem Storable.replayed (hstorable : Storable store) (jsonFile : JsonFile) :
    ∃ loaded, Store.addAllFollowers ((fresh jsonFile).insertProfiles store.toJson)
        store.toJson = (.ok (), loaded) ∧
      Loading jsonFile loaded ∧ followersOf loaded = followersOf store := by
  obtain ⟨loaded, hloaded, hloading, hrecords⟩ :=
    replayed_of_loadable hstorable.loadable jsonFile
  refine ⟨loaded, hloaded, hloading, ?_⟩
  funext profileId
  apply Option.ext
  intro names
  exact (hrecords.entries profileId names).symm.trans
    ((records_toJson store).entries profileId names)

theorem Persisted.loadsBack (hpersisted : Persisted store) : LoadsBack store := by
  obtain ⟨loaded, hloaded, hloading, hsame⟩ :=
    hpersisted.toStorable.replayed store.jsonFile
  refine ⟨loaded, ?_, hsame, ?_⟩
  · rw [Store.fromJsonFile, show (fresh store.jsonFile).jsonFile = _ from
      hpersisted.file]
    exact hloaded
  · rcases hloading.file with hfile | hfile
    · exact hfile
    · rw [hfile, toJson_congr hsame, hpersisted.file]

end Loading

/-- Behind every call the file mirrors the store and loads back. -/
theorem mirrors_and_loadsBack {calls : List Call} {holder : Holder}
    (hnonempty : calls ≠ []) (hwrites : ∀ made ∈ calls, Writes made)
    (hrun : exec call Holder.start calls = some holder) :
    Mirrors holder.store ∧ LoadsBack holder.store := by
  have hpersisted := persisted_exec hnonempty hwrites hrun
  exact ⟨hpersisted.mirrors, hpersisted.loadsBack⟩

/-- `a`, `b` and `é` register; `a` and `é` follow `b`, and `b` follows `a`. -/
def sixCalls : List Call :=
  [.createProfileIfNotExists [97] (some 1) 0,
    .createProfileIfNotExists [98] none 0,
    .createProfileIfNotExists [0xC3, 0xA9] (some 2) 0,
    .addFollowerTo [98] 2, .addFollowerTo [98] 0, .addFollowerTo [97] 1]

theorem mirrors_and_loadsBack_sixCalls :
    ∃ holder, exec call Holder.start sixCalls = some holder ∧
      Mirrors holder.store ∧ LoadsBack holder.store ∧
      holder.store.jsonFile = .object
        [([97], [[98]]), ([98], [[0xC3, 0xA9], [97]]), ([0xC3, 0xA9], [])] := by
  have hsome : (exec call Holder.start sixCalls).isSome := by decide
  have hwrites : ∀ made ∈ sixCalls, Writes made := by
    simp only [sixCalls, List.forall_mem_cons, Writes]
    exact ⟨⟨['a'], by decide⟩, ⟨['b'], by decide⟩, ⟨['é'], by decide⟩,
      trivial, trivial, trivial, nofun⟩
  have hfile : (exec call Holder.start sixCalls).map (·.store.jsonFile) =
      some (.object
        [([97], [[98]]), ([98], [[0xC3, 0xA9], [97]]), ([0xC3, 0xA9], [])]) := by
    decide
  obtain ⟨holder, hrun⟩ := Option.isSome_iff_exists.1 hsome
  obtain ⟨hmirrors, hloads⟩ := mirrors_and_loadsBack (by decide) hwrites hrun
  rw [hrun] at hfile
  exact ⟨holder, hrun, hmirrors, hloads, Option.some.inj hfile⟩

end TwitterLike.Persistence
