import TwitterLike.Json.RoundTrip
import TwitterLike.Server.Persistence

/-!
# The bytes of the store's file

`ProfilesManager::toJsonFile` and `ProfilesManager::fromJsonFile` over the bytes
of the file.  The loader takes whatever value the file holds: it iterates over
its items and over the values in them, and converts these to strings.
-/

namespace TwitterLike.FileTexts

open TwitterLike.ByteBuffer
open TwitterLike.Transition
open TwitterLike.JsonDump
open TwitterLike.JsonSerializer
open TwitterLike.JsonParser
open TwitterLike.JsonRoundTrip
open TwitterLike.Profiles
open TwitterLike.ProfilesManager
open TwitterLike.FollowGraph
open TwitterLike.GraphHistory
open TwitterLike.Persistence

/-! ## Saving -/

/-- `j[entry.first] = *names` for every entry. -/
def valueOf (entries : JsonObject) : Json :=
  .object (entries.map fun entry => (entry.1, .array (entry.2.map .string)))

/-- The bytes of a file that has been written completely. -/
def textOf : JsonFile → Option ByteString
  | .null => dump .null
  | .object entries => dump (valueOf entries)
  | _ => none

/-! ## Loading -/

/-- `std::to_string`. -/
def toString (index : ℕ) : ByteString :=
  (Nat.toDigits 10 index).flatMap String.utf8EncodeChar

/-- `jDict.items()`: an array has its indices as keys, and a primitive value is
its own only item. -/
def items : Json → Members
  | .null => []
  | .object members => members
  | .array elements => elements.mapIdx fun index element => (toString index, element)
  | value => [([], value)]

/-- The range of `for (auto follower : profile.value())`. -/
def range : Json → List Json
  | .null => []
  | .object members => members.map Prod.snd
  | .array elements => elements
  | value => [value]

/-- The inner one of the last loops of `fromJsonFile`.  A value that is no string
is not converted. -/
def addFollowers (followed : ByteString) :
    Store → List Json → Except Exit Unit × Store
  | store, [] => (.ok (), store)
  | store, .string follower :: followers =>
      match store.addFollowerTo followed (store.getProfileById follower) with
      | (.ok _, added) => addFollowers followed added followers
      | (.error exit, added) => (.error exit, added)
  | store, _ :: _ => (.error .exception, store)

/-- The outer one of the last loops of `fromJsonFile`. -/
def addAllFollowers : Store → Members → Except Exit Unit × Store
  | store, [] => (.ok (), store)
  | store, (followed, followers) :: members =>
      match addFollowers followed store (range followers) with
      | (.ok _, added) => addAllFollowers added members
      | (.error exit, added) => (.error exit, added)

/-- `ProfilesManager::fromJsonFile` over a file of these bytes. -/
def fromJsonText (store : Store) (text : ByteString) : Except Exit Unit × Store :=
  match parse text with
  | none => (.error .exception, store)
  | some (jDict, _) =>
      addAllFollowers
        (store.insertProfiles ((items jDict).map fun item => (item.1, [])))
        (items jDict)

/-! ## Files that were written -/

section Saved

variable {store : Store} {entries : JsonObject} {names : List ByteString}
  {followed : ByteString}

theorem insertProfiles_keys (store : Store) (entries : JsonObject) :
    store.insertProfiles (entries.map fun entry => (entry.1, [])) =
      store.insertProfiles entries := by
  induction entries generalizing store with
  | nil => rfl
  | cons entry entries ih => exact ih _

theorem addFollowers_strings (store : Store) (names : List ByteString) :
    addFollowers followed store (names.map .string) =
      Store.addFollowers followed store names := by
  induction names generalizing store with
  | nil => rfl
  | cons name names ih =>
      rw [List.map_cons, addFollowers, Store.addFollowers]
      rcases store.addFollowerTo followed (store.getProfileById name) with
        ⟨exit | _, added⟩
      · rfl
      · exact ih added

theorem addAllFollowers_entries (store : Store) (entries : JsonObject) :
    addAllFollowers store
        (entries.map fun entry => (entry.1, .array (entry.2.map .string))) =
      Store.addAllFollowers store entries := by
  induction entries generalizing store with
  | nil => rfl
  | cons entry entries ih =>
      rw [List.map_cons, addAllFollowers, range, addFollowers_strings,
        Store.addAllFollowers]
      rcases Store.addFollowers entry.1 store entry.2 with ⟨exit | _, added⟩
      · rfl
      · exact ih added

/-- Loading the bytes of an object is running the loops over the object. -/
theorem fromJsonText_of_parse {text after : ByteString}
    (hparse : parse text = some (valueOf entries, after)) :
    fromJsonText store text =
      Store.addAllFollowers (store.insertProfiles entries) entries := by
  rw [fromJsonText, hparse]
  dsimp only [valueOf, items]
  rw [List.map_map, addAllFollowers_entries]
  exact congrArg (Store.addAllFollowers · entries) (insertProfiles_keys store entries)

/-- The file of a store whose ids are texts, as a value. -/
theorem canonical_toJson (hstorable : Storable store) :
    Canonical (valueOf store.toJson) := by
  have hentry (entry) (hmem : entry ∈ store.toJson) :
      IsUtf8 entry.1 ∧ ∀ name ∈ entry.2, IsUtf8 name := by
    have hdump := List.all_eq_true.1 hstorable.dumpable entry hmem
    rw [Bool.and_eq_true, List.all_eq_true] at hdump
    exact ⟨isUtf8_of_dumpsFrom hdump.1,
      fun name hname => isUtf8_of_dumpsFrom (hdump.2 name hname)⟩
  refine .object ?_ ?_ ?_
  · rw [List.pairwise_map]
    exact pairwise_toJson store
  · rw [List.forall_mem_map]
    exact fun entry hmem => (hentry entry hmem).1
  · rw [List.forall_mem_map]
    refine fun entry hmem => .array ?_
    rw [List.forall_mem_map]
    exact fun name hname => .string ((hentry entry hmem).2 name hname)

/-- The bytes of the file are read as the object, and no part of them is. -/
structure Saves (store : Store) (text : ByteString) : Prop where
  written : textOf store.jsonFile = some text
  loads : ∃ loaded, fromJsonText (fresh store.jsonFile) text = (.ok (), loaded) ∧
    followersOf loaded = followersOf store ∧ textOf loaded.jsonFile = some text
  torn : ∀ front back, text = front ++ back → back ≠ [] →
    fromJsonText (fresh store.jsonFile) front =
      (.error .exception, fresh store.jsonFile)

/-- The text of such a store, which is read as its object, but no part of which
is read as anything. -/
theorem exists_text (hstorable : Storable store) :
    ∃ text, dump (valueOf store.toJson) = some text ∧
      (∀ jsonFile, ∃ loaded, fromJsonText (fresh jsonFile) text = (.ok (), loaded) ∧
        Loading jsonFile loaded ∧ followersOf loaded = followersOf store) ∧
      ∀ front back, text = front ++ back → back ≠ [] → ∀ other,
        fromJsonText other front = (.error .exception, other) := by
  obtain ⟨text, hdump, hderives⟩ := (canonical_toJson hstorable).written
  have hparse : parse text = some (valueOf store.toJson, []) := by
    have hparse := parse_of_derives hderives []
    rwa [List.append_nil] at hparse
  refine ⟨text, hdump, fun jsonFile => ?_, ?_⟩
  · rw [fromJsonText_of_parse hparse]
    exact hstorable.replayed jsonFile
  · rintro front back rfl hback other
    rw [fromJsonText, parse_of_cut hparse hback]

theorem exists_saves (hpersisted : Persisted store) :
    ∃ text, Saves store text := by
  obtain ⟨text, hdump, hloads, htorn⟩ := exists_text hpersisted.toStorable
  obtain ⟨loaded, hloaded, hloading, hsame⟩ := hloads store.jsonFile
  have htext : textOf store.jsonFile = some text := by
    rw [hpersisted.file]
    exact hdump
  have hfile : loaded.jsonFile = store.jsonFile := by
    rcases hloading.file with hfile | hfile
    · exact hfile
    · rw [hfile, toJson_congr hsame, hpersisted.file]
  exact ⟨text, htext, ⟨loaded, hloaded, hsame, hfile ▸ htext⟩,
    fun front back hsplit hback => htorn front back hsplit hback _⟩

end Saved

/-! ## Files of any content -/

section Loaded

variable {store loaded : Store} {profileId followed : ByteString}
  {entries : JsonObject} {members : Members} {values : List Json} {value : Json}

/-- A profile object that no entry of the map points to. -/
theorem wellFormed_allocate (hwf : WellFormed store) (profileId : ByteString) :
    WellFormed (store.allocate profileId).2 := by
  have hobject (ref : ProfileRef) (hne : ref ≠ store.allocated) :
      (store.allocate profileId).2.objects ref = store.objects ref :=
    Function.update_of_ne hne _ _
  have hnew : (store.allocate profileId).2.objects store.allocated =
      Profile.new profileId := Function.update_self ..
  have hids (ref : ProfileRef) :
      (store.allocate profileId).2.followerIds ref =
        if ref = store.allocated then [] else store.followerIds ref :=
    created_followerIds profileId hwf.noDangling ref
  constructor
  case ids =>
    intro key ref hfound
    rw [hobject ref (hwf.allocated key ref hfound).ne]
    exact hwf.ids key ref hfound
  case allocated =>
    exact fun key ref hfound => Nat.lt_succ_of_lt (hwf.allocated key ref hfound)
  case followers =>
    intro ref follower hfollower
    by_cases heq : ref = store.allocated
    · rw [heq, hnew] at hfollower
      exact absurd hfollower List.not_mem_nil
    · rw [hobject ref heq] at hfollower
      rw [hobject follower (hwf.follower_lt hfollower).ne]
      exact hwf.followers ref follower hfollower
  case nodup =>
    intro ref
    rw [hids]
    split
    · exact List.nodup_nil
    · exact hwf.nodup ref
  case irreflexive =>
    intro ref
    rw [hids]
    split
    · exact List.not_mem_nil
    · next hne =>
      rw [hobject ref hne]
      exact hwf.irreflexive ref

theorem storable_insertProfiles (hstorable : Storable store)
    (hkeys : ∀ entry ∈ entries, IsUtf8 entry.1) :
    Storable (store.insertProfiles entries) := by
  induction entries generalizing store with
  | nil => exact hstorable
  | cons entry entries ih =>
      obtain ⟨hkey, hkeys⟩ := List.forall_mem_cons.1 hkeys
      rw [Store.insertProfiles]
      dsimp only
      split
      · exact ih ⟨wellFormed_allocate hstorable.wellFormed entry.1,
          hstorable.names⟩ hkeys
      · next habsent =>
        have hunknown : store.getProfileById entry.1 = none := by
          rw [Std.TreeMap.contains_eq_isSome_getElem?, Option.not_isSome_iff_eq_none]
            at habsent
          exact habsent
        exact ih (hstorable.created hunknown (dumps_of_isUtf8 hkey)) hkeys

/-- A manager that has not written the file, and has no follower to write, or has
written it since the last change. -/
structure Current (store : Store) : Prop extends Storable store where
  file : store.jsonFile = .absent ∧ (∀ ref, (store.objects ref).followers = []) ∨
    store.jsonFile = .object store.toJson

/-- The first loop writes nothing, and nobody follows anybody. -/
theorem unwritten_insertProfiles (hfile : store.jsonFile = .absent)
    (hnobody : ∀ ref, (store.objects ref).followers = []) :
    (store.insertProfiles entries).jsonFile = .absent ∧
      ∀ ref, ((store.insertProfiles entries).objects ref).followers = [] := by
  induction entries generalizing store with
  | nil => exact ⟨hfile, hnobody⟩
  | cons entry entries ih =>
      have hnew (ref : ProfileRef) :
          ((store.allocate entry.1).2.objects ref).followers = [] := by
        by_cases heq : ref = store.allocated
        · rw [heq]
          simp [Store.allocate, Profile.new]
        · have hsame : (store.allocate entry.1).2.objects ref = store.objects ref :=
            Function.update_of_ne heq ..
          rw [hsame]
          exact hnobody ref
      rw [Store.insertProfiles]
      dsimp only
      split
      · exact ih hfile hnew
      · exact ih hfile hnew

theorem Current.addFollowerTo (hcurrent : Current store) {follower : ByteString}
    (hadded : store.addFollowerTo followed (store.getProfileById follower) =
      (.ok (), loaded)) : Current loaded := by
  cases hfound : store.getProfileById follower with
  | none =>
      rw [hfound] at hadded
      cases hadded
  | some ref =>
      obtain rfl := hcurrent.wellFormed.ids follower ref hfound
      rw [hfound] at hadded
      rcases store.addFollowerTo_cases followed ref with
        hkeep | ⟨target, htarget, hself, hnew, hpush⟩
      · cases hkeep.symm.trans hadded
        exact hcurrent
      · obtain ⟨written, hwritten, hpersisted, _⟩ :=
          (hcurrent.toStorable.pushFollower hfound htarget hself hnew).toJsonFile
            htarget
        rw [hpush, hwritten] at hadded
        cases hadded
        exact ⟨hpersisted.toStorable, .inr hpersisted.file⟩

theorem Current.addFollowers (hcurrent : Current store)
    (hadded : FileTexts.addFollowers followed store values = (.ok (), loaded)) :
    Current loaded := by
  induction values generalizing store with
  | nil =>
      cases hadded
      exact hcurrent
  | cons value values ih =>
      cases value with
      | string name =>
          rw [FileTexts.addFollowers] at hadded
          split at hadded
          · next hfirst => exact ih (hcurrent.addFollowerTo hfirst) hadded
          · cases hadded
      | _ => cases hadded

theorem Current.addAllFollowers (hcurrent : Current store)
    (hadded : FileTexts.addAllFollowers store members = (.ok (), loaded)) :
    Current loaded := by
  induction members generalizing store with
  | nil =>
      cases hadded
      exact hcurrent
  | cons member members ih =>
      rw [FileTexts.addAllFollowers] at hadded
      split at hadded
      · next hfirst => exact ih (hcurrent.addFollowers hfirst) hadded
      · cases hadded

theorem isUtf8_items (hcanonical : Canonical value) :
    ∀ item ∈ items value, IsUtf8 item.1 := by
  cases hcanonical with
  | null => exact nofun
  | object _ hkeys _ => exact hkeys
  | array =>
      intro item hmem
      obtain ⟨index, _, rfl⟩ := List.mem_mapIdx.1 hmem
      exact ⟨_, rfl⟩
  | boolean | string => exact List.forall_mem_singleton.2 ⟨[], rfl⟩

/-- Whatever the file held, a manager that has loaded it has written what it has,
or had nothing to write. -/
theorem current_of_load {text : ByteString}
    (hloaded : fromJsonText Store.empty text = (.ok (), loaded)) :
    Current loaded := by
  rw [fromJsonText] at hloaded
  split at hloaded
  · cases hloaded
  · next jDict after hparse =>
    have hkeys := isUtf8_items (canonical_of_parse hparse)
    have hcreated : Current (Store.empty.insertProfiles
        ((items jDict).map fun item => (item.1, []))) := by
      refine ⟨storable_insertProfiles storable_empty ?_,
        .inl (unwritten_insertProfiles rfl fun _ => rfl)⟩
      rw [List.forall_mem_map]
      exact hkeys
    exact hcreated.addAllFollowers hloaded

end Loaded

/-- Behind every run of calls that write the file, the bytes of the file load as
the store, and a file cut short does not load. -/
theorem saves_behind_calls {calls : List Call} {holder : Holder}
    (hnonempty : calls ≠ []) (hwrites : ∀ made ∈ calls, Writes made)
    (hrun : exec call Holder.start calls = some holder) :
    ∃ text, Saves holder.store text :=
  exists_saves (persisted_exec hnonempty hwrites hrun)

/-- `a` and `é` register, and `é` follows `a`. -/
def threeCalls : List Call :=
  [.createProfileIfNotExists [97] (some 1) 0,
    .createProfileIfNotExists [0xC3, 0xA9] none 0, .addFollowerTo [97] 1]

theorem writes_threeCalls : ∀ made ∈ threeCalls, Writes made := by
  simp only [threeCalls, List.forall_mem_cons, Writes]
  exact ⟨⟨['a'], by decide⟩, ⟨['é'], by decide⟩, trivial,
    fun _ hmem => absurd hmem List.not_mem_nil⟩

theorem saves_behind_threeCalls :
    ∃ holder text, exec call Holder.start threeCalls = some holder ∧
      Saves holder.store text ∧
      textOf holder.store.jsonFile = some
        [0x7B, 0x22, 0x61, 0x22, 0x3A, 0x5B, 0x22, 0xC3, 0xA9, 0x22, 0x5D, 0x2C,
          0x22, 0xC3, 0xA9, 0x22, 0x3A, 0x5B, 0x5D, 0x7D] := by
  have hsome : (exec call Holder.start threeCalls).isSome := by decide
  have hfile : (exec call Holder.start threeCalls).bind
      (fun holder => textOf holder.store.jsonFile) = some
        [0x7B, 0x22, 0x61, 0x22, 0x3A, 0x5B, 0x22, 0xC3, 0xA9, 0x22, 0x5D, 0x2C,
          0x22, 0xC3, 0xA9, 0x22, 0x3A, 0x5B, 0x5D, 0x7D] := by
    decide
  obtain ⟨holder, hrun⟩ := Option.isSome_iff_exists.1 hsome
  obtain ⟨text, hsaves⟩ := saves_behind_calls (by decide) writes_threeCalls hrun
  rw [hrun] at hfile
  exact ⟨holder, text, hrun, hsaves, hfile⟩

/-- The bytes of the file of a manager that found `text` in it. -/
def fileBehind (text : ByteString) (store : Store) : Option ByteString :=
  match store.jsonFile with
  | .absent => some text
  | _ => textOf store.jsonFile

/-- What a load of `text` leaves: `saved` is in the file, and loading that gives the
same store over the same file. -/
structure Leaves (text : ByteString) (loaded : Store) (saved : ByteString) :
    Prop where
  file : fileBehind text loaded = some saved
  /-- nobody follows anybody, and nothing has been written, or the file is the text
  of the store, of which no part loads -/
  content : saved = text ∧ (∀ ref, (loaded.objects ref).followers = []) ∨
    dump (valueOf loaded.toJson) = some saved ∧
      ∀ front back, saved = front ++ back → back ≠ [] →
        fromJsonText Store.empty front = (.error .exception, Store.empty)
  reloads : ∃ again, fromJsonText Store.empty saved = (.ok (), again) ∧
    followersOf again = followersOf loaded ∧ fileBehind saved again = some saved

/-- Loading a file of any content twice is loading it once: what the loader has
rewritten, it reads as the store that it has built. -/
theorem saves_behind_load {text : ByteString} {loaded : Store}
    (hloaded : fromJsonText Store.empty text = (.ok (), loaded)) :
    ∃ saved, Leaves text loaded saved := by
  have hcurrent := current_of_load hloaded
  rcases hcurrent.file with ⟨hfile, hnobody⟩ | hfile
  · have hkept : fileBehind text loaded = some text := by
      rw [fileBehind, hfile]
    exact ⟨text, hkept, .inl ⟨rfl, hnobody⟩, loaded, hloaded, rfl, hkept⟩
  · obtain ⟨saved, hdump, hloads, htorn⟩ := exists_text hcurrent.toStorable
    obtain ⟨again, hagain, hloading, hsame⟩ := hloads .absent
    refine ⟨saved, ?_, .inr ⟨hdump, fun front back hsplit hback =>
      htorn front back hsplit hback _⟩, again, hagain, hsame, ?_⟩
    · rw [fileBehind, hfile]
      exact hdump
    · rcases hloading.file with hunwritten | hwritten
      · rw [fileBehind, hunwritten]
      · rw [fileBehind, hwritten, toJson_congr hsame]
        exact hdump

/-- The text in which `a` lists `b` twice, with blanks, and `b` lists nobody. -/
def blankText : ByteString :=
  [0x7B, 0x20, 0x22, 0x61, 0x22, 0x3A, 0x5B, 0x22, 0x62, 0x22, 0x2C, 0x22, 0x62,
    0x22, 0x5D, 0x2C, 0x22, 0x62, 0x22, 0x3A, 0x5B, 0x5D, 0x7D]

theorem saves_behind_load_blankText :
    ∃ loaded saved, fromJsonText Store.empty blankText = (.ok (), loaded) ∧
      Leaves blankText loaded saved ∧ saved ≠ blankText := by
  have hresult : ∃ loaded, fromJsonText Store.empty blankText = (.ok (), loaded) ∧
      fileBehind blankText loaded = some
        [0x7B, 0x22, 0x61, 0x22, 0x3A, 0x5B, 0x22, 0x62, 0x22, 0x5D, 0x2C, 0x22,
          0x62, 0x22, 0x3A, 0x5B, 0x5D, 0x7D] := by
    have hreturns : (fromJsonText Store.empty blankText).1 = .ok () := by decide +kernel
    exact ⟨_, Prod.ext hreturns rfl, by decide +kernel⟩
  obtain ⟨loaded, hloaded, hfile⟩ := hresult
  obtain ⟨saved, hleaves⟩ := saves_behind_load hloaded
  refine ⟨loaded, saved, hloaded, hleaves, ?_⟩
  cases hfile.symm.trans hleaves.file
  decide

end TwitterLike.FileTexts
