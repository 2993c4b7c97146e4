import TwitterLike.Server.ProfileAccessController

/-!
# Which operations give the lock back

The write lock is released only after a normal return of the store.  A call
therefore leaks it exactly when the store ends the thread, on a refused login,
or when writing the JSON file throws.
-/

namespace TwitterLike.LockDiscipline

open TwitterLike.ByteBuffer
open TwitterLike.JsonDump
open TwitterLike.Profiles
open TwitterLike.ProfilesManager
open TwitterLike.ProfileAccessController

variable {α β : Type}

/-! ## Results that return or kill the process -/

/-- The result is no abnormal way out with which the program goes on. -/
def Clean (result : Except Exit α) : Prop :=
  ∀ exit, result = .error exit → ¬ GoesOn (some exit)

theorem clean_ok (value : α) : Clean (.ok value : Except Exit α) := by
  intro exit hexit
  contradiction

@[simp]
theorem clean_error_iff (exit : Exit) :
    Clean (.error exit : Except Exit α) ↔ ¬ GoesOn (some exit) := by
  constructor
  · intro hclean
    exact hclean exit rfl
  · intro hstops other hother
    cases hother
    exact hstops

theorem clean_nullDeref : Clean (.error .nullDeref : Except Exit α) :=
  (clean_error_iff _).2 id

@[simp]
theorem clean_map_iff (result : Except Exit α) (change : α → β) :
    Clean (result.map change) ↔ Clean result := by
  cases result with
  | ok value => exact iff_of_true (clean_ok _) (clean_ok _)
  | error exit => exact (clean_error_iff exit).trans (clean_error_iff exit).symm

theorem clean_toJsonFile_iff (store : Store) :
    Clean store.toJsonFile.1 ↔ store.toJson.dumpable = true := by
  by_cases hdump : store.toJson.dumpable = true
  · rw [store.toJsonFile_of_dumpable hdump]
    exact iff_of_true (clean_ok _) hdump
  · rw [store.toJsonFile_of_not_dumpable hdump]
    exact iff_of_false (fun hclean => (clean_error_iff _).1 hclean trivial)
      hdump

/-! ## The store operations -/

section Operations

variable (store : Store)

theorem clean_insertProfile_iff (profileId : ByteString)
    (profile : ProfileRef) :
    Clean (store.insertProfile profileId profile).1 ↔
      store.toJson.dumpable = true ∧
        (store.getProfileById profileId = none →
          dumps profileId = true ∧
            ∀ name ∈ store.followerIds profile, dumps name = true) := by
  rw [Store.insertProfile, clean_map_iff, clean_toJsonFile_iff,
    Std.TreeMap.contains_eq_isSome_getElem?]
  cases hfound : store.profiles[profileId]? with
  | none =>
      have hunknown : store.getProfileById profileId = none := hfound
      simp [hunknown, Store.dumpable_insertEntry_iff hunknown]
  | some ref =>
      have hknown : store.getProfileById profileId = some ref := hfound
      simp [hknown]

theorem clean_addFollowerTo_iff (followed : ByteString)
    (follower : Option ProfileRef) :
    Clean (store.addFollowerTo followed follower).1 ↔
      ∀ ref target, follower = some ref →
        store.getProfileById followed = some target →
        (store.objects ref).profileId ≠ followed →
        (store.objects ref).profileId ∉ store.followerIds target →
        store.toJson.dumpable = true ∧
          dumps (store.objects ref).profileId = true := by
  cases follower with
  | none =>
      refine iff_of_true clean_nullDeref ?_
      intro ref target href
      contradiction
  | some ref =>
      constructor
      · intro hclean other target hother htarget hself hfollows
        cases hother
        rw [Store.addFollowerTo, if_neg hself, htarget] at hclean
        simp only [if_neg hfollows, clean_toJsonFile_iff] at hclean
        exact (Store.dumpable_pushFollower_iff htarget ref).1 hclean
      · intro hdump
        rcases store.addFollowerTo_cases followed ref with
          hkeep | ⟨target, htarget, hself, hfollows, hpush⟩
        · rw [hkeep]
          exact clean_ok _
        · rw [hpush, clean_toJsonFile_iff,
            Store.dumpable_pushFollower_iff htarget]
          exact hdump ref target rfl htarget hself hfollows

theorem clean_sendToFollowersOf (profile : Option ProfileRef)
    (message : Message) : Clean (store.sendToFollowersOf profile message).1 := by
  cases profile with
  | none => exact clean_nullDeref
  | some ref => exact clean_ok _

theorem clean_refuse_iff (conn : Option Conn) (time : BitVec 64) :
    Clean (.error (store.refuse conn time).1 : Except Exit α) ↔
      conn = none := by
  cases conn with
  | none => exact iff_of_true clean_nullDeref rfl
  | some conn =>
      exact iff_of_false (fun hclean => (clean_error_iff _).1 hclean trivial)
        (by simp)

theorem clean_createProfileIfNotExists_iff (hsound : store.NoDangling)
    (profileId : ByteString) (conn : Option Conn) (time : BitVec 64) :
    Clean (store.createProfileIfNotExists profileId conn time).1 ↔
      (∀ ref, store.getProfileById profileId = some ref →
        (store.objects ref).sessionsOn = maxSessions → conn = none) ∧
      (store.getProfileById profileId = none →
        store.toJson.dumpable = true ∧ dumps profileId = true) := by
  have hfind : Clean (store.createProfileIfNotExists profileId conn time).1 ↔
      Clean (store.findOrCreate profileId conn time).1 := by
    unfold Store.createProfileIfNotExists
    rcases store.findOrCreate profileId conn time with ⟨exit | ref, found⟩
    · exact (clean_error_iff exit).trans (clean_error_iff exit).symm
    · exact iff_of_true (clean_ok _) (clean_ok _)
  rw [hfind]
  cases hfound : store.getProfileById profileId with
  | none =>
      rw [store.findOrCreate_of_unknown hfound, clean_map_iff,
        clean_toJsonFile_iff, Store.dumpable_created_iff hsound hfound]
      simp
  | some ref =>
      by_cases hfull : (store.objects ref).sessionsOn = maxSessions
      · rw [store.findOrCreate_of_full hfound hfull, clean_refuse_iff]
        simp [hfull]
      · rw [store.findOrCreate_of_room hfound hfull]
        simp [hfull, clean_ok]

theorem clean_closeSessions (time : BitVec 64)
    (sessions : List (Option Conn)) :
    Clean (Store.closeSessions time store sessions).1 := by
  induction sessions generalizing store with
  | nil => exact clean_ok _
  | cons session sessions ih =>
      cases session with
      | none => exact clean_nullDeref
      | some conn => exact ih _

theorem clean_closeProfiles (time : BitVec 64) (refs : List ProfileRef) :
    Clean (Store.closeProfiles time store refs).1 := by
  induction refs generalizing store with
  | nil => exact clean_ok _
  | cons ref refs ih =>
      have hsessions :=
        clean_closeSessions store time (store.objects ref).sessions
      unfold Store.closeProfiles
      rcases hresult : Store.closeSessions time store
        (store.objects ref).sessions with ⟨exit | _, closed⟩
      · exact (clean_error_iff exit).2 ((clean_error_iff exit).1
          (hresult ▸ hsessions))
      · exact ih closed

end Operations

/-! ## The operations of the controller -/

/-- The request for the lock with which the operation starts gets through. -/
def Admitted (controller : Controller) : Operation → Prop
  | .getProfileById _ => controller.readable = true
  | .hasProfile _ => controller.readable = true
  | _ => controller.writable = true

/-- The store neither refuses a login nor has a string to write that is not
UTF-8.  Only a creation and a new edge write the file, and only a login can be
refused. -/
def StoreReturns (store : Store) : Operation → Prop
  | .insertProfile profileId profile =>
      store.toJson.dumpable = true ∧
        (store.getProfileById profileId = none →
          dumps profileId = true ∧
            ∀ name ∈ store.followerIds profile, dumps name = true)
  | .addFollowerTo followed follower =>
      ∀ ref target, follower = some ref →
        store.getProfileById followed = some target →
        (store.objects ref).profileId ≠ followed →
        (store.objects ref).profileId ∉ store.followerIds target →
        store.toJson.dumpable = true ∧
          dumps (store.objects ref).profileId = true
  | .createProfileIfNotExists profileId conn _ =>
      (∀ ref, store.getProfileById profileId = some ref →
        (store.objects ref).sessionsOn = maxSessions → conn = none) ∧
      (store.getProfileById profileId = none →
        store.toJson.dumpable = true ∧ dumps profileId = true)
  | _ => True

/-- The counters are as they were, provided the program goes on. -/
def Restored (controller : Controller) (result : Option Exit × Controller) :
    Prop :=
  GoesOn result.1 →
    result.2.numReaders = controller.numReaders ∧
      result.2.numWriters = controller.numWriters

theorem restored_withRead (controller : Controller) (call : Store → α) :
    Restored controller (wayOut (controller.withRead call)) := by
  intro _
  unfold Controller.withRead
  split
  · simp [wayOut, Controller.releaseRead, Controller.requestRead]
  · exact ⟨rfl, rfl⟩

/-- A writing operation that gets the lock gives it back exactly when the store
returns or the process dies. -/
theorem restored_withWrite_iff (controller : Controller)
    (call : Store → Except Exit α × Store) :
    Restored controller (wayOut (controller.withWrite call)) ↔
      (controller.writable = true → Clean (call controller.store).1) := by
  unfold Controller.withWrite
  by_cases hwritable : controller.writable = true
  · have hstore : controller.requestWrite.store = controller.store := rfl
    simp only [hwritable, forall_const, hstore]
    rcases call controller.store with ⟨exit | value, store⟩
    · rw [clean_error_iff]
      constructor
      · intro hrestored hgoes
        have hwriters := (hrestored hgoes).2
        simp [wayOut, Controller.requestWrite] at hwriters
      · intro hstops hgoes
        exact absurd hgoes hstops
    · refine iff_of_true (fun _ => ?_) (clean_ok _)
      simp [wayOut, Controller.releaseWrite, Controller.requestWrite]
  · rw [if_neg hwritable]
    exact iff_of_true (fun _ => ⟨rfl, rfl⟩)
      fun hgranted => absurd hgranted hwritable

theorem undoes_iff {controller : Controller}
    (hsound : controller.store.NoDangling) (operation : Operation) :
    operation.Undoes controller ↔
      (Admitted controller operation →
        StoreReturns controller.store operation) := by
  cases operation with
  | insertProfile profileId profile =>
      exact (restored_withWrite_iff controller _).trans
        (imp_congr_right fun _ => clean_insertProfile_iff _ profileId profile)
  | getProfileById profileId =>
      exact iff_of_true (restored_withRead controller _) fun _ => trivial
  | hasProfile profileId =>
      exact iff_of_true (restored_withRead controller _) fun _ => trivial
  | addFollowerTo followed follower =>
      exact (restored_withWrite_iff controller _).trans
        (imp_congr_right fun _ => clean_addFollowerTo_iff _ followed follower)
  | sendToFollowersOf profile message =>
      refine iff_of_true ?_ fun _ => trivial
      exact (restored_withWrite_iff controller _).2
        fun _ => clean_sendToFollowersOf _ profile message
  | createProfileIfNotExists profileId conn time =>
      exact (restored_withWrite_iff controller _).trans
        (imp_congr_right fun _ =>
          clean_createProfileIfNotExists_iff _ hsound profileId conn time)
  | sendCloseConnToAll time =>
      refine iff_of_true ?_ fun _ => trivial
      exact (restored_withWrite_iff controller _).2
        fun _ => clean_closeProfiles _ time _

/-! ## Reachable stores -/

/-- The stores that calls of the controller and the critical sections of the
profiles lead to, with pointers that have been obtained from an allocation. -/
inductive Reachable : Store → Prop where
  | empty : Reachable Store.empty
  | allocate {store : Store} (profileId : ByteString) :
      Reachable store → Reachable (store.allocate profileId).2
  | insertProfile {store : Store} (profileId : ByteString)
      (profile : ProfileRef) (hprofile : profile < store.allocated) :
      Reachable store → Reachable (store.insertProfile profileId profile).2
  | addFollowerTo {store : Store} (followed : ByteString)
      (follower : ProfileRef) (hfollower : follower < store.allocated) :
      Reachable store →
        Reachable (store.addFollowerTo followed (some follower)).2
  | sendToFollowersOf {store : Store} (profile : Option ProfileRef)
      (message : Message) :
      Reachable store → Reachable (store.sendToFollowersOf profile message).2
  | createProfileIfNotExists {store : Store} (profileId : ByteString)
      (conn : Option Conn) (time : BitVec 64) :
      Reachable store →
        Reachable (store.createProfileIfNotExists profileId conn time).2
  | sendCloseConnToAll {store : Store} (time : BitVec 64) :
      Reachable store → Reachable (store.sendCloseConnToAll time).2
  | decSessionsOn {store : Store} (profile : ProfileRef)
      (conn : Option Conn) :
      Reachable store → Reachable (store.decSessionsOn profile conn)
  | updateSessionsOn {store : Store} (profile : ProfileRef)
      (conn : Option Conn) :
      Reachable store → Reachable (store.updateSessionsOn profile conn)
  | fetchInboxContent {store : Store} (profile : ProfileRef) :
      Reachable store → Reachable (store.fetchInboxContent profile).2

section NoDangling

variable {store : Store}

theorem noDangling_insertProfile (hsound : store.NoDangling)
    {profileId : ByteString} {profile : ProfileRef}
    (hprofile : profile < store.allocated) :
    (store.insertProfile profileId profile).2.NoDangling := by
  apply Store.NoDangling.sameMemory _
    (store.insertProfile_sameMemory profileId profile)
  split
  · exact hsound
  · exact hsound.insertEntry hprofile

theorem noDangling_addFollowerTo (hsound : store.NoDangling)
    {followed : ByteString} {follower : ProfileRef}
    (hfollower : follower < store.allocated) :
    (store.addFollowerTo followed (some follower)).2.NoDangling := by
  rcases store.addFollowerTo_cases followed follower with
    hkeep | ⟨target, _, _, _, hpush⟩
  · rw [hkeep]
    exact hsound
  · rw [hpush]
    exact (hsound.pushFollower hfollower).sameMemory
      (Store.toJsonFile_sameMemory _)

theorem noDangling_sendOrInsertInbox (hsound : store.NoDangling)
    (ref : ProfileRef) (message : Message) :
    (store.sendOrInsertInbox ref message).NoDangling := by
  have hupdate : (store.update ref fun _ =>
      ((store.objects ref).sendOrInsertInbox message).1).NoDangling :=
    hsound.update (sendOrInsertInbox_followers _ _)
  exact hupdate.of_eq rfl rfl fun _ => rfl

theorem noDangling_sendToFollowersOf (hsound : store.NoDangling)
    (profile : Option ProfileRef) (message : Message) :
    (store.sendToFollowersOf profile message).2.NoDangling := by
  cases profile with
  | none => exact hsound
  | some ref =>
      change (List.foldl _ store (store.objects ref).followers).NoDangling
      generalize (store.objects ref).followers = followers
      induction followers generalizing store with
      | nil => exact hsound
      | cons follower followers ih =>
          exact ih (noDangling_sendOrInsertInbox hsound follower message)

theorem noDangling_createProfileIfNotExists (hsound : store.NoDangling)
    (profileId : ByteString) (conn : Option Conn) (time : BitVec 64) :
    (store.createProfileIfNotExists profileId conn time).2.NoDangling := by
  have hfound : (store.findOrCreate profileId conn time).2.NoDangling := by
    cases hlookup : store.getProfileById profileId with
    | none =>
        rw [store.findOrCreate_of_unknown hlookup]
        exact ((hsound.allocate profileId).insertEntry
          (Nat.lt_succ_self _)).sameMemory (Store.toJsonFile_sameMemory _)
    | some ref =>
        by_cases hfull : (store.objects ref).sessionsOn = maxSessions
        · rw [store.findOrCreate_of_full hlookup hfull]
          cases conn with
          | none => exact hsound
          | some conn => exact hsound.of_eq rfl rfl fun _ => rfl
        · rw [store.findOrCreate_of_room hlookup hfull]
          exact hsound
  unfold Store.createProfileIfNotExists
  rcases hresult : store.findOrCreate profileId conn time with
    ⟨exit | ref, found⟩
  · rw [hresult] at hfound
    exact hfound
  · rw [hresult] at hfound
    have hjoined : (found.incSessionsOn ref conn).NoDangling := hfound.update rfl
    exact hjoined

theorem noDangling_closeSessions (hsound : store.NoDangling) (time : BitVec 64)
    (sessions : List (Option Conn)) :
    (Store.closeSessions time store sessions).2.NoDangling := by
  induction sessions generalizing store with
  | nil => exact hsound
  | cons session sessions ih =>
      cases session with
      | none => exact hsound
      | some conn => exact ih (hsound.of_eq rfl rfl fun _ => rfl)

theorem noDangling_closeProfiles (hsound : store.NoDangling) (time : BitVec 64)
    (refs : List ProfileRef) :
    (Store.closeProfiles time store refs).2.NoDangling := by
  induction refs generalizing store with
  | nil => exact hsound
  | cons ref refs ih =>
      have hsessions := noDangling_closeSessions hsound time
        (store.objects ref).sessions
      unfold Store.closeProfiles
      rcases hresult : Store.closeSessions time store
        (store.objects ref).sessions with ⟨exit | _, closed⟩
      · rw [hresult] at hsessions
        exact hsessions
      · rw [hresult] at hsessions
        exact ih hsessions

end NoDangling

theorem noDangling_of_reachable {store : Store} (hreachable : Reachable store) :
    store.NoDangling := by
  induction hreachable with
  | empty => exact Store.noDangling_empty
  | allocate profileId _ ih => exact ih.allocate profileId
  | insertProfile profileId profile hprofile _ ih =>
      exact noDangling_insertProfile ih hprofile
  | addFollowerTo followed follower hfollower _ ih =>
      exact noDangling_addFollowerTo ih hfollower
  | sendToFollowersOf profile message _ ih =>
      exact noDangling_sendToFollowersOf ih profile message
  | createProfileIfNotExists profileId conn time _ ih =>
      exact noDangling_createProfileIfNotExists ih profileId conn time
  | sendCloseConnToAll time _ ih => exact noDangling_closeProfiles ih time _
  | decSessionsOn profile conn _ ih => exact ih.update (by simp)
  | updateSessionsOn profile conn _ ih => exact ih.update rfl
  | @fetchInboxContent store profile _ ih =>
      have hupdate : (store.update profile fun _ =>
          (store.objects profile).fetchInboxContent.2.1).NoDangling :=
        ih.update rfl
      exact hupdate.of_eq rfl rfl fun _ => rfl

/-! ## The leak -/

/-- In every reachable store and whatever the counters, an operation undoes its
own increment on every way out exactly when its request for the lock is not
granted, or no login is refused and every string to be written is UTF-8. -/
theorem operation_undoes_iff (controller : Controller)
    (hreachable : Reachable controller.store) (operation : Operation) :
    operation.Undoes controller ↔
      (Admitted controller operation →
        StoreReturns controller.store operation) :=
  undoes_iff (noDangling_of_reachable hreachable) operation

/-- Two sessions of the profile `ab`. -/
def fullStore : Store :=
  ((Store.empty.createProfileIfNotExists [97, 98] (some 1) 0).2
    |>.createProfileIfNotExists [97, 98] (some 2) 0).2

theorem reachable_fullStore : Reachable fullStore :=
  .createProfileIfNotExists _ _ _ (.createProfileIfNotExists _ _ _ .empty)

/-- Registering a first profile gives the lock back. -/
theorem operation_undoes_first_login :
    Operation.Undoes (.createProfileIfNotExists [97, 98] (some 1) 0)
        Controller.new ↔
      (Admitted Controller.new (.createProfileIfNotExists [97, 98] (some 1) 0) →
        StoreReturns Controller.new.store
          (.createProfileIfNotExists [97, 98] (some 1) 0)) :=
  operation_undoes_iff Controller.new .empty _

/-- The third login of one profile is refused and keeps the write lock. -/
theorem refused_login_keeps_lock :
    ¬ ∀ controller : Controller, Reachable controller.store →
      ∀ operation : Operation, operation.Undoes controller := by
  intro hundoes
  have hcounters := hundoes ⟨fullStore, 0, 0⟩ reachable_fullStore
    (.createProfileIfNotExists [97, 98] (some 3) 0)
    (by
      have hexit : (Operation.run ⟨fullStore, 0, 0⟩
          (.createProfileIfNotExists [97, 98] (some 3) 0)).1 =
          some .threadExit := by decide
      rw [hexit]
      trivial)
  exact absurd hcounters.2 (by decide)

end TwitterLike.LockDiscipline
