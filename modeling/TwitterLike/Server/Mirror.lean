import TwitterLike.Server.FollowGraph

/-!
# Stores of a primary and its backup

The relation between the two stores: the same map, ids, followers vectors and
session counters, with a null session on the backup for every connection on the
primary, and an inbox on the backup that ends with the primary's.  Every store
operation, run on both sides with the arguments each side gives it, keeps the
relation.
-/

namespace TwitterLike.Mirror

open TwitterLike.ByteBuffer
open TwitterLike.JsonDump
open TwitterLike.Profiles
open TwitterLike.ProfilesManager
open TwitterLike.FollowGraph

/-! ## Profiles -/

/-- The packets in the inbox, in order. -/
def queued (profile : Profile) : List PacketFormat.Packet :=
  profile.inbox.map Message.packet

structure Mirrored (primary backup : Profile) : Prop where
  profileId : backup.profileId = primary.profileId
  followers : backup.followers = primary.followers
  sessionsOn : backup.sessionsOn = primary.sessionsOn
  counted : primary.sessionsOn = primary.sessions.length
  live : none ∉ primary.sessions
  placeholders :
    backup.sessions = List.replicate primary.sessions.length none
  inbox : queued primary <:+ queued backup

theorem mirrored_new (profileId : ByteString) :
    Mirrored (Profile.new profileId) (Profile.new profileId) where
  profileId := rfl
  followers := rfl
  sessionsOn := rfl
  counted := rfl
  live := List.not_mem_nil
  placeholders := rfl
  inbox := List.suffix_rfl

section Profile

variable {primary backup : Profile}

theorem Mirrored.incSessionsOn (hmirrored : Mirrored primary backup)
    (conn : Conn) :
    Mirrored (primary.incSessionsOn (some conn)) (backup.incSessionsOn none) where
  profileId := hmirrored.profileId
  followers := hmirrored.followers
  sessionsOn := congrArg (· + 1) hmirrored.sessionsOn
  counted := by simp [hmirrored.counted]
  live := by simp [hmirrored.live]
  placeholders := by
    rw [incSessionsOn_sessions, hmirrored.placeholders, incSessionsOn_sessions,
      List.length_append, List.length_singleton, List.replicate_succ']
  inbox := hmirrored.inbox

theorem Mirrored.decSessionsOn (hmirrored : Mirrored primary backup)
    {conn : Conn} (hsession : some conn ∈ primary.sessions) :
    Mirrored (primary.decSessionsOn (some conn)) (backup.decSessionsOn none) := by
  have hpositive : 0 < primary.sessions.length := List.length_pos_of_mem hsession
  have hplaceholder : none ∈ backup.sessions := by
    rw [hmirrored.placeholders]
    exact List.mem_replicate.2 ⟨hpositive.ne', rfl⟩
  constructor
  case profileId => simp [hmirrored.profileId]
  case followers => simp [hmirrored.followers]
  case sessionsOn =>
    rw [decSessionsOn_sessionsOn_of_mem _ _ hplaceholder,
      decSessionsOn_sessionsOn_of_mem _ _ hsession, hmirrored.sessionsOn]
  case counted =>
    rw [decSessionsOn_sessionsOn_of_mem _ _ hsession, decSessionsOn_sessions,
      List.length_erase_of_mem hsession, hmirrored.counted]
    omega
  case live =>
    rw [decSessionsOn_sessions]
    exact fun hmem => hmirrored.live (List.mem_of_mem_erase hmem)
  case placeholders =>
    rw [decSessionsOn_sessions, decSessionsOn_sessions, hmirrored.placeholders,
      List.length_erase_of_mem hsession, List.erase_replicate_self]
  case inbox => simpa [queued] using hmirrored.inbox

/-- Both sides take the same branch; the backup skips its null sessions. -/
theorem Mirrored.sendOrInsertInbox (hmirrored : Mirrored primary backup)
    {sent relayed : Message} (hpacket : relayed.packet = sent.packet) :
    Mirrored (primary.sendOrInsertInbox sent).1
      (backup.sendOrInsertInbox relayed).1 := by
  by_cases honline : primary.sessionsOn > 0
  · have honline' : backup.sessionsOn > 0 := hmirrored.sessionsOn ▸ honline
    rw [sendOrInsertInbox_of_online _ _ honline,
      sendOrInsertInbox_of_online _ _ honline']
    exact hmirrored
  · have hoffline : ¬ backup.sessionsOn > 0 := hmirrored.sessionsOn ▸ honline
    rw [sendOrInsertInbox_of_offline _ _ honline,
      sendOrInsertInbox_of_offline _ _ hoffline]
    refine ⟨hmirrored.profileId, hmirrored.followers, hmirrored.sessionsOn,
      hmirrored.counted, hmirrored.live, hmirrored.placeholders, ?_⟩
    obtain ⟨older, holder⟩ := hmirrored.inbox
    refine ⟨older, ?_⟩
    rw [queued, queued, List.map_append, List.map_append, ← List.append_assoc]
    exact congrArg₂ _ holder (by simp [hpacket])

/-- Only the primary drains its inbox. -/
theorem Mirrored.fetchInboxContent (hmirrored : Mirrored primary backup) :
    Mirrored primary.fetchInboxContent.2.1 backup where
  profileId := hmirrored.profileId
  followers := hmirrored.followers
  sessionsOn := hmirrored.sessionsOn
  counted := hmirrored.counted
  live := hmirrored.live
  placeholders := hmirrored.placeholders
  inbox := List.nil_suffix

theorem Mirrored.pushFollower (hmirrored : Mirrored primary backup)
    (follower : ProfileRef) :
    Mirrored { primary with followers := primary.followers ++ [follower] }
      { backup with followers := backup.followers ++ [follower] } where
  profileId := hmirrored.profileId
  followers := congrArg (· ++ [follower]) hmirrored.followers
  sessionsOn := hmirrored.sessionsOn
  counted := hmirrored.counted
  live := hmirrored.live
  placeholders := hmirrored.placeholders
  inbox := hmirrored.inbox

end Profile

/-! ## Stores -/

structure Mirrors (primary backup : Store) : Prop where
  profiles : backup.profiles = primary.profiles
  allocated : backup.allocated = primary.allocated
  objects : ∀ ref, Mirrored (primary.objects ref) (backup.objects ref)

theorem mirrors_empty : Mirrors Store.empty Store.empty where
  profiles := rfl
  allocated := rfl
  objects _ := mirrored_new []

section Store

variable {primary backup primaryAfter backupAfter : Store}

theorem Mirrors.getProfileById (hmirrors : Mirrors primary backup)
    (profileId : ByteString) :
    backup.getProfileById profileId = primary.getProfileById profileId := by
  rw [Store.getProfileById, hmirrors.profiles, Store.getProfileById]

theorem Mirrors.followerIds (hmirrors : Mirrors primary backup)
    (ref : ProfileRef) : backup.followerIds ref = primary.followerIds ref := by
  simp only [Store.followerIds, (hmirrors.objects _).followers,
    (hmirrors.objects _).profileId]

theorem Mirrors.toJson (hmirrors : Mirrors primary backup) :
    backup.toJson = primary.toJson := by
  simp only [Store.toJson, hmirrors.profiles, hmirrors.followerIds]

theorem Mirrors.sameMemory (hmirrors : Mirrors primary backup)
    (hprimary : Store.SameMemory primary primaryAfter)
    (hbackup : Store.SameMemory backup backupAfter) :
    Mirrors primaryAfter backupAfter where
  profiles := by rw [hbackup.profiles, hprimary.profiles, hmirrors.profiles]
  allocated := by rw [hbackup.allocated, hprimary.allocated, hmirrors.allocated]
  objects ref := by
    rw [hbackup.objects, hprimary.objects]
    exact hmirrors.objects ref

theorem Mirrors.update (hmirrors : Mirrors primary backup) (ref : ProfileRef)
    {change relayed : Profile → Profile}
    (hmirrored : Mirrored (change (primary.objects ref))
      (relayed (backup.objects ref))) :
    Mirrors (primary.update ref change) (backup.update ref relayed) where
  profiles := hmirrors.profiles
  allocated := hmirrors.allocated
  objects other := by
    by_cases hother : other = ref
    · subst other
      rw [Store.update_objects_self, Store.update_objects_self]
      exact hmirrored
    · rw [Store.update_objects_of_ne _ _ _ hother,
        Store.update_objects_of_ne _ _ _ hother]
      exact hmirrors.objects other

/-- Writing the file succeeds on both sides or on none. -/
theorem Mirrors.toJsonFile (hmirrors : Mirrors primary backup) :
    backup.toJsonFile.1 = primary.toJsonFile.1 ∧
      Mirrors primary.toJsonFile.2 backup.toJsonFile.2 := by
  refine ⟨?_, hmirrors.sameMemory primary.toJsonFile_sameMemory
    backup.toJsonFile_sameMemory⟩
  by_cases hdump : primary.toJson.dumpable = true
  · rw [primary.toJsonFile_of_dumpable hdump,
      backup.toJsonFile_of_dumpable (hmirrors.toJson ▸ hdump)]
  · rw [primary.toJsonFile_of_not_dumpable hdump,
      backup.toJsonFile_of_not_dumpable (hmirrors.toJson ▸ hdump)]

theorem Mirrors.created (hmirrors : Mirrors primary backup)
    (profileId : ByteString) :
    Mirrors (primary.created profileId) (backup.created profileId) where
  profiles := by
    change backup.profiles.insert profileId backup.allocated =
      primary.profiles.insert profileId primary.allocated
    rw [hmirrors.profiles, hmirrors.allocated]
  allocated := congrArg (· + 1) hmirrors.allocated
  objects ref := by
    rw [created_objects, created_objects, hmirrors.allocated]
    split
    · exact mirrored_new profileId
    · exact hmirrors.objects ref

theorem Mirrors.findOrCreate (hmirrors : Mirrors primary backup)
    {profileId : ByteString} {conn : Conn} {time relayTime : BitVec 64}
    {ref : ProfileRef}
    (hfind : primary.findOrCreate profileId (some conn) time =
      (.ok ref, primaryAfter)) :
    ∃ backupAfter, backup.findOrCreate profileId none relayTime =
      (.ok ref, backupAfter) ∧ Mirrors primaryAfter backupAfter := by
  cases hlookup : primary.getProfileById profileId with
  | some known =>
      have hlookup' := (hmirrors.getProfileById profileId).trans hlookup
      by_cases hfull : (primary.objects known).sessionsOn = maxSessions
      · rw [primary.findOrCreate_of_full hlookup hfull] at hfind
        cases hfind
      · rw [primary.findOrCreate_of_room hlookup hfull] at hfind
        cases hfind
        rw [← (hmirrors.objects ref).sessionsOn] at hfull
        exact ⟨backup, backup.findOrCreate_of_room hlookup' hfull none relayTime,
          hmirrors⟩
  | none =>
      have hlookup' := (hmirrors.getProfileById profileId).trans hlookup
      obtain ⟨hresult, hwritten⟩ := (hmirrors.created profileId).toJsonFile
      rw [primary.findOrCreate_of_unknown hlookup] at hfind
      rw [backup.findOrCreate_of_unknown hlookup', hresult, hmirrors.allocated]
      obtain ⟨hok, rfl⟩ := Prod.mk.inj hfind
      rw [hok]
      exact ⟨_, rfl, hwritten⟩

/-- The backup follows a login with a null connection. -/
theorem Mirrors.createProfileIfNotExists (hmirrors : Mirrors primary backup)
    {profileId : ByteString} {conn : Conn} {time relayTime : BitVec 64}
    {ref : ProfileRef}
    (hcreate : primary.createProfileIfNotExists profileId (some conn) time =
      (.ok ref, primaryAfter)) :
    ∃ backupAfter,
      backup.createProfileIfNotExists profileId none relayTime =
        (.ok ref, backupAfter) ∧ Mirrors primaryAfter backupAfter := by
  obtain ⟨found, hfind, rfl⟩ := Store.createProfileIfNotExists_ok_iff.1 hcreate
  obtain ⟨relayed, hrelayed, hfound⟩ := hmirrors.findOrCreate hfind
  refine ⟨relayed.incSessionsOn ref none, ?_, ?_⟩
  · exact Store.createProfileIfNotExists_ok_iff.2 ⟨relayed, hrelayed, rfl⟩
  · exact hfound.update ref ((hfound.objects ref).incSessionsOn conn)

theorem Mirrors.addFollowerTo (hmirrors : Mirrors primary backup)
    {followed : ByteString} {follower : ProfileRef}
    (hfollow : primary.addFollowerTo followed (some follower) =
      (.ok (), primaryAfter)) :
    ∃ backupAfter, backup.addFollowerTo followed (some follower) =
        (.ok (), backupAfter) ∧ Mirrors primaryAfter backupAfter := by
  simp only [Store.addFollowerTo, (hmirrors.objects follower).profileId,
    hmirrors.getProfileById, hmirrors.followerIds] at hfollow ⊢
  by_cases hself : (primary.objects follower).profileId = followed
  · rw [if_pos hself] at hfollow ⊢
    cases hfollow
    exact ⟨backup, rfl, hmirrors⟩
  rw [if_neg hself] at hfollow ⊢
  cases htarget : primary.getProfileById followed with
  | none =>
      rw [htarget] at hfollow
      cases hfollow
      exact ⟨backup, rfl, hmirrors⟩
  | some target =>
      rw [htarget] at hfollow
      dsimp only at hfollow ⊢
      by_cases hfollows :
          (primary.objects follower).profileId ∈ primary.followerIds target
      · rw [if_pos hfollows] at hfollow ⊢
        cases hfollow
        exact ⟨backup, rfl, hmirrors⟩
      · rw [if_neg hfollows] at hfollow ⊢
        have hpushed : Mirrors (primary.pushFollower target follower)
            (backup.pushFollower target follower) :=
          hmirrors.update target ((hmirrors.objects target).pushFollower follower)
        obtain ⟨hresult, hwritten⟩ := hpushed.toJsonFile
        rw [hfollow] at hresult hwritten
        exact ⟨(backup.pushFollower target follower).toJsonFile.2,
          Prod.ext hresult rfl, hwritten⟩

theorem Mirrors.sendOrInsertInbox (hmirrors : Mirrors primary backup)
    (ref : ProfileRef) {sent relayed : Message}
    (hpacket : relayed.packet = sent.packet) :
    Mirrors (primary.sendOrInsertInbox ref sent)
      (backup.sendOrInsertInbox ref relayed) := by
  have hupdate : Mirrors
      (primary.update ref fun _ => ((primary.objects ref).sendOrInsertInbox
        sent).1)
      (backup.update ref fun _ => ((backup.objects ref).sendOrInsertInbox
        relayed).1) :=
    hmirrors.update ref ((hmirrors.objects ref).sendOrInsertInbox hpacket)
  exact ⟨hupdate.profiles, hupdate.allocated, hupdate.objects⟩

theorem Mirrors.sendToFollowersOf (hmirrors : Mirrors primary backup)
    (profile : ProfileRef) {sent relayed : Message}
    (hpacket : relayed.packet = sent.packet) :
    Mirrors (primary.sendToFollowersOf (some profile) sent).2
      (backup.sendToFollowersOf (some profile) relayed).2 := by
  change Mirrors (List.foldl _ primary (primary.objects profile).followers)
    (List.foldl _ backup (backup.objects profile).followers)
  rw [(hmirrors.objects profile).followers]
  generalize (primary.objects profile).followers = followers
  induction followers generalizing primary backup with
  | nil => exact hmirrors
  | cons follower followers ih =>
      exact ih (hmirrors.sendOrInsertInbox follower hpacket)

theorem Mirrors.decSessionsOn (hmirrors : Mirrors primary backup)
    {ref : ProfileRef} {conn : Conn}
    (hsession : some conn ∈ (primary.objects ref).sessions) :
    Mirrors (primary.decSessionsOn ref (some conn))
      (backup.decSessionsOn ref none) :=
  hmirrors.update ref ((hmirrors.objects ref).decSessionsOn hsession)

/-- The primary drains an inbox alone, and never into a null session. -/
theorem Mirrors.fetchInboxContent (hmirrors : Mirrors primary backup)
    (ref : ProfileRef) :
    (primary.fetchInboxContent ref).1 = .ok () ∧
      Mirrors (primary.fetchInboxContent ref).2 backup := by
  have hmirrored := hmirrors.objects ref
  constructor
  · rw [Store.fetchInboxContent, fetchInboxContent_of_noNull hmirrored.live]
  · have hupdate : Mirrors (primary.update ref fun _ =>
        (primary.objects ref).fetchInboxContent.2.1)
        (backup.update ref fun profile => profile) :=
      hmirrors.update ref hmirrored.fetchInboxContent
    have hself : backup.update ref (fun profile => profile) = backup := by
      simp [Store.update]
    rw [hself] at hupdate
    exact ⟨hupdate.profiles, hupdate.allocated, hupdate.objects⟩

end Store

end TwitterLike.Mirror
