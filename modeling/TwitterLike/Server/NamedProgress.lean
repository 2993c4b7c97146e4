import TwitterLike.Server.Naming
import TwitterLike.Server.ServerProgress

/-!
# Progress for named clients

Clients that introduce themselves with names that can be written to the file do not
bring the process down, a thread ends only when its client has asked for it, and
what a thread has in front of it is bounded by the number of followers.
-/

namespace TwitterLike.NamedProgress

open TwitterLike.ByteBuffer
open TwitterLike.PacketFormat
open TwitterLike.Profiles
open TwitterLike.ProfilesManager
open TwitterLike.JsonDump (dumps)
open TwitterLike.FollowGraph
open TwitterLike.Threads
open TwitterLike.Naming
open TwitterLike.LockHolders
open TwitterLike.ServerProgress (cost cost_lt_of_transition)

variable {name : Conn → ByteString} {system next : System} {conn : Conn}
  {time : BitVec 64} {action : Action}

/-! ## The process goes on -/

/-- Every id in the map can be written to the file. -/
def Dumping (store : Store) : Prop :=
  ∀ (profileId : ByteString) (ref : ProfileRef),
    store.getProfileById profileId = some ref → dumps profileId = true

theorem dumpable_of_dumping {store : Store} (hdumping : Dumping store)
    (hwf : WellFormed store) : store.toJson.dumpable = true := by
  rw [Store.dumpable_toJson_iff]
  intro profileId ref hentry
  refine ⟨hdumping profileId ref hentry, fun follower hfollower => ?_⟩
  obtain ⟨object, hobject, rfl⟩ := List.mem_map.1 hfollower
  exact hdumping _ object (hwf.followers ref object hobject)

theorem Dumping.created {store after : Store} (hdumping : Dumping store)
    {profileId : ByteString} (hdumps : dumps profileId = true)
    (hsame : Store.SameMemory (store.created profileId) after) : Dumping after := by
  intro key ref hentry
  rw [(SameGraph.of_sameMemory hsame).getProfileById, created_getProfileById] at hentry
  split at hentry
  · next heq => exact heq ▸ hdumps
  · exact hdumping key ref hentry

theorem Dumping.of_sameGraph {store after : Store} (hdumping : Dumping store)
    (hsame : SameGraph store after) : Dumping after := by
  intro key ref hentry
  rw [hsame.getProfileById] at hentry
  exact hdumping key ref hentry

theorem Dumping.addFollowerTo {store after : Store} (hdumping : Dumping store)
    {followed : ByteString} {profile : ProfileRef} {result : Except Exit Unit}
    (hfollow : store.addFollowerTo followed (some profile) = (result, after)) :
    Dumping after := by
  rcases store.addFollowerTo_cases followed profile with
    hkeep | ⟨target, _, _, _, hpush⟩
  · rw [hkeep] at hfollow
    cases hfollow
    exact hdumping
  · have hsame := Store.toJsonFile_sameMemory (store.pushFollower target profile)
    rw [← hpush, hfollow] at hsame
    intro key ref hentry
    rw [(SameGraph.of_sameMemory hsame).getProfileById] at hentry
    exact hdumping key ref hentry

/-- A name that can be written is not refused by the file. -/
theorem findOrCreate_ne_exception {store after : Store} (hwf : WellFormed store)
    (hdumping : Dumping store) {profileId : ByteString} (hdumps : dumps profileId = true)
    {exit : Exit} (hfind : store.findOrCreate profileId (some conn) time =
      (.error exit, after)) : exit = .threadExit := by
  rcases Store.findOrCreate_error _ hfind with ⟨hexit, _⟩ | ⟨_, hunknown, _⟩
  · exact hexit
  · have hdumpable := (Store.dumpable_created_iff hwf.noDangling hunknown).2
      ⟨dumpable_of_dumping hdumping hwf, hdumps⟩
    rw [store.findOrCreate_of_unknown hunknown, Store.toJsonFile_of_dumpable _ hdumpable]
      at hfind
    cases hfind

theorem addFollowerTo_ne_error {store after : Store} (hwf : WellFormed store)
    (hdumping : Dumping store) {followed : ByteString} {profile : ProfileRef}
    (hdumps : dumps (store.objects profile).profileId = true) {exit : Exit}
    (hfollow : store.addFollowerTo followed (some profile) = (.error exit, after)) :
    False := by
  rcases store.addFollowerTo_cases followed profile with
    hkeep | ⟨target, htarget, _, _, hpush⟩
  · cases hkeep.symm.trans hfollow
  · have hdumpable := (Store.dumpable_pushFollower_iff htarget profile).2
      ⟨dumpable_of_dumping hdumping hwf, hdumps⟩
    have hwritten := Store.toJsonFile_of_dumpable _ hdumpable
    rw [← hpush, hfollow] at hwritten
    cases hwritten

/-- A step of a named client does not end the process. -/
theorem survives_of_transition (hnamed : Named name system)
    (hdumping : Dumping system.store) (hdumps : ∀ conn, dumps (name conn) = true)
    (hintroduces : Introduces name system ⟨conn, time, action⟩)
    (htransition : Transition system conn time action next) :
    next.down = system.down ∧ Dumping next.store := by
  have hwf := hnamed.base.graph.wellFormed
  have hname {packet : Packet} {continuation : ProfileRef → Next}
      (hintroduces : Introduces name system ⟨conn, time, .receive packet⟩)
      (henter : Enters (system.threads conn) continuation)
      (hcmd : packet.cmd = .profile) : dumps packet.payload = true := by
    rw [payload_of_enters hintroduces henter hcmd]
    exact hdumps conn
  cases htransition with
  | found henter hcmd _ hfind =>
      refine ⟨rfl, ?_⟩
      rcases Store.findOrCreate_ok _ hfind with ⟨_, _, rfl⟩ | ⟨_, _, hsame⟩
      · exact hdumping
      · exact hdumping.created (hname hintroduces henter hcmd) hsame
  | refused henter hcmd _ hfind =>
      refine ⟨rfl, ?_⟩
      rcases Store.findOrCreate_error _ hfind with ⟨_, _, rfl⟩ | ⟨hexit, _⟩
      · exact hdumping
      · cases hexit
  | findFailed henter hcmd _ hfind hexit =>
      exact absurd (findOrCreate_ne_exception hwf hdumping
        (hname hintroduces henter hcmd) hfind) hexit
  | senderFound hpoint hprofile | senderUnknown hpoint hprofile =>
      exact absurd (introduces_first hintroduces hpoint).1 hprofile
  | followed _ _ _ hfollow => exact ⟨rfl, hdumping.addFollowerTo hfollow⟩
  | @followFailed _ profile _ _ hpoint _ _ hfollow =>
      have hbound := hnamed.mentions conn profile (by rw [hpoint]; rfl)
      refine (addFollowerTo_ne_error hwf hdumping ?_ hfollow).elim
      rw [hnamed.profileId_eq hbound]
      exact hdumps conn
  | @fetchFailed profile exit hpoint hfetch =>
      have hok := fetchInboxContent_of_noNull (hnamed.base.sessions.live profile)
      rw [Store.fetchInboxContent, hok] at hfetch
      cases hfetch
  | reconnected => exact ⟨rfl, hdumping.of_sameGraph (updateSessionsOn_sameGraph _ _ _)⟩
  | registered => exact ⟨rfl, hdumping.of_sameGraph (incSessionsOn_sameGraph _ _ _)⟩
  | left => exact ⟨rfl, hdumping.of_sameGraph (decSessionsOn_sameGraph _ _ _)⟩
  | sent => exact ⟨rfl, hdumping.of_sameGraph (sendOrInsertInbox_sameGraph _ _ _)⟩
  | fetched => exact ⟨rfl, hdumping.of_sameGraph (fetchInboxContent_sameGraph _ _)⟩
  | _ => exact ⟨rfl, hdumping⟩

/-! ## The end of a thread -/

/-- The thread has left its loop, or is a backup's. -/
def Quitting : Point → Prop
  | .joining _ | .propagating | .closing | .ended => True
  | .forwarding _ _ .quit | .forwarding _ _ .leave => True
  | _ => False

/-- A thread leaves its loop by the `CLOSE_CONN` of its client, unless the login is
refused. -/
theorem quits_of_transition (hnamed : Named name system)
    (hintroduces : Introduces name system ⟨conn, time, action⟩)
    (hadmitted : ¬ Refuses system ⟨conn, time, action⟩)
    (htransition : Transition system conn time action next)
    (hquits : Quitting (next.threads conn)) :
    Quitting (system.threads conn) ∨
      ∃ packet, action = .receive packet ∧ packet.cmd = .closeConn := by
  have hgoto {middle : System} {point : Point}
      (hnext : next = middle.goto conn point) : Quitting point := by
    rwa [hnext, System.goto_threads_self] at hquits
  cases htransition with
  | refused _ hcmd _ hfind => exact absurd (refuses_of_refused hcmd hfind) hadmitted
  | joined hpoint hcmd => cases hcmd.symm.trans (introduces_first hintroduces hpoint).1
  | loopLeft hpoint hclosed =>
      cases hpoint.symm.trans (hnamed.base.sessions.closed conn hclosed)
  | left _ hcmd => exact .inr ⟨_, rfl, hcmd⟩
  | @registered profile packet continuation hpoint =>
      have hlogin := hnamed.base.sessions.logins conn
      rw [hpoint] at hlogin
      have hgreet : continuation = .greet profile := hlogin
      subst hgreet
      exact (hgoto rfl).elim
  | @forwarded packet index continuation _ hpoint
  | @forwardDone packet index continuation hpoint =>
      have hafter := hgoto rfl
      rw [hpoint]
      cases continuation with
      | greet | loop => exact hafter.elim
      | quit | leave => exact .inl trivial
  | addressPushed hpoint | propagated hpoint | closed hpoint =>
      exact .inl (hpoint ▸ trivial)
  | findFailed | senderUnknown | fetchFailed | followFailed | listReplaced
  | ignored => exact .inl hquits
  | found | senderFound | reconnected | greeted | fetched | followed | sendBegun
  | sent | sendDone => exact (hgoto rfl).elim

/-! ## What is in front of a thread -/

/-- The steps that a thread has in front of it when nobody has more followers. -/
def reach (most : ℕ) (point : Point) : ℕ := cost 0 (fun _ => most) point

theorem reach_le (most : ℕ) (point : Point) : reach most point ≤ most + 7 := by
  cases point <;> simp only [reach, cost] <;> omega

theorem reach_lt_of_transition {most : ℕ} (hnamed : Named name system)
    (hmost : ∀ ref, (system.store.objects ref).followers.length ≤ most)
    (htransition : Transition system conn time .proceed next) :
    reach most (next.threads conn) < reach most (system.threads conn) := by
  have hbackups : system.server.listBackups.length ≤ 0 := by rw [hnamed.noBackups]; rfl
  exact (cost_lt_of_transition hnamed.base.sessions.live hbackups hmost htransition).2

end TwitterLike.NamedProgress
