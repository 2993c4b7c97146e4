import TwitterLike.Server.ThreadTransitions

/-!
# The follow graph under interleaving

What a step of a thread does to the follow graph: nothing, or it registers an
id, or it adds an edge, and then it was granted the write lock.  The store stays
well formed, every profile that a thread works on stays in the map, and no id
and no edge is ever removed.
-/

namespace TwitterLike.Threads

open TwitterLike.ByteBuffer
open TwitterLike.PacketFormat
open TwitterLike.Profiles
open TwitterLike.ProfilesManager
open TwitterLike.ProfileAccessController
open TwitterLike.Handlers
open TwitterLike.FollowGraph

/-- The effect of one step on the follow graph. -/
inductive GraphStep (system next : System) : Prop where
  | same (hsame : SameGraph system.store next.store)
  | created (profileId : ByteString)
      (hwritable : system.controller.writable = true)
      (hunknown : system.store.getProfileById profileId = none)
      (hsame : Store.SameMemory (system.store.created profileId) next.store)
  | pushed (conn : Conn) (followed : ByteString) (target follower : ProfileRef)
      (hpoint : system.threads conn = .looping follower)
      (hwritable : system.controller.writable = true)
      (htarget : system.store.getProfileById followed = some target)
      (hself : (system.store.objects follower).profileId ≠ followed)
      (hnew : (system.store.objects follower).profileId ∉
        system.store.followerIds target)
      (hsame : Store.SameMemory (system.store.pushFollower target follower)
        next.store)

section Steps

variable {system next : System} {conn : Conn} {time : BitVec 64}
  {action : Action}

theorem graphStep_of_objects
    (hobjects : next.store.objects = system.store.objects)
    (hprofiles : next.store.profiles = system.store.profiles)
    (hallocated : next.store.allocated = system.store.allocated) :
    GraphStep system next :=
  .same ⟨hprofiles, hallocated, fun ref => by rw [hobjects],
    fun ref => by rw [hobjects]⟩

theorem allocated_le (hgraph : GraphStep system next) :
    system.store.allocated ≤ next.store.allocated := by
  cases hgraph with
  | same hsame => exact hsame.allocated.ge
  | created _ _ _ hsame =>
      rw [hsame.allocated]
      exact Nat.le_succ _
  | pushed _ _ _ _ _ _ _ _ _ hsame => exact hsame.allocated.ge

theorem graphStep_of_addFollowerTo {followed : ByteString}
    {profile : ProfileRef} {result : Except Exit Unit} {store : Store}
    (hpoint : system.threads conn = .looping profile)
    (hwritable : system.controller.writable = true)
    (hfollow : system.store.addFollowerTo followed (some profile) =
      (result, store)) (hstore : next.store = store) :
    GraphStep system next := by
  rcases system.store.addFollowerTo_cases followed profile with
    hkeep | ⟨target, htarget, hself, hnew, hpush⟩
  · rw [hkeep] at hfollow
    cases hfollow
    exact .same (hstore ▸ .refl _)
  · have hsame := Store.toJsonFile_sameMemory
      (system.store.pushFollower target profile)
    rw [← hpush, hfollow, ← hstore] at hsame
    exact .pushed conn followed target profile hpoint hwritable htarget hself
      hnew hsame

theorem graphStep_of_findOrCreate {profileId : ByteString} {store : Store}
    {result : Except Exit ProfileRef}
    (hwritable : system.controller.writable = true)
    (hfind : system.store.findOrCreate profileId (some conn) time =
      (result, store)) (hstore : next.store = store) :
    GraphStep system next := by
  subst hstore
  cases result with
  | ok profile =>
      rcases Store.findOrCreate_ok _ hfind with ⟨_, _, hsame⟩ | ⟨hnone, _, hsame⟩
      · exact .same (hsame ▸ .refl _)
      · exact .created profileId hwritable hnone hsame
  | error exit =>
      rcases Store.findOrCreate_error _ hfind with
        ⟨_, _, hrefused⟩ | ⟨_, hnone, hsame⟩
      · exact graphStep_of_objects (by rw [hrefused]; rfl)
          (by rw [hrefused]; rfl) (by rw [hrefused]; rfl)
      · exact .created profileId hwritable hnone hsame

theorem graphStep_of_transition
    (htransition : Transition system conn time action next) :
    GraphStep system next := by
  cases htransition with
  | found henter hcmd hwritable hfind =>
      exact graphStep_of_findOrCreate hwritable hfind rfl
  | refused henter hcmd hwritable hfind =>
      exact graphStep_of_findOrCreate hwritable hfind rfl
  | findFailed henter hcmd hwritable hfind hexit =>
      exact graphStep_of_findOrCreate hwritable hfind rfl
  | followed hpoint hcmd hwritable hfollow =>
      exact graphStep_of_addFollowerTo hpoint hwritable hfollow rfl
  | followFailed hpoint hcmd hwritable hfollow =>
      exact graphStep_of_addFollowerTo hpoint hwritable hfollow rfl
  | reconnected hpoint => exact .same (updateSessionsOn_sameGraph _ _ _)
  | registered hpoint => exact .same (incSessionsOn_sameGraph _ _ _)
  | left hpoint hcmd => exact .same (decSessionsOn_sameGraph _ _ _)
  | sent hpoint hfollower => exact .same (sendOrInsertInbox_sameGraph _ _ _)
  | fetched hpoint hfetch => exact .same (fetchInboxContent_sameGraph _ _)
  | fetchFailed hpoint hfetch => exact .same (fetchInboxContent_sameGraph _ _)
  | _ => exact graphStep_of_objects rfl rfl rfl

end Steps

/-! ## Profiles at work -/

/-- The profiles that a thread at this point holds a pointer to. -/
def Mentions : Point → ProfileRef → Prop
  | .reconnecting profile, ref => ref = profile
  | .registering profile _ next, ref => ref = profile ∨ next = .greet ref ∨
      next = .loop ref
  | .sending profile _ _, ref => ref = profile
  | .forwarding _ _ next, ref => next = .greet ref ∨ next = .loop ref
  | .greeting profile, ref => ref = profile
  | .fetching profile, ref => ref = profile
  | .looping profile, ref => ref = profile
  | _, _ => False

theorem mentions_next {next : Next} {ref : ProfileRef}
    (hmentions : Mentions next.point ref) :
    next = .greet ref ∨ next = .loop ref := by
  cases next with
  | greet profile => exact .inl (hmentions ▸ rfl)
  | loop profile => exact .inr (hmentions ▸ rfl)
  | quit => exact hmentions.elim
  | leave => exact hmentions.elim

/-- The object is the one stored in the map under its id. -/
def Known (store : Store) (ref : ProfileRef) : Prop :=
  store.getProfileById (store.objects ref).profileId = some ref

theorem Known.of_sameGraph {store after : Store} {ref : ProfileRef}
    (hknown : Known store ref) (hsame : SameGraph store after) :
    Known after ref := by
  rw [Known, hsame.profileId, hsame.getProfileById]
  exact hknown

theorem known_of_found {store : Store} (hwf : WellFormed store)
    {profileId : ByteString} {ref : ProfileRef}
    (hfound : store.getProfileById profileId = some ref) : Known store ref := by
  rw [Known, hwf.ids profileId ref hfound]
  exact hfound

theorem Known.created {store : Store} (hwf : WellFormed store)
    {ref : ProfileRef} (hknown : Known store ref) {profileId : ByteString}
    (hunknown : store.getProfileById profileId = none) :
    Known (store.created profileId) ref := by
  have hne : profileId ≠ (store.objects ref).profileId := by
    intro heq
    rw [heq, hknown] at hunknown
    cases hunknown
  rw [Known, created_objects_of_lt profileId (hwf.allocated _ ref hknown),
    created_getProfileById, if_neg hne]
  exact hknown

theorem known_allocated {store : Store} (profileId : ByteString) :
    Known (store.created profileId) store.allocated := by
  rw [Known, created_objects, if_pos rfl, created_getProfileById]
  exact if_pos rfl

theorem Known.pushFollower {store : Store} {ref target follower : ProfileRef}
    (hknown : Known store ref) :
    Known (store.pushFollower target follower) ref := by
  rw [Known, pushFollower_profileId]
  exact hknown

/-- The store represents a graph, and the threads work on profiles of it. -/
structure GraphInvariant (system : System) : Prop where
  wellFormed : WellFormed system.store
  known : ∀ conn ref, Mentions (system.threads conn) ref →
    Known system.store ref

theorem graphInvariant_start : GraphInvariant System.start where
  wellFormed := wellFormed_empty
  known _ _ hmentions := hmentions.elim

section Invariant

variable {system next : System} {conn : Conn} {time : BitVec 64}
  {action : Action}

theorem GraphStep.wellFormed (hgraph : GraphStep system next)
    (hinvariant : GraphInvariant system) : WellFormed next.store := by
  have hwf := hinvariant.wellFormed
  cases hgraph with
  | same hsame => exact hsame.wellFormed hwf
  | created profileId hwritable hunknown hsame =>
      exact (SameGraph.of_sameMemory hsame).wellFormed
        (wellFormed_created profileId hwf hunknown)
  | pushed conn followed target follower hpoint hwritable htarget hself hnew
      hsame =>
      have hknown := hinvariant.known conn follower (by rw [hpoint]; rfl)
      rw [← hwf.ids followed target htarget] at hself
      exact (SameGraph.of_sameMemory hsame).wellFormed
        (wellFormed_pushFollower hwf hknown hself hnew)

theorem GraphStep.known (hgraph : GraphStep system next)
    (hwf : WellFormed system.store) {ref : ProfileRef}
    (hknown : Known system.store ref) : Known next.store ref := by
  cases hgraph with
  | same hsame => exact hknown.of_sameGraph hsame
  | created profileId hwritable hunknown hsame =>
      exact (hknown.created hwf hunknown).of_sameGraph (.of_sameMemory hsame)
  | pushed conn followed target follower hpoint hwritable htarget hself hnew
      hsame =>
      exact hknown.pushFollower.of_sameGraph (.of_sameMemory hsame)

theorem GraphInvariant.keep (hinvariant : GraphInvariant system)
    (hgraph : GraphStep system next)
    (hpoints : ∀ other ref, Mentions (next.threads other) ref →
      Known next.store ref ∨ Mentions (system.threads other) ref) :
    GraphInvariant next where
  wellFormed := hgraph.wellFormed hinvariant
  known other ref hmentions := by
    rcases hpoints other ref hmentions with hknown | hold
    · exact hknown
    · exact hgraph.known hinvariant.wellFormed (hinvariant.known other ref hold)

/-- Only the thread that steps can work on a new profile. -/
theorem GraphInvariant.move {middle : System} {point : Point}
    (hinvariant : GraphInvariant system)
    (hgraph : GraphStep system (middle.goto conn point))
    (hthreads : middle.threads = system.threads)
    (hpoint : ∀ ref, Mentions point ref →
      Known middle.store ref ∨ Mentions (system.threads conn) ref) :
    GraphInvariant (middle.goto conn point) := by
  apply hinvariant.keep hgraph
  intro other ref hmentions
  rcases middle.goto_threads_cases conn point other with
    ⟨rfl, hgoto⟩ | ⟨_, hgoto⟩
  · rw [hgoto] at hmentions
    exact hpoint ref hmentions
  · rw [hgoto, hthreads] at hmentions
    exact .inr hmentions

/-- The thread keeps working on the profiles it has. -/
theorem GraphInvariant.stay {middle : System} {point : Point}
    (hinvariant : GraphInvariant system)
    (hgraph : GraphStep system (middle.goto conn point))
    (hthreads : middle.threads = system.threads) {before : Point}
    (hbefore : system.threads conn = before)
    (hpoint : ∀ ref, Mentions point ref → Mentions before ref) :
    GraphInvariant (middle.goto conn point) :=
  hinvariant.move hgraph hthreads fun ref hmentions =>
    .inr (hbefore ▸ hpoint ref hmentions)

theorem GraphInvariant.found (hinvariant : GraphInvariant system)
    {packet : Packet} {continuation : ProfileRef → Next} {profile : ProfileRef}
    {store : Store} (henter : Enters (system.threads conn) continuation)
    (hfind : system.store.findOrCreate packet.payload (some conn) time =
      (.ok profile, store))
    (hgraph : GraphStep system ((system.locked store).goto conn
      (.registering profile packet (continuation profile)))) :
    GraphInvariant ((system.locked store).goto conn
      (.registering profile packet (continuation profile))) := by
  have hknown : Known store profile := by
    rcases Store.findOrCreate_ok _ hfind with
      ⟨hfound, _, rfl⟩ | ⟨_, rfl, hsame⟩
    · exact known_of_found hinvariant.wellFormed hfound
    · exact (known_allocated _).of_sameGraph (.of_sameMemory hsame)
  refine hinvariant.move hgraph rfl fun ref hmentions => ?_
  generalize system.threads conn = point at henter
  cases henter with
  | first =>
      rcases hmentions with rfl | hnext | hnext
      · exact .inl hknown
      · cases hnext
        exact .inl hknown
      · cases hnext
  | again session =>
      rcases hmentions with rfl | hnext | hnext
      · exact .inl hknown
      · cases hnext
      · cases hnext
        exact .inr rfl

theorem GraphInvariant.step (hinvariant : GraphInvariant system)
    (htransition : Transition system conn time action next) :
    GraphInvariant next := by
  have hgraph := graphStep_of_transition htransition
  cases htransition with
  | found henter hcmd hwritable hfind =>
      exact hinvariant.found henter hfind hgraph
  | refused henter hcmd hwritable hfind =>
      exact hinvariant.move hgraph rfl fun ref hmentions => hmentions.elim
  | findFailed henter hcmd hwritable hfind hexit =>
      exact hinvariant.keep hgraph fun _ _ => .inr
  | joined hpoint hcmd =>
      exact hinvariant.stay hgraph rfl hpoint fun _ => id
  | senderFound hpoint hprofile hbackup hfound =>
      refine hinvariant.move hgraph rfl fun ref hmentions => .inl ?_
      cases hmentions
      exact known_of_found hinvariant.wellFormed hfound
  | senderUnknown => exact hinvariant.keep hgraph fun _ _ => .inr
  | reconnected hpoint => exact hinvariant.stay hgraph rfl hpoint fun _ => id
  | addressPushed hpoint => exact hinvariant.stay hgraph rfl hpoint fun _ => id
  | propagated hpoint =>
      refine hinvariant.stay hgraph rfl hpoint fun ref hmentions => ?_
      rcases hmentions with hnext | hnext <;> cases hnext
  | registered hpoint =>
      exact hinvariant.stay hgraph rfl hpoint fun _ => .inr
  | forwarded hpoint hbackup =>
      exact hinvariant.stay hgraph rfl hpoint fun _ => id
  | forwardDone hpoint hlast =>
      exact hinvariant.stay hgraph rfl hpoint fun _ => mentions_next
  | greeted hpoint => exact hinvariant.stay hgraph rfl hpoint fun _ => id
  | fetched hpoint hfetch => exact hinvariant.stay hgraph rfl hpoint fun _ => id
  | fetchFailed => exact hinvariant.keep hgraph fun _ _ => .inr
  | followed hpoint hcmd hwritable hfollow =>
      refine hinvariant.stay hgraph rfl hpoint fun ref hmentions => ?_
      rcases hmentions with hnext | hnext <;> cases hnext
      rfl
  | followFailed => exact hinvariant.keep hgraph fun _ _ => .inr
  | sendBegun hpoint hcmd hwritable =>
      exact hinvariant.stay hgraph rfl hpoint fun _ => id
  | sent hpoint hfollower => exact hinvariant.stay hgraph rfl hpoint fun _ => id
  | sendDone hpoint hlast =>
      refine hinvariant.stay hgraph rfl hpoint fun ref hmentions => ?_
      rcases hmentions with hnext | hnext <;> cases hnext
      rfl
  | left hpoint hcmd =>
      refine hinvariant.stay hgraph rfl hpoint fun ref hmentions => ?_
      rcases hmentions with hnext | hnext <;> cases hnext
  | listReplaced => exact hinvariant.keep hgraph fun _ _ => .inr
  | ignored => exact hinvariant.keep hgraph fun _ _ => .inr
  | loopLeft hpoint hclosed =>
      exact hinvariant.stay hgraph rfl hpoint fun _ hmentions => hmentions.elim
  | closed hpoint => exact hinvariant.stay hgraph rfl hpoint fun _ => id

end Invariant

end TwitterLike.Threads
