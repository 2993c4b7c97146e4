import Mathlib.Data.List.ReduceOption
import TwitterLike.Server.Sessions

/-!
# Stale and shared sessions

Clients that log in with their first packet and then send what they like.  A
connection is in one sessions vector at most and in none once it is closed, as
long as no thread gets past the search for a profile with a `PROFILE` packet
received in its session.
-/

namespace TwitterLike.SessionSharing

open TwitterLike.ByteBuffer
open TwitterLike.PacketFormat
open TwitterLike.Profiles
open TwitterLike.ProfilesManager
open TwitterLike.Handlers
open TwitterLike.Transition
open TwitterLike.Threads
open TwitterLike.SessionAccounting
open TwitterLike.Sessions

/-- Taken together, the sessions vectors hold a connection at most once, and a
closed one not at all. -/
structure Unshared (store : Store) : Prop where
  once : ∀ ref conn, (store.objects ref).sessions.count (some conn) ≤ 1
  apart : ∀ left right conn, some conn ∈ (store.objects left).sessions →
    some conn ∈ (store.objects right).sessions → left = right
  closed : ∀ conn ∈ store.closed, ∀ ref,
    some conn ∉ (store.objects ref).sessions

section Passes

variable {store : Store} {ref : ProfileRef} {pass : Pass}

/-- What is sent to a profile is written to open connections only. -/
theorem Unshared.open_of_sendOrInsertInbox (hunshared : Unshared store)
    {message : Message}
    (hpass : pass ∈ ((store.objects ref).sendOrInsertInbox message).2) :
    ∀ conn ∈ pass.conns, conn ∉ store.closed := by
  intro conn hconn hclosed
  apply hunshared.closed conn hclosed ref
  unfold Profile.sendOrInsertInbox at hpass
  split at hpass
  · rw [List.mem_singleton.1 hpass, List.reduceOption_mem_iff] at hconn
    exact hconn
  · cases hpass

end Passes

/-! ## Runs of a primary -/

/-- A packet received at this point is `PROFILE` if it is the first. -/
def profileAt : Point → Action → Bool
  | .accepted, .receive packet => packet.cmd = .profile
  | _, _ => true

/-- The first packet of a connection is `PROFILE`. -/
def ProfileFirst (system : System) (label : Label) : Prop :=
  profileAt (system.threads label.conn) label.action = true

instance (system : System) (label : Label) :
    Decidable (ProfileFirst system label) :=
  inferInstanceAs (Decidable (_ = true))

structure Serving (system : System) : Prop where
  graph : GraphInvariant system
  accounts : Accounts system
  bound : BoundSessions system

theorem serving_start : Serving System.start where
  graph := graphInvariant_start
  accounts := accounts_start
  bound := boundSessions_start

section Step

variable {system next : System} {conn : Conn} {time : BitVec 64}
  {action : Action} {label : Label}

theorem firstStep_of_profileFirst
    (hfirst : ProfileFirst system ⟨conn, time, action⟩) :
    FirstStep system ⟨conn, time, action⟩ := by
  cases action with
  | proceed => trivial
  | receive packet =>
      change profileAt (system.threads conn) (.receive packet) = true at hfirst
      change FirstPacket (system.threads conn) packet.cmd
      generalize system.threads conn = point at hfirst
      cases point with
      | accepted => exact .inl (of_decide_eq_true hfirst)
      | _ => trivial

theorem Serving.step (hserving : Serving system)
    (hfirst : ProfileFirst system label) (hrelogs : ¬ Relogs system label)
    (hstep : Threads.step system label = some next) : Serving next := by
  have htransition := (transition_of_step hstep).2
  have hreconnects (profile : ProfileRef) :
      system.threads label.conn ≠ .reconnecting profile := by
    intro hpoint
    have hlogin := hserving.bound.logins label.conn
    rw [hpoint] at hlogin
    exact hlogin
  exact ⟨hserving.graph.step htransition,
    hserving.accounts.step htransition hreconnects,
    hserving.bound.step hserving.graph hserving.accounts
      (firstStep_of_profileFirst hfirst) hrelogs htransition⟩

theorem Serving.unshared (hserving : Serving system) :
    Unshared system.store where
  once ref conn := List.nodup_iff_count_le_one.1 (hserving.bound.nodup ref) _
  apart left right conn hleft hright := by
    rw [hserving.bound.member] at hleft hright
    exact Option.some.inj (hleft.symm.trans hright)
  closed conn hclosed ref hmem := by
    rw [hserving.bound.member, hserving.bound.closed conn hclosed] at hmem
    cases hmem

theorem next_of_registering {profile : ProfileRef} {packet : Packet}
    {continuation : Next}
    (hpoint : system.threads conn = .registering profile packet continuation)
    (hstep : Threads.step system ⟨conn, time, action⟩ = some next) :
    next = system.registerSession conn profile packet continuation := by
  unfold Threads.step at hstep
  split at hstep
  · dsimp only at hstep
    rw [hpoint] at hstep
    cases action with
    | receive packet => cases hstep
    | proceed =>
        cases hstep
        rfl
  · cases hstep

/-- The second login of a connection puts it into a vector besides the one of
the profile that its thread serves. -/
theorem not_unshared_of_registering (hbound : BoundSessions system)
    {profile session : ProfileRef} {packet : Packet}
    (hpoint : system.threads conn = .registering profile packet (.loop session)) :
    ¬ Unshared
      (system.registerSession conn profile packet (.loop session)).store := by
  intro hunshared
  change Unshared (system.store.incSessionsOn profile (some conn)) at hunshared
  have hmem : some conn ∈ (system.store.objects session).sessions := by
    rw [hbound.member, hpoint]
    rfl
  by_cases hsame : session = profile
  · subst hsame
    have hcount := hunshared.once session conn
    rw [Store.incSessionsOn_objects_sessions, if_pos rfl, List.count_append,
      List.count_singleton_self] at hcount
    have hpositive := List.count_pos_iff.2 hmem
    omega
  · apply hsame
    apply hunshared.apart session profile conn
    · rwa [Store.incSessionsOn_objects_sessions, if_neg hsame]
    · rw [Store.incSessionsOn_objects_sessions, if_pos rfl]
      exact List.mem_append_right _ List.mem_cons_self

/-- A refused second login closes the connection and leaves it in the vector. -/
theorem not_unshared_of_refused (hbound : BoundSessions system)
    {session ref : ProfileRef} {packet : Packet}
    (hpoint : system.threads conn = .looping session)
    (hcmd : packet.cmd = .profile)
    (hfound : system.store.getProfileById packet.payload = some ref)
    (hfull : (system.store.objects ref).sessionsOn = maxSessions)
    (hstep : Threads.step system ⟨conn, time, .receive packet⟩ = some next) :
    ¬ Unshared next.store := by
  have hmem : some conn ∈ (system.store.objects session).sessions := by
    rw [hbound.member, hpoint]
    rfl
  have hrefuse := system.store.findOrCreate_of_full hfound hfull (some conn) time
  have hnext : next.store = (system.store.refuse (some conn) time).2 := by
    rcases transition_of_step hstep with ⟨_, htransition⟩
    cases htransition with
    | found henter hprofile hwritable hfind =>
        rw [hrefuse] at hfind
        cases hfind
    | refused henter hprofile hwritable hfind =>
        rw [hrefuse] at hfind
        cases hfind
        rfl
    | findFailed henter hprofile hwritable hfind hexit =>
        rw [hrefuse] at hfind
        cases hfind
        exact absurd rfl hexit
    | joined haccepted => cases hpoint.symm.trans haccepted
    | senderFound haccepted => cases hpoint.symm.trans haccepted
    | senderUnknown haccepted => cases hpoint.symm.trans haccepted
    | followed _ hother => cases hcmd.symm.trans hother
    | followFailed _ hother => cases hcmd.symm.trans hother
    | sendBegun _ hother => cases hcmd.symm.trans hother
    | left _ hother => cases hcmd.symm.trans hother
    | listReplaced _ hother => cases hcmd.symm.trans hother
    | ignored _ hignored =>
        rw [hcmd] at hignored
        exact hignored.elim
  intro hunshared
  apply hunshared.closed conn _ session
  · rw [hnext]
    exact hmem
  · rw [hnext]
    exact List.mem_append_right _ List.mem_cons_self

theorem not_unshared_of_relogs (hserving : Serving system)
    (hrelogs : Relogs system label)
    (hstep : Threads.step system label = some next) :
    ¬ Unshared next.store := by
  obtain ⟨conn, time, action⟩ := label
  change relogsAt system.store (system.threads conn) action = true at hrelogs
  generalize hpoint : system.threads conn = point at hrelogs
  unfold relogsAt at hrelogs
  split at hrelogs
  · next profile packet session =>
      rw [next_of_registering hpoint hstep]
      exact not_unshared_of_registering hserving.bound hpoint
  · simp only [Bool.and_eq_true, decide_eq_true_eq, Option.any_eq_true] at hrelogs
    obtain ⟨hcmd, ref, hfound, hfull⟩ := hrelogs
    exact not_unshared_of_refused hserving.bound hpoint hcmd hfound hfull hstep
  · cases hrelogs

end Step

/-- Among clients that send `PROFILE` first, no connection is shared or stale in
any state of a run exactly when no step of it registers or refuses a connection
that has a session. -/
theorem unshared_throughout_iff {labels : List Label}
    (hfirst : Along step ProfileFirst System.start labels) :
    Throughout step (fun system => Unshared system.store) System.start labels ↔
      Along step (fun system label => ¬ Relogs system label) System.start
        labels := by
  apply throughout_iff_along_of_promised _ _ _ serving_start hfirst
  · exact fun system hserving => hserving.unshared
  · exact fun system label next hserving hfirst hrelogs hstep =>
      hserving.step hfirst hrelogs hstep
  · exact fun system label next hserving _ hrelogs hstep =>
      not_unshared_of_relogs hserving (not_not.1 hrelogs) hstep

/-- One client logs in as `ab`, gets to its loop, and leaves. -/
def visitRun : List Label :=
  [⟨1, 0, .receive (new .profile [97, 98] [] 0)⟩, ⟨1, 0, .proceed⟩,
    ⟨1, 0, .proceed⟩, ⟨1, 0, .proceed⟩, ⟨1, 0, .proceed⟩,
    ⟨1, 0, .receive (new .closeConn [] [97, 98] 0)⟩, ⟨1, 0, .proceed⟩,
    ⟨1, 0, .proceed⟩]

theorem unshared_throughout_visitRun :
    Throughout step (fun system => Unshared system.store) System.start
      visitRun :=
  (unshared_throughout_iff (by decide)).2 (by decide)

/-- In its session as `ab` the client sends `PROFILE` with `cd`. -/
def relogRun : List Label :=
  [⟨1, 0, .receive (new .profile [97, 98] [] 0)⟩, ⟨1, 0, .proceed⟩,
    ⟨1, 0, .proceed⟩, ⟨1, 0, .proceed⟩, ⟨1, 0, .proceed⟩,
    ⟨1, 0, .receive (new .profile [99, 100] [97, 98] 0)⟩, ⟨1, 0, .proceed⟩]

/-- A client that logs in again in its session is in two vectors. -/
theorem relogRun_shares :
    ¬ ∀ labels : List Label, Along step ProfileFirst System.start labels →
      Throughout step (fun system => Unshared system.store) System.start
        labels := by
  intro hall
  have hview : (exec step System.start relogRun).map (fun system =>
      ((system.store.objects 0).sessions, (system.store.objects 1).sessions)) =
      some ([some 1], [some 1]) := by
    decide
  obtain ⟨final, hexec, hfinal⟩ := Option.map_eq_some_iff.1 hview
  have hunshared := (hall relogRun (by decide)).final hexec
  obtain ⟨hleft, hright⟩ := Prod.mk.inj hfinal
  exact absurd (hunshared.apart 0 1 1 (by simp [hleft]) (by simp [hright]))
    (by decide)

end TwitterLike.SessionSharing
