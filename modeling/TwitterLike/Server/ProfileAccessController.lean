import TwitterLike.Server.StoreEffects

/-!
# The lock around the profile store

`server/ProfileAccessController.cpp`.  Every operation takes the reader-writer
lock by hand, calls the store and gives the lock back, so the lock is given back
on a way out exactly when the call into the store returns.
-/

namespace TwitterLike.ProfileAccessController

open TwitterLike.ByteBuffer
open TwitterLike.JsonDump
open TwitterLike.Profiles
open TwitterLike.ProfilesManager

structure Controller where
  store : Store
  numReaders : ℤ
  numWriters : ℤ

/-- `ProfileAccessController::ProfileAccessController`. -/
def Controller.new : Controller where
  store := Store.empty
  numReaders := 0
  numWriters := 0

namespace Controller

variable {α : Type} (controller : Controller)

/-! ## The lock -/

/-- `requestRead` gets past its loop. -/
def readable : Bool := ¬ controller.numWriters > 0

/-- `requestWrite` gets past its loop. -/
def writable : Bool :=
  ¬ (controller.numReaders > 0 ∨ controller.numWriters > 0)

/-- `requestRead`, after its loop. -/
@[simps]
def requestRead : Controller :=
  { controller with numReaders := controller.numReaders + 1 }

/-- `requestWrite`, after its loop. -/
@[simps]
def requestWrite : Controller :=
  { controller with numWriters := controller.numWriters + 1 }

/-- `releaseRead`. -/
@[simps]
def releaseRead : Controller :=
  { controller with numReaders := controller.numReaders - 1 }

/-- `releaseWrite`. -/
@[simps]
def releaseWrite : Controller :=
  { controller with numWriters := controller.numWriters - 1 }

/-- The body of the reading operations. -/
def withRead (call : Store → α) : Except Exit α × Controller :=
  if controller.readable then
    (.ok (call controller.store), controller.requestRead.releaseRead)
  else (.error .blocked, controller)

/-- The body of the writing operations: the lock is released only after a
normal return of the store. -/
def withWrite (call : Store → Except Exit α × Store) :
    Except Exit α × Controller :=
  if controller.writable then
    let locked := controller.requestWrite
    match call locked.store with
    | (.ok value, store) =>
        (.ok value, { locked with store := store }.releaseWrite)
    | (.error exit, store) => (.error exit, { locked with store := store })
  else (.error .blocked, controller)

/-! ## The operations -/

/-- `ProfileAccessController::insertProfile`. -/
def insertProfile (profileId : ByteString) (profile : ProfileRef) :
    Except Exit Bool × Controller :=
  controller.withWrite fun store => store.insertProfile profileId profile

/-- `ProfileAccessController::getProfileById`. -/
def getProfileById (profileId : ByteString) :
    Except Exit (Option ProfileRef) × Controller :=
  controller.withRead fun store => store.getProfileById profileId

/-- `ProfileAccessController::hasProfile`. -/
def hasProfile (profileId : ByteString) : Except Exit Bool × Controller :=
  controller.withRead fun store => store.hasProfile profileId

/-- `ProfileAccessController::addFollowerTo`. -/
def addFollowerTo (followed : ByteString) (follower : Option ProfileRef) :
    Except Exit Unit × Controller :=
  controller.withWrite fun store => store.addFollowerTo followed follower

/-- `ProfileAccessController::sendToFollowersOf`. -/
def sendToFollowersOf (profile : Option ProfileRef) (message : Message) :
    Except Exit Unit × Controller :=
  controller.withWrite fun store => store.sendToFollowersOf profile message

/-- `ProfileAccessController::createProfileIfNotExists`. -/
def createProfileIfNotExists (profileId : ByteString) (conn : Option Conn)
    (time : BitVec 64) : Except Exit ProfileRef × Controller :=
  controller.withWrite fun store =>
    store.createProfileIfNotExists profileId conn time

/-- `ProfileAccessController::sendCloseConnToAll`. -/
def sendCloseConnToAll (time : BitVec 64) : Except Exit Unit × Controller :=
  controller.withWrite fun store => store.sendCloseConnToAll time

end Controller

/-- A call of one operation of the controller. -/
inductive Operation where
  | insertProfile (profileId : ByteString) (profile : ProfileRef)
  | getProfileById (profileId : ByteString)
  | hasProfile (profileId : ByteString)
  | addFollowerTo (followed : ByteString) (follower : Option ProfileRef)
  | sendToFollowersOf (profile : Option ProfileRef) (message : Message)
  | createProfileIfNotExists (profileId : ByteString) (conn : Option Conn)
      (time : BitVec 64)
  | sendCloseConnToAll (time : BitVec 64)

/-- How a result ends, whatever its value. -/
def wayOut {α : Type} (result : Except Exit α × Controller) :
    Option Exit × Controller :=
  (match result.1 with
    | .ok _ => none
    | .error exit => some exit, result.2)

/-- The way out of a call, `none` for a normal return, and the state left. -/
def Operation.run (controller : Controller) :
    Operation → Option Exit × Controller
  | .insertProfile profileId profile =>
      wayOut (controller.insertProfile profileId profile)
  | .getProfileById profileId => wayOut (controller.getProfileById profileId)
  | .hasProfile profileId => wayOut (controller.hasProfile profileId)
  | .addFollowerTo followed follower =>
      wayOut (controller.addFollowerTo followed follower)
  | .sendToFollowersOf profile message =>
      wayOut (controller.sendToFollowersOf profile message)
  | .createProfileIfNotExists profileId conn time =>
      wayOut (controller.createProfileIfNotExists profileId conn time)
  | .sendCloseConnToAll time => wayOut (controller.sendCloseConnToAll time)

/-- A way out of the call with which the program goes on: a normal return, the
end of the thread, or an exception. -/
def GoesOn : Option Exit → Prop
  | none => True
  | some .threadExit => True
  | some .exception => True
  | some .blocked => False
  | some .nullDeref => False

/-- The call, run alone, leaves both counters as it found them on every way
out. -/
def Operation.Undoes (operation : Operation) (controller : Controller) : Prop :=
  GoesOn (operation.run controller).1 →
    (operation.run controller).2.numReaders = controller.numReaders ∧
      (operation.run controller).2.numWriters = controller.numWriters

end TwitterLike.ProfileAccessController
