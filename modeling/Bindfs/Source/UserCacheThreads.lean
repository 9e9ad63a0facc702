import Bindfs.Lib.Concurrency
import Bindfs.Source.UserCache

/-!
# userinfo.c: threads on the user cache

Any number of threads that call `user_belongs_to_group` or `init_user_cache`, and a signal
handler that calls `invalidate_user_cache` at any point. Reading, setting and clearing
`cache_rebuild_requested`, taking and releasing `cache_lock`, and each phase of a rebuild are
steps of their own. `getpwent` and `getgrent` deliver what the environment says.

Beside the variables of the source the state keeps a clock and a record of what happened when:
the invalidations, the start of the last rebuild, the finished rebuilds and the answers given.
No step depends on this record.
-/
namespace Bindfs.Source
open Bindfs.Lib.Concurrency

/-- A call of `user_belongs_to_group`, with the time it was made. -/
structure MembershipQuery where
  started : Nat
  uid : Id
  gid : Id

/-- Where a thread stands. In `init_user_cache`, `caller` is the query it was called from, if
there is one. -/
inductive ThreadState where
  | idle
  | testing (query : MembershipQuery)
  | wantsWrite (caller : Option MembershipQuery)
  | testingLocked (caller : Option MembershipQuery)
  | clearing (caller : Option MembershipQuery)
  | starting (caller : Option MembershipQuery)
  | readingUsers (caller : Option MembershipQuery)
  | readingGroups (caller : Option MembershipQuery) (passwd : Enumeration PasswdEntry)
  | sorting (caller : Option MembershipQuery) (passwd : Enumeration PasswdEntry)
      (group : Enumeration GroupEntry)
  | unlockingWrite (caller : Option MembershipQuery)
  | wantsRead (query : MembershipQuery)
  | lookingUpUser (query : MembershipQuery)
  | lookingUpGroup (query : MembershipQuery)
  | unlockingRead (query : MembershipQuery)

/-- What follows the return of `init_user_cache`. -/
def afterInit : Option MembershipQuery → ThreadState
  | none => .idle
  | some query => .wantsRead query

/-- A finished rebuild: when it began to read the user database, and what it read. -/
structure Build where
  started : Nat
  passwd : Enumeration PasswdEntry
  group : Enumeration GroupEntry

/-- An answer, with the cache it was read from and the rebuild that was the last to finish. -/
structure Answer where
  query : MembershipQuery
  answer : Bool
  contents : UserCache
  build : Option Build

structure CacheSystem (ι : Type) where
  cache_rebuild_requested : Bool
  cache_lock : RwLock ι
  cache : UserCache
  threads : ι → ThreadState
  now : Nat
  invalidations : List Nat
  rebuildStarted : Nat
  builds : List Build
  answers : List Answer

/-- The process before any call; the clock stands at 1. -/
def initialSystem (ι : Type) : CacheSystem ι where
  cache_rebuild_requested := true
  cache_lock := .free
  cache := emptyUserCache
  threads _ := .idle
  now := 1
  invalidations := []
  rebuildStarted := 0
  builds := []
  answers := []

inductive CacheAction (ι : Type) where
  | invalidate
  | query (thread : ι) (uid gid : Id)
  | init (thread : ι)
  | proceed (thread : ι)
  | deliverUsers (thread : ι) (passwd : Enumeration PasswdEntry)
  | deliverGroups (thread : ι) (group : Enumeration GroupEntry)

section
variable {ι : Type} [DecidableEq ι]

def CacheSystem.moved (s : CacheSystem ι) (thread : ι) (next : ThreadState) : CacheSystem ι :=
  { s with threads := Function.update s.threads thread next, now := s.now + 1 }

@[simp] theorem CacheSystem.threads_moved_self (s : CacheSystem ι) (thread : ι) (next : ThreadState) :
    (s.moved thread next).threads thread = next :=
  Function.update_self ..

@[simp] theorem CacheSystem.threads_moved_of_ne (s : CacheSystem ι) {thread other : ι} (next : ThreadState)
    (another : other ≠ thread) : (s.moved thread next).threads other = s.threads other :=
  Function.update_of_ne another ..

def CacheSystem.answered (s : CacheSystem ι) (thread : ι) (query : MembershipQuery) (answer : Bool) :
    CacheSystem ι :=
  { s with answers := ⟨query, answer, s.cache, s.builds.head?⟩ :: s.answers }.moved thread
    (.unlockingRead query)

variable (lib : CacheSorters)

inductive CacheStep : CacheSystem ι → CacheAction ι → CacheSystem ι → Prop
  -- invalidate_user_cache
  | invalidate (s : CacheSystem ι) :
      CacheStep s .invalidate { s with
        cache_rebuild_requested := true, invalidations := s.now :: s.invalidations, now := s.now + 1 }
  -- user_belongs_to_group
  | query {s : CacheSystem ι} {t : ι} (uid gid : Id) : s.threads t = .idle →
      CacheStep s (.query t uid gid) (s.moved t (.testing ⟨s.now, uid, gid⟩))
  | testedSet {s : CacheSystem ι} {t : ι} {query : MembershipQuery} : s.threads t = .testing query →
      s.cache_rebuild_requested = true → CacheStep s (.proceed t) (s.moved t (.wantsWrite (some query)))
  | testedClear {s : CacheSystem ι} {t : ι} {query : MembershipQuery} : s.threads t = .testing query →
      s.cache_rebuild_requested = false → CacheStep s (.proceed t) (s.moved t (.wantsRead query))
  -- init_user_cache
  | init {s : CacheSystem ι} {t : ι} : s.threads t = .idle →
      CacheStep s (.init t) (s.moved t (.wantsWrite none))
  | lockedWrite {s : CacheSystem ι} {t : ι} {caller : Option MembershipQuery} {lock : RwLock ι} :
      s.threads t = .wantsWrite caller → s.cache_lock.lockWrite t = some lock →
      CacheStep s (.proceed t) ({ s with cache_lock := lock }.moved t (.testingLocked caller))
  | retestedSet {s : CacheSystem ι} {t : ι} {caller : Option MembershipQuery} :
      s.threads t = .testingLocked caller → s.cache_rebuild_requested = true →
      CacheStep s (.proceed t) (s.moved t (.clearing caller))
  | retestedClear {s : CacheSystem ι} {t : ι} {caller : Option MembershipQuery} :
      s.threads t = .testingLocked caller → s.cache_rebuild_requested = false →
      CacheStep s (.proceed t) (s.moved t (.unlockingWrite caller))
  | cleared {s : CacheSystem ι} {t : ι} {caller : Option MembershipQuery} : s.threads t = .clearing caller →
      CacheStep s (.proceed t) ({ s with cache_rebuild_requested := false }.moved t (.starting caller))
  -- The memory block is made anew, and setpwent is called.
  | started {s : CacheSystem ι} {t : ι} {caller : Option MembershipQuery} : s.threads t = .starting caller →
      CacheStep s (.proceed t)
        ({ s with cache := resetMemoryBlock s.cache, rebuildStarted := s.now }.moved t (.readingUsers caller))
  | readUsers {s : CacheSystem ι} {t : ι} {caller : Option MembershipQuery} {cache : UserCache} {done : Bool}
      (passwd : Enumeration PasswdEntry) : s.threads t = .readingUsers caller →
      rebuildUidCache s.cache passwd = some (cache, done) →
      CacheStep s (.deliverUsers t passwd) ({ s with cache := cache }.moved t (.readingGroups caller passwd))
  | readGroups {s : CacheSystem ι} {t : ι} {caller : Option MembershipQuery} {cache : UserCache} {done : Bool}
      {passwd : Enumeration PasswdEntry} (group : Enumeration GroupEntry) :
      s.threads t = .readingGroups caller passwd → rebuildGidCache lib s.cache group = some (cache, done) →
      CacheStep s (.deliverGroups t group) ({ s with cache := cache }.moved t (.sorting caller passwd group))
  | sorted {s : CacheSystem ι} {t : ι} {caller : Option MembershipQuery} {passwd : Enumeration PasswdEntry}
      {group : Enumeration GroupEntry} : s.threads t = .sorting caller passwd group →
      CacheStep s (.proceed t) ({ s with
        cache := sortUserCache lib s.cache
        builds := ⟨s.rebuildStarted, passwd, group⟩ :: s.builds }.moved t (.unlockingWrite caller))
  | unlockedWrite {s : CacheSystem ι} {t : ι} {caller : Option MembershipQuery} :
      s.threads t = .unlockingWrite caller →
      CacheStep s (.proceed t) ({ s with cache_lock := s.cache_lock.unlock t }.moved t (afterInit caller))
  -- The lookups of user_belongs_to_group
  | lockedRead {s : CacheSystem ι} {t : ι} {query : MembershipQuery} {lock : RwLock ι} :
      s.threads t = .wantsRead query → s.cache_lock.lockRead t = some lock →
      CacheStep s (.proceed t) ({ s with cache_lock := lock }.moved t (.lookingUpUser query))
  | foundMain {s : CacheSystem ι} {t : ι} {query : MembershipQuery} {uent : UidCacheEntry} :
      s.threads t = .lookingUpUser query → uidCacheLookup lib s.cache query.uid = some uent →
      uent.main_gid = query.gid → CacheStep s (.proceed t) (s.answered t query true)
  | notMain {s : CacheSystem ι} {t : ι} {query : MembershipQuery} : s.threads t = .lookingUpUser query →
      (∀ uent, uidCacheLookup lib s.cache query.uid = some uent → uent.main_gid ≠ query.gid) →
      CacheStep s (.proceed t) (s.moved t (.lookingUpGroup query))
  | searched {s : CacheSystem ι} {t : ι} {query : MembershipQuery} {answer : Bool} :
      s.threads t = .lookingUpGroup query → isListedInGroup lib s.cache query.uid query.gid = some answer →
      CacheStep s (.proceed t) (s.answered t query answer)
  | unlockedRead {s : CacheSystem ι} {t : ι} {query : MembershipQuery} : s.threads t = .unlockingRead query →
      CacheStep s (.proceed t) ({ s with cache_lock := s.cache_lock.unlock t }.moved t .idle)

end

/-! ## Sections and phases -/

def ThreadState.section : ThreadState → Section
  | .testingLocked _ | .clearing _ | .starting _ | .readingUsers _ | .readingGroups _ _ | .sorting _ _ _
  | .unlockingWrite _ => .writing
  | .lookingUpUser _ | .lookingUpGroup _ | .unlockingRead _ => .reading
  | .idle | .testing _ | .wantsWrite _ | .wantsRead _ => .outside

/-- The flag has been cleared for a rebuild that is not finished. -/
def ThreadState.inProgress : ThreadState → Bool
  | .starting _ | .readingUsers _ | .readingGroups _ _ | .sorting _ _ _ => true
  | _ => false

/-- The thread is overwriting the cache. -/
def ThreadState.overwrites : ThreadState → Bool
  | .readingUsers _ | .readingGroups _ _ | .sorting _ _ _ => true
  | _ => false

/-- The thread is about to read the caches. -/
def ThreadState.reads : ThreadState → Bool
  | .lookingUpUser _ | .lookingUpGroup _ => true
  | _ => false

end Bindfs.Source
