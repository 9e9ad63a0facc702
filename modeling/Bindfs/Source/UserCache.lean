import Bindfs.Lib.SortSearch
import Bindfs.Source.MemoryBlock

/-!
# userinfo.c: the user cache

The rebuild of the cache and a query of it, each as one run under the lock. The entries that
`getpwent` and `getgrent` deliver and how the enumeration ends are given. User names and
the uids of group members lie in one memory block; the entries of the two arrays point into it.

`qsort` and `bsearch` are parameters. Their comparison functions for names read the block,
so the arrays are handed to them together with the names read there.
-/
namespace Bindfs.Source
open Bindfs.Lib.SortSearch

abbrev Byte := BitVec 8

/-! ## The user database -/

/-- A name as the system database delivers it. -/
structure UserName where
  bytes : List Byte
  nul_free : 0#8 ∉ bytes
  deriving DecidableEq

/-- The fields of `struct passwd` that are read. -/
structure PasswdEntry where
  pw_name : UserName
  pw_uid : Id
  pw_gid : Id
  deriving DecidableEq

/-- The fields of `struct group` that are read. -/
structure GroupEntry where
  gr_gid : Id
  gr_mem : List UserName
  deriving DecidableEq

/-- What `errno` says when `getpwent` or `getgrent` returns NULL. -/
inductive EnumerationEnd where
  | endOfList | enoent | failed
  deriving DecidableEq, Repr

/-- The entries delivered from `setpwent` or `setgrent` on, until NULL is returned. -/
structure Enumeration (α : Type) where
  entries : List α
  ending : EnumerationEnd

/-- Users `a` and `b` of the main group 100. -/
def sampleUsers : Enumeration PasswdEntry :=
  ⟨[⟨⟨[97#8], by decide⟩, 1000#32, 100#32⟩, ⟨⟨[98#8], by decide⟩, 1001#32, 100#32⟩], .endOfList⟩

/-- A group 200 that lists both. -/
def sampleGroups : Enumeration GroupEntry :=
  ⟨[⟨200#32, [⟨[97#8], by decide⟩, ⟨[98#8], by decide⟩]⟩], .endOfList⟩

/-! ## The cache -/

structure UidCacheEntry where
  uid : Id
  main_gid : Id
  username_offset : Nat
  deriving DecidableEq, Repr

structure GidCacheEntry where
  gid : Id
  uid_count : Nat
  uids_offset : Nat
  deriving DecidableEq, Repr

/-- `sizeof(struct uid_cache_entry)` and `sizeof(struct gid_cache_entry)`. -/
def cacheEntrySize : Nat := 12

structure UserCache where
  uid_cache : GrowingArray UidCacheEntry
  gid_cache : GrowingArray GidCacheEntry
  cache_memory_block : MemoryBlock Byte

/-- The static variables as they are initialised. -/
def emptyUserCache : UserCache := ⟨⟨[], []⟩, ⟨[], []⟩, ⟨[], 0⟩⟩

/-- The bytes of a `uid_t`, the lowest first. -/
def uidBytes (uid : Id) : List Byte :=
  [BitVec.ofNat 8 uid.toNat, BitVec.ofNat 8 (uid.toNat / 2 ^ 8), BitVec.ofNat 8 (uid.toNat / 2 ^ 16),
    BitVec.ofNat 8 (uid.toNat / 2 ^ 24)]

def uidOfBytes (bytes : List Byte) : Id :=
  BitVec.ofNat 32 (bytes.foldr (fun byte high => byte.toNat + 2 ^ 8 * high) 0)

/-! ## Comparison functions -/

def strcmp : List Byte → List Byte → Int
  | [], [] => 0
  | [], b :: _ => -(b.toNat : Int)
  | a :: _, [] => a.toNat
  | a :: as, b :: bs => if a = b then strcmp as bs else (a.toNat : Int) - b.toNat

/-- The conversion of a `long` to the `int` a comparison function returns. -/
def longToInt (value : Int) : Int := value.bmod (2 ^ 32)

/-- An entry with the user name its offset leads to. -/
abbrev NamedEntry := UidCacheEntry × List Byte

def uidCacheNameSortcmp (a b : NamedEntry) : Int := strcmp a.2 b.2

def uidCacheNameSearchcmp (key : UserName) (entry : NamedEntry) : Int := strcmp key.bytes entry.2

def compareIds (a b : Id) : Int := longToInt ((a.toNat : Int) - b.toNat)

def uidCacheUidSortcmp (a b : UidCacheEntry) : Int := compareIds a.uid b.uid

def uidCacheUidSearchcmp (key : Id) (entry : UidCacheEntry) : Int := compareIds key entry.uid

def gidCacheGidSortcmp (a b : GidCacheEntry) : Int := compareIds a.gid b.gid

def gidCacheGidSearchcmp (key : Id) (entry : GidCacheEntry) : Int := compareIds key entry.gid

/-- `qsort` and `bsearch` at the element types of the cache. -/
structure CacheSorters where
  named : Sorter NamedEntry
  users : Sorter UidCacheEntry
  groups : Sorter GidCacheEntry

/-- Conforming functions that return a chosen entry where several match. -/
def choosingSorters (user : UidCacheEntry → Bool) (group : GidCacheEntry → Bool) : CacheSorters :=
  ⟨.preferring fun _ => false, .preferring user, .preferring group⟩

/-- Where several entries match, the first of them is returned. -/
def firstSorters : CacheSorters := choosingSorters (fun _ => false) fun _ => false

/-! ## Rebuilding -/

/-- One round of the loop of `rebuild_uid_cache`. -/
def addUser (state : GrowingArray UidCacheEntry × MemoryBlock Byte) (pw : PasswdEntry) :
    Option (GrowingArray UidCacheEntry × MemoryBlock Byte) := do
  let array ← state.1.reserve cacheEntrySize
  let _usernameLen ← storeInt (pw.pw_name.bytes.length + 1)
  let (offset, block) ← appendToMemoryBlock state.2 (pw.pw_name.bytes ++ [0#8])
  pure (array.push ⟨pw.pw_uid, pw.pw_gid, offset⟩, block)

def clearUidCache (cache : UserCache) : UserCache := { cache with uid_cache := cache.uid_cache.clear }

def clearGidCache (cache : UserCache) : UserCache := { cache with gid_cache := cache.gid_cache.clear }

/-- The cache and the return value. -/
def rebuildUidCache (cache : UserCache) (passwd : Enumeration PasswdEntry) :
    Option (UserCache × Bool) := do
  let (array, block) ← passwd.entries.foldlM addUser (cache.uid_cache.clear, cache.cache_memory_block)
  let cache := { cache with uid_cache := array, cache_memory_block := block }
  match passwd.ending with
  | .endOfList => pure (cache, true)
  -- We might have gotten some entries.
  | .enoent => pure (cache, true)
  | .failed => pure (clearUidCache cache, false)

/-- What the comparison functions for names see of these entries. -/
def readNames (block : MemoryBlock Byte) (entries : List UidCacheEntry) : Option (List NamedEntry) :=
  entries.mapM fun entry => (block.readString 0#8 entry.username_offset).map fun name => (entry, name)

/-- The uid of the user that was found joins those of the group. -/
def storeMember (ent : GidCacheEntry) (block : MemoryBlock Byte) :
    Option NamedEntry → Option (GidCacheEntry × MemoryBlock Byte)
  | none => some (ent, block)
  | some (uidEnt, _) => do
    let block ← growMemoryBlock block 4
    let block ← block.write (ent.uids_offset + 4 * ent.uid_count) (uidBytes uidEnt.uid)
    let uidCount ← storeInt (ent.uid_count + 1)
    pure ({ ent with uid_count := uidCount }, block)

section
variable (lib : CacheSorters)

/-- One round of the loop over `gr_mem`, with the index `i`. -/
def addMember (users : List UidCacheEntry) (state : (GidCacheEntry × MemoryBlock Byte) × Nat)
    (name : UserName) : Option ((GidCacheEntry × MemoryBlock Byte) × Nat) := do
  let ((ent, block), i) := state
  let named ← readNames block users
  let stored ← storeMember ent block (lib.named.bsearch (uidCacheNameSearchcmp name) named)
  let i ← storeInt (i + 1)
  pure (stored, i)

/-- One round of the loop of `rebuild_gid_cache`. -/
def addGroup (users : List UidCacheEntry) (state : GrowingArray GidCacheEntry × MemoryBlock Byte)
    (gr : GroupEntry) : Option (GrowingArray GidCacheEntry × MemoryBlock Byte) := do
  let array ← state.1.reserve cacheEntrySize
  let offset ← storeInt state.2.size
  let ((ent, block), _) ← gr.gr_mem.foldlM (addMember lib users) ((⟨gr.gr_gid, 0, offset⟩, state.2), 0)
  pure (array.push ent, block)

def rebuildGidCache (cache : UserCache) (group : Enumeration GroupEntry) :
    Option (UserCache × Bool) := do
  let named ← readNames cache.cache_memory_block cache.uid_cache.live
  let users := (lib.named.qsort uidCacheNameSortcmp named).map Prod.fst
  let (array, block) ← group.entries.foldlM (addGroup lib users)
    (cache.gid_cache.clear, cache.cache_memory_block)
  let cache : UserCache := ⟨{ cache.uid_cache with live := users }, array, block⟩
  match group.ending with
  | .endOfList => pure (cache, true)
  | .enoent => pure (cache, true)
  | .failed => pure (clearGidCache cache, false)

/-- The end of `init_user_cache`. -/
def sortUserCache (cache : UserCache) : UserCache :=
  { cache with
    uid_cache := { cache.uid_cache with live := lib.users.qsort uidCacheUidSortcmp cache.uid_cache.live }
    gid_cache := { cache.gid_cache with live := lib.groups.qsort gidCacheGidSortcmp cache.gid_cache.live } }

/-- `free_memory_block` and `init_memory_block`. -/
def resetMemoryBlock (cache : UserCache) : UserCache :=
  { cache with cache_memory_block := initMemoryBlock 1024 }

/-- What `init_user_cache` does when a rebuild is requested. The results of the two rebuilds
are not looked at. -/
def rebuildUserCache (cache : UserCache) (passwd : Enumeration PasswdEntry)
    (group : Enumeration GroupEntry) : Option UserCache := do
  let (cache, _) ← rebuildUidCache (resetMemoryBlock cache) passwd
  let (cache, _) ← rebuildGidCache lib cache group
  pure (sortUserCache lib cache)

/-! ## Queries -/

def uidCacheLookup (cache : UserCache) (key : Id) : Option UidCacheEntry :=
  lib.users.bsearch (uidCacheUidSearchcmp key) cache.uid_cache.live

def gidCacheLookup (cache : UserCache) (key : Id) : Option GidCacheEntry :=
  lib.groups.bsearch (gidCacheGidSearchcmp key) cache.gid_cache.live

/-- The loop over the uids of a group, from index `i` on. -/
def findUid (block : MemoryBlock Byte) (offset : Nat) (uid : Id) : (remaining i : Nat) → Option Bool
  | 0, _ => some false
  | remaining + 1, i => do
    let stored ← block.read (offset + 4 * i) 4
    if uidOfBytes stored = uid then some true else findUid block offset uid remaining (i + 1)

/-- The second lookup of `user_belongs_to_group`. -/
def isListedInGroup (cache : UserCache) (uid gid : Id) : Option Bool :=
  match gidCacheLookup lib cache gid with
  | none => some false
  | some gent => findUid cache.cache_memory_block gent.uids_offset uid gent.uid_count 0

/-- `user_belongs_to_group` from the lookups on. -/
def queryUserCache (cache : UserCache) (uid gid : Id) : Option Bool :=
  match uidCacheLookup lib cache uid with
  | none => isListedInGroup lib cache uid gid
  | some uent => if uent.main_gid = gid then some true else isListedInGroup lib cache uid gid

end

end Bindfs.Source
