import Bindfs.Lib.InverseTables
import Bindfs.Source.Types

/-!
# usermap.c: linear tables from ids to ids

The parallel arrays `user_from`/`user_to` and `group_from`/`group_to` are lists of pairs
in insertion order; their capacities only steer `realloc` and are left out. The uid and
gid operations are one definition over a table, applied to the member's own table.
-/
namespace Bindfs.Source
open Bindfs.Lib.InverseTables

structure UserMap where
  users : Table Id
  groups : Table Id
  deriving DecidableEq, Repr

inductive UsermapStatus where
  | ok | duplicateKey
  deriving DecidableEq, Repr

def usermapCreate : UserMap := ⟨[], []⟩

/-- The body of `usermap_add_uid` and `usermap_add_gid`. An identity pair is dropped;
a key counts as present when its lookup with default -1 is not -1. -/
def tableAdd (table : Table Id) (fromId toId : Id) : UsermapStatus × Table Id :=
  if fromId = toId then (.ok, table)
  else if getOrDefault table fromId noId ≠ noId then (.duplicateKey, table)
  else (.ok, table ++ [(fromId, toId)])

def usermapAddUid (map : UserMap) (fromId toId : Id) : UsermapStatus × UserMap :=
  let added := tableAdd map.users fromId toId
  (added.1, { map with users := added.2 })

def usermapAddGid (map : UserMap) (fromId toId : Id) : UsermapStatus × UserMap :=
  let added := tableAdd map.groups fromId toId
  (added.1, { map with groups := added.2 })

def usermapGetUidOrDefault (map : UserMap) (u deflt : Id) : Id := getOrDefault map.users u deflt

def usermapGetGidOrDefault (map : UserMap) (g deflt : Id) : Id := getOrDefault map.groups g deflt

end Bindfs.Source
