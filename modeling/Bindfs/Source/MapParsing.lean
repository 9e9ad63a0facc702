import Bindfs.Source.Misc
import Bindfs.Source.Usermap
import Bindfs.Source.Userinfo

/-!
# parse_map_file and parse_user_map

Both parsers read pairs from text and enter each pair into one map and, turned round,
into the other. A call that returns 0 is `none`: `main` exits without reading the maps
again. Diagnostics printed on the way are left out.
-/
namespace Bindfs.Source

/-- `as_gid`: which column of ids a parser works on. -/
inductive IdKind where
  | uid | gid
  deriving DecidableEq, Repr

/-- The two maps a parser call is given, in the order of its parameters. -/
structure MapPair where
  map : UserMap
  reverseMap : UserMap
  deriving DecidableEq, Repr

def MapPair.swap (maps : MapPair) : MapPair := ⟨maps.reverseMap, maps.map⟩

/-- The function pointer `value_to_id`. -/
def valueToId (db : UserDb) : IdKind → CString → Option Id
  | .uid => userUid db
  | .gid => groupGid db

/-- The function pointer `usermap_add`. -/
def usermapAdd : IdKind → UserMap → Id → Id → UsermapStatus × UserMap
  | .uid => usermapAddUid
  | .gid => usermapAddGid

/-- The two insertions both parsers make for a pair; the first refusal ends the call. -/
def addPair (kind : IdKind) (maps : MapPair) (fromId toId : Id) : Option MapPair :=
  match usermapAdd kind maps.map fromId toId with
  | (.ok, map) =>
    match usermapAdd kind maps.reverseMap toId fromId with
    | (.ok, reverseMap) => some ⟨map, reverseMap⟩
    | (.duplicateKey, _) => none
  | (.duplicateKey, _) => none

/-! ## parse_map_file -/

inductive MapLine where
  | unexpectedEnd
  | ignored
  | pair (fromId toId : Id)
  deriving DecidableEq, Repr

/-- One line NAME:...:[GU]ID(:...) as `strtok` cuts it; NAME is the target, ID the source. -/
def readMapLine (toIdOf : CString → Option Id) (line : CString) : MapLine :=
  match strtok [':'] line with
  | none => .unexpectedEnd
  | some (name, rest) =>
    match toIdOf name with
    | none => .ignored
    | some uidTo =>
      -- skip second column
      match (strtok [':'] rest).bind (fun column => strtok [':'] column.2) with
      | none => .unexpectedEnd
      | some (column, _) =>
        match toIdOf column with
        | none => .ignored
        | some uidFrom => .pair uidFrom uidTo

def mapFileLoop (toIdOf : CString → Option Id) (kind : IdKind) (maps : MapPair) :
    List CString → Option MapPair
  | [] => some maps
  | line :: rest =>
    match readMapLine toIdOf line with
    | .unexpectedEnd => none
    | .ignored => mapFileLoop toIdOf kind maps rest
    | .pair uidFrom uidTo =>
      match addPair kind maps uidFrom uidTo with
      | none => none
      | some maps => mapFileLoop toIdOf kind maps rest

/-- `parse_map_file`; `none` for the file is a failed `fopen`. -/
def parseMapFile (db : UserDb) (maps : MapPair) (file : Option (List Char)) (kind : IdKind) :
    Option MapPair :=
  match file with
  | none => none
  | some content => mapFileLoop (valueToId db kind) kind maps (fileLines content)

/-! ## parse_user_map -/

/-- One token user1/user2 or @group1/@group2: its kind and the two ids. -/
def readMapToken (db : UserDb) (token : CString) : Option (IdKind × Id × Id) :=
  match token with
  | '@' :: _ =>
    match strstr ['/', '@'] token with
    | none => none
    | some (left, right) =>
      match groupGid db left.tail, groupGid db right with
      | some gidFrom, some gidTo => some (.gid, gidFrom, gidTo)
      | _, _ => none
  | _ =>
    match strstr ['/'] token with
    | none => none
    | some (left, right) =>
      match userUid db left, userUid db right with
      | some uidFrom, some uidTo => some (.uid, uidFrom, uidTo)
      | _, _ => none

/-- The loop body: `tmpstr` is cut at the next ',' or ':'. -/
def addMapToken (db : UserDb) (maps : MapPair) (token : CString) : Option MapPair :=
  match readMapToken db token with
  | none => none
  | some (kind, fromId, toId) => addPair kind maps fromId toId

def parseUserMap (db : UserDb) (maps : MapPair) (spec : CString) : Option MapPair :=
  Lib.Segments.scan isSeparator (addMapToken db) maps spec

/-! ## The calls main makes -/

/-- A parser call in either orientation: given (usermap, usermap_reverse) or swapped. -/
inductive MapCall where
  | mapFile (swapped : Bool) (kind : IdKind) (file : Option (List Char))
  | userMap (swapped : Bool) (spec : CString)

def MapCall.swapped : MapCall → Bool
  | .mapFile swapped _ _ => swapped
  | .userMap swapped _ => swapped

/-- The parser a call runs, on its maps in parameter order. -/
def MapCall.parse (db : UserDb) (call : MapCall) (maps : MapPair) : Option MapPair :=
  match call with
  | .mapFile _ kind file => parseMapFile db maps file kind
  | .userMap _ spec => parseUserMap db maps spec

/-- The effect of a call on (usermap, usermap_reverse). -/
def MapCall.run (db : UserDb) (maps : MapPair) (call : MapCall) : Option MapPair :=
  if call.swapped then (call.parse db maps.swap).map MapPair.swap else call.parse db maps

/-- A sequence of calls that all return 1, starting from two empty maps. -/
def runMapCalls (db : UserDb) (calls : List MapCall) : Option MapPair :=
  calls.foldlM (MapCall.run db) ⟨usermapCreate, usermapCreate⟩

end Bindfs.Source
