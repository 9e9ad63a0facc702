import Mathlib.Data.List.ReduceOption
import Bindfs.Source.MapInvariant
import Bindfs.Source.Options

/-!
# main, up to fuse_main

`main` checks the options in the order of the source; the settings it mounts with are
assembled at the end, since no check reads a setting that an earlier one stored. Arguments
that are only passed on to libfuse are left out.

`main_accepts` says what acceptance means for the id maps and the offsets: the maps are those
of an accepted sequence of parser calls, and an offset other than 0 excludes `--map`.
-/
namespace Bindfs.Source

section
variable (system : System)

def check (passed : Bool) : Except MainEnd Unit := if passed then .ok () else .error (.returns 1)

/-- The value of a parsed argument, or the end of `main` with status 1. -/
def orReturn {α : Type} : Option α → Except MainEnd α
  | some value => .ok value
  | none => .error (.returns 1)

/-- `--force-user`, `--force-group` and the ids of new files: -1 stands for an option not given. -/
def parseIdOption (toId : CString → Option Id) : Option CString → Except MainEnd Id
  | none => .ok noId
  | some name => orReturn (toId name)

/-- The same for the options that only root may use. -/
def parseRootIdOption (toId : CString → Option Id) : Option CString → Except MainEnd Id
  | none => .ok noId
  | some name => do
    check (system.getuid = 0#32)
    orReturn (toId name)

def parseRate : Option CString → Except MainEnd Unit
  | none => .ok ()
  | some rate => check (system.positiveRate rate)

/-! ## Maps and offsets -/

/-- One map option: root only, then its parser call on (usermap, usermap_reverse). -/
def runMapOption (option : Option MapCall) (maps : MapPair) : Except MainEnd MapPair :=
  match option with
  | none => .ok maps
  | some call => do
    check (system.getuid = 0#32)
    orReturn (call.run system.users maps)

/-- The map options in the order `main` reads them. The -rev options swap the two maps. -/
def mapOptions (od : OptionData) : List (Option MapCall) :=
  [od.map_passwd.map fun file => .mapFile false .uid (system.readFile file),
    od.map_passwd_rev.map fun file => .mapFile true .uid (system.readFile file),
    od.map_group.map fun file => .mapFile false .gid (system.readFile file),
    od.map_group_rev.map fun file => .mapFile true .gid (system.readFile file),
    od.map.map fun spec => .userMap false spec]

def parseMaps (od : OptionData) : Except MainEnd MapPair :=
  (mapOptions system od).foldlM (fun maps option => runMapOption system option maps)
    ⟨usermapCreate, usermapCreate⟩

/-- `--uid-offset` and `--gid-offset`: root only, not with `--map`, and an integer. -/
def parseOffset (map : Option CString) : Option CString → Except MainEnd (BitVec 64)
  | none => .ok 0#64
  | some arg => do
    check (system.getuid = 0#32)
    check map.isNone
    let (value, endptr) := strtol 10 arg
    check (endptr = [])
    pure (BitVec.ofInt 64 value)

/-! ## The remaining options -/

/-- `--forward-odirect`: the alignment, with 0 for an option not given. -/
def parseAlignment : Option CString → Except MainEnd Nat
  | none => .ok 0
  | some arg => do
    let (value, endptr) := strtoul arg
    check (endptr = [])
    check (value ≠ 0)
    pure value

/-- `-m` and `-M` exclude each other. A name that cannot be resolved ends `main` with 0. -/
def parseMirrors (mirror mirrorOnly : Option CString) : Except MainEnd (Bool × Mirrored) := do
  check (mirror.isNone || mirrorOnly.isNone)
  match mirrorOnly.or mirror with
  | none => pure (false, ⟨[], []⟩)
  | some names =>
    match parseMirroredUsers system.users names with
    | .ok found => pure (mirrorOnly.isSome, found)
    | .error .invalidId => .error (.returns 0)
    | .error .overrun => .error .overruns
    | .error .failedAssertion => .error .aborts

/-- A permission option: the rules extend a fresh chain. -/
def parseRules : Option CString → Except MainEnd Permchain
  | none => .ok .create
  | some rules =>
    match added : addChmodRulesToPermchain rules Permchain.create.nodes with
    | (0, nodes) => .ok ⟨nodes, Permchain.wellFormed_of_added .create rules added⟩
    | _ => .error (.returns 1)

def parseDeletionPolicy : Option CString → Except MainEnd ResolvedSymlinkDeletion
  | none => .ok .symlinkOnly
  | some name =>
    if name = "deny".toList then .ok .deny
    else if name = "symlink-only".toList then .ok .symlinkOnly
    else if name = "symlink-first".toList then .ok .symlinkFirst
    else if name = "target-first".toList then .ok .targetFirst
    else .error (.returns 1)

/-! ## main -/

/-- `fuse_opt_parse` with `process_option`, and the check for the two directories. -/
def parseOptions (commandLine : CommandLine) : Except MainEnd (Settings × CString) := do
  let startup ← commandLine.calls.foldlM (processOption system)
    ⟨initialSettings system.getuid, none, none⟩
  check (!commandLine.malformed)
  match startup.mntsrc, startup.mntdest with
  | some mntsrc, some mntdest => pure ({ startup.settings with mntdest := mntdest }, mntsrc)
  | _, _ => .error (.returns 1)

/-- `main`: the settings that `fuse_main` is called with, or how the program ends before. -/
def main (commandLine : CommandLine) : Except MainEnd Settings := do
  let od := commandLine.od
  let (settings, mntsrc) ← parseOptions system commandLine
  -- the deprecated spellings count when the new ones are not given
  let newUid ← parseIdOption (userUid system.users) (od.user.or od.deprecated_user)
  let newGid ← parseIdOption (groupGid system.users) (od.group.or od.deprecated_group)
  parseRate system od.read_rate
  parseRate system od.write_rate
  let maps ← parseMaps system od
  let uidOffset ← parseOffset system od.map od.uid_offset
  let gidOffset ← parseOffset system od.map od.gid_offset
  let alignment ← parseAlignment od.forward_odirect
  let createForUid ← parseRootIdOption system (userUid system.users) od.create_for_user
  let createForGid ← parseRootIdOption system (groupGid system.users) od.create_for_group
  let (mirroredUsersOnly, mirrored) ← parseMirrors system od.mirror od.mirror_only
  let permchain ← parseRules od.perms
  let createPermchain ← parseRules od.create_with_perms
  let chmodPermchain ← parseRules od.chmod_filter
  let deletionPolicy ← parseDeletionPolicy od.resolved_symlink_deletion
  check (system.canOpen mntsrc)
  check (!settings.enable_lock_forwarding || od.multithreaded)
  pure { settings with
    new_uid := newUid
    new_gid := newGid
    usermap := maps.map
    usermap_reverse := maps.reverseMap
    uid_offset := uidOffset
    gid_offset := gidOffset
    forward_odirect := od.forward_odirect.isSome
    odirect_alignment := alignment
    create_for_uid := createForUid
    create_for_gid := createForGid
    mirrored_users_only := mirroredUsersOnly
    mirrored_users := mirrored.users
    mirrored_members := mirrored.members
    permchain := permchain
    create_permchain := createPermchain
    chmod_permchain := chmodPermchain
    resolved_symlink_deletion_policy := deletionPolicy }

/-! ## What acceptance means -/

theorem bind_ok_iff {ε α β : Type} {first : Except ε α} {next : α → Except ε β} {out : β} :
    (first >>= next) = .ok out ↔ ∃ value, first = .ok value ∧ next value = .ok out := by
  cases first with
  | error error =>
    constructor
    · intro impossible
      cases impossible
    · rintro ⟨value, impossible, -⟩
      cases impossible
  | ok value => exact ⟨fun ran => ⟨value, rfl, ran⟩, fun ⟨_, same, ran⟩ => by cases same; exact ran⟩

theorem orReturn_ok_iff {α : Type} {option : Option α} {value : α} :
    orReturn option = .ok value ↔ option = some value := by
  cases option <;> simp [orReturn]

theorem check_ok_iff {passed : Bool} {value : Unit} : check passed = .ok value ↔ passed = true := by
  cases passed <;> simp [check]

/-- The parser calls the given map options stand for. -/
def mapCalls (od : OptionData) : List MapCall := (mapOptions system od).reduceOption

variable {system}

theorem runMapOptions_ok (options : List (Option MapCall)) {maps out : MapPair}
    (ran : options.foldlM (fun maps option => runMapOption system option maps) maps = .ok out) :
    options.reduceOption.foldlM (MapCall.run system.users) maps = some out := by
  induction options generalizing maps with
  | nil =>
    cases ran
    rfl
  | cons option rest ih =>
    rw [List.foldlM_cons] at ran
    obtain ⟨middle, first, later⟩ := bind_ok_iff.mp ran
    cases option with
    | none =>
      cases first
      exact ih later
    | some call =>
      obtain ⟨_, -, parsed⟩ := bind_ok_iff.mp first
      rw [List.reduceOption_cons_of_some, List.foldlM_cons, orReturn_ok_iff.mp parsed]
      exact ih later

/-- The value of an offset option; 0 if it is not given. -/
def offsetValue : Option CString → Int
  | none => 0
  | some arg => (strtol 10 arg).1

theorem strtol_in_range (base : Nat) (s : CString) :
    LONG_MIN ≤ (strtol base s).1 ∧ (strtol base s).1 ≤ LONG_MAX := by
  unfold strtol
  simp only [LONG_MIN, LONG_MAX]
  split
  · omega
  · simp only
    omega

theorem parseOffset_ok {map arg : Option CString} {offset : BitVec 64}
    (parsed : parseOffset system map arg = .ok offset) :
    offset.toInt = offsetValue arg ∧ (arg.isSome = true → map = none) := by
  cases arg with
  | none =>
    cases parsed
    exact ⟨by decide, fun given => by cases given⟩
  | some arg =>
    obtain ⟨_, -, parsed⟩ := bind_ok_iff.mp parsed
    obtain ⟨_, exclusive, parsed⟩ := bind_ok_iff.mp parsed
    obtain ⟨_, -, parsed⟩ := bind_ok_iff.mp parsed
    change Except.ok (BitVec.ofInt 64 (strtol 10 arg).1) = .ok offset at parsed
    refine ⟨?_, fun _ => by simpa using check_ok_iff.mp exclusive⟩
    have range := strtol_in_range 10 arg
    simp only [LONG_MIN, LONG_MAX] at range
    rw [← Except.ok.inj parsed, BitVec.toInt_ofInt, Int.bmod_eq_of_le (by omega) (by omega)]
    rfl

/-- What a mount that `main` accepts has as its maps and offsets. -/
structure AcceptedIds (system : System) (od : OptionData) (settings : Settings) : Prop where
  maps : runMapCalls system.users (mapCalls system od) =
    some ⟨settings.usermap, settings.usermap_reverse⟩
  uid_offset : settings.uid_offset.toInt = offsetValue od.uid_offset
  gid_offset : settings.gid_offset.toInt = offsetValue od.gid_offset
  exclusive : od.uid_offset.isSome = true ∨ od.gid_offset.isSome = true → od.map = none

theorem main_accepts {commandLine : CommandLine} {settings : Settings}
    (accepted : main system commandLine = .ok settings) :
    AcceptedIds system commandLine.od settings := by
  unfold main at accepted
  obtain ⟨⟨_, mntsrc⟩, -, accepted⟩ := bind_ok_iff.mp accepted
  obtain ⟨newUid, -, accepted⟩ := bind_ok_iff.mp accepted
  obtain ⟨newGid, -, accepted⟩ := bind_ok_iff.mp accepted
  obtain ⟨-, -, accepted⟩ := bind_ok_iff.mp accepted
  obtain ⟨-, -, accepted⟩ := bind_ok_iff.mp accepted
  obtain ⟨maps, parsedMaps, accepted⟩ := bind_ok_iff.mp accepted
  obtain ⟨uidOffset, parsedUid, accepted⟩ := bind_ok_iff.mp accepted
  obtain ⟨gidOffset, parsedGid, accepted⟩ := bind_ok_iff.mp accepted
  -- nothing after the offsets touches the maps or the offsets
  obtain ⟨alignment, -, accepted⟩ := bind_ok_iff.mp accepted
  obtain ⟨createForUid, -, accepted⟩ := bind_ok_iff.mp accepted
  obtain ⟨createForGid, -, accepted⟩ := bind_ok_iff.mp accepted
  obtain ⟨⟨mirroredUsersOnly, mirrored⟩, -, accepted⟩ := bind_ok_iff.mp accepted
  obtain ⟨permchain, -, accepted⟩ := bind_ok_iff.mp accepted
  obtain ⟨createPermchain, -, accepted⟩ := bind_ok_iff.mp accepted
  obtain ⟨chmodPermchain, -, accepted⟩ := bind_ok_iff.mp accepted
  obtain ⟨deletionPolicy, -, accepted⟩ := bind_ok_iff.mp accepted
  obtain ⟨-, -, accepted⟩ := bind_ok_iff.mp accepted
  obtain ⟨-, -, accepted⟩ := bind_ok_iff.mp accepted
  cases accepted
  obtain ⟨uidValue, uidExclusive⟩ := parseOffset_ok parsedUid
  obtain ⟨gidValue, gidExclusive⟩ := parseOffset_ok parsedGid
  exact ⟨runMapOptions_ok _ parsedMaps, uidValue, gidValue,
    fun given => given.elim uidExclusive gidExclusive⟩

end

end Bindfs.Source
