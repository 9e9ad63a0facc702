import Bindfs.Guarantees.MapUniqueness
import Bindfs.Source.Main
import Bindfs.Source.UserinfoSpecs

/-!
# One --map option for all of them

The five map options read names and files, in either direction. Whatever they read, a single
`--map` of numbers says the same: printing the pairs of the map and reading them back gives the
two maps again, entry by entry (`runMapCalls_numericSpec`), and so the same settings to mount with
(`map_options_have_a_normal_form`). The numbers depend on no user database.

Offsets are the exception: `--map` excludes them, while the options that read files do not.
-/
namespace Bindfs.Guarantees.MapNormalForm
open Bindfs.Source Bindfs.Lib.InverseTables Bindfs.Lib.Segments Bindfs.Guarantees.MapUniqueness

/-! ## Numbers -/

def decimal (id : Id) : CString := Nat.toDigits 10 id.toNat

theorem isDigit_decimal (id : Id) : ∀ c ∈ decimal id, c.isDigit = true :=
  fun _ member => Nat.isDigit_of_mem_toDigits (by decide) (by decide) member

theorem numeral_eq_ofDigitChars {digits : CString} (read : ∀ c ∈ digits, c.isDigit = true) :
    numeral 10 digits = Nat.ofDigitChars 10 digits 0 := by
  have general (value : Nat) : digits.foldl (fun value c => value * 10 + digitValue c) value =
      Nat.ofDigitChars 10 digits value := by
    induction digits generalizing value with
    | nil => rfl
    | cons c rest ih =>
      have digit := read c List.mem_cons_self
      rw [List.foldl_cons, ih fun c member => read c (List.mem_cons_of_mem _ member)]
      rw [digitValue, if_pos digit, Nat.mul_comm]
      rfl
  exact general 0

theorem decimal_spells (id : Id) : SignedNumeral (decimal id) id.toNat := by
  have spells : SignedNumeral (decimal id) (numeral 10 (decimal id)) :=
    .plain Nat.toDigits_ne_nil (isDigit_decimal id)
  rw [numeral_eq_ofDigitChars (isDigit_decimal id)] at spells
  have value : Nat.ofDigitChars 10 (decimal id) 0 = id.toNat := Nat.ofDigitChars_ten_toDigits
  rwa [value] at spells

/-- No user database is asked about a number. -/
theorem valueToId_decimal (db : UserDb) (kind : IdKind) (id : Id) : valueToId db kind (decimal id) = some id := by
  rw [valueToId_of_numeral db kind (decimal_spells id)]
  have same := (numericId_eq_iff id.toNat).mpr ⟨by omega, by have := id.isLt; omega⟩
  exact congrArg some (BitVec.eq_of_toNat_eq (by exact_mod_cast same))

/-! ## Text -/

def numericPair (pair : ReadPair) : NamePair := ⟨pair.1, decimal pair.2.1, decimal pair.2.2⟩

/-- Every pair is ended by a separator. -/
def specText (pairs : List ReadPair) : CString :=
  (pairs.map fun pair => (numericPair pair).text).flatMap fun text => text ++ [':']

theorem mem_text {pair : NamePair} {c : Char} (member : c ∈ pair.text) :
    c = '@' ∨ c = '/' ∨ c ∈ pair.left ∨ c ∈ pair.right := by
  obtain ⟨kind, left, right⟩ := pair
  cases kind with
  | uid =>
    simp only [NamePair.text, List.mem_append, List.mem_singleton] at member
    tauto
  | gid =>
    simp only [NamePair.text, List.mem_append, List.mem_cons, List.not_mem_nil] at member
    tauto

theorem not_separator_of_digit {c : Char} (digit : c.isDigit = true) : isSeparator c = false := by
  unfold isSeparator
  rw [Bool.or_eq_false_iff, decide_eq_false_iff_not, decide_eq_false_iff_not]
  constructor
  · rintro rfl
    cases digit
  · rintro rfl
    cases digit

theorem not_separator_text (pair : ReadPair) : ∀ c ∈ (numericPair pair).text, isSeparator c = false := by
  intro c member
  rcases mem_text member with rfl | rfl | left | right
  · rfl
  · rfl
  · exact not_separator_of_digit (isDigit_decimal _ c left)
  · exact not_separator_of_digit (isDigit_decimal _ c right)

theorem segments_specText (pairs : List ReadPair) :
    segments isSeparator (specText pairs) = (pairs.map numericPair).map NamePair.text := by
  rw [specText, segments_terminated isSeparator rfl, List.map_map]
  · rfl
  · intro text member
    obtain ⟨pair, -, rfl⟩ := List.mem_map.mp member
    exact not_separator_text pair

/-- Pairs printed as numbers are read back. -/
theorem mapList_specText (db : UserDb) (pairs : List ReadPair) :
    MapList db (specText pairs) (pairs.map numericPair) pairs where
  tokens := segments_specText pairs
  wellFormed name member := by
    obtain ⟨pair, -, rfl⟩ := List.mem_map.mp member
    constructor
    · intro slash
      cases isDigit_decimal _ _ slash
    · intro _ at_sign
      cases isDigit_decimal _ _ (List.mem_of_mem_head? at_sign)
  resolves := by
    rw [List.forall₂_map_left_iff, List.forall₂_same]
    intro pair _
    exact ⟨rfl, valueToId_decimal db pair.1 pair.2.1, valueToId_decimal db pair.1 pair.2.2⟩

/-! ## The maps again -/

def tagged (kind : IdKind) (table : Table Id) : List ReadPair := table.map fun pair => (kind, pair)

/-- The pairs of a map, users first. -/
def mapPairs (map : UserMap) : List ReadPair := tagged .uid (map.table .uid) ++ tagged .gid (map.table .gid)

def numericSpec (map : UserMap) : CString := specText (mapPairs map)

theorem entries_tagged {kind : IdKind} {table : Table Id} (different : ∀ a, (a, a) ∉ table) :
    entries kind (tagged kind table) = table := by
  induction table with
  | nil => rfl
  | cons pair rest ih =>
    obtain ⟨a, b⟩ := pair
    have apart : a ≠ b := by
      rintro rfl
      exact different a List.mem_cons_self
    have others := ih fun a member => different a (List.mem_cons_of_mem _ member)
    rw [tagged, entries, List.map_cons, List.filterMap_cons, if_pos ⟨rfl, apart⟩]
    exact congrArg ((a, b) :: ·) others

theorem entries_tagged_other {kind other : IdKind} (another : other ≠ kind) (table : Table Id) :
    entries kind (tagged other table) = [] := by
  rw [entries, tagged, List.filterMap_map, List.filterMap_eq_nil_iff]
  intro pair _
  simp [another]

/-- A table of a map is accepted again, pair by pair. -/
theorem addPairs_built {kind : IdKind} {table : Table Id} (built : Built noId table) {maps : MapPair}
    (fresh : maps.map.table kind = []) (fresh' : maps.reverseMap.table kind = []) :
    ∃ out, addPairs maps (tagged kind table) = some out := by
  induction built with
  | nil => exact ⟨maps, rfl⟩
  | @snoc table a b before different absent absent_swapped ih =>
    obtain ⟨middle, added⟩ := ih
    obtain ⟨forward, backward⟩ := addPairs_tables _ added kind
    rw [fresh, entries_tagged before.not_diagonal, List.nil_append] at forward
    rw [fresh', entries_tagged before.not_diagonal, List.nil_append] at backward
    rw [← forward] at absent
    rw [← backward] at absent_swapped
    obtain ⟨out, last⟩ := (addPair_accepted_iff kind middle a b).mpr (Or.inr ⟨absent, absent_swapped⟩)
    have snoc : tagged kind (table ++ [(a, b)]) = tagged kind table ++ [(kind, a, b)] := by simp [tagged]
    exact ⟨out, by rw [snoc, addPairs_snoc, added, Option.bind_some, last]⟩

theorem eq_of_tables {map map' : UserMap} (same : ∀ kind, map.table kind = map'.table kind) : map = map' := by
  obtain ⟨users, groups⟩ := map
  obtain ⟨users', groups'⟩ := map'
  have uid : users = users' := same .uid
  have gid : groups = groups' := same .gid
  rw [uid, gid]

theorem entries_mapPairs {maps : MapPair} (paired : Paired maps) (kind : IdKind) :
    entries kind (mapPairs maps.map) = maps.map.table kind := by
  have split : entries kind (mapPairs maps.map) =
      entries kind (tagged .uid (maps.map.table .uid)) ++ entries kind (tagged .gid (maps.map.table .gid)) :=
    List.filterMap_append ..
  rw [split]
  cases kind with
  | uid =>
    rw [entries_tagged (paired.built .uid).not_diagonal, entries_tagged_other (by decide), List.append_nil]
  | gid =>
    rw [entries_tagged (paired.built .gid).not_diagonal, entries_tagged_other (by decide), List.nil_append]

/-- The pairs of a map, entered into empty maps, make the map and its reverse again. -/
theorem addPairs_mapPairs {maps : MapPair} (paired : Paired maps) :
    addPairs ⟨usermapCreate, usermapCreate⟩ (mapPairs maps.map) = some maps := by
  have users : ∃ middle, addPairs ⟨usermapCreate, usermapCreate⟩ (tagged .uid (maps.map.table .uid)) =
      some middle := addPairs_built (paired.built .uid) rfl rfl
  obtain ⟨middle, users⟩ := users
  have untouched := addPairs_tables _ users .gid
  rw [entries_tagged_other (by decide)] at untouched
  obtain ⟨out, groups⟩ := addPairs_built (paired.built .gid) untouched.1 untouched.2
  have both : addPairs ⟨usermapCreate, usermapCreate⟩ (mapPairs maps.map) = some out := by
    rw [mapPairs, addPairs, List.foldlM_append]
    exact Option.bind_eq_some_iff.mpr ⟨middle, users, groups⟩
  have forward : out.map = maps.map := by
    apply eq_of_tables
    intro kind
    rw [(addPairs_tables _ both kind).1, entries_mapPairs paired]
    cases kind <;> rfl
  have backward : out.reverseMap = maps.reverseMap := by
    apply eq_of_tables
    intro kind
    rw [(addPairs_tables _ both kind).2, entries_mapPairs paired, paired.partner kind]
    cases kind <;> rfl
  rw [both, Option.some.injEq]
  cases out
  cases maps
  rw [MapPair.mk.injEq]
  exact ⟨forward, backward⟩

/-- Any accepted sequence of parser calls and the numbers read from it leave the same maps. -/
theorem runMapCalls_numericSpec (db db' : UserDb) (calls : List MapCall) {maps : MapPair}
    (ran : runMapCalls db calls = some maps) :
    runMapCalls db' [.userMap false (numericSpec maps.map)] = some maps := by
  have paired := (runMapCalls_tables db calls ran).1
  have read := parseUserMap_eq (mapList_specText db' (mapPairs maps.map)) ⟨usermapCreate, usermapCreate⟩
  rw [addPairs_mapPairs paired] at read
  rw [runMapCalls, List.foldlM_cons]
  exact Option.bind_eq_some_iff.mpr ⟨maps, read, rfl⟩

/-! ## main -/

section
variable {system : System}

/-- Root may use every map option. -/
theorem runMapOptions_root (root : system.getuid = 0#32) (options : List (Option MapCall)) (maps : MapPair) :
    options.foldlM (fun maps option => runMapOption system option maps) maps =
      orReturn (options.reduceOption.foldlM (MapCall.run system.users) maps) := by
  induction options generalizing maps with
  | nil => rfl
  | cons option rest ih =>
    rw [List.foldlM_cons]
    cases option with
    | none => exact ih maps
    | some call =>
      have allowed : check (decide (system.getuid = 0#32)) = .ok () := by rw [root]; rfl
      rw [List.reduceOption_cons_of_some, List.foldlM_cons, runMapOption, allowed]
      cases call.run system.users maps with
      | none => rfl
      | some next => exact ih next

theorem parseMaps_root (root : system.getuid = 0#32) (od : OptionData) :
    parseMaps system od = orReturn (runMapCalls system.users (mapCalls system od)) :=
  runMapOptions_root root _ _

/-- The options with a single `--map` in place of the map options. -/
def withSingleMap (od : OptionData) (spec : CString) : OptionData :=
  { od with
    map := some spec
    map_passwd := none
    map_passwd_rev := none
    map_group := none
    map_group_rev := none }

theorem mapCalls_withSingleMap (od : OptionData) (spec : CString) :
    mapCalls system (withSingleMap od spec) = [.userMap false spec] := rfl

end

/-- Root mounts with the same settings when all map options are replaced by one `--map` that
gives the pairs of the resulting map as numbers, as long as there are no offsets. -/
theorem map_options_have_a_normal_form {system : System} {commandLine : CommandLine} {settings : Settings}
    (accepted : main system commandLine = .ok settings) (root : system.getuid = 0#32)
    (no_uid_offset : commandLine.od.uid_offset = none) (no_gid_offset : commandLine.od.gid_offset = none) :
    main system { commandLine with od := withSingleMap commandLine.od (numericSpec settings.usermap) } =
      .ok settings := by
  have read := (main_accepts accepted).maps
  have again := runMapCalls_numericSpec system.users system.users _ read
  have maps : parseMaps system (withSingleMap commandLine.od (numericSpec settings.usermap)) =
      parseMaps system commandLine.od := by
    rw [parseMaps_root root, parseMaps_root root, mapCalls_withSingleMap, read, again]
  have uid : (withSingleMap commandLine.od (numericSpec settings.usermap)).uid_offset = none := no_uid_offset
  have gid : (withSingleMap commandLine.od (numericSpec settings.usermap)).gid_offset = none := no_gid_offset
  rw [← accepted]
  unfold main
  simp only [maps, uid, gid, no_uid_offset, no_gid_offset]
  rfl

/-- `bindfs --map-passwd=p /s /m`. -/
def passwdOnly : CommandLine where
  od := { OptionData.empty with map_passwd := some ['p'] }
  calls := [(.nonoption, ['/', 's']), (.nonoption, ['/', 'm'])]
  malformed := false

/-- That is `bindfs --map=1000/1001: /s /m`. -/
theorem map_options_have_a_normal_form_of_passwd : ∃ settings,
    main (passwdSystem "1001:x:1000\n") passwdOnly = .ok settings ∧
      settings.usermap = ⟨[(1000#32, 1001#32)], []⟩ ∧
      main (passwdSystem "1001:x:1000\n")
        { passwdOnly with od := { OptionData.empty with map := some "1000/1001:".toList } } = .ok settings := by
  have accepted : ∃ settings, main (passwdSystem "1001:x:1000\n") passwdOnly = .ok settings ∧
      settings.usermap = ⟨[(1000#32, 1001#32)], []⟩ := ⟨_, rfl, rfl⟩
  obtain ⟨settings, accepted, map⟩ := accepted
  have same := map_options_have_a_normal_form accepted rfl rfl rfl
  rw [map] at same
  exact ⟨settings, accepted, map, same⟩

end Bindfs.Guarantees.MapNormalForm
