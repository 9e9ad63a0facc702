import Bindfs.Guarantees.MapFiles
import Bindfs.Source.Main
import Bindfs.Source.MirrorParser
import Bindfs.Source.UserinfoSpecs

/-!
# Ids given as numbers

Wherever the command line or a file names a user or a group, the name goes through
`user_uid` or `group_gid`, whose numeric branch is `strtol` into a 32-bit id without a check
of the range or of the digits:

* a number is kept exactly when an id can hold it (`numeric_ids_kept_iff`);
* the empty name is the id 0, so the parsers accept specifications with names left out
  (`empty_names_refused_iff`).
-/
namespace Bindfs.Guarantees.NumericIds
open Bindfs.Source Bindfs.Lib.Segments Bindfs.Lib.InverseTables Bindfs.Guarantees.MapFiles

/-! ## Numbers -/

/-- The id is the number written. -/
def Kept (n : Int) (id : Id) : Prop := (id.toNat : Int) = n

/-- The numerals `s` and `t`, which spell `n` and `m`, are kept by every reader of ids, alone
and as the two sides of a map entry, and stand for different ids when they differ. -/
structure NumbersKept (system : System) (s t : CString) (n m : Int) : Prop where
  user_uid : (∀ id, userUid system.users s = some id → Kept n id) ∧
    ∀ id, userUid system.users t = some id → Kept m id
  group_gid : (∀ id, groupGid system.users s = some id → Kept n id) ∧
    ∀ id, groupGid system.users t = some id → Kept m id
  distinct : n ≠ m → ∀ kind id, valueToId system.users kind s = some id →
    valueToId system.users kind t ≠ some id
  force : ∀ kind id, parseIdOption (valueToId system.users kind) (some s) = .ok id → Kept n id
  create_for : ∀ kind id,
    parseRootIdOption system (valueToId system.users kind) (some s) = .ok id → Kept n id
  mirror_user : ∀ numUsers numMembers found out,
    mirrorToken system.users numUsers numMembers found s = .ok out →
      ∃ id, out = { found with users := found.users ++ [id] } ∧ Kept n id
  mirror_group : ∀ numUsers numMembers found out,
    mirrorToken system.users numUsers numMembers found ('@' :: s) = .ok out →
      ∃ id, out = { found with members := found.members ++ [id] } ∧ Kept n id
  map_users : ∀ kind fromId toId,
    readMapToken system.users (s ++ '/' :: t) = some (kind, fromId, toId) →
      kind = .uid ∧ Kept n fromId ∧ Kept m toId
  map_groups : ∀ kind fromId toId,
    readMapToken system.users ('@' :: s ++ '/' :: '@' :: t) = some (kind, fromId, toId) →
      kind = .gid ∧ Kept n fromId ∧ Kept m toId
  map_file : ∀ kind line second rest fromId toId,
    fields line = t :: second :: s :: rest → second ≠ [] →
      readMapLine (valueToId system.users kind) line = .pair fromId toId →
        Kept n fromId ∧ Kept m toId

section
variable (db : UserDb) {s t : CString} {n m : Int}

theorem userUid_of_numeral (first : SignedNumeral s n) : userUid db s = some (numericId n) :=
  valueToId_of_numeral db .uid first

theorem groupGid_of_numeral (first : SignedNumeral s n) : groupGid db s = some (numericId n) :=
  valueToId_of_numeral db .gid first

theorem not_groupToken_of_numeral (first : SignedNumeral s n) : isGroupToken s = false := by
  have noAt : '@' ∉ s := first.not_mem (by decide)
  cases s with
  | nil => rfl
  | cons c rest =>
    have other : c ≠ '@' := fun same => noAt (by simp [same])
    simp [isGroupToken, other]

theorem readMapToken_of_numerals (first : SignedNumeral s n) (second : SignedNumeral t m) :
    readMapToken db (s ++ '/' :: t) = some (.uid, numericId n, numericId m) := by
  have cut := strstr_append '/' [] s t (first.not_mem (by decide))
  rw [List.append_assoc] at cut
  have noAt := not_groupToken_of_numeral first
  obtain ⟨c, rest, rfl⟩ := List.exists_cons_of_ne_nil first.ne_nil
  have other : c ≠ '@' := by
    rintro rfl
    cases noAt
  unfold readMapToken
  split
  · rename_i same
    exact absurd (List.cons.inj same).1 other
  · simp only [List.singleton_append] at cut
    simp only [cut, userUid_of_numeral db first, userUid_of_numeral db second]

theorem readMapToken_of_group_numerals (first : SignedNumeral s n) (second : SignedNumeral t m) :
    readMapToken db ('@' :: s ++ '/' :: '@' :: t) = some (.gid, numericId n, numericId m) := by
  have fresh : '/' ∉ '@' :: s := by
    rw [List.mem_cons, not_or]
    exact ⟨by decide, first.not_mem (by decide)⟩
  have cut := strstr_append '/' ['@'] ('@' :: s) t fresh
  rw [List.append_assoc] at cut
  unfold readMapToken
  simp only [List.cons_append, List.nil_append] at cut ⊢
  simp only [cut, List.tail_cons, groupGid_of_numeral db first, groupGid_of_numeral db second]

theorem readMapLine_of_numerals (first : SignedNumeral s n) (second : SignedNumeral t m)
    (kind : IdKind) {line column : CString} {rest : List CString}
    (split : fields line = t :: column :: s :: rest) (filled : column ≠ []) :
    readMapLine (valueToId db kind) line = .pair (numericId n) (numericId m) := by
  have cut : tokens line = t :: column :: s :: rest.filter (· ≠ []) := by
    rw [tokens, split]
    simp [first.ne_nil, second.ne_nil, filled]
  rw [readMapLine_eq, cut]
  simp only [valueToId_of_numeral db kind first, valueToId_of_numeral db kind second]

/-- A numeral that the mirror parser stores as a user. -/
theorem mirrorToken_of_numeral (first : SignedNumeral s n) {numUsers numMembers : Nat}
    {found out : Mirrored} (read : mirrorToken db numUsers numMembers found s = .ok out) :
    out = { found with users := found.users ++ [numericId n] } := by
  have user := not_groupToken_of_numeral first
  rw [mirrorToken_user _ _ _ _ user, mirrorId, user, if_neg Bool.false_ne_true,
    userUid_of_numeral db first] at read
  dsimp only at read
  split at read
  · exact (Except.ok.inj read).symm
  · cases read

theorem mirrorToken_of_group_numeral (first : SignedNumeral s n) {numUsers numMembers : Nat}
    {found out : Mirrored} (read : mirrorToken db numUsers numMembers found ('@' :: s) = .ok out) :
    out = { found with members := found.members ++ [numericId n] } := by
  rw [mirrorToken, groupGid_of_numeral db first] at read
  dsimp only at read
  split at read
  · exact (Except.ok.inj read).symm
  · cases read

theorem rootId_of_numeral {system : System} (first : SignedNumeral s n) {kind : IdKind} {id : Id}
    (read : parseRootIdOption system (valueToId system.users kind) (some s) = .ok id) :
    id = numericId n := by
  rw [parseRootIdOption, valueToId_of_numeral system.users kind first] at read
  by_cases root : system.getuid = 0#32
  · simp only [check, root, decide_true, if_true] at read
    exact (Except.ok.inj read).symm
  · simp only [check, root, decide_false, Bool.false_eq_true, if_false] at read
    cases read

end

/-- Numbers are kept, and two of them kept apart, exactly when both fit an id. -/
theorem numeric_ids_kept_iff (system : System) {s t : CString} {n m : Int}
    (first : SignedNumeral s n) (second : SignedNumeral t m) :
    NumbersKept system s t n m ↔ (0 ≤ n ∧ n < 2 ^ 32) ∧ 0 ≤ m ∧ m < 2 ^ 32 := by
  have users := userUid_of_numeral system.users first
  have users' := userUid_of_numeral system.users second
  have groups := groupGid_of_numeral system.users first
  have groups' := groupGid_of_numeral system.users second
  have ids := fun kind => valueToId_of_numeral system.users kind first
  rw [← numericId_eq_iff n, ← numericId_eq_iff m]
  constructor
  · intro kept
    exact ⟨kept.user_uid.1 _ users, kept.user_uid.2 _ users'⟩
  · rintro ⟨here, there⟩
    constructor
    case user_uid => simpa [users, users'] using ⟨here, there⟩
    case group_gid => simpa [groups, groups'] using ⟨here, there⟩
    case distinct =>
      intro differ kind id read read'
      rw [ids] at read
      rw [valueToId_of_numeral system.users kind second, ← read] at read'
      rw [← here, ← there, Option.some.inj read'] at differ
      exact differ rfl
    case force =>
      intro kind id read
      rw [parseIdOption, ids] at read
      cases read
      exact here
    case create_for =>
      intro kind id read
      rw [rootId_of_numeral first read]
      exact here
    case mirror_user =>
      intro numUsers numMembers found out read
      exact ⟨_, mirrorToken_of_numeral _ first read, here⟩
    case mirror_group =>
      intro numUsers numMembers found out read
      exact ⟨_, mirrorToken_of_group_numeral _ first read, here⟩
    case map_users =>
      intro kind fromId toId read
      rw [readMapToken_of_numerals _ first second] at read
      cases read
      exact ⟨rfl, here, there⟩
    case map_groups =>
      intro kind fromId toId read
      rw [readMapToken_of_group_numerals _ first second] at read
      cases read
      exact ⟨rfl, here, there⟩
    case map_file =>
      intro kind line column rest fromId toId split filled read
      rw [readMapLine_of_numerals _ first second kind split filled] at read
      cases read
      exact ⟨here, there⟩

/-- 1000 and +4294967295, the largest id. -/
theorem numeric_ids_kept_of_largest :
    SignedNumeral ['1', '0', '0', '0'] 1000 ∧
    SignedNumeral ['+', '4', '2', '9', '4', '9', '6', '7', '2', '9', '5'] 4294967295 ∧
    NumbersKept rootSystem ['1', '0', '0', '0']
      ['+', '4', '2', '9', '4', '9', '6', '7', '2', '9', '5'] 1000 4294967295 :=
  ⟨.plain (by decide) (by decide), .plus (by decide) (by decide),
    (numeric_ids_kept_iff rootSystem (.plain (by decide) (by decide))
      (.plus (by decide) (by decide))).mpr (by decide)⟩

/-- 4294967296 is read as root's id. -/
theorem numeric_ids_not_kept :
    SignedNumeral ['4', '2', '9', '4', '9', '6', '7', '2', '9', '6'] 4294967296 ∧
    ¬ NumbersKept rootSystem ['4', '2', '9', '4', '9', '6', '7', '2', '9', '6']
      ['0'] 4294967296 0 := by
  refine ⟨.plain (by decide) (by decide), fun kept => ?_⟩
  have altered : ((0#32).toNat : Int) = 4294967296 := kept.user_uid.1 0#32 (by decide +kernel)
  exact absurd altered (by decide)

/-! ## Empty names -/

/-- The two names of a map token: around the first '/', or around the first "/@" of a group
token, whose '@' is not part of the name. -/
def tokenNames (token : CString) : Option (CString × CString) :=
  if isGroupToken token then (strstr ['/', '@'] token).map fun parts => (parts.1.tail, parts.2)
  else strstr ['/'] token

def BothGiven (names : CString × CString) : Prop := names.1 ≠ [] ∧ names.2 ≠ []

/-- What an accepted map specification should name. -/
def MapNamesGiven (db : UserDb) (maps : MapPair) (spec : CString) : Prop :=
  ∀ out, parseUserMap db maps spec = some out →
    ∀ token ∈ segments isSeparator spec, ∃ names, tokenNames token = some names ∧ BothGiven names

/-- What an accepted list of mirrored users should name. -/
def MirrorNamesGiven (db : UserDb) (mirror : CString) : Prop :=
  ∀ out, parseMirroredUsers db mirror = .ok out →
    ∀ token ∈ mirrorTokens mirror, token ≠ [] ∧ token ≠ ['@']

/-- What the numeric branch should be for. -/
def NumericNeedsDigit (name : CString) : Prop :=
  takesNumericBranch name = true → ∃ c ∈ name, c.isDigit = true

/-- The kind of id a token of either parser stands for. -/
def tokenKind (token : CString) : IdKind := if isGroupToken token then .gid else .uid

/-- Neither a numeric string nor a name of the database. -/
def Unknown (db : UserDb) (kind : IdKind) (name : CString) : Prop :=
  takesNumericBranch name = false ∧
    match kind with
    | .uid => db.getpwnam name = none
    | .gid => db.getgrnam name = none

/-- No slash to cut at, or an unknown name on one side of it. -/
def Unreadable (db : UserDb) (token : CString) : Prop :=
  ∀ names, tokenNames token = some names →
    Unknown db (tokenKind token) names.1 ∨ Unknown db (tokenKind token) names.2

theorem valueToId_none_iff (db : UserDb) (kind : IdKind) (name : CString) :
    valueToId db kind name = none ↔ Unknown db kind name := by
  unfold Unknown takesNumericBranch
  by_cases numeric : (strtol 10 name).2 = []
  · cases kind <;> simp [valueToId, userUid, groupGid, nameToId, numeric]
  · cases kind <;> simp [valueToId, userUid, groupGid, nameToId, numeric]

/-- A token reads as the pair of its two names. -/
theorem readMapToken_eq (db : UserDb) (token : CString) :
    readMapToken db token = (tokenNames token).bind fun names =>
      match valueToId db (tokenKind token) names.1, valueToId db (tokenKind token) names.2 with
      | some fromId, some toId => some (tokenKind token, fromId, toId)
      | _, _ => none := by
  unfold readMapToken tokenNames tokenKind
  split
  · rename_i groupname
    have group : isGroupToken ('@' :: groupname) = true := rfl
    simp only [group, if_true]
    cases strstr ['/', '@'] ('@' :: groupname) with
    | none => rfl
    | some parts => rfl
  · rename_i other
    have user : ¬ isGroupToken token = true := by
      intro group
      cases token with
      | nil => cases group
      | cons c rest =>
        have at_sign : c = '@' := by simpa [isGroupToken] using group
        exact other rest (by rw [at_sign])
    simp only [if_neg user]
    cases strstr ['/'] token with
    | none => rfl
    | some parts => rfl

theorem readMapToken_none_iff (db : UserDb) (token : CString) :
    readMapToken db token = none ↔ Unreadable db token := by
  rw [readMapToken_eq]
  unfold Unreadable
  simp only [← valueToId_none_iff]
  cases tokenNames token with
  | none => simp
  | some names =>
    simp only [Option.bind_some, Option.some.injEq, forall_eq']
    cases valueToId db (tokenKind token) names.1 <;>
      cases valueToId db (tokenKind token) names.2 <;> simp

theorem mirrorId_none_iff (db : UserDb) (token : CString) :
    mirrorId db token = none ↔
      Unknown db (tokenKind token) (if isGroupToken token then token.tail else token) := by
  rw [← valueToId_none_iff]
  unfold mirrorId tokenKind
  split <;> rfl

theorem map_names_given_iff (db : UserDb) (maps : MapPair) (spec : CString) :
    MapNamesGiven db maps spec ↔
      (∀ token ∈ segments isSeparator spec, ∀ names, tokenNames token = some names →
          BothGiven names) ∨
        (∃ token ∈ segments isSeparator spec, Unreadable db token) ∨
        RefusedByGuard maps ((segments isSeparator spec).filterMap (readMapToken db)) := by
  have accepted := parseUserMap_some_iff db maps spec
  simp only [← readMapToken_none_iff]
  constructor
  · intro given
    by_cases reads : ∀ token ∈ segments isSeparator spec, readMapToken db token ≠ none
    · by_cases refused : RefusedByGuard maps ((segments isSeparator spec).filterMap (readMapToken db))
      · exact .inr (.inr refused)
      · obtain ⟨out, parsed⟩ := accepted.mpr ⟨reads, refused⟩
        refine .inl fun token member names cut => ?_
        obtain ⟨others, cut', both⟩ := given out parsed token member
        rw [cut] at cut'
        cases cut'
        exact both
    · push Not at reads
      exact .inr (.inl reads)
  · intro harmless out parsed token member
    obtain ⟨reads, unrefused⟩ := accepted.mp ⟨out, parsed⟩
    rcases harmless with given | ⟨other, member', unread⟩ | refused
    · have read := reads token member
      rw [readMapToken_eq] at read
      cases cut : tokenNames token with
      | none => simp [cut] at read
      | some names => exact ⟨names, rfl, given token member names cut⟩
    · exact absurd unread (reads other member')
    · exact absurd refused unrefused

theorem mirror_names_given_iff (db : UserDb) (mirror : CString) :
    MirrorNamesGiven db mirror ↔
      (∀ token ∈ mirrorTokens mirror, token ≠ [] ∧ token ≠ ['@']) ∨
        (∃ token ∈ mirrorTokens mirror, Unknown db (tokenKind token)
          (if isGroupToken token then token.tail else token)) ∨ EndsInBareAt mirror := by
  have accepted := parseMirroredUsers_ok_iff db mirror
  simp only [← mirrorId_none_iff]
  constructor
  · intro given
    by_cases bare : EndsInBareAt mirror
    · exact .inr (.inr bare)
    · by_cases resolved : ∀ token ∈ mirrorTokens mirror, mirrorId db token ≠ none
      · obtain ⟨out, parsed⟩ := accepted.mpr ⟨bare, resolved⟩
        exact .inl (given out parsed)
      · push Not at resolved
        exact .inr (.inl resolved)
  · intro harmless out parsed
    obtain ⟨clean, resolved⟩ := accepted.mp ⟨out, parsed⟩
    rcases harmless with given | ⟨token, member, unresolved⟩ | bare
    · exact given
    · exact absurd unresolved (resolved token member)
    · exact absurd bare clean

theorem numeric_needs_digit_iff (name : CString) : NumericNeedsDigit name ↔ name ≠ [] := by
  constructor
  · rintro needs rfl
    obtain ⟨c, member, -⟩ := needs (by decide)
    cases member
  · intro nonempty numeric
    exact (takesNumericBranch_cases numeric).resolve_left nonempty

/-- The map parser, the mirror parser and the numeric branch accept an empty name unless
another part of the input stops them: the name is read as the id 0. -/
theorem empty_names_refused_iff (db : UserDb) (maps : MapPair) (spec mirror name : CString) :
    (MapNamesGiven db maps spec ↔
      (∀ token ∈ segments isSeparator spec, ∀ names, tokenNames token = some names →
          BothGiven names) ∨
        (∃ token ∈ segments isSeparator spec, Unreadable db token) ∨
        RefusedByGuard maps ((segments isSeparator spec).filterMap (readMapToken db))) ∧
    (MirrorNamesGiven db mirror ↔
      (∀ token ∈ mirrorTokens mirror, token ≠ [] ∧ token ≠ ['@']) ∨
        (∃ token ∈ mirrorTokens mirror, Unknown db (tokenKind token)
          (if isGroupToken token then token.tail else token)) ∨ EndsInBareAt mirror) ∧
    (NumericNeedsDigit name ↔ name ≠ []) :=
  ⟨map_names_given_iff db maps spec, mirror_names_given_iff db mirror, numeric_needs_digit_iff name⟩

/-- `--map=/` and `--mirror=` are accepted: their empty names are root. -/
theorem empty_names_accepted :
    ¬ MapNamesGiven rootSystem.users ⟨usermapCreate, usermapCreate⟩ ['/'] ∧
      ¬ MirrorNamesGiven rootSystem.users [] ∧ ¬ NumericNeedsDigit [] := by
  refine ⟨fun given => ?_, fun given => ?_, fun needs => ?_⟩
  · obtain ⟨names, cut, both⟩ := given ⟨usermapCreate, usermapCreate⟩ (by decide +kernel) ['/']
      (by decide +kernel)
    have empty : tokenNames ['/'] = some ([], []) := by decide
    rw [empty] at cut
    cases cut
    exact both.1 rfl
  · exact (given ⟨[0#32], []⟩ (by decide +kernel) [] (by decide)).1 rfl
  · obtain ⟨c, member, -⟩ := needs (by decide)
    cases member

end Bindfs.Guarantees.NumericIds
