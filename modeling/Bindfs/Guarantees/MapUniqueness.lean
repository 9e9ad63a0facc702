import Bindfs.Source.MapInvariant

/-!
# The uniqueness rule of --map

The manual allows a user or group once on the left and once on the right of a slash. The parser
applies the rule to the pairs of two different ids whose first entry is not (uid_t)-1: an
identity pair is passed over before the duplicate check, and the entry -1 looks absent.

`uniqueness_rule_iff` says for which lists of pairs the two agree.
-/
namespace Bindfs.Guarantees.MapUniqueness
open Bindfs.Source Bindfs.Lib.InverseTables Bindfs.Lib.Segments

/-! ## Well-formed lists -/

/-- A pair user1/user2 or @group1/@group2 as it is written. -/
structure NamePair where
  kind : IdKind
  left : CString
  right : CString

def NamePair.text (pair : NamePair) : CString :=
  match pair.kind with
  | .uid => pair.left ++ ['/'] ++ pair.right
  | .gid => '@' :: pair.left ++ ['/', '@'] ++ pair.right

structure NamePair.WellFormed (pair : NamePair) : Prop where
  no_slash : '/' ∉ pair.left
  user : pair.kind = .uid → pair.left.head? ≠ some '@'

/-- The names of the pair stand for the two ids. -/
structure NamePair.Resolves (db : UserDb) (pair : NamePair) (ids : ReadPair) : Prop where
  kind : ids.1 = pair.kind
  left : valueToId db pair.kind pair.left = some ids.2.1
  right : valueToId db pair.kind pair.right = some ids.2.2

theorem readMapToken_text {db : UserDb} {pair : NamePair} {ids : ReadPair}
    (wellFormed : pair.WellFormed) (resolves : pair.Resolves db ids) :
    readMapToken db pair.text = some ids := by
  obtain ⟨kind, left, right⟩ := pair
  obtain ⟨idKind, a, b⟩ := ids
  obtain ⟨same, leftId, rightId⟩ := resolves
  simp only at same leftId rightId
  subst same
  cases idKind with
  | uid =>
    have cut := strstr_append '/' [] left right wellFormed.no_slash
    have user := wellFormed.user rfl
    change readMapToken db (left ++ ['/'] ++ right) = _
    unfold readMapToken
    split
    · rename_i rest same
      cases left with
      | nil => cases same
      | cons c left =>
        have at_sign : c = '@' := by
          rw [List.cons_append, List.cons_append] at same
          exact (List.cons.inj same).1
        exact absurd (by rw [at_sign]; rfl) user
    · rw [cut]
      simp only
      rw [show userUid db left = some a from leftId, show userUid db right = some b from rightId]
  | gid =>
    have fresh : '/' ∉ '@' :: left := by simpa using wellFormed.no_slash
    have cut := strstr_append '/' ['@'] ('@' :: left) right fresh
    change readMapToken db ('@' :: left ++ ['/', '@'] ++ right) = _
    rw [List.cons_append, List.cons_append]
    unfold readMapToken
    simp only
    rw [List.cons_append, List.cons_append] at cut
    rw [cut]
    simp only [List.tail_cons]
    rw [show groupGid db left = some a from leftId, show groupGid db right = some b from rightId]

/-- The text is a list of the well-formed pairs, and all names resolve. -/
structure MapList (db : UserDb) (spec : CString) (names : List NamePair) (pairs : List ReadPair) :
    Prop where
  tokens : segments isSeparator spec = names.map NamePair.text
  wellFormed : ∀ pair ∈ names, pair.WellFormed
  resolves : List.Forall₂ (NamePair.Resolves db) names pairs

/-- The parser enters exactly the pairs of the list. -/
theorem parseUserMap_eq {db : UserDb} {spec : CString} {names : List NamePair}
    {pairs : List ReadPair} (list : MapList db spec names pairs) (maps : MapPair) :
    parseUserMap db maps spec = addPairs maps pairs := by
  obtain ⟨tokens, wellFormed, resolves⟩ := list
  rw [parseUserMap, scan_eq_foldlM, tokens]
  clear tokens
  induction resolves generalizing maps with
  | nil => rfl
  | @cons name ids names pairs first rest ih =>
    have read := readMapToken_text (wellFormed name (by simp)) first
    rw [List.map_cons, List.foldlM_cons, addPairs, List.foldlM_cons]
    unfold addMapToken
    simp only [read]
    congr 1
    funext maps
    exact ih maps fun pair member => wellFormed pair (by simp [member])

/-! ## The rule -/

def lefts (kind : IdKind) (pairs : List ReadPair) : List Id :=
  (pairs.filter fun pair => pair.1 = kind).map fun pair => pair.2.1

def rights (kind : IdKind) (pairs : List ReadPair) : List Id :=
  (pairs.filter fun pair => pair.1 = kind).map fun pair => pair.2.2

/-- No uid and no gid stands twice on the left or twice on the right of a slash. -/
def UniqueSides (pairs : List ReadPair) : Prop :=
  ∀ kind, (lefts kind pairs).Nodup ∧ (rights kind pairs).Nodup

/-- `usermap_get_uid_or_default` or `usermap_get_gid_or_default` with the id as default. -/
def mapped (map : UserMap) (kind : IdKind) (id : Id) : Id :=
  match kind with
  | .uid => usermapGetUidOrDefault map id id
  | .gid => usermapGetGidOrDefault map id id

theorem mapped_eq (map : UserMap) (kind : IdKind) (id : Id) :
    mapped map kind id = getOrDefault (map.table kind) id id := by
  cases kind <;> rfl

/-- The parser returns 1 exactly for unique sides, and then maps every left id to its right. -/
structure UniquenessRule (db : UserDb) (spec : CString) (pairs : List ReadPair) : Prop where
  accepts : (∃ maps, parseUserMap db ⟨usermapCreate, usermapCreate⟩ spec = some maps) ↔
    UniqueSides pairs
  looked_up : ∀ maps, parseUserMap db ⟨usermapCreate, usermapCreate⟩ spec = some maps →
    ∀ pair ∈ pairs, mapped maps.map pair.1 pair.2.1 = pair.2.2

theorem keys_entries_sublist (kind : IdKind) (pairs : List ReadPair) :
    (keys (entries kind pairs)).Sublist (lefts kind pairs) := by
  induction pairs with
  | nil => simp [entries, keys]
  | cons pair rest ih =>
    unfold entries keys lefts at ih ⊢
    by_cases same : pair.1 = kind
    · by_cases different : pair.2.1 = pair.2.2
      · simpa [List.filterMap_cons, same, different] using ih.cons pair.2.2
      · simpa [List.filterMap_cons, same, different] using ih
    · simpa [List.filterMap_cons, same] using ih

theorem rights_eq_lefts_turned (kind : IdKind) (pairs : List ReadPair) :
    rights kind pairs = lefts kind (pairs.map turned) := by
  unfold rights lefts
  rw [List.filter_map, List.map_map]
  rfl

/-- The guard only refuses lists that break the rule. -/
theorem not_refusedRepeat_of_unique {pairs : List ReadPair} (unique : UniqueSides pairs) :
    ¬ RefusedRepeat pairs := by
  rintro ⟨kind, left | right⟩
  · exact not_showsRepeat_of_nodup ((unique kind).1.sublist (keys_entries_sublist kind pairs)) left
  · have distinct := (unique kind).2
    rw [rights_eq_lefts_turned] at distinct
    rw [← entries_turned] at right
    exact not_showsRepeat_of_nodup (distinct.sublist (keys_entries_sublist kind _)) right

theorem eq_of_unique_left {pairs : List ReadPair} {kind : IdKind} {a b c : Id}
    (unique : (lefts kind pairs).Nodup) (first : (kind, a, b) ∈ pairs)
    (second : (kind, a, c) ∈ pairs) : b = c := by
  have same := List.inj_on_of_nodup_map unique
    (List.mem_filter.mpr ⟨first, decide_eq_true rfl⟩)
    (List.mem_filter.mpr ⟨second, decide_eq_true rfl⟩) rfl
  exact congrArg (fun pair => pair.2.2) same

/-- With unique left sides every pair is found again, an identity pair through the default. -/
theorem lookup_of_unique {pairs : List ReadPair} {kind : IdKind} {a b : Id}
    (unique : (lefts kind pairs).Nodup) (member : (kind, a, b) ∈ pairs) :
    getOrDefault (entries kind pairs) a a = b := by
  by_cases same : a = b
  · subst same
    cases found : (entries kind pairs).lookup a with
    | none => rw [getOrDefault, found, Option.getD_none]
    | some c =>
      obtain ⟨different, other⟩ := mem_entries.mp (mem_of_lookup found)
      exact absurd (eq_of_unique_left unique member other) different
  · rw [getOrDefault_self_iff same]
    exact (lookup_iff_mem (unique.sublist (keys_entries_sublist kind pairs))).mpr
      (mem_entries.mpr ⟨same, member⟩)

/-- For every list of well-formed pairs whose names resolve, the parser follows the rule if and
only if no id is repeated on a side, or one is repeated in pairs of two different ids and the
first of them does not pair it with -1. -/
theorem uniqueness_rule_iff {db : UserDb} {spec : CString} {names : List NamePair}
    {pairs : List ReadPair} (list : MapList db spec names pairs) :
    UniquenessRule db spec pairs ↔ UniqueSides pairs ∨ RefusedRepeat pairs := by
  have parsed := parseUserMap_eq list ⟨usermapCreate, usermapCreate⟩
  have accepted := addPairs_accepted_iff pairs
  constructor
  · intro rule
    by_cases refused : RefusedRepeat pairs
    · exact Or.inr refused
    · refine Or.inl (rule.accepts.mp ?_)
      rw [parsed]
      exact accepted.mpr refused
  · rintro (unique | refused)
    · refine ⟨?_, ?_⟩
      · rw [parsed]
        exact iff_of_true (accepted.mpr (not_refusedRepeat_of_unique unique)) unique
      · rintro maps ran ⟨kind, a, b⟩ member
        rw [parsed] at ran
        have table : maps.map.table kind = entries kind pairs := by
          rw [(addPairs_extends pairs paired_empty ran).tables kind]
          cases kind <;> rfl
        rw [mapped_eq, table]
        exact lookup_of_unique (unique kind).1 member
    · have none : ∀ maps, parseUserMap db ⟨usermapCreate, usermapCreate⟩ spec ≠ some maps := by
        intro maps ran
        rw [parsed] at ran
        exact accepted.mp ⟨maps, ran⟩ refused
      refine ⟨iff_of_false (fun ⟨maps, ran⟩ => none maps ran) ?_, fun maps ran => absurd ran (none maps)⟩
      intro unique
      exact not_refusedRepeat_of_unique unique refused

/-! ## Two lists -/

theorem mapList_of_two {db : UserDb} {spec : CString} {first second : NamePair} {ids ids' : ReadPair}
    (tokens : segments isSeparator spec = [first.text, second.text])
    (wellFormed : first.WellFormed ∧ second.WellFormed)
    (resolves : first.Resolves db ids ∧ second.Resolves db ids') :
    MapList db spec [first, second] [ids, ids'] where
  tokens := tokens
  wellFormed pair member := by
    simp only [List.mem_cons, List.not_mem_nil, or_false] at member
    rcases member with rfl | rfl
    · exact wellFormed.1
    · exact wellFormed.2
  resolves := .cons resolves.1 (.cons resolves.2 .nil)

/-- `--map=1000/1001:@5/@6`. -/
theorem uniqueness_rule_iff_of_two_pairs :
    MapList numericUsers "1000/1001:@5/@6".toList
        [⟨.uid, "1000".toList, "1001".toList⟩, ⟨.gid, ['5'], ['6']⟩]
        [(.uid, 1000, 1001), (.gid, 5, 6)] ∧
      UniquenessRule numericUsers "1000/1001:@5/@6".toList [(.uid, 1000, 1001), (.gid, 5, 6)] := by
  have list : MapList numericUsers "1000/1001:@5/@6".toList
      [⟨.uid, "1000".toList, "1001".toList⟩, ⟨.gid, ['5'], ['6']⟩]
      [(.uid, 1000, 1001), (.gid, 5, 6)] :=
    mapList_of_two (by decide) ⟨⟨by decide, by decide⟩, ⟨by decide, by decide⟩⟩
      ⟨⟨rfl, rfl, rfl⟩, ⟨rfl, rfl, rfl⟩⟩
  refine ⟨list, (uniqueness_rule_iff list).mpr (Or.inl ?_)⟩
  intro kind
  cases kind <;> decide

/-- `--map=1000/1000:1000/1001` is accepted although 1000 stands twice on the left, and 1000 is
not looked up as the 1000 of the first pair. -/
theorem identity_pair_hides_repeat :
    ¬ ∀ (db : UserDb) (spec : CString) (names : List NamePair) (pairs : List ReadPair),
      MapList db spec names pairs → UniquenessRule db spec pairs := by
  intro always
  have list : MapList numericUsers "1000/1000:1000/1001".toList
      [⟨.uid, "1000".toList, "1000".toList⟩, ⟨.uid, "1000".toList, "1001".toList⟩]
      [(.uid, 1000, 1000), (.uid, 1000, 1001)] :=
    mapList_of_two (by decide) ⟨⟨by decide, by decide⟩, ⟨by decide, by decide⟩⟩
      ⟨⟨rfl, rfl, rfl⟩, ⟨rfl, rfl, rfl⟩⟩
  have rule := always _ _ _ _ list
  have accepted : parseUserMap numericUsers ⟨usermapCreate, usermapCreate⟩
      "1000/1000:1000/1001".toList =
        some ⟨⟨[(1000, 1001)], []⟩, ⟨[(1001, 1000)], []⟩⟩ := by
    rw [parseUserMap_eq list]
    decide
  have lookup := rule.looked_up _ accepted (.uid, 1000, 1000) (by simp)
  exact absurd lookup (by decide)

end Bindfs.Guarantees.MapUniqueness
