import Bindfs.Source.MapParsing

/-!
# What the map parsers leave in the maps

Every sequence of accepted parser calls keeps the two maps paired: for uids and for gids
the reverse table is the forward table with its pairs turned round, and both grew by
guarded insertions (`Paired`). The forward table is exactly the list of pairs read,
identity pairs left out (`runMapCalls_tables`). A list of pairs is accepted exactly when the
guard sees no repeat on either side (`addPairs_accepted_iff`; `addPairs_some_iff` for maps that
already hold pairs).
-/
namespace Bindfs.Source
open Bindfs.Lib.InverseTables Bindfs.Lib.Segments

def UserMap.table (map : UserMap) : IdKind → Table Id
  | .uid => map.users
  | .gid => map.groups

def UserMap.push (map : UserMap) (kind : IdKind) (fromId toId : Id) : UserMap :=
  match kind with
  | .uid => { map with users := map.users ++ [(fromId, toId)] }
  | .gid => { map with groups := map.groups ++ [(fromId, toId)] }

theorem UserMap.table_push (map : UserMap) (kind other : IdKind) (fromId toId : Id) :
    (map.push kind fromId toId).table other =
      if other = kind then map.table other ++ [(fromId, toId)] else map.table other := by
  cases kind <;> cases other <;> rfl

theorem usermapAdd_ok_iff (kind : IdKind) (map out : UserMap) (fromId toId : Id) :
    usermapAdd kind map fromId toId = (.ok, out) ↔
      (fromId = toId ∧ out = map) ∨
        (fromId ≠ toId ∧ LooksAbsent noId (map.table kind) fromId ∧
          out = map.push kind fromId toId) := by
  unfold LooksAbsent
  by_cases same : fromId = toId
  · cases kind <;>
    · simp only [usermapAdd, usermapAddUid, usermapAddGid, tableAdd, same, if_true, ne_eq,
        not_true_eq_false, false_and, or_false, true_and, Prod.mk.injEq]
      exact eq_comm
  · by_cases absent : getOrDefault (map.table kind) fromId noId = noId <;> cases kind <;>
      simp only [UserMap.table] at absent <;>
      simp [usermapAdd, usermapAddUid, usermapAddGid, tableAdd, UserMap.table, UserMap.push, same,
        absent, eq_comm]

/-- What an accepted pair did to the two maps. -/
theorem addPair_cases {kind : IdKind} {maps out : MapPair} {fromId toId : Id}
    (added : addPair kind maps fromId toId = some out) :
    (fromId = toId ∧ out = maps) ∨
      (fromId ≠ toId ∧ LooksAbsent noId (maps.map.table kind) fromId ∧
        LooksAbsent noId (maps.reverseMap.table kind) toId ∧
        out = ⟨maps.map.push kind fromId toId, maps.reverseMap.push kind toId fromId⟩) := by
  unfold addPair at added
  split at added
  · rename_i map first
    split at added
    · rename_i reverseMap second
      rcases (usermapAdd_ok_iff kind _ _ _ _).mp first with ⟨same, rfl⟩ | ⟨different, absent, rfl⟩
      · rcases (usermapAdd_ok_iff kind _ _ _ _).mp second with ⟨-, rfl⟩ | ⟨different, -, -⟩
        · exact Or.inl ⟨same, (Option.some.inj added).symm⟩
        · exact absurd same.symm different
      · rcases (usermapAdd_ok_iff kind _ _ _ _).mp second with ⟨same, -⟩ | ⟨-, absent_reverse, rfl⟩
        · exact absurd same.symm different
        · exact Or.inr ⟨different, absent, absent_reverse, (Option.some.inj added).symm⟩
    · cases added
  · cases added

/-- The invariant of the two maps. -/
structure Paired (maps : MapPair) : Prop where
  built : ∀ kind, Built noId (maps.map.table kind)
  partner : ∀ kind, maps.reverseMap.table kind = swapped (maps.map.table kind)

theorem paired_empty : Paired ⟨usermapCreate, usermapCreate⟩ := by
  constructor <;> intro kind <;> cases kind
  · exact .nil
  · exact .nil
  · rfl
  · rfl

theorem Paired.swap {maps : MapPair} (paired : Paired maps) : Paired maps.swap := by
  constructor
  · intro kind
    change Built noId (maps.reverseMap.table kind)
    rw [paired.partner kind]
    exact (paired.built kind).swapped
  · intro kind
    change maps.map.table kind = swapped (maps.reverseMap.table kind)
    rw [paired.partner kind, swapped_swapped]

/-- The step lemma of both parsers. -/
theorem Paired.addPair {kind : IdKind} {maps out : MapPair} {fromId toId : Id}
    (paired : Paired maps) (added : Source.addPair kind maps fromId toId = some out) :
    Paired out := by
  rcases addPair_cases added with ⟨-, rfl⟩ | ⟨different, absent, absent_reverse, rfl⟩
  · exact paired
  · constructor
    · intro other
      rw [UserMap.table_push]
      split
      · rename_i same
        subst same
        rw [paired.partner] at absent_reverse
        exact .snoc (paired.built _) different absent absent_reverse
      · exact paired.built other
    · intro other
      rw [UserMap.table_push, UserMap.table_push, paired.partner other]
      split
      · simp [swapped]
      · rfl

/-! ## The pairs a call reads -/

/-- A pair read for uids or gids. -/
abbrev ReadPair := IdKind × Id × Id

/-- The pairs of one kind that change a map. -/
def entries (kind : IdKind) (pairs : List ReadPair) : Table Id :=
  pairs.filterMap fun pair =>
    if pair.1 = kind ∧ pair.2.1 ≠ pair.2.2 then some pair.2 else none

def turned (pair : ReadPair) : ReadPair := (pair.1, pair.2.2, pair.2.1)

def MapLine.pairs (kind : IdKind) : MapLine → List ReadPair
  | .pair fromId toId => [(kind, fromId, toId)]
  | _ => []

/-- The pairs in the text a call is given, in the order of the text. -/
def MapCall.textPairs (db : UserDb) : MapCall → List ReadPair
  | .mapFile _ kind file =>
    (fileLines (file.getD [])).flatMap fun line => (readMapLine (valueToId db kind) line).pairs kind
  | .userMap _ spec => (segments isSeparator spec).filterMap (readMapToken db)

/-- The pairs of a call as (usermap, usermap_reverse) sees them. -/
def MapCall.pairs (db : UserDb) (call : MapCall) : List ReadPair :=
  if call.swapped then (call.textPairs db).map turned else call.textPairs db

/-- `out` extends `maps` by exactly the given pairs and the maps stay paired. -/
structure Extends (maps : MapPair) (pairs : List ReadPair) (out : MapPair) : Prop where
  paired : Paired out
  tables : ∀ kind, out.map.table kind = maps.map.table kind ++ entries kind pairs

theorem Extends.refl {maps : MapPair} (paired : Paired maps) : Extends maps [] maps :=
  ⟨paired, fun kind => by simp [entries]⟩

theorem Extends.trans {first middle last : MapPair} {before after : List ReadPair}
    (start : Extends first before middle) (rest : Extends middle after last) :
    Extends first (before ++ after) last := by
  refine ⟨rest.paired, fun kind => ?_⟩
  rw [rest.tables kind, start.tables kind, List.append_assoc]
  simp [entries, List.filterMap_append]

theorem Extends.of_addPair {kind : IdKind} {maps out : MapPair} {fromId toId : Id}
    (paired : Paired maps) (added : addPair kind maps fromId toId = some out) :
    Extends maps [(kind, fromId, toId)] out := by
  refine ⟨paired.addPair added, fun other => ?_⟩
  rcases addPair_cases added with ⟨same, rfl⟩ | ⟨different, -, -, rfl⟩
  · simp [entries, same]
  · rw [UserMap.table_push]
    by_cases same : kind = other
    · simp [entries, same, different]
    · simp [entries, same, Ne.symm same]

theorem mapFileLoop_extends (toIdOf : CString → Option Id) (kind : IdKind)
    (lines : List CString) {maps out : MapPair} (paired : Paired maps)
    (ran : mapFileLoop toIdOf kind maps lines = some out) :
    Extends maps (lines.flatMap fun line => (readMapLine toIdOf line).pairs kind) out := by
  induction lines generalizing maps with
  | nil =>
    cases ran
    exact .refl paired
  | cons line rest ih =>
    unfold mapFileLoop at ran
    rw [List.flatMap_cons]
    split at ran
    · cases ran
    · rename_i skipped
      rw [skipped]
      exact (Extends.refl paired).trans (ih paired ran)
    · rename_i fromId toId read
      rw [read]
      split at ran
      · cases ran
      · rename_i middle added
        have step := Extends.of_addPair paired added
        exact step.trans (ih step.paired ran)

theorem mapTokens_extends (db : UserDb) (tokens : List CString) {maps out : MapPair}
    (paired : Paired maps) (ran : tokens.foldlM (addMapToken db) maps = some out) :
    Extends maps (tokens.filterMap (readMapToken db)) out := by
  induction tokens generalizing maps with
  | nil =>
    cases ran
    exact .refl paired
  | cons token rest ih =>
    rw [List.foldlM_cons] at ran
    obtain ⟨middle, first, later⟩ := Option.bind_eq_some_iff.mp ran
    unfold addMapToken at first
    split at first
    · cases first
    · rename_i kind fromId toId read
      rw [List.filterMap_cons, read]
      have step := Extends.of_addPair paired first
      exact step.trans (ih step.paired later)

theorem MapCall.parse_extends (db : UserDb) (call : MapCall) {maps out : MapPair}
    (paired : Paired maps) (ran : call.parse db maps = some out) :
    Extends maps (call.textPairs db) out := by
  cases call with
  | mapFile swapped kind file =>
    cases file with
    | none => cases ran
    | some content => exact mapFileLoop_extends _ _ _ paired ran
  | userMap swapped spec =>
    change scan isSeparator (addMapToken db) maps spec = some out at ran
    rw [scan_eq_foldlM] at ran
    exact mapTokens_extends db _ paired ran

theorem entries_turned (kind : IdKind) (pairs : List ReadPair) :
    entries kind (pairs.map turned) = swapped (entries kind pairs) := by
  unfold entries swapped
  rw [List.filterMap_map, List.map_filterMap]
  congr 1
  funext pair
  by_cases counts : pair.1 = kind ∧ pair.2.1 ≠ pair.2.2
  · simp [turned, counts, Ne.symm counts.2]
    rfl
  · have turned_too : ¬ (pair.1 = kind ∧ pair.2.2 ≠ pair.2.1) := by
      rw [ne_comm]
      exact counts
    simp [turned, counts, turned_too]

/-- One call in either orientation. -/
theorem MapCall.run_extends (db : UserDb) (call : MapCall) {maps out : MapPair}
    (paired : Paired maps) (ran : call.run db maps = some out) :
    Extends maps (call.pairs db) out := by
  unfold MapCall.run at ran
  unfold MapCall.pairs
  split at ran
  · obtain ⟨middle, parsed, rfl⟩ := Option.map_eq_some_iff.mp ran
    have step := call.parse_extends db paired.swap parsed
    refine ⟨step.paired.swap, fun kind => ?_⟩
    change middle.reverseMap.table kind = _
    rw [step.paired.partner kind, step.tables kind]
    change Lib.InverseTables.swapped (maps.reverseMap.table kind ++ _) = _
    rw [paired.partner kind, Lib.InverseTables.swapped, List.map_append]
    simp [*, entries_turned, Lib.InverseTables.swapped]
  · simp only [*]
    exact call.parse_extends db paired ran

theorem runMapCalls_extends (db : UserDb) (calls : List MapCall) {maps out : MapPair}
    (paired : Paired maps) (ran : calls.foldlM (MapCall.run db) maps = some out) :
    Extends maps (calls.flatMap (MapCall.pairs db)) out := by
  induction calls generalizing maps with
  | nil =>
    cases ran
    exact .refl paired
  | cons call rest ih =>
    rw [List.foldlM_cons] at ran
    obtain ⟨middle, first, later⟩ := Option.bind_eq_some_iff.mp ran
    have step := call.run_extends db paired first
    rw [List.flatMap_cons]
    exact step.trans (ih step.paired later)

/-- After any accepted sequence of calls the maps are paired and hold the pairs read. -/
theorem runMapCalls_tables (db : UserDb) (calls : List MapCall) {maps : MapPair}
    (ran : runMapCalls db calls = some maps) :
    Paired maps ∧
      ∀ kind, maps.map.table kind = entries kind (calls.flatMap (MapCall.pairs db)) := by
  have all := runMapCalls_extends db calls paired_empty ran
  refine ⟨all.paired, fun kind => ?_⟩
  rw [all.tables kind]
  cases kind <;> rfl

/-! ## Accepted pairs -/

theorem mem_entries {kind : IdKind} {pairs : List ReadPair} {a b : Id} :
    (a, b) ∈ entries kind pairs ↔ a ≠ b ∧ (kind, a, b) ∈ pairs := by
  unfold entries
  rw [List.mem_filterMap]
  constructor
  · rintro ⟨⟨other, x, y⟩, member, kept⟩
    by_cases counts : other = kind ∧ x ≠ y
    · rw [if_pos counts] at kept
      cases kept
      exact ⟨counts.2, counts.1 ▸ member⟩
    · rw [if_neg counts] at kept
      cases kept
  · rintro ⟨different, member⟩
    exact ⟨(kind, a, b), member, by simp [different]⟩

theorem entries_snoc (kind other : IdKind) (pairs : List ReadPair) (a b : Id) :
    entries kind (pairs ++ [(other, a, b)]) =
      if other = kind ∧ a ≠ b then entries kind pairs ++ [(a, b)] else entries kind pairs := by
  unfold entries
  rw [List.filterMap_append]
  by_cases counts : other = kind ∧ a ≠ b
  · simp [counts]
  · simp [counts]

/-- Enter a list of pairs one after another. -/
def addPairs (maps : MapPair) (pairs : List ReadPair) : Option MapPair :=
  pairs.foldlM (fun maps pair => addPair pair.1 maps pair.2.1 pair.2.2) maps

theorem addPairs_snoc (maps : MapPair) (pairs : List ReadPair) (kind : IdKind) (a b : Id) :
    addPairs maps (pairs ++ [(kind, a, b)]) =
      (addPairs maps pairs).bind fun maps => addPair kind maps a b := by
  rw [addPairs, List.foldlM_append]
  simp [addPairs, Option.bind_eq_bind]

theorem addPairs_extends (pairs : List ReadPair) {maps out : MapPair} (paired : Paired maps)
    (added : addPairs maps pairs = some out) : Extends maps pairs out := by
  induction pairs generalizing maps with
  | nil =>
    cases added
    exact .refl paired
  | cons pair rest ih =>
    rw [addPairs, List.foldlM_cons] at added
    obtain ⟨middle, first, later⟩ := Option.bind_eq_some_iff.mp added
    have step := Extends.of_addPair paired first
    exact step.trans (ih step.paired later)

theorem addPair_accepted_iff (kind : IdKind) (maps : MapPair) (a b : Id) :
    (∃ out, addPair kind maps a b = some out) ↔
      a = b ∨ LooksAbsent noId (maps.map.table kind) a ∧
        LooksAbsent noId (maps.reverseMap.table kind) b := by
  constructor
  · rintro ⟨out, added⟩
    rcases addPair_cases added with ⟨same, -⟩ | ⟨-, absent, absent_reverse, -⟩
    · exact Or.inl same
    · exact Or.inr ⟨absent, absent_reverse⟩
  · intro accepted
    by_cases same : a = b
    · have first := (usermapAdd_ok_iff kind maps.map maps.map a b).mpr (Or.inl ⟨same, rfl⟩)
      have second := (usermapAdd_ok_iff kind maps.reverseMap maps.reverseMap b a).mpr
        (Or.inl ⟨same.symm, rfl⟩)
      exact ⟨_, by rw [addPair, first, second]⟩
    · obtain ⟨absent, absent_reverse⟩ := accepted.resolve_left same
      have first := (usermapAdd_ok_iff kind maps.map _ a b).mpr (Or.inr ⟨same, absent, rfl⟩)
      have second := (usermapAdd_ok_iff kind maps.reverseMap _ b a).mpr
        (Or.inr ⟨Ne.symm same, absent_reverse, rfl⟩)
      exact ⟨_, by rw [addPair, first, second]⟩

/-- Some id is repeated on one side of the pairs of two different ids, and the guard sees it. -/
def RefusedRepeat (pairs : List ReadPair) : Prop :=
  ∃ kind, ShowsRepeat noId (entries kind pairs) ∨ ShowsRepeat noId (swapped (entries kind pairs))

theorem refusedRepeat_snoc (pairs : List ReadPair) (kind : IdKind) (a b : Id) :
    RefusedRepeat (pairs ++ [(kind, a, b)]) ↔
      RefusedRepeat pairs ∨ a ≠ b ∧ (¬ LooksAbsent noId (entries kind pairs) a ∨
        ¬ LooksAbsent noId (swapped (entries kind pairs)) b) := by
  have grown : swapped (entries kind pairs ++ [(a, b)]) = swapped (entries kind pairs) ++ [(b, a)] := by
    simp [swapped]
  constructor
  · rintro ⟨other, shown⟩
    rw [entries_snoc] at shown
    by_cases counts : kind = other ∧ a ≠ b
    · rw [if_pos counts] at shown
      obtain ⟨rfl, different⟩ := counts
      rw [grown, showsRepeat_snoc, showsRepeat_snoc] at shown
      rcases shown with (before | left) | (before | right)
      · exact Or.inl ⟨kind, Or.inl before⟩
      · exact Or.inr ⟨different, Or.inl left⟩
      · exact Or.inl ⟨kind, Or.inr before⟩
      · exact Or.inr ⟨different, Or.inr right⟩
    · rw [if_neg counts] at shown
      exact Or.inl ⟨other, shown⟩
  · rintro (⟨other, shown⟩ | ⟨different, shown⟩)
    · refine ⟨other, ?_⟩
      rw [entries_snoc]
      by_cases counts : kind = other ∧ a ≠ b
      · rw [if_pos counts]
        obtain ⟨rfl, -⟩ := counts
        rw [grown, showsRepeat_snoc, showsRepeat_snoc]
        exact shown.imp Or.inl Or.inl
      · rwa [if_neg counts]
    · refine ⟨kind, ?_⟩
      rw [entries_snoc, if_pos ⟨rfl, different⟩, grown, showsRepeat_snoc, showsRepeat_snoc]
      exact shown.imp Or.inr Or.inr

/-- From empty maps a list of pairs is accepted exactly when the guard sees no repeat. -/
theorem addPairs_accepted_iff (pairs : List ReadPair) :
    (∃ out, addPairs ⟨usermapCreate, usermapCreate⟩ pairs = some out) ↔ ¬ RefusedRepeat pairs := by
  induction pairs using List.reverseRecOn with
  | nil =>
    refine iff_of_true ⟨_, rfl⟩ ?_
    rintro ⟨kind, ⟨a, -, twice⟩ | ⟨a, -, twice⟩⟩
    · exact absurd twice (by simp [entries, keys])
    · exact absurd twice (by simp [entries, keys, swapped])
  | append_singleton pairs pair ih =>
    obtain ⟨kind, a, b⟩ := pair
    -- what the guard of the last pair looks at are the pairs before it
    have guard : ∀ maps, addPairs ⟨usermapCreate, usermapCreate⟩ pairs = some maps →
        ((∃ out, addPair kind maps a b = some out) ↔
          ¬ (a ≠ b ∧ (¬ LooksAbsent noId (entries kind pairs) a ∨
            ¬ LooksAbsent noId (swapped (entries kind pairs)) b))) := by
      intro maps added
      have all := addPairs_extends pairs paired_empty added
      have table : maps.map.table kind = entries kind pairs := by
        rw [all.tables kind]
        cases kind <;> rfl
      rw [addPair_accepted_iff, all.paired.partner kind, table]
      tauto
    rw [refusedRepeat_snoc, not_or, ← ih, addPairs_snoc]
    constructor
    · rintro ⟨out, added⟩
      obtain ⟨maps, before, last⟩ := Option.bind_eq_some_iff.mp added
      exact ⟨⟨maps, before⟩, (guard maps before).mp ⟨out, last⟩⟩
    · rintro ⟨⟨maps, before⟩, unseen⟩
      obtain ⟨out, last⟩ := (guard maps before).mpr unseen
      exact ⟨out, Option.bind_eq_some_iff.mpr ⟨maps, before, last⟩⟩

/-! ## Maps that already hold pairs -/

/-- The tables after a list of pairs was entered into any two maps. -/
theorem addPairs_tables (pairs : List ReadPair) {maps out : MapPair}
    (added : addPairs maps pairs = some out) (kind : IdKind) :
    out.map.table kind = maps.map.table kind ++ entries kind pairs ∧
      out.reverseMap.table kind = maps.reverseMap.table kind ++ swapped (entries kind pairs) := by
  induction pairs generalizing maps with
  | nil =>
    cases added
    simp [entries, swapped]
  | cons pair rest ih =>
    rw [addPairs, List.foldlM_cons] at added
    obtain ⟨middle, first, later⟩ := Option.bind_eq_some_iff.mp added
    obtain ⟨forward, backward⟩ := ih later
    obtain ⟨other, a, b⟩ := pair
    rw [forward, backward]
    dsimp only at first
    rcases addPair_cases first with ⟨rfl, rfl⟩ | ⟨different, -, -, rfl⟩
    · simp [entries]
    · rw [UserMap.table_push, UserMap.table_push]
      by_cases same : kind = other
      · simp [entries, same, different, swapped]
      · simp [entries, same, Ne.symm same]

/-- Some pair of two different ids meets a key that the tables or the pairs before it show as
taken. -/
def RefusedByGuard (maps : MapPair) (pairs : List ReadPair) : Prop :=
  ∃ before kind a b after, pairs = before ++ (kind, a, b) :: after ∧ a ≠ b ∧
    (¬ LooksAbsent noId (maps.map.table kind ++ entries kind before) a ∨
      ¬ LooksAbsent noId (maps.reverseMap.table kind ++ swapped (entries kind before)) b)

theorem refusedByGuard_snoc (maps : MapPair) (pairs : List ReadPair) (kind : IdKind) (a b : Id) :
    RefusedByGuard maps (pairs ++ [(kind, a, b)]) ↔
      RefusedByGuard maps pairs ∨ a ≠ b ∧
        (¬ LooksAbsent noId (maps.map.table kind ++ entries kind pairs) a ∨
          ¬ LooksAbsent noId (maps.reverseMap.table kind ++ swapped (entries kind pairs)) b) := by
  constructor
  · rintro ⟨before, kind', a', b', after, split, different, taken⟩
    rcases List.eq_nil_or_concat' after with rfl | ⟨after, last, rfl⟩
    · obtain ⟨rfl, same⟩ := List.append_inj' split rfl
      cases same
      exact .inr ⟨different, taken⟩
    · rw [← List.cons_append, ← List.append_assoc] at split
      obtain ⟨rfl, -⟩ := List.append_inj' split rfl
      exact .inl ⟨before, kind', a', b', after, rfl, different, taken⟩
  · rintro (⟨before, kind', a', b', after, rfl, different, taken⟩ | ⟨different, taken⟩)
    · exact ⟨before, kind', a', b', after ++ [(kind, a, b)], by simp, different, taken⟩
    · exact ⟨pairs, kind, a, b, [], rfl, different, taken⟩

/-- Two maps take a list of pairs exactly when the guard refuses none of them. -/
theorem addPairs_some_iff (maps : MapPair) (pairs : List ReadPair) :
    (∃ out, addPairs maps pairs = some out) ↔ ¬ RefusedByGuard maps pairs := by
  induction pairs using List.reverseRecOn with
  | nil =>
    refine iff_of_true ⟨maps, rfl⟩ ?_
    rintro ⟨before, kind, a, b, after, split, -⟩
    simp at split
  | append_singleton pairs pair ih =>
    obtain ⟨kind, a, b⟩ := pair
    have guard : ∀ middle, addPairs maps pairs = some middle →
        ((∃ out, addPair kind middle a b = some out) ↔
          ¬ (a ≠ b ∧ (¬ LooksAbsent noId (maps.map.table kind ++ entries kind pairs) a ∨
            ¬ LooksAbsent noId (maps.reverseMap.table kind ++ swapped (entries kind pairs)) b))) := by
      intro middle added
      obtain ⟨forward, backward⟩ := addPairs_tables pairs added kind
      rw [addPair_accepted_iff, forward, backward]
      tauto
    rw [refusedByGuard_snoc, not_or, ← ih, addPairs_snoc]
    constructor
    · rintro ⟨out, added⟩
      obtain ⟨middle, before, last⟩ := Option.bind_eq_some_iff.mp added
      exact ⟨⟨middle, before⟩, (guard middle before).mp ⟨out, last⟩⟩
    · rintro ⟨⟨middle, before⟩, unseen⟩
      obtain ⟨out, last⟩ := (guard middle before).mpr unseen
      exact ⟨out, Option.bind_eq_some_iff.mpr ⟨middle, before, last⟩⟩

/-- A specification is accepted exactly when each of its tokens reads as a pair and the guard
refuses none of the pairs. -/
theorem parseUserMap_some_iff (db : UserDb) (maps : MapPair) (spec : CString) :
    (∃ out, parseUserMap db maps spec = some out) ↔
      (∀ token ∈ segments isSeparator spec, readMapToken db token ≠ none) ∧
        ¬ RefusedByGuard maps ((segments isSeparator spec).filterMap (readMapToken db)) := by
  rw [← addPairs_some_iff, parseUserMap, scan_eq_foldlM]
  induction segments isSeparator spec generalizing maps with
  | nil => simp [addPairs]
  | cons token rest ih =>
    rw [List.foldlM_cons, List.forall_mem_cons, List.filterMap_cons]
    cases read : readMapToken db token with
    | none => simp [addMapToken, read]
    | some pair =>
      simp only [addMapToken, read, addPairs, List.foldlM_cons, ne_eq, reduceCtorEq,
        not_false_eq_true, true_and]
      cases added : addPair pair.1 maps pair.2.1 pair.2.2 with
      | none => simp
      | some middle => exact ih middle

end Bindfs.Source
