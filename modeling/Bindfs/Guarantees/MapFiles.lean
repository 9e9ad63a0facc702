import Bindfs.Source.MapInvariant

/-!
# Passwd and group files

passwd(5) and group(5) give the name in the first and the id in the third field of a line.
`parse_map_file` cuts lines with `strtok`, which passes over empty fields and stops at a NUL
byte: it takes the first and the third of the fields in front of it that are not empty
(`readMapLine_eq`). The two readings agree on a line that reaches into its third field and
whose second field is not empty.

`read_by_field_position_iff` says for which files the parser reads by position.
-/
namespace Bindfs.Guarantees.MapFiles
open Bindfs.Source Bindfs.Lib.Segments

/-! ## Fields and tokens -/

def fields (line : CString) : List CString := line.splitOnP (· = ':')

/-- The fields `strtok` delivers. -/
def tokens (line : CString) : List CString := (fields line).filter (· ≠ [])

theorem strtok_tokens (s : CString) :
    (strtok [':'] s = none ∧ tokens s = []) ∨
      ∃ token rest, strtok [':'] s = some (token, rest) ∧ tokens s = token :: tokens rest :=
  strtok_cases ':' s

/-- The parser takes the first and the third token. -/
theorem readMapLine_eq (toIdOf : CString → Option Id) (line : CString) :
    readMapLine toIdOf line =
      match tokens line with
      | [] => .unexpectedEnd
      | name :: others =>
        match toIdOf name with
        | none => .ignored
        | some uidTo =>
          match others with
          | _ :: column :: _ =>
            match toIdOf column with
            | none => .ignored
            | some uidFrom => .pair uidFrom uidTo
          | _ => .unexpectedEnd := by
  unfold readMapLine
  rcases strtok_tokens line with ⟨stopped, none_left⟩ | ⟨name, rest, cut, split⟩
  · rw [stopped, none_left]
  · rw [cut, split]
    simp only
    cases toIdOf name with
    | none => rfl
    | some uidTo =>
      simp only
      rcases strtok_tokens rest with ⟨stopped, none_left⟩ | ⟨second, rest, cut, split⟩
      · rw [stopped, none_left]
        rfl
      · rw [cut, split]
        simp only [Option.bind_some]
        rcases strtok_tokens rest with ⟨stopped, none_left⟩ | ⟨column, rest, cut, split⟩
        · simp only [stopped, none_left]
        · cases read : toIdOf column with
          | none => simp only [cut, split, read]
          | some uidFrom => simp only [cut, split, read]

/-! ## Reading by position -/

/-- A line of passwd(5) or group(5): a name and an id that are not empty. -/
def IsEntry (line : List Char) : Prop :=
  ∃ name second id rest, fields line = name :: second :: id :: rest ∧ name ≠ [] ∧ id ≠ []

/-- The reading the format gives: the first field is the name, the third the id. -/
def readByPosition (toIdOf : CString → Option Id) (line : List Char) : MapLine :=
  match fields line with
  | name :: _ :: id :: _ =>
    match toIdOf (cString name), toIdOf (cString id) with
    | some uidTo, some uidFrom => .pair uidFrom uidTo
    | _, _ => .ignored
  | _ => .unexpectedEnd

/-! ### What a NUL byte cuts off -/

/-- The fields up to the first NUL byte. -/
def cutFields : List (List Char) → List CString
  | [] => []
  | field :: rest => if NUL ∈ field then [cString field] else field :: cutFields rest

theorem cString_cons_NUL (rest : List Char) : cString (NUL :: rest) = [] := rfl

theorem cString_cons {c : Char} (plain : c ≠ NUL) (rest : List Char) :
    cString (c :: rest) = c :: cString rest := by
  simp [cString, plain]

theorem cString_eq_self {field : List Char} (plain : NUL ∉ field) : cString field = field := by
  apply List.takeWhile_eq_self_iff.mpr
  intro c member
  have plainHere : c ≠ NUL := fun same => plain (same ▸ member)
  simpa using plainHere

theorem fields_cString (line : List Char) : fields (cString line) = cutFields (fields line) := by
  induction line with
  | nil => rfl
  | cons c rest ih =>
    by_cases stops : c = NUL
    · subst stops
      have plain : ¬ NUL = ':' := by decide
      rw [cString_cons_NUL, fields, fields, List.splitOnP_cons_eq_if_modifyHead]
      cases more : fields rest with
      | nil => exact absurd more (List.splitOnP_ne_nil _ _)
      | cons field others =>
        rw [fields] at more
        simp [more, cutFields, cString_cons_NUL, plain]
    · rw [cString_cons stops, fields, fields, List.splitOnP_cons_eq_if_modifyHead,
        List.splitOnP_cons_eq_if_modifyHead]
      rw [fields] at ih
      rw [ih]
      by_cases colon : c = ':'
      · simp [colon, cutFields, fields]
      · cases more : fields rest with
        | nil => exact absurd more (List.splitOnP_ne_nil _ _)
        | cons field others =>
          rw [fields] at more
          by_cases ends : NUL ∈ field
          · simp [more, cutFields, colon, ends, cString_cons stops]
          · simp [more, cutFields, colon, ends, Ne.symm stops]

/-- In front of a NUL byte stands a name that does not resolve; or a name, a second field and the
start of the third one, where the second field is not empty or the field that takes the place of
the third stands for the same id. -/
def ReadsAlike (toIdOf : CString → Option Id) (line : List Char) : Prop :=
  ∃ name others, fields (cString line) = name :: others ∧ name ≠ [] ∧
    (toIdOf name = none ∨ ∃ second id rest, others = second :: id :: rest ∧ id ≠ [] ∧
      (second ≠ [] ∨ ∃ other, rest.find? (· ≠ []) = some other ∧ toIdOf other = toIdOf id))

theorem readsAlike_of_fields {toIdOf : CString → Option Id} {line : List Char} {name : CString}
    {others : List CString} (split : fields (cString line) = name :: others) :
    ReadsAlike toIdOf line ↔ name ≠ [] ∧
      (toIdOf name = none ∨ ∃ second id rest, others = second :: id :: rest ∧ id ≠ [] ∧
        (second ≠ [] ∨ ∃ other, rest.find? (· ≠ []) = some other ∧ toIdOf other = toIdOf id)) := by
  constructor
  · rintro ⟨name', others', same, alike⟩
    rw [split] at same
    cases same
    exact alike
  · intro alike
    exact ⟨name, others, split, alike⟩

/-- Where a NUL byte ends the line in front of the third field, only a name that does not resolve
is read as it should be. -/
theorem readMapLine_eq_iff_of_short (toIdOf : CString → Option Id) {line : List Char}
    {name : CString} {others : List CString} (split : fields (cString line) = name :: others)
    (short : (others.filter (· ≠ [])).length ≤ 1) (lone : name = [] → others = []) {reading : MapLine}
    (read : reading ≠ .unexpectedEnd) (unnamed : toIdOf name = none → reading = .ignored) :
    readMapLine toIdOf (cString line) = reading ↔ name ≠ [] ∧ toIdOf name = none := by
  rw [readMapLine_eq, tokens, split]
  by_cases empty : name = []
  · simp [empty, lone empty, Ne.symm read]
  · have cut : (name :: others).filter (· ≠ []) = name :: others.filter (· ≠ []) := by simp [empty]
    rw [cut]
    cases resolved : toIdOf name with
    | none => simp [resolved, unnamed resolved, empty]
    | some uidTo =>
      simp only [resolved]
      match others.filter (· ≠ []), short with
      | [], _ => simp [Ne.symm read]
      | [_], _ => simp [Ne.symm read]

/-- A line without a NUL byte in its first three fields. -/
theorem readMapLine_eq_iff_of_whole (toIdOf : CString → Option Id) {line : List Char}
    {name second id : CString} {rest : List CString}
    (split : fields (cString line) = name :: second :: id :: rest) (name_ne : name ≠ [])
    (id_ne : id ≠ []) :
    readMapLine toIdOf (cString line) =
        (match toIdOf name, toIdOf id with
        | some uidTo, some uidFrom => .pair uidFrom uidTo
        | _, _ => .ignored) ↔
      (toIdOf name = none ∨ second ≠ [] ∨
        ∃ other, rest.find? (· ≠ []) = some other ∧ toIdOf other = toIdOf id) := by
  rw [readMapLine_eq, tokens, split]
  by_cases filled : second = []
  · have cut : (name :: second :: id :: rest).filter (· ≠ []) = name :: id :: rest.filter (· ≠ []) := by
      simp [name_ne, id_ne, filled]
    rw [cut, ← List.head?_filter]
    cases rest.filter (· ≠ []) with
    | nil =>
      simp only [filled, ne_eq, not_true_eq_false, List.head?_nil, reduceCtorEq, false_and, exists_false,
        or_false]
      cases toIdOf name with
      | none => simp
      | some uidTo => cases toIdOf id <;> simp
    | cons other more =>
      simp only [filled, ne_eq, not_true_eq_false, false_or, List.head?_cons, Option.some.injEq,
        exists_eq_left']
      cases toIdOf name with
      | none => simp
      | some uidTo => cases toIdOf other <;> cases toIdOf id <;> simp
  · have cut : (name :: second :: id :: rest).filter (· ≠ []) =
        name :: second :: id :: rest.filter (· ≠ []) := by
      simp [name_ne, id_ne, filled]
    rw [cut]
    simp only [ne_eq, filled, not_false_eq_true, true_or, or_true, iff_true]
    cases toIdOf name <;> cases toIdOf id <;> rfl

theorem readMapLine_eq_iff (toIdOf : CString → Option Id) {line : List Char} (entry : IsEntry line) :
    readMapLine toIdOf (cString line) = readByPosition toIdOf line ↔ ReadsAlike toIdOf line := by
  obtain ⟨name, second, id, rest, split, name_ne, id_ne⟩ := entry
  have byPosition : readByPosition toIdOf line =
      match toIdOf (cString name), toIdOf (cString id) with
      | some uidTo, some uidFrom => .pair uidFrom uidTo
      | _, _ => .ignored := by
    rw [readByPosition, split]
  have read : readByPosition toIdOf line ≠ .unexpectedEnd := by
    rw [byPosition]
    split <;> simp
  have unnamed : toIdOf (cString name) = none → readByPosition toIdOf line = .ignored := by
    intro unresolved
    rw [byPosition, unresolved]
  have cut : fields (cString line) = cutFields (name :: second :: id :: rest) := by
    rw [fields_cString, split]
  -- the field in which a NUL byte ends the line, if any of the three
  by_cases inName : NUL ∈ name
  · have cut : fields (cString line) = [cString name] := by simp [cut, cutFields, inName]
    rw [readMapLine_eq_iff_of_short toIdOf cut (by simp) (by simp) read unnamed,
      readsAlike_of_fields cut]
    simp
  · rw [cString_eq_self inName] at unnamed byPosition
    by_cases inSecond : NUL ∈ second
    · have cut : fields (cString line) = [name, cString second] := by
        simp [cut, cutFields, inName, inSecond]
      rw [readMapLine_eq_iff_of_short toIdOf cut (List.length_filter_le _ _) (by simp [name_ne]) read
        unnamed, readsAlike_of_fields cut]
      simp
    · by_cases empty : cString id = []
      · have inId : NUL ∈ id := by
          by_contra plain
          exact id_ne (cString_eq_self plain ▸ empty)
        have cut : fields (cString line) = [name, second, []] := by
          simp [cut, cutFields, inName, inSecond, inId, empty]
        have short : ([second, []].filter (· ≠ [])).length ≤ 1 := by
          by_cases filled : second = [] <;> simp [filled]
        rw [readMapLine_eq_iff_of_short toIdOf cut short (by simp [name_ne]) read unnamed,
          readsAlike_of_fields cut]
        simp
      · obtain ⟨rest', cut⟩ : ∃ rest', fields (cString line) = name :: second :: cString id :: rest' := by
          by_cases inId : NUL ∈ id
          · exact ⟨[], by simp [cut, cutFields, inName, inSecond, inId]⟩
          · exact ⟨cutFields rest, by simp [cut, cutFields, inName, inSecond, inId, cString_eq_self]⟩
        rw [byPosition, readMapLine_eq_iff_of_whole toIdOf cut name_ne empty, readsAlike_of_fields cut]
        simp [name_ne, empty]

/-! ## Files -/

/-- One round of the loop, for either reading of a line. -/
def lineStep (reader : List Char → MapLine) (kind : IdKind) (maps : MapPair) (line : List Char) :
    Option MapPair :=
  match reader line with
  | .unexpectedEnd => none
  | .ignored => some maps
  | .pair uidFrom uidTo => addPair kind maps uidFrom uidTo

/-- The line as the parser reads it. -/
def readCut (toIdOf : CString → Option Id) (line : List Char) : MapLine :=
  readMapLine toIdOf (cString line)

theorem mapFileLoop_eq_foldlM (toIdOf : CString → Option Id) (kind : IdKind) (maps : MapPair)
    (lines : List (List Char)) :
    mapFileLoop toIdOf kind maps (lines.map cString) =
      lines.foldlM (lineStep (readCut toIdOf) kind) maps := by
  induction lines generalizing maps with
  | nil => rfl
  | cons line rest ih =>
    rw [List.foldlM_cons, List.map_cons, mapFileLoop, lineStep, readCut]
    cases readMapLine toIdOf (cString line) with
    | unexpectedEnd => rfl
    | ignored => exact ih maps
    | pair uidFrom uidTo =>
      simp only
      cases addPair kind maps uidFrom uidTo with
      | none => rfl
      | some maps => exact ih maps

/-- The pairs in the lines, read by position. -/
def positionPairs (toIdOf : CString → Option Id) (kind : IdKind) (lines : List (List Char)) :
    List ReadPair :=
  lines.flatMap fun line => (readByPosition toIdOf line).pairs kind

theorem addPairs_positionPairs (toIdOf : CString → Option Id) (kind : IdKind) (maps : MapPair)
    {lines : List (List Char)} (entries : ∀ line ∈ lines, IsEntry line) :
    lines.foldlM (lineStep (readByPosition toIdOf) kind) maps =
      addPairs maps (positionPairs toIdOf kind lines) := by
  induction lines generalizing maps with
  | nil => rfl
  | cons line rest ih =>
    have later := fun maps => ih maps fun other member => entries other (by simp [member])
    rw [List.foldlM_cons, positionPairs, List.flatMap_cons, lineStep]
    cases read : readByPosition toIdOf line with
    | unexpectedEnd =>
      obtain ⟨name, second, id, others, split, -, -⟩ := entries line (by simp)
      rw [readByPosition, split] at read
      simp only at read
      split at read <;> cases read
    | ignored => exact later maps
    | pair uidFrom uidTo =>
      rw [MapLine.pairs, List.singleton_append, addPairs, List.foldlM_cons]
      congr 1
      funext maps
      exact later maps

/-- Two folds agree when their steps agree wherever the first one gets. -/
theorem foldlM_eq_of_reached {σ α : Type} {f g : σ → α → Option σ} (items : List α) (state : σ)
    (agree : ∀ before item after, items = before ++ item :: after →
      ∀ reached, before.foldlM f state = some reached → f reached item = g reached item) :
    items.foldlM f state = items.foldlM g state := by
  induction items generalizing state with
  | nil => rfl
  | cons item rest ih =>
    have first := agree [] item rest rfl state rfl
    rw [List.foldlM_cons, List.foldlM_cons, first]
    cases stepped : g state item with
    | none => rfl
    | some next =>
      apply ih
      intro before other after split reached ran
      apply agree (item :: before) other after (by rw [split]; rfl)
      rw [List.foldlM_cons, first, stepped]
      exact ran

/-- Two readings that agree on every line the first one gets to lead to the same maps, and so
they do for the first lines of the file. -/
theorem foldlM_lineStep_eq {reader reader' : List Char → MapLine} {kind : IdKind} {maps : MapPair}
    {lines before rest : List (List Char)} (split : lines = before ++ rest)
    (agree : ∀ before line after, lines = before ++ line :: after →
      ∀ reached, before.foldlM (lineStep reader kind) maps = some reached → reader line = reader' line) :
    before.foldlM (lineStep reader kind) maps = before.foldlM (lineStep reader' kind) maps := by
  apply foldlM_eq_of_reached
  intro first line after inner reached ran
  have whole : lines = first ++ line :: (after ++ rest) := by
    rw [split, inner]
    simp
  rw [lineStep, lineStep, agree first line _ whole reached ran]

/-- Every line the call gets to is read by position, and the call enters the pairs of the lines
in their order, up to the first refused insertion. -/
structure ReadByFieldPosition (db : UserDb) (maps : MapPair) (content : List Char) (kind : IdKind) :
    Prop where
  readings : ∀ before line after, getlines content = before ++ line :: after →
    (∃ reached, mapFileLoop (valueToId db kind) kind maps (before.map cString) = some reached) →
      readMapLine (valueToId db kind) (cString line) = readByPosition (valueToId db kind) line
  result : parseMapFile db maps (some content) kind =
    addPairs maps (positionPairs (valueToId db kind) kind (getlines content))

/-- For every file of entries, all maps and every user database, the parser reads the file by
position if and only if every line before the first refused insertion reads alike. -/
theorem read_by_field_position_iff (db : UserDb) (maps : MapPair) (content : List Char)
    (kind : IdKind) (entries : ∀ line ∈ getlines content, IsEntry line) :
    ReadByFieldPosition db maps content kind ↔
      ∀ before line after, getlines content = before ++ line :: after →
        (∃ reached, addPairs maps (positionPairs (valueToId db kind) kind before) = some reached) →
          ReadsAlike (valueToId db kind) line := by
  have entriesBefore : ∀ {before line after}, getlines content = before ++ line :: after →
      (∀ other ∈ before, IsEntry other) ∧ IsEntry line := by
    intro before line after split
    exact ⟨fun other member => entries other (by rw [split]; simp [member]),
      entries line (by rw [split]; simp)⟩
  constructor
  · intro byPosition before line after split reached
    obtain ⟨earlier, entry⟩ := entriesBefore split
    rw [← readMapLine_eq_iff _ entry]
    apply byPosition.readings before line after split
    rw [mapFileLoop_eq_foldlM, foldlM_lineStep_eq split, addPairs_positionPairs _ _ _ earlier]
    · exact reached
    · intro first other rest inner state ran
      rw [← mapFileLoop_eq_foldlM] at ran
      exact byPosition.readings first other rest inner ⟨state, ran⟩
  · intro alike
    have same : ∀ before line after, getlines content = before ++ line :: after →
        ∀ state, before.foldlM (lineStep (readByPosition (valueToId db kind)) kind) maps = some state →
          readByPosition (valueToId db kind) line = readCut (valueToId db kind) line := by
      intro before line after split state ran
      obtain ⟨earlier, entry⟩ := entriesBefore split
      rw [addPairs_positionPairs _ _ _ earlier] at ran
      exact ((readMapLine_eq_iff _ entry).mpr (alike before line after split ⟨state, ran⟩)).symm
    refine ⟨?_, ?_⟩
    · rintro before line after split ⟨reached, ran⟩
      rw [mapFileLoop_eq_foldlM, ← foldlM_lineStep_eq split same] at ran
      exact (same before line after split reached ran).symm
    · rw [parseMapFile, fileLines, mapFileLoop_eq_foldlM, ← addPairs_positionPairs _ _ _ entries]
      exact (foldlM_lineStep_eq (List.append_nil _).symm same).symm

/-! ## Two files -/

/-- A line with the password field filled in: 1000 is mapped to 1001. -/
theorem read_by_field_position_iff_of_filled_field :
    (∀ line ∈ getlines "1001:x:1000:100:\n".toList, IsEntry line) ∧
      ReadByFieldPosition numericUsers ⟨usermapCreate, usermapCreate⟩
        "1001:x:1000:100:\n".toList .uid := by
  have lines : getlines "1001:x:1000:100:\n".toList = ["1001:x:1000:100:".toList] := by decide
  have split : fields "1001:x:1000:100:".toList =
      ["1001".toList, ['x'], "1000".toList, "100".toList, []] := by decide
  have entries : ∀ line ∈ getlines "1001:x:1000:100:\n".toList, IsEntry line := by
    intro line member
    rw [lines, List.mem_singleton] at member
    subst member
    exact ⟨_, _, _, _, split, by decide, by decide⟩
  refine ⟨entries, (read_by_field_position_iff _ _ _ _ entries).mpr ?_⟩
  intro before line after cut _
  have member : line ∈ getlines "1001:x:1000:100:\n".toList := by
    rw [cut]
    simp
  rw [lines, List.mem_singleton] at member
  subst member
  exact ⟨_, _, split, by decide, Or.inr ⟨_, _, _, rfl, by decide, Or.inl (by decide)⟩⟩

/-- With an empty password field the group of the line is taken for its uid: the entry
1001::1000:100: maps 100, not 1000, to 1001. -/
theorem empty_password_shifts_columns :
    ¬ ∀ (db : UserDb) (maps : MapPair) (content : List Char) (kind : IdKind),
      (∀ line ∈ getlines content, IsEntry line) → ReadByFieldPosition db maps content kind := by
  intro always
  have lines : getlines "1001::1000:100:\n".toList = ["1001::1000:100:".toList] := by decide
  have split : fields "1001::1000:100:".toList =
      ["1001".toList, [], "1000".toList, "100".toList, []] := by decide
  have byPosition := always numericUsers ⟨usermapCreate, usermapCreate⟩
    "1001::1000:100:\n".toList .uid (by
      intro line member
      rw [lines, List.mem_singleton] at member
      subst member
      exact ⟨_, _, _, _, split, by decide, by decide⟩)
  have read : parseMapFile numericUsers ⟨usermapCreate, usermapCreate⟩
      (some "1001::1000:100:\n".toList) .uid =
        some ⟨⟨[(100, 1001)], []⟩, ⟨[(1001, 100)], []⟩⟩ := by
    rw [parseMapFile, fileLines, lines]
    decide
  have result := byPosition.result
  rw [read, lines] at result
  exact absurd result (by decide)

end Bindfs.Guarantees.MapFiles
