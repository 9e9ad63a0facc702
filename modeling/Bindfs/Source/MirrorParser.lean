import Bindfs.Source.Options

/-!
# What parse_mirrored_users reads

The list is read twice: once by counting separators and occurrences of ",@" and ":@", once
token by token. The tokens are the parts between separators, empty ones included. The loop
processes them one after another (`mirrorLoop_eq_foldlM`), and the counts are those of the
tokens except that an '@' standing alone after the last separator is counted as a user
(`numMirroredMembers_add`): `count_substrs` does not look at the end of the string.
-/
namespace Bindfs.Source
open Bindfs.Lib.Segments

/-- `num_mirrored_members` as it is computed up front. -/
def numMirroredMembers (mirror : CString) : Nat :=
  (if mirror.head? = some '@' then 1 else 0) + countSubstrs [',', '@'] mirror +
    countSubstrs [':', '@'] mirror

/-- `num_mirrored_users` as it is computed up front. -/
def numMirroredUsers (mirror : CString) : Nat :=
  countChars mirror ',' + countChars mirror ':' + 1 - numMirroredMembers mirror

theorem parseMirroredUsers_eq (db : UserDb) (mirror : CString) :
    parseMirroredUsers db mirror =
      mirrorLoop db (numMirroredUsers mirror) (numMirroredMembers mirror) ⟨[], []⟩ mirror := rfl

/-! ## Tokens -/

def mirrorTokens (mirror : CString) : List CString := mirror.splitOnP isSeparator

def isGroupToken (token : CString) : Bool := token.head? = some '@'

def groupTokens (tokens : List CString) : List CString := tokens.filter isGroupToken

def userTokens (tokens : List CString) : List CString := tokens.filter fun token => !isGroupToken token

/-- The id a token stands for: the group after an '@', or the user. -/
def mirrorId (db : UserDb) (token : CString) : Option Id :=
  if isGroupToken token then groupGid db token.tail else userUid db token

/-- The list ends in an '@' that stands alone after a separator. -/
def EndsInBareAt (mirror : CString) : Prop := [',', '@'] <:+ mirror ∨ [':', '@'] <:+ mirror

instance (mirror : CString) : Decidable (EndsInBareAt mirror) :=
  inferInstanceAs (Decidable ([',', '@'] <:+ mirror ∨ [':', '@'] <:+ mirror))

theorem length_mirrorTokens (mirror : CString) :
    (mirrorTokens mirror).length = countChars mirror ',' + countChars mirror ':' + 1 := by
  unfold mirrorTokens countChars
  induction mirror with
  | nil => rfl
  | cons c rest ih =>
    rw [List.splitOnP_cons_eq_if_modifyHead]
    by_cases comma : c = ','
    · subst comma
      simp [isSeparator, ih]
      omega
    · by_cases colon : c = ':'
      · subst colon
        simp [isSeparator, ih]
        omega
      · simp [isSeparator, comma, colon, ih]

theorem length_tokens (tokens : List CString) :
    (userTokens tokens).length + (groupTokens tokens).length = tokens.length := by
  induction tokens with
  | nil => rfl
  | cons token rest ih =>
    by_cases group : isGroupToken token = true
    · simp only [userTokens, groupTokens, List.filter_cons, group] at ih ⊢
      simp
      omega
    · simp only [userTokens, groupTokens, List.filter_cons, group] at ih ⊢
      simp
      omega

/-! ## Counting -/

/-- The separators that an '@' follows. -/
def countMarked : CString → Nat
  | [] => 0
  | c :: rest => (if isSeparator c ∧ rest.head? = some '@' then 1 else 0) + countMarked rest

theorem head_mirrorTokens (mirror : CString) :
    ∃ token others, mirrorTokens mirror = token :: others ∧
      isGroupToken token = decide (mirror.head? = some '@') := by
  cases mirror with
  | nil => exact ⟨[], [], rfl, rfl⟩
  | cons c rest =>
    unfold mirrorTokens
    rw [List.splitOnP_cons_eq_if_modifyHead]
    by_cases separator : isSeparator c = true
    · rw [if_pos separator]
      refine ⟨[], rest.splitOnP isSeparator, rfl, ?_⟩
      have other : c ≠ '@' := by
        rintro rfl
        simp [isSeparator] at separator
      simp [isGroupToken, other]
    · rw [if_neg separator]
      cases parts : rest.splitOnP isSeparator with
      | nil => exact absurd parts (List.splitOnP_ne_nil isSeparator rest)
      | cons part others => exact ⟨c :: part, others, rfl, by simp [isGroupToken]⟩

theorem length_groupTokens_cons (token : CString) (tokens : List CString) :
    (groupTokens (token :: tokens)).length =
      (if isGroupToken token = true then 1 else 0) + (groupTokens tokens).length := by
  by_cases group : isGroupToken token = true
  · simp [groupTokens, group, Nat.add_comm]
  · simp [groupTokens, group]

theorem length_groupTokens (mirror : CString) :
    (groupTokens (mirrorTokens mirror)).length =
      (if mirror.head? = some '@' then 1 else 0) + countMarked mirror := by
  induction mirror with
  | nil => rfl
  | cons c rest ih =>
    obtain ⟨token, others, tokens, group⟩ := head_mirrorTokens rest
    have split : mirrorTokens (c :: rest) =
        if isSeparator c then [] :: mirrorTokens rest else (mirrorTokens rest).modifyHead (c :: ·) :=
      List.splitOnP_cons_eq_if_modifyHead c rest
    rw [countMarked]
    by_cases separator : isSeparator c = true
    · have other : c ≠ '@' := by
        rintro rfl
        simp [isSeparator] at separator
      have unmarked : isGroupToken [] = false := rfl
      rw [split, if_pos separator, length_groupTokens_cons, ih]
      simp [unmarked, separator, other]
    · have first : isGroupToken (c :: token) = decide (c = '@') := by simp [isGroupToken]
      rw [tokens, length_groupTokens_cons, group] at ih
      have others_eq : (groupTokens others).length = countMarked rest := by simpa using ih
      rw [split, if_neg separator, tokens, List.modifyHead_cons, length_groupTokens_cons, first,
        others_eq]
      simp [separator]

theorem suffix_pair_iff (sep c d : Char) : [sep, '@'] <:+ [c, d] ↔ c = sep ∧ d = '@' := by
  rw [List.suffix_cons_iff]
  constructor
  · rintro (same | short)
    · cases same
      exact ⟨rfl, rfl⟩
    · exact absurd short.length_le (by simp)
  · rintro ⟨rfl, rfl⟩
    exact Or.inl rfl

theorem suffix_longer_iff (sep c d e : Char) (rest : CString) :
    [sep, '@'] <:+ c :: d :: e :: rest ↔ [sep, '@'] <:+ d :: e :: rest := by
  rw [List.suffix_cons_iff]
  simp

/-- `count_substrs` misses an occurrence exactly when it ends the string. -/
theorem countSubstrs_marked (mirror : CString) :
    countSubstrs [',', '@'] mirror + countSubstrs [':', '@'] mirror +
        (if EndsInBareAt mirror then 1 else 0) = countMarked mirror := by
  induction mirror with
  | nil => rfl
  | cons c rest ih =>
    cases rest with
    | nil => simp [countSubstrs, countMarked, EndsInBareAt, List.suffix_cons_iff]
    | cons d rest =>
      have marked : (isSeparator c = true ∧ (d :: rest).head? = some '@') ↔
          (c = ',' ∧ d = '@') ∨ (c = ':' ∧ d = '@') := by
        simp [isSeparator, or_and_right]
      rw [countMarked]
      simp only [marked]
      cases rest with
      | nil =>
        have ends : EndsInBareAt [c, d] ↔ (c = ',' ∧ d = '@') ∨ (c = ':' ∧ d = '@') :=
          or_congr (suffix_pair_iff ',' c d) (suffix_pair_iff ':' c d)
        simp [ends, countSubstrs, countMarked]
      | cons e rest =>
        have ends : EndsInBareAt (c :: d :: e :: rest) ↔ EndsInBareAt (d :: e :: rest) :=
          or_congr (suffix_longer_iff ',' c d e rest) (suffix_longer_iff ':' c d e rest)
        simp only [ends]
        rw [← ih]
        by_cases at_sign : d = '@'
        · by_cases comma : c = ','
          · simp [countSubstrs, at_sign, comma]
            omega
          · by_cases colon : c = ':'
            · simp [countSubstrs, at_sign, colon]
              omega
            · simp [countSubstrs, at_sign, comma, colon, Ne.symm comma, Ne.symm colon]
        · simp [countSubstrs, at_sign, Ne.symm at_sign]

theorem numMirroredMembers_add (mirror : CString) :
    numMirroredMembers mirror + (if EndsInBareAt mirror then 1 else 0) =
      (groupTokens (mirrorTokens mirror)).length := by
  have marked := countSubstrs_marked mirror
  rw [length_groupTokens, ← marked, numMirroredMembers]
  omega

theorem numMirroredUsers_eq (mirror : CString) :
    numMirroredUsers mirror =
      (userTokens (mirrorTokens mirror)).length + (if EndsInBareAt mirror then 1 else 0) := by
  have members := numMirroredMembers_add mirror
  have tokens := length_mirrorTokens mirror
  have split := length_tokens (mirrorTokens mirror)
  unfold numMirroredUsers
  omega

/-! ## The loop -/

/-- The assertions at the end of the string. -/
def closingAssertions (numUsers numMembers : Nat) (found : Mirrored) : Except MirrorEnd Mirrored :=
  if found.users.length = numUsers ∧ found.members.length = numMembers then .ok found
  else .error .failedAssertion

theorem length_of_mirrorToken {db : UserDb} {numUsers numMembers : Nat} {found out : Mirrored}
    {token : CString} (read : mirrorToken db numUsers numMembers found token = .ok out) :
    out.users.length + out.members.length = found.users.length + found.members.length + 1 := by
  unfold mirrorToken at read
  split at read
  · split at read
    · cases read
    · split at read
      · cases read
        simp
        omega
      · cases read
  · split at read
    · cases read
    · split at read
      · cases read
        simp
        omega
      · cases read

theorem strdupUntil_separator (s : CString) :
    strdupUntil s [',', ':'] = s.takeWhile (fun c => !isSeparator c) := by
  unfold strdupUntil
  congr 1
  funext c
  simp [isSeparator]

theorem mirrorTokens_of_end {p : CString} (found : p.dropWhile (fun c => !isSeparator c) = []) :
    mirrorTokens p = [strdupUntil p [',', ':']] := by
  rw [mirrorTokens, splitOnP_scan_end isSeparator p found, strdupUntil_separator,
    takeWhile_of_scan_end isSeparator p found]

theorem mirrorTokens_of_separator {p rest : CString} {c : Char}
    (found : p.dropWhile (fun c => !isSeparator c) = c :: rest) :
    mirrorTokens p = strdupUntil p [',', ':'] :: mirrorTokens rest := by
  rw [mirrorTokens, splitOnP_scan_sep isSeparator p rest c found, strdupUntil_separator]
  rfl

/-- The loop condition holds until every token is read: the two counts together are the number
of tokens. -/
theorem mirrorLoop_eq_foldlM (db : UserDb) (numUsers numMembers : Nat) (found : Mirrored)
    (p : CString) (balanced : found.users.length + found.members.length + (mirrorTokens p).length =
      numUsers + numMembers) :
    mirrorLoop db numUsers numMembers found p =
      (mirrorTokens p).foldlM (mirrorToken db numUsers numMembers) found >>=
        closingAssertions numUsers numMembers := by
  fun_induction mirrorLoop db numUsers numMembers found p with
  | case1 found p running stop stopped =>
    cases rest : p.dropWhile (fun c => !isSeparator c) with
    | nil =>
      rw [mirrorTokens_of_end rest, List.foldlM_cons, stopped]
      rfl
    | cons c rest' =>
      rw [mirrorTokens_of_separator rest, List.foldlM_cons, stopped]
      rfl
  | case2 found p running out read rest asserted =>
    rw [mirrorTokens_of_end rest, List.foldlM_cons, read]
    change _ = closingAssertions numUsers numMembers out
    rw [closingAssertions, if_pos asserted]
  | case3 found p running out read rest asserted =>
    rw [mirrorTokens_of_end rest, List.foldlM_cons, read]
    change _ = closingAssertions numUsers numMembers out
    rw [closingAssertions, if_neg asserted]
  | case4 found p running out read c rest' rest ih =>
    have longer := length_of_mirrorToken read
    rw [mirrorTokens_of_separator rest] at balanced ⊢
    rw [List.length_cons] at balanced
    rw [ih (by omega), List.foldlM_cons, read]
    rfl
  | case5 found p stopped =>
    have tokens := length_mirrorTokens p
    omega

/-! ## The outcome -/

theorem mirrorToken_group (db : UserDb) (numUsers numMembers : Nat) (found : Mirrored)
    {token : CString} (group : isGroupToken token = true) :
    mirrorToken db numUsers numMembers found token =
      match mirrorId db token with
      | none => .error .invalidId
      | some gid =>
        if found.members.length < numMembers then
          .ok { found with members := found.members ++ [gid] }
        else .error .overrun := by
  unfold mirrorId
  rw [if_pos group]
  cases token with
  | nil => cases group
  | cons c groupname =>
    have at_sign : c = '@' := by simpa [isGroupToken] using group
    subst at_sign
    rfl

theorem mirrorToken_user (db : UserDb) (numUsers numMembers : Nat) (found : Mirrored)
    {token : CString} (user : isGroupToken token = false) :
    mirrorToken db numUsers numMembers found token =
      match mirrorId db token with
      | none => .error .invalidId
      | some uid =>
        if found.users.length < numUsers then .ok { found with users := found.users ++ [uid] }
        else .error .overrun := by
  unfold mirrorId
  rw [user, if_neg Bool.false_ne_true]
  unfold mirrorToken
  split
  · cases user
  · rfl

/-- While both arrays have room for what is left, a token that resolves is stored in its array
and one that does not ends the call. -/
theorem mirrorFold_outcome (db : UserDb) (numUsers numMembers : Nat) (tokens : List CString)
    (found : Mirrored) (users : found.users.length + (userTokens tokens).length ≤ numUsers)
    (members : found.members.length + (groupTokens tokens).length ≤ numMembers) :
    (∃ token ∈ tokens, mirrorId db token = none) ∧
        tokens.foldlM (mirrorToken db numUsers numMembers) found = .error .invalidId ∨
      ∃ out : Mirrored, tokens.foldlM (mirrorToken db numUsers numMembers) found = .ok out ∧
        out.users.map some = found.users.map some ++ (userTokens tokens).map (mirrorId db) ∧
        out.members.map some = found.members.map some ++ (groupTokens tokens).map (mirrorId db) := by
  induction tokens generalizing found with
  | nil => exact Or.inr ⟨found, rfl, by simp [userTokens], by simp [groupTokens]⟩
  | cons token rest ih =>
    rw [List.foldlM_cons]
    cases resolved : mirrorId db token with
    | none =>
      refine Or.inl ⟨⟨token, by simp, resolved⟩, ?_⟩
      cases group : isGroupToken token with
      | true =>
        rw [mirrorToken_group db _ _ _ group, resolved]
        rfl
      | false =>
        rw [mirrorToken_user db _ _ _ group, resolved]
        rfl
    | some id =>
      cases group : isGroupToken token with
      | true =>
        have left : userTokens (token :: rest) = userTokens rest := by simp [userTokens, group]
        have right : groupTokens (token :: rest) = token :: groupTokens rest := by
          simp [groupTokens, group]
        rw [left] at users ⊢
        rw [right, List.length_cons] at members
        rw [right, mirrorToken_group db _ _ _ group, resolved]
        simp only [if_pos (by omega : found.members.length < numMembers)]
        have later := ih { found with members := found.members ++ [id] } users (by simp; omega)
        rcases later with ⟨⟨other, member, unresolved⟩, failed⟩ | ⟨out, read, out_users, out_members⟩
        · exact Or.inl ⟨⟨other, by simp [member], unresolved⟩, failed⟩
        · exact Or.inr ⟨out, read, out_users, by simpa [resolved] using out_members⟩
      | false =>
        have left : userTokens (token :: rest) = token :: userTokens rest := by
          simp [userTokens, group]
        have right : groupTokens (token :: rest) = groupTokens rest := by simp [groupTokens, group]
        rw [left, List.length_cons] at users
        rw [left]
        rw [right] at members ⊢
        rw [mirrorToken_user db _ _ _ group, resolved]
        simp only [if_pos (by omega : found.users.length < numUsers)]
        have later := ih { found with users := found.users ++ [id] } (by simp; omega) members
        rcases later with ⟨⟨other, member, unresolved⟩, failed⟩ | ⟨out, read, out_users, out_members⟩
        · exact Or.inl ⟨⟨other, by simp [member], unresolved⟩, failed⟩
        · exact Or.inr ⟨out, read, by simpa [resolved] using out_users, out_members⟩

theorem resolved_of_stored {db : UserDb} {tokens : List CString} {out : Mirrored}
    (users : (userTokens tokens).map (mirrorId db) <:+ out.users.map some)
    (members : (groupTokens tokens).map (mirrorId db) <:+ out.members.map some) :
    ∀ token ∈ tokens, mirrorId db token ≠ none := by
  intro token member unresolved
  cases group : isGroupToken token with
  | true =>
    have stored : none ∈ out.members.map some := by
      rw [← unresolved]
      exact members.subset (List.mem_map_of_mem (List.mem_filter.mpr ⟨member, group⟩))
    simp at stored
  | false =>
    have stored : none ∈ out.users.map some := by
      rw [← unresolved]
      exact users.subset (List.mem_map_of_mem (List.mem_filter.mpr ⟨member, by simp [group]⟩))
    simp at stored

/-- A list that does not end in a bare '@' is rejected for a name or stored in full. -/
theorem parseMirroredUsers_outcome (db : UserDb) {mirror : CString} (clean : ¬ EndsInBareAt mirror) :
    (∃ token ∈ mirrorTokens mirror, mirrorId db token = none) ∧
        parseMirroredUsers db mirror = .error .invalidId ∨
      ∃ out : Mirrored, parseMirroredUsers db mirror = .ok out ∧
        out.users.map some = (userTokens (mirrorTokens mirror)).map (mirrorId db) ∧
        out.members.map some = (groupTokens (mirrorTokens mirror)).map (mirrorId db) := by
  have members := numMirroredMembers_add mirror
  have users := numMirroredUsers_eq mirror
  rw [if_neg clean, Nat.add_zero] at members users
  have split := length_tokens (mirrorTokens mirror)
  rw [parseMirroredUsers_eq, mirrorLoop_eq_foldlM _ _ _ _ _ (by simp; omega)]
  rcases mirrorFold_outcome db (numMirroredUsers mirror) (numMirroredMembers mirror)
    (mirrorTokens mirror) ⟨[], []⟩ (by simp; omega) (by simp; omega) with
    ⟨unresolved, failed⟩ | ⟨out, read, out_users, out_members⟩
  · rw [failed]
    exact Or.inl ⟨unresolved, rfl⟩
  · refine Or.inr ⟨out, ?_, by simpa using out_users, by simpa using out_members⟩
    have numUsers : out.users.length = numMirroredUsers mirror := by
      have lengths := congrArg List.length out_users
      simpa [users] using lengths
    have numMembers : out.members.length = numMirroredMembers mirror := by
      have lengths := congrArg List.length out_members
      simpa [members] using lengths
    rw [read]
    change closingAssertions _ _ out = _
    rw [closingAssertions, if_pos ⟨numUsers, numMembers⟩]

theorem mirrorTokens_of_bareAt {mirror : CString} (bare : EndsInBareAt mirror) :
    ∃ front, mirrorTokens mirror = front ++ [['@']] := by
  have last : ['@'].splitOnP isSeparator = [['@']] := by decide
  rcases bare with ⟨front, rfl⟩ | ⟨front, rfl⟩
  · exact ⟨front.splitOnP isSeparator, by
      rw [mirrorTokens, List.splitOnP_append_cons front ['@'] (by decide : isSeparator ',' = true), last]⟩
  · exact ⟨front.splitOnP isSeparator, by
      rw [mirrorTokens, List.splitOnP_append_cons front ['@'] (by decide : isSeparator ':' = true), last]⟩

/-- The empty name is read as the id 0, so a bare '@' stands for the group 0. -/
theorem mirrorId_bareAt (db : UserDb) : mirrorId db ['@'] = some 0#32 := rfl

/-- The slot of the last '@' was counted as one for a user: it is written past the end. -/
theorem parseMirroredUsers_of_bareAt (db : UserDb) {mirror : CString} (bare : EndsInBareAt mirror) :
    (∃ token ∈ mirrorTokens mirror, mirrorId db token = none) ∧
        parseMirroredUsers db mirror = .error .invalidId ∨
      (∀ token ∈ mirrorTokens mirror, mirrorId db token ≠ none) ∧
        parseMirroredUsers db mirror = .error .overrun := by
  have members := numMirroredMembers_add mirror
  have users := numMirroredUsers_eq mirror
  rw [if_pos bare] at members users
  have split := length_tokens (mirrorTokens mirror)
  rw [parseMirroredUsers_eq, mirrorLoop_eq_foldlM _ _ _ _ _ (by simp; omega)]
  obtain ⟨front, tokens⟩ := mirrorTokens_of_bareAt bare
  have group : isGroupToken ['@'] = true := rfl
  have front_users : userTokens (front ++ [['@']]) = userTokens front := by
    simp [userTokens, group]
  have front_members : groupTokens (front ++ [['@']]) = groupTokens front ++ [['@']] := by
    simp [groupTokens, group]
  rw [tokens, front_users] at users
  rw [tokens, front_members, List.length_append, List.length_singleton] at members
  rw [tokens, List.foldlM_append]
  rcases mirrorFold_outcome db (numMirroredUsers mirror) (numMirroredMembers mirror) front
    ⟨[], []⟩ (by simp; omega) (by simp; omega) with
    ⟨⟨token, member, unresolved⟩, failed⟩ | ⟨out, read, out_users, out_members⟩
  · rw [failed]
    exact Or.inl ⟨⟨token, by simp [member], unresolved⟩, rfl⟩
  · right
    have full : out.members.length = numMirroredMembers mirror := by
      have lengths := congrArg List.length out_members
      simp at lengths
      omega
    have overrun : mirrorToken db (numMirroredUsers mirror) (numMirroredMembers mirror) out ['@'] =
        .error .overrun := by
      rw [mirrorToken_group db _ _ _ group, mirrorId_bareAt]
      simp only [full, Nat.lt_irrefl, if_false]
    refine ⟨?_, ?_⟩
    · intro token member
      rcases List.mem_append.mp member with early | last
      · exact resolved_of_stored ⟨_, out_users.symm⟩ ⟨_, out_members.symm⟩ token early
      · rw [List.mem_singleton.mp last, mirrorId_bareAt]
        exact Option.some_ne_none _
    · simp only [read, List.foldlM_cons, overrun, bind, Except.bind]

/-- `parse_mirrored_users` returns 0 exactly for a list with a name that does not resolve. -/
theorem parseMirroredUsers_invalid_iff (db : UserDb) (mirror : CString) :
    parseMirroredUsers db mirror = .error .invalidId ↔
      ∃ token ∈ mirrorTokens mirror, mirrorId db token = none := by
  by_cases bare : EndsInBareAt mirror
  · rcases parseMirroredUsers_of_bareAt db bare with ⟨unresolved, failed⟩ | ⟨resolved, overrun⟩
    · exact iff_of_true failed unresolved
    · refine iff_of_false (by rw [overrun]; simp) ?_
      rintro ⟨token, member, unresolved⟩
      exact resolved token member unresolved
  · rcases parseMirroredUsers_outcome db bare with ⟨unresolved, failed⟩ | ⟨out, read, users, members⟩
    · exact iff_of_true failed unresolved
    · refine iff_of_false (by rw [read]; simp) ?_
      rintro ⟨token, member, unresolved⟩
      exact resolved_of_stored ⟨[], users.symm⟩ ⟨[], members.symm⟩ token member unresolved

theorem parseMirroredUsers_ok_iff (db : UserDb) (mirror : CString) :
    (∃ out, parseMirroredUsers db mirror = .ok out) ↔
      ¬ EndsInBareAt mirror ∧ ∀ token ∈ mirrorTokens mirror, mirrorId db token ≠ none := by
  by_cases bare : EndsInBareAt mirror
  · rcases parseMirroredUsers_of_bareAt db bare with ⟨-, failed⟩ | ⟨-, failed⟩
    · simp [failed, bare]
    · simp [failed, bare]
  · rcases parseMirroredUsers_outcome db bare with ⟨⟨token, member, unresolved⟩, failed⟩ |
      ⟨out, read, users, members⟩
    · rw [failed]
      refine iff_of_false (by simp) ?_
      rintro ⟨-, resolved⟩
      exact resolved token member unresolved
    · refine iff_of_true ⟨out, read⟩ ⟨bare, ?_⟩
      exact resolved_of_stored ⟨[], users.symm⟩ ⟨[], members.symm⟩

end Bindfs.Source
