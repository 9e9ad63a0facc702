import Bindfs.Source.Main
import Bindfs.Source.MirrorParser

/-!
# Rejected command lines and mirror lists

`parse_mirrored_users` counts what it parses unless the list ends in an '@' that stands alone
after a separator; then it writes past the end of `mirrored_members`.

`main` reports a rejected command line by a status other than 0, except for a mirror list with
a name that does not resolve: that return is 0.
-/
namespace Bindfs.Guarantees.CommandLine
open Bindfs.Source

/-! ## Mirror lists -/

/-- The counts are those of the tokens, the loop ends without a write out of bounds or a failed
assertion, and what is stored are the ids of the tokens in their order. -/
structure CountsWhatItParses (db : UserDb) (mirror : CString) : Prop where
  users_counted : numMirroredUsers mirror = (userTokens (mirrorTokens mirror)).length
  members_counted : numMirroredMembers mirror = (groupTokens (mirrorTokens mirror)).length
  ends : (∃ found, parseMirroredUsers db mirror = .ok found) ∨
    parseMirroredUsers db mirror = .error .invalidId
  stored : ∀ found, parseMirroredUsers db mirror = .ok found →
    found.users.map some = (userTokens (mirrorTokens mirror)).map (userUid db) ∧
      found.members.map some =
        (groupTokens (mirrorTokens mirror)).map fun token => groupGid db token.tail

theorem map_userTokens (db : UserDb) (tokens : List CString) :
    (userTokens tokens).map (mirrorId db) = (userTokens tokens).map (userUid db) := by
  apply List.map_congr_left
  intro token member
  have user := (List.mem_filter.mp member).2
  rw [mirrorId, if_neg (by simpa using user)]

theorem map_groupTokens (db : UserDb) (tokens : List CString) :
    (groupTokens tokens).map (mirrorId db) =
      (groupTokens tokens).map fun token => groupGid db token.tail := by
  apply List.map_congr_left
  intro token member
  rw [mirrorId, if_pos (List.mem_filter.mp member).2]

/-- For every list and every outcome of the lookups, the parser counts what it parses if and
only if the list does not end in an '@' that stands alone after a separator. -/
theorem mirror_list_counted_iff (db : UserDb) (mirror : CString) :
    CountsWhatItParses db mirror ↔ ¬ EndsInBareAt mirror := by
  have members := numMirroredMembers_add mirror
  have users := numMirroredUsers_eq mirror
  constructor
  · intro counted bare
    rw [if_pos bare, counted.members_counted] at members
    omega
  · intro clean
    rw [if_neg clean, Nat.add_zero] at members users
    have outcome := parseMirroredUsers_outcome db clean
    refine ⟨users, members, ?_, ?_⟩
    · rcases outcome with ⟨-, failed⟩ | ⟨out, read, -⟩
      · exact Or.inr failed
      · exact Or.inl ⟨out, read⟩
    · intro found parsed
      rcases outcome with ⟨-, failed⟩ | ⟨out, read, out_users, out_members⟩
      · rw [failed] at parsed
        cases parsed
      · rw [read] at parsed
        cases parsed
        rw [map_userTokens] at out_users
        rw [map_groupTokens] at out_members
        exact ⟨out_users, out_members⟩

/-- `--mirror=1000,@`: two slots for users, none for groups, and the loop writes the group 0
to `mirrored_members[0]`. -/
theorem mirror_list_with_bare_at_overruns :
    numMirroredUsers ['1', '0', '0', '0', ',', '@'] = 2 ∧
      numMirroredMembers ['1', '0', '0', '0', ',', '@'] = 0 ∧
      parseMirroredUsers numericUsers ['1', '0', '0', '0', ',', '@'] =
        .error .overrun ∧
      ¬ CountsWhatItParses numericUsers ['1', '0', '0', '0', ',', '@'] := by
  refine ⟨rfl, rfl, ?_, ?_⟩
  · rw [parseMirroredUsers_eq, mirrorLoop_eq_foldlM _ _ _ _ _ (by decide)]
    rfl
  · intro counted
    have members := counted.members_counted
    exact absurd members (by decide)

/-! ## Exit status -/

/-- The stage does not make `main` return 0. -/
def Reports {α : Type} (stage : Except MainEnd α) : Prop := stage ≠ .error (.returns 0)

theorem reports_ok {α : Type} (value : α) : Reports (.ok value : Except MainEnd α) := by
  simp [Reports]

theorem Reports.bind {α β : Type} {first : Except MainEnd α} {next : α → Except MainEnd β}
    (reports : Reports first) (rest : ∀ value, Reports (next value)) : Reports (first >>= next) := by
  cases first with
  | error stop =>
    intro failed
    apply reports
    rw [Except.error.inj (failed : Except.error stop = .error (.returns 0))]
  | ok value => exact rest value

/-- After a stage that reports, a return of 0 comes from what follows it. -/
theorem Reports.bind_zero_iff {α β : Type} {first : Except MainEnd α}
    {next : α → Except MainEnd β} (reports : Reports first) :
    (first >>= next) = .error (.returns 0) ↔
      ∃ value, first = .ok value ∧ next value = .error (.returns 0) := by
  cases first with
  | error stop =>
    refine iff_of_false ?_ (by rintro ⟨value, impossible, -⟩; cases impossible)
    intro failed
    apply reports
    rw [Except.error.inj (failed : Except.error stop = .error (.returns 0))]
  | ok value =>
    refine ⟨fun failed => ⟨value, rfl, failed⟩, ?_⟩
    rintro ⟨_, same, failed⟩
    cases same
    exact failed

theorem Reports.foldlM {α β : Type} {step : β → α → Except MainEnd β}
    (reports : ∀ state item, Reports (step state item)) (items : List α) (state : β) :
    Reports (items.foldlM step state) := by
  induction items generalizing state with
  | nil => exact reports_ok state
  | cons item rest ih =>
    rw [List.foldlM_cons]
    exact (reports state item).bind ih

theorem reports_check (passed : Bool) : Reports (check passed) := by
  cases passed <;> simp [Reports, check]

theorem reports_orReturn {α : Type} (option : Option α) : Reports (orReturn option) := by
  cases option <;> simp [Reports, orReturn]

section
variable (system : System)

theorem reports_processOption (startup : Startup) (call : OptionKey × CString) :
    Reports (processOption system startup call) := by
  unfold processOption
  split
  · simp [Reports]
  · simp [Reports]
  · simp [Reports]
  · split <;> simp [Reports]
  · split
    · split <;> simp [Reports]
    · split <;> simp [Reports]
    · simp [Reports]
  · simp [Reports]

theorem reports_parseOptions (commandLine : CommandLine) :
    Reports (parseOptions system commandLine) := by
  apply (Reports.foldlM (reports_processOption system) _ _).bind
  intro startup
  apply (reports_check _).bind
  intro _
  split
  · exact reports_ok _
  · simp [Reports]

theorem reports_parseIdOption (toId : CString → Option Id) (name : Option CString) :
    Reports (parseIdOption toId name) := by
  cases name with
  | none => exact reports_ok _
  | some name => exact reports_orReturn _

theorem reports_parseRootIdOption (toId : CString → Option Id) (name : Option CString) :
    Reports (parseRootIdOption system toId name) := by
  cases name with
  | none => exact reports_ok _
  | some name => exact (reports_check _).bind fun _ => reports_orReturn _

theorem reports_parseRate (rate : Option CString) : Reports (parseRate system rate) := by
  cases rate with
  | none => exact reports_ok _
  | some rate => exact reports_check _

theorem reports_parseMaps (od : OptionData) : Reports (parseMaps system od) := by
  apply Reports.foldlM
  intro maps option
  cases option with
  | none => exact reports_ok _
  | some call => exact (reports_check _).bind fun _ => reports_orReturn _

theorem reports_parseOffset (map offset : Option CString) :
    Reports (parseOffset system map offset) := by
  cases offset with
  | none => exact reports_ok _
  | some arg =>
    exact (reports_check _).bind fun _ => (reports_check _).bind fun _ =>
      (reports_check _).bind fun _ => reports_ok _

theorem reports_parseAlignment (alignment : Option CString) :
    Reports (parseAlignment alignment) := by
  cases alignment with
  | none => exact reports_ok _
  | some arg =>
    exact (reports_check _).bind fun _ => (reports_check _).bind fun _ => reports_ok _

theorem reports_parseRules (rules : Option CString) : Reports (parseRules rules) := by
  cases rules with
  | none => exact reports_ok _
  | some rules =>
    unfold parseRules
    simp only
    split
    · exact reports_ok _
    · simp [Reports]

theorem reports_parseDeletionPolicy (policy : Option CString) :
    Reports (parseDeletionPolicy policy) := by
  cases policy with
  | none => exact reports_ok _
  | some name =>
    unfold parseDeletionPolicy
    simp only
    repeat' split
    all_goals simp [Reports]

/-- Every check that `main` makes before it parses the mirror list passes. -/
structure ReachesMirrors (commandLine : CommandLine) : Prop where
  options : ∃ parsed, parseOptions system commandLine = .ok parsed
  user : ∃ id, parseIdOption (userUid system.users)
    (commandLine.od.user.or commandLine.od.deprecated_user) = .ok id
  group : ∃ id, parseIdOption (groupGid system.users)
    (commandLine.od.group.or commandLine.od.deprecated_group) = .ok id
  read_rate : parseRate system commandLine.od.read_rate = .ok ()
  write_rate : parseRate system commandLine.od.write_rate = .ok ()
  maps : ∃ maps, parseMaps system commandLine.od = .ok maps
  uid_offset : ∃ offset, parseOffset system commandLine.od.map commandLine.od.uid_offset = .ok offset
  gid_offset : ∃ offset, parseOffset system commandLine.od.map commandLine.od.gid_offset = .ok offset
  forward_odirect : ∃ alignment, parseAlignment commandLine.od.forward_odirect = .ok alignment
  create_for_user : ∃ id, parseRootIdOption system (userUid system.users)
    commandLine.od.create_for_user = .ok id
  create_for_group : ∃ id, parseRootIdOption system (groupGid system.users)
    commandLine.od.create_for_group = .ok id

/-- One mirror option is given, and a name in its list does not resolve. -/
def UnresolvedMirror (od : OptionData) : Prop :=
  (od.mirror = none ∨ od.mirror_only = none) ∧
    ∃ names, od.mirror_only.or od.mirror = some names ∧
      ∃ token ∈ mirrorTokens names, mirrorId system.users token = none

theorem parseMirrors_zero_iff (od : OptionData) :
    parseMirrors system od.mirror od.mirror_only = .error (.returns 0) ↔
      UnresolvedMirror system od := by
  unfold parseMirrors UnresolvedMirror
  rw [(reports_check _).bind_zero_iff]
  simp only [check_ok_iff, Bool.or_eq_true, Option.isNone_iff_eq_none, exists_and_left, exists_const]
  apply and_congr_right
  intro _
  cases given : od.mirror_only.or od.mirror with
  | none => simp [pure, Except.pure]
  | some names =>
    simp only [Option.some.injEq, exists_eq_left', ← parseMirroredUsers_invalid_iff]
    cases parseMirroredUsers system.users names with
    | ok found => simp [pure, Except.pure]
    | error stop => cases stop <;> simp

/-- `main` returns 0 without mounting exactly when it reaches a mirror list with a name that
does not resolve. -/
theorem main_zero_iff (commandLine : CommandLine) :
    main system commandLine = .error (.returns 0) ↔
      ReachesMirrors system commandLine ∧ UnresolvedMirror system commandLine.od := by
  rw [← parseMirrors_zero_iff]
  unfold main
  constructor
  · intro failed
    obtain ⟨options, parsedOptions, failed⟩ := (reports_parseOptions system commandLine).bind_zero_iff.mp failed
    obtain ⟨newUid, user, failed⟩ := (reports_parseIdOption _ _).bind_zero_iff.mp failed
    obtain ⟨newGid, group, failed⟩ := (reports_parseIdOption _ _).bind_zero_iff.mp failed
    obtain ⟨_, readRate, failed⟩ := (reports_parseRate _ _).bind_zero_iff.mp failed
    obtain ⟨_, writeRate, failed⟩ := (reports_parseRate _ _).bind_zero_iff.mp failed
    obtain ⟨maps, parsedMaps, failed⟩ := (reports_parseMaps _ _).bind_zero_iff.mp failed
    obtain ⟨uidOffset, parsedUid, failed⟩ := (reports_parseOffset _ _ _).bind_zero_iff.mp failed
    obtain ⟨gidOffset, parsedGid, failed⟩ := (reports_parseOffset _ _ _).bind_zero_iff.mp failed
    obtain ⟨alignment, aligned, failed⟩ := (reports_parseAlignment _).bind_zero_iff.mp failed
    obtain ⟨createForUid, forUser, failed⟩ := (reports_parseRootIdOption _ _ _).bind_zero_iff.mp failed
    obtain ⟨createForGid, forGroup, failed⟩ := (reports_parseRootIdOption _ _ _).bind_zero_iff.mp failed
    refine ⟨⟨⟨_, parsedOptions⟩, ⟨_, user⟩, ⟨_, group⟩, readRate, writeRate, ⟨_, parsedMaps⟩,
      ⟨_, parsedUid⟩, ⟨_, parsedGid⟩, ⟨_, aligned⟩, ⟨_, forUser⟩, ⟨_, forGroup⟩⟩, ?_⟩
    -- nothing after the mirror list returns 0
    by_contra reports
    refine Reports.bind reports ?_ failed
    rintro ⟨mirroredUsersOnly, mirrored⟩
    exact (reports_parseRules _).bind fun _ => (reports_parseRules _).bind fun _ =>
      (reports_parseRules _).bind fun _ => (reports_parseDeletionPolicy _).bind fun _ =>
        (reports_check _).bind fun _ => (reports_check _).bind fun _ => reports_ok _
  · rintro ⟨reaches, failed⟩
    obtain ⟨options, parsedOptions⟩ := reaches.options
    obtain ⟨newUid, user⟩ := reaches.user
    obtain ⟨newGid, group⟩ := reaches.group
    obtain ⟨maps, parsedMaps⟩ := reaches.maps
    obtain ⟨uidOffset, parsedUid⟩ := reaches.uid_offset
    obtain ⟨gidOffset, parsedGid⟩ := reaches.gid_offset
    obtain ⟨alignment, aligned⟩ := reaches.forward_odirect
    obtain ⟨createForUid, forUser⟩ := reaches.create_for_user
    obtain ⟨createForGid, forGroup⟩ := reaches.create_for_group
    simp only [parsedOptions, user, group, reaches.read_rate, reaches.write_rate, parsedMaps,
      parsedUid, parsedGid, aligned, forUser, forGroup, failed, bind, Except.bind]

/-- For every system and command line: every return of `main` without a mount is other than 0 if
and only if it does not reach a mirror list with a name that does not resolve. -/
theorem rejections_reported_iff (commandLine : CommandLine) :
    (∀ status, main system commandLine = .error (.returns status) → status ≠ 0) ↔
      ¬ (ReachesMirrors system commandLine ∧ UnresolvedMirror system commandLine.od) := by
  rw [← main_zero_iff]
  constructor
  · intro reported failed
    exact reported 0 failed rfl
  · rintro reported status returned rfl
    exact reported returned

end

/-- `bindfs --mirror=nobody /s /m` where there is no user nobody. -/
def unknownMirrorLine : CommandLine where
  od := { OptionData.empty with mirror := some "nobody".toList }
  calls := [(.nonoption, ['/', 's']), (.nonoption, ['/', 'm'])]
  malformed := false

/-- The rejected mirror list makes `main` return 0. -/
theorem unknown_mirrored_user_returns_zero :
    main rootSystem unknownMirrorLine = .error (.returns 0) ∧
      ¬ ∀ (system : System) (commandLine : CommandLine) (status : Nat),
        main system commandLine = .error (.returns status) → status ≠ 0 := by
  have returned : main rootSystem unknownMirrorLine = .error (.returns 0) := by
    rw [main_zero_iff]
    refine ⟨⟨⟨_, rfl⟩, ⟨_, rfl⟩, ⟨_, rfl⟩, rfl, rfl, ⟨_, rfl⟩, ⟨_, rfl⟩, ⟨_, rfl⟩,
      ⟨_, rfl⟩, ⟨_, rfl⟩, ⟨_, rfl⟩⟩, Or.inr rfl, "nobody".toList, rfl, "nobody".toList, ?_, rfl⟩
    decide
  exact ⟨returned, fun reported => reported _ _ 0 returned rfl⟩

end Bindfs.Guarantees.CommandLine
