import Bindfs.Guarantees.CacheRebuilds
import Bindfs.Guarantees.GroupMembership

/-!
# The answers of the threads

However the threads, the signals and the rebuilds interleave, an answer of
`user_belongs_to_group` is the one that a process of a single thread would give right after it
has built its cache for the first time, from what the last finished rebuild has read
(`answers_as_if_built_afresh`). Nothing of an older database and no unfinished cache shows, and
no query is answered before there is a cache.
-/
namespace Bindfs.Guarantees.CacheAnswers
open Bindfs.Source Bindfs.Lib.Concurrency
open Bindfs.Guarantees.CacheRebuilds Bindfs.Guarantees.GroupMembership

section
variable {ι : Type} {lib : CacheSorters} {s s' : CacheSystem ι}

/-! ## One rebuild after another -/

/-- The cache is the result of a rebuild that followed complete rebuilds. -/
def BuiltFrom (lib : CacheSorters) (build : Build) (cache : UserCache) : Prop :=
  ∃ earlier, CacheReachable lib earlier ∧ rebuildUserCache lib earlier build.passwd build.group = some cache

/-- The cache a rebuild in progress began with. -/
def PhaseSerial (lib : CacheSorters) (cache : UserCache) : ThreadState → Prop
  | .readingUsers _ => ∃ earlier, CacheReachable lib earlier ∧ cache = resetMemoryBlock earlier
  | .readingGroups _ passwd => ∃ earlier done, CacheReachable lib earlier ∧
    rebuildUidCache (resetMemoryBlock earlier) passwd = some (cache, done)
  | .sorting _ passwd group => ∃ earlier users done done', CacheReachable lib earlier ∧
    rebuildUidCache (resetMemoryBlock earlier) passwd = some (users, done) ∧
      rebuildGidCache lib users group = some (cache, done')
  | _ => True

def LatestSerial (lib : CacheSorters) (s : CacheSystem ι) : Prop :=
  (s.builds = [] ∧ s.cache = emptyUserCache) ∨
    ∃ build, s.builds.head? = some build ∧ BuiltFrom lib build s.cache

/-- The rebuilds follow each other as they would in a single thread. -/
structure Serial (lib : CacheSorters) (s : CacheSystem ι) : Prop where
  phase : ∀ t, PhaseSerial lib s.cache (s.threads t)
  latest : (∀ t, (s.threads t).overwrites = false) → LatestSerial lib s
  answers : ∀ a ∈ s.answers, ∀ build, a.build = some build → BuiltFrom lib build a.contents

theorem Serial.phase_at (serial : Serial lib s) {t : ι} {state : ThreadState} (stands : s.threads t = state) :
    PhaseSerial lib s.cache state :=
  stands ▸ serial.phase t

theorem serial_initial : Serial lib (initialSystem ι) where
  phase _ := trivial
  latest _ := Or.inl ⟨rfl, rfl⟩
  answers := by simp [initialSystem]

theorem LatestSerial.reachable (latest : LatestSerial lib s) : CacheReachable lib s.cache := by
  rcases latest with ⟨-, empty⟩ | ⟨build, -, earlier, reached, ran⟩
  · rw [empty]
    exact .initial
  · exact .rebuilt build.passwd build.group reached ran

theorem phaseSerial_outside {cache : UserCache} {state : ThreadState} (quiet : state.section = .outside) :
    PhaseSerial lib cache state := by
  cases state with
  | idle | testing | wantsWrite | wantsRead => trivial
  | testingLocked | clearing | starting | readingUsers | readingGroups | sorting | unlockingWrite
  | lookingUpUser | lookingUpGroup | unlockingRead => cases quiet

theorem overwrites_of_section {state : ThreadState} (other : state.section ≠ .writing) :
    state.overwrites = false := by
  cases state <;> first | rfl | exact absurd rfl other

/-- A thread that reads, or writes but not to the cache, finds the cache complete. -/
theorem latestSerial_of_inside (held : s.LockHeld) (serial : Serial lib s) {t : ι}
    (inside : (s.threads t).section ≠ .outside) (quiet : (s.threads t).overwrites = false) :
    LatestSerial lib s := by
  apply serial.latest
  intro other
  by_cases self : other = t
  · rw [self, quiet]
  · apply overwrites_of_section
    intro writes
    exact inside (outside_of_writing held writes fun same => self same.symm)

theorem serial_answered (held : s.LockHeld) (serial : Serial lib s) {t : ι}
    (reading : (s.threads t).section = .reading) {query : MembershipQuery} {answer : Bool} :
    ∀ a ∈ (⟨query, answer, s.cache, s.builds.head?⟩ :: s.answers : List Answer),
      ∀ build, a.build = some build → BuiltFrom lib build a.contents := by
  intro a member build last
  rcases List.mem_cons.mp member with rfl | earlier
  · have latest := latestSerial_of_inside held serial (by rw [reading]; nofun)
      (overwrites_of_section (by rw [reading]; nofun))
    rcases latest with ⟨none_yet, -⟩ | ⟨build', head, built⟩
    · simp [none_yet] at last
    · obtain rfl := Option.some.inj (last.symm.trans head)
      exact built
  · exact serial.answers a earlier build last

/-! ## No answer before the first rebuild -/

/-- The request that the flag starts with counts as an invalidation at time 0. -/
structure Begun (s : CacheSystem ι) : Prop where
  running : 0 < s.now
  requested : s.cache_rebuild_requested = true ∨ s.Covers 0
  passed : ∀ t query, (s.threads t).passed = some query → s.Covers 0
  answers : ∀ a ∈ s.answers, ∃ build, a.build = some build

theorem begun_initial : Begun (initialSystem ι) where
  running := Nat.one_pos
  requested := Or.inl rfl
  passed := nofun
  answers := nofun

theorem begun_step (held : s.LockHeld) (contents : Contents lib s) (begun : Begun s) (effect : Effect s s') :
    Begun s' where
  running := by
    rw [effect.clock]
    omega
  requested := by
    rcases begun.requested with set | covers
    · exact (effect.flag set).imp_right Or.inl
    · exact Or.inr (effect.covers 0 begun.running covers)
  passed t query asks := by
    rcases effect.passed t query asks with already | clear | pending
    · exact effect.covers 0 begun.running (begun.passed t query already)
    · rcases begun.requested with set | covers
      · simp [clear] at set
      · exact effect.covers 0 begun.running covers
    · exact Or.inl pending
  answers a member := by
    rcases effect.answers a member with earlier | ⟨t, reading, -, passed, last⟩
    · exact begun.answers a earlier
    · rcases begun.passed t a.query passed with pending | started
      · exact absurd pending (not_pending_of_reading held reading)
      · rcases latest_of_reading held contents reading with ⟨-, never⟩ | ⟨build, head, -, -⟩
        · omega
        · exact ⟨build, last.trans head⟩

/-! ## Steps -/

variable [DecidableEq ι] {action : CacheAction ι}

/-- A step that leaves the cache alone. -/
theorem serial_moved (serial : Serial lib s) {s₁ : CacheSystem ι} {t : ι} {next : ThreadState}
    (cache : s₁.cache = s.cache) (threads : s₁.threads = s.threads) (builds : s₁.builds = s.builds)
    (answers : ∀ a ∈ s₁.answers, ∀ build, a.build = some build → BuiltFrom lib build a.contents)
    (quiet : (s.threads t).overwrites = false) (knows : PhaseSerial lib s.cache next) :
    Serial lib (s₁.moved t next) where
  phase other := by
    by_cases self : other = t
    · subst self
      rw [CacheSystem.threads_moved_self]
      exact cache ▸ knows
    · rw [CacheSystem.threads_moved_of_ne _ _ self, threads]
      exact cache ▸ serial.phase other
  latest still := by
    unfold LatestSerial CacheSystem.moved
    rw [builds, cache]
    apply serial.latest
    intro other
    by_cases self : other = t
    · rw [self, quiet]
    · have same := still other
      rwa [CacheSystem.threads_moved_of_ne _ _ self, threads] at same
  answers := answers

/-- A step of the thread that overwrites the cache. -/
theorem serial_overwritten (held : s.LockHeld) (serial : Serial lib s) {s₁ : CacheSystem ι} {t : ι}
    {next : ThreadState} (threads : s₁.threads = s.threads) (answers : s₁.answers = s.answers)
    (writes : (s.threads t).section = .writing) (knows : PhaseSerial lib s₁.cache next)
    (latest : next.overwrites = false → LatestSerial lib s₁) : Serial lib (s₁.moved t next) where
  phase other := by
    by_cases self : other = t
    · subst self
      rw [CacheSystem.threads_moved_self]
      exact knows
    · rw [CacheSystem.threads_moved_of_ne _ _ self, threads]
      exact phaseSerial_outside (outside_of_writing held writes self)
  latest still := by
    have quiet := still t
    rw [CacheSystem.threads_moved_self] at quiet
    exact latest quiet
  answers a member := serial.answers a (answers ▸ member)

theorem serial_step (held : s.LockHeld) (serial : Serial lib s) (stepped : CacheStep lib s action s') :
    Serial lib s' := by
  cases stepped with
  | invalidate => exact ⟨serial.phase, serial.latest, serial.answers⟩
  | query _ _ stands | testedSet stands | testedClear stands | init stands | lockedWrite stands
  | retestedSet stands | retestedClear stands | cleared stands | lockedRead stands | unlockedRead stands
  | notMain stands =>
    exact serial_moved serial rfl rfl rfl serial.answers (by rw [stands]; rfl) trivial
  | started stands =>
    have latest := latestSerial_of_inside held serial (by rw [stands]; nofun) (by rw [stands]; rfl)
    exact serial_overwritten held serial rfl rfl (by rw [stands]; rfl) ⟨_, latest.reachable, rfl⟩ nofun
  | readUsers passwd stands read =>
    have knows := serial.phase_at stands
    obtain ⟨earlier, reached, cache⟩ := knows
    rw [cache] at read
    exact serial_overwritten held serial rfl rfl (by rw [stands]; rfl) ⟨earlier, _, reached, read⟩ nofun
  | readGroups group stands read =>
    have knows := serial.phase_at stands
    obtain ⟨earlier, done, reached, users⟩ := knows
    exact serial_overwritten held serial rfl rfl (by rw [stands]; rfl)
      ⟨earlier, _, _, _, reached, users, read⟩ nofun
  | sorted stands =>
    have knows := serial.phase_at stands
    obtain ⟨earlier, users, done, done', reached, first, second⟩ := knows
    refine serial_overwritten held serial rfl rfl (by rw [stands]; rfl) trivial fun _ => ?_
    exact Or.inr ⟨_, rfl, earlier, reached, by simp [rebuildUserCache, first, second]⟩
  | unlockedWrite stands =>
    rename_i caller
    refine serial_moved serial rfl rfl rfl serial.answers (by rw [stands]; rfl) ?_
    cases caller <;> trivial
  | foundMain stands | searched stands =>
    refine serial_moved serial rfl rfl rfl ?_ (by rw [stands]; rfl) trivial
    exact serial_answered held serial (by rw [stands]; rfl)

/-- What holds in every state that is reached, beside `CacheInvariant`. -/
structure AnswerInvariant (lib : CacheSorters) (s : CacheSystem ι) : Prop extends CacheInvariant lib s where
  serial : Serial lib s
  begun : Begun s

theorem answerInvariant_of_run {actions : List (CacheAction ι)}
    (ran : Run (CacheStep lib) (initialSystem ι) actions s) : AnswerInvariant lib s := by
  apply ran.invariant (fun _ => True) (AnswerInvariant lib) (fun _ _ => trivial)
  · exact ⟨cacheInvariant_initial, serial_initial, begun_initial⟩
  · intro before action after _ inv stepped
    exact ⟨cacheInvariant_step inv.toCacheInvariant stepped, serial_step inv.held inv.serial stepped,
      begun_step inv.held inv.contents inv.begun (effect_step stepped)⟩

end

/-! ## Answers -/

section
variable {lib : CacheSorters} {passwd : Enumeration PasswdEntry} {group : Enumeration GroupEntry}

/-- Caches built from the same database find the same members. -/
theorem foundMember_congr {cache cache' : UserCache} (rebuilt : Rebuilt lib passwd group cache)
    (rebuilt' : Rebuilt lib passwd group cache') (uid gid : Id) :
    FoundMember lib passwd group cache uid gid ↔ FoundMember lib passwd group cache' uid gid := by
  have users : uidCacheLookup lib cache = uidCacheLookup lib cache' := by
    funext key
    rw [uidCacheLookup, uidCacheLookup, rebuilt.users, rebuilt'.users]
  have groups : gidCacheLookup lib cache = gidCacheLookup lib cache' := by
    funext key
    rw [gidCacheLookup, gidCacheLookup, rebuilt.groups, rebuilt'.groups]
  rw [FoundMember, FoundMember, users, groups]

theorem queryUserCache_congr (sane : lib.Sane) {cache cache' : UserCache}
    (rebuilt : Rebuilt lib passwd group cache) (rebuilt' : Rebuilt lib passwd group cache') (uid gid : Id) :
    queryUserCache lib cache uid gid = queryUserCache lib cache' uid gid := by
  obtain ⟨answer, answered, meaning⟩ := queryUserCache_answers sane rebuilt uid gid
  obtain ⟨answer', answered', meaning'⟩ := queryUserCache_answers sane rebuilt' uid gid
  rw [answered, answered', Option.some.injEq, Bool.eq_iff_iff, meaning, meaning']
  exact foundMember_congr rebuilt rebuilt' uid gid

theorem rebuilt_of_builtFrom (sane : lib.Sane) {build : Build} {cache : UserCache}
    (built : BuiltFrom lib build cache) : Rebuilt lib build.passwd build.group cache := by
  obtain ⟨earlier, reached, ran⟩ := built
  exact rebuildUserCache_spec lib build.passwd build.group sane (reached.grown sane) ran

/-- The cache of a process that has built it once. -/
theorem builtFrom_afresh (sane : lib.Sane) {build : Build} {cache : UserCache}
    (built : BuiltFrom lib build cache) :
    ∃ fresh, rebuildUserCache lib emptyUserCache build.passwd build.group = some fresh ∧
      Rebuilt lib build.passwd build.group fresh := by
  obtain ⟨earlier, reached, ran⟩ := built
  have fits := rebuildUserCache_fits lib build.passwd build.group sane (reached.grown sane) ran
  exact rebuildUserCache_total lib build.passwd build.group sane (CacheReachable.initial.grown sane) fits

end

section
variable {ι : Type} {lib : CacheSorters} {s : CacheSystem ι}

/-- What is known of an answer: the rebuild it rests on, and the cache it was read from. -/
theorem AnswerInvariant.source (inv : AnswerInvariant lib s) {a : Answer} (member : a ∈ s.answers) :
    ∃ build, a.build = some build ∧ BuiltFrom lib build a.contents ∧
      queryUserCache lib a.contents a.query.uid a.query.gid = some a.answer ∧
      ∀ time ∈ s.invalidations, time < a.query.started → time < build.started := by
  obtain ⟨build, last⟩ := inv.begun.answers a member
  refine ⟨build, last, inv.serial.answers a member build last, (inv.contents.answers a member).1, ?_⟩
  intro time recorded before
  obtain ⟨build', last', after⟩ := (inv.covered.answers a member).2 time recorded before
  obtain rfl := Option.some.inj (last.symm.trans last')
  exact after

/-- A positive answer is backed by the database. -/
theorem AnswerInvariant.member (inv : AnswerInvariant lib s) (sane : lib.Sane) {a : Answer}
    (given : a ∈ s.answers) (positive : a.answer = true) :
    ∃ build, a.build = some build ∧
      Member build.passwd.entries build.group.entries a.query.uid a.query.gid ∧
      ∀ time ∈ s.invalidations, time < a.query.started → time < build.started := by
  obtain ⟨build, last, built, answered, fresh⟩ := inv.source given
  have rebuilt := rebuilt_of_builtFrom sane built
  obtain ⟨answer, answered', meaning⟩ := queryUserCache_answers sane rebuilt a.query.uid a.query.gid
  obtain rfl := Option.some.inj (answered.symm.trans answered')
  exact ⟨build, last, member_of_foundMember sane rebuilt (meaning.mp positive), fresh⟩

end

/-- In every run of any number of threads and invalidations, every answer is the one that a
process gives which has built its cache only once, from what one rebuild of the run has read:
one that started after every invalidation before the query. -/
theorem answers_as_if_built_afresh {ι : Type} [DecidableEq ι] (lib : CacheSorters) (sane : lib.Sane)
    {actions : List (CacheAction ι)} {s : CacheSystem ι}
    (ran : Run (CacheStep lib) (initialSystem ι) actions s) {a : Answer} (given : a ∈ s.answers) :
    ∃ build cache, a.build = some build ∧
      rebuildUserCache lib emptyUserCache build.passwd build.group = some cache ∧
      queryUserCache lib cache a.query.uid a.query.gid = some a.answer ∧
      ∀ time ∈ s.invalidations, time < a.query.started → time < build.started := by
  obtain ⟨build, last, built, answered, fresh⟩ := (answerInvariant_of_run ran).source given
  obtain ⟨cache, ran', rebuilt⟩ := builtFrom_afresh sane built
  refine ⟨build, cache, last, ran', ?_, fresh⟩
  rw [queryUserCache_congr sane rebuilt (rebuilt_of_builtFrom sane built)]
  exact answered

/-- The thread that rebuilds the cache after the signal finds user `b` in the group. -/
theorem answers_as_if_built_afresh_after_signal : ∃ (s : CacheSystem Bool) (a : Answer) (build : Build)
    (cache : UserCache), Run (CacheStep firstSorters) (initialSystem Bool) signalledQuery s ∧ a ∈ s.answers ∧
      rebuildUserCache firstSorters emptyUserCache build.passwd build.group = some cache ∧
      queryUserCache firstSorters cache 1001#32 200#32 = some true ∧ 10 < build.started := by
  obtain ⟨s, a, ran, final⟩ := signalledQuery_ran
  obtain ⟨build, cache, -, rebuilt, answered, fresh⟩ :=
    answers_as_if_built_afresh firstSorters firstSorters_sane ran final.given
  rw [final.query, final.positive] at answered
  exact ⟨s, a, build, cache, ran, final.given, rebuilt, answered, fresh 10 final.recorded final.later⟩

end Bindfs.Guarantees.CacheAnswers
