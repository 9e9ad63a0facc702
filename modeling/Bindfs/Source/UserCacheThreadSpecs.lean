import Bindfs.Source.UserCacheThreads

/-!
# What the threads on the user cache keep to

Three things hold in every state that is reached. The threads inside the sections of
`cache_lock` are those that hold it (`Agrees`). While nobody overwrites the cache, it holds
what the last finished rebuild has read (`Contents`). And every invalidation is covered: the
flag is set, or a rebuild is about to start, or one has started since (`Covered`).
-/
namespace Bindfs.Source
open Bindfs.Lib.Concurrency

section
variable {ι : Type} {lib : CacheSorters} {s s' : CacheSystem ι}

/-! ## The lock -/

def CacheSystem.sections (s : CacheSystem ι) : ι → Section := fun t => (s.threads t).section

def CacheSystem.LockHeld (s : CacheSystem ι) : Prop := Agrees s.cache_lock s.sections

theorem lockHeld_initial : (initialSystem ι).LockHeld := agrees_free fun _ => rfl

/-- A thread in the writing section is the only one inside. -/
theorem outside_of_writing (held : s.LockHeld) {t other : ι} (writes : (s.threads t).section = .writing)
    (another : other ≠ t) : (s.threads other).section = .outside := by
  by_contra inside
  exact another (Agrees.alone held writes inside)

/-- Nobody writes while a thread reads. -/
theorem not_writing_of_reading (held : s.LockHeld) {t : ι} (reading : (s.threads t).section = .reading)
    (other : ι) : (s.threads other).section ≠ .writing := by
  intro writes
  have another : t ≠ other := by
    rintro rfl
    cases writes.symm.trans reading
  cases (outside_of_writing held writes another).symm.trans reading

/-! ## The contents of the cache -/

/-- The cache is the result of a rebuild from what was read. -/
def Reflects (lib : CacheSorters) (build : Build) (cache : UserCache) : Prop :=
  ∃ earlier, rebuildUserCache lib earlier build.passwd build.group = some cache

/-- What a thread knows of the cache. -/
def PhaseContents (lib : CacheSorters) (cache : UserCache) : ThreadState → Prop
  | .readingUsers _ => ∃ earlier, cache = resetMemoryBlock earlier
  | .readingGroups _ passwd =>
    ∃ earlier done, rebuildUidCache (resetMemoryBlock earlier) passwd = some (cache, done)
  | .sorting _ passwd group => ∃ earlier users done done',
    rebuildUidCache (resetMemoryBlock earlier) passwd = some (users, done) ∧
      rebuildGidCache lib users group = some (cache, done')
  | .lookingUpGroup query => ∀ uent, uidCacheLookup lib cache query.uid = some uent → uent.main_gid ≠ query.gid
  | _ => True

/-- The cache holds what the last finished rebuild has read, if there is one. -/
def LatestBuild (lib : CacheSorters) (s : CacheSystem ι) : Prop :=
  (s.builds = [] ∧ s.rebuildStarted = 0) ∨
    ∃ build, s.builds.head? = some build ∧ Reflects lib build s.cache ∧ build.started = s.rebuildStarted

def AnswerCorrect (lib : CacheSorters) (a : Answer) : Prop :=
  queryUserCache lib a.contents a.query.uid a.query.gid = some a.answer ∧
    ∀ build, a.build = some build → Reflects lib build a.contents

structure Contents (lib : CacheSorters) (s : CacheSystem ι) : Prop where
  phase : ∀ t, PhaseContents lib s.cache (s.threads t)
  latest : (∀ t, (s.threads t).overwrites = false) → LatestBuild lib s
  answers : ∀ a ∈ s.answers, AnswerCorrect lib a

theorem Contents.phase_at (contents : Contents lib s) {t : ι} {state : ThreadState}
    (stands : s.threads t = state) : PhaseContents lib s.cache state :=
  stands ▸ contents.phase t

theorem phaseContents_outside {cache : UserCache} {state : ThreadState} (outside : state.section = .outside) :
    PhaseContents lib cache state := by
  cases state with
  | idle | testing | wantsWrite | wantsRead => trivial
  | testingLocked | clearing | starting | readingUsers | readingGroups | sorting | unlockingWrite
  | lookingUpUser | lookingUpGroup | unlockingRead => cases outside

theorem contents_initial : Contents lib (initialSystem ι) where
  phase _ := trivial
  latest _ := Or.inl ⟨rfl, rfl⟩
  answers := by simp [initialSystem]

/-- Nobody overwrites the cache while a thread reads it. -/
theorem latest_of_reading (held : s.LockHeld) (contents : Contents lib s) {t : ι}
    (reading : (s.threads t).section = .reading) : LatestBuild lib s := by
  apply contents.latest
  intro other
  have outside := not_writing_of_reading held reading other
  cases stands : s.threads other <;> simp_all [ThreadState.overwrites, ThreadState.section]

theorem answers_answered (held : s.LockHeld) (contents : Contents lib s) {t : ι}
    (reading : (s.threads t).section = .reading) {query : MembershipQuery} {answer : Bool}
    (correct : queryUserCache lib s.cache query.uid query.gid = some answer) :
    ∀ a ∈ (⟨query, answer, s.cache, s.builds.head?⟩ :: s.answers : List Answer), AnswerCorrect lib a := by
  intro a member
  rcases List.mem_cons.mp member with rfl | earlier
  · refine ⟨correct, fun build last => ?_⟩
    rcases latest_of_reading held contents reading with ⟨none_yet, -⟩ | ⟨latest, head, reflects, -⟩
    · simp [none_yet] at last
    · obtain rfl := Option.some.inj (last.symm.trans head)
      exact reflects
  · exact contents.answers a earlier

/-! ## Invalidations -/

/-- The query a thread works for. -/
def ThreadState.query? : ThreadState → Option MembershipQuery
  | .idle => none
  | .testing query | .wantsRead query | .lookingUpUser query | .lookingUpGroup query
  | .unlockingRead query => some query
  | .wantsWrite caller | .testingLocked caller | .clearing caller | .starting caller | .readingUsers caller
  | .readingGroups caller _ | .sorting caller _ _ | .unlockingWrite caller => caller

/-- The query a thread works for, once the thread has seen the flag clear or has cleared it. -/
def ThreadState.passed : ThreadState → Option MembershipQuery
  | .wantsRead query | .lookingUpUser query | .lookingUpGroup query | .unlockingRead query => some query
  | .starting caller | .readingUsers caller | .readingGroups caller _ | .sorting caller _ _
  | .unlockingWrite caller => caller
  | .idle | .testing _ | .wantsWrite _ | .testingLocked _ | .clearing _ => none

/-- A rebuild is about to start. -/
def CacheSystem.Pending (s : CacheSystem ι) : Prop := ∃ t caller, s.threads t = .starting caller

/-- A rebuild is about to start or has started after this time. -/
def CacheSystem.Covers (s : CacheSystem ι) (time : Nat) : Prop := s.Pending ∨ time < s.rebuildStarted

structure Covered (s : CacheSystem ι) : Prop where
  past : ∀ time ∈ s.invalidations, time < s.now
  timely : ∀ t query, (s.threads t).query? = some query → query.started ≤ s.now
  flagged : ∀ time ∈ s.invalidations, s.cache_rebuild_requested = true ∨ s.Covers time
  passed : ∀ t query, (s.threads t).passed = some query →
    ∀ time ∈ s.invalidations, time < query.started → s.Covers time
  answers : ∀ a ∈ s.answers, a.query.started ≤ s.now ∧
    ∀ time ∈ s.invalidations, time < a.query.started → ∃ build, a.build = some build ∧ time < build.started

/-- What a step does to the flag, the clock and the queries. -/
structure Effect (s s' : CacheSystem ι) : Prop where
  clock : s'.now = s.now + 1
  invalidations : s'.invalidations = s.invalidations ∨
    (s'.invalidations = s.now :: s.invalidations ∧ s'.cache_rebuild_requested = true)
  covers : ∀ time < s.now, s.Covers time → s'.Covers time
  flag : s.cache_rebuild_requested = true → s'.cache_rebuild_requested = true ∨ s'.Pending
  timely : ∀ t query, (s'.threads t).query? = some query →
    (s.threads t).query? = some query ∨ query.started = s.now
  passed : ∀ t query, (s'.threads t).passed = some query →
    (s.threads t).passed = some query ∨ s.cache_rebuild_requested = false ∨ s'.Pending
  answers : ∀ a ∈ s'.answers, a ∈ s.answers ∨ ∃ t, (s.threads t).section = .reading ∧
    (s.threads t).query? = some a.query ∧ (s.threads t).passed = some a.query ∧ a.build = s.builds.head?

theorem query?_of_passed {state : ThreadState} {query : MembershipQuery} (asks : state.passed = some query) :
    state.query? = some query := by
  cases state <;> first | exact asks | cases asks

theorem not_pending_of_reading (held : s.LockHeld) {t : ι} (reading : (s.threads t).section = .reading) :
    ¬ s.Pending := by
  rintro ⟨other, caller, stands⟩
  exact not_writing_of_reading held reading other (by rw [stands]; rfl)

theorem covered_step (held : s.LockHeld) (contents : Contents lib s) (covered : Covered s)
    (effect : Effect s s') : Covered s' := by
  have clock := effect.clock
  -- An invalidation of the state after the step is an earlier one or made now.
  have split : ∀ {time}, time ∈ s'.invalidations → time ∈ s.invalidations ∨
      (time = s.now ∧ s'.cache_rebuild_requested = true) := by
    intro time member
    rcases effect.invalidations with same | ⟨more, set⟩
    · exact Or.inl (same ▸ member)
    · rw [more] at member
      rcases List.mem_cons.mp member with rfl | earlier
      · exact Or.inr ⟨rfl, set⟩
      · exact Or.inl earlier
  have keeps : ∀ {time}, time ∈ s.invalidations → s.Covers time → s'.Covers time :=
    fun member => effect.covers _ (covered.past _ member)
  have timely : ∀ t query, (s'.threads t).query? = some query → query.started ≤ s.now := by
    intro t query asks
    rcases effect.timely t query asks with earlier | anew
    · exact covered.timely t query earlier
    · omega
  constructor
  · intro time member
    rcases split member with earlier | ⟨rfl, -⟩
    · have past := covered.past time earlier
      omega
    · omega
  · intro t query asks
    have past := timely t query asks
    omega
  · intro time member
    rcases split member with earlier | ⟨-, set⟩
    · rcases covered.flagged time earlier with set | covers
      · exact (effect.flag set).imp_right Or.inl
      · exact Or.inr (keeps earlier covers)
    · exact Or.inl set
  · intro t query asks time member before
    rcases split member with earlier | ⟨rfl, -⟩
    · rcases effect.passed t query asks with already | clear | pending
      · exact keeps earlier (covered.passed t query already time earlier before)
      · rcases covered.flagged time earlier with set | covers
        · simp [clear] at set
        · exact keeps earlier covers
      · exact Or.inl pending
    · have past := timely t query (query?_of_passed asks)
      omega
  · intro a member
    rcases effect.answers a member with earlier | ⟨t, reading, asks, passed, last⟩
    · obtain ⟨past, built⟩ := covered.answers a earlier
      refine ⟨by omega, fun time recorded before => ?_⟩
      rcases split recorded with old | ⟨rfl, -⟩
      · exact built time old before
      · omega
    · have past := covered.timely t a.query asks
      refine ⟨by omega, fun time recorded before => ?_⟩
      rcases split recorded with old | ⟨rfl, -⟩
      · rcases covered.passed t a.query passed time old before with pending | started
        · exact absurd pending (not_pending_of_reading held reading)
        · rcases latest_of_reading held contents reading with ⟨-, never⟩ | ⟨build, head, -, same⟩
          · omega
          · exact ⟨build, last.trans head, by omega⟩
      · omega

theorem covered_initial : Covered (initialSystem ι) where
  past := nofun
  timely := nofun
  flagged := nofun
  passed := nofun
  answers := nofun

/-- What holds in every state that is reached. -/
structure CacheInvariant (lib : CacheSorters) (s : CacheSystem ι) : Prop where
  held : s.LockHeld
  contents : Contents lib s
  covered : Covered s

theorem cacheInvariant_initial : CacheInvariant lib (initialSystem ι) :=
  ⟨lockHeld_initial, contents_initial, covered_initial⟩

/-! ## Steps -/

variable [DecidableEq ι] {action : CacheAction ι}

theorem sections_moved (s : CacheSystem ι) (t : ι) (next : ThreadState) :
    (s.moved t next).sections = Function.update s.sections t next.section := by
  funext other
  by_cases self : other = t
  · subst self
    simp [CacheSystem.sections]
  · simp [CacheSystem.sections, self]

theorem lockHeld_moved (held : s.LockHeld) {s₁ : CacheSystem ι} {t : ι} {next : ThreadState}
    (lock : s₁.cache_lock = s.cache_lock) (threads : s₁.threads = s.threads)
    (same : next.section = (s.threads t).section) : (s₁.moved t next).LockHeld := by
  unfold CacheSystem.LockHeld
  rw [sections_moved, same]
  have sections : s₁.sections = s.sections := by
    unfold CacheSystem.sections
    rw [threads]
  change Agrees s₁.cache_lock (Function.update s₁.sections t (s.sections t))
  rw [lock, sections, Function.update_eq_self]
  exact held

theorem lockHeld_unlocked (held : s.LockHeld) {t : ι} {next : ThreadState}
    (inside : (s.threads t).section ≠ .outside) (outside : next.section = .outside) :
    ({ s with cache_lock := s.cache_lock.unlock t }.moved t next).LockHeld := by
  unfold CacheSystem.LockHeld
  rw [sections_moved, outside]
  exact Agrees.unlock held inside

theorem lockHeld_step (held : s.LockHeld) (stepped : CacheStep lib s action s') : s'.LockHeld := by
  cases stepped with
  | invalidate => exact held
  | lockedWrite stands granted =>
    unfold CacheSystem.LockHeld
    rw [sections_moved]
    exact Agrees.lockWrite held granted
  | lockedRead stands granted =>
    unfold CacheSystem.LockHeld
    rw [sections_moved]
    exact Agrees.lockRead held granted
  | unlockedWrite stands =>
    refine lockHeld_unlocked held (by simp [stands, ThreadState.section]) ?_
    rename_i caller
    cases caller <;> rfl
  | unlockedRead stands => exact lockHeld_unlocked held (by simp [stands, ThreadState.section]) rfl
  | query _ _ stands | testedSet stands | testedClear stands | init stands | retestedSet stands
  | retestedClear stands | cleared stands | started stands | readUsers _ stands | readGroups _ stands
  | sorted stands | foundMain stands | notMain stands | searched stands =>
    exact lockHeld_moved held rfl rfl (by rw [stands]; rfl)

/-- A step that leaves the cache alone. -/
theorem contents_moved (contents : Contents lib s) {s₁ : CacheSystem ι} {t : ι} {next : ThreadState}
    (cache : s₁.cache = s.cache) (threads : s₁.threads = s.threads) (builds : s₁.builds = s.builds)
    (start : s₁.rebuildStarted = s.rebuildStarted) (answers : ∀ a ∈ s₁.answers, AnswerCorrect lib a)
    (quiet : (s.threads t).overwrites = false) (knows : PhaseContents lib s.cache next) :
    Contents lib (s₁.moved t next) where
  phase other := by
    by_cases self : other = t
    · subst self
      rw [CacheSystem.threads_moved_self]
      exact cache ▸ knows
    · rw [CacheSystem.threads_moved_of_ne _ _ self, threads]
      exact cache ▸ contents.phase other
  latest still := by
    unfold LatestBuild CacheSystem.moved
    rw [builds, start, cache]
    apply contents.latest
    intro other
    by_cases self : other = t
    · rw [self, quiet]
    · have same := still other
      rwa [CacheSystem.threads_moved_of_ne _ _ self, threads] at same
  answers := answers

/-- A step of the thread that overwrites the cache: nobody else knows anything of it. -/
theorem contents_overwritten (held : s.LockHeld) (contents : Contents lib s) {s₁ : CacheSystem ι} {t : ι}
    {next : ThreadState} (threads : s₁.threads = s.threads) (answers : s₁.answers = s.answers)
    (writes : (s.threads t).section = .writing) (knows : PhaseContents lib s₁.cache next)
    (latest : next.overwrites = false → LatestBuild lib s₁) : Contents lib (s₁.moved t next) where
  phase other := by
    by_cases self : other = t
    · subst self
      rw [CacheSystem.threads_moved_self]
      exact knows
    · rw [CacheSystem.threads_moved_of_ne _ _ self, threads]
      exact phaseContents_outside (outside_of_writing held writes self)
  latest still := by
    have quiet := still t
    rw [CacheSystem.threads_moved_self] at quiet
    exact latest quiet
  answers a member := contents.answers a (answers ▸ member)

theorem contents_step (held : s.LockHeld) (contents : Contents lib s) (stepped : CacheStep lib s action s') :
    Contents lib s' := by
  cases stepped with
  | invalidate => exact ⟨contents.phase, contents.latest, contents.answers⟩
  | query _ _ stands | testedSet stands | testedClear stands | init stands | lockedWrite stands
  | retestedSet stands | retestedClear stands | cleared stands | lockedRead stands | unlockedRead stands =>
    exact contents_moved contents rfl rfl rfl rfl contents.answers (by rw [stands]; rfl) trivial
  | started stands =>
    exact contents_overwritten held contents rfl rfl (by rw [stands]; rfl) ⟨_, rfl⟩ nofun
  | readUsers passwd stands read =>
    have knows := contents.phase_at stands
    obtain ⟨earlier, cache⟩ := knows
    rw [cache] at read
    exact contents_overwritten held contents rfl rfl (by rw [stands]; rfl) ⟨earlier, _, read⟩ nofun
  | readGroups group stands read =>
    have knows := contents.phase_at stands
    obtain ⟨earlier, done, users⟩ := knows
    exact contents_overwritten held contents rfl rfl (by rw [stands]; rfl) ⟨earlier, _, _, _, users, read⟩ nofun
  | sorted stands =>
    have knows := contents.phase_at stands
    obtain ⟨earlier, users, done, done', first, second⟩ := knows
    refine contents_overwritten held contents rfl rfl (by rw [stands]; rfl) trivial fun _ => ?_
    exact Or.inr ⟨_, rfl, ⟨earlier, by simp [rebuildUserCache, first, second]⟩, rfl⟩
  | unlockedWrite stands =>
    rename_i caller
    refine contents_moved contents rfl rfl rfl rfl contents.answers (by rw [stands]; rfl) ?_
    cases caller <;> trivial
  | foundMain stands found main =>
    refine contents_moved contents rfl rfl rfl rfl ?_ (by rw [stands]; rfl) trivial
    exact answers_answered held contents (by rw [stands]; rfl) (by simp [queryUserCache, found, main])
  | notMain stands other =>
    exact contents_moved contents rfl rfl rfl rfl contents.answers (by rw [stands]; rfl) other
  | searched stands found =>
    have knows := contents.phase_at stands
    refine contents_moved contents rfl rfl rfl rfl ?_ (by rw [stands]; rfl) trivial
    refine answers_answered held contents (by rw [stands]; rfl) ?_
    unfold queryUserCache
    split
    · exact found
    · rename_i uent lookup
      rw [if_neg (knows uent lookup)]
      exact found

theorem effect_moved {s₁ : CacheSystem ι} {t : ι} {next : ThreadState} (threads : s₁.threads = s.threads)
    (clock : s₁.now = s.now) (invalidations : s₁.invalidations = s.invalidations)
    (start : (s₁.rebuildStarted = s.rebuildStarted ∧ ∀ caller, s.threads t ≠ .starting caller) ∨
      s₁.rebuildStarted = s.now)
    (flag : s.cache_rebuild_requested = true →
      s₁.cache_rebuild_requested = true ∨ ∃ caller, next = .starting caller)
    (timely : ∀ query, next.query? = some query → (s.threads t).query? = some query ∨ query.started = s.now)
    (passed : ∀ query, next.passed = some query → (s.threads t).passed = some query ∨
      s.cache_rebuild_requested = false ∨ ∃ caller, next = .starting caller)
    (answers : ∀ a ∈ s₁.answers, a ∈ s.answers ∨ (s.threads t).section = .reading ∧
      (s.threads t).query? = some a.query ∧ (s.threads t).passed = some a.query ∧ a.build = s.builds.head?) :
    Effect s (s₁.moved t next) := by
  have starts : (∃ caller, next = .starting caller) → (s₁.moved t next).Pending := by
    rintro ⟨caller, rfl⟩
    exact ⟨t, caller, CacheSystem.threads_moved_self ..⟩
  have others : ∀ {other : ι}, other ≠ t → (s₁.moved t next).threads other = s.threads other := by
    intro other another
    rw [CacheSystem.threads_moved_of_ne _ _ another, threads]
  constructor
  · exact congrArg (· + 1) clock
  · exact Or.inl invalidations
  · intro time past covered
    rcases start with ⟨same, before⟩ | anew
    · rcases covered with ⟨other, caller, stands⟩ | started
      · have another : other ≠ t := by
          rintro rfl
          exact before caller stands
        exact Or.inl ⟨other, caller, (others another).trans stands⟩
      · exact Or.inr (same ▸ started)
    · exact Or.inr (anew ▸ past)
  · exact fun set => (flag set).imp_right starts
  · intro other query asks
    by_cases self : other = t
    · subst self
      rw [CacheSystem.threads_moved_self] at asks
      exact timely query asks
    · exact Or.inl ((others self) ▸ asks)
  · intro other query asks
    by_cases self : other = t
    · subst self
      rw [CacheSystem.threads_moved_self] at asks
      exact (passed query asks).imp_right fun reason => reason.imp_right starts
    · exact Or.inl ((others self) ▸ asks)
  · exact fun a member => (answers a member).imp_right fun reason => ⟨t, reason⟩

/-- A step that goes on with the same query, or with none, and keeps the record. -/
theorem effect_continued {s₁ : CacheSystem ι} {t : ι} {state next : ThreadState} (stands : s.threads t = state)
    (threads : s₁.threads = s.threads) (clock : s₁.now = s.now)
    (invalidations : s₁.invalidations = s.invalidations) (start : s₁.rebuildStarted = s.rebuildStarted)
    (flag : s₁.cache_rebuild_requested = s.cache_rebuild_requested) (answers : s₁.answers = s.answers)
    (before : ∀ caller, state ≠ .starting caller)
    (timely : ∀ query, next.query? = some query → state.query? = some query)
    (passed : ∀ query, next.passed = some query → state.passed = some query) :
    Effect s (s₁.moved t next) := by
  subst stands
  exact effect_moved threads clock invalidations (Or.inl ⟨start, before⟩) (fun set => Or.inl (flag.trans set))
    (fun query asks => Or.inl (timely query asks)) (fun query asks => Or.inl (passed query asks))
    (fun a member => Or.inl (answers ▸ member))

theorem effect_answered {t : ι} {state : ThreadState} {query : MembershipQuery} {answer : Bool}
    (stands : s.threads t = state) (reading : state.section = .reading) (asks : state.passed = some query) :
    Effect s (s.answered t query answer) := by
  subst stands
  have asked := query?_of_passed asks
  refine effect_moved rfl rfl rfl (Or.inl ⟨rfl, ?_⟩) Or.inl ?_ ?_ ?_
  · intro caller starts
    rw [starts] at reading
    cases reading
  · rintro _ ⟨rfl⟩
    exact Or.inl asked
  · rintro _ ⟨rfl⟩
    exact Or.inl asks
  · intro a member
    rcases List.mem_cons.mp member with rfl | earlier
    · exact Or.inr ⟨reading, asked, asks, rfl⟩
    · exact Or.inl earlier

theorem effect_step (stepped : CacheStep lib s action s') : Effect s s' := by
  cases stepped with
  | invalidate =>
    exact ⟨rfl, Or.inr ⟨rfl, rfl⟩, fun _ _ covered => covered, fun _ => Or.inl rfl,
      fun _ _ asks => Or.inl asks, fun _ _ asks => Or.inl asks, fun _ member => Or.inl member⟩
  | query uid gid stands =>
    refine effect_moved rfl rfl rfl (Or.inl ⟨rfl, by simp [stands]⟩) Or.inl ?_ nofun fun _ => Or.inl
    rintro _ ⟨rfl⟩
    exact Or.inr rfl
  | init stands | unlockedRead stands =>
    exact effect_continued stands rfl rfl rfl rfl rfl rfl nofun nofun nofun
  | testedSet stands | lockedWrite stands | retestedSet stands =>
    exact effect_continued stands rfl rfl rfl rfl rfl rfl nofun (fun _ => id) nofun
  | testedClear stands clear | retestedClear stands clear =>
    refine effect_moved rfl rfl rfl (Or.inl ⟨rfl, by simp [stands]⟩) Or.inl ?_ ?_ fun _ => Or.inl
    · exact fun query asks => Or.inl (stands ▸ asks)
    · exact fun query asks => Or.inr (Or.inl clear)
  | cleared stands =>
    refine effect_moved rfl rfl rfl (Or.inl ⟨rfl, by simp [stands]⟩) ?_ ?_ ?_ fun _ => Or.inl
    · exact fun _ => Or.inr ⟨_, rfl⟩
    · exact fun query asks => Or.inl (stands ▸ asks)
    · exact fun query asks => Or.inr (Or.inr ⟨_, rfl⟩)
  | started stands =>
    refine effect_moved rfl rfl rfl (Or.inr rfl) Or.inl ?_ ?_ fun _ => Or.inl
    · exact fun query asks => Or.inl (stands ▸ asks)
    · exact fun query asks => Or.inl (stands ▸ asks)
  | readUsers _ stands | readGroups _ stands | sorted stands | lockedRead stands | notMain stands =>
    exact effect_continued stands rfl rfl rfl rfl rfl rfl nofun (fun _ => id) (fun _ => id)
  | unlockedWrite stands =>
    rename_i caller
    cases caller with
    | none => exact effect_continued stands rfl rfl rfl rfl rfl rfl nofun nofun nofun
    | some query => exact effect_continued stands rfl rfl rfl rfl rfl rfl nofun (fun _ => id) (fun _ => id)
  | foundMain stands | searched stands => exact effect_answered stands rfl rfl

theorem cacheInvariant_step (inv : CacheInvariant lib s) (stepped : CacheStep lib s action s') :
    CacheInvariant lib s' where
  held := lockHeld_step inv.held stepped
  contents := contents_step inv.held inv.contents stepped
  covered := covered_step inv.held inv.contents inv.covered (effect_step stepped)

end

end Bindfs.Source
