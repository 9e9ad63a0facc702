import Bindfs.Source.UserCacheThreadSpecs

/-!
# Rebuilding the user cache

However the threads and the signals interleave, a query that starts after an invalidation
answers from a cache whose rebuild began to read the user database after the invalidation, and
nobody reads the caches during a rebuild (`no_invalidation_lost`).

A rebuild that fails is taken for a finished one: the flag is cleared before the work, the
results of the two enumerations are not looked at, and the cache that an error has emptied
stays in use until the next invalidation. Runs without such an error leave the cache in order
(`finished_enumerations_settle`).
-/
namespace Bindfs.Guarantees.CacheRebuilds
open Bindfs.Source Bindfs.Lib.Concurrency Bindfs.Lib.SortSearch

theorem inProgress_of_reads {ι : Type} {s : CacheSystem ι} (held : s.LockHeld) {t : ι}
    (reads : (s.threads t).reads = true) (other : ι) : (s.threads other).inProgress = false := by
  have reading : (s.threads t).section = .reading := by
    cases stands : s.threads t <;> simp_all [ThreadState.reads, ThreadState.section]
  have outside := not_writing_of_reading held reading other
  cases stands : s.threads other <;> simp_all [ThreadState.inProgress, ThreadState.section]

section
variable {ι : Type} [DecidableEq ι] {lib : CacheSorters} {s s' : CacheSystem ι} {action : CacheAction ι}

theorem cacheInvariant_of_run {actions : List (CacheAction ι)}
    (ran : Run (CacheStep lib) (initialSystem ι) actions s) : CacheInvariant lib s :=
  ran.invariant (fun _ => True) (CacheInvariant lib) (fun _ _ => trivial) cacheInvariant_initial
    fun _ _ _ _ inv stepped => cacheInvariant_step inv stepped

end

/-! ## Invalidations -/

/-- In every run of any number of threads and invalidations: an answer to a query that started
after an invalidation is read from a cache that reflects a rebuild started after it, and while
a query reads the caches no rebuild is in progress. -/
theorem no_invalidation_lost {ι : Type} [DecidableEq ι] (lib : CacheSorters) {actions : List (CacheAction ι)}
    {s : CacheSystem ι} (ran : Run (CacheStep lib) (initialSystem ι) actions s) :
    (∀ a ∈ s.answers, ∀ time ∈ s.invalidations, time < a.query.started →
      ∃ build, a.build = some build ∧ time < build.started ∧ Reflects lib build a.contents ∧
        queryUserCache lib a.contents a.query.uid a.query.gid = some a.answer) ∧
      ∀ t other, (s.threads t).reads = true → (s.threads other).inProgress = false := by
  have inv := cacheInvariant_of_run ran
  constructor
  · intro a member time recorded before
    obtain ⟨build, last, after⟩ := (inv.covered.answers a member).2 time recorded before
    obtain ⟨correct, reflects⟩ := inv.contents.answers a member
    exact ⟨build, last, after, reflects build last, correct⟩
  · intro t other reads
    exact inProgress_of_reads inv.held reads other

/-- One thread rebuilds the cache from users alone. A signal, and then a query of another thread:
it rebuilds the cache itself, from a database with a group of both users. -/
def signalledQuery : List (CacheAction Bool) :=
  [.init false, .proceed false, .proceed false, .proceed false, .proceed false,
    .deliverUsers false sampleUsers, .deliverGroups false ⟨[], .enoent⟩, .proceed false, .proceed false,
    .invalidate, .query true 1001#32 200#32, .proceed true, .proceed true, .proceed true, .proceed true,
    .proceed true, .deliverUsers true sampleUsers, .deliverGroups true sampleGroups, .proceed true,
    .proceed true, .proceed true, .proceed true, .proceed true]

/-- What holds at the end of that run. -/
structure AfterSignal (s : CacheSystem Bool) (a : Answer) : Prop where
  answers : s.answers = [a]
  query : a.query = ⟨11, 1001#32, 200#32⟩
  positive : a.answer = true
  invalidations : s.invalidations = [10]
  builds : s.builds.length = 2
  clear : s.cache_rebuild_requested = false
  quiet : ∀ t, (s.threads t).inProgress = false

theorem AfterSignal.given {s : CacheSystem Bool} {a : Answer} (final : AfterSignal s a) : a ∈ s.answers := by
  simp [final.answers]

theorem AfterSignal.recorded {s : CacheSystem Bool} {a : Answer} (final : AfterSignal s a) :
    10 ∈ s.invalidations := by
  simp [final.invalidations]

theorem AfterSignal.later {s : CacheSystem Bool} {a : Answer} (final : AfterSignal s a) :
    10 < a.query.started := by
  simp [final.query]

set_option maxRecDepth 20000 in
theorem signalledQuery_ran : ∃ (s : CacheSystem Bool) (a : Answer),
    Run (CacheStep firstSorters) (initialSystem Bool) signalledQuery s ∧ AfterSignal s a := by
  refine ⟨_, _, .next (.init rfl) <| .next (.lockedWrite rfl rfl) <| .next (.retestedSet rfl rfl) <|
    .next (.cleared rfl) <| .next (.started rfl) <| .next (.readUsers _ rfl rfl) <|
    .next (.readGroups _ rfl rfl) <| .next (.sorted rfl) <| .next (.unlockedWrite rfl) <|
    .next (.invalidate _) <| .next (.query _ _ rfl) <| .next (.testedSet rfl rfl) <|
    .next (.lockedWrite rfl rfl) <| .next (.retestedSet rfl rfl) <| .next (.cleared rfl) <|
    .next (.started rfl) <| .next (.readUsers _ rfl rfl) <| .next (.readGroups _ rfl rfl) <|
    .next (.sorted rfl) <| .next (.unlockedWrite rfl) <| .next (.lockedRead rfl rfl) <|
    .next (.notMain rfl ?_) <| .next (.searched rfl rfl) <| .done _, rfl, rfl, rfl, rfl, rfl, rfl, ?_⟩
  · intro uent found
    cases found
    decide
  · intro t
    cases t <;> rfl

theorem no_invalidation_lost_after_signal :
    ∃ (s : CacheSystem Bool) (a : Answer), Run (CacheStep firstSorters) (initialSystem Bool) signalledQuery s ∧
      a ∈ s.answers ∧ a.answer = true ∧ 10 ∈ s.invalidations ∧ 10 < a.query.started ∧
        s.builds.length = 2 ∧ ∃ build, a.build = some build ∧ 10 < build.started := by
  obtain ⟨s, a, ran, final⟩ := signalledQuery_ran
  obtain ⟨build, last, after, -⟩ :=
    (no_invalidation_lost firstSorters ran).1 a final.given 10 final.recorded final.later
  exact ⟨s, a, ran, final.given, final.positive, final.recorded, final.later, final.builds, build, last, after⟩

/-! ## Failed enumerations -/

/-- The enumeration that an action delivers, if it delivers one, ends at the end of the list or
with the ENOENT that the source tolerates. -/
def Finishes {ι : Type} : CacheAction ι → Prop
  | .deliverUsers _ passwd => passwd.ending ≠ .failed
  | .deliverGroups _ group => group.ending ≠ .failed
  | _ => True

def Build.Finished (build : Build) : Prop :=
  build.passwd.ending ≠ .failed ∧ build.group.ending ≠ .failed

/-- While no rebuild is in progress and none is requested, the caches reflect enumerations that
ran to their ends. -/
def Settled {ι : Type} (lib : CacheSorters) (s : CacheSystem ι) : Prop :=
  (∀ t, (s.threads t).inProgress = false) → s.cache_rebuild_requested = false →
    ∃ build ∈ s.builds, Build.Finished build ∧ Reflects lib build s.cache

/-- What a thread has read so far has ended. -/
def ReadToEnd : ThreadState → Prop
  | .readingGroups _ passwd => passwd.ending ≠ .failed
  | .sorting _ passwd group => passwd.ending ≠ .failed ∧ group.ending ≠ .failed
  | _ => True

structure EndsReached {ι : Type} (s : CacheSystem ι) : Prop where
  threads : ∀ t, ReadToEnd (s.threads t)
  builds : ∀ build ∈ s.builds, Build.Finished build
  requested : s.cache_rebuild_requested = true ∨ (∃ t, (s.threads t).inProgress = true) ∨ s.builds ≠ []

theorem EndsReached.threads_at {ι : Type} {s : CacheSystem ι} (reached : EndsReached s) {t : ι}
    {state : ThreadState} (stands : s.threads t = state) : ReadToEnd state :=
  stands ▸ reached.threads t

theorem endsReached_initial {ι : Type} : EndsReached (initialSystem ι) :=
  ⟨fun _ => trivial, nofun, Or.inl rfl⟩

theorem settled_of_endsReached {ι : Type} {lib : CacheSorters} {s : CacheSystem ι} (contents : Contents lib s)
    (reached : EndsReached s) : Settled lib s := by
  intro quiet clear
  have still : ∀ t, (s.threads t).overwrites = false := by
    intro t
    have idle := quiet t
    cases stands : s.threads t <;> simp_all [ThreadState.inProgress, ThreadState.overwrites]
  have built : s.builds ≠ [] := by
    rcases reached.requested with set | ⟨t, working⟩ | built
    · simp [clear] at set
    · simp [quiet t] at working
    · exact built
  rcases contents.latest still with ⟨none_yet, -⟩ | ⟨build, head, reflects, -⟩
  · exact absurd none_yet built
  · have member := List.mem_of_mem_head? head
    exact ⟨build, member, reached.builds build member, reflects⟩

section
variable {ι : Type} [DecidableEq ι] {lib : CacheSorters} {s s' : CacheSystem ι} {action : CacheAction ι}

theorem endsReached_moved (reached : EndsReached s) {s₁ : CacheSystem ι} {t : ι} {state next : ThreadState}
    (stands : s.threads t = state) (threads : s₁.threads = s.threads) (ended : ReadToEnd next)
    (builds : ∀ build ∈ s₁.builds, Build.Finished build)
    (flag : s.cache_rebuild_requested = true → s₁.cache_rebuild_requested = true ∨ next.inProgress = true)
    (progress : state.inProgress = true → next.inProgress = true ∨ s₁.builds ≠ [])
    (kept : s.builds ≠ [] → s₁.builds ≠ []) : EndsReached (s₁.moved t next) where
  threads other := by
    by_cases self : other = t
    · subst self
      rw [CacheSystem.threads_moved_self]
      exact ended
    · rw [CacheSystem.threads_moved_of_ne _ _ self, threads]
      exact reached.threads other
  builds := builds
  requested := by
    have begun : next.inProgress = true → ∃ other, ((s₁.moved t next).threads other).inProgress = true := by
      intro working
      exact ⟨t, by rwa [CacheSystem.threads_moved_self]⟩
    rcases reached.requested with set | ⟨other, working⟩ | some_build
    · rcases flag set with still | working
      · exact Or.inl still
      · exact Or.inr (Or.inl (begun working))
    · by_cases self : other = t
      · subst self
        rw [stands] at working
        rcases progress working with working | some_build
        · exact Or.inr (Or.inl (begun working))
        · exact Or.inr (Or.inr some_build)
      · exact Or.inr (Or.inl ⟨other, by rwa [CacheSystem.threads_moved_of_ne _ _ self, threads]⟩)
    · exact Or.inr (Or.inr (kept some_build))

theorem endsReached_step (finishes : Finishes action) (reached : EndsReached s)
    (stepped : CacheStep lib s action s') : EndsReached s' := by
  cases stepped with
  | invalidate => exact ⟨reached.threads, reached.builds, Or.inl rfl⟩
  | query _ _ stands | testedSet stands | testedClear stands | init stands | lockedWrite stands
  | retestedSet stands | retestedClear stands | lockedRead stands | foundMain stands | notMain stands
  | searched stands | unlockedRead stands =>
    exact endsReached_moved reached stands rfl trivial reached.builds Or.inl nofun id
  | cleared stands =>
    exact endsReached_moved reached stands rfl trivial reached.builds (fun _ => Or.inr rfl) nofun id
  | started stands => exact endsReached_moved reached stands rfl trivial reached.builds Or.inl Or.inl id
  | readUsers passwd stands => exact endsReached_moved reached stands rfl finishes reached.builds Or.inl Or.inl id
  | readGroups group stands =>
    have ended := reached.threads_at stands
    exact endsReached_moved reached stands rfl ⟨ended, finishes⟩ reached.builds Or.inl Or.inl id
  | sorted stands =>
    have ended := reached.threads_at stands
    refine endsReached_moved reached stands rfl trivial ?_ Or.inl (fun _ => Or.inr nofun) (fun _ => nofun)
    intro build member
    rcases List.mem_cons.mp member with rfl | earlier
    · exact ended
    · exact reached.builds build earlier
  | unlockedWrite stands =>
    rename_i caller
    refine endsReached_moved reached stands rfl ?_ reached.builds Or.inl nofun id
    cases caller <;> trivial

end

/-- In every run in which every enumeration ends at the end of its list or with ENOENT, every
state without a rebuild requested or in progress has caches that reflect such enumerations. -/
theorem finished_enumerations_settle {ι : Type} [DecidableEq ι] (lib : CacheSorters)
    {actions : List (CacheAction ι)} {s : CacheSystem ι}
    (ran : Run (CacheStep lib) (initialSystem ι) actions s) (finishes : ∀ action ∈ actions, Finishes action) :
    Settled lib s :=
  settled_of_endsReached (cacheInvariant_of_run ran).contents
    (ran.invariant Finishes EndsReached finishes endsReached_initial
      fun _ _ _ finishes reached stepped => endsReached_step finishes reached stepped)

/-- After both rebuilds the caches reflect one of them. -/
theorem finished_enumerations_settle_after_signal :
    ∃ s : CacheSystem Bool, Run (CacheStep firstSorters) (initialSystem Bool) signalledQuery s ∧
      s.cache_rebuild_requested = false ∧
        ∃ build ∈ s.builds, Build.Finished build ∧ Reflects firstSorters build s.cache := by
  obtain ⟨s, a, ran, final⟩ := signalledQuery_ran
  have settled := finished_enumerations_settle firstSorters ran
    (by simp [signalledQuery, sampleUsers, sampleGroups, Finishes])
  exact ⟨s, ran, final.clear, settled final.quiet final.clear⟩

/-- What a thread does that rebuilds the cache at the start, from empty lists. -/
def firstRebuild (ending ending' : EnumerationEnd) : List (CacheAction Unit) :=
  [.init (), .proceed (), .proceed (), .proceed (), .proceed (), .deliverUsers () ⟨[], ending⟩,
    .deliverGroups () ⟨[], ending'⟩, .proceed (), .proceed ()]

theorem run_firstRebuild (ending ending' : EnumerationEnd) :
    ∃ s, Run (CacheStep firstSorters) (initialSystem Unit) (firstRebuild ending ending') s ∧
      s.cache_rebuild_requested = false ∧ (∀ t, s.threads t = .idle) ∧
        s.builds = [⟨5, ⟨[], ending⟩, ⟨[], ending'⟩⟩] := by
  cases ending <;> cases ending' <;>
    exact ⟨_, .next (.init rfl) <| .next (.lockedWrite rfl rfl) <| .next (.retestedSet rfl rfl) <|
      .next (.cleared rfl) <| .next (.started rfl) <| .next (.readUsers _ rfl rfl) <|
      .next (.readGroups _ rfl rfl) <| .next (.sorted rfl) <| .next (.unlockedWrite rfl) <| .done _,
      rfl, fun _ => rfl, rfl⟩

/-- getpwent fails at once in the first rebuild. The rebuild goes on with the groups and is not
repeated: no enumeration of the users has run to its end, and no rebuild is pending. -/
theorem failed_enumeration_taken_for_finished :
    ¬ ∀ (lib : CacheSorters) (actions : List (CacheAction Unit)) (s : CacheSystem Unit),
      Run (CacheStep lib) (initialSystem Unit) actions s → Settled lib s := by
  intro always
  obtain ⟨s, ran, clear, idle, builds⟩ := run_firstRebuild .failed .endOfList
  obtain ⟨build, member, finished, -⟩ :=
    always firstSorters _ s ran (fun t => by rw [idle t]; rfl) clear
  rw [builds, List.mem_singleton] at member
  subst member
  exact finished.1 rfl

end Bindfs.Guarantees.CacheRebuilds
