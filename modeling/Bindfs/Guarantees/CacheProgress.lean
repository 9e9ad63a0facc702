import Bindfs.Guarantees.CacheAnswers
import Bindfs.Lib.Progress

/-!
# Every query of the user cache is answered

A thread makes at most thirteen steps for a call of `user_belongs_to_group`, and an invalidation
does not make any thread start over: neither a stream of signals nor other threads can keep a
query from its answer by giving it more to do. Nor can the threads block each other, since one
that is inside the lock can always go on. So from every state that is reached the calls can be
brought to an end, and each query has then been answered exactly once (`every_query_answered`).
-/
namespace Bindfs.Guarantees.CacheProgress
open Bindfs.Source Bindfs.Lib.Concurrency
open Bindfs.Guarantees.CacheRebuilds Bindfs.Guarantees.GroupMembership Bindfs.Guarantees.CacheAnswers

/-! ## The work of a thread -/

/-- How many steps a thread may still have to make. -/
def stepsLeft : ThreadState → Nat
  | .idle => 0
  | .unlockingRead _ => 1
  | .lookingUpGroup _ => 2
  | .lookingUpUser _ => 3
  | .wantsRead _ => 4
  | .unlockingWrite _ => 5
  | .sorting _ _ _ => 6
  | .readingGroups _ _ => 7
  | .readingUsers _ => 8
  | .starting _ => 9
  | .clearing _ => 10
  | .testingLocked _ => 11
  | .wantsWrite _ => 12
  | .testing _ => 13

/-- The query whose answer the thread still owes. -/
def unanswered : ThreadState → Option MembershipQuery
  | .testing query | .wantsRead query | .lookingUpUser query | .lookingUpGroup query => some query
  | .wantsWrite caller | .testingLocked caller | .clearing caller | .starting caller | .readingUsers caller
  | .readingGroups caller _ | .sorting caller _ _ | .unlockingWrite caller => caller
  | .idle | .unlockingRead _ => none

def isFor (uid gid : Id) (query : MembershipQuery) : Bool := query.uid = uid ∧ query.gid = gid

/-- Whether the thread owes an answer about this user and this group. -/
def owes (uid gid : Id) (state : ThreadState) : Nat := ((unanswered state).any (isFor uid gid)).toNat

theorem idle_of_stepsLeft {state : ThreadState} (nothing : stepsLeft state = 0) : state = .idle := by
  cases state <;> first | rfl | cases nothing

theorem stepsLeft_afterInit (caller : Option MembershipQuery) : stepsLeft (afterInit caller) ≤ 4 := by
  cases caller with
  | none => exact Nat.zero_le _
  | some query => exact Nat.le_refl _

theorem unanswered_afterInit (caller : Option MembershipQuery) : unanswered (afterInit caller) = caller := by
  cases caller <;> rfl

section
variable {ι : Type}

/-- A step of a thread within a call. -/
def isWork : CacheAction ι → Bool
  | .proceed _ | .deliverUsers _ _ | .deliverGroups _ _ => true
  | .invalidate | .query _ _ _ | .init _ => false

def isCall : CacheAction ι → Bool
  | .query _ _ _ | .init _ => true
  | .invalidate | .proceed _ | .deliverUsers _ _ | .deliverGroups _ _ => false

def asks (uid gid : Id) : CacheAction ι → Bool
  | .query _ uid' gid' => uid' = uid ∧ gid' = gid
  | .invalidate | .init _ | .proceed _ | .deliverUsers _ _ | .deliverGroups _ _ => false

theorem isCall_of_isWork {action : CacheAction ι} (working : isWork action = true) : isCall action = false := by
  cases action <;> first | rfl | cases working

theorem asks_of_isWork (uid gid : Id) {action : CacheAction ι} (working : isWork action = true) :
    asks uid gid action = false := by
  cases action <;> first | rfl | cases working

def answersFor (uid gid : Id) (s : CacheSystem ι) : Nat :=
  s.answers.countP fun a => isFor uid gid a.query

/-! ## All threads -/

section
variable [Fintype ι]

def workLeft (s : CacheSystem ι) : Nat := total stepsLeft s.threads

/-- The answers about a user and a group, those given and those owed. -/
def answersDue (uid gid : Id) (s : CacheSystem ι) : Nat :=
  answersFor uid gid s + total (owes uid gid) s.threads

theorem workLeft_eq_zero (s : CacheSystem ι) : workLeft s = 0 ↔ ∀ t, s.threads t = .idle := by
  rw [workLeft, total_eq_zero_iff]
  constructor
  · exact fun nothing t => idle_of_stepsLeft (nothing t)
  · intro idle t
    rw [idle t]
    rfl

theorem answersDue_of_idle (uid gid : Id) {s : CacheSystem ι} (idle : ∀ t, s.threads t = .idle) :
    answersDue uid gid s = answersFor uid gid s := by
  have none : total (owes uid gid) s.threads = 0 := by
    rw [total_eq_zero_iff]
    intro t
    rw [idle t]
    rfl
  rw [answersDue, none, Nat.add_zero]

theorem workLeft_initial : workLeft (initialSystem ι) = 0 := (workLeft_eq_zero _).mpr fun _ => rfl

theorem answersDue_initial (uid gid : Id) : answersDue uid gid (initialSystem ι) = 0 :=
  answersDue_of_idle uid gid fun _ => rfl

end

variable [DecidableEq ι] {lib : CacheSorters} {s s' : CacheSystem ι} {action : CacheAction ι}

/-! ## One step -/

/-- What a step other than an invalidation does to the thread it is a step of. -/
structure Advances (s : CacheSystem ι) (action : CacheAction ι) (s' : CacheSystem ι) (t : ι) (next : ThreadState) :
    Prop where
  threads : s'.threads = Function.update s.threads t next
  work : stepsLeft next + (isWork action).toNat ≤ stepsLeft (s.threads t) + 13 * (isCall action).toNat
  answers : ∀ uid gid, answersFor uid gid s' + owes uid gid next =
    answersFor uid gid s + owes uid gid (s.threads t) + (asks uid gid action).toNat

/-- A step within a call that gives no answer. -/
theorem advances_moved {s₁ : CacheSystem ι} {t : ι} {state next : ThreadState} (stands : s.threads t = state)
    (threads : s₁.threads = s.threads) (answers : s₁.answers = s.answers) (working : isWork action = true)
    (less : stepsLeft next < stepsLeft state) (same : unanswered next = unanswered state) :
    Advances s action (s₁.moved t next) t next where
  threads := by rw [← threads]; rfl
  work := by
    rw [stands, working]
    exact Nat.le_add_right_of_le less
  answers uid gid := by
    rw [asks_of_isWork uid gid working, stands, owes, owes, same, answersFor, CacheSystem.moved, answers]
    rfl

theorem advances_answered {t : ι} {state : ThreadState} {query : MembershipQuery} {answer : Bool}
    (stands : s.threads t = state) (less : 1 < stepsLeft state) (pending : unanswered state = some query) :
    Advances s (.proceed t) (s.answered t query answer) t (.unlockingRead query) where
  threads := rfl
  work := by
    rw [stands]
    exact Nat.le_add_right_of_le less
  answers uid gid := by
    rw [stands, owes, owes, pending, answersFor, CacheSystem.answered, CacheSystem.moved]
    simp only [List.countP_cons, unanswered, asks, Option.any_none, Option.any_some, Bool.toNat_false, Nat.add_zero]
    rw [answersFor]
    cases isFor uid gid query <;> rfl

theorem advances_step (stepped : CacheStep lib s action s') :
    (action = .invalidate ∧ s'.threads = s.threads ∧ s'.answers = s.answers) ∨
      ∃ t next, Advances s action s' t next := by
  cases stepped with
  | invalidate => exact Or.inl ⟨rfl, rfl, rfl⟩
  | query _ _ stands =>
    refine Or.inr ⟨_, _, rfl, by rw [stands]; exact Nat.le_refl _, fun uid gid => ?_⟩
    rw [stands]
    rfl
  | init stands =>
    refine Or.inr ⟨_, _, rfl, by rw [stands]; exact Nat.le_succ _, fun uid gid => ?_⟩
    rw [stands]
    rfl
  | testedSet stands | lockedWrite stands | retestedSet stands | cleared stands | started stands
  | readUsers _ stands | readGroups _ stands | sorted stands | lockedRead stands | notMain stands
  | unlockedRead stands =>
    exact Or.inr ⟨_, _, advances_moved stands rfl rfl rfl (Nat.lt_succ_self _) rfl⟩
  | testedClear stands =>
    exact Or.inr ⟨_, _, advances_moved stands rfl rfl rfl (by decide : (4 : Nat) < 13) rfl⟩
  | retestedClear stands =>
    exact Or.inr ⟨_, _, advances_moved stands rfl rfl rfl (by decide : (5 : Nat) < 11) rfl⟩
  | unlockedWrite stands =>
    rename_i caller
    have less := stepsLeft_afterInit caller
    exact Or.inr ⟨_, _, advances_moved stands rfl rfl rfl (Nat.lt_succ_of_le less) (unanswered_afterInit caller)⟩
  | foundMain stands =>
    exact Or.inr ⟨_, _, advances_answered stands (by decide : (1 : Nat) < 3) rfl⟩
  | searched stands =>
    exact Or.inr ⟨_, _, advances_answered stands (by decide : (1 : Nat) < 2) rfl⟩

variable [Fintype ι]

theorem workLeft_step (s : CacheSystem ι) (action : CacheAction ι) (s' : CacheSystem ι)
    (stepped : CacheStep lib s action s') :
    workLeft s' + (isWork action).toNat ≤ workLeft s + 13 * (isCall action).toNat := by
  rcases advances_step stepped with ⟨rfl, threads, -⟩ | ⟨t, next, advances⟩
  · rw [workLeft, workLeft, threads]
    exact Nat.le_refl _
  · have sums := total_update stepsLeft s.threads t next
    have work := advances.work
    rw [workLeft, workLeft, advances.threads]
    omega

theorem answersDue_step (uid gid : Id) (s : CacheSystem ι) (action : CacheAction ι) (s' : CacheSystem ι)
    (stepped : CacheStep lib s action s') :
    answersDue uid gid s' = answersDue uid gid s + (asks uid gid action).toNat := by
  rcases advances_step stepped with ⟨rfl, threads, answers⟩ | ⟨t, next, advances⟩
  · rw [answersDue, answersDue, answersFor, answers, threads]
    rfl
  · rw [answersDue, answersDue, advances.threads]
    exact add_total_update _ _ (advances.answers uid gid)

end

/-! ## Nobody waits for ever -/

section
variable {ι : Type} {lib : CacheSorters} {s : CacheSystem ι}

/-- An empty database can be read into any cache that is reached. -/
theorem rebuildUidCache_nil (sane : lib.Sane) {earlier : UserCache} (reached : CacheReachable lib earlier) :
    ∃ cache done, rebuildUidCache (resetMemoryBlock earlier) ⟨[], .endOfList⟩ = some (cache, done) := by
  obtain ⟨cache, done, ran, -⟩ :=
    rebuildUidCache_total ⟨[], .endOfList⟩ (reached.grown sane).users (Nat.zero_le _) trivial
  exact ⟨cache, done, ran⟩

theorem rebuildGidCache_nil (sane : lib.Sane) {earlier users : UserCache} {passwd : Enumeration PasswdEntry}
    {done : Bool} (reached : CacheReachable lib earlier)
    (read : rebuildUidCache (resetMemoryBlock earlier) passwd = some (users, done)) :
    ∃ cache done, rebuildGidCache lib users ⟨[], .endOfList⟩ = some (cache, done) := by
  have grown := reached.grown sane
  obtain ⟨count, fit⟩ := rebuildUidCache_bound passwd grown.users read
  obtain ⟨users', done', read', named, grown', kept, holds⟩ := rebuildUidCache_total passwd grown.users count fit
  cases read.symm.trans read'
  obtain ⟨cache, done, ran, -⟩ := rebuildGidCache_total lib ⟨[], .endOfList⟩ sane.named named
    ⟨grown', by rw [kept]; exact grown.groups⟩ holds (namesAt_kept passwd) (Nat.zero_le _) trivial
  exact ⟨cache, done, ran⟩

/-- The cache is that of a finished rebuild, or empty: a search for a member ends in both. -/
theorem isListedInGroup_total (latest : LatestSerial lib s) (sane : lib.Sane) (uid gid : Id) :
    ∃ answer, isListedInGroup lib s.cache uid gid = some answer := by
  cases found : gidCacheLookup lib s.cache gid with
  | none => exact ⟨false, by rw [isListedInGroup, found]⟩
  | some gent =>
    rcases latest with ⟨-, empty⟩ | ⟨build, -, built⟩
    · rw [empty] at found
      obtain ⟨member, -⟩ := sane.groups.bsearch_found _ _ _ found
      cases member
    · have rebuilt := rebuilt_of_builtFrom sane built
      obtain ⟨-, uids, stored⟩ := cell_of_gidCacheLookup sane rebuilt found
      exact ⟨_, isListedInGroup_eq rebuilt uid (gent, uids) found stored⟩

variable [DecidableEq ι]

/-- Some thread can go on within its call. -/
def CanWork (lib : CacheSorters) (s : CacheSystem ι) : Prop :=
  ∃ action s', isWork action = true ∧ CacheStep lib s action s'

theorem canWork_inside (inv : AnswerInvariant lib s) (sane : lib.Sane) {t : ι}
    (inside : (s.threads t).section ≠ .outside) : CanWork lib s := by
  cases stands : s.threads t with
  | idle | testing | wantsWrite | wantsRead =>
    rw [stands] at inside
    exact absurd rfl inside
  | testingLocked =>
    cases flag : s.cache_rebuild_requested with
    | true => exact ⟨_, _, rfl, .retestedSet stands flag⟩
    | false => exact ⟨_, _, rfl, .retestedClear stands flag⟩
  | clearing => exact ⟨_, _, rfl, .cleared stands⟩
  | starting => exact ⟨_, _, rfl, .started stands⟩
  | readingUsers =>
    obtain ⟨earlier, reached, cache⟩ := inv.serial.phase_at stands
    obtain ⟨users, done, ran⟩ := rebuildUidCache_nil sane reached
    rw [← cache] at ran
    exact ⟨_, _, rfl, .readUsers _ stands ran⟩
  | readingGroups =>
    obtain ⟨earlier, done, reached, read⟩ := inv.serial.phase_at stands
    obtain ⟨groups, done, ran⟩ := rebuildGidCache_nil sane reached read
    exact ⟨_, _, rfl, .readGroups _ stands ran⟩
  | sorting => exact ⟨_, _, rfl, .sorted stands⟩
  | unlockingWrite => exact ⟨_, _, rfl, .unlockedWrite stands⟩
  | lookingUpUser query =>
    by_cases main : ∃ uent, uidCacheLookup lib s.cache query.uid = some uent ∧ uent.main_gid = query.gid
    · obtain ⟨uent, found, same⟩ := main
      exact ⟨_, _, rfl, .foundMain stands found same⟩
    · exact ⟨_, _, rfl, .notMain stands fun uent found same => main ⟨uent, found, same⟩⟩
  | lookingUpGroup query =>
    have latest := latestSerial_of_inside inv.held inv.serial inside (by rw [stands]; rfl)
    obtain ⟨answer, ran⟩ := isListedInGroup_total latest sane query.uid query.gid
    exact ⟨_, _, rfl, .searched stands ran⟩
  | unlockingRead => exact ⟨_, _, rfl, .unlockedRead stands⟩

/-- A thread that waits for the lock waits for one that can go on. -/
theorem canWork (inv : AnswerInvariant lib s) (sane : lib.Sane) {t : ι} (busy : s.threads t ≠ .idle) :
    CanWork lib s := by
  by_cases inside : ∃ other, (s.threads other).section ≠ .outside
  · obtain ⟨other, inside⟩ := inside
    exact canWork_inside inv sane inside
  · have free := Agrees.free_of_outside inv.held fun other => by_contra fun within => inside ⟨other, within⟩
    cases stands : s.threads t with
    | idle => exact absurd stands busy
    | testing =>
      cases flag : s.cache_rebuild_requested with
      | true => exact ⟨_, _, rfl, .testedSet stands flag⟩
      | false => exact ⟨_, _, rfl, .testedClear stands flag⟩
    | wantsWrite => exact ⟨_, _, rfl, .lockedWrite stands (by rw [free]; rfl)⟩
    | wantsRead => exact ⟨_, _, rfl, .lockedRead stands (by rw [free]; rfl)⟩
    | testingLocked | clearing | starting | readingUsers | readingGroups | sorting | unlockingWrite
    | lookingUpUser | lookingUpGroup | unlockingRead =>
      exact absurd ⟨t, by rw [stands]; nofun⟩ inside

end

section
variable {ι : Type} [DecidableEq ι] [Fintype ι] {lib : CacheSorters} {s : CacheSystem ι}

/-- The work that is left can be done. -/
theorem completes_of_run (sane : lib.Sane) {actions : List (CacheAction ι)}
    (ran : Run (CacheStep lib) (initialSystem ι) actions s) :
    ∃ rest s', Run (CacheStep lib) s rest s' ∧ (∀ action ∈ rest, isWork action = true) ∧
      (∃ all, Run (CacheStep lib) (initialSystem ι) all s') ∧ workLeft s' = 0 := by
  apply Run.completes (fun s => ∃ all, Run (CacheStep lib) (initialSystem ι) all s) _ _ ⟨actions, ran⟩
  rintro s ⟨all, reached⟩ some_left
  have busy : ∃ t, s.threads t ≠ .idle := by
    by_contra none_busy
    have nothing := (workLeft_eq_zero s).mpr fun t => by_contra fun busy => none_busy ⟨t, busy⟩
    omega
  obtain ⟨t, busy⟩ := busy
  obtain ⟨action, s', working, stepped⟩ := canWork (answerInvariant_of_run reached) sane busy
  have less := workLeft_step s action s' stepped
  rw [isCall_of_isWork working, working] at less
  refine ⟨[action], s', .next stepped (.done s'), ?_, ⟨_, reached.append (.next stepped (.done s'))⟩, less⟩
  intro other member
  rw [List.mem_singleton.mp member]
  exact working

end

/-- However the calls, the signals and the rebuilds have interleaved, the threads have made at
most thirteen steps for each call, and while a call is under way one of the threads can make a
step. The calls can then all be brought to an end by steps of the threads alone, and every query
that was asked has got one answer. -/
theorem every_query_answered {ι : Type} [DecidableEq ι] [Fintype ι] (lib : CacheSorters) (sane : lib.Sane)
    {actions : List (CacheAction ι)} {s : CacheSystem ι}
    (ran : Run (CacheStep lib) (initialSystem ι) actions s) :
    actions.countP isWork ≤ 13 * actions.countP isCall ∧
      ((∃ t, s.threads t ≠ .idle) → ∃ action s', isWork action = true ∧ CacheStep lib s action s') ∧
      ∃ rest s', Run (CacheStep lib) s rest s' ∧ (∀ action ∈ rest, isWork action = true) ∧
        (∀ t, s'.threads t = .idle) ∧
        ∀ uid gid, (s'.answers.countP fun a => a.query.uid = uid ∧ a.query.gid = gid) =
          actions.countP (asks uid gid) := by
  have inv := answerInvariant_of_run ran
  refine ⟨?_, fun ⟨t, busy⟩ => canWork inv sane busy, ?_⟩
  · have work := ran.work_le workLeft_step
    rw [workLeft_initial] at work
    omega
  · obtain ⟨rest, s', ran', working, -, ended⟩ := completes_of_run sane ran
    have idle := (workLeft_eq_zero s').mp ended
    refine ⟨rest, s', ran', working, idle, fun uid gid => ?_⟩
    have silent : rest.countP (asks uid gid) = 0 := by
      rw [List.countP_eq_zero]
      intro action member
      rw [asks_of_isWork uid gid (working action member)]
      nofun
    have due := (ran.append ran').counted (answersDue_step uid gid)
    rw [answersDue_initial, answersDue_of_idle uid gid idle, List.countP_append, silent] at due
    rw [Nat.add_zero, Nat.zero_add] at due
    exact due

/-- Two threads, two rebuilds, one query and one answer. -/
theorem every_query_answered_after_signal : ∃ s : CacheSystem Bool,
    Run (CacheStep firstSorters) (initialSystem Bool) signalledQuery s ∧
      ∃ rest s', Run (CacheStep firstSorters) s rest s' ∧ (∀ t, s'.threads t = .idle) ∧
        (s'.answers.countP fun a => a.query.uid = 1001#32 ∧ a.query.gid = 200#32) = 1 := by
  obtain ⟨s, -, ran, -⟩ := signalledQuery_ran
  obtain ⟨-, -, rest, s', ran', -, idle, answered⟩ := every_query_answered firstSorters firstSorters_sane ran
  exact ⟨s, ran, rest, s', ran', idle, answered 1001#32 200#32⟩

end Bindfs.Guarantees.CacheProgress
