import Mathlib
import Bindfs.Source.RateLimiterThreads
import Bindfs.Guarantees.RateLimit

/-!
# The rate limit under interleavings

The mutex makes the threads' calls a sequence of calls of `rate_limiter_wait_nosleep`, and no store
of one of them is lost (`calls_serialised`). So what the threads have transferred keeps to the
rate, whenever and however late they wake up (`transfers_within_rate`): the sleeps that have been
cut short are the exception, and a sleep that is not cut short may lack a nanosecond. A clock that
is set back holds the threads up; one that is set forward gives them the time it skips.

Three invariants carry this. `Serialised` ties the limiter to the calls made so far, with the two
stores of a call in between. `Paced` says that the limiter has counted no more time than has
passed and been skipped: it counts the time between two readings, and none when the second is
earlier, so that its calls are those of a steady clock (`steadyCalls`). `Accounted` gives each
transfer and each waiting thread a call of its own.
-/
namespace Bindfs.Guarantees.RateLimitThreads
open Bindfs.Source Bindfs.Lib.Concurrency Bindfs.Guarantees.RateLimit

/-! ## Sequences of calls -/

/-- The limiter after a sequence of calls. -/
def limiterAfter (limiter : RateLimiter) (calls : List RateRequest) : RateLimiter :=
  calls.foldl (fun limiter call => (rateLimiterWaitNosleep limiter call.size call.now).2) limiter

theorem limiterAfter_append (limiter : RateLimiter) (calls : List RateRequest) (last : RateRequest) :
    limiterAfter limiter (calls ++ [last]) =
      (rateLimiterWaitNosleep (limiterAfter limiter calls) last.size last.now).2 := by
  simp [limiterAfter]

theorem rateLimiterRun_append (limiter : RateLimiter) (calls : List RateRequest) (last : RateRequest) :
    rateLimiterRun limiter (calls ++ [last]) = rateLimiterRun limiter calls ++
      [⟨last.size, last.now + max 0
        (rateLimiterWaitNosleep (limiterAfter limiter calls) last.size last.now).1⟩] := by
  induction calls generalizing limiter with
  | nil => rfl
  | cons call rest ih =>
    simp only [List.cons_append, rateLimiterRun]
    rw [ih]
    rfl

theorem rateLimiterWaits_append (limiter : RateLimiter) (calls : List RateRequest) (last : RateRequest) :
    rateLimiterWaits limiter (calls ++ [last]) = rateLimiterWaits limiter calls ++
      [(rateLimiterWaitNosleep (limiterAfter limiter calls) last.size last.now).1] := by
  induction calls generalizing limiter with
  | nil => rfl
  | cons call rest ih =>
    simp only [List.cons_append, rateLimiterWaits]
    rw [ih]
    rfl

theorem length_rateLimiterRun (limiter : RateLimiter) (calls : List RateRequest) :
    (rateLimiterRun limiter calls).length = calls.length := by
  induction calls generalizing limiter with
  | nil => rfl
  | cons call rest ih => simp [rateLimiterRun, ih]

theorem length_rateLimiterWaits (limiter : RateLimiter) (calls : List RateRequest) :
    (rateLimiterWaits limiter calls).length = calls.length := by
  induction calls generalizing limiter with
  | nil => rfl
  | cons call rest ih => simp [rateLimiterWaits, ih]

theorem clockFrom_append {start : ℚ} {calls : List RateRequest} {limiter : RateLimiter}
    (modified : limiter.last_modified = start) (clock : ClockFrom start calls) {last : RateRequest}
    (later : (limiterAfter limiter calls).last_modified ≤ last.now) :
    ClockFrom start (calls ++ [last]) := by
  induction calls generalizing start limiter with
  | nil =>
    subst modified
    simpa [ClockFrom, limiterAfter] using later
  | cons call rest ih =>
    obtain ⟨first, clock⟩ := clock.cons
    have ordered := ih (last_modified_wait limiter call.size) clock later
    refine List.pairwise_cons.mpr ⟨?_, ordered⟩
    intro time member
    rw [List.cons_append, List.map_cons, List.mem_cons] at member
    rcases member with rfl | member
    · exact first
    · exact first.trans ((List.pairwise_cons.mp ordered).1 time member)

/-! ### A clock that is set -/

/-- The time that the limiter counts from one reading of the clock to the next. -/
def counted (last now : ℚ) : ℚ := max 0 (now - last)

theorem counted_nonneg (last now : ℚ) : 0 ≤ counted last now := le_max_left 0 _

@[simp] theorem counted_self (now : ℚ) : counted now now = 0 := by simp [counted]

/-- Time that passes, and a clock that is set forward, are counted at most once. -/
theorem counted_add_le (last now shift : ℚ) : counted last (now + shift) ≤ counted last now + max 0 shift := by
  apply max_le
  · have none := counted_nonneg last now
    have forward := le_max_left 0 shift
    linarith
  · have passed : now - last ≤ counted last now := le_max_right 0 _
    have forward := le_max_right 0 shift
    linarith

/-- The reading of a steady clock that shows `time` when the clock shows `last`. -/
def steadyTime (last time : ℚ) : List RateRequest → ℚ
  | [] => time
  | call :: rest => steadyTime call.now (time + counted last call.now) rest

/-- The calls, with the readings of a clock that stands still while the other one is behind. -/
def steadyCalls (last time : ℚ) : List RateRequest → List RateRequest
  | [] => []
  | call :: rest =>
    ⟨call.size, time + counted last call.now⟩ :: steadyCalls call.now (time + counted last call.now) rest

def limiterAt (limiter : RateLimiter) (time : ℚ) : RateLimiter := { limiter with last_modified := time }

theorem wait_steady (limiter : RateLimiter) (time : ℚ) (size : ℚ≥0) (now : ℚ) :
    rateLimiterWaitNosleep (limiterAt limiter time) size (time + counted limiter.last_modified now) =
      ((rateLimiterWaitNosleep limiter size now).1, limiterAt (rateLimiterWaitNosleep limiter size now).2
        (time + counted limiter.last_modified now)) := by
  have elapsed : (if time + counted limiter.last_modified now - time < 0 then 0
      else time + counted limiter.last_modified now - time) =
        if now - limiter.last_modified < 0 then 0 else now - limiter.last_modified := by
    rw [add_sub_cancel_left, if_neg (not_lt.mpr (counted_nonneg _ _)), counted]
    split
    · exact max_eq_left (by linarith)
    · exact max_eq_right (by linarith)
  unfold rateLimiterWaitNosleep limiterAt
  simp only [elapsed]

theorem limiterAfter_steadyCalls (limiter : RateLimiter) (time : ℚ) (calls : List RateRequest) :
    limiterAfter (limiterAt limiter time) (steadyCalls limiter.last_modified time calls) =
      limiterAt (limiterAfter limiter calls) (steadyTime limiter.last_modified time calls) := by
  induction calls generalizing limiter time with
  | nil => rfl
  | cons call rest ih =>
    have next := ih (rateLimiterWaitNosleep limiter call.size call.now).2
      (time + counted limiter.last_modified call.now)
    rw [last_modified_wait] at next
    rw [steadyCalls, steadyTime]
    change limiterAfter (rateLimiterWaitNosleep (limiterAt limiter time) call.size _).2 _ = _
    rw [wait_steady]
    exact next

theorem steadyCalls_append (limiter : RateLimiter) (time : ℚ) (calls : List RateRequest) (last : RateRequest) :
    steadyCalls limiter.last_modified time (calls ++ [last]) = steadyCalls limiter.last_modified time calls ++
      [⟨last.size, steadyTime limiter.last_modified time calls +
        counted (limiterAfter limiter calls).last_modified last.now⟩] := by
  induction calls generalizing limiter time with
  | nil => rfl
  | cons call rest ih =>
    have next := ih (rateLimiterWaitNosleep limiter call.size call.now).2
      (time + counted limiter.last_modified call.now)
    rw [last_modified_wait] at next
    rw [List.cons_append, steadyCalls, steadyCalls, steadyTime, next]
    rfl

theorem steadyTime_append (limiter : RateLimiter) (time : ℚ) (calls : List RateRequest) (last : RateRequest) :
    steadyTime limiter.last_modified time (calls ++ [last]) = steadyTime limiter.last_modified time calls +
      counted (limiterAfter limiter calls).last_modified last.now := by
  induction calls generalizing limiter time with
  | nil => rfl
  | cons call rest ih =>
    exact ih (rateLimiterWaitNosleep limiter call.size call.now).2
      (time + counted limiter.last_modified call.now)

theorem length_steadyCalls (last time : ℚ) (calls : List RateRequest) :
    (steadyCalls last time calls).length = calls.length := by
  induction calls generalizing last time with
  | nil => rfl
  | cons call rest ih => simp [steadyCalls, ih]

theorem steadyTime_ge (last time : ℚ) (calls : List RateRequest) : time ≤ steadyTime last time calls := by
  induction calls generalizing last time with
  | nil => exact le_refl _
  | cons call rest ih =>
    have first := counted_nonneg last call.now
    have others := ih call.now (time + counted last call.now)
    rw [steadyTime]
    linarith

/-- When the calls are released, by the steady clock. -/
def steadyReleases (limiter : RateLimiter) (calls : List RateRequest) : List Release :=
  rateLimiterRun limiter (steadyCalls limiter.last_modified limiter.last_modified calls)

theorem length_steadyReleases (limiter : RateLimiter) (calls : List RateRequest) :
    (steadyReleases limiter calls).length = calls.length := by
  rw [steadyReleases, length_rateLimiterRun, length_steadyCalls]

/-- A call waits by the steady clock as long as it does by the other one. -/
theorem steadyReleases_append (limiter : RateLimiter) (calls : List RateRequest) (last : RateRequest) :
    steadyReleases limiter (calls ++ [last]) = steadyReleases limiter calls ++
      [⟨last.size, steadyTime limiter.last_modified limiter.last_modified calls +
        counted (limiterAfter limiter calls).last_modified last.now +
          max 0 (rateLimiterWaitNosleep (limiterAfter limiter calls) last.size last.now).1⟩] := by
  have after : limiterAfter limiter (steadyCalls limiter.last_modified limiter.last_modified calls) = _ :=
    limiterAfter_steadyCalls limiter limiter.last_modified calls
  rw [steadyReleases, steadyReleases, steadyCalls_append, rateLimiterRun_append, after, wait_steady]

/-- The steady clock does not go back. -/
theorem clockFrom_steadyCalls (last time : ℚ) (calls : List RateRequest) :
    ClockFrom time (steadyCalls last time calls) := by
  induction calls generalizing last time with
  | nil => exact List.pairwise_singleton _ _
  | cons call rest ih =>
    have first : time ≤ time + counted last call.now := le_add_of_nonneg_right (counted_nonneg _ _)
    have ordered := ih call.now (time + counted last call.now)
    refine List.pairwise_cons.mpr ⟨?_, ordered⟩
    intro reading member
    rcases List.mem_cons.mp member with rfl | member
    · exact first
    · exact first.trans ((List.pairwise_cons.mp ordered).1 reading member)

/-! ## Distinct members of a list -/

/-- What one position of a list counts for. -/
def weightAt {α : Type} (items : List α) (keep : α → Bool) (weight : α → ℚ) (i : Nat) : ℚ :=
  match items[i]? with
  | some item => if keep item then weight item else 0
  | none => 0

theorem sum_weightAt {α : Type} (items : List α) (keep : α → Bool) (weight : α → ℚ) :
    ∑ i ∈ Finset.range items.length, weightAt items keep weight i =
      ((items.filter keep).map weight).sum := by
  induction items with
  | nil => rfl
  | cons item rest ih =>
    rw [List.length_cons, Finset.sum_range_succ']
    have shifted : ∀ i, weightAt (item :: rest) keep weight (i + 1) = weightAt rest keep weight i := by
      intro i
      simp [weightAt]
    simp only [shifted, ih]
    by_cases kept : keep item = true
    · simp [weightAt, kept, add_comm]
    · simp [weightAt, kept]

/-- Members picked at distinct positions weigh no more than all members of their kind. -/
theorem sum_picked_le {α β : Type} (items : List α) (keep : α → Bool) {weight : α → ℚ}
    (nonneg : ∀ item, 0 ≤ weight item) (picks : List β) (position : β → Nat) (value : β → ℚ)
    (distinct : (picks.map position).Nodup)
    (picked : ∀ pick ∈ picks, ∃ item, items[position pick]? = some item ∧ keep item = true ∧
      value pick = weight item) :
    (picks.map value).sum ≤ ((items.filter keep).map weight).sum := by
  have values : picks.map value = (picks.map position).map (weightAt items keep weight) := by
    rw [List.map_map]
    apply List.map_congr_left
    intro pick member
    obtain ⟨item, found, kept, same⟩ := picked pick member
    simp [weightAt, found, kept, same]
  have inside : (picks.map position).toFinset ⊆ Finset.range items.length := by
    intro i member
    obtain ⟨pick, among, rfl⟩ := List.mem_map.mp (List.mem_toFinset.mp member)
    obtain ⟨item, found, -⟩ := picked pick among
    exact Finset.mem_range.mpr (List.getElem?_eq_some_iff.mp found).1
  rw [values, ← List.sum_toFinset _ distinct, ← sum_weightAt]
  apply Finset.sum_le_sum_of_subset_of_nonneg inside
  intro i _ _
  unfold weightAt
  split
  · split
    · exact nonneg _
    · exact le_refl 0
  · exact le_refl 0

/-! ## Mutual exclusion -/

section
variable {ι : Type} {s s' : RateSystem ι}

def MutexHeld (s : RateSystem ι) : Prop := Agrees s.mutex (fun t => (s.threads t).section)

/-- The thread has made one of its two stores. -/
def halfStored : RateThread → Bool
  | .storing _ _ _ => true
  | _ => false

/-- A thread inside the mutex is the only one there. -/
theorem outside_of_alone (held : MutexHeld s) {t other : ι} (inside : (s.threads t).section = .writing)
    (another : other ≠ t) : (s.threads other).section = .outside := by
  by_contra entered
  exact another (Agrees.alone held inside entered)

theorem not_halfStored_outside {state : RateThread} (outside : state.section = .outside) :
    halfStored state = false := by
  cases state with
  | storing => cases outside
  | idle | wantsLock | locked | timed | computed | unlocking | returned | sleeping | awake => rfl

/-- What a thread inside the mutex knows: `after` is the limiter that the finished calls leave. -/
def InSection (after limiter : RateLimiter) : RateThread → Prop
  | .computed size now timeToSleep => timeToSleep = (rateLimiterWaitNosleep after size now).1
  | .storing size now timeToSleep => timeToSleep = (rateLimiterWaitNosleep after size now).1 ∧
    limiter = { after with accumulated_sleep_time := timeToSleep }
  | _ => True

structure Serialised (initial : RateLimiter) (s : RateSystem ι) : Prop where
  threads : ∀ t, InSection (limiterAfter initial s.calls) s.limiter (s.threads t)
  settled : (∀ t, halfStored (s.threads t) = false) → s.limiter = limiterAfter initial s.calls

variable {initial : RateLimiter}

theorem Serialised.threads_at (serial : Serialised initial s) {t : ι} {state : RateThread}
    (stands : s.threads t = state) :
    InSection (limiterAfter initial s.calls) s.limiter state :=
  stands ▸ serial.threads t

theorem inSection_outside {after limiter : RateLimiter} {state : RateThread}
    (outside : state.section = .outside) : InSection after limiter state := by
  cases state with
  | idle | wantsLock | returned | sleeping | awake => trivial
  | locked | timed | computed | storing | unlocking => cases outside

/-- The thread inside the mutex finds the limiter as the finished calls leave it, unless it has
made its first store itself. -/
theorem settled_of_alone (held : MutexHeld s) (serial : Serialised initial s) {t : ι}
    (inside : (s.threads t).section = .writing) (whole : halfStored (s.threads t) = false) :
    s.limiter = limiterAfter initial s.calls := by
  apply serial.settled
  intro other
  by_cases self : other = t
  · rw [self]
    exact whole
  · exact not_halfStored_outside (outside_of_alone held inside self)

/-! ## Steps -/

variable [DecidableEq ι]

theorem sections_update (threads : ι → RateThread) (t : ι) (next : RateThread) :
    (fun other => (Function.update threads t next other).section) =
      Function.update (fun other => (threads other).section) t next.section := by
  funext other
  by_cases self : other = t
  · simp [self]
  · simp [self]

/-- A step that does not enter or leave the section. -/
theorem MutexHeld.moved (held : MutexHeld s) {t : ι} {next : RateThread} (mutex : s'.mutex = s.mutex)
    (threads : s'.threads = Function.update s.threads t next)
    (same : next.section = (s.threads t).section) : MutexHeld s' := by
  unfold MutexHeld
  rw [mutex, threads, sections_update, same, Function.update_eq_self_iff.mpr rfl]
  exact held

theorem mutexHeld_step {action : RateAction ι} (held : MutexHeld s) (stepped : RateStep s action s') :
    MutexHeld s' := by
  cases stepped with
  | tick | set => exact held
  | locked stands granted =>
    change Agrees _ (fun other => (Function.update s.threads _ _ other).section)
    rw [sections_update]
    exact Agrees.lockWrite held granted
  | @unlocked t _ _ _ stands =>
    have inside : (s.threads t).section ≠ .outside := by simp [stands, RateThread.section]
    change Agrees _ (fun other => (Function.update s.threads _ _ other).section)
    rw [sections_update]
    exact Agrees.unlock held inside
  | request size stands | timed stands | computed stands | storedSleep stands | storedTime stands
  | slept stands _ | unfit stands _ | woke stands _ | interrupted stands | transferred stands =>
    exact held.moved rfl rfl (by rw [stands]; rfl)

/-- A step of a thread that does not touch the limiter. -/
theorem Serialised.moved (serial : Serialised initial s) {t : ι} {next : RateThread}
    (limiter : s'.limiter = s.limiter) (calls : s'.calls = s.calls)
    (threads : s'.threads = Function.update s.threads t next)
    (knows : InSection (limiterAfter initial s.calls) s.limiter next)
    (before : halfStored (s.threads t) = false) : Serialised initial s' where
  threads other := by
    rw [calls, limiter, threads]
    by_cases self : other = t
    · rw [self, Function.update_self]
      exact knows
    · rw [Function.update_of_ne self]
      exact serial.threads other
  settled quiet := by
    rw [calls, limiter]
    apply serial.settled
    intro other
    by_cases self : other = t
    · rw [self]
      exact before
    · have same := quiet other
      rwa [threads, Function.update_of_ne self] at same

theorem serialised_step {action : RateAction ι} (held : MutexHeld s) (serial : Serialised initial s)
    (stepped : RateStep s action s') : Serialised initial s' := by
  cases stepped with
  | tick | set => exact ⟨serial.threads, serial.settled⟩
  | computed stands =>
    have settled := settled_of_alone held serial (by rw [stands]; rfl) (by rw [stands]; rfl)
    exact serial.moved rfl rfl rfl (by rw [settled]; rfl) (by rw [stands]; rfl)
  | @storedSleep t size now timeToSleep stands =>
    have knows := serial.threads_at stands
    have inside : (s.threads t).section = .writing := by rw [stands]; rfl
    have settled := settled_of_alone held serial inside (by rw [stands]; rfl)
    refine ⟨fun other => ?_, fun quiet => ?_⟩
    · by_cases self : other = t
      · rw [self, RateSystem.threads_moved_self]
        exact ⟨knows, congrArg
          (fun limiter : RateLimiter => { limiter with accumulated_sleep_time := timeToSleep }) settled⟩
      · rw [RateSystem.threads_moved_of_ne _ _ self]
        exact inSection_outside (outside_of_alone held inside self)
    · have half := quiet t
      rw [RateSystem.threads_moved_self] at half
      cases half
  | @storedTime t size now timeToSleep stands =>
    obtain ⟨slept, limiter⟩ := serial.threads_at stands
    have inside : (s.threads t).section = .writing := by rw [stands]; rfl
    -- the two stores together are what the call does to the limiter
    have stored : ({ s.limiter with last_modified := now } : RateLimiter) =
        limiterAfter initial (s.calls ++ [⟨size, now⟩]) := by
      rw [limiterAfter_append, limiter, slept]
      rfl
    refine ⟨fun other => ?_, fun _ => stored⟩
    by_cases self : other = t
    · rw [self, RateSystem.threads_moved_self]
      trivial
    · rw [RateSystem.threads_moved_of_ne _ _ self]
      exact inSection_outside (outside_of_alone held inside self)
  | request size stands | locked stands _ | timed stands | unlocked stands | slept stands _ | unfit stands _
  | woke stands _ | interrupted stands | transferred stands =>
    exact serial.moved rfl rfl rfl trivial (by rw [stands]; rfl)

/-! ## Readings of the clock -/

/-- The reading of the clock that a thread has still to store. -/
def reading : RateThread → Option ℚ
  | .timed _ now | .computed _ now _ | .storing _ now _ => some now
  | _ => none

theorem reading_outside {state : RateThread} (outside : state.section = .outside) : reading state = none := by
  cases state with
  | idle | wantsLock | returned | sleeping | awake => rfl
  | locked | timed | computed | storing | unlocking => cases outside

/-- The clock, the time and the calls are as they were, and a thread may have read the clock. -/
structure Reads (s s' : RateSystem ι) : Prop where
  time : s'.time = s.time
  clock : s'.clock = s.clock
  forward : s'.forward = s.forward
  calls : s'.calls = s.calls
  readings : ∀ t now, reading (s'.threads t) = some now → reading (s.threads t) = some now ∨ now = s.clock

theorem reads_of_update {t : ι} {next : RateThread} (time : s'.time = s.time)
    (clock : s'.clock = s.clock) (forward : s'.forward = s.forward) (calls : s'.calls = s.calls)
    (threads : s'.threads = Function.update s.threads t next)
    (read : ∀ now, reading next = some now → reading (s.threads t) = some now ∨ now = s.clock) : Reads s s' := by
  refine ⟨time, clock, forward, calls, fun other now reads => ?_⟩
  rw [threads] at reads
  by_cases self : other = t
  · rw [self, Function.update_self] at reads
    rw [self]
    exact read now reads
  · rw [Function.update_of_ne self] at reads
    exact Or.inl reads

/-- What a step does to the clock and its readings: the clock moves; or it may be read; or a reading
is stored, with no other one left. -/
theorem clock_step {action : RateAction ι} (held : MutexHeld s) (stepped : RateStep s action s') :
    (∃ shift : ℚ, ((∃ elapsed : ℚ≥0, action = .tick elapsed ∧ shift = elapsed) ∨ action = .set shift) ∧
      s'.clock = s.clock + shift ∧ s'.time + s'.forward = s.time + s.forward + max 0 shift ∧
      s'.calls = s.calls ∧ s'.threads = s.threads) ∨
    Reads s s' ∨
    (s'.clock = s.clock ∧ s'.time + s'.forward = s.time + s.forward ∧
      ∃ t size now, reading (s.threads t) = some now ∧ s'.calls = s.calls ++ [⟨size, now⟩] ∧
        ∀ other, reading (s'.threads other) = none) := by
  cases stepped with
  | tick elapsed =>
    refine Or.inl ⟨elapsed, Or.inl ⟨elapsed, rfl, rfl⟩, rfl, ?_, rfl, rfl⟩
    rw [max_eq_right elapsed.cast_nonneg]
    exact add_right_comm _ _ _
  | set shift => exact Or.inl ⟨shift, Or.inr rfl, rfl, (add_assoc _ _ _).symm, rfl, rfl⟩
  | @storedTime t size now timeToSleep stands =>
    have inside : (s.threads t).section = .writing := by rw [stands]; rfl
    refine Or.inr (Or.inr ⟨rfl, rfl, t, size, now, by rw [stands]; rfl, rfl, fun other => ?_⟩)
    by_cases self : other = t
    · rw [self, RateSystem.threads_moved_self]
      rfl
    · rw [RateSystem.threads_moved_of_ne _ _ self]
      exact reading_outside (outside_of_alone held inside self)
  | timed stands =>
    refine Or.inr (Or.inl (reads_of_update rfl rfl rfl rfl rfl fun now reads => Or.inr ?_))
    cases reads
    rfl
  | computed stands | storedSleep stands =>
    refine Or.inr (Or.inl (reads_of_update rfl rfl rfl rfl rfl fun now reads => Or.inl ?_))
    rw [stands]
    exact reads
  | request _ stands | locked stands _ | unlocked stands | slept stands _ | unfit stands _ | woke stands _
  | interrupted stands | transferred stands =>
    exact Or.inr (Or.inl (reads_of_update rfl rfl rfl rfl rfl nofun))

/-- The clock has not gone back since the last reading. -/
structure InOrder (initial : RateLimiter) (s : RateSystem ι) : Prop where
  calls : ClockFrom initial.last_modified s.calls
  clock : (limiterAfter initial s.calls).last_modified ≤ s.clock
  readings : ∀ t now, reading (s.threads t) = some now →
    (limiterAfter initial s.calls).last_modified ≤ now ∧ now ≤ s.clock

/-- The clock is not set back. -/
def Forward (action : RateAction ι) : Prop := ∀ shift, action = .set shift → 0 ≤ shift

theorem inOrder_step {action : RateAction ι} (forward : Forward action) (held : MutexHeld s)
    (ordered : InOrder initial s) (stepped : RateStep s action s') : InOrder initial s' := by
  rcases clock_step held stepped with ⟨shift, moved, clock, -, calls, threads⟩ | reads |
    ⟨clock, -, t, size, now, reads, calls, none_left⟩
  · have later : s.clock ≤ s'.clock := by
      rw [clock]
      rcases moved with ⟨elapsed, -, rfl⟩ | set
      · exact le_add_of_nonneg_right elapsed.cast_nonneg
      · exact le_add_of_nonneg_right (forward shift set)
    refine ⟨calls ▸ ordered.calls, calls ▸ ordered.clock.trans later, fun t now reads => ?_⟩
    rw [threads] at reads
    obtain ⟨after, before⟩ := ordered.readings t now reads
    exact ⟨calls ▸ after, before.trans later⟩
  · refine ⟨reads.calls ▸ ordered.calls, ?_, fun t now read => ?_⟩
    · rw [reads.calls, reads.clock]
      exact ordered.clock
    · rw [reads.calls, reads.clock]
      rcases reads.readings t now read with earlier | rfl
      · exact ordered.readings t now earlier
      · exact ⟨ordered.clock, le_refl _⟩
  · obtain ⟨after, before⟩ := ordered.readings t now reads
    refine ⟨?_, ?_, fun other now read => ?_⟩
    · rw [calls]
      exact clockFrom_append rfl ordered.calls after
    · rw [calls, clock, limiterAfter_append]
      exact before
    · rw [none_left other] at read
      cases read

/-- What the steady clock shows after the calls that have been made. -/
def steadyNow (initial : RateLimiter) (s : RateSystem ι) : ℚ :=
  steadyTime initial.last_modified initial.last_modified s.calls

/-- The instant that the time passed and skipped leads to. -/
def horizon (initial : RateLimiter) (s : RateSystem ι) : ℚ := initial.last_modified + (s.time + s.forward)

/-- The limiter has counted no more time than has passed and been skipped, and will not at its
next call either. -/
structure Paced (initial : RateLimiter) (s : RateSystem ι) : Prop where
  clock : steadyNow initial s + counted (limiterAfter initial s.calls).last_modified s.clock ≤ horizon initial s
  readings : ∀ t now, reading (s.threads t) = some now → steadyNow initial s +
    counted (limiterAfter initial s.calls).last_modified now + counted now s.clock ≤ horizon initial s

theorem horizon_step {action : RateAction ι} (initial : RateLimiter) (held : MutexHeld s)
    (stepped : RateStep s action s') : horizon initial s ≤ horizon initial s' := by
  unfold horizon
  rcases clock_step held stepped with ⟨shift, -, -, passed, -⟩ | reads | ⟨-, passed, -⟩
  · have forward := le_max_left 0 shift
    linarith
  · rw [reads.time, reads.forward]
  · rw [passed]

theorem paced_step {action : RateAction ι} (held : MutexHeld s) (paced : Paced initial s)
    (stepped : RateStep s action s') : Paced initial s' := by
  rcases clock_step held stepped with ⟨shift, -, clock, passed, calls, threads⟩ | reads |
    ⟨clock, passed, t, size, now, reads, calls, none_left⟩
  · have forward : horizon initial s' = horizon initial s + max 0 shift := by
      rw [horizon, horizon, passed]
      ring
    have same : steadyNow initial s' = steadyNow initial s := by rw [steadyNow, steadyNow, calls]
    refine ⟨?_, fun t now read => ?_⟩
    · have moved := counted_add_le (limiterAfter initial s.calls).last_modified s.clock shift
      have before := paced.clock
      rw [calls, clock, same, forward]
      linarith
    · rw [threads] at read
      have moved := counted_add_le now s.clock shift
      have before := paced.readings t now read
      rw [calls, clock, same, forward]
      linarith
  · have same : steadyNow initial s' = steadyNow initial s ∧ horizon initial s' = horizon initial s := by
      unfold steadyNow horizon
      rw [reads.calls, reads.time, reads.forward]
      exact ⟨rfl, rfl⟩
    refine ⟨?_, fun t now read => ?_⟩
    · rw [reads.calls, reads.clock, same.1, same.2]
      exact paced.clock
    · rw [reads.calls, reads.clock, same.1, same.2]
      rcases reads.readings t now read with earlier | rfl
      · exact paced.readings t now earlier
      · rw [counted_self, add_zero]
        exact paced.clock
  · have before := paced.readings t now reads
    refine ⟨?_, fun other now read => ?_⟩
    · rw [steadyNow, horizon, calls, clock, passed, steadyTime_append, limiterAfter_append]
      exact before
    · rw [none_left other] at read
      cases read

/-! ## Calls and transfers -/

/-- The call a thread still has to make its transfer for. -/
def pendingCall : RateThread → Option Nat
  | .unlocking _ call _ | .returned _ call _ | .sleeping _ call _ | .awake _ call _ => some call
  | _ => none

def nanosecond : ℚ := 1 / 1000000000

/-- What a thread that waits has been given. The steady clock is at most `ahead` of the time. -/
def Owes (waits : List ℚ) (releases : List Release) (ahead time : ℚ) : RateThread → Prop
  | .unlocking size call timeToSleep | .returned size call timeToSleep => waits[call]? = some timeToSleep ∧
    ∃ release, releases[call]? = some release ∧ release.size = size ∧
      release.time ≤ ahead + time + max 0 timeToSleep
  | .sleeping size call wake => ∃ release, releases[call]? = some release ∧ release.size = size ∧
    release.time ≤ ahead + wake + nanosecond
  | .awake size call cutShort => ∃ release, releases[call]? = some release ∧ release.size = size ∧
    (cutShort = false → release.time ≤ ahead + time + nanosecond)
  | _ => True

/-- A transfer comes from the release of its call, and not before it unless it was cut short. -/
def Released (releases : List Release) (latest : ℚ) (transfer : Transfer) : Prop :=
  ∃ release, releases[transfer.call]? = some release ∧ release.size = transfer.size ∧
    (transfer.cutShort = false → release.time ≤ latest + nanosecond)

structure Accounted (initial : RateLimiter) (s : RateSystem ι) : Prop where
  threads : ∀ t, Owes (rateLimiterWaits initial s.calls) (steadyReleases initial s.calls)
    (initial.last_modified + s.forward) s.time (s.threads t)
  transfers : ∀ transfer ∈ s.transfers, Released (steadyReleases initial s.calls) (horizon initial s) transfer
  apart : ∀ t other call, pendingCall (s.threads t) = some call → pendingCall (s.threads other) = some call →
    t = other
  unused : ∀ t call, pendingCall (s.threads t) = some call → ∀ transfer ∈ s.transfers, transfer.call ≠ call
  distinct : (s.transfers.map Transfer.call).Nodup

omit [DecidableEq ι] in
theorem Accounted.threads_at (accounted : Accounted initial s) {t : ι} {state : RateThread}
    (stands : s.threads t = state) : Owes (rateLimiterWaits initial s.calls) (steadyReleases initial s.calls)
      (initial.last_modified + s.forward) s.time state :=
  stands ▸ accounted.threads t

theorem getElem?_append_of_some {α : Type} {items : List α} {i : Nat} {item : α}
    (found : items[i]? = some item) (more : List α) : (items ++ more)[i]? = some item := by
  rw [List.getElem?_append_left (List.getElem?_eq_some_iff.mp found).1]
  exact found

/-- Later, and after more calls, a thread still owes what it did. -/
theorem Owes.later {waits : List ℚ} {releases : List Release} {ahead ahead' time time' : ℚ} {state : RateThread}
    (owes : Owes waits releases ahead time state) (further : ahead ≤ ahead') (later : time ≤ time')
    (moreWaits : List ℚ) (moreReleases : List Release) :
    Owes (waits ++ moreWaits) (releases ++ moreReleases) ahead' time' state := by
  cases state with
  | idle | wantsLock | locked | timed | computed | storing => trivial
  | unlocking size call timeToSleep =>
    obtain ⟨waited, release, found, size_eq, inTime⟩ := owes
    exact ⟨getElem?_append_of_some waited _, release, getElem?_append_of_some found _, size_eq, by linarith⟩
  | returned size call timeToSleep =>
    obtain ⟨waited, release, found, size_eq, inTime⟩ := owes
    exact ⟨getElem?_append_of_some waited _, release, getElem?_append_of_some found _, size_eq, by linarith⟩
  | sleeping size call wake =>
    obtain ⟨release, found, size_eq, inTime⟩ := owes
    exact ⟨release, getElem?_append_of_some found _, size_eq, by linarith⟩
  | awake size call cutShort =>
    obtain ⟨release, found, size_eq, inTime⟩ := owes
    refine ⟨release, getElem?_append_of_some found _, size_eq, fun whole => ?_⟩
    have before := inTime whole
    linarith

theorem Released.later {releases : List Release} {latest latest' : ℚ} {transfer : Transfer}
    (released : Released releases latest transfer) (later : latest ≤ latest') (moreReleases : List Release) :
    Released (releases ++ moreReleases) latest' transfer := by
  obtain ⟨release, found, size_eq, inTime⟩ := released
  refine ⟨release, getElem?_append_of_some found _, size_eq, fun whole => ?_⟩
  have before := inTime whole
  linarith

/-- A pending call is one of those made. -/
theorem pending_lt {waits : List ℚ} {releases : List Release} {ahead time : ℚ} {state : RateThread} {call : Nat}
    (owes : Owes waits releases ahead time state) (pending : pendingCall state = some call) :
    call < releases.length := by
  have made : ∃ release, releases[call]? = some release := by
    cases state with
    | idle | wantsLock | locked | timed | computed | storing => cases pending
    | unlocking | returned =>
      cases pending
      exact ⟨_, owes.2.choose_spec.1⟩
    | sleeping | awake =>
      cases pending
      exact ⟨_, owes.choose_spec.1⟩
  obtain ⟨release, found⟩ := made
  exact (List.getElem?_eq_some_iff.mp found).1

/-- A step that makes no call and no transfer. -/
theorem Accounted.moved (accounted : Accounted initial s) {t : ι} {next : RateThread}
    (time : s'.time = s.time) (forward : s'.forward = s.forward) (calls : s'.calls = s.calls)
    (transfers : s'.transfers = s.transfers) (threads : s'.threads = Function.update s.threads t next)
    (owes : Owes (rateLimiterWaits initial s.calls) (steadyReleases initial s.calls)
      (initial.last_modified + s.forward) s.time next)
    (pending : ∀ call, pendingCall next = some call → pendingCall (s.threads t) = some call) :
    Accounted initial s' := by
  have earlier : ∀ other call, pendingCall (s'.threads other) = some call →
      pendingCall (s.threads other) = some call := by
    intro other call stands
    rw [threads] at stands
    by_cases self : other = t
    · rw [self, Function.update_self] at stands
      rw [self]
      exact pending call stands
    · rwa [Function.update_of_ne self] at stands
  constructor
  · intro other
    rw [calls, time, forward, threads]
    by_cases self : other = t
    · rw [self, Function.update_self]
      exact owes
    · rw [Function.update_of_ne self]
      exact accounted.threads other
  · rw [calls, transfers, horizon, time, forward]
    exact accounted.transfers
  · intro first second call stands stands'
    exact accounted.apart first second call (earlier first call stands) (earlier second call stands')
  · intro other call stands
    rw [transfers]
    exact accounted.unused other call (earlier other call stands)
  · rw [transfers]
    exact accounted.distinct

/-- A call that has made its second store is the last of the sequence. -/
theorem accounted_call {t : ι} {size : ℚ≥0} {now timeToSleep : ℚ} (accounted : Accounted initial s)
    (inTime : steadyNow initial s + counted (limiterAfter initial s.calls).last_modified now ≤ horizon initial s)
    (waited : timeToSleep = (rateLimiterWaitNosleep (limiterAfter initial s.calls) size now).1)
    (time : s'.time = s.time) (forward : s'.forward = s.forward) (calls : s'.calls = s.calls ++ [⟨size, now⟩])
    (transfers : s'.transfers = s.transfers)
    (threads : s'.threads = Function.update s.threads t (.unlocking size s.calls.length timeToSleep)) :
    Accounted initial s' := by
  have waits := rateLimiterWaits_append initial s.calls ⟨size, now⟩
  have releases := steadyReleases_append initial s.calls ⟨size, now⟩
  simp only [← waited] at waits releases
  have fresh : ∀ other, pendingCall (s.threads other) ≠ some s.calls.length := by
    intro other stands
    have bound := pending_lt (accounted.threads other) stands
    rw [length_steadyReleases] at bound
    omega
  constructor
  · intro other
    rw [calls, time, forward, threads, waits, releases]
    by_cases self : other = t
    · rw [self, Function.update_self]
      refine ⟨?_, ⟨size, steadyNow initial s + counted (limiterAfter initial s.calls).last_modified now +
        max 0 timeToSleep⟩, ?_, rfl, ?_⟩
      · simp [← length_rateLimiterWaits initial]
      · simp [← length_steadyReleases initial, steadyNow]
      · unfold horizon at inTime
        dsimp only
        linarith
    · rw [Function.update_of_ne self]
      exact (accounted.threads other).later (le_refl _) (le_refl _) _ _
  · intro transfer member
    rw [transfers] at member
    rw [calls, releases, horizon, time, forward]
    exact (accounted.transfers transfer member).later (le_refl _) _
  · intro first second call stands stands'
    rw [threads] at stands stands'
    by_cases self : first = t
    · by_cases self' : second = t
      · rw [self, self']
      · rw [self, Function.update_self] at stands
        rw [Function.update_of_ne self'] at stands'
        exact absurd (stands'.trans stands.symm) (fresh second)
    · rw [Function.update_of_ne self] at stands
      by_cases self' : second = t
      · rw [self', Function.update_self] at stands'
        exact absurd (stands.trans stands'.symm) (fresh first)
      · rw [Function.update_of_ne self'] at stands'
        exact accounted.apart first second call stands stands'
  · intro other call stands transfer member
    rw [transfers] at member
    rw [threads] at stands
    by_cases self : other = t
    · rw [self, Function.update_self] at stands
      obtain ⟨release, found, -⟩ := accounted.transfers transfer member
      have bound := (List.getElem?_eq_some_iff.mp found).1
      rw [length_steadyReleases] at bound
      cases stands
      omega
    · rw [Function.update_of_ne self] at stands
      exact accounted.unused other call stands transfer member
  · rw [transfers]
    exact accounted.distinct

/-- A transfer uses up the call of its thread. -/
theorem accounted_transfer {t : ι} {size : ℚ≥0} {call : Nat} {cutShort : Bool}
    (accounted : Accounted initial s) (stands : s.threads t = .awake size call cutShort) :
    Accounted initial ({ s with transfers := ⟨call, size, cutShort⟩ :: s.transfers }.moved t .idle) := by
  obtain ⟨release, found, size_eq, inTime⟩ := accounted.threads_at stands
  have mine : pendingCall (s.threads t) = some call := by rw [stands]; rfl
  have earlier : ∀ other pending, pendingCall (Function.update s.threads t .idle other) = some pending →
      other ≠ t ∧ pendingCall (s.threads other) = some pending := by
    intro other pending waits
    by_cases self : other = t
    · rw [self, Function.update_self] at waits
      cases waits
    · rw [Function.update_of_ne self] at waits
      exact ⟨self, waits⟩
  constructor
  · intro other
    by_cases self : other = t
    · rw [self, RateSystem.threads_moved_self]
      trivial
    · rw [RateSystem.threads_moved_of_ne _ _ self]
      exact accounted.threads other
  · intro transfer member
    rcases List.mem_cons.mp member with rfl | member
    · refine ⟨release, found, size_eq, fun whole => ?_⟩
      have before := inTime whole
      change release.time ≤ initial.last_modified + (s.time + s.forward) + nanosecond
      linarith
    · exact accounted.transfers transfer member
  · intro first second pending waits waits'
    exact accounted.apart first second pending (earlier first pending waits).2
      (earlier second pending waits').2
  · intro other pending waits transfer member
    obtain ⟨another, waits⟩ := earlier other pending waits
    rcases List.mem_cons.mp member with rfl | member
    · rintro rfl
      exact another (accounted.apart other t _ waits mine)
    · exact accounted.unused other pending waits transfer member
  · refine List.nodup_cons.mpr ⟨fun member => ?_, accounted.distinct⟩
    obtain ⟨transfer, member, same⟩ := List.mem_map.mp member
    exact accounted.unused t call mine transfer member same

theorem accounted_step {action : RateAction ι} (held : MutexHeld s) (serial : Serialised initial s)
    (paced : Paced initial s) (accounted : Accounted initial s) (stepped : RateStep s action s') :
    Accounted initial s' := by
  have later := horizon_step initial held stepped
  cases stepped with
  | tick elapsed =>
    have passed : s.time ≤ s.time + elapsed := le_add_of_nonneg_right elapsed.cast_nonneg
    refine ⟨fun t => ?_, fun transfer member => ?_, accounted.apart, accounted.unused, accounted.distinct⟩
    · simpa using (accounted.threads t).later (le_refl _) passed [] []
    · simpa using (accounted.transfers transfer member).later later []
  | set shift =>
    have skipped : initial.last_modified + s.forward ≤ initial.last_modified + (s.forward + max 0 shift) := by
      have forward := le_max_left 0 shift
      linarith
    refine ⟨fun t => ?_, fun transfer member => ?_, accounted.apart, accounted.unused, accounted.distinct⟩
    · simpa using (accounted.threads t).later skipped (le_refl _) [] []
    · simpa using (accounted.transfers transfer member).later later []
  | @storedTime t size now timeToSleep stands =>
    have read := paced.readings t now (by rw [stands]; rfl)
    have since := counted_nonneg now s.clock
    exact accounted_call accounted (by linarith) (serial.threads_at stands).1 rfl rfl rfl rfl rfl
  | unlocked stands =>
    have owes := accounted.threads_at stands
    exact accounted.moved rfl rfl rfl rfl rfl owes (by rw [stands]; exact fun _ => id)
  | @slept t size call timeToSleep stands _ =>
    obtain ⟨-, release, found, size_eq, inTime⟩ := accounted.threads_at stands
    have slept := sleepSeconds_ge timeToSleep
    refine accounted.moved rfl rfl rfl rfl rfl ⟨release, found, size_eq, ?_⟩
      (by rw [stands]; exact fun _ => id)
    rw [nanosecond]
    linarith
  | unfit stands _ =>
    obtain ⟨-, release, found, size_eq, -⟩ := accounted.threads_at stands
    exact accounted.moved rfl rfl rfl rfl rfl ⟨release, found, size_eq, nofun⟩
      (by rw [stands]; exact fun _ => id)
  | woke stands due =>
    obtain ⟨release, found, size_eq, inTime⟩ := accounted.threads_at stands
    refine accounted.moved rfl rfl rfl rfl rfl ⟨release, found, size_eq, fun _ => ?_⟩
      (by rw [stands]; exact fun _ => id)
    linarith
  | interrupted stands =>
    obtain ⟨release, found, size_eq, -⟩ := accounted.threads_at stands
    exact accounted.moved rfl rfl rfl rfl rfl ⟨release, found, size_eq, nofun⟩
      (by rw [stands]; exact fun _ => id)
  | transferred stands => exact accounted_transfer accounted stands
  | request size stands | locked stands _ | timed stands | computed stands | storedSleep stands =>
    exact accounted.moved rfl rfl rfl rfl rfl trivial nofun

/-! ## Runs -/

structure RateInvariant (initial : RateLimiter) (s : RateSystem ι) : Prop where
  held : MutexHeld s
  serial : Serialised initial s
  paced : Paced initial s
  accounted : Accounted initial s

omit [DecidableEq ι] in
theorem rateInvariant_initial (rate : ℚ) (rate_pos : 0 < rate) (start : ℚ) :
    RateInvariant (rateLimiterInit rate rate_pos start) (initialRateSystem ι rate rate_pos start) where
  held := agrees_free fun _ => rfl
  serial := ⟨fun _ => trivial, fun _ => rfl⟩
  paced := by
    refine ⟨?_, nofun⟩
    change start + counted start start ≤ start + (0 + 0)
    simp
  accounted := ⟨fun _ => trivial, nofun, nofun, nofun, List.nodup_nil⟩

theorem rateInvariant_step {action : RateAction ι} (inv : RateInvariant initial s)
    (stepped : RateStep s action s') : RateInvariant initial s' where
  held := mutexHeld_step inv.held stepped
  serial := serialised_step inv.held inv.serial stepped
  paced := paced_step inv.held inv.paced stepped
  accounted := accounted_step inv.held inv.serial inv.paced inv.accounted stepped

theorem rateInvariant_of_run {rate : ℚ} {rate_pos : 0 < rate} {start : ℚ} {actions : List (RateAction ι)}
    (ran : Run RateStep (initialRateSystem ι rate rate_pos start) actions s) :
    RateInvariant (rateLimiterInit rate rate_pos start) s := by
  apply ran.invariant (fun _ => True) _ (fun _ _ => trivial) (rateInvariant_initial rate rate_pos start)
  exact fun _ _ _ _ => rateInvariant_step

theorem inOrder_of_run {rate : ℚ} {rate_pos : 0 < rate} {start : ℚ} {actions : List (RateAction ι)}
    (ran : Run RateStep (initialRateSystem ι rate rate_pos start) actions s)
    (forward : ∀ action ∈ actions, Forward action) : InOrder (rateLimiterInit rate rate_pos start) s := by
  have both : MutexHeld s ∧ InOrder (rateLimiterInit rate rate_pos start) s := by
    apply ran.invariant Forward (fun s => MutexHeld s ∧ InOrder (rateLimiterInit rate rate_pos start) s) forward
    · exact ⟨agrees_free fun _ => rfl, List.pairwise_singleton _ _, le_refl _, nofun⟩
    · intro before action after allowed ⟨held, ordered⟩ stepped
      exact ⟨mutexHeld_step held stepped, inOrder_step allowed held ordered stepped⟩
  exact both.2

end

/-- What has been transferred after sleeps that were not cut short. -/
def undisturbedSize (transfers : List Transfer) : ℚ :=
  ((transfers.filter fun transfer => !transfer.cutShort).map fun transfer => (transfer.size : ℚ)).sum

/-- One thread at 10 bytes a second asks for 30 bytes and sleeps for three seconds, in which the
clock is set back by an hour; it transfers them and asks for 20 more. -/
theorem two_transfers_ran : ∃ (actions : List (RateAction Unit)) (s : RateSystem Unit),
    Run RateStep (initialRateSystem Unit 10 (by norm_num) 0) actions s ∧
      s.calls = [⟨30, 0⟩, ⟨20, -3597⟩] ∧ s.time = 3 ∧ s.forward = 0 ∧ undisturbedSize s.transfers = 30 ∧
      s.threads () = .returned 20 1 (24 / 5) := by
  refine ⟨[.request () 30, .proceed (), .proceed (), .proceed (), .proceed (), .proceed (), .proceed (),
      .proceed (), .tick 3, .set (-3600), .proceed (), .proceed (), .request () 20, .proceed (), .proceed (),
      .proceed (), .proceed (), .proceed (), .proceed ()], _,
    .next (.request _ rfl) <| .next (.locked rfl rfl) <| .next (.timed rfl) <| .next (.computed rfl) <|
      .next (.storedSleep rfl) <| .next (.storedTime rfl) <| .next (.unlocked rfl) <|
      .next (.slept rfl ?_) <| .next (.tick _ _) <| .next (.set _ _) <| .next (.woke rfl ?_) <|
      .next (.transferred rfl) <| .next (.request _ rfl) <| .next (.locked rfl rfl) <| .next (.timed rfl) <|
      .next (.computed rfl) <| .next (.storedSleep rfl) <| .next (.storedTime rfl) <|
      .next (.unlocked rfl) <| .done _, ?_, ?_, ?_, ?_, ?_⟩
  · decide +kernel
  · decide +kernel
  · exact congrArg (fun now => [RateRequest.mk 30 0, RateRequest.mk 20 now]) (by decide +kernel)
  · decide +kernel
  · decide +kernel
  · decide +kernel
  · exact congrArg (RateThread.returned 20 1) (by decide +kernel)

/-- In every run of any number of threads: while no thread is inside the mutex the limiter is what
the calls that have returned leave, one after the other; each thread that has returned was told what
its call of the sequence answers; no two threads are inside the mutex; and the calls have read the
clock in their order, so that the readings do not go back unless the clock was set back. -/
theorem calls_serialised {ι : Type} [DecidableEq ι] (rate : ℚ) (rate_pos : 0 < rate) (start : ℚ)
    {actions : List (RateAction ι)} {s : RateSystem ι}
    (ran : Run RateStep (initialRateSystem ι rate rate_pos start) actions s) :
    ((∀ t, (s.threads t).section = .outside) →
        s.limiter = limiterAfter (rateLimiterInit rate rate_pos start) s.calls) ∧
      (∀ t size call timeToSleep, s.threads t = .returned size call timeToSleep →
        (rateLimiterWaits (rateLimiterInit rate rate_pos start) s.calls)[call]? = some timeToSleep) ∧
      (∀ t other, (s.threads t).section = .writing → (s.threads other).section = .writing → other = t) ∧
      ((∀ shift, .set shift ∈ actions → 0 ≤ shift) → ClockFrom start s.calls) := by
  obtain ⟨held, serial, -, accounted⟩ := rateInvariant_of_run ran
  refine ⟨fun outside => ?_, fun t size call timeToSleep stands => ?_, fun t other => ?_, fun forward => ?_⟩
  · exact serial.settled fun t => not_halfStored_outside (outside t)
  · exact (accounted.threads_at stands).1
  · intro inside inside'
    by_contra another
    cases (outside_of_alone held inside another).symm.trans inside'
  · exact (inOrder_of_run ran fun action member shift same => forward shift (same ▸ member)).calls

theorem calls_serialised_of_clock_set_back : ∃ (actions : List (RateAction Unit)) (s : RateSystem Unit),
    Run RateStep (initialRateSystem Unit 10 (by norm_num) 0) actions s ∧
      s.calls = [⟨30, 0⟩, ⟨20, -3597⟩] ∧ s.threads () = .returned 20 1 (24 / 5) ∧
      (rateLimiterWaits (rateLimiterInit 10 (by norm_num) 0) s.calls)[1]? = some (24 / 5) := by
  obtain ⟨actions, s, ran, calls, -, -, -, stands⟩ := two_transfers_ran
  exact ⟨actions, s, ran, calls, stands, (calls_serialised 10 (by norm_num) 0 ran).2.1 () _ _ _ stands⟩

/-- In every run of any number of threads, however long they oversleep and however the clock is set:
what has been transferred since the limiter was set up, apart from transfers whose sleep was cut
short, is at most the rate over the time that has passed and that the clock was set forward, with
the idle credit and a nanosecond added. -/
theorem transfers_within_rate {ι : Type} [DecidableEq ι] (rate : ℚ) (rate_pos : 0 < rate) (start : ℚ)
    {actions : List (RateAction ι)} {s : RateSystem ι}
    (ran : Run RateStep (initialRateSystem ι rate rate_pos start) actions s) :
    undisturbedSize s.transfers ≤ rate * (s.time + s.forward + 1 / 5 + 1 / 1000000000) := by
  obtain ⟨-, -, paced, accounted⟩ := rateInvariant_of_run ran
  have latest : horizon (rateLimiterInit rate rate_pos start) s = start + (s.time + s.forward) := rfl
  have advanced : start ≤ start + (s.time + s.forward) := by
    have steady := steadyTime_ge start start s.calls
    have counts := counted_nonneg (limiterAfter (rateLimiterInit rate rate_pos start) s.calls).last_modified s.clock
    have within := paced.clock
    rw [latest] at within
    change start ≤ steadyNow (rateLimiterInit rate rate_pos start) s at steady
    linarith
  have picked : undisturbedSize s.transfers ≤ totalSize (releasedBy (start + (s.time + s.forward) + nanosecond)
      (steadyReleases (rateLimiterInit rate rate_pos start) s.calls)) := by
    apply sum_picked_le _ _ (fun release => release.size.cast_nonneg) _ Transfer.call
    · exact (List.filter_sublist.map Transfer.call).nodup accounted.distinct
    · intro transfer member
      obtain ⟨member, whole⟩ := List.mem_filter.mp member
      obtain ⟨release, found, size_eq, inTime⟩ := accounted.transfers transfer member
      refine ⟨release, found, decide_eq_true (inTime (by simpa using whole)), by rw [size_eq]⟩
  have bounded := size_releasedBy_le (start + (s.time + s.forward) + nanosecond)
    (steadyCalls start start s.calls) (rateLimiterInit rate rate_pos start) (clockFrom_steadyCalls start start _)
  have room : max 0 (start + (s.time + s.forward) + nanosecond -
      (rateLimiterInit rate rate_pos start).clearTime) = s.time + s.forward + 1 / 5 + 1 / 1000000000 := by
    change max 0 (start + (s.time + s.forward) + 1 / 1000000000 - (start + -1 / 5)) = _
    rw [max_eq_right (by linarith)]
    ring
  rw [room] at bounded
  exact picked.trans bounded

theorem transfers_within_rate_of_clock_set_back : ∃ (actions : List (RateAction Unit)) (s : RateSystem Unit),
    Run RateStep (initialRateSystem Unit 10 (by norm_num) 0) actions s ∧ s.time = 3 ∧ s.forward = 0 ∧
      undisturbedSize s.transfers = 30 ∧
      undisturbedSize s.transfers ≤ 10 * (s.time + s.forward + 1 / 5 + 1 / 1000000000) := by
  obtain ⟨actions, s, ran, -, time, forward, size, -⟩ := two_transfers_ran
  exact ⟨actions, s, ran, time, forward, size, transfers_within_rate 10 (by norm_num) 0 ran⟩

/-- The exception is needed: with a signal for its sleep, any amount is transferred at once. -/
theorem any_amount_after_signal (rate : ℚ) (rate_pos : 0 < rate) (start : ℚ) (size : ℚ≥0) :
    ∃ (actions : List (RateAction Unit)) (s : RateSystem Unit),
      Run RateStep (initialRateSystem Unit rate rate_pos start) actions s ∧ s.time = 0 ∧ s.forward = 0 ∧
        s.transfers = [⟨0, size, true⟩] := by
  by_cases fits : (rateLimiterWaitNosleep (rateLimiterInit rate rate_pos start) size start).1 < 2 ^ 63
  · exact ⟨[.request () size, .proceed (), .proceed (), .proceed (), .proceed (), .proceed (), .proceed (),
      .proceed (), .signal (), .proceed ()], _,
    .next (.request _ rfl) <| .next (.locked rfl rfl) <| .next (.timed rfl) <| .next (.computed rfl) <|
      .next (.storedSleep rfl) <| .next (.storedTime rfl) <| .next (.unlocked rfl) <|
      .next (.slept rfl fits) <| .next (.interrupted rfl) <| .next (.transferred rfl) <| .done _, rfl, rfl, rfl⟩
  · exact ⟨[.request () size, .proceed (), .proceed (), .proceed (), .proceed (), .proceed (), .proceed (),
      .proceed (), .proceed ()], _,
    .next (.request _ rfl) <| .next (.locked rfl rfl) <| .next (.timed rfl) <| .next (.computed rfl) <|
      .next (.storedSleep rfl) <| .next (.storedTime rfl) <| .next (.unlocked rfl) <|
      .next (.unfit rfl (not_lt.mp fits)) <| .next (.transferred rfl) <| .done _, rfl, rfl, rfl⟩

end Bindfs.Guarantees.RateLimitThreads
