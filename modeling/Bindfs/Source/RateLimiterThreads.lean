import Mathlib.Data.Rat.Floor
import Bindfs.Lib.Concurrency
import Bindfs.Source.RateLimiter

/-!
# rate_limiter.c: threads on one limiter

Any number of threads that call `rate_limiter_wait` and then transfer what they asked for, as
`bindfs_read` and `bindfs_write` do. Taking and releasing the mutex, reading the clock, reading
the limiter and each of the two stores to it are steps of their own. Time passes between any two
steps, a thread may sleep longer than it asked for, and the handler of SIGUSR1 cuts a sleep
short: `sleep_seconds` does not look at the result of nanosleep(2).

gettimeofday(2) reads a clock that the administrator may set, forward or back; nanosleep(2) counts
the time that passes and does not notice. A time to sleep of 2^63 seconds or more does not fit
`time_t`. What the conversion makes of it is undefined, so such a sleep may end at any time.
Times are exact rationals, where the source has doubles.

The mutex is a lock that is only taken for writing. Beside the variables of the source the
state keeps the calls in the order of the mutex, the transfers, and how far the clock has been
set forward in all. No step depends on them.
-/
namespace Bindfs.Source
open Bindfs.Lib.Concurrency

/-! ## sleep_seconds -/

/-- A conversion to an integer type, which truncates towards zero. -/
def truncated (x : ℚ) : Int := if x < 0 then ⌈x⌉ else ⌊x⌋

structure Timespec where
  tv_sec : Int
  tv_nsec : Int

/-- The time `sleep_seconds` asks nanosleep(2) for. -/
def sleepTimespec (s : ℚ) : Timespec :=
  let sec := truncated s
  let nsec := truncated ((s - sec) * 1000000000)
  ⟨sec, if nsec > 999999999 then 999999999 else if nsec < 0 then 0 else nsec⟩

/-- How long an undisturbed `sleep_seconds` sleeps at least, for a time that fits `time_t`;
nanosleep(2) refuses a negative number of seconds. -/
def sleepSeconds (s : ℚ) : ℚ :=
  let ts := sleepTimespec s
  if ts.tv_sec < 0 then 0 else ts.tv_sec + ts.tv_nsec / 1000000000

theorem tv_nsec_nonneg (s : ℚ) : 0 ≤ (sleepTimespec s).tv_nsec := by
  unfold sleepTimespec
  dsimp only
  split
  · decide
  · split
    · exact Int.le_refl 0
    · exact not_lt.mp ‹_›

theorem sleepSeconds_nonneg (s : ℚ) : 0 ≤ sleepSeconds s := by
  unfold sleepSeconds
  dsimp only
  split
  · exact le_refl 0
  · rename_i accepted
    have seconds : (0 : ℚ) ≤ (sleepTimespec s).tv_sec := by exact_mod_cast not_lt.mp accepted
    have nanoseconds : (0 : ℚ) ≤ (sleepTimespec s).tv_nsec := by exact_mod_cast tv_nsec_nonneg s
    linarith

/-- The clamps against imprecision do nothing to an exact time. -/
theorem sleepTimespec_of_nonneg {s : ℚ} (nonneg : 0 ≤ s) :
    sleepTimespec s = ⟨⌊s⌋, ⌊(s - ⌊s⌋) * 1000000000⌋⟩ := by
  have below := Int.floor_le s
  have above := Int.lt_floor_add_one s
  have part : 0 ≤ (s - ⌊s⌋) * 1000000000 := by linarith
  have low : ¬ ⌊(s - ⌊s⌋) * 1000000000⌋ < 0 := not_lt.mpr (Int.floor_nonneg.mpr part)
  have high : ¬ ⌊(s - ⌊s⌋) * 1000000000⌋ > 999999999 := by
    rw [not_lt, ← Int.lt_add_one_iff, Int.floor_lt]
    push_cast
    linarith
  simp only [sleepTimespec, truncated, if_neg (not_lt.mpr nonneg), if_neg (not_lt.mpr part), if_neg low,
    if_neg high]

/-- A sleep falls short by less than a nanosecond. -/
theorem sleepSeconds_ge (s : ℚ) : max 0 s ≤ sleepSeconds s + 1 / 1000000000 := by
  apply max_le
  · have slept := sleepSeconds_nonneg s
    linarith
  · by_cases negative : s < 0
    · have slept := sleepSeconds_nonneg s
      linarith
    · have part := Int.lt_floor_add_one ((s - ⌊s⌋) * 1000000000)
      have whole : ¬ ⌊s⌋ < 0 := not_lt.mpr (Int.floor_nonneg.mpr (not_lt.mp negative))
      unfold sleepSeconds
      rw [sleepTimespec_of_nonneg (not_lt.mp negative)]
      simp only [if_neg whole]
      linarith

/-! ## Threads -/

/-- Where a thread stands. From the second store on it carries the number of its call. -/
inductive RateThread where
  | idle
  | wantsLock (size : ℚ≥0)
  | locked (size : ℚ≥0)
  | timed (size : ℚ≥0) (now : ℚ)
  | computed (size : ℚ≥0) (now timeToSleep : ℚ)
  | storing (size : ℚ≥0) (now timeToSleep : ℚ)
  | unlocking (size : ℚ≥0) (call : Nat) (timeToSleep : ℚ)
  | returned (size : ℚ≥0) (call : Nat) (timeToSleep : ℚ)
  | sleeping (size : ℚ≥0) (call : Nat) (wake : ℚ)
  | awake (size : ℚ≥0) (call : Nat) (cutShort : Bool)

def RateThread.section : RateThread → Section
  | .locked _ | .timed _ _ | .computed _ _ _ | .storing _ _ _ | .unlocking _ _ _ => .writing
  | .idle | .wantsLock _ | .returned _ _ _ | .sleeping _ _ _ | .awake _ _ _ => .outside

/-- A transfer, with the call that released it and whether its sleep was cut short. -/
structure Transfer where
  call : Nat
  size : ℚ≥0
  cutShort : Bool

structure RateSystem (ι : Type) where
  /-- The time that has passed since the limiter was set up. -/
  time : ℚ
  /-- What gettimeofday(2) reads. -/
  clock : ℚ
  /-- How far the clock has been set forward, in all. -/
  forward : ℚ
  limiter : RateLimiter
  mutex : RwLock ι
  threads : ι → RateThread
  calls : List RateRequest
  transfers : List Transfer

/-- After `rate_limiter_init`. -/
def initialRateSystem (ι : Type) (rate : ℚ) (rate_pos : 0 < rate) (start : ℚ) : RateSystem ι where
  time := 0
  clock := start
  forward := 0
  limiter := rateLimiterInit rate rate_pos start
  mutex := .free
  threads _ := .idle
  calls := []
  transfers := []

inductive RateAction (ι : Type) where
  | tick (elapsed : ℚ≥0)
  /-- The clock is set, by so much. -/
  | set (shift : ℚ)
  | request (thread : ι) (size : ℚ≥0)
  | proceed (thread : ι)
  | signal (thread : ι)

section
variable {ι : Type} [DecidableEq ι]

def RateSystem.moved (s : RateSystem ι) (thread : ι) (next : RateThread) : RateSystem ι :=
  { s with threads := Function.update s.threads thread next }

@[simp] theorem RateSystem.threads_moved_self (s : RateSystem ι) (thread : ι) (next : RateThread) :
    (s.moved thread next).threads thread = next :=
  Function.update_self ..

@[simp] theorem RateSystem.threads_moved_of_ne (s : RateSystem ι) {thread other : ι} (next : RateThread)
    (another : other ≠ thread) : (s.moved thread next).threads other = s.threads other :=
  Function.update_of_ne another ..

inductive RateStep : RateSystem ι → RateAction ι → RateSystem ι → Prop
  | tick (s : RateSystem ι) (elapsed : ℚ≥0) :
      RateStep s (.tick elapsed) { s with time := s.time + elapsed, clock := s.clock + elapsed }
  | set (s : RateSystem ι) (shift : ℚ) :
      RateStep s (.set shift) { s with clock := s.clock + shift, forward := s.forward + max 0 shift }
  | request {s : RateSystem ι} {t : ι} (size : ℚ≥0) : s.threads t = .idle →
      RateStep s (.request t size) (s.moved t (.wantsLock size))
  -- rate_limiter_wait_nosleep
  | locked {s : RateSystem ι} {t : ι} {size : ℚ≥0} {mutex : RwLock ι} : s.threads t = .wantsLock size →
      s.mutex.lockWrite t = some mutex →
      RateStep s (.proceed t) ({ s with mutex := mutex }.moved t (.locked size))
  | timed {s : RateSystem ι} {t : ι} {size : ℚ≥0} : s.threads t = .locked size →
      RateStep s (.proceed t) (s.moved t (.timed size s.clock))
  | computed {s : RateSystem ι} {t : ι} {size : ℚ≥0} {now : ℚ} : s.threads t = .timed size now →
      RateStep s (.proceed t)
        (s.moved t (.computed size now (rateLimiterWaitNosleep s.limiter size now).1))
  | storedSleep {s : RateSystem ι} {t : ι} {size : ℚ≥0} {now timeToSleep : ℚ} :
      s.threads t = .computed size now timeToSleep →
      RateStep s (.proceed t)
        ({ s with limiter := { s.limiter with accumulated_sleep_time := timeToSleep } }.moved t
          (.storing size now timeToSleep))
  | storedTime {s : RateSystem ι} {t : ι} {size : ℚ≥0} {now timeToSleep : ℚ} :
      s.threads t = .storing size now timeToSleep →
      RateStep s (.proceed t)
        ({ s with
          limiter := { s.limiter with last_modified := now }
          calls := s.calls ++ [RateRequest.mk size now] }.moved t (.unlocking size s.calls.length timeToSleep))
  | unlocked {s : RateSystem ι} {t : ι} {size : ℚ≥0} {call : Nat} {timeToSleep : ℚ} :
      s.threads t = .unlocking size call timeToSleep →
      RateStep s (.proceed t)
        ({ s with mutex := s.mutex.unlock t }.moved t (.returned size call timeToSleep))
  -- rate_limiter_wait and the transfer
  | slept {s : RateSystem ι} {t : ι} {size : ℚ≥0} {call : Nat} {timeToSleep : ℚ} :
      s.threads t = .returned size call timeToSleep → timeToSleep < 2 ^ 63 →
      RateStep s (.proceed t) (s.moved t (.sleeping size call (s.time + sleepSeconds timeToSleep)))
  | unfit {s : RateSystem ι} {t : ι} {size : ℚ≥0} {call : Nat} {timeToSleep : ℚ} :
      s.threads t = .returned size call timeToSleep → 2 ^ 63 ≤ timeToSleep →
      RateStep s (.proceed t) (s.moved t (.awake size call true))
  | woke {s : RateSystem ι} {t : ι} {size : ℚ≥0} {call : Nat} {wake : ℚ} :
      s.threads t = .sleeping size call wake → wake ≤ s.time →
      RateStep s (.proceed t) (s.moved t (.awake size call false))
  | interrupted {s : RateSystem ι} {t : ι} {size : ℚ≥0} {call : Nat} {wake : ℚ} :
      s.threads t = .sleeping size call wake →
      RateStep s (.signal t) (s.moved t (.awake size call true))
  | transferred {s : RateSystem ι} {t : ι} {size : ℚ≥0} {call : Nat} {cutShort : Bool} :
      s.threads t = .awake size call cutShort →
      RateStep s (.proceed t)
        ({ s with transfers := ⟨call, size, cutShort⟩ :: s.transfers }.moved t .idle)

end

end Bindfs.Source
