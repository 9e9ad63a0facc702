import Mathlib.Algebra.Field.Rat
import Mathlib.Algebra.Order.Ring.Rat
import Mathlib.Data.NNRat.Defs
import Mathlib.Tactic.Linarith
import Mathlib.Tactic.Ring

/-!
# rate_limiter.c

Clock readings, rates and sizes are exact rationals. `rate_limiter_wait_nosleep` reads the
clock and updates the limiter under its mutex, so the concurrent readers or writers of a mount
are a sequence of calls; a call is given its clock reading.

`clearTime` is the instant at which the accumulated debt is worked off. One call moves it to
`max clearTime (now - 0.2) + size / rate` (`clearTime_wait`), which is all that the results
about runs use.
-/
namespace Bindfs.Source

/-- `rate_limiter_idle_credit`. -/
def rateLimiterIdleCredit : ℚ := -1 / 5

/-- `main` only sets up a limiter for a positive rate. -/
structure RateLimiter where
  rate : ℚ
  last_modified : ℚ
  accumulated_sleep_time : ℚ
  rate_pos : 0 < rate

def rateLimiterInit (rate : ℚ) (rate_pos : 0 < rate) (now : ℚ) : RateLimiter :=
  ⟨rate, now, rateLimiterIdleCredit, rate_pos⟩

/-- `rate_limiter_wait_nosleep`: the time to sleep and the updated limiter. -/
def rateLimiterWaitNosleep (limiter : RateLimiter) (size : ℚ≥0) (now : ℚ) : ℚ × RateLimiter :=
  let timeToAdd := size / limiter.rate
  let elapsed := if now - limiter.last_modified < 0 then 0 else now - limiter.last_modified
  let timeToSleep := limiter.accumulated_sleep_time - elapsed
  let timeToSleep := if timeToSleep < rateLimiterIdleCredit then rateLimiterIdleCredit else timeToSleep
  let timeToSleep := timeToSleep + timeToAdd
  (timeToSleep, { limiter with last_modified := now, accumulated_sleep_time := timeToSleep })

/-! ## One call -/

def RateLimiter.clearTime (limiter : RateLimiter) : ℚ :=
  limiter.last_modified + limiter.accumulated_sleep_time

section
variable (limiter : RateLimiter) (size : ℚ≥0) {now : ℚ}

@[simp]
theorem rate_wait : (rateLimiterWaitNosleep limiter size now).2.rate = limiter.rate := rfl

@[simp]
theorem last_modified_wait :
    (rateLimiterWaitNosleep limiter size now).2.last_modified = now := rfl

/-- The caller sleeps until the debt, its own request included, is worked off. -/
theorem sleep_wait : (rateLimiterWaitNosleep limiter size now).1 =
    (rateLimiterWaitNosleep limiter size now).2.clearTime - now := by
  unfold RateLimiter.clearTime
  rw [last_modified_wait, add_sub_cancel_left]
  rfl

theorem clearTime_wait (later : limiter.last_modified ≤ now) :
    (rateLimiterWaitNosleep limiter size now).2.clearTime =
      max limiter.clearTime (now - 1 / 5) + size / limiter.rate := by
  have forward : ¬ now - limiter.last_modified < 0 := by linarith
  unfold RateLimiter.clearTime rateLimiterWaitNosleep rateLimiterIdleCredit
  simp only [if_neg forward]
  by_cases idle : limiter.accumulated_sleep_time - (now - limiter.last_modified) < -1 / 5
  · rw [if_pos idle, max_eq_right (by linarith)]
    ring
  · rw [if_neg idle, max_eq_left (by linarith)]
    ring

theorem clearTime_wait_ge (later : limiter.last_modified ≤ now) :
    limiter.clearTime + size / limiter.rate ≤
      (rateLimiterWaitNosleep limiter size now).2.clearTime := by
  rw [clearTime_wait limiter size later]
  have larger := le_max_left limiter.clearTime (now - 1 / 5)
  linarith

theorem clearTime_wait_ge_now (later : limiter.last_modified ≤ now) :
    now - 1 / 5 ≤ (rateLimiterWaitNosleep limiter size now).2.clearTime := by
  rw [clearTime_wait limiter size later]
  have larger := le_max_right limiter.clearTime (now - 1 / 5)
  have added : 0 ≤ (size : ℚ) / limiter.rate := div_nonneg size.cast_nonneg limiter.rate_pos.le
  linarith

end

/-! ## Runs -/

/-- A call in the order of the mutex: its size and the clock reading it makes. -/
structure RateRequest where
  size : ℚ≥0
  now : ℚ

structure Release where
  size : ℚ≥0
  time : ℚ

/-- `rate_limiter_wait` for a sequence of calls: when each of them has slept, a negative time
to sleep being none. -/
def rateLimiterRun (limiter : RateLimiter) : List RateRequest → List Release
  | [] => []
  | request :: rest =>
    let waited := rateLimiterWaitNosleep limiter request.size request.now
    ⟨request.size, request.now + max 0 waited.1⟩ :: rateLimiterRun waited.2 rest

/-- What the calls of `rate_limiter_wait_nosleep` return. -/
def rateLimiterWaits (limiter : RateLimiter) : List RateRequest → List ℚ
  | [] => []
  | request :: rest =>
    let waited := rateLimiterWaitNosleep limiter request.size request.now
    waited.1 :: rateLimiterWaits waited.2 rest

end Bindfs.Source
