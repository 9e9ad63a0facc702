import Mathlib
import Bindfs.Source.RateLimiter

/-!
# The rate limit over a window of time

Whatever the order in which the mutex serialises the requests, those released between two
instants exceed the rate times the length of the window by at most the idle credit and the size
of the first of them.

The run lemma is `size_releasedBy_le`: from a limiter on, no more is released by `b` than the rate
allows after the limiter's clear time. The window starts at its first release, whose clear time
is at most the idle credit before it.

Nor does a request wait longer than that: what a call returns is the most that the runs of
requests ending with it require (`delays_no_longer_than_required`).
-/
namespace Bindfs.Guarantees.RateLimit
open Bindfs.Source

def totalSize (releases : List Release) : ℚ := (releases.map fun release => (release.size : ℚ)).sum

theorem totalSize_cons (release : Release) (releases : List Release) :
    totalSize (release :: releases) = release.size + totalSize releases := by
  simp [totalSize]

/-- The releases by an instant. -/
def releasedBy (b : ℚ) (releases : List Release) : List Release :=
  releases.filter fun release => release.time ≤ b

/-- The releases in a window, in the order of the calls. -/
def releasedIn (a b : ℚ) (releases : List Release) : List Release :=
  releases.filter fun release => a ≤ release.time ∧ release.time ≤ b

def firstSize (releases : List Release) : ℚ := (releases.head?.map fun release => (release.size : ℚ)).getD 0

/-- Clock readings that do not go back, from an instant on. -/
def ClockFrom (start : ℚ) (requests : List RateRequest) : Prop :=
  (start :: requests.map RateRequest.now).Pairwise (· ≤ ·)

theorem ClockFrom.cons {start : ℚ} {request : RateRequest} {rest : List RateRequest}
    (clock : ClockFrom start (request :: rest)) :
    start ≤ request.now ∧ ClockFrom request.now rest := by
  obtain ⟨first, ordered⟩ := List.pairwise_cons.mp clock
  exact ⟨first request.now (by simp), ordered⟩

theorem totalSize_releasedIn_le (a b : ℚ) (releases : List Release) :
    totalSize (releasedIn a b releases) ≤ totalSize (releasedBy b releases) := by
  apply List.Sublist.sum_le_sum
  · apply List.Sublist.map
    apply List.monotone_filter_right
    intro release inside
    simpa using (of_decide_eq_true inside).2
  · intro size member
    obtain ⟨release, -, rfl⟩ := List.mem_map.mp member
    exact release.size.cast_nonneg

/-- By `b` no more is released than the rate allows from the clear time on. -/
theorem size_releasedBy_le (b : ℚ) (requests : List RateRequest) (limiter : RateLimiter)
    (clock : ClockFrom limiter.last_modified requests) :
    totalSize (releasedBy b (rateLimiterRun limiter requests)) ≤
      limiter.rate * max 0 (b - limiter.clearTime) := by
  induction requests generalizing limiter with
  | nil =>
    have room := le_max_left 0 (b - limiter.clearTime)
    simpa [rateLimiterRun, releasedBy, totalSize] using mul_nonneg limiter.rate_pos.le room
  | cons request rest ih =>
    obtain ⟨later, clock⟩ := clock.cons
    have others := ih (rateLimiterWaitNosleep limiter request.size request.now).2 clock
    have moved := clearTime_wait_ge limiter request.size later
    rw [rate_wait] at others
    rw [rateLimiterRun, releasedBy, List.filter_cons, sleep_wait]
    generalize (rateLimiterWaitNosleep limiter request.size request.now).2 = waited at others moved
    have size_nonneg : 0 ≤ (request.size : ℚ) / limiter.rate :=
      div_nonneg request.size.cast_nonneg limiter.rate_pos.le
    have slept := le_max_right 0 (waited.clearTime - request.now)
    by_cases released : request.now + max 0 (waited.clearTime - request.now) ≤ b
    · rw [if_pos (by simpa using released)]
      have cleared : waited.clearTime ≤ b := by linarith
      rw [max_eq_right (by linarith : 0 ≤ b - waited.clearTime)] at others
      rw [max_eq_right (by linarith : 0 ≤ b - limiter.clearTime)]
      calc totalSize (_ :: releasedBy b (rateLimiterRun waited rest))
          = request.size + totalSize (releasedBy b (rateLimiterRun waited rest)) := totalSize_cons ..
        _ ≤ request.size + limiter.rate * (b - waited.clearTime) := by linarith
        _ = limiter.rate * (request.size / limiter.rate + b - waited.clearTime) := by
            rw [add_sub_assoc, mul_add, mul_div_cancel₀ _ limiter.rate_pos.ne']
        _ ≤ limiter.rate * (b - limiter.clearTime) := by
            apply mul_le_mul_of_nonneg_left _ limiter.rate_pos.le
            linarith
    · rw [if_neg (by simpa using released)]
      apply others.trans
      apply mul_le_mul_of_nonneg_left _ limiter.rate_pos.le
      exact max_le_max_left 0 (by linarith)

/-- A release is at most the idle credit after the clear time of its request. -/
theorem release_le_clearTime (limiter : RateLimiter) (request : RateRequest)
    (later : limiter.last_modified ≤ request.now) :
    request.now + max 0 (rateLimiterWaitNosleep limiter request.size request.now).1 ≤
      (rateLimiterWaitNosleep limiter request.size request.now).2.clearTime + 1 / 5 := by
  have credited := clearTime_wait_ge_now limiter request.size later
  rw [sleep_wait]
  rcases max_choice 0 ((rateLimiterWaitNosleep limiter request.size request.now).2.clearTime -
    request.now) with none | slept
  · rw [none]
    linarith
  · rw [slept]
    linarith

theorem size_releasedIn_le {a b : ℚ} (window : a ≤ b) (requests : List RateRequest)
    (limiter : RateLimiter) (clock : ClockFrom limiter.last_modified requests) :
    totalSize (releasedIn a b (rateLimiterRun limiter requests)) ≤
      limiter.rate * (b - a + 1 / 5) + firstSize (releasedIn a b (rateLimiterRun limiter requests)) := by
  induction requests generalizing limiter with
  | nil =>
    have room := mul_nonneg limiter.rate_pos.le (by linarith : 0 ≤ b - a + 1 / 5)
    simpa [rateLimiterRun, releasedIn, totalSize, firstSize] using room
  | cons request rest ih =>
    obtain ⟨later, clock⟩ := clock.cons
    have waitedRate : (rateLimiterWaitNosleep limiter request.size request.now).2.rate =
      limiter.rate := rfl
    have early := release_le_clearTime limiter request later
    rw [rateLimiterRun, releasedIn, List.filter_cons]
    by_cases inside : a ≤ request.now +
        max 0 (rateLimiterWaitNosleep limiter request.size request.now).1 ∧
      request.now + max 0 (rateLimiterWaitNosleep limiter request.size request.now).1 ≤ b
    · -- the window's first release: what follows it is bounded by its clear time
      rw [if_pos (by simpa using inside)]
      have after := (totalSize_releasedIn_le a b _).trans (size_releasedBy_le b rest
        (rateLimiterWaitNosleep limiter request.size request.now).2 clock)
      rw [waitedRate] at after
      have room : max 0 (b - (rateLimiterWaitNosleep limiter request.size request.now).2.clearTime) ≤
          b - a + 1 / 5 := max_le (by linarith) (by linarith)
      have bounded := mul_le_mul_of_nonneg_left room limiter.rate_pos.le
      change totalSize (_ :: releasedIn a b _) ≤ _ + (request.size : ℚ)
      rw [totalSize_cons]
      linarith
    · rw [if_neg (by simpa using inside)]
      exact ih _ clock

theorem releases_ordered (requests : List RateRequest) (limiter : RateLimiter)
    (clock : ClockFrom limiter.last_modified requests) :
    (rateLimiterRun limiter requests).Pairwise (fun first second => first.time ≤ second.time) ∧
      ∀ release ∈ rateLimiterRun limiter requests,
        max limiter.last_modified limiter.clearTime ≤ release.time := by
  induction requests generalizing limiter with
  | nil => simp [rateLimiterRun]
  | cons request rest ih =>
    obtain ⟨later, clock⟩ := clock.cons
    obtain ⟨ordered, after⟩ := ih (rateLimiterWaitNosleep limiter request.size request.now).2 clock
    have moved := clearTime_wait_ge limiter request.size later
    have added : 0 ≤ (request.size : ℚ) / limiter.rate :=
      div_nonneg request.size.cast_nonneg limiter.rate_pos.le
    have release : request.now + max 0 (rateLimiterWaitNosleep limiter request.size request.now).1 =
        max (rateLimiterWaitNosleep limiter request.size request.now).2.last_modified
          (rateLimiterWaitNosleep limiter request.size request.now).2.clearTime := by
      rw [sleep_wait, last_modified_wait, ← max_add_add_left, add_zero, add_sub_cancel]
    have first : max limiter.last_modified limiter.clearTime ≤
        max (rateLimiterWaitNosleep limiter request.size request.now).2.last_modified
          (rateLimiterWaitNosleep limiter request.size request.now).2.clearTime :=
      max_le_max later (by linarith)
    rw [rateLimiterRun, List.pairwise_cons, release]
    refine ⟨⟨after, ordered⟩, ?_⟩
    intro other member
    rcases List.mem_cons.mp member with rfl | member
    · exact first
    · exact first.trans (after other member)

/-- For every rate and every sequence of calls with clock readings that do not go back: requests
are released in the order of the calls, and those released in any window exceed the rate over
the window and the idle credit by at most the size of the first of them. -/
theorem rate_limit_over_every_window (rate : ℚ) (rate_pos : 0 < rate) (start : ℚ)
    (requests : List RateRequest) (clock : ClockFrom start requests) :
    (rateLimiterRun (rateLimiterInit rate rate_pos start) requests).Pairwise
        (fun first second => first.time ≤ second.time) ∧
      ∀ a b, a ≤ b →
        totalSize (releasedIn a b (rateLimiterRun (rateLimiterInit rate rate_pos start) requests)) ≤
          rate * (b - a + 1 / 5) +
            firstSize (releasedIn a b (rateLimiterRun (rateLimiterInit rate rate_pos start) requests)) :=
  ⟨(releases_ordered requests _ clock).1,
    fun _ _ window => size_releasedIn_le window requests (rateLimiterInit rate rate_pos start) clock⟩

/-- The two requests of 30 and 20 bytes at 10 bytes a second of the unit tests, 100 seconds
apart. -/
theorem rate_limit_over_every_window_after_idling :
    ClockFrom 0 [⟨30, 0⟩, ⟨20, 100⟩] ∧
      totalSize (releasedIn 0 200 (rateLimiterRun (rateLimiterInit 10 (by norm_num) 0)
          [⟨30, 0⟩, ⟨20, 100⟩])) ≤
        10 * (200 - 0 + 1 / 5) + firstSize (releasedIn 0 200
          (rateLimiterRun (rateLimiterInit 10 (by norm_num) 0) [⟨30, 0⟩, ⟨20, 100⟩])) := by
  have clock : ClockFrom 0 [⟨30, 0⟩, ⟨20, 100⟩] := by
    simp [ClockFrom]
  exact ⟨clock, (rate_limit_over_every_window 10 (by norm_num) 0 _ clock).2 0 200 (by norm_num)⟩

/-! ## No longer than the limit requires -/

def requestedSize (requests : List RateRequest) : ℚ :=
  (requests.map fun request => (request.size : ℚ)).sum

theorem requestedSize_cons (request : RateRequest) (requests : List RateRequest) :
    requestedSize (request :: requests) = request.size + requestedSize requests := by
  simp [requestedSize]

/-- What the rate requires of a run of requests by itself: the time its sizes take, less the time
that has passed since its first request and the idle credit. -/
def requiredDelay (rate now : ℚ) (first : RateRequest) (others : List RateRequest) : ℚ :=
  requestedSize (first :: others) / rate - (now - first.now) - 1 / 5

/-- What is required by the runs that end with the last of these requests. -/
def requiredDelays (rate now : ℚ) (requests : List RateRequest) : Set ℚ :=
  {delay | ∃ first others, first :: others <:+ requests ∧ delay = requiredDelay rate now first others}

/-- Waiting from the clear time of a limiter on, or what one of the runs requires, whichever is
longest. -/
structure LongestDelay (limiter : RateLimiter) (now : ℚ) (requests : List RateRequest) (delay : ℚ) :
    Prop where
  from_limiter : limiter.clearTime + requestedSize requests / limiter.rate - now ≤ delay
  from_runs : ∀ other ∈ requiredDelays limiter.rate now requests, other ≤ delay
  attained : delay = limiter.clearTime + requestedSize requests / limiter.rate - now ∨
    delay ∈ requiredDelays limiter.rate now requests

theorem requiredDelays_cons {rate now delay : ℚ} {request : RateRequest} {rest : List RateRequest} :
    delay ∈ requiredDelays rate now (request :: rest) ↔
      delay = requiredDelay rate now request rest ∨ delay ∈ requiredDelays rate now rest := by
  constructor
  · rintro ⟨first, others, ending, rfl⟩
    rcases List.suffix_cons_iff.mp ending with whole | later
    · cases whole
      exact .inl rfl
    · exact .inr ⟨first, others, later, rfl⟩
  · rintro (rfl | ⟨first, others, later, rfl⟩)
    · exact ⟨request, rest, List.suffix_refl _, rfl⟩
    · exact ⟨first, others, later.trans (List.suffix_cons _ _), rfl⟩

theorem requiredDelay_eq (rate now : ℚ) (request : RateRequest) (rest : List RateRequest) :
    requiredDelay rate now request rest =
      request.now - 1 / 5 + request.size / rate + requestedSize rest / rate - now := by
  rw [requiredDelay, requestedSize_cons, add_div]
  ring

/-- One more call in front: the limiter it leaves behind stands for its runs. -/
theorem LongestDelay.cons {limiter : RateLimiter} {request : RateRequest} {now : ℚ}
    {rest : List RateRequest} {delay : ℚ} (later : limiter.last_modified ≤ request.now)
    (longest : LongestDelay (rateLimiterWaitNosleep limiter request.size request.now).2 now rest delay) :
    LongestDelay limiter now (request :: rest) delay := by
  obtain ⟨fromLimiter, fromRuns, attained⟩ := longest
  have cleared := clearTime_wait limiter request.size later
  rw [rate_wait, cleared] at fromLimiter attained
  rw [rate_wait] at fromRuns
  have sizes : requestedSize (request :: rest) / limiter.rate =
      request.size / limiter.rate + requestedSize rest / limiter.rate := by
    rw [requestedSize_cons, add_div]
  have alone := requiredDelay_eq limiter.rate now request rest
  have left := le_max_left limiter.clearTime (request.now - 1 / 5)
  have right := le_max_right limiter.clearTime (request.now - 1 / 5)
  refine ⟨?_, ?_, ?_⟩
  · rw [sizes]
    linarith
  · intro other member
    rcases requiredDelays_cons.mp member with rfl | member
    · rw [alone]
      linarith
    · exact fromRuns other member
  · rcases attained with whole | member
    · rcases max_choice limiter.clearTime (request.now - 1 / 5) with busy | idle
      · left
        rw [whole, busy, sizes]
        ring
      · right
        rw [requiredDelays_cons, alone, whole, idle]
        exact .inl rfl
    · exact .inr (requiredDelays_cons.mpr (.inr member))

theorem LongestDelay.wait (limiter : RateLimiter) (request : RateRequest)
    (later : limiter.last_modified ≤ request.now) :
    LongestDelay limiter request.now [request]
      (rateLimiterWaitNosleep limiter request.size request.now).1 := by
  apply LongestDelay.cons later
  rw [sleep_wait]
  refine ⟨?_, ?_, .inl ?_⟩
  · simp [requestedSize]
  · rintro other ⟨first, others, ending, -⟩
    simp at ending
  · simp [requestedSize]

/-- A limiter that was idle requires nothing that the runs do not. -/
theorem LongestDelay.isGreatest {limiter : RateLimiter} {now : ℚ} {request : RateRequest}
    {rest : List RateRequest} {delay : ℚ} (longest : LongestDelay limiter now (request :: rest) delay)
    (idle : limiter.clearTime ≤ request.now - 1 / 5) :
    IsGreatest (requiredDelays limiter.rate now (request :: rest)) delay := by
  refine ⟨?_, longest.from_runs⟩
  rcases longest.attained with whole | member
  · have wholeRun : requiredDelay limiter.rate now request rest ∈
        requiredDelays limiter.rate now (request :: rest) := requiredDelays_cons.mpr (.inl rfl)
    have bound := longest.from_runs _ wholeRun
    have same : delay = requiredDelay limiter.rate now request rest := by
      apply le_antisymm _ bound
      rw [requiredDelay_eq, whole, requestedSize_cons, add_div]
      linarith
    exact same ▸ wholeRun
  · exact member

/-- The run lemma: what a call returns, from any state of the limiter. -/
theorem longestDelay_of_run (before : List RateRequest) (last : RateRequest)
    (after : List RateRequest) (limiter : RateLimiter)
    (clock : ClockFrom limiter.last_modified (before ++ [last])) :
    ∃ delay, (rateLimiterWaits limiter (before ++ last :: after))[before.length]? = some delay ∧
      LongestDelay limiter last.now (before ++ [last]) delay := by
  induction before generalizing limiter with
  | nil =>
    obtain ⟨later, -⟩ := clock.cons
    exact ⟨_, rfl, LongestDelay.wait limiter last later⟩
  | cons request before ih =>
    obtain ⟨later, clock⟩ := clock.cons
    obtain ⟨delay, returned, longest⟩ :=
      ih (rateLimiterWaitNosleep limiter request.size request.now).2 clock
    exact ⟨delay, returned, longest.cons later⟩

/-- For every rate and every sequence of calls with clock readings that do not go back: a call
returns the most that the runs of requests ending with it require. -/
theorem delays_no_longer_than_required (rate : ℚ) (rate_pos : 0 < rate) (start : ℚ)
    (before : List RateRequest) (last : RateRequest) (after : List RateRequest)
    (clock : ClockFrom start (before ++ [last])) :
    ∃ delay, (rateLimiterWaits (rateLimiterInit rate rate_pos start)
        (before ++ last :: after))[before.length]? = some delay ∧
      IsGreatest (requiredDelays rate last.now (before ++ [last])) delay ∧
      -1 / 5 ≤ delay ∧
      ((∀ first others, first :: others <:+ before ++ [last] →
        requestedSize (first :: others) ≤ rate * (last.now - first.now + 1 / 5)) → delay ≤ 0) := by
  obtain ⟨delay, returned, longest⟩ :=
    longestDelay_of_run before last after (rateLimiterInit rate rate_pos start) clock
  have greatest : IsGreatest (requiredDelays rate last.now (before ++ [last])) delay := by
    obtain ⟨first, others, split⟩ : ∃ first others, before ++ [last] = first :: others :=
      List.exists_cons_of_ne_nil (by simp)
    rw [split] at longest clock ⊢
    have idle : (rateLimiterInit rate rate_pos start).clearTime ≤ first.now - 1 / 5 := by
      have later := clock.cons.1
      change start + -1 / 5 ≤ first.now - 1 / 5
      linarith
    exact longest.isGreatest idle
  refine ⟨delay, returned, greatest, ?_, fun fits => ?_⟩
  · have own := greatest.2 ⟨last, [], List.suffix_append _ _, rfl⟩
    have size : 0 ≤ (last.size : ℚ) / rate := div_nonneg last.size.cast_nonneg rate_pos.le
    simp only [requiredDelay_eq, requestedSize, List.map_nil, List.sum_nil, zero_div] at own
    linarith
  · obtain ⟨first, others, ending, required⟩ := greatest.1
    have inTime := (div_le_iff₀' rate_pos).mpr (fits first others ending)
    rw [required, requiredDelay]
    linarith

/-- The second of two requests of 20 bytes at 10 bytes a second, one second after the first. -/
theorem delays_no_longer_than_required_of_pair :
    ClockFrom 0 [⟨20, 0⟩, ⟨20, 1⟩] ∧
      ∃ delay, (rateLimiterWaits (rateLimiterInit 10 (by norm_num) 0) [⟨20, 0⟩, ⟨20, 1⟩])[1]? =
          some delay ∧
        IsGreatest (requiredDelays 10 1 [⟨20, 0⟩, ⟨20, 1⟩]) delay := by
  have clock : ClockFrom 0 [⟨20, 0⟩, ⟨20, 1⟩] := by
    simp [ClockFrom]
  obtain ⟨delay, returned, greatest, -⟩ :=
    delays_no_longer_than_required 10 (by norm_num) 0 [⟨20, 0⟩] ⟨20, 1⟩ [] clock
  exact ⟨clock, delay, returned, greatest⟩

end Bindfs.Guarantees.RateLimit
