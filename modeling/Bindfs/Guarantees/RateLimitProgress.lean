import Bindfs.Guarantees.RateLimitThreads
import Bindfs.Lib.Progress

/-!
# Every transfer is made

The rate limit holds transfers back, but it does not keep any of them back for ever: however the
threads have interleaved, however often they were signalled and however the clock was set, they
need no more time for everything that has been asked for than the rate allows it
(`every_transfer_made`). No sleep is
longer than that (`Timely`), and the threads do not block each other at the mutex, so those that
are awake can all go to sleep or be done at once. After the time has passed all sleeps are over.
-/
namespace Bindfs.Guarantees.RateLimitProgress
open Bindfs.Source Bindfs.Lib.Concurrency Bindfs.Guarantees.RateLimit Bindfs.Guarantees.RateLimitThreads

/-! ## The work of a thread -/

/-- How many steps a thread still has to make. -/
def stepsLeft : RateThread → Nat
  | .idle => 0
  | .awake _ _ _ => 1
  | .sleeping _ _ _ => 2
  | .returned _ _ _ => 3
  | .unlocking _ _ _ => 4
  | .storing _ _ _ => 5
  | .computed _ _ _ => 6
  | .timed _ _ => 7
  | .locked _ => 8
  | .wantsLock _ => 9

/-- The size of the transfer that the thread has still to make. -/
def askedFor : RateThread → Option ℚ≥0
  | .idle => none
  | .wantsLock size | .locked size | .timed size _ | .computed size _ _ | .storing size _ _
  | .unlocking size _ _ | .returned size _ _ | .sleeping size _ _ | .awake size _ _ => some size

def owes (size : ℚ≥0) (state : RateThread) : Nat := ((askedFor state).any fun asked => asked = size).toNat

/-- What the thread has still to put on the account of the limiter. -/
def uncharged : RateThread → ℚ≥0
  | .wantsLock size | .locked size | .timed size _ | .computed size _ _ | .storing size _ _ => size
  | .idle | .unlocking _ _ _ | .returned _ _ _ | .sleeping _ _ _ | .awake _ _ _ => 0

theorem idle_of_stepsLeft {state : RateThread} (nothing : stepsLeft state = 0) : state = .idle := by
  cases state <;> first | rfl | cases nothing

def callsSize (calls : List RateRequest) : ℚ≥0 := (calls.map RateRequest.size).sum

theorem callsSize_append (calls : List RateRequest) (last : RateRequest) :
    callsSize (calls ++ [last]) = callsSize calls + last.size := by
  simp [callsSize]

section
variable {ι : Type}

/-- A step of a thread within a call or its transfer. -/
def isStep : RateAction ι → Bool
  | .proceed _ | .signal _ => true
  | .tick _ | .set _ | .request _ _ => false

def isRequest : RateAction ι → Bool
  | .request _ _ => true
  | .tick _ | .set _ | .proceed _ | .signal _ => false

def requests (size : ℚ≥0) : RateAction ι → Bool
  | .request _ asked => asked = size
  | .tick _ | .set _ | .proceed _ | .signal _ => false

def sizeAsked : RateAction ι → ℚ≥0
  | .request _ size => size
  | .tick _ | .set _ | .proceed _ | .signal _ => 0

def requestedSize (actions : List (RateAction ι)) : ℚ≥0 := (actions.map sizeAsked).sum

def transfersOf (size : ℚ≥0) (s : RateSystem ι) : Nat := s.transfers.countP fun transfer => transfer.size = size

/-! ## All threads -/

section
variable [Fintype ι]

def workLeft (s : RateSystem ι) : Nat := total stepsLeft s.threads

/-- The transfers of a size, those made and those to come. -/
def transfersDue (size : ℚ≥0) (s : RateSystem ι) : Nat := transfersOf size s + total (owes size) s.threads

def chargesDue (s : RateSystem ι) : ℚ≥0 := callsSize s.calls + total uncharged s.threads

theorem workLeft_eq_zero (s : RateSystem ι) : workLeft s = 0 ↔ ∀ t, s.threads t = .idle := by
  rw [workLeft, total_eq_zero_iff]
  constructor
  · exact fun nothing t => idle_of_stepsLeft (nothing t)
  · intro idle t
    rw [idle t]
    rfl

theorem transfersDue_of_idle (size : ℚ≥0) {s : RateSystem ι} (idle : ∀ t, s.threads t = .idle) :
    transfersDue size s = transfersOf size s := by
  have none : total (owes size) s.threads = 0 := by
    rw [total_eq_zero_iff]
    intro t
    rw [idle t]
    rfl
  rw [transfersDue, none, Nat.add_zero]

end

/-! ## One step -/

variable [DecidableEq ι] {s s' : RateSystem ι} {action : RateAction ι}

/-- What a step of a thread does to it. -/
structure Advances (s : RateSystem ι) (action : RateAction ι) (s' : RateSystem ι) (t : ι) (next : RateThread) :
    Prop where
  threads : s'.threads = Function.update s.threads t next
  work : stepsLeft next + (isStep action).toNat ≤ stepsLeft (s.threads t) + 9 * (isRequest action).toNat
  charges : callsSize s'.calls + uncharged next = callsSize s.calls + uncharged (s.threads t) + sizeAsked action
  transfers : ∀ size, transfersOf size s' + owes size next =
    transfersOf size s + owes size (s.threads t) + (requests size action).toNat

theorem advances_moved {s₁ : RateSystem ι} {t : ι} {state next : RateThread} (stands : s.threads t = state)
    (threads : s₁.threads = s.threads) (calls : s₁.calls = s.calls) (transfers : s₁.transfers = s.transfers)
    (stepping : isStep action = true) (less : stepsLeft next < stepsLeft state)
    (charge : uncharged next = uncharged state) (same : askedFor next = askedFor state) :
    Advances s action (s₁.moved t next) t next := by
  have silent : isRequest action = false ∧ sizeAsked action = 0 ∧ ∀ size, requests size action = false := by
    cases action <;> first | exact ⟨rfl, rfl, fun _ => rfl⟩ | cases stepping
  constructor
  · rw [← threads]
    rfl
  · rw [stands, stepping]
    exact Nat.le_add_right_of_le less
  · rw [stands, charge, silent.2.1, add_zero, RateSystem.moved, calls]
  · intro size
    rw [silent.2.2, stands, owes, owes, same, transfersOf, RateSystem.moved, transfers]
    rfl

theorem advances_step (stepped : RateStep s action s') :
    (((∃ elapsed, action = .tick elapsed) ∨ ∃ shift, action = .set shift) ∧ s'.threads = s.threads ∧
      s'.calls = s.calls ∧ s'.transfers = s.transfers) ∨ ∃ t next, Advances s action s' t next := by
  cases stepped with
  | tick elapsed => exact Or.inl ⟨Or.inl ⟨elapsed, rfl⟩, rfl, rfl, rfl⟩
  | set shift => exact Or.inl ⟨Or.inr ⟨shift, rfl⟩, rfl, rfl, rfl⟩
  | request asked stands =>
    refine Or.inr ⟨_, _, rfl, ?_, ?_, fun size => ?_⟩
    · rw [stands]
      exact Nat.le_refl _
    · rw [stands, uncharged, uncharged, add_zero]
      rfl
    · rw [stands]
      rfl
  | locked stands | timed stands | computed stands | storedSleep stands | unlocked stands | slept stands
  | woke stands | interrupted stands =>
    exact Or.inr ⟨_, _, advances_moved stands rfl rfl rfl rfl (Nat.lt_succ_self _) rfl rfl⟩
  | unfit stands =>
    have less : 1 < 3 := by decide
    exact Or.inr ⟨_, _, advances_moved stands rfl rfl rfl rfl less rfl rfl⟩
  | storedTime stands =>
    refine Or.inr ⟨_, _, rfl, ?_, ?_, fun size => ?_⟩
    · rw [stands]
      exact Nat.le_refl _
    · rw [stands, RateSystem.moved, callsSize_append, uncharged, uncharged, sizeAsked, add_zero]
    · rw [stands]
      rfl
  | @transferred t asked call cutShort stands =>
    refine Or.inr ⟨_, _, rfl, ?_, ?_, fun size => ?_⟩
    · rw [stands]
      exact Nat.le_refl _
    · rw [stands, sizeAsked, add_zero]
      rfl
    · rw [stands, owes, owes, transfersOf, transfersOf, RateSystem.moved, List.countP_cons]
      simp only [askedFor, requests, Option.any_none, Option.any_some, Bool.toNat_false, Nat.add_zero]
      cases decide (asked = size) <;> rfl

variable [Fintype ι]

theorem workLeft_step (s : RateSystem ι) (action : RateAction ι) (s' : RateSystem ι)
    (stepped : RateStep s action s') :
    workLeft s' + (isStep action).toNat ≤ workLeft s + 9 * (isRequest action).toNat := by
  rcases advances_step stepped with ⟨⟨_, rfl⟩ | ⟨_, rfl⟩, threads, -⟩ | ⟨t, next, advances⟩
  · rw [workLeft, workLeft, threads]
    exact Nat.le_refl _
  · rw [workLeft, workLeft, threads]
    exact Nat.le_refl _
  · have sums := total_update stepsLeft s.threads t next
    have work := advances.work
    rw [workLeft, workLeft, advances.threads]
    omega

theorem transfersDue_step (size : ℚ≥0) (s : RateSystem ι) (action : RateAction ι) (s' : RateSystem ι)
    (stepped : RateStep s action s') :
    transfersDue size s' = transfersDue size s + (requests size action).toNat := by
  rcases advances_step stepped with ⟨⟨_, rfl⟩ | ⟨_, rfl⟩, threads, -, transfers⟩ | ⟨t, next, advances⟩
  · rw [transfersDue, transfersDue, transfersOf, transfers, threads]
    rfl
  · rw [transfersDue, transfersDue, transfersOf, transfers, threads]
    rfl
  · rw [transfersDue, transfersDue, advances.threads]
    exact add_total_update _ _ (advances.transfers size)

theorem chargesDue_step (s : RateSystem ι) (action : RateAction ι) (s' : RateSystem ι)
    (stepped : RateStep s action s') : chargesDue s' = chargesDue s + sizeAsked action := by
  rcases advances_step stepped with ⟨⟨_, rfl⟩ | ⟨_, rfl⟩, threads, calls, -⟩ | ⟨t, next, advances⟩
  · rw [chargesDue, chargesDue, threads, calls, sizeAsked, add_zero]
  · rw [chargesDue, chargesDue, threads, calls, sizeAsked, add_zero]
  · rw [chargesDue, chargesDue, advances.threads]
    exact add_total_update _ _ advances.charges

/-- The limiter is charged for no more than has been asked for. -/
theorem callsSize_le {rate : ℚ} {rate_pos : 0 < rate} {start : ℚ} {actions : List (RateAction ι)}
    (ran : Run RateStep (initialRateSystem ι rate rate_pos start) actions s) :
    callsSize s.calls ≤ requestedSize actions := by
  have due := ran.accrued chargesDue_step
  have none : chargesDue (initialRateSystem ι rate rate_pos start) = 0 := by
    simp [chargesDue, initialRateSystem, callsSize, total, uncharged]
  rw [none, zero_add] at due
  rw [requestedSize, ← due]
  exact le_self_add

end

/-! ## How long a thread sleeps -/

theorem truncated_nonpos {x : ℚ} (nonpos : x ≤ 0) : truncated x ≤ 0 := by
  unfold truncated
  split
  · exact Int.ceil_le.mpr (by exact_mod_cast nonpos)
  · have whole := Int.floor_mono nonpos
    rwa [Int.floor_zero] at whole

/-- A negative time is no sleep: the seconds are negative, or both parts are clamped to zero. -/
theorem sleepSeconds_of_neg {s : ℚ} (negative : s < 0) : sleepSeconds s = 0 := by
  have seconds := truncated_nonpos negative.le
  unfold sleepSeconds sleepTimespec
  dsimp only
  by_cases refused : truncated s < 0
  · rw [if_pos refused]
  · have zero : truncated s = 0 := le_antisymm seconds (not_lt.mp refused)
    have part := truncated_nonpos (x := (s - (0 : Int)) * 1000000000) (by push_cast; linarith)
    rw [if_neg refused, zero]
    split
    · omega
    · split
      · simp
      · have none : truncated ((s - (0 : Int)) * 1000000000) = 0 := le_antisymm part (not_lt.mp ‹_›)
        rw [none]
        simp

theorem sleepSeconds_le (s : ℚ) : sleepSeconds s ≤ max 0 s := by
  by_cases negative : s < 0
  · rw [sleepSeconds_of_neg negative]
    exact le_max_left 0 s
  · rw [not_lt] at negative
    have whole : ¬ ⌊s⌋ < 0 := not_lt.mpr (Int.floor_nonneg.mpr negative)
    have part := Int.floor_le ((s - ⌊s⌋) * 1000000000)
    unfold sleepSeconds
    rw [sleepTimespec_of_nonneg negative, max_eq_right negative]
    simp only [if_neg whole]
    linarith

/-- A call adds its own size to the account, and time only takes from it. -/
theorem wait_le (limiter : RateLimiter) (size : ℚ≥0) (now : ℚ)
    (credit : rateLimiterIdleCredit ≤ limiter.accumulated_sleep_time) :
    rateLimiterIdleCredit ≤ (rateLimiterWaitNosleep limiter size now).1 ∧
      (rateLimiterWaitNosleep limiter size now).1 ≤ limiter.accumulated_sleep_time + size / limiter.rate := by
  have added : 0 ≤ (size : ℚ) / limiter.rate := div_nonneg size.cast_nonneg limiter.rate_pos.le
  unfold rateLimiterWaitNosleep
  dsimp only
  split <;> split <;> constructor <;> linarith

theorem rateLimiterWaits_le {limiter : RateLimiter} {calls : List RateRequest}
    (credit : rateLimiterIdleCredit ≤ limiter.accumulated_sleep_time) :
    ∀ wait ∈ rateLimiterWaits limiter calls,
      wait ≤ limiter.accumulated_sleep_time + callsSize calls / limiter.rate := by
  induction calls generalizing limiter with
  | nil => nofun
  | cons call rest ih =>
    obtain ⟨credit', first⟩ := wait_le limiter call.size call.now credit
    have rest_nonneg : 0 ≤ (callsSize rest : ℚ) / limiter.rate :=
      div_nonneg (callsSize rest).cast_nonneg limiter.rate_pos.le
    have sizes : (callsSize (call :: rest) : ℚ) / limiter.rate =
        call.size / limiter.rate + callsSize rest / limiter.rate := by
      rw [callsSize, List.map_cons, List.sum_cons, NNRat.cast_add, add_div]
      rfl
    intro wait member
    rw [sizes]
    rcases List.mem_cons.mp member with rfl | later
    · linarith
    · have bound := ih credit' wait later
      rw [rate_wait] at bound
      have stored : (rateLimiterWaitNosleep limiter call.size call.now).2.accumulated_sleep_time =
          (rateLimiterWaitNosleep limiter call.size call.now).1 := rfl
      linarith

section
variable {ι : Type} {initial : RateLimiter} {s s' : RateSystem ι}

/-- No sleep lasts longer than the rate allows what the limiter has been charged for. -/
def Timely (initial : RateLimiter) (s : RateSystem ι) : Prop :=
  ∀ t size call wake, s.threads t = .sleeping size call wake →
    wake ≤ s.time + callsSize s.calls / initial.rate

theorem returned_le (credit : initial.accumulated_sleep_time = rateLimiterIdleCredit)
    (accounted : Accounted initial s) {t : ι} {size : ℚ≥0} {call : Nat} {timeToSleep : ℚ}
    (stands : s.threads t = .returned size call timeToSleep) :
    timeToSleep ≤ callsSize s.calls / initial.rate := by
  have waited := (accounted.threads_at stands).1
  have bound := rateLimiterWaits_le credit.ge timeToSleep (List.mem_of_getElem? waited)
  have spent : rateLimiterIdleCredit ≤ 0 := by decide +kernel
  linarith

variable [DecidableEq ι] {action : RateAction ι}

theorem Timely.moved (timely : Timely initial s) {t : ι} {next : RateThread}
    (threads : s'.threads = Function.update s.threads t next) (time : s'.time = s.time)
    (more : callsSize s.calls ≤ callsSize s'.calls)
    (fresh : ∀ size call wake, next = .sleeping size call wake →
      wake ≤ s.time + callsSize s.calls / initial.rate) : Timely initial s' := by
  have sizes : (callsSize s.calls : ℚ) / initial.rate ≤ callsSize s'.calls / initial.rate := by
    have casted : (callsSize s.calls : ℚ) ≤ callsSize s'.calls := by exact_mod_cast more
    exact div_le_div_of_nonneg_right casted initial.rate_pos.le
  intro other size call wake stands
  rw [threads] at stands
  rw [time]
  by_cases self : other = t
  · rw [self, Function.update_self] at stands
    have inTime := fresh size call wake stands
    linarith
  · rw [Function.update_of_ne self] at stands
    have inTime := timely other size call wake stands
    linarith

theorem timely_step (credit : initial.accumulated_sleep_time = rateLimiterIdleCredit)
    (accounted : Accounted initial s) (timely : Timely initial s) (stepped : RateStep s action s') :
    Timely initial s' := by
  cases stepped with
  | tick elapsed =>
    intro t size call wake stands
    have inTime := timely t size call wake stands
    have later : (0 : ℚ) ≤ elapsed := elapsed.cast_nonneg
    dsimp only
    linarith
  | set shift => exact timely
  | @slept t size call timeToSleep stands _ =>
    refine timely.moved rfl rfl le_rfl fun size call wake sleeps => ?_
    cases sleeps
    have slept := sleepSeconds_le timeToSleep
    have told := returned_le credit accounted stands
    have nonneg : 0 ≤ (callsSize s.calls : ℚ) / initial.rate :=
      div_nonneg (callsSize s.calls).cast_nonneg initial.rate_pos.le
    have most := max_le nonneg told
    linarith
  | storedTime stands =>
    refine timely.moved rfl rfl ?_ nofun
    rw [RateSystem.moved, callsSize_append]
    exact le_self_add
  | request _ stands | locked stands | timed stands | computed stands | storedSleep stands | unlocked stands
  | unfit stands | woke stands | interrupted stands | transferred stands =>
    exact timely.moved rfl rfl le_rfl nofun

theorem timely_of_run {rate : ℚ} {rate_pos : 0 < rate} {start : ℚ} {actions : List (RateAction ι)}
    (ran : Run RateStep (initialRateSystem ι rate rate_pos start) actions s) :
    Timely (rateLimiterInit rate rate_pos start) s := by
  have both : RateInvariant (rateLimiterInit rate rate_pos start) s ∧
      Timely (rateLimiterInit rate rate_pos start) s := by
    apply ran.invariant (fun _ => True) (fun s => RateInvariant (rateLimiterInit rate rate_pos start) s ∧
      Timely (rateLimiterInit rate rate_pos start) s) (fun _ _ => trivial)
    · exact ⟨rateInvariant_initial rate rate_pos start, nofun⟩
    · intro before action after _ ⟨inv, timely⟩ stepped
      exact ⟨rateInvariant_step inv stepped, timely_step rfl inv.accounted timely stepped⟩
  exact both.2

end

/-! ## Nobody waits for ever -/

/-- How many steps a thread has to make until it sleeps or is idle. -/
def stepsToRest : RateThread → Nat
  | .idle | .sleeping _ _ _ => 0
  | .awake _ _ _ => 1
  | .returned _ _ _ => 2
  | .unlocking _ _ _ => 3
  | .storing _ _ _ => 4
  | .computed _ _ _ => 5
  | .timed _ _ => 6
  | .locked _ => 7
  | .wantsLock _ => 8

/-- The thread is idle, or awake, or its sleep is over. -/
def Due (time : ℚ) : RateThread → Prop
  | .idle | .awake _ _ _ => True
  | .sleeping _ _ wake => wake ≤ time
  | .wantsLock _ | .locked _ | .timed _ _ | .computed _ _ _ | .storing _ _ _ | .unlocking _ _ _
  | .returned _ _ _ => False

section
variable {ι : Type} [DecidableEq ι] {s s' : RateSystem ι}

/-- Some thread can come closer to its rest, at once. -/
def CanRest (s : RateSystem ι) : Prop :=
  ∃ t next s', RateStep s (.proceed t) s' ∧ s'.threads = Function.update s.threads t next ∧
    s'.time = s.time ∧ stepsToRest next < stepsToRest (s.threads t)

theorem canRest_of_step {t : ι} {state next : RateThread} (stands : s.threads t = state)
    (stepped : RateStep s (.proceed t) s') (threads : s'.threads = Function.update s.threads t next)
    (time : s'.time = s.time) (less : stepsToRest next < stepsToRest state) : CanRest s :=
  ⟨t, next, s', stepped, threads, time, stands ▸ less⟩

theorem canRest_inside {t : ι} (inside : (s.threads t).section ≠ .outside) : CanRest s := by
  cases stands : s.threads t with
  | idle | wantsLock | returned | sleeping | awake =>
    rw [stands] at inside
    exact absurd rfl inside
  | locked => exact canRest_of_step stands (.timed stands) rfl rfl (Nat.lt_succ_self _)
  | timed => exact canRest_of_step stands (.computed stands) rfl rfl (Nat.lt_succ_self _)
  | computed => exact canRest_of_step stands (.storedSleep stands) rfl rfl (Nat.lt_succ_self _)
  | storing => exact canRest_of_step stands (.storedTime stands) rfl rfl (Nat.lt_succ_self _)
  | unlocking => exact canRest_of_step stands (.unlocked stands) rfl rfl (Nat.lt_succ_self _)

/-- A thread that waits for the mutex waits for one that can go on. -/
theorem canRest (held : MutexHeld s) {t : ι} (restless : stepsToRest (s.threads t) ≠ 0) : CanRest s := by
  by_cases inside : ∃ other, (s.threads other).section ≠ .outside
  · obtain ⟨other, inside⟩ := inside
    exact canRest_inside inside
  · have free := Agrees.free_of_outside held fun other => by_contra fun within => inside ⟨other, within⟩
    cases stands : s.threads t with
    | idle | sleeping =>
      rw [stands] at restless
      exact absurd rfl restless
    | wantsLock =>
      have granted : s.mutex.lockWrite t = some (.writer t) := by rw [free]; rfl
      exact canRest_of_step stands (.locked stands granted) rfl rfl (Nat.lt_succ_self _)
    | returned size call timeToSleep =>
      by_cases fits : timeToSleep < 2 ^ 63
      · exact canRest_of_step stands (.slept stands fits) rfl rfl (Nat.succ_pos 1)
      · exact canRest_of_step stands (.unfit stands (not_lt.mp fits)) rfl rfl (Nat.lt_succ_self _)
    | awake => exact canRest_of_step stands (.transferred stands) rfl rfl (Nat.lt_succ_self _)
    | locked | timed | computed | storing | unlocking => exact absurd ⟨t, by rw [stands]; nofun⟩ inside

variable [Fintype ι] {rate : ℚ} {rate_pos : 0 < rate} {start : ℚ} {actions : List (RateAction ι)}

/-- Without any time passing, every thread can be done or asleep. -/
theorem rests_of_run (ran : Run RateStep (initialRateSystem ι rate rate_pos start) actions s) :
    ∃ before s₁, Run RateStep s before s₁ ∧ (∀ action ∈ before, ∃ t, action = .proceed t) ∧
      (MutexHeld s₁ ∧ s₁.time = s.time) ∧ total stepsToRest s₁.threads = 0 := by
  apply Run.completes (fun s₁ => MutexHeld s₁ ∧ s₁.time = s.time) _ _ ⟨(rateInvariant_of_run ran).held, rfl⟩
  rintro s₁ ⟨held, time⟩ some_left
  have restless : ∃ t, stepsToRest (s₁.threads t) ≠ 0 := by
    by_contra none_restless
    have nothing := (total_eq_zero_iff stepsToRest s₁.threads).mpr fun t =>
      by_contra fun restless => none_restless ⟨t, restless⟩
    omega
  obtain ⟨t₀, restless⟩ := restless
  obtain ⟨t, next, s₂, stepped, threads, same, less⟩ := canRest held restless
  have sums := total_update stepsToRest s₁.threads t next
  refine ⟨[.proceed t], s₂, .next stepped (.done s₂), ?_,
    ⟨mutexHeld_step held stepped, same.trans time⟩, ?_⟩
  · intro action member
    exact ⟨t, List.mem_singleton.mp member⟩
  · rw [threads]
    omega

/-- Threads whose sleeps are over can all be done at once. -/
theorem done_of_due (due : ∀ t, Due s.time (s.threads t)) :
    ∃ after s', Run RateStep s after s' ∧ (∀ action ∈ after, ∃ t, action = .proceed t) ∧
      (∀ t, Due s'.time (s'.threads t)) ∧ workLeft s' = 0 := by
  apply Run.completes (fun s : RateSystem ι => ∀ t, Due s.time (s.threads t)) _ _ due
  intro s due some_left
  have busy : ∃ t, s.threads t ≠ .idle := by
    by_contra none_busy
    have nothing := (workLeft_eq_zero s).mpr fun t => by_contra fun busy => none_busy ⟨t, busy⟩
    omega
  obtain ⟨t, busy⟩ := busy
  have continues : ∃ next s', RateStep s (.proceed t) s' ∧ s'.threads = Function.update s.threads t next ∧
      s'.time = s.time ∧ Due s.time next := by
    have mine := due t
    cases stands : s.threads t with
    | idle => exact absurd stands busy
    | awake => exact ⟨_, _, .transferred stands, rfl, rfl, trivial⟩
    | sleeping =>
      rw [stands] at mine
      exact ⟨_, _, .woke stands mine, rfl, rfl, trivial⟩
    | wantsLock | locked | timed | computed | storing | unlocking | returned =>
      rw [stands] at mine
      cases mine
  obtain ⟨next, s', stepped, threads, time, due'⟩ := continues
  have less := workLeft_step s (.proceed t) s' stepped
  refine ⟨[.proceed t], s', .next stepped (.done s'), ?_, fun other => ?_, less⟩
  · intro action member
    exact ⟨t, List.mem_singleton.mp member⟩
  · rw [threads, time]
    by_cases self : other = t
    · rw [self, Function.update_self]
      exact due'
    · rw [Function.update_of_ne self]
      exact due other

end

section
variable {ι : Type} {actions : List (RateAction ι)}

theorem requestedSize_of_proceeds (own : ∀ action ∈ actions, ∃ t, action = .proceed t) :
    requestedSize actions = 0 := by
  apply List.sum_eq_zero
  intro size member
  obtain ⟨action, among, rfl⟩ := List.mem_map.mp member
  obtain ⟨t, rfl⟩ := own action among
  rfl

theorem countP_requests_of_proceeds (size : ℚ≥0) (own : ∀ action ∈ actions, ∃ t, action = .proceed t) :
    actions.countP (requests size) = 0 := by
  rw [List.countP_eq_zero]
  intro action member
  obtain ⟨t, rfl⟩ := own action member
  nofun

theorem due_of_resting [Fintype ι] {initial : RateLimiter} {s : RateSystem ι} (timely : Timely initial s)
    (resting : total stepsToRest s.threads = 0) {time : ℚ}
    (passed : s.time + callsSize s.calls / initial.rate ≤ time) (t : ι) : Due time (s.threads t) := by
  have rests := (total_eq_zero_iff stepsToRest s.threads).mp resting t
  cases stands : s.threads t with
  | idle | awake => trivial
  | sleeping size call wake => exact (timely t size call wake stands).trans passed
  | wantsLock | locked | timed | computed | storing | unlocking | returned =>
    rw [stands] at rests
    cases rests

end

/-- However the threads have interleaved and the clock was set, they have made at most nine steps for
each request. From there they can make all the transfers that have been asked for, and each of them
once, in the time that the rate allows for what was asked for since the limiter was set up, with no
other time spent and no signal needed. -/
theorem every_transfer_made {ι : Type} [DecidableEq ι] [Fintype ι] (rate : ℚ) (rate_pos : 0 < rate) (start : ℚ)
    {actions : List (RateAction ι)} {s : RateSystem ι}
    (ran : Run RateStep (initialRateSystem ι rate rate_pos start) actions s) :
    actions.countP isStep ≤ 9 * actions.countP isRequest ∧
      ∃ (elapsed : ℚ≥0) (before after : List (RateAction ι)) (s' : RateSystem ι),
        elapsed * rate = requestedSize actions ∧
        Run RateStep s (before ++ .tick elapsed :: after) s' ∧
        (∀ action ∈ before ++ after, ∃ t, action = .proceed t) ∧ (∀ t, s'.threads t = .idle) ∧
        ∀ size, (s'.transfers.countP fun transfer => transfer.size = size) =
          actions.countP (requests size) := by
  have initially : ∀ t, (initialRateSystem ι rate rate_pos start).threads t = .idle := fun _ => rfl
  constructor
  · have work := ran.work_le workLeft_step
    rw [(workLeft_eq_zero _).mpr initially] at work
    omega
  · obtain ⟨before, s₁, ran₁, own₁, -, resting⟩ := rests_of_run ran
    obtain ⟨elapsed, allowed⟩ : ∃ elapsed : ℚ≥0, (elapsed : ℚ) = requestedSize actions / rate :=
      ⟨⟨requestedSize actions / rate, div_nonneg (requestedSize actions).cast_nonneg rate_pos.le⟩, rfl⟩
    -- nothing was asked for on the way to rest, so the sleeps are over after this time
    have charged := callsSize_le (ran.append ran₁)
    rw [requestedSize, List.map_append, List.sum_append] at charged
    change _ ≤ requestedSize actions + requestedSize before at charged
    rw [requestedSize_of_proceeds own₁, add_zero] at charged
    have passed : s₁.time + callsSize s₁.calls / rate ≤ s₁.time + elapsed := by
      have casted : (callsSize s₁.calls : ℚ) ≤ requestedSize actions := by exact_mod_cast charged
      have sizes := div_le_div_of_nonneg_right casted rate_pos.le
      linarith
    have due := due_of_resting (timely_of_run (ran.append ran₁)) resting passed
    obtain ⟨after, s', ran₂, own₂, -, ended⟩ := done_of_due
      (s := { s₁ with time := s₁.time + elapsed, clock := s₁.clock + elapsed }) due
    have idle := (workLeft_eq_zero s').mp ended
    have whole := ran₁.append (.next (.tick s₁ elapsed) ran₂)
    refine ⟨elapsed, before, after, s', ?_, whole, ?_, idle, fun size => ?_⟩
    · rw [allowed, div_mul_cancel₀ _ rate_pos.ne']
    · intro action member
      rcases List.mem_append.mp member with early | late
      · exact own₁ action early
      · exact own₂ action late
    · have counted := (ran.append whole).counted (transfersDue_step size)
      rw [transfersDue_of_idle size idle, transfersDue_of_idle size initially, List.countP_append,
        List.countP_append, List.countP_cons, countP_requests_of_proceeds size own₁,
        countP_requests_of_proceeds size own₂] at counted
      change transfersOf size s' = _
      rw [counted]
      simp [transfersOf, initialRateSystem, requests]

theorem every_transfer_made_of_one_thread : ∃ (s : RateSystem Unit) (actions : List (RateAction Unit)),
    Run RateStep (initialRateSystem Unit 10 (by norm_num) 0) actions s ∧ requestedSize actions = 30 ∧
      ∃ (elapsed : ℚ≥0) (rest : List (RateAction Unit)) (s' : RateSystem Unit), (elapsed : ℚ) * 10 = 30 ∧
        Run RateStep s rest s' ∧ (∀ t, s'.threads t = .idle) ∧
        (s'.transfers.countP fun transfer => transfer.size = 30) = 1 := by
  have ran : Run RateStep (initialRateSystem Unit 10 (by norm_num) 0) [.request () 30] _ :=
    .next (.request _ rfl) (.done _)
  have asked : requestedSize [RateAction.request () 30] = 30 := by simp [requestedSize, sizeAsked]
  obtain ⟨-, elapsed, before, after, s', time, ran', -, idle, counted⟩ :=
    every_transfer_made 10 (by norm_num) 0 ran
  rw [asked] at time
  exact ⟨_, _, ran, asked, elapsed, _, s', time, ran', idle, counted 30⟩

end Bindfs.Guarantees.RateLimitProgress
