import Mathlib.Data.Rat.Floor
import ReactNativeWindows.Collections.Heaps

/-! Timers: the queue of those that are due some time, and what makes the next tick. Times and spans
are counted in units of 100 nanoseconds, by 64-bit numbers that wrap around. -/
namespace ReactNative.Timers

open Collections

def millisecond : Int64 := 10000

def msFrom1601to1970 : ℚ := 11644473600000

def IsAnimationFrameRequest (period : Int64) (repeats : Bool) : Prop :=
  repeats = false ∧ period = millisecond

instance (period : Int64) (repeats : Bool) : Decidable (IsAnimationFrameRequest period repeats) :=
  inferInstanceAs (Decidable (_ ∧ _))

structure Timer where
  id : ℕ
  targetTime : Int64
  period : Int64
  repeats : Bool

def Timer.Earlier (first second : Timer) : Prop := first.targetTime ≤ second.targetTime

/-- A number without its fraction. -/
def truncate (ms : ℚ) : ℤ := if 0 ≤ ms then ⌊ms⌋ else ⌈ms⌉

/-- What the standard library and the processor bring: heaps of timers, the rounding of sums, and the
conversion of a number to 64 bits, which leaves out its fraction where the rest fits. -/
structure Platform where
  heaps : HeapFunctions Timer.Earlier
  round : ℚ → ℚ
  toInt64 : ℚ → Int64
  toInt_toInt64 : ∀ ms, -2 ^ 63 ≤ truncate ms → truncate ms < 2 ^ 63 → (toInt64 ms).toInt = truncate ms

variable (platform : Platform)

def TimeSpanFromMs (ms : ℚ) : Int64 := platform.toInt64 ms * millisecond

structure TimerQueue where
  m_timerVector : List Timer
  isHeap : platform.heaps.IsHeap m_timerVector

namespace TimerQueue

variable {platform} (queue : TimerQueue platform)

def push (id : ℕ) (targetTime period : Int64) (repeats : Bool) : TimerQueue platform :=
  ⟨platform.heaps.push queue.m_timerVector ⟨id, targetTime, period, repeats⟩,
    platform.heaps.isHeap_push _ _ queue.isHeap⟩

def remove (id : ℕ) : TimerQueue platform :=
  ⟨platform.heaps.make (queue.m_timerVector.eraseP fun timer => timer.id = id),
    platform.heaps.isHeap_make _⟩

def front? : Option Timer := queue.m_timerVector.head?

def isEmpty : Bool := queue.m_timerVector.isEmpty

def pop : TimerQueue platform :=
  match queue with
  | ⟨[], h⟩ => ⟨[], h⟩
  | ⟨timer :: timers, h⟩ => ⟨platform.heaps.pop (timer :: timers), platform.heaps.isHeap_pop _ _ h⟩

end TimerQueue

/-- The dispatcher timer is due at some time, which the clock need not have, unless it is stopped. -/
structure DispatcherTimer where
  due : Option ℤ

structure Timing where
  m_timerQueue : TimerQueue platform
  m_dispatcherQueueTimer : Option DispatcherTimer
  m_usingRendering : Bool
  /-- The render callbacks that are posted. -/
  posted : ℕ
  /-- The timers that were called, newest first. -/
  called : List (List ℕ)
  now : Int64

namespace Timing

variable {platform} (s : Timing platform)

def stopDispatcherTimer : Timing platform :=
  { s with m_dispatcherQueueTimer := s.m_dispatcherQueueTimer.map fun _ => ⟨none⟩ }

def postRenderFrame : Timing platform :=
  { s with m_usingRendering := true, posted := s.posted + 1 }

def startRendering : Timing platform := s.stopDispatcherTimer.postRenderFrame

/-- The dispatcher timer is to tick when the first timer is due, or at once. -/
def startDispatcherTimer : Timing platform :=
  match s.m_timerQueue.front? with
  | none => s
  | some nextTimer =>
    let interval := max (nextTimer.targetTime - s.now) 0
    { s with
      m_usingRendering := false
      m_dispatcherQueueTimer := some ⟨some (s.now.toInt + interval.toInt)⟩ }

def stopTicks : Timing platform := { s.stopDispatcherTimer with m_usingRendering := false }

def callTimers (ids : List ℕ) : Timing platform := { s with called := ids :: s.called }

structure Ready (platform : Platform) where
  queue : TimerQueue platform
  readyTimers : List ℕ
  emittedAnimationFrame : Bool

/-- Takes the timers that are due off the queue, and puts those that repeat back onto it. -/
def popReady (now : Int64) : ℕ → Ready platform → Option (Ready platform)
  | 0, _ => none
  | fuel + 1, ready =>
    match ready.queue.front? with
    | none => some ready
    | some next =>
      if next.targetTime < now then
        let queue := ready.queue.pop
        let readyTimers := ready.readyTimers ++ [next.id]
        if next.repeats then
          popReady now fuel
            ⟨queue.push next.id (now + next.period) next.period true, readyTimers,
              ready.emittedAnimationFrame⟩
        else
          popReady now fuel ⟨queue, readyTimers,
            ready.emittedAnimationFrame || decide (IsAnimationFrameRequest next.period next.repeats)⟩
      else some ready

def setUpNext (emittedAnimationFrame : Bool) : Timing platform :=
  if s.m_timerQueue.isEmpty then s.stopTicks
  else if s.m_usingRendering ∧ emittedAnimationFrame then s.postRenderFrame
  else if ¬s.m_usingRendering ∨ ¬emittedAnimationFrame then s.startDispatcherTimer
  else s

/-- A tick. It is later when the next one is set up. -/
def onTick (fuel : ℕ) (later : Int64) : Option (Timing platform) :=
  (popReady s.now fuel ⟨s.m_timerQueue, [], false⟩).map fun ready =>
    let s := { s with m_timerQueue := ready.queue, now := later }
    let s := s.setUpNext ready.emittedAnimationFrame
    if ready.readyTimers = [] then s else s.callTimers ready.readyTimers

variable (platform) in
def initialTargetTime (duration jsSchedulingTime : ℚ) : Int64 :=
  let scheduledTime := TimeSpanFromMs platform (platform.round (jsSchedulingTime + msFrom1601to1970))
  scheduledTime + TimeSpanFromMs platform duration

def createTimerOnQueue (id : ℕ) (duration jsSchedulingTime : ℚ) (repeats : Bool) : Timing platform :=
  if duration = 0 ∧ repeats = false then s.callTimers [id]
  else
    let period := TimeSpanFromMs platform duration
    let initialTargetTime := initialTargetTime platform duration jsSchedulingTime
    let s := { s with m_timerQueue := s.m_timerQueue.push id initialTargetTime period repeats }
    if s.m_usingRendering then s
    else if IsAnimationFrameRequest period repeats then s.startRendering
    else if ∃ front ∈ s.m_timerQueue.front?, initialTargetTime ≤ front.targetTime then
      s.startDispatcherTimer
    else s

def deleteTimerOnQueue (id : ℕ) : Timing platform :=
  let s := { s with m_timerQueue := s.m_timerQueue.remove id }
  if s.m_timerQueue.isEmpty then s.stopTicks else s

def initial (now : Int64) : Timing platform :=
  ⟨⟨[], platform.heaps.isHeap_nil⟩, none, false, 0, [], now⟩

/-- What the UI queue runs, one after the other, while time goes by, for timers that `accepts` allows. A
tick may come when the timer is stopped, and it may be started again by a tick, as it repeats. -/
inductive Run (accepts : Timing platform → ℕ → ℚ → ℚ → Bool → Prop) (s : Timing platform) :
    Timing platform → Prop
  | start : Run accepts s s
  | createTimer {t : Timing platform} (prior : Run accepts s t) {id : ℕ}
      {duration jsSchedulingTime : ℚ} {repeats : Bool}
      (accepted : accepts t id duration jsSchedulingTime repeats) :
      Run accepts s (t.createTimerOnQueue id duration jsSchedulingTime repeats)
  | deleteTimer {t : Timing platform} (prior : Run accepts s t) (id : ℕ) :
      Run accepts s (t.deleteTimerOnQueue id)
  | tick {t u : Timing platform} (prior : Run accepts s t) {fuel : ℕ} {later : Int64}
      (passes : t.now ≤ later) {timer : DispatcherTimer}
      (created : t.m_dispatcherQueueTimer = some timer) (next : DispatcherTimer)
      (ticks : { t with m_dispatcherQueueTimer := some next }.onTick fuel later = some u) :
      Run accepts s u
  | render {t u : Timing platform} (prior : Run accepts s t) {fuel rest : ℕ} {later : Int64}
      (passes : t.now ≤ later) (pending : t.posted = rest + 1)
      (ticks : { t with posted := rest, m_usingRendering := false }.onTick fuel later = some u) :
      Run accepts s u
  | elapse {t : Timing platform} (prior : Run accepts s t) {later : Int64} (passes : t.now ≤ later) :
      Run accepts s { t with now := later }

/-- A tick is to come no later than the first timer is due, and none without timers. While the
rendering source is in use, one of its callbacks is posted. -/
structure Armed (s : Timing platform) : Prop where
  rendering : s.m_usingRendering = true → 0 < s.posted
  armed : ∀ front, s.m_timerQueue.front? = some front →
    0 < s.posted ∨ ∃ due, s.m_dispatcherQueueTimer = some ⟨some due⟩ ∧
      due ≤ max front.targetTime.toInt s.now.toInt
  stopped : s.m_timerQueue.front? = none →
    ∀ timer, s.m_dispatcherQueueTimer = some timer → timer.due = none

variable {s t : Timing platform}

theorem stopTicks_armed (h : s.m_timerQueue.front? = none) : s.stopTicks.Armed where
  rendering hUsing := by cases hUsing
  armed front hFront := by
    have hSame : s.m_timerQueue.front? = some front := hFront
    rw [h] at hSame
    cases hSame
  stopped _ timer hTimer := by
    obtain ⟨old, -, rfl⟩ := Option.map_eq_some_iff.mp hTimer
    rfl

theorem postRenderFrame_armed (h : s.m_timerQueue.front? ≠ none) : s.postRenderFrame.Armed where
  rendering _ := Nat.succ_pos _
  armed _ _ := .inl (Nat.succ_pos _)
  stopped hNone := absurd hNone h

/-- The time less the current one is not out of range below. -/
def InReach (now targetTime : Int64) : Prop := -2 ^ 63 ≤ targetTime.toInt - now.toInt

instance (now targetTime : Int64) : Decidable (InReach now targetTime) :=
  inferInstanceAs (Decidable (_ ≤ _))

theorem inReach_of_nonneg {now targetTime : Int64} (h : 0 ≤ targetTime.toInt) :
    InReach now targetTime := by
  have hBound := now.toInt_lt
  rw [InReach]
  omega

/-- The interval to a time wraps around only if the time is out of reach. -/
theorem interval_le {now targetTime : Int64} (h : InReach now targetTime) :
    now.toInt + (max (targetTime - now) 0).toInt ≤ max targetTime.toInt now.toInt := by
  have hTarget := targetTime.toInt_lt
  have hNow := now.le_toInt
  have hSub : (targetTime - now).toInt = (targetTime.toInt - now.toInt).bmod (2 ^ 64) :=
    Int64.toInt_sub targetTime now
  have hMax : (max (targetTime - now) 0).toInt = max (targetTime - now).toInt 0 := by
    rw [show max (targetTime - now) 0 = if targetTime - now ≤ 0 then 0 else targetTime - now from rfl]
    split
    next hLe =>
      have hZero : (targetTime - now).toInt ≤ 0 := Int64.le_iff_toInt_le.mp hLe
      exact (max_eq_right hZero).symm
    next hGt =>
      have hZero : ¬(targetTime - now).toInt ≤ 0 := fun hLe => hGt (Int64.le_iff_toInt_le.mpr hLe)
      exact (max_eq_left (by omega)).symm
  rw [InReach] at h
  rw [hMax, hSub, Int.bmod_def]
  split <;> omega

theorem startDispatcherTimer_armed (h : s.m_timerQueue.front? ≠ none)
    (hReach : ∀ front, s.m_timerQueue.front? = some front → InReach s.now front.targetTime) :
    s.startDispatcherTimer.Armed := by
  rw [startDispatcherTimer]
  cases hFront : s.m_timerQueue.front? with
  | none => exact absurd hFront h
  | some nextTimer =>
    constructor
    · intro hUsing
      cases hUsing
    · intro front hSame
      have hOther : s.m_timerQueue.front? = some front := hSame
      rw [hFront] at hOther
      cases hOther
      exact .inr ⟨_, rfl, interval_le (hReach nextTimer hFront)⟩
    · intro hNone
      exact absurd hNone h

theorem callTimers_armed {ids : List ℕ} (h : s.Armed) : (s.callTimers ids).Armed :=
  ⟨h.rendering, h.armed, h.stopped⟩

variable {queue : TimerQueue platform}

theorem isEmpty_eq_true : queue.isEmpty = true ↔ queue.front? = none := by
  rw [TimerQueue.isEmpty, TimerQueue.front?, List.isEmpty_iff, List.head?_eq_none_iff]

theorem setUpNext_armed
    (hReach : ∀ front, s.m_timerQueue.front? = some front → InReach s.now front.targetTime)
    (emittedAnimationFrame : Bool) : (s.setUpNext emittedAnimationFrame).Armed := by
  rw [setUpNext]
  split
  · rename_i hEmpty
    exact stopTicks_armed (isEmpty_eq_true.mp hEmpty)
  rename_i hEmpty
  have hFront : s.m_timerQueue.front? ≠ none := fun hNone => hEmpty (isEmpty_eq_true.mpr hNone)
  split
  · exact postRenderFrame_armed hFront
  split
  · exact startDispatcherTimer_armed hFront hReach
  · rename_i hOne hTwo
    exact absurd (not_and_or.mp hOne) hTwo

/-- The loop ends when the front is not due. -/
theorem popReady_front {now : Int64} {fuel : ℕ} {ready result : Ready platform}
    (hResult : popReady now fuel ready = some result) {front : Timer}
    (hFront : result.queue.front? = some front) : now.toInt ≤ front.targetTime.toInt := by
  induction fuel generalizing ready with
  | zero => cases hResult
  | succ fuel ih =>
    rw [popReady] at hResult
    split at hResult
    next hNone =>
      cases hResult
      rw [hNone] at hFront
      cases hFront
    next next hNext =>
      split at hResult
      next hDue =>
        dsimp only at hResult
        split at hResult
        · exact ih hResult
        · exact ih hResult
      next hNot =>
        cases hResult
        cases hNext.symm.trans hFront
        rw [Int64.lt_iff_toInt_lt] at hNot
        omega

/-- Whatever a tick finds, it sets up the next one. -/
theorem onTick_armed {fuel : ℕ} {later : Int64} (hNow : 0 ≤ s.now.toInt)
    (h : s.onTick fuel later = some t) : t.Armed := by
  obtain ⟨ready, hReady, rfl⟩ := Option.map_eq_some_iff.mp h
  have hReach (front : Timer) (hFront : ready.queue.front? = some front) :
      InReach later front.targetTime :=
    inReach_of_nonneg (hNow.trans (popReady_front hReady hFront))
  dsimp only
  split
  · exact setUpNext_armed hReach _
  · exact callTimers_armed (setUpNext_armed hReach _)

/-- The tick for the front is early enough for every other timer. -/
theorem Armed.armed_of_mem (h : s.Armed) {timer : Timer}
    (hMem : timer ∈ s.m_timerQueue.m_timerVector) :
    0 < s.posted ∨ ∃ due, s.m_dispatcherQueueTimer = some ⟨some due⟩ ∧
      due ≤ max timer.targetTime.toInt s.now.toInt := by
  cases hVector : s.m_timerQueue.m_timerVector with
  | nil =>
    rw [hVector] at hMem
    cases hMem
  | cons front others =>
    have hHeap : platform.heaps.IsHeap (front :: others) := hVector ▸ s.m_timerQueue.isHeap
    have hFirst : front.targetTime.toInt ≤ timer.targetTime.toInt :=
      Int64.le_iff_toInt_le.mp (platform.heaps.front_le front others hHeap timer (hVector ▸ hMem))
    have hHead : s.m_timerQueue.front? = some front := by rw [TimerQueue.front?, hVector]; rfl
    refine (h.armed front hHead).imp_right ?_
    rintro ⟨due, hTimer, hDue⟩
    exact ⟨due, hTimer, hDue.trans (max_le_max_right s.now.toInt hFirst)⟩

/-- The first timer is earlier than one that was just pushed, or as early. -/
theorem front_push_le {id : ℕ} {targetTime period : Int64} {repeats : Bool} {front : Timer}
    (h : (queue.push id targetTime period repeats).front? = some front) :
    front.targetTime.toInt ≤ targetTime.toInt := by
  obtain ⟨rest, hPush⟩ := List.head?_eq_some_iff.mp h
  have hHeap : platform.heaps.IsHeap (front :: rest) :=
    hPush ▸ (queue.push id targetTime period repeats).isHeap
  have hPerm := platform.heaps.push_perm queue.m_timerVector ⟨id, targetTime, period, repeats⟩
    queue.isHeap
  have hMem : ⟨id, targetTime, period, repeats⟩ ∈ front :: rest :=
    hPush ▸ hPerm.mem_iff.mpr List.mem_cons_self
  exact Int64.le_iff_toInt_le.mp (platform.heaps.front_le front rest hHeap _ hMem)

theorem createTimerOnQueue_armed (h : s.Armed) (id : ℕ) {duration jsSchedulingTime : ℚ}
    (repeats : Bool) (hReach : s.m_usingRendering = false →
      InReach s.now (initialTargetTime platform duration jsSchedulingTime)) :
    (s.createTimerOnQueue id duration jsSchedulingTime repeats).Armed := by
  rw [createTimerOnQueue]
  split
  · exact callTimers_armed h
  dsimp only
  generalize initialTargetTime platform duration jsSchedulingTime = targetTime at hReach ⊢
  generalize TimeSpanFromMs platform duration = period
  have hFront : (s.m_timerQueue.push id targetTime period repeats).front? ≠ none := by
    intro hNone
    exact platform.heaps.push_ne_nil s.m_timerQueue.isHeap (List.head?_eq_none_iff.mp hNone)
  split
  · rename_i hUsing
    exact ⟨h.rendering, fun _ _ => .inl (h.rendering hUsing), fun hNone => absurd hNone hFront⟩
  rename_i hUsing
  split
  · exact postRenderFrame_armed hFront
  split
  · rename_i hFirst
    refine startDispatcherTimer_armed hFront fun front hSome => ?_
    obtain ⟨first, hSame, hLe⟩ := hFirst
    cases hSame.symm.trans hSome
    have hBefore := Int64.le_iff_toInt_le.mp hLe
    have hAfter := front_push_le hSome
    have hNew := hReach (Bool.eq_false_iff.mpr hUsing)
    show -2 ^ 63 ≤ front.targetTime.toInt - s.now.toInt
    rw [InReach] at hNew
    omega
  rename_i hLater
  refine ⟨h.rendering, fun front hSome => ?_, fun hNone => absurd hNone hFront⟩
  -- the front is one that was there before, so the tick for it is set up
  have hBefore : ¬targetTime ≤ front.targetTime := fun hLe => hLater ⟨front, hSome, hLe⟩
  obtain ⟨rest, hPush⟩ := List.head?_eq_some_iff.mp hSome
  have hMem : front ∈ s.m_timerQueue.m_timerVector := by
    have hPerm := platform.heaps.push_perm s.m_timerQueue.m_timerVector
      ⟨id, targetTime, period, repeats⟩ s.m_timerQueue.isHeap
    rcases List.mem_cons.mp (hPerm.mem_iff.mp (hPush ▸ List.mem_cons_self)) with hNew | hOld
    · rw [hNew] at hBefore
      exact absurd (Int64.le_refl targetTime) hBefore
    · exact hOld
  exact h.armed_of_mem hMem

theorem deleteTimerOnQueue_armed (h : s.Armed) (id : ℕ) : (s.deleteTimerOnQueue id).Armed := by
  rw [deleteTimerOnQueue]
  dsimp only
  split
  · rename_i hEmpty
    exact stopTicks_armed (isEmpty_eq_true.mp hEmpty)
  rename_i hEmpty
  refine ⟨h.rendering, fun front hSome => ?_, fun hNone => absurd (isEmpty_eq_true.mpr hNone) hEmpty⟩
  -- what is left is due no earlier than the front was
  obtain ⟨rest, hMake⟩ := List.head?_eq_some_iff.mp hSome
  have hRemoved : front ∈ (s.m_timerQueue.remove id).m_timerVector := hMake ▸ List.mem_cons_self
  have hMem := (platform.heaps.make_perm _).mem_iff.mp hRemoved
  exact h.armed_of_mem (List.mem_of_mem_eraseP hMem)

/-- What `createTimer` is called for is in reach, unless the rendering source is in use. -/
def CreatesInReach (s : Timing platform) (_ : ℕ) (duration jsSchedulingTime : ℚ) (_ : Bool) : Prop :=
  s.m_usingRendering = false → InReach s.now (initialTargetTime platform duration jsSchedulingTime)

instance (s : Timing platform) (id : ℕ) (duration jsSchedulingTime : ℚ) (repeats : Bool) :
    Decidable (s.CreatesInReach id duration jsSchedulingTime repeats) :=
  inferInstanceAs (Decidable (_ → _))

theorem startDispatcherTimer_now : s.startDispatcherTimer.now = s.now := by
  rw [startDispatcherTimer]
  split <;> rfl

theorem onTick_now {fuel : ℕ} {later : Int64} (h : s.onTick fuel later = some t) : t.now = later := by
  obtain ⟨ready, -, rfl⟩ := Option.map_eq_some_iff.mp h
  have hSame (u : Timing platform) (emittedAnimationFrame : Bool) :
      (u.setUpNext emittedAnimationFrame).now = u.now := by
    rw [setUpNext]
    split_ifs
    · rfl
    · rfl
    · exact startDispatcherTimer_now
    · rfl
  dsimp only
  split
  · exact hSame _ _
  · exact hSame _ _

theorem createTimerOnQueue_now (id : ℕ) (duration jsSchedulingTime : ℚ) (repeats : Bool) :
    (s.createTimerOnQueue id duration jsSchedulingTime repeats).now = s.now := by
  rw [createTimerOnQueue]
  split
  · rfl
  dsimp only
  split_ifs
  · rfl
  · rfl
  · exact startDispatcherTimer_now
  · rfl

theorem deleteTimerOnQueue_now (id : ℕ) : (s.deleteTimerOnQueue id).now = s.now := by
  rw [deleteTimerOnQueue]
  dsimp only
  split <;> rfl

variable {accepts : Timing platform → ℕ → ℚ → ℚ → Bool → Prop}

/-- Time does not go backwards. -/
theorem Run.now_le (run : Run accepts s t) : s.now.toInt ≤ t.now.toInt := by
  induction run with
  | start => exact le_rfl
  | createTimer _ _ ih =>
    rw [createTimerOnQueue_now]
    exact ih
  | deleteTimer _ id ih =>
    rw [deleteTimerOnQueue_now]
    exact ih
  | tick _ passes _ _ hTick ih | render _ passes _ hTick ih =>
    rw [onTick_now hTick]
    exact ih.trans (Int64.le_iff_toInt_le.mp passes)
  | elapse _ passes ih => exact ih.trans (Int64.le_iff_toInt_le.mp passes)

theorem initial_armed (now : Int64) : (initial now : Timing platform).Armed where
  rendering hUsing := nomatch hUsing
  armed _ hFront := nomatch hFront
  stopped _ _ hTimer := nomatch hTimer

theorem Run.armed {now : Int64} (run : Run CreatesInReach (initial now) s) (hNow : 0 ≤ now) :
    s.Armed := by
  have hStart : 0 ≤ now.toInt := Int64.le_iff_toInt_le.mp hNow
  induction run with
  | start => exact initial_armed now
  | createTimer _ accepted ih => exact createTimerOnQueue_armed ih _ _ accepted
  | deleteTimer _ id ih => exact deleteTimerOnQueue_armed ih id
  | @tick t _ prior _ _ _ _ _ next hTick =>
    have hNow : 0 ≤ t.now.toInt := hStart.trans prior.now_le
    exact onTick_armed (s := { t with m_dispatcherQueueTimer := some next }) hNow hTick
  | @render t _ prior _ rest _ _ _ hTick =>
    have hNow : 0 ≤ t.now.toInt := hStart.trans prior.now_le
    exact onTick_armed (s := { t with posted := rest, m_usingRendering := false }) hNow hTick
  | elapse _ passes ih =>
    refine ⟨ih.rendering, fun front hFront => (ih.armed front hFront).imp_right ?_, ih.stopped⟩
    rintro ⟨due, hTimer, hDue⟩
    exact ⟨due, hTimer, hDue.trans (max_le_max_left _ (Int64.le_iff_toInt_le.mp passes))⟩

/-- Some source of ticks is set up for every timer in the queue, and the dispatcher timer is stopped when
there is none. -/
def TickSetUp (s : Timing platform) : Prop :=
  (∀ timer ∈ s.m_timerQueue.m_timerVector, 0 < s.posted ∨
    ∃ due, s.m_dispatcherQueueTimer = some ⟨some due⟩ ∧
      due ≤ max timer.targetTime.toInt s.now.toInt) ∧
  (s.m_timerQueue.m_timerVector = [] →
    ∀ timer, s.m_dispatcherQueueTimer = some timer → timer.due = none)

/-- After each step of a run that begins after 1601 and whose timers are in reach, the next tick is set
up. -/
theorem next_tick {now : Int64} (hNow : 0 ≤ now) (run : Run CreatesInReach (initial now) s) :
    s.TickSetUp :=
  ⟨fun _ hMem => (run.armed hNow).armed_of_mem hMem,
    fun hEmpty => (run.armed hNow).stopped (List.head?_eq_none_iff.mpr hEmpty)⟩

instance : DecidableRel Timer.Earlier := fun first second =>
  inferInstanceAs (Decidable (first.targetTime ≤ second.targetTime))

instance : IsTrans Timer Timer.Earlier := ⟨fun _ _ _ => Int64.le_trans⟩

instance : Std.Total Timer.Earlier :=
  ⟨fun first second => Int64.le_total first.targetTime second.targetTime⟩

def exactPlatform : Platform where
  heaps := HeapFunctions.sorted Timer.Earlier fun _ => Int64.le_refl _
  round := id
  toInt64 ms := Int64.ofInt (truncate ms)
  toInt_toInt64 _ := Int64.toInt_ofInt_of_le

/-- Noon of the first day of 2024, in milliseconds since 1970. -/
def noon : ℚ := 1704110400000

def noonNow : Int64 := 133485840000000000

def twoTimers : Timing exactPlatform :=
  ((initial noonNow).createTimerOnQueue 7 20 noon false).createTimerOnQueue 8 10 noon true

theorem twoTimers_next_tick :
    twoTimers.m_timerQueue.m_timerVector.map Timer.id = [8, 7] ∧ twoTimers.TickSetUp := by
  have run : Run CreatesInReach (initial noonNow) twoTimers :=
    .createTimer (.createTimer .start (by decide +kernel)) (by decide +kernel)
  exact ⟨by decide +kernel, next_tick (by decide) run⟩

def farTimer : Timing exactPlatform :=
  ((initial noonNow).createTimerOnQueue 7 910000000000000 noon false).createTimerOnQueue 8 1000 noon false

/-- The time of the first timer wraps around to the past, and the interval to it to the far future: the
second timer, due in a second, has no tick before it. -/
theorem not_every_tick_set_up :
    ¬∀ s : Timing exactPlatform, Run (fun _ _ _ _ _ => True) (initial noonNow) s → s.TickSetUp := by
  intro h
  have run : Run (fun _ _ _ _ _ => True) (initial noonNow) farTimer :=
    .createTimer (.createTimer .start True.intro) True.intro
  have hFar : farTimer.posted = 0 ∧ ∃ timer ∈ farTimer.m_timerQueue.m_timerVector,
      timer.id = 8 ∧ timer.targetTime = noonNow + 10000000 ∧
      ∃ due ∈ farTimer.m_dispatcherQueueTimer.bind DispatcherTimer.due,
        max timer.targetTime.toInt farTimer.now.toInt < due := by
    decide +kernel
  obtain ⟨hPosted, timer, hMem, -, -, due, hDue, hLate⟩ := hFar
  rcases (h farTimer run).1 timer hMem with hSome | ⟨other, hTimer, hLe⟩
  · omega
  · rw [hTimer] at hDue
    cases hDue
    omega

def dueCount (now : Int64) (timers : List Timer) : ℕ :=
  timers.countP fun timer => timer.targetTime < now

theorem TimerQueue.pop_perm {front : Timer} {rest : List Timer}
    (h : queue.m_timerVector = front :: rest) : queue.pop.m_timerVector.Perm rest := by
  obtain ⟨timers, hHeap⟩ := queue
  cases h
  exact platform.heaps.pop_perm front rest hHeap

/-- The loop ends when no due timer that repeats is due again in the same tick. -/
theorem exists_popReady {now : Int64} {ready : Ready platform}
    (h : ∀ timer ∈ ready.queue.m_timerVector, timer.targetTime < now → timer.repeats = true →
      ¬now + timer.period < now) :
    ∃ fuel result, popReady now fuel ready = some result := by
  induction hCount : dueCount now ready.queue.m_timerVector using Nat.strong_induction_on
    generalizing ready with
  | _ count ih =>
    cases hVector : ready.queue.m_timerVector with
    | nil =>
      have hFront : ready.queue.front? = none := List.head?_eq_none_iff.mpr hVector
      exact ⟨1, ready, by rw [popReady, hFront]⟩
    | cons next rest =>
      have hFront : ready.queue.front? = some next := List.head?_eq_some_iff.mpr ⟨rest, hVector⟩
      by_cases hDue : next.targetTime < now
      swap
      · exact ⟨1, ready, by rw [popReady, hFront]; exact if_neg hDue⟩
      have hPop := TimerQueue.pop_perm hVector
      have hLess : dueCount now rest < count := by
        rw [← hCount, hVector, dueCount, dueCount, List.countP_cons_of_pos (by simpa using hDue)]
        exact Nat.lt_succ_self _
      have hRest : ∀ timer ∈ ready.queue.pop.m_timerVector, timer.targetTime < now →
          timer.repeats = true → ¬now + timer.period < now := by
        intro timer hMem
        exact h timer (hVector ▸ List.mem_cons_of_mem next (hPop.mem_iff.mp hMem))
      by_cases hRepeats : next.repeats = true
      · have hPeriod := h next (hVector ▸ List.mem_cons_self) hDue hRepeats
        let again : Timer := ⟨next.id, now + next.period, next.period, true⟩
        let queue := ready.queue.pop.push next.id (now + next.period) next.period true
        have hPush : queue.m_timerVector.Perm (again :: ready.queue.pop.m_timerVector) :=
          platform.heaps.push_perm _ again ready.queue.pop.isHeap
        have hAgain : dueCount now queue.m_timerVector = dueCount now rest := by
          have hNotDue : ¬again.targetTime < now := hPeriod
          rw [dueCount, hPush.countP_eq, List.countP_cons_of_neg (by simpa using hNotDue),
            hPop.countP_eq, dueCount]
        have hKept : ∀ timer ∈ queue.m_timerVector, timer.targetTime < now →
            timer.repeats = true → ¬now + timer.period < now := by
          intro timer hMem
          rcases List.mem_cons.mp (hPush.mem_iff.mp hMem) with rfl | hOld
          · exact fun _ _ => hPeriod
          · exact hRest timer hOld
        obtain ⟨fuel, result, hResult⟩ := ih _ (hAgain ▸ hLess)
          (show ∀ timer ∈ (⟨queue, ready.readyTimers ++ [next.id], ready.emittedAnimationFrame⟩ :
            Ready platform).queue.m_timerVector, timer.targetTime < now → timer.repeats = true →
            ¬now + timer.period < now from hKept) rfl
        refine ⟨fuel + 1, result, ?_⟩
        rw [popReady, hFront]
        simp only [if_pos hDue, if_pos hRepeats]
        exact hResult
      · have hPopped : dueCount now ready.queue.pop.m_timerVector = dueCount now rest := by
          rw [dueCount, hPop.countP_eq, dueCount]
        obtain ⟨fuel, result, hResult⟩ := ih _ (hPopped ▸ hLess)
          (show ∀ timer ∈ (⟨ready.queue.pop, ready.readyTimers ++ [next.id],
            ready.emittedAnimationFrame ||
              decide (IsAnimationFrameRequest next.period next.repeats)⟩ :
            Ready platform).queue.m_timerVector, timer.targetTime < now → timer.repeats = true →
            ¬now + timer.period < now from hRest) rfl
        refine ⟨fuel + 1, result, ?_⟩
        rw [popReady, hFront]
        simp only [if_pos hDue, if_neg hRepeats]
        exact hResult

theorem exists_onTick (h : ∀ timer ∈ s.m_timerQueue.m_timerVector, timer.targetTime < s.now →
    timer.repeats = true → ¬s.now + timer.period < s.now) (later : Int64) :
    ∃ fuel t, s.onTick fuel later = some t := by
  have hStart : ∃ fuel ready, popReady s.now fuel ⟨s.m_timerQueue, [], false⟩ = some ready :=
    exists_popReady h
  obtain ⟨fuel, ready, hReady⟩ := hStart
  exact ⟨fuel, _, by rw [onTick, hReady]; rfl⟩

end Timing
end ReactNative.Timers
