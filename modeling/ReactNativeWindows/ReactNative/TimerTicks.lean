import Mathlib
import ReactNativeWindows.ReactNative.Timing

/-! What one tick fires, and what it leaves in the queue. -/
namespace ReactNative.Timers

open Collections

variable {platform : Platform}

def Timer.Due (now : Int64) (timer : Timer) : Prop := timer.targetTime < now

instance (now : Int64) : DecidablePred (Timer.Due now) := fun timer =>
  inferInstanceAs (Decidable (timer.targetTime < now))

def Timer.again (now : Int64) (timer : Timer) : Timer :=
  ⟨timer.id, now + timer.period, timer.period, true⟩

/-- It repeats, and the next time is before this one. -/
def Timer.Backward (now : Int64) (timer : Timer) : Prop :=
  timer.repeats = true ∧ now + timer.period < now

instance (now : Int64) : DecidablePred (Timer.Backward now) := fun timer =>
  inferInstanceAs (Decidable (timer.repeats = true ∧ now + timer.period < now))

/-- These timers fire, each that is due once and the earliest first. Those that repeat are queued
once more, the others are gone, and what was not due stays. -/
structure Fired (now : Int64) (timers fired left : List Timer) : Prop where
  due : fired.Perm (timers.filter fun timer => timer.Due now)
  inOrder : fired.Pairwise Timer.Earlier
  left : left.Perm ((timers.filter fun timer => ¬timer.Due now) ++
    (fired.filter fun timer => timer.repeats).map (Timer.again now))
  later : ∀ timer ∈ fired, timer.repeats = true → ¬(timer.again now).Due now

namespace Fired

variable {now : Int64} {timers fired left : List Timer}

/-- Nothing is due. -/
theorem none (h : ∀ timer ∈ timers, ¬timer.Due now) : Fired now timers [] timers where
  due := by rw [List.filter_eq_nil_iff.mpr (by simpa using h)]
  inOrder := .nil
  left := by
    have hAll : (timers.filter fun timer => ¬timer.Due now) = timers :=
      List.filter_eq_self.mpr (by simpa using h)
    rw [hAll]
    simp
  later timer hMem := by cases hMem

theorem of_perm {others : List Timer} (h : Fired now timers fired left)
    (hPerm : timers.Perm others) : Fired now others fired left where
  due := h.due.trans (hPerm.filter _)
  inOrder := h.inOrder
  left := h.left.trans ((hPerm.filter _).append_right _)
  later := h.later

/-- A fired timer is one of those in the queue. -/
theorem mem (h : Fired now timers fired left) {timer : Timer} (hMem : timer ∈ fired) :
    timer ∈ timers :=
  List.mem_of_mem_filter (h.due.mem_iff.mp hMem)

theorem cons_once {first : Timer} (h : Fired now timers fired left) (hDue : first.Due now)
    (hFirst : ∀ timer ∈ timers, first.Earlier timer) (hOnce : first.repeats = false) :
    Fired now (first :: timers) (first :: fired) left where
  due := by
    rw [List.filter_cons_of_pos (by simpa using hDue)]
    exact h.due.cons first
  inOrder := List.pairwise_cons.mpr ⟨fun timer hMem => hFirst timer (h.mem hMem), h.inOrder⟩
  left := by
    rw [List.filter_cons_of_neg (by simpa using hDue), List.filter_cons_of_neg (by simpa using hOnce)]
    exact h.left
  later timer hMem hRepeats := by
    rcases List.mem_cons.mp hMem with rfl | hRest
    · rw [hOnce] at hRepeats
      cases hRepeats
    · exact h.later timer hRest hRepeats

theorem cons_again {first : Timer} (h : Fired now (first.again now :: timers) fired left)
    (hDue : first.Due now) (hFirst : ∀ timer ∈ timers, first.Earlier timer)
    (hRepeats : first.repeats = true) (hAgain : ¬(first.again now).Due now) :
    Fired now (first :: timers) (first :: fired) left where
  due := by
    have hSame := h.due
    rw [List.filter_cons_of_neg (by simpa using hAgain)] at hSame
    rw [List.filter_cons_of_pos (by simpa using hDue)]
    exact hSame.cons first
  inOrder := by
    refine List.pairwise_cons.mpr ⟨fun timer hMem => ?_, h.inOrder⟩
    have hFilter := h.due.mem_iff.mp hMem
    rw [List.filter_cons_of_neg (by simpa using hAgain)] at hFilter
    exact hFirst timer (List.mem_of_mem_filter hFilter)
  left := by
    have hSame := h.left
    rw [List.filter_cons_of_pos (by simpa using hAgain)] at hSame
    rw [List.filter_cons_of_neg (by simpa using hDue), List.filter_cons_of_pos (by simpa using hRepeats)]
    exact hSame.trans List.perm_middle.symm
  later timer hMem hOther := by
    rcases List.mem_cons.mp hMem with rfl | hRest
    · exact hAgain
    · exact h.later timer hRest hOther

end Fired

namespace Timing

variable {s t : Timing platform}

variable {queue : TimerQueue platform}

theorem front_earlier {first : Timer} {rest : List Timer} (h : queue.m_timerVector = first :: rest) :
    ∀ timer ∈ rest, first.Earlier timer := by
  intro timer hMem
  have hHeap : platform.heaps.IsHeap (first :: rest) := h ▸ queue.isHeap
  exact platform.heaps.front_le first rest hHeap timer (List.mem_cons_of_mem first hMem)

variable {now : Int64} {timer : Timer}

theorem again_not_due (hRepeats : timer.repeats = true) (h : ¬timer.Backward now) :
    ¬(timer.again now).Due now := fun hDue => h ⟨hRepeats, hDue⟩

theorem not_due_of_earlier {first : Timer} (hFirst : first.Earlier timer) (hDue : ¬first.Due now) :
    ¬timer.Due now := by
  have hLe : first.targetTime.toInt ≤ timer.targetTime.toInt := Int64.le_iff_toInt_le.mp hFirst
  rw [Timer.Due, Int64.lt_iff_toInt_lt] at hDue ⊢
  omega

/-- The loop fires what is due, if it ends. -/
theorem popReady_fired {fuel : ℕ} {ready result : Ready platform}
    (h : ∀ timer ∈ ready.queue.m_timerVector, timer.Due now → ¬timer.Backward now)
    (hResult : popReady now fuel ready = some result) :
    ∃ fired, Fired now ready.queue.m_timerVector fired result.queue.m_timerVector ∧
      result.readyTimers = ready.readyTimers ++ fired.map Timer.id := by
  induction fuel generalizing ready with
  | zero => cases hResult
  | succ fuel ih =>
    rw [popReady] at hResult
    cases hVector : ready.queue.m_timerVector with
    | nil =>
      rw [show ready.queue.front? = none from List.head?_eq_none_iff.mpr hVector] at hResult
      cases hResult
      rw [hVector]
      exact ⟨[], Fired.none (by simp), by simp⟩
    | cons next rest =>
      have hFront : ready.queue.front? = some next := List.head?_eq_some_iff.mpr ⟨rest, hVector⟩
      have hFirst := front_earlier hVector
      have hPop := TimerQueue.pop_perm hVector
      have hRest : ∀ timer ∈ rest, timer.Due now → ¬timer.Backward now := fun timer hMem =>
        h timer (hVector ▸ List.mem_cons_of_mem next hMem)
      rw [hFront] at hResult
      dsimp only at hResult
      split_ifs at hResult with hDue hRepeats
      · -- the timer is queued for a time that this tick does not reach
        let again := next.again now
        have hAgain : ¬again.Due now :=
          again_not_due hRepeats (h next (hVector ▸ List.mem_cons_self) hDue)
        have hPush : (ready.queue.pop.push next.id (now + next.period) next.period
            true).m_timerVector.Perm (again :: rest) :=
          (platform.heaps.push_perm _ again ready.queue.pop.isHeap).trans (hPop.cons again)
        obtain ⟨fired, hFired, hTimers⟩ := ih (by
          intro timer hMem
          rcases List.mem_cons.mp (hPush.mem_iff.mp hMem) with rfl | hOld
          · exact fun hAgainDue => absurd hAgainDue hAgain
          · exact hRest timer hOld) hResult
        refine ⟨next :: fired, (hFired.of_perm hPush).cons_again hDue hFirst hRepeats hAgain, ?_⟩
        rw [hTimers]
        simp
      · obtain ⟨fired, hFired, hTimers⟩ := ih (by
          intro timer hMem
          exact hRest timer (hPop.mem_iff.mp hMem)) hResult
        refine ⟨next :: fired, (hFired.of_perm hPop).cons_once hDue hFirst (by simpa using hRepeats),
          ?_⟩
        rw [hTimers]
        simp
      · have hNone : ∀ timer ∈ next :: rest, ¬timer.Due now := by
          intro timer hMem
          rcases List.mem_cons.mp hMem with rfl | hOld
          · exact hDue
          · exact not_due_of_earlier (hFirst timer hOld) hDue
        cases hResult
        rw [hVector]
        exact ⟨[], Fired.none hNone, by simp⟩

/-- While a backward timer is due, the loop goes on. -/
theorem popReady_backward (fuel : ℕ) {ready : Ready platform}
    (hMem : timer ∈ ready.queue.m_timerVector) (hDue : timer.Due now)
    (hBackward : timer.Backward now) :
    popReady now fuel ready = none := by
  induction fuel generalizing ready timer with
  | zero => rfl
  | succ fuel ih =>
    rw [popReady]
    cases hVector : ready.queue.m_timerVector with
    | nil =>
      rw [hVector] at hMem
      cases hMem
    | cons next rest =>
      have hFront : ready.queue.front? = some next := List.head?_eq_some_iff.mpr ⟨rest, hVector⟩
      have hPop := TimerQueue.pop_perm hVector
      rw [hVector] at hMem
      have hNext : next.targetTime < now := by
        rcases List.mem_cons.mp hMem with rfl | hRest
        · exact hDue
        · by_contra hNot
          exact not_due_of_earlier (front_earlier hVector timer hRest) hNot hDue
      rw [hFront]
      simp only [if_pos hNext]
      rcases List.mem_cons.mp hMem with rfl | hRest
      · -- it comes back with a target that is earlier than this tick
        have hPush := platform.heaps.push_perm ready.queue.pop.m_timerVector (timer.again now)
          ready.queue.pop.isHeap
        rw [if_pos hBackward.1]
        have hAgain : (timer.again now).Backward now := ⟨rfl, hBackward.2⟩
        exact ih (hPush.mem_iff.mpr List.mem_cons_self) hBackward.2 hAgain
      · have hLeft := hPop.mem_iff.mpr hRest
        split
        · have hPush := platform.heaps.push_perm ready.queue.pop.m_timerVector (next.again now)
            ready.queue.pop.isHeap
          exact ih (hPush.mem_iff.mpr (List.mem_cons_of_mem _ hLeft)) hDue hBackward
        · exact ih hLeft hDue hBackward

theorem setUpNext_queue (emittedAnimationFrame : Bool) :
    (s.setUpNext emittedAnimationFrame).m_timerQueue = s.m_timerQueue ∧
      (s.setUpNext emittedAnimationFrame).called = s.called := by
  rw [setUpNext]
  split_ifs
  · exact ⟨rfl, rfl⟩
  · exact ⟨rfl, rfl⟩
  · rw [startDispatcherTimer]
    cases s.m_timerQueue.front? with
    | none | some nextTimer => exact ⟨rfl, rfl⟩
  · exact ⟨rfl, rfl⟩

/-- What a tick that is over has done to the queue, and whom it called. -/
theorem onTick_cases {fuel : ℕ} {later : Int64} (h : s.onTick fuel later = some t) :
    ∃ ready, popReady s.now fuel ⟨s.m_timerQueue, [], false⟩ = some ready ∧
      t.m_timerQueue = ready.queue ∧
      t.called = if ready.readyTimers = [] then s.called else ready.readyTimers :: s.called := by
  obtain ⟨ready, hReady, rfl⟩ := Option.map_eq_some_iff.mp h
  refine ⟨ready, hReady, ?_⟩
  have hSame := setUpNext_queue (s := { s with
    m_timerQueue := ready.queue, now := later }) ready.emittedAnimationFrame
  dsimp only
  split_ifs with hNone
  · exact ⟨hSame.1, hSame.2⟩
  · exact ⟨hSame.1, congrArg (ready.readyTimers :: ·) hSame.2⟩

section All

variable {accepts : Timing platform → ℕ → ℚ → ℚ → Bool → Prop} {P : Timer → Prop}
  (hAgain : ∀ now timer, timer.repeats = true → P timer → P (timer.again now))

include hAgain

/-- The loop keeps what holds of every timer, and the timers it adds to the list are of this kind. -/
theorem popReady_all {now : Int64} {fuel : ℕ} {ready result : Ready platform}
    (h : ∀ timer ∈ ready.queue.m_timerVector, P timer)
    (hResult : popReady now fuel ready = some result) :
    (∀ timer ∈ result.queue.m_timerVector, P timer) ∧
      ∀ id ∈ result.readyTimers, id ∈ ready.readyTimers ∨ ∃ timer, P timer ∧ timer.id = id := by
  induction fuel generalizing ready with
  | zero => cases hResult
  | succ fuel ih =>
    rw [popReady] at hResult
    cases hVector : ready.queue.m_timerVector with
    | nil =>
      rw [show ready.queue.front? = none from List.head?_eq_none_iff.mpr hVector] at hResult
      cases hResult
      exact ⟨h, fun _ hMem => .inl hMem⟩
    | cons next rest =>
      have hFront : ready.queue.front? = some next := List.head?_eq_some_iff.mpr ⟨rest, hVector⟩
      have hPop := TimerQueue.pop_perm hVector
      have hNext : P next := h next (hVector ▸ List.mem_cons_self)
      have hLeft : ∀ timer ∈ ready.queue.pop.m_timerVector, P timer := fun timer hMem =>
        h timer (hVector ▸ List.mem_cons_of_mem next (hPop.mem_iff.mp hMem))
      have hTimers : ∀ id ∈ ready.readyTimers ++ [next.id],
          id ∈ ready.readyTimers ∨ ∃ timer, P timer ∧ timer.id = id := by
        intro id hMem
        rcases List.mem_append.mp hMem with hOld | hNew
        · exact .inl hOld
        · exact .inr ⟨next, hNext, (List.mem_singleton.mp hNew).symm⟩
      rw [hFront] at hResult
      dsimp only at hResult
      split_ifs at hResult with hDue hRepeats
      · have hPush := platform.heaps.push_perm ready.queue.pop.m_timerVector (next.again now)
          ready.queue.pop.isHeap
        obtain ⟨hQueue, hIds⟩ := ih (by
          intro timer hMem
          rcases List.mem_cons.mp (hPush.mem_iff.mp hMem) with rfl | hOld
          · exact hAgain now next hRepeats hNext
          · exact hLeft timer hOld) hResult
        exact ⟨hQueue, fun id hMem => (hIds id hMem).elim (hTimers id) .inr⟩
      · obtain ⟨hQueue, hIds⟩ := ih hLeft hResult
        exact ⟨hQueue, fun id hMem => (hIds id hMem).elim (hTimers id) .inr⟩
      · cases hResult
        exact ⟨h, fun _ hMem => .inl hMem⟩

theorem onTick_all {fuel : ℕ} {later : Int64} (h : ∀ timer ∈ s.m_timerQueue.m_timerVector, P timer)
    (hTick : s.onTick fuel later = some t) : ∀ timer ∈ t.m_timerQueue.m_timerVector, P timer := by
  obtain ⟨ready, hReady, hQueue, -⟩ := onTick_cases hTick
  rw [hQueue]
  exact (popReady_all hAgain h hReady).1

omit hAgain in
theorem createTimerOnQueue_all {id : ℕ} {duration : ℚ} {repeats : Bool}
    (h : ∀ timer ∈ s.m_timerQueue.m_timerVector, P timer)
    (hNew : ∀ targetTime, P ⟨id, targetTime, TimeSpanFromMs platform duration, repeats⟩)
    (jsSchedulingTime : ℚ) :
    ∀ timer ∈ (s.createTimerOnQueue id duration jsSchedulingTime repeats).m_timerQueue.m_timerVector,
      P timer := by
  rw [createTimerOnQueue]
  split
  · exact h
  dsimp only
  generalize initialTargetTime platform duration jsSchedulingTime = targetTime
  generalize TimeSpanFromMs platform duration = period at hNew ⊢
  have hPush := platform.heaps.push_perm s.m_timerQueue.m_timerVector
    ⟨id, targetTime, period, repeats⟩ s.m_timerQueue.isHeap
  have hPushed : ∀ timer ∈ (s.m_timerQueue.push id targetTime period repeats).m_timerVector,
      P timer := by
    intro timer hMem
    rcases List.mem_cons.mp (hPush.mem_iff.mp hMem) with rfl | hOld
    · exact hNew targetTime
    · exact h timer hOld
  split_ifs
  · exact hPushed
  · exact hPushed
  · rw [startDispatcherTimer]
    split
    · exact hPushed
    · exact hPushed
  · exact hPushed

omit hAgain in
theorem deleteTimerOnQueue_perm (id : ℕ) :
    (s.deleteTimerOnQueue id).m_timerQueue.m_timerVector.Perm
      (s.m_timerQueue.m_timerVector.eraseP fun timer => timer.id = id) := by
  have hMake := platform.heaps.make_perm (s.m_timerQueue.m_timerVector.eraseP fun timer => timer.id = id)
  rw [deleteTimerOnQueue]
  dsimp only
  split_ifs
  · exact hMake
  · exact hMake

theorem Run.all (run : Run accepts s t)
    (hNew : ∀ u id duration jsSchedulingTime repeats, accepts u id duration jsSchedulingTime repeats →
      ∀ targetTime, P ⟨id, targetTime, TimeSpanFromMs platform duration, repeats⟩)
    (h : ∀ timer ∈ s.m_timerQueue.m_timerVector, P timer) :
    ∀ timer ∈ t.m_timerQueue.m_timerVector, P timer := by
  induction run with
  | start => exact h
  | createTimer _ accepted ih => exact createTimerOnQueue_all ih (hNew _ _ _ _ _ accepted) _
  | deleteTimer _ id ih =>
    intro timer hMem
    exact ih timer (List.mem_of_mem_eraseP ((deleteTimerOnQueue_perm id).mem_iff.mp hMem))
  | @tick t _ _ _ _ _ _ _ next hTick ih =>
    have hSame : ∀ timer ∈ ({ t with m_dispatcherQueueTimer := some next } :
        Timing platform).m_timerQueue.m_timerVector, P timer := ih
    exact onTick_all hAgain hSame hTick
  | @render t _ _ _ rest _ _ _ hTick ih =>
    have hSame : ∀ timer ∈ ({ t with posted := rest, m_usingRendering := false } :
        Timing platform).m_timerQueue.m_timerVector, P timer := ih
    exact onTick_all hAgain hSame hTick
  | elapse _ _ ih => exact ih

end All

def timersWith (s : Timing platform) (id : ℕ) : ℕ :=
  s.m_timerQueue.m_timerVector.countP fun timer => timer.id = id

theorem timersWith_eq_zero {id : ℕ} :
    s.timersWith id = 0 ↔ ∀ timer ∈ s.m_timerQueue.m_timerVector, timer.id ≠ id := by
  simp [timersWith, List.countP_eq_zero]

/-- Removal takes away one of the timers with the identifier. -/
theorem deleteTimerOnQueue_self (id : ℕ) :
    (s.deleteTimerOnQueue id).timersWith id = s.timersWith id - 1 := by
  rw [timersWith, (deleteTimerOnQueue_perm id).countP_eq, timersWith]
  induction s.m_timerQueue.m_timerVector with
  | nil => rfl
  | cons timer timers ih =>
    by_cases hId : timer.id = id
    · rw [List.eraseP_cons_of_pos (by simpa using hId), List.countP_cons_of_pos (by simpa using hId)]
      omega
    · rw [List.eraseP_cons_of_neg (by simpa using hId), List.countP_cons_of_neg (by simpa using hId),
        List.countP_cons_of_neg (by simpa using hId)]
      exact ih

theorem onTick_not_called {id fuel : ℕ} {later : Int64}
    (h : ∀ timer ∈ s.m_timerQueue.m_timerVector, timer.id ≠ id)
    (hTick : s.onTick fuel later = some t) :
    t.called = s.called ∨ ∃ ids, id ∉ ids ∧ t.called = ids :: s.called := by
  obtain ⟨ready, hReady, -, hCalled⟩ := onTick_cases hTick
  have hIds := (popReady_all (P := fun timer => timer.id ≠ id) (fun _ _ _ hOther => hOther) h hReady).2
  split_ifs at hCalled
  · exact .inl hCalled
  · refine .inr ⟨ready.readyTimers, fun hMem => ?_, hCalled⟩
    obtain hOld | ⟨timer, hOther, hSame⟩ := hIds id hMem
    · cases hOld
    · exact hOther hSame

/-- A timer that is created for more than -1 milliseconds and not too many has its period. -/
theorem toInt_timeSpanFromMs {ms : ℚ} {longest : ℕ} (hMs : -1 < ms) (hLongest : ms ≤ longest)
    (hFits : (longest : ℤ) * 10000 < 2 ^ 63) :
    0 ≤ (TimeSpanFromMs platform ms).toInt ∧
      (TimeSpanFromMs platform ms).toInt ≤ longest * 10000 := by
  have hTruncate : 0 ≤ truncate ms ∧ truncate ms ≤ longest := by
    rw [truncate]
    split_ifs with hSign
    · refine ⟨Int.floor_nonneg.mpr hSign, ?_⟩
      have hFloor : (⌊ms⌋ : ℚ) ≤ longest := (Int.floor_le ms).trans hLongest
      exact_mod_cast hFloor
    · have hZero : ⌈ms⌉ = 0 := by
        rw [Int.ceil_eq_zero_iff]
        exact ⟨hMs, (not_le.mp hSign).le⟩
      rw [hZero]
      exact ⟨le_rfl, Int.natCast_nonneg longest⟩
  have hWhole := platform.toInt_toInt64 ms (by omega) (by omega)
  have hProduct : (TimeSpanFromMs platform ms).toInt = (truncate ms * 10000).bmod (2 ^ 64) := by
    rw [TimeSpanFromMs, Int64.toInt_mul, hWhole]
    rfl
  rw [Int.bmod_eq_of_le (by omega) (by omega)] at hProduct
  omega

/-- The tick of a state is over some time. It fires the due timers and calls them at once, and it
leaves the first of the others at the front. A timer that is removed before is not fired. -/
structure TicksDue (s : Timing platform) : Prop where
  ends : ∀ later, ∃ fuel t, s.onTick fuel later = some t
  fires : ∀ fuel later t, s.onTick fuel later = some t →
    ∃ fired, Fired s.now s.m_timerQueue.m_timerVector fired t.m_timerQueue.m_timerVector ∧
      t.called = if fired = [] then s.called else fired.map Timer.id :: s.called
  heap : ∀ fuel later t, s.onTick fuel later = some t →
    platform.heaps.IsHeap t.m_timerQueue.m_timerVector ∧
      ∀ front, t.m_timerQueue.front? = some front →
        ∀ timer ∈ t.m_timerQueue.m_timerVector, front.targetTime ≤ timer.targetTime
  removed : ∀ id, (s.deleteTimerOnQueue id).m_timerQueue.m_timerVector.Perm
      (s.m_timerQueue.m_timerVector.eraseP fun timer => timer.id = id) ∧
    (s.timersWith id ≤ 1 →
      ∀ u, Run (fun _ other _ _ _ => other ≠ id) (s.deleteTimerOnQueue id) u →
      ∀ fuel later t, u.onTick fuel later = some t →
        t.called = u.called ∨ ∃ ids, id ∉ ids ∧ t.called = ids :: u.called)

theorem front_le {front : Timer} (h : queue.front? = some front) :
    ∀ timer ∈ queue.m_timerVector, front.targetTime ≤ timer.targetTime := by
  obtain ⟨rest, hVector⟩ := List.head?_eq_some_iff.mp h
  intro timer hMem
  rw [hVector] at hMem
  rcases List.mem_cons.mp hMem with rfl | hRest
  · exact Int64.le_refl _
  · exact front_earlier hVector timer hRest

theorem ticksDue
    (h : ∀ timer ∈ s.m_timerQueue.m_timerVector, timer.Due s.now → ¬timer.Backward s.now) :
    s.TicksDue where
  ends := exists_onTick fun timer hMem hDue hRepeats hAgain => h timer hMem hDue ⟨hRepeats, hAgain⟩
  fires fuel later t hTick := by
    obtain ⟨ready, hReady, hQueue, hCalled⟩ := onTick_cases hTick
    obtain ⟨fired, hFired, hTimers⟩ := popReady_fired h hReady
    refine ⟨fired, hQueue ▸ hFired, ?_⟩
    rw [hCalled, hTimers]
    simp
  heap _ _ t _ := ⟨t.m_timerQueue.isHeap, fun _ hFront => front_le hFront⟩
  removed id := by
    refine ⟨deleteTimerOnQueue_perm id, fun hOne u hRun fuel later t hTick => ?_⟩
    have hGone : (s.deleteTimerOnQueue id).timersWith id = 0 := by
      rw [deleteTimerOnQueue_self]
      omega
    have hNone : ∀ timer ∈ u.m_timerQueue.m_timerVector, timer.id ≠ id :=
      hRun.all (fun _ _ _ hOther => hOther) (fun _ _ _ _ _ hOther _ => hOther)
        (timersWith_eq_zero.mp hGone)
    exact onTick_not_called hNone hTick

/-- A period of a timer that repeats is not negative, nor above a bound. -/
def PeriodUpTo (longest : ℕ) (timer : Timer) : Prop :=
  timer.repeats = true → 0 ≤ timer.period.toInt ∧ timer.period.toInt ≤ longest * 10000

theorem PeriodUpTo.not_backward {longest : ℕ} (h : PeriodUpTo longest timer) (hNow : 0 ≤ now.toInt)
    (hFits : now.toInt + longest * 10000 < 2 ^ 63) : ¬timer.Backward now := by
  rintro ⟨hRepeats, hBackward⟩
  obtain ⟨hLeast, hMost⟩ := h hRepeats
  have hSum : (now + timer.period).toInt = now.toInt + timer.period.toInt := by
    rw [Int64.toInt_add, Int.bmod_eq_of_le (by omega) (by omega)]
  rw [Int64.lt_iff_toInt_lt, hSum] at hBackward
  omega

theorem TicksDue.not_backward (h : s.TicksDue) (hMem : timer ∈ s.m_timerQueue.m_timerVector)
    (hDue : timer.Due s.now) : ¬timer.Backward s.now := by
  intro hBackward
  obtain ⟨fuel, t, hTick⟩ := h.ends s.now
  obtain ⟨ready, hReady, -⟩ := onTick_cases hTick
  have hStuck : popReady s.now fuel ⟨s.m_timerQueue, [], false⟩ = none :=
    popReady_backward fuel hMem hDue hBackward
  rw [hStuck] at hReady
  cases hReady

/-- A tick fires exactly the due timers unless one of them repeats into the past: it does not end
then. No run gets there whose repeating timers are created for more than -1 milliseconds and at most so
many that the next time is in the range of the clock. -/
theorem ticksDue_iff :
    (∀ s : Timing platform, s.TicksDue ↔
      ∀ timer ∈ s.m_timerQueue.m_timerVector, timer.Due s.now → ¬timer.Backward s.now) ∧
    (∀ (now : Int64) (longest : ℕ) (s : Timing platform), 0 ≤ now →
      Run (fun _ _ duration _ repeats => repeats = true → -1 < duration ∧ duration ≤ longest)
        (initial now) s →
      s.now.toInt + longest * 10000 < 2 ^ 63 → s.TicksDue) := by
  constructor
  · intro s
    constructor
    · intro h timer hMem hDue
      exact h.not_backward hMem hDue
    · exact ticksDue
  · intro now longest s hNow run hFits
    have hLater : 0 ≤ s.now.toInt := (Int64.le_iff_toInt_le.mp hNow).trans run.now_le
    refine ticksDue fun timer hMem _ => PeriodUpTo.not_backward ?_ hLater hFits
    apply run.all (P := PeriodUpTo longest) (fun _ _ hRepeats hPeriod _ => hPeriod hRepeats) _ _ timer hMem
    · intro _ _ duration _ repeats hAccepted _ hRepeats
      obtain ⟨hLeast, hMost⟩ := hAccepted hRepeats
      exact toInt_timeSpanFromMs hLeast hMost (by omega)
    · simp [initial]

theorem forward_ticksDue :
    (((initial noonNow).createTimerOnQueue 7 0 noon true).createTimerOnQueue 8 (-3) noon false :
      Timing exactPlatform).TicksDue :=
  ticksDue_iff.2 noonNow 60000 _ (by decide)
    (.createTimer (.createTimer .start (by norm_num)) (by simp)) (by decide +kernel)

def backwardTimer : Timing exactPlatform :=
  ((initial noonNow).createTimerOnQueue 7 (-5) noon true).createTimerOnQueue 8 20 noon false

/-- The period of the timer wraps around to a negative one. -/
def longTimer : Timing exactPlatform := (initial noonNow).createTimerOnQueue 7 9007199254740991 noon true

theorem not_every_tick_ends :
    (¬∀ s : Timing exactPlatform, Run (fun _ _ _ _ _ => True) (initial noonNow) s → s.TicksDue) ∧
      ¬backwardTimer.TicksDue ∧ ¬longTimer.TicksDue := by
  have hBackward : ¬backwardTimer.TicksDue := by
    intro h
    have hDue : ∃ timer ∈ backwardTimer.m_timerQueue.m_timerVector,
        timer.Due backwardTimer.now ∧ timer.Backward backwardTimer.now := by
      decide +kernel
    obtain ⟨timer, hMem, hTimer, hBackward⟩ := hDue
    exact h.not_backward hMem hTimer hBackward
  have hLong : ¬longTimer.TicksDue := by
    intro h
    have hDue : ∃ timer ∈ longTimer.m_timerQueue.m_timerVector,
        timer.Due longTimer.now ∧ timer.Backward longTimer.now := by
      decide +kernel
    obtain ⟨timer, hMem, hTimer, hBackward⟩ := hDue
    exact h.not_backward hMem hTimer hBackward
  refine ⟨fun h => hBackward (h _ ?_), hBackward, hLong⟩
  exact .createTimer (.createTimer .start True.intro) True.intro

end Timing
end ReactNative.Timers
