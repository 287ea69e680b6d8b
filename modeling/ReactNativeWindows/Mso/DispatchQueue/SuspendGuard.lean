import Mathlib.Algebra.GroupWithZero.Nat
import ReactNativeWindows.Mso.DispatchQueue.QueueService

/-! Guards that suspend a dispatch queue while they live. Any number of guard
objects and queues is driven by a sequence of calls; the objects are slots. -/
namespace Mso

universe u v w

/-- The state of a `DispatchSuspendGuard`: the queue it refers to, if any. -/
abbrev DispatchSuspendGuard (QueueId : Type w) := Option QueueId

/-- `guards` has one slot for each object ever built, `none` once it is destroyed.
`scheduled` counts how often the scheduler of a queue was told about a task. -/
structure GuardedQueues (QueueId : Type w) (ThreadId : Type v) (Task : Type u) where
  queues : QueueId → QueueService ThreadId Task
  guards : List (Option (DispatchSuspendGuard QueueId))
  scheduled : QueueId → Nat

inductive GuardCall (QueueId : Type w) (ThreadId : Type v) (Task : Type u) where
  | suspend (queue : Option QueueId)
  | copyConstruct (other : Nat)
  | moveConstruct (other : Nat)
  | copyAssign (self other : Nat)
  | moveAssign (self other : Nat)
  | destroy (self : Nat)
  | post (thread : ThreadId) (queue : QueueId) (task : Task)
  | tryDequeTask (queue : QueueId)
  deriving DecidableEq

namespace GuardedQueues
variable {QueueId : Type w} {ThreadId : Type v} {Task : Type u}

def initial : GuardedQueues QueueId ThreadId Task := ⟨fun _ => .make, [], fun _ => 0⟩

def guard (s : GuardedQueues QueueId ThreadId Task) (i : Nat) :
    Option (DispatchSuspendGuard QueueId) :=
  s.guards[i]?.join

def construct (s : GuardedQueues QueueId ThreadId Task) (state : DispatchSuspendGuard QueueId) :
    GuardedQueues QueueId ThreadId Task :=
  { s with guards := s.guards ++ [some state] }

def assign (s : GuardedQueues QueueId ThreadId Task) (i : Nat)
    (state : DispatchSuspendGuard QueueId) : GuardedQueues QueueId ThreadId Task :=
  { s with guards := s.guards.set i (some state) }

variable [DecidableEq QueueId]

def suspend (s : GuardedQueues QueueId ThreadId Task) :
    DispatchSuspendGuard QueueId → GuardedQueues QueueId ThreadId Task
  | none => s
  | some q => { s with queues := Function.update s.queues q (s.queues q).suspend }

def resume (s : GuardedQueues QueueId ThreadId Task) :
    DispatchSuspendGuard QueueId → Except String (GuardedQueues QueueId ThreadId Task)
  | none => .ok s
  | some q => (s.queues q).resume.map fun (postCount, queue) =>
    { s with
      queues := Function.update s.queues q queue
      scheduled := Function.update s.scheduled q (s.scheduled q + postCount) }

/-- One call. There is no call on an object that does not live. -/
def step [DecidableEq ThreadId] (s : GuardedQueues QueueId ThreadId Task) :
    GuardCall QueueId ThreadId Task → Except String (GuardedQueues QueueId ThreadId Task)
  -- The constructor that `Suspend` uses only stores the state.
  | .suspend queue => .ok (s.construct queue)
  | .copyConstruct other =>
    match s.guard other with
    | some state => .ok ((s.construct state).suspend state)
    | none => .ok s
  | .moveConstruct other =>
    match s.guard other with
    | some state => .ok ((s.assign other none).construct state)
    | none => .ok s
  | .copyAssign self other =>
    match s.guard self, s.guard other with
    | some _, some state => .ok ((s.assign self state).suspend state)
    | _, _ => .ok s
  -- Pointers that are equal are left alone, also in the moved-from guard.
  | .moveAssign self other =>
    match s.guard self, s.guard other with
    | some old, some state =>
      if old = state then .ok s else .ok ((s.assign self state).assign other none)
    | _, _ => .ok s
  | .destroy self =>
    match s.guard self with
    | some state => { s with guards := s.guards.set self none }.resume state
    | none => .ok s
  | .post thread q task =>
    let (queue, afterPost) := (s.queues q).post thread task
    .ok { s with
      queues := Function.update s.queues q queue
      scheduled := if afterPost = .schedule then
        Function.update s.scheduled q (s.scheduled q + 1) else s.scheduled }
  | .tryDequeTask q =>
    .ok { s with queues := Function.update s.queues q (s.queues q).tryDequeTask.2 }

def live (s : GuardedQueues QueueId ThreadId Task) (q : QueueId) : Nat :=
  s.guards.count (some (some q))

/-- The suspension of every queue is the number of its live guards, and only it
keeps tasks from being dequeued. -/
structure Balanced (s : GuardedQueues QueueId ThreadId Task) : Prop where
  counter : ∀ q, (s.queues q).suspendCounter = s.live q
  held : ∀ q, 0 < s.live q → (s.queues q).tryDequeTask.1 = none
  runs : ∀ q, s.live q = 0 → (s.queues q).tryDequeTask.1 = (s.queues q).tasks.head?

/-- If the last guard of a queue is gone, the scheduler is told about each task. -/
def Rescheduled (s t : GuardedQueues QueueId ThreadId Task) : Prop :=
  ∀ q, 0 < s.live q → t.live q = 0 →
    t.scheduled q = s.scheduled q + (t.queues q).tasks.length

/-- No call of the sequence crashes, and suspension is balanced before and after each. -/
def BalancedRun [DecidableEq ThreadId] (s : GuardedQueues QueueId ThreadId Task) :
    List (GuardCall QueueId ThreadId Task) → Prop
  | [] => s.Balanced
  | call :: calls => s.Balanced ∧
      ∃ t, s.step call = .ok t ∧ s.Rescheduled t ∧ t.BalancedRun calls

/-- Guards of `q` made by a call without suspending it. -/
def unsuspended (q : QueueId) : GuardCall QueueId ThreadId Task → Nat
  | .suspend queue => if queue = some q then 1 else 0
  | _ => 0

def overwritten (s : GuardedQueues QueueId ThreadId Task) (q : QueueId) :
    GuardCall QueueId ThreadId Task → Nat
  | .copyAssign self other =>
    if s.guard self = some (some q) ∧ (s.guard other).isSome then 1 else 0
  | .moveAssign self other =>
    if s.guard self = some (some q) ∧ (s.guard other).isSome ∧
      s.guard other ≠ some (some q) then 1 else 0
  | _ => 0

/-- The same over a run, as long as it does not crash. -/
def overwrittenBy [DecidableEq ThreadId] (s : GuardedQueues QueueId ThreadId Task) (q : QueueId) :
    List (GuardCall QueueId ThreadId Task) → Nat
  | [] => 0
  | call :: calls => s.overwritten q call +
      match s.step call with
      | .ok t => t.overwrittenBy q calls
      | .error _ => 0

section Slots
variable {s : GuardedQueues QueueId ThreadId Task}

variable {i : Nat} {state : DispatchSuspendGuard QueueId}

omit [DecidableEq QueueId] in
private theorem guard_lt (h : s.guard i = some state) :
    ∃ hi : i < s.guards.length, s.guards[i] = some state := by
  obtain ⟨slot, hSlot, rfl⟩ : ∃ slot, s.guards[i]? = some slot ∧ slot = some state := by
    simpa [guard, Option.join_eq_some_iff] using h
  exact List.getElem?_eq_some_iff.mp hSlot

/-- Writing a slot moves one count from what it held to what it holds. -/
private theorem count_set_guard (h : s.guard i = some state)
    (new : Option (DispatchSuspendGuard QueueId)) (q : QueueId) :
    (s.guards.set i new).count (some (some q)) + (if state = some q then 1 else 0) =
      s.live q + (if new = some (some q) then 1 else 0) := by
  obtain ⟨hi, hState⟩ := guard_lt h
  have hPos : state = some q → 0 < s.live q := by
    rintro rfl
    exact List.count_pos_iff.mpr (hState ▸ List.getElem_mem hi)
  rw [List.count_set hi, hState]
  simp only [beq_iff_eq, Option.some.injEq]
  by_cases hq : state = some q
  · have := hPos hq
    simp only [hq, if_true, live] at this ⊢
    omega
  · simp [hq, live]

omit [DecidableEq QueueId] in
@[simp] theorem construct_queues (state : DispatchSuspendGuard QueueId) :
    (s.construct state).queues = s.queues := rfl

omit [DecidableEq QueueId] in
@[simp] theorem assign_queues (i : Nat) (state : DispatchSuspendGuard QueueId) :
    (s.assign i state).queues = s.queues := rfl

@[simp] theorem live_construct (state : DispatchSuspendGuard QueueId) (q : QueueId) :
    (s.construct state).live q = s.live q + if state = some q then 1 else 0 := by
  simp [construct, live, List.count_singleton]

theorem live_assign {old : DispatchSuspendGuard QueueId} (h : s.guard i = some old)
    (state : DispatchSuspendGuard QueueId) (q : QueueId) :
    (s.assign i state).live q + (if old = some q then 1 else 0) =
      s.live q + if state = some q then 1 else 0 := by
  simpa [assign, live] using count_set_guard h (some state) q

theorem live_suspend (state : DispatchSuspendGuard QueueId) (q : QueueId) :
    (s.suspend state).live q = s.live q := by
  cases state <;> rfl

theorem suspendCounter_suspend (state : DispatchSuspendGuard QueueId) (q : QueueId) :
    ((s.suspend state).queues q).suspendCounter =
      (s.queues q).suspendCounter + if state = some q then 1 else 0 := by
  cases state with
  | none => rfl
  | some p =>
    by_cases hp : p = q
    · subst hp
      simp [suspend, QueueService.suspend]
    · simp [suspend, Function.update_of_ne (Ne.symm hp), hp]

theorem resume_ok {t : GuardedQueues QueueId ThreadId Task} (h : s.resume state = .ok t)
    (q : QueueId) :
    t.live q = s.live q ∧
      (s.queues q).suspendCounter =
        (t.queues q).suspendCounter + if state = some q then 1 else 0 := by
  cases state with
  | none =>
    cases h
    simp
  | some p =>
    by_cases hPos : (s.queues p).suspendCounter > 0
    · simp only [resume, QueueService.resume, hPos, if_true, Except.map, Except.ok.injEq] at h
      subst h
      refine ⟨rfl, ?_⟩
      by_cases hp : p = q
      · subst hp
        simp only [Function.update_self, if_true]
        omega
      · simp [Function.update_of_ne (Ne.symm hp), hp]
    · simp [resume, QueueService.resume, hPos, Except.map] at h

omit [DecidableEq QueueId] in
private theorem guard_assign_of_ne {j : Nat} (h : i ≠ j) (state : DispatchSuspendGuard QueueId) :
    (s.assign i state).guard j = s.guard j := by
  simp [guard, assign, List.getElem?_set_ne h]

end Slots

section Accounting

private theorem update_counter (queues : QueueId → QueueService ThreadId Task) (p : QueueId)
    {queue : QueueService ThreadId Task} (h : queue.suspendCounter = (queues p).suspendCounter)
    (q : QueueId) :
    (Function.update queues p queue q).suspendCounter = (queues q).suspendCounter := by
  by_cases hp : q = p
  · subst hp
    simpa using h
  · rw [Function.update_of_ne hp]

variable [DecidableEq ThreadId]

/-- The exact bookkeeping of one call: a counter falls behind its guards by the
guards made unsuspended, and gets ahead by the guards overwritten. -/
theorem step_accounts {s t : GuardedQueues QueueId ThreadId Task}
    {call : GuardCall QueueId ThreadId Task} (h : s.step call = .ok t) (q : QueueId) :
    (t.queues q).suspendCounter + unsuspended q call + s.live q =
      (s.queues q).suspendCounter + t.live q + s.overwritten q call := by
  cases call with
  | suspend queue =>
    cases h
    simp only [unsuspended, overwritten, live_construct, construct_queues]
    omega
  | copyConstruct other =>
    simp only [step] at h
    split at h <;> cases h
    · rename_i state hOther
      simp only [unsuspended, overwritten, suspendCounter_suspend, live_suspend, live_construct,
        construct_queues]
      omega
    · simp [unsuspended, overwritten]
  | moveConstruct other =>
    simp only [step] at h
    split at h <;> cases h
    · rename_i state hOther
      have hLive := live_assign hOther none q
      simp only [unsuspended, overwritten, live_construct, construct_queues, assign_queues,
        reduceCtorEq, if_false] at hLive ⊢
      omega
    · simp [unsuspended, overwritten]
  | copyAssign self other =>
    simp only [step] at h
    split at h <;> cases h
    · rename_i old state hSelf hOther
      have hLive := live_assign hSelf state q
      simp only [unsuspended, overwritten, hSelf, hOther, suspendCounter_suspend, live_suspend,
        assign_queues, Option.isSome_some, and_true, Option.some.injEq]
      omega
    · rename_i hDead
      have : ¬(s.guard self = some (some q) ∧ (s.guard other).isSome) := by
        rintro ⟨hSelf, hOther⟩
        obtain ⟨state, hState⟩ := Option.isSome_iff_exists.mp hOther
        exact hDead _ _ hSelf hState
      simp [unsuspended, overwritten, this]
  | moveAssign self other =>
    simp only [step] at h
    split at h
    · rename_i old state hSelf hOther
      split at h <;> cases h
      · rename_i hSame
        subst hSame
        by_cases hq : old = some q <;> simp [unsuspended, overwritten, hSelf, hOther, hq]
      · rename_i hNe
        have hSlots : self ≠ other := by
          rintro rfl
          exact hNe (by simpa [hSelf] using hOther)
        have hFirst := live_assign hSelf state q
        have hSecond := live_assign ((guard_assign_of_ne hSlots state).trans hOther) none q
        have hOld : old = some q → state ≠ some q := fun hq hq' => hNe (hq.trans hq'.symm)
        simp only [unsuspended, overwritten, hSelf, hOther, Option.isSome_some, true_and,
          assign_queues, Option.some.injEq, ne_eq, reduceCtorEq, if_false] at hSecond ⊢
        by_cases hq : old = some q
        · simp only [hq, if_true, hOld hq, not_false_eq_true, and_self] at hFirst hSecond ⊢
          omega
        · simp only [hq, if_false, false_and] at hFirst hSecond ⊢
          omega
    · rename_i hDead
      cases h
      have : ¬(s.guard self = some (some q) ∧ (s.guard other).isSome ∧
          s.guard other ≠ some (some q)) := by
        rintro ⟨hSelf, hOther, -⟩
        obtain ⟨state, hState⟩ := Option.isSome_iff_exists.mp hOther
        exact hDead _ _ hSelf hState
      simp [unsuspended, overwritten, this]
  | destroy self =>
    simp only [step] at h
    split at h
    · rename_i state hSelf
      obtain ⟨hLive, hCounter⟩ := resume_ok h q
      have hSet := count_set_guard hSelf none q
      simp only [unsuspended, overwritten, reduceCtorEq, if_false] at hSet ⊢
      simp only [live] at hLive hSet hCounter ⊢
      omega
    · cases h
      simp [unsuspended, overwritten]
  | post thread p task =>
    simp only [step, Except.ok.injEq] at h
    subst h
    have hCounter := update_counter s.queues p (QueueService.post_counter _ thread task) q
    simp only [unsuspended, overwritten, hCounter]
    simp [live]
  | tryDequeTask p =>
    cases h
    have hCounter := update_counter s.queues p (QueueService.tryDequeTask_counter _) q
    simp only [unsuspended, overwritten, hCounter]
    simp [live]

/-- Over a run: what the counter misses was made unsuspended, and what it counts
too much was overwritten. -/
theorem run_accounts {s t : GuardedQueues QueueId ThreadId Task}
    {calls : List (GuardCall QueueId ThreadId Task)} (h : calls.foldlM step s = .ok t)
    (q : QueueId) :
    (t.queues q).suspendCounter + (calls.map (unsuspended q)).sum + s.live q =
      (s.queues q).suspendCounter + t.live q + overwrittenBy s q calls := by
  induction calls generalizing s with
  | nil =>
    cases h
    simp [overwrittenBy]
  | cons call calls ih =>
    rw [List.foldlM_cons] at h
    cases hStep : s.step call with
    | error why => simp [hStep, bind, Except.bind] at h
    | ok middle =>
      rw [hStep] at h
      have hRest := ih h
      have hFirst := step_accounts hStep q
      simp only [overwrittenBy, hStep, List.map_cons, List.sum_cons]
      omega

/-- The copy of a guard that `Suspend` made is counted, and that guard is not. -/
theorem copied_guard_accounts :
    ∃ t : GuardedQueues Unit Unit Nat, (t.queues ()).suspendCounter + 1 = t.live () := by
  have hRun : [GuardCall.suspend (some ()), .copyConstruct 0].foldlM step
      (initial : GuardedQueues Unit Unit Nat) = .ok _ := rfl
  exact ⟨_, (run_accounts hRun ()).trans (Nat.zero_add _)⟩

end Accounting

structure Unguarded (s : GuardedQueues QueueId ThreadId Task) : Prop where
  empty : ∀ i state, s.guard i = some state → state = none
  counter : ∀ q, (s.queues q).suspendCounter = 0

namespace Unguarded
variable {s t : GuardedQueues QueueId ThreadId Task}

omit [DecidableEq QueueId] in
theorem initial : (initial : GuardedQueues QueueId ThreadId Task).Unguarded :=
  ⟨by simp [guard, GuardedQueues.initial], fun _ => rfl⟩

theorem live (h : s.Unguarded) (q : QueueId) : s.live q = 0 := by
  rw [GuardedQueues.live, List.count_eq_zero]
  intro hMem
  obtain ⟨i, hi, hState⟩ := List.getElem_of_mem hMem
  have hGuard : s.guard i = some (some q) := by simp [guard, hi, hState]
  simpa using h.empty i _ hGuard

theorem balanced (h : s.Unguarded) : s.Balanced where
  counter q := by rw [h.counter, h.live]
  held q hLive := by
    rw [h.live] at hLive
    exact absurd hLive (Nat.lt_irrefl 0)
  runs q _ := QueueService.tryDequeTask_fst (h.counter q)

omit [DecidableEq QueueId] in
private theorem of_guards (h : s.Unguarded)
    (hGuards : ∀ slot ∈ t.guards, slot ∈ s.guards ∨ slot = none ∨ slot = some none)
    (hCounter : ∀ q, (t.queues q).suspendCounter = 0) : t.Unguarded where
  counter := hCounter
  empty i state hState := by
    obtain ⟨hi, hSlot⟩ := guard_lt hState
    rcases hGuards _ (hSlot ▸ List.getElem_mem hi) with hMem | hNone | hEmpty
    · obtain ⟨j, hj, hSame⟩ := List.getElem_of_mem hMem
      exact h.empty j state (by simp [guard, hj, hSame])
    · cases hNone
    · exact Option.some.inj hEmpty

/-- Without a call of `Suspend` guards stay empty, and calls on them do nothing. -/
theorem step [DecidableEq ThreadId] (h : s.Unguarded)
    {call : GuardCall QueueId ThreadId Task} (hCall : ∀ q, call ≠ .suspend (some q)) :
    ∃ t, s.step call = .ok t ∧ t.Unguarded := by
  cases call with
  | suspend queue =>
    cases queue with
    | some q => exact absurd rfl (hCall q)
    | none =>
      refine ⟨_, rfl, h.of_guards ?_ h.counter⟩
      simp only [construct, List.mem_append, List.mem_singleton]
      tauto
  | copyConstruct other =>
    cases hOther : s.guard other with
    | none => exact ⟨s, by simp [GuardedQueues.step, hOther], h⟩
    | some state =>
      obtain rfl := h.empty _ _ hOther
      refine ⟨s.construct none, by simp [GuardedQueues.step, hOther, suspend],
        h.of_guards ?_ h.counter⟩
      simp only [construct, List.mem_append, List.mem_singleton]
      tauto
  | moveConstruct other =>
    cases hOther : s.guard other with
    | none => exact ⟨s, by simp [GuardedQueues.step, hOther], h⟩
    | some state =>
      obtain rfl := h.empty _ _ hOther
      refine ⟨(s.assign other none).construct none, by simp [GuardedQueues.step, hOther],
        h.of_guards ?_ h.counter⟩
      simp only [construct, assign, List.mem_append, List.mem_singleton]
      intro slot hSlot
      rcases hSlot with hSlot | hSlot
      · have := List.mem_or_eq_of_mem_set hSlot
        tauto
      · tauto
  | copyAssign self other =>
    cases hSelf : s.guard self with
    | none => exact ⟨s, by simp [GuardedQueues.step, hSelf], h⟩
    | some old =>
      cases hOther : s.guard other with
      | none => exact ⟨s, by simp [GuardedQueues.step, hOther], h⟩
      | some state =>
        obtain rfl := h.empty _ _ hOther
        refine ⟨s.assign self none, by simp [GuardedQueues.step, hSelf, hOther, suspend],
          h.of_guards ?_ h.counter⟩
        intro slot hSlot
        have := List.mem_or_eq_of_mem_set hSlot
        tauto
  | moveAssign self other =>
    refine ⟨s, ?_, h⟩
    cases hSelf : s.guard self with
    | none => simp [GuardedQueues.step, hSelf]
    | some old =>
      cases hOther : s.guard other with
      | none => simp [GuardedQueues.step, hOther]
      | some state =>
        simp [GuardedQueues.step, hSelf, hOther, h.empty _ _ hSelf, h.empty _ _ hOther]
  | destroy self =>
    cases hSelf : s.guard self with
    | none => exact ⟨s, by simp [GuardedQueues.step, hSelf], h⟩
    | some state =>
      obtain rfl := h.empty _ _ hSelf
      refine ⟨{ s with guards := s.guards.set self none },
        by simp [GuardedQueues.step, hSelf, resume], h.of_guards ?_ h.counter⟩
      intro slot hSlot
      have := List.mem_or_eq_of_mem_set hSlot
      tauto
  | post thread p task =>
    refine ⟨_, rfl, h.of_guards (fun slot hSlot => .inl hSlot) fun q => ?_⟩
    exact (update_counter s.queues p (QueueService.post_counter _ thread task) q).trans
      (h.counter q)
  | tryDequeTask p =>
    refine ⟨_, rfl, h.of_guards (fun slot hSlot => .inl hSlot) fun q => ?_⟩
    exact (update_counter s.queues p (QueueService.tryDequeTask_counter _) q).trans
      (h.counter q)

end Unguarded

section Runs
variable [DecidableEq ThreadId]

variable {s : GuardedQueues QueueId ThreadId Task} {calls : List (GuardCall QueueId ThreadId Task)}

theorem BalancedRun.balanced (h : s.BalancedRun calls) : s.Balanced := by
  cases calls with
  | nil => exact h
  | cons call calls => exact h.1

/-- A guard made by `Suspend` leaves the counter behind at once. -/
theorem BalancedRun.not_suspend (h : s.BalancedRun calls) : ∀ q, .suspend (some q) ∉ calls := by
  induction calls generalizing s with
  | nil => simp
  | cons call calls ih =>
    obtain ⟨hBalanced, t, hStep, -, hRest⟩ := h
    intro q hMem
    rcases List.mem_cons.mp hMem with rfl | hMem
    · have hAccounts := step_accounts hStep q
      have hBefore := hBalanced.counter q
      have hAfter := hRest.balanced.counter q
      simp only [unsuspended, overwritten, if_true] at hAccounts
      omega
    · exact ih hRest q hMem

theorem Unguarded.balancedRun (h : s.Unguarded) (hCalls : ∀ q, .suspend (some q) ∉ calls) :
    s.BalancedRun calls := by
  induction calls generalizing s with
  | nil => exact h.balanced
  | cons call calls ih =>
    have hCall : ∀ q, call ≠ .suspend (some q) := by
      rintro q rfl
      exact hCalls q List.mem_cons_self
    obtain ⟨t, hStep, hNext⟩ := h.step hCall
    refine ⟨h.balanced, t, hStep, fun q hLive => ?_, ih hNext fun q hMem => ?_⟩
    · rw [h.live] at hLive
      exact absurd hLive (Nat.lt_irrefl 0)
    · exact hCalls q (List.mem_cons_of_mem _ hMem)

/-- Suspension is balanced exactly in the sequences that suspend no queue: the
guard that `Suspend` returns was never counted. -/
theorem balancedRun_iff (calls : List (GuardCall QueueId ThreadId Task)) :
    (initial : GuardedQueues QueueId ThreadId Task).BalancedRun calls ↔
      ∀ q, .suspend (some q) ∉ calls :=
  ⟨BalancedRun.not_suspend, Unguarded.initial.balancedRun⟩

end Runs

/-- Suspending a queue once and dropping the guard resumes it from zero. -/
theorem suspend_destroy_crashes :
    [GuardCall.suspend (some ()), .destroy 0].foldlM step
        (initial : GuardedQueues Unit Unit Nat) =
      .error "m_suspendCounter must not be negative" ∧
    ¬(initial : GuardedQueues Unit Unit Nat).BalancedRun [.suspend (some ()), .destroy 0] :=
  ⟨rfl, fun h => h.not_suspend () List.mem_cons_self⟩

end GuardedQueues
end Mso
