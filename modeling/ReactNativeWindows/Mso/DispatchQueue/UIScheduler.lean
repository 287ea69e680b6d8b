import ReactNativeWindows.Concurrency.Threads
import ReactNativeWindows.Mso.DispatchQueue.QueueService

/-! The UI thread scheduler under a queue service. Each `Post` hands a reference to
the one handler object to the system dispatcher, which invokes it at most once and
releases it. Two counters, a reference to itself and two shutdown flags must agree.
The queue is alive; the counters do not reach their limit of 2 ^ 32. -/
namespace Mso.UIScheduler

open Concurrency

universe u v

variable {ThreadId : Type v} {Task : Type u}

/-- `accepted` is a handler that the dispatcher holds, and `cleanup` the destructor
of a `CleanupContext` with its `m_isTerminated` and `m_isShutdown`. -/
inductive Frame (ThreadId : Type v) (Task : Type u) where
  | post (thread : ThreadId) (task : Task)
  | suspend
  | resume
  | shutdown (pendingTaskAction : PendingTaskAction)
  | cancelTask (task : Task)
  | schedulerPost
  | tryEnqueue
  | accepted
  | tryTakeTask
  | tryDequeTask
  | invokeTask (task : Task)
  | invoking (task : Task)
  | releaseHandlerRef
  | schedulerShutdown
  | cleanup (isTerminated isShutdown : Bool)
  | cleanupShutdown (isShutdown : Bool)
  deriving DecidableEq

structure Heap (ThreadId : Type v) (Task : Type u) where
  queue : QueueService ThreadId Task
  terminationEvent : Bool
  self : Bool
  handlerRefCount : Nat
  taskCount : Nat
  isShutdown : Bool
  posted : List Task
  invoked : List Task
  canceled : List Task

/-- What is up to the dispatcher, which may refuse or drop a handler, and to tasks. -/
inductive Choice (ThreadId : Type v) (Task : Type u) where
  | go
  | refuse
  | callFromTask (frame : Frame ThreadId Task)

def Heap.initial : Heap ThreadId Task := ⟨.make, false, false, 0, 0, false, [], [], []⟩

def Frame.isCall : Frame ThreadId Task → Bool
  | post _ _ | suspend | resume | shutdown _ => true
  | _ => false

/-- `CheckShutdown`: the dispatcher released all handlers without invoking them. -/
def checkShutdown (h : Heap ThreadId Task) : Bool × Heap ThreadId Task :=
  if h.taskCount ≠ 0 ∧ h.handlerRefCount = 0 then
    (true, { h with taskCount := 0, isShutdown := true })
  else
    (false, h)

def checkTermination (h : Heap ThreadId Task) : Bool :=
  h.isShutdown && h.handlerRefCount == 0

def releaseHandlerRef (h : Heap ThreadId Task) :
    Option (Outcome (Heap ThreadId Task) (Frame ThreadId Task) String) :=
  if h.handlerRefCount = 0 then
    some (.crash "Ref count cannot be negative")
  else if h.handlerRefCount - 1 = 0 then
    let (isShutdown, h) := checkShutdown { h with handlerRefCount := 0, self := false }
    some (.next h [.cleanup (checkTermination h) isShutdown] [])
  else
    some (.next { h with handlerRefCount := h.handlerRefCount - 1 } [.cleanup false false] [])

/-- What a release does: it fails, is not the last, or leaves no task or some. -/
theorem releaseHandlerRef_cases (h : Heap ThreadId Task) :
    h.handlerRefCount = 0 ∧ releaseHandlerRef h = some (.crash "Ref count cannot be negative") ∨
    (∃ refs, h.handlerRefCount = refs + 2 ∧ releaseHandlerRef h =
      some (.next { h with handlerRefCount := refs + 1 } [.cleanup false false] [])) ∨
    h.handlerRefCount = 1 ∧ h.taskCount = 0 ∧ releaseHandlerRef h =
      some (.next { h with handlerRefCount := 0, self := false }
        [.cleanup h.isShutdown false] []) ∨
    h.handlerRefCount = 1 ∧ h.taskCount ≠ 0 ∧ releaseHandlerRef h =
      some (.next
        { h with handlerRefCount := 0, self := false, taskCount := 0, isShutdown := true }
        [.cleanup true true] []) := by
  match hRefs : h.handlerRefCount with
  | 0 => exact .inl ⟨rfl, by simp [releaseHandlerRef, hRefs]⟩
  | refs + 2 => exact .inr (.inl ⟨refs, rfl, by simp [releaseHandlerRef, hRefs]⟩)
  | 1 =>
    by_cases hTasks : h.taskCount = 0
    · exact .inr (.inr (.inl ⟨rfl, hTasks,
        by simp [releaseHandlerRef, checkShutdown, checkTermination, hRefs, hTasks]⟩))
    · exact .inr (.inr (.inr ⟨rfl, hTasks,
        by simp [releaseHandlerRef, checkShutdown, checkTermination, hRefs, hTasks]⟩))

@[grind =]
def exec [DecidableEq ThreadId] (h : Heap ThreadId Task) (frame : Frame ThreadId Task)
    (choice : Choice ThreadId Task) :
    Option (Outcome (Heap ThreadId Task) (Frame ThreadId Task) String) :=
  match frame with
  | .post thread task =>
    match h.queue.post thread task with
    | (queue, .schedule) => some (.next
        { h with queue := queue, posted := h.posted ++ [task] } [.schedulerPost] [])
    | (queue, .done) => some (.next
        { h with queue := queue, posted := h.posted ++ [task] } [] [])
    | (queue, .cancel) => some (.next
        { h with queue := queue, posted := h.posted ++ [task] } [.cancelTask task] [])
  | .suspend => some (.next { h with queue := h.queue.suspend } [] [])
  | .resume =>
    match h.queue.resume with
    | .ok (postCount, queue) => some (.next { h with queue := queue }
        (List.replicate postCount .schedulerPost) [])
    | .error why => some (.crash why)
  | .shutdown pendingTaskAction =>
    let (tasksToCancel, queue) := h.queue.shutdown pendingTaskAction
    some (.next { h with queue := queue }
      (tasksToCancel.map .cancelTask ++ [.schedulerShutdown]) [])
  | .cancelTask task => some (.next { h with canceled := h.canceled ++ [task] } [] [])
  | .schedulerPost =>
    if h.isShutdown = true then
      some (.next h [] [])
    else
      some (.next
        { h with
          taskCount := h.taskCount + 1
          self := if h.handlerRefCount = 0 then true else h.self
          handlerRefCount := h.handlerRefCount + 1 } [.tryEnqueue] [])
  -- A dispatcher that accepts the handler takes a reference of its own.
  | .tryEnqueue =>
    match choice with
    | .refuse => some (.next h [.releaseHandlerRef] [])
    | _ => some (.next { h with handlerRefCount := h.handlerRefCount + 1 }
        [.releaseHandlerRef] [.accepted])
  | .accepted =>
    match choice with
    | .refuse => some (.next h [.releaseHandlerRef] [])
    | _ => some (.next h [.tryTakeTask] [])
  | .tryTakeTask =>
    if h.taskCount = 0 then
      some (.crash "Task count cannot be negative")
    else
      some (.next { h with taskCount := h.taskCount - 1 } [.tryDequeTask] [])
  | .tryDequeTask =>
    match h.queue.tryDequeTask with
    | (some task, queue) => some (.next { h with queue := queue } [.invokeTask task] [])
    | (none, queue) => some (.next { h with queue := queue } [.releaseHandlerRef] [])
  | .invokeTask task =>
    some (.next { h with invoked := h.invoked ++ [task] } [.invoking task] [])
  | .invoking task =>
    match choice with
    | .callFromTask call =>
      if call.isCall = true then some (.next h [call, .invoking task] []) else none
    | _ => some (.next h [.releaseHandlerRef] [])
  | .releaseHandlerRef => releaseHandlerRef h
  | .schedulerShutdown =>
    let h := { h with isShutdown := true }
    some (.next h [.cleanup (checkTermination h) false] [])
  | .cleanup isTerminated isShutdown =>
    some (.next { h with terminationEvent := isTerminated || h.terminationEvent }
      [.cleanupShutdown isShutdown] [])
  | .cleanupShutdown isShutdown =>
    some (.next h (if isShutdown then [.shutdown .cancel] else []) [])

def uiScheduler [DecidableEq ThreadId] :
    Machine (Heap ThreadId Task) (Frame ThreadId Task) (Choice ThreadId Task) String where
  exec := exec
  start h frame := if frame.isCall = true then some h else none

namespace Frame

def holdsRef : Frame ThreadId Task → Bool
  | tryEnqueue | accepted | tryTakeTask | tryDequeTask | invokeTask _ | invoking _
  | releaseHandlerRef => true
  | _ => false

def counted : Frame ThreadId Task → Bool
  | tryEnqueue | accepted | tryTakeTask => true
  | _ => false

def takes : Frame ThreadId Task → Bool
  | schedulerPost | tryEnqueue | accepted | tryTakeTask | tryDequeTask => true
  | _ => false

def cancels : Frame ThreadId Task → Bool
  | cleanup _ isShutdown | cleanupShutdown isShutdown => isShutdown
  | shutdown pendingTaskAction => pendingTaskAction = .cancel
  | _ => false

def terminates : Frame ThreadId Task → Bool
  | cleanup isTerminated _ => isTerminated
  | _ => false

def taken : Frame ThreadId Task → Option Task
  | invokeTask task | cancelTask task => some task
  | _ => none

theorem holdsRef_of_counted {frame : Frame ThreadId Task} (h : frame.counted = true) :
    frame.holdsRef = true := by
  cases frame <;> simp_all [counted, holdsRef]

end Frame

/-- Unless the queue is suspended, somebody looks after every task in it: a handler
that will take it, or a handler that was refused or a shutdown, which cancel it. -/
def LookedAfter (h : Heap ThreadId Task) (F : Multiset (Frame ThreadId Task)) : Prop :=
  h.queue.suspendCounter = 0 →
    h.queue.tasks.length ≤ tally Frame.takes F ∨ tally Frame.counted F < h.taskCount ∨
      0 < tally Frame.cancels F

/-- A `Post` that `m_isShutdown` turns away was not needed for the tasks in the queue. -/
def PostsInTime (h : Heap ThreadId Task) (frame : Frame ThreadId Task)
    (F : Multiset (Frame ThreadId Task)) : Prop :=
  frame = .schedulerPost → h.isShutdown = true → LookedAfter h F

instance (h : Heap ThreadId Task) (F : Multiset (Frame ThreadId Task)) :
    Decidable (LookedAfter h F) :=
  inferInstanceAs (Decidable (_ → _ ∨ _ ∨ _))

instance [DecidableEq ThreadId] [DecidableEq Task] (h : Heap ThreadId Task)
    (frame : Frame ThreadId Task) (F : Multiset (Frame ThreadId Task)) :
    Decidable (PostsInTime h frame F) :=
  inferInstanceAs (Decidable (_ → _ → LookedAfter h F))

/-- The counters agree with the frames that hold and take what they count, and no
posted task is lost. -/
structure Inv (h : Heap ThreadId Task) (F : Multiset (Frame ThreadId Task)) : Prop where
  unbatched : ∀ thread, h.queue.taskBatches thread = none
  refs : h.handlerRefCount = tally Frame.holdsRef F
  counted : tally Frame.counted F ≤ h.taskCount
  idle : h.handlerRefCount = 0 → h.taskCount = 0
  selfRef : h.self = true ↔ 0 < h.handlerRefCount
  terminated : h.isShutdown = true → h.handlerRefCount = 0 →
    h.terminationEvent = true ∨ 0 < tally Frame.terminates F
  accounts : (h.posted : Multiset Task) =
    h.invoked + h.canceled + gather Frame.taken F + h.queue.tasks

namespace Inv
variable {h : Heap ThreadId Task} {frame : Frame ThreadId Task} {F : Multiset (Frame ThreadId Task)}

theorem initial : Inv (Heap.initial : Heap ThreadId Task) 0 where
  unbatched _ := rfl
  refs := rfl
  counted := Nat.le_refl 0
  idle _ := rfl
  selfRef := by simp [Heap.initial]
  terminated hDown := by cases hDown
  accounts := rfl

/-- A step that only moves a thread on to another frame. -/
theorem move (hInv : Inv h (frame ::ₘ F)) (next : Frame ThreadId Task)
    (hHolds : next.holdsRef = frame.holdsRef) (hTaken : next.taken = frame.taken)
    (hCounted : next.counted = true → frame.counted = true)
    (hTerminates : frame.terminates = true → next.terminates = true) :
    Inv h (next ::ₘ F) := by
  refine { hInv with refs := ?_, counted := ?_, terminated := ?_, accounts := ?_ }
  · rw [hInv.refs, tally_cons, tally_cons, hHolds]
  · have hLe := hInv.counted
    rw [tally_cons] at hLe ⊢
    cases hNew : next.counted with
    | true => simpa [hCounted hNew] using hLe
    | false => exact (Nat.le_add_right _ _).trans hLe
  · intro hDown hNone
    exact (hInv.terminated hDown hNone).imp_right (tally_pos_replace hTerminates)
  · rw [gather_cons_congr hTaken]
    exact hInv.accounts

theorem push (hInv : Inv h F) (hHolds : frame.holdsRef = false) (hTaken : frame.taken = none)
    (hCounted : frame.counted = false) : Inv h (frame ::ₘ F) := by
  refine { hInv with refs := ?_, counted := ?_, terminated := ?_, accounts := ?_ }
  · rw [hInv.refs, tally_cons_neg hHolds]
  · rw [tally_cons_neg hCounted]
    exact hInv.counted
  · intro hDown hNone
    exact (hInv.terminated hDown hNone).imp_right (tally_pos_push · frame)
  · rw [gather_cons_none hTaken]
    exact hInv.accounts

theorem pop (hInv : Inv h (frame ::ₘ F)) (hHolds : frame.holdsRef = false)
    (hTaken : frame.taken = none) (hTerminates : frame.terminates = false) : Inv h F := by
  refine { hInv with refs := ?_, counted := ?_, terminated := ?_, accounts := ?_ }
  · rw [hInv.refs, tally_cons_neg hHolds]
  · have hLe := hInv.counted
    rw [tally_cons] at hLe
    omega
  · rw [← tally_cons_neg hTerminates]
    exact hInv.terminated
  · rw [← gather_cons_none hTaken]
    exact hInv.accounts

variable {queue : QueueService ThreadId Task}

theorem setQueue (hInv : Inv h F) (hTasks : queue.tasks = h.queue.tasks)
    (hBatches : queue.taskBatches = h.queue.taskBatches) : Inv { h with queue := queue } F := by
  refine { hInv with unbatched := ?_, accounts := ?_ }
  · simpa only [hBatches] using hInv.unbatched
  · simpa only [hTasks] using hInv.accounts

variable {task : Task}

theorem accept (hInv : Inv h F) (hTasks : queue.tasks = h.queue.tasks ++ [task])
    (hBatches : queue.taskBatches = h.queue.taskBatches) :
    Inv { h with queue := queue, posted := h.posted ++ [task] } F := by
  refine { hInv with unbatched := ?_, accounts := ?_ }
  · simpa only [hBatches] using hInv.unbatched
  · simp only [hTasks, ← Multiset.coe_add, hInv.accounts]
    rw [add_assoc]

private theorem gather_cancelTask (task : Task) (F : Multiset (Frame ThreadId Task)) :
    gather Frame.taken (.cancelTask task ::ₘ F) = task ::ₘ gather Frame.taken F := by
  have hTaken : Frame.taken (.cancelTask task : Frame ThreadId Task) = some task := rfl
  exact gather_cons_some hTaken F

private theorem gather_invokeTask (task : Task) (F : Multiset (Frame ThreadId Task)) :
    gather Frame.taken (.invokeTask task ::ₘ F) = task ::ₘ gather Frame.taken F := by
  have hTaken : Frame.taken (.invokeTask task : Frame ThreadId Task) = some task := rfl
  exact gather_cons_some hTaken F

theorem refuse (hInv : Inv h F) (task : Task) :
    Inv { h with posted := h.posted ++ [task] } (.cancelTask task ::ₘ F) := by
  have hTallies := hInv.counted
  refine { hInv with refs := ?_, counted := ?_, terminated := ?_, accounts := ?_ }
  · rw [hInv.refs, tally_cons_neg rfl]
  · rw [tally_cons_neg rfl]
    exact hTallies
  · rw [tally_cons_neg rfl]
    exact hInv.terminated
  · simp only [gather_cancelTask, ← Multiset.coe_add, hInv.accounts]
    rw [Multiset.coe_singleton, ← Multiset.singleton_add]
    ac_rfl

variable {calls : List (Frame ThreadId Task)}

/-- Calls that hold and take nothing. -/
theorem pushAll (hInv : Inv h F) (hHolds : ∀ f ∈ calls, f.holdsRef = false)
    (hTaken : ∀ f ∈ calls, f.taken = none) (hCounted : ∀ f ∈ calls, f.counted = false) :
    Inv h (↑calls + F) := by
  induction calls with
  | nil => simpa using hInv
  | cons frame calls ih =>
    rw [cons_frames]
    refine (ih ?_ ?_ ?_).push (hHolds _ List.mem_cons_self) (hTaken _ List.mem_cons_self)
      (hCounted _ List.mem_cons_self)
    · exact fun f hMem => hHolds f (List.mem_cons_of_mem _ hMem)
    · exact fun f hMem => hTaken f (List.mem_cons_of_mem _ hMem)
    · exact fun f hMem => hCounted f (List.mem_cons_of_mem _ hMem)

/-- The tasks that a canceling shutdown takes out of the queue. -/
theorem cancelAll (hInv : Inv h F) (hTasks : queue.tasks = [])
    (hBatches : queue.taskBatches = h.queue.taskBatches) :
    Inv { h with queue := queue }
      (↑(h.queue.tasks.map .cancelTask : List (Frame ThreadId Task)) + F) where
  unbatched := by simpa only [hBatches] using hInv.unbatched
  refs := by
    rw [tally_calls_neg (by simp [Frame.holdsRef])]
    exact hInv.refs
  counted := by
    rw [tally_calls_neg (by simp [Frame.counted])]
    exact hInv.counted
  idle := hInv.idle
  selfRef := hInv.selfRef
  terminated := by
    rw [tally_calls_neg (by simp [Frame.terminates])]
    exact hInv.terminated
  accounts := by
    have hTaken : ∀ task, Frame.taken (.cancelTask task : Frame ThreadId Task) = some task :=
      fun _ => rfl
    rw [gather_calls_map hTaken, hTasks, hInv.accounts, Multiset.coe_nil, add_zero]
    ac_rfl

theorem cancelTask (hInv : Inv h (.cancelTask task ::ₘ F)) :
    Inv { h with canceled := h.canceled ++ [task] } F where
  unbatched := hInv.unbatched
  refs := by
    have hRefs := hInv.refs
    rwa [tally_cons_neg rfl] at hRefs
  counted := by
    have hCounted := hInv.counted
    rwa [tally_cons_neg rfl] at hCounted
  idle := hInv.idle
  selfRef := hInv.selfRef
  terminated := by
    have hTerminated := hInv.terminated
    rwa [tally_cons_neg rfl] at hTerminated
  accounts := by
    have hAccounts := hInv.accounts
    rw [gather_cancelTask, ← Multiset.singleton_add] at hAccounts
    rw [hAccounts, ← Multiset.coe_add, Multiset.coe_singleton]
    ac_rfl

/-- A reference is handed to the dispatcher, and counted as a task to be taken. -/
theorem addTask (hInv : Inv h (.schedulerPost ::ₘ F)) (hUp : h.isShutdown = false) :
    Inv { h with
      taskCount := h.taskCount + 1
      self := if h.handlerRefCount = 0 then true else h.self
      handlerRefCount := h.handlerRefCount + 1 } (.tryEnqueue ::ₘ F) where
  unbatched := hInv.unbatched
  refs := by
    have hRefs := hInv.refs
    rw [tally_cons_neg rfl] at hRefs
    rw [tally_cons_pos rfl]
    simp only
    omega
  counted := by
    have hCounted := hInv.counted
    rw [tally_cons_neg rfl] at hCounted
    rw [tally_cons_pos rfl]
    simp only
    omega
  idle hNone := by cases hNone
  selfRef := by
    have hSelf := hInv.selfRef
    by_cases hNone : h.handlerRefCount = 0
    · simp [hNone]
    · simp only [hNone, if_false, Nat.succ_pos, iff_true]
      exact hSelf.mpr (Nat.pos_of_ne_zero hNone)
  terminated hDown := by simp [hUp] at hDown
  accounts := by
    have hAccounts := hInv.accounts
    rw [gather_cons_none rfl] at hAccounts ⊢
    exact hAccounts

/-- The dispatcher takes a reference, and the poster is left with its own. -/
theorem enqueue (hInv : Inv h (.tryEnqueue ::ₘ F)) :
    Inv { h with handlerRefCount := h.handlerRefCount + 1 }
      (.releaseHandlerRef ::ₘ .accepted ::ₘ F) where
  unbatched := hInv.unbatched
  refs := by
    have hRefs := hInv.refs
    rw [tally_cons_pos rfl] at hRefs
    rw [tally_cons_pos rfl, tally_cons_pos rfl]
    simp only
    omega
  counted := by
    have hCounted := hInv.counted
    rw [tally_cons_pos rfl] at hCounted
    rwa [tally_cons_neg rfl, tally_cons_pos rfl]
  idle hNone := by cases hNone
  selfRef := by
    have hRefs := hInv.refs
    rw [tally_cons_pos rfl] at hRefs
    simp only [Nat.succ_pos, iff_true]
    exact hInv.selfRef.mpr (by omega)
  terminated _ hNone := by cases hNone
  accounts := by
    have hAccounts := hInv.accounts
    rw [gather_cons_none rfl] at hAccounts
    rw [gather_cons_none rfl, gather_cons_none rfl]
    exact hAccounts

/-- A handler that is invoked is one of those that the tasks were counted for. -/
theorem taskCount_pos (hInv : Inv h (.tryTakeTask ::ₘ F)) : 0 < h.taskCount := by
  have hCounted := hInv.counted
  rw [tally_cons_pos rfl] at hCounted
  omega

theorem tryTakeTask (hInv : Inv h (.tryTakeTask ::ₘ F)) :
    Inv { h with taskCount := h.taskCount - 1 } (.tryDequeTask ::ₘ F) where
  unbatched := hInv.unbatched
  refs := by
    have hRefs := hInv.refs
    rwa [tally_cons_pos rfl] at hRefs ⊢
  counted := by
    have hCounted := hInv.counted
    rw [tally_cons_pos rfl] at hCounted
    rw [tally_cons_neg rfl]
    simp only
    omega
  idle hNone := by
    have hIdle := hInv.idle hNone
    simp only [hIdle]
  selfRef := hInv.selfRef
  terminated := by
    have hTerminated := hInv.terminated
    rwa [tally_cons_neg rfl] at hTerminated ⊢
  accounts := by
    have hAccounts := hInv.accounts
    rw [gather_cons_none rfl] at hAccounts ⊢
    exact hAccounts

theorem dequeue (hInv : Inv h (.tryDequeTask ::ₘ F)) (hTasks : h.queue.tasks = task :: queue.tasks)
    (hBatches : queue.taskBatches = h.queue.taskBatches) :
    Inv { h with queue := queue } (.invokeTask task ::ₘ F) where
  unbatched := by simpa only [hBatches] using hInv.unbatched
  refs := by
    have hRefs := hInv.refs
    rwa [tally_cons_pos rfl] at hRefs ⊢
  counted := by
    have hCounted := hInv.counted
    rwa [tally_cons_neg rfl] at hCounted ⊢
  idle := hInv.idle
  selfRef := hInv.selfRef
  terminated := by
    have hTerminated := hInv.terminated
    rwa [tally_cons_neg rfl] at hTerminated ⊢
  accounts := by
    have hAccounts := hInv.accounts
    rw [hTasks, gather_cons_none rfl, ← Multiset.cons_coe, ← Multiset.singleton_add] at hAccounts
    simp only [gather_invokeTask, hAccounts]
    rw [← Multiset.singleton_add]
    ac_rfl

theorem invoke (hInv : Inv h (.invokeTask task ::ₘ F)) :
    Inv { h with invoked := h.invoked ++ [task] } (.invoking task ::ₘ F) where
  unbatched := hInv.unbatched
  refs := by
    have hRefs := hInv.refs
    rwa [tally_cons_pos rfl] at hRefs ⊢
  counted := by
    have hCounted := hInv.counted
    rwa [tally_cons_neg rfl] at hCounted ⊢
  idle := hInv.idle
  selfRef := hInv.selfRef
  terminated := by
    have hTerminated := hInv.terminated
    rwa [tally_cons_neg rfl] at hTerminated ⊢
  accounts := by
    have hAccounts := hInv.accounts
    rw [gather_invokeTask, ← Multiset.singleton_add] at hAccounts
    rw [gather_cons_none rfl, hAccounts, ← Multiset.coe_add, Multiset.coe_singleton]
    ac_rfl

/-- A frame that releases a reference is one of those that hold it. -/
theorem handlerRefCount_pos (hInv : Inv h (.releaseHandlerRef ::ₘ F)) : 0 < h.handlerRefCount := by
  have hRefs := hInv.refs
  rw [tally_cons_pos rfl] at hRefs
  omega

variable {h' : Heap ThreadId Task} {forks : List (Frame ThreadId Task)}

/-- The last reference that is released gives up `m_self`, and tasks that no handler
will take any more cause a shutdown. -/
theorem release (hInv : Inv h (.releaseHandlerRef ::ₘ F))
    (hExec : UIScheduler.releaseHandlerRef h = some (.next h' calls forks)) :
    Inv h' (↑calls + (↑forks + F)) := by
  have hPos := hInv.handlerRefCount_pos
  have hSelf := hInv.selfRef
  have hRefs := hInv.refs
  have hCounted := hInv.counted
  have hAccounts := hInv.accounts
  rw [tally_cons_pos rfl] at hRefs
  rw [tally_cons_neg rfl] at hCounted
  rw [gather_cons_none rfl] at hAccounts
  have hLast : h.handlerRefCount = 1 → tally Frame.counted F = 0 := by
    intro hOne
    have hLe : tally Frame.counted F ≤ tally Frame.holdsRef F :=
      tally_le_tally (fun f => Frame.holdsRef_of_counted) F
    omega
  rcases releaseHandlerRef_cases h with ⟨hNone, -⟩ | ⟨refs, hMany, hNext⟩ |
    ⟨hOne, hNoTasks, hNext⟩ | ⟨hOne, -, hNext⟩
  · omega
  · rw [hNext, Option.some.injEq, Outcome.next.injEq] at hExec
    obtain ⟨rfl, rfl, rfl⟩ := hExec
    simp only [cons_frames, nil_frames]
    refine { hInv with
      refs := ?_, counted := ?_, idle := ?_, selfRef := ?_, terminated := ?_, accounts := ?_ }
    · rw [tally_cons_neg rfl]
      simp only
      omega
    · rwa [tally_cons_neg rfl]
    · exact fun hNone => by cases hNone
    · simp only [Nat.succ_pos, iff_true]
      exact hSelf.mpr hPos
    · exact fun _ hNone => by cases hNone
    · rwa [gather_cons_none rfl]
  · rw [hNext, Option.some.injEq, Outcome.next.injEq] at hExec
    obtain ⟨rfl, rfl, rfl⟩ := hExec
    simp only [cons_frames, nil_frames]
    refine { hInv with
      refs := ?_, counted := ?_, idle := ?_, selfRef := ?_, terminated := ?_, accounts := ?_ }
    · rw [tally_cons_neg rfl]
      simp only
      omega
    · rwa [tally_cons_neg rfl]
    · exact fun _ => hNoTasks
    · simp
    · intro hDown _
      have hTerminates : Frame.terminates (.cleanup h.isShutdown false : Frame ThreadId Task) =
        true := hDown
      rw [tally_cons_pos hTerminates]
      exact .inr (Nat.succ_pos _)
    · rwa [gather_cons_none rfl]
  · rw [hNext, Option.some.injEq, Outcome.next.injEq] at hExec
    obtain ⟨rfl, rfl, rfl⟩ := hExec
    simp only [cons_frames, nil_frames]
    refine { hInv with
      refs := ?_, counted := ?_, idle := ?_, selfRef := ?_, terminated := ?_, accounts := ?_ }
    · rw [tally_cons_neg rfl]
      simp only
      omega
    · rw [tally_cons_neg rfl, hLast hOne]
    · exact fun _ => rfl
    · simp
    · intro _ _
      rw [tally_cons_pos rfl]
      exact .inr (Nat.succ_pos _)
    · rwa [gather_cons_none rfl]

theorem schedulerShutdown (hInv : Inv h (.schedulerShutdown ::ₘ F)) :
    Inv { h with isShutdown := true }
      (.cleanup (checkTermination { h with isShutdown := true }) false ::ₘ F) := by
  have hMoved : Inv h (.cleanup (checkTermination { h with isShutdown := true }) false ::ₘ F) :=
    hInv.move _ rfl rfl (by simp [Frame.counted]) (by simp [Frame.terminates])
  refine { hMoved with terminated := ?_ }
  intro _ hNone
  have hTerminates : Frame.terminates (.cleanup (checkTermination { h with isShutdown := true })
      false : Frame ThreadId Task) = true := by
    simpa [Frame.terminates, checkTermination] using hNone
  rw [tally_cons_pos hTerminates]
  exact .inr (Nat.succ_pos _)

theorem cleanup {isTerminated isShutdown : Bool}
    (hInv : Inv h (.cleanup isTerminated isShutdown ::ₘ F)) :
    Inv { h with terminationEvent := isTerminated || h.terminationEvent }
      (.cleanupShutdown isShutdown ::ₘ F) := by
  cases isTerminated with
  | false =>
    have hMoved : Inv h (.cleanupShutdown isShutdown ::ₘ F) :=
      hInv.move _ rfl rfl (by simp [Frame.counted]) (by simp [Frame.terminates])
    exact { hMoved with unbatched := hMoved.unbatched }
  | true =>
    refine { hInv with
      refs := ?_, counted := ?_, terminated := fun _ _ => .inl rfl, accounts := ?_ }
    · have hRefs := hInv.refs
      rwa [tally_cons_neg rfl] at hRefs ⊢
    · have hCounted := hInv.counted
      rwa [tally_cons_neg rfl] at hCounted ⊢
    · have hAccounts := hInv.accounts
      rw [gather_cons_none rfl] at hAccounts ⊢
      exact hAccounts

variable [DecidableEq ThreadId]

theorem start (hInv : Inv h F) (hStart : uiScheduler.start h frame = some h') :
    Inv h' (frame ::ₘ F) := by
  simp only [uiScheduler] at hStart
  split at hStart <;> cases hStart
  rename_i hCall
  cases frame <;> simp only [Frame.isCall, Bool.false_eq_true] at hCall <;>
    exact hInv.push rfl rfl rfl

variable {choice : Choice ThreadId Task}

/-- `Post` under the lock, then the scheduler's unless suspended, or the cancellation. -/
theorem post {thread : ThreadId} (hInv : Inv h (.post thread task ::ₘ F))
    (hExec : exec h (.post thread task) choice = some (.next h' calls forks)) :
    Inv h' (↑calls + (↑forks + F)) := by
  have hPopped : Inv h F := hInv.pop rfl rfl rfl
  rcases QueueService.post_cases (hInv.unbatched thread) task with
    ⟨hPost, -⟩ | ⟨queue, hSame, hTasks, -, ⟨hPost, -⟩ | ⟨hPost, -⟩⟩ <;>
    simp only [exec, hPost, Option.some.injEq, Outcome.next.injEq] at hExec <;>
    obtain ⟨rfl, rfl, rfl⟩ := hExec <;> simp only [cons_frames, nil_frames]
  · exact hPopped.refuse task
  · exact (hPopped.accept hTasks hSame.taskBatches).push rfl rfl rfl
  · exact hPopped.accept hTasks hSame.taskBatches

theorem resume (hInv : Inv h (.resume ::ₘ F))
    (hExec : exec h .resume choice = some (.next h' calls forks)) :
    Inv h' (↑calls + (↑forks + F)) := by
  have hPopped : Inv h F := hInv.pop rfl rfl rfl
  rcases h.queue.resume_cases with ⟨hResume, -⟩ |
    ⟨postCount, queue, hResume, hTasks, -, hBatches, -, -⟩ <;>
    simp only [exec, hResume, Option.some.injEq, Outcome.next.injEq, reduceCtorEq] at hExec
  obtain ⟨rfl, rfl, rfl⟩ := hExec
  simp only [nil_frames]
  refine (hPopped.setQueue hTasks hBatches).pushAll ?_ ?_ ?_ <;> intro f hMem <;>
    obtain rfl := List.eq_of_mem_replicate hMem <;> rfl

theorem shutdown {pendingTaskAction : PendingTaskAction}
    (hInv : Inv h (.shutdown pendingTaskAction ::ₘ F))
    (hExec : exec h (.shutdown pendingTaskAction) choice = some (.next h' calls forks)) :
    Inv h' (↑calls + (↑forks + F)) := by
  have hPopped : Inv h F := hInv.pop rfl rfl rfl
  simp only [exec, Option.some.injEq, Outcome.next.injEq] at hExec
  obtain ⟨rfl, rfl, rfl⟩ := hExec
  rw [nil_frames, ← Multiset.coe_add, add_assoc, cons_frames, nil_frames]
  have hPushed : Inv h (.schedulerShutdown ::ₘ F) := hPopped.push rfl rfl rfl
  cases pendingTaskAction with
  | complete =>
    simp only [QueueService.shutdown_complete, List.map_nil, nil_frames]
    exact hPushed.setQueue rfl rfl
  | cancel =>
    obtain ⟨hCanceled, hNone⟩ := h.queue.shutdown_cancel
    rw [hCanceled]
    exact hPushed.cancelAll hNone (QueueService.shutdown_taskBatches _)

theorem tryDequeTask (hInv : Inv h (.tryDequeTask ::ₘ F))
    (hExec : exec h .tryDequeTask choice = some (.next h' calls forks)) :
    Inv h' (↑calls + (↑forks + F)) := by
  rcases h.queue.tryDequeTask_cases with ⟨task, queue, hDeque, hSame, -, hTasks⟩ |
    ⟨queue, hDeque, hSame, hTasks, -⟩ <;>
    simp only [exec, hDeque, Option.some.injEq, Outcome.next.injEq] at hExec <;>
    obtain ⟨rfl, rfl, rfl⟩ := hExec <;> simp only [cons_frames, nil_frames]
  · exact hInv.dequeue hTasks hSame.taskBatches
  · have hMoved : Inv h (.releaseHandlerRef ::ₘ F) :=
      hInv.move _ rfl rfl (by simp [Frame.counted]) (by simp [Frame.terminates])
    exact hMoved.setQueue hTasks hSame.taskBatches

theorem exec (hInv : Inv h (frame ::ₘ F))
    (hExec : UIScheduler.exec h frame choice = some (.next h' calls forks)) :
    Inv h' (↑calls + (↑forks + F)) := by
  cases frame with
  | post thread task => exact hInv.post hExec
  | resume => exact hInv.resume hExec
  | shutdown pendingTaskAction => exact hInv.shutdown hExec
  | tryDequeTask => exact hInv.tryDequeTask hExec
  | releaseHandlerRef => exact hInv.release hExec
  | suspend =>
    cases hExec
    simp only [nil_frames]
    have hPopped : Inv h F := hInv.pop rfl rfl rfl
    exact hPopped.setQueue rfl rfl
  | cancelTask task =>
    cases hExec
    simpa using hInv.cancelTask
  | schedulerPost =>
    simp only [UIScheduler.exec] at hExec
    split at hExec <;> cases hExec <;> rename_i hDown <;> simp only [cons_frames, nil_frames]
    · exact hInv.pop rfl rfl rfl
    · exact hInv.addTask (by simpa using hDown)
  | tryEnqueue =>
    simp only [UIScheduler.exec] at hExec
    split at hExec <;> cases hExec <;> simp only [cons_frames, nil_frames]
    · exact hInv.move _ rfl rfl (by simp [Frame.counted]) (by simp [Frame.terminates])
    · exact hInv.enqueue
  | accepted =>
    simp only [UIScheduler.exec] at hExec
    split at hExec <;> cases hExec <;> simp only [cons_frames, nil_frames]
    · exact hInv.move _ rfl rfl (by simp [Frame.counted]) (by simp [Frame.terminates])
    · exact hInv.move _ rfl rfl (by simp [Frame.counted]) (by simp [Frame.terminates])
  | tryTakeTask =>
    simp only [UIScheduler.exec] at hExec
    split at hExec <;> cases hExec
    simpa using hInv.tryTakeTask
  | invokeTask task =>
    cases hExec
    simpa using hInv.invoke
  | invoking task =>
    simp only [UIScheduler.exec] at hExec
    split at hExec
    · rename_i call
      split at hExec <;> cases hExec
      rename_i hCall
      simp only [cons_frames, nil_frames]
      cases call <;> simp only [Frame.isCall, Bool.false_eq_true] at hCall <;>
        exact hInv.push rfl rfl rfl
    · cases hExec
      simp only [cons_frames, nil_frames]
      exact hInv.move _ rfl rfl (by simp [Frame.counted]) (by simp [Frame.terminates])
  | schedulerShutdown =>
    cases hExec
    simpa using hInv.schedulerShutdown
  | cleanup isTerminated isShutdown =>
    cases hExec
    simpa using hInv.cleanup
  | cleanupShutdown isShutdown =>
    cases isShutdown with
    | false =>
      cases hExec
      simp only [Bool.false_eq_true, if_false, nil_frames]
      exact hInv.pop rfl rfl rfl
    | true =>
      cases hExec
      simp only [if_true, cons_frames, nil_frames]
      exact hInv.move _ rfl rfl (by simp [Frame.counted]) (by simp [Frame.terminates])

/-- The only check that can fail is the one of `Resume`. -/
theorem crash (hInv : Inv h (frame ::ₘ F)) {why : String}
    (hExec : UIScheduler.exec h frame choice = some (.crash why)) :
    why = "m_suspendCounter must not be negative" := by
  cases frame with
  | post thread task | tryDequeTask | schedulerPost | tryEnqueue | accepted =>
    simp only [UIScheduler.exec] at hExec
    split at hExec <;> cases hExec
  | resume =>
    rcases h.queue.resume_cases with ⟨hResume, -⟩ | ⟨postCount, queue, hResume, -⟩ <;>
      simp only [UIScheduler.exec, hResume, Option.some.injEq, Outcome.crash.injEq, reduceCtorEq]
        at hExec
    exact hExec.symm
  | tryTakeTask =>
    have hPos := hInv.taskCount_pos
    simp only [UIScheduler.exec] at hExec
    split at hExec
    · omega
    · cases hExec
  | releaseHandlerRef =>
    have hPos := hInv.handlerRefCount_pos
    rcases releaseHandlerRef_cases h with ⟨hNone, -⟩ | ⟨refs, -, hNext⟩ | ⟨-, -, hNext⟩ |
      ⟨-, -, hNext⟩
    · omega
    all_goals
      simp only [UIScheduler.exec, hNext, Option.some.injEq, reduceCtorEq] at hExec
  | invoking task =>
    simp only [UIScheduler.exec] at hExec
    split at hExec
    · split at hExec <;> cases hExec
    · cases hExec
  | suspend | shutdown | cancelTask | invokeTask | schedulerShutdown | cleanup
  | cleanupShutdown => cases hExec

end Inv

namespace LookedAfter
variable {h h' : Heap ThreadId Task} {frame : Frame ThreadId Task}
  {F F' : Multiset (Frame ThreadId Task)}

/-- A step that leaves no task, no counted handler and no shutdown behind. -/
theorem step (hLooked : LookedAfter h F)
    (hResumed : h'.queue.suspendCounter = h.queue.suspendCounter)
    (hTakes : h'.queue.tasks.length + tally Frame.takes F ≤
      h.queue.tasks.length + tally Frame.takes F')
    (hCounted : h.taskCount + tally Frame.counted F' ≤ h'.taskCount + tally Frame.counted F)
    (hCancels : tally Frame.cancels F ≤ tally Frame.cancels F') : LookedAfter h' F' := by
  intro hZero
  rcases hLooked (hResumed.symm.trans hZero) with hTaken | hRefused | hCanceled
  · exact .inl (by omega)
  · exact .inr (.inl (by omega))
  · exact .inr (.inr (by omega))

/-- A step that only moves a thread on to another frame. -/
theorem move (hLooked : LookedAfter h (frame ::ₘ F)) (next : Frame ThreadId Task)
    (hTakes : next.takes = frame.takes) (hCounted : next.counted = frame.counted)
    (hCancels : next.cancels = frame.cancels) : LookedAfter h (next ::ₘ F) := by
  refine hLooked.step rfl ?_ ?_ ?_
  · rw [tally_cons, tally_cons, hTakes]
  · rw [tally_cons, tally_cons, hCounted]
  · rw [tally_cons, tally_cons, hCancels]

theorem push (hLooked : LookedAfter h F) (hCounted : frame.counted = false) :
    LookedAfter h (frame ::ₘ F) := by
  refine hLooked.step rfl ?_ ?_ ?_
  · rw [tally_cons]
    omega
  · rw [tally_cons_neg hCounted]
  · rw [tally_cons]
    omega

theorem pop (hLooked : LookedAfter h (frame ::ₘ F)) (hTakes : frame.takes = false)
    (hCancels : frame.cancels = false) : LookedAfter h F := by
  refine hLooked.step rfl ?_ ?_ ?_
  · rw [tally_cons_neg hTakes]
  · rw [tally_cons]
    omega
  · rw [tally_cons_neg hCancels]

/-- A handler that the dispatcher refuses or drops is still counted. -/
theorem drop (hInv : Inv h (frame ::ₘ F)) (hCounts : frame.counted = true) :
    LookedAfter h (.releaseHandlerRef ::ₘ F) := by
  have hCounted := hInv.counted
  rw [tally_cons_pos hCounts] at hCounted
  refine fun _ => .inr (.inl ?_)
  rw [tally_cons_neg rfl]
  omega

variable {calls forks : List (Frame ThreadId Task)}

theorem release (hLooked : LookedAfter h (.releaseHandlerRef ::ₘ F))
    (hExec : releaseHandlerRef h = some (.next h' calls forks)) :
    LookedAfter h' (↑calls + (↑forks + F)) := by
  have hPopped : LookedAfter h F := hLooked.pop rfl rfl
  rcases releaseHandlerRef_cases h with ⟨-, hNext⟩ | ⟨refs, -, hNext⟩ | ⟨-, -, hNext⟩ |
    ⟨-, -, hNext⟩ <;>
    rw [hNext, Option.some.injEq] at hExec <;> cases hExec <;> simp only [cons_frames, nil_frames]
  · exact hPopped.push rfl
  · exact hPopped.push rfl
  · intro _
    have hCancels : (Frame.cleanup true true : Frame ThreadId Task).cancels = true := rfl
    refine .inr (.inr ?_)
    rw [tally_cons_pos hCancels]
    exact Nat.succ_pos _

variable [DecidableEq ThreadId]

variable {choice : Choice ThreadId Task}

theorem post {thread : ThreadId} {task : Task} (hInv : Inv h (.post thread task ::ₘ F))
    (hLooked : LookedAfter h (.post thread task ::ₘ F))
    (hExec : exec h (.post thread task) choice = some (.next h' calls forks)) :
    LookedAfter h' (↑calls + (↑forks + F)) := by
  have hPopped : LookedAfter h F := hLooked.pop rfl rfl
  rcases QueueService.post_cases (hInv.unbatched thread) task with
    ⟨hPost, -⟩ | ⟨queue, hSame, hTasks, -, ⟨hPost, -⟩ | ⟨hPost, hSuspended⟩⟩ <;>
    simp only [exec, hPost, Option.some.injEq, Outcome.next.injEq] at hExec <;>
    obtain ⟨rfl, rfl, rfl⟩ := hExec <;> simp only [cons_frames, nil_frames]
  · exact hPopped.push rfl
  · refine hPopped.step hSame.suspendCounter ?_ ?_ ?_
    · rw [tally_cons_pos rfl, hTasks, List.length_append, List.length_singleton]
      omega
    · rw [tally_cons_neg rfl]
    · rw [tally_cons_neg rfl]
  · exact fun hZero => absurd (hSame.suspendCounter.symm.trans hZero) hSuspended

/-- A queue that is resumed asks for a handler for each of its tasks. -/
theorem resume (hExec : exec h .resume choice = some (.next h' calls forks)) :
    LookedAfter h' (↑calls + (↑forks + F)) := by
  rcases h.queue.resume_cases with ⟨hResume, -⟩ |
    ⟨postCount, queue, hResume, hTasks, -, -, -, hCount⟩ <;>
    simp only [exec, hResume, Option.some.injEq, Outcome.next.injEq, reduceCtorEq] at hExec
  obtain ⟨rfl, rfl, rfl⟩ := hExec
  intro hZero
  have hTakes : ∀ f ∈ (List.replicate postCount .schedulerPost : List (Frame ThreadId Task)),
      f.takes = true := by
    intro f hMem
    obtain rfl := List.eq_of_mem_replicate hMem
    rfl
  refine .inl ?_
  rw [tally_calls_pos hTakes, List.length_replicate, hCount hZero, hTasks]
  exact Nat.le_add_left ..

theorem shutdown {pendingTaskAction : PendingTaskAction}
    (hLooked : LookedAfter h (.shutdown pendingTaskAction ::ₘ F))
    (hExec : exec h (.shutdown pendingTaskAction) choice = some (.next h' calls forks)) :
    LookedAfter h' (↑calls + (↑forks + F)) := by
  simp only [exec, Option.some.injEq, Outcome.next.injEq] at hExec
  obtain ⟨rfl, rfl, rfl⟩ := hExec
  cases pendingTaskAction with
  | complete =>
    simp only [QueueService.shutdown_complete, List.map_nil, List.nil_append, cons_frames,
      nil_frames]
    exact (hLooked.pop rfl rfl).push rfl
  | cancel =>
    intro _
    simp only [(h.queue.shutdown_cancel).2, List.length_nil]
    exact .inl (Nat.zero_le _)

theorem tryDequeTask (hLooked : LookedAfter h (.tryDequeTask ::ₘ F))
    (hExec : exec h .tryDequeTask choice = some (.next h' calls forks)) :
    LookedAfter h' (↑calls + (↑forks + F)) := by
  rcases h.queue.tryDequeTask_cases with ⟨task, queue, hDeque, hSame, -, hTasks⟩ |
    ⟨queue, hDeque, hSame, hTasks, hNone⟩ <;>
    simp only [exec, hDeque, Option.some.injEq, Outcome.next.injEq] at hExec <;>
    obtain ⟨rfl, rfl, rfl⟩ := hExec <;> simp only [cons_frames, nil_frames]
  · refine hLooked.step hSame.suspendCounter ?_ ?_ ?_
    · rw [tally_cons_pos rfl, tally_cons_neg rfl, hTasks, List.length_cons]
      simp only
      omega
    · rw [tally_cons_neg rfl, tally_cons_neg rfl]
    · rw [tally_cons_neg rfl, tally_cons_neg rfl]
  · intro hZero
    rw [hTasks, hNone (hSame.suspendCounter.symm.trans hZero)]
    exact .inl (Nat.zero_le _)

theorem exec (hInv : Inv h (frame ::ₘ F)) (hLooked : LookedAfter h (frame ::ₘ F))
    (hOk : PostsInTime h frame F)
    (hExec : UIScheduler.exec h frame choice = some (.next h' calls forks)) :
    LookedAfter h' (↑calls + (↑forks + F)) := by
  cases frame with
  | post thread task => exact hLooked.post hInv hExec
  | resume => exact resume hExec
  | shutdown pendingTaskAction => exact hLooked.shutdown hExec
  | tryDequeTask => exact hLooked.tryDequeTask hExec
  | releaseHandlerRef => exact hLooked.release hExec
  | suspend =>
    cases hExec
    exact fun hZero => by cases hZero
  | cancelTask task =>
    cases hExec
    simp only [nil_frames]
    exact hLooked.pop rfl rfl
  | schedulerPost =>
    simp only [UIScheduler.exec] at hExec
    split at hExec <;> cases hExec <;> rename_i hDown <;> simp only [cons_frames, nil_frames]
    · exact hOk rfl hDown
    · refine hLooked.step rfl ?_ ?_ ?_
      · rw [tally_cons_pos rfl, tally_cons_pos rfl]
      · rw [tally_cons_pos rfl, tally_cons_neg rfl]
        simp only
        omega
      · rw [tally_cons_neg rfl, tally_cons_neg rfl]
  | tryEnqueue =>
    simp only [UIScheduler.exec] at hExec
    split at hExec <;> cases hExec <;> simp only [cons_frames, nil_frames]
    · exact drop hInv rfl
    · exact (hLooked.move .accepted rfl rfl rfl).push rfl
  | accepted =>
    simp only [UIScheduler.exec] at hExec
    split at hExec <;> cases hExec <;> simp only [cons_frames, nil_frames]
    · exact drop hInv rfl
    · exact hLooked.move .tryTakeTask rfl rfl rfl
  | tryTakeTask =>
    simp only [UIScheduler.exec] at hExec
    split at hExec <;> cases hExec
    simp only [cons_frames, nil_frames]
    have hPos := hInv.taskCount_pos
    refine hLooked.step rfl ?_ ?_ ?_
    · rw [tally_cons_pos rfl, tally_cons_pos rfl]
    · rw [tally_cons_neg rfl, tally_cons_pos rfl]
      simp only
      omega
    · rw [tally_cons_neg rfl, tally_cons_neg rfl]
  | invokeTask task =>
    cases hExec
    simp only [cons_frames, nil_frames]
    exact hLooked.move (.invoking task) rfl rfl rfl
  | invoking task =>
    simp only [UIScheduler.exec] at hExec
    split at hExec
    · rename_i call
      split at hExec <;> cases hExec
      rename_i hCall
      simp only [cons_frames, nil_frames]
      cases call <;> simp only [Frame.isCall, Bool.false_eq_true] at hCall <;>
        exact hLooked.push rfl
    · cases hExec
      simp only [cons_frames, nil_frames]
      exact hLooked.move .releaseHandlerRef rfl rfl rfl
  | schedulerShutdown =>
    cases hExec
    simp only [cons_frames, nil_frames]
    exact hLooked.move _ rfl rfl rfl
  | cleanup isTerminated isShutdown =>
    cases hExec
    simp only [cons_frames, nil_frames]
    exact hLooked.move (.cleanupShutdown isShutdown) rfl rfl rfl
  | cleanupShutdown isShutdown =>
    cases isShutdown with
    | false =>
      cases hExec
      simp only [Bool.false_eq_true, if_false, nil_frames]
      exact hLooked.pop rfl rfl
    | true =>
      cases hExec
      simp only [if_true, cons_frames, nil_frames]
      exact hLooked.move (.shutdown .cancel) rfl rfl rfl

end LookedAfter

section Runs
variable [DecidableEq ThreadId]

theorem uiScheduler_invariant (ok : Heap ThreadId Task → Frame ThreadId Task →
      Multiset (Frame ThreadId Task) → Prop) :
    Machine.Invariant (uiScheduler : Machine (Heap ThreadId Task) _ _ _) ok .initial Inv where
  initial := Inv.initial
  start hInv hStart := hInv.start hStart
  exec hInv _ hExec := hInv.exec hExec

theorem uiScheduler_lookedAfter :
    Machine.Invariant (uiScheduler : Machine (Heap ThreadId Task) _ _ _)
      (fun h frame F => PostsInTime h frame F ∧ Inv h (frame ::ₘ F)) .initial LookedAfter where
  initial _ := .inl (Nat.le_refl 0)
  start hLooked hStart := by
    simp only [uiScheduler] at hStart
    split at hStart <;> cases hStart
    rename_i frame _ hCall
    cases frame <;> simp only [Frame.isCall, Bool.false_eq_true] at hCall <;>
      exact hLooked.push rfl
  exec hLooked hOk hExec := hLooked.exec hOk.2 hOk.1 hExec

/-- In every run the scheduler keeps its counts: no check of them fails, the
scheduler refers to itself while handlers are left, and its termination is announced. -/
theorem uiScheduler_counts {s : Config (Heap ThreadId Task) (Frame ThreadId Task) String}
    (hs : Machine.Reachable uiScheduler Always .initial s) :
    (∀ why, s.crashed = some why → why = "m_suspendCounter must not be negative") ∧
    (s.heap.self = true ↔ 0 < s.heap.handlerRefCount) ∧
    (s.heap.isShutdown = true → s.heap.handlerRefCount = 0 →
      s.heap.terminationEvent = true ∨ 0 < tally Frame.terminates s.frames) := by
  have hInv := (uiScheduler_invariant Always).reachable hs
  refine ⟨?_, hInv.selfRef, hInv.terminated⟩
  exact (uiScheduler_invariant Always).crash (fun hInv _ hExec => hInv.crash hExec) hs

theorem uiScheduler_holds_itself :
    ∃ s : Config (Heap Unit Nat) (Frame Unit Nat) String,
      s.heap.self = true ∧ 0 < s.heap.handlerRefCount := by
  obtain ⟨s, hs, hSelf⟩ := Machine.exists_reachable
    (fun s : Config (Heap Unit Nat) (Frame Unit Nat) String => s.heap.self = true)
    (.call (.post () 7) :: List.replicate 6 (.run 0 .go))
    (by decide : (Option.any _ (uiScheduler.runSchedule Always (.initial .initial) _)) = true)
  exact ⟨s, hSelf, (uiScheduler_counts hs).2.1.mp hSelf⟩

/-- Where `m_isShutdown` turns no needed `Post` away, every posted task is invoked or
canceled, each once, as soon as nothing is in progress and the queue is not suspended. -/
theorem uiScheduler_accounts_for_tasks
    {s : Config (Heap ThreadId Task) (Frame ThreadId Task) String}
    (hs : Machine.Reachable uiScheduler PostsInTime .initial s) :
    (∀ why, s.crashed = some why → why = "m_suspendCounter must not be negative") ∧
    (s.heap.self = true ↔ 0 < s.heap.handlerRefCount) ∧
    (s.heap.isShutdown = true → s.heap.handlerRefCount = 0 →
      s.heap.terminationEvent = true ∨ 0 < tally Frame.terminates s.frames) ∧
    (s.Quiet → s.heap.queue.suspendCounter = 0 →
      s.heap.queue.tasks = [] ∧
      (s.heap.posted : Multiset Task) = s.heap.invoked + s.heap.canceled) := by
  obtain ⟨hInv, hLooked⟩ :=
    ((uiScheduler_invariant PostsInTime).and uiScheduler_lookedAfter).reachable hs
  refine ⟨?_, hInv.selfRef, hInv.terminated, fun hQuiet hResumed => ?_⟩
  · exact (uiScheduler_invariant PostsInTime).crash (fun hInv _ hExec => hInv.crash hExec) hs
  · have hFrames := Machine.Config.quiet_frames hQuiet
    rw [hFrames] at hLooked
    have hAccounts := hInv.accounts
    have hIdle : s.heap.taskCount = 0 := by
      apply hInv.idle
      rw [hInv.refs, hFrames]
      rfl
    have hEmpty : s.heap.queue.tasks = [] := by
      have hNone := hLooked hResumed
      simp only [tally_zero, hIdle, Nat.lt_irrefl, or_false] at hNone
      exact List.eq_nil_of_length_eq_zero (Nat.le_zero.mp hNone)
    rw [hFrames, gather_zero, hEmpty] at hAccounts
    refine ⟨hEmpty, ?_⟩
    simpa using hAccounts

end Runs

/-- A task that is posted, invoked by the dispatcher, and the handler released. -/
theorem uiScheduler_runs_task :
    ∃ s : Config (Heap Unit Nat) (Frame Unit Nat) String,
      s.heap.posted = [7] ∧ s.heap.queue.tasks = [] ∧
      (s.heap.posted : Multiset Nat) = s.heap.invoked + s.heap.canceled := by
  obtain ⟨s, hs, hPosted, hQuiet, hResumed⟩ := Machine.exists_reachable
    (fun s : Config (Heap Unit Nat) (Frame Unit Nat) String =>
      s.heap.posted = [7] ∧ s.Quiet ∧ s.heap.queue.suspendCounter = 0)
    (.call (.post () 7) :: List.replicate 6 (.run 0 .go) ++ List.replicate 8 (.run 1 .go))
    (by decide : (Option.any _ (uiScheduler.runSchedule PostsInTime (.initial .initial) _)) = true)
  obtain ⟨hEmpty, hDone⟩ := (uiScheduler_accounts_for_tasks hs).2.2.2 hQuiet hResumed
  exact ⟨s, hPosted, hEmpty, hDone⟩

/-- A task stays behind: the queue was suspended when it was posted, and shut down
to complete its tasks before it was resumed. -/
theorem uiScheduler_leaves_task :
    ∃ s : Config (Heap Unit Nat) (Frame Unit Nat) String,
      Machine.Reachable uiScheduler Always .initial s ∧
      s.Quiet ∧ s.heap.queue.suspendCounter = 0 ∧ s.heap.posted = [7] ∧
      s.heap.invoked = [] ∧ s.heap.canceled = [] :=
  Machine.exists_reachable _
    ([.call .suspend, .run 0 .go, .call (.post () 7), .run 1 .go,
      .call (.shutdown .complete)] ++ List.replicate 4 (.run 2 .go) ++
      [.call .resume, .run 3 .go, .run 3 .go])
    (by decide)

end Mso.UIScheduler
