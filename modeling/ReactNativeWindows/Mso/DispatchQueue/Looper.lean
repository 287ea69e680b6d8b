import ReactNativeWindows.Concurrency.Threads
import ReactNativeWindows.Mso.DispatchQueue.QueueService
import ReactNativeWindows.Mso.DispatchQueue.TaskLog

/-! The looper scheduler under a queue service: one thread drains the queue, tests
for shutdown and waits for an event. Clients post and shut down with
`PendingTaskAction::Complete` from any thread, also from tasks and from the
callbacks of the settings. The queue is alive and never suspended. -/
namespace Mso.Looper

open Concurrency

universe u v

variable {ThreadId : Type v} {Task : Type u}

inductive Frame (ThreadId : Type v) (Task : Type u) where
  | makeLooperQueue
  | initializeScheduler
  | post (thread : ThreadId) (task : Task)
  | shutdown
  | awaitTermination (onLooper : Bool)
  | schedulerShutdown
  | setEvent
  | schedulerAwaitTermination (onLooper : Bool)
  | join (onLooper : Bool)
  | runLoop
  | tryDequeTask
  | taskStarting (task : Task)
  | invokeTask (task : Task)
  | invoking (task : Task)
  | taskCompleted
  | testShutdown
  | idleWaitStarting
  | wait
  | reset
  | idleWaitCompleted
  deriving DecidableEq

/-- `made` and `initialized` tell how far the queue is constructed, `exited` that
`RunLoop` returned. -/
structure Heap (ThreadId : Type v) (Task : Type u) where
  queue : QueueService ThreadId Task
  made : Bool
  initialized : Bool
  wakeUpEvent : Bool
  isShutdown : Bool
  joinable : Bool
  exited : Bool
  log : TaskLog Task

inductive Choice (ThreadId : Type v) (Task : Type u) where
  | go
  | callFromLooper (frame : Frame ThreadId Task)

def Heap.initial : Heap ThreadId Task :=
  ⟨.make, false, false, false, false, true, false, .empty⟩

def Frame.isCall (onLooper : Bool) : Frame ThreadId Task → Bool
  | post _ _ | shutdown => true
  | awaitTermination here => here == onLooper
  | _ => false

/-- Code of the client that runs on the looper thread: it returns, or makes a call
on the queue, which it is given once there is one. -/
def clientCode (h : Heap ThreadId Task) (current next : Frame ThreadId Task)
    (choice : Choice ThreadId Task) :
    Option (Outcome (Heap ThreadId Task) (Frame ThreadId Task) String) :=
  match choice with
  | .go => some (.next h [next] [])
  | .callFromLooper call =>
    if h.initialized = true ∧ call.isCall true = true then
      some (.next h [call, current] [])
    else
      none

@[grind =]
def exec [DecidableEq ThreadId] (h : Heap ThreadId Task) (frame : Frame ThreadId Task)
    (choice : Choice ThreadId Task) :
    Option (Outcome (Heap ThreadId Task) (Frame ThreadId Task) String) :=
  match frame with
  -- The constructor of the scheduler starts the thread before it gets the queue.
  | .makeLooperQueue => some (.next h [.initializeScheduler] [.runLoop])
  | .initializeScheduler => some (.next { h with initialized := true } [] [])
  | .post thread task =>
    match h.queue.post thread task with
    | (queue, .schedule) => some (.next
        { h with queue := queue, log := h.log.accept task } [.setEvent] [])
    | (queue, .done) => some (.next { h with queue := queue, log := h.log.accept task } [] [])
    | (queue, .cancel) => some (.next { h with queue := queue } [] [])
  | .shutdown =>
    some (.next { h with queue := (h.queue.shutdown .complete).2 } [.schedulerShutdown] [])
  -- `AwaitTermination` first does what `Shutdown(PendingTaskAction::Complete)` does.
  | .awaitTermination onLooper =>
    some (.next { h with queue := (h.queue.shutdown .complete).2 }
      [.schedulerShutdown, .schedulerAwaitTermination onLooper] [])
  | .schedulerShutdown => some (.next { h with isShutdown := true } [.setEvent] [])
  | .setEvent => some (.next { h with wakeUpEvent := true } [] [])
  | .schedulerAwaitTermination onLooper =>
    some (.next h [.schedulerShutdown, .join onLooper] [])
  -- A join waits for the thread; on the thread itself it is detached instead.
  | .join onLooper =>
    if h.joinable = true then
      if onLooper = true ∨ h.exited = true then
        some (.next { h with joinable := false } [] [])
      else
        none
    else
      some (.next h [] [])
  | .runLoop => some (.next h [if h.initialized = true then .tryDequeTask else .testShutdown] [])
  | .tryDequeTask =>
    match h.queue.tryDequeTask with
    | (some task, queue) => some (.next
        { h with queue := queue, log := h.log.dequeue task } [.taskStarting task] [])
    | (none, queue) => some (.next { h with queue := queue } [.testShutdown] [])
  | .taskStarting task => clientCode h (.taskStarting task) (.invokeTask task) choice
  | .invokeTask task => some (.next { h with log := h.log.invoke task } [.invoking task] [])
  | .invoking task => clientCode h (.invoking task) .taskCompleted choice
  | .taskCompleted => clientCode h .taskCompleted .tryDequeTask choice
  | .testShutdown =>
    if h.isShutdown = true then
      some (.next { h with exited := true } [] [])
    else
      some (.next h [.idleWaitStarting] [])
  | .idleWaitStarting => clientCode h .idleWaitStarting .wait choice
  | .wait => if h.wakeUpEvent = true then some (.next h [.reset] []) else none
  | .reset => some (.next { h with wakeUpEvent := false } [.idleWaitCompleted] [])
  | .idleWaitCompleted => clientCode h .idleWaitCompleted .runLoop choice

/-- The queue is made once, and used by clients after that. -/
def looper [DecidableEq ThreadId] :
    Machine (Heap ThreadId Task) (Frame ThreadId Task) (Choice ThreadId Task) String where
  exec := exec
  start h frame :=
    match frame with
    | .makeLooperQueue => if h.made = true then none else some { h with made := true }
    | frame => if h.initialized = true ∧ frame.isCall false = true then some h else none

/-- The loop finds `m_isShutdown` set only when the queue is empty: no task was
accepted since `TryDequeTask` failed. -/
def LeavesNoTask (h : Heap ThreadId Task) (frame : Frame ThreadId Task)
    (_ : Multiset (Frame ThreadId Task)) : Prop :=
  frame = .testShutdown → h.isShutdown = true → h.queue.tasks = []

instance [DecidableEq ThreadId] [DecidableEq Task] (h : Heap ThreadId Task)
    (frame : Frame ThreadId Task) (F : Multiset (Frame ThreadId Task)) :
    Decidable (LeavesNoTask h frame F) :=
  inferInstanceAs (Decidable (_ → _ → _))

namespace Frame

def isLoop : Frame ThreadId Task → Bool
  | makeLooperQueue | runLoop | tryDequeTask | taskStarting _ | invokeTask _ | invoking _
  | taskCompleted | testShutdown | idleWaitStarting | wait | reset | idleWaitCompleted => true
  | _ => false

/-- A frame after which the event is set, or the loop looks at the queue. -/
def seesTasks : Frame ThreadId Task → Bool
  | setEvent | runLoop | tryDequeTask | taskStarting _ | invokeTask _ | invoking _
  | taskCompleted | reset | idleWaitCompleted => true
  | _ => false

/-- The same for the loop looking at `m_isShutdown`. -/
def seesShutdown : Frame ThreadId Task → Bool
  | testShutdown => true
  | frame => frame.seesTasks

/-- The rest of a call that has set `m_shutdownAction`. -/
def isShuttingDown : Frame ThreadId Task → Bool
  | schedulerShutdown | schedulerAwaitTermination _ => true
  | _ => false

def isPost : Frame ThreadId Task → Bool
  | post _ _ => true
  | _ => false

/-- The task taken from the queue that the loop is about to invoke. -/
def taken : Frame ThreadId Task → Option Task
  | taskStarting task | invokeTask task => some task
  | _ => none

variable {frame : Frame ThreadId Task}

theorem seesShutdown_of_seesTasks (h : frame.seesTasks = true) : frame.seesShutdown = true := by
  cases frame <;> simp_all [seesTasks, seesShutdown]

theorem taken_of_not_isLoop (h : frame.isLoop = false) : frame.taken = none := by
  cases frame <;> simp_all [isLoop, taken]

theorem gather_taskStarting (task : Task) (F : Multiset (Frame ThreadId Task)) :
    gather taken (taskStarting task ::ₘ F) = task ::ₘ gather taken F := by
  have hTaken : taken (taskStarting task : Frame ThreadId Task) = some task := rfl
  exact gather_cons_some hTaken F

theorem gather_invokeTask (task : Task) (F : Multiset (Frame ThreadId Task)) :
    gather taken (invokeTask task ::ₘ F) = task ::ₘ gather taken F := by
  have hTaken : taken (invokeTask task : Frame ThreadId Task) = some task := rfl
  exact gather_cons_some hTaken F

end Frame

/-- There is one loop until it exits, it is woken up for every task and for the
shutdown, and it invokes tasks one after the other. -/
structure Inv (h : Heap ThreadId Task) (F : Multiset (Frame ThreadId Task)) : Prop where
  unbatched : ∀ thread, h.queue.taskBatches thread = none
  resumed : h.queue.suspendCounter = 0
  single : tally Frame.isLoop F + h.exited.toNat = h.made.toNat
  early : h.initialized = false → h.queue.tasks = [] ∧ tally Frame.isPost F = 0
  tasksSeen : h.queue.tasks ≠ [] → h.exited = false →
    h.wakeUpEvent = true ∨ 0 < tally Frame.seesTasks F
  shutdownSeen : h.isShutdown = true → h.exited = false →
    h.wakeUpEvent = true ∨ 0 < tally Frame.seesShutdown F
  refuses : h.isShutdown = true ∨ 0 < tally Frame.isShuttingDown F →
    h.queue.shutdownAction ≠ none
  ended : h.exited = true → h.isShutdown = true
  accounts : h.log.Accounts h.queue.tasks (gather Frame.taken F)
  order : h.log.invoked <+: h.log.dequeued

namespace Inv
variable {h : Heap ThreadId Task} {frame : Frame ThreadId Task} {F : Multiset (Frame ThreadId Task)}

theorem initial : Inv (Heap.initial : Heap ThreadId Task) 0 where
  unbatched _ := rfl
  resumed := rfl
  single := rfl
  early _ := ⟨rfl, rfl⟩
  tasksSeen hTasks := absurd rfl hTasks
  shutdownSeen hDown := by cases hDown
  refuses hDown := by simp [Heap.initial] at hDown
  ended hExited := by cases hExited
  accounts := .empty
  order := List.prefix_rfl

/-- A step that only moves a thread on to another frame. -/
theorem move (hInv : Inv h (frame ::ₘ F)) (next : Frame ThreadId Task)
    (hLoop : next.isLoop = frame.isLoop) (hTaken : next.taken = frame.taken)
    (hPost : next.isPost = false)
    (hDown : next.isShuttingDown = true → frame.isShuttingDown = true)
    (hTasks : h.queue.tasks ≠ [] → frame.seesTasks = true → next.seesTasks = true)
    (hShutdown : h.isShutdown = true → frame.seesShutdown = true → next.seesShutdown = true) :
    Inv h (next ::ₘ F) := by
  refine { hInv with
    single := ?_, early := ?_, tasksSeen := ?_, shutdownSeen := ?_, refuses := ?_, accounts := ?_ }
  · rw [tally_cons, hLoop, ← tally_cons]
    exact hInv.single
  · intro hEarly
    obtain ⟨hEmpty, hNone⟩ := hInv.early hEarly
    rw [tally_cons] at hNone
    rw [tally_cons_neg hPost]
    exact ⟨hEmpty, by omega⟩
  · intro hSome hRuns
    exact (hInv.tasksSeen hSome hRuns).imp_right (tally_pos_replace (hTasks hSome))
  · intro hSet hRuns
    exact (hInv.shutdownSeen hSet hRuns).imp_right (tally_pos_replace (hShutdown hSet))
  · intro hSet
    exact hInv.refuses (hSet.imp_right (tally_pos_replace hDown))
  · rw [gather_cons_congr hTaken]
    exact hInv.accounts

/-- Entering a call, of which some are only made later in the life of the queue. -/
theorem push (hInv : Inv h F) (hLoop : frame.isLoop = false)
    (hPost : frame.isPost = true → h.initialized = true)
    (hDown : frame.isShuttingDown = true → h.queue.shutdownAction ≠ none) : Inv h (frame ::ₘ F) := by
  refine { hInv with
    single := ?_, early := ?_, tasksSeen := ?_, shutdownSeen := ?_, refuses := ?_, accounts := ?_ }
  · rw [tally_cons_neg hLoop]
    exact hInv.single
  · intro hEarly
    have hNotPost : frame.isPost = false := by
      cases hCase : frame.isPost <;> simp_all
    rw [tally_cons_neg hNotPost]
    exact hInv.early hEarly
  · intro hSome hRuns
    exact (hInv.tasksSeen hSome hRuns).imp_right (tally_pos_push · frame)
  · intro hSet hRuns
    exact (hInv.shutdownSeen hSet hRuns).imp_right (tally_pos_push · frame)
  · intro hSet
    cases hNew : frame.isShuttingDown with
    | true => exact hDown hNew
    | false =>
      rw [tally_cons_neg hNew] at hSet
      exact hInv.refuses hSet
  · rw [gather_cons_none (Frame.taken_of_not_isLoop hLoop)]
    exact hInv.accounts

/-- Leaving a call that the loop does not wait for. -/
theorem pop (hInv : Inv h (frame ::ₘ F)) (hLoop : frame.isLoop = false)
    (hSees : frame.seesShutdown = false) : Inv h F := by
  have hNotTasks : frame.seesTasks = false := by
    cases frame <;> simp_all [Frame.seesShutdown, Frame.seesTasks]
  refine { hInv with
    single := ?_, early := ?_, tasksSeen := ?_, shutdownSeen := ?_, refuses := ?_, accounts := ?_ }
  · rw [← tally_cons_neg hLoop]
    exact hInv.single
  · intro hEarly
    obtain ⟨hEmpty, hNone⟩ := hInv.early hEarly
    rw [tally_cons] at hNone
    exact ⟨hEmpty, by omega⟩
  · rw [← tally_cons_neg hNotTasks]
    exact hInv.tasksSeen
  · rw [← tally_cons_neg hSees]
    exact hInv.shutdownSeen
  · intro hSet
    exact hInv.refuses (hSet.imp_right (tally_pos_push · frame))
  · rw [← gather_cons_none (Frame.taken_of_not_isLoop hLoop)]
    exact hInv.accounts

variable {queue : QueueService ThreadId Task}

/-- A queue with the same tasks, which may refuse more of them. -/
theorem setQueue (hInv : Inv h F) (hTasks : queue.tasks = h.queue.tasks)
    (hBatches : queue.taskBatches = h.queue.taskBatches)
    (hCounter : queue.suspendCounter = h.queue.suspendCounter)
    (hAction : h.queue.shutdownAction ≠ none → queue.shutdownAction ≠ none) :
    Inv { h with queue := queue } F := by
  refine { hInv with
    unbatched := ?_, resumed := ?_, early := ?_, tasksSeen := ?_, refuses := ?_, accounts := ?_ }
  · simpa only [hBatches] using hInv.unbatched
  · exact hCounter.trans hInv.resumed
  · simpa only [hTasks] using hInv.early
  · simpa only [hTasks] using hInv.tasksSeen
  · exact fun hSet => hAction (hInv.refuses hSet)
  · simpa only [hTasks] using hInv.accounts

variable {task : Task}

theorem accept (hInv : Inv h F) (hMade : h.initialized = true)
    (hTasks : queue.tasks = h.queue.tasks ++ [task]) (hSame : h.queue.SameButTasks queue) :
    Inv { h with queue := queue, log := h.log.accept task } (.setEvent ::ₘ F) := by
  have hPushed : Inv h (.setEvent ::ₘ F) := hInv.push rfl (by simp [Frame.isPost])
    (by simp [Frame.isShuttingDown])
  refine { hPushed with
    unbatched := ?_, resumed := ?_, early := ?_, tasksSeen := ?_, refuses := ?_, accounts := ?_ }
  · simpa only [hSame.taskBatches] using hInv.unbatched
  · exact hSame.suspendCounter.trans hInv.resumed
  · simp [hMade]
  · intro _ _
    rw [tally_cons_pos rfl]
    exact .inr (Nat.succ_pos _)
  · simpa only [hSame.shutdownAction] using hPushed.refuses
  · simpa only [hTasks] using hPushed.accounts.accept task

/-- `m_isShutdown` is set by a call that will set the event. -/
theorem setShutdown (hInv : Inv h (.schedulerShutdown ::ₘ F)) :
    Inv { h with isShutdown := true } (.setEvent ::ₘ F) := by
  have hMoved : Inv h (.setEvent ::ₘ F) := hInv.move .setEvent rfl rfl rfl
    (by simp [Frame.isShuttingDown]) (fun _ _ => rfl) (fun _ _ => rfl)
  refine { hMoved with shutdownSeen := ?_, refuses := ?_, ended := fun _ => rfl }
  · intro _ _
    rw [tally_cons_pos rfl]
    exact .inr (Nat.succ_pos _)
  · intro _
    refine hInv.refuses (.inr ?_)
    rw [tally_cons_pos rfl]
    exact Nat.succ_pos _

theorem setEvent (hInv : Inv h (.setEvent ::ₘ F)) : Inv { h with wakeUpEvent := true } F := by
  refine { hInv with
    single := ?_, early := ?_, tasksSeen := fun _ _ => .inl rfl
    shutdownSeen := fun _ _ => .inl rfl, refuses := ?_, accounts := ?_ }
  · have hSingle := hInv.single
    rwa [tally_cons_neg rfl] at hSingle
  · have hEarly := hInv.early
    rwa [tally_cons_neg rfl] at hEarly
  · have hRefuses := hInv.refuses
    rwa [tally_cons_neg rfl] at hRefuses
  · have hAccounts := hInv.accounts
    rwa [gather_cons_none rfl] at hAccounts

/-- The loop resets the event before it looks at the queue and at the flag. -/
theorem reset (hInv : Inv h (.reset ::ₘ F)) :
    Inv { h with wakeUpEvent := false } (.idleWaitCompleted ::ₘ F) := by
  have hMoved : Inv h (.idleWaitCompleted ::ₘ F) := hInv.move .idleWaitCompleted rfl rfl rfl
    (by simp [Frame.isShuttingDown]) (fun _ _ => rfl) (fun _ _ => rfl)
  refine { hMoved with tasksSeen := ?_, shutdownSeen := ?_ }
  · intro _ _
    rw [tally_cons_pos rfl]
    exact .inr (Nat.succ_pos _)
  · intro _ _
    rw [tally_cons_pos rfl]
    exact .inr (Nat.succ_pos _)

theorem dequeue (hInv : Inv h (.tryDequeTask ::ₘ F)) (hSame : h.queue.SameButTasks queue)
    (hTasks : h.queue.tasks = task :: queue.tasks) :
    Inv { h with queue := queue, log := h.log.dequeue task } (.taskStarting task ::ₘ F) where
  unbatched := by simpa only [hSame.taskBatches] using hInv.unbatched
  resumed := hSame.suspendCounter.trans hInv.resumed
  single := by
    have hSingle := hInv.single
    rwa [tally_cons_pos rfl] at hSingle ⊢
  early hEarly := by
    have hEmpty := (hInv.early hEarly).1
    rw [hTasks] at hEmpty
    cases hEmpty
  tasksSeen _ _ := by
    rw [tally_cons_pos rfl]
    exact .inr (Nat.succ_pos _)
  shutdownSeen _ _ := by
    rw [tally_cons_pos rfl]
    exact .inr (Nat.succ_pos _)
  refuses := by
    have hRefuses := hInv.refuses
    rw [tally_cons_neg rfl] at hRefuses ⊢
    simpa only [hSame.shutdownAction] using hRefuses
  ended := hInv.ended
  accounts := by
    have hAccounts := hInv.accounts
    rw [hTasks, gather_cons_none rfl] at hAccounts
    rw [Frame.gather_taskStarting]
    exact hAccounts.dequeue
  order := hInv.order.trans (List.prefix_append ..)

/-- There is one loop, so the task it is about to invoke is the only one taken. -/
theorem invoke (hInv : Inv h (.invokeTask task ::ₘ F)) :
    Inv { h with log := h.log.invoke task } (.invoking task ::ₘ F) := by
  have hOthers : tally Frame.isLoop F = 0 := by
    have hSingle := hInv.single
    have hMade : h.made.toNat ≤ 1 := h.made.toNat_le
    rw [tally_cons_pos rfl] at hSingle
    omega
  have hNone : gather Frame.taken F = 0 :=
    gather_eq_zero hOthers fun f => Frame.taken_of_not_isLoop
  have hAccounts := hInv.accounts
  rw [Frame.gather_invokeTask, hNone] at hAccounts
  refine { hInv with
    single := ?_, early := ?_, tasksSeen := ?_, shutdownSeen := ?_, refuses := ?_
    accounts := ?_, order := hAccounts.invoke_prefix hInv.order }
  · have hSingle := hInv.single
    rwa [tally_cons_pos rfl] at hSingle ⊢
  · have hEarly := hInv.early
    rwa [tally_cons_neg rfl] at hEarly ⊢
  · intro _ _
    rw [tally_cons_pos rfl]
    exact .inr (Nat.succ_pos _)
  · intro _ _
    rw [tally_cons_pos rfl]
    exact .inr (Nat.succ_pos _)
  · have hRefuses := hInv.refuses
    rwa [tally_cons_neg rfl] at hRefuses ⊢
  · rw [gather_cons_none rfl, hNone]
    exact hAccounts.invoke

/-- The loop returns. -/
theorem exit (hInv : Inv h (.testShutdown ::ₘ F)) (hDown : h.isShutdown = true) :
    Inv { h with exited := true } F := by
  refine { hInv with
    single := ?_, early := ?_, tasksSeen := ?_, shutdownSeen := ?_, refuses := ?_
    ended := fun _ => hDown, accounts := ?_ }
  · have hSingle := hInv.single
    have hMade : h.made.toNat ≤ 1 := h.made.toNat_le
    rw [tally_cons_pos rfl] at hSingle
    simp only [Bool.toNat_true]
    omega
  · have hEarly := hInv.early
    rwa [tally_cons_neg rfl] at hEarly
  · exact fun _ hRuns => by cases hRuns
  · exact fun _ hRuns => by cases hRuns
  · have hRefuses := hInv.refuses
    rwa [tally_cons_neg rfl] at hRefuses
  · have hAccounts := hInv.accounts
    rwa [gather_cons_none rfl] at hAccounts

/-- The constructor of the queue, which no client has yet. -/
theorem make (hInv : Inv h F) (hNew : h.made = false) :
    Inv { h with made := true } (.makeLooperQueue ::ₘ F) := by
  have hSingle := hInv.single
  refine { hInv with
    single := ?_, early := ?_, tasksSeen := ?_, shutdownSeen := ?_, refuses := ?_, accounts := ?_ }
  · rw [tally_cons_pos rfl]
    simp only [hNew, Bool.toNat_false, Bool.toNat_true] at hSingle ⊢
    omega
  · have hEarly := hInv.early
    rwa [tally_cons_neg rfl]
  · intro hSome hRuns
    exact (hInv.tasksSeen hSome hRuns).imp_right (tally_pos_push · _)
  · intro hSet hRuns
    exact (hInv.shutdownSeen hSet hRuns).imp_right (tally_pos_push · _)
  · have hRefuses := hInv.refuses
    rwa [tally_cons_neg rfl]
  · rw [gather_cons_none rfl]
    exact hInv.accounts

theorem call (hInv : Inv h F) {onLooper : Bool} (hMade : h.initialized = true)
    (hCall : frame.isCall onLooper = true) : Inv h (frame ::ₘ F) := by
  cases frame <;> simp only [Frame.isCall, Bool.false_eq_true] at hCall <;>
    exact hInv.push rfl (fun _ => hMade) (by simp [Frame.isShuttingDown])

variable [DecidableEq ThreadId]

variable {h' : Heap ThreadId Task}

theorem start (hInv : Inv h F) (hStart : looper.start h frame = some h') :
    Inv h' (frame ::ₘ F) := by
  simp only [looper] at hStart
  split at hStart
  · split at hStart <;> cases hStart
    rename_i hNew
    exact hInv.make (by simpa using hNew)
  · split at hStart <;> cases hStart
    rename_i hMade
    exact hInv.call hMade.1 hMade.2

variable {calls forks : List (Frame ThreadId Task)} {choice : Choice ThreadId Task}

/-- `Post` under the lock, then `m_wakeUpEvent.Set`. -/
theorem post {thread : ThreadId} (hInv : Inv h (.post thread task ::ₘ F))
    (hExec : exec h (.post thread task) choice = some (.next h' calls forks)) :
    Inv h' (↑calls + (↑forks + F)) := by
  have hPopped : Inv h F := hInv.pop rfl rfl
  have hMade : h.initialized = true := by
    by_contra hNot
    have hNone := (hInv.early (by simpa using hNot)).2
    rw [tally_cons_pos rfl] at hNone
    omega
  rcases QueueService.post_cases (hInv.unbatched thread) task with
    ⟨hPost, -⟩ | ⟨queue, hSame, hTasks, -, ⟨hPost, -⟩ | ⟨hPost, hSuspended⟩⟩
  · simp only [exec, hPost, Option.some.injEq, Outcome.next.injEq] at hExec
    obtain ⟨rfl, rfl, rfl⟩ := hExec
    simpa using hPopped
  · simp only [exec, hPost, Option.some.injEq, Outcome.next.injEq] at hExec
    obtain ⟨rfl, rfl, rfl⟩ := hExec
    simpa using hPopped.accept hMade hTasks hSame
  · exact absurd hInv.resumed hSuspended

/-- A task leaves the queue, or the loop goes on to the test because there is none. -/
theorem tryDequeTask (hInv : Inv h (.tryDequeTask ::ₘ F))
    (hExec : exec h .tryDequeTask choice = some (.next h' calls forks)) :
    Inv h' (↑calls + (↑forks + F)) := by
  rcases h.queue.tryDequeTask_cases with ⟨task, queue, hDeque, hSame, -, hTasks⟩ |
    ⟨queue, hDeque, hSame, hTasks, hNone⟩ <;>
    simp only [exec, hDeque, Option.some.injEq, Outcome.next.injEq] at hExec <;>
    obtain ⟨rfl, rfl, rfl⟩ := hExec <;> simp only [cons_frames, nil_frames]
  · exact hInv.dequeue hSame hTasks
  · have hMoved : Inv h (.testShutdown ::ₘ F) := hInv.move .testShutdown rfl rfl rfl
      (by simp [Frame.isShuttingDown]) (absurd (hNone hInv.resumed)) (fun _ _ => rfl)
    exact hMoved.setQueue hTasks hSame.taskBatches hSame.suspendCounter
      (by simp [hSame.shutdownAction])

omit [DecidableEq ThreadId] in
theorem clientCode {current next : Frame ThreadId Task} (hInv : Inv h (current ::ₘ F))
    (hNext : Inv h (next ::ₘ F))
    (hExec : Looper.clientCode h current next choice = some (.next h' calls forks)) :
    Inv h' (↑calls + (↑forks + F)) := by
  simp only [Looper.clientCode] at hExec
  split at hExec
  · cases hExec
    simpa using hNext
  · split at hExec <;> cases hExec
    rename_i hMade
    simpa using hInv.call hMade.1 hMade.2

theorem exec (hInv : Inv h (frame ::ₘ F))
    (hExec : exec h frame choice = some (.next h' calls forks)) :
    Inv h' (↑calls + (↑forks + F)) := by
  cases frame with
  | post thread task => exact hInv.post hExec
  | tryDequeTask => exact hInv.tryDequeTask hExec
  | makeLooperQueue =>
    cases hExec
    simp only [cons_frames, nil_frames]
    have hLoop : Inv h (.runLoop ::ₘ F) := hInv.move .runLoop rfl rfl rfl
      (by simp [Frame.isShuttingDown]) (fun _ _ => rfl) (fun _ _ => rfl)
    exact hLoop.push rfl (by simp [Frame.isPost]) (by simp [Frame.isShuttingDown])
  | initializeScheduler =>
    cases hExec
    simp only [nil_frames]
    have hPopped : Inv h F := hInv.pop rfl rfl
    exact { hPopped with early := fun hEarly => by cases hEarly }
  | shutdown =>
    cases hExec
    simp only [cons_frames, nil_frames]
    have hPopped : Inv h F := hInv.pop rfl rfl
    have hSet : Inv { h with queue := (h.queue.shutdown .complete).2 } F :=
      hPopped.setQueue rfl rfl rfl (by simp [QueueService.shutdown_complete])
    exact hSet.push rfl (by simp [Frame.isPost]) (by simp [QueueService.shutdown_complete])
  | awaitTermination onLooper =>
    cases hExec
    simp only [cons_frames, nil_frames]
    have hPopped : Inv h F := hInv.pop rfl rfl
    have hSet : Inv { h with queue := (h.queue.shutdown .complete).2 } F :=
      hPopped.setQueue rfl rfl rfl (by simp [QueueService.shutdown_complete])
    have hAwait : Inv _ (.schedulerAwaitTermination onLooper ::ₘ F) := hSet.push rfl
      (by simp [Frame.isPost]) (by simp [QueueService.shutdown_complete])
    exact hAwait.push rfl (by simp [Frame.isPost]) (by simp [QueueService.shutdown_complete])
  | schedulerShutdown =>
    cases hExec
    simpa using hInv.setShutdown
  | setEvent =>
    cases hExec
    simpa using hInv.setEvent
  | schedulerAwaitTermination onLooper =>
    cases hExec
    simp only [cons_frames, nil_frames]
    have hMoved : Inv h (.schedulerShutdown ::ₘ F) := hInv.move .schedulerShutdown rfl rfl rfl
      (fun _ => rfl) (by simp [Frame.seesTasks]) (by simp [Frame.seesShutdown, Frame.seesTasks])
    have hPushed : Inv h (.join onLooper ::ₘ .schedulerShutdown ::ₘ F) :=
      hMoved.push rfl (by simp [Frame.isPost]) (by simp [Frame.isShuttingDown])
    rwa [Multiset.cons_swap] at hPushed
  | join onLooper =>
    have hPopped : Inv h F := hInv.pop rfl rfl
    simp only [Looper.exec] at hExec
    split at hExec
    · split at hExec <;> cases hExec
      simp only [nil_frames]
      exact { hPopped with unbatched := hPopped.unbatched }
    · cases hExec
      simpa using hPopped
  | runLoop =>
    simp only [Looper.exec, Option.some.injEq, Outcome.next.injEq] at hExec
    obtain ⟨rfl, rfl, rfl⟩ := hExec
    simp only [cons_frames, nil_frames]
    split
    · exact hInv.move .tryDequeTask rfl rfl rfl (by simp [Frame.isShuttingDown])
        (fun _ _ => rfl) (fun _ _ => rfl)
    · rename_i hEarly
      exact hInv.move .testShutdown rfl rfl rfl (by simp [Frame.isShuttingDown])
        (absurd (hInv.early (by simpa using hEarly)).1) (fun _ _ => rfl)
  | taskStarting task =>
    refine hInv.clientCode (hInv.move (.invokeTask task) rfl rfl rfl ?_ ?_ ?_) hExec <;>
      simp [Frame.isShuttingDown, Frame.seesTasks, Frame.seesShutdown]
  | invokeTask task =>
    cases hExec
    simpa using hInv.invoke
  | invoking task =>
    refine hInv.clientCode (hInv.move .taskCompleted rfl rfl rfl ?_ ?_ ?_) hExec <;>
      simp [Frame.isShuttingDown, Frame.seesTasks, Frame.seesShutdown]
  | taskCompleted =>
    refine hInv.clientCode (hInv.move .tryDequeTask rfl rfl rfl ?_ ?_ ?_) hExec <;>
      simp [Frame.isShuttingDown, Frame.seesTasks, Frame.seesShutdown]
  | testShutdown =>
    simp only [Looper.exec] at hExec
    split at hExec <;> cases hExec <;> rename_i hDown <;> simp only [cons_frames, nil_frames]
    · exact hInv.exit hDown
    · exact hInv.move .idleWaitStarting rfl rfl rfl (by simp [Frame.isShuttingDown])
        (by simp [Frame.seesTasks]) (absurd · hDown)
  | idleWaitStarting =>
    refine hInv.clientCode (hInv.move .wait rfl rfl rfl ?_ ?_ ?_) hExec <;>
      simp [Frame.isShuttingDown, Frame.seesTasks, Frame.seesShutdown]
  | wait =>
    simp only [Looper.exec] at hExec
    split at hExec <;> cases hExec
    simp only [cons_frames, nil_frames]
    exact hInv.move .reset rfl rfl rfl (by simp [Frame.isShuttingDown]) (fun _ _ => rfl)
      (fun _ _ => rfl)
  | reset =>
    cases hExec
    simpa using hInv.reset
  | idleWaitCompleted =>
    refine hInv.clientCode (hInv.move .runLoop rfl rfl rfl ?_ ?_ ?_) hExec <;>
      simp [Frame.isShuttingDown, Frame.seesTasks, Frame.seesShutdown]

/-- After the loop exited with an empty queue no task gets into it. -/
theorem exec_drained (hInv : Inv h (frame ::ₘ F)) (hOk : LeavesNoTask h frame F)
    (hExec : Looper.exec h frame choice = some (.next h' calls forks))
    (hDrained : h.exited = true → h.queue.tasks = []) : h'.exited = true → h'.queue.tasks = [] := by
  cases frame with
  | post thread task =>
    rcases QueueService.post_cases (hInv.unbatched thread) task with
      ⟨hPost, -⟩ | ⟨queue, hSame, hTasks, hOpen, ⟨hPost, -⟩ | ⟨hPost, -⟩⟩ <;>
      simp only [Looper.exec, hPost, Option.some.injEq, Outcome.next.injEq] at hExec <;>
      obtain ⟨rfl, rfl, rfl⟩ := hExec
    · exact hDrained
    · exact fun hExited => absurd hOpen (hInv.refuses (.inl (hInv.ended hExited)))
    · exact fun hExited => absurd hOpen (hInv.refuses (.inl (hInv.ended hExited)))
  | tryDequeTask =>
    rcases h.queue.tryDequeTask_cases with ⟨task, queue, hDeque, hSame, -, hTasks⟩ |
      ⟨queue, hDeque, hSame, hTasks, -⟩ <;>
      simp only [Looper.exec, hDeque, Option.some.injEq, Outcome.next.injEq] at hExec <;>
      obtain ⟨rfl, rfl, rfl⟩ := hExec <;> intro hExited <;> have hNone := hDrained hExited
    · rw [hTasks] at hNone
      cases hNone
    · exact hTasks.trans hNone
  | testShutdown =>
    simp only [Looper.exec] at hExec
    split at hExec <;> cases hExec <;> rename_i hDown
    · exact fun _ => hOk rfl hDown
    · exact hDrained
  | join onLooper =>
    simp only [Looper.exec] at hExec
    split at hExec
    · split at hExec <;> cases hExec
      exact hDrained
    · cases hExec
      exact hDrained
  | wait =>
    simp only [Looper.exec] at hExec
    split at hExec <;> cases hExec
    exact hDrained
  | taskStarting | invoking | taskCompleted | idleWaitStarting | idleWaitCompleted =>
    simp only [Looper.exec, Looper.clientCode] at hExec
    split at hExec
    · cases hExec
      exact hDrained
    · split at hExec <;> cases hExec
      exact hDrained
  | makeLooperQueue | initializeScheduler | shutdown | awaitTermination | schedulerShutdown
  | setEvent | schedulerAwaitTermination | runLoop | invokeTask | reset =>
    cases hExec
    exact hDrained

end Inv

section Runs
variable [DecidableEq ThreadId]

theorem looper_invariant (ok : Heap ThreadId Task → Frame ThreadId Task →
      Multiset (Frame ThreadId Task) → Prop) :
    Machine.Invariant (looper : Machine (Heap ThreadId Task) _ _ _) ok .initial Inv where
  initial := Inv.initial
  start hInv hStart := hInv.start hStart
  exec hInv _ hExec := hInv.exec hExec

theorem looper_drained :
    Machine.Invariant (looper : Machine (Heap ThreadId Task) _ _ _)
      (fun h frame F => LeavesNoTask h frame F ∧ Inv h (frame ::ₘ F)) .initial
      fun h _ => h.exited = true → h.queue.tasks = [] where
  initial hExited := by cases hExited
  start hDrained hStart := by
    simp only [looper] at hStart
    split at hStart <;> split at hStart <;> cases hStart <;> exact hDrained
  exec hDrained hOk hExec := hOk.2.exec_drained hOk.1 hExec hDrained

omit [DecidableEq ThreadId] in
/-- A loop that waits while there is news is about to be woken up. -/
theorem Inv.wakes {h : Heap ThreadId Task} {F : Multiset (Frame ThreadId Task)} (hInv : Inv h F)
    (hWait : .wait ∈ F) (hUnset : h.wakeUpEvent = false)
    (hNews : h.queue.tasks ≠ [] ∨ h.isShutdown = true) : .setEvent ∈ F := by
  obtain ⟨others, rfl⟩ := Multiset.exists_cons_of_mem hWait
  have hSingle := hInv.single
  have hMade : h.made.toNat ≤ 1 := h.made.toNat_le
  rw [tally_cons_pos rfl] at hSingle
  have hRuns : h.exited = false := by
    rw [← Bool.toNat_eq_zero]
    omega
  have hSeen : 0 < tally Frame.seesShutdown others := by
    rcases hNews with hTasks | hDown
    · have hTasks := (hInv.tasksSeen hTasks hRuns).resolve_left (by simp [hUnset])
      rw [tally_cons_neg rfl] at hTasks
      exact hTasks.trans_le (tally_le_tally (fun f => Frame.seesShutdown_of_seesTasks) others)
    · have hDown := (hInv.shutdownSeen hDown hRuns).resolve_left (by simp [hUnset])
      rwa [tally_cons_neg rfl] at hDown
  obtain ⟨f, hMem, hSees⟩ := exists_of_tally_pos hSeen
  have hNotLoop : f.isLoop = false := by
    by_contra hLoop
    have := tally_pos hMem (by simpa using hLoop)
    omega
  have hSets : f = .setEvent := by
    cases f <;> simp_all [Frame.seesShutdown, Frame.seesTasks, Frame.isLoop]
  exact Multiset.mem_cons_of_mem (hSets ▸ hMem)

/-- In every run tasks are invoked in the order of acceptance, each at most once,
and no wake-up is lost. -/
theorem looper_serial_and_awake {s : Config (Heap ThreadId Task) (Frame ThreadId Task) String}
    (hs : Machine.Reachable looper Always .initial s) :
    s.heap.log.invoked <+: s.heap.log.accepted ∧
    (.wait ∈ s.frames → s.heap.wakeUpEvent = false →
      s.heap.queue.tasks ≠ [] ∨ s.heap.isShutdown = true → .setEvent ∈ s.frames) := by
  have hInv := (looper_invariant Always).reachable hs
  exact ⟨hInv.order.trans hInv.accounts.prefix_accepted, hInv.wakes⟩

theorem looper_invokes_task :
    ∃ s : Config (Heap Unit Nat) (Frame Unit Nat) String,
      s.heap.log.invoked = [7] ∧ s.heap.log.invoked <+: s.heap.log.accepted := by
  obtain ⟨s, hs, hInvoked⟩ := Machine.exists_reachable
    (fun s : Config (Heap Unit Nat) (Frame Unit Nat) String => s.heap.log.invoked = [7])
    ([.call .makeLooperQueue, .run 0 .go, .run 0 .go, .call (.post () 7), .run 2 .go, .run 2 .go] ++
      List.replicate 6 (.run 1 .go))
    (by decide : (Option.any _ (looper.runSchedule Always (.initial .initial) _)) = true)
  exact ⟨s, hInvoked, (looper_serial_and_awake hs).1⟩

/-- A loop that finds `m_isShutdown` set only with an empty queue invokes every
accepted task before it exits. -/
theorem looper_completes_pending {s : Config (Heap ThreadId Task) (Frame ThreadId Task) String}
    (hs : Machine.Reachable looper LeavesNoTask .initial s) :
    s.heap.log.invoked <+: s.heap.log.accepted ∧
    (s.heap.exited = true → s.heap.log.invoked = s.heap.log.accepted) ∧
    (.wait ∈ s.frames → s.heap.wakeUpEvent = false →
      s.heap.queue.tasks ≠ [] ∨ s.heap.isShutdown = true → .setEvent ∈ s.frames) := by
  obtain ⟨hInv, hDrained⟩ := ((looper_invariant LeavesNoTask).and looper_drained).reachable hs
  refine ⟨hInv.order.trans hInv.accounts.prefix_accepted, fun hExited => ?_, hInv.wakes⟩
  have hAccounts := hInv.accounts
  have hNoLoop : tally Frame.isLoop s.frames = 0 := by
    have hSingle := hInv.single
    have hMade : s.heap.made.toNat ≤ 1 := s.heap.made.toNat_le
    rw [hExited, Bool.toNat_true] at hSingle
    omega
  have hNone : gather Frame.taken s.frames = 0 :=
    gather_eq_zero hNoLoop fun f => Frame.taken_of_not_isLoop
  rw [hDrained hExited, hNone] at hAccounts
  have hLength : s.heap.log.invoked.length = s.heap.log.dequeued.length := by
    have hCard := congrArg Multiset.card hAccounts.dequeued
    simpa using hCard.symm
  rw [hAccounts.accepted, List.append_nil]
  exact hInv.order.eq_of_length hLength

end Runs

/-- A queue that drains before it is shut down, from its construction to the exit. -/
theorem looper_runs_task :
    ∃ s : Config (Heap Unit Nat) (Frame Unit Nat) String,
      s.heap.exited = true ∧ s.heap.log.accepted = [7] ∧ s.heap.log.invoked = [7] := by
  obtain ⟨s, hs, hExited, hAccepted⟩ := Machine.exists_reachable
    (fun s : Config (Heap Unit Nat) (Frame Unit Nat) String =>
      s.heap.exited = true ∧ s.heap.log.accepted = [7])
    ([.call .makeLooperQueue, .run 0 .go, .run 0 .go, .call (.post () 7), .run 2 .go, .run 2 .go] ++
      List.replicate 6 (.run 1 .go) ++ [.call .shutdown, .run 3 .go, .run 3 .go] ++
      List.replicate 2 (.run 1 .go))
    (by decide : (Option.any _ (looper.runSchedule LeavesNoTask (.initial .initial) _)) = true)
  have hInvoked := (looper_completes_pending hs).2.1 hExited
  exact ⟨s, hExited, hAccepted, hInvoked.trans hAccepted⟩

/-- The loop exits with an accepted task in the queue: it was posted, and the queue
shut down, between the last look at the queue and the test of `m_isShutdown`. -/
theorem looper_leaves_task :
    ∃ s : Config (Heap Unit Nat) (Frame Unit Nat) String,
      Machine.Reachable looper Always .initial s ∧
      s.heap.exited = true ∧ s.heap.log.accepted = [7] ∧ s.heap.log.invoked = [] :=
  Machine.exists_reachable _
    [.call .makeLooperQueue, .run 0 .go, .run 0 .go, .run 1 .go, .run 1 .go,
      .call (.post () 7), .run 2 .go, .run 2 .go, .call .shutdown, .run 3 .go, .run 3 .go,
      .run 1 .go]
    (by decide)

end Mso.Looper
