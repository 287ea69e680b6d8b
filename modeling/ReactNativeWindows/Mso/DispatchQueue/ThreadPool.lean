import ReactNativeWindows.Concurrency.Threads
import ReactNativeWindows.Mso.DispatchQueue.QueueService
import ReactNativeWindows.Mso.DispatchQueue.TaskLog

/-! The thread pool scheduler under a queue service. Clients post, suspend and
resume from any thread, also from inside of a task; the pool runs the submitted
work items. The queue is alive and not shut down. -/
namespace Mso.ThreadPool

open Concurrency

universe u v

variable {ThreadId : Type v} {Task : Type u}

/-- The program points of the queue service and the scheduler between two atomic
steps. `schedulerLoop` holds the local `usedThreads` of the compare-exchange loop. -/
inductive Frame (ThreadId : Type v) (Task : Type u) where
  | post (thread : ThreadId) (task : Task)
  | suspend
  | resume
  | resumePosts (postCount : Nat)
  | schedulerPost
  | schedulerLoop (usedThreads : Nat)
  | submitThreadpoolWork
  | workCallback
  | tryDequeTask
  | invokeTask (task : Task)
  | invoking (task : Task)
  | checkTime
  | finish
  | hasTasks
  deriving DecidableEq

structure Heap (ThreadId : Type v) (Task : Type u) where
  queue : QueueService ThreadId Task
  maxThreads : Nat
  usedThreads : Nat
  log : TaskLog Task

inductive Choice (ThreadId : Type v) (Task : Type u) where
  | go
  | spuriousFailure
  | timeIsOver
  | callFromTask (frame : Frame ThreadId Task)

def maxConcurrentThreads : Nat := 64

def Heap.initial (maxThreads : Nat) : Heap ThreadId Task :=
  ⟨.make, if maxThreads = 0 then maxConcurrentThreads else maxThreads, 0, .empty⟩

def Frame.isCall : Frame ThreadId Task → Bool
  | post _ _ | suspend | resume => true
  | _ => false

/-- `n + 1` and `n - 1` for the `uint32_t` that counts the used threads. -/
def increment (n : Nat) : Nat := (n + 1) % 2 ^ 32

def decrement (n : Nat) : Nat := (n + 2 ^ 32 - 1) % 2 ^ 32

theorem increment_eq {n : Nat} (h : n + 1 < 2 ^ 32) : increment n = n + 1 := Nat.mod_eq_of_lt h

theorem decrement_eq {n : Nat} (h : n + 1 < 2 ^ 32) : decrement (n + 1) = n := by
  rw [decrement]
  omega

@[grind =]
def exec [DecidableEq ThreadId] (h : Heap ThreadId Task) (frame : Frame ThreadId Task)
    (choice : Choice ThreadId Task) :
    Option (Outcome (Heap ThreadId Task) (Frame ThreadId Task) String) :=
  match frame with
  | .post thread task =>
    match h.queue.post thread task with
    | (queue, .schedule) => some (.next
        { h with queue := queue, log := h.log.accept task } [.schedulerPost] [])
    | (queue, .done) => some (.next
        { h with queue := queue, log := h.log.accept task } [] [])
    | (queue, .cancel) => some (.next { h with queue := queue } [] [])
  | .suspend => some (.next { h with queue := h.queue.suspend } [] [])
  | .resume =>
    match h.queue.resume with
    | .ok (postCount, queue) => some (.next { h with queue := queue } [.resumePosts postCount] [])
    | .error why => some (.crash why)
  | .resumePosts 0 => some (.next h [] [])
  | .resumePosts (postCount + 1) =>
    some (.next h [.schedulerPost, .resumePosts postCount] [])
  | .schedulerPost => some (.next h [.schedulerLoop h.usedThreads] [])
  | .schedulerLoop usedThreads =>
    if usedThreads = h.maxThreads then
      some (.next h [] [])
    else
      match choice with
      | .spuriousFailure => some (.next h [.schedulerLoop h.usedThreads] [])
      | _ =>
        if h.usedThreads = usedThreads then
          some (.next { h with usedThreads := increment usedThreads }
            [.submitThreadpoolWork] [])
        else
          some (.next h [.schedulerLoop h.usedThreads] [])
  | .submitThreadpoolWork => some (.next h [] [.workCallback])
  | .workCallback => some (.next h [.tryDequeTask] [])
  | .tryDequeTask =>
    match h.queue.tryDequeTask with
    | (some task, queue) => some (.next
        { h with queue := queue, log := h.log.dequeue task } [.invokeTask task] [])
    | (none, queue) => some (.next { h with queue := queue } [.finish] [])
  | .invokeTask task =>
    some (.next { h with log := h.log.invoke task } [.invoking task] [])
  | .invoking task =>
    match choice with
    | .callFromTask call =>
      if call.isCall then some (.next h [call, .invoking task] []) else none
    | _ => some (.next h [.checkTime] [])
  | .checkTime =>
    match choice with
    | .timeIsOver => some (.next h [.finish] [])
    | _ => some (.next h [.tryDequeTask] [])
  | .finish =>
    some (.next { h with usedThreads := decrement h.usedThreads } [.hasTasks] [])
  | .hasTasks =>
    some (.next h (if h.queue.hasTasks then [.schedulerPost] else []) [])

/-- The program, for clients on any number of threads. -/
def pool [DecidableEq ThreadId] :
    Machine (Heap ThreadId Task) (Frame ThreadId Task) (Choice ThreadId Task) String where
  exec := exec
  start h frame := if frame.isCall then some h else none

namespace Frame

/-- A work item that is submitted or runs, up to the decrement of `m_usedThreads`. -/
def usesThread : Frame ThreadId Task → Bool
  | submitThreadpoolWork | workCallback | tryDequeTask | invokeTask _ | invoking _ | checkTime
  | finish => true
  | _ => false

def inLoop : Frame ThreadId Task → Bool
  | tryDequeTask | invokeTask _ | invoking _ | checkTime => true
  | _ => false

/-- A frame that will look at the queue, or submit work that does. -/
def looksAtQueue (maxThreads : Nat) : Frame ThreadId Task → Bool
  | resumePosts postCount => postCount ≠ 0
  | schedulerPost | hasTasks => true
  | schedulerLoop usedThreads => usedThreads ≠ maxThreads
  | frame => frame.usesThread

def taken : Frame ThreadId Task → Option Task
  | invokeTask task => some task
  | _ => none

variable {frame : Frame ThreadId Task}

theorem usesThread_of_inLoop (h : frame.inLoop = true) : frame.usesThread = true := by
  cases frame <;> simp_all [inLoop, usesThread]

theorem looksAtQueue_of_usesThread (maxThreads : Nat) (h : frame.usesThread = true) :
    frame.looksAtQueue maxThreads = true := by
  cases frame <;> simp_all [usesThread, looksAtQueue]

theorem taken_of_not_usesThread (h : frame.usesThread = false) : frame.taken = none := by
  cases frame <;> simp_all [usesThread, taken]

theorem gather_invokeTask (task : Task) (F : Multiset (Frame ThreadId Task)) :
    gather taken (invokeTask task ::ₘ F) = task ::ₘ gather taken F := by
  have hTaken : taken (invokeTask task : Frame ThreadId Task) = some task := rfl
  exact gather_cons_some hTaken F

end Frame

/-- The invariant: the counter counts the work items, and whoever could leave a
task behind in the queue is followed by someone who looks at it. -/
structure Inv (maxThreads : Nat) (h : Heap ThreadId Task)
    (F : Multiset (Frame ThreadId Task)) : Prop where
  limit : h.maxThreads = maxThreads
  unbatched : ∀ thread, h.queue.taskBatches thread = none
  used : h.usedThreads = tally Frame.usesThread F
  bound : h.usedThreads ≤ maxThreads
  looked : h.queue.hasTasks = true → ∃ frame ∈ F, frame.looksAtQueue maxThreads = true
  accounts : h.log.Accounts h.queue.tasks (gather Frame.taken F)
  order : maxThreads = 1 → h.log.invoked <+: h.log.dequeued

namespace Inv
variable {maxThreads : Nat} {h : Heap ThreadId Task} {frame : Frame ThreadId Task}
  {F : Multiset (Frame ThreadId Task)}

/-- A step that only moves a thread on to another frame. -/
theorem move (hInv : Inv maxThreads h (frame ::ₘ F)) (next : Frame ThreadId Task)
    (hUses : next.usesThread = frame.usesThread) (hTaken : next.taken = frame.taken)
    (hLooks : next.looksAtQueue maxThreads = frame.looksAtQueue maxThreads) :
    Inv maxThreads h (next ::ₘ F) := by
  refine { hInv with used := ?_, looked := ?_, accounts := ?_ }
  · rw [hInv.used, tally_cons, tally_cons, hUses]
  · intro hTasks
    obtain ⟨f, hMem, hf⟩ := hInv.looked hTasks
    rcases Multiset.mem_cons.mp hMem with rfl | hMem
    · exact ⟨next, Multiset.mem_cons_self .., hLooks.trans hf⟩
    · exact ⟨f, Multiset.mem_cons_of_mem hMem, hf⟩
  · rw [gather_cons_congr hTaken]
    exact hInv.accounts

/-- Entering a call, whatever it will do. -/
theorem push (hInv : Inv maxThreads h F) (hUses : frame.usesThread = false)
    (hTaken : frame.taken = none) : Inv maxThreads h (frame ::ₘ F) := by
  refine { hInv with used := ?_, looked := ?_, accounts := ?_ }
  · rw [hInv.used, tally_cons_neg hUses]
  · intro hTasks
    obtain ⟨f, hMem, hf⟩ := hInv.looked hTasks
    exact ⟨f, Multiset.mem_cons_of_mem hMem, hf⟩
  · rw [gather_cons_none hTaken]
    exact hInv.accounts

/-- Leaving a call that the queue does not wait for. -/
theorem pop (hInv : Inv maxThreads h (frame ::ₘ F)) (hUses : frame.usesThread = false)
    (hTaken : frame.taken = none)
    (hLooks : h.queue.hasTasks = true → frame.looksAtQueue maxThreads = true →
      ∃ f ∈ F, f.looksAtQueue maxThreads = true) : Inv maxThreads h F := by
  refine { hInv with used := ?_, looked := ?_, accounts := ?_ }
  · rw [hInv.used, tally_cons_neg hUses]
  · intro hTasks
    obtain ⟨f, hMem, hf⟩ := hInv.looked hTasks
    rcases Multiset.mem_cons.mp hMem with rfl | hMem
    · exact hLooks hTasks hf
    · exact ⟨f, hMem, hf⟩
  · rw [← gather_cons_none hTaken]
    exact hInv.accounts

variable {queue : QueueService ThreadId Task}

theorem setQueue (hInv : Inv maxThreads h F) (hTasks : queue.tasks = h.queue.tasks)
    (hBatches : queue.taskBatches = h.queue.taskBatches)
    (hLooks : queue.hasTasks = true → h.queue.hasTasks = true ∨
      ∃ f ∈ F, f.looksAtQueue maxThreads = true) : Inv maxThreads { h with queue := queue } F := by
  refine { hInv with unbatched := ?_, looked := ?_, accounts := ?_ }
  · simpa only [hBatches] using hInv.unbatched
  · intro hNow
    rcases hLooks hNow with hBefore | hLooked
    · exact hInv.looked hBefore
    · exact hLooked
  · simpa only [hTasks] using hInv.accounts

variable {task : Task}

theorem accept (hInv : Inv maxThreads h F) (hTasks : queue.tasks = h.queue.tasks ++ [task])
    (hBatches : queue.taskBatches = h.queue.taskBatches)
    (hLooks : queue.hasTasks = true → ∃ f ∈ F, f.looksAtQueue maxThreads = true) :
    Inv maxThreads { h with queue := queue, log := h.log.accept task } F := by
  refine { hInv with unbatched := ?_, looked := hLooks, accounts := ?_ }
  · simpa only [hBatches] using hInv.unbatched
  · simpa only [hTasks] using hInv.accounts.accept task

theorem initial {maxThreads : Nat} (hMax : 1 ≤ maxThreads) :
    Inv maxThreads (Heap.initial maxThreads : Heap ThreadId Task) 0 where
  limit := if_neg (by omega)
  unbatched _ := rfl
  used := rfl
  bound := Nat.zero_le _
  looked := by simp [Heap.initial]
  accounts := .empty
  order _ := List.prefix_rfl

/-- A load of the counter: it can still take a thread, or other work items run
that will look at the queue after they gave up theirs. -/
theorem load (hInv : Inv maxThreads h (frame ::ₘ F)) (hMax : 1 ≤ maxThreads)
    (hUses : frame.usesThread = false) (hTaken : frame.taken = none) :
    Inv maxThreads h (.schedulerLoop h.usedThreads ::ₘ F) := by
  have hUsed : h.usedThreads = tally Frame.usesThread F := by
    rw [hInv.used, tally_cons_neg hUses]
  refine { hInv with used := ?_, looked := ?_, accounts := ?_ }
  · rw [hUsed, tally_cons_neg rfl]
  · intro hTasks
    by_cases hFull : h.usedThreads = maxThreads
    · obtain ⟨f, hMem, hf⟩ : ∃ f ∈ F, f.usesThread = true := exists_of_tally_pos (by omega)
      exact ⟨f, Multiset.mem_cons_of_mem hMem, Frame.looksAtQueue_of_usesThread _ hf⟩
    · exact ⟨_, Multiset.mem_cons_self .., by simp [Frame.looksAtQueue, hFull]⟩
  · rw [gather_cons_none rfl, ← gather_cons_none hTaken]
    exact hInv.accounts

/-- A successful compare-exchange takes a thread. -/
theorem take {usedThreads : Nat} (hInv : Inv maxThreads h (.schedulerLoop usedThreads ::ₘ F))
    (hWord : maxThreads < 2 ^ 32) (hSame : h.usedThreads = usedThreads)
    (hFree : usedThreads ≠ maxThreads) :
    Inv maxThreads { h with usedThreads := increment usedThreads }
      (.submitThreadpoolWork ::ₘ F) := by
  have hBound := hInv.bound
  have hUsed : h.usedThreads = tally Frame.usesThread F := by
    rw [hInv.used, tally_cons_neg rfl]
  have hMod : increment usedThreads = usedThreads + 1 := increment_eq (by omega)
  refine { hInv with used := hMod.trans ?_, bound := hMod.trans_le ?_, looked := ?_, accounts := ?_ }
  · rw [tally_cons_pos rfl]
    omega
  · omega
  · exact fun _ => ⟨_, Multiset.mem_cons_self .., rfl⟩
  · have hAccounts := hInv.accounts
    rw [gather_cons_none rfl] at hAccounts ⊢
    exact hAccounts

/-- A work item frees its thread, and will look at the queue once more. -/
theorem finish (hInv : Inv maxThreads h (.finish ::ₘ F)) (hWord : maxThreads < 2 ^ 32) :
    Inv maxThreads { h with usedThreads := decrement h.usedThreads }
      (.hasTasks ::ₘ F) := by
  have hBound := hInv.bound
  have hUsed : h.usedThreads = tally Frame.usesThread F + 1 :=
    hInv.used.trans (tally_cons_pos rfl F)
  rw [hUsed, decrement_eq (by omega)]
  exact {
    limit := hInv.limit
    unbatched := hInv.unbatched
    used := (tally_cons_neg rfl F).symm
    bound := by simp only; omega
    looked := fun _ => ⟨_, Multiset.mem_cons_self .., rfl⟩
    accounts := by
      have hAccounts := hInv.accounts
      rw [gather_cons_none rfl] at hAccounts ⊢
      exact hAccounts
    order := hInv.order }

theorem dequeue (hInv : Inv maxThreads h (.tryDequeTask ::ₘ F))
    (hBatches : queue.taskBatches = h.queue.taskBatches)
    (hTasks : h.queue.tasks = task :: queue.tasks) :
    Inv maxThreads { h with queue := queue, log := h.log.dequeue task }
      (.invokeTask task ::ₘ F) where
  limit := hInv.limit
  unbatched := by simpa only [hBatches] using hInv.unbatched
  used := by rw [hInv.used, tally_cons_pos rfl, tally_cons_pos rfl]
  bound := hInv.bound
  looked _ := ⟨_, Multiset.mem_cons_self .., rfl⟩
  accounts := by
    have hAccounts := hInv.accounts
    rw [hTasks, gather_cons_none rfl] at hAccounts
    rw [Frame.gather_invokeTask]
    exact hAccounts.dequeue
  order hOne := (hInv.order hOne).trans (List.prefix_append ..)

/-- With one thread at most, the task about to be invoked is the only one taken. -/
theorem invoke (hInv : Inv maxThreads h (.invokeTask task ::ₘ F)) :
    Inv maxThreads { h with log := h.log.invoke task } (.invoking task ::ₘ F) where
  limit := hInv.limit
  unbatched := hInv.unbatched
  used := by rw [hInv.used, tally_cons_pos rfl, tally_cons_pos rfl]
  bound := hInv.bound
  looked _ := ⟨_, Multiset.mem_cons_self .., rfl⟩
  accounts := by
    have hAccounts := hInv.accounts
    rw [Frame.gather_invokeTask] at hAccounts
    rw [gather_cons_none rfl]
    exact hAccounts.invoke
  order hOne := by
    have hNone : tally Frame.usesThread F = 0 := by
      have hUsed := hInv.used
      have hBound := hInv.bound
      rw [tally_cons_pos rfl] at hUsed
      omega
    have hAccounts := hInv.accounts
    rw [Frame.gather_invokeTask, gather_eq_zero hNone fun f => Frame.taken_of_not_usesThread] at hAccounts
    exact hAccounts.invoke_prefix (hInv.order hOne)

variable [DecidableEq ThreadId]

variable {h' : Heap ThreadId Task}

theorem start (hInv : Inv maxThreads h F) (hStart : pool.start h frame = some h') :
    Inv maxThreads h' (frame ::ₘ F) := by
  simp only [pool] at hStart
  split at hStart <;> cases hStart
  rename_i hCall
  cases frame <;> simp only [Frame.isCall, Bool.false_eq_true] at hCall <;>
    exact hInv.push rfl rfl

variable {calls forks : List (Frame ThreadId Task)} {choice : Choice ThreadId Task}

/-- `Post` under the lock, then `IDispatchQueueScheduler::Post` unless suspended. -/
theorem post {thread : ThreadId} (hInv : Inv maxThreads h (.post thread task ::ₘ F))
    (hExec : exec h (.post thread task) choice = some (.next h' calls forks)) :
    Inv maxThreads h' (↑calls + (↑forks + F)) := by
  have hPopped : Inv maxThreads h F := hInv.pop rfl rfl (by simp [Frame.looksAtQueue, Frame.usesThread])
  rcases QueueService.post_cases (hInv.unbatched thread) task with
    ⟨hPost, -⟩ | ⟨queue, hSame, hTasks, -, ⟨hPost, hResumed⟩ | ⟨hPost, hSuspended⟩⟩ <;>
    simp only [exec, hPost, Option.some.injEq, Outcome.next.injEq] at hExec <;>
    obtain ⟨rfl, rfl, rfl⟩ := hExec
  · simpa using hPopped
  · simp only [cons_frames, nil_frames]
    have hPushed : Inv maxThreads h (.schedulerPost ::ₘ F) := hPopped.push rfl rfl
    exact hPushed.accept hTasks hSame.taskBatches fun _ => ⟨_, Multiset.mem_cons_self .., rfl⟩
  · simp only [nil_frames]
    refine hPopped.accept hTasks hSame.taskBatches fun hNow => ?_
    simp only [QueueService.hasTasks_iff, hSame.suspendCounter] at hNow
    exact absurd hNow.1 hSuspended

theorem resume (hInv : Inv maxThreads h (.resume ::ₘ F))
    (hExec : exec h .resume choice = some (.next h' calls forks)) :
    Inv maxThreads h' (↑calls + (↑forks + F)) := by
  have hPopped : Inv maxThreads h F := hInv.pop rfl rfl (by simp [Frame.looksAtQueue, Frame.usesThread])
  rcases h.queue.resume_cases with ⟨hResume, -⟩ |
    ⟨postCount, queue, hResume, hTasks, -, hBatches, -, hCount⟩ <;>
    simp only [exec, hResume, Option.some.injEq, Outcome.next.injEq, reduceCtorEq] at hExec
  obtain ⟨rfl, rfl, rfl⟩ := hExec
  simp only [cons_frames, nil_frames]
  have hPushed : Inv maxThreads h (.resumePosts postCount ::ₘ F) := hPopped.push rfl rfl
  refine hPushed.setQueue hTasks hBatches fun hNow => .inr ?_
  rw [QueueService.hasTasks_iff, hTasks] at hNow
  have hPosts : postCount ≠ 0 := by
    rw [hCount hNow.1]
    exact List.length_eq_zero_iff.not.mpr hNow.2
  exact ⟨.resumePosts postCount, Multiset.mem_cons_self .., by simp [Frame.looksAtQueue, hPosts]⟩

/-- The compare-exchange that takes a thread, or the return that relies on those
who hold all of them. -/
theorem schedulerLoop {usedThreads : Nat} (hMax : 1 ≤ maxThreads) (hWord : maxThreads < 2 ^ 32)
    (hInv : Inv maxThreads h (.schedulerLoop usedThreads ::ₘ F))
    (hExec : exec h (.schedulerLoop usedThreads) choice = some (.next h' calls forks)) :
    Inv maxThreads h' (↑calls + (↑forks + F)) := by
  have hReload : Inv maxThreads h (.schedulerLoop h.usedThreads ::ₘ F) := hInv.load hMax rfl rfl
  by_cases hFull : usedThreads = maxThreads
  · simp only [exec, hInv.limit, hFull, if_true, Option.some.injEq, Outcome.next.injEq] at hExec
    obtain ⟨rfl, rfl, rfl⟩ := hExec
    simp only [nil_frames]
    exact hInv.pop rfl rfl (by simp [Frame.looksAtQueue, hFull])
  · simp only [exec, hInv.limit, hFull, if_false] at hExec
    split at hExec
    · cases hExec
      simpa using hReload
    · split at hExec <;> cases hExec
      · rename_i hSame
        have hTook := hInv.take hWord hSame hFull
        simpa using hInv.limit ▸ hTook
      · simpa using hReload

/-- A task leaves the queue, or the loop ends because there is none to be had. -/
theorem tryDequeTask (hInv : Inv maxThreads h (.tryDequeTask ::ₘ F))
    (hExec : exec h .tryDequeTask choice = some (.next h' calls forks)) :
    Inv maxThreads h' (↑calls + (↑forks + F)) := by
  rcases h.queue.tryDequeTask_cases with ⟨task, queue, hDeque, hSame, -, hTasks⟩ |
    ⟨queue, hDeque, hSame, hTasks, -⟩ <;>
    simp only [exec, hDeque, Option.some.injEq, Outcome.next.injEq] at hExec <;>
    obtain ⟨rfl, rfl, rfl⟩ := hExec <;> simp only [cons_frames, nil_frames]
  · exact hInv.dequeue hSame.taskBatches hTasks
  · have hMoved : Inv maxThreads h (.finish ::ₘ F) := hInv.move _ rfl rfl rfl
    exact hMoved.setQueue hTasks hSame.taskBatches fun _ => .inr
      ⟨.finish, Multiset.mem_cons_self .., rfl⟩

theorem exec (hMax : 1 ≤ maxThreads) (hWord : maxThreads < 2 ^ 32)
    (hInv : Inv maxThreads h (frame ::ₘ F))
    (hExec : exec h frame choice = some (.next h' calls forks)) :
    Inv maxThreads h' (↑calls + (↑forks + F)) := by
  cases frame with
  | post thread task => exact hInv.post hExec
  | resume => exact hInv.resume hExec
  | schedulerLoop usedThreads => exact hInv.schedulerLoop hMax hWord hExec
  | tryDequeTask => exact hInv.tryDequeTask hExec
  | suspend =>
    cases hExec
    simp only [nil_frames]
    have hPopped : Inv maxThreads h F :=
      hInv.pop rfl rfl (by simp [Frame.looksAtQueue, Frame.usesThread])
    exact hPopped.setQueue rfl rfl (by simp [QueueService.suspend])
  | resumePosts postCount =>
    cases postCount with
    | zero =>
      cases hExec
      simp only [nil_frames]
      exact hInv.pop rfl rfl (by simp [Frame.looksAtQueue])
    | succ postCount =>
      cases hExec
      simp only [cons_frames, nil_frames]
      have hPushed : Inv maxThreads h (.resumePosts postCount ::ₘ .schedulerPost ::ₘ F) :=
        (hInv.move .schedulerPost rfl rfl (by simp [Frame.looksAtQueue])).push rfl rfl
      rwa [Multiset.cons_swap] at hPushed
  | schedulerPost =>
    cases hExec
    simpa using hInv.load hMax rfl rfl
  | submitThreadpoolWork =>
    cases hExec
    simpa using hInv.move .workCallback rfl rfl rfl
  | workCallback =>
    cases hExec
    simpa using hInv.move .tryDequeTask rfl rfl rfl
  | invokeTask task =>
    cases hExec
    simpa using hInv.invoke
  | invoking task =>
    simp only [ThreadPool.exec] at hExec
    split at hExec
    · rename_i call
      split at hExec <;> cases hExec
      rename_i hCall
      simp only [cons_frames, nil_frames]
      cases call <;> simp only [Frame.isCall, Bool.false_eq_true] at hCall <;>
        exact hInv.push rfl rfl
    · cases hExec
      simpa using hInv.move .checkTime rfl rfl rfl
  | checkTime =>
    simp only [ThreadPool.exec] at hExec
    split at hExec <;> cases hExec
    · simpa using hInv.move .finish rfl rfl rfl
    · simpa using hInv.move .tryDequeTask rfl rfl rfl
  | finish =>
    cases hExec
    simpa using hInv.finish hWord
  | hasTasks =>
    simp only [ThreadPool.exec, Option.some.injEq, Outcome.next.injEq] at hExec
    obtain ⟨rfl, rfl, rfl⟩ := hExec
    cases hTasks : h.queue.hasTasks with
    | true => simpa [hTasks] using hInv.move .schedulerPost rfl rfl rfl
    | false => simpa [hTasks] using hInv.pop rfl rfl (by simp [hTasks])

end Inv

variable [DecidableEq ThreadId]

theorem pool_invariant {maxThreads : Nat} (hMax : 1 ≤ maxThreads) (hWord : maxThreads < 2 ^ 32) :
    Machine.Invariant (pool : Machine (Heap ThreadId Task) _ _ _) Always (.initial maxThreads)
      (Inv maxThreads) where
  initial := Inv.initial hMax
  start hInv hStart := hInv.start hStart
  exec hInv _ hExec := hInv.exec hMax hWord hExec

/-- The pool uses at most `maxThreads` threads at once, one after the other in the
order of acceptance for a serial queue, and no task is left behind. -/
theorem pool_bounded_and_complete {maxThreads : Nat} (hMax : 1 ≤ maxThreads)
    (hWord : maxThreads < 2 ^ 32)
    {s : Config (Heap ThreadId Task) (Frame ThreadId Task) String}
    (hs : Machine.Reachable pool Always (.initial maxThreads) s) :
    s.heap.usedThreads ≤ maxThreads ∧
    tally Frame.inLoop s.frames ≤ maxThreads ∧
    (s.heap.log.accepted : Multiset Task) =
      s.heap.log.invoked + gather Frame.taken s.frames + s.heap.queue.tasks ∧
    (maxThreads = 1 → s.heap.log.invoked <+: s.heap.log.accepted) ∧
    (s.Quiet → s.heap.queue.suspendCounter = 0 →
      s.heap.queue.tasks = [] ∧ (s.heap.log.accepted : Multiset Task) = s.heap.log.invoked) := by
  have hInv := (pool_invariant hMax hWord).reachable hs
  have hLoop : tally Frame.inLoop s.frames ≤ tally Frame.usesThread s.frames :=
    tally_le_tally (fun _ => Frame.usesThread_of_inLoop) s.frames
  refine ⟨hInv.bound, ?_, hInv.accounts.accepted_perm, fun hOne => ?_, fun hQuiet hResumed => ?_⟩
  · exact hLoop.trans (hInv.used ▸ hInv.bound)
  · exact (hInv.order hOne).trans hInv.accounts.prefix_accepted
  · have hFrames := Machine.Config.quiet_frames hQuiet
    have hEmpty : s.heap.queue.tasks = [] := by
      by_contra hTasks
      obtain ⟨f, hMem, -⟩ := hInv.looked ((s.heap.queue.hasTasks_iff).mpr ⟨hResumed, hTasks⟩)
      simp [hFrames] at hMem
    refine ⟨hEmpty, ?_⟩
    simpa [hFrames, hEmpty] using hInv.accounts.accepted_perm

/-- A serial queue that is posted a task, from the call to the end of the callback. -/
theorem pool_runs_task :
    ∃ s : Config (Heap Unit Nat) (Frame Unit Nat) String,
      s.heap.log.invoked = [7] ∧ s.heap.queue.tasks = [] ∧ s.heap.usedThreads ≤ 1 := by
  obtain ⟨s, hs, hInvoked, hQuiet, hResumed⟩ := Machine.exists_reachable
    (fun s : Config (Heap Unit Nat) (Frame Unit Nat) String =>
      s.heap.log.invoked = [7] ∧ s.Quiet ∧ s.heap.queue.suspendCounter = 0)
    (.call (.post () 7) :: List.replicate 4 (.run 0 .go) ++ List.replicate 8 (.run 1 .go))
    (by decide : (Option.any _ (pool.runSchedule Always (.initial (.initial 1)) _)) = true)
  obtain ⟨hUsed, -, -, -, hDone⟩ := pool_bounded_and_complete (by decide) (by decide) hs
  exact ⟨s, hInvoked, (hDone hQuiet hResumed).1, hUsed⟩

end Mso.ThreadPool
