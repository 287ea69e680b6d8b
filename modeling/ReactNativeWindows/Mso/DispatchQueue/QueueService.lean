import ReactNativeWindows.Mso.DispatchQueue.TaskQueue

/-! The queue service behind every dispatch queue. Each definition is what one of
its methods does under the queue's lock, which is one atomic step. -/
namespace Mso

universe u v

inductive PendingTaskAction where
  | complete | cancel
  deriving DecidableEq, Repr

inductive TaskBatch (Task : Type u) where
  | mk (tasks : List Task) (enclosingBatch : Option (TaskBatch Task))

namespace TaskBatch
variable {Task : Type u}

def empty : TaskBatch Task := ⟨[], none⟩

def tasks : TaskBatch Task → List Task
  | mk tasks _ => tasks

def addTask : TaskBatch Task → Task → TaskBatch Task
  | mk tasks enclosingBatch, task => mk (tasks ++ [task]) enclosingBatch

def setEnclosingBatch : TaskBatch Task → Option (TaskBatch Task) → TaskBatch Task
  | mk tasks _, batch => mk tasks batch

def takeEnclosingBatch : TaskBatch Task → Option (TaskBatch Task) × TaskBatch Task
  | mk tasks enclosingBatch => (enclosingBatch, mk tasks none)

end TaskBatch

structure QueueService (ThreadId : Type v) (Task : Type u) where
  queue : TaskQueue Task
  shutdownAction : Option PendingTaskAction
  suspendCounter : Nat
  taskBatches : ThreadId → Option (TaskBatch Task)

/-- What `post` still does after it released the lock. -/
inductive AfterPost where
  | done | schedule | cancel
  deriving DecidableEq, Repr

namespace QueueService
variable {ThreadId : Type v} {Task : Type u}

def make : QueueService ThreadId Task := ⟨.empty, none, 0, fun _ => none⟩

def tasks (self : QueueService ThreadId Task) : List Task := self.queue.toList

/-- A task posted while its thread batches joins the batch, even after a shutdown.
Tasks are non-null, which the code checks first. -/
def post [DecidableEq ThreadId] (self : QueueService ThreadId Task) (thread : ThreadId)
    (task : Task) : QueueService ThreadId Task × AfterPost :=
  match self.taskBatches thread with
  | some batch =>
    ({ self with
        taskBatches := Function.update self.taskBatches thread (some (batch.addTask task)) },
      .done)
  | none =>
    if self.shutdownAction.isSome then
      (self, .cancel)
    else
      ({ self with queue := self.queue.enqueue task },
        if self.suspendCounter = 0 then .schedule else .done)

/-- `std::map::try_emplace`: the map, what is left of the argument, and whether
it was inserted. An argument that is inserted is moved from. -/
def tryEmplace [DecidableEq ThreadId] (taskBatches : ThreadId → Option (TaskBatch Task))
    (thread : ThreadId) (taskBatch : TaskBatch Task) :
    (ThreadId → Option (TaskBatch Task)) × Option (TaskBatch Task) × Bool :=
  if (taskBatches thread).isSome then
    (taskBatches, some taskBatch, false)
  else
    (Function.update taskBatches thread (some taskBatch), none, true)

def beginTaskBatching [DecidableEq ThreadId] (self : QueueService ThreadId Task)
    (thread : ThreadId) : Except String (QueueService ThreadId Task) :=
  match tryEmplace self.taskBatches thread .empty with
  | (taskBatches, some taskBatch, true) =>
    let taskBatch := taskBatch.setEnclosingBatch (taskBatches thread)
    .ok { self with taskBatches := Function.update taskBatches thread (some taskBatch) }
  | (_, none, true) => .error "access violation: taskBatch is null"
  | (taskBatches, _, false) => .ok { self with taskBatches := taskBatches }

def endTaskBatching [DecidableEq ThreadId] (self : QueueService ThreadId Task)
    (thread : ThreadId) : TaskBatch Task × QueueService ThreadId Task :=
  match self.taskBatches thread with
  | some batch =>
    let (enclosingBatch, taskBatch) := batch.takeEnclosingBatch
    (taskBatch,
      { self with taskBatches := Function.update self.taskBatches thread enclosingBatch })
  | none => (.empty, self)

def suspend (self : QueueService ThreadId Task) : QueueService ThreadId Task :=
  { self with suspendCounter := self.suspendCounter + 1 }

/-- The number returned is how often the scheduler is told about a task. -/
def resume (self : QueueService ThreadId Task) :
    Except String (Nat × QueueService ThreadId Task) :=
  if self.suspendCounter > 0 then
    .ok (if self.suspendCounter - 1 = 0 then self.queue.size else 0,
      { self with suspendCounter := self.suspendCounter - 1 })
  else
    .error "m_suspendCounter must not be negative"

/-- The tasks returned are canceled once the lock is released. -/
def shutdown (self : QueueService ThreadId Task) (pendingTaskAction : PendingTaskAction) :
    List Task × QueueService ThreadId Task :=
  match pendingTaskAction with
  | .cancel =>
    let (_, tasksToCancel, queue) := self.queue.dequeueAll []
    (tasksToCancel, { self with shutdownAction := some .cancel, queue := queue })
  | .complete => ([], { self with shutdownAction := some .complete })

def hasTasks (self : QueueService ThreadId Task) : Bool :=
  self.suspendCounter = 0 && !self.queue.isEmpty

def tryDequeTask (self : QueueService ThreadId Task) : Option Task × QueueService ThreadId Task :=
  if self.suspendCounter = 0 then
    let (task, queue) := self.queue.tryDequeue
    (task, { self with queue := queue })
  else
    (none, self)

@[simp] theorem make_tasks : (make : QueueService ThreadId Task).tasks = [] := rfl

/-- Without a batch the post either joins the queue or is refused. -/
theorem post_shared [DecidableEq ThreadId] {self : QueueService ThreadId Task}
    {thread : ThreadId} (h : self.taskBatches thread = none) (task : Task) :
    self.post thread task =
      if self.shutdownAction.isSome then
        (self, .cancel)
      else
        ({ self with queue := self.queue.enqueue task },
          if self.suspendCounter = 0 then .schedule else .done) := by
  rw [post, h]

theorem post_counter [DecidableEq ThreadId] (self : QueueService ThreadId Task)
    (thread : ThreadId) (task : Task) :
    (self.post thread task).1.suspendCounter = self.suspendCounter := by
  simp only [post]
  split
  · rfl
  · split <;> rfl

@[simp] theorem suspend_tasks (self : QueueService ThreadId Task) :
    self.suspend.tasks = self.tasks := rfl

theorem shutdown_complete (self : QueueService ThreadId Task) :
    self.shutdown .complete = ([], { self with shutdownAction := some .complete }) := rfl

/-- A canceling shutdown takes every task out of the queue, in order. -/
theorem shutdown_cancel (self : QueueService ThreadId Task) :
    (self.shutdown .cancel).1 = self.tasks ∧ (self.shutdown .cancel).2.tasks = [] := by
  simp [shutdown, tasks, TaskQueue.dequeueAll_tasks]

@[simp] theorem hasTasks_iff (self : QueueService ThreadId Task) :
    self.hasTasks = true ↔ self.suspendCounter = 0 ∧ self.tasks ≠ [] := by
  simp [hasTasks, tasks]

theorem tryDequeTask_counter (self : QueueService ThreadId Task) :
    self.tryDequeTask.2.suspendCounter = self.suspendCounter := by
  simp only [tryDequeTask]
  split <;> rfl

theorem tryDequeTask_suspended {self : QueueService ThreadId Task}
    (h : self.suspendCounter ≠ 0) : self.tryDequeTask = (none, self) := by
  rw [tryDequeTask, if_neg h]

theorem tryDequeTask_fst {self : QueueService ThreadId Task}
    (h : self.suspendCounter = 0) : self.tryDequeTask.1 = self.tasks.head? := by
  simp [tryDequeTask, h, tasks]

theorem tryDequeTask_tasks {self : QueueService ThreadId Task}
    (h : self.suspendCounter = 0) : self.tryDequeTask.2.tasks = self.tasks.tail := by
  simp [tryDequeTask, h, tasks]

structure SameButTasks (before after : QueueService ThreadId Task) : Prop where
  shutdownAction : after.shutdownAction = before.shutdownAction
  suspendCounter : after.suspendCounter = before.suspendCounter
  taskBatches : after.taskBatches = before.taskBatches

theorem post_cases [DecidableEq ThreadId] {self : QueueService ThreadId Task}
    {thread : ThreadId} (h : self.taskBatches thread = none) (task : Task) :
    self.post thread task = (self, .cancel) ∧ self.shutdownAction.isSome ∨
    ∃ queue, SameButTasks self queue ∧ queue.tasks = self.tasks ++ [task] ∧
      self.shutdownAction = none ∧
      (self.post thread task = (queue, .schedule) ∧ self.suspendCounter = 0 ∨
        self.post thread task = (queue, .done) ∧ self.suspendCounter ≠ 0) := by
  rw [post_shared h]
  cases hShutdown : self.shutdownAction with
  | some action => exact .inl ⟨rfl, rfl⟩
  | none =>
    refine .inr ⟨{ self with queue := self.queue.enqueue task }, ⟨rfl, rfl, rfl⟩, ?_, rfl, ?_⟩
    · simp [tasks]
    · by_cases hSuspended : self.suspendCounter = 0
      · exact .inl ⟨by simp [hSuspended, hShutdown], hSuspended⟩
      · exact .inr ⟨by simp [hSuspended, hShutdown], hSuspended⟩

theorem resume_cases (self : QueueService ThreadId Task) :
    self.resume = .error "m_suspendCounter must not be negative" ∧ self.suspendCounter = 0 ∨
    ∃ postCount queue, self.resume = .ok (postCount, queue) ∧
      queue.tasks = self.tasks ∧ queue.shutdownAction = self.shutdownAction ∧
      queue.taskBatches = self.taskBatches ∧
      self.suspendCounter = queue.suspendCounter + 1 ∧
      (queue.suspendCounter = 0 → postCount = self.tasks.length) := by
  simp only [resume]
  split
  · rename_i hPos
    refine .inr ⟨_, _, rfl, rfl, rfl, rfl, ?_, ?_⟩
    · simp only
      omega
    · intro hLast
      simp only at hLast
      simp [hLast, tasks]
  · rename_i hPos
    exact .inl ⟨rfl, by omega⟩

theorem tryDequeTask_cases (self : QueueService ThreadId Task) :
    (∃ task queue, self.tryDequeTask = (some task, queue) ∧ SameButTasks self queue ∧
      self.suspendCounter = 0 ∧ self.tasks = task :: queue.tasks) ∨
    (∃ queue, self.tryDequeTask = (none, queue) ∧ SameButTasks self queue ∧
      queue.tasks = self.tasks ∧ (self.suspendCounter = 0 → self.tasks = [])) := by
  by_cases hSuspended : self.suspendCounter = 0
  · have hHead := tryDequeTask_fst hSuspended
    have hTail := tryDequeTask_tasks hSuspended
    have hSame : SameButTasks self self.tryDequeTask.2 := by
      rw [tryDequeTask, if_pos hSuspended]
      exact ⟨rfl, rfl, rfl⟩
    cases hTasks : self.tasks with
    | nil =>
      rw [hTasks] at hHead hTail
      exact .inr ⟨self.tryDequeTask.2, Prod.ext hHead rfl, hSame, hTail, fun _ => rfl⟩
    | cons task rest =>
      rw [hTasks] at hHead hTail
      exact .inl ⟨task, self.tryDequeTask.2, Prod.ext hHead rfl, hSame, hSuspended,
        by rw [hTail]; rfl⟩
  · exact .inr ⟨self, tryDequeTask_suspended hSuspended, ⟨rfl, rfl, rfl⟩, rfl,
      fun h => absurd h hSuspended⟩

inductive Reachable [DecidableEq ThreadId] : QueueService ThreadId Task → Prop where
  | make : Reachable make
  | post {self} (prior : Reachable self) (thread : ThreadId) (task : Task) :
      Reachable (self.post thread task).1
  | beginTaskBatching {self next} (prior : Reachable self) (thread : ThreadId)
      (last : self.beginTaskBatching thread = .ok next) : Reachable next
  | endTaskBatching {self} (prior : Reachable self) (thread : ThreadId) :
      Reachable (self.endTaskBatching thread).2
  | suspend {self} (prior : Reachable self) : Reachable self.suspend
  | resume {self postCount next} (prior : Reachable self)
      (last : self.resume = .ok (postCount, next)) : Reachable next
  | shutdown {self} (prior : Reachable self) (pendingTaskAction : PendingTaskAction) :
      Reachable (self.shutdown pendingTaskAction).2
  | tryDequeTask {self} (prior : Reachable self) : Reachable self.tryDequeTask.2

section Batches
variable {self : QueueService ThreadId Task}

theorem shutdown_taskBatches (pendingTaskAction : PendingTaskAction) :
    (self.shutdown pendingTaskAction).2.taskBatches = self.taskBatches := by
  cases pendingTaskAction <;> rfl

theorem tryDequeTask_taskBatches : self.tryDequeTask.2.taskBatches = self.taskBatches := by
  simp only [tryDequeTask]
  split <;> rfl

variable [DecidableEq ThreadId]

/-- The first batch of a thread is never begun: the process crashes. -/
theorem beginTaskBatching_error {thread : ThreadId} (h : self.taskBatches thread = none) :
    self.beginTaskBatching thread = .error "access violation: taskBatch is null" := by
  simp [beginTaskBatching, tryEmplace, h]

theorem endTaskBatching_none {thread : ThreadId} (h : self.taskBatches thread = none) :
    self.endTaskBatching thread = (.empty, self) := by
  rw [endTaskBatching, h]

theorem post_taskBatches (h : ∀ thread, self.taskBatches thread = none) (thread : ThreadId)
    (task : Task) : (self.post thread task).1.taskBatches = self.taskBatches := by
  rw [post_shared (h thread)]
  split <;> rfl

/-- So no queue ever has a batch. -/
theorem Reachable.taskBatches (h : self.Reachable) (thread : ThreadId) :
    self.taskBatches thread = none := by
  induction h generalizing thread with
  | make => rfl
  | post prior t task ih => rw [post_taskBatches ih, ih]
  | beginTaskBatching prior t last ih =>
    rw [beginTaskBatching_error (ih t)] at last
    cases last
  | endTaskBatching prior t ih => rw [endTaskBatching_none (ih t), ih]
  | suspend prior ih => exact ih thread
  | @resume self postCount next prior last ih =>
    simp only [QueueService.resume] at last
    split at last
    · cases last
      exact ih thread
    · cases last
  | shutdown prior action ih => rw [shutdown_taskBatches, ih]
  | tryDequeTask prior ih => rw [tryDequeTask_taskBatches, ih]

end Batches

end QueueService
end Mso
