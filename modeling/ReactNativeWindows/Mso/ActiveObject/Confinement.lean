import ReactNativeWindows.Mso.ActiveObject.ActiveObject

/-! Active objects are confined to their queues in runs where the callers keep to the order that the
queues rely on. -/
namespace Mso.ActiveObjects

open Control (Allowed Along)

variable {Queue Thread Object Field : Type}

/-! ### Tasks in front of each other -/

/-- No callback of the object comes in front of its `Initialize`. -/
def Awaits (object : Object) : List (Task Object Field) → Prop
  | [] => True
  | .initialization other :: tasks => other = object ∨ Awaits object tasks
  | .callback other _ :: tasks => other ≠ object ∧ Awaits object tasks
  | .other _ :: tasks => Awaits object tasks

section Awaits

variable {object : Object} {tasks : List (Task Object Field)} {task : Task Object Field}

theorem Awaits.tail (h : Awaits object (task :: tasks)) (hTask : task ≠ .initialization object) :
    Awaits object tasks := by
  cases task with
  | initialization other =>
    exact h.resolve_left fun hSame => hTask (congrArg Task.initialization hSame)
  | callback other fields => exact h.2
  | other fields => exact h

theorem Awaits.concat (h : Awaits object tasks)
    (hTask : .initialization object ∈ tasks ∨ ∀ fields, task ≠ .callback object fields) :
    Awaits object (tasks ++ [task]) := by
  induction tasks with
  | nil =>
    have hOther := hTask.resolve_left List.not_mem_nil
    cases task with
    | initialization other => exact Or.inr trivial
    | callback other fields => exact ⟨fun hSame => hOther fields (by rw [hSame]), trivial⟩
    | other fields => trivial
  | cons first tasks ih =>
    by_cases hFirst : first = .initialization object
    · rw [hFirst]
      exact Or.inl rfl
    · have hRest : Awaits object (tasks ++ [task]) := by
        apply ih (h.tail hFirst)
        apply hTask.imp_left
        intro hMem
        exact (List.mem_cons.mp hMem).resolve_left fun hEq => hFirst hEq.symm
      cases first with
      | initialization other => exact Or.inr hRest
      | callback other fields => exact ⟨h.1, hRest⟩
      | other fields => exact hRest

end Awaits

/-- The task belongs to the queue: its object does, and so do the fields of its code. -/
def Task.In (O : Owners Queue Object Field) (queue : Queue) (task : Task Object Field) : Prop :=
  Shared O queue (task.fields O) ∧
    match task with
    | .initialization object | .callback object _ => O.objectQueue object = queue
    | .other _ => True

/-! ### The invariant -/

/-- `Initialize` of the object is on the stack of a thread. -/
def Initializing (O : Owners Queue Object Field) (s : ActiveObjects Queue Thread Object Field)
    (object : Object) : Prop :=
  ∃ thread, (O.objectQueue object, .initialization object) ∈ s.running thread

/-- The object is gone, or `Initialize` has begun. -/
def Settled (O : Owners Queue Object Field) (s : ActiveObjects Queue Thread Object Field)
    (object : Object) : Prop :=
  s.isDestroyed object = true ∨ s.isInitialized object = true ∨ s.Initializing O object

/-- `Initialize` has not been lost. -/
def Accounted (O : Owners Queue Object Field) (s : ActiveObjects Queue Thread Object Field)
    (object : Object) : Prop :=
  s.Settled O object ∨ .initialization object ∈ (s.queue (O.objectQueue object)).tasks ∨
    s.isCanceled object = true

variable [DecidableEq Thread]

/-- No queue ever has a batch, as `BeginTaskBatching` crashes. A callback of an object can only begin
after `Initialize`, and only queues that are shut down cancel tasks. -/
structure Inv (O : Owners Queue Object Field) (s : ActiveObjects Queue Thread Object Field) : Prop where
  reachable : ∀ queue, (s.queue queue).Reachable
  access : ∀ thread queue task, (queue, task) ∈ s.running thread → s.worker queue = some thread
  inRunning : ∀ thread queue task, (queue, task) ∈ s.running thread → task.In O queue
  inQueue : ∀ queue, ∀ task ∈ (s.queue queue).tasks, task.In O queue
  canceled : ∀ object, s.isCanceled object = true →
    (s.queue (O.objectQueue object)).shutdownAction.isSome = true
  guarded : ∀ object,
    s.Settled O object ∨ Awaits object (s.queue (O.objectQueue object)).tasks

structure Sound (O : Owners Queue Object Field) (s : ActiveObjects Queue Thread Object Field) : Prop
    extends Inv O s where
  accounted : ∀ object, s.stage object = .made → s.Accounted O object

variable [DecidableEq Queue] [DecidableEq Object] [DecidableEq Field]
  {O : Owners Queue Object Field} {s t : ActiveObjects Queue Thread Object Field} {thread : Thread}
  {queue : Queue} {object : Object} {task : Task Object Field}

/-! ### Tasks that begin -/

omit [DecidableEq Queue] [DecidableEq Object] [DecidableEq Field] in
theorem invoke_cases (s : ActiveObjects Queue Thread Object Field) (thread : Thread) (queue : Queue)
    (task : Task Object Field) :
    s.invoke thread queue task = s.setRunning thread ((queue, task) :: s.running thread) ∨
      (s.invoke thread queue task = s ∧
        ∃ object, (task = .initialization object ∨ ∃ fields, task = .callback object fields) ∧
          s.isDestroyed object = true) := by
  cases task with
  | other fields => exact Or.inl rfl
  | initialization object =>
    cases hDestroyed : s.isDestroyed object with
    | false => exact Or.inl (if_neg (by rw [hDestroyed]; exact Bool.noConfusion))
    | true => exact Or.inr ⟨if_pos hDestroyed, object, Or.inl rfl, hDestroyed⟩
  | callback object fields =>
    cases hDestroyed : s.isDestroyed object with
    | false => exact Or.inl (if_neg (by rw [hDestroyed]; exact Bool.noConfusion))
    | true => exact Or.inr ⟨if_pos hDestroyed, object, Or.inr ⟨fields, rfl⟩, hDestroyed⟩

omit [DecidableEq Queue] [DecidableEq Object] [DecidableEq Field] in
theorem mem_running_setRunning {tasks : List (Queue × Task Object Field)} {other : Thread}
    {entry : Queue × Task Object Field} :
    entry ∈ (s.setRunning thread tasks).running other ↔
      (other = thread ∧ entry ∈ tasks) ∨ (other ≠ thread ∧ entry ∈ s.running other) := by
  simp only [setRunning]
  by_cases hOther : other = thread
  · simp [hOther]
  · simp [hOther]

omit [DecidableEq Queue] [DecidableEq Object] [DecidableEq Field] in
/-- What was on a stack still is after a task has begun. -/
theorem mem_running_begin {entry first : Queue × Task Object Field} {other : Thread}
    (h : entry ∈ s.running other) :
    entry ∈ (s.setRunning thread (first :: s.running thread)).running other := by
  apply mem_running_setRunning.mpr
  by_cases hOther : other = thread
  · exact Or.inl ⟨hOther, List.mem_cons_of_mem _ (hOther ▸ h)⟩
  · exact Or.inr ⟨hOther, h⟩

omit [DecidableEq Queue] [DecidableEq Object] [DecidableEq Field] in
theorem of_mem_running_begin {entry first : Queue × Task Object Field} {other : Thread}
    (h : entry ∈ (s.setRunning thread (first :: s.running thread)).running other) :
    (entry = first ∧ other = thread) ∨ entry ∈ s.running other := by
  rcases mem_running_setRunning.mp h with ⟨hSame, hMem⟩ | ⟨-, hMem⟩
  · cases hSame
    exact (List.mem_cons.mp hMem).imp_left fun hEq => ⟨hEq, rfl⟩
  · exact Or.inr hMem

omit [DecidableEq Queue] [DecidableEq Object] [DecidableEq Field] in
theorem Settled.begin (h : s.Settled O object) (first : Queue × Task Object Field) :
    (s.setRunning thread (first :: s.running thread)).Settled O object := by
  apply h.imp_right
  apply Or.imp_right
  rintro ⟨other, hMem⟩
  exact ⟨other, mem_running_begin hMem⟩

omit [DecidableEq Queue] [DecidableEq Object] [DecidableEq Field] in
theorem Settled.invoke (h : s.Settled O object) : (s.invoke thread queue task).Settled O object := by
  rcases s.invoke_cases thread queue task with hEq | ⟨hEq, -⟩
  · rw [hEq]
    exact h.begin (queue, task)
  · rw [hEq]
    exact h

omit [DecidableEq Queue] [DecidableEq Object] [DecidableEq Field] in
theorem settled_invoke_initialization :
    (s.invoke thread (O.objectQueue object) (.initialization object)).Settled O object := by
  rcases s.invoke_cases thread (O.objectQueue object) (.initialization object) with hEq | hGone
  · rw [hEq]
    refine Or.inr (Or.inr ⟨thread, mem_running_setRunning.mpr (Or.inl ⟨rfl, ?_⟩)⟩)
    exact List.mem_cons_self
  · obtain ⟨hEq, gone, hKind, hDestroyed⟩ := hGone
    rcases hKind with hSame | ⟨fields, hSame⟩
    · cases hSame
      rw [hEq]
      exact Or.inl hDestroyed
    · cases hSame

omit [DecidableEq Queue] [DecidableEq Object] [DecidableEq Field] in
theorem invoke_frame (s : ActiveObjects Queue Thread Object Field) (thread : Thread) (queue : Queue)
    (task : Task Object Field) :
    (s.invoke thread queue task).queue = s.queue ∧
      (s.invoke thread queue task).isCanceled = s.isCanceled ∧
      (s.invoke thread queue task).stage = s.stage := by
  rcases s.invoke_cases thread queue task with hEq | ⟨hEq, -⟩
  · rw [hEq]
    exact ⟨rfl, rfl, rfl⟩
  · rw [hEq]
    exact ⟨rfl, rfl, rfl⟩

omit [DecidableEq Queue] [DecidableEq Object] [DecidableEq Field] in
theorem Accounted.invoke (h : s.Accounted O object) : (s.invoke thread queue task).Accounted O object := by
  obtain ⟨hQueue, hCanceled, -⟩ := s.invoke_frame thread queue task
  rw [Accounted, hQueue, hCanceled]
  exact h.imp_left fun hSettled => hSettled.invoke

omit [DecidableEq Queue] [DecidableEq Object] [DecidableEq Field] in
theorem Inv.invoke (h : s.Inv O) (hAccess : s.worker queue = some thread) (hTask : task.In O queue) :
    (s.invoke thread queue task).Inv O := by
  rcases s.invoke_cases thread queue task with hEq | ⟨hEq, -⟩
  · rw [hEq]
    refine ⟨h.reachable, ?_, ?_, h.inQueue, h.canceled, fun object => ?_⟩
    · intro other otherQueue otherTask hMem
      rcases of_mem_running_begin hMem with ⟨hFirst, rfl⟩ | hOld
      · cases hFirst
        exact hAccess
      · exact h.access _ _ _ hOld
    · intro other otherQueue otherTask hMem
      rcases of_mem_running_begin hMem with ⟨hFirst, -⟩ | hOld
      · cases hFirst
        exact hTask
      · exact h.inRunning _ _ _ hOld
    · exact (h.guarded object).imp_left fun hSettled => hSettled.begin (queue, task)
  · rw [hEq]
    exact h

/-! ### Tasks of a queue -/

omit [DecidableEq Object] [DecidableEq Field] in
/-- One queue changes, and with it what it has canceled. -/
theorem Inv.requeue (h : s.Inv O) {service : QueueService Thread (Task Object Field)}
    (isCanceled : Object → Bool) (hReachable : service.Reachable)
    (hIn : ∀ task ∈ service.tasks, task.In O queue)
    (hShutdown : (s.queue queue).shutdownAction.isSome = true → service.shutdownAction.isSome = true)
    (hCanceled : ∀ object, isCanceled object = true → s.isCanceled object = true ∨
      (O.objectQueue object = queue ∧ service.shutdownAction.isSome = true))
    (hGuarded : ∀ object, O.objectQueue object = queue → Awaits object (s.queue queue).tasks →
      s.Settled O object ∨ Awaits object service.tasks) :
    Inv O { s.setQueue queue service with isCanceled := isCanceled } := by
  refine ⟨fun other => ?_, h.access, h.inRunning, fun other task hMem => ?_, fun object hCancel => ?_,
    fun object => ?_⟩
  · by_cases hOther : other = queue
    · simp only [setQueue, hOther, Function.update_self]
      exact hReachable
    · simp only [setQueue, Function.update_of_ne hOther]
      exact h.reachable other
  · by_cases hOther : other = queue
    · simp only [setQueue, hOther, Function.update_self] at hMem
      rw [hOther]
      exact hIn task hMem
    · simp only [setQueue, Function.update_of_ne hOther] at hMem
      exact h.inQueue other task hMem
  · by_cases hObject : O.objectQueue object = queue
    · simp only [setQueue, hObject, Function.update_self]
      rcases hCanceled object hCancel with hOld | ⟨-, hShut⟩
      · exact hShutdown (hObject ▸ h.canceled object hOld)
      · exact hShut
    · simp only [setQueue, Function.update_of_ne hObject]
      exact h.canceled object ((hCanceled object hCancel).resolve_right fun hNew => hObject hNew.1)
  · by_cases hObject : O.objectQueue object = queue
    · simp only [setQueue, hObject, Function.update_self]
      rcases h.guarded object with hSettled | hAwaits
      · exact Or.inl hSettled
      · exact hGuarded object hObject (hObject ▸ hAwaits)
    · simp only [setQueue, Function.update_of_ne hObject]
      exact h.guarded object

omit [DecidableEq Thread] [DecidableEq Object] [DecidableEq Field] in
theorem Accounted.requeue (h : s.Accounted O object)
    {service : QueueService Thread (Task Object Field)} (isCanceled : Object → Bool)
    (hKept : s.isCanceled object = true → isCanceled object = true)
    (hMem : O.objectQueue object = queue → .initialization object ∈ (s.queue queue).tasks →
      .initialization object ∈ service.tasks ∨ isCanceled object = true) :
    Accounted O { s.setQueue queue service with isCanceled := isCanceled } object := by
  rcases h with hSettled | hWaits | hCanceled
  · exact Or.inl hSettled
  · apply Or.inr
    by_cases hObject : O.objectQueue object = queue
    · simp only [setQueue, hObject, Function.update_self]
      exact hMem hObject (hObject ▸ hWaits)
    · simp only [setQueue, Function.update_of_ne hObject]
      exact Or.inl hWaits
  · exact Or.inr (Or.inr (hKept hCanceled))

omit [DecidableEq Thread] [DecidableEq Object] [DecidableEq Field] in
theorem setQueue_self (s : ActiveObjects Queue Thread Object Field) (queue : Queue) :
    s.setQueue queue (s.queue queue) = s := by
  rw [setQueue, Function.update_eq_self]

omit [DecidableEq Queue] [DecidableEq Thread] [DecidableEq Field] in
theorem foldl_cancelTask (tasks : List (Task Object Field))
    (s : ActiveObjects Queue Thread Object Field) :
    ∃ isCanceled, tasks.foldl cancelTask s = { s with isCanceled := isCanceled } ∧
      ∀ object, isCanceled object = true ↔
        s.isCanceled object = true ∨ .initialization object ∈ tasks := by
  induction tasks generalizing s with
  | nil => exact ⟨s.isCanceled, rfl, fun object => by simp⟩
  | cons task tasks ih =>
    obtain ⟨isCanceled, hEq, hIff⟩ := ih (s.cancelTask task)
    refine ⟨isCanceled, ?_, fun object => ?_⟩
    · rw [List.foldl_cons, hEq]
      cases task with
      | initialization object | callback object fields | other fields => rfl
    · rw [hIff object, List.mem_cons, ← or_assoc]
      apply or_congr_left
      cases task with
      | initialization other =>
        by_cases hSame : object = other
        · simp [cancelTask, hSame]
        · simp [cancelTask, hSame]
      | callback other fields | other fields => simp [cancelTask]

omit [DecidableEq Field] in
/-- A task that is posted joins the queue, or is canceled where the queue is shut down. -/
theorem post_effect (h : (s.queue queue).Reachable) (thread : Thread)
    (task : Task Object Field) :
    (s.post thread queue task = s.cancelTask task ∧ (s.queue queue).shutdownAction.isSome = true) ∨
      ∃ service, s.post thread queue task = s.setQueue queue service ∧ service.Reachable ∧
        service.tasks = (s.queue queue).tasks ++ [task] ∧ (s.queue queue).shutdownAction = none := by
  rcases QueueService.post_cases (h.taskBatches thread) task with ⟨hEq, hShutdown⟩ | hTaken
  · refine Or.inl ⟨?_, hShutdown⟩
    simp only [post, hEq, setQueue_self, if_pos]
  · obtain ⟨service, -, hTasks, hOpen, hEq⟩ := hTaken
    refine Or.inr ⟨service, ?_, ?_, hTasks, hOpen⟩
    · rcases hEq with ⟨hEq, -⟩ | ⟨hEq, -⟩
      · simp [post, hEq]
      · simp [post, hEq]
    · have hService : ((s.queue queue).post thread task).1 = service := by
        rcases hEq with ⟨hEq, -⟩ | ⟨hEq, -⟩
        · rw [hEq]
        · rw [hEq]
      rw [← hService]
      exact h.post thread task

omit [DecidableEq Thread] [DecidableEq Queue] [DecidableEq Field] in
theorem cancelTask_eq (s : ActiveObjects Queue Thread Object Field) (task : Task Object Field) :
    ∃ isCanceled, s.cancelTask task = { s with isCanceled := isCanceled } ∧
      ∀ object, isCanceled object = true ↔
        s.isCanceled object = true ∨ .initialization object = task := by
  obtain ⟨isCanceled, hEq, hIff⟩ := foldl_cancelTask [task] s
  refine ⟨isCanceled, hEq, fun object => ?_⟩
  rw [hIff object, List.mem_singleton]

omit [DecidableEq Field] in
theorem Inv.post (h : s.Inv O) (hTask : task.In O queue)
    (hFollows : ∀ object fields, task = .callback object fields → s.Settled O object ∨
      .initialization object ∈ (s.queue queue).tasks ∨
        (s.queue queue).shutdownAction.isSome = true) :
    (s.post thread queue task).Inv O := by
  rcases post_effect (h.reachable queue) thread task with ⟨hEq, hShut⟩ | hTaken
  · obtain ⟨isCanceled, hCancel, hIff⟩ := s.cancelTask_eq task
    rw [hEq, hCancel, ← s.setQueue_self queue]
    apply h.requeue isCanceled (h.reachable queue) (h.inQueue queue) (fun hOld => hOld)
    · intro object hNew
      apply ((hIff object).mp hNew).imp_right
      rintro rfl
      exact ⟨hTask.2, hShut⟩
    · exact fun object _ hAwaits => Or.inr hAwaits
  · obtain ⟨service, hEq, hReachable, hTasks, hOpen⟩ := hTaken
    rw [hEq]
    apply h.requeue s.isCanceled hReachable
    · intro other hMem
      rw [hTasks, List.mem_append] at hMem
      rcases hMem with hOld | hNew
      · exact h.inQueue queue other hOld
      · rw [List.mem_singleton.mp hNew]
        exact hTask
    · rw [hOpen]
      exact fun hShut => nomatch hShut
    · exact fun object hOld => Or.inl hOld
    · intro object hObject hAwaits
      rw [hTasks]
      by_cases hCallback : ∃ fields, task = .callback object fields
      · obtain ⟨fields, rfl⟩ := hCallback
        rcases hFollows object fields rfl with hSettled | hMem | hShut
        · exact Or.inl hSettled
        · exact Or.inr (hAwaits.concat (Or.inl hMem))
        · rw [hOpen] at hShut
          cases hShut
      · exact Or.inr (hAwaits.concat (Or.inr fun fields hEq => hCallback ⟨fields, hEq⟩))

omit [DecidableEq Field] in
theorem Accounted.post (h : s.Accounted O object) (hReachable : (s.queue queue).Reachable) :
    (s.post thread queue task).Accounted O object := by
  rcases post_effect hReachable thread task with ⟨hEq, -⟩ | ⟨service, hEq, -, hTasks, -⟩
  · obtain ⟨isCanceled, hCancel, hIff⟩ := s.cancelTask_eq task
    rw [hEq, hCancel]
    exact h.imp_right (Or.imp_right fun hOld => (hIff object).mpr (Or.inl hOld))
  · rw [hEq]
    apply h.requeue s.isCanceled fun hOld => hOld
    rintro - hMem
    rw [hTasks]
    exact Or.inl (List.mem_append_left _ hMem)

omit [DecidableEq Field] in
theorem accounted_post_initialization (h : (s.queue (O.objectQueue object)).Reachable) :
    (s.post thread (O.objectQueue object) (.initialization object)).Accounted O object := by
  rcases post_effect h thread (.initialization object) with ⟨hEq, -⟩ | ⟨service, hEq, -, hTasks, -⟩
  · rw [hEq]
    exact Or.inr (Or.inr (Function.update_self _ _ _))
  · rw [hEq]
    refine Or.inr (Or.inl ?_)
    simp [setQueue, hTasks]

omit [DecidableEq Field] in
theorem Inv.invokeElsePost (h : s.Inv O) (hTask : task.In O queue)
    (hFollows : s.hasThreadAccess thread queue = false → ∀ object fields,
      task = .callback object fields → s.Settled O object ∨
        .initialization object ∈ (s.queue queue).tasks ∨
          (s.queue queue).shutdownAction.isSome = true) :
    (s.invokeElsePost thread queue task).Inv O := by
  rw [ActiveObjects.invokeElsePost]
  split
  next hAccess => exact h.invoke (of_decide_eq_true hAccess) hTask
  next hAccess => exact h.post hTask (hFollows (Bool.eq_false_iff.mpr hAccess))

omit [DecidableEq Field] in
theorem Accounted.invokeElsePost (h : s.Accounted O object) (hReachable : (s.queue queue).Reachable) :
    (s.invokeElsePost thread queue task).Accounted O object := by
  rw [ActiveObjects.invokeElsePost]
  split
  next => exact h.invoke
  next => exact h.post hReachable

omit [DecidableEq Field] in
theorem accounted_invokeElsePost_initialization
    (h : (s.queue (O.objectQueue object)).Reachable) :
    (s.invokeElsePost thread (O.objectQueue object) (.initialization object)).Accounted O object := by
  rw [ActiveObjects.invokeElsePost]
  split
  next => exact Or.inl settled_invoke_initialization
  next => exact accounted_post_initialization h

omit [DecidableEq Field] in
theorem post_stage (h : (s.queue queue).Reachable) :
    (s.post thread queue task).stage = s.stage ∧ (s.post thread queue task).running = s.running := by
  rcases post_effect h thread task with ⟨hEq, -⟩ | ⟨service, hEq, -⟩
  · obtain ⟨isCanceled, hCancel, -⟩ := s.cancelTask_eq task
    rw [hEq, hCancel]
    exact ⟨rfl, rfl⟩
  · rw [hEq]
    exact ⟨rfl, rfl⟩

omit [DecidableEq Field] in
theorem invokeElsePost_stage (h : (s.queue queue).Reachable) :
    (s.invokeElsePost thread queue task).stage = s.stage := by
  rw [ActiveObjects.invokeElsePost]
  split
  next => exact (s.invoke_frame thread queue task).2.2
  next => exact (post_stage h).1

omit [DecidableEq Field] in
/-- What a client hands over that is not the first callback of an object. -/
theorem Sound.invokeElsePost (h : s.Sound O) (hTask : task.In O queue)
    (hFollows : s.hasThreadAccess thread queue = false → ∀ object fields,
      task = .callback object fields → s.Settled O object ∨
        .initialization object ∈ (s.queue queue).tasks ∨
          (s.queue queue).shutdownAction.isSome = true) :
    (s.invokeElsePost thread queue task).Sound O := by
  refine ⟨h.toInv.invokeElsePost hTask hFollows, fun object hMade => ?_⟩
  rw [invokeElsePost_stage (h.reachable queue)] at hMade
  exact (h.accounted object hMade).invokeElsePost (h.reachable queue)

omit [DecidableEq Object] [DecidableEq Field] in
/-- A step that leaves the tasks of the queues as they are. -/
theorem Sound.sameTasks (h : s.Sound O) {service : QueueService Thread (Task Object Field)}
    (hReachable : service.Reachable) (hTasks : service.tasks = (s.queue queue).tasks)
    (hShutdown : (s.queue queue).shutdownAction.isSome = true → service.shutdownAction.isSome = true) :
    (s.setQueue queue service).Sound O := by
  refine ⟨h.toInv.requeue s.isCanceled hReachable ?_ hShutdown ?_ ?_,
    fun object hMade => (h.accounted object hMade).requeue s.isCanceled ?_ ?_⟩
  · rw [hTasks]
    exact h.inQueue queue
  · exact fun object hOld => Or.inl hOld
  · intro object _ hAwaits
    rw [hTasks]
    exact Or.inr hAwaits
  · exact fun hOld => hOld
  · rintro - hMem
    rw [hTasks]
    exact Or.inl hMem

omit [DecidableEq Field] in
theorem Sound.shutdown (h : s.Sound O) (queue : Queue) (pendingTaskAction : PendingTaskAction) :
    (s.shutdown queue pendingTaskAction).Sound O := by
  have hReachable := (h.reachable queue).shutdown pendingTaskAction
  cases pendingTaskAction with
  | complete => exact h.sameTasks hReachable rfl fun _ => rfl
  | cancel =>
    obtain ⟨hCanceled, hEmpty⟩ := (s.queue queue).shutdown_cancel
    obtain ⟨isCanceled, hEq, hIff⟩ := foldl_cancelTask ((s.queue queue).shutdown .cancel).1
      (s.setQueue queue ((s.queue queue).shutdown .cancel).2)
    rw [hCanceled] at hIff
    rw [show s.shutdown queue .cancel = _ from hEq]
    refine ⟨h.toInv.requeue isCanceled hReachable ?_ (fun _ => rfl) ?_ ?_,
      fun object hMade => (h.accounted object hMade).requeue isCanceled ?_ ?_⟩
    · rw [hEmpty]
      intro task hMem
      cases hMem
    · intro object hNew
      apply ((hIff object).mp hNew).imp_right
      intro hMem
      exact ⟨(h.inQueue queue _ hMem).2, rfl⟩
    · intro object _ _
      rw [hEmpty]
      exact Or.inr trivial
    · exact fun hOld => (hIff object).mpr (Or.inl hOld)
    · exact fun _ hMem => Or.inr ((hIff object).mpr (Or.inr hMem))

/-! ### Steps of the schedulers -/

omit [DecidableEq Object] [DecidableEq Field] in
theorem setQueue_invoke (s : ActiveObjects Queue Thread Object Field)
    (service : QueueService Thread (Task Object Field)) :
    (s.setQueue queue service).invoke thread queue task =
      (s.invoke thread queue task).setQueue queue service := by
  cases task with
  | other fields => rfl
  | initialization object | callback object fields =>
    cases hGone : s.isDestroyed object with
    | false | true => simp [invoke, setQueue, setRunning, hGone]

omit [DecidableEq Object] [DecidableEq Field] in
/-- The task that is taken is at the head of its queue. -/
theorem Sound.tryDequeTask (h : s.Sound O) {service : QueueService Thread (Task Object Field)}
    (hTake : (s.queue queue).tryDequeTask = (some task, service))
    (hAccess : s.worker queue = some thread) :
    ((s.setQueue queue service).invoke thread queue task).Sound O := by
  have hService : (s.queue queue).tryDequeTask.2 = service := by rw [hTake]
  have hReachable : service.Reachable := hService ▸ (h.reachable queue).tryDequeTask
  obtain ⟨hSame, hTasks⟩ : (s.queue queue).SameButTasks service ∧
      (s.queue queue).tasks = task :: service.tasks := by
    rcases (s.queue queue).tryDequeTask_cases with ⟨_, _, hEq, hSame, -, hTasks⟩ | ⟨_, hEq, -⟩
    · cases hTake.symm.trans hEq
      exact ⟨hSame, hTasks⟩
    · cases hTake.symm.trans hEq
  have hTask : task.In O queue := h.inQueue queue task (hTasks ▸ List.mem_cons_self)
  obtain ⟨hQueue, -, hStage⟩ := s.invoke_frame thread queue task
  have hBegun : ∀ object, O.objectQueue object = queue → task = .initialization object →
      (s.invoke thread queue task).Settled O object := by
    rintro object rfl rfl
    exact settled_invoke_initialization
  rw [setQueue_invoke]
  refine ⟨(h.toInv.invoke hAccess hTask).requeue
    (s.invoke thread queue task).isCanceled hReachable ?_ ?_ ?_ ?_,
      fun object hMade => ?_⟩
  · intro other hMem
    exact h.inQueue queue other (hTasks ▸ List.mem_cons_of_mem _ hMem)
  · rw [hQueue, hSame.shutdownAction]
    exact fun hShut => hShut
  · exact fun object hOld => Or.inl hOld
  · intro object hObject hAwaits
    rw [hQueue, hTasks] at hAwaits
    by_cases hFirst : task = .initialization object
    · exact Or.inl (hBegun object hObject hFirst)
    · exact Or.inr (hAwaits.tail hFirst)
  · rw [show ((s.invoke thread queue task).setQueue queue service).stage = s.stage from hStage] at hMade
    by_cases hFirst : task = .initialization object
    · rw [hFirst] at hTask
      exact Or.inl (hBegun object hTask.2 hFirst)
    · apply (h.accounted object hMade).invoke.requeue
        (s.invoke thread queue task).isCanceled
      · exact fun hOld => hOld
      · intro _ hMem
        rw [hQueue, hTasks] at hMem
        exact Or.inl ((List.mem_cons.mp hMem).resolve_left fun hEq => hFirst hEq.symm)

omit [DecidableEq Queue] [DecidableEq Field] in
theorem Sound.finish (h : s.Sound O) (hFinish : s.finish thread = some t) : t.Sound O := by
  rw [ActiveObjects.finish] at hFinish
  split at hFinish
  next => cases hFinish
  next queue task outer hRunning =>
    have hOld : ∀ other entry, entry ∈ (s.setRunning thread outer).running other →
        entry ∈ s.running other := by
      intro other entry hMem
      rcases mem_running_setRunning.mp hMem with ⟨rfl, hOuter⟩ | ⟨-, hSame⟩
      · rw [hRunning]
        exact List.mem_cons_of_mem _ hOuter
      · exact hSame
    have hStill : ∀ object, task ≠ .initialization object → s.Initializing O object →
        (s.setRunning thread outer).Initializing O object := by
      rintro object hTask ⟨other, hMem⟩
      refine ⟨other, mem_running_setRunning.mpr ?_⟩
      by_cases hOther : other = thread
      · rw [hOther, hRunning] at hMem
        refine Or.inl ⟨hOther, (List.mem_cons.mp hMem).resolve_left fun hEq => ?_⟩
        exact hTask (Prod.mk.inj hEq).2.symm
      · exact Or.inr ⟨hOther, hMem⟩
    -- What has begun, has ended or is still on a stack.
    have hSound : (∀ object, s.Settled O object → t.Settled O object) →
        t.queue = s.queue → t.worker = s.worker → t.isCanceled = s.isCanceled → t.stage = s.stage →
          t.running = (s.setRunning thread outer).running → t.Sound O := by
      intro hSettled hQueue hWorker hCanceled hStage hStack
      refine ⟨⟨?_, ?_, ?_, ?_, ?_, fun object => ?_⟩, fun object hMade => ?_⟩
      · rw [hQueue]
        exact h.reachable
      · rw [hStack, hWorker]
        exact fun other otherQueue otherTask hMem => h.access _ _ _ (hOld other _ hMem)
      · rw [hStack]
        exact fun other otherQueue otherTask hMem => h.inRunning _ _ _ (hOld other _ hMem)
      · rw [hQueue]
        exact h.inQueue
      · rw [hCanceled, hQueue]
        exact h.canceled
      · rw [hQueue]
        exact (h.guarded object).imp_left (hSettled object)
      · rw [hStage] at hMade
        rw [Accounted, hQueue, hCanceled]
        exact (h.accounted object hMade).imp_left (hSettled object)
    cases task with
    | initialization object =>
      cases hFinish
      apply hSound _ rfl rfl rfl rfl rfl
      intro other
      apply Or.imp_right
      by_cases hSame : other = object
      · exact fun _ => Or.inl (by simp only [hSame, Function.update_self])
      · apply Or.imp
        · intro hInitialized
          simp only [Function.update_of_ne hSame]
          exact hInitialized
        · exact hStill other fun hEq => hSame (Task.initialization.inj hEq).symm
    | callback object fields | other fields =>
      cases hFinish
      apply hSound _ rfl rfl rfl rfl rfl
      exact fun other => Or.imp_right (Or.imp_right (hStill other nofun))

omit [DecidableEq Thread] [DecidableEq Object] [DecidableEq Field] in
theorem idle_iff : s.idle thread queue = true ↔ ∀ task, (queue, task) ∉ s.running thread := by
  rw [idle, List.all_eq_true]
  constructor
  · intro h task hMem
    exact absurd rfl (of_decide_eq_true (h (queue, task) hMem))
  · rintro h ⟨other, task⟩ hMem
    apply decide_eq_true
    rintro rfl
    exact h task hMem

omit [DecidableEq Object] [DecidableEq Field] in
/-- The worker of a queue changes while no task of it runs. -/
theorem Sound.setWorker (h : s.Sound O) (hNone : ∀ thread task, (queue, task) ∉ s.running thread)
    (worker : Option Thread) :
    Sound O { s with worker := Function.update s.worker queue worker } := by
  refine ⟨⟨h.reachable, fun thread other task hMem => ?_, h.inRunning, h.inQueue, h.canceled,
    h.guarded⟩, h.accounted⟩
  have hOther : other ≠ queue := fun hEq => hNone thread task (hEq ▸ hMem)
  simp only [Function.update_of_ne hOther]
  exact h.access thread other task hMem

omit [DecidableEq Queue] [DecidableEq Object] [DecidableEq Field] in
theorem Inv.setStage (h : s.Inv O) (stage : Object → Stage Thread) :
    Inv O { s with stage := stage } :=
  ⟨h.reachable, h.access, h.inRunning, h.inQueue, h.canceled, h.guarded⟩

/-! ### Steps -/

variable {event : Event Queue Thread Object Field}

omit [DecidableEq Queue] [DecidableEq Object] [DecidableEq Field] in
/-- Where its caller keeps to the order, a callback that is posted follows `Initialize`. -/
theorem Sound.follows (h : s.Sound O) {fields : List Field}
    (hOrderly : s.orderly O (.invokeInQueue thread object fields))
    (hAccess : s.hasThreadAccess thread (O.objectQueue object) = false) :
    s.Settled O object ∨ .initialization object ∈ (s.queue (O.objectQueue object)).tasks ∨
      (s.queue (O.objectQueue object)).shutdownAction.isSome = true := by
  have hRule := hOrderly.2
  rw [hAccess] at hRule
  rcases hRule with hMade | hShut
  · exact (h.accounted object hMade).imp_right (Or.imp_right (h.canceled object))
  · exact Or.inr (Or.inr hShut)

theorem Sound.next (h : s.Sound O) (hOrderly : s.orderly O event) (hStep : s.step O event = some t) :
    t.Sound O := by
  cases event with
  | startWork thread queue =>
    simp only [step] at hStep
    split at hStep
    next hWorker =>
      cases hStep
      apply h.setWorker
      intro other task hMem
      exact absurd ((h.access other queue task hMem).symm.trans hWorker) (Option.some_ne_none other)
    next => cases hStep
  | endWork thread queue =>
    simp only [step] at hStep
    split at hStep
    next hWork =>
      cases hStep
      apply h.setWorker
      intro other task hMem
      cases (h.access other queue task hMem).symm.trans hWork.1
      exact idle_iff.mp hWork.2 task hMem
    next => cases hStep
  | tryDequeTask thread queue =>
    simp only [step] at hStep
    split at hStep
    next hWork =>
      split at hStep
      next => cases hStep
      next task service hTake =>
        cases hStep
        exact h.tryDequeTask hTake hWork.1
    next => cases hStep
  | finish thread => exact h.finish hStep
  | construct thread object =>
    simp only [step] at hStep
    split at hStep
    next =>
      cases hStep
      refine ⟨h.toInv.setStage _, fun other hMade => h.accounted other ?_⟩
      by_cases hSame : other = object
      · simp [hSame] at hMade
      · simpa only [Function.update_of_ne hSame] using hMade
    next => cases hStep
  | make thread object =>
    simp only [step] at hStep
    split at hStep
    next =>
      cases hStep
      have hMade := h.toInv.setStage (Function.update s.stage object .made)
      refine ⟨hMade.invokeElsePost ⟨hOrderly, rfl⟩ fun _ _ => nofun, fun other hOther => ?_⟩
      by_cases hSame : other = object
      · rw [hSame]
        exact accounted_invokeElsePost_initialization (hMade.reachable _)
      · rw [invokeElsePost_stage (hMade.reachable _)] at hOther
        simp only [Function.update_of_ne hSame] at hOther
        have hOld : Accounted O { s with stage := Function.update s.stage object .made } other :=
          h.accounted other hOther
        exact hOld.invokeElsePost (hMade.reachable _)
    next => cases hStep
  | invokeInQueue thread object fields =>
    simp only [step] at hStep
    split at hStep
    next => cases hStep
    next =>
      cases hStep
      apply h.invokeElsePost ⟨hOrderly.1, rfl⟩
      rintro hAccess _ _ hTask
      cases hTask
      exact h.follows hOrderly hAccess
  | destruct object =>
    simp only [step] at hStep
    split at hStep
    next =>
      cases hStep
      have hSettled : ∀ other, s.Settled O other →
          Settled O { s with isDestroyed := Function.update s.isDestroyed object true } other := by
        intro other
        apply Or.imp_left
        intro hDestroyed
        by_cases hSame : other = object
        · simp only [hSame, Function.update_self]
        · simp only [Function.update_of_ne hSame]
          exact hDestroyed
      exact ⟨⟨h.reachable, h.access, h.inRunning, h.inQueue, h.canceled,
        fun other => (h.guarded other).imp_left (hSettled other)⟩,
        fun other hMade => (h.accounted other hMade).imp_left (hSettled other)⟩
    next => cases hStep
  | post thread queue fields =>
    cases hStep
    refine ⟨h.toInv.post ⟨hOrderly, trivial⟩ nofun, fun object hMade => ?_⟩
    rw [(post_stage (h.reachable queue)).1] at hMade
    exact (h.accounted object hMade).post (h.reachable queue)
  | invokeElsePost thread queue fields =>
    cases hStep
    exact h.invokeElsePost ⟨hOrderly, trivial⟩ fun _ => nofun
  | beginTaskBatching thread queue =>
    simp only [step, beginTaskBatching,
      QueueService.beginTaskBatching_error ((h.reachable queue).taskBatches thread)] at hStep
    cases hStep
  | postTaskBatch thread queue | cancelTaskBatch thread queue =>
    simp only [step, endTaskBatching,
      QueueService.endTaskBatching_none ((h.reachable queue).taskBatches thread), setQueue_self] at hStep
    cases hStep
    exact h
  | suspend queue =>
    cases hStep
    exact h.sameTasks (h.reachable queue).suspend rfl fun hShut => hShut
  | resume queue =>
    simp only [step, resume] at hStep
    split at hStep
    next postCount service hResume =>
      cases hStep
      have hReachable := (h.reachable queue).resume hResume
      rcases (s.queue queue).resume_cases with ⟨hError, -⟩ | ⟨_, _, hOk, hTasks, hAction, -⟩
      · cases hError.symm.trans hResume
      · cases hOk.symm.trans hResume
        apply h.sameTasks hReachable hTasks
        rw [hAction]
        exact fun hShut => hShut
    next => cases hStep
  | shutdown queue pendingTaskAction =>
    cases hStep
    exact h.shutdown queue pendingTaskAction
  | accessField thread field =>
    simp only [step] at hStep
    split at hStep
    next =>
      obtain ⟨-, -, hSame⟩ := Option.bind_eq_some_iff.mp hStep
      cases hSame
      exact h
    next => cases hStep

/-! ### Callbacks that begin -/

omit [DecidableEq Queue] [DecidableEq Object] [DecidableEq Field] in
theorem invoke_begins {other : Thread} {otherQueue : Queue} {fields : List Field}
    (h : (s.invoke thread queue task).running other =
      (otherQueue, .callback object fields) :: s.running other) :
    other = thread ∧ otherQueue = queue ∧ task = .callback object fields ∧
      s.isDestroyed object = false := by
  have hTask : other = thread ∧ (queue, task) = (otherQueue, .callback object fields) := by
    rcases s.invoke_cases thread queue task with hEq | ⟨hEq, -⟩
    · rw [hEq, setRunning] at h
      by_cases hOther : other = thread
      · rw [hOther] at h
        simp only [Function.update_self] at h
        exact ⟨hOther, (List.cons.inj h).1⟩
      · simp only [Function.update_of_ne hOther] at h
        exact absurd h.symm (List.cons_ne_self _ _)
    · rw [hEq] at h
      exact absurd h.symm (List.cons_ne_self _ _)
  obtain ⟨hOther, hFirst⟩ := hTask
  cases hFirst
  refine ⟨hOther, rfl, rfl, Bool.eq_false_iff.mpr fun hDestroyed => ?_⟩
  rw [show s.invoke thread queue (.callback object fields) = s from if_pos hDestroyed] at h
  exact absurd h.symm (List.cons_ne_self _ _)

omit [DecidableEq Field] in
theorem invokeElsePost_begins (hReachable : (s.queue queue).Reachable) {other : Thread}
    {otherQueue : Queue} {fields : List Field}
    (h : (s.invokeElsePost thread queue task).running other =
      (otherQueue, .callback object fields) :: s.running other) :
    task = .callback object fields ∧ s.hasThreadAccess thread queue = true ∧
      s.isDestroyed object = false := by
  rw [ActiveObjects.invokeElsePost] at h
  split at h
  next hAccess =>
    obtain ⟨-, -, hTask, hThere⟩ := invoke_begins h
    exact ⟨hTask, hAccess, hThere⟩
  next =>
    rw [(post_stage hReachable).2] at h
    exact absurd h.symm (List.cons_ne_self _ _)

omit [DecidableEq Queue] [DecidableEq Field] in
theorem finish_running (h : s.finish thread = some t) (other : Thread) :
    (t.running other).length ≤ (s.running other).length := by
  rw [ActiveObjects.finish] at h
  split at h
  next => cases h
  next queue task outer hRunning =>
    have hShorter : ((s.setRunning thread outer).running other).length ≤ (s.running other).length := by
      simp only [setRunning]
      by_cases hOther : other = thread
      · rw [hOther, Function.update_self, hRunning]
        exact Nat.le_succ _
      · have hSame : Function.update s.running thread outer other = s.running other :=
          Function.update_of_ne hOther _ _
        exact Nat.le_of_eq (congrArg List.length hSame)
    cases task with
    | initialization object | callback object fields | other fields =>
      cases h
      exact hShorter

omit [DecidableEq Queue] [DecidableEq Object] [DecidableEq Field] in
/-- `Initialize` of an object that is there has ended, where it runs on no stack of the thread that has
access and no callback of the object may begin before it. -/
theorem Inv.isInitialized_of_settled (h : s.Inv O) (hSettled : s.Settled O object)
    (hAccess : s.worker (O.objectQueue object) = some thread)
    (hEnded : (O.objectQueue object, .initialization object) ∉ s.running thread)
    (hThere : s.isDestroyed object = false) : s.isInitialized object = true := by
  rcases hSettled with hDestroyed | hInitialized | ⟨other, hMem⟩
  · exact absurd hDestroyed (Bool.eq_false_iff.mp hThere)
  · exact hInitialized
  · cases (h.access other _ _ hMem).symm.trans hAccess
    exact absurd hMem hEnded

omit [DecidableEq Object] [DecidableEq Field] in
/-- The first task of a queue is a callback of an object that is there. -/
theorem Inv.isInitialized_of_head (h : s.Inv O) {fields : List Field}
    {tasks : List (Task Object Field)}
    (hQueue : (s.queue queue).tasks = .callback object fields :: tasks)
    (hAccess : s.worker queue = some thread) (hIdle : s.idle thread queue = true)
    (hThere : s.isDestroyed object = false) : s.isInitialized object = true := by
  have hObject : O.objectQueue object = queue :=
    (h.inQueue queue (.callback object fields) (hQueue ▸ List.mem_cons_self)).2
  rcases h.guarded object with hSettled | hAwaits
  · apply h.isInitialized_of_settled hSettled (hObject ▸ hAccess) _ hThere
    rw [hObject]
    exact idle_iff.mp hIdle _
  · rw [hObject, hQueue] at hAwaits
    exact absurd rfl hAwaits.1

omit [DecidableEq Queue] [DecidableEq Object] [DecidableEq Field] in
/-- A call that keeps to the order and does not wait for its turn finds the object initialized. -/
theorem Sound.isInitialized_of_behind (h : s.Sound O) (hBehind : s.Behind O thread object)
    (hAccess : s.hasThreadAccess thread (O.objectQueue object) = true)
    (hThere : s.isDestroyed object = false) : s.isInitialized object = true := by
  rcases h.accounted object hBehind.made with hSettled | hWaits | hCanceled
  · exact h.isInitialized_of_settled hSettled (of_decide_eq_true hAccess) hBehind.notRunning hThere
  · exact absurd hWaits hBehind.notWaiting
  · exact absurd hCanceled (Bool.eq_false_iff.mp hBehind.notCanceled)

theorem Sound.initialized_of_begins (h : s.Sound O) (hOrderly : s.orderly O event)
    (hStep : s.step O event = some t) {other : Thread} {otherQueue : Queue} {fields : List Field}
    (hBegins : t.running other = (otherQueue, .callback object fields) :: s.running other) :
    s.isInitialized object = true := by
  have hSame : t.running ≠ s.running := by
    intro hEq
    rw [hEq] at hBegins
    exact absurd hBegins.symm (List.cons_ne_self _ _)
  cases event with
  | tryDequeTask thread queue =>
    simp only [step] at hStep
    split at hStep
    next hWork =>
      split at hStep
      next => cases hStep
      next task service hTake =>
        cases hStep
        have hBefore : ((s.setQueue queue service).invoke thread queue task).running other =
            (otherQueue, .callback object fields) :: (s.setQueue queue service).running other := hBegins
        obtain ⟨-, -, rfl, hThere⟩ := invoke_begins hBefore
        rcases (s.queue queue).tryDequeTask_cases with ⟨_, _, hEq, -, -, hTasks⟩ | ⟨_, hEq, -⟩
        · cases hTake.symm.trans hEq
          exact h.isInitialized_of_head hTasks hWork.1 hWork.2 hThere
        · cases hTake.symm.trans hEq
    next => cases hStep
  | finish thread =>
    have hShorter := finish_running hStep other
    rw [hBegins, List.length_cons] at hShorter
    exact absurd hShorter (Nat.not_succ_le_self _)
  | make thread made =>
    simp only [step] at hStep
    split at hStep
    next =>
      cases hStep
      have hMade := h.toInv.setStage (Function.update s.stage made .made)
      cases (invokeElsePost_begins (hMade.reachable _) hBegins).1
    next => cases hStep
  | invokeInQueue thread called accessed =>
    simp only [step] at hStep
    split at hStep
    next => cases hStep
    next =>
      cases hStep
      obtain ⟨hTask, hAccess, hThere⟩ := invokeElsePost_begins (h.reachable _) hBegins
      cases hTask
      have hRule := hOrderly.2
      rw [if_pos hAccess] at hRule
      exact h.isInitialized_of_behind hRule hAccess hThere
  | invokeElsePost thread queue accessed =>
    cases hStep
    cases (invokeElsePost_begins (h.reachable _) hBegins).1
  | post thread queue accessed =>
    cases hStep
    exact absurd (post_stage (h.reachable queue)).2 hSame
  | beginTaskBatching thread queue =>
    simp only [step, beginTaskBatching] at hStep
    split at hStep
    next =>
      cases hStep
      exact absurd rfl hSame
    next => cases hStep
  | postTaskBatch thread queue | cancelTaskBatch thread queue =>
    simp only [step, endTaskBatching,
      QueueService.endTaskBatching_none ((h.reachable queue).taskBatches thread)] at hStep
    cases hStep
    exact absurd rfl hSame
  | resume queue =>
    simp only [step, resume] at hStep
    split at hStep
    next =>
      cases hStep
      exact absurd rfl hSame
    next => cases hStep
  | shutdown queue pendingTaskAction =>
    cases hStep
    obtain ⟨isCanceled, hEq, -⟩ := foldl_cancelTask ((s.queue queue).shutdown pendingTaskAction).1
      (s.setQueue queue ((s.queue queue).shutdown pendingTaskAction).2)
    rw [show s.shutdown queue pendingTaskAction = _ from hEq] at hSame
    exact absurd rfl hSame
  | startWork thread queue | endWork thread queue | construct thread made | destruct gone =>
    simp only [step] at hStep
    split at hStep
    next =>
      cases hStep
      exact absurd rfl hSame
    next => cases hStep
  | suspend queue =>
    cases hStep
    exact absurd rfl hSame
  | accessField thread field =>
    simp only [step] at hStep
    split at hStep
    next =>
      obtain ⟨-, -, hEq⟩ := Option.bind_eq_some_iff.mp hStep
      cases hEq
      exact absurd rfl hSame
    next => cases hStep

/-- Code of a task accesses the fields of the queue that the task was handed to. -/
theorem Inv.currentQueue_of_accessField (h : s.Inv O) {field : Field}
    (hStep : s.step O (.accessField thread field) = some t) :
    s.currentQueue thread = some (O.fieldQueue field) := by
  simp only [step] at hStep
  split at hStep
  next hAccesses =>
    cases hRunning : s.running thread with
    | nil => simp [accessField, verifyIsInQueueElseCrash, currentQueue, hRunning] at hStep
    | cons entry outer =>
      have hField : field ∈ entry.2.fields O := by
        simpa [accesses, hRunning] using hAccesses
      have hIn : entry.2.In O entry.1 :=
        h.inRunning thread entry.1 entry.2 (hRunning ▸ List.mem_cons_self)
      rw [hIn.1 field hField]
      simp [currentQueue, hRunning]
  next => cases hStep

theorem Sound.confined (h : s.Sound O) (hOrderly : s.orderly O event)
    (hStep : s.step O event = some t) : s.Confined O event t := by
  constructor
  · rintro thread field rfl
    exact h.currentQueue_of_accessField hStep
  · intro other otherQueue object fields hBegins
    exact h.initialized_of_begins hOrderly hStep hBegins

omit [DecidableEq Queue] [DecidableEq Object] [DecidableEq Field] in
theorem sound_initial (worker : Queue → Option Thread) :
    (initial worker : ActiveObjects Queue Thread Object Field).Sound O where
  reachable _ := .make
  access _ _ _ hMem := nomatch hMem
  inRunning _ _ _ hMem := nomatch hMem
  inQueue _ _ hMem := nomatch hMem
  canceled _ hCanceled := nomatch hCanceled
  guarded _ := Or.inr trivial
  accounted _ hMade := nomatch hMade

/-- In a run whose callers keep to the order, fields are accessed in their queues and callbacks find their
objects initialized. -/
theorem confined_of_orderly (O : Owners Queue Object Field) (worker : Queue → Option Thread)
    (events : List (Event Queue Thread Object Field))
    (h : Allowed (step O) (orderly O) (initial worker) events) :
    Along (step O) (Confined O) (initial worker) events := by
  apply h.along (P := Sound O)
  · exact sound_initial worker
  · intro s event t hSound hOrderly hStep
    exact hSound.next hOrderly hStep
  · intro s event t hSound hOrderly hStep
    exact hSound.confined hOrderly hStep

/-- An object made on another thread than that of its queue and called there; behind its `Initialize`, it
is called from the callback too, and its field is accessed in all three. -/
theorem confined_made_elsewhere :
    Along (step ⟨fun _ => (), fun _ => (), fun _ => [()]⟩)
      (Confined ⟨fun _ => (), fun _ => (), fun _ => [()]⟩)
      (initial fun _ => some true : ActiveObjects Unit Bool Unit Unit)
      [.construct false (), .make false (), .invokeInQueue false () [()], .tryDequeTask true (),
        .accessField true (), .finish true, .tryDequeTask true (), .accessField true (),
        .invokeInQueue true () [()], .accessField true ()] := by
  apply confined_of_orderly
  have hShared : Shared (⟨fun _ => (), fun _ => (), fun _ => [()]⟩ : Owners Unit Unit Unit) () [()] :=
    fun _ _ => rfl
  refine ⟨trivial, fun _ hConstruct => ?_⟩
  cases hConstruct
  refine ⟨hShared, fun _ hMake => ?_⟩
  cases hMake
  refine ⟨⟨hShared, Or.inl rfl⟩, fun _ hCall => ?_⟩
  cases hCall
  refine ⟨trivial, fun _ hTake => ⟨trivial, fun _ hAccess => ⟨trivial, fun _ hFinish =>
    ⟨trivial, fun _ hNext => ⟨trivial, fun _ hAgain => ?_⟩⟩⟩⟩⟩
  cases hTake
  cases hAccess
  cases hFinish
  cases hNext
  cases hAgain
  refine ⟨⟨hShared, ⟨rfl, ?_, ?_, rfl⟩⟩, fun _ _ => ⟨trivial, fun _ _ => trivial⟩⟩
  · exact List.not_mem_nil
  · exact fun hMem => nomatch List.mem_singleton.mp hMem

/-- A task of another queue accesses a field; and an object made on another thread is called on the thread
of its queue before the posted `Initialize` has begun. -/
theorem unconfined_field_and_callback :
    ¬ Along (step ⟨fun _ => false, fun _ => true, fun _ => []⟩)
        (Confined ⟨fun _ => false, fun _ => true, fun _ => []⟩)
        (initial fun _ => some true : ActiveObjects Bool Bool Unit Unit)
        [.invokeElsePost true false [()], .accessField true ()] ∧
      ¬ Along (step ⟨fun _ => false, fun _ => true, fun _ => []⟩)
        (Confined ⟨fun _ => false, fun _ => true, fun _ => []⟩)
        (initial fun _ => some true : ActiveObjects Bool Bool Unit Unit)
        [.construct false (), .make false (), .invokeInQueue true () []] := by
  constructor
  · intro h
    have hField := ((h _ rfl).2 _ rfl).1.field true () rfl
    cases hField
  · intro h
    have hCallback := (((h _ rfl).2 _ rfl).2 _ rfl).1.callback true false () [] rfl
    cases hCallback

end Mso.ActiveObjects
