import ReactNativeWindows.Mso.DispatchQueue.QueueService

/-! Task batching: the calls of one thread that opens and closes batches, between
which other threads post to the same queue. -/
namespace Mso

universe u v

inductive DispatchTask (Functor : Type u) where
  | functor (functor : Functor)
  | batch (tasks : List (DispatchTask Functor))

def DispatchTask.invoked {Functor : Type u} : DispatchTask Functor → List Functor
  | functor f => [f]
  | batch tasks => tasks.flatMap invoked

/-- `startTaskBatching` and `endAndPost` are the constructor of `DispatchTaskBatch`
and its `Post`, which is also what its destructor does. -/
inductive BatchCall (ThreadId : Type v) (Functor : Type u) where
  | startTaskBatching
  | beginTaskBatching
  | post (functor : Functor)
  | endTaskBatching
  | endAndPost
  | postByOther (thread : ThreadId) (functor : Functor)

/-- `returned` holds the result of each `EndTaskBatching`, in order. -/
structure BatchRun (ThreadId : Type v) (Functor : Type u) where
  queue : QueueService ThreadId (DispatchTask Functor)
  returned : List (DispatchTask Functor)
  canceled : List (DispatchTask Functor)

namespace BatchRun
variable {ThreadId : Type v} {Functor : Type u} [DecidableEq ThreadId]

def initial (queue : QueueService ThreadId (DispatchTask Functor)) :
    BatchRun ThreadId Functor := ⟨queue, [], []⟩

def post (s : BatchRun ThreadId Functor) (thread : ThreadId) (task : DispatchTask Functor) :
    BatchRun ThreadId Functor :=
  let (queue, afterPost) := s.queue.post thread task
  { s with
    queue := queue
    canceled := if afterPost = .cancel then s.canceled ++ [task] else s.canceled }

def endTaskBatching (s : BatchRun ThreadId Functor) (thread : ThreadId) :
    DispatchTask Functor × BatchRun ThreadId Functor :=
  let (taskBatch, queue) := s.queue.endTaskBatching thread
  (.batch taskBatch.tasks,
    { s with queue := queue, returned := s.returned ++ [.batch taskBatch.tasks] })

def step (self : ThreadId) (s : BatchRun ThreadId Functor) :
    BatchCall ThreadId Functor → Except String (BatchRun ThreadId Functor)
  -- The constructor stores the queue and does not call `BeginTaskBatching`.
  | .startTaskBatching => .ok s
  | .beginTaskBatching =>
    (s.queue.beginTaskBatching self).map fun queue => { s with queue := queue }
  | .post functor => .ok (s.post self (.functor functor))
  | .endTaskBatching => .ok (s.endTaskBatching self).2
  | .endAndPost =>
    let (task, ended) := s.endTaskBatching self
    .ok (ended.post self task)
  | .postByOther thread functor => .ok (s.post thread (.functor functor))

def run (self : ThreadId) (s : BatchRun ThreadId Functor)
    (calls : List (BatchCall ThreadId Functor)) : Except String (BatchRun ThreadId Functor) :=
  calls.foldlM (step self) s

end BatchRun

/-- What batching is for: a stack of open batches, innermost first, that capture
the tasks of their thread. `shared` holds the tasks posted past them. -/
structure BatchStack (Functor : Type u) where
  batches : List (List (DispatchTask Functor))
  returned : List (DispatchTask Functor)
  shared : List (DispatchTask Functor)

namespace BatchStack
variable {ThreadId : Type v} {Functor : Type u}

def empty : BatchStack Functor := ⟨[], [], []⟩

def openBatch (s : BatchStack Functor) : BatchStack Functor :=
  { s with batches := [] :: s.batches }

def post (s : BatchStack Functor) (task : DispatchTask Functor) : BatchStack Functor :=
  match s.batches with
  | [] => { s with shared := s.shared ++ [task] }
  | batch :: batches => { s with batches := (batch ++ [task]) :: batches }

def closeBatch (s : BatchStack Functor)
    (after : BatchStack Functor → DispatchTask Functor → BatchStack Functor) :
    BatchStack Functor :=
  match s.batches with
  | [] => s
  | batch :: batches =>
    after { s with batches := batches, returned := s.returned ++ [.batch batch] } (.batch batch)

def step (s : BatchStack Functor) : BatchCall ThreadId Functor → BatchStack Functor
  | .startTaskBatching => s.openBatch
  | .beginTaskBatching => s.openBatch
  | .post functor => s.post (.functor functor)
  | .endTaskBatching => s.closeBatch fun s _ => s
  | .endAndPost => s.closeBatch post
  | .postByOther _ functor => { s with shared := s.shared ++ [.functor functor] }

def run (calls : List (BatchCall ThreadId Functor)) : BatchStack Functor :=
  calls.foldl step empty

end BatchStack

section Nesting
variable {ThreadId : Type v} {Functor : Type u}

namespace BatchCall

def depthAfter (depth : Nat) : BatchCall ThreadId Functor → Nat
  | startTaskBatching | beginTaskBatching => depth + 1
  | endTaskBatching | endAndPost => depth - 1
  | post _ | postByOther _ _ => depth

def WellNested (self : ThreadId) (depth : Nat) : BatchCall ThreadId Functor → Prop
  | endTaskBatching | endAndPost => 0 < depth
  | postByOther thread _ => thread ≠ self
  | _ => True

def posted : BatchCall ThreadId Functor → Nat
  | post _ | endAndPost | postByOther _ _ => 1
  | _ => 0

/-- Those of them that a batch should capture. -/
def captured (depth : Nat) : BatchCall ThreadId Functor → Nat
  | post _ => if depth = 0 then 0 else 1
  | endAndPost => if depth - 1 = 0 then 0 else 1
  | _ => 0

end BatchCall

/-- Batches are closed only after they were opened. -/
def WellNested (self : ThreadId) : Nat → List (BatchCall ThreadId Functor) → Prop
  | _, [] => True
  | depth, call :: calls =>
    call.WellNested self depth ∧ WellNested self (call.depthAfter depth) calls

/-- Only `DispatchTaskBatch` opens batches, and none is open when their thread posts. -/
def NothingBatched : Nat → List (BatchCall ThreadId Functor) → Prop
  | _, [] => True
  | depth, call :: calls =>
    call ≠ .beginTaskBatching ∧ call.captured depth = 0 ∧
      NothingBatched (call.depthAfter depth) calls

variable [DecidableEq ThreadId]

/-- No call crashes, each `EndTaskBatching` returns what its batch captured, and
only the other tasks reach the queue, which cancels them if it is shut down. -/
def BatchesTasks (queue : QueueService ThreadId (DispatchTask Functor)) (self : ThreadId)
    (calls : List (BatchCall ThreadId Functor)) : Prop :=
  ∃ t, BatchRun.run self (.initial queue) calls = .ok t ∧
    t.returned = (BatchStack.run calls).returned ∧
    if queue.shutdownAction.isSome then
      t.queue.tasks = queue.tasks ∧ t.canceled = (BatchStack.run calls).shared
    else
      t.queue.tasks = queue.tasks ++ (BatchStack.run calls).shared ∧ t.canceled = []

end Nesting

section Entered
variable {ThreadId : Type v} {Functor : Type u} [DecidableEq ThreadId]

namespace BatchRun

/-- The tasks that were posted on their own, however the queue took them. -/
def entered (s : BatchRun ThreadId Functor) : Nat := s.queue.tasks.length + s.canceled.length

def Unbatched (s : BatchRun ThreadId Functor) : Prop :=
  ∀ thread, s.queue.taskBatches thread = none

variable {s t : BatchRun ThreadId Functor} {self : ThreadId}

theorem Unbatched.endTaskBatching (h : s.Unbatched) (thread : ThreadId) :
    s.endTaskBatching thread =
      (.batch [], { s with returned := s.returned ++ [.batch []] }) := by
  simp only [BatchRun.endTaskBatching, QueueService.endTaskBatching_none (h thread)]
  rfl

theorem Unbatched.post (h : s.Unbatched) (thread : ThreadId) (task : DispatchTask Functor) :
    (s.post thread task).Unbatched := by
  intro other
  simp only [BatchRun.post, QueueService.post_taskBatches h]
  exact h other

theorem Unbatched.entered_post (h : s.Unbatched) (thread : ThreadId)
    (task : DispatchTask Functor) : (s.post thread task).entered = s.entered + 1 := by
  simp only [BatchRun.post, QueueService.post_shared (h thread), entered]
  split
  · simp
    omega
  · split <;> simp [QueueService.tasks] <;> omega

theorem Unbatched.step (h : s.Unbatched) {call : BatchCall ThreadId Functor}
    (hStep : step self s call = .ok t) :
    t.Unbatched ∧ call ≠ .beginTaskBatching ∧
      t.entered = s.entered + call.posted := by
  cases call with
  | startTaskBatching =>
    cases hStep
    exact ⟨h, by simp, rfl⟩
  | beginTaskBatching =>
    simp [BatchRun.step, QueueService.beginTaskBatching_error (h self), Except.map] at hStep
  | post functor =>
    cases hStep
    exact ⟨h.post self _, by simp, h.entered_post self _⟩
  | endTaskBatching =>
    simp only [BatchRun.step, h.endTaskBatching, Except.ok.injEq] at hStep
    subst hStep
    exact ⟨h, by simp, rfl⟩
  | endAndPost =>
    simp only [BatchRun.step, h.endTaskBatching, Except.ok.injEq] at hStep
    subst hStep
    have hEnded : Unbatched { s with returned := s.returned ++ [.batch []] } := h
    exact ⟨hEnded.post self _, by simp, hEnded.entered_post self _⟩
  | postByOther thread functor =>
    cases hStep
    exact ⟨h.post thread _, by simp, h.entered_post thread _⟩

end BatchRun

namespace BatchStack

theorem post_length (s : BatchStack Functor) (task : DispatchTask Functor) :
    (s.post task).batches.length = s.batches.length ∧
      (s.post task).shared.length + (if s.batches.length = 0 then 0 else 1) =
        s.shared.length + 1 := by
  simp only [post]
  split <;> simp [*]

omit [DecidableEq ThreadId] in
/-- Tasks reach the queue on their own only outside all batches. -/
theorem step_length {self : ThreadId} {call : BatchCall ThreadId Functor}
    (s : BatchStack Functor) (h : call.WellNested self s.batches.length) :
    (s.step call).batches.length = call.depthAfter s.batches.length ∧
      (s.step call).shared.length + call.captured s.batches.length =
        s.shared.length + call.posted := by
  cases call with
  | startTaskBatching | beginTaskBatching => exact ⟨rfl, rfl⟩
  | post functor => exact s.post_length (.functor functor)
  | endTaskBatching =>
    cases hOpen : s.batches with
    | nil => simp [BatchCall.WellNested, hOpen] at h
    | cons batch batches =>
      simp only [step, closeBatch, hOpen]
      exact ⟨rfl, rfl⟩
  | endAndPost =>
    cases hOpen : s.batches with
    | nil => simp [BatchCall.WellNested, hOpen] at h
    | cons batch batches =>
      simp only [step, closeBatch, hOpen]
      exact post_length
        { s with batches := batches, returned := s.returned ++ [.batch batch] } (.batch batch)
  | postByOther thread functor =>
    exact ⟨rfl, by simp [step, BatchCall.captured, BatchCall.posted]⟩

end BatchStack

/-- Every run lets at least as many tasks into the queue as it should, and as many
only if no batch ever had anything to capture. -/
theorem BatchRun.Unbatched.run {self : ThreadId} {s t : BatchRun ThreadId Functor}
    (h : s.Unbatched) (a : BatchStack Functor) (calls : List (BatchCall ThreadId Functor))
    (hNested : WellNested self a.batches.length calls) (hRun : BatchRun.run self s calls = .ok t) :
    (calls.foldl BatchStack.step a).shared.length + s.entered ≤ t.entered + a.shared.length ∧
      ((calls.foldl BatchStack.step a).shared.length + s.entered = t.entered + a.shared.length →
        NothingBatched a.batches.length calls) := by
  induction calls generalizing s a with
  | nil =>
    cases hRun
    exact ⟨by simp only [List.foldl_nil]; omega, fun _ => trivial⟩
  | cons call calls ih =>
    simp only [BatchRun.run, List.foldlM_cons] at hRun
    obtain ⟨middle, hStep, hRest⟩ : ∃ middle, BatchRun.step self s call = .ok middle ∧
        BatchRun.run self middle calls = .ok t := by
      cases hStep : BatchRun.step self s call with
      | error why => simp [hStep, bind, Except.bind] at hRun
      | ok middle =>
        rw [hStep] at hRun
        exact ⟨middle, rfl, hRun⟩
    obtain ⟨hMiddle, hNoBegin, hEntered⟩ := h.step hStep
    obtain ⟨hDepth, hShared⟩ := a.step_length hNested.1
    obtain ⟨hLe, hEq⟩ := ih hMiddle (a.step call) (hDepth ▸ hNested.2) hRest
    simp only [List.foldl_cons]
    refine ⟨by omega, fun hSame => ⟨hNoBegin, by omega, ?_⟩⟩
    exact hDepth ▸ hEq (by omega)

/-- The model and its purpose agree as long as every open batch is empty. -/
structure Agrees (queue : QueueService ThreadId (DispatchTask Functor))
    (s : BatchRun ThreadId Functor) (a : BatchStack Functor) : Prop where
  unbatched : s.Unbatched
  empty : ∀ batch ∈ a.batches, batch = []
  returned : s.returned = a.returned
  shutdown : s.queue.shutdownAction = queue.shutdownAction
  shared : if queue.shutdownAction.isSome then
      s.queue.tasks = queue.tasks ∧ s.canceled = a.shared
    else
      s.queue.tasks = queue.tasks ++ a.shared ∧ s.canceled = []

namespace Agrees
variable {queue : QueueService ThreadId (DispatchTask Functor)}
  {s : BatchRun ThreadId Functor} {a : BatchStack Functor}

/-- A task that no batch should capture goes where it should. -/
theorem post (h : Agrees queue s a) (thread : ThreadId) (task : DispatchTask Functor) :
    Agrees queue (s.post thread task) { a with shared := a.shared ++ [task] } := by
  have hShared := h.shared
  refine ⟨h.unbatched.post thread task, h.empty, ?_, ?_, ?_⟩
  · simpa [BatchRun.post] using h.returned
  · simp only [BatchRun.post, QueueService.post_shared (h.unbatched thread)]
    split <;> exact h.shutdown
  · simp only [BatchRun.post, QueueService.post_shared (h.unbatched thread), h.shutdown]
    split
    · rename_i hDown
      simp only [hDown, if_true] at hShared
      simp [hShared]
    · rename_i hUp
      simp only [hUp, if_false, Bool.false_eq_true, QueueService.tasks] at hShared
      split <;> simp [QueueService.tasks, hShared]

omit [DecidableEq ThreadId] in
theorem innermost (h : Agrees queue s a) (hOpen : 0 < a.batches.length) :
    ∃ batches, a.batches = [] :: batches := by
  cases hBatches : a.batches with
  | nil => simp [hBatches] at hOpen
  | cons batch batches =>
    have hEmpty := h.empty batch (by simp [hBatches])
    exact ⟨batches, by rw [hEmpty]⟩

omit [DecidableEq ThreadId] in
theorem close (h : Agrees queue s a) {batches : List (List (DispatchTask Functor))}
    (hOpen : a.batches = [] :: batches) :
    Agrees queue { s with returned := s.returned ++ [.batch []] }
      { a with batches := batches, returned := a.returned ++ [.batch []] } where
  unbatched := h.unbatched
  empty batch hMem := h.empty batch (by simp [hOpen, hMem])
  returned := by simp only [h.returned]
  shutdown := h.shutdown
  shared := h.shared

theorem step {self : ThreadId} {call : BatchCall ThreadId Functor} (h : Agrees queue s a)
    (hNested : call.WellNested self a.batches.length) (hBegin : call ≠ .beginTaskBatching)
    (hCaptured : call.captured a.batches.length = 0) :
    ∃ t, BatchRun.step self s call = .ok t ∧ Agrees queue t (a.step call) := by
  cases call with
  | startTaskBatching =>
    refine ⟨s, rfl, { h with empty := ?_ }⟩
    simp only [BatchStack.step, BatchStack.openBatch, List.mem_cons]
    rintro batch (rfl | hMem)
    · rfl
    · exact h.empty batch hMem
  | beginTaskBatching => exact absurd rfl hBegin
  | post functor =>
    refine ⟨_, rfl, ?_⟩
    have hOpen : a.batches = [] := by
      simpa [BatchCall.captured] using hCaptured
    simpa [BatchStack.step, BatchStack.post, hOpen] using h.post self (.functor functor)
  | endTaskBatching =>
    obtain ⟨batches, hOpen⟩ := h.innermost hNested
    refine ⟨{ s with returned := s.returned ++ [.batch []] },
      by simp only [BatchRun.step, h.unbatched.endTaskBatching], ?_⟩
    simpa [BatchStack.step, BatchStack.closeBatch, hOpen] using h.close hOpen
  | endAndPost =>
    obtain ⟨batches, hOpen⟩ := h.innermost hNested
    have hOuter : batches = [] := by
      simpa [BatchCall.captured, hOpen] using hCaptured
    subst hOuter
    let ended : BatchRun ThreadId Functor := { s with returned := s.returned ++ [.batch []] }
    refine ⟨ended.post self (.batch []),
      by simp only [BatchRun.step, h.unbatched.endTaskBatching, ended], ?_⟩
    simpa [BatchStack.step, BatchStack.closeBatch, BatchStack.post, hOpen] using
      (h.close hOpen).post self (.batch [])
  | postByOther thread functor => exact ⟨_, rfl, h.post thread (.functor functor)⟩

theorem run {self : ThreadId} (h : Agrees queue s a)
    (calls : List (BatchCall ThreadId Functor))
    (hNested : WellNested self a.batches.length calls)
    (hNothing : NothingBatched a.batches.length calls) :
    ∃ t, BatchRun.run self s calls = .ok t ∧
      Agrees queue t (calls.foldl BatchStack.step a) := by
  induction calls generalizing s a with
  | nil => exact ⟨s, rfl, h⟩
  | cons call calls ih =>
    obtain ⟨middle, hStep, hMiddle⟩ := h.step hNested.1 hNothing.1 hNothing.2.1
    have hDepth := (a.step_length hNested.1).1
    obtain ⟨t, hRest, hEnd⟩ := ih hMiddle (hDepth ▸ hNested.2) (hDepth ▸ hNothing.2.2)
    refine ⟨t, ?_, hEnd⟩
    simp only [BatchRun.run, List.foldlM_cons, hStep]
    exact hRest

end Agrees

/-- Batching keeps its promise exactly as long as there is nothing to batch: the
guard never begins a batch, and the call that would begin one crashes. -/
theorem batchesTasks_iff {queue : QueueService ThreadId (DispatchTask Functor)}
    (hQueue : queue.Reachable) {self : ThreadId} {calls : List (BatchCall ThreadId Functor)}
    (hNested : WellNested self 0 calls) :
    BatchesTasks queue self calls ↔ NothingBatched 0 calls := by
  constructor
  · rintro ⟨t, hRun, -, hShared⟩
    have hStart : (BatchRun.initial queue).Unbatched := hQueue.taskBatches
    refine (hStart.run .empty calls hNested hRun).2 ?_
    simp only [BatchRun.entered, BatchRun.initial, BatchStack.empty, List.length_nil]
    change (BatchStack.run calls).shared.length + _ = _
    split at hShared
    · simp [hShared]
      omega
    · simp [hShared]
      omega
  · intro hNothing
    have hStart : Agrees queue (.initial queue) .empty :=
      ⟨hQueue.taskBatches, by simp [BatchStack.empty], rfl, rfl,
        by simp [BatchRun.initial, BatchStack.empty]⟩
    obtain ⟨t, hRun, hEnd⟩ := hStart.run calls hNested hNothing
    exact ⟨t, hRun, hEnd.returned, hEnd.shared⟩

/-- A batch that stays empty, with a post of another thread, keeps the promise. -/
theorem batchesTasks_empty :
    BatchesTasks (QueueService.make : QueueService Bool (DispatchTask Nat)) true
      [.startTaskBatching, .postByOther false 7, .endTaskBatching] :=
  (batchesTasks_iff .make (by simp [WellNested, BatchCall.WellNested, BatchCall.depthAfter])).mpr
    (by simp [NothingBatched, BatchCall.captured])

/-- A begin crashes, and a task posted after `StartTaskBatching` is not captured. -/
theorem task_not_batched :
    BatchRun.run true (.initial (QueueService.make : QueueService Bool (DispatchTask Nat)))
        [.beginTaskBatching, .post 7, .endTaskBatching] =
      .error "access violation: taskBatch is null" ∧
    ¬BatchesTasks (QueueService.make : QueueService Bool (DispatchTask Nat)) true
      [.startTaskBatching, .post 7, .endTaskBatching] := by
  refine ⟨rfl, ?_⟩
  rintro ⟨t, hRun, hReturned, -⟩
  cases hRun
  have hTask : [DispatchTask.batch []] = [.batch [.functor 7]] := hReturned
  simp at hTask

end Entered

end Mso
