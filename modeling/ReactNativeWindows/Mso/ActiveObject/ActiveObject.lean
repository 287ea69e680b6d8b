import ReactNativeWindows.Control.Traces
import ReactNativeWindows.Mso.DispatchQueue.QueueService

/-! Active objects over serial queues: objects whose `Initialize` and callbacks run in their queue, and
fields that check for the queue. The code that uses them acts between the steps, inside of tasks and
outside. Only objects that override `Initialize` matter here. -/
namespace Mso.ActiveObjects

/-- `InvokeInQueue` and `InvokeInQueueStrong` both hand over a callback. The second one only keeps the
object from being destroyed, which may happen at any time here. With its closure, a task has the fields
that its code accesses. -/
inductive Task (Object Field : Type) where
  | initialization (object : Object)
  | callback (object : Object) (fields : List Field)
  | other (fields : List Field)

inductive Stage (Thread : Type) where
  | unmade
  | constructing (thread : Thread)
  | made
  deriving DecidableEq

/-- The queues given to objects and fields, and the fields that the objects' `Initialize` accesses. -/
structure Owners (Queue Object Field : Type) where
  objectQueue : Object → Queue
  fieldQueue : Field → Queue
  initializeFields : Object → List Field

def Task.fields {Queue Object Field : Type} (O : Owners Queue Object Field) :
    Task Object Field → List Field
  | .initialization object => O.initializeFields object
  | .callback _ fields | .other fields => fields

end ActiveObjects

/-- `worker` is the thread that has access to a queue: the one of a looper or of a UI thread for good, one
of the pool while it drains the queue. `running` are the tasks of a thread with the queues of their
contexts, the innermost first. An `Initialize` that a queue did not take, or gave up in its shutdown, is
canceled. -/
structure ActiveObjects (Queue Thread Object Field : Type) where
  worker : Queue → Option Thread
  queue : Queue → QueueService Thread (ActiveObjects.Task Object Field)
  running : Thread → List (Queue × ActiveObjects.Task Object Field)
  stage : Object → ActiveObjects.Stage Thread
  isInitialized : Object → Bool
  isCanceled : Object → Bool
  isDestroyed : Object → Bool

namespace ActiveObjects

variable {Queue Thread Object Field : Type}

def initial (worker : Queue → Option Thread) : ActiveObjects Queue Thread Object Field :=
  ⟨worker, fun _ => .make, fun _ => [], fun _ => .unmade, fun _ => false, fun _ => false,
    fun _ => false⟩

def currentQueue (s : ActiveObjects Queue Thread Object Field) (thread : Thread) : Option Queue :=
  (s.running thread).head?.map Prod.fst

/-- `VerifyIsInQueueElseCrash(queue)` asks for `queue.CurrentQueue()`, a static function: it stops the
process only where there is no current queue at all. -/
def verifyIsInQueueElseCrash (s : ActiveObjects Queue Thread Object Field) (thread : Thread)
    (_queue : Queue) : Option Unit :=
  if (s.currentQueue thread).isSome then some () else none

/-- `ActiveField::Load`, `Store` and `Exchange` and `ActiveReadableField::Load` and `Exchange` all begin
with the check of their queue. -/
def accessField (O : Owners Queue Object Field) (s : ActiveObjects Queue Thread Object Field)
    (thread : Thread) (field : Field) : Option (ActiveObjects Queue Thread Object Field) := do
  s.verifyIsInQueueElseCrash thread (O.fieldQueue field)
  some s

variable [DecidableEq Queue] [DecidableEq Thread] [DecidableEq Object] [DecidableEq Field]

def hasThreadAccess (s : ActiveObjects Queue Thread Object Field) (thread : Thread) (queue : Queue) :
    Bool :=
  s.worker queue = some thread

def setRunning (s : ActiveObjects Queue Thread Object Field) (thread : Thread)
    (tasks : List (Queue × Task Object Field)) : ActiveObjects Queue Thread Object Field :=
  { s with running := Function.update s.running thread tasks }

def setQueue (s : ActiveObjects Queue Thread Object Field) (queue : Queue)
    (service : QueueService Thread (Task Object Field)) : ActiveObjects Queue Thread Object Field :=
  { s with queue := Function.update s.queue queue service }

def cancelTask (s : ActiveObjects Queue Thread Object Field) :
    Task Object Field → ActiveObjects Queue Thread Object Field
  | .initialization object => { s with isCanceled := Function.update s.isCanceled object true }
  | _ => s

/-- A task begins. The weak reference of one to a destroyed object gives nothing, and it ends at once. -/
def invoke (s : ActiveObjects Queue Thread Object Field) (thread : Thread) (queue : Queue)
    (task : Task Object Field) : ActiveObjects Queue Thread Object Field :=
  let started := s.setRunning thread ((queue, task) :: s.running thread)
  match task with
  | .other _ => started
  | .initialization object | .callback object _ => if s.isDestroyed object then s else started

def post (s : ActiveObjects Queue Thread Object Field) (thread : Thread) (queue : Queue)
    (task : Task Object Field) : ActiveObjects Queue Thread Object Field :=
  let (service, afterPost) := (s.queue queue).post thread task
  let s := s.setQueue queue service
  if afterPost = .cancel then s.cancelTask task else s

def invokeElsePost (s : ActiveObjects Queue Thread Object Field) (thread : Thread) (queue : Queue)
    (task : Task Object Field) : ActiveObjects Queue Thread Object Field :=
  if s.hasThreadAccess thread queue then s.invoke thread queue task
  else s.post thread queue task

def beginTaskBatching (s : ActiveObjects Queue Thread Object Field) (thread : Thread)
    (queue : Queue) : Option (ActiveObjects Queue Thread Object Field) :=
  match (s.queue queue).beginTaskBatching thread with
  | .ok service => some (s.setQueue queue service)
  | .error _ => none

def endTaskBatching (s : ActiveObjects Queue Thread Object Field) (thread : Thread) (queue : Queue) :
    List (Task Object Field) × ActiveObjects Queue Thread Object Field :=
  let (taskBatch, service) := (s.queue queue).endTaskBatching thread
  (taskBatch.tasks, s.setQueue queue service)

def resume (s : ActiveObjects Queue Thread Object Field) (queue : Queue) :
    Option (ActiveObjects Queue Thread Object Field) :=
  match (s.queue queue).resume with
  | .ok (_, service) => some (s.setQueue queue service)
  | .error _ => none

def shutdown (s : ActiveObjects Queue Thread Object Field) (queue : Queue)
    (pendingTaskAction : PendingTaskAction) : ActiveObjects Queue Thread Object Field :=
  let (tasksToCancel, service) := (s.queue queue).shutdown pendingTaskAction
  tasksToCancel.foldl cancelTask (s.setQueue queue service)

def finish (s : ActiveObjects Queue Thread Object Field) (thread : Thread) :
    Option (ActiveObjects Queue Thread Object Field) :=
  match s.running thread with
  | [] => none
  | (_, task) :: outer =>
    let s := s.setRunning thread outer
    match task with
    | .initialization object => some { s with isInitialized := Function.update s.isInitialized object true }
    | _ => some s

/-- What threads do: the schedulers give and take access and run tasks; the client's code uses queues,
batches, objects and fields. -/
inductive Event (Queue Thread Object Field : Type) where
  | startWork (thread : Thread) (queue : Queue)
  | endWork (thread : Thread) (queue : Queue)
  | tryDequeTask (thread : Thread) (queue : Queue)
  | finish (thread : Thread)
  | construct (thread : Thread) (object : Object)
  | make (thread : Thread) (object : Object)
  | invokeInQueue (thread : Thread) (object : Object) (fields : List Field)
  | destruct (object : Object)
  | post (thread : Thread) (queue : Queue) (fields : List Field)
  | invokeElsePost (thread : Thread) (queue : Queue) (fields : List Field)
  | beginTaskBatching (thread : Thread) (queue : Queue)
  | postTaskBatch (thread : Thread) (queue : Queue)
  | cancelTaskBatch (thread : Thread) (queue : Queue)
  | suspend (queue : Queue)
  | resume (queue : Queue)
  | shutdown (queue : Queue) (pendingTaskAction : PendingTaskAction)
  | accessField (thread : Thread) (field : Field)

/-- No task of the queue is on the stack of the thread. -/
def idle (s : ActiveObjects Queue Thread Object Field) (thread : Thread) (queue : Queue) : Bool :=
  (s.running thread).all fun entry => entry.1 ≠ queue

variable (O : Owners Queue Object Field)

/-- The code that the thread runs accesses the field: its innermost task does, or it is in no task. -/
def accesses (s : ActiveObjects Queue Thread Object Field) (thread : Thread) (field : Field) : Bool :=
  (s.running thread).head?.all fun entry => field ∈ entry.2.fields O

def step (s : ActiveObjects Queue Thread Object Field) :
    Event Queue Thread Object Field → Option (ActiveObjects Queue Thread Object Field)
  | .startWork thread queue =>
    if s.worker queue = none then some { s with worker := Function.update s.worker queue (some thread) }
    else none
  | .endWork thread queue =>
    if s.worker queue = some thread ∧ s.idle thread queue = true then
      some { s with worker := Function.update s.worker queue none }
    else none
  | .tryDequeTask thread queue =>
    if s.worker queue = some thread ∧ s.idle thread queue = true then
      match (s.queue queue).tryDequeTask with
      | (none, _) => none
      | (some task, service) => some ((s.setQueue queue service).invoke thread queue task)
    else none
  | .finish thread => s.finish thread
  | .construct thread object =>
    if s.stage object = .unmade then
      some { s with stage := Function.update s.stage object (.constructing thread) }
    else none
  | .make thread object =>
    if s.stage object = .constructing thread then
      let s := { s with stage := Function.update s.stage object .made }
      some (s.invokeElsePost thread (O.objectQueue object) (.initialization object))
    else none
  | .invokeInQueue thread object fields =>
    if s.stage object = .unmade then none
    else some (s.invokeElsePost thread (O.objectQueue object) (.callback object fields))
  | .destruct object =>
    if s.stage object = .made then
      some { s with isDestroyed := Function.update s.isDestroyed object true }
    else none
  | .post thread queue fields => some (s.post thread queue (.other fields))
  | .invokeElsePost thread queue fields => some (s.invokeElsePost thread queue (.other fields))
  | .beginTaskBatching thread queue => s.beginTaskBatching thread queue
  -- The tasks of a batch run one behind the other, as they do when each is posted.
  | .postTaskBatch thread queue =>
    let (tasks, s) := s.endTaskBatching thread queue
    some (tasks.foldl (fun s task => s.post thread queue task) s)
  | .cancelTaskBatch thread queue =>
    let (tasks, s) := s.endTaskBatching thread queue
    some (tasks.foldl cancelTask s)
  | .suspend queue => some (s.setQueue queue (s.queue queue).suspend)
  | .resume queue => s.resume queue
  | .shutdown queue pendingTaskAction => some (s.shutdown queue pendingTaskAction)
  | .accessField thread field => if s.accesses O thread field then s.accessField O thread field else none

/-- A field is accessed in its own queue, and a callback that begins finds its object initialized. -/
structure Confined (s : ActiveObjects Queue Thread Object Field)
    (event : Event Queue Thread Object Field) (t : ActiveObjects Queue Thread Object Field) : Prop where
  field : ∀ thread field, event = .accessField thread field →
    s.currentQueue thread = some (O.fieldQueue field)
  callback : ∀ thread queue object fields,
    t.running thread = (queue, .callback object fields) :: s.running thread →
      s.isInitialized object = true

/-- `Make` is through with the object, and its `Initialize` neither waits in the queue nor is on the stack
of the thread, nor was it canceled. -/
structure Behind (s : ActiveObjects Queue Thread Object Field) (thread : Thread) (object : Object) :
    Prop where
  made : s.stage object = .made
  notWaiting : .initialization object ∉ (s.queue (O.objectQueue object)).tasks
  notRunning : (O.objectQueue object, .initialization object) ∉ s.running thread
  notCanceled : s.isCanceled object = false

def Shared (queue : Queue) (fields : List Field) : Prop := ∀ field ∈ fields, O.fieldQueue field = queue

/-- What callers have to keep to. Code that is handed to a queue accesses only the fields of this queue.
An object is not called in its constructor, and on a thread with access to its queue, where the call does
not wait for its turn, not in front of `Initialize` either. -/
def orderly (s : ActiveObjects Queue Thread Object Field) : Event Queue Thread Object Field → Prop
  | .make _ object => Shared O (O.objectQueue object) (O.initializeFields object)
  | .invokeInQueue thread object fields =>
    Shared O (O.objectQueue object) fields ∧
      if s.hasThreadAccess thread (O.objectQueue object) then s.Behind O thread object
      else s.stage object = .made ∨ (s.queue (O.objectQueue object)).shutdownAction.isSome = true
  | .post _ queue fields | .invokeElsePost _ queue fields => Shared O queue fields
  | _ => True

end ActiveObjects

end Mso
