import ReactNativeWindows.Concurrency.Threads

/-! The queue of asynchronous actions of a host, and the code that runs it on a serial dispatch queue. -/
namespace ReactHost

open Concurrency

universe u

structure AsyncActionQueue (Entry : Type u) where
  m_actions : List Entry
  m_isInvoking : Bool

namespace AsyncActionQueue
variable {Entry : Type u}

def empty (Entry : Type u) : AsyncActionQueue Entry := { m_actions := [], m_isInvoking := false }

/-- What comes first in `InvokeAction`: it then calls the action. -/
def invokeAction (q : AsyncActionQueue Entry) : AsyncActionQueue Entry := { q with m_isInvoking := true }

def postAction (q : AsyncActionQueue Entry) (entry : Entry) :
    AsyncActionQueue Entry × Option Entry :=
  if q.m_isInvoking = false ∧ q.m_actions.isEmpty then (q.invokeAction, some entry)
  else ({ q with m_actions := q.m_actions ++ [entry] }, none)

/-- What `CompleteAction` does behind the completion, with the entry that is invoked next. -/
def startNext (q : AsyncActionQueue Entry) : AsyncActionQueue Entry × Option Entry :=
  match q.m_actions with
  | entry :: entries => ({ q with m_actions := entries }.invokeAction, some entry)
  | [] => ({ q with m_isInvoking := false }, none)

abbrev Maybe (Error : Type u) := Except Error Unit

/-- Actions are named by their place among all posted ones. `results` are the futures of actions that
have completed, `waiting` those of them whose continuation is registered, and `delivered` what the
futures returned by `PostAction` received. -/
structure Heap (Error : Type u) where
  queue : AsyncActionQueue ℕ
  posted : ℕ
  started : List ℕ
  results : List (ℕ × Maybe Error)
  waiting : List ℕ
  delivered : List (ℕ × Maybe Error)

/-- `action` is the code of an action, and `continuation` that of those who wait for its result;
`then_` registers the continuation, and `completed` runs it when the future completes, in the queue or
posted to it. -/
inductive Frame (Error : Type u) where
  | postAction
  | postActions (count : ℕ)
  | action (i : ℕ)
  | then_ (i : ℕ)
  | completed (i : ℕ) (result : Maybe Error) (inQueue : Bool)
  | completeAction (i : ℕ) (result : Maybe Error)
  | continuation (i : ℕ)
  | startNext

inductive UserStep (Error : Type u) where
  | returns
  | postAction
  | postActions (count : ℕ)
  | complete (i : ℕ) (result : Maybe Error)

variable {Error : Type u}

def Heap.initial (Error : Type u) : Heap Error :=
  { queue := .empty ℕ, posted := 0, started := [], results := [], waiting := [], delivered := [] }

def Heap.isCompleted (h : Heap Error) (i : ℕ) : Bool := h.results.any fun result => result.1 = i

/-- The future of an action completes once, and not before the action has started. -/
def Heap.complete (h : Heap Error) (i : ℕ) (result : Maybe Error) : Option (Heap Error) :=
  if i ∈ h.started ∧ h.isCompleted i = false then
    some { h with results := h.results ++ [(i, result)] }
  else none

/-- The action's code runs, then `Then` is called on the future that it returned. -/
def Heap.invokeAction (h : Heap Error) : Option ℕ → Heap Error × List (Frame Error)
  | some i => ({ h with started := h.started ++ [i] }, [.action i, .then_ i])
  | none => (h, [])

def userCode (h : Heap Error) (frame : Frame Error) :
    UserStep Error → Option (Outcome (Heap Error) (Frame Error) Empty)
  | .returns => some (.next h [] [])
  | .postAction => some (.next h [.postAction, frame] [])
  | .postActions count => some (.next h [.postActions count, frame] [])
  | .complete i result =>
    (h.complete i result).map fun next => .next next [.completed i result true, frame] []

@[grind =]
def exec (h : Heap Error) (frame : Frame Error) (choice : UserStep Error) :
    Option (Outcome (Heap Error) (Frame Error) Empty) :=
  match frame with
  | .postAction =>
    let (queue, entry) := h.queue.postAction h.posted
    let (next, calls) := { h with queue := queue, posted := h.posted + 1 }.invokeAction entry
    some (.next next calls [])
  | .postActions 0 => some (.next h [] [])
  | .postActions (count + 1) => some (.next h [.postAction, .postActions count] [])
  | .action i => userCode h (.action i) choice
  | .then_ i =>
    match h.results.lookup i with
    | some result => some (.next h [.completeAction i result] [])
    | none => some (.next { h with waiting := h.waiting ++ [i] } [] [])
  | .completed i result inQueue =>
    if i ∈ h.waiting then
      let next := { h with waiting := h.waiting.erase i }
      if inQueue then some (.next next [.completeAction i result] [])
      else some (.next next [] [.completeAction i result])
    else some (.next h [] [])
  | .completeAction i result =>
    some (.next { h with delivered := h.delivered ++ [(i, result)] } [.continuation i, .startNext] [])
  | .continuation i => userCode h (.continuation i) choice
  | .startNext =>
    let (queue, entry) := h.queue.startNext
    let (next, calls) := { h with queue := queue }.invokeAction entry
    some (.next next calls [])

/-- Calls made in the queue, and futures that are completed by others. -/
def machine (Error : Type u) : Machine (Heap Error) (Frame Error) (UserStep Error) Empty where
  exec := exec
  start h frame :=
    match frame with
    | .postAction | .postActions _ => some h
    | .completed i result _ => h.complete i result
    | _ => none

end AsyncActionQueue
end ReactHost
