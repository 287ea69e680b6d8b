import ReactNativeWindows.Concurrency.Threads
import ReactNativeWindows.Mso.Future.FutureTraits

/-! Futures of any number on any number of threads. One step of a thread is an
atomic load or compare-exchange with the code that follows it, or an access to a
field that other threads may access as well. Callbacks are client code. -/
namespace Mso.Futures

open Concurrency

universe u v

variable {FutureId : Type u} {ErrorCode : Type v}

structure Future (FutureId : Type u) (ErrorCode : Type v) where
  data : StateAndContinuation FutureId
  link : Option FutureId
  error : Option ErrorCode

/-- How a future is invoked: with its parent if that succeeded, or with an error. -/
inductive Path (FutureId : Type u) (ErrorCode : Type v) where
  | taskInvoke (parent : Option FutureId)
  | taskCatch (parentError : Option ErrorCode)
  deriving DecidableEq

inductive Event (FutureId : Type u) (ErrorCode : Type v) where
  | addContinuation (parent continuation : FutureId)
  | tryPostInternal (parent continuation : FutureId)
  | posting (parent : Option FutureId) (future : FutureId)
  | invoke (future : FutureId) (path : Path FutureId ErrorCode)
  | multiPost (parent future : FutureId) (path : Path FutureId ErrorCode)
  | setFailed (future : FutureId) (error : Option ErrorCode)
  | returnTrue (future : FutureId)
  deriving DecidableEq

structure Heap (FutureId : Type u) (ErrorCode : Type v) where
  futures : FutureId → Future FutureId ErrorCode
  events : List (Event FutureId ErrorCode)

/-- `call` is a method before its load, and `exchange` before its compare-exchange
with the word that it read. `succeeded` and `failed` are what follows the last
compare-exchange, `errorStarted` is between `TryStartSetError` and `SetFailed`. -/
inductive Frame (FutureId : Type u) (ErrorCode : Type v) where
  | call (method : Method FutureId ErrorCode) (future : FutureId) (isSynchronous : Bool)
  | exchange (method : Method FutureId ErrorCode) (future : FutureId) (isSynchronous : Bool)
      (data : StateAndContinuation FutureId)
  | addContinuation (future continuation : FutureId)
  | addContinuationExchange (future continuation : FutureId) (data : StateAndContinuation FutureId)
  | succeeded (future : FutureId) (continuation : Continuation FutureId)
  | errorStarted (future : FutureId) (futureError : ErrorRef FutureId ErrorCode)
  | failed (future : FutureId) (continuation : Continuation FutureId)
  | returnTrue (future : FutureId)
  | postContinuation (parent : FutureId) (continuation : Option FutureId)
  | tryPostInternal (parent : Option FutureId) (future : FutureId) (crashIfFailed : Bool)
  | taskPost (future : FutureId)
  | taskInvoke (future : FutureId)
  | taskCatch (future parentError : FutureId)
  deriving DecidableEq

/-- What is open: a weak compare-exchange may fail for no reason, a `TaskCatch`
callback may move the error out, and client code may call any method. -/
inductive Choice (FutureId : Type u) (ErrorCode : Type v) where
  | go
  | spuriousFailure
  | takeError
  | callFromTask (frame : Frame FutureId ErrorCode)

def Future.initial : Future FutureId ErrorCode := ⟨⟨.pending, .null⟩, none, none⟩

def Heap.initial : Heap FutureId ErrorCode := ⟨fun _ => .initial, []⟩

namespace Heap
variable (h : Heap FutureId ErrorCode)

def log (event : Event FutureId ErrorCode) : Heap FutureId ErrorCode :=
  { h with events := event :: h.events }

@[simp] theorem log_futures (event : Event FutureId ErrorCode) :
    (h.log event).futures = h.futures := rfl

@[simp] theorem log_events (event : Event FutureId ErrorCode) :
    (h.log event).events = event :: h.events := rfl

variable [DecidableEq FutureId]

def setData (p : FutureId) (data : StateAndContinuation FutureId) : Heap FutureId ErrorCode :=
  { h with futures := Function.update h.futures p { h.futures p with data := data } }

def setLink (p : FutureId) (link : Option FutureId) : Heap FutureId ErrorCode :=
  { h with futures := Function.update h.futures p { h.futures p with link := link } }

def setError (p : FutureId) (error : Option ErrorCode) : Heap FutureId ErrorCode :=
  { h with futures := Function.update h.futures p { h.futures p with error := error } }

section
variable (p q : FutureId) (data : StateAndContinuation FutureId) (link : Option FutureId)
  (error : Option ErrorCode)

@[simp] theorem setData_events : (h.setData p data).events = h.events := rfl

@[simp] theorem setLink_events : (h.setLink p link).events = h.events := rfl

@[simp] theorem setError_events : (h.setError p error).events = h.events := rfl

@[simp] theorem setData_data_self : ((h.setData p data).futures p).data = data := by
  simp [setData]

theorem setData_data_of_ne {p q : FutureId} (hNe : q ≠ p) :
    ((h.setData p data).futures q).data = (h.futures q).data := by
  simp [setData, hNe]

@[simp] theorem setData_link : ((h.setData p data).futures q).link = (h.futures q).link := by
  by_cases hSame : q = p
  · subst hSame
    simp [setData]
  · simp [setData, hSame]

@[simp] theorem setData_error : ((h.setData p data).futures q).error = (h.futures q).error := by
  by_cases hSame : q = p
  · subst hSame
    simp [setData]
  · simp [setData, hSame]

@[simp] theorem setLink_data : ((h.setLink p link).futures q).data = (h.futures q).data := by
  by_cases hSame : q = p
  · subst hSame
    simp [setLink]
  · simp [setLink, hSame]

@[simp] theorem setLink_link_self : ((h.setLink p link).futures p).link = link := by
  simp [setLink]

@[simp] theorem setLink_error : ((h.setLink p link).futures q).error = (h.futures q).error := by
  by_cases hSame : q = p
  · subst hSame
    simp [setLink]
  · simp [setLink, hSame]

@[simp] theorem setError_data : ((h.setError p error).futures q).data = (h.futures q).data := by
  by_cases hSame : q = p
  · subst hSame
    simp [setError]
  · simp [setError, hSame]

@[simp] theorem setError_link : ((h.setError p error).futures q).link = (h.futures q).link := by
  by_cases hSame : q = p
  · subst hSame
    simp [setError]
  · simp [setError, hSame]

@[simp] theorem setError_error_self : ((h.setError p error).futures p).error = error := by
  simp [setError]

theorem setError_error_of_ne {p q : FutureId} (hNe : q ≠ p) :
    ((h.setError p error).futures q).error = (h.futures q).error := by
  simp [setError, hNe]

end

end Heap

/-- `waitCycles` of `TrySetInvoking`: 10 seconds. -/
def waitCycles : Nat := 10000

namespace Method

/-- The method after it waited in vain for another state. -/
def again : Method FutureId ErrorCode → Method FutureId ErrorCode
  | trySetInvoking waitCycles crashIfFailed => trySetInvoking (waitCycles - 1) crashIfFailed
  | method => method

/-- Completing a future takes its continuations, and marks a list that was not empty. -/
def newContinuation : Method FutureId ErrorCode → Continuation FutureId → Continuation FutureId
  | trySetSuccess _, .null | setFailed, .null => .null
  | trySetSuccess _, _ | setFailed, _ => .invoked
  | _, continuation => continuation

end Method

/-- The first continuation as a pointer, where `ContinuationInvoked` is not one. -/
def Continuation.toFuture : Continuation FutureId → Option FutureId
  | .future continuation => some continuation
  | _ => none

section Exec
variable [DecidableEq FutureId] [DecidableEq ErrorCode] (traits : FutureId → MadeTraits)

/-- A method goes on with the word that it read just now. -/
def afterLoad (h : Heap FutureId ErrorCode) (method : Method FutureId ErrorCode) (p : FutureId)
    (isSynchronous : Bool) :
    Option (Outcome (Heap FutureId ErrorCode) (Frame FutureId ErrorCode) String) :=
  let future := h.futures p
  match (traits p).attempt isSynchronous future.link.isSome method future.data.state with
  | .exchange => some (.next h [.exchange method p isSynchronous future.data] [])
  | .wait => some (.next h [.call method.again p isSynchronous] [])
  | .returnFalse => some (.next h [] [])
  | .crash why => some (.crash why)

def invoke (h : Heap FutureId ErrorCode) (p : FutureId) (choice : Choice FutureId ErrorCode) :
    Option (Outcome (Heap FutureId ErrorCode) (Frame FutureId ErrorCode) String) :=
  let future := h.futures p
  match future.error with
  | none =>
    if (traits p).taskInvoke then
      some (.next (h.log (.invoke p (.taskInvoke future.link))) [.taskInvoke p] [])
    else if (traits p).options.useParentValue then
      if future.link.isNone then
        some (.crash "Parent must not be null")
      else
        some (.next (h.log (.invoke p (.taskInvoke future.link)))
          [.call (.trySetSuccess true) p true] [])
    else
      some (.crash "Invoke the future")
  | some error =>
    let h := h.log (.invoke p (.taskCatch error))
    if (traits p).taskCatch then
      match choice with
      | .takeError => some (.next (h.setError p none) [.taskCatch p p] [])
      | _ => some (.next h [.taskCatch p p] [])
    else
      some (.next h [.call (.tryStartSetError (.errorOf p) true) p true] [])

/-- `TaskPost`, or `Invoke` inline. -/
def startTask (c : FutureId) : List (Frame FutureId ErrorCode) :=
  if (traits c).taskPost then [.taskPost c, .call .trySetPosted c true]
  else [.call (.trySetInvoking waitCycles true) c true]

def posting (h : Heap FutureId ErrorCode) (parent : Option FutureId) (c : FutureId) :
    Option (Outcome (Heap FutureId ErrorCode) (Frame FutureId ErrorCode) String) :=
  let next := (h.futures c).link
  let h := (h.setLink c none).log (.posting parent c)
  match parent with
  | none =>
    if next.isSome then
      some (.crash "Future must not be part of a list if parent is null")
    else
      some (.next h (startTask traits c) [])
  | some p =>
    let calls := startTask traits c ++ [.postContinuation p next]
    match (h.futures p).data.state with
    | .succeeded => some (.next (h.setLink c (some p)) calls [])
    | .failed =>
      if (traits c).options.callTaskInvokeOnError then
        some (.next (h.setLink c (some p)) calls [])
      else
        some (.next (h.setError c (h.futures p).error) calls [])
    | state => some (.crash
        ("State: " ++ state.toString ++ ". " ++ "Unexpected parent state while posting"))

def afterExchange (h : Heap FutureId ErrorCode) (method : Method FutureId ErrorCode)
    (p : FutureId) (isSynchronous : Bool) (continuation : Continuation FutureId)
    (choice : Choice FutureId ErrorCode) :
    Option (Outcome (Heap FutureId ErrorCode) (Frame FutureId ErrorCode) String) :=
  match method with
  | .trySetInvoking _ _ => invoke traits h p choice
  -- The caller constructs the value in the buffer that it got.
  | .tryStartSetValue crashIfFailed =>
    some (.next h [.call (.trySetSuccess crashIfFailed) p isSynchronous] [])
  | .trySetSuccess _ => some (.next h [.succeeded p continuation] [])
  | .tryStartSetError futureError _ => some (.next h [.errorStarted p futureError] [])
  | .setFailed =>
    some (.next (h.log (.setFailed p (h.futures p).error)) [.failed p continuation] [])
  | .startAwaiting | .trySetPosted => some (.next h [] [])
  | .tryPostInternal parent _ => posting traits h parent p

/-- `AddContinuation` with the word that it read just now: a continuation of a future
that is not done takes the list over. -/
def linkContinuation (h : Heap FutureId ErrorCode) (p c : FutureId) :
    Option (Outcome (Heap FutureId ErrorCode) (Frame FutureId ErrorCode) String) :=
  let data := (h.futures p).data
  if data.continuation ≠ .null ∧ ¬((traits p).options.isShared ∨
      (traits c).options.isShared ∧ (traits c).options.useParentValue) then
    some (.crash "AddContinuation called more than once for unique future.")
  else
    let link := if data.state.isDone then none else data.continuation.toFuture
    some (.next (h.setLink c link) [.addContinuationExchange p c data] [])

/-- `m_error = std::move(futureError)`, which leaves equal error codes alone. -/
def moveError (h : Heap FutureId ErrorCode) (p : FutureId) :
    ErrorRef FutureId ErrorCode → Heap FutureId ErrorCode
  | .value error => h.setError p error
  | .errorOf q =>
    let error := (h.futures q).error
    if (h.futures p).error = error then h else (h.setError q none).setError p error

/-- The branch of `TryPostInternal` for MultiPost futures. -/
def multiPost (h : Heap FutureId ErrorCode) (parent : Option FutureId) (c : FutureId) :
    Option (Outcome (Heap FutureId ErrorCode) (Frame FutureId ErrorCode) String) :=
  match parent with
  | none => some (.crash "MultiPost parent must not be null")
  | some p =>
    match (h.futures p).data.state with
    | .succeeded =>
      some (.next (h.log (.multiPost p c (.taskInvoke (some p)))) [.taskInvoke c] [])
    | .failed =>
      some (.next (h.log (.multiPost p c (.taskCatch (h.futures p).error)))
        [.taskCatch c p] [])
    | _ => some (.crash "MultiPost parent is in unexpected state")

/-- The future whose callback runs, and the one whose error that callback refers to. -/
def Frame.callbackOf : Frame FutureId ErrorCode → Option (FutureId × Option FutureId)
  | .taskPost c | .taskInvoke c => some (c, none)
  | .taskCatch c parentError => some (c, some parentError)
  | _ => none

/-- What client code may call, where `current` is the future whose callback it is
in, and `parentError` the future whose error that callback refers to. -/
def Frame.isCall (current parentError : Option FutureId) : Frame FutureId ErrorCode → Bool
  | .call method p isSynchronous =>
    isSynchronous == decide (current = some p) &&
      match method with
      | .trySetInvoking cycles crashIfFailed => cycles == waitCycles && crashIfFailed == isSynchronous
      | .tryStartSetValue _ | .trySetSuccess _ => true
      | .startAwaiting => isSynchronous
      | .tryStartSetError (.value _) _ => true
      | .tryStartSetError (.errorOf q) _ => isSynchronous && decide (parentError = some q)
      | _ => false
  | .tryPostInternal none _ crashIfFailed => crashIfFailed
  | .addContinuation _ _ => true
  | _ => false

variable (client : Heap FutureId ErrorCode → Frame FutureId ErrorCode → Bool)

def startCall (current parentError : Option FutureId) (h : Heap FutureId ErrorCode)
    (frame : Frame FutureId ErrorCode) : Option (Heap FutureId ErrorCode) :=
  if frame.isCall current parentError && client h frame then
    match frame with
    | .addContinuation p c => some (h.log (.addContinuation p c))
    | _ => some h
  else
    none

def callback (c : FutureId) (parentError : Option FutureId) (h : Heap FutureId ErrorCode)
    (frame : Frame FutureId ErrorCode) (choice : Choice FutureId ErrorCode) :
    Option (Outcome (Heap FutureId ErrorCode) (Frame FutureId ErrorCode) String) :=
  match choice with
  | .callFromTask call =>
    (startCall client (some c) parentError h call).map fun h => .next h [call, frame] []
  | _ => some (.next h [] [])

@[grind =]
def exec (h : Heap FutureId ErrorCode) (frame : Frame FutureId ErrorCode)
    (choice : Choice FutureId ErrorCode) :
    Option (Outcome (Heap FutureId ErrorCode) (Frame FutureId ErrorCode) String) :=
  match frame with
  | .call method p isSynchronous => afterLoad traits h method p isSynchronous
  | .exchange method p isSynchronous data =>
    match choice with
    | .spuriousFailure => afterLoad traits h method p isSynchronous
    | _ =>
      if (h.futures p).data = data then
        afterExchange traits
          (h.setData p ⟨method.target, method.newContinuation data.continuation⟩)
          method p isSynchronous data.continuation choice
      else
        afterLoad traits h method p isSynchronous
  | .addContinuation p c => linkContinuation traits h p c
  | .addContinuationExchange p c data =>
    match choice with
    | .spuriousFailure => linkContinuation traits h p c
    | _ =>
      if (h.futures p).data = data then
        if data.state.isDone then
          if (h.futures c).link.isSome then
            some (.crash "All existing continuations must be already executed")
          else
            some (.next (h.setData p ⟨data.state, .invoked⟩) [.postContinuation p (some c)] [])
        else
          some (.next (h.setData p ⟨data.state, .future c⟩) [] [])
      else
        linkContinuation traits h p c
  | .succeeded p continuation =>
    if continuation = .invoked then
      some (.crash "Continuation must not be invoked yet.")
    else
      let h := if (traits p).options.useParentValue then h else h.setLink p none
      some (.next (h.setError p none)
        [.postContinuation p continuation.toFuture, .returnTrue p] [])
  | .errorStarted p futureError =>
    some (.next (moveError h p futureError) [.call .setFailed p false] [])
  | .failed p continuation =>
    if continuation = .invoked then
      some (.crash "Continuation must not be invoked yet.")
    else
      some (.next (h.setLink p none)
        [.postContinuation p continuation.toFuture, .returnTrue p] [])
  | .returnTrue p => some (.next (h.log (.returnTrue p)) [] [])
  | .postContinuation _ none => some (.next h [] [])
  | .postContinuation p (some c) =>
    some (.next (h.log (.tryPostInternal p c)) [.tryPostInternal (some p) c false] [])
  | .tryPostInternal parent c crashIfFailed =>
    if (traits c).options.isMultiPost then multiPost h parent c
    else some (.next h [.call (.tryPostInternal parent crashIfFailed) c false] [])
  | .taskPost c | .taskInvoke c => callback client c none h frame choice
  | .taskCatch c parentError => callback client c (some parentError) h frame choice

/-- The program, for clients on any number of threads. -/
def futures : Machine (Heap FutureId ErrorCode) (Frame FutureId ErrorCode)
    (Choice FutureId ErrorCode) String where
  exec := exec traits client
  start := startCall client none none

end Exec

end Mso.Futures
