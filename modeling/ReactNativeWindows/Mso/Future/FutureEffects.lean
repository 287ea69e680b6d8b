import ReactNativeWindows.Mso.Future.FutureImpl

/-! What each step of `FutureImpl` does, as one relation: the proofs about futures
split on its cases and do not look into the steps again. -/
namespace Mso.Futures

open Concurrency

universe u v

variable {FutureId : Type u} {ErrorCode : Type v}

section Effects
variable [DecidableEq FutureId] [DecidableEq ErrorCode] (traits : FutureId → MadeTraits)

/-- A frame that is about to load, or that loads again as its exchange failed. -/
inductive Loads (method : Method FutureId ErrorCode) (p : FutureId) (isSynchronous : Bool) :
    Frame FutureId ErrorCode → Prop where
  | call : Loads method p isSynchronous (.call method p isSynchronous)
  | exchange (data : StateAndContinuation FutureId) :
      Loads method p isSynchronous (.exchange method p isSynchronous data)

inductive Links (p c : FutureId) : Frame FutureId ErrorCode → Prop where
  | call : Links p c (.addContinuation p c)
  | exchange (data : StateAndContinuation FutureId) : Links p c (.addContinuationExchange p c data)

/-- What follows a successful compare-exchange of a method. -/
inductive AfterExchange (h : Heap FutureId ErrorCode) (p : FutureId) (isSynchronous : Bool)
    (continuation : Continuation FutureId) : Method FutureId ErrorCode →
    Heap FutureId ErrorCode → List (Frame FutureId ErrorCode) → Prop where
  | invokeTask {cycles : Nat} {crashIfFailed : Bool} (hNone : (h.futures p).error = none)
      (hTask : (traits p).taskInvoke = true) :
      AfterExchange h p isSynchronous continuation (.trySetInvoking cycles crashIfFailed)
        (h.log (.invoke p (.taskInvoke (h.futures p).link))) [.taskInvoke p]
  | invokeParentValue {cycles : Nat} {crashIfFailed : Bool} (hNone : (h.futures p).error = none)
      (hTask : (traits p).taskInvoke = false) :
      AfterExchange h p isSynchronous continuation (.trySetInvoking cycles crashIfFailed)
        (h.log (.invoke p (.taskInvoke (h.futures p).link))) [.call (.trySetSuccess true) p true]
  | invokeCatch {cycles : Nat} {crashIfFailed : Bool} {error : ErrorCode}
      (hError : (h.futures p).error = some error) {h' : Heap FutureId ErrorCode}
      (hTaken : h' = h.log (.invoke p (.taskCatch error)) ∨
        h' = (h.log (.invoke p (.taskCatch error))).setError p none) :
      AfterExchange h p isSynchronous continuation (.trySetInvoking cycles crashIfFailed)
        h' [.taskCatch p p]
  | invokeError {cycles : Nat} {crashIfFailed : Bool} {error : ErrorCode}
      (hError : (h.futures p).error = some error) :
      AfterExchange h p isSynchronous continuation (.trySetInvoking cycles crashIfFailed)
        (h.log (.invoke p (.taskCatch error)))
        [.call (.tryStartSetError (.errorOf p) true) p true]
  | startValue {crashIfFailed : Bool} :
      AfterExchange h p isSynchronous continuation (.tryStartSetValue crashIfFailed)
        h [.call (.trySetSuccess crashIfFailed) p isSynchronous]
  | startAwaiting : AfterExchange h p isSynchronous continuation .startAwaiting h []
  | succeed {crashIfFailed : Bool} :
      AfterExchange h p isSynchronous continuation (.trySetSuccess crashIfFailed)
        h [.succeeded p continuation]
  | startError {futureError : ErrorRef FutureId ErrorCode} {crashIfFailed : Bool} :
      AfterExchange h p isSynchronous continuation (.tryStartSetError futureError crashIfFailed)
        h [.errorStarted p futureError]
  | fail : AfterExchange h p isSynchronous continuation .setFailed
      (h.log (.setFailed p (h.futures p).error)) [.failed p continuation]
  | setPosted : AfterExchange h p isSynchronous continuation .trySetPosted h []
  | post {crashIfFailed : Bool} (hLink : (h.futures p).link = none) :
      AfterExchange h p isSynchronous continuation (.tryPostInternal none crashIfFailed)
        ((h.setLink p none).log (.posting none p)) (startTask traits p)
  | postLinked {parent : FutureId} {crashIfFailed : Bool}
      (hParent : (h.futures parent).data.state = .succeeded ∨
        (h.futures parent).data.state = .failed ∧
          (traits p).options.callTaskInvokeOnError = true) :
      AfterExchange h p isSynchronous continuation (.tryPostInternal (some parent) crashIfFailed)
        (((h.setLink p none).log (.posting (some parent) p)).setLink p (some parent))
        (startTask traits p ++ [.postContinuation parent (h.futures p).link])
  | postFailed {parent : FutureId} {crashIfFailed : Bool}
      (hParent : (h.futures parent).data.state = .failed)
      (hCatch : (traits p).options.callTaskInvokeOnError = false) :
      AfterExchange h p isSynchronous continuation (.tryPostInternal (some parent) crashIfFailed)
        (((h.setLink p none).log (.posting (some parent) p)).setError p (h.futures parent).error)
        (startTask traits p ++ [.postContinuation parent (h.futures p).link])

variable {isSynchronous : Bool} {continuation : Continuation FutureId}
  {method : Method FutureId ErrorCode}

omit [DecidableEq ErrorCode] in
/-- Only the compare-exchange itself changes a packed word. -/
theorem AfterExchange.data {traits : FutureId → MadeTraits} {h h' : Heap FutureId ErrorCode}
    {p : FutureId} {calls : List (Frame FutureId ErrorCode)}
    (hAfter : AfterExchange traits h p isSynchronous continuation method h' calls) (q : FutureId) :
    (h'.futures q).data = (h.futures q).data := by
  cases hAfter with
  | invokeCatch hError hTaken => rcases hTaken with rfl | rfl <;> simp
  | invokeTask | invokeParentValue | invokeError | startValue | startAwaiting | succeed
  | startError | fail | setPosted | post | postLinked | postFailed => simp

variable (client : Heap FutureId ErrorCode → Frame FutureId ErrorCode → Bool)

/-- What a step of a thread does to the futures, said once. -/
inductive Effect (h : Heap FutureId ErrorCode) : Frame FutureId ErrorCode →
    Heap FutureId ErrorCode → List (Frame FutureId ErrorCode) → Prop where
  | load {method : Method FutureId ErrorCode} {p : FutureId} {isSynchronous : Bool}
      {frame : Frame FutureId ErrorCode} (hFrame : Loads method p isSynchronous frame)
      (hAttempt : (traits p).attempt isSynchronous (h.futures p).link.isSome method
        (h.futures p).data.state = .exchange) :
      Effect h frame h [.exchange method p isSynchronous (h.futures p).data]
  | wait {method : Method FutureId ErrorCode} {p : FutureId} {isSynchronous : Bool}
      {frame : Frame FutureId ErrorCode} (hFrame : Loads method p isSynchronous frame)
      (hAttempt : (traits p).attempt isSynchronous (h.futures p).link.isSome method
        (h.futures p).data.state = .wait) :
      Effect h frame h [.call method.again p isSynchronous]
  | returnFalse {method : Method FutureId ErrorCode} {p : FutureId} {isSynchronous : Bool}
      {frame : Frame FutureId ErrorCode} (hFrame : Loads method p isSynchronous frame)
      (hAttempt : (traits p).attempt isSynchronous (h.futures p).link.isSome method
        (h.futures p).data.state = .returnFalse) :
      Effect h frame h []
  | exchange {method : Method FutureId ErrorCode} {p : FutureId} {isSynchronous : Bool}
      {h' : Heap FutureId ErrorCode} {calls : List (Frame FutureId ErrorCode)}
      (hAfter : AfterExchange traits (h.setData p
        ⟨method.target, method.newContinuation (h.futures p).data.continuation⟩)
        p isSynchronous (h.futures p).data.continuation method h' calls) :
      Effect h (.exchange method p isSynchronous (h.futures p).data) h' calls
  | link {p c : FutureId} {frame : Frame FutureId ErrorCode} (hFrame : Links p c frame) :
      Effect h frame (h.setLink c (if (h.futures p).data.state.isDone then none
        else (h.futures p).data.continuation.toFuture))
        [.addContinuationExchange p c (h.futures p).data]
  | addDone {p c : FutureId} (hDone : (h.futures p).data.state.isDone = true)
      (hLink : (h.futures c).link = none) :
      Effect h (.addContinuationExchange p c (h.futures p).data)
        (h.setData p ⟨(h.futures p).data.state, .invoked⟩) [.postContinuation p (some c)]
  | add {p c : FutureId} (hOpen : (h.futures p).data.state.isDone = false) :
      Effect h (.addContinuationExchange p c (h.futures p).data)
        (h.setData p ⟨(h.futures p).data.state, .future c⟩) []
  | succeeded {p : FutureId} {continuation : Continuation FutureId}
      (hOpen : continuation ≠ .invoked) :
      Effect h (.succeeded p continuation)
        ((if (traits p).options.useParentValue then h else h.setLink p none).setError p none)
        [.postContinuation p continuation.toFuture, .returnTrue p]
  | errorStarted {p : FutureId} {futureError : ErrorRef FutureId ErrorCode} :
      Effect h (.errorStarted p futureError) (moveError h p futureError) [.call .setFailed p false]
  | failed {p : FutureId} {continuation : Continuation FutureId} (hOpen : continuation ≠ .invoked) :
      Effect h (.failed p continuation) (h.setLink p none)
        [.postContinuation p continuation.toFuture, .returnTrue p]
  | returnTrue {p : FutureId} : Effect h (.returnTrue p) (h.log (.returnTrue p)) []
  | postNone {p : FutureId} : Effect h (.postContinuation p none) h []
  | postContinuation {p c : FutureId} : Effect h (.postContinuation p (some c))
      (h.log (.tryPostInternal p c)) [.tryPostInternal (some p) c false]
  | multiPostSucceeded {p c : FutureId} {crashIfFailed : Bool}
      (hMulti : (traits c).options.isMultiPost = true)
      (hParent : (h.futures p).data.state = .succeeded) :
      Effect h (.tryPostInternal (some p) c crashIfFailed)
        (h.log (.multiPost p c (.taskInvoke (some p)))) [.taskInvoke c]
  | multiPostFailed {p c : FutureId} {crashIfFailed : Bool}
      (hMulti : (traits c).options.isMultiPost = true)
      (hParent : (h.futures p).data.state = .failed) :
      Effect h (.tryPostInternal (some p) c crashIfFailed)
        (h.log (.multiPost p c (.taskCatch (h.futures p).error))) [.taskCatch c p]
  | tryPostInternal {parent : Option FutureId} {c : FutureId} {crashIfFailed : Bool}
      (hOrdinary : (traits c).options.isMultiPost = false) :
      Effect h (.tryPostInternal parent c crashIfFailed) h
        [.call (.tryPostInternal parent crashIfFailed) c false]
  | callbackReturns {frame : Frame FutureId ErrorCode} {c : FutureId}
      {parentError : Option FutureId} (hFrame : frame.callbackOf = some (c, parentError)) :
      Effect h frame h []
  | callbackCalls {frame call : Frame FutureId ErrorCode} {h' : Heap FutureId ErrorCode}
      {c : FutureId} {parentError : Option FutureId}
      (hFrame : frame.callbackOf = some (c, parentError))
      (hStart : startCall client (some c) parentError h call = some h') :
      Effect h frame h' [call, frame]

variable {traits client} {h h' : Heap FutureId ErrorCode} {p c : FutureId}
  {choice : Choice FutureId ErrorCode} {calls forks : List (Frame FutureId ErrorCode)}

variable {frame : Frame FutureId ErrorCode}

theorem afterLoad_effect (hFrame : Loads method p isSynchronous frame)
    (hNext : afterLoad traits h method p isSynchronous = some (.next h' calls forks)) :
    forks = [] ∧ Effect traits client h frame h' calls := by
  simp only [afterLoad] at hNext
  split at hNext <;> rename_i hAttempt <;> cases hNext
  · exact ⟨rfl, .load hFrame hAttempt⟩
  · exact ⟨rfl, .wait hFrame hAttempt⟩
  · exact ⟨rfl, .returnFalse hFrame hAttempt⟩

theorem linkContinuation_effect (hFrame : Links p c frame)
    (hNext : linkContinuation traits h p c = some (.next h' calls forks)) :
    forks = [] ∧ Effect traits client h frame h' calls := by
  simp only [linkContinuation] at hNext
  split at hNext <;> cases hNext
  exact ⟨rfl, .link hFrame⟩

variable {crashIfFailed : Bool}

omit [DecidableEq ErrorCode] in
theorem invoke_afterExchange {cycles : Nat}
    (hNext : invoke traits h p choice = some (.next h' calls forks)) :
    forks = [] ∧ AfterExchange traits h p isSynchronous continuation
      (.trySetInvoking cycles crashIfFailed) h' calls := by
  simp only [invoke] at hNext
  split at hNext
  · rename_i hNone
    split at hNext
    · rename_i hTask
      cases hNext
      exact ⟨rfl, .invokeTask hNone hTask⟩
    · rename_i hTask
      split at hNext
      · split at hNext <;> cases hNext
        exact ⟨rfl, .invokeParentValue hNone (by simpa using hTask)⟩
      · cases hNext
  · rename_i error hError
    split at hNext
    · split at hNext <;> cases hNext
      · exact ⟨rfl, .invokeCatch hError (.inr rfl)⟩
      · exact ⟨rfl, .invokeCatch hError (.inl rfl)⟩
    · cases hNext
      exact ⟨rfl, .invokeError hError⟩

omit [DecidableEq ErrorCode] in
theorem posting_afterExchange {parent : Option FutureId}
    (hNext : posting traits h parent p = some (.next h' calls forks)) :
    forks = [] ∧ AfterExchange traits h p isSynchronous continuation
      (.tryPostInternal parent crashIfFailed) h' calls := by
  simp only [posting] at hNext
  cases parent with
  | none =>
    simp only at hNext
    split at hNext <;> cases hNext
    rename_i hLink
    exact ⟨rfl, .post (by simpa using hLink)⟩
  | some parent =>
    simp only [Heap.log_futures, Heap.setLink_data, Heap.setLink_error] at hNext
    split at hNext
    · rename_i hState
      cases hNext
      exact ⟨rfl, .postLinked (.inl hState)⟩
    · rename_i hState
      split at hNext <;> cases hNext <;> rename_i hCatch
      · exact ⟨rfl, .postLinked (.inr ⟨hState, hCatch⟩)⟩
      · exact ⟨rfl, .postFailed hState (by simpa using hCatch)⟩
    · cases hNext

omit [DecidableEq ErrorCode] in
theorem afterExchange_effect
    (hNext : afterExchange traits h method p isSynchronous continuation choice =
      some (.next h' calls forks)) :
    forks = [] ∧ AfterExchange traits h p isSynchronous continuation method h' calls := by
  cases method with
  | trySetInvoking cycles crashIfFailed => exact invoke_afterExchange hNext
  | tryPostInternal parent crashIfFailed => exact posting_afterExchange hNext
  | tryStartSetValue crashIfFailed =>
    cases hNext
    exact ⟨rfl, .startValue⟩
  | startAwaiting =>
    cases hNext
    exact ⟨rfl, .startAwaiting⟩
  | trySetSuccess crashIfFailed =>
    cases hNext
    exact ⟨rfl, .succeed⟩
  | tryStartSetError futureError crashIfFailed =>
    cases hNext
    exact ⟨rfl, .startError⟩
  | setFailed =>
    cases hNext
    exact ⟨rfl, .fail⟩
  | trySetPosted =>
    cases hNext
    exact ⟨rfl, .setPosted⟩

variable {parentError : Option FutureId}

theorem callback_effect (hFrame : frame.callbackOf = some (c, parentError))
    (hNext : callback client c parentError h frame choice = some (.next h' calls forks)) :
    forks = [] ∧ Effect traits client h frame h' calls := by
  simp only [callback] at hNext
  split at hNext
  · obtain ⟨heap, hStart, hNext⟩ := Option.map_eq_some_iff.mp hNext
    cases hNext
    exact ⟨rfl, .callbackCalls hFrame hStart⟩
  · cases hNext
    exact ⟨rfl, .callbackReturns hFrame⟩

/-- A step that does not crash has one of the effects, and starts no thread. -/
theorem exec_effect (hExec : exec traits client h frame choice = some (.next h' calls forks)) :
    forks = [] ∧ Effect traits client h frame h' calls := by
  cases frame with
  | call method p isSynchronous => exact afterLoad_effect .call hExec
  | exchange method p isSynchronous data =>
    simp only [exec] at hExec
    split at hExec
    · exact afterLoad_effect (.exchange data) hExec
    · split at hExec
      · rename_i hData
        subst hData
        exact (afterExchange_effect hExec).imp_right .exchange
      · exact afterLoad_effect (.exchange data) hExec
  | addContinuation p c => exact linkContinuation_effect .call hExec
  | addContinuationExchange p c data =>
    simp only [exec] at hExec
    split at hExec
    · exact linkContinuation_effect (.exchange data) hExec
    · split at hExec
      · rename_i hData
        subst hData
        split at hExec
        · rename_i hDone
          split at hExec <;> cases hExec
          rename_i hLink
          exact ⟨rfl, .addDone hDone (by simpa using hLink)⟩
        · rename_i hOpen
          cases hExec
          exact ⟨rfl, .add (by simpa using hOpen)⟩
      · exact linkContinuation_effect (.exchange data) hExec
  | succeeded p continuation =>
    simp only [exec] at hExec
    split at hExec <;> cases hExec
    exact ⟨rfl, .succeeded ‹_›⟩
  | errorStarted p futureError =>
    cases hExec
    exact ⟨rfl, .errorStarted⟩
  | failed p continuation =>
    simp only [exec] at hExec
    split at hExec <;> cases hExec
    exact ⟨rfl, .failed ‹_›⟩
  | returnTrue p =>
    cases hExec
    exact ⟨rfl, .returnTrue⟩
  | postContinuation p continuation =>
    cases continuation <;> cases hExec
    · exact ⟨rfl, .postNone⟩
    · exact ⟨rfl, .postContinuation⟩
  | tryPostInternal parent c crashIfFailed =>
    simp only [exec] at hExec
    split at hExec
    · rename_i hMulti
      simp only [multiPost] at hExec
      split at hExec
      · cases hExec
      · split at hExec <;> rename_i hState <;> cases hExec
        · exact ⟨rfl, .multiPostSucceeded hMulti hState⟩
        · exact ⟨rfl, .multiPostFailed hMulti hState⟩
    · rename_i hOrdinary
      cases hExec
      exact ⟨rfl, .tryPostInternal (by simpa using hOrdinary)⟩
  | taskPost c | taskInvoke c | taskCatch c parentError => exact callback_effect rfl hExec

omit [DecidableEq ErrorCode] in
theorem startCall_cases {current : Option FutureId}
    (hStart : startCall client current parentError h frame = some h') :
    frame.isCall current parentError = true ∧ client h frame = true ∧
      ((∃ p c, frame = .addContinuation p c ∧ h' = h.log (.addContinuation p c)) ∨
        (∀ p c, frame ≠ .addContinuation p c) ∧ h' = h) := by
  simp only [startCall] at hStart
  split at hStart
  · rename_i hAllowed
    rw [Bool.and_eq_true] at hAllowed
    refine ⟨hAllowed.1, hAllowed.2, ?_⟩
    split at hStart <;> cases hStart
    · exact .inl ⟨_, _, rfl, rfl⟩
    · exact .inr ⟨‹_›, rfl⟩
  · cases hStart

end Effects

end Mso.Futures
