import ReactNativeWindows.Concurrency.Progress
import ReactNativeWindows.Networking.PerformSendRequest

/-! Every request comes to an end with one call of `m_onError` or `m_onComplete`, and nothing is called
for it after that. -/
namespace Networking.PerformSendRequest

open Collections (Entries)
open Concurrency ResponseData

/-- The calls that tell the end of a request. -/
def isOutcome : HttpEvent → Bool
  | .onError _ _ | .onComplete => true
  | _ => false

/-- The calls for one request, the last one first. -/
def eventsOf (requestId : RequestId) (log : List (RequestId × HttpEvent)) : List HttpEvent :=
  log.filterMap fun entry => if entry.1 = requestId then some entry.2 else none

namespace Frame

/-- The request that `SendRequest` works on until its outcome is told. -/
def request? : Frame → Option Request
  | sendRequest request | performSendRequest request | created request | uriHandler request
  | send request | awaitResponse request | completed request _ | openBody request _
  | collect request _ _ | load request _ _ => some request
  | abortRequest _ _ | cancel _ _ | untrack _ => none

def isOpen (requestId : RequestId) (frame : Frame) : Bool :=
  frame.request?.any fun request => request.requestId = requestId

def tracks (requestId : RequestId) : Frame → Bool
  | awaitResponse request | completed request _ | openBody request _ | collect request _ _
  | load request _ _ | untrack request => request.requestId = requestId
  | _ => false

def worksFor (requestId : RequestId) (frame : Frame) : Bool :=
  frame.isOpen requestId || frame.tracks requestId

end Frame

/-- A step that meets what the coroutine relies on: `CreateRequest` does not return null, a
response whose headers are gathered has a content, and `Cancel` does not throw. -/
def Answered (callbacks : HttpCallbacks) (_ : Heap) (frame : Frame) (_ : Multiset Frame) : Prop :=
  frame.request?.all (fun request => !request.isNull) = true ∧
    match frame with
    | .completed _ (.response (some response)) =>
      callbacks.onResponse = true → response.hasContent = true
    | .cancel _ cancelError => cancelError = none
    | _ => True

instance (callbacks : HttpCallbacks) (h : Heap) (frame : Frame) (F : Multiset Frame) :
    Decidable (Answered callbacks h frame F) := by
  unfold Answered
  have : Decidable (match frame with
    | .completed _ (.response (some response)) =>
      callbacks.onResponse = true → response.hasContent = true
    | .cancel _ cancelError => cancelError = none
    | _ => True) := by
    split <;> infer_instance
  infer_instance

structure Inv (h : Heap) (F : Multiset Frame) : Prop where
  token : ∀ id, (eventsOf id h.log).countP isOutcome + tally (Frame.isOpen id) F =
    if id ∈ h.used then 1 else 0
  last : ∀ id, ∀ event ∈ (eventsOf id h.log).tail, isOutcome event = false
  keys : (h.responses.map Prod.fst).Nodup
  tracked : ∀ id ∈ h.responses.map Prod.fst, 0 < tally (Frame.tracks id) F

def Silent (events : List HttpEvent) : Prop := ∀ event ∈ events, isOutcome event = false

def Settles (events : List HttpEvent) : Prop :=
  ∃ before event, events = before ++ [event] ∧ Silent before ∧ isOutcome event = true

variable {events : List HttpEvent}

theorem Silent.countP (h : Silent events) : events.countP isOutcome = 0 :=
  List.countP_eq_zero.mpr fun event hMem => by
    rw [h event hMem]
    exact Bool.false_ne_true

theorem Settles.countP (h : Settles events) : events.countP isOutcome = 1 := by
  obtain ⟨before, event, rfl, hBefore, hEvent⟩ := h
  rw [List.countP_append, hBefore.countP, List.countP_cons_of_pos hEvent]
  rfl

theorem Settles.dropLast (h : Settles events) : Silent events.dropLast := by
  obtain ⟨before, event, rfl, hBefore, -⟩ := h
  rwa [List.dropLast_concat]

theorem silent_nil : Silent [] := fun _ hMem => by cases hMem

theorem Silent.append {others : List HttpEvent} (h : Silent events) (h' : Silent others) :
    Silent (events ++ others) := fun event hMem =>
  (List.mem_append.mp hMem).elim (h event) (h' event)

theorem Settles.prepend {others : List HttpEvent} (h : Silent others) (h' : Settles events) :
    Settles (others ++ events) := by
  obtain ⟨before, event, rfl, hBefore, hEvent⟩ := h'
  exact ⟨others ++ before, event, (List.append_assoc ..).symm, h.append hBefore, hEvent⟩

theorem settles_emit {set : Bool} {event : HttpEvent} (hSet : set = true)
    (hEvent : isOutcome event = true) : Settles (emit set event) :=
  ⟨[], event, if_pos hSet, silent_nil, hEvent⟩

theorem silent_emit {set : Bool} {event : HttpEvent} (hEvent : isOutcome event = false) :
    Silent (emit set event) := fun other hMem => by
  rw [(mem_emit.mp hMem).2, hEvent]

theorem silent_readSegment (args : ResponseArgs) (callbacks : HttpCallbacks) (state : Progress)
    (segment : List UInt8) : Silent (readSegment args callbacks state segment).2 := by
  intro event hMem
  have hLoop := readSegment_ofLoop hMem
  cases event with
  | onIncrementalData | onDataProgress => rfl
  | _ => cases hLoop

variable {callbacks : HttpCallbacks}

theorem settles_reportData (hComplete : callbacks.onComplete = true) (args : ResponseArgs)
    (responseData : List UInt8) : Settles (reportData args callbacks responseData) :=
  Settles.prepend (silent_emit rfl) (settles_emit hComplete rfl)

theorem silent_dataObject (callbacks : HttpCallbacks) (content : List UInt8) :
    Silent (if callbacks.onDataObject && callbacks.onRequestSuccess then
      [.onDataObject content, .onRequestSuccess] else []) := by
  split
  · intro event hMem
    rcases List.mem_cons.mp hMem with rfl | hLast
    · rfl
    · cases List.mem_singleton.mp hLast
      rfl
  · exact silent_nil

theorem silent_response (statusCode : ℕ) : Silent [.onResponse statusCode] := by
  intro event hMem
  cases List.mem_singleton.mp hMem
  rfl

theorem settles_reportBlob (hComplete : callbacks.onComplete = true) (content : List UInt8) :
    Settles (reportBlob callbacks content) := by
  apply Settles.prepend _ (settles_emit hComplete rfl)
  apply Silent.append _ (silent_dataObject callbacks content)
  intro event hMem
  cases List.mem_singleton.mp hMem
  rfl

section Events
variable {h : Heap} {id other : RequestId} {events : List HttpEvent}

theorem eventsOf_report (h : Heap) (id : RequestId) (events : List HttpEvent) :
    eventsOf id (h.report id events).log = events.reverse ++ eventsOf id h.log := by
  rw [Heap.report, eventsOf, List.filterMap_append, ← List.map_reverse, List.filterMap_map]
  congr 1
  have hSome : (fun entry : RequestId × HttpEvent => if entry.1 = id then some entry.2 else none) ∘
      (fun event => (id, event)) = some := by
    funext event
    exact if_pos rfl
  rw [hSome, List.filterMap_some]

theorem eventsOf_report_of_ne (hOther : other ≠ id) (h : Heap) (events : List HttpEvent) :
    eventsOf other (h.report id events).log = eventsOf other h.log := by
  rw [Heap.report, eventsOf, List.filterMap_append, ← List.map_reverse, List.filterMap_map]
  have hNone : (events.reverse.filterMap ((fun entry : RequestId × HttpEvent =>
      if entry.1 = other then some entry.2 else none) ∘ fun event => (id, event))) = [] := by
    rw [List.filterMap_eq_nil_iff]
    exact fun event _ => if_neg fun hEq => hOther hEq.symm
  rw [hNone, List.nil_append, eventsOf]

end Events

namespace Inv
variable {h h' : Heap} {F G : Multiset Frame} {frame next : Frame} {request : Request}
  {events : List HttpEvent}

theorem initial : Inv Heap.initial 0 where
  token _ := rfl
  last _ _ hMem := by cases hMem
  keys := List.nodup_nil
  tracked _ hMem := by cases hMem

theorem isOpen_iff (hRequest : frame.request? = some request) (id : RequestId) :
    frame.isOpen id = decide (request.requestId = id) := by
  rw [Frame.isOpen, hRequest, Option.any_some]

variable (hInv : Inv h (frame ::ₘ F))
include hInv

/-- A request that is still open has told no end. -/
theorem silent_of_open (hRequest : frame.request? = some request) :
    Silent (eventsOf request.requestId h.log) ∧
      tally (Frame.isOpen request.requestId) F = 0 ∧ request.requestId ∈ h.used := by
  have hToken := hInv.token request.requestId
  rw [tally_cons_pos ((isOpen_iff hRequest _).trans (decide_eq_true rfl))] at hToken
  split at hToken
  · rename_i hUsed
    refine ⟨fun event hMem => ?_, by omega, hUsed⟩
    have hNone : (eventsOf request.requestId h.log).countP isOutcome = 0 := by omega
    exact Bool.eq_false_iff.mpr (List.countP_eq_zero.mp hNone event hMem)
  · omega

/-- The step of an open request, which tells the end or goes on. -/
theorem report (hRequest : frame.request? = some request)
    (hCount : events.countP isOutcome + tally (Frame.isOpen request.requestId) G = 1)
    (hLast : Silent events.dropLast)
    (hOthers : ∀ id ≠ request.requestId, tally (Frame.isOpen id) G = 0)
    (hLog : h'.log = (h.report request.requestId events).log) (hUsed : h'.used = h.used)
    (hKeys : (h'.responses.map Prod.fst).Nodup)
    (hTracked : ∀ id ∈ h'.responses.map Prod.fst, 0 < tally (Frame.tracks id) (G + F)) :
    Inv h' (G + F) := by
  obtain ⟨hSilent, hAlone, hIn⟩ := hInv.silent_of_open hRequest
  constructor
  · intro id
    rw [hLog, hUsed, tally_add]
    by_cases hSame : id = request.requestId
    · subst hSame
      rw [eventsOf_report, List.countP_append, List.countP_reverse, hSilent.countP, hAlone,
        if_pos hIn]
      omega
    · have hToken := hInv.token id
      rw [tally_cons_neg ((isOpen_iff hRequest id).trans (decide_eq_false fun hEq =>
        hSame hEq.symm))] at hToken
      rw [eventsOf_report_of_ne hSame, hOthers id hSame, Nat.zero_add]
      exact hToken
  · intro id event hMem
    rw [hLog] at hMem
    by_cases hSame : id = request.requestId
    · subst hSame
      rw [eventsOf_report] at hMem
      rcases List.eq_nil_or_concat events with rfl | ⟨before, last, rfl⟩
      · exact hSilent event (List.mem_of_mem_tail hMem)
      · rw [List.concat_eq_append, List.reverse_concat, List.cons_append, List.tail_cons] at hMem
        rcases List.mem_append.mp hMem with hNew | hOld
        · apply hLast
          rw [List.concat_eq_append, List.dropLast_concat]
          exact List.mem_reverse.mp hNew
        · exact hSilent event hOld
    · rw [eventsOf_report_of_ne hSame] at hMem
      exact hInv.last id event hMem
  · exact hKeys
  · exact hTracked

theorem tracked_replace (hTracks : ∀ id, frame.tracks id = true → 0 < tally (Frame.tracks id) G) :
    ∀ id ∈ h.responses.map Prod.fst, 0 < tally (Frame.tracks id) (G + F) := by
  intro id hMem
  have hBefore := hInv.tracked id hMem
  rw [tally_add]
  cases hFrame : frame.tracks id with
  | true =>
    have hAfter := hTracks id hFrame
    omega
  | false =>
    rw [tally_cons_neg hFrame] at hBefore
    omega

/-- The coroutine goes on, and tells no end. -/
theorem goes (hRequest : frame.request? = some request) (hNext : next.request? = some request)
    (hSilent : Silent events) (hTracks : ∀ id, frame.tracks id = true → next.tracks id = true) :
    Inv (h.report request.requestId events) ({next} + F) := by
  apply hInv.report hRequest
  · rw [hSilent.countP, tally_singleton, isOpen_iff hNext, decide_eq_true rfl]
    rfl
  · exact fun event hMem => hSilent event (List.mem_of_mem_dropLast hMem)
  · intro id hOther
    rw [tally_singleton, isOpen_iff hNext, decide_eq_false fun hEq => hOther hEq.symm]
    rfl
  · rfl
  · rfl
  · exact hInv.keys
  · apply hInv.tracked_replace
    intro id hFrame
    rw [tally_singleton, hTracks id hFrame]
    exact Nat.one_pos

/-- The coroutine tells the end, and has the request removed. -/
theorem ends (hRequest : frame.request? = some request) (hSettles : Settles events)
    (hTracks : ∀ id, frame.tracks id = true → request.requestId = id) :
    Inv (h.report request.requestId events) ({.untrack request} + F) := by
  apply hInv.report hRequest
  · rw [hSettles.countP, tally_singleton]
    rfl
  · exact hSettles.dropLast
  · exact fun id _ => tally_singleton _ _
  · rfl
  · rfl
  · exact hInv.keys
  · apply hInv.tracked_replace
    intro id hFrame
    rw [tally_singleton, Frame.tracks, decide_eq_true (hTracks id hFrame)]
    exact Nat.one_pos

/-- The end is told before the request is tracked. -/
theorem stops (hRequest : frame.request? = some request) (hSettles : Settles events)
    (hTracks : ∀ id, frame.tracks id = false) :
    Inv (h.report request.requestId events) (0 + F) := by
  apply hInv.report hRequest
  · rw [hSettles.countP]
    rfl
  · exact hSettles.dropLast
  · exact fun id _ => rfl
  · rfl
  · rfl
  · exact hInv.keys
  · apply hInv.tracked_replace
    intro id hFrame
    rw [hTracks id] at hFrame
    cases hFrame

/-- A frame that is no part of an open request. -/
theorem passes (hFrame : ∀ id, frame.isOpen id = false)
    (hNext : ∀ id, tally (Frame.isOpen id) G = 0) (hLog : h'.log = h.log) (hUsed : h'.used = h.used)
    (hKeys : (h'.responses.map Prod.fst).Nodup)
    (hTracked : ∀ id ∈ h'.responses.map Prod.fst, 0 < tally (Frame.tracks id) (G + F)) :
    Inv h' (G + F) := by
  constructor
  · intro id
    have hToken := hInv.token id
    rw [tally_cons_neg (hFrame id)] at hToken
    rw [hLog, hUsed, tally_add, hNext, Nat.zero_add]
    exact hToken
  · rw [hLog]
    exact hInv.last
  · exact hKeys
  · exact hTracked

omit hInv

theorem track (hInv : Inv h (.send request ::ₘ F)) :
    Inv (h.track request.requestId) ({.awaitResponse request} + F) := by
  have hNext : Inv h ({.awaitResponse request} + F) :=
    hInv.goes rfl rfl silent_nil fun id hFrame => by cases hFrame
  refine ⟨hNext.token, hNext.last, Entries.nodup_set hNext.keys _ _, fun id hMem => ?_⟩
  rw [Heap.track, Entries.keys_set] at hMem
  by_cases hSame : request.requestId = id
  · rw [tally_add, tally_singleton, Frame.tracks, decide_eq_true hSame, Nat.add_comm]
    exact Nat.succ_pos _
  · apply hNext.tracked
    split at hMem
    · exact hMem
    · rcases List.mem_append.mp hMem with hOld | hNew
      · exact hOld
      · exact absurd (List.mem_singleton.mp hNew).symm hSame

/-- Nothing here depends on the operations that `Cancel` was called for. -/
theorem recancel (hInv : Inv h F) (canceled : RequestId → Bool) :
    Inv { h with canceled := canceled } F :=
  ⟨hInv.token, hInv.last, hInv.keys, hInv.tracked⟩

theorem untrack (hInv : Inv h (.untrack request ::ₘ F)) :
    Inv (h.untrack request.requestId) (0 + F) := by
  refine (hInv.passes (fun _ => rfl) (fun _ => rfl) rfl rfl (Entries.nodup_erase hInv.keys _) ?_ :
    Inv (h.untrack request.requestId) (0 + F))
  intro id hMem
  obtain ⟨hOther, hOld⟩ := Entries.mem_keys_erase hInv.keys hMem
  have hTracked := hInv.tracked id hOld
  have hFrame : (Frame.untrack request).tracks id = false :=
    decide_eq_false fun hEq => hOther hEq.symm
  rw [tally_cons_neg hFrame] at hTracked
  rwa [Multiset.zero_add]

/-- A call that is no part of a request. -/
theorem push (hInv : Inv h F) (hFrame : ∀ id, frame.isOpen id = false) : Inv h (frame ::ₘ F) := by
  refine ⟨fun id => ?_, hInv.last, hInv.keys, fun id hMem =>
    tally_pos_push (hInv.tracked id hMem) _⟩
  rw [tally_cons_neg (hFrame id)]
  exact hInv.token id

/-- A new request has told nothing yet. -/
theorem starts (hInv : Inv h F) (hNew : request.requestId ∉ h.used) :
    Inv { h with used := request.requestId :: h.used } (.sendRequest request ::ₘ F) := by
  refine ⟨fun id => ?_, hInv.last, hInv.keys, fun id hMem =>
    tally_pos_push (hInv.tracked id hMem) _⟩
  have hToken := hInv.token id
  by_cases hSame : request.requestId = id
  · subst hSame
    have hOpen : (Frame.sendRequest request).isOpen request.requestId = true := decide_eq_true rfl
    rw [if_neg hNew] at hToken
    rw [tally_cons_pos hOpen, if_pos List.mem_cons_self]
    show (eventsOf request.requestId h.log).countP isOutcome + _ = 1
    omega
  · have hOpen : (Frame.sendRequest request).isOpen id = false := decide_eq_false hSame
    have hUsed : id ∈ request.requestId :: h.used ↔ id ∈ h.used :=
      List.mem_cons.trans (or_iff_right fun hEq => hSame hEq.symm)
    rw [tally_cons_neg hOpen, hToken]
    simp only [hUsed]

variable {callbacks : HttpCallbacks} {choice : Choice} {calls forks : List Frame}

theorem exec (hError : callbacks.onError = true) (hComplete : callbacks.onComplete = true)
    (hInv : Inv h (frame ::ₘ F)) (hAnswered : Answered callbacks h frame F)
    (hExec : exec callbacks h frame choice = some (.next h' calls forks)) :
    Inv h' (↑calls + ↑forks + F) := by
  have hFail : ∀ {message isTimeout}, Settles (emit callbacks.onError (.onError message isTimeout)) :=
    settles_emit hError rfl
  cases frame with
  | sendRequest request =>
    simp only [PerformSendRequest.exec] at hExec
    split at hExec
    · cases hExec
      exact hInv.stops rfl hFail fun _ => rfl
    · cases hExec
      exact hInv.goes rfl rfl silent_nil fun _ hFrame => by cases hFrame
  | abortRequest requestId cancelError =>
    simp only [PerformSendRequest.exec] at hExec
    split at hExec
    all_goals
      cases hExec
      exact hInv.passes (fun _ => rfl) (fun _ => rfl) rfl rfl hInv.keys
        (hInv.tracked_replace fun _ hFrame => by cases hFrame)
  | cancel requestId cancelError =>
    obtain ⟨-, rfl⟩ := hAnswered
    cases hExec
    have hPasses : Inv h (0 + F) :=
      hInv.passes (fun _ => rfl) (fun _ => rfl) rfl rfl hInv.keys
        (hInv.tracked_replace fun _ hFrame => by cases hFrame)
    exact hPasses.recancel _
  | performSendRequest request =>
    simp only [PerformSendRequest.exec] at hExec
    split at hExec
    · rename_i message hNull
      have hRequest : (!request.isNull) = true := hAnswered.1
      rw [Request.isNull, hNull] at hRequest
      cases hRequest
    · cases hExec
      exact hInv.goes rfl rfl silent_nil fun _ hFrame => by cases hFrame
  | created request =>
    simp only [PerformSendRequest.exec] at hExec
    split at hExec
    · cases hExec
      exact hInv.ends rfl hFail fun _ hFrame => by cases hFrame
    · cases hExec
      exact hInv.goes rfl rfl silent_nil fun _ hFrame => by cases hFrame
  | uriHandler request =>
    simp only [PerformSendRequest.exec] at hExec
    split at hExec
    · cases hExec
      exact hInv.goes rfl rfl silent_nil fun _ hFrame => by cases hFrame
    · split at hExec
      · cases hExec
      · split at hExec
        · cases hExec
          exact hInv.goes rfl rfl silent_nil fun _ hFrame => by cases hFrame
        · cases hExec
          exact hInv.stops rfl (Settles.prepend (silent_dataObject callbacks _)
            (settles_emit hComplete rfl)) fun _ => rfl
        · cases hExec
          exact hInv.stops rfl hFail fun _ => rfl
  | send request =>
    simp only [PerformSendRequest.exec] at hExec
    split at hExec
    · cases hExec
      exact hInv.ends rfl hFail fun _ hFrame => by cases hFrame
    · cases hExec
      exact hInv.track
  | awaitResponse request =>
    simp only [PerformSendRequest.exec] at hExec
    split at hExec
    · cases hExec
      exact hInv.goes rfl rfl silent_nil fun _ hFrame => hFrame
    · split at hExec
      · cases hExec
        exact hInv.goes rfl rfl silent_nil fun _ hFrame => hFrame
      · cases hExec
    · split at hExec
      · cases hExec
        have hEnds : Inv (h.report request.requestId
            (emit callbacks.onError (.onError timeoutMessage true))) ({.untrack request} + F) :=
          hInv.ends rfl hFail fun _ hFrame => of_decide_eq_true hFrame
        exact hEnds.recancel _
      · cases hExec
  | completed request result =>
    simp only [PerformSendRequest.exec] at hExec
    split at hExec
    · cases hExec
      exact hInv.ends rfl hFail fun _ hFrame => of_decide_eq_true hFrame
    · cases hExec
      exact hInv.goes rfl rfl silent_nil fun _ hFrame => hFrame
    · split at hExec
      · split at hExec
        · cases hExec
          exact hInv.goes rfl rfl (silent_response _) fun _ hFrame => hFrame
        · cases hExec
      · cases hExec
        exact hInv.goes rfl rfl silent_nil fun _ hFrame => hFrame
  | openBody request response =>
    simp only [PerformSendRequest.exec] at hExec
    split at hExec
    · cases hExec
      exact hInv.ends rfl hFail fun _ hFrame => of_decide_eq_true hFrame
    · split at hExec
      · split at hExec
        · cases hExec
          exact hInv.ends rfl hFail fun _ hFrame => of_decide_eq_true hFrame
        · split at hExec
          · cases hExec
            exact hInv.goes rfl rfl silent_nil fun _ hFrame => hFrame
          · cases hExec
            exact hInv.goes rfl rfl silent_nil fun _ hFrame => hFrame
      · cases hExec
        exact hInv.ends rfl hFail fun _ hFrame => of_decide_eq_true hFrame
  | collect request content rest =>
    simp only [PerformSendRequest.exec] at hExec
    split at hExec
    · cases hExec
      exact hInv.goes rfl rfl silent_nil fun _ hFrame => hFrame
    · split at hExec
      · cases hExec
        exact hInv.ends rfl hFail fun _ hFrame => of_decide_eq_true hFrame
      · cases hExec
        exact hInv.ends rfl (settles_reportBlob hComplete content)
          fun _ hFrame => of_decide_eq_true hFrame
  | load request state rest =>
    simp only [PerformSendRequest.exec] at hExec
    split at hExec
    · cases hExec
      exact hInv.goes rfl rfl (silent_readSegment request.args callbacks state _)
        fun _ hFrame => hFrame
    · split at hExec
      · cases hExec
        exact hInv.ends rfl hFail fun _ hFrame => of_decide_eq_true hFrame
      · cases hExec
        exact hInv.ends rfl (settles_reportData hComplete request.args state.responseData)
          fun _ hFrame => of_decide_eq_true hFrame
  | untrack request =>
    cases hExec
    exact hInv.untrack

end Inv

section Runs
variable {callbacks : HttpCallbacks} {h h' : Heap} {frame : Frame} {F : Multiset Frame}
  {choice : Choice} {calls forks : List Frame} {t : Config Heap Frame String} {id : RequestId}

theorem invariant (hError : callbacks.onError = true) (hComplete : callbacks.onComplete = true) :
    Machine.Invariant (httpResource callbacks) (Answered callbacks) .initial Inv where
  initial := Inv.initial
  start {h h' frame F} hInv hStart := by
    simp only [httpResource] at hStart
    split at hStart
    · split at hStart
      · cases hStart
      · rename_i hNew
        cases hStart
        exact hInv.starts hNew
    · cases hStart
      exact hInv.push fun _ => rfl
    · cases hStart
  exec hInv hAnswered hExec := by
    rw [← add_assoc]
    exact hInv.exec hError hComplete hAnswered hExec

/-- What the coroutine dereferences is there. -/
theorem not_crash (hAnswered : Answered callbacks h frame F) {why : String}
    (hExec : exec callbacks h frame choice = some (.crash why)) : False := by
  cases frame with
  | uriHandler request =>
    have hRequest : (!request.isNull) = true := hAnswered.1
    simp only [exec] at hExec
    split at hExec
    · cases hExec
    · split at hExec
      · rename_i hNull
        rw [hNull] at hRequest
        cases hRequest
      · split at hExec
        · cases hExec
        · cases hExec
        · split at hExec
          · cases hExec
          · cases hExec
  | completed request result =>
    simp only [exec] at hExec
    split at hExec
    · cases hExec
    · cases hExec
    · split at hExec
      · rename_i hResponse
        rw [if_pos (hAnswered.2 hResponse)] at hExec
        cases hExec
      · cases hExec
  | _ =>
    simp only [exec] at hExec
    repeat' split at hExec
    all_goals cases hExec

theorem no_crash (hError : callbacks.onError = true) (hComplete : callbacks.onComplete = true)
    (ht : Machine.Reachable (httpResource callbacks) (Answered callbacks) .initial t) :
    t.crashed = none :=
  Option.eq_none_iff_forall_ne_some.mpr fun why hWhy =>
    (invariant hError hComplete).crash (P := fun _ => False)
      (fun _ hAnswered hExec => not_crash hAnswered hExec) ht why hWhy

/-! ### The end of the coroutine -/

/-- How many steps are still to come, at most. -/
def Frame.work : Frame → ℕ
  | untrack _ | cancel _ _ => 1
  | abortRequest _ _ => 2
  | collect _ _ rest | load _ _ rest => rest.length + 2
  | openBody request _ => request.reading.segments.length + 3
  | completed request _ => request.reading.segments.length + 4
  | awaitResponse request => request.reading.segments.length + 5
  | send request => request.reading.segments.length + 6
  | uriHandler request => request.reading.segments.length + 7
  | created request => request.reading.segments.length + 8
  | performSendRequest request => request.reading.segments.length + 9
  | sendRequest request => request.reading.segments.length + 10

/-- No program point waits for another one. -/
theorem exec_go (callbacks : HttpCallbacks) (h : Heap) (frame : Frame) :
    (exec callbacks h frame .go).isSome = true := by
  cases frame with
  | _ =>
    simp only [exec]
    repeat' split
    all_goals rfl

/-- Each step brings the coroutine or a call of `AbortRequest` closer to its end. -/
theorem work_decreases (hExec : exec callbacks h frame choice = some (.next h' calls forks)) :
    h'.used = h.used ∧ total Frame.work (↑calls + ↑forks) < frame.work := by
  cases frame with
  | _ =>
    simp only [exec, fail] at hExec
    repeat' split at hExec
    all_goals cases hExec
    all_goals
      refine ⟨rfl, ?_⟩
      simp [Frame.work, total_singleton, bodies]

theorem progress (hError : callbacks.onError = true) (hComplete : callbacks.onComplete = true)
    (id : RequestId) : Machine.Progress (httpResource callbacks) (Answered callbacks)
      (fun h F => Inv h F ∧ id ∈ h.used) (fun _ F => total Frame.work F) where
  go {h frame F} _ := ⟨.go, exec_go callbacks h frame⟩
  crash _ hAnswered hExec := not_crash hAnswered hExec
  next := by
    rintro h frame F choice h' calls forks ⟨hInv, hUsed⟩ hAnswered hExec
    obtain ⟨hSame, hLess⟩ := work_decreases hExec
    rw [← add_assoc, hSame, total_add, total_cons]
    refine ⟨⟨hInv.exec hError hComplete hAnswered hExec, hUsed⟩, ?_⟩
    omega

/-- `m_onError` or `m_onComplete` was the last call for the request and no earlier one, and the request
is not tracked. -/
structure Ended (h : Heap) (id : RequestId) : Prop where
  told : ∃ event, (eventsOf id h.log).head? = some event ∧ isOutcome event = true
  once : ∀ event ∈ (eventsOf id h.log).tail, isOutcome event = false
  untracked : id ∉ h.responses.map Prod.fst

theorem Inv.ended (hInv : Inv h F) (hUsed : id ∈ h.used)
    (hEnded : ∀ frame ∈ F, frame.worksFor id = false) : Ended h id := by
  refine ⟨?_, hInv.last id, fun hMem => ?_⟩
  · have hToken := hInv.token id
    have hClosed : tally (Frame.isOpen id) F = 0 :=
      Multiset.countP_eq_zero.mpr fun frame hMem =>
        Bool.eq_false_iff.mp (Bool.or_eq_false_iff.mp (hEnded frame hMem)).1
    rw [if_pos hUsed, hClosed, Nat.add_zero] at hToken
    have hLast := hInv.last id
    cases hEvents : eventsOf id h.log with
    | nil =>
      rw [hEvents] at hToken
      cases hToken
    | cons event before =>
      refine ⟨event, rfl, ?_⟩
      rw [hEvents] at hToken hLast
      cases hEvent : isOutcome event with
      | true => rfl
      | false =>
        have hNone : (event :: before).countP isOutcome = 0 :=
          Silent.countP fun other hMem => by
            rcases List.mem_cons.mp hMem with rfl | hBefore
            · exact hEvent
            · exact hLast other hBefore
        omega
  · obtain ⟨frame, hFrame, hTracks⟩ := exists_of_tally_pos (hInv.tracked id hMem)
    rw [(Bool.or_eq_false_iff.mp (hEnded frame hFrame)).2] at hTracks
    cases hTracks

/-- Nothing crashes, and nothing is called for a request after its outcome. A request has ended when
nothing works for it any more, and, whatever is run next, it comes to that or to a step outside of the
condition. -/
theorem one_outcome_per_request (hError : callbacks.onError = true)
    (hComplete : callbacks.onComplete = true)
    (ht : Machine.Reachable (httpResource callbacks) (Answered callbacks) .initial t)
    (id : RequestId) :
    t.crashed = none ∧ (∀ event ∈ (eventsOf id t.heap.log).tail, isOutcome event = false) ∧
      (id ∈ t.heap.used →
        ((∀ frame ∈ t.frames, frame.worksFor id = false) → Ended t.heap id) ∧
          Control.Inevitably (Machine.Runs (httpResource callbacks))
            (fun u => Machine.Refused (Answered callbacks) u ∨ (u.Quiet ∧ Ended u.heap id)) t) := by
  have hInv : Inv t.heap t.frames := (invariant hError hComplete).reachable ht
  have hCrashed := no_crash hError hComplete ht
  refine ⟨hCrashed, hInv.last id, fun hUsed => ⟨hInv.ended hUsed, ?_⟩⟩
  apply ((progress hError hComplete id).quiet_or_refused hCrashed ⟨hInv, hUsed⟩).mono
  intro u
  apply Or.imp_right
  rintro ⟨hQuiet, hLast, hStill⟩
  exact ⟨hQuiet, hLast.ended hStill fun frame hMem => absurd hMem (Multiset.notMem_zero frame)⟩

end Runs

def allSet : HttpCallbacks := ⟨true, true, true, true, true, true, true, true⟩

def getRequest : Request where
  requestId := 1
  args := ⟨.text, false, 0⟩
  prepareError := none
  created := .ok ⟨.Get, ⟨"http", "a.example", 80, "", "", "/"⟩, [], none, ⟨none, none, none⟩⟩
  uriHandler := none
  sendError := none
  result := .response (some ⟨200, true⟩)
  reading := ⟨none, false, [], none, none⟩

def badContentType : Request :=
  { getRequest with
    created := .error (.null "Failed to parse Content-Type")
    sendError := some "[0x80070057] The parameter is incorrect." }

theorem get_has_one_outcome : ∃ t : Config Heap Frame String,
    eventsOf 1 t.heap.log = [.onComplete, .onData [], .onResponse 200] ∧
      (∀ event ∈ (eventsOf 1 t.heap.log).tail, isOutcome event = false) ∧
      1 ∉ t.heap.responses.map Prod.fst := by
  obtain ⟨t, ht, hEvents, hUsed, hEnded⟩ : ∃ t : Config Heap Frame String,
      Machine.Reachable (httpResource allSet) (Answered allSet) .initial t ∧
        eventsOf 1 t.heap.log = [.onComplete, .onData [], .onResponse 200] ∧
        1 ∈ t.heap.used ∧ ∀ frame ∈ t.threads.flatten, frame.worksFor 1 = false :=
    Machine.exists_reachable _
      [.call (.sendRequest getRequest), .run 0 .go, .run 1 .go, .run 1 .go, .run 1 .go,
        .run 1 .go, .run 1 .go, .run 1 .go, .run 1 .go, .run 1 .go, .run 1 .go]
      (by decide)
  obtain ⟨-, hLast, hEnd⟩ := one_outcome_per_request rfl rfl ht 1
  exact ⟨t, hEvents, hLast, ((hEnd hUsed).1 hEnded).untracked⟩

/-- Both `CreateRequest` and the client's failure are told. -/
theorem two_errors_for_null_request : ∃ t : Config Heap Frame String,
    Machine.Reachable (httpResource allSet) Always .initial t ∧ t.Quiet ∧
      eventsOf 1 t.heap.log = [.onError "[0x80070057] The parameter is incorrect." false,
        .onError "Failed to parse Content-Type" false] :=
  Machine.exists_reachable _
    [.call (.sendRequest badContentType), .run 0 .go, .run 1 .go, .run 1 .go, .run 1 .go,
      .run 1 .go, .run 1 .go]
    (by decide)

end Networking.PerformSendRequest
