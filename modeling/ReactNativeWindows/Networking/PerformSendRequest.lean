import ReactNativeWindows.Collections.Entries
import ReactNativeWindows.Concurrency.Threads
import ReactNativeWindows.Networking.ResponseData
import ReactNativeWindows.Networking.WinRTHttpResource

/-! The requests of one `WinRTHttpResource`, from `SendRequest` to the end of the coroutine
`PerformSendRequest`, and what they report. -/
namespace Networking.PerformSendRequest

open Collections (Entries)
open Concurrency ResponseData

abbrev RequestId := ℤ

/-- What became of the URI handler: it does not support the URI, gives the data, or throws. -/
inductive UriOutcome where
  | unsupported
  | fetched (content : List UInt8)
  | raised (message : String)

structure Response where
  statusCode : ℕ
  hasContent : Bool

inductive SendResult where
  | failed (message : String)
  | response (response : Option Response)

/-- The reading of a body: to open its stream may throw, `LoadAsync` gives segments and may throw
after them, and so may `ToResponseData`. -/
structure Reading where
  openError : Option String
  supported : Bool
  segments : List Segment
  loadError : Option String
  toDataError : Option String

/-- The arguments of `SendRequest`, and what comes back from what the coroutine calls: the
objects for the method and the URI, `CreateRequest`, the URI handler, the client, the body. -/
structure Request where
  requestId : RequestId
  args : ResponseArgs
  prepareError : Option String
  created : Except WinRTHttpResource.CreateFailure HttpRequestMessage
  uriHandler : Option UriOutcome
  sendError : Option String
  result : SendResult
  reading : Reading

/-- `CreateRequest` returns null. -/
def Request.isNull (request : Request) : Bool :=
  match request.created with
  | .error (.null _) => true
  | _ => false

/-- The resource. `used` are the ids of all requests and `canceled` the operations that `Cancel`
was called for; `log` has the calls of the callbacks, the last one first. -/
structure Heap where
  responses : Entries RequestId Unit
  canceled : RequestId → Bool
  used : List RequestId
  log : List (RequestId × HttpEvent)

def Heap.initial : Heap := ⟨[], fun _ => false, [], []⟩

def Heap.report (h : Heap) (requestId : RequestId) (events : List HttpEvent) : Heap :=
  { h with log := (events.map fun event => (requestId, event)).reverse ++ h.log }

def Heap.track (h : Heap) (requestId : RequestId) : Heap :=
  { h with responses := Entries.set requestId () h.responses }

def Heap.untrack (h : Heap) (requestId : RequestId) : Heap :=
  { h with responses := Entries.erase requestId h.responses }

def Heap.cancel (h : Heap) (requestId : RequestId) : Heap :=
  { h with canceled := fun id => id = requestId || h.canceled id }

/-- Program points: the calls of clients, `Cancel` in `AbortRequest` with what it throws, and the
coroutine between its suspensions. -/
inductive Frame where
  | sendRequest (request : Request)
  | abortRequest (requestId : RequestId) (cancelError : Option String)
  | cancel (requestId : RequestId) (cancelError : Option String)
  | performSendRequest (request : Request)
  | created (request : Request)
  | uriHandler (request : Request)
  | send (request : Request)
  | awaitResponse (request : Request)
  | completed (request : Request) (result : SendResult)
  | openBody (request : Request) (response : Option Response)
  | collect (request : Request) (content : List UInt8) (rest : List (List UInt8))
  | load (request : Request) (state : Progress) (rest : List (List UInt8))
  | untrack (request : Request)

inductive Choice where
  | go | canceled | timedOut
  deriving DecidableEq

/-- `HResultToString` of `ERROR_TIMEOUT` and of `ERROR_CANCELLED`. -/
def timeoutMessage : String :=
  "[0x800705b4] This operation returned because the timeout period expired."

def canceledMessage : String := "[0x800704c7] The operation was canceled by the user."

section Exec
variable (callbacks : HttpCallbacks)

/-- `m_onError`, and what the coroutine does after it. -/
def fail (h : Heap) (request : Request) (message : String) (isTimeout : Bool)
    (calls : List Frame) : Outcome Heap Frame String :=
  .next (h.report request.requestId (emit callbacks.onError (.onError message isTimeout))) calls []

@[grind =]
def exec (h : Heap) (frame : Frame) (choice : Choice) : Option (Outcome Heap Frame String) :=
  match frame with
  | .sendRequest request =>
    match request.prepareError with
    | some message => some (fail callbacks h request message false [])
    | none => some (.next h [] [.performSendRequest request])
  | .abortRequest requestId cancelError =>
    match h.responses.lookup requestId with
    | none => some (.next h [] [])
    | some () => some (.next h [.cancel requestId cancelError] [])
  | .cancel requestId cancelError =>
    match cancelError with
    | some message =>
      some (.next (h.report requestId (emit callbacks.onError (.onError message false))) [] [])
    | none => some (.next (h.cancel requestId) [] [])
  | .performSendRequest request =>
    match request.created with
    | .error (.null message) =>
      some (fail callbacks h request message false [.created request])
    | _ => some (.next h [.created request] [])
  | .created request =>
    match request.created with
    | .error (.raised error) =>
      some (fail callbacks h request error.message false [.untrack request])
    | _ => some (.next h [.uriHandler request] [])
  | .uriHandler request =>
    match request.uriHandler with
    | none => some (.next h [.send request] [])
    | some outcome =>
      if request.isNull then some (.crash "access violation")
      else
        match outcome with
        | .unsupported => some (.next h [.send request] [])
        | .fetched content =>
          some (.next (h.report request.requestId
            ((if callbacks.onDataObject && callbacks.onRequestSuccess then
              [.onDataObject content, .onRequestSuccess] else []) ++
                emit callbacks.onComplete .onComplete)) [] [])
        | .raised message =>
          if callbacks.onError then some (fail callbacks h request message false [])
          else some (.next h [.send request] [])
  | .send request =>
    match request.sendError with
    | some message => some (fail callbacks h request message false [.untrack request])
    | none => some (.next (h.track request.requestId) [.awaitResponse request] [])
  | .awaitResponse request =>
    match choice with
    | .go => some (.next h [.completed request request.result] [])
    | .canceled =>
      if h.canceled request.requestId then
        some (.next h [.completed request (.failed canceledMessage)] [])
      else none
    | .timedOut =>
      if request.args.timeout > 0 then
        some (fail callbacks (h.cancel request.requestId) request timeoutMessage true
          [.untrack request])
      else none
  | .completed request result =>
    match result with
    | .failed message => some (fail callbacks h request message false [.untrack request])
    | .response none => some (.next h [.openBody request none] [])
    | .response (some response) =>
      if callbacks.onResponse then
        -- The headers of the content are gathered before it is known to be there.
        if response.hasContent then
          some (.next (h.report request.requestId [.onResponse response.statusCode])
            [.openBody request (some response)] [])
        else some (.crash "access violation")
      else some (.next h [.openBody request (some response)] [])
  | .openBody request response =>
    match response with
    | none => some (fail callbacks h request "request failed" false [.untrack request])
    | some response =>
      if response.hasContent then
        match request.reading.openError with
        | some message => some (fail callbacks h request message false [.untrack request])
        | none =>
          if request.reading.supported then
            some (.next h [.collect request [] (bodies request.reading.segments)] [])
          else some (.next h [.load request ⟨0, []⟩ (bodies request.reading.segments)] [])
      else some (fail callbacks h request "No response content" false [.untrack request])
  | .collect request content rest =>
    match rest with
    | segment :: rest => some (.next h [.collect request (content ++ segment) rest] [])
    | [] =>
      match request.reading.loadError.or request.reading.toDataError with
      | some message => some (fail callbacks h request message false [.untrack request])
      | none =>
        some (.next (h.report request.requestId (reportBlob callbacks content))
          [.untrack request] [])
  | .load request state rest =>
    match rest with
    | segment :: rest =>
      let (next, events) := readSegment request.args callbacks state segment
      some (.next (h.report request.requestId events) [.load request next rest] [])
    | [] =>
      match request.reading.loadError with
      | some message => some (fail callbacks h request message false [.untrack request])
      | none =>
        some (.next (h.report request.requestId
          (reportData request.args callbacks state.responseData)) [.untrack request] [])
  | .untrack request => some (.next (h.untrack request.requestId) [] [])

/-- Each call of `SendRequest` has its own id. -/
def httpResource : Machine Heap Frame Choice String where
  exec := exec callbacks
  start h frame :=
    match frame with
    | .sendRequest request =>
      if request.requestId ∈ h.used then none
      else some { h with used := request.requestId :: h.used }
    | .abortRequest _ _ => some h
    | _ => none

end Exec

end Networking.PerformSendRequest
