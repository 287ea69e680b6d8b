import Mathlib.Data.Nat.Basic

/-! The web socket resource: what its two queues and its task sequencer run, and what the socket
answers. -/
namespace Networking.WinRTWebSocketResource

inductive ReadyState where
  | connecting
  | opened
  | closing
  | closed
  deriving DecidableEq

/-- The number of the state in the source. -/
def ReadyState.value : ReadyState → ℕ
  | connecting => 0
  | opened => 1
  | closing => 2
  | closed => 3

inductive ErrorType where
  | connection
  | send
  | receive
  | close
  deriving DecidableEq

inductive SocketMessageType where
  | utf8
  | binary
  deriving DecidableEq

structure Message where
  message : List UInt8
  isBinary : Bool
  deriving DecidableEq

structure Flush where
  messageType : SocketMessageType
  bytes : List UInt8
  deriving DecidableEq

/-- What `QueueTaskAsync` runs, by where it has got. `connecting` waits for `ConnectAsync`, `connected`
for the calling queue, `writing` for the background queue and `storing` for `StoreAsync`; `closing` is
between `Socket.Close` and the assignment behind it. Writes have the number of their call. -/
inductive SequencedTask where
  | connect
  | connecting
  | connected
  | write (call : ℕ) (message : Message)
  | writing (call : ℕ) (message : Message)
  | storing (call : ℕ) (message : Message)
  | close
  | closing
  deriving DecidableEq

inductive BackgroundItem where
  | queueTask (task : SequencedTask)
  | resumeWrite
  | fail (message : String) (type : ErrorType)
  | onClosed
  deriving DecidableEq

inductive CallingItem where
  | connectHandler
  | readHandler (response : List UInt8) (isBinary : Bool)
  | closeHandler
  | errorHandler (message : String) (type : ErrorType)
  deriving DecidableEq

inductive Handled where
  | connect
  | read (response : List UInt8) (isBinary : Bool)
  | close (code : ℕ) (reason : String)
  | error (message : String) (type : ErrorType)
  deriving DecidableEq

/-- `m_sequencer` has the task in progress at its front. `m_writer` holds the bytes that are written
and not stored, and `messageType` that of the socket's control. `calls` are all calls of `Send` and
`SendBinary`, and `finished` the writes that ended, with what was flushed. -/
structure Resource where
  m_readyState : ReadyState
  m_closeCode : ℕ
  m_closeReason : String
  m_sequencer : List SequencedTask
  m_backgroundQueue : List BackgroundItem
  m_callingQueue : List CallingItem
  m_writer : List UInt8
  messageType : SocketMessageType
  handled : List Handled
  calls : List Message
  finished : List (ℕ × Option Flush)
  deriving DecidableEq

def Resource.initial : Resource :=
  { m_readyState := .connecting, m_closeCode := 1000, m_closeReason := "", m_sequencer := [],
    m_backgroundQueue := [], m_callingQueue := [], m_writer := [], messageType := .utf8, handled := [],
    calls := [], finished := [] }

/-- How the socket or the writer answers. Whether a store that fails keeps the bytes is left open. -/
inductive Answer where
  | accepted
  | refused (error : String) (discards : Bool)

inductive ReceivedMessage where
  | data (response : List UInt8) (isBinary : Bool)
  | aborted
  | failed (error : String)

inductive Action where
  | connect (answer : Answer)
  | send (message : List UInt8)
  | sendBinary (base64String : List UInt8)
  | close (code : ℕ) (reason : String)
  | onMessageReceived (message : ReceivedMessage)
  | onClosed
  | runBackground
  | runCalling
  | runTask (answer : Answer)

namespace Resource

def post (r : Resource) (item : BackgroundItem) : Resource :=
  { r with m_backgroundQueue := r.m_backgroundQueue ++ [item] }

def postCalling (r : Resource) (item : CallingItem) : Resource :=
  { r with m_callingQueue := r.m_callingQueue ++ [item] }

def fail (r : Resource) (message : String) (type : ErrorType) : Resource := r.post (.fail message type)

def enqueueWrite (r : Resource) (message : Message) : Resource :=
  { r with calls := r.calls ++ [message] }.post (.queueTask (.write r.calls.length message))

def send (r : Resource) (message : List UInt8) : Resource := r.enqueueWrite ⟨message, false⟩

def sendBinary (r : Resource) (base64String : List UInt8) : Resource :=
  r.enqueueWrite ⟨base64String, true⟩

def close (r : Resource) (code : ℕ) (reason : String) : Resource :=
  { r with m_closeCode := code, m_closeReason := reason }.post (.queueTask .close)

/-- The address and the headers are checked before `PerformConnect`. -/
def connect (r : Resource) : Answer → Resource
  | .accepted => r.post (.queueTask .connect)
  | .refused error _ => r.fail error .connection

def abortedMessage : String := "[0x80072EFE] Underlying TCP connection suddenly terminated"

def onMessageReceived (r : Resource) : ReceivedMessage → Resource
  | .data response isBinary => r.postCalling (.readHandler response isBinary)
  -- the socket is closed with `CloseCode::BadPayload`
  | .aborted => (r.close 1007 abortedMessage).fail abortedMessage .connection
  | .failed error => r.fail error .receive

def onClosed (r : Resource) : Resource := (r.post .onClosed).postCalling .closeHandler

end Resource

/-- `DecodeFromBase64String` of the platform; `none` when it throws. -/
abbrev Decode := List UInt8 → Option (List UInt8)

variable (decode : Decode)

def Message.messageType (m : Message) : SocketMessageType := if m.isBinary then .binary else .utf8

def Message.payload (m : Message) : Option (List UInt8) :=
  if m.isBinary then decode m.message else some m.message

def Message.flush (m : Message) : Option Flush :=
  (m.payload decode).map fun bytes => ⟨m.messageType, bytes⟩

namespace Resource

/-- `PerformWrite` up to its first `co_await`. -/
def performWrite (r : Resource) (m : Message) (answer : Answer) : Resource :=
  let r := { r with messageType := m.messageType }
  match answer, m.payload decode with
  | .accepted, some bytes => { r with m_writer := r.m_writer ++ bytes }
  | .accepted, none => r.fail "E_INVALIDARG" .send
  | .refused error _, _ => r.fail error .send

/-- The next step of the task in progress, when it does not wait for a queue. The task behind it goes on
when it has ended. -/
def runTask (r : Resource) (answer : Answer) : Option Resource :=
  match r.m_sequencer, answer with
  | .connect :: rest, .accepted => some { r with m_sequencer := .connecting :: rest }
  | .connect :: rest, .refused error _ => some ({ r with m_sequencer := rest }.fail error .connection)
  | .connecting :: rest, .accepted =>
    some ({ r with m_readyState := .opened, m_sequencer := .connected :: rest }.postCalling
      .connectHandler)
  | .connecting :: rest, .refused error _ =>
    some ({ r with m_sequencer := rest }.fail error .connection)
  | .write call message :: rest, answer =>
    some (({ r with m_sequencer := .writing call message :: rest }.performWrite decode message
      answer).post .resumeWrite)
  | .storing call _ :: rest, .accepted =>
    some { r with
      m_sequencer := rest
      m_writer := []
      finished := r.finished ++ [(call, some ⟨r.messageType, r.m_writer⟩)] }
  | .storing call _ :: rest, .refused error discards =>
    some ({ r with
      m_sequencer := rest
      m_writer := if discards then [] else r.m_writer
      finished := r.finished ++ [(call, none)] }.fail error .send)
  | .close :: rest, .accepted => some { r with m_sequencer := .closing :: rest }
  | .close :: rest, .refused error _ => some ({ r with m_sequencer := rest }.fail error .close)
  | .closing :: rest, _ => some { r with m_readyState := .closing, m_sequencer := rest }
  | .connected :: _, _ | .writing _ _ :: _, _ | [], _ => none

/-- `PerformWrite` after its first `co_await`. -/
def resumeWrite (r : Resource) : Resource :=
  match r.m_sequencer with
  | .writing call message :: rest =>
    if r.m_readyState ≠ .opened then
      { r with m_sequencer := rest, finished := r.finished ++ [(call, none)] }
    else { r with m_sequencer := .storing call message :: rest }
  | _ => r

def runBackground (r : Resource) : Option Resource :=
  match r.m_backgroundQueue with
  | [] => none
  | item :: rest =>
    let r := { r with m_backgroundQueue := rest }
    match item with
    | .queueTask task => some { r with m_sequencer := r.m_sequencer ++ [task] }
    | .resumeWrite => some r.resumeWrite
    | .fail message type =>
      some ({ r with m_readyState := .closed }.postCalling (.errorHandler message type))
    | .onClosed => some { r with m_readyState := .closed }

def handle (r : Resource) (handled : Handled) : Resource :=
  { r with handled := r.handled ++ [handled] }

/-- The task that connects ends with the call of its handler. -/
def afterConnect (r : Resource) : Resource :=
  match r.m_sequencer with
  | .connected :: rest => { r with m_sequencer := rest }
  | _ => r

def runCalling (r : Resource) : Option Resource :=
  match r.m_callingQueue with
  | [] => none
  | item :: rest =>
    let r := { r with m_callingQueue := rest }
    match item with
    | .connectHandler => some (r.handle .connect).afterConnect
    | .readHandler response isBinary => some (r.handle (.read response isBinary))
    | .closeHandler => some (r.handle (.close r.m_closeCode r.m_closeReason))
    | .errorHandler message type => some (r.handle (.error message type))

def step (r : Resource) : Action → Option Resource
  | .connect answer => some (r.connect answer)
  | .send message => some (r.send message)
  | .sendBinary base64String => some (r.sendBinary base64String)
  | .close code reason => some (r.close code reason)
  | .onMessageReceived message => some (r.onMessageReceived message)
  | .onClosed => some r.onClosed
  | .runBackground => r.runBackground
  | .runCalling => r.runCalling
  | .runTask answer => r.runTask decode answer

end Resource

/-- Whether the task in progress is told that the socket has connected. -/
def Resource.connects (r : Resource) (answer : Answer) : Bool :=
  match r.m_sequencer, answer with
  | .connecting :: _, .accepted => true
  | _, _ => false

/-- Whether the task in progress has called `Socket.Close`. -/
def Resource.closes (r : Resource) : Bool :=
  match r.m_sequencer with
  | .closing :: _ => true
  | _ => false

def Resource.resumes (r : Resource) : Bool :=
  match r.m_backgroundQueue with
  | .resumeWrite :: _ => true
  | _ => false

/-- The socket connects while the state is `Connecting`, no end was reported when `PerformClose` goes on
behind `Socket.Close`, and no write is attempted before the socket has connected or failed. -/
def Orderly (r : Resource) : Action → Prop
  | .runTask answer =>
    (r.connects answer = true → r.m_readyState = .connecting) ∧
      (r.closes = true → r.m_readyState ≠ .closed)
  | .runBackground => r.resumes = true → r.m_readyState ≠ .connecting
  | _ => True

instance (r : Resource) (action : Action) : Decidable (Orderly r action) :=
  match action with
  | .runTask _ => inferInstanceAs (Decidable (_ ∧ _))
  | .runBackground => inferInstanceAs (Decidable (_ → _))
  | .connect _ | .send _ | .sendBinary _ | .close _ _ | .onMessageReceived _ | .onClosed | .runCalling =>
    isTrue trivial

inductive Runs (ok : Resource → Action → Prop) (r : Resource) : Resource → Prop where
  | refl : Runs ok r r
  | step {s t : Resource} (action : Action) (prior : Runs ok r s) (allowed : ok s action)
      (last : s.step decode action = some t) : Runs ok r t

end Networking.WinRTWebSocketResource
