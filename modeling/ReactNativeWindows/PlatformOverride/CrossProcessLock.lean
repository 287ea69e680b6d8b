import Mathlib.Data.Finset.Basic
import ReactNativeWindows.Control.Inevitably

/-! The processes that use `CrossProcessLock` on one name, and the events of their servers and
sockets. -/
namespace PlatformOverride.CrossProcessLock

universe u

inductive ErrorCode where
  | EADDRINUSE | ECONNREFUSED | ECONNRESET | ENOENT
  | other (code : String)
  deriving DecidableEq

variable {ι : Type u}

/-- The socket of `waitUntilPipeDeath`: it connects, is connected to the server of a process, or
its `error` or its `close` event is to come. -/
inductive Socket (ι : Type u) where
  | connecting
  | connected (server : ι)
  | error (code : ErrorCode)
  | closed
  deriving DecidableEq

/-- What the pending call of an instance waits for: the `listening` or the `error` event of its
server, an event of its socket, or the `close` event of its server. -/
inductive Call (ι : Type u) where
  | idle
  | listening
  | listenError (code : ErrorCode)
  | waiting (socket : Socket ι)
  | closing
  deriving DecidableEq

/-- The lock of one process. `isListening` is `server.listening`, `connections` are the processes
whose sockets it has, and `holds` says that `lock` has resolved and `unlock` was not called. -/
structure Instance (ι : Type u) where
  isListening : Bool
  connections : Finset ι
  call : Call ι
  holds : Bool

inductive Result where
  | locked | unlocked
  | rejected (code : ErrorCode)
  deriving DecidableEq

/-- The operating system lets at most one server listen. `results` has how the calls have ended,
the last one first. -/
structure State (ι : Type u) where
  listener : Option ι
  instances : ι → Instance ι
  results : List (ι × Result)

namespace State

def initial : State ι := ⟨none, fun _ => ⟨false, ∅, .idle, false⟩, []⟩

section Calls
variable [DecidableEq ι]

def setCall (s : State ι) (i : ι) (call : Call ι) : State ι :=
  { s with instances := Function.update s.instances i { s.instances i with call := call } }

def setConnections (s : State ι) (i : ι) (connections : Finset ι) : State ι :=
  { s with instances := Function.update s.instances i { s.instances i with
      connections := connections } }

def settle (s : State ι) (i : ι) (result : Result) : State ι :=
  { s with
    instances := Function.update s.instances i { s.instances i with
      call := .idle
      holds := (s.instances i).holds || result = .locked }
    results := (i, result) :: s.results }

/-- `tryLock`, up to the event of the server. `failure` is what `listen` fails with although nobody
listens, or other than that somebody does. -/
def tryLock (s : State ι) (i : ι) (failure : Option ErrorCode) : State ι :=
  match failure, s.listener with
  | some code, _ => s.setCall i (.listenError code)
  | none, none =>
    { s with
      listener := some i
      instances := Function.update s.instances i { s.instances i with
        isListening := true
        call := .listening } }
  | none, some _ => s.setCall i (.listenError .EADDRINUSE)

def lock (s : State ι) (i : ι) (failure : Option ErrorCode) : State ι :=
  if (s.instances i).isListening then s.settle i .locked else s.tryLock i failure

/-- `tryLock` resolves to false, or rejects. -/
def onListenError (s : State ι) (i : ι) (code : ErrorCode) : State ι :=
  if code = .EADDRINUSE then s.setCall i (.waiting .connecting) else s.settle i (.rejected code)

/-- `waitUntilPipeDeath` resolves, and `lock` is called again, or it rejects. -/
def onSocketError (s : State ι) (i : ι) (code : ErrorCode) (failure : Option ErrorCode) : State ι :=
  if code = .ECONNREFUSED ∨ code = .ECONNRESET then s.lock i failure
  else s.settle i (.rejected code)

/-- The socket of process `k` when process `i` closes its server and destroys its connections.
Sockets that it has not accepted may be reset. -/
def dropped (s : State ι) (i : ι) (reset : ι → Bool) (k : ι) : Instance ι :=
  match (s.instances k).call with
  | .waiting (.connected server) =>
    if server = i then
      let socket := if reset k && k ∉ (s.instances i).connections then .error .ECONNRESET
        else .closed
      { s.instances k with call := .waiting socket }
    else s.instances k
  | _ => s.instances k

def unlock (s : State ι) (i : ι) (reset : ι → Bool) : State ι :=
  if (s.instances i).isListening then
    { s with
      listener := none
      instances := Function.update (s.dropped i reset) i ⟨false, ∅, .closing, false⟩ }
  else s.settle i .unlocked

end Calls
end State

inductive Action (ι : Type u) where
  | lock (i : ι) (failure : Option ErrorCode)
  | unlock (i : ι) (reset : ι → Bool)
  | onListening (i : ι)
  | onListenError (i : ι)
  | connect (i : ι) (code : ErrorCode)
  | onConnection (server i : ι)
  | closeSocket (i : ι)
  | onSocketError (i : ι) (failure : Option ErrorCode)
  | onSocketClose (i : ι) (failure : Option ErrorCode)
  | onServerClose (i : ι)

def Action.process : Action ι → ι
  | lock i _ | unlock i _ | onListening i | onListenError i | connect i _ | onConnection _ i
  | closeSocket i | onSocketError i _ | onSocketClose i _ | onServerClose i => i

section Moves
variable [DecidableEq ι]

/-- An instance has at most one pending call. With one of `codes` fails the connection to a path
that nobody listens on, and with one of `serverCodes` a server that cannot listen, whether somebody
listens or not. -/
def step (codes serverCodes : List ErrorCode) (s : State ι) : Action ι → Option (State ι)
  | .lock i failure =>
    if (s.instances i).call = .idle ∧ failure.all serverCodes.contains then some (s.lock i failure)
    else none
  | .unlock i reset => if (s.instances i).call = .idle then some (s.unlock i reset) else none
  | .onListening i =>
    if (s.instances i).call = .listening then some (s.settle i .locked) else none
  | .onListenError i =>
    match (s.instances i).call with
    | .listenError code => some (s.onListenError i code)
    | _ => none
  | .connect i code =>
    if (s.instances i).call = .waiting .connecting then
      match s.listener with
      | some server => some (s.setCall i (.waiting (.connected server)))
      | none => if code ∈ codes then some (s.setCall i (.waiting (.error code))) else none
    else none
  | .onConnection server i =>
    if (s.instances i).call = .waiting (.connected server) then
      some (s.setConnections server (insert i (s.instances server).connections))
    else none
  | .closeSocket i =>
    match (s.instances i).call with
    | .waiting (.connected server) =>
      some ((s.setCall i (.waiting .closed)).setConnections server
        ((s.instances server).connections.erase i))
    | _ => none
  | .onSocketError i failure =>
    match (s.instances i).call with
    | .waiting (.error code) =>
      if failure.all serverCodes.contains then some (s.onSocketError i code failure) else none
    | _ => none
  | .onSocketClose i failure =>
    if (s.instances i).call = .waiting .closed ∧ failure.all serverCodes.contains then
      some (s.lock i failure)
    else none
  | .onServerClose i =>
    if (s.instances i).call = .closing then some (s.settle i .unlocked) else none

inductive Reachable (codes serverCodes : List ErrorCode) : State ι → Prop where
  | initial : Reachable codes serverCodes .initial
  | step {s t : State ι} (action : Action ι) (prior : Reachable codes serverCodes s)
      (last : step codes serverCodes s action = some t) : Reachable codes serverCodes t

end Moves

/-- What `lock` may reject with: a code of a connection that it does not wait out, or one of a server
other than that the path is in use. -/
def Rejects (codes serverCodes : List ErrorCode) (code : ErrorCode) : Prop :=
  code ∈ codes ∧ code ≠ .ECONNREFUSED ∧ code ≠ .ECONNRESET ∨
    code ∈ serverCodes ∧ code ≠ .EADDRINUSE

def Instance.Fits (codes serverCodes : List ErrorCode) (listener : Option ι) (self : Instance ι) :
    Prop :=
  match self.call with
  | .idle => self.holds = self.isListening
  | .listening => self.holds = false ∧ self.isListening = true
  | .listenError code =>
    self.holds = false ∧ self.isListening = false ∧ (code = .EADDRINUSE ∨ code ∈ serverCodes)
  | .waiting (.connected server) =>
    self.holds = false ∧ self.isListening = false ∧ listener = some server
  | .waiting (.error code) =>
    self.holds = false ∧ self.isListening = false ∧
      (code ∈ codes ∨ code = .ECONNRESET)
  | .waiting _ | .closing => self.holds = false ∧ self.isListening = false

structure Inv (codes serverCodes : List ErrorCode) (s : State ι) : Prop where
  fits : ∀ i, (s.instances i).Fits codes serverCodes s.listener
  listening : ∀ i, (s.instances i).isListening = true ↔ s.listener = some i
  results : ∀ i code, (i, .rejected code) ∈ s.results → Rejects codes serverCodes code

namespace Inv
variable {codes serverCodes : List ErrorCode} {s t : State ι} {i j : ι} {code : ErrorCode}
  {failure : Option ErrorCode}

theorem initial : Inv codes serverCodes (State.initial : State ι) :=
  ⟨fun _ => rfl, fun _ => ⟨nofun, nofun⟩, fun _ _ hMem => by cases hMem⟩

variable [DecidableEq ι] (hInv : Inv codes serverCodes s)
include hInv

/-- The instance of one process changes, and goes on to listen if it does. -/
theorem update {changed : Instance ι} (hFits : changed.Fits codes serverCodes s.listener)
    (hListening : changed.isListening = (s.instances i).isListening) :
    Inv codes serverCodes { s with instances := Function.update s.instances i changed } := by
  refine ⟨fun k => ?_, fun k => ?_, hInv.results⟩
  · by_cases hSame : k = i
    · subst hSame
      simpa using hFits
    · simpa [hSame] using hInv.fits k
  · by_cases hSame : k = i
    · subst hSame
      simpa [hListening] using hInv.listening k
    · simpa [hSame] using hInv.listening k

theorem setCall {call : Call ι}
    (hFits : ({ s.instances i with call := call } : Instance ι).Fits codes serverCodes s.listener) :
    Inv codes serverCodes (s.setCall i call) := hInv.update hFits rfl

theorem settle {result : Result}
    (hHolds : ((s.instances i).holds || decide (result = .locked)) = (s.instances i).isListening)
    (hResult : ∀ code, result = .rejected code → Rejects codes serverCodes code) :
    Inv codes serverCodes (s.settle i result) := by
  let settled : Instance ι :=
    ⟨(s.instances i).isListening, (s.instances i).connections, .idle,
      (s.instances i).holds || decide (result = .locked)⟩
  have hFits : settled.Fits codes serverCodes s.listener := hHolds
  have hUpdate := hInv.update (i := i) hFits rfl
  refine ⟨hUpdate.fits, hUpdate.listening, fun k code hMem => ?_⟩
  rcases List.mem_cons.mp hMem with hNew | hOld
  · cases hNew
    exact hResult code rfl
  · exact hInv.results k code hOld

theorem tryLock (hHolds : (s.instances i).holds = false)
    (hListening : (s.instances i).isListening = false) (hFailure : failure.all serverCodes.contains) :
    Inv codes serverCodes (s.tryLock i failure) := by
  unfold State.tryLock
  split
  · rename_i code
    have hCode : code ∈ serverCodes := by simpa using hFailure
    exact hInv.setCall ⟨hHolds, hListening, .inr hCode⟩
  · rename_i hFree
    refine ⟨fun k => ?_, fun k => ?_, hInv.results⟩
    · by_cases hSame : k = i
      · subst hSame
        simpa [Instance.Fits] using hHolds
      · have hFits := hInv.fits k
        simp only [Function.update_of_ne hSame]
        unfold Instance.Fits at hFits ⊢
        split at hFits <;> simp_all
    · by_cases hSame : k = i
      · subst hSame
        simp
      · have hOther := hInv.listening k
        rw [hFree] at hOther
        have hNot : (s.instances k).isListening = false :=
          Bool.eq_false_iff.mpr fun h => by cases hOther.mp h
        simpa [hSame, hNot] using fun h : i = k => hSame h.symm
  · exact hInv.setCall ⟨hHolds, hListening, .inl rfl⟩

theorem setConnections (connections : Finset ι) :
    Inv codes serverCodes (s.setConnections i connections) := hInv.update (hInv.fits i) rfl

theorem lock (hHolds : (s.instances i).holds = (s.instances i).isListening)
    (hFailure : failure.all serverCodes.contains) : Inv codes serverCodes (s.lock i failure) := by
  rw [State.lock]
  split
  · rename_i hListening
    refine hInv.settle ?_ nofun
    rw [hListening]
    exact Bool.or_true _
  · rename_i hListening
    have hNot := Bool.eq_false_iff.mpr hListening
    exact hInv.tryLock (hHolds.trans hNot) hNot hFailure

/-- The server of process `i` is closed: the sockets that were connected to it are told. -/
theorem unlock (hIdle : (s.instances i).call = .idle) (reset : ι → Bool) :
    Inv codes serverCodes (s.unlock i reset) := by
  have hHolds : (s.instances i).holds = (s.instances i).isListening := by
    have hFits := hInv.fits i
    rwa [Instance.Fits, hIdle] at hFits
  rw [State.unlock]
  split
  · rename_i hListening
    have hListener := (hInv.listening i).mp hListening
    have hDropped : ∀ k, (s.dropped i reset k).isListening = (s.instances k).isListening := by
      intro k
      rw [State.dropped]
      repeat' split
      all_goals rfl
    refine ⟨fun k => ?_, fun k => ?_, hInv.results⟩
    · by_cases hSame : k = i
      · subst hSame
        simp [Instance.Fits]
      · simp only [Function.update_of_ne hSame]
        have hFits := hInv.fits k
        rw [State.dropped]
        split
        · rename_i server hCall
          rw [Instance.Fits, hCall] at hFits
          obtain ⟨hHolds, hListening, hServer⟩ := hFits
          have hClosed : server = i := Option.some.inj (hServer.symm.trans hListener)
          rw [if_pos hClosed]
          dsimp only
          split
          · exact ⟨hHolds, hListening, .inr rfl⟩
          · exact ⟨hHolds, hListening⟩
        · rename_i hCall
          unfold Instance.Fits at hFits ⊢
          split at hFits
          all_goals simp_all
    · by_cases hSame : k = i
      · subst hSame
        simp
      · have hOther := hInv.listening k
        rw [hListener] at hOther
        have hNot : (s.instances k).isListening = false :=
          Bool.eq_false_iff.mpr fun h => hSame (Option.some.inj (hOther.mp h)).symm
        simp [hSame, hDropped, hNot]
  · rename_i hListening
    refine hInv.settle ?_ nofun
    simpa using hHolds

theorem step {action : Action ι}
    (hStep : CrossProcessLock.step codes serverCodes s action = some t) : Inv codes serverCodes t := by
  cases action with
  | lock i failure =>
    obtain ⟨⟨hIdle, hFailure⟩, hStep⟩ := Option.ite_none_right_eq_some.mp hStep
    cases hStep
    have hFits := hInv.fits i
    rw [Instance.Fits, hIdle] at hFits
    exact hInv.lock hFits hFailure
  | unlock i reset =>
    obtain ⟨hIdle, hStep⟩ := Option.ite_none_right_eq_some.mp hStep
    cases hStep
    exact hInv.unlock hIdle reset
  | onListening i | onServerClose i =>
    obtain ⟨hCall, hStep⟩ := Option.ite_none_right_eq_some.mp hStep
    cases hStep
    have hFits := hInv.fits i
    rw [Instance.Fits, hCall] at hFits
    refine hInv.settle ?_ nofun
    rw [hFits.1, hFits.2]
    rfl
  | onListenError i =>
    simp only [CrossProcessLock.step] at hStep
    split at hStep
    · rename_i code hCall
      cases hStep
      have hFits := hInv.fits i
      rw [Instance.Fits, hCall] at hFits
      obtain ⟨hHolds, hListening, hCode⟩ := hFits
      rw [State.onListenError]
      split
      · exact hInv.setCall ⟨hHolds, hListening⟩
      · rename_i hOther
        refine hInv.settle ?_ ?_
        · rw [hHolds, hListening]
          rfl
        · rintro _ ⟨⟩
          exact .inr ⟨hCode.resolve_left hOther, hOther⟩
    · cases hStep
  | connect i code =>
    obtain ⟨hCall, hStep⟩ := Option.ite_none_right_eq_some.mp hStep
    have hFits := hInv.fits i
    rw [Instance.Fits, hCall] at hFits
    obtain ⟨hHolds, hListening⟩ := hFits
    split at hStep
    · rename_i server hServer
      cases hStep
      exact hInv.setCall ⟨hHolds, hListening, hServer⟩
    · obtain ⟨hCode, hStep⟩ := Option.ite_none_right_eq_some.mp hStep
      cases hStep
      exact hInv.setCall ⟨hHolds, hListening, .inl hCode⟩
  | onConnection server i =>
    obtain ⟨hCall, hStep⟩ := Option.ite_none_right_eq_some.mp hStep
    cases hStep
    exact hInv.setConnections _
  | closeSocket i =>
    simp only [CrossProcessLock.step] at hStep
    split at hStep
    · rename_i server hCall
      cases hStep
      have hFits := hInv.fits i
      rw [Instance.Fits, hCall] at hFits
      have hClosed : Inv codes serverCodes (s.setCall i (.waiting .closed)) :=
        hInv.setCall ⟨hFits.1, hFits.2.1⟩
      exact hClosed.setConnections _
    · cases hStep
  | onSocketError i failure =>
    simp only [CrossProcessLock.step] at hStep
    split at hStep
    · rename_i code hCall
      obtain ⟨hFailure, hStep⟩ := Option.ite_none_right_eq_some.mp hStep
      cases hStep
      have hFits := hInv.fits i
      rw [Instance.Fits, hCall] at hFits
      obtain ⟨hHolds, hListening, hCode⟩ := hFits
      rw [State.onSocketError]
      split
      · exact hInv.lock (hHolds.trans hListening.symm) hFailure
      · rename_i hOther
        obtain ⟨hRefused, hReset⟩ := not_or.mp hOther
        refine hInv.settle ?_ ?_
        · rw [hHolds, hListening]
          rfl
        · rintro _ ⟨⟩
          exact .inl ⟨hCode.resolve_right hReset, hRefused, hReset⟩
    · cases hStep
  | onSocketClose i failure =>
    obtain ⟨⟨hCall, hFailure⟩, hStep⟩ := Option.ite_none_right_eq_some.mp hStep
    cases hStep
    have hFits := hInv.fits i
    rw [Instance.Fits, hCall] at hFits
    exact hInv.lock (hFits.1.trans hFits.2.symm) hFailure

end Inv

section Runs
variable {codes serverCodes : List ErrorCode} {s t : State ι} {i j : ι} {code : ErrorCode}

theorem Inv.listener_of_holds (hInv : Inv codes serverCodes s) (hHolds : (s.instances i).holds = true) :
    s.listener = some i := by
  apply (hInv.listening i).mp
  have hFits := hInv.fits i
  unfold Instance.Fits at hFits
  split at hFits
  · exact hFits.symm.trans hHolds
  · exact hFits.2
  all_goals
    have hNot := hFits.1
    rw [hHolds] at hNot
    cases hNot

def Call.isLocking : Call ι → Bool
  | .listening | .listenError _ | .waiting _ => true
  | .idle | .closing => false

def Call.events : Call ι → ℕ
  | .idle | .closing => 0
  | .listening => 1
  | .waiting (.error _) | .waiting .closed => 2
  | .waiting .connecting | .waiting (.connected _) => 3
  | .listenError _ => 4

variable [DecidableEq ι]

theorem Reachable.inv (hs : Reachable codes serverCodes s) : Inv codes serverCodes s := by
  induction hs with
  | initial => exact Inv.initial
  | step action prior last ih => exact ih.step last

/-- A step of one process, whose server fails only because somebody listens. -/
def StepOf (codes : List ErrorCode) (i : ι) (s t : State ι) : Prop :=
  ∃ action : Action ι, action.process = i ∧ step codes [] s action = some t

section Steps

@[simp]
theorem all_contains_nil {failure : Option ErrorCode} :
    failure.all ([] : List ErrorCode).contains = true ↔ failure = none := by
  cases failure <;> simp

theorem stepOf_listening (hCall : (s.instances i).call = .listening) :
    StepOf codes i s t ↔ t = s.settle i .locked := by
  constructor
  · rintro ⟨action, rfl, hStep⟩
    cases action <;> simp_all [step, Action.process]
  · rintro rfl
    exact ⟨.onListening i, rfl, if_pos hCall⟩

theorem stepOf_listenError (hCall : (s.instances i).call = .listenError code) :
    StepOf codes i s t ↔ t = s.onListenError i code := by
  constructor
  · rintro ⟨action, rfl, hStep⟩
    cases action <;> simp_all [step, Action.process]
  · rintro rfl
    exact ⟨.onListenError i, rfl, by rw [step, hCall]⟩

theorem stepOf_connecting (hCall : (s.instances i).call = .waiting .connecting)
    (hFree : s.listener = none) :
    StepOf codes i s t ↔ ∃ code ∈ codes, t = s.setCall i (.waiting (.error code)) := by
  constructor
  · rintro ⟨action, rfl, hStep⟩
    cases action <;> simp_all [step, Action.process]
    exact ⟨_, hStep.2.1, hStep.2.2.symm⟩
  · rintro ⟨code, hCode, rfl⟩
    exact ⟨.connect i code, rfl, by rw [step, if_pos hCall, hFree]; exact if_pos hCode⟩

theorem stepOf_error (hCall : (s.instances i).call = .waiting (.error code)) :
    StepOf codes i s t ↔ t = s.onSocketError i code none := by
  constructor
  · rintro ⟨action, rfl, hStep⟩
    cases action <;> simp_all [step, Action.process]
  · rintro rfl
    exact ⟨.onSocketError i none, rfl, by rw [step, hCall]; exact if_pos rfl⟩

theorem stepOf_closed (hCall : (s.instances i).call = .waiting .closed) :
    StepOf codes i s t ↔ t = s.lock i none := by
  constructor
  · rintro ⟨action, rfl, hStep⟩
    cases action <;> simp_all [step, Action.process]
  · rintro rfl
    exact ⟨.onSocketClose i none, rfl, if_pos ⟨hCall, rfl⟩⟩

end Steps

/-- Nobody but the process listens, and its call of `lock` goes on. -/
structure Acquiring (codes : List ErrorCode) (i : ι) (s : State ι) : Prop where
  inv : Inv codes [] s
  locking : (s.instances i).call.isLocking = true
  free : s.listener = none ∨ (s.instances i).call = .listening

namespace Acquiring

omit [DecidableEq ι] in
theorem notListening (h : Acquiring codes i s) (hCall : (s.instances i).call ≠ .listening) :
    (s.instances i).isListening = false ∧ s.listener = none := by
  have hFree := h.free.resolve_right hCall
  refine ⟨Bool.eq_false_iff.mpr fun hListening => ?_, hFree⟩
  rw [(h.inv.listening i).mp hListening] at hFree
  cases hFree

/-- Once the wait is over the process listens. -/
theorem lock (h : Acquiring codes i s) (hCall : (s.instances i).call ≠ .listening)
    (hInv : Inv codes [] (s.lock i none)) :
    Acquiring codes i (s.lock i none) ∧ ((s.lock i none).instances i).call.events = 1 := by
  obtain ⟨hNot, hFree⟩ := h.notListening hCall
  have hNext : ((s.lock i none).instances i).call = .listening := by
    simp [State.lock, hNot, State.tryLock, hFree]
  refine ⟨⟨hInv, ?_, .inr hNext⟩, ?_⟩
  · rw [hNext]
    rfl
  · rw [hNext]
    rfl

end Acquiring

/-- When nobody listens, a pending call of `lock` gets the lock, unless another process does. -/
theorem Acquiring.inevitably (hCodes : ∀ code ∈ codes, code = .ECONNREFUSED ∨ code = .ECONNRESET)
    (hSome : codes ≠ []) (h : Acquiring codes i s) :
    Control.Inevitably (StepOf codes i) (fun t => (t.instances i).holds = true) s := by
  apply Control.Inevitably.of_rank (fun t : State ι => (t.instances i).call.events)
    (I := fun t => (t.instances i).holds = true ∨ Acquiring codes i t) _ s (.inr h)
  rintro s (hHolds | h)
  · exact .inl hHolds
  right
  have hStep : ∀ {t}, StepOf codes i s t → Inv codes [] t := fun {t} ⟨_, _, hStep⟩ =>
    h.inv.step hStep
  have hFits := h.inv.fits i
  have hLocking := h.locking
  cases hCall : (s.instances i).call with
  | idle | closing =>
    rw [hCall] at hLocking
    cases hLocking
  | listening =>
    simp only [stepOf_listening hCall]
    refine ⟨⟨_, rfl⟩, ?_⟩
    rintro _ rfl
    simp [State.settle, Call.events]
  | listenError code =>
    simp only [stepOf_listenError hCall]
    refine ⟨⟨_, rfl⟩, ?_⟩
    rintro _ rfl
    rw [Instance.Fits, hCall] at hFits
    obtain rfl : code = .EADDRINUSE := hFits.2.2.resolve_right List.not_mem_nil
    have hNext := hStep ((stepOf_listenError hCall).mpr rfl)
    rw [State.onListenError, if_pos rfl] at hNext ⊢
    refine ⟨.inr ⟨hNext, ?_, .inl (h.notListening (by simp [hCall])).2⟩, ?_⟩
    · simp [State.setCall, Call.isLocking]
    · simp [State.setCall, Call.events]
  | waiting socket =>
    obtain ⟨-, hFree⟩ := h.notListening (by simp [hCall])
    cases socket with
    | connecting =>
      obtain ⟨code, hCode⟩ := List.exists_mem_of_ne_nil codes hSome
      have hConnect : ∀ t, StepOf codes i s t ↔
          ∃ code ∈ codes, t = s.setCall i (.waiting (.error code)) :=
        fun t => stepOf_connecting hCall hFree
      refine ⟨⟨_, (hConnect _).mpr ⟨code, hCode, rfl⟩⟩, fun t ht => ?_⟩
      have hNext := hStep ht
      obtain ⟨code, -, rfl⟩ := (hConnect t).mp ht
      refine ⟨.inr ⟨hNext, ?_, .inl hFree⟩, ?_⟩
      · simp [State.setCall, Call.isLocking]
      · simp [State.setCall, Call.events]
    | connected server =>
      rw [Instance.Fits, hCall] at hFits
      rw [hFree] at hFits
      cases hFits.2.2
    | error code =>
      rw [Instance.Fits, hCall] at hFits
      have hRetry : code = .ECONNREFUSED ∨ code = .ECONNRESET :=
        hFits.2.2.elim (hCodes code) .inr
      have hError : s.onSocketError i code none = s.lock i none := if_pos hRetry
      refine ⟨⟨_, (stepOf_error hCall).mpr rfl⟩, fun t ht => ?_⟩
      have hNext := hStep ht
      rw [stepOf_error hCall, hError] at ht
      subst ht
      obtain ⟨hAcquiring, hEvents⟩ := h.lock (by simp [hCall]) hNext
      exact ⟨.inr hAcquiring, by rw [hEvents]; exact Nat.lt_succ_self 1⟩
    | closed =>
      refine ⟨⟨_, (stepOf_closed hCall).mpr rfl⟩, fun t ht => ?_⟩
      have hNext := hStep ht
      rw [stepOf_closed hCall] at ht
      subst ht
      obtain ⟨hAcquiring, hEvents⟩ := h.lock (by simp [hCall]) hNext
      exact ⟨.inr hAcquiring, by rw [hEvents]; exact Nat.lt_succ_self 1⟩

/-- Where a server fails only because somebody listens. -/
theorem lock_excludes (hCodes : ∀ code ∈ codes, code = .ECONNREFUSED ∨ code = .ECONNRESET)
    (hSome : codes ≠ []) (hs : Reachable codes [] s) :
    (∀ i j, (s.instances i).holds = true → (s.instances j).holds = true → i = j) ∧
      (∀ i code, (i, Result.rejected code) ∉ s.results) ∧
      (∀ i, (s.instances i).call.isLocking = true → s.listener = none →
        Control.Inevitably (StepOf codes i) (fun t => (t.instances i).holds = true) s) := by
  have hInv := hs.inv
  refine ⟨fun i j hi hj => ?_, fun i code hMem => ?_, fun i hLocking hFree => ?_⟩
  · have hListener := hInv.listener_of_holds hi
    exact Option.some.inj (hListener.symm.trans (hInv.listener_of_holds hj))
  · rcases hInv.results i code hMem with ⟨hCode, hRefused, hReset⟩ | ⟨hServer, -⟩
    · exact (hCodes code hCode).elim hRefused hReset
    · cases hServer
  · exact Acquiring.inevitably hCodes hSome ⟨hInv, hLocking, .inl hFree⟩

/-- Whatever servers and connections fail with: the lock has one holder, whose server is the one that
listens, and `lock` rejects with no code that it waits out. -/
theorem held_by_listener (hs : Reachable codes serverCodes s) :
    (∀ i j, (s.instances i).holds = true → (s.instances j).holds = true → i = j) ∧
      (∀ i, (s.instances i).holds = true → s.listener = some i) ∧
      ∀ i code, (i, .rejected code) ∈ s.results →
        code ∈ codes ∧ code ≠ .ECONNREFUSED ∧ code ≠ .ECONNRESET ∨
          code ∈ serverCodes ∧ code ≠ .EADDRINUSE := by
  have hInv := hs.inv
  refine ⟨fun i j hi hj => ?_, fun i hi => hInv.listener_of_holds hi, hInv.results⟩
  exact Option.some.inj ((hInv.listener_of_holds hi).symm.trans (hInv.listener_of_holds hj))

theorem Reachable.run (hs : Reachable codes serverCodes s) {actions : List (Action ι)}
    (hRun : actions.foldlM (CrossProcessLock.step codes serverCodes) s = some t) :
    Reachable codes serverCodes t := by
  induction actions generalizing s with
  | nil =>
    cases hRun
    exact hs
  | cons action actions ih =>
    obtain ⟨next, hStep, hRest⟩ := Option.bind_eq_some_iff.mp hRun
    exact ih (.step action hs hStep) hRest

theorem exists_reachable (P : State ι → Prop) [DecidablePred P] (actions : List (Action ι))
    (h : ((actions.foldlM (step codes serverCodes) State.initial).any fun s => decide (P s)) = true) :
    ∃ s, Reachable codes serverCodes s ∧ P s := by
  obtain ⟨s, hRun, hP⟩ := (Option.any_eq_true ..).mp h
  exact ⟨s, Reachable.initial.run hRun, of_decide_eq_true hP⟩

end Runs

/-- Process 2 may not listen, and process 1 waits. -/
theorem first_holder_listens : ∃ s : State ℕ,
    s.listener = some 0 ∧ s.results = [(2, .rejected (.other "EACCES")), (0, .locked)] := by
  obtain ⟨s, hs, hHolds, hResults⟩ : ∃ s : State ℕ, Reachable [.ENOENT] [.other "EACCES"] s ∧
      (s.instances 0).holds = true ∧ s.results = [(2, .rejected (.other "EACCES")), (0, .locked)] :=
    exists_reachable _
      [.lock 0 none, .onListening 0, .lock 1 none, .onListenError 1, .lock 2 (some (.other "EACCES")),
        .onListenError 2]
      (by decide)
  exact ⟨s, (held_by_listener hs).2.1 0 hHolds, hResults⟩

/-- Process 0 releases the lock before process 1 has connected, and process 1 gets it. -/
theorem lock_after_release : ∃ s : State ℕ, s.results = [(0, .locked)] ∧
    Control.Inevitably (StepOf [.ECONNREFUSED] 1) (fun t => (t.instances 1).holds = true) s := by
  obtain ⟨s, hs, hResults, hLocking, hFree⟩ : ∃ s : State ℕ, Reachable [.ECONNREFUSED] [] s ∧
      s.results = [(0, .locked)] ∧ (s.instances 1).call.isLocking = true ∧ s.listener = none :=
    exists_reachable _
      [.lock 0 none, .onListening 0, .lock 1 none, .onListenError 1, .unlock 0 fun _ => false,
        .connect 1 .ECONNREFUSED]
      (by decide)
  exact ⟨s, hResults,
    (lock_excludes (by decide : ∀ code ∈ [ErrorCode.ECONNREFUSED], _) nofun hs).2.2 1 hLocking hFree⟩

/-- The same order of events, when the path is gone. -/
theorem rejected_after_release : ∃ s : State ℕ,
    Reachable [.ENOENT, .ECONNREFUSED, .ECONNRESET] [] s ∧
      s.results = [(1, .rejected .ENOENT), (0, .locked)] :=
  exists_reachable _
    [.lock 0 none, .onListening 0, .lock 1 none, .onListenError 1, .unlock 0 fun _ => false,
      .connect 1 .ENOENT, .onSocketError 1 none]
    (by decide)

end PlatformOverride.CrossProcessLock
