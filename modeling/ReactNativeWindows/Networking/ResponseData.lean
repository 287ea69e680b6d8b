import ReactNativeWindows.Encoding.Base64

/-! How `WinRTHttpResource::PerformSendRequest` reads the body of a response and reports it. -/
namespace Networking

inductive ResponseType where
  | text | base64 | blob
  deriving DecidableEq

structure ResponseArgs where
  responseType : ResponseType
  incrementalUpdates : Bool
  timeout : Int64

def ResponseArgs.isText (args : ResponseArgs) : Bool := args.responseType = .text

structure HttpCallbacks where
  onRequestSuccess : Bool
  onResponse : Bool
  onData : Bool
  onDataObject : Bool
  onIncrementalData : Bool
  onDataProgress : Bool
  onComplete : Bool
  onError : Bool

/-- The calls of the callbacks, and that of `ToResponseData`. Strings are their bytes. -/
inductive HttpEvent where
  | onResponse (statusCode : ℕ)
  | onIncrementalData (responseData : List UInt8) (progress total : Int64)
  | onDataProgress (progress total : Int64)
  | toResponseData (content : List UInt8)
  | onDataObject (content : List UInt8)
  | onRequestSuccess
  | onData (responseData : List UInt8)
  | onComplete
  | onError (message : String) (isTimeout : Bool)
  deriving DecidableEq

structure Segment where
  bytes : List UInt8
  ne_nil : bytes ≠ []

namespace ResponseData

structure Progress where
  receivedBytes : Int64
  responseData : List UInt8

variable (args : ResponseArgs) (callbacks : HttpCallbacks)

/-- A call when its callback is set. -/
def emit (set : Bool) (event : HttpEvent) : List HttpEvent := if set then [event] else []

/-- The loop's body. A moved string is empty. -/
def readSegment (state : Progress) (segment : List UInt8) : Progress × List HttpEvent :=
  let receivedBytes := state.receivedBytes + Int64.ofNat segment.length
  if args.isText then
    if args.incrementalUpdates then
      if callbacks.onIncrementalData then
        (⟨receivedBytes, []⟩, [.onIncrementalData segment receivedBytes 0])
      else (⟨receivedBytes, segment⟩, [])
    else (⟨receivedBytes, state.responseData ++ segment⟩, [])
  else
    (⟨receivedBytes, state.responseData ++ Encoding.Base64.encode segment⟩,
      emit callbacks.onDataProgress (.onDataProgress receivedBytes 0))

def readSegments (state : Progress) : List (List UInt8) → Progress × List HttpEvent
  | [] => (state, [])
  | segment :: rest =>
    let (next, events) := readSegment args callbacks state segment
    let (last, others) := readSegments next rest
    (last, events ++ others)

def reportData (responseData : List UInt8) : List HttpEvent :=
  emit (callbacks.onData && !(args.incrementalUpdates && args.isText)) (.onData responseData) ++
    emit callbacks.onComplete .onComplete

def reportBlob (content : List UInt8) : List HttpEvent :=
  [.toResponseData content] ++
    (if callbacks.onDataObject && callbacks.onRequestSuccess then
      [.onDataObject content, .onRequestSuccess] else []) ++
    emit callbacks.onComplete .onComplete

/-- The calls for a body that comes in segments; `supported` is the answer of the response
handler, if there is one. -/
def readBody (supported : Bool) (segments : List (List UInt8)) : List HttpEvent :=
  if supported then
    reportBlob callbacks (segments.foldl (fun data segment => data ++ segment) [])
  else
    let (state, events) := readSegments args callbacks ⟨0, []⟩ segments
    events ++ reportData args callbacks state.responseData

def incrementalData : HttpEvent → Option (List UInt8)
  | .onIncrementalData responseData _ _ => some responseData
  | _ => none

def progress : HttpEvent → Option Int64
  | .onIncrementalData _ progress _ | .onDataProgress progress _ => some progress
  | _ => none

/-- Whether the loop has a callback for its progress. -/
def tellsProgress : Bool :=
  if args.isText then args.incrementalUpdates && callbacks.onIncrementalData
  else callbacks.onDataProgress

def runningLengths (received : ℕ) : List (List UInt8) → List ℕ
  | [] => []
  | segment :: rest =>
    (received + segment.length) :: runningLengths (received + segment.length) rest

structure ReportsBody (supported : Bool) (segments : List (List UInt8)) : Prop where
  data : ∀ text, .onData text ∈ readBody args callbacks supported segments →
    text = if args.isText then segments.flatten else Encoding.Base64.encode segments.flatten
  reported : supported = false → callbacks.onData = true →
    (args.incrementalUpdates && args.isText) = false →
      ∃ text, .onData text ∈ readBody args callbacks supported segments
  incremental : supported = false → args.isText = true → args.incrementalUpdates = true →
    callbacks.onIncrementalData = true →
      ((readBody args callbacks supported segments).filterMap incrementalData).flatten =
        segments.flatten
  content : ∀ bytes, .toResponseData bytes ∈ readBody args callbacks supported segments ↔
    supported = true ∧ bytes = segments.flatten
  object : ∀ bytes, .onDataObject bytes ∈ readBody args callbacks supported segments →
    bytes = segments.flatten
  running : (readBody args callbacks supported segments).filterMap progress =
    if supported = false ∧ tellsProgress args callbacks = true then
      (runningLengths 0 segments).map Int64.ofNat
    else []

section Loop
variable {args callbacks}

def ofLoop : HttpEvent → Bool
  | .onIncrementalData _ _ _ | .onDataProgress _ _ => true
  | _ => false

variable {event : HttpEvent}

theorem mem_emit {set : Bool} {other : HttpEvent} :
    other ∈ emit set event ↔ set = true ∧ other = event := by
  cases set <;> simp [emit]

theorem readSegment_ofLoop {state : Progress} {segment : List UInt8}
    (h : event ∈ (readSegment args callbacks state segment).2) : ofLoop event = true := by
  simp only [readSegment] at h
  split at h
  · split at h
    · split at h
      · cases List.mem_singleton.mp h
        rfl
      · cases h
    · cases h
  · cases (mem_emit.mp h).2
    rfl

theorem readSegments_ofLoop {state : Progress} {segments : List (List UInt8)}
    (h : event ∈ (readSegments args callbacks state segments).2) : ofLoop event = true := by
  induction segments generalizing state with
  | nil => cases h
  | cons segment rest ih =>
    rcases List.mem_append.mp h with hFirst | hLater
    · exact readSegment_ofLoop hFirst
    · exact ih hLater

theorem readSegments_data (hCollects : (args.incrementalUpdates && args.isText) = false)
    (state : Progress) (segments : List (List UInt8)) :
    (readSegments args callbacks state segments).1.responseData = state.responseData ++
      if args.isText then segments.flatten else segments.flatMap Encoding.Base64.encode := by
  induction segments generalizing state with
  | nil => simp [readSegments]
  | cons segment rest ih =>
    have hStep : (readSegment args callbacks state segment).1.responseData =
        state.responseData ++
          if args.isText then segment else Encoding.Base64.encode segment := by
      cases hText : args.isText with
      | true =>
        have hWhole : args.incrementalUpdates = false := by
          rwa [hText, Bool.and_true] at hCollects
        simp [readSegment, hText, hWhole]
      | false => simp [readSegment, hText]
    show (readSegments args callbacks (readSegment args callbacks state segment).1
      rest).1.responseData = _
    rw [ih, hStep, List.append_assoc]
    cases args.isText <;> rfl

theorem readSegments_incremental (hText : args.isText = true)
    (hIncremental : args.incrementalUpdates = true) (hSet : callbacks.onIncrementalData = true)
    (state : Progress) (segments : List (List UInt8)) :
    (readSegments args callbacks state segments).2.filterMap incrementalData = segments := by
  induction segments generalizing state with
  | nil => rfl
  | cons segment rest ih =>
    have hStep : (readSegment args callbacks state segment).2.filterMap incrementalData =
        [segment] := by
      simp [readSegment, hText, hIncremental, hSet, incrementalData]
    show ((readSegment args callbacks state segment).2 ++ (readSegments args callbacks
      (readSegment args callbacks state segment).1 rest).2).filterMap incrementalData = _
    rw [List.filterMap_append, hStep, ih]
    rfl

theorem readSegment_received (state : Progress) (segment : List UInt8) :
    (readSegment args callbacks state segment).1.receivedBytes =
      state.receivedBytes + Int64.ofNat segment.length := by
  simp only [readSegment]
  repeat' split
  all_goals rfl

theorem readSegments_progress (received : ℕ) (responseData : List UInt8)
    (segments : List (List UInt8)) :
    (readSegments args callbacks ⟨Int64.ofNat received, responseData⟩ segments).2.filterMap
        progress =
      if tellsProgress args callbacks = true then
        (runningLengths received segments).map Int64.ofNat
      else [] := by
  induction segments generalizing received responseData with
  | nil => simp [readSegments, runningLengths]
  | cons segment rest ih =>
    have hSum : Int64.ofNat received + Int64.ofNat segment.length =
        Int64.ofNat (received + segment.length) := (Int64.ofNat_add received segment.length).symm
    have hStep : (readSegment args callbacks ⟨Int64.ofNat received, responseData⟩
        segment).2.filterMap progress =
          if tellsProgress args callbacks = true then
            [Int64.ofNat (received + segment.length)]
          else [] := by
      rw [← hSum, tellsProgress]
      cases hText : args.isText <;> cases hIncremental : args.incrementalUpdates <;>
        cases hSet : callbacks.onIncrementalData <;>
          cases hProgress : callbacks.onDataProgress <;>
            simp [readSegment, hText, hIncremental, hSet, hProgress, emit, progress]
    obtain ⟨data, hNext⟩ : ∃ data, (readSegment args callbacks ⟨Int64.ofNat received, responseData⟩
        segment).1 = ⟨Int64.ofNat (received + segment.length), data⟩ := by
      have hReceived : (readSegment args callbacks ⟨Int64.ofNat received, responseData⟩
          segment).1.receivedBytes = Int64.ofNat received + Int64.ofNat segment.length :=
        readSegment_received _ segment
      generalize (readSegment args callbacks ⟨Int64.ofNat received, responseData⟩ segment).1 = next
        at hReceived ⊢
      obtain ⟨receivedBytes, data⟩ := next
      exact ⟨data, by rw [← hSum, ← hReceived]⟩
    show ((readSegment args callbacks ⟨Int64.ofNat received, responseData⟩ segment).2 ++
      (readSegments args callbacks (readSegment args callbacks
        ⟨Int64.ofNat received, responseData⟩ segment).1 rest).2).filterMap progress = _
    rw [List.filterMap_append, hStep, hNext, ih, runningLengths]
    split
    · rfl
    · rfl

end Loop

section Report
variable {args callbacks} {segments : List (List UInt8)}

theorem foldl_append (data : List UInt8) (segments : List (List UInt8)) :
    segments.foldl (fun data segment => data ++ segment) data = data ++ segments.flatten := by
  induction segments generalizing data with
  | nil => exact (List.append_nil data).symm
  | cons segment rest ih => rw [List.foldl_cons, ih, List.append_assoc, List.flatten_cons]

theorem readBody_supported : readBody args callbacks true segments =
    reportBlob callbacks segments.flatten := by
  rw [readBody, if_pos rfl, foldl_append, List.nil_append]

theorem readBody_unsupported : readBody args callbacks false segments =
    (readSegments args callbacks ⟨0, []⟩ segments).2 ++
      reportData args callbacks (readSegments args callbacks ⟨0, []⟩ segments).1.responseData := rfl

variable {event : HttpEvent}

theorem mem_reportBlob {content : List UInt8} :
    event ∈ reportBlob callbacks content ↔ event = .toResponseData content ∨
      ((callbacks.onDataObject && callbacks.onRequestSuccess) = true ∧
        (event = .onDataObject content ∨ event = .onRequestSuccess)) ∨
      (callbacks.onComplete = true ∧ event = .onComplete) := by
  rw [reportBlob, List.mem_append, List.mem_append, mem_emit, or_assoc]
  cases callbacks.onDataObject && callbacks.onRequestSuccess <;> simp

/-- A response handler is given the body. -/
theorem reportsBody_supported : ReportsBody args callbacks true segments := by
  constructor
  · intro text hMem
    rw [readBody_supported, mem_reportBlob] at hMem
    rcases hMem with hEq | ⟨-, hEq | hEq⟩ | ⟨-, hEq⟩ <;> cases hEq
  · intro hSupported
    cases hSupported
  · intro hSupported
    cases hSupported
  · intro bytes
    rw [readBody_supported, mem_reportBlob]
    constructor
    · rintro (hEq | ⟨-, hEq | hEq⟩ | ⟨-, hEq⟩) <;> cases hEq
      exact ⟨rfl, rfl⟩
    · rintro ⟨-, rfl⟩
      exact Or.inl rfl
  · intro bytes hMem
    rw [readBody_supported, mem_reportBlob] at hMem
    rcases hMem with hEq | ⟨-, hEq | hEq⟩ | ⟨-, hEq⟩ <;> cases hEq
    rfl
  · rw [readBody_supported, if_neg fun h => Bool.noConfusion h.1, List.filterMap_eq_nil_iff]
    intro event hMem
    rcases mem_reportBlob.mp hMem with rfl | ⟨-, rfl | rfl⟩ | ⟨-, rfl⟩ <;> rfl

theorem mem_unsupported (h : event ∈ readBody args callbacks false segments)
    (hLoop : ofLoop event = false) :
    event ∈ reportData args callbacks
      (readSegments args callbacks ⟨0, []⟩ segments).1.responseData := by
  rw [readBody_unsupported] at h
  rcases List.mem_append.mp h with hFirst | hLast
  · rw [readSegments_ofLoop hFirst] at hLoop
    cases hLoop
  · exact hLast

theorem mem_reportData {responseData : List UInt8} :
    event ∈ reportData args callbacks responseData ↔
      ((callbacks.onData && !(args.incrementalUpdates && args.isText)) = true ∧
        event = .onData responseData) ∨ (callbacks.onComplete = true ∧ event = .onComplete) := by
  rw [reportData, List.mem_append, mem_emit, mem_emit]

/-- Without a handler only the text of the body remains to be looked at. -/
theorem reportsBody_unsupported (hData : callbacks.onData = true →
    (args.incrementalUpdates && args.isText) = false →
      (readSegments args callbacks ⟨0, []⟩ segments).1.responseData =
        if args.isText then segments.flatten else Encoding.Base64.encode segments.flatten) :
    ReportsBody args callbacks false segments := by
  constructor
  · intro text hMem
    rcases mem_reportData.mp (mem_unsupported hMem rfl) with ⟨hSet, hEq⟩ | ⟨-, hEq⟩
    · cases hEq
      rw [Bool.and_eq_true, Bool.not_eq_true'] at hSet
      exact hData hSet.1 hSet.2
    · cases hEq
  · intro _ hSet hCollects
    refine ⟨_, List.mem_append_right _ (mem_reportData.mpr (Or.inl ⟨?_, rfl⟩))⟩
    rw [hSet, hCollects]
    rfl
  · intro _ hText hIncremental hSet
    rw [readBody_unsupported, List.filterMap_append,
      readSegments_incremental hText hIncremental hSet]
    have hNone : (reportData args callbacks (readSegments args callbacks ⟨0, []⟩
        segments).1.responseData).filterMap incrementalData = [] := by
      rw [List.filterMap_eq_nil_iff]
      intro event hMem
      rcases mem_reportData.mp hMem with ⟨-, rfl⟩ | ⟨-, rfl⟩ <;> rfl
    rw [hNone, List.append_nil]
  · intro bytes
    constructor
    · intro hMem
      rcases mem_reportData.mp (mem_unsupported hMem rfl) with ⟨-, hEq⟩ | ⟨-, hEq⟩ <;> cases hEq
    · rintro ⟨hSupported, -⟩
      cases hSupported
  · intro bytes hMem
    rcases mem_reportData.mp (mem_unsupported hMem rfl) with ⟨-, hEq⟩ | ⟨-, hEq⟩ <;> cases hEq
  · have hNone : (reportData args callbacks (readSegments args callbacks ⟨0, []⟩
        segments).1.responseData).filterMap progress = [] := by
      rw [List.filterMap_eq_nil_iff]
      intro event hMem
      rcases mem_reportData.mp hMem with ⟨-, rfl⟩ | ⟨-, rfl⟩ <;> rfl
    rw [readBody_unsupported, List.filterMap_append, hNone, List.append_nil]
    have hRunning : (readSegments args callbacks ⟨Int64.ofNat 0, []⟩ segments).2.filterMap progress =
        _ := readSegments_progress 0 [] segments
    simpa using hRunning

end Report

def bodies (segments : List Segment) : List (List UInt8) := segments.map Segment.bytes

theorem ne_nil_of_mem_bodies {segments : List Segment} {bytes : List UInt8}
    (h : bytes ∈ bodies segments) : bytes ≠ [] := by
  obtain ⟨segment, -, rfl⟩ := List.mem_map.mp h
  exact segment.ne_nil

theorem encode_bodies_iff (segments : List Segment) :
    (bodies segments).flatMap Encoding.Base64.encode =
        Encoding.Base64.encode (bodies segments).flatten ↔
      ∀ bytes ∈ (bodies segments).dropLast, 3 ∣ bytes.length :=
  Encoding.Base64.flatMap_encode_iff fun _ hMem => ne_nil_of_mem_bodies hMem

section Base64
variable {args callbacks}

theorem groups_of_reportsBody (hText : args.isText = false) (hSet : callbacks.onData = true)
    {segments : List Segment} (h : ReportsBody args callbacks false (bodies segments)) :
    ∀ bytes ∈ (bodies segments).dropLast, 3 ∣ bytes.length := by
  have hCollects : (args.incrementalUpdates && args.isText) = false := by
    rw [hText, Bool.and_false]
  obtain ⟨text, hMem⟩ := h.reported rfl hSet hCollects
  have hSpec := h.data text hMem
  rcases mem_reportData.mp (mem_unsupported hMem rfl) with ⟨-, hEq⟩ | ⟨-, hEq⟩
  · cases hEq
    rw [readSegments_data hCollects, hText] at hSpec
    exact (encode_bodies_iff segments).mp hSpec
  · cases hEq

end Base64

/-- The reported data depends on the segments of data in Base64 only. -/
theorem reportsBody_iff (supported : Bool) (segments : List Segment) :
    ReportsBody args callbacks supported (bodies segments) ↔
      supported = true ∨ args.isText = true ∨ callbacks.onData = false ∨
        ∀ bytes ∈ (bodies segments).dropLast, 3 ∣ bytes.length := by
  cases supported with
  | true => exact iff_of_true reportsBody_supported (Or.inl rfl)
  | false =>
    constructor
    · intro h
      cases hText : args.isText with
      | true => exact Or.inr (Or.inl rfl)
      | false =>
        cases hSet : callbacks.onData with
        | false => exact Or.inr (Or.inr (Or.inl rfl))
        | true => exact Or.inr (Or.inr (Or.inr (groups_of_reportsBody hText hSet h)))
    · intro h
      apply reportsBody_unsupported
      intro hSet hCollects
      rw [readSegments_data hCollects, List.nil_append]
      rcases h with hSupported | hText | hUnset | hGroups
      · cases hSupported
      · rw [if_pos hText, if_pos hText]
      · rw [hUnset] at hSet
        cases hSet
      · rw [(encode_bodies_iff segments).mpr hGroups]

/-- A body of 8 MiB and one byte, with all callbacks set. -/
theorem large_body_not_reported :
    ¬ ReportsBody ⟨.base64, false, 0⟩ ⟨true, true, true, true, true, true, true, true⟩ false
      (bodies [⟨List.replicate 0x800000 0, List.cons_ne_nil _ _⟩, ⟨[0], List.cons_ne_nil _ _⟩]) := by
  intro h
  have hGroups := groups_of_reportsBody rfl rfl h (List.replicate 0x800000 0) List.mem_cons_self
  rw [List.length_replicate] at hGroups
  exact absurd hGroups (by decide)

end ResponseData

end Networking
