import ReactNativeWindows.Networking.Http

/-! `WinRTHttpResource::CreateRequest`, the factory of requests. -/
namespace Networking

/-- What the factory calls: parsers of header values of the platform, the two ways to add a
header, and `std::stol`. `append` and `stol` give the text of the exception. -/
structure WinRTHttpResource where
  tryParseMediaType : String → Option String
  tryAppendWithoutValidation : String → String → Bool
  append : String → String → Option String
  tryParseAddEncoding : String → Bool
  stol : String → Except String Int

namespace WinRTHttpResource

/-- `CreateRequest` throws, or calls `m_onError` with the message and returns null. -/
inductive CreateFailure where
  | raised (error : HResultError)
  | null (message : String)
  deriving DecidableEq

/-- What became of the data of a request: its content, and the content type that is to be
set on it. Body handlers, files and streams are outside of the model. -/
abbrev Body := Except CreateFailure (Option (HttpContent × Option String))

structure HeaderState where
  headers : Headers
  contentType : Option String
  contentEncoding : String
  contentLength : String

def addHeader (resource : WinRTHttpResource) (state : HeaderState) (header : String × String) :
    Except CreateFailure HeaderState :=
  let (name, value) := header
  let added : HeaderState := { state with headers := state.headers.append name value }
  if iequals name "Content-Type" then
    match resource.tryParseMediaType value with
    | some contentType => .ok { state with contentType := some contentType }
    | none => .error (.null "Failed to parse Content-Type")
  else if iequals name "Content-Encoding" then .ok { state with contentEncoding := value }
  else if iequals name "Content-Length" then .ok { state with contentLength := value }
  else if iequals name "Authorization" then
    if resource.tryAppendWithoutValidation name value then .ok added
    else .error (.null "Failed to append Authorization")
  else if iequals name "User-Agent" then
    if resource.tryAppendWithoutValidation name value then .ok added
    else .error (.null "Failed to append User-Agent")
  else
    match resource.append name value with
    | none => .ok added
    | some message => .error (.null message)

def attachContentHeaders (resource : WinRTHttpResource) (state : HeaderState)
    (content : HttpContent) (contentType : Option String) : Except CreateFailure HttpContent := do
  let content := match contentType with
    | some type => { content with headers := content.headers.insert "Content-Type" type }
    | none => content
  let content ← if state.contentEncoding = "" then pure content
    else if resource.tryParseAddEncoding state.contentEncoding then
      pure { content with
        headers := content.headers.append "Content-Encoding" state.contentEncoding }
    else .error (.null "Failed to parse Content-Encoding")
  if state.contentLength = "" then return content
  else match resource.stol state.contentLength with
    | .ok length =>
      return { content with headers := content.headers.insert "Content-Length" (toString length) }
    | .error what => .error (.null (what ++ " [" ++ state.contentLength ++ "]"))

def buildMessage (resource : WinRTHttpResource) (args : RequestArgs)
    (body : Option String → Body) : Except CreateFailure (Headers × Option HttpContent) := do
  let state ← args.headers.foldlM resource.addHeader ⟨[], none, "", ""⟩
  match ← body state.contentType with
  | none => return (state.headers, none)
  | some (content, contentType) =>
    return (state.headers, some (← resource.attachContentHeaders state content contentType))

def createRequest (resource : WinRTHttpResource) (method : HttpMethod) (uri : Uri)
    (props : Properties) (body : Option String → Body) : Except CreateFailure HttpRequestMessage :=
  match props.requestArgs with
  | none => .error (.raised ⟨.other 0x8000000B, ""⟩)
  | some args =>
    (resource.buildMessage args body).map fun (headers, content) =>
      ⟨method, uri, headers, content, props⟩

def isContentHeader (name : String) : Bool :=
  iequals name "Content-Type" || iequals name "Content-Encoding" || iequals name "Content-Length"

def messageHeaders (args : RequestArgs) : Headers :=
  args.headers.filter fun header => !isContentHeader header.1

section Headers

variable {resource : WinRTHttpResource}

theorem addHeader_ok {state next : HeaderState} {header : String × String}
    (h : resource.addHeader state header = .ok next) :
    next.headers = state.headers ++ [header].filter fun header => !isContentHeader header.1 := by
  obtain ⟨name, value⟩ := header
  have hFilter : [(name, value)].filter (fun header => !isContentHeader header.1) =
      if isContentHeader name then [] else [(name, value)] := by
    cases hName : isContentHeader name <;> simp [hName]
  rw [hFilter]
  simp only [addHeader] at h
  split at h
  · rename_i hType
    rw [if_pos (by simp [isContentHeader, hType]), List.append_nil]
    split at h <;> cases h
    rfl
  split at h
  · rename_i hEncoding
    rw [if_pos (by simp [isContentHeader, hEncoding]), List.append_nil]
    cases h
    rfl
  split at h
  · rename_i hLength
    rw [if_pos (by simp [isContentHeader, hLength]), List.append_nil]
    cases h
    rfl
  rename_i hType hEncoding hLength
  rw [if_neg (by simp [isContentHeader, hType, hEncoding, hLength])]
  split at h
  · split at h <;> cases h
    rfl
  split at h
  · split at h <;> cases h
    rfl
  · split at h <;> cases h
    rfl

theorem foldlM_addHeader_ok {headers : Headers} {state next : HeaderState}
    (h : headers.foldlM resource.addHeader state = .ok next) :
    next.headers = state.headers ++ headers.filter fun header => !isContentHeader header.1 := by
  induction headers generalizing state with
  | nil =>
    cases h
    rw [List.filter_nil, List.append_nil]
  | cons header headers ih =>
    rw [List.foldlM_cons] at h
    cases hAdd : resource.addHeader state header with
    | error failure =>
      rw [hAdd] at h
      cases h
    | ok middle =>
      rw [hAdd] at h
      rw [ih h, addHeader_ok hAdd, List.append_assoc, ← List.filter_append,
        List.singleton_append]

variable {body : Option String → Body}

/-- A request of the factory has the message headers of its arguments and no others. -/
theorem buildMessage_headers {args : RequestArgs} {headers : Headers} {content : Option HttpContent}
    (h : resource.buildMessage args body = .ok (headers, content)) :
    headers = messageHeaders args := by
  rw [buildMessage] at h
  cases hFold : args.headers.foldlM resource.addHeader ⟨[], none, "", ""⟩ with
  | error failure =>
    rw [hFold] at h
    cases h
  | ok state =>
    have hHeaders := foldlM_addHeader_ok hFold
    rw [List.nil_append] at hHeaders
    rw [messageHeaders, ← hHeaders]
    simp only [hFold, bind, Except.bind] at h
    split at h
    · cases h
    split at h
    · cases h
      rfl
    split at h
    · cases h
    · cases h
      rfl

/-- The factory builds what it is asked for. -/
theorem createRequest_ok {method : HttpMethod} {uri : Uri} {props : Properties}
    {request : HttpRequestMessage} (h : resource.createRequest method uri props body = .ok request) :
    request.method = method ∧ request.requestUri = uri ∧ request.properties = props ∧
      ∃ args, props.requestArgs = some args ∧ request.headers = messageHeaders args := by
  rw [createRequest] at h
  split at h
  · cases h
  rename_i args hArgs
  cases hBuild : resource.buildMessage args body with
  | error failure =>
    rw [hBuild] at h
    cases h
  | ok message =>
    obtain ⟨headers, content⟩ := message
    rw [hBuild] at h
    cases h
    exact ⟨rfl, rfl, rfl, args, hArgs, buildMessage_headers hBuild⟩

end Headers

end WinRTHttpResource

end Networking
