import ReactNativeWindows.Control.Rounds
import ReactNativeWindows.Networking.Http

/-! `RedirectHttpFilter::SendRequestAsync`: a request and the redirects that are followed. -/
namespace Networking

open Control

structure RedirectHttpFilter where
  maximumRedirects : UInt64
  defaultUserAgent : String

namespace RedirectHttpFilter

/-- What `OnRedirecting` answers, and the headers and properties it leaves in the request. -/
structure Redirecting where
  proceed : Bool
  headers : Headers
  properties : Properties

/-- What the weak pointer to the request factory gives: it may have expired, and
`CreateRequest` may throw or return null. -/
inductive Factory where
  | expired
  | raises (error : HResultError)
  | null
  | creates (headers : Headers) (content : Option HttpContent)

/-- What one round gets from outside: the answer to its request, the event source's if
there is one, and the factory. -/
structure Exchange where
  answer : Except HResultError HttpResponseMessage
  eventSource : Option Redirecting
  factory : Factory

structure State where
  redirectCount : UInt64
  method : HttpMethod
  coRequest : HttpRequestMessage

/-- `crashed` is the use of a null `Location`. -/
inductive Result where
  | returned (response : HttpResponseMessage) (requestMessage : HttpRequestMessage)
  | thrown (error : HResultError)
  | crashed

def State.initial (request : HttpRequestMessage) : State := ⟨0, request.method, request⟩

/-- The request of a round, with the `User-Agent` that is set in front of sending. -/
def State.sent (filter : RedirectHttpFilter) (s : State) : HttpRequestMessage :=
  if filter.defaultUserAgent = "" then s.coRequest
  else { s.coRequest with
    headers := s.coRequest.headers.append "User-Agent" filter.defaultUserAgent }

/-- Whether the round sends through `m_innerFilterWithNoCredentials`. -/
def State.withNoCredentials (s : State) : Bool := s.redirectCount > 0

def isRedirect (status : HttpStatusCode) : Bool :=
  status == .MultipleChoices || status == .MovedPermanently || status == .Found ||
    status == .SeeOther || status == .TemporaryRedirect || status == .PermanentRedirect

/-- The status codes after which `method` stays. -/
def keepsVerb (status : HttpStatusCode) : Bool :=
  status == .TemporaryRedirect || status == .PermanentRedirect

def Exchange.marked (x : Exchange) (request : HttpRequestMessage) : HttpRequestMessage :=
  match x.eventSource with
  | none => request
  | some source => { request with headers := source.headers, properties := source.properties }

/-- Whether there is no event source or its `OnRedirecting` returns true. -/
def Exchange.proceeds (x : Exchange) : Bool :=
  match x.eventSource with
  | none => true
  | some source => source.proceed

/-- The rebuilt request has the URI and the properties of the one before it and the verb
in `method`. -/
def Exchange.rebuilt (x : Exchange) (method : HttpMethod) (request : HttpRequestMessage) :
    Except HResultError HttpRequestMessage :=
  match x.factory with
  | .expired => .ok request
  | .raises error => .error error
  | .null => .error ⟨.invalidArg, "Invalid request handle"⟩
  | .creates headers content =>
    .ok ⟨method, request.requestUri, headers, content, request.properties⟩

/-- The scheme checks: no other protocol, and no "downgrade" from HTTPS to HTTP. -/
def followable (uri redirectUri : Uri) : Bool :=
  (redirectUri.schemeName == "http" || redirectUri.schemeName == "https") &&
    !(uri.schemeName == "https" && redirectUri.schemeName == "http")

/-- The assignment to `method` in a round. -/
def nextMethod (status : HttpStatusCode) (method : HttpMethod) : HttpMethod :=
  if !keepsVerb status && method != .Post then .Get else method

/-- The rest of a round after the answer to its request. -/
def redirect (filter : RedirectHttpFilter) (allowAutoRedirect : Bool) (s : State)
    (request : HttpRequestMessage) (response : HttpResponseMessage) (x : Exchange) :
    Result ⊕ State :=
  if !isRedirect response.statusCode then .inl (.returned response request)
  else if s.redirectCount + 1 > filter.maximumRedirects then
    .inl (.thrown ⟨.redirectFailed, "Too many redirects"⟩)
  else if !x.proceeds then .inl (.returned response (x.marked request))
  else match x.rebuilt s.method (x.marked request) with
    | .error error => .inl (.thrown error)
    | .ok coRequest => match response.location with
      | none => .inl .crashed
      | some redirectUri =>
        if !followable coRequest.requestUri redirectUri then .inl (.returned response coRequest)
        else
          let next := { coRequest with requestUri := redirectUri }
          if allowAutoRedirect then
            .inr ⟨s.redirectCount + 1, nextMethod response.statusCode s.method, next⟩
          else .inl (.returned response next)

def round (filter : RedirectHttpFilter) (allowAutoRedirect : Bool) (s : State) (x : Exchange) :
    Result ⊕ State :=
  match x.answer with
  | .error error => .inl (.thrown error)
  | .ok response => redirect filter allowAutoRedirect s (s.sent filter) response x

/-- The states in which the requests of a run are sent. -/
def requests (filter : RedirectHttpFilter) (allowAutoRedirect : Bool)
    (request : HttpRequestMessage) (chain : List Exchange) : List State :=
  rounds (round filter allowAutoRedirect) (.initial request) chain

def sendRequestAsync (filter : RedirectHttpFilter) (allowAutoRedirect : Bool)
    (request : HttpRequestMessage) (chain : List Exchange) : Option Result :=
  outcome (round filter allowAutoRedirect) (.initial request) chain

end RedirectHttpFilter

end Networking
