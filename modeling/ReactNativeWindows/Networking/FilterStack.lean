import ReactNativeWindows.Networking.OriginPolicyHttpFilter
import ReactNativeWindows.Networking.RedirectFollowing
import ReactNativeWindows.Networking.WinRTHttpResource

/-! The filters as `IHttpResource::Make` stacks them for an origin policy: an
`OriginPolicyHttpFilter` over a `RedirectHttpFilter`, which asks the resource for requests. -/
namespace Networking

open Control RedirectHttpFilter

/-- The stack with the runtime options, under which the policy is not `None`. -/
structure FilterStack where
  filter : OriginPolicyHttpFilter
  defaultUserAgent : String
  resource : WinRTHttpResource
  options : RuntimeOptions
  platform : Platform
  hasPolicy : options.originPolicy ≠ 0

/-- What comes back for a request, and what the body of the next one is made from. -/
structure Answer where
  answer : Except HResultError HttpResponseMessage
  body : Option String → WinRTHttpResource.Body

namespace FilterStack

def redirectFilter (stack : FilterStack) : RedirectHttpFilter := ⟨20, stack.defaultUserAgent⟩

def eventSource (stack : FilterStack) (request : HttpRequestMessage)
    (response : HttpResponseMessage) : Redirecting :=
  let (proceed, headers, properties) := stack.filter.onRedirecting request response.location
  ⟨proceed, headers, properties⟩

/-- The result of `CreateRequest` as the redirect filter sees it. The resource lives as long
as it waits for its request. -/
def factory (stack : FilterStack) (method : HttpMethod) (uri : Uri) (props : Properties)
    (body : Option String → WinRTHttpResource.Body) : Factory :=
  match stack.resource.createRequest method uri props body with
  | .ok request => .creates request.headers request.content
  | .error (.raised error) => .raises error
  | .error (.null _) => .null

def exchange (stack : FilterStack) (s : State) (x : Answer) : Exchange :=
  match x.answer with
  | .error error => ⟨.error error, none, .expired⟩
  | .ok response =>
    let source := stack.eventSource (s.sent stack.redirectFilter) response
    ⟨.ok response, some source,
      stack.factory s.method s.coRequest.requestUri source.properties x.body⟩

def step (stack : FilterStack) (allowAutoRedirect : Bool) (s : State) (x : Answer) :
    Result ⊕ State :=
  stack.redirectFilter.round allowAutoRedirect s (stack.exchange s x)

structure Passed where
  request : HttpRequestMessage
  policy : OriginPolicy

/-- `SendPreflightAsync` and the checks of its response; one answer at most is used. -/
def preflight (stack : FilterStack) (passed : Passed) (answers : List Answer) :
    Option (Except Failure (List Answer)) :=
  if passed.policy = .crossOriginResourceSharing then
    match stack.filter.preflightRequest passed.request, answers with
    | .error failure, _ => some (.error failure)
    | .ok _, [] => none
    | .ok request, x :: rest =>
      (outcome (stack.step false) (.initial request) [x]).map fun
        | .returned response _ =>
          (stack.filter.validatePreflightResponse stack.platform passed.request response).map
            fun _ => rest
        | .thrown error => .error (.thrown error)
        | .crashed => .error .crashed
  else some (.ok answers)

/-- `SendRequestAsync` up to the call of the inner filter with the request itself. Without a
result the answer to the preflight is missing. -/
def pass (stack : FilterStack) (request : HttpRequestMessage) (answers : List Answer) :
    Option (Except Failure (Passed × List Answer)) :=
  match stack.filter.prepareRequest stack.options request with
  | .error failure => some (.error failure)
  | .ok (request, policy) =>
    (stack.preflight ⟨request, policy⟩ answers).map fun result => do
      let rest ← result
      let request ← stack.filter.insertOrigin request policy
      return (⟨request, policy⟩, rest)

/-- The requests of a chain, where the first one finds this flag on the inner filter. -/
def requests (stack : FilterStack) (allowAutoRedirect : Bool) (passed : Passed)
    (answers : List Answer) : List State :=
  rounds (stack.step allowAutoRedirect) (.initial passed.request) answers

/-- The response that the inner filter returns, after `ValidateResponse`. -/
def deliver (stack : FilterStack) (allowAutoRedirect : Bool) (passed : Passed)
    (answers : List Answer) : Option (Except Failure HttpResponseMessage) :=
  (outcome (stack.step allowAutoRedirect) (.initial passed.request) answers).map fun
    | .returned response message => stack.filter.validateResponse stack.platform stack.options
        response message.properties passed.policy
    | .thrown error => .error (.thrown error)
    | .crashed => .error .crashed

/-- The request that `SendRequest` gets as far as the inner filter, with the answers to its
chain. -/
def sentRequest (stack : FilterStack) (method : HttpMethod) (uri : Uri) (args : RequestArgs)
    (body : Option String → WinRTHttpResource.Body) (answers : List Answer) :
    Option (Passed × List Answer) :=
  match stack.resource.createRequest method uri ⟨some args, none, none⟩ body with
  | .error _ => none
  | .ok request =>
    match stack.pass request answers with
    | some (.ok sent) => some sent
    | _ => none

end FilterStack

end Networking
