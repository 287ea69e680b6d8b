import ReactNativeWindows.Networking.FilterStack

/-! What is left of the protection of an origin over the redirects of a chain. -/
namespace Networking.FilterStack

open Control RedirectHttpFilter OriginPolicyHttpFilter WinRTHttpResource

def Crosses (stack : FilterStack) (uri : Uri) : Prop :=
  isSameOrigin stack.filter.origin (some uri) = false

/-- A redirect from a URI of another origin to a third one. -/
def Taints (stack : FilterStack) (uri : Uri) (location : Option Uri) : Prop :=
  isSameOrigin location (some uri) = false ∧ stack.Crosses uri

instance (stack : FilterStack) (uri : Uri) : Decidable (stack.Crosses uri) :=
  inferInstanceAs (Decidable (_ = _))

instance (stack : FilterStack) (uri : Uri) (location : Option Uri) :
    Decidable (stack.Taints uri location) :=
  inferInstanceAs (Decidable (_ ∧ _))

def HasHeader (headers : Headers) (name value : String) : Prop :=
  ∃ header ∈ headers, iequals header.1 name = true ∧ header.2 = value

/-- What is to hold in a run of the redirect filter for a request of the stack. Redirects are followed:
the filter starts with automatic redirection on. -/
structure ProtectsOrigin (stack : FilterStack) (passed : Passed) (answers : List Answer) :
    Prop where
  taintedHeader : ∀ (k d : Nat) (before after : State) (x : Answer)
    (response : HttpResponseMessage), (stack.requests true passed answers)[k]? = some before →
    (stack.requests true passed answers)[k + 1 + d]? = some after → answers[k]? = some x →
    x.answer = .ok response → stack.Taints before.coRequest.requestUri response.location →
    HasHeader (after.sent stack.redirectFilter).headers "Origin" "null" ∧
      (after.sent stack.redirectFilter).properties.taintedOrigin = some true
  validatedTainted : ∀ (k : Nat) (before : State) (x : Answer)
    (response returned : HttpResponseMessage) (message : HttpRequestMessage),
    (stack.requests true passed answers)[k]? = some before → answers[k]? = some x →
    x.answer = .ok response → isRedirect response.statusCode = true →
    stack.Taints before.coRequest.requestUri response.location →
    outcome (stack.step true) (.initial passed.request) answers =
      some (.returned returned message) →
    message.properties.taintedOrigin = some true
  originHeader : ∀ (k : Nat) (s : State), (stack.requests true passed answers)[k]? = some s →
    stack.Crosses s.coRequest.requestUri →
    (s.sent stack.redirectFilter).headers.hasKey "Origin" = true
  noAuthorization : ∀ (k : Nat) (s : State), (stack.requests true passed answers)[k + 1]? = some s →
    stack.Crosses s.coRequest.requestUri →
    (s.sent stack.redirectFilter).headers.hasKey "Authorization" = false
  checked : ∀ (k : Nat) (s : State) (delivered : HttpResponseMessage),
    (stack.requests true passed answers).length = k + 1 →
    (stack.requests true passed answers)[k]? = some s → stack.Crosses s.coRequest.requestUri →
    stack.deliver true passed answers = some (.ok delivered) →
    checksAllowOrigin stack.options passed.policy = true ∧
      ∃ response message, outcome (stack.step true) (.initial passed.request) answers =
          some (.returned response message) ∧
        stack.filter.validateAllowOrigin stack.platform
          (extractAccessControlValues response.headers).allowedOrigin
          (extractAccessControlValues response.headers).allowedCredentials
          message.properties = .ok ()

section Hops

variable (stack : FilterStack) (args : RequestArgs)

/-- Whether `CreateRequest` succeeds after the answer. -/
def creates (x : Answer) : Bool := (stack.resource.buildMessage args x.body).isOk

def redirectTo (uri : Uri) (x : Answer) : Option Uri :=
  match x.answer with
  | .ok response =>
    if isRedirect response.statusCode && stack.creates args x then
      response.location.filter (followable uri)
    else none
  | .error _ => none

/-- The URIs of the followed redirects, of which there are at most `count`. -/
def hops : Nat → Uri → List Answer → List Uri
  | count + 1, uri, x :: answers =>
    match stack.redirectTo args uri x with
    | some redirectUri => redirectUri :: hops count redirectUri answers
    | none => []
  | _, _, _ => []

/-- The response that an answer to the request after `count` redirects ends the chain with. -/
def returned (count : Nat) (uri : Uri) (x : Answer) : Option HttpResponseMessage :=
  match x.answer with
  | .ok response =>
    if !isRedirect response.statusCode then some response
    else if count < 20 && stack.creates args x &&
        response.location.any (fun redirectUri => !followable uri redirectUri) then some response
    else none
  | .error _ => none

/-- The chain ends with a response that gets past `ValidateResponse` without the check of
`Access-Control-Allow-Origin`. -/
def DeliversUnchecked (policy : OriginPolicy) (count : Nat) (uri : Uri) (x : Answer) : Prop :=
  checksAllowOrigin stack.options policy = false ∧
    ∃ response, stack.returned args count uri x = some response ∧
      (policy = .simpleCrossOriginResourceSharing →
        strictOriginAllowed stack.platform response.headers = .ok true)

/-- The redirects that are followed lose no protection: since a followed request is built
from the arguments again, those have to bring along the headers that it needs. -/
structure HopsHarmless (passed : Passed) (answers : List Answer) : Prop where
  taints : ∀ (k : Nat) (uri redirectUri : Uri),
    (passed.request.requestUri ::
      stack.hops args 20 passed.request.requestUri answers)[k]? = some uri →
    (stack.hops args 20 passed.request.requestUri answers)[k]? = some redirectUri →
    stack.Taints uri (some redirectUri) → HasHeader (messageHeaders args) "Origin" "null"
  origin : ∀ uri ∈ stack.hops args 20 passed.request.requestUri answers, stack.Crosses uri →
    (messageHeaders args).hasKey "Origin" = true
  authorization : ∀ uri ∈ stack.hops args 20 passed.request.requestUri answers,
    stack.Crosses uri → (messageHeaders args).hasKey "Authorization" = false
  checked : ∀ (uri : Uri) (x : Answer),
    (passed.request.requestUri ::
      stack.hops args 20 passed.request.requestUri answers).getLast? = some uri →
    answers[(stack.hops args 20 passed.request.requestUri answers).length]? = some x →
    stack.Crosses uri → ¬stack.DeliversUnchecked args passed.policy
      (stack.hops args 20 passed.request.requestUri answers).length uri x

end Hops

section Marks

variable {stack : FilterStack} {args : RequestArgs}

/-- The properties hold arguments with these headers. -/
def ArgsOf (props : Properties) (args : RequestArgs) : Prop :=
  ∃ current, props.requestArgs = some current ∧ current.headers = args.headers

theorem onRedirecting_of_args (filter : OriginPolicyHttpFilter) {request : HttpRequestMessage}
    (hArgs : ArgsOf request.properties args) (location : Option Uri) :
    (filter.onRedirecting request location).1 = true ∧
      ArgsOf (filter.onRedirecting request location).2.2 args ∧
      (filter.onRedirecting request location).2.2.taintedOrigin =
        if isSameOrigin location (some request.requestUri) = false ∧
            isSameOrigin filter.origin (some request.requestUri) = false then some true
        else request.properties.taintedOrigin := by
  obtain ⟨current, hCurrent, hHeaders⟩ := hArgs
  rw [onRedirecting]
  split
  · rename_i hTaints
    rw [Bool.and_eq_true, Bool.not_eq_true', Bool.not_eq_true'] at hTaints
    rw [hCurrent, if_pos hTaints]
    exact ⟨rfl, ⟨current, hCurrent, hHeaders⟩, rfl⟩
  · rename_i hSame
    rw [Bool.and_eq_true, Bool.not_eq_true', Bool.not_eq_true'] at hSame
    rw [if_neg hSame]
    exact ⟨rfl, ⟨current, hCurrent, hHeaders⟩, rfl⟩

theorem sent_properties (filter : RedirectHttpFilter) (s : State) :
    (s.sent filter).properties = s.coRequest.properties := by
  rw [State.sent]
  split <;> rfl

theorem buildMessage_congr {resource : WinRTHttpResource} {current : RequestArgs}
    (h : current.headers = args.headers) (body : Option String → Body) :
    resource.buildMessage current body = resource.buildMessage args body := by
  rw [buildMessage, buildMessage, h]

variable {method : HttpMethod} {props : Properties}

theorem factory_of_args (stack : FilterStack) {uri : Uri} {x : Answer} (hArgs : ArgsOf props args) :
    (stack.factory method uri props x.body).gives = stack.creates args x ∧
      ∀ headers content, stack.factory method uri props x.body = .creates headers content →
        headers = messageHeaders args := by
  obtain ⟨current, hCurrent, hHeaders⟩ := hArgs
  rw [factory, createRequest, hCurrent, creates]
  simp only [buildMessage_congr hHeaders]
  cases hBuild : stack.resource.buildMessage args x.body with
  | error failure =>
    cases failure with
    | raised error | null message => exact ⟨rfl, fun _ _ h => by cases h⟩
  | ok message =>
    refine ⟨rfl, fun headers content h => ?_⟩
    obtain ⟨built, builtContent⟩ := message
    cases h
    exact buildMessage_headers hBuild

theorem factory_ne_expired {uri : Uri} {body : Option String → Body} :
    stack.factory method uri props body ≠ .expired := by
  rw [factory]
  split <;> simp

end Marks

section Steps

variable {stack : FilterStack} {args : RequestArgs} {s : State}

def ArgsIn (s : State) (args : RequestArgs) : Prop := ArgsOf s.coRequest.properties args

variable {x : Answer} {response : HttpResponseMessage}

theorem exchange_ok (h : x.answer = .ok response) :
    stack.exchange s x = ⟨.ok response,
      some (stack.eventSource (s.sent stack.redirectFilter) response),
      stack.factory s.method s.coRequest.requestUri
        (stack.eventSource (s.sent stack.redirectFilter) response).properties x.body⟩ := by
  rw [exchange, h]

theorem eventSource_of_args (stack : FilterStack) (hArgs : ArgsIn s args) (response : HttpResponseMessage) :
    (stack.eventSource (s.sent stack.redirectFilter) response).proceed = true ∧
      ArgsOf (stack.eventSource (s.sent stack.redirectFilter) response).properties args ∧
      (stack.eventSource (s.sent stack.redirectFilter) response).properties.taintedOrigin =
        if stack.Taints s.coRequest.requestUri response.location then some true
        else s.coRequest.properties.taintedOrigin := by
  have hSent : ArgsOf (s.sent stack.redirectFilter).properties args :=
    (sent_properties _ s).symm ▸ hArgs
  have hRedirecting :=
    onRedirecting_of_args stack.filter hSent response.location
  rw [State.sent_requestUri, sent_properties] at hRedirecting
  exact hRedirecting

/-- In the stack, where a round goes on depends on the answer, its URI and the arguments. -/
theorem exchange_redirectTo (hArgs : ArgsIn s args) (x : Answer) (uri : Uri) :
    (stack.exchange s x).redirectTo uri = stack.redirectTo args uri x := by
  cases hAnswer : x.answer with
  | error error =>
    rw [exchange, redirectTo, hAnswer]
    rfl
  | ok response =>
    obtain ⟨hProceed, hProperties, -⟩ := eventSource_of_args stack hArgs response
    have hGives : (stack.factory s.method s.coRequest.requestUri
        (stack.eventSource (s.sent stack.redirectFilter) response).properties x.body).gives =
          stack.creates args x :=
      (factory_of_args stack hProperties).1
    rw [exchange_ok hAnswer, redirectTo, hAnswer, Exchange.redirectTo, Exchange.proceeds]
    simp only [hProceed, hGives, Bool.and_true]

/-- The request that the factory makes has the headers of the arguments, whatever the event
source has put into the one before it. -/
theorem rebuilt_of_args {coRequest : HttpRequestMessage} (hArgs : ArgsIn s args)
    (hAnswer : x.answer = .ok response) (h : (stack.exchange s x).rebuilt s.method
      ((stack.exchange s x).marked (s.sent stack.redirectFilter)) = .ok coRequest) :
    coRequest.requestUri = s.coRequest.requestUri ∧ coRequest.headers = messageHeaders args ∧
      coRequest.properties =
        (stack.eventSource (s.sent stack.redirectFilter) response).properties := by
  obtain ⟨-, hProperties, -⟩ := eventSource_of_args stack hArgs response
  have hHeaders : ∀ headers content, stack.factory s.method s.coRequest.requestUri
      (stack.eventSource (s.sent stack.redirectFilter) response).properties x.body =
        .creates headers content → headers = messageHeaders args :=
    (factory_of_args stack hProperties).2
  rw [exchange_ok hAnswer, Exchange.rebuilt, Exchange.marked] at h
  split at h
  · rename_i hExpired
    exact absurd hExpired factory_ne_expired
  · cases h
  · cases h
  · rename_i headers content hCreates
    cases h
    exact ⟨State.sent_requestUri _ _, hHeaders headers content hCreates, rfl⟩

/-- All that a followed round of the stack does. -/
theorem step_inr {next : State} (hArgs : ArgsIn s args) (h : stack.step true s x = .inr next) :
    ∃ response redirectUri, x.answer = .ok response ∧
      stack.redirectTo args s.coRequest.requestUri x = some redirectUri ∧
      response.location = some redirectUri ∧ s.redirectCount + 1 ≤ 20 ∧
      next.redirectCount = s.redirectCount + 1 ∧ next.coRequest.requestUri = redirectUri ∧
      next.coRequest.headers = messageHeaders args ∧ ArgsIn next args ∧
      next.coRequest.properties.taintedOrigin =
        if stack.Taints s.coRequest.requestUri response.location then some true
        else s.coRequest.properties.taintedOrigin := by
  obtain ⟨response, redirectUri, coRequest, hAnswer, hTo, hCount, hRebuilt, rfl⟩ :=
    round_inr_next h
  have hReceived : x.answer = .ok response := by
    rw [exchange] at hAnswer
    split at hAnswer
    · cases hAnswer
    · rename_i received hReceived
      cases hAnswer
      exact hReceived
  obtain ⟨other, hOther, -, -, -, hLocation, -⟩ := Exchange.redirectTo_eq_some.mp hTo
  rw [hAnswer, Except.ok.injEq] at hOther
  rw [exchange_redirectTo hArgs] at hTo
  obtain ⟨-, hProperties, hTainted⟩ := eventSource_of_args stack hArgs response
  obtain ⟨-, hHeaders, hSame⟩ := rebuilt_of_args hArgs hReceived hRebuilt
  refine ⟨response, redirectUri, hReceived, hTo, hOther ▸ hLocation, hCount, rfl, rfl, hHeaders,
    ?_, ?_⟩
  · rw [ArgsIn, hSame]
    exact hProperties
  · rw [hSame, hTainted]

theorem exists_step_inr {redirectUri : Uri} (hArgs : ArgsIn s args)
    (hTo : stack.redirectTo args s.coRequest.requestUri x = some redirectUri)
    (hCount : s.redirectCount + 1 ≤ 20) : ∃ next, stack.step true s x = .inr next := by
  rw [← exchange_redirectTo hArgs] at hTo
  exact exists_round_inr stack.redirectFilter hTo hCount

theorem succ_le_limit {count : UInt64} {k : Nat} (h : count.toNat = k) (hLimit : k ≤ 20) :
    count + 1 ≤ 20 ↔ k < 20 := by
  rw [UInt64.le_iff_toNat_le, toNat_succ h (by omega)]
  exact Iff.rfl

theorem step_returned {message : HttpRequestMessage} {k : Nat} (hArgs : ArgsIn s args)
    (hCount : s.redirectCount.toNat = k) (hLimit : k ≤ 20)
    (h : stack.step true s x = .inl (.returned response message)) :
    x.answer = .ok response ∧
      stack.returned args k s.coRequest.requestUri x = some response ∧
      ArgsOf message.properties args ∧
      message.properties.taintedOrigin =
        if isRedirect response.statusCode = true ∧
            stack.Taints s.coRequest.requestUri response.location then some true
        else s.coRequest.properties.taintedOrigin := by
  obtain ⟨hAnswer, hCases⟩ := round_returned_iff.mp h
  have hReceived : x.answer = .ok response := by
    rw [exchange] at hAnswer
    split at hAnswer
    · cases hAnswer
    · rename_i received hReceived
      cases hAnswer
      exact hReceived
  obtain ⟨hProceed, hProperties, hTainted⟩ :=
    eventSource_of_args stack hArgs response
  refine ⟨hReceived, ?_⟩
  rw [returned, hReceived]
  rcases hCases with ⟨hStatus, rfl⟩ | ⟨hStatus, hLe, ⟨hStopped, -⟩ | ⟨-, hRebuilt, hUri⟩⟩
  · rw [sent_properties]
    exact ⟨by simp [hStatus], hArgs, by simp [hStatus]⟩
  · rw [exchange_ok hReceived] at hStopped
    exact absurd (hProceed.symm.trans hStopped) (by decide)
  · obtain ⟨redirectUri, hLocation, hFollow⟩ := hUri
    have hCreates : stack.creates args x = true := by
      have hGives := (Exchange.rebuilt_ok hRebuilt).1
      rw [exchange_ok hReceived] at hGives
      rw [← (factory_of_args stack hProperties).1]
      exact hGives
    obtain ⟨hSame, -, hMessage⟩ := rebuilt_of_args hArgs hReceived hRebuilt
    rw [hSame] at hFollow
    have hLt := (succ_le_limit hCount hLimit).mp hLe
    refine ⟨by simp [hStatus, hCreates, hLocation, hFollow, hLt], hMessage ▸ hProperties, ?_⟩
    rw [hMessage, hTainted]
    simp [hStatus]

theorem exists_step_returned {k : Nat} (hArgs : ArgsIn s args) (hCount : s.redirectCount.toNat = k)
    (hLimit : k ≤ 20) (h : stack.returned args k s.coRequest.requestUri x = some response) :
    ∃ message, stack.step true s x = .inl (.returned response message) := by
  rw [returned] at h
  cases hReceived : x.answer with
  | error error =>
    rw [hReceived] at h
    cases h
  | ok received =>
    simp only [hReceived] at h
    obtain ⟨hProceed, hProperties, -⟩ := eventSource_of_args stack hArgs received
    cases hStatus : isRedirect received.statusCode with
    | false =>
      rw [hStatus] at h
      cases h
      exact ⟨_, round_returned_iff.mpr
        ⟨by rw [exchange_ok hReceived], .inl ⟨hStatus, rfl⟩⟩⟩
    | true =>
      simp only [hStatus, Bool.not_true, Bool.false_eq_true, if_false] at h
      split at h
      · rename_i hEnds
        cases h
        simp only [Bool.and_eq_true, decide_eq_true_eq] at hEnds
        obtain ⟨⟨hLt, hCreates⟩, hLocation⟩ := hEnds
        obtain ⟨redirectUri, hUri, hFollow⟩ := (Option.any_eq_true ..).mp hLocation
        rw [Bool.not_eq_true'] at hFollow
        have hGives : (stack.exchange s x).factory.gives = true := by
          rw [exchange_ok hReceived]
          exact (factory_of_args stack hProperties).1.trans hCreates
        obtain ⟨coRequest, hRebuilt⟩ := Exchange.rebuilt_of_gives hGives s.method
          ((stack.exchange s x).marked (s.sent stack.redirectFilter))
        have hSame := (rebuilt_of_args hArgs hReceived hRebuilt).1
        refine ⟨coRequest, round_returned_iff.mpr
          ⟨by rw [exchange_ok hReceived], .inr ⟨hStatus, ?_, .inr ⟨?_, hRebuilt, _, hUri, ?_⟩⟩⟩⟩
        · exact (succ_le_limit hCount hLimit).mpr hLt
        · rw [exchange_ok hReceived]
          exact hProceed
        · rw [hSame]
          exact hFollow
      · cases h

end Steps

section Runs

variable {stack : FilterStack} {args : RequestArgs} {passed : Passed} {answers : List Answer}

/-- A request of the chain: how many redirects it comes after, and that all but the first are
built from the arguments. -/
structure RequestAt (args : RequestArgs) (k : Nat) (s : State) : Prop where
  count : s.redirectCount.toNat = k
  limit : k ≤ 20
  argsIn : ArgsIn s args
  headers : k ≠ 0 → s.coRequest.headers = messageHeaders args

variable {k : Nat} {s : State}

theorem requestAt_next {next : State} {x : Answer} (hAt : RequestAt args k s)
    (h : stack.step true s x = .inr next) : RequestAt args (k + 1) next := by
  obtain ⟨-, -, -, -, -, hLe, hCount, -, hHeaders, hArgs, -⟩ := step_inr hAt.argsIn h
  have hLt := (succ_le_limit hAt.count hAt.limit).mp hLe
  have hFits : k + 1 < 2 ^ 64 := by omega
  exact ⟨by rw [hCount, toNat_succ hAt.count hFits], hLt, hArgs, fun _ => hHeaders⟩

theorem requestAt_initial (hArgs : ArgsOf passed.request.properties args) :
    RequestAt args 0 (.initial passed.request) :=
  ⟨rfl, Nat.zero_le _, hArgs, fun hNe => absurd rfl hNe⟩

theorem requestAt_of_requests (hArgs : ArgsOf passed.request.properties args)
    (h : (stack.requests true passed answers)[k]? = some s) : RequestAt args k s :=
  rounds_invariant (P := fun k s => RequestAt args k s) (requestAt_initial hArgs)
    (fun _ _ _ _ _ hAt => requestAt_next hAt) h

/-- The URIs of the requests from some round on are those of the followed redirects. -/
theorem rounds_uris {count : Nat} (hAt : RequestAt args k s) (hLeft : k + count = 20) :
    (rounds (stack.step true) s answers).map (fun s => s.coRequest.requestUri) =
      s.coRequest.requestUri :: stack.hops args count s.coRequest.requestUri answers := by
  induction answers generalizing s k count with
  | nil =>
    cases count <;> rfl
  | cons x answers ih =>
    cases hStep : stack.step true s x with
    | inl result =>
      rw [rounds_cons_inl hStep]
      cases count with
      | zero => rfl
      | succ count =>
        cases hTo : stack.redirectTo args s.coRequest.requestUri x with
        | none => simp [hops, hTo]
        | some redirectUri =>
          obtain ⟨next, hNext⟩ := exists_step_inr hAt.argsIn hTo
            ((succ_le_limit hAt.count hAt.limit).mpr (by omega))
          rw [hStep] at hNext
          cases hNext
    | inr next =>
      obtain ⟨-, redirectUri, -, hTo, -, hLe, -, hUri, -⟩ := step_inr hAt.argsIn hStep
      have hLt := (succ_le_limit hAt.count hAt.limit).mp hLe
      obtain ⟨count, rfl⟩ : ∃ left, count = left + 1 := ⟨count - 1, by omega⟩
      have hRest := ih (requestAt_next hAt hStep) (show k + 1 + count = 20 by omega)
      rw [rounds_cons_inr hStep, List.map_cons, hRest, hUri, hops, hTo]

variable (hArgs : ArgsOf passed.request.properties args)
include hArgs

theorem requests_uris :
    (stack.requests true passed answers).map (fun s => s.coRequest.requestUri) =
      passed.request.requestUri ::
        stack.hops args 20 passed.request.requestUri answers :=
  rounds_uris (requestAt_initial hArgs) rfl

theorem requests_length :
    (stack.requests true passed answers).length =
      (stack.hops args 20 passed.request.requestUri answers).length + 1 := by
  rw [← List.length_map fun s : State => s.coRequest.requestUri, requests_uris hArgs,
    List.length_cons]

theorem uri_of_request (h : (stack.requests true passed answers)[k]? = some s) :
    (passed.request.requestUri ::
      stack.hops args 20 passed.request.requestUri answers)[k]? =
        some s.coRequest.requestUri := by
  rw [← requests_uris hArgs, List.getElem?_map, h, Option.map_some]

theorem request_of_uri {uri : Uri} (h : (passed.request.requestUri ::
      stack.hops args 20 passed.request.requestUri answers)[k]? = some uri) :
    ∃ s, (stack.requests true passed answers)[k]? = some s ∧ s.coRequest.requestUri = uri := by
  rw [← requests_uris hArgs, List.getElem?_map] at h
  exact Option.map_eq_some_iff.mp h

theorem request_of_hop {uri : Uri} (h : uri ∈ stack.hops args 20 passed.request.requestUri answers) :
    ∃ k s, (stack.requests true passed answers)[k + 1]? = some s ∧ s.coRequest.requestUri = uri := by
  obtain ⟨k, hk⟩ := List.mem_iff_getElem?.mp h
  obtain ⟨s, hState, hUri⟩ := request_of_uri (k := k + 1) hArgs
    (by rw [List.getElem?_cons_succ, hk])
  exact ⟨k, s, hState, hUri⟩

theorem hop_of_request (h : (stack.requests true passed answers)[k + 1]? = some s) :
    s.coRequest.requestUri ∈ stack.hops args 20 passed.request.requestUri answers := by
  have hUri := uri_of_request hArgs h
  rw [List.getElem?_cons_succ] at hUri
  exact List.mem_iff_getElem?.mpr ⟨k, hUri⟩

omit hArgs

/-- The default `User-Agent` is no other header. -/
theorem sent_hasKey {name : String} (hName : iequals "User-Agent" name = false) (s : State) :
    (s.sent stack.redirectFilter).headers.hasKey name = s.coRequest.headers.hasKey name := by
  rw [State.sent]
  split
  · rfl
  · simp [Headers.hasKey, Headers.append, hName]

theorem sent_hasHeader {name value : String} (hName : iequals "User-Agent" name = false)
    (s : State) : HasHeader (s.sent stack.redirectFilter).headers name value ↔
      HasHeader s.coRequest.headers name value := by
  rw [State.sent]
  split
  · rfl
  · simp [HasHeader, Headers.append, or_and_right, exists_or, hName]

/-- A tainted request stays tainted. -/
theorem tainted_stays {d : Nat} {later : State} (hArgs : ArgsOf passed.request.properties args)
    (hState : (stack.requests true passed answers)[k]? = some s)
    (hLater : (stack.requests true passed answers)[k + d]? = some later)
    (hTainted : s.coRequest.properties.taintedOrigin = some true) :
    later.coRequest.properties.taintedOrigin = some true := by
  refine (rounds_stays (Q := fun s => ArgsIn s args ∧
    s.coRequest.properties.taintedOrigin = some true) ?_ hState hLater
      ⟨(requestAt_of_requests hArgs hState).argsIn, hTainted⟩).2
  intro before x after hBefore hStep
  obtain ⟨response, redirectUri, -, -, -, -, -, -, -, hNextArgs, hNext⟩ :=
    step_inr hBefore.1 hStep
  refine ⟨hNextArgs, ?_⟩
  rw [hNext, hBefore.2, ite_self]

theorem tainted_after {before after : State} {x : Answer} {response : HttpResponseMessage}
    (hArgs : ArgsOf passed.request.properties args)
    (hBefore : (stack.requests true passed answers)[k]? = some before)
    (hAfter : (stack.requests true passed answers)[k + 1]? = some after) (hAnswer : answers[k]? = some x)
    (hOk : x.answer = .ok response)
    (hTaints : stack.Taints before.coRequest.requestUri response.location) :
    response.location = some after.coRequest.requestUri ∧
      after.coRequest.properties.taintedOrigin = some true := by
  obtain ⟨y, hSame, hStep⟩ := rounds_next hBefore hAfter
  rw [hAnswer, Option.some.injEq] at hSame
  obtain ⟨received, redirectUri, hReceived, -, hLocation, -, -, hUri, -, -, hTainted⟩ :=
    step_inr (requestAt_of_requests hArgs hBefore).argsIn hStep
  rw [← hSame, hOk, Except.ok.injEq] at hReceived
  rw [← hReceived] at hLocation hTainted
  exact ⟨hLocation.trans (congrArg some hUri.symm), by rw [hTainted, if_pos hTaints]⟩

end Runs

section Passing

variable {stack : FilterStack} {args : RequestArgs}

variable {options : RuntimeOptions} {request : HttpRequestMessage} {policy : OriginPolicy}

/-- Requests of the filter's own origin are the ones that count as `SameOrigin`. -/
theorem validateRequest_ok {filter : OriginPolicyHttpFilter}
    (hPolicy : request.properties.originPolicy ≠ some 0)
    (h : filter.validateRequest options request = .ok policy) :
    (policy = .sameOrigin ∧ isSameOrigin filter.origin (some request.requestUri) = true) ∨
      policy = .simpleCrossOriginResourceSharing ∨ policy = .crossOriginResourceSharing := by
  simp only [validateRequest, bind, Except.bind, pure, Except.pure, invalidArg] at h
  split at h
  · cases h
  · rename_i hNone
    exact absurd hNone hPolicy
  · split at h
    · cases h
    · rename_i hSame
      cases h
      exact .inl ⟨rfl, by simpa using hSame⟩
  · repeat' split at h
    all_goals first
      | (cases h; exact .inr (.inl rfl))
      | (rename_i hSame; cases h; exact .inl ⟨rfl, hSame⟩)
      | cases h
  · repeat' split at h
    all_goals first
      | (cases h; exact .inr (.inl rfl))
      | (cases h; exact .inr (.inr rfl))
      | (rename_i hSame; cases h; exact .inl ⟨rfl, hSame⟩)
      | cases h
  · cases h

theorem isSameOrigin_displayUri (origin : Option Uri) (uri : Uri) :
    isSameOrigin origin (some uri.displayUri) = isSameOrigin origin (some uri) := by
  cases origin <;> rfl

theorem setProperties_ok {props set : Properties} (hArgs : ArgsOf props args)
    (h : setProperties options props = .ok set) :
    ArgsOf set args ∧ set.originPolicy = some options.originPolicy := by
  obtain ⟨current, hCurrent, hHeaders⟩ := hArgs
  rw [setProperties] at h
  split at h
  · rw [lookupRequestArgs, hCurrent] at h
    cases h
    exact ⟨⟨_, rfl, hHeaders⟩, rfl⟩
  · cases h
    exact ⟨⟨current, hCurrent, hHeaders⟩, rfl⟩

theorem isSameOrigin_stripUser (origin : Option Uri) (policy : OriginPolicy) (uri : Uri) :
    isSameOrigin origin (some (stripUser policy uri)) = isSameOrigin origin (some uri) := by
  rw [stripUser]
  split
  · exact isSameOrigin_displayUri origin uri
  · rfl

/-- The request after `ValidateRequest` has its arguments, and a policy that fits. -/
theorem prepareRequest_ok {prepared : HttpRequestMessage} (hArgs : ArgsOf request.properties args)
    (h : stack.filter.prepareRequest stack.options request = .ok (prepared, policy)) :
    ArgsOf prepared.properties args ∧
      ((policy = .sameOrigin ∧ ¬stack.Crosses prepared.requestUri) ∨
        policy = .simpleCrossOriginResourceSharing ∨ policy = .crossOriginResourceSharing) := by
  simp only [prepareRequest, bind, Except.bind, pure, Except.pure] at h
  split at h
  · cases h
  split at h
  · cases h
  rename_i props hProps
  obtain ⟨hSetArgs, hSetPolicy⟩ := setProperties_ok hArgs hProps
  split at h
  · cases h
  rename_i valid hValid
  cases h
  refine ⟨hSetArgs, ?_⟩
  have hPolicy : props.originPolicy ≠ some 0 := by
    rw [hSetPolicy, ne_eq, Option.some.injEq]
    exact stack.hasPolicy
  rcases validateRequest_ok hPolicy hValid with ⟨hSame, hOrigin⟩ | hCross
  · refine .inl ⟨hSame, ?_⟩
    rw [Crosses, isSameOrigin_stripUser, hOrigin]
    decide
  · exact .inr hCross

theorem insertOrigin_ok {inserted : HttpRequestMessage}
    (hPolicy : policy = .simpleCrossOriginResourceSharing ∨ policy = .crossOriginResourceSharing)
    (h : stack.filter.insertOrigin request policy = .ok inserted) :
    inserted.properties = request.properties ∧ inserted.headers.hasKey "Origin" = true := by
  rw [insertOrigin, if_pos hPolicy] at h
  split at h
  · cases h
  · cases h
    refine ⟨rfl, ?_⟩
    rw [Headers.hasKey, Headers.insert, List.any_append]
    exact Bool.or_eq_true_iff.mpr (.inr (by simp [iequals]))

/-- What the inner filter gets: the arguments, and the `Origin` header where it is needed. -/
theorem pass_ok {answers rest : List Answer} {passed : Passed}
    (hArgs : ArgsOf request.properties args)
    (h : stack.pass request answers = some (.ok (passed, rest))) :
    ArgsOf passed.request.properties args ∧
      (stack.Crosses passed.request.requestUri →
        passed.request.headers.hasKey "Origin" = true) := by
  rw [pass] at h
  split at h
  · cases h
  rename_i prepared policy hPrepared
  obtain ⟨hPreparedArgs, hPolicy⟩ := prepareRequest_ok hArgs hPrepared
  obtain ⟨result, -, hResult⟩ := Option.map_eq_some_iff.mp h
  simp only [bind, Except.bind, pure, Except.pure] at hResult
  split at hResult
  · cases hResult
  split at hResult
  · cases hResult
  rename_i inserted hInserted
  cases hResult
  rcases hPolicy with ⟨rfl, hSame⟩ | hCross
  · cases hInserted
    exact ⟨hPreparedArgs, fun hCrosses => absurd hCrosses hSame⟩
  · obtain ⟨hProperties, hKey⟩ := insertOrigin_ok hCross hInserted
    exact ⟨hProperties ▸ hPreparedArgs, fun _ => hKey⟩

theorem sentRequest_ok {method : HttpMethod} {uri : Uri} {body : Option String → Body}
    {answers rest : List Answer} {passed : Passed}
    (h : stack.sentRequest method uri args body answers = some (passed, rest)) :
    ArgsOf passed.request.properties args ∧
      (stack.Crosses passed.request.requestUri →
        passed.request.headers.hasKey "Origin" = true) := by
  rw [sentRequest] at h
  split at h
  · cases h
  rename_i request hCreate
  have hArgs : ArgsOf request.properties args :=
    (createRequest_ok hCreate).2.2.1 ▸ ⟨args, rfl, rfl⟩
  split at h
  · rename_i sent hPass
    cases h
    exact pass_ok hArgs hPass
  · cases h

end Passing

section Responses

variable {stack : FilterStack} {args : RequestArgs} {passed : Passed} {answers : List Answer}

variable {response delivered : HttpResponseMessage} {props : Properties} {policy : OriginPolicy}

theorem validateResponse_checked (hChecks : checksAllowOrigin stack.options policy = true)
    (h : stack.filter.validateResponse stack.platform stack.options response props policy =
      .ok delivered) :
    stack.filter.validateAllowOrigin stack.platform
      (extractAccessControlValues response.headers).allowedOrigin
      (extractAccessControlValues response.headers).allowedCredentials props = .ok () := by
  have hCross : policy = .simpleCrossOriginResourceSharing ∨
      policy = .crossOriginResourceSharing := by
    cases policy <;> simp [checksAllowOrigin] at hChecks ⊢
  simp only [validateResponse, if_pos hCross, hChecks, if_true, bind, Except.bind] at h
  split at h
  · cases h
  split at h
  · cases h
  · rename_i hAllow
    exact hAllow

theorem validateResponse_unchecked (hChecks : checksAllowOrigin stack.options policy = false)
    (hArgs : ArgsOf props args) :
    (∃ delivered, stack.filter.validateResponse stack.platform stack.options response props
        policy = .ok delivered) ↔
      (policy = .simpleCrossOriginResourceSharing →
        strictOriginAllowed stack.platform response.headers = .ok true) := by
  obtain ⟨current, hCurrent, -⟩ := hArgs
  cases policy with
  | none | sameOrigin => exact iff_of_true ⟨_, rfl⟩ (by simp)
  | crossOriginResourceSharing => cases hChecks
  | simpleCrossOriginResourceSharing =>
    simp only [validateResponse, true_or, if_true, lookupRequestArgs, hCurrent, hChecks,
      Bool.false_eq_true, if_false, bind, Except.bind, pure, Except.pure]
    cases hStrict : strictOriginAllowed stack.platform response.headers with
    | error failure => simp
    | ok allowed => cases allowed <;> simp [invalidArg]

theorem deliver_ok (h : stack.deliver true passed answers = some (.ok delivered)) :
    ∃ response message, outcome (stack.step true) (.initial passed.request) answers =
        some (.returned response message) ∧
      stack.filter.validateResponse stack.platform stack.options response message.properties
        passed.policy = .ok delivered := by
  obtain ⟨result, hOutcome, hResult⟩ := Option.map_eq_some_iff.mp h
  cases result with
  | returned response message => exact ⟨response, message, hOutcome, hResult⟩
  | thrown error | crashed => cases hResult

end Responses

section Protection

variable {stack : FilterStack} {args : RequestArgs} {passed : Passed} {answers : List Answer}

theorem harmless_of_protects (hArgs : ArgsOf passed.request.properties args)
    (h : ProtectsOrigin stack passed answers) : HopsHarmless stack args passed answers := by
  refine ⟨?_, ?_, ?_, ?_⟩
  · intro k uri redirectUri hUri hNext hTaints
    obtain ⟨before, hBefore, rfl⟩ := request_of_uri hArgs hUri
    obtain ⟨after, hAfter, rfl⟩ := request_of_uri (k := k + 1) hArgs
      (by rw [List.getElem?_cons_succ, hNext])
    obtain ⟨x, hAnswer, hStep⟩ := rounds_next hBefore hAfter
    obtain ⟨response, redirectUri, hOk, -, hLocation, -, -, hSame, hHeaders, -⟩ :=
      step_inr (requestAt_of_requests hArgs hBefore).argsIn hStep
    have hSent := (h.taintedHeader k 0 before after x response hBefore hAfter hAnswer hOk
      (by rw [hLocation, ← hSame]; exact hTaints)).1
    rw [sent_hasHeader (by decide), hHeaders] at hSent
    exact hSent
  · intro uri hMem hCrosses
    obtain ⟨k, s, hState, rfl⟩ := request_of_hop hArgs hMem
    have hKey := h.originHeader (k + 1) s hState hCrosses
    rwa [sent_hasKey (by decide),
      (requestAt_of_requests hArgs hState).headers (Nat.succ_ne_zero k)] at hKey
  · intro uri hMem hCrosses
    obtain ⟨k, s, hState, rfl⟩ := request_of_hop hArgs hMem
    have hKey := h.noAuthorization k s hState hCrosses
    rwa [sent_hasKey (by decide),
      (requestAt_of_requests hArgs hState).headers (Nat.succ_ne_zero k)] at hKey
  · rintro uri x hLast hAnswer hCrosses ⟨hUnchecked, response, hReturned, hStrict⟩
    have hLength : (stack.requests true passed answers).length =
      (stack.hops args 20 passed.request.requestUri answers).length + 1 :=
    requests_length hArgs
    rw [List.getLast?_eq_getElem?, List.length_cons, Nat.add_sub_cancel] at hLast
    obtain ⟨s, hState, rfl⟩ := request_of_uri hArgs hLast
    have hAt := requestAt_of_requests hArgs hState
    obtain ⟨message, hStep⟩ := exists_step_returned hAt.argsIn hAt.count hAt.limit hReturned
    have hMessage := (step_returned hAt.argsIn hAt.count hAt.limit hStep).2.2.1
    have hOutcome := (outcome_of_last hState hAnswer hStep).1
    obtain ⟨delivered, hDelivered⟩ :=
      (validateResponse_unchecked hUnchecked hMessage).mpr hStrict
    have hChecked := (h.checked _ s delivered hLength hState hCrosses
      (by rw [deliver, hOutcome, Option.map_some]; exact congrArg some hDelivered)).1
    rw [hUnchecked] at hChecked
    cases hChecked

theorem protects_of_harmless (hArgs : ArgsOf passed.request.properties args)
    (hFirst : stack.Crosses passed.request.requestUri →
      passed.request.headers.hasKey "Origin" = true)
    (h : HopsHarmless stack args passed answers) : ProtectsOrigin stack passed answers := by
  refine ⟨?_, ?_, ?_, ?_, ?_⟩
  · intro k d before after x response hBefore hAfter hAnswer hOk hTaints
    have hLength := (List.getElem?_eq_some_iff.mp hAfter).1
    obtain ⟨next, hNext⟩ : ∃ next, (stack.requests true passed answers)[k + 1]? = some next :=
      ⟨_, List.getElem?_eq_getElem (by omega)⟩
    obtain ⟨hLocation, hTainted⟩ := tainted_after hArgs hBefore hNext hAnswer hOk hTaints
    have hUri := uri_of_request hArgs hNext
    rw [List.getElem?_cons_succ] at hUri
    have hHeader := h.taints k _ _ (uri_of_request hArgs hBefore) hUri (hLocation ▸ hTaints)
    have hHeaders := (requestAt_of_requests hArgs hAfter).headers (by omega)
    constructor
    · rw [sent_hasHeader (by decide), hHeaders]
      exact hHeader
    · rw [sent_properties]
      exact tainted_stays hArgs hNext hAfter hTainted
  · intro k before x response returned message hBefore hAnswer hOk hStatus hTaints hOutcome
    obtain ⟨last, s, y, hLength, hState, hLast, hStep⟩ := outcome_last hOutcome
    have hAt := requestAt_of_requests hArgs hState
    obtain ⟨hReceived, -, -, hTainted⟩ := step_returned hAt.argsIn hAt.count hAt.limit hStep
    have hBound := (List.getElem?_eq_some_iff.mp hBefore).1
    rw [requests, hLength] at hBound
    rcases Nat.lt_or_ge k last with hLt | hGe
    · obtain ⟨next, hNext⟩ : ∃ next, (stack.requests true passed answers)[k + 1]? = some next :=
        ⟨_, List.getElem?_eq_getElem (by rw [requests, hLength]; omega)⟩
      have hNextTainted := (tainted_after hArgs hBefore hNext hAnswer hOk hTaints).2
      obtain ⟨d, rfl⟩ := Nat.exists_eq_add_of_lt hLt
      have hStays := tainted_stays hArgs hNext
        (show (stack.requests true passed answers)[k + 1 + d]? = some s by
          rw [show k + 1 + d = k + d + 1 by omega]; exact hState) hNextTainted
      rw [hTainted, hStays, ite_self]
    · obtain rfl : k = last := by omega
      rw [requests, hState, Option.some.injEq] at hBefore
      rw [hAnswer, Option.some.injEq] at hLast
      rw [← hLast, hOk, Except.ok.injEq] at hReceived
      rw [hTainted, if_pos ⟨hReceived ▸ hStatus, hBefore ▸ hReceived ▸ hTaints⟩]
  · intro k s hState hCrosses
    rw [sent_hasKey (by decide)]
    cases k with
    | zero =>
      rw [requests, rounds_head, Option.some.injEq] at hState
      rw [← hState] at hCrosses ⊢
      exact hFirst hCrosses
    | succ k =>
      rw [(requestAt_of_requests hArgs hState).headers (Nat.succ_ne_zero k)]
      exact h.origin _ (hop_of_request hArgs hState) hCrosses
  · intro k s hState hCrosses
    rw [sent_hasKey (by decide),
      (requestAt_of_requests hArgs hState).headers (Nat.succ_ne_zero k)]
    exact h.authorization _ (hop_of_request hArgs hState) hCrosses
  · intro k s delivered hLength hState hCrosses hDelivered
    obtain ⟨response, message, hOutcome, hValid⟩ := deliver_ok hDelivered
    obtain ⟨last, state, x, hLast, hLastState, hAnswer, hStep⟩ := outcome_last hOutcome
    obtain rfl : k = last := by
      rw [requests, hLast] at hLength
      omega
    rw [requests, hLastState, Option.some.injEq] at hState
    rw [← hState] at hCrosses
    have hAt := requestAt_of_requests hArgs hLastState
    obtain ⟨-, hReturned, hMessage, -⟩ :=
      step_returned hAt.argsIn hAt.count hAt.limit hStep
    have hCount : (stack.hops args 20 passed.request.requestUri answers).length = k := by
      rw [requests_length hArgs] at hLength
      omega
    have hChecks : checksAllowOrigin stack.options passed.policy = true := by
      cases hUnchecked : checksAllowOrigin stack.options passed.policy with
      | true => rfl
      | false =>
        have hLastUri : (passed.request.requestUri ::
            stack.hops args 20 passed.request.requestUri answers).getLast? =
              some state.coRequest.requestUri := by
          rw [List.getLast?_eq_getElem?, List.length_cons, Nat.add_sub_cancel, hCount]
          exact uri_of_request hArgs hLastState
        have hStrict := (validateResponse_unchecked hUnchecked hMessage).mp ⟨delivered, hValid⟩
        have hDelivers : stack.DeliversUnchecked args passed.policy
            (stack.hops args 20 passed.request.requestUri answers).length
            state.coRequest.requestUri x :=
          ⟨hUnchecked, response, hCount ▸ hReturned, hStrict⟩
        exact absurd hDelivers (h.checked _ x hLastUri (hCount ▸ hAnswer) hCrosses)
    exact ⟨hChecks, response, message, hOutcome, validateResponse_checked hChecks hValid⟩

/-- The request that `SendRequest` sends through the filters is protected over its chain. -/
def Protected (stack : FilterStack) (method : HttpMethod) (uri : Uri) (args : RequestArgs)
    (body : Option String → Body) (answers : List Answer) : Prop :=
  ∀ passed rest, stack.sentRequest method uri args body answers = some (passed, rest) →
    ProtectsOrigin stack passed rest

/-- For every request and chain of answers: the protection of the origin holds exactly when
no followed redirect needs what the rebuilt request does not have. -/
theorem protected_iff (stack : FilterStack) (method : HttpMethod) (uri : Uri)
    (args : RequestArgs) (body : Option String → Body) (answers : List Answer) :
    stack.Protected method uri args body answers ↔
      ∀ passed rest, stack.sentRequest method uri args body answers = some (passed, rest) →
        HopsHarmless stack args passed rest := by
  constructor
  · intro h passed rest hSent
    exact harmless_of_protects (sentRequest_ok hSent).1 (h passed rest hSent)
  · intro h passed rest hSent
    obtain ⟨hArgs, hFirst⟩ := sentRequest_ok hSent
    exact protects_of_harmless hArgs hFirst (h passed rest hSent)

/-- A GET to another origin that is redirected to a third one is sent there without an
`Origin` header. -/
theorem redirect_loses_origin : ¬Protected
    ⟨⟨some ⟨"http", "a.example", 80, "", "", "/"⟩⟩, "",
      ⟨some, fun _ _ => true, fun _ _ => none, fun _ => true, fun _ => .ok 0⟩,
      ⟨3, false, false, false, false, false⟩,
      ⟨fun _ => none, fun _ => none, fun _ => false, fun _ => false⟩, by decide⟩
    ⟨"GET", 9⟩ ⟨"http", "b.example", 80, "", "", "/"⟩ ⟨1, [], "", false⟩ (fun _ => .ok none)
    [⟨.ok ⟨.Found, some ⟨"http", "c.example", 80, "", "", "/"⟩, []⟩, fun _ => .ok none⟩] := by
  intro h
  have hKey := (h _ _ rfl).originHeader 1 _ rfl (by decide)
  exact absurd hKey (by decide)

end Protection

end Networking.FilterStack
