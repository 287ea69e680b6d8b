import ReactNativeWindows.Networking.RedirectHttpFilter

/-! Which requests a run of `RedirectHttpFilter::SendRequestAsync` sends. -/
namespace Networking.RedirectHttpFilter

open Control

/-- The rule in the comment of the loop: 307 and 308 keep all verbs, otherwise POST
becomes GET and the other verbs stay. -/
def redirectedVerb (status : HttpStatusCode) (verb : String) : String :=
  if keepsVerb status then verb else if verb = "POST" then "GET" else verb

structure FollowsRedirects (filter : RedirectHttpFilter) (request : HttpRequestMessage)
    (chain : List Exchange) : Prop where
  bounded : (filter.requests true request chain).length ≤ filter.maximumRedirects.toNat + 1
  verbs : ∀ (k : Nat) (before after : State) (x : Exchange) (response : HttpResponseMessage),
    (filter.requests true request chain)[k]? = some before →
    (filter.requests true request chain)[k + 1]? = some after →
    chain[k]? = some x → x.answer = .ok response →
    (after.sent filter).method.text =
      redirectedVerb response.statusCode (before.sent filter).method.text
  noDowngrade : ∀ (k d : Nat) (before after : State),
    (filter.requests true request chain)[k]? = some before →
    (filter.requests true request chain)[k + d]? = some after →
    (before.sent filter).requestUri.schemeName = "https" →
    (after.sent filter).requestUri.schemeName ≠ "http"
  credentials : ∀ k s, (filter.requests true request chain)[k + 1]? = some s →
    s.withNoCredentials = true
  lastResponse : ∀ response message,
    filter.sendRequestAsync true request chain = some (.returned response message) →
    ∃ k x, (filter.requests true request chain).length = k + 1 ∧ chain[k]? = some x ∧
      x.answer = .ok response

section Redirects

/-- Whether `CreateRequest` gives a request, or is not called. -/
def Factory.gives : Factory → Bool
  | expired | creates _ _ => true
  | raises _ | null => false

/-- Whether the next request is a new one from the factory. -/
def Exchange.rebuilds (x : Exchange) : Bool :=
  match x.factory with
  | .creates _ _ => true
  | .expired | .raises _ | .null => false

def Exchange.statusCode (x : Exchange) : HttpStatusCode :=
  match x.answer with
  | .ok response => response.statusCode
  | .error _ => 0

def Exchange.keepsVerb (x : Exchange) : Bool := RedirectHttpFilter.keepsVerb x.statusCode

/-- Where an answer to a request for `uri` redirects to, the number of redirects aside. -/
def Exchange.redirectTo (x : Exchange) (uri : Uri) : Option Uri :=
  match x.answer with
  | .ok response =>
    if isRedirect response.statusCode && x.proceeds && x.factory.gives then
      response.location.filter (followable uri)
    else none
  | .error _ => none

/-- The redirects from `uri` on, up to the first response that is not followed. -/
def redirectsFrom : Uri → List Exchange → List Exchange
  | _, [] => []
  | uri, x :: chain =>
    match x.redirectTo uri with
    | none => []
    | some redirectUri => x :: redirectsFrom redirectUri chain

variable {x : Exchange}

theorem redirectsFrom_cons_none {uri : Uri} (h : x.redirectTo uri = none) (chain : List Exchange) :
    redirectsFrom uri (x :: chain) = [] := by
  rw [redirectsFrom, h]

theorem redirectsFrom_cons_some {uri redirectUri : Uri} (h : x.redirectTo uri = some redirectUri)
    (chain : List Exchange) :
    redirectsFrom uri (x :: chain) = x :: redirectsFrom redirectUri chain := by
  rw [redirectsFrom, h]

theorem Exchange.redirectTo_eq_some {uri redirectUri : Uri} :
    x.redirectTo uri = some redirectUri ↔ ∃ response, x.answer = .ok response ∧
      isRedirect response.statusCode = true ∧ x.proceeds = true ∧ x.factory.gives = true ∧
      response.location = some redirectUri ∧ followable uri redirectUri = true := by
  rw [Exchange.redirectTo]
  split
  · rename_i response hAnswer
    by_cases h : (isRedirect response.statusCode && x.proceeds && x.factory.gives) = true
    · rw [if_pos h, Option.filter_eq_some_iff]
      rw [Bool.and_eq_true, Bool.and_eq_true] at h
      constructor
      · rintro ⟨hLocation, hFollow⟩
        exact ⟨response, hAnswer, h.1.1, h.1.2, h.2, hLocation, hFollow⟩
      · rintro ⟨other, hOther, -, -, -, hLocation, hFollow⟩
        rw [hAnswer, Except.ok.injEq] at hOther
        exact ⟨hOther ▸ hLocation, hFollow⟩
    · rw [if_neg h]
      refine iff_of_false (by simp) ?_
      rintro ⟨other, hOther, hStatus, hProceeds, hGives, -⟩
      rw [hAnswer, Except.ok.injEq] at hOther
      exact h (by rw [hOther, hStatus, hProceeds, hGives]; rfl)
  · rename_i error hAnswer
    refine iff_of_false (by simp) ?_
    rintro ⟨response, hResponse, -⟩
    rw [hAnswer] at hResponse
    cases hResponse

@[simp] theorem State.sent_method (filter : RedirectHttpFilter) (s : State) :
    (s.sent filter).method = s.coRequest.method := by
  rw [State.sent]
  split <;> rfl

@[simp] theorem State.sent_requestUri (filter : RedirectHttpFilter) (s : State) :
    (s.sent filter).requestUri = s.coRequest.requestUri := by
  rw [State.sent]
  split <;> rfl

@[simp] theorem Exchange.marked_method (x : Exchange) (request : HttpRequestMessage) :
    (x.marked request).method = request.method := by
  rw [Exchange.marked]
  split <;> rfl

@[simp] theorem Exchange.marked_requestUri (x : Exchange) (request : HttpRequestMessage) :
    (x.marked request).requestUri = request.requestUri := by
  rw [Exchange.marked]
  split <;> rfl

theorem Exchange.rebuilt_ok {method : HttpMethod} {request rebuilt : HttpRequestMessage}
    (h : x.rebuilt method request = .ok rebuilt) :
    x.factory.gives = true ∧ rebuilt.requestUri = request.requestUri ∧
      rebuilt.method = if x.rebuilds then method else request.method := by
  rw [Exchange.rebuilt] at h
  rw [Exchange.rebuilds]
  cases hFactory : x.factory with
  | expired | creates headers content =>
    rw [hFactory, Except.ok.injEq] at h
    exact h ▸ ⟨rfl, rfl, rfl⟩
  | raises error | null => rw [hFactory] at h; cases h

theorem Exchange.rebuilt_of_gives (h : x.factory.gives = true) (method : HttpMethod)
    (request : HttpRequestMessage) : ∃ rebuilt, x.rebuilt method request = .ok rebuilt := by
  rw [Exchange.rebuilt]
  cases hFactory : x.factory with
  | expired | creates headers content => exact ⟨_, rfl⟩
  | raises error | null => rw [hFactory] at h; cases h

end Redirects

section Rounds

variable {filter : RedirectHttpFilter} {allowAutoRedirect : Bool} {s : State} {x : Exchange}

/-- All that a round does which is followed by another one. -/
theorem round_inr_next {next : State} (h : filter.round allowAutoRedirect s x = .inr next) :
    ∃ response redirectUri coRequest, x.answer = .ok response ∧
      x.redirectTo s.coRequest.requestUri = some redirectUri ∧
      s.redirectCount + 1 ≤ filter.maximumRedirects ∧
      x.rebuilt s.method (x.marked (s.sent filter)) = .ok coRequest ∧
      next = ⟨s.redirectCount + 1, nextMethod response.statusCode s.method,
        { coRequest with requestUri := redirectUri }⟩ := by
  rw [round] at h
  split at h
  · cases h
  rename_i response hAnswer
  rw [redirect] at h
  split at h
  · cases h
  rename_i hStatus
  split at h
  · cases h
  rename_i hCount
  split at h
  · cases h
  rename_i hProceeds
  split at h
  · cases h
  rename_i coRequest hRebuilt
  obtain ⟨hGives, hUri, -⟩ := Exchange.rebuilt_ok hRebuilt
  rw [Exchange.marked_requestUri, State.sent_requestUri] at hUri
  split at h
  · cases h
  rename_i redirectUri hLocation
  split at h
  · cases h
  rename_i hFollow
  rw [Bool.not_eq_true', Bool.not_eq_false] at hStatus hProceeds hFollow
  split at h
  · rw [Sum.inr.injEq] at h
    exact ⟨response, redirectUri, coRequest, hAnswer, Exchange.redirectTo_eq_some.mpr
      ⟨response, hAnswer, hStatus, hProceeds, hGives, hLocation, hUri ▸ hFollow⟩,
      UInt64.not_lt.mp hCount, hRebuilt, h.symm⟩
  · cases h

theorem round_inr {next : State} (h : filter.round allowAutoRedirect s x = .inr next) :
    ∃ response redirectUri, x.answer = .ok response ∧
      x.redirectTo s.coRequest.requestUri = some redirectUri ∧
      s.redirectCount + 1 ≤ filter.maximumRedirects ∧
      next.redirectCount = s.redirectCount + 1 ∧
      next.method = nextMethod response.statusCode s.method ∧
      next.coRequest.requestUri = redirectUri ∧
      next.coRequest.method = if x.rebuilds then s.method else s.coRequest.method := by
  obtain ⟨response, redirectUri, coRequest, hAnswer, hTo, hCount, hRebuilt, rfl⟩ :=
    round_inr_next h
  have hMethod := (Exchange.rebuilt_ok hRebuilt).2.2
  rw [Exchange.marked_method, State.sent_method] at hMethod
  exact ⟨response, redirectUri, hAnswer, hTo, hCount, rfl, rfl, rfl, hMethod⟩

theorem exists_round_inr (filter : RedirectHttpFilter) {redirectUri : Uri}
    (hTo : x.redirectTo s.coRequest.requestUri = some redirectUri)
    (hCount : s.redirectCount + 1 ≤ filter.maximumRedirects) :
    ∃ next, filter.round true s x = .inr next := by
  obtain ⟨response, hAnswer, hStatus, hProceeds, hGives, hLocation, hFollow⟩ :=
    Exchange.redirectTo_eq_some.mp hTo
  obtain ⟨coRequest, hRebuilt⟩ :=
    Exchange.rebuilt_of_gives hGives s.method (x.marked (s.sent filter))
  have hUri := (Exchange.rebuilt_ok hRebuilt).2.1
  rw [Exchange.marked_requestUri, State.sent_requestUri] at hUri
  refine ⟨⟨s.redirectCount + 1, nextMethod response.statusCode s.method,
    { coRequest with requestUri := redirectUri }⟩, ?_⟩
  simp only [round, hAnswer, redirect, hStatus, hProceeds, hRebuilt, hLocation, hUri, hFollow,
    UInt64.not_lt.mpr hCount, Bool.not_true, Bool.false_eq_true, if_false, if_true]

/-- A response is returned when it does not redirect, when the event source stops the
redirect, or when its URI is not followed. -/
theorem round_returned_iff {response : HttpResponseMessage} {message : HttpRequestMessage} :
    filter.round true s x = .inl (.returned response message) ↔ x.answer = .ok response ∧
      ((isRedirect response.statusCode = false ∧ message = s.sent filter) ∨
        (isRedirect response.statusCode = true ∧
          s.redirectCount + 1 ≤ filter.maximumRedirects ∧
          ((x.proceeds = false ∧ message = x.marked (s.sent filter)) ∨
            (x.proceeds = true ∧ x.rebuilt s.method (x.marked (s.sent filter)) = .ok message ∧
              ∃ redirectUri, response.location = some redirectUri ∧
                followable message.requestUri redirectUri = false)))) := by
  rw [round]
  cases hAnswer : x.answer with
  | error error => simp
  | ok received =>
    simp only [Except.ok.injEq]
    rw [redirect]
    cases hStatus : isRedirect received.statusCode with
    | false =>
      simp only [Bool.not_false, if_true, Sum.inl.injEq, Result.returned.injEq]
      constructor
      · rintro ⟨rfl, rfl⟩
        exact ⟨rfl, .inl ⟨hStatus, rfl⟩⟩
      · rintro ⟨rfl, ⟨-, rfl⟩ | ⟨hRedirect, -⟩⟩
        · exact ⟨rfl, rfl⟩
        · rw [hStatus] at hRedirect
          cases hRedirect
    | true =>
      rcases UInt64.lt_or_le filter.maximumRedirects (s.redirectCount + 1) with hLt | hLe
      · simp only [Bool.not_true, Bool.false_eq_true, if_false, gt_iff_lt, if_pos hLt]
        refine iff_of_false (by simp) ?_
        rintro ⟨rfl, ⟨hOther, -⟩ | ⟨-, hLe, -⟩⟩
        · rw [hStatus] at hOther
          cases hOther
        · exact UInt64.not_lt.mpr hLe hLt
      · simp only [Bool.not_true, Bool.false_eq_true, if_false, gt_iff_lt,
          if_neg (UInt64.not_lt.mpr hLe)]
        cases hProceeds : x.proceeds with
        | false =>
          simp only [Bool.not_false, if_true, Sum.inl.injEq, Result.returned.injEq,
            Bool.false_eq_true, false_and, or_false, true_and]
          constructor
          · rintro ⟨rfl, rfl⟩
            exact ⟨rfl, .inr ⟨hStatus, hLe, rfl⟩⟩
          · rintro ⟨rfl, ⟨hOther, -⟩ | ⟨-, -, rfl⟩⟩
            · rw [hStatus] at hOther
              cases hOther
            · exact ⟨rfl, rfl⟩
        | true =>
          simp only [Bool.not_true, Bool.false_eq_true, if_false, Bool.true_eq_false,
            false_and, false_or, true_and]
          cases hRebuilt : x.rebuilt s.method (x.marked (s.sent filter)) with
          | error error =>
            refine iff_of_false (by simp) ?_
            rintro ⟨rfl, ⟨hOther, -⟩ | ⟨-, -, hOk, -⟩⟩
            · rw [hStatus] at hOther
              cases hOther
            · cases hOk
          | ok coRequest =>
            cases hLocation : received.location with
            | none =>
              refine iff_of_false (by simp) ?_
              rintro ⟨rfl, ⟨hOther, -⟩ | ⟨-, -, -, uri, hUri, -⟩⟩
              · rw [hStatus] at hOther
                cases hOther
              · rw [hLocation] at hUri
                cases hUri
            | some redirectUri =>
              cases hFollow : followable coRequest.requestUri redirectUri with
              | false =>
                simp only [hFollow, Bool.not_false, if_true, Sum.inl.injEq,
                  Result.returned.injEq, Except.ok.injEq]
                constructor
                · rintro ⟨rfl, rfl⟩
                  exact ⟨rfl, .inr ⟨hStatus, hLe, rfl, _, hLocation, hFollow⟩⟩
                · rintro ⟨rfl, ⟨hOther, -⟩ | ⟨-, -, rfl, -⟩⟩
                  · rw [hStatus] at hOther
                    cases hOther
                  · exact ⟨rfl, rfl⟩
              | true =>
                refine iff_of_false (by simp [hFollow]) ?_
                rintro ⟨rfl, ⟨hOther, -⟩ | ⟨-, -, hOk, uri, hUri, hNot⟩⟩
                · rw [hStatus] at hOther
                  cases hOther
                · cases hOk
                  rw [hLocation, Option.some.injEq] at hUri
                  rw [← hUri, hFollow] at hNot
                  cases hNot

end Rounds

section Counting

variable {filter : RedirectHttpFilter}

def followed (filter : RedirectHttpFilter) (count : Nat) (uri : Uri) (chain : List Exchange) :
    List Exchange :=
  (redirectsFrom uri chain).take (filter.maximumRedirects.toNat - count)

/-- The counter stays below its wrap-around for `redirects` more redirects. -/
def CountFits (filter : RedirectHttpFilter) (count : Nat) (redirects : List Exchange) : Prop :=
  filter.maximumRedirects.toNat + 1 < 2 ^ 64 ∨ count + redirects.length < 2 ^ 64

theorem toNat_succ {count : UInt64} {k : Nat} (h : count.toNat = k) (hFits : k + 1 < 2 ^ 64) :
    (count + 1).toNat = k + 1 := by
  rw [UInt64.toNat_add, h]
  exact Nat.mod_eq_of_lt hFits

variable {chain : List Exchange}

theorem round_cases {s : State} {count : Nat} {x : Exchange}
    (hCount : s.redirectCount.toNat = count) (hMax : count ≤ filter.maximumRedirects.toNat)
    (hFits : CountFits filter count (redirectsFrom s.coRequest.requestUri (x :: chain))) :
    (∃ result, filter.round true s x = .inl result ∧
      followed filter count s.coRequest.requestUri (x :: chain) = []) ∨
    ∃ next, filter.round true s x = .inr next ∧ next.redirectCount.toNat = count + 1 ∧
      count + 1 ≤ filter.maximumRedirects.toNat ∧
      followed filter count s.coRequest.requestUri (x :: chain) =
        x :: followed filter (count + 1) next.coRequest.requestUri chain ∧
      CountFits filter (count + 1) (redirectsFrom next.coRequest.requestUri chain) := by
  cases hTo : x.redirectTo s.coRequest.requestUri with
  | none =>
    left
    cases hRound : filter.round true s x with
    | inl result =>
      refine ⟨result, rfl, ?_⟩
      rw [followed, redirectsFrom_cons_none hTo, List.take_nil]
    | inr next =>
      obtain ⟨response, redirectUri, -, hSome, -⟩ := round_inr hRound
      rw [hTo] at hSome
      cases hSome
  | some redirectUri =>
    have hFrom := redirectsFrom_cons_some hTo chain
    rw [CountFits, hFrom, List.length_cons] at hFits
    have hSucc : (s.redirectCount + 1).toNat = count + 1 :=
      toNat_succ hCount (by omega)
    rcases Nat.lt_or_ge count filter.maximumRedirects.toNat with hLt | hGe
    · right
      obtain ⟨next, hNext⟩ := exists_round_inr filter hTo
        (by rw [UInt64.le_iff_toNat_le, hSucc]; exact hLt)
      obtain ⟨response, uri, -, hUri, -, hNextCount, -, hNextUri, -⟩ := round_inr hNext
      rw [hTo, Option.some.injEq] at hUri
      refine ⟨next, hNext, by rw [hNextCount, hSucc], hLt, ?_, ?_⟩
      · rw [followed, hFrom, followed, hNextUri, ← hUri,
          show filter.maximumRedirects.toNat - count =
            filter.maximumRedirects.toNat - (count + 1) + 1 by omega, List.take_succ_cons]
      · rw [CountFits, hNextUri, ← hUri]
        omega
    · left
      cases hRound : filter.round true s x with
      | inl result =>
        refine ⟨result, rfl, ?_⟩
        rw [followed, Nat.sub_eq_zero_of_le hGe, List.take_zero]
      | inr next =>
        obtain ⟨response, uri, -, -, hLe, -⟩ := round_inr hRound
        rw [UInt64.le_iff_toNat_le, hSucc] at hLe
        omega

/-- A run sends one request more than it follows redirects. -/
theorem rounds_length {s : State} {count : Nat} (hCount : s.redirectCount.toNat = count)
    (hMax : count ≤ filter.maximumRedirects.toNat)
    (hFits : CountFits filter count (redirectsFrom s.coRequest.requestUri chain)) :
    (rounds (filter.round true) s chain).length =
      (followed filter count s.coRequest.requestUri chain).length + 1 := by
  induction chain generalizing s count with
  | nil => simp [followed, redirectsFrom]
  | cons x chain ih =>
    rcases round_cases hCount hMax hFits with ⟨result, hRound, hNone⟩ |
      ⟨next, hRound, hNextCount, hNextMax, hSome, hNextFits⟩
    · rw [rounds_cons_inl hRound, hNone]
      rfl
    · rw [rounds_cons_inr hRound, hSome, List.length_cons, List.length_cons,
        ih hNextCount hNextMax hNextFits]

/-- With the greatest limit every redirect is followed. -/
theorem rounds_length_unlimited (hMax : filter.maximumRedirects.toNat + 1 = 2 ^ 64)
    (s : State) (chain : List Exchange) :
    (rounds (filter.round true) s chain).length =
      (redirectsFrom s.coRequest.requestUri chain).length + 1 := by
  induction chain generalizing s with
  | nil => simp [redirectsFrom]
  | cons x chain ih =>
    cases hTo : x.redirectTo s.coRequest.requestUri with
    | none =>
      rw [redirectsFrom_cons_none hTo]
      cases hRound : filter.round true s x with
      | inl result =>
        rw [rounds_cons_inl hRound]
        rfl
      | inr next =>
        obtain ⟨response, redirectUri, -, hSome, -⟩ := round_inr hRound
        rw [hTo] at hSome
        cases hSome
    | some redirectUri =>
      have hLe : s.redirectCount + 1 ≤ filter.maximumRedirects := by
        have := (s.redirectCount + 1).toNat_lt
        rw [UInt64.le_iff_toNat_le]
        omega
      obtain ⟨next, hNext⟩ := exists_round_inr filter hTo hLe
      obtain ⟨response, uri, -, hUri, -, -, -, hNextUri, -⟩ := round_inr hNext
      rw [hTo, Option.some.injEq] at hUri
      rw [rounds_cons_inr hNext, redirectsFrom_cons_some hTo, List.length_cons,
        List.length_cons, ih, hNextUri, hUri]

/-- The limit on the number of requests is kept unless the counter wraps around. -/
theorem bounded_iff (request : HttpRequestMessage) (chain : List Exchange) :
    (filter.requests true request chain).length ≤ filter.maximumRedirects.toNat + 1 ↔
      CountFits filter 0 (redirectsFrom request.requestUri chain) := by
  constructor
  · intro hLength
    by_contra hFits
    rw [CountFits, not_or, Nat.zero_add] at hFits
    have hLt := filter.maximumRedirects.toNat_lt
    rw [requests, rounds_length_unlimited (by omega)] at hLength
    have hUri : (State.initial request).coRequest.requestUri = request.requestUri := rfl
    rw [hUri] at hLength
    omega
  · intro hFits
    rw [requests, rounds_length (s := .initial request) rfl (Nat.zero_le _) hFits, followed,
      List.length_take]
    omega

end Counting

section Verbs

/-- The verb of the request after a followed redirect, when `method` is the coroutine's. -/
def Exchange.nextVerb (x : Exchange) (method : HttpMethod) (verb : String) : String :=
  if x.rebuilds then method.text else verb

/-- The rule for every redirect that is followed, in terms of the two places where the
coroutine keeps a method: its variable and the request. -/
def VerbsByRule : HttpMethod → String → List Exchange → Prop
  | _, _, [] => True
  | method, verb, x :: redirects =>
    x.nextVerb method verb = redirectedVerb x.statusCode verb ∧
      VerbsByRule (nextMethod x.statusCode method) (x.nextVerb method verb) redirects

/-- When the followed redirects of a request with this verb leave the rule intact: never
for a POST with a redirect that is not to keep it, and for other verbs than GET if no
request is rebuilt after such a redirect has been followed before. -/
def VerbsKept (verb : String) (redirects : List Exchange) : Prop :=
  if verb = "GET" then True
  else if verb = "POST" then ∀ x ∈ redirects, x.keepsVerb = true
  else redirects.Pairwise fun x y => x.keepsVerb = true ∨ y.rebuilds = false

variable {status : HttpStatusCode}

theorem nextMethod_of_keeps (h : keepsVerb status = true) (method : HttpMethod) :
    nextMethod status method = method := by
  rw [nextMethod, h]
  rfl

variable {method : HttpMethod}

theorem nextMethod_text_GET (status : HttpStatusCode) (h : method.text = "GET") :
    (nextMethod status method).text = "GET" := by
  rw [nextMethod]
  split
  · rfl
  · exact h

theorem nextMethod_of_other (hStatus : keepsVerb status = false) (h : method.text ≠ "POST") :
    (nextMethod status method).text = "GET" := by
  have hPost : method ≠ .Post := fun hMethod => h (hMethod ▸ rfl)
  rw [nextMethod, hStatus, if_pos (by simp [hPost])]
  rfl

theorem redirectedVerb_of_keeps (h : keepsVerb status = true) (verb : String) :
    redirectedVerb status verb = verb := if_pos h

theorem redirectedVerb_of_ne (status : HttpStatusCode) {verb : String} (h : verb ≠ "POST") :
    redirectedVerb status verb = verb := by
  rw [redirectedVerb, if_neg h, ite_self]

theorem verbsByRule_GET (hMethod : method.text = "GET") (redirects : List Exchange) :
    VerbsByRule method "GET" redirects := by
  induction redirects generalizing method with
  | nil => trivial
  | cons x redirects ih =>
    have hVerb : x.nextVerb method "GET" = "GET" := by
      rw [Exchange.nextVerb, hMethod, ite_self]
    rw [VerbsByRule, hVerb]
    exact ⟨(redirectedVerb_of_ne _ (by decide)).symm, ih (nextMethod_text_GET _ hMethod)⟩

theorem verbsByRule_POST (hMethod : method.text = "POST") (redirects : List Exchange) :
    VerbsByRule method "POST" redirects ↔ ∀ x ∈ redirects, x.keepsVerb = true := by
  induction redirects with
  | nil => simp [VerbsByRule]
  | cons x redirects ih =>
    have hVerb : x.nextVerb method "POST" = "POST" := by
      rw [Exchange.nextVerb, hMethod, ite_self]
    rw [VerbsByRule, hVerb, List.forall_mem_cons, Exchange.keepsVerb]
    cases hKeeps : keepsVerb x.statusCode with
    | true =>
      rw [nextMethod_of_keeps hKeeps, redirectedVerb_of_keeps hKeeps, ih]
      simp
    | false =>
      refine iff_of_false (fun h => ?_) (by simp)
      rw [redirectedVerb, hKeeps] at h
      exact absurd h.1 (by decide)

/-- Once the variable has become GET, only requests that are not rebuilt keep their verb. -/
theorem verbsByRule_of_GET (hMethod : method.text = "GET") {verb : String} (hGet : verb ≠ "GET")
    (hPost : verb ≠ "POST") (redirects : List Exchange) :
    VerbsByRule method verb redirects ↔ ∀ y ∈ redirects, y.rebuilds = false := by
  induction redirects generalizing method with
  | nil => simp [VerbsByRule]
  | cons y redirects ih =>
    rw [VerbsByRule, List.forall_mem_cons, redirectedVerb_of_ne _ hPost, Exchange.nextVerb]
    cases hRebuilds : y.rebuilds with
    | true =>
      refine iff_of_false (fun h => ?_) (by simp)
      rw [if_pos rfl, hMethod] at h
      exact hGet h.1.symm
    | false =>
      rw [if_neg (by decide), ih (nextMethod_text_GET _ hMethod)]
      simp

theorem verbsByRule_iff (redirects : List Exchange) :
    VerbsByRule method method.text redirects ↔ VerbsKept method.text redirects := by
  rw [VerbsKept]
  by_cases hGet : method.text = "GET"
  · rw [if_pos hGet, hGet]
    exact iff_of_true (verbsByRule_GET hGet redirects) trivial
  by_cases hPost : method.text = "POST"
  · rw [if_neg hGet, if_pos hPost, hPost]
    exact verbsByRule_POST hPost redirects
  rw [if_neg hGet, if_neg hPost]
  induction redirects with
  | nil => simp [VerbsByRule]
  | cons x redirects ih =>
    have hVerb : x.nextVerb method method.text = method.text := by
      rw [Exchange.nextVerb, ite_self]
    rw [VerbsByRule, hVerb, redirectedVerb_of_ne _ hPost, List.pairwise_cons,
      Exchange.keepsVerb]
    cases hKeeps : keepsVerb x.statusCode with
    | true =>
      rw [nextMethod_of_keeps hKeeps, ih]
      simp
    | false =>
      rw [verbsByRule_of_GET (nextMethod_of_other hKeeps hPost) hGet hPost]
      constructor
      · rintro ⟨-, hLater⟩
        exact ⟨fun y hy => .inr (hLater y hy),
          List.pairwise_of_forall_mem_list fun _ _ y hy => .inr (hLater y hy)⟩
      · rintro ⟨hLater, -⟩
        exact ⟨rfl, fun y hy => (hLater y hy).resolve_left (by decide)⟩

variable {filter : RedirectHttpFilter}

/-- The rule between the requests that are sent, from some state of the loop on. -/
def SendsByRule (filter : RedirectHttpFilter) (s : State) (chain : List Exchange) : Prop :=
  ∀ (k : Nat) (before after : State) (x : Exchange) (response : HttpResponseMessage),
    (rounds (filter.round true) s chain)[k]? = some before →
    (rounds (filter.round true) s chain)[k + 1]? = some after →
    chain[k]? = some x → x.answer = .ok response →
    (after.sent filter).method.text =
      redirectedVerb response.statusCode (before.sent filter).method.text

variable {chain : List Exchange}

theorem sendsByRule_of_inl {s : State} {x : Exchange} {result : Result}
    (h : filter.round true s x = .inl result) : SendsByRule filter s (x :: chain) := by
  intro k before after y response _ hAfter
  rw [rounds_cons_inl h] at hAfter
  simp at hAfter

theorem sendsByRule_of_inr {s next : State} {x : Exchange} (h : filter.round true s x = .inr next) :
    SendsByRule filter s (x :: chain) ↔
      x.nextVerb s.method s.coRequest.method.text =
        redirectedVerb x.statusCode s.coRequest.method.text ∧ SendsByRule filter next chain := by
  obtain ⟨response, redirectUri, hAnswer, -, -, -, -, -, hMethod⟩ := round_inr h
  have hStatus : x.statusCode = response.statusCode := by
    rw [Exchange.statusCode, hAnswer]
  have hVerb : x.nextVerb s.method s.coRequest.method.text = next.coRequest.method.text := by
    rw [Exchange.nextVerb, hMethod]
    split <;> rfl
  constructor
  · intro hRule
    constructor
    · have hFirst := hRule 0 s next x response
      rw [rounds_cons_inr h, List.getElem?_cons_zero, List.getElem?_cons_succ, rounds_head] at hFirst
      rw [hVerb, hStatus, ← State.sent_method filter next, ← State.sent_method filter s]
      exact hFirst rfl rfl rfl hAnswer
    · intro k before after y answer hBefore hAfter hy hOk
      refine hRule (k + 1) before after y answer ?_ ?_ hy hOk
      · rw [rounds_cons_inr h, List.getElem?_cons_succ, hBefore]
      · rw [rounds_cons_inr h, List.getElem?_cons_succ, hAfter]
  · rintro ⟨hFirst, hLater⟩ k before after y answer hBefore hAfter hy hOk
    rw [rounds_cons_inr h] at hBefore hAfter
    cases k with
    | zero =>
      rw [List.getElem?_cons_zero, Option.some.injEq] at hBefore hy
      rw [List.getElem?_cons_succ, rounds_head, Option.some.injEq] at hAfter
      rw [← hBefore, ← hAfter, State.sent_method, State.sent_method, ← hVerb, hFirst]
      rw [← hy, hAnswer, Except.ok.injEq] at hOk
      rw [hStatus, hOk]
    | succ k =>
      exact hLater k before after y answer hBefore hAfter hy hOk

theorem sendsByRule_iff {s : State} {count : Nat} (hCount : s.redirectCount.toNat = count)
    (hMax : count ≤ filter.maximumRedirects.toNat)
    (hFits : CountFits filter count (redirectsFrom s.coRequest.requestUri chain)) :
    SendsByRule filter s chain ↔ VerbsByRule s.method s.coRequest.method.text
      (followed filter count s.coRequest.requestUri chain) := by
  induction chain generalizing s count with
  | nil =>
    refine iff_of_true ?_ (by simp [followed, redirectsFrom, VerbsByRule])
    intro k before after x response _ hAfter
    simp at hAfter
  | cons x chain ih =>
    rcases round_cases hCount hMax hFits with ⟨result, hRound, hNone⟩ |
      ⟨next, hRound, hNextCount, hNextMax, hSome, hNextFits⟩
    · rw [hNone]
      exact iff_of_true (sendsByRule_of_inl hRound) trivial
    · obtain ⟨response, -, hAnswer, -, -, -, hNextMethod, -, hMethod⟩ := round_inr hRound
      have hStatus : x.statusCode = response.statusCode := by
        rw [Exchange.statusCode, hAnswer]
      have hVerb : x.nextVerb s.method s.coRequest.method.text =
          next.coRequest.method.text := by
        rw [Exchange.nextVerb, hMethod]
        split <;> rfl
      rw [sendsByRule_of_inr hRound, hSome, VerbsByRule, ih hNextCount hNextMax hNextFits,
        hNextMethod, hVerb, hStatus]

end Verbs

section Runs

variable {filter : RedirectHttpFilter}

/-- After an https URI there is no redirect to another scheme. -/
theorem https_of_round_inr {s next : State} {x : Exchange}
    (hScheme : s.coRequest.requestUri.schemeName = "https")
    (h : filter.round true s x = .inr next) :
    next.coRequest.requestUri.schemeName = "https" := by
  obtain ⟨response, redirectUri, -, hTo, -, -, -, hUri, -⟩ := round_inr h
  obtain ⟨-, -, -, -, -, -, hFollow⟩ := Exchange.redirectTo_eq_some.mp hTo
  rw [followable, hScheme] at hFollow
  rw [hUri]
  by_contra hOther
  simp [hOther] at hFollow

theorem requests_count {request : HttpRequestMessage} {chain : List Exchange} {k : Nat}
    {s : State} (h : (filter.requests true request chain)[k]? = some s) :
    s.redirectCount.toNat = k % 2 ^ 64 := by
  refine rounds_invariant (P := fun k s => s.redirectCount.toNat = k % 2 ^ 64) rfl ?_ h
  intro k before x after _ hBefore hRound
  obtain ⟨-, -, -, -, -, hCount, -⟩ := round_inr hRound
  rw [hCount, UInt64.toNat_add, hBefore]
  exact (Nat.add_mod _ _ _).symm

theorem withNoCredentials_of_count {s : State} (h : 0 < s.redirectCount.toNat) :
    s.withNoCredentials = true :=
  decide_eq_true (UInt64.lt_iff_toNat_lt.mpr h)

/-- For every request, limit and chain of responses: the filter follows the redirects as
documented exactly when its counter does not wrap around and the followed redirects leave
the rule for the verb intact. -/
theorem followsRedirects_iff (filter : RedirectHttpFilter) (request : HttpRequestMessage)
    (chain : List Exchange) :
    FollowsRedirects filter request chain ↔
      CountFits filter 0 (redirectsFrom request.requestUri chain) ∧
        VerbsKept request.method.text (followed filter 0 request.requestUri chain) := by
  have hRule (hFits : CountFits filter 0 (redirectsFrom request.requestUri chain)) :
      SendsByRule filter (.initial request) chain ↔
        VerbsKept request.method.text (followed filter 0 request.requestUri chain) :=
    (sendsByRule_iff (s := .initial request) rfl (Nat.zero_le _) hFits).trans
      (verbsByRule_iff _)
  constructor
  · intro h
    have hFits := (bounded_iff request chain).mp h.bounded
    exact ⟨hFits, (hRule hFits).mp h.verbs⟩
  · rintro ⟨hFits, hVerbs⟩
    have hBounded := (bounded_iff request chain).mpr hFits
    refine ⟨hBounded, (hRule hFits).mpr hVerbs, ?_, ?_, ?_⟩
    · intro k d before after hBefore hAfter hScheme
      rw [State.sent_requestUri] at hScheme ⊢
      have hAfterScheme := rounds_stays
        (Q := fun s : State => s.coRequest.requestUri.schemeName = "https")
        (fun _ _ _ => https_of_round_inr) hBefore hAfter hScheme
      rw [hAfterScheme]
      decide
    · intro k s hState
      have hLength := (List.getElem?_eq_some_iff.mp hState).1
      have hMax := filter.maximumRedirects.toNat_lt
      apply withNoCredentials_of_count
      rw [requests_count hState, Nat.mod_eq_of_lt (by omega)]
      exact Nat.succ_pos k
    · intro response message hResult
      obtain ⟨k, state, x, hLength, -, hAnswer, hRound⟩ := outcome_last hResult
      exact ⟨k, x, hLength, hAnswer, (round_returned_iff.mp hRound).1⟩

/-- A POST that gets a 302 is sent to the new URI as a POST. -/
theorem post_stays_post : ¬ FollowsRedirects ⟨20, ""⟩
    ⟨⟨"POST", 9⟩, ⟨"http", "a.example", 80, "", "", "/"⟩, [], none, ⟨none, none, none⟩⟩
    [⟨.ok ⟨.Found, some ⟨"http", "a.example", 80, "", "", "/done"⟩, []⟩, none,
      .creates [] none⟩] := by
  intro h
  have hVerb := h.verbs 0 _ _ _ _ rfl rfl rfl rfl
  exact absurd hVerb (by decide)

end Runs

end Networking.RedirectHttpFilter
