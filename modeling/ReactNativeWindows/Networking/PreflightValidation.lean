import ReactNativeWindows.Networking.OriginPolicyHttpFilter
import ReactNativeWindows.Networking.RedirectHttpFilter

/-! What `OriginPolicyHttpFilter::ValidatePreflightResponse` lets pass. -/
namespace Networking.OriginPolicyHttpFilter

variable (P : Platform) (filter : OriginPolicyHttpFilter)

def withCredentials (request : HttpRequestMessage) : Bool :=
  match request.properties.requestArgs with
  | some args => args.withCredentials
  | none => false

def contentHeaders (request : HttpRequestMessage) : Headers :=
  match request.content with
  | some content => content.headers
  | none => []

/-- The origin is the filter's own, or any for a request without credentials. -/
def OriginMatches (values : AccessControlValues) (credentials : Bool) : Prop :=
  (values.allowedOrigin = "*" ∧ credentials = false) ∨
    ∃ uri, P.parseUri values.allowedOrigin = some uri ∧
      isSameOrigin filter.origin (some uri) = true

def MethodListed (values : AccessControlValues) (credentials : Bool) (method : String) : Prop :=
  containsName simpleCorsMethods method = true ∨
    (∃ allowed ∈ values.allowedMethods, iequals allowed method = true) ∨
    ("*" ∈ values.allowedMethods ∧ credentials = false)

/-- A header that needs no permission, or has it. -/
def HeaderAllowed (values : AccessControlValues) (credentials : Bool) (header : String × String) :
    Prop :=
  isForbidden header.1 = true ∨ isCorsSafelistedRequestHeader P header.1 header.2 = true ∨
    containsName values.allowedHeaders header.1 = true ∨
    (containsName values.allowedHeaders "*" = true ∧ credentials = false ∧
      iequals header.1 "Authorization" = false)

/-- What a preflight response is to say before the request may be sent. -/
structure PreflightAllows (request : HttpRequestMessage) (response : HttpResponseMessage) :
    Prop where
  status : RedirectHttpFilter.isRedirect response.statusCode = false
  origin : OriginMatches P filter (extractAccessControlValues response.headers)
    (withCredentials request)
  method : MethodListed (extractAccessControlValues response.headers) (withCredentials request)
    request.method.text
  headers : ∀ header ∈ request.headers ++ contentHeaders request,
    HeaderAllowed P (extractAccessControlValues response.headers) (withCredentials request) header

/-- The names of the message headers pass by the wildcard, or each of them is listed. -/
def MessageNamesPass (values : AccessControlValues) (credentials : Bool) (headers : Headers) :
    Prop :=
  if credentials = false ∧ containsName values.allowedHeaders "*" = true then
    headers.hasKey "Authorization" = true → containsName values.allowedHeaders "Authorization" = true
  else ∀ name ∈ corsUnsafeNotForbiddenRequestHeaderNames P headers,
    containsName values.allowedHeaders name = true

/-- The response passes the checks that are made. -/
structure ChecksPass (request : HttpRequestMessage) (response : HttpResponseMessage) : Prop where
  status : isRejectedPreflightStatus response.statusCode = false
  origin : filter.validateAllowOrigin P (extractAccessControlValues response.headers).allowedOrigin
    (extractAccessControlValues response.headers).allowedCredentials request.properties = .ok ()
  method : isMethodAllowed (extractAccessControlValues response.headers) (withCredentials request)
    request.method.text = true
  names : MessageNamesPass P (extractAccessControlValues response.headers)
    (withCredentials request) request.headers

section Checks

variable {P filter}

variable {props : Properties}

theorem validateAllowOrigin_ok {allowedOrigin allowCredentials : String}
    (h : filter.validateAllowOrigin P allowedOrigin allowCredentials props = .ok ()) :
    ∃ args, props.requestArgs = some args ∧
      ((allowedOrigin = "*" ∧ args.withCredentials = false) ∨
        ∃ uri, P.parseUri allowedOrigin = some uri ∧
          isSameOrigin (filter.suppliedOrigin props) (some uri) = true ∧
          (args.withCredentials = true → allowCredentials = "true")) := by
  cases hArgs : props.requestArgs with
  | none =>
    exfalso
    simp only [validateAllowOrigin, lookupRequestArgs, hArgs, invalidArg, bind, Except.bind] at h
    split at h <;> cases h
  | some args =>
    refine ⟨args, rfl, ?_⟩
    simp only [validateAllowOrigin, lookupRequestArgs, hArgs, invalidArg, bind, Except.bind,
      pure, Except.pure] at h
    split at h
    · cases h
    split at h
    · rename_i hWildcard
      simp only [Bool.and_eq_true, Bool.not_eq_true', beq_iff_eq] at hWildcard
      exact .inl ⟨hWildcard.2, hWildcard.1⟩
    split at h
    · cases h
    cases hUri : P.parseUri allowedOrigin with
    | none =>
      rw [hUri] at h
      cases h
    | some uri =>
      simp only [hUri] at h
      split at h
      · cases h
      rename_i hSame
      rw [Bool.not_eq_true', Bool.not_eq_false] at hSame
      refine .inr ⟨uri, rfl, hSame, fun hCredentials => ?_⟩
      simp only [hCredentials, Bool.not_true, Bool.false_eq_true, if_false] at h
      split at h
      · cases h
      · rename_i hAllow
        exact Decidable.not_not.mp hAllow

/-- A tainted request has no origin that matches. -/
theorem isSameOrigin_of_supplied {uri : Uri}
    (h : isSameOrigin (filter.suppliedOrigin props) (some uri) = true) :
    props.taintedOrigin ≠ some true ∧ isSameOrigin filter.origin (some uri) = true := by
  rw [suppliedOrigin] at h
  split at h
  · cases h
  · rename_i hTainted
    exact ⟨hTainted, h⟩

variable {request : HttpRequestMessage}

theorem withCredentials_of_args {args : RequestArgs}
    (h : request.properties.requestArgs = some args) :
    withCredentials request = args.withCredentials := by
  rw [withCredentials, h]

variable {values : AccessControlValues}

theorem originMatches_of_ok
    (h : filter.validateAllowOrigin P values.allowedOrigin values.allowedCredentials
      request.properties = .ok ()) : OriginMatches P filter values (withCredentials request) := by
  obtain ⟨args, hArgs, hWildcard | ⟨uri, hUri, hSame, -⟩⟩ := validateAllowOrigin_ok h
  · exact .inl ⟨hWildcard.1, withCredentials_of_args hArgs ▸ hWildcard.2⟩
  · exact .inr ⟨uri, hUri, (isSameOrigin_of_supplied hSame).2⟩

variable {credentials : Bool}

theorem methodListed_of_allowed {method : String}
    (h : isMethodAllowed values credentials method = true) :
    MethodListed values credentials method := by
  rw [isMethodAllowed, Bool.or_eq_true, List.any_eq_true] at h
  rcases h with ⟨allowed, hMem, hAllowed⟩ | hSimple
  · split at hAllowed
    · rename_i hWildcard
      exact .inr (.inr ⟨hWildcard ▸ hMem, by simpa using hAllowed⟩)
    · exact .inr (.inl ⟨allowed, hMem, hAllowed⟩)
  · exact .inl hSimple

theorem validatePreflightHeaders_ok {headers : Headers} :
    validatePreflightHeaders P values credentials headers = .ok () ↔
      MessageNamesPass P values credentials headers := by
  rw [validatePreflightHeaders, MessageNamesPass]
  by_cases hWildcard : credentials = false ∧ containsName values.allowedHeaders "*" = true
  · rw [if_pos hWildcard, if_pos (by simp [hWildcard])]
    simp only [Bool.and_eq_true, Bool.not_eq_true']
    split
    · rename_i hAuthorization
      simp [invalidArg, hAuthorization]
    · rename_i hAuthorization
      simpa using hAuthorization
  · rw [if_neg hWildcard, if_neg (by simpa using hWildcard)]
    simp only []
    split
    · rename_i name hFind
      refine iff_of_false (by simp [invalidArg]) fun hAll => ?_
      have hListed := hAll name (List.mem_of_find?_eq_some hFind)
      have hUnlisted := List.find?_some hFind
      simp [hListed] at hUnlisted
    · rename_i hFind
      simpa using hFind

/-- A run of the preflight validation passes exactly its four checks. -/
theorem validatePreflightResponse_ok {response : HttpResponseMessage} :
    filter.validatePreflightResponse P request response = .ok () ↔
      ChecksPass P filter request response := by
  constructor
  · intro h
    rw [validatePreflightResponse] at h
    cases hStatus : isRejectedPreflightStatus response.statusCode with
    | true =>
      rw [hStatus] at h
      cases h
    | false =>
      simp only [hStatus, bind, Except.bind, Bool.false_eq_true, if_false] at h
      split at h
      · cases h
      rename_i hOrigin
      obtain ⟨args, hArgs, -⟩ := validateAllowOrigin_ok hOrigin
      simp only [lookupRequestArgs, hArgs] at h
      split at h
      · cases h
      rename_i hMethod
      rw [Bool.not_eq_true', Bool.not_eq_false] at hMethod
      rw [← withCredentials_of_args hArgs] at hMethod h
      exact ⟨hStatus, hOrigin, hMethod, validatePreflightHeaders_ok.mp h⟩
  · rintro ⟨hStatus, hOrigin, hMethod, hNames⟩
    obtain ⟨args, hArgs, -⟩ := validateAllowOrigin_ok hOrigin
    rw [withCredentials_of_args hArgs] at hMethod hNames
    simp [validatePreflightResponse, hStatus, hOrigin, hArgs, lookupRequestArgs, hMethod,
      validatePreflightHeaders_ok.mpr hNames, bind, Except.bind]

end Checks

section Headers

variable {P}

variable {headers : Headers}

/-- The loop only adds to its result. -/
theorem corsUnsafeLoop_mono {result safe : List String} {size : Nat} {name : String}
    (h : name ∈ result) : name ∈ (corsUnsafeLoop P headers result safe size).1 := by
  induction headers generalizing result safe size with
  | nil => exact h
  | cons header headers ih =>
    rw [corsUnsafeLoop]
    split
    · exact ih h
    split
    · exact ih (List.mem_append_left _ h)
    · exact ih h

variable {header : String × String}

theorem mem_corsUnsafeLoop {result safe : List String} {size : Nat} (hMem : header ∈ headers)
    (hForbidden : isForbidden header.1 = false)
    (hUnsafe : isCorsSafelistedRequestHeader P header.1 header.2 = false) :
    header.1 ∈ (corsUnsafeLoop P headers result safe size).1 := by
  induction headers generalizing result safe size with
  | nil => cases hMem
  | cons first headers ih =>
    rw [corsUnsafeLoop]
    rcases List.mem_cons.mp hMem with hFirst | hLater
    · rw [← hFirst, if_neg (by simp [hForbidden]), if_pos (by simp [hUnsafe])]
      exact corsUnsafeLoop_mono (List.mem_append_right _ (List.mem_singleton.mpr rfl))
    · split
      · exact ih hLater
      split
      · exact ih hLater
      · exact ih hLater

theorem mem_corsUnsafeNotForbidden (hMem : header ∈ headers)
    (hForbidden : isForbidden header.1 = false)
    (hUnsafe : isCorsSafelistedRequestHeader P header.1 header.2 = false) :
    header.1 ∈ corsUnsafeNotForbiddenRequestHeaderNames P headers := by
  have hLoop : header.1 ∈ (corsUnsafeLoop P headers [] [] 0).1 :=
    mem_corsUnsafeLoop hMem hForbidden hUnsafe
  rw [corsUnsafeNotForbiddenRequestHeaderNames]
  split
  rename_i result names size hResult
  rw [hResult] at hLoop
  split
  · exact List.mem_append_left _ hLoop
  · exact hLoop

theorem headerAllowed_of_names {values : AccessControlValues} {credentials : Bool}
    (h : MessageNamesPass P values credentials headers) (hMem : header ∈ headers) :
    HeaderAllowed P values credentials header := by
  rw [MessageNamesPass] at h
  split at h
  · rename_i hWildcard
    cases hAuthorization : iequals header.1 "Authorization" with
    | false => exact .inr (.inr (.inr ⟨hWildcard.2, hWildcard.1, hAuthorization⟩))
    | true =>
      have hKey : headers.hasKey "Authorization" = true :=
        List.any_eq_true.mpr ⟨header, hMem, hAuthorization⟩
      exact .inr (.inr (.inl (containsName_congr hAuthorization ▸ h hKey)))
  · cases hForbidden : isForbidden header.1 with
    | true => exact .inl hForbidden
    | false =>
      cases hSafe : isCorsSafelistedRequestHeader P header.1 header.2 with
      | true => exact .inr (.inl hSafe)
      | false =>
        exact .inr (.inr (.inl (h _ (mem_corsUnsafeNotForbidden hMem hForbidden hSafe))))

end Headers

section Soundness

/-- The redirect statuses that the validation does not know. -/
def isMissedRedirect (status : HttpStatusCode) : Bool :=
  status == .MultipleChoices || status == .Found || status == .SeeOther

theorem isRedirect_eq (status : HttpStatusCode) :
    RedirectHttpFilter.isRedirect status =
      (isRejectedPreflightStatus status || isMissedRedirect status) := by
  rw [RedirectHttpFilter.isRedirect, isRejectedPreflightStatus, isMissedRedirect]
  generalize (status == HttpStatusCode.MultipleChoices) = a
  generalize (status == HttpStatusCode.MovedPermanently) = b
  generalize (status == HttpStatusCode.Found) = c
  generalize (status == HttpStatusCode.SeeOther) = d
  generalize (status == HttpStatusCode.TemporaryRedirect) = e
  generalize (status == HttpStatusCode.PermanentRedirect) = f
  revert a b c d e f
  decide

/-- For every request and response: what passes the validation is sound exactly when the
checks that are made fail, or the status is not one of the missed redirects and the
content headers, which are not looked at, are allowed as well. -/
theorem preflight_sound_iff (P : Platform) (filter : OriginPolicyHttpFilter)
    (request : HttpRequestMessage) (response : HttpResponseMessage) :
    (filter.validatePreflightResponse P request response = .ok () →
        PreflightAllows P filter request response) ↔
      ¬ChecksPass P filter request response ∨
        (isMissedRedirect response.statusCode = false ∧
          ∀ header ∈ contentHeaders request,
            HeaderAllowed P (extractAccessControlValues response.headers)
              (withCredentials request) header) := by
  rw [validatePreflightResponse_ok]
  constructor
  · intro hSound
    by_cases hPass : ChecksPass P filter request response
    · right
      have hAllows := hSound hPass
      have hStatus := hAllows.status
      rw [isRedirect_eq, hPass.status, Bool.false_or] at hStatus
      exact ⟨hStatus, fun header hMem =>
        hAllows.headers header (List.mem_append_right _ hMem)⟩
    · exact .inl hPass
  · rintro (hFails | ⟨hStatus, hContent⟩) hPass
    · exact absurd hPass hFails
    · refine ⟨?_, originMatches_of_ok hPass.origin, methodListed_of_allowed hPass.method, ?_⟩
      · rw [isRedirect_eq, hPass.status, hStatus]
        rfl
      · intro header hMem
        rcases List.mem_append.mp hMem with hMessage | hIsContent
        · exact headerAllowed_of_names hPass.names hMessage
        · exact hContent header hIsContent

/-- A 302 that allows all origins and PUT passes as the answer to the preflight of a PUT. -/
theorem found_passes_preflight : ¬∀ (P : Platform) (filter : OriginPolicyHttpFilter)
    (request : HttpRequestMessage) (response : HttpResponseMessage),
    filter.validatePreflightResponse P request response = .ok () →
      PreflightAllows P filter request response := by
  intro hSound
  have hAllows := hSound ⟨fun _ => none, fun _ => none, fun _ => false, fun _ => false⟩
    ⟨some ⟨"http", "a.example", 80, "", "", "/"⟩⟩
    ⟨⟨"PUT", 9⟩, ⟨"http", "b.example", 80, "", "", "/"⟩, [], none,
      ⟨some ⟨1, [], "", false⟩, some 3, none⟩⟩
    ⟨.Found, some ⟨"http", "b.example", 80, "", "", "/next"⟩,
      [("Access-Control-Allow-Origin", "*"), ("Access-Control-Allow-Methods", "PUT")]⟩
    (by decide)
  exact absurd hAllows.status (by decide)

end Soundness

end Networking.OriginPolicyHttpFilter
