import Mathlib.Data.List.DropRight
import ReactNativeWindows.Control.Results
import ReactNativeWindows.Networking.OriginPolicyHttpFilter

/-! The headers that `ValidateResponse` leaves in a response. -/
namespace Networking.OriginPolicyHttpFilter

def trim (part : List Char) : List Char := trimRight (trimLeft part)

def httpOnly : List Char := lower "HttpOnly"

/-- Some part of a value with semicolons is `HttpOnly`, in any case and with white space around it. -/
def hasHttpOnlyAttribute (value : String) : Bool :=
  let parts := (lower value).splitOn ';'
  1 < parts.length && parts.any fun part => trim part == httpOnly

/-- There is such a part without white space before it at the start of the value, or after it at the end. -/
def HasUnspacedAttribute (value : String) : Prop :=
  ∃ before part after, (lower value).splitOn ';' = before ++ part :: after ∧ trim part = httpOnly ∧
    (before ≠ [] ∨ after ≠ []) ∧ (before = [] → trimLeft part = part) ∧
    (after = [] → trimRight part = part)

theorem httpOnly_append (spaces : List Char) : trimLeft (httpOnly ++ spaces) = httpOnly ++ spaces := rfl

theorem trimRight_httpOnly (start : List Char) :
    trimRight (start ++ httpOnly) = start ++ httpOnly := by
  rw [trimRight, List.reverse_append]
  change (httpOnly.reverse ++ start.reverse).reverse = _
  rw [← List.reverse_append, List.reverse_reverse]

theorem trimRight_prefix (part : List Char) : trimRight part <+: part :=
  List.rdropWhile_prefix isSpace part

variable {part : List Char}

/-- What ends without white space ends so where it starts without. -/
theorem trimRight_trimLeft (h : trimRight part = part) :
    trimRight (trimLeft part) = trimLeft part := by
  apply List.rdropWhile_eq_self_iff.mpr
  intro hNe
  have hSuffix : trimLeft part <:+ part := List.dropWhile_suffix isSpace
  rw [hSuffix.getLast hNe]
  exact List.rdropWhile_eq_self_iff.mp h (hSuffix.ne_nil hNe)

theorem first_iff : trimRight part = httpOnly ↔ trim part = httpOnly ∧ trimLeft part = part := by
  constructor
  · intro h
    obtain ⟨spaces, hSpaces⟩ := trimRight_prefix part
    have hStart : trimLeft part = part := by
      rw [← hSpaces, h]
      exact httpOnly_append spaces
    rw [trim, hStart]
    exact ⟨h, rfl⟩
  · rintro ⟨h, hStart⟩
    rw [trim, hStart] at h
    exact h

theorem last_iff : trimLeft part = httpOnly ↔ trim part = httpOnly ∧ trimRight part = part := by
  constructor
  · intro h
    obtain ⟨start, hStart⟩ : trimLeft part <:+ part := List.dropWhile_suffix isSpace
    constructor
    · rw [trim, h]
      rfl
    · rw [← hStart, h]
      exact trimRight_httpOnly start
  · rintro ⟨h, hEnd⟩
    rw [trim, trimRight_trimLeft hEnd] at h
    exact h

variable {middle : List (List Char)}

theorem parts_iff {first last : List Char} :
    (trimRight first = httpOnly ∨ (∃ part ∈ middle, trim part = httpOnly) ∨ trimLeft last = httpOnly) ↔
      ∃ before part after, first :: (middle ++ [last]) = before ++ part :: after ∧ trim part = httpOnly ∧
        (before ≠ [] ∨ after ≠ []) ∧ (before = [] → trimLeft part = part) ∧
        (after = [] → trimRight part = part) := by
  constructor
  · rintro (hFirst | ⟨part, hMem, hPart⟩ | hLast)
    · obtain ⟨hTrim, hStart⟩ := first_iff.mp hFirst
      have hAfter : middle ++ [last] ≠ [] := List.append_ne_nil_of_right_ne_nil _ (List.cons_ne_nil _ _)
      exact ⟨[], first, middle ++ [last], rfl, hTrim, Or.inr hAfter, fun _ => hStart,
        fun hNil => absurd hNil hAfter⟩
    · obtain ⟨start, rest, rfl⟩ := List.append_of_mem hMem
      have hAfter : rest ++ [last] ≠ [] := List.append_ne_nil_of_right_ne_nil _ (List.cons_ne_nil _ _)
      refine ⟨first :: start, part, rest ++ [last], ?_, hPart, Or.inr hAfter,
        fun hNil => absurd hNil (List.cons_ne_nil _ _), fun hNil => absurd hNil hAfter⟩
      rw [List.append_assoc]
      rfl
    · obtain ⟨hTrim, hEnd⟩ := last_iff.mp hLast
      exact ⟨first :: middle, last, [], rfl, hTrim, Or.inl (List.cons_ne_nil _ _),
        fun hNil => absurd hNil (List.cons_ne_nil _ _), fun _ => hEnd⟩
  · rintro ⟨before, part, after, hParts, hTrim, -, hStart, hEnd⟩
    cases before with
    | nil =>
      cases hParts
      exact Or.inl (first_iff.mpr ⟨hTrim, hStart rfl⟩)
    | cons other before =>
      have hRest : middle ++ [last] = before ++ part :: after := (List.cons.inj hParts).2
      rcases List.eq_nil_or_concat after with rfl | ⟨after, final, rfl⟩
      · have hLast := (List.append_inj' hRest rfl).2
        cases hLast
        exact Or.inr (Or.inr (last_iff.mpr ⟨hTrim, hEnd rfl⟩))
      · rw [List.concat_eq_append, ← List.cons_append, ← List.append_assoc] at hRest
        have hMiddle := (List.append_inj' hRest rfl).1
        refine Or.inr (Or.inl ⟨part, ?_, hTrim⟩)
        rw [hMiddle]
        exact List.mem_append_right _ List.mem_cons_self

theorem hasHttpOnly_of_parts {value : String} {first last : List Char}
    (h : (lower value).splitOn ';' = first :: (middle ++ [last])) : hasHttpOnly value = true ↔
      trimRight first = httpOnly ∨ (∃ part ∈ middle, trim part = httpOnly) ∨ trimLeft last = httpOnly := by
  have hLoop : hasHttpOnly value = (trimRight first == httpOnly ||
      middle.any (fun part => trim part == httpOnly) || trimLeft last == httpOnly) := by
    rw [hasHttpOnly, h]
    cases middle with
    | nil => rfl
    | cons part middle =>
      change (_ || ((part :: middle) ++ [last]).dropLast.any _ ||
        trimLeft (((part :: middle) ++ [last]).getLast?.getD []) == httpOnly) = _
      rw [List.dropLast_concat, List.getLast?_concat]
      rfl
  rw [hLoop, Bool.or_eq_true, Bool.or_eq_true, beq_iff_eq, beq_iff_eq, List.any_eq_true, or_assoc]
  simp only [beq_iff_eq]

/-- The pattern finds the attribute but for white space at the start and at the end of the value. -/
theorem hasHttpOnly_iff (value : String) : hasHttpOnly value = true ↔ HasUnspacedAttribute value := by
  rw [HasUnspacedAttribute]
  rcases hParts : (lower value).splitOn ';' with _ | ⟨first, rest⟩
  · constructor
    · intro h
      rw [hasHttpOnly, hParts] at h
      cases h
    · rintro ⟨before, part, after, hNil, -⟩
      exact absurd hNil.symm (List.append_ne_nil_of_right_ne_nil _ (List.cons_ne_nil _ _))
  · rcases List.eq_nil_or_concat rest with rfl | ⟨middle, last, rfl⟩
    · constructor
      · intro h
        rw [hasHttpOnly, hParts] at h
        cases h
      · rintro ⟨before, part, after, hOne, -, hSome, -⟩
        rcases List.append_eq_cons_iff.mp hOne.symm with ⟨rfl, hRest⟩ | ⟨tail, rfl, hRest⟩
        · cases hRest
          rcases hSome with hNe | hNe <;> exact absurd rfl hNe
        · exact absurd hRest.symm (List.append_ne_nil_of_right_ne_nil _ (List.cons_ne_nil _ _))
    · rw [List.concat_eq_append] at hParts ⊢
      rw [hasHttpOnly_of_parts hParts]
      exact parts_iff

variable (response : HttpResponseMessage) (props : Properties) (policy : OriginPolicy)
  (options : RuntimeOptions)

def crossOrigin : OriginPolicy → Bool
  | .none | .sameOrigin => false
  | .simpleCrossOriginResourceSharing | .crossOriginResourceSharing => true

def exposed (headers : Headers) (name : String) : Bool :=
  headers.any fun header => iequals header.1 "Access-Control-Expose-Headers" &&
    containsName (splitValues header.2) name

def sendsCredentials : Bool := (props.requestArgs.map RequestArgs.withCredentials).getD false

def keepsName (name : String) : Bool :=
  match policy with
  | .none | .sameOrigin => true
  | .simpleCrossOriginResourceSharing => containsName simpleCorsResponseHeaderNames name
  | .crossOriginResourceSharing => containsName simpleCorsResponseHeaderNames name ||
    exposed response.headers name || (exposed response.headers "*" && !sendsCredentials props)

/-- Whether an option keeps cookies from another origin out, which were not asked for. -/
def removesCookies : Bool :=
  crossOrigin policy && !sendsCredentials props && options.removeCookiesFromResponse

def letsThrough (name : String) : Bool :=
  keepsName response props policy name &&
    !(removesCookies props policy options && containsName cookieSettingResponseHeaders name)

/-- The headers that the policy lets through, but for cookies with the attribute. -/
def filteredHeaders : Headers :=
  response.headers.filter fun header => letsThrough response props policy options header.1 &&
    !(containsName cookieSettingResponseHeaders header.1 && hasHttpOnlyAttribute header.2)

/-- Each cookie-setting header that is let through has the attribute exactly when one of its name has it
where the pattern looks. -/
def AttributeSeen : Prop :=
  ∀ header ∈ response.headers, letsThrough response props policy options header.1 = true →
    containsName cookieSettingResponseHeaders header.1 = true →
      (hasHttpOnlyAttribute header.2 = true ↔ ∃ other ∈ response.headers,
        letsThrough response props policy options other.1 = true ∧ iequals other.1 header.1 = true ∧
          HasUnspacedAttribute other.2)

theorem removeHttpOnly_eq (headers : Headers) (removeAll : Bool) :
    removeHttpOnlyCookiesFromResponseHeaders headers removeAll = headers.filter fun header =>
      !(containsName cookieSettingResponseHeaders header.1 && headers.any fun other =>
        iequals other.1 header.1 && (removeAll || hasHttpOnly other.2)) := by
  rw [removeHttpOnlyCookiesFromResponseHeaders, removeHeaders]
  apply List.filter_congr
  intro header _
  congr 1
  rw [Bool.eq_iff_iff, containsName, List.any_eq_true, Bool.and_eq_true, List.any_eq_true]
  constructor
  · rintro ⟨name, hMem, hName⟩
    obtain ⟨other, hOther, rfl⟩ := List.mem_map.mp hMem
    obtain ⟨hMem, hRemoved⟩ := List.mem_filter.mp hOther
    rw [Bool.and_eq_true] at hRemoved
    rw [containsName_congr hName] at hRemoved
    refine ⟨hRemoved.1, other, hMem, ?_⟩
    rw [hName, hRemoved.2]
    rfl
  · rintro ⟨hCookie, other, hMem, hOther⟩
    obtain ⟨hName, hRemoved⟩ := (Bool.and_eq_true _ _).mp hOther
    refine ⟨other.1, List.mem_map.mpr ⟨other, List.mem_filter.mpr ⟨hMem, ?_⟩, rfl⟩, hName⟩
    rw [containsName_congr hName, hCookie, hRemoved]
    rfl

theorem add_exposedHeaders (values : AccessControlValues) (header : String × String) :
    (values.add header).exposedHeaders =
      if iequals header.1 "Access-Control-Expose-Headers" then
        values.exposedHeaders ++ splitValues header.2 else values.exposedHeaders := by
  have hOnly : ∀ name, lower name ≠ lower "Access-Control-Expose-Headers" →
      iequals header.1 name = true → iequals header.1 "Access-Control-Expose-Headers" = false := by
    intro name hNe hName
    apply Bool.eq_false_iff.mpr
    intro hExpose
    exact hNe ((iequals_iff.mp hName).symm.trans (iequals_iff.mp hExpose))
  rw [AccessControlValues.add]
  split
  next hName => rw [hOnly _ (by decide) hName, if_neg Bool.false_ne_true]
  split
  next hName => rw [hOnly _ (by decide) hName, if_neg Bool.false_ne_true]
  split
  next hName => rw [hOnly _ (by decide) hName, if_neg Bool.false_ne_true]
  split
  next hExpose => rfl
  split <;> rfl

theorem exposed_cons (header : String × String) (headers : Headers) (name : String) :
    exposed (header :: headers) name =
      (iequals header.1 "Access-Control-Expose-Headers" && containsName (splitValues header.2) name ||
        exposed headers name) := rfl

theorem exposedHeaders_eq (headers : Headers) (name : String) :
    containsName (extractAccessControlValues headers).exposedHeaders name = exposed headers name := by
  have hLoop : ∀ values : AccessControlValues,
      containsName (headers.foldl AccessControlValues.add values).exposedHeaders name =
        (containsName values.exposedHeaders name || exposed headers name) := by
    induction headers with
    | nil => exact fun values => (Bool.or_false _).symm
    | cons header headers ih =>
      intro values
      rw [List.foldl_cons, ih, add_exposedHeaders, exposed_cons]
      split
      next hExpose =>
        rw [hExpose, Bool.true_and, containsName, List.any_append, Bool.or_assoc]
        rfl
      next hOther =>
        rw [Bool.eq_false_iff.mpr hOther, Bool.false_and, Bool.false_or]
  exact hLoop ⟨"", "", [], [], []⟩

variable {response props policy options} {P : Platform} {filter : OriginPolicyHttpFilter}
  {result : HttpResponseMessage}

theorem sameOrigin_headers (hSame : crossOrigin policy = false)
    (h : filter.validateResponse P options response props policy = .ok result) :
    result.headers = removeHttpOnlyCookiesFromResponseHeaders response.headers false := by
  have hNot : ¬ (policy = .simpleCrossOriginResourceSharing ∨ policy = .crossOriginResourceSharing) := by
    rintro (rfl | rfl) <;> cases hSame
  rw [validateResponse, if_neg hNot] at h
  cases h
  rfl

theorem crossOrigin_headers (hCross : crossOrigin policy = true)
    (h : filter.validateResponse P options response props policy = .ok result) :
    ∃ args, props.requestArgs = some args ∧
      result.headers = removeHttpOnlyCookiesFromResponseHeaders
        (exposedHeadersOf policy (extractAccessControlValues response.headers) args.withCredentials
          response.headers) (!args.withCredentials && options.removeCookiesFromResponse) := by
  have hPolicy : policy = .simpleCrossOriginResourceSharing ∨ policy = .crossOriginResourceSharing := by
    cases policy with
    | none | sameOrigin => cases hCross
    | simpleCrossOriginResourceSharing => exact Or.inl rfl
    | crossOriginResourceSharing => exact Or.inr rfl
  rw [validateResponse, if_pos hPolicy] at h
  obtain ⟨args, hArgs, h⟩ := Control.bind_eq_ok.mp h
  have hSome : props.requestArgs = some args := by
    rw [lookupRequestArgs] at hArgs
    cases hProps : props.requestArgs with
    | none =>
      rw [hProps] at hArgs
      cases hArgs
    | some found =>
      rw [hProps] at hArgs
      cases hArgs
      rfl
  refine ⟨args, hSome, ?_⟩
  split at h
  next =>
    obtain ⟨_, _, h⟩ := Control.bind_eq_ok.mp h
    cases h
    rfl
  next =>
    obtain ⟨allowed, _, h⟩ := Control.bind_eq_ok.mp h
    split at h
    next =>
      obtain ⟨_, hError, _⟩ := Control.bind_eq_ok.mp h
      cases hError
    next =>
      cases h
      rfl

theorem exposedHeadersOf_eq {args : RequestArgs} (hCross : crossOrigin policy = true)
    (hArgs : props.requestArgs = some args) :
    exposedHeadersOf policy (extractAccessControlValues response.headers) args.withCredentials
        response.headers = response.headers.filter fun header => keepsName response props policy header.1 := by
  have hCredentials : sendsCredentials props = args.withCredentials := by
    rw [sendsCredentials, hArgs]
    rfl
  cases policy with
  | none | sameOrigin => cases hCross
  | simpleCrossOriginResourceSharing => rfl
  | crossOriginResourceSharing =>
    rw [exposedHeadersOf, if_neg (by decide)]
    simp only [exposedHeaders_eq, keepsName, hCredentials]
    split
    next hNotAll =>
      have hNone : (exposed response.headers "*" && !args.withCredentials) = false := by
        rw [Bool.and_comm, ← Bool.not_eq_true', Bool.not_and, Bool.not_not]
        exact hNotAll
      simp only [hNone, Bool.or_false]
    next hAll =>
      have hEach : (exposed response.headers "*" && !args.withCredentials) = true := by
        rw [Bool.and_comm, ← Bool.not_eq_false', Bool.not_and, Bool.not_not]
        exact Bool.eq_false_iff.mpr hAll
      simp only [hEach, Bool.or_true, List.filter_true]

theorem result_headers (h : filter.validateResponse P options response props policy = .ok result) :
    result.headers = removeHttpOnlyCookiesFromResponseHeaders
      (response.headers.filter fun header => keepsName response props policy header.1)
      (removesCookies props policy options) := by
  cases hCross : crossOrigin policy with
  | false =>
    have hKeeps : ∀ name, keepsName response props policy name = true := by
      intro name
      cases policy with
      | none | sameOrigin => rfl
      | simpleCrossOriginResourceSharing | crossOriginResourceSharing => cases hCross
    rw [sameOrigin_headers hCross h, removesCookies, hCross]
    simp only [hKeeps, List.filter_true, Bool.false_and]
  | true =>
    obtain ⟨args, hArgs, hHeaders⟩ := crossOrigin_headers hCross h
    have hCredentials : sendsCredentials props = args.withCredentials := by
      rw [sendsCredentials, hArgs]
      rfl
    rw [hHeaders, exposedHeadersOf_eq hCross hArgs, removesCookies, hCross, hCredentials, Bool.true_and]

theorem filter_eq_filter_iff {α : Type} {p q : α → Bool} {xs : List α} :
    xs.filter p = xs.filter q ↔ ∀ x ∈ xs, p x = q x := by
  constructor
  · intro h x hMem
    rw [Bool.eq_iff_iff]
    constructor
    · intro hp
      have hFiltered := List.mem_filter.mpr ⟨hMem, hp⟩
      rw [h] at hFiltered
      exact (List.mem_filter.mp hFiltered).2
    · intro hq
      have hFiltered := List.mem_filter.mpr ⟨hMem, hq⟩
      rw [← h] at hFiltered
      exact (List.mem_filter.mp hFiltered).2
  · exact List.filter_congr

/-- Whether a cookie-setting header goes, by its name. -/
theorem any_removed {name : String} {removeAll : Bool} :
    (response.headers.filter fun other => keepsName response props policy other.1).any (fun other =>
        iequals other.1 name && (removeAll || hasHttpOnly other.2)) = true ↔
      ∃ other ∈ response.headers, keepsName response props policy other.1 = true ∧
        iequals other.1 name = true ∧ (removeAll = true ∨ HasUnspacedAttribute other.2) := by
  rw [List.any_eq_true]
  constructor
  · rintro ⟨other, hFiltered, hRemoved⟩
    obtain ⟨hMem, hKept⟩ := List.mem_filter.mp hFiltered
    rw [Bool.and_eq_true, Bool.or_eq_true, hasHttpOnly_iff] at hRemoved
    exact ⟨other, hMem, hKept, hRemoved.1, hRemoved.2⟩
  · rintro ⟨other, hMem, hKept, hName, hRemoved⟩
    refine ⟨other, List.mem_filter.mpr ⟨hMem, hKept⟩, ?_⟩
    rw [Bool.and_eq_true, Bool.or_eq_true, hasHttpOnly_iff]
    exact ⟨hName, hRemoved⟩

theorem kept_iff {header : String × String} (hMem : header ∈ response.headers) :
    ((!(containsName cookieSettingResponseHeaders header.1 &&
          (response.headers.filter fun other => keepsName response props policy other.1).any fun other =>
            iequals other.1 header.1 && (removesCookies props policy options || hasHttpOnly other.2)) &&
        keepsName response props policy header.1) =
      (letsThrough response props policy options header.1 &&
        !(containsName cookieSettingResponseHeaders header.1 && hasHttpOnlyAttribute header.2))) ↔
      (letsThrough response props policy options header.1 = true →
        containsName cookieSettingResponseHeaders header.1 = true →
          (hasHttpOnlyAttribute header.2 = true ↔ ∃ other ∈ response.headers,
            letsThrough response props policy options other.1 = true ∧ iequals other.1 header.1 = true ∧
              HasUnspacedAttribute other.2)) := by
  simp only [letsThrough]
  cases hKeeps : keepsName response props policy header.1 with
  | false => simp only [Bool.and_false, Bool.false_and, Bool.false_eq_true, false_implies]
  | true =>
    cases hCookie : containsName cookieSettingResponseHeaders header.1 with
    | false =>
      simp only [Bool.false_and, Bool.and_false, Bool.not_false, Bool.and_self, Bool.false_eq_true,
        false_implies, implies_true]
    | true =>
      have hSelf : iequals header.1 header.1 = true := iequals_iff.mpr rfl
      cases hRemoves : removesCookies props policy options with
      | true =>
        have hAny := any_removed.mpr ⟨header, hMem, hKeeps, hSelf, Or.inl (Eq.refl true)⟩
        simp only [hAny, Bool.and_self, Bool.not_true, Bool.false_and, Bool.and_false,
          Bool.false_eq_true, false_implies]
      | false =>
        simp only [Bool.true_and, Bool.and_true, Bool.false_and, Bool.not_false, true_implies]
        rw [Bool.not_inj_iff, Bool.eq_iff_iff, any_removed]
        simp only [Bool.false_eq_true, false_or]
        exact iff_comm

/-- A response keeps what the policy lets through but for cookies with the attribute, where the pattern sees
the attribute of each. -/
theorem filtered_iff (P : Platform) (filter : OriginPolicyHttpFilter) (options : RuntimeOptions)
    (response : HttpResponseMessage) (props : Properties) (policy : OriginPolicy)
    (result : HttpResponseMessage)
    (h : filter.validateResponse P options response props policy = .ok result) :
    result.headers = filteredHeaders response props policy options ↔
      AttributeSeen response props policy options := by
  rw [result_headers h, removeHttpOnly_eq, List.filter_filter, filteredHeaders, filter_eq_filter_iff]
  constructor
  · exact fun hEach header hMem => (kept_iff hMem).mp (hEach header hMem)
  · exact fun hSeen header hMem => (kept_iff hMem).mpr (hSeen header hMem)

/-- A cookie of the same origin with the attribute at the end. -/
theorem filtered_cookie :
    (⟨200, none, [("ETag", "1")]⟩ : HttpResponseMessage).headers =
        filteredHeaders ⟨200, none, [("Set-Cookie", "id=a; HttpOnly"), ("ETag", "1")]⟩ ⟨none, none, none⟩
          .sameOrigin ⟨0, false, false, false, false, false⟩ ↔
      AttributeSeen ⟨200, none, [("Set-Cookie", "id=a; HttpOnly"), ("ETag", "1")]⟩ ⟨none, none, none⟩
        .sameOrigin ⟨0, false, false, false, false, false⟩ :=
  filtered_iff ⟨fun _ => none, fun _ => none, fun _ => false, fun _ => false⟩ ⟨none⟩ _ _ _ _ _ rfl

/-- White space at the end keeps the attribute from being seen. -/
theorem spaced_cookie_stays :
    ∃ result, validateResponse ⟨fun _ => none, fun _ => none, fun _ => false, fun _ => false⟩ ⟨none⟩
        ⟨0, false, false, false, false, false⟩ ⟨200, none, [("Set-Cookie", "id=a; HttpOnly ")]⟩
        ⟨none, none, none⟩ .sameOrigin = .ok result ∧
      result.headers ≠ filteredHeaders ⟨200, none, [("Set-Cookie", "id=a; HttpOnly ")]⟩
        ⟨none, none, none⟩ .sameOrigin ⟨0, false, false, false, false, false⟩ :=
  ⟨⟨200, none, [("Set-Cookie", "id=a; HttpOnly ")]⟩, rfl, by decide⟩

end Networking.OriginPolicyHttpFilter
