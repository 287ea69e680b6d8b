import ReactNativeWindows.Networking.Http

/-! `OriginPolicyHttpFilter`: the checks of a request, of a preflight response and of a
response against the origin policy. -/
namespace Networking

/-- Functions of the platform and of Boost that the checks call. -/
structure Platform where
  /-- `Uri{text}`, which throws on a text that is not an absolute URI. -/
  parseUri : String → Option Uri
  /-- `ToString` of the result of `HttpMediaTypeHeaderValue::TryParse`. -/
  mediaType : String → Option String
  /-- `try_lexical_convert` to `double` and to `int`. -/
  isDouble : String → Bool
  isInt : String → Bool

structure RuntimeOptions where
  originPolicy : Nat
  blockMixedContentSimpleCors : Bool
  strictOriginCheckSimpleCors : Bool
  removeCookiesFromResponse : Bool
  strictScheme : Bool
  omitCredentials : Bool

/-- How a check fails: an exception, or a call on a null `m_origin`. -/
inductive Failure where
  | thrown (error : HResultError)
  | crashed
  deriving DecidableEq

def invalidArg {α : Type} (message : String) : Except Failure α :=
  .error (.thrown ⟨.invalidArg, message⟩)

/-- `Lookup` of a key that is not there. -/
def outOfBounds : Failure := .thrown ⟨.other 0x8000000B, ""⟩

inductive OriginPolicy where
  | none | sameOrigin | simpleCrossOriginResourceSharing | crossOriginResourceSharing
  deriving DecidableEq

/-- `find` in a set with the `CaseInsensitiveComparer`. -/
def containsName (names : List String) (name : String) : Bool := names.any fun n => iequals n name

theorem containsName_congr {names : List String} {a b : String} (h : iequals a b = true) :
    containsName names a = containsName names b := by
  rw [iequals_iff] at h
  simp only [containsName, iequals, h]

def wideLength (text : String) : Nat :=
  (text.toList.map fun c => if c.toNat < 0x10000 then 1 else 2).sum

/-- The filter's `m_origin`, null when the global origin is empty. -/
structure OriginPolicyHttpFilter where
  origin : Option Uri

namespace OriginPolicyHttpFilter

def forbiddenMethods : List String := ["CONNECT", "TRACE", "TRACK"]

def simpleCorsMethods : List String := ["GET", "HEAD", "POST"]

def simpleCorsRequestHeaderNames : List String :=
  ["Accept", "Accept-Language", "Content-Language", "Content-Type", "DPR", "Downlink",
    "Save-Data", "Viewport-Width", "Width"]

def simpleCorsResponseHeaderNames : List String :=
  ["Cache-Control", "Content-Language", "Content-Type", "Expires", "Last-Modified", "Pragma"]

def simpleCorsContentTypeValues : List String :=
  ["application/x-www-form-urlencoded", "multipart/form-data", "text/plain"]

def corsForbiddenRequestHeaderNames : List String :=
  ["Accept-Charset", "Accept-Encoding", "Access-Control-Request-Headers",
    "Access-Control-Request-Method", "Connection", "Content-Length", "Cookie", "Cookie2", "Date",
    "DNT", "Expect", "Host", "Keep-Alive", "Origin", "Referer", "TE", "Trailer",
    "Transfer-Encoding", "Upgrade", "Via"]

def cookieSettingResponseHeaders : List String := ["Set-Cookie", "Set-Cookie2"]

def corsForbiddenRequestHeaderNamePrefixes : List String := ["Proxy-", "Sec-"]

/-- `boost::istarts_with`. -/
def startsWith (name start : String) : Bool := (lower start).isPrefixOf (lower name)

def isSameOrigin : Option Uri → Option Uri → Bool
  | some u1, some u2 =>
    u1.schemeName == u2.schemeName && u1.host == u2.host && u1.port == u2.port
  | _, _ => false

def getOrigin (uri : Uri) : String :=
  let result := uri.schemeName ++ "://" ++ uri.host
  if !(uri.port == 80 && uri.schemeName == "http") &&
      !(uri.port == 443 && uri.schemeName == "https") then
    result ++ ":" ++ toString uri.port
  else result

/-- The test of `Content-Type` in the request headers is the opposite of the one in the
content headers. -/
def isSimpleCorsRequest (request : HttpRequestMessage) : Bool :=
  request.headers.all (fun header =>
    containsName simpleCorsRequestHeaderNames header.1 &&
      !(iequals header.1 "Content-Type" && containsName simpleCorsContentTypeValues header.2)) &&
  (match request.content with
    | some content => content.headers.all fun header =>
      (containsName simpleCorsRequestHeaderNames header.1 ||
          iequals header.1 "Content-Length") &&
        !(iequals header.1 "Content-Type" &&
          !containsName simpleCorsContentTypeValues header.2)
    | none => true) &&
  containsName simpleCorsMethods request.method.text

def areSafeRequestHeaders (headers : Headers) : Bool :=
  headers.all fun header =>
    !containsName corsForbiddenRequestHeaderNames header.1 &&
      !corsForbiddenRequestHeaderNamePrefixes.any (startsWith header.1)

def isCorsUnsafeRequestHeaderByte (c : Char) : Bool :=
  let c := c.toNat
  (c < 0x20 && c != 0x09) ||
    [0x22, 0x28, 0x29, 0x3a, 0x3c, 0x3e, 0x3f, 0x40, 0x5b, 0x5c, 0x5d, 0x7b, 0x7d, 0x7f].contains c

/-- What `Accept-Language` and `Content-Language` may consist of. -/
def isLanguageByte (c : Char) : Bool :=
  let c := c.toNat
  (0x30 ≤ c && c ≤ 0x39) || (0x41 ≤ c && c ≤ 0x5A) || (0x61 ≤ c && c ≤ 0x7A) ||
    [0x20, 0x2A, 0x2C, 0x2D, 0x2E, 0x3B, 0x3D].contains c

def safeHeaderNames : List String :=
  ["accept", "accept-language", "content-language", "content-type", "save-data", "device-memory",
    "dpr", "width", "viewport-width", "sec-ch-lang", "sec-ch-ua", "sec-ch-ua-platform",
    "sec-ch-ua-arch", "sec-ch-ua-model", "sec-ch-ua-mobile", "sec-ch-ua-full-version",
    "sec-ch-ua-platform-version"]

def isCorsSafelistedRequestHeader (P : Platform) (name value : String) : Bool :=
  let isName (n : String) := iequals n name
  let valueLower := lower value
  if wideLength value > 128 then false
  else if !safeHeaderNames.any isName then false
  else if isName "device-memory" || isName "dpr" then P.isDouble value
  else if isName "width" || isName "viewport-width" then P.isInt value
  else if isName "save-data" then valueLower == lower "on"
  else if isName "accept" then !valueLower.any isCorsUnsafeRequestHeaderByte
  else if isName "accept-language" || isName "content-language" then
    valueLower.all isLanguageByte
  else if isName "content-type" then
    if valueLower.any isCorsUnsafeRequestHeaderByte then false
    else match P.mediaType (String.ofList valueLower) with
      | some mediaType => simpleCorsContentTypeValues.contains mediaType
      | none => false
  else true

/-- Header names that `CorsUnsafeNotForbiddenRequestHeaderNames` passes over. -/
def isForbidden (name : String) : Bool :=
  startsWith name "Proxy-" || startsWith name "Sec-" ||
    containsName corsForbiddenRequestHeaderNames name

/-- The state of the loop holds the result, the names of the safe headers and the size of
their values. -/
def corsUnsafeLoop (P : Platform) : Headers → List String → List String → Nat →
    List String × List String × Nat
  | [], result, safe, size => (result, safe, size)
  | (name, value) :: headers, result, safe, size =>
    if isForbidden name then corsUnsafeLoop P headers result safe size
    else if !isCorsSafelistedRequestHeader P name value then
      corsUnsafeLoop P headers (result ++ [name]) safe size
    else corsUnsafeLoop P headers result (safe ++ [name]) (size + wideLength value)

def corsUnsafeNotForbiddenRequestHeaderNames (P : Platform) (headers : Headers) : List String :=
  let (result, potentiallyUnsafeNames, safelistValueSize) := corsUnsafeLoop P headers [] [] 0
  if safelistValueSize > 1024 then result ++ potentiallyUnsafeNames else result

/-- `\s` of the regular expression. -/
def isSpace (c : Char) : Bool := c == ' ' || (0x09 ≤ c.toNat && c.toNat ≤ 0x0D)

def splitValues (value : String) : List String :=
  let parts := value.toList.splitOn ','
  let trimRight (part : List Char) := (part.reverse.dropWhile isSpace).reverse
  match parts with
  | [] | [_] => [value]
  | first :: rest =>
    let last := (rest.getLast?.getD []).dropWhile isSpace
    let middle := rest.dropLast.map fun part => trimRight (part.dropWhile isSpace)
    -- an empty part at the end is not a token
    let tokens := trimRight first :: middle ++ if last.isEmpty then [] else [last]
    tokens.map String.ofList

/-- The sets are lists here, since they are only searched. -/
structure AccessControlValues where
  allowedOrigin : String
  allowedCredentials : String
  allowedHeaders : List String
  allowedMethods : List String
  exposedHeaders : List String

def AccessControlValues.add (result : AccessControlValues) (header : String × String) :
    AccessControlValues :=
  if iequals header.1 "Access-Control-Allow-Headers" then
    { result with allowedHeaders := result.allowedHeaders ++ splitValues header.2 }
  else if iequals header.1 "Access-Control-Allow-Methods" then
    { result with allowedMethods := result.allowedMethods ++ splitValues header.2 }
  else if iequals header.1 "Access-Control-Allow-Origin" then
    { result with allowedOrigin := header.2 }
  else if iequals header.1 "Access-Control-Expose-Headers" then
    { result with exposedHeaders := result.exposedHeaders ++ splitValues header.2 }
  else if iequals header.1 "Access-Control-Allow-Credentials" then
    { result with allowedCredentials := header.2 }
  else result

def extractAccessControlValues (headers : Headers) : AccessControlValues :=
  headers.foldl AccessControlValues.add ⟨"", "", [], [], []⟩

def lookupRequestArgs (props : Properties) : Except Failure RequestArgs :=
  match props.requestArgs with
  | some args => .ok args
  | none => .error outOfBounds

def originScheme (filter : OriginPolicyHttpFilter) : Except Failure String :=
  match filter.origin with
  | some origin => .ok origin.schemeName
  | none => .error .crashed

def validateRequest (filter : OriginPolicyHttpFilter) (options : RuntimeOptions)
    (request : HttpRequestMessage) : Except Failure OriginPolicy := do
  let sameOrigin := isSameOrigin filter.origin (some request.requestUri)
  match request.properties.originPolicy with
  | none => .error outOfBounds
  | some 0 => return .none
  | some 1 =>
    if !sameOrigin then invalidArg "SOP (same-origin policy) is enforced"
    else return .sameOrigin
  | some 2 =>
    if options.blockMixedContentSimpleCors then
      let scheme ← filter.originScheme
      if scheme != request.requestUri.schemeName then
        invalidArg "The origin and request URLs must have the same scheme"
    if sameOrigin then return .sameOrigin
    else if !isSimpleCorsRequest request then
      invalidArg ("The request does not meet the requirements for Same-Origin policy or " ++
        "Simple Cross-Origin resource sharing")
    else return .simpleCrossOriginResourceSharing
  | some 3 =>
    let scheme ← filter.originScheme
    if scheme != request.requestUri.schemeName then
      invalidArg "The origin and request URLs must have the same scheme"
    else if !areSafeRequestHeaders request.headers then
      invalidArg "Request header not allowed in cross-origin resource sharing"
    else if containsName forbiddenMethods request.method.text then
      invalidArg "Request method not allowed in cross-origin resource sharing"
    else if sameOrigin then return .sameOrigin
    else if isSimpleCorsRequest request then return .simpleCrossOriginResourceSharing
    else return .crossOriginResourceSharing
  | some policy => invalidArg ("Invalid OriginPolicy type: " ++ toString policy)

def mismatchMessage (allowedOrigin : String) : String :=
  if allowedOrigin = "" then "No valid origin in response"
  else if allowedOrigin.toList.tails.any [' ', ','].isPrefixOf then
    "Response header Access-Control-Allow-Origin can not have multiple values"
  else if allowedOrigin = "*" then
    "Response header Access-Control-Allow-Origin can not have a wildcard value when the " ++
      "request includes credentials"
  else "The Access-Control-Allow-Origin header has a value of [" ++ allowedOrigin ++
    "] which differs from the supplied origin"

/-- The origin that `Access-Control-Allow-Origin` has to name: none for a tainted request. -/
def suppliedOrigin (filter : OriginPolicyHttpFilter) (props : Properties) : Option Uri :=
  if props.taintedOrigin = some true then none else filter.origin

def validateAllowOrigin (P : Platform) (filter : OriginPolicyHttpFilter)
    (allowedOrigin allowCredentials : String) (props : Properties) : Except Failure Unit := do
  if allowedOrigin = "null" then
    invalidArg ("Response header Access-Control-Allow-Origin has a value of [null] which " ++
      "differs from the supplied origin")
  let args ← lookupRequestArgs props
  if !args.withCredentials && allowedOrigin == "*" then return
  if allowedOrigin = "" then invalidArg (mismatchMessage allowedOrigin)
  match P.parseUri allowedOrigin with
  | none => .error (.thrown ⟨.invalidArg, ""⟩)
  | some uri =>
    if !isSameOrigin (filter.suppliedOrigin props) (some uri) then
      invalidArg (mismatchMessage allowedOrigin)
  if !args.withCredentials then return
  if allowCredentials ≠ "true" then
    invalidArg ("Access-Control-Allow-Credentials value must be \"true\" when the response " ++
      "includes credentials")

def isMethodAllowed (values : AccessControlValues) (withCredentials : Bool) (method : String) :
    Bool :=
  values.allowedMethods.any (fun allowed =>
    if allowed = "*" then !withCredentials else iequals allowed method) ||
  containsName simpleCorsMethods method

/-- `INET_E_REDIRECTING` for the statuses that a preflight response must not have. -/
def isRejectedPreflightStatus (status : HttpStatusCode) : Bool :=
  status == .MovedPermanently || status == .TemporaryRedirect || status == .PermanentRedirect

/-- The checks of the header names; only the message headers are looked at. -/
def validatePreflightHeaders (P : Platform) (values : AccessControlValues) (withCredentials : Bool)
    (headers : Headers) : Except Failure Unit :=
  let notAllowed (name : String) : Except Failure Unit :=
    invalidArg ("Request header field [" ++ name ++
      "] is not allowed by Access-Control-Allow-Headers in preflight response")
  if !withCredentials && containsName values.allowedHeaders "*" then
    if headers.hasKey "Authorization" && !containsName values.allowedHeaders "Authorization" then
      notAllowed "Authorization"
    else .ok ()
  else
    match (corsUnsafeNotForbiddenRequestHeaderNames P headers).find? fun name =>
        !containsName values.allowedHeaders name with
    | some name => notAllowed name
    | none => .ok ()

def validatePreflightResponse (P : Platform) (filter : OriginPolicyHttpFilter)
    (request : HttpRequestMessage) (response : HttpResponseMessage) : Except Failure Unit := do
  if isRejectedPreflightStatus response.statusCode then
    .error (.thrown ⟨.redirecting, "Redirect is not allowed in a preflight request"⟩)
  let values := extractAccessControlValues response.headers
  filter.validateAllowOrigin P values.allowedOrigin values.allowedCredentials request.properties
  let args ← lookupRequestArgs request.properties
  if !isMethodAllowed values args.withCredentials request.method.text then
    invalidArg ("Method [" ++ request.method.text ++
      "] is not allowed by Access-Control-Allow-Methods in preflight response")
  validatePreflightHeaders P values args.withCredentials request.headers

/-- A part between semicolons without the white space that the pattern allows there. -/
def trimLeft (part : List Char) : List Char := part.dropWhile isSpace

def trimRight (part : List Char) : List Char := (part.reverse.dropWhile isSpace).reverse

/-- The search for `HttpOnly` in a cookie: at the start up to a semicolon, between two
semicolons, or after one at the end. -/
def hasHttpOnly (value : String) : Bool :=
  match (lower value).splitOn ';' with
  | [] | [_] => false
  | first :: rest =>
    trimRight first == lower "HttpOnly" ||
      rest.dropLast.any (fun part => trimRight (trimLeft part) == lower "HttpOnly") ||
      trimLeft (rest.getLast?.getD []) == lower "HttpOnly"

def removeHeaders (headers : Headers) (names : List String) : Headers :=
  headers.filter fun header => !containsName names header.1

def removeHttpOnlyCookiesFromResponseHeaders (headers : Headers) (removeAll : Bool) : Headers :=
  let cookies := headers.filter fun header =>
    containsName cookieSettingResponseHeaders header.1 && (removeAll || hasHttpOnly header.2)
  removeHeaders headers (cookies.map Prod.fst)

/-- The check under `Http.StrictOriginCheckSimpleCors`: `m_origin == Uri{value}` compares
objects, so only the wildcard is an allowed origin. -/
def strictOriginAllowed (P : Platform) : Headers → Except Failure Bool
  | [] => .ok false
  | (name, value) :: headers =>
    if iequals name "Access-Control-Allow-Origin" then
      if value = "*" then (strictOriginAllowed P headers).map fun _ => true
      else match P.parseUri value with
        | some _ => strictOriginAllowed P headers
        | none => .error (.thrown ⟨.invalidArg, ""⟩)
    else strictOriginAllowed P headers

/-- Whether `ValidateResponse` calls `ValidateAllowOrigin`. -/
def checksAllowOrigin (options : RuntimeOptions) : OriginPolicy → Bool
  | .none | .sameOrigin => false
  | .simpleCrossOriginResourceSharing => !options.strictOriginCheckSimpleCors
  | .crossOriginResourceSharing => true

/-- The headers that stay: simple ones, and with `CrossOriginResourceSharing` also those in
the expose list, where a wildcard without credentials exposes all. -/
def exposedHeadersOf (originPolicy : OriginPolicy) (values : AccessControlValues)
    (withCredentials : Bool) (headers : Headers) : Headers :=
  if originPolicy = .simpleCrossOriginResourceSharing then
    headers.filter fun header => containsName simpleCorsResponseHeaderNames header.1
  else if withCredentials || !containsName values.exposedHeaders "*" then
    headers.filter fun header => containsName simpleCorsResponseHeaderNames header.1 ||
      containsName values.exposedHeaders header.1
  else headers

def validateResponse (P : Platform) (filter : OriginPolicyHttpFilter) (options : RuntimeOptions)
    (response : HttpResponseMessage) (props : Properties) (originPolicy : OriginPolicy) :
    Except Failure HttpResponseMessage :=
  if originPolicy = .simpleCrossOriginResourceSharing ∨
      originPolicy = .crossOriginResourceSharing then do
    let values := extractAccessControlValues response.headers
    let args ← lookupRequestArgs props
    if checksAllowOrigin options originPolicy then
      filter.validateAllowOrigin P values.allowedOrigin values.allowedCredentials props
    else
      let allowed ← strictOriginAllowed P response.headers
      if !allowed then
        invalidArg "The server does not support CORS or the origin is not allowed"
    let headers := exposedHeadersOf originPolicy values args.withCredentials response.headers
    let removeAll := !args.withCredentials && options.removeCookiesFromResponse
    return { response with headers := removeHttpOnlyCookiesFromResponseHeaders headers removeAll }
  else
    .ok { response with
      headers := removeHttpOnlyCookiesFromResponseHeaders response.headers false }

def onRedirecting (filter : OriginPolicyHttpFilter) (request : HttpRequestMessage)
    (location : Option Uri) : Bool × Headers × Properties :=
  if !isSameOrigin location (some request.requestUri) &&
      !isSameOrigin filter.origin (some request.requestUri) then
    let headers := request.headers.insert "Origin" "null"
    match request.properties.requestArgs with
    | some _ => (true, headers, { request.properties with taintedOrigin := some true })
    | none => (false, headers, request.properties)
  else (true, request.headers, request.properties)

def checkScheme (filter : OriginPolicyHttpFilter) (options : RuntimeOptions) (uri : Uri) :
    Except Failure Unit :=
  if options.strictScheme && uri.schemeName != "https" && uri.schemeName != "http" then do
    let scheme ← filter.originScheme
    invalidArg ("Invalid URL scheme: [" ++ scheme ++ "]")
  else .ok ()

/-- The properties that `SendRequestAsync` sets: the policy, and the credentials, which are
taken away when the option to omit them is not set. -/
def setProperties (options : RuntimeOptions) (props : Properties) : Except Failure Properties :=
  let props := { props with originPolicy := some options.originPolicy }
  if !options.omitCredentials then
    (lookupRequestArgs props).map fun args =>
      { props with requestArgs := some { args with withCredentials := false } }
  else .ok props

/-- The user information is not sent to another origin. -/
def stripUser (policy : OriginPolicy) (uri : Uri) : Uri :=
  if (policy = .simpleCrossOriginResourceSharing ∨ policy = .crossOriginResourceSharing) ∧
      (0 < uri.userName.length ∨ 0 < uri.password.length) then uri.displayUri
  else uri

/-- The request as `SendRequestAsync` passes it on after `ValidateRequest`. -/
def prepareRequest (filter : OriginPolicyHttpFilter) (options : RuntimeOptions)
    (request : HttpRequestMessage) : Except Failure (HttpRequestMessage × OriginPolicy) := do
  filter.checkScheme options request.requestUri
  let props ← setProperties options request.properties
  let request := { request with properties := props }
  let policy ← filter.validateRequest options request
  return ({ request with requestUri := stripUser policy request.requestUri }, policy)

def preflightRequest (filter : OriginPolicyHttpFilter) (request : HttpRequestMessage) :
    Except Failure HttpRequestMessage :=
  match filter.origin with
  | none => .error .crashed
  | some origin =>
    let names := (request.headers ++ (request.content.map HttpContent.headers).getD []).map Prod.fst
    .ok ⟨.Options, request.requestUri,
      [("Accept", "*/*"), ("Access-Control-Request-Method", request.method.text),
        ("Access-Control-Request-Headers", ", ".intercalate names),
        ("Origin", getOrigin origin), ("Sec-Fetch-Mode", "CORS")],
      none, ⟨none, none, none⟩⟩

def insertOrigin (filter : OriginPolicyHttpFilter) (request : HttpRequestMessage)
    (policy : OriginPolicy) : Except Failure HttpRequestMessage :=
  if policy = .simpleCrossOriginResourceSharing ∨ policy = .crossOriginResourceSharing then
    match filter.origin with
    | none => .error .crashed
    | some origin =>
      .ok { request with headers := request.headers.insert "Origin" (getOrigin origin) }
  else .ok request

end OriginPolicyHttpFilter

end Networking
