import Mathlib.Data.UInt

/-! HTTP messages of the platform's client, and what React Native attaches to them. -/
namespace Networking

/-- The texts that `boost::iequals` compares. -/
def lower (text : String) : List Char := text.toList.map Char.toLower

def iequals (a b : String) : Bool := lower a == lower b

theorem iequals_iff {a b : String} : iequals a b = true ↔ lower a = lower b := by
  rw [iequals, beq_iff_eq]

/-- A parsed absolute URI. Scheme and host are in lower case then. -/
structure Uri where
  schemeName : String
  host : String
  port : Nat
  userName : String
  password : String
  path : String
  deriving DecidableEq

/-- `DisplayUri`, which leaves the user information out. -/
def Uri.displayUri (uri : Uri) : Uri := { uri with userName := "", password := "" }

/-- A method object of the platform. `==` compares the objects: one made from a text is
not the one that `HttpMethod::Post()` returns. -/
structure HttpMethod where
  text : String
  object : Nat
  deriving DecidableEq

def HttpMethod.Get : HttpMethod := ⟨"GET", 0⟩
def HttpMethod.Post : HttpMethod := ⟨"POST", 1⟩
def HttpMethod.Options : HttpMethod := ⟨"OPTIONS", 2⟩

abbrev HttpStatusCode := Nat

namespace HttpStatusCode
def MultipleChoices : HttpStatusCode := 300
def MovedPermanently : HttpStatusCode := 301
def Found : HttpStatusCode := 302
def SeeOther : HttpStatusCode := 303
def TemporaryRedirect : HttpStatusCode := 307
def PermanentRedirect : HttpStatusCode := 308
end HttpStatusCode

inductive HResult where
  | redirectFailed | invalidArg | redirecting | fail | other (code : Int)
  deriving DecidableEq

structure HResultError where
  code : HResult
  message : String
  deriving DecidableEq

/-- Header entries in the order in which an iteration meets them. -/
abbrev Headers := List (String × String)

namespace Headers

def hasKey (headers : Headers) (name : String) : Bool := headers.any fun h => iequals h.1 name

def append (headers : Headers) (name value : String) : Headers := headers ++ [(name, value)]

def insert (headers : Headers) (name value : String) : Headers :=
  headers.filter (fun h => !iequals h.1 name) ++ [(name, value)]

end Headers

/-- The arguments of `SendRequest` that stay with a request; `data` stands for the JSON
object that its body is made from. -/
structure RequestArgs where
  requestId : Int
  headers : Headers
  data : String
  withCredentials : Bool
  deriving DecidableEq

/-- The entries that the filters keep in a request's property map. -/
structure Properties where
  requestArgs : Option RequestArgs
  originPolicy : Option Nat
  taintedOrigin : Option Bool
  deriving DecidableEq

structure HttpContent where
  headers : Headers
  body : String
  deriving DecidableEq

structure HttpRequestMessage where
  method : HttpMethod
  requestUri : Uri
  headers : Headers
  content : Option HttpContent
  properties : Properties
  deriving DecidableEq

/-- A response; `location` is its `Location` header, absent as null. -/
structure HttpResponseMessage where
  statusCode : HttpStatusCode
  location : Option Uri
  headers : Headers
  deriving DecidableEq

end Networking
