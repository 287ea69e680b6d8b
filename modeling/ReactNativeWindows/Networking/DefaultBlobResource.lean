import Mathlib.Data.Int.ModEq
import ReactNativeWindows.ReactNative.JSValue.JSValue

/-! The blobs in memory, and how `WinRTHttpResource::CreateRequest` uploads one. -/
namespace Networking

open Collections (Entries)
open Numbers (Double)
open ReactNative (JSNode StdString StdMap)

/-- The processors that the library is built for. -/
inductive Architecture where
  | x86 | x64 | arm64
  deriving DecidableEq

def Architecture.sizeBits : Architecture → ℕ
  | x86 => 32
  | x64 | arm64 => 64

/-- A `std::vector<uint8_t>`, whose size is a positive `ptrdiff_t`. -/
structure ByteVector (A : Architecture) where
  bytes : List UInt8
  length_lt : bytes.length < 2 ^ (A.sizeBits - 1)

structure ArrayView where
  bytes : List UInt8
  first : ℕ
  size : ℕ

namespace ArrayView

def empty : ArrayView := ⟨[], 0, 0⟩

/-- The view between two pointers into the vector. -/
def between (bytes : List UInt8) (first last : ℕ) : ArrayView :=
  ⟨bytes, first, (((last : ℤ) - first) % 2 ^ 32).toNat⟩

def elements (view : ArrayView) : Option (List UInt8) :=
  if view.first + view.size ≤ view.bytes.length then
    some ((view.bytes.drop view.first).take view.size)
  else none

end ArrayView

/-- The exceptions of `ResolveMessage`; `beyond` is a read outside of a vector. -/
inductive BlobError where
  | invalidArgument (what : String)
  | outOfRange (what : String)
  | beyond
  deriving DecidableEq

structure MemoryBlobPersistor (A : Architecture) where
  blobs : Entries StdString (ByteVector A)

namespace MemoryBlobPersistor
variable {A : Architecture}

def endBound (A : Architecture) (offset size : Int64) : ℕ :=
  ((offset + size).toInt % 2 ^ A.sizeBits).toNat

def resolveMessage (persistor : MemoryBlobPersistor A) (blobId : StdString)
    (offset size : Int64) : Except BlobError ArrayView :=
  if size < 1 then .ok .empty
  else
    match persistor.blobs.lookup blobId with
    | none => .error (.invalidArgument "Blob object not found")
    | some vector =>
      let endBound := endBound A offset size
      if endBound > vector.bytes.length ∨ offset ≥ Int64.ofNat vector.bytes.length ∨ offset < 0 then
        .error (.outOfRange "Offset or size out of range")
      else .ok (.between vector.bytes offset.toInt.toNat endBound)

def removeMessage (persistor : MemoryBlobPersistor A) (blobId : StdString) :
    MemoryBlobPersistor A :=
  ⟨Entries.erase blobId persistor.blobs⟩

/-- `insert_or_assign`. -/
def storeMessage (persistor : MemoryBlobPersistor A) (message : ByteVector A)
    (blobId : StdString) : MemoryBlobPersistor A :=
  ⟨Entries.set blobId message persistor.blobs⟩

end MemoryBlobPersistor

abbrev JSValueObject := StdMap StdString (JSNode StdString)

structure JSConverter where
  ofInt64 : Int64 → StdString
  ofDouble : Double → StdString
  stringToInt64 : StdString → Int64
  doubleToInt64 : Double → Int64

namespace JSConverter
variable (C : JSConverter)

def asString : JSNode StdString → StdString
  | .null => [110, 117, 108, 108]
  | .string value => value
  | .boolean value => if value then [116, 114, 117, 101] else [102, 97, 108, 115, 101]
  | .int64 value => C.ofInt64 value
  | .double value => C.ofDouble value
  | .object _ | .array _ => []

def asInt64 : JSNode StdString → Int64
  | .string value => C.stringToInt64 value
  | .boolean value => if value then 1 else 0
  | .int64 value => value
  | .double value => C.doubleToInt64 value
  | _ => 0

def asUInt8 (node : JSNode StdString) : UInt8 := (C.asInt64 node).toUInt64.toUInt8

end JSConverter

def asObject : JSNode StdString → JSValueObject
  | .object properties => properties
  | _ => []

def asArray : JSNode StdString → List (JSNode StdString)
  | .array items => items
  | _ => []

/-- `operator[]`. -/
def JSValueObject.get (object : JSValueObject) (key : StdString) : JSNode StdString :=
  (object.lookup key).getD .null

/-! `blobKeys`, and the other names in the data of a request. -/
namespace BlobKeys
def blob : StdString := [98, 108, 111, 98]
def blobId : StdString := [98, 108, 111, 98, 73, 100]
def offset : StdString := [111, 102, 102, 115, 101, 116]
def size : StdString := [115, 105, 122, 101]
def type : StdString := [116, 121, 112, 101]
def bytes : StdString := [98, 121, 116, 101, 115]
def string : StdString := [115, 116, 114, 105, 110, 103]
def base64 : StdString := [98, 97, 115, 101, 54, 52]
def uri : StdString := [117, 114, 105]
def formData : StdString := [102, 111, 114, 109, 68, 97, 116, 97]
end BlobKeys

structure RequestBodyHandler where
  supports : JSValueObject → Bool
  toRequestBody : JSValueObject → StdString → Except BlobError JSValueObject

namespace BlobModuleRequestBodyHandler
variable {A : Architecture} (C : JSConverter)

def supports (data : JSValueObject) : Bool :=
  match data.lookup BlobKeys.blob with
  | some blob => !(C.asString blob).isEmpty
  | none => false

def octetStream : StdString :=
  [97, 112, 112, 108, 105, 99, 97, 116, 105, 111, 110, 47, 111, 99, 116, 101, 116, 45, 115, 116,
    114, 101, 97, 109]

def bodyType (data : JSValueObject) (contentType : StdString) : StdString :=
  let type := match data.lookup BlobKeys.type with
    | some type => if (C.asString type).isEmpty then contentType else C.asString type
    | none => contentType
  if type.isEmpty then octetStream else type

def toRequestBody (persistor : MemoryBlobPersistor A) (data : JSValueObject)
    (contentType : StdString) : Except BlobError JSValueObject := do
  let blob := asObject (data.get BlobKeys.blob)
  let view ← persistor.resolveMessage (C.asString (JSValueObject.get blob BlobKeys.blobId))
    (C.asInt64 (JSValueObject.get blob BlobKeys.offset))
    (C.asInt64 (JSValueObject.get blob BlobKeys.size))
  match view.elements with
  | none => .error .beyond
  | some bytes =>
    -- In the order of the map.
    return [(BlobKeys.bytes, .array (bytes.map fun byte => .int64 (Int64.ofNat byte.toNat))),
      (BlobKeys.size, .int64 (Int64.ofNat bytes.length)),
      (BlobKeys.type, .string (bodyType C data contentType))]

def make (persistor : MemoryBlobPersistor A) : RequestBodyHandler :=
  ⟨supports C, toRequestBody C persistor⟩

end BlobModuleRequestBodyHandler

/-- The content of a request; a text, a file or a form is made by the platform. -/
inductive RequestContent where
  | buffer (bytes : List UInt8)
  | string (text : StdString)
  | base64 (text : StdString)
  | uri (text : StdString)
  | formData (parts : List (JSNode StdString))

/-- The vector that is filled from the array of a body. -/
def byteVector (C : JSConverter) (bytes : List (JSNode StdString)) : List UInt8 :=
  bytes.foldl (fun vector byte => vector ++ [C.asUInt8 byte]) (List.replicate bytes.length 0)

/-- `CreateFromByteArray` takes a view of the vector. -/
def contentBuffer (vector : List UInt8) : List UInt8 := vector.take (vector.length % 2 ^ 32)

def createContent (C : JSConverter) (handler : Option RequestBodyHandler) (data : JSValueObject)
    (contentType : StdString) : Except BlobError (Option RequestContent) :=
  if data.isEmpty then .ok none
  else
    match handler.filter fun handler => handler.supports data with
    | some handler =>
      (handler.toRequestBody data contentType).map fun blob =>
        some (.buffer (contentBuffer (byteVector C (asArray (JSValueObject.get blob BlobKeys.bytes)))))
    | none =>
      if (data.lookup BlobKeys.string).isSome then
        .ok (some (.string (C.asString (data.get BlobKeys.string))))
      else if (data.lookup BlobKeys.base64).isSome then
        .ok (some (.base64 (C.asString (data.get BlobKeys.base64))))
      else if (data.lookup BlobKeys.uri).isSome then
        .ok (some (.uri (C.asString (data.get BlobKeys.uri))))
      else if (data.lookup BlobKeys.formData).isSome then
        .ok (some (.formData (asArray (data.get BlobKeys.formData))))
      else .ok none

section Bounds
variable {A : Architecture} {persistor : MemoryBlobPersistor A} {blobId : StdString}
  {stored : ByteVector A} {offset size : Int64}

def slice (bytes : List UInt8) (offset size : ℤ) : List UInt8 :=
  (bytes.drop offset.toNat).take size.toNat

def Inside (bytes : List UInt8) (offset size : ℤ) : Prop :=
  0 ≤ offset ∧ offset + size ≤ bytes.length

/-- The test of `ResolveMessage`. -/
def OutOfRange (A : Architecture) (bytes : List UInt8) (offset size : Int64) : Prop :=
  offset.toInt < 0 ∨ (bytes.length : ℤ) ≤ offset.toInt ∨
    (bytes.length : ℤ) < (offset.toInt + size.toInt) % 2 ^ A.sizeBits

theorem endBound_eq (A : Architecture) (offset size : Int64) :
    (MemoryBlobPersistor.endBound A offset size : ℤ) =
      (offset.toInt + size.toInt) % 2 ^ A.sizeBits := by
  have hPos : (0 : ℤ) < 2 ^ A.sizeBits := by positivity
  have hDvd : (2 : ℤ) ^ A.sizeBits ∣ ((2 ^ 64 : ℕ) : ℤ) := by
    rw [Nat.cast_pow, Nat.cast_two]
    cases A <;> exact pow_dvd_pow 2 (by decide)
  rw [MemoryBlobPersistor.endBound, Int.toNat_of_nonneg (Int.emod_nonneg _ hPos.ne'),
    Int64.toInt_add, ← Int.emod_emod_of_dvd _ hDvd, Int.bmod_emod, Int.emod_emod_of_dvd _ hDvd]

theorem ByteVector.length_lt_int64 (stored : ByteVector A) : stored.bytes.length < 2 ^ 63 := by
  refine stored.length_lt.trans_le (Nat.pow_le_pow_right Nat.two_pos ?_)
  cases A <;> decide

theorem stored_lookup (persistor : MemoryBlobPersistor A) (stored : ByteVector A)
    (blobId : StdString) :
    (persistor.storeMessage stored blobId).blobs.lookup blobId = some stored := by
  rw [MemoryBlobPersistor.storeMessage, Entries.lookup_set, List.lookup_cons_self]

theorem resolveMessage_small (persistor : MemoryBlobPersistor A) (blobId : StdString)
    (offset : Int64) (h : size < 1) :
    persistor.resolveMessage blobId offset size = .ok .empty := if_pos h

/-- The test on fixed-width integers is that on numbers. -/
theorem test_iff (stored : ByteVector A) (offset size : Int64) :
    (MemoryBlobPersistor.endBound A offset size > stored.bytes.length ∨
      offset ≥ Int64.ofNat stored.bytes.length ∨ offset < 0) ↔
        OutOfRange A stored.bytes offset size := by
  have hEnd : MemoryBlobPersistor.endBound A offset size > stored.bytes.length ↔
      (stored.bytes.length : ℤ) < (offset.toInt + size.toInt) % 2 ^ A.sizeBits := by
    rw [← endBound_eq, Int.ofNat_lt]
  have hLength : offset ≥ Int64.ofNat stored.bytes.length ↔
      (stored.bytes.length : ℤ) ≤ offset.toInt := by
    rw [ge_iff_le, Int64.le_iff_toInt_le, Int64.toInt_ofNat_of_lt stored.length_lt_int64]
  have hNegative : offset < 0 ↔ offset.toInt < 0 := Int64.lt_iff_toInt_lt
  rw [hEnd, hLength, hNegative, OutOfRange]
  tauto

theorem resolveMessage_rejected (persistor : MemoryBlobPersistor A) (blobId : StdString)
    (h : ¬ size < 1) (hOut : OutOfRange A stored.bytes offset size) :
    (persistor.storeMessage stored blobId).resolveMessage blobId offset size =
      .error (.outOfRange "Offset or size out of range") := by
  rw [MemoryBlobPersistor.resolveMessage, if_neg h, stored_lookup]
  exact if_pos ((test_iff stored offset size).mpr hOut)

theorem resolveMessage_accepted (persistor : MemoryBlobPersistor A) (blobId : StdString) (h : ¬ size < 1)
    (hIn : ¬ OutOfRange A stored.bytes offset size) :
    (persistor.storeMessage stored blobId).resolveMessage blobId offset size =
      .ok (.between stored.bytes offset.toInt.toNat (MemoryBlobPersistor.endBound A offset size)) := by
  rw [MemoryBlobPersistor.resolveMessage, if_neg h, stored_lookup]
  exact if_neg fun hTest => hIn ((test_iff stored offset size).mp hTest)

theorem one_le_of_not_lt (h : ¬ size < 1) : 1 ≤ size.toInt := by
  rw [Int64.lt_iff_toInt_lt, not_lt] at h
  exact h

/-- What is rejected is outside of the vector. -/
theorem not_inside_of_outOfRange (h : 1 ≤ size.toInt)
    (hOut : OutOfRange A stored.bytes offset size) :
    ¬ Inside stored.bytes offset.toInt size.toInt := by
  rintro ⟨hFirst, hLast⟩
  rcases hOut with hNegative | hLength | hEnd
  · omega
  · omega
  · have hBound : (stored.bytes.length : ℤ) < 2 ^ A.sizeBits := by
      have hLt := stored.length_lt.trans_le (Nat.pow_le_pow_right Nat.two_pos (Nat.sub_le _ 1))
      exact_mod_cast hLt
    rw [Int.emod_eq_of_lt (by omega) (by omega)] at hEnd
    omega

theorem elements_of_inside (h : 1 ≤ size.toInt)
    (hInside : Inside stored.bytes offset.toInt size.toInt) :
    ∃ bytes, (ArrayView.between stored.bytes offset.toInt.toNat
      (MemoryBlobPersistor.endBound A offset size)).elements = some bytes := by
  obtain ⟨hFirst, hLast⟩ := hInside
  have hBound : (stored.bytes.length : ℤ) < 2 ^ A.sizeBits := by
    have hLt := stored.length_lt.trans_le (Nat.pow_le_pow_right Nat.two_pos (Nat.sub_le _ 1))
    exact_mod_cast hLt
  have hEnd := endBound_eq A offset size
  rw [Int.emod_eq_of_lt (by omega) (by omega)] at hEnd
  have hFits : offset.toInt.toNat + (((MemoryBlobPersistor.endBound A offset size : ℤ) -
      offset.toInt.toNat) % 2 ^ 32).toNat ≤ stored.bytes.length := by
    omega
  exact ⟨_, if_pos hFits⟩

end Bounds

section Upload
variable {A : Architecture} (C : JSConverter)

def items (bytes : List UInt8) : List (JSNode StdString) :=
  bytes.map fun byte => .int64 (Int64.ofNat byte.toNat)

def blobData (blobId : StdString) (offset size : JSNode StdString) : JSValueObject :=
  [(BlobKeys.blob, .object [(BlobKeys.blobId, .string blobId), (BlobKeys.offset, offset),
    (BlobKeys.size, size)])]

/-- An object has no text, so that the handler does not take it for a blob. -/
theorem createContent_blobData (handler : MemoryBlobPersistor A) (blobId : StdString)
    (offset size : JSNode StdString) (contentType : StdString) :
    createContent C (some (BlobModuleRequestBodyHandler.make C handler))
      (blobData blobId offset size) contentType = .ok none := rfl

/-- The body of stored bytes is what `ResolveMessage` shows of them. -/
theorem toRequestBody_blobData (persistor : MemoryBlobPersistor A) (blobId : StdString)
    (offset size : JSNode StdString) (contentType : StdString) :
    BlobModuleRequestBodyHandler.toRequestBody C persistor (blobData blobId offset size) contentType =
      (persistor.resolveMessage blobId (C.asInt64 offset) (C.asInt64 size)).bind fun view =>
        match view.elements with
        | none => .error .beyond
        | some bytes => .ok [(BlobKeys.bytes, .array (items bytes)),
            (BlobKeys.size, .int64 (Int64.ofNat bytes.length)),
            (BlobKeys.type, .string (BlobModuleRequestBodyHandler.bodyType C
              (blobData blobId offset size) contentType))] := rfl

/-- A request with a blob carries the slice, and no other slices than those of the blob are
accepted. -/
structure CarriesBytes (persistor : MemoryBlobPersistor A) (blobId : StdString)
    (stored : List UInt8) (offset size : JSNode StdString) (contentType : StdString) : Prop where
  content : ∀ body, BlobModuleRequestBodyHandler.toRequestBody C persistor
      (blobData blobId offset size) contentType = .ok body →
    createContent C (some (BlobModuleRequestBodyHandler.make C persistor))
      (blobData blobId offset size) contentType = .ok (some (.buffer
        (slice stored (C.asInt64 offset).toInt (C.asInt64 size).toInt)))
  rejects : 1 ≤ (C.asInt64 size).toInt →
    ((∃ error, persistor.resolveMessage blobId (C.asInt64 offset) (C.asInt64 size) = .error error) ↔
      ¬ Inside stored (C.asInt64 offset).toInt (C.asInt64 size).toInt)

/-- No upload of a blob carries its bytes. -/
theorem carriesBytes_iff (persistor : MemoryBlobPersistor A) (stored : ByteVector A)
    (blobId : StdString) (offset size : JSNode StdString) (contentType : StdString) :
    CarriesBytes C (persistor.storeMessage stored blobId) blobId stored.bytes offset size
        contentType ↔
      1 ≤ (C.asInt64 size).toInt ∧
        OutOfRange A stored.bytes (C.asInt64 offset) (C.asInt64 size) := by
  have hNoContent := createContent_blobData C (persistor.storeMessage stored blobId) blobId offset
    size contentType
  have hBody := toRequestBody_blobData C (persistor.storeMessage stored blobId) blobId offset size
    contentType
  constructor
  · intro h
    by_cases hSmall : C.asInt64 size < 1
    · -- The empty view is accepted, and no content is made.
      rw [resolveMessage_small _ _ _ hSmall] at hBody
      have hContent := h.content _ hBody
      rw [hNoContent] at hContent
      cases hContent
    · have hSize := one_le_of_not_lt hSmall
      refine ⟨hSize, ?_⟩
      by_contra hIn
      have hAccepted := resolveMessage_accepted persistor blobId hSmall hIn
      have hInside : Inside stored.bytes (C.asInt64 offset).toInt (C.asInt64 size).toInt := by
        by_contra hOutside
        obtain ⟨error, hError⟩ := (h.rejects hSize).mpr hOutside
        rw [hAccepted] at hError
        cases hError
      obtain ⟨bytes, hBytes⟩ := elements_of_inside hSize hInside
      rw [hAccepted] at hBody
      simp only [Except.bind, hBytes] at hBody
      have hContent := h.content _ hBody
      rw [hNoContent] at hContent
      cases hContent
  · rintro ⟨hSize, hOut⟩
    have hSmall : ¬ C.asInt64 size < 1 := by
      rw [Int64.lt_iff_toInt_lt, not_lt]
      exact hSize
    have hRejected := resolveMessage_rejected persistor blobId hSmall hOut
    constructor
    · intro body hAccepted
      rw [hBody, hRejected] at hAccepted
      cases hAccepted
    · exact fun _ => ⟨fun _ => not_inside_of_outOfRange hSize hOut, fun _ => ⟨_, hRejected⟩⟩

/-- A stored byte, which is uploaded as nothing. -/
theorem byte_not_uploaded : ¬ CarriesBytes ⟨fun _ => [], fun _ => [], fun _ => 0, fun _ => 0⟩
    ((⟨[]⟩ : MemoryBlobPersistor .x64).storeMessage ⟨[7], by decide⟩ [98]) [98] [7]
    (.int64 0) (.int64 1) [] := by
  intro h
  have hContent := h.content _ rfl
  rw [createContent_blobData] at hContent
  cases hContent

end Upload

end Networking
