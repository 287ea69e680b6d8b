import ReactNativeWindows.Networking.DefaultBlobResource

/-! `DefaultBlobResource::CreateFromParts`, which joins parts to a new blob. -/
namespace Networking

open ReactNative (JSNode StdString)

def BlobKeys.data : StdString := [100, 97, 116, 97]

/-- Insertion at the end of a vector, which may become too long for one. -/
def ByteVector.insert {A : Architecture} (buffer : ByteVector A) (bytes : List UInt8) :
    Option (ByteVector A) :=
  if h : (buffer.bytes ++ bytes).length < 2 ^ (A.sizeBits - 1) then some ⟨buffer.bytes ++ bytes, h⟩ else none

def BlobError.what : BlobError → StdString
  | .invalidArgument what => what.toUTF8.toList
  | .outOfRange what => what.toUTF8.toList
  | .beyond => []

def JSValueObject.find (object : JSValueObject) (key : StdString) : Except BlobError (JSNode StdString) :=
  match object.lookup key with
  | some value => .ok value
  | none => .error (.outOfRange "invalid map<K, T> key")

namespace DefaultBlobResource

variable {A : Architecture} (C : JSConverter) (persistor : MemoryBlobPersistor A)

/-! ### The code -/

/-- What becomes of a part in the loop: `thrown` is an exception that nothing catches, and `beyond` a read
outside of a vector. -/
inductive PartResult where
  | appended (bytes : List UInt8)
  | failed (message : StdString)
  | thrown
  | beyond

def resolvePart (blob : JSValueObject) : Except BlobError ArrayView := do
  let blobId ← blob.find BlobKeys.blobId
  let offset ← blob.find BlobKeys.offset
  let size ← blob.find BlobKeys.size
  persistor.resolveMessage (C.asString blobId) (C.asInt64 offset) (C.asInt64 size)

def insertView (view : ArrayView) : PartResult :=
  match view.elements with
  | some bytes => .appended bytes
  | none => .beyond

def invalidType : StdString := "Invalid type for blob: ".toUTF8.toList

def readPart (partItem : JSNode StdString) : PartResult :=
  let part := asObject partItem
  match part.lookup BlobKeys.type with
  | none => .thrown
  | some typeValue =>
    let type := C.asString typeValue
    if BlobKeys.blob = type then
      match part.lookup BlobKeys.data with
      | none => .thrown
      | some data =>
        match resolvePart C persistor (asObject data) with
        | .ok bufferPart => insertView bufferPart
        | .error error => .failed error.what
    else if BlobKeys.string = type then
      match part.lookup BlobKeys.data with
      | none => .thrown
      | some data => .appended (C.asString data)
    else .failed (invalidType ++ type)

/-- How the call ends: it returns with the calls of `OnError`, or an exception leaves it. -/
inductive CreateResult (A : Architecture) where
  | returned (persistor : MemoryBlobPersistor A) (errors : List StdString)
  | terminated
  | beyond

def appendParts (blobId : StdString) : List (JSNode StdString) → ByteVector A → CreateResult A
  | [], buffer => .returned (persistor.storeMessage buffer blobId) []
  | part :: parts, buffer =>
    match readPart C persistor part with
    | .appended bytes =>
      match buffer.insert bytes with
      | some buffer => appendParts blobId parts buffer
      | none => .terminated
    | .failed message => .returned persistor [message]
    | .thrown => .terminated
    | .beyond => .beyond

def createFromParts (parts : List (JSNode StdString)) (blobId : StdString) : CreateResult A :=
  appendParts C persistor blobId parts ⟨[], by positivity⟩

/-! ### What is claimed -/

structure BlobReference where
  blobId : StdString
  offset : Int64
  size : Int64

def reference (blob : JSValueObject) : Option BlobReference :=
  match blob.lookup BlobKeys.blobId, blob.lookup BlobKeys.offset, blob.lookup BlobKeys.size with
  | some blobId, some offset, some size =>
    some ⟨C.asString blobId, C.asInt64 offset, C.asInt64 size⟩
  | _, _, _ => none

inductive PartKind where
  | incomplete
  | blob (blob : JSValueObject)
  | string (text : StdString)
  | other (type : StdString)

/-- What a part is by its fields; it is incomplete without a type, or without the data of its type. -/
def kind (partItem : JSNode StdString) : PartKind :=
  match (asObject partItem).lookup BlobKeys.type, (asObject partItem).lookup BlobKeys.data with
  | none, _ => .incomplete
  | some type, data =>
    if C.asString type = BlobKeys.blob then
      (data.map fun data => PartKind.blob (asObject data)).getD .incomplete
    else if C.asString type = BlobKeys.string then
      (data.map fun data => PartKind.string (C.asString data)).getD .incomplete
    else .other (C.asString type)

/-- The bytes that a reference is for: a slice inside of a stored blob, or nothing where no size is asked. -/
def blobBytes (reference : BlobReference) : Option (List UInt8) :=
  if reference.size < 1 then some []
  else
    match persistor.blobs.lookup reference.blobId with
    | none => none
    | some stored =>
      if 0 ≤ reference.offset.toInt ∧ reference.offset.toInt + reference.size.toInt ≤ stored.bytes.length then
        some (slice stored.bytes reference.offset.toInt reference.size.toInt)
      else none

def partBytes (partItem : JSNode StdString) : Option (List UInt8) :=
  match kind C partItem with
  | .blob blob => (reference C blob).bind (blobBytes persistor)
  | .string text => some text
  | .incomplete => none
  | .other _ => none

def partsBytes : List (JSNode StdString) → Option (List UInt8)
  | [] => some []
  | part :: parts =>
    (partBytes C persistor part).bind fun bytes => (partsBytes parts).map fun rest => bytes ++ rest

/-- The bytes of the parts are stored, or nothing is, and there is one error. -/
def AllOrNothing (parts : List (JSNode StdString)) (blobId : StdString) : Prop :=
  (∃ buffer, partsBytes C persistor parts = some buffer.bytes ∧
      createFromParts C persistor parts blobId = .returned (persistor.storeMessage buffer blobId) []) ∨
    ∃ message, createFromParts C persistor parts blobId = .returned persistor [message]

/-! ### When it holds -/

structure Accepted (reference : BlobReference) (stored : ByteVector A) : Prop where
  positive : 1 ≤ reference.size.toInt
  isStored : persistor.blobs.lookup reference.blobId = some stored
  inRange : ¬ OutOfRange A stored.bytes reference.offset reference.size

def BlobReference.end (A : Architecture) (reference : BlobReference) : ℤ :=
  (reference.offset.toInt + reference.size.toInt) % 2 ^ A.sizeBits

/-- Such a part is reported: the type is not known, a field of the reference is missing, the blob is not
stored, or the range is not in it. -/
inductive Rejected : PartKind → Prop where
  | other (type : StdString) : Rejected (.other type)
  | noReference {blob : JSValueObject} (h : reference C blob = none) : Rejected (.blob blob)
  | notStored {blob : JSValueObject} {found : BlobReference} (h : reference C blob = some found)
      (hSize : 1 ≤ found.size.toInt) (hStored : persistor.blobs.lookup found.blobId = none) :
      Rejected (.blob blob)
  | outOfRange {blob : JSValueObject} {found : BlobReference} {stored : ByteVector A}
      (h : reference C blob = some found) (hSize : 1 ≤ found.size.toInt)
      (hStored : persistor.blobs.lookup found.blobId = some stored)
      (hRange : OutOfRange A stored.bytes found.offset found.size) : Rejected (.blob blob)

/-- The end comes before the offset, which a `size_t` of 32 bits makes possible. -/
inductive Reversed : PartKind → Prop where
  | intro {blob : JSValueObject} {found : BlobReference} {stored : ByteVector A}
      (h : reference C blob = some found) (hAccepted : Accepted persistor found stored)
      (hEnd : found.end A < found.offset.toInt) : Reversed (.blob blob)

/-- The range is not in the blob, or is too long for the view. -/
inductive Shortened : PartKind → Prop where
  | intro {blob : JSValueObject} {found : BlobReference} {stored : ByteVector A}
      (h : reference C blob = some found) (hAccepted : Accepted persistor found stored)
      (hEnd : ¬ found.end A < found.offset.toInt)
      (hLong : ¬ Inside stored.bytes found.offset.toInt found.size.toInt ∨ 2 ^ 32 ≤ found.size.toInt) :
      Shortened (.blob blob)

def addedLength (A : Architecture) : PartKind → ℕ
  | .blob blob =>
    match reference C blob with
    | some found => if found.size < 1 then 0 else ((found.end A - found.offset.toInt) % 2 ^ 32).toNat
    | none => 0
  | .string text => text.length
  | .incomplete => 0
  | .other _ => 0

def Fits (A : Architecture) (parts : List (JSNode StdString)) : Prop :=
  (parts.map fun part => addedLength C A (kind C part)).sum < 2 ^ (A.sizeBits - 1)

/-- All parts up to one that is rejected can be read. -/
def StopsCleanly (parts : List (JSNode StdString)) : Prop :=
  ∃ before part after, parts = before ++ part :: after ∧ Rejected C persistor (kind C part) ∧
    (∀ earlier ∈ before, kind C earlier ≠ .incomplete ∧ ¬ Reversed C persistor (kind C earlier)) ∧
    Fits C A before

def ReadsAll (parts : List (JSNode StdString)) : Prop :=
  (∀ part ∈ parts, kind C part ≠ .incomplete ∧ ¬ Rejected C persistor (kind C part) ∧
    ¬ Reversed C persistor (kind C part) ∧ ¬ Shortened C persistor (kind C part)) ∧
    Fits C A parts

section Part
variable {C persistor}

theorem readPart_eq (part : JSNode StdString) :
    readPart C persistor part =
      match kind C part with
      | .incomplete => .thrown
      | .blob blob =>
        match resolvePart C persistor blob with
        | .ok bufferPart => insertView bufferPart
        | .error error => .failed error.what
      | .string text => .appended text
      | .other type => .failed (invalidType ++ type) := by
  rw [readPart, kind]
  cases (asObject part).lookup BlobKeys.type with
  | none => rfl
  | some type =>
    dsimp only
    by_cases hBlob : C.asString type = BlobKeys.blob
    · rw [if_pos hBlob.symm, if_pos hBlob]
      cases (asObject part).lookup BlobKeys.data <;> rfl
    · rw [if_neg (Ne.symm hBlob), if_neg hBlob]
      by_cases hString : C.asString type = BlobKeys.string
      · rw [if_pos hString.symm, if_pos hString]
        cases (asObject part).lookup BlobKeys.data <;> rfl
      · rw [if_neg (Ne.symm hString), if_neg hString]

theorem resolvePart_eq (blob : JSValueObject) :
    resolvePart C persistor blob =
      match reference C blob with
      | some found => persistor.resolveMessage found.blobId found.offset found.size
      | none => .error (.outOfRange "invalid map<K, T> key") := by
  rw [resolvePart, reference, JSValueObject.find, JSValueObject.find, JSValueObject.find]
  cases blob.lookup BlobKeys.blobId with
  | none => rfl
  | some blobId =>
    cases blob.lookup BlobKeys.offset with
    | none => rfl
    | some offset =>
      cases blob.lookup BlobKeys.size with
      | none | some size => rfl

theorem not_small {size : Int64} (h : 1 ≤ size.toInt) : ¬ size < 1 := by
  rw [Int64.lt_iff_toInt_lt, not_lt]
  exact h

variable {found : BlobReference} {stored : ByteVector A}

theorem resolveMessage_of_stored (hSize : 1 ≤ found.size.toInt)
    (hStored : persistor.blobs.lookup found.blobId = some stored) :
    (OutOfRange A stored.bytes found.offset found.size →
      persistor.resolveMessage found.blobId found.offset found.size =
        .error (.outOfRange "Offset or size out of range")) ∧
    (¬ OutOfRange A stored.bytes found.offset found.size →
      persistor.resolveMessage found.blobId found.offset found.size =
        .ok (.between stored.bytes found.offset.toInt.toNat
          (MemoryBlobPersistor.endBound A found.offset found.size))) := by
  rw [MemoryBlobPersistor.resolveMessage, if_neg (not_small hSize), hStored]
  constructor
  · intro hOut
    exact if_pos ((test_iff stored found.offset found.size).mpr hOut)
  · intro hIn
    exact if_neg fun hTest => hIn ((test_iff stored found.offset found.size).mp hTest)

variable {part : JSNode StdString}

theorem readPart_of_incomplete (h : kind C part = .incomplete) :
    readPart C persistor part = .thrown := by
  rw [readPart_eq, h]

theorem readPart_of_rejected (h : Rejected C persistor (kind C part)) :
    ∃ message, readPart C persistor part = .failed message := by
  rw [readPart_eq]
  generalize kind C part = partKind at h
  cases h with
  | other type => exact ⟨_, rfl⟩
  | noReference hNone =>
    simp only [resolvePart_eq, hNone]
    exact ⟨_, rfl⟩
  | notStored hFound hSize hStored =>
    simp only [resolvePart_eq, hFound, MemoryBlobPersistor.resolveMessage, if_neg (not_small hSize), hStored]
    exact ⟨_, rfl⟩
  | outOfRange hFound hSize hStored hRange =>
    simp only [resolvePart_eq, hFound, (resolveMessage_of_stored hSize hStored).1 hRange]
    exact ⟨_, rfl⟩

/-- With a `size_t` of 64 bits, or where the end is not before the offset, nothing wrapped around. -/
theorem Accepted.bounds (h : Accepted persistor found stored) :
    0 ≤ found.offset.toInt ∧ found.offset.toInt < stored.bytes.length ∧
      0 ≤ found.end A ∧ found.end A ≤ stored.bytes.length ∧
      (found.end A < found.offset.toInt → stored.bytes.length < 2 ^ 31) := by
  have hIn := h.inRange
  rw [OutOfRange, not_or, not_or, not_lt, not_le, not_lt] at hIn
  obtain ⟨hFirst, hLast, hEnd⟩ := hIn
  refine ⟨hFirst, hLast, Int.emod_nonneg _ (by positivity), hEnd, ?_⟩
  intro hReversed
  have hSize := h.positive
  have hSizeLt := found.size.toInt_lt
  have hOffsetLt := found.offset.toInt_lt
  have hLength := stored.length_lt
  cases A with
  | x86 => exact hLength
  | x64 | arm64 =>
    rw [BlobReference.end, Architecture.sizeBits, Int.emod_eq_of_lt (by omega) (by omega)] at hReversed
    omega

theorem Accepted.elements (h : Accepted persistor found stored) :
    (ArrayView.between stored.bytes found.offset.toInt.toNat
      (MemoryBlobPersistor.endBound A found.offset found.size)).elements =
      if found.end A < found.offset.toInt then none
      else some (slice stored.bytes found.offset.toInt ((found.end A - found.offset.toInt) % 2 ^ 32)) := by
  obtain ⟨hFirst, hLast, hPositive, hEnd, hSmall⟩ := h.bounds
  have hBound : (MemoryBlobPersistor.endBound A found.offset found.size : ℤ) = found.end A := endBound_eq A _ _
  rw [ArrayView.elements, ArrayView.between]
  dsimp only
  rw [hBound, Int.toNat_of_nonneg hFirst]
  by_cases hReversed : found.end A < found.offset.toInt
  · have hLength := hSmall hReversed
    rw [if_pos hReversed, if_neg (by omega)]
  · rw [if_neg hReversed, if_pos (by omega), slice]

theorem readPart_of_reversed (h : Reversed C persistor (kind C part)) :
    readPart C persistor part = .beyond := by
  rw [readPart_eq]
  generalize kind C part = partKind at h
  cases h with
  | intro hFound hAccepted hEnd =>
    simp only [resolvePart_eq, hFound,
      (resolveMessage_of_stored hAccepted.positive hAccepted.isStored).2 hAccepted.inRange, insertView,
      hAccepted.elements, if_pos hEnd]

variable (C persistor) in
/-- What is appended for a part that is neither rejected nor unreadable. -/
structure Appends (part : JSNode StdString) (bytes : List UInt8) : Prop where
  readPart : readPart C persistor part = .appended bytes
  length : bytes.length = addedLength C A (kind C part)
  shortened : Shortened C persistor (kind C part) →
    ∀ whole, partBytes C persistor part = some whole → bytes.length < whole.length
  whole : ¬ Shortened C persistor (kind C part) → partBytes C persistor part = some bytes

theorem slice_length {bytes : List UInt8} {offset size : ℤ} (hSize : 0 ≤ size)
    (hInside : Inside bytes offset size) : ((slice bytes offset size).length : ℤ) = size := by
  obtain ⟨hFirst, hLast⟩ := hInside
  rw [slice, List.length_take, List.length_drop]
  omega

theorem blobBytes_of_accepted (h : Accepted persistor found stored) :
    blobBytes persistor found =
      if 0 ≤ found.offset.toInt ∧ found.offset.toInt + found.size.toInt ≤ stored.bytes.length then
        some (slice stored.bytes found.offset.toInt found.size.toInt)
      else none := by
  rw [blobBytes, if_neg (not_small h.positive), h.isStored]

theorem Accepted.end_eq (h : Accepted persistor found stored)
    (hInside : Inside stored.bytes found.offset.toInt found.size.toInt) :
    found.end A = found.offset.toInt + found.size.toInt := by
  obtain ⟨hFirst, hLast⟩ := hInside
  have hPositive := h.positive
  have hBound : (stored.bytes.length : ℤ) < 2 ^ A.sizeBits := by
    have hLt := stored.length_lt.trans_le (Nat.pow_le_pow_right Nat.two_pos (Nat.sub_le _ 1))
    exact_mod_cast hLt
  exact Int.emod_eq_of_lt (by omega) (by omega)

variable {blob : JSValueObject}

theorem appends_of_accepted (hKind : kind C part = .blob blob)
    (hFound : reference C blob = some found) (h : Accepted persistor found stored)
    (hForward : ¬ found.end A < found.offset.toInt) :
    Appends C persistor part
      (slice stored.bytes found.offset.toInt ((found.end A - found.offset.toInt) % 2 ^ 32)) := by
  obtain ⟨hFirst, hLast, hPositive, hEnd, -⟩ := h.bounds
  have hSize := h.positive
  have hPart : partBytes C persistor part = blobBytes persistor found := by
    rw [partBytes, hKind]
    dsimp only
    rw [hFound, Option.bind_some]
  have hInside : Inside stored.bytes found.offset.toInt ((found.end A - found.offset.toInt) % 2 ^ 32) :=
    ⟨hFirst, by omega⟩
  have hLength := slice_length (by omega) hInside
  constructor
  · rw [readPart_eq, hKind]
    dsimp only
    rw [resolvePart_eq, hFound]
    dsimp only
    rw [(resolveMessage_of_stored hSize h.isStored).2 h.inRange]
    dsimp only
    rw [insertView, h.elements, if_neg hForward]
  · rw [hKind, addedLength, hFound]
    dsimp only
    rw [if_neg (not_small hSize)]
    omega
  · intro hShort whole hWhole
    rw [hPart, blobBytes_of_accepted h] at hWhole
    rw [hKind] at hShort
    obtain ⟨hFound', hAccepted', -, hLong⟩ := hShort
    cases hFound.symm.trans hFound'
    cases h.isStored.symm.trans hAccepted'.isStored
    split at hWhole
    next hInside =>
      cases hWhole
      have hWholeLength := slice_length (by omega) hInside
      have hEndEq := h.end_eq hInside
      rcases hLong with hOutside | hLong
      · exact absurd hInside hOutside
      · omega
    next => cases hWhole
  · intro hExact
    have hBoth : Inside stored.bytes found.offset.toInt found.size.toInt ∧ found.size.toInt < 2 ^ 32 := by
      by_contra hNot
      apply hExact
      rw [hKind]
      refine .intro hFound h hForward ?_
      rw [not_and_or, not_lt] at hNot
      exact hNot
    have hEndEq := h.end_eq hBoth.1
    have hMod : (found.end A - found.offset.toInt) % 2 ^ 32 = found.size.toInt := by omega
    rw [hPart, blobBytes_of_accepted h, hMod]
    exact if_pos hBoth.1

theorem appends_of_small (hKind : kind C part = .blob blob) (hFound : reference C blob = some found)
    (hSmall : found.size < 1) : Appends C persistor part [] := by
  constructor
  · rw [readPart_eq, hKind]
    dsimp only
    rw [resolvePart_eq, hFound]
    dsimp only
    rw [resolveMessage_small _ _ _ hSmall]
    rfl
  · rw [hKind, addedLength, hFound]
    dsimp only
    rw [if_pos hSmall]
    rfl
  · intro hShort
    rw [hKind] at hShort
    obtain ⟨hFound', hAccepted, -, -⟩ := hShort
    cases hFound.symm.trans hFound'
    exact absurd hSmall (not_small hAccepted.positive)
  · intro
    rw [partBytes, hKind]
    dsimp only
    rw [hFound, Option.bind_some, blobBytes, if_pos hSmall]

theorem appends_of_readable (hComplete : kind C part ≠ .incomplete)
    (hTaken : ¬ Rejected C persistor (kind C part))
    (hForward : ¬ Reversed C persistor (kind C part)) :
    ∃ bytes, Appends C persistor part bytes := by
  cases hKind : kind C part with
  | incomplete => exact absurd hKind hComplete
  | other type => exact absurd (hKind ▸ .other type) hTaken
  | string text =>
    refine ⟨text, ?_, ?_, ?_, ?_⟩
    · rw [readPart_eq, hKind]
    · rw [hKind, addedLength]
    · intro hShort
      rw [hKind] at hShort
      cases hShort
    · intro
      rw [partBytes, hKind]
  | blob blob =>
    rw [hKind] at hTaken hForward
    cases hFound : reference C blob with
    | none => exact absurd (.noReference hFound) hTaken
    | some found =>
      by_cases hSmall : found.size < 1
      · exact ⟨[], appends_of_small hKind hFound hSmall⟩
      · have hSize := one_le_of_not_lt hSmall
        cases hStored : persistor.blobs.lookup found.blobId with
        | none => exact absurd (.notStored hFound hSize hStored) hTaken
        | some stored =>
          have hAccepted : Accepted persistor found stored :=
            ⟨hSize, hStored, fun hRange => hTaken (.outOfRange hFound hSize hStored hRange)⟩
          exact ⟨_, appends_of_accepted hKind hFound hAccepted
            fun hEnd => hForward (.intro hFound hAccepted hEnd)⟩

end Part

section Loop
variable {C persistor} {blobId : StdString}

theorem stored_inj {first second : ByteVector A}
    (h : persistor.storeMessage first blobId = persistor.storeMessage second blobId) : first = second := by
  have hLookup := congrArg (fun store => store.blobs.lookup blobId) h
  rw [stored_lookup, stored_lookup] at hLookup
  exact Option.some.inj hLookup

variable {buffer : ByteVector A} {bytes : List UInt8}

theorem insert_of_fits (h : buffer.bytes.length + bytes.length < 2 ^ (A.sizeBits - 1)) :
    ∃ buffer', buffer.insert bytes = some buffer' ∧ buffer'.bytes = buffer.bytes ++ bytes := by
  rw [← List.length_append] at h
  exact ⟨⟨_, h⟩, dif_pos h, rfl⟩

theorem insert_bytes {buffer' : ByteVector A} (h : buffer.insert bytes = some buffer') :
    buffer'.bytes = buffer.bytes ++ bytes := by
  rw [ByteVector.insert] at h
  split at h
  next => cases h; rfl
  next => cases h

variable {part : JSNode StdString}

variable (blobId) in
/-- A part that appends is followed by the others, if the vector can hold it. -/
theorem appendParts_of_appends (h : Appends C persistor part bytes)
    (parts : List (JSNode StdString)) (buffer : ByteVector A) :
    (appendParts C persistor blobId (part :: parts) buffer = .terminated ∧
      2 ^ (A.sizeBits - 1) ≤ buffer.bytes.length + addedLength C A (kind C part)) ∨
    ∃ buffer', buffer'.bytes = buffer.bytes ++ bytes ∧
      appendParts C persistor blobId (part :: parts) buffer
        = appendParts C persistor blobId parts buffer' := by
  rw [appendParts, h.readPart, ← h.length]
  dsimp only
  by_cases hFits : buffer.bytes.length + bytes.length < 2 ^ (A.sizeBits - 1)
  · obtain ⟨buffer', hInsert, hBytes⟩ := insert_of_fits hFits
    exact .inr ⟨buffer', hBytes, by rw [hInsert]⟩
  · cases hInsert : buffer.insert bytes with
    | none => exact .inl ⟨rfl, not_lt.mp hFits⟩
    | some buffer' =>
      have hLength := buffer'.length_lt
      rw [insert_bytes hInsert, List.length_append] at hLength
      exact absurd hLength hFits

variable (C persistor) in
/-- How a call goes on at its first part. -/
theorem part_cases (part : JSNode StdString) :
    (kind C part = .incomplete ∧ readPart C persistor part = .thrown) ∨
    (Rejected C persistor (kind C part) ∧ ∃ message, readPart C persistor part = .failed message) ∨
    (Reversed C persistor (kind C part) ∧ readPart C persistor part = .beyond) ∨
    (kind C part ≠ .incomplete ∧ ¬ Rejected C persistor (kind C part) ∧
      ¬ Reversed C persistor (kind C part) ∧ ∃ bytes, Appends C persistor part bytes) := by
  by_cases hComplete : kind C part = .incomplete
  · exact .inl ⟨hComplete, readPart_of_incomplete hComplete⟩
  by_cases hRejected : Rejected C persistor (kind C part)
  · exact .inr (.inl ⟨hRejected, readPart_of_rejected hRejected⟩)
  by_cases hReversed : Reversed C persistor (kind C part)
  · exact .inr (.inr (.inl ⟨hReversed, readPart_of_reversed hReversed⟩))
  · exact .inr (.inr (.inr ⟨hComplete, hRejected, hReversed,
      appends_of_readable hComplete hRejected hReversed⟩))

/-- The parts fit in a vector that has some bytes already. -/
def FitsAfter (C : JSConverter) (A : Architecture) (length : ℕ) (parts : List (JSNode StdString)) : Prop :=
  length + (parts.map fun part => addedLength C A (kind C part)).sum < 2 ^ (A.sizeBits - 1)

variable {parts : List (JSNode StdString)}

theorem fitsAfter_cons {length : ℕ} :
    FitsAfter C A length (part :: parts) ↔ FitsAfter C A (length + addedLength C A (kind C part)) parts := by
  rw [FitsAfter, FitsAfter, List.map_cons, List.sum_cons, Nat.add_assoc]

theorem fitsAfter_nil (buffer : ByteVector A) : FitsAfter C A buffer.bytes.length [] :=
  buffer.length_lt

theorem fits_iff (parts : List (JSNode StdString)) : Fits C A parts ↔ FitsAfter C A 0 parts := by
  rw [Fits, FitsAfter, Nat.zero_add]

variable (blobId) in
/-- Where the vector can hold a part, the loop goes on behind it. -/
theorem appendParts_of_fits (h : Appends C persistor part bytes) (parts : List (JSNode StdString))
    (hFits : buffer.bytes.length + addedLength C A (kind C part) < 2 ^ (A.sizeBits - 1)) :
    ∃ buffer', buffer'.bytes = buffer.bytes ++ bytes ∧
      appendParts C persistor blobId (part :: parts) buffer
        = appendParts C persistor blobId parts buffer' := by
  rcases appendParts_of_appends blobId h parts buffer with ⟨-, hLong⟩ | hNext
  · exact absurd hFits (not_lt.mpr hLong)
  · exact hNext

theorem Appends.length_append {buffer' : ByteVector A} (h : Appends C persistor part bytes)
    (hBytes : buffer'.bytes = buffer.bytes ++ bytes) :
    buffer'.bytes.length = buffer.bytes.length + addedLength C A (kind C part) := by
  rw [hBytes, List.length_append, h.length]

theorem appendParts_ends :
    (readPart C persistor part = .thrown →
      appendParts C persistor blobId (part :: parts) buffer = .terminated) ∧
    (readPart C persistor part = .beyond →
      appendParts C persistor blobId (part :: parts) buffer = .beyond) ∧
    (∀ message, readPart C persistor part = .failed message →
      appendParts C persistor blobId (part :: parts) buffer = .returned persistor [message]) := by
  refine ⟨?_, ?_, ?_⟩
  · intro h
    rw [appendParts, h]
  · intro h
    rw [appendParts, h]
  · intro message h
    rw [appendParts, h]

/-! ### An error -/

def StopsAfter (C : JSConverter) (persistor : MemoryBlobPersistor A) (length : ℕ)
    (parts : List (JSNode StdString)) : Prop :=
  ∃ before part after, parts = before ++ part :: after ∧ Rejected C persistor (kind C part) ∧
    (∀ earlier ∈ before, kind C earlier ≠ .incomplete ∧ ¬ Reversed C persistor (kind C earlier)) ∧
    FitsAfter C A length before

theorem stopsAfter_of_error {message : StdString}
    (h : appendParts C persistor blobId parts buffer = .returned persistor [message]) :
    StopsAfter C persistor buffer.bytes.length parts := by
  induction parts generalizing buffer with
  | nil => exact absurd (CreateResult.returned.inj h).2 nofun
  | cons part parts ih =>
    rcases part_cases C persistor part with
      ⟨-, hThrown⟩ | ⟨hRejected, -⟩ | ⟨-, hBeyond⟩ | ⟨hComplete, -, hForward, bytes, hAppends⟩
    · rw [appendParts_ends.1 hThrown] at h
      cases h
    · exact ⟨[], part, parts, rfl, hRejected, nofun, fitsAfter_nil buffer⟩
    · rw [appendParts_ends.2.1 hBeyond] at h
      cases h
    · rcases appendParts_of_appends blobId hAppends parts buffer with
        ⟨hEnds, -⟩ | ⟨buffer', hBytes, hNext⟩
      · rw [hEnds] at h
        cases h
      · rw [hNext] at h
        obtain ⟨before, stop, after, hParts, hRejected, hBefore, hFits⟩ := ih h
        refine ⟨part :: before, stop, after, ?_, hRejected, ?_, ?_⟩
        · rw [hParts, List.cons_append]
        · intro earlier hMem
          rcases List.mem_cons.mp hMem with rfl | hMem
          · exact ⟨hComplete, hForward⟩
          · exact hBefore earlier hMem
        · rw [fitsAfter_cons, ← hAppends.length_append hBytes]
          exact hFits

theorem error_of_stopsAfter (h : StopsAfter C persistor buffer.bytes.length parts) :
    ∃ message, appendParts C persistor blobId parts buffer = .returned persistor [message] := by
  obtain ⟨before, part, after, rfl, hRejected, hBefore, hFits⟩ := h
  induction before generalizing buffer with
  | nil =>
    obtain ⟨message, hFailed⟩ := readPart_of_rejected hRejected
    exact ⟨message, appendParts_ends.2.2 message hFailed⟩
  | cons first before ih =>
    obtain ⟨hComplete, hForward⟩ := hBefore first List.mem_cons_self
    by_cases hFirst : Rejected C persistor (kind C first)
    · obtain ⟨message, hFailed⟩ := readPart_of_rejected hFirst
      exact ⟨message, appendParts_ends.2.2 message hFailed⟩
    · obtain ⟨bytes, hAppends⟩ := appends_of_readable hComplete hFirst hForward
      rw [fitsAfter_cons] at hFits
      obtain ⟨buffer', hBytes, hNext⟩ := appendParts_of_fits blobId hAppends
        (before ++ part :: after) (Nat.lt_of_le_of_lt (Nat.le_add_right _ _) hFits)
      rw [List.cons_append, hNext]
      apply ih
      · intro earlier hMem
        exact hBefore earlier (List.mem_cons_of_mem _ hMem)
      · rw [hAppends.length_append hBytes]
        exact hFits

variable {stored : ByteVector A}

/-- A call that stores a vector has read its first part, and goes on. -/
theorem appends_of_stored (h : appendParts C persistor blobId (part :: parts) buffer
      = .returned (persistor.storeMessage stored blobId) []) :
    (kind C part ≠ .incomplete ∧ ¬ Rejected C persistor (kind C part) ∧
      ¬ Reversed C persistor (kind C part)) ∧
    ∃ bytes buffer', Appends C persistor part bytes ∧ buffer'.bytes = buffer.bytes ++ bytes ∧
      appendParts C persistor blobId parts buffer'
        = .returned (persistor.storeMessage stored blobId) [] := by
  rcases part_cases C persistor part with
    ⟨-, hThrown⟩ | ⟨-, message, hFailed⟩ | ⟨-, hBeyond⟩ | ⟨hComplete, hTaken, hForward, bytes, hAppends⟩
  · rw [appendParts_ends.1 hThrown] at h
    cases h
  · rw [appendParts_ends.2.2 message hFailed] at h
    exact absurd (CreateResult.returned.inj h).2 nofun
  · rw [appendParts_ends.2.1 hBeyond] at h
    cases h
  · rcases appendParts_of_appends blobId hAppends parts buffer with
      ⟨hEnds, -⟩ | ⟨buffer', hBytes, hNext⟩
    · rw [hEnds] at h
      cases h
    · rw [hNext] at h
      exact ⟨⟨hComplete, hTaken, hForward⟩, bytes, buffer', hAppends, hBytes, h⟩

theorem partsBytes_cons (h : partsBytes C persistor (part :: parts) = some bytes) :
    ∃ first rest, partBytes C persistor part = some first ∧ partsBytes C persistor parts = some rest ∧
      bytes = first ++ rest := by
  rw [partsBytes, Option.bind_eq_some_iff] at h
  obtain ⟨first, hFirst, hMap⟩ := h
  obtain ⟨rest, hRest, rfl⟩ := Option.map_eq_some_iff.mp hMap
  exact ⟨first, rest, hFirst, hRest, rfl⟩

/-- A part adds at most its bytes. -/
theorem Appends.length_le {whole : List UInt8} (h : Appends C persistor part bytes)
    (hWhole : partBytes C persistor part = some whole) : bytes.length ≤ whole.length := by
  by_cases hShort : Shortened C persistor (kind C part)
  · exact (h.shortened hShort whole hWhole).le
  · cases (h.whole hShort).symm.trans hWhole
    exact le_rfl

theorem length_le_of_stored
    (h : appendParts C persistor blobId parts buffer = .returned (persistor.storeMessage stored blobId) [])
    (hBytes : partsBytes C persistor parts = some bytes) :
    stored.bytes.length ≤ buffer.bytes.length + bytes.length := by
  induction parts generalizing buffer bytes with
  | nil =>
    cases stored_inj (CreateResult.returned.inj h).1
    exact Nat.le_add_right _ _
  | cons part parts ih =>
    obtain ⟨-, added, buffer', hAppends, hBuffer, hNext⟩ := appends_of_stored h
    obtain ⟨first, rest, hFirst, hRest, rfl⟩ := partsBytes_cons hBytes
    have hLe := ih hNext hRest
    have hAdded := hAppends.length_le hFirst
    rw [hBuffer, List.length_append] at hLe
    rw [List.length_append]
    omega

/-- The parts are complete, accepted and read as a whole. -/
def ReadsAfter (C : JSConverter) (persistor : MemoryBlobPersistor A) (length : ℕ)
    (parts : List (JSNode StdString)) : Prop :=
  (∀ part ∈ parts, kind C part ≠ .incomplete ∧ ¬ Rejected C persistor (kind C part) ∧
    ¬ Reversed C persistor (kind C part) ∧ ¬ Shortened C persistor (kind C part)) ∧
    FitsAfter C A length parts

theorem readsAfter_of_stored
    (h : appendParts C persistor blobId parts buffer = .returned (persistor.storeMessage stored blobId) [])
    (hBytes : partsBytes C persistor parts = some bytes)
    (hStored : stored.bytes = buffer.bytes ++ bytes) :
    ReadsAfter C persistor buffer.bytes.length parts := by
  induction parts generalizing buffer bytes with
  | nil => exact ⟨nofun, fitsAfter_nil buffer⟩
  | cons part parts ih =>
    obtain ⟨⟨hComplete, hTaken, hForward⟩, added, buffer', hAppends, hBuffer, hNext⟩ := appends_of_stored h
    obtain ⟨first, rest, hFirst, hRest, rfl⟩ := partsBytes_cons hBytes
    have hWhole : ¬ Shortened C persistor (kind C part) := by
      intro hShort
      -- The bytes that are missing here are not made up for later.
      have hLt := hAppends.shortened hShort first hFirst
      have hLe := length_le_of_stored hNext hRest
      rw [hStored, hBuffer] at hLe
      simp only [List.length_append] at hLe
      omega
    cases (hAppends.whole hWhole).symm.trans hFirst
    have hReads := ih hNext hRest (by rw [hStored, hBuffer, List.append_assoc])
    rw [hAppends.length_append hBuffer] at hReads
    constructor
    · intro other hMem
      rcases List.mem_cons.mp hMem with rfl | hMem
      · exact ⟨hComplete, hTaken, hForward, hWhole⟩
      · exact hReads.1 other hMem
    · rw [fitsAfter_cons]
      exact hReads.2

variable (blobId) in
theorem stored_of_readsAfter (buffer : ByteVector A)
    (h : ReadsAfter C persistor buffer.bytes.length parts) :
    ∃ bytes stored, partsBytes C persistor parts = some bytes ∧ stored.bytes = buffer.bytes ++ bytes ∧
      appendParts C persistor blobId parts buffer
        = .returned (persistor.storeMessage stored blobId) [] := by
  induction parts generalizing buffer with
  | nil => exact ⟨[], buffer, rfl, (List.append_nil _).symm, rfl⟩
  | cons part parts ih =>
    obtain ⟨hAll, hFits⟩ := h
    obtain ⟨hComplete, hTaken, hForward, hWhole⟩ := hAll part List.mem_cons_self
    obtain ⟨first, hAppends⟩ := appends_of_readable hComplete hTaken hForward
    rw [fitsAfter_cons] at hFits
    obtain ⟨buffer', hBuffer, hNext⟩ := appendParts_of_fits blobId hAppends parts
      (Nat.lt_of_le_of_lt (Nat.le_add_right _ _) hFits)
    rw [← hAppends.length_append hBuffer] at hFits
    obtain ⟨rest, stored, hRest, hStored, hResult⟩ :=
      ih buffer' ⟨fun other hMem => hAll other (List.mem_cons_of_mem _ hMem), hFits⟩
    refine ⟨first ++ rest, stored, ?_, ?_, hNext.trans hResult⟩
    · rw [partsBytes, hAppends.whole hWhole, hRest]
      rfl
    · rw [hStored, hBuffer, List.append_assoc]

end Loop

/-! ### Main results -/

/-- A call is all or nothing if and only if all parts are complete and read as a whole, or it reaches a part
that is rejected: parts without a type or without data, and references whose size is cut off, are neither. -/
theorem allOrNothing_iff (parts : List (JSNode StdString)) (blobId : StdString) :
    AllOrNothing C persistor parts blobId ↔ ReadsAll C persistor parts ∨ StopsCleanly C persistor parts := by
  constructor
  · rintro (⟨buffer, hBytes, hStored⟩ | ⟨message, hError⟩)
    · have hReads := readsAfter_of_stored hStored hBytes rfl
      exact .inl ⟨hReads.1, (fits_iff parts).mpr hReads.2⟩
    · obtain ⟨before, part, after, hParts, hRejected, hBefore, hFits⟩ := stopsAfter_of_error hError
      exact .inr ⟨before, part, after, hParts, hRejected, hBefore, (fits_iff before).mpr hFits⟩
  · rintro (⟨hAll, hFits⟩ | ⟨before, part, after, hParts, hRejected, hBefore, hFits⟩)
    · obtain ⟨bytes, stored, hBytes, hStored, hResult⟩ := stored_of_readsAfter blobId
        (⟨[], by positivity⟩ : ByteVector A) ⟨hAll, (fits_iff parts).mp hFits⟩
      refine .inl ⟨stored, ?_, hResult⟩
      rw [hBytes, hStored]
      rfl
    · exact .inr (error_of_stopsAfter ⟨before, part, after, hParts, hRejected, hBefore,
        (fits_iff before).mp hFits⟩)

/-- A part without a type, for which `at` throws. -/
theorem untyped_part_terminates :
    ¬ AllOrNothing ⟨fun _ => [], fun _ => [], fun _ => 0, fun _ => 0⟩
      (⟨[]⟩ : MemoryBlobPersistor .x64) [.object []] [98] := by
  rintro (⟨buffer, -, hStored⟩ | ⟨message, hError⟩)
  · cases hStored
  · cases hError

end DefaultBlobResource

end Networking
