import Mathlib
import ReactNativeWindows.Encoding.Base64
import ReactNativeWindows.Networking.BlobParts

/-! `BaseFileReaderResource`, which reads a blob as a text or as a data URL. -/
namespace Networking

open Encoding
open ReactNative (StdString)

/-- `transform_width` makes groups of six bits of groups of eight, and fills the last one with zeros. -/
def transformWidth : List UInt8 → List ℕ
  | [] => []
  | [a] => [a.toNat / 4, a.toNat % 4 * 16]
  | [a, b] => [a.toNat / 4, a.toNat % 4 * 16 + b.toNat / 16, b.toNat % 16 * 4]
  | a :: b :: c :: rest =>
    a.toNat / 4 :: (a.toNat % 4 * 16 + b.toNat / 16) :: (b.toNat % 16 * 4 + c.toNat / 64) ::
      (c.toNat % 64) :: transformWidth rest

def encodeBase64 (text : List UInt8) : List UInt8 :=
  let oss := (transformWidth text).map Base64.digit
  let padLength := (4 - oss.length % 4) % 4
  oss ++ List.replicate padLength Base64.pad

/-- A call of one of the two functions, with its argument. -/
inductive Settlement where
  | resolver (result : StdString)
  | rejecter (error : StdString)
  deriving DecidableEq

namespace BaseFileReaderResource

open DefaultBlobResource

variable {A : Architecture} (weakBlobPersistor : Option (MemoryBlobPersistor A))

/-- The calls that are made, unless bytes outside of a vector are read. -/
def readAsText (blobId : StdString) (offset size : Int64) (_encoding : StdString) :
    Option (List Settlement) :=
  match weakBlobPersistor with
  | none => some [.resolver "Could not find Blob persistor".toUTF8.toList]
  | some persistor =>
    match persistor.resolveMessage blobId offset size with
    | .error e => some [.rejecter e.what]
    | .ok bytes => bytes.elements.map fun result => [.resolver result]

/-- What comes before the bytes in a data URL; it ends with a comma. -/
def dataUrlStart (type : StdString) : StdString :=
  "data:".toUTF8.toList ++ type ++ ";base64,".toUTF8.toList

def readAsDataUrl (blobId : StdString) (offset size : Int64) (type : StdString) :
    Option (List Settlement) :=
  match weakBlobPersistor with
  | none => some [.rejecter "Could not find Blob persistor".toUTF8.toList]
  | some persistor =>
    match persistor.resolveMessage blobId offset size with
    | .error e => some [.rejecter e.what]
    | .ok bytes => bytes.elements.map fun view => [.resolver (dataUrlStart type ++ encodeBase64 view)]

inductive Reading where
  | text (encoding : StdString)
  | dataUrl (type : StdString)

def Reading.calls (reading : Reading) (blob : BlobReference) : Option (List Settlement) :=
  match reading with
  | .text encoding => readAsText weakBlobPersistor blob.blobId blob.offset blob.size encoding
  | .dataUrl type => readAsDataUrl weakBlobPersistor blob.blobId blob.offset blob.size type

def Reading.Shows (reading : Reading) (result bytes : List UInt8) : Prop :=
  match reading with
  | .text _ => result = bytes
  | .dataUrl type => ∃ data, result = dataUrlStart type ++ data ∧ (44 : UInt8) ∉ data ∧
      Base64.decode data = some bytes

/-- One function is called, once: the resolver with the bytes, or the rejecter if there are none. -/
def SettlesOnce (reading : Reading) (blob : BlobReference) : Prop :=
  match weakBlobPersistor.bind fun persistor => blobBytes persistor blob with
  | some bytes => ∃ result, reading.calls weakBlobPersistor blob = some [.resolver result] ∧
      reading.Shows result bytes
  | none => ∃ error, reading.calls weakBlobPersistor blob = some [.rejecter error]

theorem encodeBase64_eq (bytes : List UInt8) : encodeBase64 bytes = Base64.encode bytes := by
  induction bytes using Base64.encode.induct with
  | case1 | case2 | case3 => rfl
  | case4 a b c bytes ih =>
    have hLength : (transformWidth (a :: b :: c :: bytes)).length = (transformWidth bytes).length + 4 := rfl
    rw [encodeBase64] at ih
    rw [encodeBase64, Base64.encode, ← ih, List.length_map, hLength, Nat.add_mod_right, List.length_map]
    rfl

theorem comma_notMem_encode (bytes : List UInt8) : (44 : UInt8) ∉ Base64.encode bytes := by
  have hDigit : ∀ bits, (44 : UInt8) ≠ Base64.digit bits := by
    intro bits
    by_cases hBits : bits < 63
    · have hAll : ∀ bits ∈ List.range 63, (44 : UInt8) ≠ Base64.digit bits := by decide
      exact hAll bits (List.mem_range.mpr hBits)
    · rw [Base64.digit, if_neg (by omega), if_neg (by omega), if_neg (by omega), if_neg (by omega)]
      decide
  have hPad : (44 : UInt8) ≠ Base64.pad := by decide
  induction bytes using Base64.encode.induct with
  | case1 => exact List.not_mem_nil
  | case2 | case3 => simp [Base64.encode, hDigit, hPad]
  | case4 a b c bytes ih => simp [Base64.encode, Base64.group, hDigit, ih]

section Readings
variable {weakBlobPersistor} {persistor : MemoryBlobPersistor A} {reading : Reading} {blob : BlobReference}

theorem calls_of_error {e : BlobError}
    (h : persistor.resolveMessage blob.blobId blob.offset blob.size = .error e) :
    reading.calls (some persistor) blob = some [.rejecter e.what] := by
  cases reading <;> simp [Reading.calls, readAsText, readAsDataUrl, h]

theorem calls_of_ok (reading : Reading) {view : ArrayView}
    (h : persistor.resolveMessage blob.blobId blob.offset blob.size = .ok view) :
    (view.elements = none ∧ reading.calls (some persistor) blob = none) ∨
      ∃ bytes result, view.elements = some bytes ∧
        reading.calls (some persistor) blob = some [.resolver result] ∧ reading.Shows result bytes := by
  cases hElements : view.elements with
  | none => exact .inl ⟨rfl, by cases reading <;> simp [Reading.calls, readAsText, readAsDataUrl, h, hElements]⟩
  | some bytes =>
    refine .inr ⟨bytes, ?_⟩
    cases reading with
    | text encoding => exact ⟨bytes, rfl, by simp [Reading.calls, readAsText, h, hElements], rfl⟩
    | dataUrl type =>
      refine ⟨_, rfl, by simp [Reading.calls, readAsDataUrl, h, hElements]; rfl, _, rfl, ?_⟩
      rw [encodeBase64_eq]
      exact ⟨comma_notMem_encode bytes, Base64.decode_encode bytes⟩

theorem Reading.Shows.unique {result bytes other : List UInt8} (h : reading.Shows result bytes)
    (hOther : reading.Shows result other) : bytes = other := by
  cases reading with
  | text encoding => exact h.symm.trans hOther
  | dataUrl type =>
    obtain ⟨data, rfl, -, hData⟩ := h
    obtain ⟨data', hSame, -, hOther⟩ := hOther
    rw [← List.append_cancel_left hSame] at hOther
    exact Option.some.inj (hData.symm.trans hOther)

/-- What is read without an exception is right if it is the slice. -/
theorem settlesOnce_iff_of_ok {view : ArrayView}
    (h : persistor.resolveMessage blob.blobId blob.offset blob.size = .ok view) :
    SettlesOnce (some persistor) reading blob ↔
      ∃ bytes, view.elements = some bytes ∧ blobBytes persistor blob = some bytes := by
  rw [SettlesOnce, Option.bind_some]
  rcases calls_of_ok reading h with ⟨hBeyond, hCalls⟩ | ⟨bytes, result, hBytes, hCalls, hShows⟩
  · rw [hBeyond, hCalls]
    cases blobBytes persistor blob <;> simp
  · rw [hBytes, hCalls]
    cases hAsked : blobBytes persistor blob with
    | none => simp
    | some asked =>
      constructor
      · rintro ⟨other, hOther, hAskedShows⟩
        simp only [Option.some.injEq, List.cons.injEq, Settlement.resolver.injEq, and_true] at hOther
        rw [← hOther] at hAskedShows
        exact ⟨bytes, rfl, congrArg some (hAskedShows.unique hShows)⟩
      · rintro ⟨other, hOther, hSame⟩
        cases hOther
        cases hSame
        exact ⟨result, rfl, hShows⟩

theorem settlesOnce_of_error {e : BlobError}
    (h : persistor.resolveMessage blob.blobId blob.offset blob.size = .error e)
    (hNone : blobBytes persistor blob = none) : SettlesOnce (some persistor) reading blob := by
  rw [SettlesOnce, Option.bind_some, hNone]
  exact ⟨_, calls_of_error h⟩

/-- An accepted reference is read as a whole when it is inside and fits the size of a view. -/
theorem elements_iff {stored : ByteVector A} (h : Accepted persistor blob stored) :
    (∃ bytes, (ArrayView.between stored.bytes blob.offset.toInt.toNat
        (MemoryBlobPersistor.endBound A blob.offset blob.size)).elements = some bytes ∧
      blobBytes persistor blob = some bytes) ↔
      Inside stored.bytes blob.offset.toInt blob.size.toInt ∧ blob.size.toInt < 2 ^ 32 := by
  have hPositive := h.positive
  rw [h.elements]
  by_cases hInside : Inside stored.bytes blob.offset.toInt blob.size.toInt
  · have hEnd := h.end_eq hInside
    have hWhole := slice_length (by omega) hInside
    rw [(blobBytes_of_accepted h).trans (if_pos hInside), hEnd, if_neg (by omega), add_sub_cancel_left]
    constructor
    · rintro ⟨bytes, hRead, hAll⟩
      refine ⟨hInside, ?_⟩
      have hPart : Inside stored.bytes blob.offset.toInt (blob.size.toInt % 2 ^ 32) := by
        obtain ⟨hFirst, hLast⟩ := hInside
        exact ⟨hFirst, by omega⟩
      have hLength := slice_length (by omega) hPart
      rw [Option.some.inj (hRead.trans hAll.symm)] at hLength
      omega
    · rintro ⟨-, hFits⟩
      rw [Int.emod_eq_of_lt (by omega) hFits]
      exact ⟨_, rfl, rfl⟩
  · rw [(blobBytes_of_accepted h).trans (if_neg hInside)]
    simp [hInside]

/-- A reading settles as it should, but for a text of blobs that are gone, and for slices whose end is
reduced, or which are too long for a view. -/
theorem settles_once_iff (weakBlobPersistor : Option (MemoryBlobPersistor A)) (reading : Reading)
    (blob : BlobReference) : SettlesOnce weakBlobPersistor reading blob ↔
      (weakBlobPersistor = none → ∃ type, reading = .dataUrl type) ∧
        ∀ persistor, weakBlobPersistor = some persistor → ∀ stored, Accepted persistor blob stored →
          Inside stored.bytes blob.offset.toInt blob.size.toInt ∧ blob.size.toInt < 2 ^ 32 := by
  cases weakBlobPersistor with
  | none =>
    cases reading <;> simp [SettlesOnce, Reading.calls, readAsText, readAsDataUrl]
  | some persistor =>
    simp only [reduceCtorEq, false_implies, true_and, Option.some.injEq, forall_eq']
    by_cases hSmall : blob.size < 1
    · have hRead : persistor.resolveMessage blob.blobId blob.offset blob.size = .ok .empty := if_pos hSmall
      have hBytes : blobBytes persistor blob = some [] := if_pos hSmall
      refine iff_of_true ((settlesOnce_iff_of_ok hRead).mpr ⟨[], rfl, hBytes⟩) fun stored hAccepted => ?_
      exact absurd hSmall (not_small hAccepted.positive)
    · have hPositive := one_le_of_not_lt hSmall
      cases hStored : persistor.blobs.lookup blob.blobId with
      | none =>
        have hRead : persistor.resolveMessage blob.blobId blob.offset blob.size =
            .error (.invalidArgument "Blob object not found") := by
          rw [MemoryBlobPersistor.resolveMessage, if_neg hSmall, hStored]
        have hBytes : blobBytes persistor blob = none := by rw [blobBytes, if_neg hSmall, hStored]
        refine iff_of_true (settlesOnce_of_error hRead hBytes) fun stored hAccepted => ?_
        exact absurd (hStored.symm.trans hAccepted.isStored) (by simp)
      | some stored =>
        obtain ⟨hOut, hIn⟩ := resolveMessage_of_stored hPositive hStored
        by_cases hRange : OutOfRange A stored.bytes blob.offset blob.size
        · have hBytes : blobBytes persistor blob = none := by
            rw [blobBytes, if_neg hSmall, hStored]
            exact if_neg (not_inside_of_outOfRange hPositive hRange)
          refine iff_of_true (settlesOnce_of_error (hOut hRange) hBytes) fun other hAccepted => ?_
          obtain rfl := Option.some.inj (hStored.symm.trans hAccepted.isStored)
          exact absurd hRange hAccepted.inRange
        · have hAccepted : Accepted persistor blob stored := ⟨hPositive, hStored, hRange⟩
          rw [settlesOnce_iff_of_ok (hIn hRange), elements_iff hAccepted]
          constructor
          · intro hGood other hOther
            obtain rfl := Option.some.inj (hStored.symm.trans hOther.isStored)
            exact hGood
          · exact fun hGood => hGood stored hAccepted

/-- The text of a blob that is gone is an error message. -/
theorem text_without_persistor :
    ¬SettlesOnce (none : Option (MemoryBlobPersistor .x64)) (.text []) ⟨[], 0, 1⟩ := by
  intro h
  simp [SettlesOnce, Reading.calls, readAsText] at h

end Readings
end BaseFileReaderResource
end Networking
