import Mathlib.Tactic.Ring
import ReactNativeWindows.Control.Results

/-! Numbers as bytes, the lowest one first, and reading from bytes within their bounds. -/
namespace Encoding

open Control

def littleEndian : ℕ → ℕ → List UInt8
  | 0, _ => []
  | count + 1, n => UInt8.ofNat n :: littleEndian count (n / 256)

def ofLittleEndian : List UInt8 → ℕ
  | [] => 0
  | byte :: bytes => byte.toNat + 256 * ofLittleEndian bytes

@[simp] theorem length_littleEndian (count n : ℕ) : (littleEndian count n).length = count := by
  induction count generalizing n with
  | zero => rfl
  | succ count ih => rw [littleEndian, List.length_cons, ih]

theorem ofLittleEndian_littleEndian (count n : ℕ) :
    ofLittleEndian (littleEndian count n) = n % 256 ^ count := by
  induction count generalizing n with
  | zero => rw [littleEndian, ofLittleEndian, pow_zero, Nat.mod_one]
  | succ count ih =>
    have hByte : (UInt8.ofNat n).toNat = n % 256 := UInt8.toNat_ofNat'
    rw [littleEndian, ofLittleEndian, ih, hByte, pow_succ', Nat.mod_mul]

theorem littleEndian_ofLittleEndian (bytes : List UInt8) :
    littleEndian bytes.length (ofLittleEndian bytes) = bytes := by
  induction bytes with
  | nil => rfl
  | cons byte bytes ih =>
    have hLt : byte.toNat < 256 := byte.toNat_lt
    have hByte : UInt8.ofNat (byte.toNat + 256 * ofLittleEndian bytes) = byte := by
      apply UInt8.toNat_inj.mp
      rw [UInt8.toNat_ofNat']
      omega
    have hRest : (byte.toNat + 256 * ofLittleEndian bytes) / 256 = ofLittleEndian bytes := by
      omega
    rw [List.length_cons, littleEndian, ofLittleEndian, hByte, hRest, ih]

inductive Fault where
  | outOfBounds
  | terminated

def read (bytes : List UInt8) (offset count : ℕ) : Except Fault (List UInt8) :=
  if offset + count ≤ bytes.length then .ok ((bytes.drop offset).take count)
  else .error .outOfBounds

variable {bytes : List UInt8} {offset count : ℕ}

theorem read_of_le (h : offset + count ≤ bytes.length) :
    read bytes offset count = .ok ((bytes.drop offset).take count) := if_pos h

theorem read_of_lt (h : bytes.length < offset + count) :
    read bytes offset count = .error .outOfBounds := if_neg (Nat.not_le.mpr h)

theorem read_of_eq {before found after : List UInt8} (h : bytes = before ++ (found ++ after))
    (hOffset : before.length = offset) (hCount : found.length = count) :
    read bytes offset count = .ok found := by
  rw [read_of_le, h, ← hOffset, ← hCount, List.drop_left, List.take_left]
  rw [h, ← hOffset, ← hCount, List.length_append, List.length_append]
  omega

/-- The bytes from an offset on start with those that are read there. -/
theorem drop_of_read {found : List UInt8} (h : read bytes offset count = .ok found) :
    bytes.drop offset = found ++ bytes.drop (offset + count) ∧ found.length = count := by
  rw [read] at h
  split at h
  · rename_i hLe
    cases h
    refine ⟨?_, ?_⟩
    · rw [← List.drop_drop, List.take_append_drop]
    · rw [List.length_take, List.length_drop]
      omega
  · cases h

def overwrite (bytes : List UInt8) (offset : ℕ) (data : List UInt8) : List UInt8 :=
  bytes.take offset ++ data ++ bytes.drop (offset + data.length)

/-- Bytes are written behind others into a buffer that was empty. -/
theorem overwrite_replicate {found data : List UInt8} {byte : UInt8} {offset size rest : ℕ}
    (hOffset : found.length = offset) (hSize : data.length = size) :
    overwrite (found ++ List.replicate (size + rest) byte) offset data =
      found ++ data ++ List.replicate rest byte := by
  rw [overwrite, ← hOffset, List.take_left, ← List.drop_drop, List.drop_left, List.drop_replicate,
    hSize, Nat.add_sub_cancel_left]

def readUInt64 (bytes : List UInt8) (offset : ℕ) : Except Fault ℕ :=
  (read bytes offset 8).map ofLittleEndian

theorem readUInt64_of_eq {before after : List UInt8} {n : ℕ}
    (h : bytes = before ++ (littleEndian 8 n ++ after)) (hLt : n < 2 ^ 64)
    (hOffset : before.length = offset) : readUInt64 bytes offset = .ok n := by
  rw [readUInt64, read_of_eq h hOffset (length_littleEndian _ _)]
  show Except.ok (ofLittleEndian _) = _
  rw [ofLittleEndian_littleEndian, show 256 ^ 8 = 2 ^ 64 from rfl, Nat.mod_eq_of_lt hLt]

theorem drop_of_readUInt64 {n : ℕ} (h : readUInt64 bytes offset = .ok n) :
    bytes.drop offset = littleEndian 8 n ++ bytes.drop (offset + 8) := by
  rw [readUInt64] at h
  cases hRead : read bytes offset 8 with
  | error fault =>
    rw [hRead] at h
    cases h
  | ok found =>
    rw [hRead] at h
    cases h
    obtain ⟨hDrop, hLength⟩ := drop_of_read hRead
    rw [hDrop, ← hLength, littleEndian_ofLittleEndian]

theorem readUInt64_of_le (h : offset + 8 ≤ bytes.length) :
    ∃ n, readUInt64 bytes offset = .ok n := by
  rw [readUInt64, read_of_le h]
  exact ⟨_, rfl⟩

theorem readUInt64_of_lt (h : bytes.length < offset + 8) :
    readUInt64 bytes offset = .error .outOfBounds := by
  rw [readUInt64, read_of_lt h]
  rfl

/-- Compares bytes one after the other until they differ or there is a zero. -/
def strncmp : List UInt8 → List UInt8 → Except Fault Bool
  | _, [] => .ok true
  | [], _ :: _ => .error .outOfBounds
  | byte :: bytes, char :: chars =>
    if byte ≠ char then .ok false
    else if char = 0 then .ok true
    else strncmp bytes chars

/-- Without zeros in the expected bytes, they are read to their end or to the first difference. -/
theorem strncmp_eq {chars : List UInt8} (h : 0 ∉ chars) : strncmp bytes chars =
    if chars <+: bytes then .ok true
    else if bytes <+: chars then .error .outOfBounds
    else .ok false := by
  induction chars generalizing bytes with
  | nil => rw [strncmp, if_pos List.nil_prefix]
  | cons char chars ih =>
    rw [List.mem_cons, not_or] at h
    cases bytes with
    | nil =>
      rw [strncmp, if_neg, if_pos List.nil_prefix]
      exact fun hPrefix => List.cons_ne_nil _ _ (List.prefix_nil.mp hPrefix)
    | cons byte bytes =>
      rw [strncmp]
      by_cases hEq : byte = char
      · rw [if_neg (not_not.mpr hEq), if_neg (Ne.symm h.1), ih h.2, hEq]
        simp only [List.cons_prefix_cons, true_and]
      · rw [if_pos hEq, if_neg, if_neg]
        · exact fun hPrefix => hEq (List.cons_prefix_cons.mp hPrefix).1
        · exact fun hPrefix => hEq (List.cons_prefix_cons.mp hPrefix).1.symm

theorem prefix_of_strncmp {chars : List UInt8} (hZero : 0 ∉ chars)
    (h : strncmp bytes chars = .ok true) : chars <+: bytes := by
  by_contra hNot
  rw [strncmp_eq hZero, if_neg hNot] at h
  split at h <;> cases h

end Encoding
