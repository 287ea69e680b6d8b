import Mathlib.Data.UInt

/-! Base64 with padding, and when the texts of two byte strings may be joined. -/
namespace Encoding.Base64

def pad : UInt8 := 61

def digit (bits : ℕ) : UInt8 :=
  if bits < 26 then UInt8.ofNat (65 + bits)
  else if bits < 52 then UInt8.ofNat (71 + bits)
  else if bits < 62 then UInt8.ofNat (bits - 4)
  else if bits = 62 then 43
  else 47

def group (a b c : UInt8) : List UInt8 :=
  [digit (a.toNat / 4), digit (a.toNat % 4 * 16 + b.toNat / 16),
    digit (b.toNat % 16 * 4 + c.toNat / 64), digit (c.toNat % 64)]

def encode : List UInt8 → List UInt8
  | [] => []
  | [a] => [digit (a.toNat / 4), digit (a.toNat % 4 * 16), pad, pad]
  | [a, b] =>
    [digit (a.toNat / 4), digit (a.toNat % 4 * 16 + b.toNat / 16), digit (b.toNat % 16 * 4), pad]
  | a :: b :: c :: rest => group a b c ++ encode rest

theorem digit_ne_pad (bits : ℕ) : digit bits ≠ pad := by
  have hOfNat : ∀ n, n < 256 → n ≠ 61 → UInt8.ofNat n ≠ pad := fun n hBound hNe hEq =>
    hNe (by simpa [UInt8.toNat_ofNat_of_lt' hBound, pad] using congrArg UInt8.toNat hEq)
  rw [digit]
  split
  · exact hOfNat _ (by omega) (by omega)
  · split
    · exact hOfNat _ (by omega) (by omega)
    · split
      · exact hOfNat _ (by omega) (by omega)
      · split <;> decide

variable {bytes : List UInt8}

/-- Whole groups of three bytes have a text of their own. -/
theorem encode_append (h : 3 ∣ bytes.length) (rest : List UInt8) :
    encode (bytes ++ rest) = encode bytes ++ encode rest := by
  induction bytes using encode.induct with
  | case1 => rfl
  | case2 a => exact absurd h (show ¬ 3 ∣ 1 by decide)
  | case3 a b => exact absurd h (show ¬ 3 ∣ 2 by decide)
  | case4 a b c bytes ih =>
    have hRest : 3 ∣ bytes.length := (Nat.dvd_add_left (Nat.dvd_refl 3)).mp h
    simp only [List.cons_append, encode, ih hRest, List.append_assoc]

def padding (length : ℕ) : ℕ := (3 - length % 3) % 3

theorem padding_eq_zero {length : ℕ} : padding length = 0 ↔ 3 ∣ length := by
  rw [padding]
  omega

/-- The padding stands behind the digits. -/
theorem encode_eq_digits (bytes : List UInt8) : ∃ digits,
    encode bytes = digits ++ List.replicate (padding bytes.length) pad ∧ pad ∉ digits := by
  induction bytes using encode.induct with
  | case1 => exact ⟨[], rfl, List.not_mem_nil⟩
  | case2 a =>
    refine ⟨[_, _], rfl, ?_⟩
    simp only [List.mem_cons, List.not_mem_nil, or_false, not_or]
    exact ⟨(digit_ne_pad _).symm, (digit_ne_pad _).symm⟩
  | case3 a b =>
    refine ⟨[_, _, _], rfl, ?_⟩
    simp only [List.mem_cons, List.not_mem_nil, or_false, not_or]
    exact ⟨(digit_ne_pad _).symm, (digit_ne_pad _).symm, (digit_ne_pad _).symm⟩
  | case4 a b c bytes ih =>
    obtain ⟨digits, hDigits, hNone⟩ := ih
    have hPadding : padding (a :: b :: c :: bytes).length = padding bytes.length := by
      simp only [padding, List.length_cons]
      omega
    refine ⟨group a b c ++ digits, ?_, ?_⟩
    · rw [encode, hDigits, hPadding, List.append_assoc]
    · simp only [group, List.mem_append, List.mem_cons, List.not_mem_nil, or_false, not_or]
      exact ⟨⟨(digit_ne_pad _).symm, (digit_ne_pad _).symm, (digit_ne_pad _).symm,
        (digit_ne_pad _).symm⟩, hNone⟩

/-- Behind a padding character is nothing else. -/
theorem pad_last {before after : List UInt8} (h : encode bytes = before ++ pad :: after) :
    ∀ c ∈ after, c = pad := by
  obtain ⟨digits, hDigits, hNone⟩ := encode_eq_digits bytes
  rw [hDigits] at h
  rcases List.append_eq_append_iff.mp h with ⟨more, rfl, hPads⟩ | ⟨more, rfl, hPads⟩
  · intro c hMem
    have hIn : c ∈ more ++ pad :: after :=
      List.mem_append_right _ (List.mem_cons_of_mem _ hMem)
    exact List.eq_of_mem_replicate (hPads ▸ hIn)
  · cases more with
    | nil =>
      intro c hMem
      have hIn : c ∈ pad :: after := List.mem_cons_of_mem _ hMem
      rw [hPads] at hIn
      exact List.eq_of_mem_replicate hIn
    | cons first more =>
      cases hPads
      exact absurd (List.mem_append_right _ List.mem_cons_self) hNone

theorem encode_head (h : bytes ≠ []) : ∃ bits text, encode bytes = digit bits :: text := by
  match bytes with
  | [] => exact absurd rfl h
  | [a] => exact ⟨_, _, rfl⟩
  | [a, b] => exact ⟨_, _, rfl⟩
  | a :: b :: c :: rest => exact ⟨_, _, rfl⟩

/-- A text that goes on with another one is that of whole groups. -/
theorem dvd_of_encode_append {rest whole : List UInt8} (hRest : rest ≠ []) {others : List UInt8}
    (h : encode bytes ++ (encode rest ++ others) = encode whole) : 3 ∣ bytes.length := by
  obtain ⟨digits, hDigits, -⟩ := encode_eq_digits bytes
  obtain ⟨bits, text, hHead⟩ := encode_head hRest
  by_contra hPart
  obtain ⟨more, hMore⟩ := Nat.exists_eq_succ_of_ne_zero fun hZero => hPart (padding_eq_zero.mp hZero)
  rw [hDigits, hMore, List.replicate_succ, hHead, List.append_assoc, List.cons_append] at h
  have hPad := pad_last h.symm (digit bits)
    (List.mem_append_right _ List.mem_cons_self)
  exact digit_ne_pad bits hPad

/-- The texts of the parts are the text of the whole exactly when the parts are made of whole
groups, but for the last one. -/
theorem flatMap_encode_iff {parts : List (List UInt8)} (h : ∀ part ∈ parts, part ≠ []) :
    parts.flatMap encode = encode parts.flatten ↔ ∀ part ∈ parts.dropLast, 3 ∣ part.length := by
  induction parts with
  | nil => exact ⟨fun _ part hMem => (List.not_mem_nil hMem).elim, fun _ => rfl⟩
  | cons part parts ih =>
    cases parts with
    | nil =>
      constructor
      · intro _ other hMem
        cases hMem
      · intro _
        rw [List.flatMap_singleton, List.flatten_singleton]
    | cons next parts =>
      have hNext : next ≠ [] := h next (List.mem_cons_of_mem _ List.mem_cons_self)
      have hRest := ih fun other hMem => h other (List.mem_cons_of_mem _ hMem)
      rw [List.flatMap_cons, List.flatten_cons, List.dropLast_cons_of_ne_nil (List.cons_ne_nil _ _)]
      constructor
      · intro hJoined
        have hPart : 3 ∣ part.length := dvd_of_encode_append hNext hJoined
        rw [encode_append hPart, List.append_cancel_left_eq] at hJoined
        intro other hMem
        rcases List.mem_cons.mp hMem with rfl | hLater
        · exact hPart
        · exact hRest.mp hJoined other hLater
      · intro hGroups
        rw [encode_append (hGroups part List.mem_cons_self),
          hRest.mpr fun other hMem => hGroups other (List.mem_cons_of_mem _ hMem)]

def value (c : UInt8) : Option ℕ := (List.range 64).find? fun bits => digit bits == c

/-! The bytes of a group, from the bits of two characters. -/

def firstByte (w x : ℕ) : UInt8 := UInt8.ofNat (w * 4 + x / 16)

def secondByte (x y : ℕ) : UInt8 := UInt8.ofNat (x % 16 * 16 + y / 4)

def thirdByte (y z : ℕ) : UInt8 := UInt8.ofNat (y % 4 * 64 + z)

/-- Padding is accepted in the last group only. -/
def decode : List UInt8 → Option (List UInt8)
  | [] => some []
  | w :: x :: y :: z :: rest => do
    let w ← value w
    let x ← value x
    if y = pad ∧ z = pad ∧ rest = [] then return [firstByte w x]
    let y ← value y
    if z = pad ∧ rest = [] then return [firstByte w x, secondByte x y]
    let z ← value z
    let rest ← decode rest
    return firstByte w x :: secondByte x y :: thirdByte y z :: rest
  | _ => none

theorem value_digit {bits : ℕ} (h : bits < 64) : value (digit bits) = some bits := by
  have hAll : ∀ bits ∈ List.range 64, value (digit bits) = some bits := by decide
  exact hAll bits (List.mem_range.mpr h)

theorem ofNat_eq {n : ℕ} {byte : UInt8} (h : n = byte.toNat) : UInt8.ofNat n = byte := by
  rw [h, UInt8.ofNat_toNat]

theorem firstByte_eq (a b : UInt8) : firstByte (a.toNat / 4) (a.toNat % 4 * 16 + b.toNat / 16) = a :=
  ofNat_eq (by have := b.toNat_lt; omega)

theorem secondByte_eq (a b c : UInt8) :
    secondByte (a.toNat % 4 * 16 + b.toNat / 16) (b.toNat % 16 * 4 + c.toNat / 64) = b :=
  ofNat_eq (by have := b.toNat_lt; have := c.toNat_lt; omega)

theorem thirdByte_eq (b c : UInt8) : thirdByte (b.toNat % 16 * 4 + c.toNat / 64) (c.toNat % 64) = c :=
  ofNat_eq (by have := c.toNat_lt; omega)

/-- Each character of a text stands for the bits that it was made of, with zeros after the last byte. -/
theorem decode_encode (bytes : List UInt8) : decode (encode bytes) = some bytes := by
  have hFirst : ∀ a : UInt8, value (digit (a.toNat / 4)) = some (a.toNat / 4) := fun a =>
    value_digit (by have := a.toNat_lt; omega)
  have hSecond : ∀ a b : UInt8, value (digit (a.toNat % 4 * 16 + b.toNat / 16)) =
      some (a.toNat % 4 * 16 + b.toNat / 16) := fun a b => value_digit (by have := b.toNat_lt; omega)
  have hThird : ∀ b c : UInt8, value (digit (b.toNat % 16 * 4 + c.toNat / 64)) =
      some (b.toNat % 16 * 4 + c.toNat / 64) := fun b c => value_digit (by have := c.toNat_lt; omega)
  have hFourth : ∀ c : UInt8, value (digit (c.toNat % 64)) = some (c.toNat % 64) := fun c =>
    value_digit (Nat.mod_lt _ (by decide))
  induction bytes using encode.induct with
  | case1 => rfl
  | case2 a =>
    have hLast : value (digit (a.toNat % 4 * 16)) = some (a.toNat % 4 * 16) := hSecond a 0
    have hA : firstByte (a.toNat / 4) (a.toNat % 4 * 16) = a := firstByte_eq a 0
    simp [encode, decode, hFirst, hLast, hA]
  | case3 a b =>
    have hLast : value (digit (b.toNat % 16 * 4)) = some (b.toNat % 16 * 4) := hThird b 0
    have hB : secondByte (a.toNat % 4 * 16 + b.toNat / 16) (b.toNat % 16 * 4) = b := secondByte_eq a b 0
    simp [encode, decode, hFirst, hSecond, hLast, firstByte_eq, hB, digit_ne_pad]
  | case4 a b c bytes ih =>
    simp [encode, group, decode, hFirst, hSecond, hThird, hFourth, firstByte_eq, secondByte_eq, thirdByte_eq, ih,
      digit_ne_pad]

end Encoding.Base64
