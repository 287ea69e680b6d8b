import Mathlib.Data.List.TakeWhile
import Mathlib.Data.UInt

/-! UTF-8 and UTF-16, and what transcoding between them keeps. -/
namespace Unicode

abbrev Utf8 := List UInt8
abbrev Utf16 := List UInt16

/-- The replacement character, for what is no text. -/
def replacement : Char := Char.ofNat 0xFFFD

def utf8 (text : List Char) : Utf8 := text.flatMap String.utf8EncodeChar

/-- Whether `next` can be the second byte of a character that starts with `lead` and has more than two. -/
def isSecond (lead next : UInt8) : Bool :=
  match lead.toNat with
  | 0xE0 => 0xA0 ≤ next.toNat && next.toNat < 0xC0
  | 0xED => 0x80 ≤ next.toNat && next.toNat < 0xA0
  | 0xF0 => 0x90 ≤ next.toNat && next.toNat < 0xC0
  | 0xF4 => 0x80 ≤ next.toNat && next.toNat < 0x90
  | byte => 0xE0 < byte && byte < 0xF4 && 0x80 ≤ next.toNat && next.toNat < 0xC0

/-- How many bytes belong to a character that breaks off, behind its first one. -/
def brokenOff (lead : UInt8) : Utf8 → ℕ
  | second :: third :: _ =>
    if isSecond lead second then
      if 0xF0 ≤ lead.toNat && 0x80 ≤ third.toNat && third.toNat < 0xC0 then 2 else 1
    else 0
  | [second] => if isSecond lead second then 1 else 0
  | [] => 0

/-- What is no text is replaced piece by piece. The first `skip` bytes have been read. -/
def decodeFrom : (skip : ℕ) → Utf8 → List Char
  | _, [] => []
  | skip + 1, _ :: rest => decodeFrom skip rest
  | 0, byte :: rest =>
    match (byte :: rest).toByteArray.utf8DecodeChar? 0 with
    | some c => c :: decodeFrom (c.utf8Size - 1) rest
    | none => replacement :: decodeFrom (brokenOff byte rest) rest

def decodeUtf8 (bytes : Utf8) : List Char := decodeFrom 0 bytes

theorem decodeFrom_append (before bytes : Utf8) :
    decodeFrom before.length (before ++ bytes) = decodeUtf8 bytes := by
  induction before with
  | nil => rfl
  | cons byte before ih => exact ih

theorem decodeUtf8_char (c : Char) (bytes : Utf8) :
    decodeUtf8 (String.utf8EncodeChar c ++ bytes) = c :: decodeUtf8 bytes := by
  have hChar : (String.utf8EncodeChar c ++ bytes).toByteArray.utf8DecodeChar? 0 = some c := by
    rw [List.toByteArray_append, ByteArray.utf8DecodeChar?_utf8EncodeChar_append]
  have hLength := String.length_utf8EncodeChar c
  cases hEncoded : String.utf8EncodeChar c with
  | nil =>
    have hPos := c.utf8Size_pos
    rw [hEncoded, List.length_nil] at hLength
    omega
  | cons byte more =>
    rw [hEncoded, List.cons_append] at hChar
    rw [hEncoded, List.length_cons] at hLength
    rw [decodeUtf8, List.cons_append, decodeFrom, hChar]
    show c :: decodeFrom (c.utf8Size - 1) (more ++ bytes) = c :: decodeUtf8 bytes
    rw [← hLength, Nat.add_sub_cancel, decodeFrom_append]

theorem decodeUtf8_utf8 (text : List Char) : decodeUtf8 (utf8 text) = text := by
  induction text with
  | nil => rfl
  | cons c text ih =>
    have hUtf8 : utf8 (c :: text) = String.utf8EncodeChar c ++ utf8 text := List.flatMap_cons
    rw [hUtf8, decodeUtf8_char, ih]

theorem utf8_injective : Function.Injective utf8 := fun a b h => by
  rw [← decodeUtf8_utf8 a, h, decodeUtf8_utf8]

def isHigh (unit : UInt16) : Bool := 0xD800 ≤ unit.toNat && unit.toNat < 0xDC00

def isLow (unit : UInt16) : Bool := 0xDC00 ≤ unit.toNat && unit.toNat < 0xE000

def utf16Char (c : Char) : Utf16 :=
  if c.toNat < 0x10000 then [UInt16.ofNat c.toNat]
  else [UInt16.ofNat (0xD800 + (c.toNat - 0x10000) / 0x400),
    UInt16.ofNat (0xDC00 + (c.toNat - 0x10000) % 0x400)]

def utf16 (text : List Char) : Utf16 := text.flatMap utf16Char

/-- The character of a single unit, where a surrogate is replaced. -/
def ofUnit (unit : UInt16) : Char :=
  if isHigh unit || isLow unit then replacement else Char.ofNat unit.toNat

def ofPair (high low : UInt16) : Char :=
  Char.ofNat (0x10000 + (high.toNat - 0xD800) * 0x400 + (low.toNat - 0xDC00))

def decodeUtf16 : Utf16 → List Char
  | [] => []
  | [unit] => [ofUnit unit]
  | high :: low :: rest =>
    if isHigh high && isLow low then ofPair high low :: decodeUtf16 rest
    else ofUnit high :: decodeUtf16 (low :: rest)

theorem decodeUtf16_cons {unit : UInt16} (h : isHigh unit = false) (rest : Utf16) :
    decodeUtf16 (unit :: rest) = ofUnit unit :: decodeUtf16 rest := by
  cases rest with
  | nil => rfl
  | cons low rest => rw [decodeUtf16, h, Bool.false_and, if_neg (by decide)]

variable {c : Char}

/-- A character of one unit is no surrogate. -/
theorem unit_of_char (h : c.toNat < 0x10000) :
    isHigh (UInt16.ofNat c.toNat) = false ∧ ofUnit (UInt16.ofNat c.toNat) = c := by
  have hUnit : (UInt16.ofNat c.toNat).toNat = c.toNat := UInt16.toNat_ofNat_of_lt' h
  have hValid : c.toNat < 0xD800 ∨ 0xDFFF < c.toNat := by
    rcases c.valid with hLow | ⟨hHigh, -⟩
    · exact Or.inl hLow
    · exact Or.inr hHigh
  have hHigh : isHigh (UInt16.ofNat c.toNat) = false := by
    simp only [isHigh, hUnit, Bool.and_eq_false_iff, decide_eq_false_iff_not]
    omega
  have hLow : isLow (UInt16.ofNat c.toNat) = false := by
    simp only [isLow, hUnit, Bool.and_eq_false_iff, decide_eq_false_iff_not]
    omega
  refine ⟨hHigh, ?_⟩
  rw [ofUnit, hHigh, hLow, Bool.or_false, if_neg (by decide), hUnit, Char.ofNat_toNat]

/-- A character of two units is their pair. -/
theorem pair_of_char (h : ¬ c.toNat < 0x10000) :
    isHigh (UInt16.ofNat (0xD800 + (c.toNat - 0x10000) / 0x400)) = true ∧
      isLow (UInt16.ofNat (0xDC00 + (c.toNat - 0x10000) % 0x400)) = true ∧
      ofPair (UInt16.ofNat (0xD800 + (c.toNat - 0x10000) / 0x400))
        (UInt16.ofNat (0xDC00 + (c.toNat - 0x10000) % 0x400)) = c := by
  have hMax : c.toNat < 0x110000 := by
    rcases c.valid with hLow | ⟨-, hHigh⟩
    · exact lt_trans hLow (by decide)
    · exact hHigh
  have hHigh : (UInt16.ofNat (0xD800 + (c.toNat - 0x10000) / 0x400)).toNat =
      0xD800 + (c.toNat - 0x10000) / 0x400 := UInt16.toNat_ofNat_of_lt' (by
    show _ < 65536
    omega)
  have hLow : (UInt16.ofNat (0xDC00 + (c.toNat - 0x10000) % 0x400)).toNat =
      0xDC00 + (c.toNat - 0x10000) % 0x400 := UInt16.toNat_ofNat_of_lt' (by
    show _ < 65536
    omega)
  refine ⟨?_, ?_, ?_⟩
  · simp only [isHigh, hHigh, Bool.and_eq_true, decide_eq_true_eq]
    omega
  · simp only [isLow, hLow, Bool.and_eq_true, decide_eq_true_eq]
    omega
  · have hSum : 0x10000 + (0xD800 + (c.toNat - 0x10000) / 0x400 - 0xD800) * 0x400 +
        (0xDC00 + (c.toNat - 0x10000) % 0x400 - 0xDC00) = c.toNat := by omega
    rw [ofPair, hHigh, hLow, hSum, Char.ofNat_toNat]

theorem decodeUtf16_utf16 (text : List Char) : decodeUtf16 (utf16 text) = text := by
  induction text with
  | nil => rfl
  | cons c text ih =>
    have hCons : utf16 (c :: text) = utf16Char c ++ utf16 text := List.flatMap_cons
    rw [hCons, utf16Char]
    split
    · rename_i hOne
      obtain ⟨hHigh, hChar⟩ := unit_of_char hOne
      rw [List.singleton_append, decodeUtf16_cons hHigh, hChar, ih]
    · rename_i hTwo
      obtain ⟨hHigh, hLow, hChar⟩ := pair_of_char hTwo
      rw [List.cons_append, List.singleton_append, decodeUtf16, hHigh, hLow, Bool.and_true,
        if_pos rfl, hChar, ih]

theorem utf16_injective : Function.Injective utf16 := fun a b h => by
  rw [← decodeUtf16_utf16 a, h, decodeUtf16_utf16]

def toUtf8 (units : Utf16) : Utf8 := utf8 (decodeUtf16 units)

def toUtf16 (bytes : Utf8) : Utf16 := utf16 (decodeUtf8 bytes)

/-- Units without a lone surrogate. -/
def WellFormed (units : Utf16) : Prop := utf16 (decodeUtf16 units) = units

instance (units : Utf16) : Decidable (WellFormed units) :=
  inferInstanceAs (Decidable (utf16 (decodeUtf16 units) = units))

/-- The way back loses lone surrogates only. -/
theorem toUtf16_toUtf8 (units : Utf16) : toUtf16 (toUtf8 units) = utf16 (decodeUtf16 units) := by
  rw [toUtf16, toUtf8, decodeUtf8_utf8]

theorem toUtf8_toUtf16_toUtf8 (units : Utf16) : toUtf8 (toUtf16 (toUtf8 units)) = toUtf8 units := by
  rw [toUtf16_toUtf8, toUtf8, decodeUtf16_utf16, toUtf8]

def widen (bytes : Utf8) : Utf16 := bytes.map fun byte => UInt16.ofNat byte.toNat

theorem widen_injective : Function.Injective widen := by
  apply List.map_injective_iff.mpr
  intro a b h
  have hNat := congrArg UInt16.toNat h
  have hBound := fun byte : UInt8 => byte.toNat_lt.trans (show 2 ^ 8 < 2 ^ 16 by decide)
  rw [UInt16.toNat_ofNat_of_lt' (hBound a), UInt16.toNat_ofNat_of_lt' (hBound b)] at hNat
  exact UInt8.toNat_inj.mp hNat

/-- ASCII characters without NUL. -/
def PlainText (text : List Char) : Prop := ∀ c ∈ text, 0 < c.toNat ∧ c.toNat < 128

def PlainBytes (bytes : Utf8) : Prop := ∀ byte ∈ bytes, 0 < byte.toNat ∧ byte.toNat < 128

def PlainUnits (units : Utf16) : Prop := ∀ unit ∈ units, 0 < unit.toNat ∧ unit.toNat < 128

instance (bytes : Utf8) : Decidable (PlainBytes bytes) :=
  inferInstanceAs (Decidable (∀ byte ∈ bytes, 0 < byte.toNat ∧ byte.toNat < 128))

instance (units : Utf16) : Decidable (PlainUnits units) :=
  inferInstanceAs (Decidable (∀ unit ∈ units, 0 < unit.toNat ∧ unit.toNat < 128))

theorem utf8_of_ascii (h : c.toNat < 128) : String.utf8EncodeChar c = [UInt8.ofNat c.toNat] :=
  if_pos (Nat.le_of_lt_succ h)

theorem utf16_of_ascii (h : c.toNat < 128) : utf16Char c = [UInt16.ofNat c.toNat] :=
  if_pos (h.trans (by decide))

theorem toNat_ofNat_ascii {n : ℕ} (h : n < 128) :
    (UInt8.ofNat n).toNat = n ∧ (UInt16.ofNat n).toNat = n :=
  ⟨UInt8.toNat_ofNat_of_lt' (h.trans (by decide)), UInt16.toNat_ofNat_of_lt' (h.trans (by decide))⟩

/-- The first byte of a character that is not ASCII is marked. -/
theorem exists_high_byte (h : ¬ c.toNat < 128) :
    ∃ byte ∈ String.utf8EncodeChar c, ¬ byte.toNat < 128 := by
  have hAscii : ¬ c.val.toNat ≤ 0x7f := fun hLe => h (Nat.lt_succ_of_le hLe)
  have hMarked : ∀ n : ℕ, 128 ≤ n → n < 256 → ¬ (UInt8.ofNat n).toNat < 128 := by
    intro n hLow hHigh
    rw [UInt8.toNat_ofNat_of_lt' hHigh]
    exact Nat.not_lt.mpr hLow
  rw [String.utf8EncodeChar]
  simp only [if_neg hAscii]
  split
  · exact ⟨_, List.mem_cons_self, hMarked _ (by omega) (by omega)⟩
  · split
    · exact ⟨_, List.mem_cons_self, hMarked _ (by omega) (by omega)⟩
    · exact ⟨_, List.mem_cons_self, hMarked _ (by omega) (by omega)⟩

variable {text : List Char}

theorem plainText_iff_bytes : PlainBytes (utf8 text) ↔ PlainText text := by
  constructor
  · intro h c hMem
    have hBytes : ∀ byte ∈ String.utf8EncodeChar c, 0 < byte.toNat ∧ byte.toNat < 128 :=
      fun byte hByte => h byte (List.mem_flatMap.mpr ⟨c, hMem, hByte⟩)
    have hAscii : c.toNat < 128 := by
      by_contra hHigh
      obtain ⟨byte, hByte, hMarked⟩ := exists_high_byte hHigh
      exact hMarked (hBytes byte hByte).2
    rw [utf8_of_ascii hAscii, List.forall_mem_singleton, (toNat_ofNat_ascii hAscii).1] at hBytes
    exact hBytes
  · intro h byte hByte
    obtain ⟨c, hMem, hByte⟩ := List.mem_flatMap.mp hByte
    rw [utf8_of_ascii (h c hMem).2, List.mem_singleton] at hByte
    rw [hByte, (toNat_ofNat_ascii (h c hMem).2).1]
    exact h c hMem

theorem plainUnits_of_text (h : PlainText text) : PlainUnits (utf16 text) := by
  intro unit hUnit
  obtain ⟨c, hMem, hUnit⟩ := List.mem_flatMap.mp hUnit
  rw [utf16_of_ascii (h c hMem).2, List.mem_singleton] at hUnit
  rw [hUnit, (toNat_ofNat_ascii (h c hMem).2).2]
  exact h c hMem

theorem plainText_of_units (h : PlainUnits (utf16 text)) : PlainText text := by
  intro c hMem
  have hUnits : ∀ unit ∈ utf16Char c, 0 < unit.toNat ∧ unit.toNat < 128 :=
    fun unit hUnit => h unit (List.mem_flatMap.mpr ⟨c, hMem, hUnit⟩)
  rw [utf16Char] at hUnits
  split at hUnits
  · rename_i hOne
    rw [List.forall_mem_singleton, UInt16.toNat_ofNat_of_lt' hOne] at hUnits
    exact hUnits
  · rename_i hTwo
    obtain ⟨hHigh, -, -⟩ := pair_of_char hTwo
    have hFirst := (hUnits _ List.mem_cons_self).2
    simp only [isHigh, Bool.and_eq_true, decide_eq_true_eq] at hHigh
    omega

theorem widen_utf8 (h : PlainText text) : widen (utf8 text) = utf16 text := by
  induction text with
  | nil => rfl
  | cons c text ih =>
    obtain ⟨hFirst, hRest⟩ := List.forall_mem_cons.mp h
    have hUtf8 : utf8 (c :: text) = String.utf8EncodeChar c ++ utf8 text := List.flatMap_cons
    have hUtf16 : utf16 (c :: text) = utf16Char c ++ utf16 text := List.flatMap_cons
    rw [hUtf8, hUtf16, widen, List.map_append, utf8_of_ascii hFirst.2, utf16_of_ascii hFirst.2,
      ← widen, ← widen, ih hRest, widen, List.map_singleton, (toNat_ofNat_ascii hFirst.2).1]

theorem wellFormed_of_plain {units : Utf16} (h : PlainUnits units) : WellFormed units := by
  induction units with
  | nil => rfl
  | cons unit units ih =>
    obtain ⟨hFirst, hRest⟩ := List.forall_mem_cons.mp h
    have hHigh : isHigh unit = false := by
      simp only [isHigh, Bool.and_eq_false_iff, decide_eq_false_iff_not]
      omega
    have hLow : isLow unit = false := by
      simp only [isLow, Bool.and_eq_false_iff, decide_eq_false_iff_not]
      omega
    have hChar : (ofUnit unit).toNat = unit.toNat := by
      rw [ofUnit, hHigh, hLow, Bool.or_false, if_neg (by decide)]
      have hValid : unit.toNat.isValidChar := Or.inl (by omega)
      rw [Char.ofNat, dif_pos hValid]
      rfl
    have hCons : utf16 (ofUnit unit :: decodeUtf16 units) =
        utf16Char (ofUnit unit) ++ utf16 (decodeUtf16 units) := List.flatMap_cons
    have hAscii : (ofUnit unit).toNat < 128 := hChar ▸ hFirst.2
    rw [WellFormed, decodeUtf16_cons hHigh, hCons, utf16_of_ascii hAscii, ih hRest, hChar,
      UInt16.ofNat_toNat, List.singleton_append]

/-- The bytes before the first NUL. -/
def cString (bytes : Utf8) : Utf8 := bytes.takeWhile (· != 0)

variable {bytes : Utf8}

theorem cString_plain (h : PlainBytes bytes) : cString bytes = bytes := by
  refine List.takeWhile_eq_self_iff.mpr fun byte hMem => ?_
  have hPos := (h byte hMem).1
  rw [bne_iff_ne]
  rintro rfl
  exact absurd hPos (by decide)

theorem cString_ne_zero {byte : UInt8} (h : byte ∈ cString bytes) : 0 < byte.toNat := by
  have hNe := List.mem_takeWhile_imp h
  rw [bne_iff_ne] at hNe
  rw [Nat.pos_iff_ne_zero]
  exact fun hZero => hNe (UInt8.toNat_inj.mp hZero)

theorem plainUnits_widen (h : ∀ byte ∈ cString bytes, byte.toNat < 128) :
    PlainUnits (widen (cString bytes)) := by
  intro unit hMem
  obtain ⟨byte, hByte, rfl⟩ := List.mem_map.mp hMem
  rw [(toNat_ofNat_ascii (h byte hByte)).2]
  exact ⟨cString_ne_zero hByte, h byte hByte⟩

end Unicode
