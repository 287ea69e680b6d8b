import ReactNativeWindows.ReactNative.JSValue.LogWriter

/-! What `JSValue::ToString` writes for the parts of a tree. -/
namespace ReactNative

open Numbers (Double)

variable (ofDouble : Double → StdString)

/-! ### What is claimed -/

def spaces (indent : ℕ) : StdString := List.replicate (2 * indent) 32

/-- A text by its lines: all but the first one are indented. -/
def joinLines (indent : ℕ) (line : StdString) (lines : List StdString) : StdString :=
  line ++ lines.flatMap fun next => 10 :: (spaces indent ++ next)

/-- The second text is the first one but for indentation: lines are indented further. -/
def SameButIndented (indent : ℕ) (first second : StdString) : Prop :=
  ∃ line lines, first = joinLines 0 line lines ∧ second = joinLines indent line lines

open JSValueLogWriter in
/-- The stream at the value of a property of `WriteObject`. -/
def atProperty (indent : ℕ) (before : List (StdString × JSNode StdString)) (name : StdString)
    (s : OStream) : OStream :=
  ((writeLine indent (writeSeparator before.isEmpty
    (writeProperties ofDouble indent true before (s.insert [123])))).insert name).insert [58, 32]

open JSValueLogWriter in
def atItem (indent : ℕ) (before : List (JSNode StdString)) (s : OStream) : OStream :=
  writeLine indent (writeSeparator before.isEmpty (writeItems ofDouble indent true before (s.insert [91])))

/-- The calls of `WriteValue` inside `ToString` of a tree: for which value, at which indentation, and the
stream before. -/
inductive WritesPart (root : JSNode StdString) : JSNode StdString → ℕ → OStream → Prop where
  | root : WritesPart root root 0 .fresh
  | property {before after : List (StdString × JSNode StdString)} {name : StdString}
      {value : JSNode StdString} {indent : ℕ} {s : OStream}
      (h : WritesPart root (.object (before ++ (name, value) :: after)) indent s) :
      WritesPart root value (indent + 1) (atProperty ofDouble (indent + 1) before name s)
  | item {before after : List (JSNode StdString)} {value : JSNode StdString} {indent : ℕ} {s : OStream}
      (h : WritesPart root (.array (before ++ value :: after)) indent s) :
      WritesPart root value (indent + 1) (atItem ofDouble (indent + 1) before s)

/-- The text that is written for each part of a tree is `ToString` of that part, but for indentation. -/
def Compositional (root : JSNode StdString) : Prop :=
  ∀ value indent s, WritesPart ofDouble root value indent s →
    ∃ text, (JSValueLogWriter.writeValue ofDouble indent value s).text = s.text ++ text ∧
      SameButIndented indent (value.toString ofDouble) text

namespace JSNode

mutual

/-- The values of a tree that have no parts, in the order in which they are written. -/
def leaves : JSNode StdString → List (JSNode StdString)
  | .object properties => leavesOfProperties properties
  | .array items => leavesOfItems items
  | value => [value]

def leavesOfProperties : List (StdString × JSNode StdString) → List (JSNode StdString)
  | [] => []
  | (_, value) :: rest => value.leaves ++ leavesOfProperties rest

def leavesOfItems : List (JSNode StdString) → List (JSNode StdString)
  | [] => []
  | value :: rest => value.leaves ++ leavesOfItems rest

end

/-- A control character that is written by its number. -/
def isControl (ch : UInt8) : Bool :=
  ch ≤ 31 && !([8, 9, 10, 12, 13] : List UInt8).contains ch

def hasControl : JSNode StdString → Bool
  | .string value => value.any isControl
  | _ => false

/-- After a string with a control character, integers have one digit. -/
def DigitsAfterControls (root : JSNode StdString) : Prop :=
  ∀ before value after, root.leaves = before ++ .int64 value :: after → before.any hasControl = true →
    0 ≤ value.toInt ∧ value.toInt ≤ 9

def NoBooleans (root : JSNode StdString) : Prop := ∀ value, .boolean value ∉ root.leaves

end JSNode

/-! ### Numbers -/

theorem digitByte_inj : ∀ a < 16, ∀ b < 16, digitByte a = digitByte b → a = b := by decide

theorem digitByte_ne_minus : ∀ a < 16, digitByte a ≠ 45 := by decide

theorem digitByte_ne_line : ∀ a < 16, digitByte a ≠ 10 := by decide

theorem map_digitByte_inj {xs ys : List ℕ} (hxs : ∀ x ∈ xs, x < 16) (hys : ∀ y ∈ ys, y < 16)
    (h : xs.map digitByte = ys.map digitByte) : xs = ys := by
  induction xs generalizing ys with
  | nil => exact (List.map_eq_nil_iff.mp h.symm).symm
  | cons x xs ih =>
    cases ys with
    | nil => cases h
    | cons y ys =>
      obtain ⟨hHead, hTail⟩ := List.cons.inj h
      have hRest := ih (fun z hz => hxs z (List.mem_cons_of_mem _ hz))
        (fun z hz => hys z (List.mem_cons_of_mem _ hz)) hTail
      rw [hRest, digitByte_inj x (hxs x List.mem_cons_self) y (hys y List.mem_cons_self) hHead]

variable {n : ℕ}

theorem digits_lt {base digit : ℕ} (hBase : base = 10 ∨ base = 16)
    (h : digit ∈ (Nat.digits base n).reverse) : digit < 16 := by
  have hDigit := List.mem_reverse.mp h
  rcases hBase with rfl | rfl
  · exact (Nat.digits_lt_base (by decide) hDigit).trans (by decide)
  · exact Nat.digits_lt_base (by decide) hDigit

/-- A number of several digits has others in base 16. -/
theorem digits_differ (h : Nat.digits 16 n = Nat.digits 10 n) : n ≤ 9 := by
  by_contra hBig
  have hPos : 0 < n := by omega
  rw [Nat.digits_def' (by decide) hPos, Nat.digits_def' (by decide) hPos] at h
  obtain ⟨hLast, hRest⟩ := List.cons.inj h
  have hLe : n / 10 ≤ n / 16 := by
    calc n / 10 = Nat.ofDigits 10 (Nat.digits 10 (n / 10)) := (Nat.ofDigits_digits 10 _).symm
      _ ≤ Nat.ofDigits 16 (Nat.digits 10 (n / 10)) := Nat.ofDigits_monotone _ (by decide)
      _ = Nat.ofDigits 16 (Nat.digits 16 (n / 16)) := by rw [hRest]
      _ = n / 16 := Nat.ofDigits_digits 16 _
  omega

theorem digitBytes_of_digit {base : ℕ} (hBase : 9 < base) (h : n ≤ 9) :
    digitBytes base n = [digitByte n] := by
  rw [digitBytes]
  split
  next hZero =>
    rw [hZero]
    rfl
  next hPos =>
    rw [Nat.digits_of_lt base n hPos (h.trans_lt hBase)]
    rfl

theorem digitBytes_eq_iff : digitBytes 16 n = digitBytes 10 n ↔ n ≤ 9 := by
  constructor
  · intro h
    rw [digitBytes, digitBytes] at h
    split at h
    next hZero => omega
    next =>
      have hDigits := map_digitByte_inj (fun digit hMem => digits_lt (Or.inr rfl) hMem)
        (fun digit hMem => digits_lt (Or.inl rfl) hMem) h
      exact digits_differ (List.reverse_injective hDigits)
  · intro h
    rw [digitBytes_of_digit (by decide) h, digitBytes_of_digit (by decide) h]

theorem minus_notMem_digitBytes {base : ℕ} (hBase : base = 10 ∨ base = 16) :
    45 ∉ digitBytes base n := by
  rw [digitBytes]
  split
  next => decide
  next =>
    intro hMem
    obtain ⟨digit, hDigit, hMinus⟩ := List.mem_map.mp hMem
    exact digitByte_ne_minus digit (digits_lt hBase hDigit) hMinus

theorem toNat_toUInt64 {value : Int64} (h : 0 ≤ value.toInt) :
    value.toUInt64.toNat = value.toInt.natAbs := by
  rw [Int64.toNat_toUInt64_of_le (Int64.le_iff_toInt_le.mpr h), Int64.toNatClampNeg]
  omega

/-- In both bases only a digit is written alike. -/
theorem hexBytes_eq_iff {value : Int64} :
    hexBytes value = decimalBytes value ↔ 0 ≤ value.toInt ∧ value.toInt ≤ 9 := by
  rw [hexBytes, decimalBytes]
  split
  next hNeg =>
    constructor
    · intro h
      have hMinus : (45 : UInt8) ∈ digitBytes 16 value.toUInt64.toNat := by
        rw [h]
        exact List.mem_cons_self
      exact absurd hMinus (minus_notMem_digitBytes (Or.inr rfl))
    · omega
  next hNonneg =>
    rw [toNat_toUInt64 (not_lt.mp hNonneg), digitBytes_eq_iff]
    omega

/-! ### The stream -/

/-- A write that appends a text, sets the base if `control`, and leaves no width behind. -/
structure Appends (s : OStream) (text : StdString) (control : Bool) (s' : OStream) : Prop where
  text_eq : s'.text = s.text ++ text
  hex_eq : s'.hex = (s.hex || control)
  width_eq : s'.width = 0

namespace Appends

variable {s s' s'' : OStream} {first second : StdString} {control control' : Bool}

theorem trans (h : Appends s first control s') (h' : Appends s' second control' s'') :
    Appends s (first ++ second) (control || control') s'' := by
  constructor
  · rw [h'.text_eq, h.text_eq, List.append_assoc]
  · rw [h'.hex_eq, h.hex_eq, Bool.or_assoc]
  · exact h'.width_eq

theorem refl (h : s.width = 0) : Appends s [] false s :=
  ⟨(List.append_nil _).symm, (Bool.or_false _).symm, h⟩

theorem insert (h : s.width = 0) (chars : StdString) : Appends s chars false (s.insert chars) := by
  constructor
  · show s.text ++ (List.replicate (s.width - chars.length) s.fill ++ chars) = s.text ++ chars
    rw [h, Nat.zero_sub, List.replicate_zero, List.nil_append]
  · exact (Bool.or_false _).symm
  · rfl

end Appends

namespace JSValueLogWriter

def lineText (indent : ℕ) : StdString := 10 :: spaces indent

def separatorText (start : Bool) : StdString := if start then [] else [44]

/-- What is written for a character, whatever the stream was set to. -/
def charText (ch : UInt8) : StdString :=
  if ch = 34 then [92, 34]
  else if ch = 92 then [92, 92]
  else if ch = 8 then [92, 98]
  else if ch = 12 then [92, 102]
  else if ch = 10 then [92, 110]
  else if ch = 13 then [92, 114]
  else if ch = 9 then [92, 116]
  else if ch ≤ 31 then
    92 :: 117 :: (List.replicate (4 - (hexBytes (Int64.ofNat ch.toNat)).length) 48
      ++ hexBytes (Int64.ofNat ch.toNat))
  else [ch]

def quotedText (value : StdString) : StdString := 34 :: (value.flatMap charText ++ [34])

variable {s : OStream}

theorem appends_writeIndent (indent : ℕ) (h : s.width = 0) :
    Appends s (spaces indent) false (writeIndent indent s) := by
  induction indent generalizing s with
  | zero => exact Appends.refl h
  | succ indent ih =>
    have hFirst := Appends.insert h [32, 32]
    exact hFirst.trans (ih hFirst.width_eq)

theorem appends_writeLine (indent : ℕ) (h : s.width = 0) :
    Appends s (lineText indent) false (writeLine indent s) := by
  have hFirst := Appends.insert h [10]
  exact hFirst.trans (appends_writeIndent indent hFirst.width_eq)

theorem appends_writeSeparator (start : Bool) (h : s.width = 0) :
    Appends s (separatorText start) false (writeSeparator start s) := by
  cases start with
  | true => exact Appends.refl h
  | false => exact Appends.insert h [44]

theorem appends_insertInt (value : Int64) (h : s.width = 0) :
    Appends s (if s.hex then hexBytes value else decimalBytes value) false (s.insertInt value) :=
  Appends.insert h _

/-- A control character leaves the base behind. -/
theorem appends_writeChar (ch : UInt8) (h : s.width = 0) :
    Appends s (charText ch) (JSNode.isControl ch) (writeChar s ch) := by
  rw [charText, writeChar]
  split
  next hCh => rw [hCh]; exact Appends.insert h _
  split
  next hCh => rw [hCh]; exact Appends.insert h _
  split
  next hCh => rw [hCh]; exact Appends.insert h _
  split
  next hCh => rw [hCh]; exact Appends.insert h _
  split
  next hCh => rw [hCh]; exact Appends.insert h _
  split
  next hCh => rw [hCh]; exact Appends.insert h _
  split
  next hCh => rw [hCh]; exact Appends.insert h _
  split
  next hLow =>
    have hControl : JSNode.isControl ch = true := by simp [JSNode.isControl, *]
    rw [hControl]
    constructor
    · show s.text ++ (List.replicate (s.width - 2) s.fill ++ [92, 117]) ++ _ = _
      rw [h]
      simp
    · exact (Bool.or_true _).symm
    · rfl
  next hHigh =>
    have hControl : JSNode.isControl ch = false := by simp [JSNode.isControl, hHigh]
    rw [hControl]
    exact Appends.insert h _

theorem appends_writeChars (value : StdString) (h : s.width = 0) :
    Appends s (value.flatMap charText) (value.any JSNode.isControl) (value.foldl writeChar s) := by
  induction value generalizing s with
  | nil => exact Appends.refl h
  | cons ch value ih =>
    have hFirst := appends_writeChar ch h
    exact hFirst.trans (ih hFirst.width_eq)

theorem appends_writeQuotedString (value : StdString) (h : s.width = 0) :
    Appends s (quotedText value) (value.any JSNode.isControl) (writeQuotedString value s) := by
  have hFirst := Appends.insert h [34]
  have hChars := hFirst.trans (appends_writeChars value hFirst.width_eq)
  have hLast := hChars.trans (Appends.insert hChars.width_eq [34])
  rw [Bool.or_false, Bool.false_or] at hLast
  exact hLast

end JSValueLogWriter

namespace JSNode

theorem leavesOfProperties_append (first second : List (StdString × JSNode StdString)) :
    leavesOfProperties (first ++ second) = leavesOfProperties first ++ leavesOfProperties second := by
  induction first with
  | nil => rfl
  | cons property first ih =>
    obtain ⟨name, value⟩ := property
    rw [List.cons_append, leavesOfProperties, leavesOfProperties, ih, List.append_assoc]

theorem leavesOfItems_append (first second : List (JSNode StdString)) :
    leavesOfItems (first ++ second) = leavesOfItems first ++ leavesOfItems second := by
  induction first with
  | nil => rfl
  | cons item first ih =>
    rw [List.cons_append, leavesOfItems, leavesOfItems, ih, List.append_assoc]

end JSNode

namespace JSValueLogWriter

open JSNode (hasControl leavesOfProperties leavesOfItems)

mutual

/-- The text of a value, for the base that integers start with. -/
def written (indent : ℕ) (hex : Bool) : JSNode StdString → StdString
  | .null => [110, 117, 108, 108]
  | .object [] => [123, 125]
  | .object (property :: properties) =>
    [123] ++ writtenProperties (indent + 1) hex true (property :: properties) ++ lineText indent ++ [125]
  | .array [] => [91, 93]
  | .array (item :: items) =>
    [91] ++ writtenItems (indent + 1) hex true (item :: items) ++ lineText indent ++ [93]
  | .string value => quotedText value
  | .boolean value => if value then [116, 114, 117, 101] else [102, 97, 108, 115, 101]
  | .int64 value => if hex then hexBytes value else decimalBytes value
  | .double value => ofDouble value

def writtenProperties (indent : ℕ) (hex start : Bool) :
    List (StdString × JSNode StdString) → StdString
  | [] => []
  | (name, value) :: rest =>
    separatorText start ++ lineText indent ++ name ++ [58, 32] ++ written indent hex value
      ++ writtenProperties indent (hex || value.leaves.any hasControl) false rest

def writtenItems (indent : ℕ) (hex start : Bool) : List (JSNode StdString) → StdString
  | [] => []
  | item :: rest =>
    separatorText start ++ lineText indent ++ written indent hex item
      ++ writtenItems indent (hex || item.leaves.any hasControl) false rest

end

mutual

/-- The writer's stream has the base of the strings before, and no width. -/
theorem appends_writeValue (indent : ℕ) : ∀ (value : JSNode StdString) (s : OStream), s.width = 0 →
    Appends s (written ofDouble indent s.hex value) (value.leaves.any hasControl)
      (writeValue ofDouble indent value s)
  | .null, _, h => Appends.insert h _
  | .object [], _, h => Appends.insert h _
  | .object (property :: properties), s, h => by
    have hOpen := Appends.insert h [123]
    have hInner := appends_writeProperties (indent + 1) true (property :: properties) _ hOpen.width_eq
    rw [hOpen.hex_eq, Bool.or_false] at hInner
    have hLine := (hOpen.trans hInner).trans (appends_writeLine indent (hOpen.trans hInner).width_eq)
    have hClose := hLine.trans (Appends.insert hLine.width_eq [125])
    rw [Bool.or_false, Bool.or_false, Bool.false_or] at hClose
    exact hClose
  | .array [], _, h => Appends.insert h _
  | .array (item :: items), s, h => by
    have hOpen := Appends.insert h [91]
    have hInner := appends_writeItems (indent + 1) true (item :: items) _ hOpen.width_eq
    rw [hOpen.hex_eq, Bool.or_false] at hInner
    have hLine := (hOpen.trans hInner).trans (appends_writeLine indent (hOpen.trans hInner).width_eq)
    have hClose := hLine.trans (Appends.insert hLine.width_eq [93])
    rw [Bool.or_false, Bool.or_false, Bool.false_or] at hClose
    exact hClose
  | .string value, s, h => by
    have hQuoted := appends_writeQuotedString value h
    rw [JSNode.leaves, List.any_cons, List.any_nil, Bool.or_false]
    · exact hQuoted
    · nofun
    · nofun
  | .boolean _, _, h => Appends.insert h _
  | .int64 value, _, h => appends_insertInt value h
  | .double _, _, h => Appends.insert h _

theorem appends_writeProperties (indent : ℕ) (start : Bool) :
    ∀ (properties : List (StdString × JSNode StdString)) (s : OStream), s.width = 0 →
      Appends s (writtenProperties ofDouble indent s.hex start properties)
        ((leavesOfProperties properties).any hasControl) (writeProperties ofDouble indent start properties s)
  | [], _, h => Appends.refl h
  | (name, value) :: rest, s, h => by
    have hSeparator := appends_writeSeparator start h
    have hLine := hSeparator.trans (appends_writeLine indent hSeparator.width_eq)
    have hName := hLine.trans (Appends.insert hLine.width_eq name)
    have hColon := hName.trans (Appends.insert hName.width_eq [58, 32])
    have hHex := hColon.hex_eq.trans (Bool.or_false _)
    have hValue := appends_writeValue indent value _ hColon.width_eq
    have hRest := appends_writeProperties indent false rest _ hValue.width_eq
    rw [hValue.hex_eq, hHex] at hRest
    rw [hHex] at hValue
    have hAll := (hColon.trans hValue).trans hRest
    rw [leavesOfProperties, List.any_append]
    exact hAll

theorem appends_writeItems (indent : ℕ) (start : Bool) :
    ∀ (items : List (JSNode StdString)) (s : OStream), s.width = 0 →
      Appends s (writtenItems ofDouble indent s.hex start items)
        ((leavesOfItems items).any hasControl) (writeItems ofDouble indent start items s)
  | [], _, h => Appends.refl h
  | item :: rest, s, h => by
    have hSeparator := appends_writeSeparator start h
    have hLine := hSeparator.trans (appends_writeLine indent hSeparator.width_eq)
    have hHex := hLine.hex_eq.trans (Bool.or_false _)
    have hValue := appends_writeValue indent item _ hLine.width_eq
    have hRest := appends_writeItems indent false rest _ hValue.width_eq
    rw [hValue.hex_eq, hHex] at hRest
    rw [hHex] at hValue
    have hAll := (hLine.trans hValue).trans hRest
    rw [leavesOfItems, List.any_append]
    exact hAll

end

end JSValueLogWriter

namespace SameButIndented

variable {indent : ℕ}

theorem refl (text : StdString) : SameButIndented indent text text := by
  refine ⟨text, [], ?_, ?_⟩
  · rw [joinLines, List.flatMap_nil, List.append_nil]
  · rw [joinLines, List.flatMap_nil, List.append_nil]

theorem joinLines_concat (line last more : StdString) (lines : List StdString) (indent : ℕ) :
    joinLines indent line (lines ++ [last ++ more]) = joinLines indent line (lines ++ [last]) ++ more := by
  simp only [joinLines, List.flatMap_append, List.flatMap_cons, List.flatMap_nil, List.append_nil,
    List.cons_append, List.append_assoc]

theorem joinLines_append (line : StdString) (lines more : List StdString) (indent : ℕ) :
    joinLines indent line (lines ++ more)
      = joinLines indent line lines ++ more.flatMap fun next => 10 :: (spaces indent ++ next) := by
  simp only [joinLines, List.flatMap_append, List.append_assoc]

/-- The last line of the first text goes on with the first line of the second. -/
theorem append {first second first' second' : StdString} (h : SameButIndented indent first second)
    (h' : SameButIndented indent first' second') :
    SameButIndented indent (first ++ first') (second ++ second') := by
  obtain ⟨line, lines, rfl, rfl⟩ := h
  obtain ⟨line', lines', rfl, rfl⟩ := h'
  rcases List.eq_nil_or_concat lines with rfl | ⟨front, last, rfl⟩
  · refine ⟨line ++ line', lines', ?_, ?_⟩
    · simp only [joinLines, List.flatMap_nil, List.append_nil, List.append_assoc]
    · simp only [joinLines, List.flatMap_nil, List.append_nil, List.append_assoc]
  · refine ⟨line, front ++ [last ++ line'] ++ lines', ?_, ?_⟩
    · rw [joinLines_append, joinLines_concat, List.concat_eq_append, List.append_assoc]
      rfl
    · rw [joinLines_append, joinLines_concat, List.concat_eq_append, List.append_assoc]
      rfl

theorem line (depth : ℕ) :
    SameButIndented indent (JSValueLogWriter.lineText depth) (JSValueLogWriter.lineText (indent + depth)) := by
  refine ⟨[], [spaces depth], ?_, ?_⟩
  · show 10 :: spaces depth = 10 :: (spaces depth ++ [])
    rw [List.append_nil]
  · show 10 :: spaces (indent + depth) = 10 :: (spaces indent ++ spaces depth ++ [])
    rw [List.append_nil, spaces, spaces, spaces, ← List.replicate_add, Nat.mul_add]

/-- Texts without line breaks are not indented. -/
theorem eq_of_notMem {first second : StdString} (h : SameButIndented indent first second)
    (hLine : (10 : UInt8) ∉ first) : first = second := by
  obtain ⟨line, lines, rfl, rfl⟩ := h
  cases lines with
  | nil => rfl
  | cons next lines =>
    exfalso
    apply hLine
    exact List.mem_append_right _ (List.mem_append_left _ List.mem_cons_self)

end SameButIndented

namespace JSNode

/-- In a tree before which the base was set if `hex`. -/
def DigitsFrom (hex : Bool) (leaves : List (JSNode StdString)) : Prop :=
  ∀ before value after, leaves = before ++ .int64 value :: after →
    (hex || before.any hasControl) = true → 0 ≤ value.toInt ∧ value.toInt ≤ 9

theorem DigitsFrom.left {hex : Bool} {first second : List (JSNode StdString)}
    (h : DigitsFrom hex (first ++ second)) : DigitsFrom hex first := by
  intro before value after hEq hBefore
  apply h before value (after ++ second) _ hBefore
  rw [hEq, List.append_assoc, List.cons_append]

theorem DigitsFrom.right {hex : Bool} {first second : List (JSNode StdString)}
    (h : DigitsFrom hex (first ++ second)) : DigitsFrom (hex || first.any hasControl) second := by
  intro before value after hEq hBefore
  apply h (first ++ before) value after
  · rw [hEq, List.append_assoc]
  · rw [List.any_append, ← Bool.or_assoc]
    exact hBefore

end JSNode

namespace JSValueLogWriter

open JSNode (hasControl leavesOfProperties leavesOfItems DigitsFrom)

/-- The base on its own is worth as much as the base with which the tree alone starts. -/
theorem or_imp_or {hex hex' control : Bool} (h : hex = true → hex' = true) :
    (hex || control) = true → (hex' || control) = true := by
  intro hOr
  rcases Bool.or_eq_true_iff.mp hOr with hHex | hControl
  · rw [h hHex, Bool.true_or]
  · rw [hControl, Bool.or_true]

theorem written_int64_same {hex hex' : Bool} {value : Int64} (hHex : hex = true → hex' = true)
    (hDigits : DigitsFrom hex' (JSNode.int64 value).leaves) :
    (if hex then hexBytes value else decimalBytes value)
      = if hex' then hexBytes value else decimalBytes value := by
  cases hex' with
  | true =>
    have hDigit := hDigits [] value [] rfl rfl
    rw [if_pos rfl, hexBytes_eq_iff.mpr hDigit, ite_self]
  | false =>
    cases hex with
    | true => cases hHex rfl
    | false => rfl

mutual

theorem written_same (indent depth : ℕ) {hex hex' : Bool} (hHex : hex = true → hex' = true) :
    ∀ value : JSNode StdString, DigitsFrom hex' value.leaves →
      SameButIndented indent (written ofDouble depth hex value)
        (written ofDouble (indent + depth) hex' value)
  | .null, _ => .refl _
  | .object [], _ => .refl _
  | .object (property :: properties), hDigits =>
    (((SameButIndented.refl [123]).append
      (writtenProperties_same indent (depth + 1) true hHex (property :: properties) hDigits)).append
      (.line depth)).append (.refl [125])
  | .array [], _ => .refl _
  | .array (item :: items), hDigits =>
    (((SameButIndented.refl [91]).append
      (writtenItems_same indent (depth + 1) true hHex (item :: items) hDigits)).append
      (.line depth)).append (.refl [93])
  | .string _, _ => .refl _
  | .boolean _, _ => .refl _
  | .int64 value, hDigits => by
    rw [written, written, written_int64_same hHex hDigits]
    exact .refl _
  | .double _, _ => .refl _

theorem writtenProperties_same (indent depth : ℕ) (start : Bool) {hex hex' : Bool}
    (hHex : hex = true → hex' = true) :
    ∀ properties : List (StdString × JSNode StdString), DigitsFrom hex' (leavesOfProperties properties) →
      SameButIndented indent (writtenProperties ofDouble depth hex start properties)
        (writtenProperties ofDouble (indent + depth) hex' start properties)
  | [], _ => .refl _
  | (name, value) :: rest, hDigits =>
    (((((SameButIndented.refl (separatorText start)).append (.line depth)).append (.refl name)).append
      (.refl [58, 32])).append (written_same indent depth hHex value hDigits.left)).append
      (writtenProperties_same indent depth false (or_imp_or hHex) rest hDigits.right)

theorem writtenItems_same (indent depth : ℕ) (start : Bool) {hex hex' : Bool}
    (hHex : hex = true → hex' = true) :
    ∀ items : List (JSNode StdString), DigitsFrom hex' (leavesOfItems items) →
      SameButIndented indent (writtenItems ofDouble depth hex start items)
        (writtenItems ofDouble (indent + depth) hex' start items)
  | [], _ => .refl _
  | item :: rest, hDigits =>
    (((SameButIndented.refl (separatorText start)).append (.line depth)).append
      (written_same indent depth hHex item hDigits.left)).append
      (writtenItems_same indent depth false (or_imp_or hHex) rest hDigits.right)

end

end JSValueLogWriter

open JSValueLogWriter JSNode

/-- A value alone is written as the writer writes it without indentation. -/
theorem toString_eq_written {value : JSNode StdString} (hValue : value.NoBooleans) :
    value.toString ofDouble = written ofDouble 0 false value := by
  have hWritten := (appends_writeValue ofDouble 0 value .fresh rfl).text_eq
  cases value with
  | null | int64 value | double value => rfl
  | boolean value => exact absurd List.mem_cons_self (hValue value)
  | object properties | array items | string value => exact hWritten

variable {s : OStream}

/-- What comes before a property decides the base for its value. -/
theorem atProperty_stream (indent : ℕ) (before : List (StdString × JSNode StdString))
    (name : StdString) (h : s.width = 0) :
    (atProperty ofDouble indent before name s).width = 0 ∧
      (atProperty ofDouble indent before name s).hex
        = (s.hex || (leavesOfProperties before).any hasControl) := by
  have hOpen := Appends.insert h [123]
  have hBefore := hOpen.trans (appends_writeProperties ofDouble indent true before _ hOpen.width_eq)
  have hSeparator := hBefore.trans (appends_writeSeparator before.isEmpty hBefore.width_eq)
  have hLine := hSeparator.trans (appends_writeLine indent hSeparator.width_eq)
  have hName := hLine.trans (Appends.insert hLine.width_eq name)
  have hColon := hName.trans (Appends.insert hName.width_eq [58, 32])
  constructor
  · exact hColon.width_eq
  · rw [atProperty, hColon.hex_eq]
    simp only [Bool.or_false, Bool.false_or]

theorem atItem_stream (indent : ℕ) (before : List (JSNode StdString)) (h : s.width = 0) :
    (atItem ofDouble indent before s).width = 0 ∧
      (atItem ofDouble indent before s).hex = (s.hex || (leavesOfItems before).any hasControl) := by
  have hOpen := Appends.insert h [91]
  have hBefore := hOpen.trans (appends_writeItems ofDouble indent true before _ hOpen.width_eq)
  have hSeparator := hBefore.trans (appends_writeSeparator before.isEmpty hBefore.width_eq)
  have hLine := hSeparator.trans (appends_writeLine indent hSeparator.width_eq)
  constructor
  · exact hLine.width_eq
  · rw [atItem, hLine.hex_eq]
    simp only [Bool.or_false, Bool.false_or]

variable {root : JSNode StdString}

theorem WritesPart.stream {value : JSNode StdString} {indent : ℕ}
    (h : WritesPart ofDouble root value indent s) :
    s.width = 0 ∧ ∃ before after, root.leaves = before ++ value.leaves ++ after ∧
      s.hex = before.any hasControl := by
  induction h with
  | root => exact ⟨rfl, [], [], (List.append_nil _).symm, rfl⟩
  | @property first rest name value indent s _ ih =>
    obtain ⟨hWidth, before, after, hLeaves, hHex⟩ := ih
    obtain ⟨hWidth', hHex'⟩ := atProperty_stream ofDouble (indent + 1) first name hWidth
    refine ⟨hWidth', before ++ leavesOfProperties first, leavesOfProperties rest ++ after, ?_, ?_⟩
    · rw [hLeaves, leaves, leavesOfProperties_append, leavesOfProperties]
      simp only [List.append_assoc]
    · rw [hHex', hHex, List.any_append]
  | @item first rest value indent s _ ih =>
    obtain ⟨hWidth, before, after, hLeaves, hHex⟩ := ih
    obtain ⟨hWidth', hHex'⟩ := atItem_stream ofDouble (indent + 1) first hWidth
    refine ⟨hWidth', before ++ leavesOfItems first, leavesOfItems rest ++ after, ?_, ?_⟩
    · rw [hLeaves, leaves, leavesOfItems_append, leavesOfItems]
      simp only [List.append_assoc]
    · rw [hHex', hHex, List.any_append]

theorem split_at_leaf {α : Type*} {first second before after : List α} {leaf : α}
    (h : first ++ second = before ++ leaf :: after) :
    (∃ after', first = before ++ leaf :: after') ∨
      ∃ before', before = first ++ before' ∧ second = before' ++ leaf :: after := by
  rcases List.append_eq_append_iff.mp h with ⟨before', hBefore, hSecond⟩ | ⟨tail, hFirst, hTail⟩
  · exact Or.inr ⟨before', hBefore, hSecond⟩
  · cases tail with
    | nil => exact Or.inr ⟨[], by rw [hFirst, List.append_nil, List.append_nil], hTail.symm⟩
    | cons head tail =>
      obtain ⟨rfl, -⟩ := List.cons.inj hTail
      exact Or.inl ⟨tail, hFirst⟩

def WrittenIn (root leaf : JSNode StdString) (hex : Bool) : Prop :=
  ∃ indent s, WritesPart ofDouble root leaf indent s ∧ s.hex = hex

theorem writtenIn_of_single {value leaf : JSNode StdString} {indent : ℕ}
    (h : WritesPart ofDouble root value indent s) {before after : List (JSNode StdString)}
    (hLeaf : [value] = before ++ leaf :: after) :
    WrittenIn ofDouble root leaf (s.hex || before.any hasControl) := by
  cases before with
  | nil =>
    obtain ⟨rfl, -⟩ := List.cons.inj hLeaf
    exact ⟨indent, s, h, (Bool.or_false _).symm⟩
  | cons first before =>
    have hLength := congrArg List.length hLeaf
    simp only [List.length_cons, List.length_nil, List.length_append] at hLength
    omega

mutual

theorem writtenIn_value {root leaf : JSNode StdString} : ∀ (value : JSNode StdString) {indent : ℕ}
    {s : OStream}, WritesPart ofDouble root value indent s → ∀ before after,
      value.leaves = before ++ leaf :: after →
        WrittenIn ofDouble root leaf (s.hex || before.any hasControl)
  | .object properties, _, s, h, before, after, hLeaf => by
    have hFound := writtenIn_properties [] properties h before after hLeaf
    rw [leavesOfProperties, List.any_nil, Bool.or_false] at hFound
    exact hFound
  | .array items, _, s, h, before, after, hLeaf => by
    have hFound := writtenIn_items [] items h before after hLeaf
    rw [leavesOfItems, List.any_nil, Bool.or_false] at hFound
    exact hFound
  | .null, _, _, h, _, _, hLeaf => writtenIn_of_single ofDouble h hLeaf
  | .string _, _, _, h, _, _, hLeaf => writtenIn_of_single ofDouble h hLeaf
  | .boolean _, _, _, h, _, _, hLeaf => writtenIn_of_single ofDouble h hLeaf
  | .int64 _, _, _, h, _, _, hLeaf => writtenIn_of_single ofDouble h hLeaf
  | .double _, _, _, h, _, _, hLeaf => writtenIn_of_single ofDouble h hLeaf

theorem writtenIn_properties {root leaf : JSNode StdString} (first : List (StdString × JSNode StdString)) :
    ∀ (rest : List (StdString × JSNode StdString)) {indent : ℕ} {s : OStream},
      WritesPart ofDouble root (.object (first ++ rest)) indent s → ∀ before after,
        leavesOfProperties rest = before ++ leaf :: after →
          WrittenIn ofDouble root leaf
            (s.hex || (leavesOfProperties first).any hasControl || before.any hasControl)
  | [], _, _, _, before, after, hLeaf => by
    cases before with
    | nil | cons head before => cases hLeaf
  | (name, value) :: rest, indent, s, h, before, after, hLeaf => by
    rcases split_at_leaf hLeaf with ⟨after', hValue⟩ | ⟨before', hBefore, hRest⟩
    · have hFound := writtenIn_value value h.property before after' hValue
      rw [(atProperty_stream ofDouble (indent + 1) first name h.stream.1).2] at hFound
      exact hFound
    · have hNext : WritesPart ofDouble root (.object (first ++ [(name, value)] ++ rest)) indent s := by
        rw [List.append_assoc]
        exact h
      have hFound := writtenIn_properties (first ++ [(name, value)]) rest hNext before' after hRest
      rw [leavesOfProperties_append, leavesOfProperties, leavesOfProperties, List.append_nil,
        List.any_append] at hFound
      rw [hBefore, List.any_append]
      simp only [Bool.or_assoc] at hFound ⊢
      exact hFound

theorem writtenIn_items {root leaf : JSNode StdString} (first : List (JSNode StdString)) :
    ∀ (rest : List (JSNode StdString)) {indent : ℕ} {s : OStream},
      WritesPart ofDouble root (.array (first ++ rest)) indent s → ∀ before after,
        leavesOfItems rest = before ++ leaf :: after →
          WrittenIn ofDouble root leaf
            (s.hex || (leavesOfItems first).any hasControl || before.any hasControl)
  | [], _, _, _, before, after, hLeaf => by
    cases before with
    | nil | cons head before => cases hLeaf
  | value :: rest, indent, s, h, before, after, hLeaf => by
    rcases split_at_leaf hLeaf with ⟨after', hValue⟩ | ⟨before', hBefore, hRest⟩
    · have hFound := writtenIn_value value h.item before after' hValue
      rw [(atItem_stream ofDouble (indent + 1) first h.stream.1).2] at hFound
      exact hFound
    · have hNext : WritesPart ofDouble root (.array (first ++ [value] ++ rest)) indent s := by
        rw [List.append_assoc]
        exact h
      have hFound := writtenIn_items (first ++ [value]) rest hNext before' after hRest
      rw [leavesOfItems_append, leavesOfItems, leavesOfItems, List.append_nil,
        List.any_append] at hFound
      rw [hBefore, List.any_append]
      simp only [Bool.or_assoc] at hFound ⊢
      exact hFound

end

/-! ### Main results -/

theorem decimalBytes_no_line (value : Int64) : (10 : UInt8) ∉ decimalBytes value := by
  have hDigits : (10 : UInt8) ∉ digitBytes 10 value.toInt.natAbs := by
    rw [digitBytes]
    split
    next => decide
    next =>
      intro hMem
      obtain ⟨digit, hDigit, hLine⟩ := List.mem_map.mp hMem
      exact digitByte_ne_line digit (digits_lt (Or.inl rfl) hDigit) hLine
  rw [decimalBytes]
  split
  next =>
    intro hMem
    rcases List.mem_cons.mp hMem with hMinus | hDigit
    · cases hMinus
    · exact hDigits hDigit
  next => exact hDigits

theorem boolean_alone_differs {value : Bool} {text : StdString} {hex : Bool} {indent : ℕ}
    (hText : written ofDouble indent hex (.boolean value) = text) :
    ¬ SameButIndented indent ((JSNode.boolean value).toString ofDouble) text := by
  intro hSame
  rw [← hText, JSNode.toString, written] at hSame
  cases value with
  | true => exact absurd (hSame.eq_of_notMem (by decide)) (by decide)
  | false => exact absurd (hSame.eq_of_notMem (by decide)) (by decide)

/-- A boolean in a tree is written as a word, and alone as a number. -/
theorem noBooleans_of_compositional (h : Compositional ofDouble root) : root.NoBooleans := by
  intro value hLeaf
  obtain ⟨before, after, hLeaves⟩ := List.append_of_mem hLeaf
  obtain ⟨indent, s, hWrites, -⟩ := writtenIn_value ofDouble root .root before after hLeaves
  obtain ⟨text, hText, hSame⟩ := h (.boolean value) indent s hWrites
  have hWord := (appends_writeValue ofDouble indent (.boolean value) s hWrites.stream.1).text_eq
  exact boolean_alone_differs ofDouble (List.append_cancel_left (hWord.symm.trans hText)) hSame

/-- An integer that is written in base 16 has the text of its decimal digits only if it is one of them. -/
theorem digitsAfterControls_of_compositional (h : Compositional ofDouble root) :
    root.DigitsAfterControls := by
  intro before value after hLeaf hControl
  obtain ⟨indent, s, hWrites, hHex⟩ := writtenIn_value ofDouble root .root before after hLeaf
  obtain ⟨text, hText, hSame⟩ := h (.int64 value) indent s hWrites
  have hInt := (appends_writeValue ofDouble indent (.int64 value) s hWrites.stream.1).text_eq
  have hEq : written ofDouble indent s.hex (.int64 value) = text :=
    List.append_cancel_left (hInt.symm.trans hText)
  have hDecimal : decimalBytes value = text := hSame.eq_of_notMem (decimalBytes_no_line value)
  have hBase : s.hex = true := hHex.trans hControl
  rw [written, hBase, if_pos rfl] at hEq
  exact hexBytes_eq_iff.mp (hEq.trans hDecimal.symm)

theorem compositional_of_digits (h : root.DigitsAfterControls) (hBooleans : root.NoBooleans) :
    Compositional ofDouble root := by
  intro value indent s hWrites
  obtain ⟨hWidth, before, after, hLeaves, hHex⟩ := hWrites.stream
  have hValue : value.NoBooleans := by
    intro flag hLeaf
    apply hBooleans flag
    rw [hLeaves]
    exact List.mem_append_left _ (List.mem_append_right _ hLeaf)
  have hRoot : DigitsFrom false (before ++ value.leaves ++ after) := by
    rw [← hLeaves]
    exact h
  have hDigits : DigitsFrom s.hex value.leaves := by
    rw [hHex]
    exact hRoot.left.right
  have hSame : SameButIndented indent (written ofDouble 0 false value)
      (written ofDouble indent s.hex value) :=
    written_same ofDouble indent 0 (fun hTrue : false = true => nomatch hTrue) value hDigits
  refine ⟨written ofDouble indent s.hex value, ?_, ?_⟩
  · exact (appends_writeValue ofDouble indent value s hWidth).text_eq
  · rw [toString_eq_written ofDouble hValue]
    exact hSame

/-- Parts are written as they are alone if and only if no integer of two digits or below zero comes after a
string with a control character that is written by its number, since writing such a string leaves the base
16, and there is no boolean, which alone is written as `1` or `0`. -/
theorem compositional_iff (root : JSNode StdString) :
    Compositional ofDouble root ↔ root.DigitsAfterControls ∧ root.NoBooleans := by
  constructor
  · intro h
    exact ⟨digitsAfterControls_of_compositional ofDouble h, noBooleans_of_compositional ofDouble h⟩
  · rintro ⟨hDigits, hBooleans⟩
    exact compositional_of_digits ofDouble hDigits hBooleans

/-- After the string of one character `\x01`, ten is written as `a`. -/
theorem ten_after_control :
    ¬ Compositional (fun _ => []) (.array [.string [1], .int64 10]) := by
  intro h
  have hDigit := digitsAfterControls_of_compositional _ h [.string [1]] 10 [] rfl rfl
  exact absurd hDigit.2 (by decide)

end ReactNative
