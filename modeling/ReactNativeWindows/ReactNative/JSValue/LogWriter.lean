import Mathlib.Data.Nat.Digits.Defs
import ReactNativeWindows.ReactNative.JSValue.JSValue

/-! `JSValue::ToString`, which writes a tree to one stream. -/
namespace ReactNative

open Numbers (Double)

def digitByte (digit : ℕ) : UInt8 := if digit < 10 then (48 + digit).toUInt8 else (87 + digit).toUInt8

def digitBytes (base n : ℕ) : StdString :=
  if n = 0 then [48] else (Nat.digits base n).reverse.map digitByte

def decimalBytes (value : Int64) : StdString :=
  if value.toInt < 0 then 45 :: digitBytes 10 value.toInt.natAbs else digitBytes 10 value.toInt.natAbs

/-- A negative number is written by its two's complement. -/
def hexBytes (value : Int64) : StdString := digitBytes 16 value.toUInt64.toNat

/-- A `std::ostream` that writes to a string: the text, and what manipulators have set. -/
structure OStream where
  text : StdString
  hex : Bool
  width : ℕ
  fill : UInt8

namespace OStream

def fresh : OStream := ⟨[], false, 0, 32⟩

/-- Characters are filled up to the width, which is for one insertion only. -/
def insert (s : OStream) (chars : StdString) : OStream :=
  { s with text := s.text ++ (List.replicate (s.width - chars.length) s.fill ++ chars), width := 0 }

def insertInt (s : OStream) (value : Int64) : OStream :=
  s.insert (if s.hex then hexBytes value else decimalBytes value)

end OStream

namespace JSValueLogWriter

def writeIndent : ℕ → OStream → OStream
  | 0, s => s
  | indent + 1, s => writeIndent indent (s.insert [32, 32])

def writeLine (indent : ℕ) (s : OStream) : OStream := writeIndent indent (s.insert [10])

def writeChar (s : OStream) (ch : UInt8) : OStream :=
  if ch = 34 then s.insert [92, 34]
  else if ch = 92 then s.insert [92, 92]
  else if ch = 8 then s.insert [92, 98]
  else if ch = 12 then s.insert [92, 102]
  else if ch = 10 then s.insert [92, 110]
  else if ch = 13 then s.insert [92, 114]
  else if ch = 9 then s.insert [92, 116]
  else if ch ≤ 31 then
    { s.insert [92, 117] with hex := true, width := 4, fill := 48 }.insertInt (Int64.ofNat ch.toNat)
  else s.insert [ch]

def writeQuotedString (value : StdString) (s : OStream) : OStream :=
  (value.foldl writeChar (s.insert [34])).insert [34]

def writeSeparator (start : Bool) (s : OStream) : OStream := if start then s else s.insert [44]

variable (ofDouble : Double → StdString)

mutual

/-- `ofDouble` is how a stream writes a double, for which the base does not matter. -/
def writeValue (indent : ℕ) : JSNode StdString → OStream → OStream
  | .null, s => s.insert [110, 117, 108, 108]
  | .object [], s => s.insert [123, 125]
  | .object (property :: properties), s =>
    (writeLine indent (writeProperties (indent + 1) true (property :: properties)
      (s.insert [123]))).insert [125]
  | .array [], s => s.insert [91, 93]
  | .array (item :: items), s =>
    (writeLine indent (writeItems (indent + 1) true (item :: items) (s.insert [91]))).insert [93]
  | .string value, s => writeQuotedString value s
  | .boolean value, s =>
    s.insert (if value then [116, 114, 117, 101] else [102, 97, 108, 115, 101])
  | .int64 value, s => s.insertInt value
  | .double value, s => s.insert (ofDouble value)

def writeProperties (indent : ℕ) (start : Bool) : List (StdString × JSNode StdString) → OStream → OStream
  | [], s => s
  | (name, value) :: rest, s =>
    writeProperties indent false rest (writeValue indent value
      (((writeLine indent (writeSeparator start s)).insert name).insert [58, 32]))

def writeItems (indent : ℕ) (start : Bool) : List (JSNode StdString) → OStream → OStream
  | [], s => s
  | item :: rest, s =>
    writeItems indent false rest (writeValue indent item (writeLine indent (writeSeparator start s)))

end

end JSValueLogWriter

namespace JSNode

open JSValueLogWriter

def toString (ofDouble : Double → StdString) : JSNode StdString → StdString
  | .null => [110, 117, 108, 108]
  | .object properties => (writeValue ofDouble 0 (.object properties) .fresh).text
  | .array items => (writeValue ofDouble 0 (.array items) .fresh).text
  | .string value => (writeValue ofDouble 0 (.string value) .fresh).text
  -- `ToJSString` takes a double, to which the boolean is converted.
  | .boolean value => if value then [49] else [48]
  | .int64 value => decimalBytes value
  | .double value => ofDouble value

end JSNode

end ReactNative
