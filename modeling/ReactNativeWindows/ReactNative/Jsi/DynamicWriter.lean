import ReactNativeWindows.ReactNative.JSValue.WriterProtocol
import ReactNativeWindows.ReactNative.Jsi.JsiValue

/-! `DynamicWriter`, which builds a `folly::dynamic`, and the JavaScript value of that. -/
namespace ReactNative

open Collections (Entries)
open Numbers (Double)
open Unicode

/-- `folly::dynamic`; the members of an object stand in no particular order in the source. -/
inductive Dynamic where
  | null
  | boolean (value : Bool)
  | int64 (value : Int64)
  | double (value : Double)
  | string (value : Utf8)
  | array (items : List Dynamic)
  | object (members : List (Utf8 × Dynamic))

namespace Dynamic

/-- `dynamic[name] = value`, which stops the process where there is no object. -/
def setMember (dynamic : Dynamic) (name : Utf8) (value : Dynamic) : Option Dynamic :=
  match dynamic with
  | .object members => some (.object (Entries.set name value members))
  | _ => none

/-- `push_back`, which stops the process where there is no array. -/
def pushBack (dynamic value : Dynamic) : Option Dynamic :=
  match dynamic with
  | .array items => some (.array (items ++ [value]))
  | _ => none

end Dynamic

inductive DynamicWriterState where
  | start | propertyName | propertyValue | array | finish
  deriving DecidableEq

structure DynamicStackEntry where
  state : DynamicWriterState
  dynamic : Dynamic
  propertyName : Utf8

/-- The stack stands with its back first. A value that is moved from counts as empty; none is
read before it is set again. -/
structure DynamicWriter where
  state : DynamicWriterState
  stack : List DynamicStackEntry
  dynamic : Dynamic
  propertyName : Utf8
  result : Dynamic

namespace DynamicWriter

def make : DynamicWriter := ⟨.start, [], .null, [], .null⟩

def takeValue (w : DynamicWriter) : Dynamic := w.result

/-- `WriteObjectBegin` and `WriteArrayBegin`, with the state and the value they leave. -/
def writeBegin (w : DynamicWriter) (state : DynamicWriterState) (dynamic : Dynamic) :
    Option DynamicWriter :=
  match w.state with
  | .propertyValue =>
    let stack := ⟨w.state, w.dynamic, w.propertyName⟩ :: w.stack
    some { w with stack := stack, propertyName := [], dynamic := dynamic, state := state }
  | .array =>
    let stack := ⟨w.state, w.dynamic, []⟩ :: w.stack
    some { w with stack := stack, dynamic := dynamic, state := state }
  | .start => some { w with dynamic := dynamic, state := state }
  | _ => none

def writePropertyName (w : DynamicWriter) (name : HString) : Option DynamicWriter :=
  if w.state = .propertyName then
    some { w with propertyName := toUtf8 name, state := .propertyValue }
  else none

def writeEnd (w : DynamicWriter) (state : DynamicWriterState) : Option DynamicWriter :=
  if w.state = state then
    match w.stack with
    | [] => some { w with result := w.dynamic, dynamic := .null, state := .finish }
    | entry :: stack =>
      match entry.state with
      | .propertyValue => do
        let dynamic ← entry.dynamic.setMember entry.propertyName w.dynamic
        some { w with dynamic := dynamic, state := .propertyName, stack := stack }
      | .array => do
        let dynamic ← entry.dynamic.pushBack w.dynamic
        some { w with dynamic := dynamic, state := .array, stack := stack }
      | _ => none
  else none

def writeValue (w : DynamicWriter) (value : Dynamic) : Option DynamicWriter :=
  match w.state with
  | .propertyValue => do
    let dynamic ← w.dynamic.setMember w.propertyName value
    some { w with dynamic := dynamic, propertyName := [], state := .propertyName }
  | .array => do
    let dynamic ← w.dynamic.pushBack value
    some { w with dynamic := dynamic }
  | .start => some { w with result := value, state := .finish }
  | _ => none

/-- A call of the writer; `none` where `VerifyElseCrash` stops the process. -/
def write (w : DynamicWriter) : WriterCall → Option DynamicWriter
  | .writeNull => w.writeValue .null
  | .writeBoolean value => w.writeValue (.boolean value)
  | .writeInt64 value => w.writeValue (.int64 value)
  | .writeDouble value => w.writeValue (.double value)
  | .writeString value => w.writeValue (.string (toUtf8 value))
  | .writeObjectBegin => w.writeBegin .propertyName (.object [])
  | .writePropertyName name => w.writePropertyName name
  | .writeObjectEnd => w.writeEnd .propertyName
  | .writeArrayBegin => w.writeBegin .array (.array [])
  | .writeArrayEnd => w.writeEnd .array

end DynamicWriter

namespace JSNode

mutual

def toDynamic : Written → Dynamic
  | .null => .null
  | .object properties => .object (Entries.setAll (toDynamicMembers properties) [])
  | .array items => .array (toDynamicItems items)
  | .string value => .string (utf8 value)
  | .boolean value => .boolean value
  | .int64 value => .int64 value
  | .double value => .double value

def toDynamicMembers : List (List Char × Written) → List (Utf8 × Dynamic)
  | [] => []
  | (name, value) :: rest => (utf8 name, value.toDynamic) :: toDynamicMembers rest

def toDynamicItems : List Written → List Dynamic
  | [] => []
  | value :: rest => value.toDynamic :: toDynamicItems rest

end

theorem toDynamicItems_eq_map (items : List Written) : toDynamicItems items = items.map toDynamic := by
  induction items with
  | nil => rfl
  | cons value rest ih => rw [toDynamicItems, ih, List.map_cons]

theorem toDynamicMembers_eq_map (properties : List (List Char × Written)) :
    toDynamicMembers properties = properties.map (Prod.map utf8 toDynamic) := by
  induction properties with
  | nil => rfl
  | cons property rest ih =>
    rw [toDynamicMembers, ih, List.map_cons]
    rfl

end JSNode

namespace DynamicWriter

def objectOf (entries : List (List Char × Written)) : Dynamic :=
  .object (Entries.setAll (JSNode.toDynamicMembers entries) [])

def ofContainer : OpenContainer → DynamicStackEntry
  | .object entries none => ⟨.propertyName, objectOf entries, []⟩
  | .object entries (some name) => ⟨.propertyValue, objectOf entries, utf8 name⟩
  | .array items => ⟨.array, .array (JSNode.toDynamicItems items), []⟩

/-- The writer with this container open above those of the stack. -/
def opened (entry : DynamicStackEntry) (stack : List DynamicStackEntry) : DynamicWriter :=
  ⟨entry.state, stack, entry.dynamic, entry.propertyName, .null⟩

def ofState : WriterState → DynamicWriter
  | .start => make
  | .building top below => opened (ofContainer top) (below.map ofContainer)
  | .finished value => ⟨.finish, [], .null, [], value.toDynamic⟩

theorem objectOf_append (entries : List (List Char × Written)) (name : List Char)
    (value : Written) :
    objectOf (entries ++ [(name, value)]) =
      .object (Entries.set (utf8 name) value.toDynamic
        (Entries.setAll (JSNode.toDynamicMembers entries) [])) := by
  rw [objectOf, JSNode.toDynamicMembers_eq_map, JSNode.toDynamicMembers_eq_map,
    List.map_append, Entries.setAll, List.foldl_append]
  rfl

theorem toDynamicItems_append (items : List Written) (value : Written) :
    JSNode.toDynamicItems (items ++ [value]) = JSNode.toDynamicItems items ++ [value.toDynamic] := by
  rw [JSNode.toDynamicItems_eq_map, JSNode.toDynamicItems_eq_map, List.map_append,
    List.map_singleton]

theorem writeValue_ofState (value : Written) (s : WriterState) :
    (ofState s).writeValue value.toDynamic = (WriterState.put value s).map ofState := by
  cases s with
  | start | finished result => rfl
  | building top below =>
    cases top with
    | object entries name =>
      cases name with
      | none => rfl
      | some name =>
        show _ = some (opened ⟨.propertyName, objectOf (entries ++ [(name, value)]), []⟩ _)
        rw [objectOf_append]
        rfl
    | array items =>
      show _ = some (opened ⟨.array, .array (JSNode.toDynamicItems (items ++ [value])), []⟩ _)
      rw [toDynamicItems_append]
      rfl

theorem writeBegin_ofState (container : OpenContainer) (s : WriterState)
    (hName : (ofContainer container).propertyName = []) :
    (ofState s).writeBegin (ofContainer container).state (ofContainer container).dynamic =
      (WriterState.begin container s).map ofState := by
  cases s with
  | start =>
    show some (_ : DynamicWriter) = some (opened (ofContainer container) [])
    rw [opened, hName]
    rfl
  | building top below =>
    cases top with
    | object entries name =>
      cases name with
      | none => rfl
      | some name =>
        show some (_ : DynamicWriter) = some (opened (ofContainer container) _)
        rw [opened, hName]
        rfl
    | array items =>
      show some (_ : DynamicWriter) = some (opened (ofContainer container) _)
      rw [opened, hName]
      rfl
  | finished result => rfl

theorem writeEnd_opened (entry : DynamicStackEntry) (below : List OpenContainer)
    {value : Written} (hValue : entry.dynamic = value.toDynamic) (hName : entry.propertyName = []) :
    (opened entry (below.map ofContainer)).writeEnd entry.state =
      (WriterState.ended value below).map ofState := by
  obtain ⟨state, dynamic, name⟩ := entry
  cases hValue
  cases hName
  rw [writeEnd]
  refine (if_pos rfl).trans ?_
  cases below with
  | nil => rfl
  | cons top below =>
    cases top with
    | object entries name =>
      cases name with
      | none => rfl
      | some name =>
        show _ = some (opened ⟨.propertyName, objectOf (entries ++ [(name, value)]), []⟩ _)
        rw [objectOf_append]
        rfl
    | array items =>
      show _ = some (opened ⟨.array, .array (JSNode.toDynamicItems (items ++ [value])), []⟩ _)
      rw [toDynamicItems_append]
      rfl

/-- The writer does at each call what the protocol does. -/
theorem write_ofState (s : WriterState) (call : WriterCall) :
    write (ofState s) call = (s.write call).map ofState := by
  cases call with
  | writeNull => exact writeValue_ofState .null s
  | writeBoolean value => exact writeValue_ofState (.boolean value) s
  | writeInt64 value => exact writeValue_ofState (.int64 value) s
  | writeDouble value => exact writeValue_ofState (.double value) s
  | writeString value => exact writeValue_ofState (.string (decodeUtf16 value)) s
  | writeObjectBegin => exact writeBegin_ofState (.object [] none) s rfl
  | writeArrayBegin => exact writeBegin_ofState (.array []) s rfl
  | writePropertyName name =>
    cases s with
    | start | finished result => rfl
    | building top below =>
      cases top with
      | object entries waiting => cases waiting <;> rfl
      | array items => rfl
  | writeObjectEnd =>
    cases s with
    | start | finished result => rfl
    | building top below =>
      cases top with
      | object entries waiting =>
        cases waiting with
        | none => exact writeEnd_opened (ofContainer (.object entries none)) below rfl rfl
        | some name => rfl
      | array items => rfl
  | writeArrayEnd =>
    cases s with
    | start | finished result => rfl
    | building top below =>
      cases top with
      | object entries waiting => cases waiting <;> rfl
      | array items => exact writeEnd_opened (ofContainer (.array items)) below rfl rfl

theorem foldlM_write (calls : List WriterCall) :
    calls.foldlM write make = (calls.foldlM WriterState.write .start).map ofState :=
  Control.foldlM_image write_ofState .start calls

end DynamicWriter

end ReactNative
