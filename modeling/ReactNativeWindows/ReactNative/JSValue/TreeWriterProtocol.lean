import ReactNativeWindows.ReactNative.JSValue.TreeWriter
import ReactNativeWindows.ReactNative.JSValue.WriterProtocol

/-! `JSValueTreeWriter` against the protocol of a writer. -/
namespace ReactNative

open Unicode

namespace JSNode

mutual

/-- The `JSValue` of what was written: of the values under one name, the first. -/
def toJSValue : Written → JSNode StdString
  | .null => .null
  | .object properties => .object (StdMap.emplaceAll (toJSValueProperties properties) [])
  | .array items => .array (toJSValueItems items)
  | .string value => .string (utf8 value)
  | .boolean value => .boolean value
  | .int64 value => .int64 value
  | .double value => .double value

def toJSValueProperties : List (List Char × Written) → List (StdString × JSNode StdString)
  | [] => []
  | (name, value) :: rest => (utf8 name, value.toJSValue) :: toJSValueProperties rest

def toJSValueItems : List Written → List (JSNode StdString)
  | [] => []
  | value :: rest => value.toJSValue :: toJSValueItems rest

end

theorem toJSValueItems_eq_map (items : List Written) :
    toJSValueItems items = items.map toJSValue := by
  induction items with
  | nil => rfl
  | cons value rest ih => rw [toJSValueItems, ih, List.map_cons]

theorem toJSValueProperties_eq_map (properties : List (List Char × Written)) :
    toJSValueProperties properties =
      properties.map fun property => (utf8 property.1, property.2.toJSValue) := by
  induction properties with
  | nil => rfl
  | cons property rest ih => rw [toJSValueProperties, ih, List.map_cons]

end JSNode

namespace JSValueTreeWriter

def mapOf (entries : List (List Char × Written)) : StdMap StdString (JSNode StdString) :=
  StdMap.emplaceAll (JSNode.toJSValueProperties entries) []

def ofContainer : OpenContainer → ContainerInfo
  | .object entries none => ⟨.object, [], mapOf entries, []⟩
  | .object entries (some name) => ⟨.object, utf8 name, mapOf entries, []⟩
  | .array items => ⟨.array, [], [], JSNode.toJSValueItems items⟩

def opened (containers : List OpenContainer) : JSValueTreeWriter :=
  ⟨containers.map ofContainer ++ [.make .none], .null⟩

def ofState : WriterState → JSValueTreeWriter
  | .start => make
  | .building top below => opened (top :: below)
  | .finished value => ⟨[.make .none], value.toJSValue⟩

theorem mapOf_append (entries : List (List Char × Written)) (name : List Char) (value : Written) :
    mapOf (entries ++ [(name, value)]) =
      StdMap.emplace (utf8 name) value.toJSValue (mapOf entries) := by
  rw [mapOf, JSNode.toJSValueProperties_eq_map, List.map_append, StdMap.emplaceAll,
    List.foldl_append, mapOf, JSNode.toJSValueProperties_eq_map]
  rfl

theorem toJSValueItems_append (items : List Written) (value : Written) :
    JSNode.toJSValueItems (items ++ [value]) =
      JSNode.toJSValueItems items ++ [value.toJSValue] := by
  rw [JSNode.toJSValueItems_eq_map, JSNode.toJSValueItems_eq_map, List.map_append,
    List.map_singleton]

variable {value : Written} {next : WriterState}

theorem writeValue_ofState {s : WriterState} (h : WriterState.put value s = some next) :
    (ofState s).writeValue value.toJSValue = some (ofState next) := by
  cases s with
  | start =>
    cases h
    rfl
  | building top below =>
    cases top with
    | object entries name =>
      cases name with
      | none => cases h
      | some name =>
        cases h
        show _ = some (⟨⟨.object, [], mapOf (entries ++ [(name, value)]), []⟩ :: _, _⟩ :
          JSValueTreeWriter)
        rw [mapOf_append]
        rfl
    | array items =>
      cases h
      show _ = some (⟨⟨.array, [], [], JSNode.toJSValueItems (items ++ [value])⟩ :: _, _⟩ :
        JSValueTreeWriter)
      rw [toJSValueItems_append]
      rfl
  | finished result => cases h

theorem push_ofState {container : OpenContainer} {s : WriterState} {type : ContainerType}
    (hType : ofContainer container = .make type) (h : WriterState.begin container s = some next) :
    (ofState s).push type = ofState next := by
  cases s with
  | start =>
    cases h
    show (⟨[.make type, .make .none], .null⟩ : JSValueTreeWriter) =
      ⟨[ofContainer container, .make .none], .null⟩
    rw [hType]
  | building top below =>
    cases top with
    | object entries name =>
      cases name with
      | none => cases h
      | some name =>
        cases h
        show (⟨.make type :: _, .null⟩ : JSValueTreeWriter) = ⟨ofContainer container :: _, .null⟩
        rw [hType]
        rfl
    | array items =>
      cases h
      show (⟨.make type :: _, .null⟩ : JSValueTreeWriter) = ⟨ofContainer container :: _, .null⟩
      rw [hType]
      rfl
  | finished result => cases h

theorem writeValue_opened {below : List OpenContainer}
    (h : WriterState.ended value below = some next) :
    (opened below).writeValue value.toJSValue = some (ofState next) := by
  cases below with
  | nil =>
    cases h
    rfl
  | cons top below => exact writeValue_ofState (s := .building top below) h

/-- The writer follows the protocol call by call. -/
theorem write_ofState (s : WriterState) (call : WriterCall) (next : WriterState)
    (h : s.write call = some next) :
    write windowsStrings (ofState s) call = some (ofState next) := by
  cases call with
  | writeNull | writeBoolean value | writeInt64 value | writeDouble value | writeString value =>
    exact writeValue_ofState h
  | writeObjectBegin | writeArrayBegin => exact congrArg some (push_ofState rfl h)
  | writePropertyName name =>
    cases s with
    | start | finished result => cases h
    | building top below =>
      cases top with
      | object entries waiting =>
        cases waiting with
        | none =>
          cases h
          rfl
        | some waiting => cases h
      | array items => cases h
  | writeObjectEnd =>
    cases s with
    | start | finished result => cases h
    | building top below =>
      cases top with
      | object entries waiting =>
        cases waiting with
        | none => exact writeValue_opened h
        | some waiting => cases h
      | array items => cases h
  | writeArrayEnd =>
    cases s with
    | start | finished result => cases h
    | building top below =>
      cases top with
      | object entries waiting => cases waiting <;> cases h
      | array items => exact writeValue_opened h

theorem foldlM_write {calls : List WriterCall}
    (h : calls.foldlM WriterState.write .start = some (.finished value)) :
    calls.foldlM (write windowsStrings) make = some (ofState (.finished value)) :=
  Control.foldlM_follows write_ofState h

end JSValueTreeWriter

end ReactNative
