import Mathlib.Data.List.Basic

/-!
# Generic values, maps and exceptions

`DataTypes.h` stores every argument and result of a command in the protobuf message
`GenericValue`: one of six scalar cases or five containers.  A `Map` keys generic
values by `FieldId`; commands read it through `at` and `count` and write it through
`operator[]`, which inserts a default value for an absent key.  `Exception.h` gives
the closed set of errors OctoCore raises.

Equality of maps is never computed by the code, so `real` holds a `Float` and no
decidable equality is derived.
-/

namespace Octo

/-- `FieldId`: the 32-bit FNV-1a hash of a field name. -/
abbrev FieldId := UInt32

/-- `ObjectId`: a signed 64-bit integer, as the bits of its two's complement form. -/
abbrev ObjectId := BitVec 64

/-- `CommandBase::CommandId`: a signed 32-bit integer. -/
abbrev CommandId := BitVec 32

/-- The protobuf message `GenericValue`; `unset` is its empty `oneof`. -/
inductive GenericValue where
  | unset
  | boolean (value : Bool)
  | int32 (value : BitVec 32)
  | int64 (value : BitVec 64)
  | real (value : Float)
  | string (value : String)
  | list (entries : List GenericValue)
  | intList (entries : List (BitVec 64))
  | strList (entries : List String)
  | map (entries : List (FieldId × GenericValue))
  | strMap (entries : List (String × GenericValue))
  deriving Inhabited

/-- `Map`, a `google::protobuf::Map<FieldId, GenericValue>`, as an association list
that holds each key at most once. -/
structure Map where
  entries : List (FieldId × GenericValue)
  nodup : (entries.map Prod.fst).Nodup

namespace Map

/-- The empty map of `std::make_shared<Map>()`. -/
def empty : Map := ⟨[], List.nodup_nil⟩

instance : Inhabited Map := ⟨empty⟩

/-- `map.find(fieldId)`. -/
def find? (map : Map) (fieldId : FieldId) : Option GenericValue :=
  map.entries.lookup fieldId

/-- `map.count(fieldId)`. -/
def count (map : Map) (fieldId : FieldId) : Nat :=
  if (map.find? fieldId).isSome then 1 else 0

private theorem nodup_insert {entries : List (FieldId × GenericValue)}
    (nodup : (entries.map Prod.fst).Nodup) (fieldId : FieldId) (value : GenericValue) :
    (((fieldId, value) :: entries.filter (·.1 != fieldId)).map Prod.fst).Nodup := by
  rw [List.map_cons, List.nodup_cons]
  exact ⟨by simp, nodup.sublist ((List.filter_sublist _).map _)⟩

/-- `map[fieldId] = value`: replace or add the entry for `fieldId`. -/
def insert (map : Map) (fieldId : FieldId) (value : GenericValue) : Map :=
  ⟨(fieldId, value) :: map.entries.filter (·.1 != fieldId), nodup_insert map.nodup fieldId value⟩

/-- `map[fieldId]` read for mutation: the value present, or the default
`GenericValue` that `operator[]` inserts. -/
def findD (map : Map) (fieldId : FieldId) : GenericValue :=
  (map.find? fieldId).getD .unset

private theorem lookup_filter_ne {other fieldId : FieldId} (different : other ≠ fieldId) :
    ∀ entries : List (FieldId × GenericValue),
      (entries.filter (·.1 != fieldId)).lookup other = entries.lookup other
  | [] => rfl
  | (key, value) :: entries => by
      by_cases same : key = fieldId
      · subst same
        simp [List.lookup_cons, beq_false_of_ne different, lookup_filter_ne different entries]
      · simp [List.filter_cons, same, List.lookup_cons, lookup_filter_ne different entries]

@[simp] theorem find?_insert (map : Map) (fieldId other : FieldId) (value : GenericValue) :
    (map.insert fieldId value).find? other =
      if other = fieldId then some value else map.find? other := by
  by_cases same : other = fieldId
  · subst same
    simp [insert, find?, List.lookup_cons]
  · simp [insert, find?, List.lookup_cons, same, beq_false_of_ne same, lookup_filter_ne same]

end Map

/-! ## Typed access to generic values -/

/-- The C++ types `wrap`, `unwrap` and `can_unwrap` are instantiated at, one for each
field of `GenericValue`; `string` stands for `const string&` and `const char*`. -/
inductive ValueType where
  | boolean | int32 | int64 | real | string | list | intList | strList | map | strMap
  deriving DecidableEq

namespace ValueType

/-- The C++ type of each. -/
def Carrier : ValueType → Type
  | boolean => Bool
  | int32 => BitVec 32
  | int64 => BitVec 64
  | real => Float
  | string => String
  | list => List GenericValue
  | intList => List (BitVec 64)
  | strList => List String
  | map => List (FieldId × GenericValue)
  | strMap => List (String × GenericValue)

/-- What the protobuf accessor of each field returns while another case is set. -/
def default : (type : ValueType) → type.Carrier
  | boolean => false
  | int32 => (0 : BitVec 32)
  | int64 => (0 : BitVec 64)
  | real => (0 : Float)
  | string => ""
  | list => []
  | intList => []
  | strList => []
  | map => []
  | strMap => []

end ValueType

/-- The field of the `oneof` that is set. -/
def GenericValue.case : GenericValue → Option ValueType
  | unset => none
  | boolean _ => some .boolean
  | int32 _ => some .int32
  | int64 _ => some .int64
  | real _ => some .real
  | string _ => some .string
  | list _ => some .list
  | intList _ => some .intList
  | strList _ => some .strList
  | map _ => some .map
  | strMap _ => some .strMap

/-- `wrap(value)`, one overload for each type: set the field of the value's type. -/
def wrap : (type : ValueType) → type.Carrier → GenericValue
  | .boolean, value => .boolean value
  | .int32, value => .int32 value
  | .int64, value => .int64 value
  | .real, value => .real value
  | .string, value => .string value
  | .list, entries => .list entries
  | .intList, entries => .intList entries
  | .strList, entries => .strList entries
  | .map, entries => .map entries
  | .strMap, entries => .strMap entries

/-- `unwrap<T>(value)`: the protobuf accessor of the field of type `T`, which gives the
default while another case is set. -/
def unwrap : (type : ValueType) → GenericValue → type.Carrier
  | .boolean, .boolean value => value
  | .int32, .int32 value => value
  | .int64, .int64 value => value
  | .real, .real value => value
  | .string, .string value => value
  | .list, .list entries => entries
  | .intList, .intList entries => entries
  | .strList, .strList entries => entries
  | .map, .map entries => entries
  | .strMap, .strMap entries => entries
  | type, _ => type.default

/-- `can_unwrap<T>(value)`: `has_` of the field of type `T`. -/
def canUnwrap (type : ValueType) (value : GenericValue) : Bool :=
  decide (value.case = some type)

@[simp] theorem case_wrap (type : ValueType) (value : type.Carrier) :
    (wrap type value).case = some type := by
  cases type <;> rfl

/-- Wrapping is a round trip: `unwrap` reads back what `wrap` stored, and
`can_unwrap` accepts the wrapped value at its own type only. -/
theorem unwrap_wrap (type : ValueType) (value : type.Carrier) :
    unwrap type (wrap type value) = value ∧
      ∀ type', canUnwrap type' (wrap type value) = decide (type = type') := by
  refine ⟨by cases type <;> rfl, fun type' => ?_⟩
  simp [canUnwrap]

namespace Map

/-- The getter `fieldName()` of an `OCTO_ARG` or `OCTO_RESULT` field: `unwrap` of
`at(fieldId)`, where `at` of an absent key is a fatal protobuf error. -/
def getField (map : Map) (type : ValueType) (fieldId : FieldId) : Option type.Carrier :=
  (map.find? fieldId).map (unwrap type)

/-- `has_fieldName()`: `count(fieldId) > 0 && can_unwrap<T>(at(fieldId))`. -/
def hasField (map : Map) (type : ValueType) (fieldId : FieldId) : Bool :=
  decide (map.count fieldId > 0) && (map.find? fieldId).any (canUnwrap type)

/-- A field written with a wrapped value reads it back at its type, and every other
field reads as before. -/
theorem getField_insert_wrap (map : Map) (type : ValueType) (fieldId : FieldId)
    (value : type.Carrier) :
    (map.insert fieldId (wrap type value)).getField type fieldId = some value ∧
      (map.insert fieldId (wrap type value)).hasField type fieldId = true ∧
      ∀ other type', other ≠ fieldId →
        (map.insert fieldId (wrap type value)).getField type' other = map.getField type' other ∧
        (map.insert fieldId (wrap type value)).hasField type' other = map.hasField type' other := by
  refine ⟨by simp [getField, (unwrap_wrap type value).1], by simp [hasField, count, canUnwrap],
    fun other type' different => ?_⟩
  simp [getField, hasField, count, different]

end Map

/-- The `const char*` reason a `CommandWillNotApplyException` keeps and `what()` hands
back: the text of a buffer that outlives the exception, or a pointer into a temporary
`std::string` destroyed when the full expression that threw ended, whose memory
`what()` would read after it was freed. -/
inductive ErrorReason where
  | live (text : String)
  | freed

/-- The exceptions of `Exception.h`, and `other` for any exception a command's code
raises outside that taxonomy (such as `std::out_of_range` from `Map::at`).  Every
`StateException` of the repository is thrown with a string literal, so its reason is
its text. -/
inductive Exception where
  | stateException (errorReason : String)
  | inapplicableCommand
  | commandWillNotApply (errorReason : ErrorReason)
  | commandResultMisuse
  | other (what : String)

end Octo
