import LaminarDB.Library.Result

/-!
# Scalars and their checkpoint encoding

`ScalarValue` with `scalar_to_json` and `json_to_scalar`. A float is known by its bits,
as scalars compare them. A scalar of a type without an encoding of its own (dates,
times, timestamps, decimals, binary and so on) is known by its type and its text.

The encoding forgets the width of a number and the kind of a string, so that only some
scalars come back as they were.
-/

namespace LaminarDB.State

open Library

inductive DbError where
  | pipeline (message : String)
deriving DecidableEq

inductive DataType where
  | null
  | boolean
  | int8
  | int16
  | int32
  | int64
  | uint8
  | uint16
  | uint32
  | uint64
  | float32
  | float64
  | utf8
  | largeUtf8
  | utf8View
  | list (item : DataType)
  | other (name : String)
deriving DecidableEq

/-- The variants of `ScalarValue` other than lists. -/
inductive Primitive where
  | null
  | boolean (value : Option Bool)
  | int8 (value : Option Int8)
  | int16 (value : Option Int16)
  | int32 (value : Option Int32)
  | int64 (value : Option Int64)
  | uint8 (value : Option UInt8)
  | uint16 (value : Option UInt16)
  | uint32 (value : Option UInt32)
  | uint64 (value : Option UInt64)
  | float32 (bits : Option UInt32)
  | float64 (bits : Option UInt64)
  | utf8 (value : Option String)
  | largeUtf8 (value : Option String)
  | utf8View (value : Option String)
  | other (dataType : String) (text : String)
deriving DecidableEq

def Primitive.dataType : Primitive → DataType
  | .null => .null
  | .boolean _ => .boolean
  | .int8 _ => .int8
  | .int16 _ => .int16
  | .int32 _ => .int32
  | .int64 _ => .int64
  | .uint8 _ => .uint8
  | .uint16 _ => .uint16
  | .uint32 _ => .uint32
  | .uint64 _ => .uint64
  | .float32 _ => .float32
  | .float64 _ => .float64
  | .utf8 _ => .utf8
  | .largeUtf8 _ => .largeUtf8
  | .utf8View _ => .utf8View
  | .other dataType _ => .other dataType

/-- `ScalarValue`; a list scalar is an array of one list, which has no items if it is
not valid. -/
inductive ScalarValue where
  | primitive (value : Primitive)
  | list (item : DataType) (valid : Bool) (items : List ScalarValue)

open ScalarValue

def ScalarValue.dataType : ScalarValue → DataType
  | .primitive value => value.dataType
  | .list item _ _ => .list item

mutual

def ScalarValue.decideEq : (left right : ScalarValue) → Decidable (left = right)
  | .primitive left, .primitive right =>
    if same : left = right then isTrue (congrArg _ same)
    else isFalse fun equal => same (primitive.inj equal)
  | .primitive _, .list _ _ _ => isFalse fun equal => nomatch equal
  | .list _ _ _, .primitive _ => isFalse fun equal => nomatch equal
  | .list leftItem leftValid leftItems, .list rightItem rightValid rightItems =>
    match decideEqList leftItems rightItems with
    | isTrue sameItems =>
      if same : leftItem = rightItem ∧ leftValid = rightValid then
        isTrue (by rw [same.1, same.2, sameItems])
      else
        isFalse fun equal => same ⟨(list.inj equal).1, (list.inj equal).2.1⟩
    | isFalse differ => isFalse fun equal => differ (list.inj equal).2.2

def ScalarValue.decideEqList : (left right : List ScalarValue) → Decidable (left = right)
  | [], [] => isTrue rfl
  | [], _ :: _ => isFalse fun equal => nomatch equal
  | _ :: _, [] => isFalse fun equal => nomatch equal
  | left :: lefts, right :: rights =>
    match decideEq left right, decideEqList lefts rights with
    | isTrue sameHead, isTrue sameTail => isTrue (by rw [sameHead, sameTail])
    | isFalse differ, _ => isFalse fun equal => differ (List.cons.inj equal).1
    | _, isFalse differ => isFalse fun equal => differ (List.cons.inj equal).2

end

instance : DecidableEq ScalarValue := decideEq

inductive JsonNumber where
  | posInt (value : UInt64)
  | negInt (value : Int64)
  | float (bits : UInt64)
deriving DecidableEq

/-- A JSON value as `json_to_scalar` reads it: an object matters by its string `t`
and its `v`. -/
inductive Json where
  | null
  | bool (value : Bool)
  | number (value : JsonNumber)
  | string (value : String)
  | array (items : List Json)
  | tag (t : String)
  | tagged (t : String) (v : Json)

namespace JsonNumber

def ofInt64 (value : Int64) : JsonNumber :=
  if value < 0 then .negInt value else .posInt value.toUInt64

def asI64 : JsonNumber → Option Int64
  | .posInt value => if value ≤ Int64.maxValue.toUInt64 then some value.toInt64 else none
  | .negInt value => some value
  | .float _ => none

def asU64 : JsonNumber → Option UInt64
  | .posInt value => some value
  | .negInt _ => none
  | .float _ => none

def asF64 : JsonNumber → Option UInt64
  | .posInt value => some value.toFloat.toBits
  | .negInt value => some value.toFloat.toBits
  | .float bits => some bits

end JsonNumber

def finiteBits (bits : UInt64) : Bool := (bits >>> 52) &&& 0x7ff != 0x7ff

/-- `f64::from` of a single-precision number. -/
def widenBits (bits : UInt32) : UInt64 :=
  let sign := (bits >>> 31).toUInt64 <<< 63
  let exponent := (bits >>> 23) &&& 0xff
  let fraction := bits &&& 0x7fffff
  if exponent = 0xff then sign ||| ((0x7ff : UInt64) <<< 52) ||| (fraction.toUInt64 <<< 29)
  else if exponent = 0 then
    if fraction = 0 then sign
    else
      let leading := fraction.toNat.log2
      sign ||| ((leading + 874).toUInt64 <<< 52) |||
        ((fraction.toNat - 2 ^ leading).toUInt64 <<< (52 - leading).toUInt64)
  else sign ||| ((exponent.toUInt64 + 896) <<< 52) ||| (fraction.toUInt64 <<< 29)

def Json.ofBool (value : Option Bool) : Json := value.elim .null .bool

def Json.ofInt (value : Option Int64) : Json :=
  value.elim .null fun value => .number (.ofInt64 value)

def Json.ofUInt (value : Option UInt64) : Json :=
  value.elim .null fun value => .number (.posInt value)

def Json.ofFloat (bits : Option UInt64) : Json :=
  bits.elim .null fun bits => if finiteBits bits then .number (.float bits) else .null

def Json.ofString (value : Option String) : Json := value.elim .null .string

/-- `scalar_to_json` on the variants other than lists. -/
def Primitive.toJson : Primitive → Json
  | .null => .tag "N"
  | .boolean value => .tagged "B" (.ofBool value)
  | .int8 value => .tagged "I64" (.ofInt (value.map Int8.toInt64))
  | .int16 value => .tagged "I64" (.ofInt (value.map Int16.toInt64))
  | .int32 value => .tagged "I64" (.ofInt (value.map Int32.toInt64))
  | .int64 value => .tagged "I64" (.ofInt value)
  | .uint8 value => .tagged "U64" (.ofUInt (value.map UInt8.toUInt64))
  | .uint16 value => .tagged "U64" (.ofUInt (value.map UInt16.toUInt64))
  | .uint32 value => .tagged "U64" (.ofUInt (value.map UInt32.toUInt64))
  | .uint64 value => .tagged "U64" (.ofUInt value)
  | .float32 bits => .tagged "F64" (.ofFloat (bits.map widenBits))
  | .float64 bits => .tagged "F64" (.ofFloat bits)
  | .utf8 value => .tagged "S" (.ofString value)
  | .largeUtf8 value => .tagged "S" (.ofString value)
  | .utf8View value => .tagged "S" (.ofString value)
  | .other _ text => .tagged "STR" (.string text)

mutual

def scalarToJson : ScalarValue → Json
  | .primitive value => value.toJson
  | .list _ _ items => .tagged "L" (.array (scalarsToJson items))

def scalarsToJson : List ScalarValue → List Json
  | [] => []
  | item :: items => scalarToJson item :: scalarsToJson items

end

/-- What `json_to_scalar` ends in without a scalar. -/
inductive Failure where
  | error (error : DbError)
  | panic
deriving DecidableEq

/-- `json_to_scalar` on the tags other than that of a list with its array. -/
def primitiveOfJson (t : String) (v : Option Json) : Except Failure Primitive :=
  if t = "N" then .ok .null
  else if t = "B" then
    .ok (.boolean (match v with | some (.bool value) => some value | _ => none))
  else if t = "I64" then
    .ok (.int64 (match v with | some (.number value) => value.asI64 | _ => none))
  else if t = "U64" then
    .ok (.uint64 (match v with | some (.number value) => value.asU64 | _ => none))
  else if t = "F64" then
    .ok (.float64 (match v with | some (.number value) => value.asF64 | _ => none))
  else if t = "S" then
    .ok (.utf8 (match v with | some (.string value) => some value | _ => none))
  else if t = "L" then .error (.error (.pipeline "expected array for List scalar"))
  else .error (.error (.pipeline ("unsupported scalar type tag in checkpoint: " ++ t)))

def sameTypes (first : ScalarValue) (items : List ScalarValue) : Bool :=
  items.all fun item => item.dataType == first.dataType

/-- The list scalar of decoded items; an empty list comes back as a null list, and
`ScalarValue::new_list` panics if the types differ. -/
def newList : List ScalarValue → Except Failure ScalarValue
  | [] => .ok (.list .null false [])
  | item :: items =>
    if sameTypes item items then .ok (.list item.dataType true (item :: items))
    else .error .panic

mutual

def jsonToScalar : Json → Except Failure ScalarValue
  | .tagged t (.array items) =>
    if t = "L" then jsonToScalars items >>= newList
    else (primitiveOfJson t (some (.array items))).map .primitive
  | .tagged t v => (primitiveOfJson t (some v)).map .primitive
  | .tag t => (primitiveOfJson t none).map .primitive
  | _ => .error (.error (.pipeline "missing type tag in scalar JSON"))

def jsonToScalars : List Json → Except Failure (List ScalarValue)
  | [] => .ok []
  | item :: items =>
    match jsonToScalar item with
    | .error error => .error error
    | .ok scalar => (jsonToScalars items).map (scalar :: ·)

end

def Primitive.portable : Primitive → Bool
  | .null => true
  | .boolean _ => true
  | .int64 _ => true
  | .uint64 _ => true
  | .float64 bits => bits.all finiteBits
  | .utf8 _ => true
  | _ => false

mutual

def ScalarValue.portable : ScalarValue → Bool
  | .primitive value => value.portable
  | .list item valid [] => item == .null && !valid
  | .list item valid (first :: items) =>
    item == first.dataType && valid && sameTypes first items && first.portable &&
      allPortable items

def ScalarValue.allPortable : List ScalarValue → Bool
  | [] => true
  | item :: items => item.portable && allPortable items

end

theorem toUInt64_le_maxValue {value : Int64} (nonnegative : ¬value < 0) :
    value.toUInt64 ≤ Int64.maxValue.toUInt64 := by
  have least : 0 ≤ value.toBitVec.toInt := Int64.le_iff_toInt_le.mp (Int64.not_lt.mp nonnegative)
  have bits : value.toUInt64.toNat = value.toBitVec.toNat := rfl
  have greatest : Int64.maxValue.toUInt64.toNat = 2 ^ 63 - 1 := by decide
  rw [BitVec.toInt_eq_toNat_cond] at least
  rw [UInt64.le_iff_toNat_le, bits, greatest]
  split at least <;> omega

@[simp]
theorem asI64_ofInt64 {value : Int64} : (JsonNumber.ofInt64 value).asI64 = some value := by
  unfold JsonNumber.ofInt64
  split
  · rfl
  · rename_i nonnegative
    simp [JsonNumber.asI64, toUInt64_le_maxValue nonnegative]

def Primitive.restored : Primitive → Except Failure Primitive
  | .null => .ok .null
  | .boolean value => .ok (.boolean value)
  | .int8 value => .ok (.int64 (value.map Int8.toInt64))
  | .int16 value => .ok (.int64 (value.map Int16.toInt64))
  | .int32 value => .ok (.int64 (value.map Int32.toInt64))
  | .int64 value => .ok (.int64 value)
  | .uint8 value => .ok (.uint64 (value.map UInt8.toUInt64))
  | .uint16 value => .ok (.uint64 (value.map UInt16.toUInt64))
  | .uint32 value => .ok (.uint64 (value.map UInt32.toUInt64))
  | .uint64 value => .ok (.uint64 value)
  | .float32 bits => .ok (.float64 ((bits.map widenBits).filter finiteBits))
  | .float64 bits => .ok (.float64 (bits.filter finiteBits))
  | .utf8 value => .ok (.utf8 value)
  | .largeUtf8 value => .ok (.utf8 value)
  | .utf8View value => .ok (.utf8 value)
  | .other _ _ => .error (.error (.pipeline "unsupported scalar type tag in checkpoint: STR"))

mutual

def ScalarValue.restored : ScalarValue → Except Failure ScalarValue
  | .primitive value => value.restored.map .primitive
  | .list _ _ items => allRestored items >>= newList

def ScalarValue.allRestored : List ScalarValue → Except Failure (List ScalarValue)
  | [] => .ok []
  | item :: items =>
    match item.restored with
    | .error error => .error error
    | .ok scalar => (allRestored items).map (scalar :: ·)

end

theorem jsonToScalar_ofInt {value : Option Int64} :
    jsonToScalar (.tagged "I64" (.ofInt value)) = .ok (.primitive (.int64 value)) := by
  cases value with
  | none => rfl
  | some value =>
    show Except.map _ (Except.ok (Primitive.int64 (JsonNumber.ofInt64 value).asI64)) = _
    rw [asI64_ofInt64]
    rfl

theorem jsonToScalar_ofFloat {bits : Option UInt64} :
    jsonToScalar (.tagged "F64" (.ofFloat bits)) =
      .ok (.primitive (.float64 (bits.filter finiteBits))) := by
  cases bits with
  | none => rfl
  | some bits =>
    by_cases finite : finiteBits bits
    · simp only [Json.ofFloat, Option.elim_some, finite, if_true, Option.filter_some]
      rfl
    · simp only [Json.ofFloat, Option.elim_some, finite, Bool.false_eq_true, if_false,
        Option.filter_some]
      rfl

variable {value : Primitive}

theorem jsonToScalar_toJson : jsonToScalar value.toJson = value.restored.map .primitive := by
  cases value with
  | null => rfl
  | int8 | int16 | int32 | int64 => exact jsonToScalar_ofInt
  | float32 | float64 => exact jsonToScalar_ofFloat
  | boolean value | uint8 value | uint16 value | uint32 value | uint64 value | utf8 value
  | largeUtf8 value | utf8View value =>
    cases value <;> rfl
  | other dataType text => rfl

mutual

theorem jsonToScalar_scalarToJson : ∀ scalar : ScalarValue,
    jsonToScalar (scalarToJson scalar) = scalar.restored
  | .primitive value => jsonToScalar_toJson
  | .list _ _ items => by
      have decoded := jsonToScalars_scalarsToJson items
      simp only [scalarToJson, jsonToScalar, if_true, decoded, restored]

theorem jsonToScalars_scalarsToJson : ∀ items : List ScalarValue,
    jsonToScalars (scalarsToJson items) = allRestored items
  | [] => rfl
  | item :: items => by
      have first := jsonToScalar_scalarToJson item
      have rest := jsonToScalars_scalarsToJson items
      simp only [scalarsToJson, jsonToScalars, first, rest, allRestored]

end

theorem Primitive.restored_of_portable (portable : value.portable = true) :
    value.restored = .ok value := by
  cases value with
  | float64 bits =>
    cases bits with
    | none => rfl
    | some bits =>
      have finite : finiteBits bits = true := portable
      simp [restored, finite]
  | null | boolean | int64 | uint64 | utf8 => rfl
  | _ => cases portable

mutual

theorem ScalarValue.restored_of_portable : ∀ {scalar : ScalarValue},
    scalar.portable = true → scalar.restored = .ok scalar
  | .primitive value, portable => by
      rw [ScalarValue.restored, Primitive.restored_of_portable portable]
      rfl
  | .list item valid [], portable => by
      simp only [ScalarValue.portable, Bool.and_eq_true, beq_iff_eq, Bool.not_eq_true'] at portable
      rw [portable.1, portable.2]
      rfl
  | .list item valid (first :: items), portable => by
      simp only [ScalarValue.portable, Bool.and_eq_true, beq_iff_eq] at portable
      obtain ⟨⟨⟨⟨isItem, isValid⟩, same⟩, firstPortable⟩, restPortable⟩ := portable
      have firstRestored := ScalarValue.restored_of_portable firstPortable
      have restRestored := ScalarValue.allRestored_of_portable restPortable
      rw [isItem, isValid]
      simp only [ScalarValue.restored, allRestored, firstRestored, restRestored]
      exact if_pos same

theorem ScalarValue.allRestored_of_portable : ∀ {items : List ScalarValue},
    allPortable items = true → allRestored items = .ok items
  | [], _ => rfl
  | item :: items, portable => by
      simp only [allPortable, Bool.and_eq_true] at portable
      have itemRestored := restored_of_portable portable.1
      have restRestored := allRestored_of_portable portable.2
      simp only [allRestored, itemRestored, restRestored]
      rfl

end

mutual

theorem ScalarValue.portable_of_restored : ∀ {scalar back : ScalarValue},
    scalar.restored = .ok back → back.portable = true
  | .primitive value, back, restored => by
      obtain ⟨primitive, isRestored, rfl⟩ := Result.map_eq_ok restored
      cases value <;> cases isRestored <;> simp [ScalarValue.portable, Primitive.portable]
  | .list _ _ items, back, restored => by
      obtain ⟨decoded, isRestored, isList⟩ := Result.bind_eq_ok restored
      have portable := allPortable_of_restored isRestored
      cases decoded with
      | nil =>
        cases isList
        rfl
      | cons first rest =>
        rw [newList] at isList
        split at isList
        · rename_i same
          cases isList
          simpa [ScalarValue.portable, allPortable, same] using portable
        · cases isList

theorem ScalarValue.allPortable_of_restored : ∀ {items back : List ScalarValue},
    allRestored items = .ok back → allPortable back = true
  | [], _, restored => by cases restored; rfl
  | item :: items, back, restored => by
      simp only [allRestored] at restored
      split at restored
      · cases restored
      · rename_i isRestored
        obtain ⟨rest, restRestored, rfl⟩ := Result.map_eq_ok restored
        simp [allPortable, portable_of_restored isRestored, allPortable_of_restored restRestored]

end

/-- What is decoded from an encoded scalar is kept from then on, and it is the scalar itself if and
only if that is portable. -/
theorem decoded_scalar_stable {scalar back : ScalarValue}
    (decoded : jsonToScalar (scalarToJson scalar) = .ok back) :
    jsonToScalar (scalarToJson back) = .ok back ∧ (back = scalar ↔ scalar.portable = true) := by
  rw [jsonToScalar_scalarToJson] at decoded ⊢
  have portable := ScalarValue.portable_of_restored decoded
  refine ⟨ScalarValue.restored_of_portable portable, fun same => same ▸ portable, fun kept => ?_⟩
  exact Except.ok.inj (decoded.symm.trans (ScalarValue.restored_of_portable kept))

theorem decoded_scalar_stable_narrow :
    jsonToScalar (scalarToJson (.primitive (.int64 (some 7)))) =
      .ok (.primitive (.int64 (some 7))) :=
  (@decoded_scalar_stable (.primitive (.int8 (some 7))) _ (by decide)).1

end LaminarDB.State
