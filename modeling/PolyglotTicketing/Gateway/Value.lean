import Mathlib.Data.Rat.Defs
import Mathlib.Data.List.Basic

/-!
# JavaScript values

The API gateway catches and throws values of any kind. This module has the values of JavaScript, as
far as a program can tell them apart by `typeof`, `in`, `Array.isArray` and reading properties, and
the values of JSON among them.

The properties of an object are those that a program has given it. What every object inherits from
`Object.prototype` and every array from `Array.prototype` is left out, as nothing here asks for it.
-/

namespace Gateway

/-- A number. -/
inductive Number where
  | finite (value : ℚ)
  | infinity
  | negInfinity
  | nan
deriving DecidableEq

/-- `n < bound`. Nothing is less than a bound that is not a number, and `nan` is less than none. -/
def Number.Below (n : Number) (bound : ℚ) : Prop :=
  match n with
  | .finite value => value < bound
  | .negInfinity => True
  | .infinity => False
  | .nan => False

instance (n : Number) (bound : ℚ) : Decidable (n.Below bound) :=
  match n with
  | .finite value => inferInstanceAs (Decidable (value < bound))
  | .negInfinity => isTrue trivial
  | .infinity => isFalse id
  | .nan => isFalse id

/-- A value. -/
inductive Value where
  | undefined
  | null
  | boolean (b : Bool)
  | number (n : Number)
  | bigint (n : ℤ)
  | symbol (description : String)
  | string (s : String)
  /-- The slots of an array may be empty. -/
  | array (slots : List (Option Value))
  | object (properties : List (String × Value))
  | function (properties : List (String × Value))

namespace Value

/-- The named properties of a value. -/
def properties : Value → List (String × Value)
  | .object properties => properties
  | .function properties => properties
  | _ => []

/-- `typeof v === 'object' && v !== null`. -/
def isObject : Value → Bool
  | .array _ => true
  | .object _ => true
  | _ => false

/-- `typeof v === 'string'`. -/
def isString : Value → Bool
  | .string _ => true
  | _ => false

/-- Whether `v` can stand at the right of `in`. A primitive value there is a `TypeError`. -/
def acceptsIn : Value → Bool
  | .array _ => true
  | .object _ => true
  | .function _ => true
  | _ => false

/-- `name in v`. -/
def has (v : Value) (name : String) : Bool := (v.properties.lookup name).isSome

/-- `v[name]`. -/
def get (v : Value) (name : String) : Value := (v.properties.lookup name).getD .undefined

/-- A property that is not there is read as `undefined`. -/
theorem get_of_not_has {v : Value} {name : String} (h : v.has name = false) :
    v.get name = .undefined := by
  rw [has, Option.isSome_eq_false_iff, Option.isNone_iff_eq_none] at h
  rw [get, h, Option.getD_none]

/-- A property that is read as something else is there. -/
theorem has_of_isString {v : Value} {name : String} (h : (v.get name).isString = true) :
    v.has name = true := by
  by_contra hnot
  rw [get_of_not_has (Bool.eq_false_iff.mpr hnot)] at h
  simp [isString] at h

theorem isString_iff {v : Value} : v.isString = true ↔ ∃ s, v = .string s := by
  cases v with
  | string s => simp [isString]
  | _ => simp [isString]

end Value

/-- What `JSON.parse` can return. A number of the text that is too large is an infinity. -/
inductive Json where
  | null
  | boolean (b : Bool)
  | number (n : Number)
  | string (s : String)
  | array (elements : List Json)
  | object (members : List (String × Json))

mutual

/-- The same as a value of the program. -/
def Json.toValue : Json → Value
  | .null => .null
  | .boolean b => .boolean b
  | .number n => .number n
  | .string s => .string s
  | .array elements => .array (Json.toSlots elements)
  | .object members => .object (Json.toProperties members)

/-- The slots of an array of JSON, none of which is empty. -/
def Json.toSlots : List Json → List (Option Value)
  | [] => []
  | element :: elements => some element.toValue :: Json.toSlots elements

/-- The properties of an object of JSON. -/
def Json.toProperties : List (String × Json) → List (String × Value)
  | [] => []
  | (name, element) :: members => (name, element.toValue) :: Json.toProperties members

end

/-- The properties of an object of JSON are its members. -/
theorem Json.lookup_toProperties (members : List (String × Json)) (name : String) :
    (Json.toProperties members).lookup name = (members.lookup name).map Json.toValue := by
  induction members with
  | nil => rfl
  | cons member members ih =>
    rw [Json.toProperties, List.lookup_cons, List.lookup_cons, ih]
    cases name == member.1 with
    | true => rfl
    | false => rfl

end Gateway
