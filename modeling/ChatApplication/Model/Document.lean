import Mathlib.Data.List.Basic

/-!
This module contains the values that the program puts into `[String: Any]` dictionaries and the
casts (`as? String`, `as? Timestamp`, `as? Bool`) that the initializers of its model classes apply
to them.
-/

namespace ChatApplication

-- nanoseconds since the epoch
abbrev Date := Int

-- `Timestamp(date:)` keeps the point in time
abbrev Timestamp := Int

inductive FieldValue where
  | string (value : String)
  | timestamp (value : Timestamp)
  -- only in the literals that the controllers pass to `User.init` and `Message.init`
  | date (value : Date)
  | bool (value : Bool)
  -- what a Swift `nil` is stored as
  | null
  deriving DecidableEq, Repr

namespace FieldValue

def asString : FieldValue → Option String
  | .string value => some value
  | _ => none

def asTimestamp : FieldValue → Option Timestamp
  | .timestamp value => some value
  | _ => none

def asBool : FieldValue → Option Bool
  | .bool value => some value
  | _ => none

def ofOptional : Option String → FieldValue
  | some value => .string value
  | none => .null

@[simp]
theorem asString_ofOptional (value : Option String) : asString (ofOptional value) = value := by
  cases value with
  | none => rfl
  | some value => rfl

end FieldValue

abbrev Dictionary := List (String × FieldValue)

namespace Dictionary

-- `none` is where `dictionary[key] as! String` traps
def string? (dictionary : Dictionary) (key : String) : Option String :=
  (dictionary.lookup key).bind FieldValue.asString

def timestamp? (dictionary : Dictionary) (key : String) : Option Timestamp :=
  (dictionary.lookup key).bind FieldValue.asTimestamp

def bool? (dictionary : Dictionary) (key : String) : Option Bool :=
  (dictionary.lookup key).bind FieldValue.asBool

theorem isSome_lookup_of_timestamp? {dictionary : Dictionary} {key : String}
    (h : (dictionary.timestamp? key).isSome) : (dictionary.lookup key).isSome := by
  unfold timestamp? at h
  cases hlookup : dictionary.lookup key with
  | none =>
    rw [hlookup] at h
    contradiction
  | some value => rfl

end Dictionary

end ChatApplication
