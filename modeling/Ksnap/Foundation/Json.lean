import Ksnap.Foundation.Text

/-!
# JSON values

The values that Python's `json` module reads and writes. A float keeps the literal it
was written as, and an object its members in the order in which they came.
-/

namespace Foundation

inductive Json : Type where
  | null
  | boolean (value : Bool)
  | integer (value : ℤ)
  | float (literal : Text)
  | string (value : Text)
  | list (items : List Json)
  | dict (members : List (Text × Json))

/-- The items that are strings, in a list. -/
def Json.strings : List Json → List Text
  | [] => []
  | .string value :: items => value :: strings items
  | _ :: items => strings items

/-- The list of these strings. -/
def Json.ofStrings (values : List Text) : Json :=
  .list (values.map .string)

@[simp]
theorem Json.strings_map_string (values : List Text) :
    Json.strings (values.map .string) = values := by
  induction values with
  | nil => rfl
  | cons value values ih => simp [strings, ih]

end Foundation
