/-
  This file looks up values in lists with a name before every
  value, in which a name should stand at most once.

  Key definitions include:
    * `Fields.valuesOf`
    * `Fields.unique?`
-/

namespace CoreTally.Fields

variable {κ α : Type} [DecidableEq κ]

/- All values with a name. -/
def valuesOf (name : κ) (fields : List (κ × α)) : List α :=
  fields.filterMap fun (key, value) =>
    if key = name then some value else none

/-
  The value with a name, if there is one. A list that repeats
  the name is refused.
-/
def unique? (fields : List (κ × α)) (name : κ) : Option (Option α) :=
  match valuesOf name fields with
  | [] => some none
  | [value] => some (some value)
  | _ => none

end CoreTally.Fields
