/-
How structures and choices are written in JSON.

A structure is an object with its fields by name, other keys being ignored, or a list with its fields in order, where
fields at the end may be left out. Whether a missing field has a default is the structure's own affair; a field that
holds null is not missing. A choice among names is the name, or an object whose one key is the name and holds null.
-/
import ContactSync.Json.Basic

namespace ContactSync

namespace Shape

/-- the fields of a structure in the order of the names, each absent or present -/
def fields? (names : List String) : Json → Option (List (Option Json))
  | .object members => some (names.map fun name => Tree.get? name members)
  | .list items =>
    if items.length ≤ names.length then
      some (items.map some ++ List.replicate (names.length - items.length) none)
    else none
  | _ => none

/-- the name that a choice writes -/
def choice? : Json → Option String
  | .string name => some name
  | .object [(name, .null)] => some name
  | _ => none

/-- the value of a choice among named values -/
def pick? {α : Type} (table : List (String × α)) (j : Json) : Option α :=
  (choice? j).bind fun name => (table.find? fun row => row.1 == name).map Prod.snd

end Shape

end ContactSync
