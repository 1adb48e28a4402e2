import Tripwire.Json

/-!
# Records in JSON

Records are read as is documented for derived readers. A record with named fields is an object,
whose keys stand in any order, where unknown keys are passed over and a known key that stands twice
is a fault, or an array of its fields in their order. Whatever has a default may be missing: any key
of an object, the last items of an array. An optional value is absent as `null` too, and a list is
an array. Records are written as objects with all their fields in their order.
-/

namespace Tripwire.Json

/-- The one value under a key, if there is one; a key that stands twice is a fault. -/
def lookup? (entries : List (String × Json)) (name : String) : Option (Option Json) :=
  match entries.filter fun entry => entry.1 == name with
  | [] => some none
  | [(_, value)] => some (some value)
  | _ => none

/-- The string of each key; a key without one is a fault. -/
def keyed? (entries : List (List Piece × Json)) : Option (List (String × Json)) :=
  entries.mapM fun (key, value) =>
    (Piece.join? key).map fun letters => (String.ofList letters, value)

/-- What is written for each of the named fields. -/
def fields? (names : List String) : Json → Option (List (Option Json))
  | object entries => do
      let known ← keyed? entries
      names.mapM (lookup? known)
  | array items =>
      if items.length ≤ names.length then
        some (items.map some ++ List.replicate (names.length - items.length) none)
      else none
  | _ => none

/-- The items of an array, each decoded. -/
def list? {α : Type} (decode : Json → Option α) : Json → Option (List α)
  | array items => items.mapM decode
  | _ => none

/-- A value that may be absent, which is written as `null`. -/
def nullable? {α : Type} (decode : Json → Option α) : Json → Option (Option α)
  | null => some none
  | json => (decode json).map some

/-- Decodes what is written for a field, which has a default if nothing is. -/
def orDefault {α : Type} (default : α) (decode : Json → Option α) : Option Json → Option α
  | none => some default
  | some json => decode json

/-- An optional value, absent as `null`. -/
def ofOption {α : Type} (encode : α → Json) : Option α → Json
  | none => null
  | some value => encode value

end Tripwire.Json
