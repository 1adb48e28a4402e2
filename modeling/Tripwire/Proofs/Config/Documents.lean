import Tripwire.Config.Document
import Tripwire.Proofs.Json.Records

/-!
# Configurations are read back from their documents

Every part of a configuration is kept in its document: identifiers and integers up to the bounds of
their width, texts whatever they hold, absent options, empty lists and the values of a message in the
order of their names. What is kept of a float depends on the digits that are written for it.
-/

namespace Tripwire

open Json (Keeps)

/-! ## Values -/

namespace FieldType

theorem ofJson?_tag (type : FieldType) : ofJson? (.ofString type.tag) = some type := by
  rw [Json.ofString, ofJson?, ofPieces?, Json.pieces, Json.Piece.join?_map_letter,
    Option.bind_some, String.ofList_toList, ofTag?_tag]

end FieldType

namespace Value

/-- What is written for a float is read as the same float, bit by bit. What is infinite or no number
is written as an absent value, which is not read at all. -/
def Survives : Value → Prop
  | float number => (floatJson number).binary? .single = some number
  | double number => (floatJson number).binary? .double = some number
  | _ => True

instance : DecidablePred Survives
  | float number => inferInstanceAs (Decidable ((floatJson number).binary? .single = some number))
  | double number => inferInstanceAs (Decidable ((floatJson number).binary? .double = some number))
  | unsigned _ => .isTrue trivial
  | signed _ => .isTrue trivial
  | text _ => .isTrue trivial
  | boolean _ => .isTrue trivial
  | bits _ => .isTrue trivial

theorem wellFormed_floatJson {format : Number.Format} (number : Number.Binary format)
    (read : (floatJson number).binary? format = some number) : (floatJson number).WellFormed := by
  unfold floatJson at read ⊢
  split at read
  case isTrue finite =>
    obtain ⟨numeral, found, _⟩ := Option.bind_eq_some_iff.1 read
    rw [if_pos finite]
    exact .number (Option.isSome_iff_exists.2 ⟨numeral, found⟩)
  case isFalse => cases read

theorem keeps_word (word : UInt64) : Keeps Json.ofNat (Json.natural? 64) word.toNat :=
  Json.keeps_natural (Nat.le_refl 64) word.toNat_lt

/-- The data of a value are read as a value of its type. -/
theorem keeps_data {value : Value} (survives : value.Survives) :
    Keeps dataJson (ofData? value.type) value := by
  cases value with
  | unsigned number =>
      have keeps := keeps_word number
      refine ⟨keeps.wellFormed, ?_⟩
      rw [dataJson, type, ofData?, keeps.read, Option.map_some, UInt64.ofNat_toNat]
  | signed number =>
      have read : (Json.number (Number.ofInt number.toInt)).signed? 64 = some number.toInt :=
        Json.signed?_ofInt number.le_toInt number.toInt_lt
      have integer := (Option.filter_eq_some_iff.1 read).1
      refine ⟨Json.wellFormed_of_integer? integer, ?_⟩
      rw [dataJson, type, ofData?, read, Option.map_some, Int64.ofInt_toInt]
  | float number =>
      have read : (floatJson number).binary? .single = some number := survives
      refine ⟨wellFormed_floatJson number read, ?_⟩
      rw [dataJson, type, ofData?, read, Option.map_some]
  | double number =>
      have read : (floatJson number).binary? .double = some number := survives
      refine ⟨wellFormed_floatJson number read, ?_⟩
      rw [dataJson, type, ofData?, read, Option.map_some]
  | text contents =>
      have keeps := Json.keeps_string contents
      refine ⟨keeps.wellFormed, ?_⟩
      rw [dataJson, type, ofData?, keeps.read, Option.map_some]
  | boolean truth => exact ⟨.boolean truth, rfl⟩
  | bits word =>
      have keeps := keeps_word word
      refine ⟨keeps.wellFormed, ?_⟩
      rw [dataJson, type, ofData?, keeps.read, Option.map_some, UInt64.ofNat_toNat]

theorem keeps {value : Value} (survives : value.Survives) : Keeps toJson ofJson? value where
  wellFormed := Json.wellFormed_record (List.forall_iff_forall_mem.1
    ⟨(Json.keeps_string value.type.tag).wellFormed, (keeps_data survives).wellFormed⟩)
  read := by
    have fields : value.toJson.fields? ["type", "value"] =
        some [some (.ofString value.type.tag), some value.dataJson] :=
      Json.fields?_record rfl (by decide)
    have type : typeOfJson? value.toJson (.ofString value.type.tag) = some value.type :=
      FieldType.ofJson?_tag value.type
    rw [ofJson?, fields]
    simp only [type, Option.bind_some, (keeps_data survives).read]

end Value

/-! ## Records -/

theorem keeps_id (id : UInt32) : Keeps idToJson idOfJson? id := by
  have keeps : Keeps Json.ofNat (Json.natural? 32) id.toNat :=
    Json.keeps_natural (by decide) id.toNat_lt
  refine ⟨keeps.wellFormed, ?_⟩
  rw [idToJson, idOfJson?, keeps.read, Option.map_some, UInt32.ofNat_toNat]

theorem keeps_name (name : Option String) :
    Keeps (Json.ofOption Json.ofString) (Json.nullable? Json.string?) name :=
  Json.keeps_option (fun _ => Json.noConfusion) fun value _ => Json.keeps_string value

namespace Action

/-- The values that a message carries survive. -/
def Survives (action : Action) : Prop :=
  ∀ entry ∈ action.payload.entries, entry.2.Survives

instance : DecidablePred Survives :=
  fun action => inferInstanceAs (Decidable (∀ entry ∈ action.payload.entries, entry.2.Survives))

theorem keeps_payload {payload : Table String Value}
    (survive : ∀ entry ∈ payload.entries, entry.2.Survives) :
    Keeps payloadToJson payloadOfJson? payload where
  wellFormed := by
    refine Json.wellFormed_record fun written member => ?_
    obtain ⟨entry, inEntries, rfl⟩ := List.mem_map.1 member
    exact (Value.keeps (survive entry inEntries)).wellFormed
  read := by
    have keyed := Json.keyed?_pieces
      (payload.entries.map fun entry => (entry.1, entry.2.toJson))
    have values : (payload.entries.map fun entry => (entry.1, entry.2.toJson)).mapM
        (fun written => (Value.ofJson? written.2).map (written.1, ·)) =
          some (payload.entries.map id) := by
      refine mapM_eq_some_map fun entry member => ?_
      rw [(Value.keeps (survive entry member)).read, Option.map_some]
      rfl
    change (Json.keyed? _).bind _ = some payload
    rw [keyed, Option.bind_some]
    change Option.bind (List.mapM _ _) _ = some payload
    rw [values, List.map_id]
    exact congrArg some payload.ofList_entries

theorem keeps {action : Action} (survives : action.Survives) : Keeps toJson ofJson? action where
  wellFormed := Json.wellFormed_record (List.forall_iff_forall_mem.1
    ⟨(keeps_id action.target).wellFormed, (Json.keeps_string action.message).wellFormed,
      (keeps_payload survives).wellFormed⟩)
  read := by
    have fields : action.toJson.fields? ["target", "message", "payload"] =
        some [some (idToJson action.target), some (.ofString action.message),
          some (payloadToJson action.payload)] :=
      Json.fields?_record rfl (by decide)
    rw [ofJson?, fields]
    simp only [(keeps_id action.target).read, (Json.keeps_string action.message).read,
      Json.orDefault, (keeps_payload survives).read, Option.bind_eq_bind, Option.bind_some]
    rfl

end Action

namespace SensorEntry

theorem keeps_field (field : String × FieldType) : Keeps fieldToJson fieldOfJson? field where
  wellFormed := Json.wellFormed_record (List.forall_iff_forall_mem.1
    ⟨(Json.keeps_string field.1).wellFormed, (Json.keeps_string field.2.tag).wellFormed⟩)
  read := by
    have fields : (fieldToJson field).fields? ["name", "type"] =
        some [some (.ofString field.1), some (.ofString field.2.tag)] :=
      Json.fields?_record rfl (by decide)
    rw [fieldOfJson?, fields]
    simp only [(Json.keeps_string field.1).read, FieldType.ofJson?_tag, Option.bind_eq_bind,
      Option.bind_some]
    rfl

theorem keeps (entry : SensorEntry) : Keeps toJson ofJson? entry := by
  have declared := Json.keeps_list fun field (_ : field ∈ entry.fields) => keeps_field field
  refine ⟨Json.wellFormed_record (List.forall_iff_forall_mem.1
    ⟨(keeps_id entry.id).wellFormed, (keeps_name entry.name).wellFormed, declared.wellFormed⟩), ?_⟩
  have fields : entry.toJson.fields? ["id", "name", "fields"] =
      some [some (idToJson entry.id), some (.ofOption Json.ofString entry.name),
        some (.array (entry.fields.map fieldToJson))] :=
    Json.fields?_record rfl (by decide)
  rw [ofJson?, fields]
  simp only [(keeps_id entry.id).read, (keeps_name entry.name).read, declared.read,
    Json.orDefault, Option.bind_eq_bind, Option.bind_some]
  rfl

end SensorEntry

namespace ConditionEntry

/-- The values that a condition's messages carry survive. -/
def Survives (entry : ConditionEntry) : Prop :=
  ∀ action ∈ entry.actions, action.Survives

instance : DecidablePred Survives :=
  fun entry => inferInstanceAs (Decidable (∀ action ∈ entry.actions, action.Survives))

theorem keeps_given (id : Option ConditionId) :
    Keeps (Json.ofOption idToJson) (Json.nullable? idOfJson?) id :=
  Json.keeps_option (fun _ => Json.noConfusion) fun value _ => keeps_id value

theorem keeps {entry : ConditionEntry} (survives : entry.Survives) :
    Keeps toJson ofJson? entry := by
  have actions := Json.keeps_list fun action member => Action.keeps (survives action member)
  refine ⟨Json.wellFormed_record (List.forall_iff_forall_mem.1
    ⟨(keeps_given entry.id).wellFormed, (keeps_name entry.name).wellFormed,
      (Json.keeps_string entry.expression).wellFormed, actions.wellFormed⟩), ?_⟩
  have fields : entry.toJson.fields? ["id", "name", "expression", "actions"] =
      some [some (.ofOption idToJson entry.id), some (.ofOption Json.ofString entry.name),
        some (.ofString entry.expression), some (.array (entry.actions.map Action.toJson))] :=
    Json.fields?_record rfl (by decide)
  rw [ofJson?, fields]
  simp only [(keeps_given entry.id).read, (keeps_name entry.name).read,
    (Json.keeps_string entry.expression).read, actions.read, Json.orDefault,
    Option.bind_eq_bind, Option.bind_some]
  rfl

end ConditionEntry

namespace Config

/-- All floats in the messages of conditions survive. -/
def Survives (config : Config) : Prop :=
  ∀ entry ∈ config.conditions, entry.Survives

instance : DecidablePred Survives :=
  fun config => inferInstanceAs (Decidable (∀ entry ∈ config.conditions, entry.Survives))

theorem keeps {config : Config} (survives : config.Survives) : Keeps toJson ofJson? config := by
  have sensors := Json.keeps_list fun entry (_ : entry ∈ config.sensors) => SensorEntry.keeps entry
  have conditions := Json.keeps_list fun entry member =>
    ConditionEntry.keeps (survives entry member)
  refine ⟨Json.wellFormed_record (List.forall_iff_forall_mem.1
    ⟨sensors.wellFormed, conditions.wellFormed⟩), ?_⟩
  have fields : config.toJson.fields? ["sensors", "conditions"] =
      some [some (.array (config.sensors.map SensorEntry.toJson)),
        some (.array (config.conditions.map ConditionEntry.toJson))] :=
    Json.fields?_record rfl (by decide)
  rw [ofJson?, fields]
  simp only [sensors.read, conditions.read, Json.orDefault, Option.bind_eq_bind,
    Option.bind_some]
  rfl

/-- The document of a configuration is read as that configuration, if its floats survive. -/
theorem parse?_print_of_survives {config : Config} (survives : config.Survives) :
    parse? config.print = some config := by
  have keeps := Config.keeps survives
  rw [parse?, print, Json.parse?_print keeps.wellFormed, Option.bind_eq_bind, Option.bind_some,
    keeps.read]

/-- Greatest and least numbers, both zeros, and texts that need every kind of escape. -/
def extremes : Config where
  sensors := [⟨0xFFFFFFFF, some "say \"stop\" \\", [("", .text), ("é😀", .bits)]⟩, ⟨0, none, []⟩]
  conditions :=
    [⟨some 0xFFFFFFFF, some "\u0000\u001f\t\r\n\u0008\u000c\u007f", "[0]=(\u2028,1)",
        [.ofList 0 "/"
          [("u", .unsigned 0xFFFFFFFFFFFFFFFF), ("i", .signed (-0x8000000000000000)),
            ("b", .bits 0), ("\\\"", .text "null"), ("t", .boolean false),
            ("f", .float (.ofBits 0x3DCCCCCD)), ("d", .double (.ofBits 0x3FB999999999999A)),
            ("z", .double (.ofBits 0x8000000000000000))]]⟩,
      ⟨none, none, "", []⟩]

theorem parse?_print_extremes : extremes.Survives ∧ parse? extremes.print = some extremes := by
  have survives : extremes.Survives := by decide +kernel
  exact ⟨survives, parse?_print_of_survives survives⟩

end Config

end Tripwire
