import Tripwire.Config
import Tripwire.Json.Parser
import Tripwire.Json.Printer
import Tripwire.Value.Document

/-!
# Configurations as documents

A configuration is a JSON document of records. Fields of a record that may be left out have
defaults: no name, no id, no items. Every field is written, in the order of its record.
-/

namespace Tripwire

/-- An identifier of thirty-two bits. -/
def idOfJson? (json : Json) : Option UInt32 :=
  (json.natural? 32).map .ofNat

def idToJson (id : UInt32) : Json :=
  .ofNat id.toNat

namespace Action

/-- Named values, of which a later one replaces an earlier of its name. -/
def payloadOfJson? : Json → Option (Table String Value)
  | .object entries => do
      let keyed ← Json.keyed? entries
      let values ← keyed.mapM fun (name, json) => (Value.ofJson? json).map (name, ·)
      return .ofList values
  | _ => none

def payloadToJson (payload : Table String Value) : Json :=
  .record (payload.entries.map fun (name, value) => (name, value.toJson))

def ofJson? (json : Json) : Option Action :=
  match json.fields? ["target", "message", "payload"] with
  | some [some target, some message, payload] => do
      let target ← idOfJson? target
      let message ← message.string?
      let payload ← Json.orDefault .empty payloadOfJson? payload
      return { target, message, payload }
  | _ => none

def toJson (action : Action) : Json :=
  .record
    [("target", idToJson action.target),
      ("message", .ofString action.message),
      ("payload", payloadToJson action.payload)]

end Action

namespace SensorEntry

def fieldOfJson? (json : Json) : Option (String × FieldType) :=
  match json.fields? ["name", "type"] with
  | some [some name, some type] => do
      let name ← name.string?
      let type ← FieldType.ofJson? type
      return (name, type)
  | _ => none

def fieldToJson (field : String × FieldType) : Json :=
  .record [("name", .ofString field.1), ("type", .ofString field.2.tag)]

def ofJson? (json : Json) : Option SensorEntry :=
  match json.fields? ["id", "name", "fields"] with
  | some [some id, name, fields] => do
      let id ← idOfJson? id
      let name ← Json.orDefault none (Json.nullable? Json.string?) name
      let fields ← Json.orDefault [] (Json.list? fieldOfJson?) fields
      return { id, name, fields }
  | _ => none

def toJson (entry : SensorEntry) : Json :=
  .record
    [("id", idToJson entry.id),
      ("name", .ofOption Json.ofString entry.name),
      ("fields", .array (entry.fields.map fieldToJson))]

end SensorEntry

namespace ConditionEntry

def ofJson? (json : Json) : Option ConditionEntry :=
  match json.fields? ["id", "name", "expression", "actions"] with
  | some [id, name, some expression, actions] => do
      let id ← Json.orDefault none (Json.nullable? idOfJson?) id
      let name ← Json.orDefault none (Json.nullable? Json.string?) name
      let expression ← expression.string?
      let actions ← Json.orDefault [] (Json.list? Action.ofJson?) actions
      return { id, name, expression, actions }
  | _ => none

def toJson (entry : ConditionEntry) : Json :=
  .record
    [("id", .ofOption idToJson entry.id),
      ("name", .ofOption Json.ofString entry.name),
      ("expression", .ofString entry.expression),
      ("actions", .array (entry.actions.map Action.toJson))]

end ConditionEntry

namespace Config

def ofJson? (json : Json) : Option Config :=
  match json.fields? ["sensors", "conditions"] with
  | some [sensors, conditions] => do
      let sensors ← Json.orDefault [] (Json.list? SensorEntry.ofJson?) sensors
      let conditions ← Json.orDefault [] (Json.list? ConditionEntry.ofJson?) conditions
      return { sensors, conditions }
  | _ => none

def toJson (config : Config) : Json :=
  .record
    [("sensors", .array (config.sensors.map SensorEntry.toJson)),
      ("conditions", .array (config.conditions.map ConditionEntry.toJson))]

/-- The configuration that a document writes. -/
def parse? (document : String) : Option Config := do
  let json ← Json.parse? document
  ofJson? json

/-- The document of a configuration. -/
def print (config : Config) : String :=
  config.toJson.print

end Config

end Tripwire
