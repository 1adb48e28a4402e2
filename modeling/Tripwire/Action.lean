import Tripwire.Error
import Tripwire.Table
import Tripwire.Value

/-!
# Actions

What a condition asks for when it turns true: a message to a sensor with named values.
-/

namespace Tripwire

/-- A message to deliver. -/
structure Action where
  target : SensorId
  message : String
  payload : Table String Value
deriving DecidableEq

namespace Action

/-- A message that carries values, of which a later one replaces an earlier of its name. -/
def ofList (target : SensorId) (message : String) (payload : List (String × Value)) : Action :=
  ⟨target, message, .ofList payload⟩

end Action

end Tripwire
