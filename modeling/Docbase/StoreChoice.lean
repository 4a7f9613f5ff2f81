import Docbase.Server.Store
import Docbase.Settings

/-!
# Choosing a store

What store some settings describe: one in memory, or one at the address of a database server.
-/

namespace Docbase

inductive StoreChoice
  | memory
  | server (address : Server.Address)

namespace StoreChoice

/-- The options of a client, which must not name a part of the address again. -/
def clientOptions : Value → Except Misuse Document
  | .doc fields =>
    let parts := ["host", "port", "username", "password", "database"]
    if fields.any fun field => parts.contains field.1 then .error .wrongType else .ok fields
  | _ => .error .wrongType

def ofSettings (settings : Settings) : Except Failure StoreChoice := do
  match ← settings.storeKind with
  | .memory => return memory
  | .server =>
    let options ← clientOptions settings.options
    return server (← Server.Address.ofParts settings.host settings.portNumber settings.username
      settings.password settings.database options)

def ofSettings? : Option Settings → Except Failure StoreChoice
  | some settings => ofSettings settings
  | none => .error (.argument .settingsRequired)

end StoreChoice
end Docbase
