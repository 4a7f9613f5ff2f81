import Docbase.Failure
import Docbase.Text.Case
import Docbase.Text.Numeral

/-!
# Settings

Which store to open, and where. Settings come from the environment, from a caller who names some
of them, or from both; what a caller names wins.
-/

namespace Docbase

structure Settings where
  kind : Value := .str "inmemory"
  host : Value := .str "localhost"
  portNumber : Value := .int 27017
  database : Value := .str "typed_docstore"
  username : Value := .null
  password : Value := .null
  options : Value := .doc []

inductive StoreKind
  | memory
  | server
  deriving DecidableEq, Repr

namespace Settings

def set? (settings : Settings) (name : String) (v : Value) : Option Settings :=
  match name with
  | "store_type" => some { settings with kind := v }
  | "host" => some { settings with host := v }
  | "port" => some { settings with portNumber := v }
  | "database" => some { settings with database := v }
  | "username" => some { settings with username := v }
  | "password" => some { settings with password := v }
  | "client_options" => some { settings with options := v }
  | _ => none

def override (settings : Settings) : Document → Except Failure Settings
  | [] => .ok settings
  | (name, v) :: rest =>
    match settings.set? name v with
    | some settings => settings.override rest
    | none => .error (.misuse .wrongType)

def ofFields (fields : Document) : Except Failure Settings := ({} : Settings).override fields

def ofVariables (lookup? : String → Option String) : Except ArgumentFault Settings := do
  let text (name fallback : String) : Value := .str ((lookup? name).getD fallback)
  let optional (name : String) : Value := ((lookup? name).map .str).getD .null
  let digits := (lookup? "DOCUMENT_DATABASE_PORT").getD "27017"
  match Text.readInt? digits with
  | none => throw (.portText digits)
  | some number =>
    return {
      kind := text "DOCUMENT_STORE_TYPE" "inmemory"
      host := text "DOCUMENT_DATABASE_HOST" "localhost"
      portNumber := .int number
      database := text "DOCUMENT_DATABASE_NAME" "typed_docstore"
      username := optional "DOCUMENT_DATABASE_USER"
      password := optional "DOCUMENT_DATABASE_PASSWORD" }

def ofEnvironment (lookup? : String → Option String) (overrides : Document) :
    Except Failure Settings := do
  (← ofVariables lookup?).override overrides

def storeKind (settings : Settings) : Except ArgumentFault StoreKind :=
  let name := Text.lowerAll settings.kind.text
  if name = "inmemory" then .ok .memory
  else if name = "mongodb" then .ok .server
  else .error (.unknownDriver name)

end Settings
end Docbase
