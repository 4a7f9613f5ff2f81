import Docbase.Double.Text
import Docbase.Text.Quoted
import Docbase.Value

/-!
# The text of a value

`Value.shown` is the form in which messages show a value: texts quoted, containers spelled out.
`Value.text` is the plain form, in which a text is itself and a timestamp or an object identifier
is bare.
-/

namespace Docbase

namespace ObjectId

def text (id : ObjectId) : String := String.ofList (Text.hex 24 id.number)

end ObjectId

namespace Timestamp

def shownOffset (seconds : Int) : String :=
  if seconds = 0 then "datetime.timezone.utc"
  else
    let days := seconds / 86400
    let rest := seconds % 86400
    let parts := (if days = 0 then [] else ["days=" ++ toString days])
      ++ (if rest = 0 then [] else ["seconds=" ++ toString rest])
    "datetime.timezone(datetime.timedelta(" ++ ", ".intercalate parts ++ "))"

/-- The fields of a timestamp as messages show them; seconds and microseconds are left out where
they are zero at the end. -/
def shown (t : Timestamp) : String :=
  let numbers := [t.year, t.month, t.day, t.hour, t.minute]
    ++ (if t.microsecond ≠ 0 then [t.second, t.microsecond]
      else if t.second ≠ 0 then [t.second] else [])
  let offset := match t.offset with
    | some seconds => ["tzinfo=" ++ shownOffset seconds]
    | none => []
  "datetime.datetime(" ++ ", ".intercalate (numbers.map toString ++ offset) ++ ")"

end Timestamp

namespace Pattern

def shown (p : Pattern) : String :=
  let names := (if p.flags.ignoreCase then ["re.IGNORECASE"] else [])
    ++ (if p.flags.multiLine then ["re.MULTILINE"] else [])
    ++ (if p.flags.dotAll then ["re.DOTALL"] else [])
    ++ (if p.flags.verbose then ["re.VERBOSE"] else [])
  let source := String.ofList ((Text.quoted p.source).toList.take 200)
  "re.compile(" ++ source ++ (if names.isEmpty then "" else ", " ++ "|".intercalate names) ++ ")"

end Pattern

namespace Value

/-- Items between parentheses; a single one is followed by a comma. -/
def parenthesized : List String → String
  | [item] => "(" ++ item ++ ",)"
  | items => "(" ++ ", ".intercalate items ++ ")"

def bracketed (items : List String) : String := "[" ++ ", ".intercalate items ++ "]"

def braced (items : List String) : String := "\x7b" ++ ", ".intercalate items ++ "\x7d"

mutual

def shown : Value → String
  | .null => "None"
  | .missing => "MISSING"
  | .bool b => if b then "True" else "False"
  | .int n => toString n
  | .double x => DoubleFormat.standard.text x
  | .str s => Text.quoted s
  | .bytes octets => Text.quotedBytes octets
  | .timestamp t => t.shown
  | .objectId id => "ObjectId(" ++ Text.quoted id.text ++ ")"
  | .pattern p => p.shown
  | .tuple items => parenthesized (shownItems items)
  | .list items => bracketed (shownItems items)
  | .doc fields => braced (shownFields fields)
  | .flat conditions => "Flat(conditions=" ++ braced (shownFields conditions) ++ ")"
  | .anyOf members => "Or(predicates=" ++ parenthesized (shownItems members) ++ ")"
  | .allOf members => "And(predicates=" ++ parenthesized (shownItems members) ++ ")"
  | .joinTo collection select =>
    "JoinOptions(collection_name=" ++ shown collection ++ ", select=" ++ shown select ++ ")"

def shownItems : List Value → List String
  | [] => []
  | v :: rest => shown v :: shownItems rest

def shownFields : List (String × Value) → List String
  | [] => []
  | (key, v) :: rest => (Text.quoted key ++ ": " ++ shown v) :: shownFields rest

end

def text : Value → String
  | .str s => s
  | .timestamp t => t.text " "
  | .objectId id => id.text
  | v => v.shown

def shownTexts (texts : List String) : String := bracketed (texts.map Text.quoted)

end Value
end Docbase
