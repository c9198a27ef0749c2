import DocShell.Calendar.Text
import DocShell.Text.Base64
import DocShell.Text.Escaped
import DocShell.Value.Basic

/-!
# Values inside messages

`Value.display` is the form in which a message names a value: numbers and words
bare, strings in quotes with nothing escaped, other types as a call.
`Value.detail` shows the type of every value and escapes strings, shows bytes as
numbers and decimals by the bytes that they are stored in; it stands for the values
that plain JSON has no form for.
-/

namespace DocShell.Value

/-- The parts with a comma and a blank between them. -/
def commas (parts : List (List Char)) : List Char :=
  Text.join [',', ' '] parts

/-- A name with an argument in parentheses. -/
def called (name : String) (argument : List Char) : List Char :=
  name.toList ++ '(' :: argument ++ [')']

/-- Text in quotes, nothing escaped. -/
def inQuotes (text : String) : List Char :=
  '"' :: text.toList ++ ['"']

mutual

/-- The characters that name a value in a message. -/
def displayChars : Value → List Char
  | .double x => (Double.Layout.plain.text x).toList
  | .string s => inQuotes s
  | .document [] => ['{', '}']
  | .document fields => '{' :: ' ' :: commas (displayFields fields) ++ [' ', '}']
  | .array items => '[' :: commas (displayItems items) ++ [']']
  | .binary subtype bytes =>
    called "Binary" ('0' :: 'x' :: Nat.toDigits 16 subtype.toNat ++ ',' :: ' ' ::
      Text.Base64.encode bytes)
  | .undefined => "undefined".toList
  | .objectId id => called "ObjectId" (inQuotes id.hex)
  | .boolean true => "true".toList
  | .boolean false => "false".toList
  | .dateTime millis => called "DateTime" (inQuotes (Calendar.spelled millis.toInt))
  | .null => "null".toList
  | .regex pattern options => '/' :: pattern.toList ++ '/' :: options.toList
  | .dbPointer target id => called "DbPointer" (target.toList ++ ',' :: ' ' :: id.hex.toList)
  | .javaScript code => code.toList
  | .symbol s => called "Symbol" (inQuotes s)
  | .javaScriptWithScope code _ => code.toList
  | .int32 n => Text.intDigits n.toInt
  | .timestamp time increment =>
    called "Timestamp" (Text.natDigits time.toNat ++ ',' :: ' ' :: Text.natDigits increment.toNat)
  | .int64 n => Text.intDigits n.toInt
  | .decimal128 d => d.text.toList
  | .minKey => "MinKey".toList
  | .maxKey => "MaxKey".toList

/-- The characters of each item. -/
def displayItems : List Value → List (List Char)
  | [] => []
  | item :: more => displayChars item :: displayItems more

/-- The characters of each field. -/
def displayFields : List (String × Value) → List (List Char)
  | [] => []
  | (name, value) :: more => (inQuotes name ++ ':' :: ' ' :: displayChars value) ::
      displayFields more

end

/-- The form in which a message names a value. -/
def display (value : Value) : String :=
  String.ofList value.displayChars

/-- The name of a subtype of bytes. -/
def subtypeName (subtype : UInt8) : List Char :=
  match subtype.toNat with
  | 0 => "Generic".toList
  | 1 => "Function".toList
  | 2 => "BinaryOld".toList
  | 3 => "UuidOld".toList
  | 4 => "Uuid".toList
  | 5 => "Md5".toList
  | 6 => "Encrypted".toList
  | 7 => "Column".toList
  | 8 => "Sensitive".toList
  | 9 => "Vector".toList
  | n => called (if n < 128 then "Reserved" else "UserDefined") (Text.natDigits n)

/-- Text in quotes, everything invisible escaped. -/
def spelled (text : String) : List Char :=
  Text.spell text.toList

/-- A record: its name, and its parts in braces. -/
def recordText (name : String) (parts : List (String × List Char)) : List Char :=
  name.toList ++ ' ' :: '{' :: ' ' ::
    commas (parts.map fun (field, text) => field.toList ++ ':' :: ' ' :: text) ++ [' ', '}']

mutual

/-- The characters of a value shown with its type. -/
def detailChars : Value → List Char
  | .double x => called "Double" (Double.Layout.detailed.text x).toList
  | .string s => called "String" (spelled s)
  | .document fields => called "Document" ('{' :: commas (detailFields fields) ++ ['}'])
  | .array items => called "Array" ('[' :: commas (detailItems items) ++ [']'])
  | .binary subtype bytes =>
    recordText "Binary"
      [("subtype", subtypeName subtype),
       ("bytes", '[' :: commas (bytes.map fun b => Text.natDigits b.toNat) ++ [']'])]
  | .undefined => "Undefined".toList
  | .objectId id => called "ObjectId" (inQuotes id.hex)
  | .boolean true => called "Boolean" "true".toList
  | .boolean false => called "Boolean" "false".toList
  | .dateTime millis => called "DateTime" (Calendar.spelled millis.toInt).toList
  | .null => "Null".toList
  | .regex pattern options =>
    recordText "Regex" [("pattern", spelled pattern), ("options", spelled options)]
  | .dbPointer target id =>
    recordText "DbPointer"
      [("namespace", spelled target), ("id", called "ObjectId" (inQuotes id.hex))]
  | .javaScript code => called "JavaScriptCode" (spelled code)
  | .symbol s => called "Symbol" (spelled s)
  | .javaScriptWithScope code scope =>
    recordText "JavaScriptCodeWithScope"
      [("code", spelled code),
       ("scope", called "Document" ('{' :: commas (detailFields scope) ++ ['}']))]
  | .int32 n => called "Int32" (Text.intDigits n.toInt)
  | .timestamp time increment =>
    recordText "Timestamp"
      [("time", Text.natDigits time.toNat), ("increment", Text.natDigits increment.toNat)]
  | .int64 n => called "Int64" (Text.intDigits n.toInt)
  | .decimal128 d => called "Decimal128" (d.bytes.flatMap Text.hexByte)
  | .minKey => "MinKey".toList
  | .maxKey => "MaxKey".toList

/-- The characters of each item, shown with its type. -/
def detailItems : List Value → List (List Char)
  | [] => []
  | item :: more => detailChars item :: detailItems more

/-- The characters of each field, shown with its type. -/
def detailFields : List (String × Value) → List (List Char)
  | [] => []
  | (name, value) :: more => (spelled name ++ ':' :: ' ' :: detailChars value) ::
      detailFields more

end

/-- The form of a value that shows its type. -/
def detail (value : Value) : String :=
  String.ofList value.detailChars

end DocShell.Value
