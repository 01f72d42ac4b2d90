/-!
# JSON

Values in JSON, written on one line or over several with an indent of two.
-/

set_option autoImplicit false

namespace TemplateSelectors

inductive JsonValue where
  | string (value : String)
  | number (value : Nat)
  | bool (value : Bool)
  | array (items : List JsonValue)
  /-- The fields in the order in which they are written. -/
  | object (fields : List (String × JsonValue))

namespace JsonValue

def hexDigit (n : Nat) : Char :=
  if n < 10 then Char.ofNat (48 + n) else Char.ofNat (87 + n)

/-- A character inside quotes: quotes, backslashes and control characters are escaped. -/
def escapeChar (c : Char) : List Char :=
  if c = '"' then ['\\', '"']
  else if c = '\\' then ['\\', '\\']
  else if c = '\n' then ['\\', 'n']
  else if c = '\r' then ['\\', 'r']
  else if c = '\t' then ['\\', 't']
  else if c.toNat = 8 then ['\\', 'b']
  else if c.toNat = 12 then ['\\', 'f']
  else if c.toNat < 32 then ['\\', 'u', '0', '0', hexDigit (c.toNat / 16), hexDigit (c.toNat % 16)]
  else [c]

def quote (value : String) : String :=
  "\"" ++ String.ofList (value.toList.flatMap escapeChar) ++ "\""

mutual

def compact : JsonValue → String
  | .string value => quote value
  | .number value => toString value
  | .bool value => if value then "true" else "false"
  | .array items => "[" ++ ",".intercalate (compactItems items) ++ "]"
  | .object fields => "\x7b" ++ ",".intercalate (compactFields fields) ++ "\x7d"

def compactItems : List JsonValue → List String
  | [] => []
  | item :: items => item.compact :: compactItems items

def compactFields : List (String × JsonValue) → List String
  | [] => []
  | (key, value) :: fields => (quote key ++ ":" ++ value.compact) :: compactFields fields

end

def newline (depth : Nat) : String :=
  "\n" ++ String.ofList (List.replicate (2 * depth) ' ')

/-- Items between brackets, each on a line of its own; nothing between them if there
are none. -/
def bracketed (opener closer : String) (depth : Nat) (items : List String) : String :=
  match items with
  | [] => opener ++ closer
  | _ :: _ =>
      opener ++ newline (depth + 1) ++ ("," ++ newline (depth + 1)).intercalate items ++
        newline depth ++ closer

mutual

def prettyAt (depth : Nat) : JsonValue → String
  | .string value => quote value
  | .number value => toString value
  | .bool value => if value then "true" else "false"
  | .array items => bracketed "[" "]" depth (prettyItems (depth + 1) items)
  | .object fields => bracketed "\x7b" "\x7d" depth (prettyFields (depth + 1) fields)

def prettyItems (depth : Nat) : List JsonValue → List String
  | [] => []
  | item :: items => item.prettyAt depth :: prettyItems depth items

def prettyFields (depth : Nat) : List (String × JsonValue) → List String
  | [] => []
  | (key, value) :: fields =>
      (quote key ++ ": " ++ value.prettyAt depth) :: prettyFields depth fields

end

def pretty (value : JsonValue) : String :=
  value.prettyAt 0

end JsonValue

end TemplateSelectors
