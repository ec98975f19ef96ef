import Atx.Lib.Decimal

/-!
# What values are rendered from

Derived implementations do not write texts. They hand the shape of a value and its leaves to a
writer: a serializer gets a value of the data model of JSON, and a formatter gets the names and
fields of structures and variants. Whatever is written of two values is the same if they hand the
same to the writer.

## Main definitions

* `Json`, `Json.text` — a value of JSON, and its text without white space
* `DebugTree` — what a formatter gets
-/

inductive Json
  | null
  | bool (b : Bool)
  | number (n : ℤ)
  | string (s : String)
  | array (items : List Json)
  | object (members : List (String × Json))

namespace Json

def option {α : Type} (f : α → Json) : Option α → Json
  | none => .null
  | some a => f a

def hexDigit (n : ℕ) : Char := if n < 10 then Char.ofNat (48 + n) else Char.ofNat (87 + n)

/-- A character of a string. Control characters are escaped, the common ones by letters. -/
def escape (c : Char) : List Char :=
  if c = '\x22' then ['\x5c', '\x22']
  else if c = '\x5c' then ['\x5c', '\x5c']
  else if c = '\x08' then ['\x5c', 'b']
  else if c = '\t' then ['\x5c', 't']
  else if c = '\n' then ['\x5c', 'n']
  else if c = '\x0c' then ['\x5c', 'f']
  else if c = '\r' then ['\x5c', 'r']
  else if c.toNat < 32 then
    ['\x5c', 'u', '0', '0', hexDigit (c.toNat / 16), hexDigit (c.toNat % 16)]
  else [c]

def quote (s : String) : List Char := '\x22' :: s.toList.flatMap escape ++ ['\x22']

mutual

def chars : Json → List Char
  | .null => ['n', 'u', 'l', 'l']
  | .bool true => ['t', 'r', 'u', 'e']
  | .bool false => ['f', 'a', 'l', 's', 'e']
  | .number n => Decimal.ofInt n
  | .string s => quote s
  | .array items => '[' :: charsOfItems items ++ [']']
  | .object members => '{' :: charsOfMembers members ++ ['}']

def charsOfItems : List Json → List Char
  | [] => []
  | item :: items =>
    chars item ++ match items with
      | [] => []
      | next :: items => ',' :: charsOfItems (next :: items)

def charsOfMembers : List (String × Json) → List Char
  | [] => []
  | (key, value) :: members =>
    quote key ++ ':' :: chars value ++ match members with
      | [] => []
      | next :: members => ',' :: charsOfMembers (next :: members)

end

def text (json : Json) : String := String.ofList json.chars

example : (Json.object [("ok", .bool true), ("n", .array [.number (-1), .string "a\n"])]).chars =
    ['{', '\x22', 'o', 'k', '\x22', ':', 't', 'r', 'u', 'e', ',', '\x22', 'n', '\x22', ':', '[', '-',
      '1', ',', '\x22', 'a', '\x5c', 'n', '\x22', ']', '}'] := by decide

end Json

/-- What a formatter gets: text that is written as it is, strings to be quoted, and the names and
parts of larger values. -/
inductive DebugTree
  | raw (s : String)
  | quoted (s : String)
  | struct (name : String) (fields : List (String × DebugTree))
  | tuple (name : String) (fields : List DebugTree)
  | list (items : List DebugTree)
  | map (entries : List (DebugTree × DebugTree))

def DebugTree.option {α : Type} (f : α → DebugTree) : Option α → DebugTree
  | none => .raw "None"
  | some a => .tuple "Some" [f a]
