import FirstMatch.Json.Numeral

/-!
The compact text of a JSON value: no blanks, the members of an object in the order in which they
stand, and in strings only those characters escaped that have to be.
-/

namespace FirstMatch

namespace Json

def escapeChar (c : Char) : List Char :=
  match c with
  | '"' => ['\\', '"']
  | '\\' => ['\\', '\\']
  | '\x08' => ['\\', 'b']
  | '\x0c' => ['\\', 'f']
  | '\n' => ['\\', 'n']
  | '\r' => ['\\', 'r']
  | '\t' => ['\\', 't']
  | c =>
    if c.toNat < 0x20 then ['\\', 'u', '0', '0', (c.toNat / 16).digitChar, (c.toNat % 16).digitChar]
    else [c]

def quote (s : String) : List Char := '"' :: s.toList.flatMap escapeChar ++ ['"']

mutual

def chars : Json → List Char
  | .null => "null".toList
  | .bool true => "true".toList
  | .bool false => "false".toList
  | .number n => n.text
  | .string s => quote s
  | .list items => '[' :: itemsChars items ++ [']']
  | .object members => '{' :: membersChars members ++ ['}']

def itemsChars : List Json → List Char
  | [] => []
  | [item] => item.chars
  | item :: next :: rest => item.chars ++ ',' :: itemsChars (next :: rest)

def membersChars : List (String × Json) → List Char
  | [] => []
  | [(name, value)] => quote name ++ ':' :: value.chars
  | (name, value) :: next :: rest =>
    quote name ++ ':' :: value.chars ++ ',' :: membersChars (next :: rest)

end

def text (value : Json) : String := String.ofList value.chars

end Json

end FirstMatch
