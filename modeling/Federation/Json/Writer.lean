import Federation.Json.Basic

/-!
The compact text of JSON values.

* `Json.render`: the text without any space. Fields stand in the order of the object.
* `Json.escape`: a quote, a backslash and the control characters are escaped, the common ones by a
  letter and the others by four hexadecimal digits; every other character stands for itself.
-/

namespace Federation.Json

/-- A hexadecimal digit in lower case. -/
def hexDigit (n : Nat) : Char := Nat.digitChar (n % 16)

/-- The characters that stand for `c` inside a text. -/
def escape (c : Char) : List Char :=
  match c with
  | '"' => ['\\', '"']
  | '\\' => ['\\', '\\']
  | '\n' => ['\\', 'n']
  | '\r' => ['\\', 'r']
  | '\t' => ['\\', 't']
  | '\x08' => ['\\', 'b']
  | '\x0c' => ['\\', 'f']
  | _ =>
    if c.toNat < 0x20 then ['\\', 'u', '0', '0', hexDigit (c.toNat / 16), hexDigit c.toNat]
    else [c]

/-- A text between quotes. -/
def renderText (s : String) : List Char := '"' :: s.toList.flatMap escape ++ ['"']

mutual

/-- The text of a value. -/
def renderChars : Json → List Char
  | null => ['n', 'u', 'l', 'l']
  | bool true => ['t', 'r', 'u', 'e']
  | bool false => ['f', 'a', 'l', 's', 'e']
  | int n => (toString n).toList
  | decimal d => d.render
  | str s => renderText s
  | arr [] => ['[', ']']
  | arr (j :: js) => '[' :: renderChars j ++ renderItems js
  | obj [] => ['\x7b', '\x7d']
  | obj ((k, j) :: fs) => '\x7b' :: renderText k ++ ':' :: renderChars j ++ renderFields fs

/-- The items of an array after the first one, and its end. -/
def renderItems : List Json → List Char
  | [] => [']']
  | j :: js => ',' :: renderChars j ++ renderItems js

/-- The fields of an object after the first one, and its end. -/
def renderFields : List (String × Json) → List Char
  | [] => ['\x7d']
  | (k, j) :: fs => ',' :: renderText k ++ ':' :: renderChars j ++ renderFields fs

end

/-- The compact text of a value. -/
def render (j : Json) : String := String.ofList j.renderChars

end Federation.Json
