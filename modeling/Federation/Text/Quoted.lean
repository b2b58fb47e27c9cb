import Federation.Text.Hidden

/-!
Quoted text, as it stands inside a message.

* `quote`: the text between double quotes. A quote and a backslash get a backslash before them, a
  line feed, a return, a tab and a NUL are written as a backslash and a letter, and every other
  hidden character by its number. An apostrophe and all visible characters stay as they are.
* `quoteOption`: a text that may be absent.
-/

namespace Federation.Text

/-- The number of a character in lower case hexadecimal, between braces and without padding. -/
def escapeByNumber (c : Char) : List Char :=
  ['\\', 'u', '\x7b'] ++ Nat.toDigits 16 c.toNat ++ ['\x7d']

/-- The characters that stand for `c` inside quotes. -/
def escapeQuoted (c : Char) : List Char :=
  match c with
  | '"' => ['\\', '"']
  | '\\' => ['\\', '\\']
  | '\n' => ['\\', 'n']
  | '\r' => ['\\', 'r']
  | '\t' => ['\\', 't']
  | '\x00' => ['\\', '0']
  | _ => if isHidden c then escapeByNumber c else [c]

/-- The text between double quotes. -/
def quote (s : String) : String := String.ofList ('"' :: s.toList.flatMap escapeQuoted ++ ['"'])

/-- A text that may be absent: its presence is written around the quoted text. -/
def quoteOption : Option String → String
  | none => "None"
  | some s => "Some(" ++ quote s ++ ")"

end Federation.Text
