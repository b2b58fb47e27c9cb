import Federation.Json.Basic

/-!
Reading JSON texts.

* `Json.parse?`: the value that a text denotes, with blanks around and between its parts.
* `Json.readText`, `Json.readNumber`, `Json.readValue`: readers of a prefix, which return what is
  left. A character outside the basic plane may be escaped as two halves; a half on its own is
  refused, as is a control character that is not escaped.

The depth that bounds the recursion of `readValue` is more than twice the number of characters.
Every second step of the recursion takes one character at least, so the bound is never reached.
-/

namespace Federation.Json

/-! ### Blanks, texts -/

/-- The list without the blanks at its front. -/
def skipBlanks : List Char → List Char
  | [] => []
  | c :: l => if c = ' ' || c = '\n' || c = '\t' || c = '\r' then skipBlanks l else c :: l

/-- The value of a hexadecimal digit in either case. -/
def hexValue? (c : Char) : Option Nat :=
  if c.isDigit then some (c.toNat - '0'.toNat)
  else if 'a' ≤ c && c ≤ 'f' then some (c.toNat - 'a'.toNat + 10)
  else if 'A' ≤ c && c ≤ 'F' then some (c.toNat - 'A'.toNat + 10)
  else none

/-- The value of four hexadecimal digits. -/
def hexValue4? (a b c d : Char) : Option Nat := do
  return 4096 * (← hexValue? a) + 256 * (← hexValue? b) + 16 * (← hexValue? c) + (← hexValue? d)

/-- The character that a letter after a backslash stands for. -/
def unescape? : Char → Option Char
  | '"' => some '"'
  | '\\' => some '\\'
  | '/' => some '/'
  | 'b' => some '\x08'
  | 'f' => some '\x0c'
  | 'n' => some '\n'
  | 'r' => some '\r'
  | 't' => some '\t'
  | _ => none

/-- Whether a number is the upper half of an escaped character outside the basic plane. -/
def isUpperHalf (n : Nat) : Bool := 0xd800 ≤ n && n < 0xdc00

/-- Whether a number is the lower half of an escaped character outside the basic plane. -/
def isLowerHalf (n : Nat) : Bool := 0xdc00 ≤ n && n < 0xe000

/-- The rest of a text up to the closing quote, and what follows the quote. -/
def readText : List Char → Option (List Char × List Char)
  | '"' :: l => some ([], l)
  | '\\' :: 'u' :: a :: b :: c :: d :: l =>
    match hexValue4? a b c d with
    | none => none
    | some n =>
      if isUpperHalf n then
        match l with
        | '\\' :: 'u' :: e :: f :: g :: h :: l =>
          match hexValue4? e f g h with
          | none => none
          | some m =>
            if isLowerHalf m then
              (readText l).map fun r =>
                (Char.ofNat (0x10000 + 1024 * (n - 0xd800) + (m - 0xdc00)) :: r.1, r.2)
            else none
        | _ => none
      else if isLowerHalf n then none
      else (readText l).map fun r => (Char.ofNat n :: r.1, r.2)
  | '\\' :: c :: l =>
    match unescape? c with
    | none => none
    | some c => (readText l).map fun r => (c :: r.1, r.2)
  | c :: l => if c.toNat < 0x20 then none else (readText l).map fun r => (c :: r.1, r.2)
  | [] => none

/-! ### Numbers -/

/-- The longest run of digits at the front, and what follows it. -/
def spanDigits (l : List Char) : List Char × List Char := l.span Char.isDigit

/-- The value of a run of decimal digits. -/
def digitsValue (l : List Char) : Nat := l.foldl (fun n c => 10 * n + (c.toNat - '0'.toNat)) 0

/-- The digits behind a point, if there is a point; at least one has to follow it. -/
def readFraction : List Char → Option (List Char × List Char)
  | '.' :: l =>
    match spanDigits l with
    | ([], _) => none
    | (ds, l) => some (ds, l)
  | l => some ([], l)

/-- The digits of an exponent, of which there has to be one. -/
def readExponentDigits (negative : Bool) (l : List Char) : Option (Option Int × List Char) :=
  match spanDigits l with
  | ([], _) => none
  | (ds, l) => some (some (if negative then -(digitsValue ds : Int) else digitsValue ds), l)

/-- The exponent, if there is one. -/
def readExponent : List Char → Option (Option Int × List Char)
  | c :: l =>
    if c = 'e' || c = 'E' then
      match l with
      | '+' :: l => readExponentDigits false l
      | '-' :: l => readExponentDigits true l
      | l => readExponentDigits false l
    else some (none, c :: l)
  | [] => some (none, [])

/-- The number with the given sign, and what follows it. A number does not start with a zero unless
that is all there is before the point. -/
def readUnsigned (negative : Bool) (l : List Char) : Option (Json × List Char) :=
  match spanDigits l with
  | ([], _) => none
  | ('0' :: _ :: _, _) => none
  | (whole, l) =>
    match readFraction l with
    | none => none
    | some (fraction, l) =>
      match readExponent l with
      | none => none
      | some (exponent?, l) =>
        let n := digitsValue (whole ++ fraction)
        if fraction.isEmpty && exponent?.isNone && !(negative && n == 0) then
          some (int (if negative then -(n : Int) else n), l)
        else
          some (decimal ⟨negative, n, exponent?.getD 0 - fraction.length⟩, l)

/-- A number, and what follows it. -/
def readNumber : List Char → Option (Json × List Char)
  | '-' :: l => readUnsigned true l
  | l => readUnsigned false l

/-! ### Values -/

mutual

/-- A value without blanks before it, and what follows it. -/
def readValue : Nat → List Char → Option (Json × List Char)
  | 0, _ => none
  | depth + 1, l =>
    match l with
    | 'n' :: 'u' :: 'l' :: 'l' :: l => some (null, l)
    | 't' :: 'r' :: 'u' :: 'e' :: l => some (bool true, l)
    | 'f' :: 'a' :: 'l' :: 's' :: 'e' :: l => some (bool false, l)
    | '"' :: l => (readText l).map fun r => (str (String.ofList r.1), r.2)
    | '[' :: l =>
      match skipBlanks l with
      | ']' :: l => some (arr [], l)
      | l => (readItems depth l).map fun r => (arr r.1, r.2)
    | '\x7b' :: l =>
      match skipBlanks l with
      | '\x7d' :: l => some (obj [], l)
      | l => (readFields depth l).map fun r => (obj r.1, r.2)
    | l => readNumber l

/-- The items of an array from the next one to its end, and what follows it. -/
def readItems : Nat → List Char → Option (List Json × List Char)
  | 0, _ => none
  | depth + 1, l =>
    match readValue depth l with
    | none => none
    | some (j, l) =>
      match skipBlanks l with
      | ']' :: l => some ([j], l)
      | ',' :: l => (readItems depth (skipBlanks l)).map fun r => (j :: r.1, r.2)
      | _ => none

/-- The fields of an object from the next one to its end, and what follows it. -/
def readFields : Nat → List Char → Option (List (String × Json) × List Char)
  | 0, _ => none
  | depth + 1, '"' :: l =>
    match readText l with
    | none => none
    | some (k, l) =>
      match skipBlanks l with
      | ':' :: l =>
        match readValue depth (skipBlanks l) with
        | none => none
        | some (j, l) =>
          match skipBlanks l with
          | '\x7d' :: l => some ([(String.ofList k, j)], l)
          | ',' :: l =>
            (readFields depth (skipBlanks l)).map fun r => ((String.ofList k, j) :: r.1, r.2)
          | _ => none
      | _ => none
  | _ + 1, _ => none

end

/-- The value that a text denotes. -/
def parse? (s : String) : Option Json :=
  let l := s.toList
  match readValue (2 * l.length + 2) (skipBlanks l) with
  | none => none
  | some (j, l) => if (skipBlanks l).isEmpty then some j else none

end Federation.Json
