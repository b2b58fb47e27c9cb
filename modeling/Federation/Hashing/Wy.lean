import Federation.Collection.Keyed
import Federation.Hashing.Slot

/-!
The hash code of a text.

* `Wy.code`: a code of 64 bits from the bytes of the text in UTF-8. Every 32 bytes are mixed into
  the seed, then the bytes that remain, and last the number of bytes.
* `Wy.mix`: the one non-linear step, which multiplies to 128 bits and folds the two halves together.
* `HashFunction.wy`: slots by this code.
* `HashFunction.scripted`: slots by a table of codes, and by `Wy.code` for texts that are not in it.

All arithmetic is on words of 64 bits and wraps; numbers are read from bytes with the least
significant byte first.
-/

namespace Federation

namespace Wy

/-- Multiplies to 128 bits and combines the upper and the lower half. -/
def mix (a b : UInt64) : UInt64 :=
  let r := a.toNat * b.toNat
  UInt64.ofNat (r / UInt64.size) ^^^ UInt64.ofNat (r % UInt64.size)

/-- The constants that are combined with the data before each multiplication. -/
def p0 : UInt64 := 0xa0761d6478bd642f

@[inherit_doc p0] def p1 : UInt64 := 0xe7037ed1a0b428db

@[inherit_doc p0] def p2 : UInt64 := 0x8ebc6af09c88c6e3

@[inherit_doc p0] def p3 : UInt64 := 0x589965cc75374cc3

@[inherit_doc p0] def p4 : UInt64 := 0x1d8e4e27c47d124f

@[inherit_doc p0] def p5 : UInt64 := 0xeb44accab455d165

/-- The number whose bytes are listed, the least significant one first. -/
def word (l : List UInt8) : UInt64 := l.foldr (fun b n => n <<< 8 ||| b.toUInt64) 0

/-- The number in the first four bytes. -/
def word32 (l : List UInt8) : UInt64 := word (l.take 4)

/-- The number in the first eight bytes. -/
def word64 (l : List UInt8) : UInt64 := word (l.take 8)

/-- The first eight bytes with the halves exchanged. -/
def swapped (l : List UInt8) : UInt64 := word32 l <<< 32 ||| word32 (l.drop 4)

/-- One number from the one to eight bytes that remain. -/
def residue (l : List UInt8) : UInt64 :=
  match l with
  | [a] => word [a]
  | [a, b] => word [a, b]
  | [a, b, c] => word [c, a, b]
  | [a, b, c, d] => word [a, b, c, d]
  | [a, b, c, d, e] => word [e, a, b, c, d]
  | [a, b, c, d, e, f] => word [e, f, a, b, c, d]
  | [a, b, c, d, e, f, g] => word [g, e, f, a, b, c, d]
  | _ => swapped l

/-- Mixes 32 bytes into the seed. -/
def absorbBlock (seed : UInt64) (l : List UInt8) : UInt64 :=
  mix (seed ^^^ p0)
    (mix (word64 l ^^^ p1) (word64 (l.drop 8) ^^^ p2) ^^^
      mix (word64 (l.drop 16) ^^^ p3) (word64 (l.drop 24) ^^^ p4))

/-- Mixes all full blocks into the seed; what remains is shorter than a block. -/
def absorb (seed : UInt64) (l : List UInt8) : UInt64 × List UInt8 :=
  if 32 ≤ l.length then absorb (absorbBlock seed l) (l.drop 32) else (seed, l)
termination_by l.length
decreasing_by simp only [List.length_drop]; omega

/-- Mixes the last bytes, fewer than 32, into the seed. -/
def absorbLast (s : UInt64) (l : List UInt8) : UInt64 :=
  let n := l.length
  if n = 0 then s
  else if n ≤ 8 then mix s (residue l ^^^ p1)
  else if n ≤ 16 then mix (swapped l ^^^ s) (residue (l.drop 8) ^^^ p2)
  else if n ≤ 24 then
    mix (swapped l ^^^ s) (swapped (l.drop 8) ^^^ p2) ^^^ mix s (residue (l.drop 16) ^^^ p3)
  else
    mix (swapped l ^^^ s) (swapped (l.drop 8) ^^^ p2) ^^^
      mix (swapped (l.drop 16) ^^^ s) (residue (l.drop 24) ^^^ p4)

/-- The hash code of a text. -/
def code (s : String) : UInt64 :=
  let l := s.toUTF8.toList
  let (seed, rest) := absorb 0 l
  mix (absorbLast (seed ^^^ p0) rest) (UInt64.ofNat l.length ^^^ p5)

end Wy

namespace HashFunction

/-- Slots by the hash code of the text. -/
def wy : HashFunction := ofCode fun s => (Wy.code s).toNat

/-- Slots by the codes of a table, and by the hash code where the table has none. -/
def scripted (script : Assoc String Nat) : HashFunction :=
  ofCode fun s => (script.get? s).getD (Wy.code s).toNat

end HashFunction

end Federation
