import Mathlib.Data.List.Infix
import Mathlib.Data.String.Basic

/-!
Operations on texts that several crates share.
-/

namespace Dvrft.Texts

/-- `text.contains(part)`. -/
def textContains (text part : String) : Bool := decide (part.toList <:+: text.toList)

/-- The bytes of an ASCII literal. -/
def ascii (text : String) : List UInt8 := text.toList.map fun c => UInt8.ofNat c.toNat

def inRange (low high b : UInt8) : Bool := decide (low ≤ b) && decide (b ≤ high)

/-- The bytes that may follow the lead byte of a sequence of three. -/
def second3 (lead b : UInt8) : Bool :=
  if lead = 0xE0 then inRange 0xA0 0xBF b
  else if lead = 0xED then inRange 0x80 0x9F b
  else inRange 0x80 0xBF b

/-- The bytes that may follow the lead byte of a sequence of four. -/
def second4 (lead b : UInt8) : Bool :=
  if lead = 0xF0 then inRange 0x90 0xBF b
  else if lead = 0xF4 then inRange 0x80 0x8F b
  else inRange 0x80 0xBF b

def codePoint (bits : ℕ) (lead : UInt8) (more : List UInt8) : Char :=
  Char.ofNat (more.foldl (fun n b => 64 * n + b.toNat % 64) (lead.toNat % 2 ^ bits))

def replacement : Char := '\uFFFD'

/-- `String::from_utf8_lossy`: what cannot be the beginning of a sequence is replaced,
together with as much of a sequence as there was. -/
def utf8LossyChars : List UInt8 → List Char
  | [] => []
  | a :: rest =>
    if a < 0x80 then Char.ofNat a.toNat :: utf8LossyChars rest
    else if inRange 0xC2 0xDF a then
      match rest with
      | b :: rest' =>
        if inRange 0x80 0xBF b then codePoint 5 a [b] :: utf8LossyChars rest'
        else replacement :: utf8LossyChars (b :: rest')
      | [] => [replacement]
    else if inRange 0xE0 0xEF a then
      match rest with
      | b :: c :: rest' =>
        if second3 a b then
          if inRange 0x80 0xBF c then codePoint 4 a [b, c] :: utf8LossyChars rest'
          else replacement :: utf8LossyChars (c :: rest')
        else replacement :: utf8LossyChars (b :: c :: rest')
      | [b] =>
        if second3 a b then [replacement] else replacement :: utf8LossyChars [b]
      | [] => [replacement]
    else if inRange 0xF0 0xF4 a then
      match rest with
      | b :: c :: d :: rest' =>
        if second4 a b then
          if inRange 0x80 0xBF c then
            if inRange 0x80 0xBF d then codePoint 3 a [b, c, d] :: utf8LossyChars rest'
            else replacement :: utf8LossyChars (d :: rest')
          else replacement :: utf8LossyChars (c :: d :: rest')
        else replacement :: utf8LossyChars (b :: c :: d :: rest')
      | [b, c] =>
        if second4 a b then
          if inRange 0x80 0xBF c then [replacement] else replacement :: utf8LossyChars [c]
        else replacement :: utf8LossyChars [b, c]
      | [b] =>
        if second4 a b then [replacement] else replacement :: utf8LossyChars [b]
      | [] => [replacement]
    else replacement :: utf8LossyChars rest

def fromUtf8Lossy (bytes : List UInt8) : String := String.ofList (utf8LossyChars bytes)

/-- `u8::to_ascii_lowercase`. -/
def toAsciiLowercase (b : UInt8) : UInt8 := if inRange 0x41 0x5A b then b + 32 else b

/-- `char::is_whitespace`. -/
def isWhitespace (c : Char) : Bool :=
  let n := c.toNat
  decide ((9 ≤ n ∧ n ≤ 13) ∨ n = 32 ∨ n = 0x85 ∨ n = 0xA0 ∨ n = 0x1680 ∨
    (0x2000 ≤ n ∧ n ≤ 0x200A) ∨ n = 0x2028 ∨ n = 0x2029 ∨ n = 0x202F ∨ n = 0x205F ∨ n = 0x3000)

/-- `text.trim()`. -/
def trim (text : String) : String :=
  String.ofList ((text.toList.dropWhile isWhitespace).reverse.dropWhile isWhitespace).reverse

/-- `format!("{:X}", n)`. -/
def upperHex (n : ℕ) : String := String.ofList ((Nat.toDigits 16 n).map Char.toUpper)

/-- `format!("{:02X}", b)`. -/
def upperHex2 (b : UInt8) : String :=
  (if b < 16 then "0" else "") ++ upperHex b.toNat

example : (fromUtf8Lossy [0x68, 0xE2, 0x82, 0xAC, 0xE2, 0x82, 0x28, 0xFF]).toList =
    ['h', '\u20AC', '\uFFFD', '(', '\uFFFD'] := by decide

end Dvrft.Texts
