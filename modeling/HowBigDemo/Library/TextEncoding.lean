import Mathlib.Data.List.Basic

namespace Library

/-!
# Code units, UTF-8 and percent escapes

Text is a list of UTF-16 code units, as in `NSString` and in JavaScript.  A
literal is written through `text`, which encodes its scalar values.  UTF-8
appears only under percent escapes: a run of escapes stands for the bytes of
one or more scalar values, and decoding is partial because the bytes may be
malformed or a `%` may not start an escape at all.
-/

/-- A UTF-16 code unit. -/
abbrev CodeUnit := UInt16

/-- The one or two code units of a scalar value. -/
def utf16 (scalar : Nat) : List CodeUnit :=
  if scalar < 0x10000 then [UInt16.ofNat scalar]
  else
    [UInt16.ofNat (0xD800 + (scalar - 0x10000) / 0x400),
      UInt16.ofNat (0xDC00 + (scalar - 0x10000) % 0x400)]

/-- The code units of a literal. -/
def text (literal : String) : List CodeUnit :=
  literal.toList.flatMap fun character => utf16 character.toNat

/-- The value of a hexadecimal digit, in either case. -/
def hexValue (unit : CodeUnit) : Option Nat :=
  let code := unit.toNat
  if 48 ≤ code ∧ code ≤ 57 then some (code - 48)
  else if 65 ≤ code ∧ code ≤ 70 then some (code - 55)
  else if 97 ≤ code ∧ code ≤ 102 then some (code - 87)
  else none

/-- A byte that continues a UTF-8 sequence. -/
def isContinuation (byte : Nat) : Bool :=
  0x80 ≤ byte && byte ≤ 0xBF

/-- The first two bytes of a well-formed sequence of three: no overlong form
and no surrogate. -/
def opensThree (first second : Nat) : Bool :=
  (first == 0xE0 && 0xA0 ≤ second && second ≤ 0xBF) ||
    (0xE1 ≤ first && first ≤ 0xEF && first != 0xED && isContinuation second) ||
    (first == 0xED && 0x80 ≤ second && second ≤ 0x9F)

/-- The first two bytes of a well-formed sequence of four. -/
def opensFour (first second : Nat) : Bool :=
  (first == 0xF0 && 0x90 ≤ second && second ≤ 0xBF) ||
    (0xF1 ≤ first && first ≤ 0xF3 && isContinuation second) ||
    (first == 0xF4 && 0x80 ≤ second && second ≤ 0x8F)

/-- The scalar values of a sequence of bytes, if it is well-formed UTF-8. -/
def utf8Decode : List Nat -> Option (List Nat)
  | [] => some []
  | first :: afterFirst =>
    if first < 0x80 then (utf8Decode afterFirst).map (first :: ·)
    else
      match afterFirst with
      | [] => none
      | second :: afterSecond =>
        if 0xC2 ≤ first ∧ first ≤ 0xDF ∧ isContinuation second then
          (utf8Decode afterSecond).map (((first - 0xC0) * 0x40 + (second - 0x80)) :: ·)
        else
          match afterSecond with
          | [] => none
          | third :: afterThird =>
            if opensThree first second && isContinuation third then
              (utf8Decode afterThird).map
                (((first - 0xE0) * 0x1000 + (second - 0x80) * 0x40 + (third - 0x80)) :: ·)
            else
              match afterThird with
              | [] => none
              | fourth :: rest =>
                if opensFour first second && isContinuation third && isContinuation fourth then
                  (utf8Decode rest).map
                    (((first - 0xF0) * 0x40000 + (second - 0x80) * 0x1000 +
                      (third - 0x80) * 0x40 + (fourth - 0x80)) :: ·)
                else none

/-- The code units that a run of escaped bytes stands for. -/
def decodeRun (bytes : List Nat) : Option (List CodeUnit) :=
  (utf8Decode bytes).map fun scalars => scalars.flatMap utf16

/-- Replace percent escapes, with the bytes of a run still being collected. -/
def replaceEscapesFrom (bytes : List Nat) : List CodeUnit -> Option (List CodeUnit)
  | [] => decodeRun bytes
  | unit :: rest =>
    if unit = 37 then
      match rest with
      | high :: low :: rest =>
        match hexValue high, hexValue low with
        | some high, some low => replaceEscapesFrom (bytes ++ [16 * high + low]) rest
        | _, _ => none
      | _ => none
    else
      match decodeRun bytes, replaceEscapesFrom [] rest with
      | some decoded, some later => some (decoded ++ unit :: later)
      | _, _ => none

/-- Replace every percent escape by what it stands for in UTF-8.  There is
no result when an escape is malformed or a run of escapes is not UTF-8. -/
def replacePercentEscapes (encoded : List CodeUnit) : Option (List CodeUnit) :=
  replaceEscapesFrom [] encoded

example : replacePercentEscapes (text "a%27%E6%B5%8B") = some (text "a'测") := by decide +kernel

end Library
