/-
**The tokens of a JSON text.**

One pass over the characters yields the brackets, commas and colons, the texts, and the other
scalars.  Digits, signs, points and exponent letters that stand together make up one number, and
lower-case letters that stand together one word; whether they do form a number or a word of JSON is
decided when they end.  Nothing of the grammar is lost in this way, because no two scalars may stand
side by side.

Main definitions:

* `ActionSignatures.Json.Token` — brackets, separators, texts and other scalars;
* `ActionSignatures.Json.numberOf` — the number written by given characters;
* `ActionSignatures.Json.tokens` — **the tokens of a text**.
-/

import ActionSignatures.Json.Basic
import ActionSignatures.Json.Number

set_option relaxedAutoImplicit false
set_option autoImplicit false

namespace ActionSignatures.Json

/-! ### Tokens -/

/-- A token.  A text with half of a surrogate pair has no value. -/
inductive Token where
  | openArray
  | closeArray
  | openObject
  | closeObject
  | comma
  | colon
  | text (value : Option String)
  | scalar (value : Json)

/-! ### Numbers -/

/-- A decimal number as a value, if it can be taken up; only its text is kept. -/
def decimalOf (x : Scaled) (text : String) : Json := if x.isFinite then .decimal text else .unreadable

/-- A whole number as a value.  Outside 64 bits, and as negative zero, it is taken for a decimal
number. -/
def wholeNumber (negative : Bool) (whole : List Char) (text : String) : Json :=
  let (n, left) := takeDigits 0 whole
  if negative then
    if left = 0 ∧ n ≠ 0 ∧ Int64.minValue.toInt ≤ -n then .int (-n) else decimalOf (.ofDigits whole []) text
  else
    if left = 0 then .int n else decimalOf (.ofDigits whole []) text

/-- A bound on the exponents that have to be told apart: one beyond it is as good as the bound. -/
def exponentBound : Nat := 10000000000

/-- The exponent after its letter: whether it is negative, and its digits. -/
def exponentOf : List Char → Bool × List Char
  | '-' :: cs => (true, cs)
  | '+' :: cs => (false, cs)
  | cs => (false, cs)

/-- **The number written by the characters**, if they follow the grammar: an optional minus sign, a
whole part without superfluous zeros, an optional fraction and an optional exponent. -/
def numberOf (cs : List Char) : Option Json :=
  let negative := cs.head? == some '-'
  let unsigned := if negative then cs.drop 1 else cs
  let whole := unsigned.takeWhile Char.isDigit
  let afterWhole := unsigned.dropWhile Char.isDigit
  let pointed := afterWhole.head? == some '.'
  let fraction := if pointed then (afterWhole.drop 1).takeWhile Char.isDigit else []
  let afterFraction := if pointed then (afterWhole.drop 1).dropWhile Char.isDigit else afterWhole
  let raised := afterFraction.head? == some 'e' || afterFraction.head? == some 'E'
  let (lowered, exponent) := if raised then exponentOf (afterFraction.drop 1) else (false, [])
  if whole = [] || (whole.head? == some '0' && whole.length > 1) || (pointed && fraction.isEmpty) ||
      (raised && exponent.isEmpty) || (!raised && !afterFraction.isEmpty) ||
      !exponent.all Char.isDigit then
    none
  else if !pointed && !raised then
    some (wholeNumber negative whole (String.ofList cs))
  else
    let e := cappedValue exponentBound exponent
    let x := (Scaled.ofDigits whole fraction).scale (if lowered then -e else e)
    some (decimalOf x (String.ofList cs))

/-- The value of a word. -/
def wordOf (cs : List Char) : Option Json :=
  if cs = "null".toList then some .null
  else if cs = "true".toList then some (.bool true)
  else if cs = "false".toList then some (.bool false)
  else none

/-! ### Texts -/

/-- A text as far as it has been read: its characters, last first; whether it can be taken up so
far; and the first half of a surrogate pair that waits for the second. -/
structure Quote where
  chars : List Char := []
  sound : Bool := true
  half : Option Nat := none

namespace Quote

/-- The text with one more character, which leaves a waiting half without its partner. -/
def push (q : Quote) (c : Char) : Quote :=
  { chars := c :: q.chars, sound := q.sound && q.half.isNone }

/-- The text with one more character given by an escaped code. -/
def pushCode (q : Quote) (n : Nat) : Quote :=
  let second := 0xDC00 ≤ n && n ≤ 0xDFFF
  match q.half with
  | some high =>
      if second then
        { q with
          chars := Char.ofNat (0x10000 + (high - 0xD800) * 0x400 + (n - 0xDC00)) :: q.chars
          half := none }
      else
        { q with sound := false, half := none }
  | none =>
      if 0xD800 ≤ n && n ≤ 0xDBFF then { q with half := some n }
      else if second then { q with sound := false }
      else q.push (Char.ofNat n)

/-- The token of a finished text. -/
def token (q : Quote) : Token :=
  .text (if q.sound && q.half.isNone then some (String.ofList q.chars.reverse) else none)

end Quote

/-- The character that a one-letter escape stands for. -/
def escapeOf (c : Char) : Option Char :=
  if c = '"' || c = '\\' || c = '/' then some c
  else if c = 'b' then some '\x08'
  else if c = 'f' then some '\x0c'
  else if c = 'n' then some '\n'
  else if c = 'r' then some '\r'
  else if c = 't' then some '\t'
  else none

/-- The value of a hexadecimal digit of either case. -/
def hexValue (c : Char) : Option Nat :=
  if c.isDigit then some (c.toNat - 0x30)
  else if 'a' ≤ c ∧ c ≤ 'f' then some (c.toNat - 0x57)
  else if 'A' ≤ c ∧ c ≤ 'F' then some (c.toNat - 0x37)
  else none

/-! ### The pass over the characters -/

/-- What the characters behind the last complete token have begun. -/
inductive Begun where
  | nothing
  | text (q : Quote)
  | escape (q : Quote)
  | code (q : Quote) (missing : Nat) (value : Nat)
  | number (chars : List Char)
  | word (chars : List Char)

/-- The characters of numbers. -/
def isNumberChar (c : Char) : Bool :=
  c.isDigit || c == '-' || c == '+' || c == '.' || c == 'e' || c == 'E'

/-- A character with nothing begun in front of it: what it begins, and the token that it is. -/
def start (c : Char) : Option (Begun × Option Token) :=
  if c = ' ' || c = '\n' || c = '\r' || c = '\t' then some (.nothing, none)
  else if c = '"' then some (.text {}, none)
  else if c = '[' then some (.nothing, some .openArray)
  else if c = ']' then some (.nothing, some .closeArray)
  else if c = '\x7b' then some (.nothing, some .openObject)
  else if c = '\x7d' then some (.nothing, some .closeObject)
  else if c = ',' then some (.nothing, some .comma)
  else if c = ':' then some (.nothing, some .colon)
  else if c.isDigit || c = '-' then some (.number [c], none)
  else if c.isLower then some (.word [c], none)
  else none

/-- **The tokens of a text**, or nothing if some part of it is no token.  The tokens found so far are
given last first. -/
def tokensFrom (begun : Begun) (found : List Token) : List Char → Option (List Token)
  | [] =>
      match begun with
      | .nothing => some found.reverse
      | .number cs => (numberOf cs.reverse).map fun v => (Token.scalar v :: found).reverse
      | .word cs => (wordOf cs.reverse).map fun v => (Token.scalar v :: found).reverse
      | _ => none
  | c :: rest =>
      let fresh (found : List Token) :=
        match start c with
        | some (begun, some token) => tokensFrom begun (token :: found) rest
        | some (begun, none) => tokensFrom begun found rest
        | none => none
      match begun with
      | .nothing => fresh found
      | .text q =>
          if c = '"' then tokensFrom .nothing (q.token :: found) rest
          else if c = '\\' then tokensFrom (.escape q) found rest
          else if c.toNat < 0x20 then none
          else tokensFrom (.text (q.push c)) found rest
      | .escape q =>
          if c = 'u' then tokensFrom (.code q 3 0) found rest
          else
            match escapeOf c with
            | some c => tokensFrom (.text (q.push c)) found rest
            | none => none
      | .code q missing value =>
          match hexValue c, missing with
          | none, _ => none
          | some d, 0 => tokensFrom (.text (q.pushCode (16 * value + d))) found rest
          | some d, m + 1 => tokensFrom (.code q m (16 * value + d)) found rest
      | .number cs =>
          if isNumberChar c then tokensFrom (.number (c :: cs)) found rest
          else
            match numberOf cs.reverse with
            | some v => fresh (.scalar v :: found)
            | none => none
      | .word cs =>
          if c.isLower then tokensFrom (.word (c :: cs)) found rest
          else
            match wordOf cs.reverse with
            | some v => fresh (.scalar v :: found)
            | none => none

/-- The tokens of a text. -/
def tokens (text : String) : Option (List Token) := tokensFrom .nothing [] text.toList

end ActionSignatures.Json
