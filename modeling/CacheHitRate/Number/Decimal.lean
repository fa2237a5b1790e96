import CacheHitRate.Number.Binary64
import CacheHitRate.Text.Basic
/-!
Reading numbers from text. Before the grammar applies, every white space beyond ASCII becomes a
space and every decimal digit of another script becomes its ASCII digit; the text is then
trimmed of ASCII white space. Both grammars allow one underscore between two digits.

- A float is a sign, then `nan`, `inf` or `infinity` in any case, or digits with an optional
  point and fraction (one side may be empty, not both) and an optional exponent. Its value is
  the decimal rounded once to binary64: too large gives infinity, too small zero.
- An integer is a sign and decimal digits, at most 4300 of them.
-/

/-! ### Digits of every script

Every character of Unicode category Nd belongs to a run of ten
consecutive code points with the values 0 to 9; the table lists the first code point of each
run (Unicode 14.0), so a digit's value is its distance from the start of its run.
-/

namespace CacheHitRate.Text

/-- The code point of the digit zero of every run of decimal digits, ascending. -/
def digitZeros : List Nat := [0x30, 0x660, 0x6f0, 0x7c0, 0x966, 0x9e6, 0xa66, 0xae6, 0xb66, 0xbe6, 0xc66, 0xce6, 0xd66, 0xde6, 0xe50, 0xed0, 0xf20, 0x1040, 0x1090, 0x17e0, 0x1810, 0x1946, 0x19d0, 0x1a80, 0x1a90, 0x1b50, 0x1bb0, 0x1c40, 0x1c50, 0xa620, 0xa8d0, 0xa900, 0xa9d0, 0xa9f0, 0xaa50, 0xabf0, 0xff10, 0x104a0, 0x10d30, 0x11066, 0x110f0, 0x11136, 0x111d0, 0x112f0, 0x11450, 0x114d0, 0x11650, 0x116c0, 0x11730, 0x118e0, 0x11950, 0x11c50, 0x11d50, 0x11da0, 0x16a60, 0x16ac0, 0x16b50, 0x1d7ce, 0x1d7d8, 0x1d7e2, 0x1d7ec, 0x1d7f6, 0x1e140, 0x1e2f0, 0x1e950, 0x1fbf0]

/-- The value of a decimal digit of any script, `none` for any other code point. -/
def digitValue? (c : Nat) : Option Nat :=
  (digitZeros.find? fun z => z ≤ c && c < z + 10).map (c - ·)

example : digitValue? 0x37 = some 7 ∧ digitValue? 0x663 = some 3 ∧ digitValue? 0x41 = none := by
  decide

end CacheHitRate.Text

namespace CacheHitRate.Decimal

open Text

def isDigit (c : Nat) : Bool := 48 ≤ c && c ≤ 57

/-- The code point as the number grammars see it: ASCII unchanged, other white space a space,
other decimal digits their ASCII digit, anything else a question mark, which no grammar takes. -/
def asciiForm (c : Nat) : Nat :=
  if c < 128 then c
  else if isBlank c then 32
  else match digitValue? c with
    | some v => 48 + v
    | none => 63

def isAsciiSpace (c : Nat) : Bool := c == 32 || (9 ≤ c && c ≤ 13)

/-- The code points a number grammar reads: the text in ASCII form, trimmed. -/
def prepared (t : Text) : List Nat :=
  (trimBy isAsciiSpace ⟨t.points.map asciiForm⟩).points

/-- Removes each underscore that stands between two digits; `none` if any other is present. -/
def dropUnderscores (afterDigit : Bool) : List Nat → Option (List Nat)
  | [] => some []
  | c :: rest =>
    if c = 95 then
      match rest with
      | d :: _ => if afterDigit && isDigit d then dropUnderscores false rest else none
      | [] => none
    else (dropUnderscores (isDigit c) rest).map (c :: ·)

def digitsValue (ds : List Nat) : Nat := ds.foldl (fun n c => 10 * n + (c - 48)) 0

def sign : List Nat → Bool × List Nat
  | 45 :: rest => (true, rest)
  | 43 :: rest => (false, rest)
  | cs => (false, cs)

def lower (c : Nat) : Nat := if 65 ≤ c ∧ c ≤ 90 then c + 32 else c

/-- `d * 10^exp` with the sign `neg`, rounded once. Values far outside the range are settled
by their number of digits alone, so a huge exponent costs nothing. -/
def scaled (neg : Bool) (d : Nat) (exp : Int) : Float :=
  if d = 0 then Binary64.zero neg
  else
    let size := exp + (Nat.toDigits 10 d).length
    if size > 310 then Binary64.infinity neg
    else if size < -330 then Binary64.zero neg
    else
      let r := if 0 ≤ exp then Binary64.roundRatio neg (d * Nat.pow 10 exp.toNat) 1
        else Binary64.roundRatio neg d (Nat.pow 10 (-exp).toNat)
      r.getD (Binary64.infinity neg)

/-- An optional exponent part: `e` or `E`, a sign and at least one digit. Without digits
nothing is taken. -/
def exponentPart : List Nat → Int × List Nat
  | c :: rest =>
    if c = 101 ∨ c = 69 then
      let (neg, r) := sign rest
      let ds := r.takeWhile isDigit
      if ds.isEmpty then (0, c :: rest)
      else
        let v : Int := digitsValue ds
        (if neg then -v else v, r.dropWhile isDigit)
    else (0, c :: rest)
  | [] => (0, [])

/-- The float grammar on prepared code points without underscores. -/
def floatOfPlain (cs : List Nat) : Option Float :=
  let (neg, cs) := sign cs
  let word := cs.map lower
  if word = [110, 97, 110] then some Binary64.nan
  else if word = [105, 110, 102] ∨ word = [105, 110, 102, 105, 110, 105, 116, 121] then
    some (Binary64.infinity neg)
  else
    let whole := cs.takeWhile isDigit
    let r := cs.dropWhile isDigit
    let (frac, r) := match r with
      | 46 :: r => (r.takeWhile isDigit, r.dropWhile isDigit)
      | r => ([], r)
    if whole.isEmpty ∧ frac.isEmpty then none
    else
      let (exp, r) := exponentPart r
      if r.isEmpty then some (scaled neg (digitsValue (whole ++ frac)) (exp - frac.length))
      else none

/-- Reads a float from text, `none` when the text is no float. -/
def readFloat? (t : Text) : Option Float :=
  (dropUnderscores false (prepared t)).bind floatOfPlain

/-- Why a text is no integer. -/
inductive IntTextError where
  | invalid
  | tooManyDigits (count : Nat)
  deriving DecidableEq, Repr

/-- The most digits an integer text may have. -/
def maxIntDigits : Nat := 4300

/-- The leading run of digits and single underscores between digits, as digits; `none` when an
underscore stands elsewhere in it. -/
def digitRun (cs : List Nat) : Option (List Nat) :=
  let run := cs.takeWhile fun c => isDigit c || c == 95
  dropUnderscores false run

/-- Reads an integer from text. The digit limit is checked on the leading run of digits before
the rest of the text is looked at. -/
def readInt (t : Text) : Except IntTextError Int :=
  let (neg, cs) := sign (prepared t)
  match digitRun cs with
  | none => .error .invalid
  | some ds =>
    if ds.length > maxIntDigits then .error (.tooManyDigits ds.length)
    else if ds.isEmpty ∨ (cs.dropWhile fun c => isDigit c || c == 95) ≠ [] then .error .invalid
    else
      let v : Int := digitsValue ds
      .ok (if neg then -v else v)

/-- Reads an integer from text, `none` when the text is no integer or has over 4300 digits. -/
def readInt? (t : Text) : Option Int :=
  match readInt t with
  | .ok n => some n
  | .error _ => none

end CacheHitRate.Decimal
