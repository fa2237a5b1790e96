import CacheHitRate.Json.Basic
import CacheHitRate.Number.Shortest
/-!
Writing JSON text in ASCII. Members and items are separated by a comma and a space, a name
from its value by a colon and a space. Every code point outside printable ASCII is escaped:
quote, backslash and five control characters by a letter, the rest as `\uXXXX` in lower-case
hex, code points beyond the BMP as a surrogate pair. Binary64 values have their shortest text,
and NaN and the infinities are written `NaN`, `Infinity` and `-Infinity`.
-/
namespace CacheHitRate.Json

/-- How numbers are written in JSON text. -/
def numberNotation : Shortest.Notation := ⟨-4, 16, 2, "NaN", "Infinity"⟩

def hex4 (n : Nat) : List Nat :=
  let digit (d : Nat) : Nat := if d < 10 then 48 + d else 87 + d
  [digit (n / 4096 % 16), digit (n / 256 % 16), digit (n / 16 % 16), digit (n % 16)]

/-- The escaped form of one code point inside a JSON string. -/
def escapePoint (c : Nat) : List Nat :=
  if c = 34 then [92, 34]
  else if c = 92 then [92, 92]
  else if c = 10 then [92, 110]
  else if c = 13 then [92, 114]
  else if c = 9 then [92, 116]
  else if c = 8 then [92, 98]
  else if c = 12 then [92, 102]
  else if 32 ≤ c ∧ c < 127 then [c]
  else if c < 0x10000 then 92 :: 117 :: hex4 c
  else
    let v := c - 0x10000
    (92 :: 117 :: hex4 (0xD800 + v / 0x400)) ++ (92 :: 117 :: hex4 (0xDC00 + v % 0x400))

/-- A string literal: the text quoted and escaped. -/
def quote (t : Text) : List Nat := 34 :: t.points.flatMap escapePoint ++ [34]

def ascii (s : String) : List Nat := s.toList.map Char.toNat

mutual
def write : Json → List Nat
  | .null => ascii "null"
  | .bool b => ascii (if b then "true" else "false")
  | .int n => ascii (toString n)
  | .float x => ascii (Shortest.render numberNotation x)
  | .str s => quote s
  | .arr items => 91 :: writeItems items ++ [93]
  | .obj fields => 123 :: writeFields fields ++ [125]

def writeItems : List Json → List Nat
  | [] => []
  | [v] => write v
  | v :: rest => write v ++ [44, 32] ++ writeItems rest

def writeFields : List (Text × Json) → List Nat
  | [] => []
  | [(k, v)] => quote k ++ [58, 32] ++ write v
  | (k, v) :: rest => quote k ++ [58, 32] ++ write v ++ [44, 32] ++ writeFields rest
end

def render (v : Json) : Text := ⟨write v⟩

end CacheHitRate.Json
