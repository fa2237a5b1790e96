import CacheHitRate.Json.Reader
import CacheHitRate.Json.Writer
/-!
Where the monitor's on/off switch is persisted. A memory store holds any value and hands it
back as it is. A file store holds a small JSON document: loading gives true only when the file
holds an object whose `enabled` member is the literal `true`, and false for a missing, blocked
or unreadable file; a document on which the reader overflows its stack is not caught and fails
the load. Saving writes `{"enabled": v}`, and fails when the file's directory cannot be made (a
blocked path).

A file's text is kept as the code points written to it. Surrogate code points are written as
their three UTF-8 bytes, which a strict decoder rejects: such a file cannot be read back, and a
writer that encodes strictly refuses the text in the first place.
-/
namespace CacheHitRate

inductive FlagStore where
  | memory (value : Json)
  /-- A JSON file: its text, if it exists, and whether its directory is blocked by a file. -/
  | file (text : Option Text) (blocked : Bool)

namespace FlagStore

/-- The arrays and objects a load on its own may have open at once. -/
def loadDepth : Nat := 989

/-- Whether a code point is a surrogate, which UTF-8 cannot hold. -/
def isSurrogate (c : Nat) : Bool := 0xD800 ≤ c && c ≤ 0xDFFF

/-- The bytes a code point takes in UTF-8; a surrogate takes three, like its neighbours below
`0x10000`. -/
def utf8Width (c : Nat) : Nat :=
  if c < 0x80 then 1 else if c < 0x800 then 2 else if c < 0x10000 then 3 else 4

/-- Why the bytes of a file are not UTF-8: the lead byte `0xED` of the first surrogate, at byte
`position`, is followed by a byte above `0x9F`. -/
structure DecodeFault where
  position : Nat
  deriving DecidableEq, Repr

def DecodeFault.message (f : DecodeFault) : String :=
  "'utf-8' codec can't decode byte 0xed in position " ++ toString f.position ++
    ": invalid continuation byte"

/-- Line ends as a text reader sees them: a carriage return, alone or before a line feed, is a
line feed. -/
def normalizeLineEnds : List Nat → List Nat
  | [] => []
  | 13 :: 10 :: rest => 10 :: normalizeLineEnds rest
  | 13 :: rest => 10 :: normalizeLineEnds rest
  | c :: rest => c :: normalizeLineEnds rest

/-- Reads a file's text back as strict UTF-8 with universal line ends; the first surrogate
stops it at its byte offset. -/
def decode (t : Text) : Except DecodeFault Text :=
  match t.points.findIdx? isSurrogate with
  | some i => .error ⟨((t.points.take i).map utf8Width).foldr (· + ·) 0⟩
  | none => .ok ⟨normalizeLineEnds t.points⟩

/-- Why a text cannot be written as strict UTF-8: its first run of surrogates, from index
`start` up to but not including `stop`, and the run's first code point. -/
structure EncodeFault where
  start : Nat
  stop : Nat
  first : Nat
  deriving DecidableEq, Repr

/-- The message names the surrogate when the run has one, and the range of indices otherwise. -/
def EncodeFault.message (f : EncodeFault) : String :=
  if f.stop = f.start + 1 then
    "'utf-8' codec can't encode character '\\u" ++ String.ofList ((Json.hex4 f.first).map Char.ofNat) ++
      "' in position " ++ toString f.start ++ ": surrogates not allowed"
  else
    "'utf-8' codec can't encode characters in position " ++ toString f.start ++ "-" ++
      toString (f.stop - 1) ++ ": surrogates not allowed"

/-- The first run of surrogates in a text, if any: strict UTF-8 cannot write it. -/
def encodeFault? (t : Text) : Option EncodeFault :=
  match t.points.findIdx? isSurrogate with
  | none => none
  | some i =>
    let run := ((t.points.drop i).takeWhile isSurrogate)
    some ⟨i, i + run.length, (run.head?).getD 0⟩

/-- Whether a file text holds an object whose `enabled` member is `true`, read with a budget
of `limit` arrays and objects; a text that cannot be decoded gives false, an overflow fails. -/
def enabledIn (limit : Nat) (t : Text) : Except Json.Overflow Bool :=
  match decode t with
  | .error _ => .ok false
  | .ok text =>
    match Json.read limit text with
    | .ok (.obj fields) =>
      match fields.lookup (Text.ofString "enabled") with
      | some (.bool true) => .ok true
      | _ => .ok false
    | .ok _ => .ok false
    | .error .invalid => .ok false
    | .error (.overflow e) => .error e

/-- The stored value, reading a file with a budget of `limit` arrays and objects. -/
def load (limit : Nat) : FlagStore → Except Json.Overflow Json
  | .memory v => .ok v
  | .file (some t) false => .bool <$> enabledIn limit t
  | .file _ _ => .ok (.bool false)

/-- The document that saving `v` writes. -/
def document (v : Json) : Text := Json.render (.obj [(Text.ofString "enabled", v)])

/-- Stores a value; `none` when the file cannot be written. -/
def save (v : Json) : FlagStore → Option FlagStore
  | .memory _ => some (.memory v)
  | .file _ false => some (.file (some (document v)) false)
  | .file _ true => none

/-- Stores a value, leaving the store as it was when it cannot be written. -/
def saveOrKeep (v : Json) (s : FlagStore) : FlagStore := (s.save v).getD s

/-- The file's text as read back, `none` when there is no file; a text that is not UTF-8 fails. -/
def readText : FlagStore → Except DecodeFault (Option Text)
  | .file (some t) false => some <$> decode t
  | _ => .ok none

theorem load_save_file (limit : Nat) (v : Json) :
    (save v (.file none false)).map (load limit) =
      some (.bool <$> enabledIn limit (document v)) := rfl

end FlagStore

end CacheHitRate
