import CacheHitRate.Json.Basic
import CacheHitRate.Number.Decimal
/-!
Reading JSON text. A lexer walks the code points once, as an automaton, and yields tokens; a
parser folds over the tokens with a stack of open arrays and objects. The dialect is strict JSON
with three more words, `NaN`, `Infinity` and `-Infinity`:

- white space is space, tab, line feed and carriage return, before and after the document;
- a string may not hold a raw control character; `\uXXXX` escapes may give lone surrogates,
  and an escaped high surrogate followed by an escaped low one is one code point;
- a number without fraction or exponent is an integer of at most 4300 digits, any other is
  rounded once to binary64 (too large gives infinity);
- a repeated member name keeps its first place and its last value.

A reader runs on a stack of limited size: its budget is the number of arrays and objects it can
have open at once, and one more overflows the stack. Faults are met in the order of the text,
in two kinds. Where a value should start, a fault is reported from the top of the stack, so it
never overflows it. A fault in the structure of an open array or object (a missing comma, colon
or member name, a broken string, the end of the text after a value) is reported from inside the
nesting, and the report needs three more nested calls; when fewer are left, the report itself
overflows the stack. The words `NaN`, `Infinity` and `-Infinity` get their value from a call one
level deeper than the place they stand, which overflows a full stack.
-/
namespace CacheHitRate.Json

/-- How reading can overflow the stack: one array or object too many (`object` tells which
kind), or the report of a fault that has too little room left (`inCall` tells whether it fails
in a call, or in entering the report's own code). -/
inductive Overflow where
  | nesting (object : Bool)
  | report (inCall : Bool)
  deriving DecidableEq, Repr

def Overflow.message : Overflow → String
  | .nesting o => "maximum recursion depth exceeded while decoding a JSON " ++
      (if o then "object" else "array") ++ " from a unicode string"
  | .report false => "maximum recursion depth exceeded"
  | .report true => "maximum recursion depth exceeded while calling a Python object"

/-- Why a text is no document. -/
inductive ReadError where
  | invalid
  | overflow (o : Overflow)
  deriving DecidableEq, Repr

/-- Where reading stops on a text that is no document. -/
inductive Fault where
  /-- A fault where a value should start, in a word or number that starts no value, or in an
  integer of more than 4300 digits. -/
  | value
  /-- A fault in the structure of the array or object open at depth `level`, or of the text
  after a complete document when `level` is 0. -/
  | structure (level : Nat)
  /-- One array or object more than the budget; `object` tells which kind. -/
  | nesting (object : Bool)
  /-- A word `NaN`, `Infinity` or `-Infinity` read with the budget full: its value comes from a
  call, one level deeper than the arrays and objects open around it. -/
  | deepCall
  deriving DecidableEq, Repr

/-- What a fault means for a reader whose budget is `limit`. A structural fault at depth `d`
leaves `limit - d` nested calls for its report, which needs three: with none or two left the
report fails in a call, with one left in entering its own code. -/
def Fault.toError (limit : Nat) : Fault → ReadError
  | .value => .invalid
  | .nesting o => .overflow (.nesting o)
  | .deepCall => .overflow (.report true)
  | .structure d =>
    if d = limit then .overflow (.report true)
    else if d + 1 = limit then .overflow (.report false)
    else if d + 2 = limit then .overflow (.report true)
    else .invalid

inductive Token where
  | openArr
  | closeArr
  | openObj
  | closeObj
  | comma
  | colon
  | str (t : Text)
  | num (cs : List Nat)
  | word (cs : List Nat)

/-- Where the lexer is: between tokens, inside a number or a word (the code points so far,
last first), or inside a string. In a string, `acc` holds the code points so far (last first)
and `high` tells whether the last one is a high surrogate written as an escape. -/
inductive LexState where
  | between
  | number (acc : List Nat)
  | word (acc : List Nat)
  | string (acc : List Nat) (high : Bool)
  | escape (acc : List Nat) (high : Bool)
  | hex (acc : List Nat) (high : Bool) (digits : List Nat)

def isLetter (c : Nat) : Bool := (65 ≤ c && c ≤ 90) || (97 ≤ c && c ≤ 122)

def isNumberChar (c : Nat) : Bool :=
  Decimal.isDigit c || c == 43 || c == 45 || c == 46 || c == 69 || c == 101

def hexValue? (c : Nat) : Option Nat :=
  if 48 ≤ c ∧ c ≤ 57 then some (c - 48)
  else if 65 ≤ c ∧ c ≤ 70 then some (c - 55)
  else if 97 ≤ c ∧ c ≤ 102 then some (c - 87)
  else none

/-- The state after reading `c` between tokens, with the tokens it completes (last first). -/
def startToken (c : Nat) (out : List Token) : Option (LexState × List Token) :=
  if c = 32 ∨ c = 9 ∨ c = 10 ∨ c = 13 then some (.between, out)
  else if c = 91 then some (.between, .openArr :: out)
  else if c = 93 then some (.between, .closeArr :: out)
  else if c = 123 then some (.between, .openObj :: out)
  else if c = 125 then some (.between, .closeObj :: out)
  else if c = 44 then some (.between, .comma :: out)
  else if c = 58 then some (.between, .colon :: out)
  else if c = 34 then some (.string [] false, out)
  else if c = 45 ∨ Decimal.isDigit c then some (.number [c], out)
  else if isLetter c then some (.word [c], out)
  else none

/-- Appends the code point of a finished `\u` escape, joining it to an escaped high surrogate
just before it when it is a low one. -/
def pushEscaped (acc : List Nat) (high : Bool) (u : Nat) : LexState :=
  match acc, high with
  | h :: rest, true =>
    if 0xDC00 ≤ u ∧ u ≤ 0xDFFF then
      .string ((0x10000 + (h - 0xD800) * 0x400 + (u - 0xDC00)) :: rest) false
    else .string (u :: acc) (0xD800 ≤ u ∧ u ≤ 0xDBFF)
  | _, _ => .string (u :: acc) (0xD800 ≤ u ∧ u ≤ 0xDBFF)

/-- The meaning of `\c` for the one-letter escapes. -/
def shortEscape? (c : Nat) : Option Nat :=
  if c = 34 then some 34
  else if c = 92 then some 92
  else if c = 47 then some 47
  else if c = 98 then some 8
  else if c = 102 then some 12
  else if c = 110 then some 10
  else if c = 114 then some 13
  else if c = 116 then some 9
  else none

def lexStep (st : LexState × List Token) (c : Nat) : Option (LexState × List Token) :=
  let (state, out) := st
  match state with
  | .between => startToken c out
  | .number acc =>
    if isNumberChar c then some (.number (c :: acc), out)
    else if acc = [45] ∧ c = 73 then some (.word [73, 45], out)
    else startToken c (.num acc.reverse :: out)
  | .word acc =>
    if isLetter c then some (.word (c :: acc), out)
    else startToken c (.word acc.reverse :: out)
  | .string acc high =>
    if c = 34 then some (.between, .str ⟨acc.reverse⟩ :: out)
    else if c = 92 then some (.escape acc high, out)
    else if c < 32 then none
    else some (.string (c :: acc) false, out)
  | .escape acc high =>
    if c = 117 then some (.hex acc high [], out)
    else (shortEscape? c).map fun e => (.string (e :: acc) false, out)
  | .hex acc high ds =>
    match hexValue? c with
    | none => none
    | some v =>
      let ds := v :: ds
      if ds.length = 4 then
        some (pushEscaped acc high (ds.reverse.foldl (fun n d => 16 * n + d) 0), out)
      else some (.hex acc high ds, out)

/-- How the lexer ended: on the last code point, on a code point between tokens that starts
none, or inside a broken string (a raw control character, a bad escape, or the end of the text
inside it). -/
inductive ScanEnd where
  | complete
  | stray
  | brokenString
  deriving DecidableEq

/-- The tokens completed when the lexer stops in `state`: a number or word in progress is
complete. -/
def pending (state : LexState) (out : List Token) : List Token :=
  match state with
  | .number acc => .num acc.reverse :: out
  | .word acc => .word acc.reverse :: out
  | _ => out

def LexState.inString : LexState → Bool
  | .string _ _ | .escape _ _ | .hex _ _ _ => true
  | _ => false

/-- One step of the lexer over a text that may already have stopped; a stopped text keeps the
tokens completed before the code point that fits none, and how it stopped. -/
def scanStep : (LexState × List Token) ⊕ (List Token × ScanEnd) → Nat →
    (LexState × List Token) ⊕ (List Token × ScanEnd)
  | .inl (state, out), c =>
    match lexStep (state, out) c with
    | some st' => .inl st'
    | none => .inr (pending state out, if state.inString then .brokenString else .stray)
  | .inr r, _ => .inr r

def scan (cs : List Nat) : List Token × ScanEnd :=
  match cs.foldl scanStep (.inl (.between, [])) with
  | .inl (state, out) =>
    ((pending state out).reverse, if state.inString then .brokenString else .complete)
  | .inr (out, e) => (out.reverse, e)

/-- The tokens of a text, `none` when some code point fits no token. -/
def tokens (cs : List Nat) : Option (List Token) :=
  match scan cs with
  | (ts, .complete) => some ts
  | _ => none

/-- The value of a number token: `-? (0 | [1-9][0-9]*) (. [0-9]+)? ([eE] [+-]? [0-9]+)?`. -/
def numberValue? (cs : List Nat) : Option Json :=
  let (neg, cs) := match cs with
    | 45 :: rest => (true, rest)
    | rest => (false, rest)
  let whole := cs.takeWhile Decimal.isDigit
  let rest := cs.dropWhile Decimal.isDigit
  let wholeOk := match whole with
    | [] => false
    | [_] => true
    | d :: _ => d != 48
  let (frac, rest, fracOk) := match rest with
    | 46 :: r => (r.takeWhile Decimal.isDigit, r.dropWhile Decimal.isDigit,
        !(r.takeWhile Decimal.isDigit).isEmpty)
    | r => ([], r, true)
  let (exp, rest, expPart) := match rest with
    | c :: r =>
      if c = 101 ∨ c = 69 then
        let (eneg, r) := match r with
          | 45 :: r' => (true, r')
          | 43 :: r' => (false, r')
          | r' => (false, r')
        let ds := r.takeWhile Decimal.isDigit
        let v : Int := Decimal.digitsValue ds
        (some (if eneg then -v else v), r.dropWhile Decimal.isDigit, !ds.isEmpty)
      else (none, c :: r, true)
    | [] => (none, [], true)
  if !(wholeOk && fracOk && expPart && rest.isEmpty) then none
  else if frac.isEmpty ∧ exp.isNone then
    if whole.length > 4300 then none
    else
      let v : Int := Decimal.digitsValue whole
      some (.int (if neg then -v else v))
  else
    some (.float (Decimal.scaled neg (Decimal.digitsValue (whole ++ frac))
      (exp.getD 0 - frac.length)))

def wordValue? (cs : List Nat) : Option Json :=
  let w := String.ofList (cs.map Char.ofNat)
  if w = "true" then some (.bool true)
  else if w = "false" then some (.bool false)
  else if w = "null" then some .null
  else if w = "NaN" then some (.float Binary64.nan)
  else if w = "Infinity" then some (.float (Binary64.infinity false))
  else if w = "-Infinity" then some (.float (Binary64.infinity true))
  else none

/-- Whether a number token that is no number starts with one that a reader takes before it
stops at the rest: an optional minus, then `0` or digits not starting with `0`, then an optional
point with digits and an optional exponent with digits; an integer taken so must have at most
4300 digits, or reading fails on it first. -/
def numberStops (cs : List Nat) : Bool :=
  let body := match cs with
    | 45 :: r => r
    | r => r
  match body with
  | [] => false
  | d :: rest =>
    if !Decimal.isDigit d then false
    else
      let intLength := if d = 48 then 1 else 1 + (rest.takeWhile Decimal.isDigit).length
      let after := body.drop intLength
      let (frac, afterFrac) := match after with
        | 46 :: e :: r => if Decimal.isDigit e then (true, r.dropWhile Decimal.isDigit)
          else (false, after)
        | _ => (false, after)
      let exp := match afterFrac with
        | e :: r =>
          (e = 101 ∨ e = 69) &&
            match r with
            | s :: x :: _ => if s = 43 ∨ s = 45 then Decimal.isDigit x else Decimal.isDigit s
            | [x] => Decimal.isDigit x
            | [] => false
        | [] => false
      frac || exp || intLength ≤ 4300

/-- Whether a word token that is no value starts with one: a reader takes the value and stops
at the rest. -/
def wordStops (cs : List Nat) : Bool :=
  ["true", "false", "null", "NaN", "Infinity", "-Infinity"].any fun w =>
    (w.toList.map Char.toNat).isPrefixOf cs

/-- Whether a word token starts with `NaN`, `Infinity` or `-Infinity`, the words whose value a
reader gets by a call as soon as it has read them, whatever follows. -/
def startsConstant (cs : List Nat) : Bool :=
  ["NaN", "Infinity", "-Infinity"].any fun w => (w.toList.map Char.toNat).isPrefixOf cs

/-- An open array (items so far, last first) or object (members so far, and the name read
before a colon). -/
inductive Frame where
  | arr (items : List Json)
  | obj (fields : List (Text × Json)) (key : Option Text)

/-- What the parser expects next. -/
inductive Mode where
  /-- A value; `close` allows the end of an empty array instead. -/
  | value (close : Bool)
  | after
  /-- A member name; `close` allows the end of an empty object instead. -/
  | key (close : Bool)
  | colon
  /-- The document is complete. -/
  | done (v : Json)

/-- Places a finished value into the innermost open array or object. -/
def place (v : Json) : List Frame → Except Fault (List Frame × Mode)
  | [] => .ok ([], .done v)
  | .arr items :: rest => .ok (.arr (v :: items) :: rest, .after)
  | .obj fields (some k) :: rest => .ok (.obj (setMember k v fields) none :: rest, .after)
  | .obj _ none :: _ => .error .value

/-- Opens an array or object, refusing to have more than `limit` open at once. -/
def openFrame (limit : Nat) (f : Frame) (m : Mode) (stack : List Frame) :
    Except Fault (List Frame × Mode) :=
  if stack.length < limit then .ok (f :: stack, m)
  else .error (.nesting (match f with | .obj _ _ => true | .arr _ => false))

/-- Closes the innermost array or object; a bracket of the other kind is a structural fault. -/
def closeFrame (obj : Bool) (stack : List Frame) : Except Fault (List Frame × Mode) :=
  match stack with
  | .arr items :: rest => if obj then .error (.structure stack.length) else place (.arr items.reverse) rest
  | .obj fields none :: rest =>
    if obj then place (.obj fields) rest else .error (.structure stack.length)
  | _ => .error .value

/-- Places a number token's value, or tells which fault it is. -/
def placeNumber (cs : List Nat) (stack : List Frame) : Except Fault (List Frame × Mode) :=
  match numberValue? cs with
  | some v => place v stack
  | none => .error (if numberStops cs then .structure stack.length else .value)

/-- Places a word token's value, or tells which fault it is. A word that starts with a constant
needs a call, which overflows a full budget before anything after the constant is looked at. -/
def placeWord (limit : Nat) (cs : List Nat) (stack : List Frame) :
    Except Fault (List Frame × Mode) :=
  if startsConstant cs && limit ≤ stack.length then .error .deepCall
  else
    match wordValue? cs with
    | some v => place v stack
    | none => .error (if wordStops cs then .structure stack.length else .value)

/-- One step of the parser, with at most `limit` arrays and objects open at once. -/
def parseStep (limit : Nat) (st : List Frame × Mode) (t : Token) :
    Except Fault (List Frame × Mode) :=
  let (stack, mode) := st
  match mode, t with
  | .value _, .openArr => openFrame limit (.arr []) (.value true) stack
  | .value _, .openObj => openFrame limit (.obj [] none) (.key true) stack
  | .value _, .str s => place (.str s) stack
  | .value _, .num cs => placeNumber cs stack
  | .value _, .word cs => placeWord limit cs stack
  | .value true, .closeArr => closeFrame false stack
  | .value _, _ => .error .value
  | .after, .comma =>
    match stack with
    | .arr _ :: _ => .ok (stack, .value false)
    | .obj _ _ :: _ => .ok (stack, .key false)
    | [] => .error .value
  | .after, .closeArr => closeFrame false stack
  | .after, .closeObj => closeFrame true stack
  | .key _, .str k =>
    match stack with
    | .obj fields _ :: rest => .ok (.obj fields (some k) :: rest, .colon)
    | _ => .error .value
  | .key true, .closeObj => closeFrame true stack
  | .colon, .colon => .ok (stack, .value false)
  | .done _, _ => .error (.structure 0)
  | _, _ => .error (.structure stack.length)

/-- The fault where the text ends or stops fitting tokens, after the tokens were read into
`stack` and `mode`: where a value should start it is a value fault, anywhere else a fault of
the structure around it. A broken string is a structural fault wherever it stands. -/
def stopFault (stack : List Frame) (mode : Mode) (e : ScanEnd) : Fault :=
  match e, mode with
  | .brokenString, .done _ => .structure 0
  | .brokenString, _ => .structure stack.length
  | _, .value _ => .value
  | _, .done _ => .structure 0
  | _, _ => .structure stack.length

/-- Reads a JSON document from code points, meeting faults in the order of the text. -/
def parsePoints (limit : Nat) (cs : List Nat) : Except Fault Json :=
  let (ts, e) := scan cs
  match ts.foldlM (parseStep limit) ([], .value false) with
  | .error f => .error f
  | .ok (_, .done v) => if e = .complete then .ok v else .error (stopFault [] (.done v) e)
  | .ok (stack, mode) => .error (stopFault stack mode e)

/-- Reads a JSON document from code points with a budget of `limit` arrays and objects open at
once. -/
def readPoints (limit : Nat) (cs : List Nat) : Except ReadError Json :=
  match parsePoints limit cs with
  | .ok v => .ok v
  | .error f => .error (f.toError limit)

/-- Reads a JSON document from text with a budget of `limit` arrays and objects open at once. -/
def read (limit : Nat) (t : Text) : Except ReadError Json := readPoints limit t.points

/-- Reads a JSON document from text; `none` when it is no document or overflows a budget of
`limit`. -/
def read? (limit : Nat) (t : Text) : Option Json :=
  match read limit t with
  | .ok v => some v
  | .error _ => none

end CacheHitRate.Json
