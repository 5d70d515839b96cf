import RemoteAttestation.Foundation.Decimal
import RemoteAttestation.Transport.HexUtil

/-! # The JSON class of the report body

Objects are association lists: `std::map` keeps one value a key, and the order of
the keys is only used for printing. The accessors answer for a value of any class
and may change the object they are asked of. The parser reads `str[offset]`
unchecked: the terminator after the last character is `'\0'`, anything behind it is
undefined.
-/

namespace RemoteAttestation

/-- A floating number is kept as the text of its mantissa and of its exponent. -/
inductive Json where
  | null
  | object (entries : List (Bytes × Json))
  | array (items : List Json)
  | string (text : Bytes)
  | floating (mantissa exponent : Bytes)
  | integral (value : Int)
  | boolean (value : Bool)

namespace Json

def jsonEscape (text : Bytes) : Bytes :=
  text.flatMap fun c =>
    if c = 34 then [92, 34]
    else if c = 92 then [92, 92]
    else if c = 8 then ascii "\\b"
    else if c = 12 then ascii "\\f"
    else if c = 10 then ascii "\\n"
    else if c = 13 then ascii "\\r"
    else if c = 9 then ascii "\\t"
    else [c]

/-- `ToString`: the escaped text of a string, and the empty string for every other class. -/
def toText : Json → Bytes
  | .string text => jsonEscape text
  | _ => []

/-- `ToInt`: zero for every class but `Integral`. -/
def toInt : Json → Int
  | .integral value => value
  | _ => 0

def isNull : Json → Bool
  | .null => true
  | _ => false

def hasKey (key : Bytes) : Json → Bool
  | .object entries => entries.any fun entry => entry.1 == key
  | _ => false

/-- The value `operator[]` refers to; a new entry is null. -/
def index (key : Bytes) : Json → Json
  | .object entries => ((entries.find? fun entry => entry.1 == key).map Prod.snd).getD .null
  | _ => .null

/-- What `operator[]` leaves behind: a value of another class becomes an empty
object, and a missing key is inserted. -/
def touch (key : Bytes) : Json → Json
  | .object entries =>
      if entries.any fun entry => entry.1 == key then .object entries
      else .object (entries ++ [(key, .null)])
  | _ => .object [(key, .null)]

/-- `Object[key] = value`. -/
def assign (key : Bytes) (value : Json) (entries : List (Bytes × Json)) : List (Bytes × Json) :=
  if entries.any fun entry => entry.1 == key then
    entries.map fun entry => if entry.1 == key then (key, value) else entry
  else entries ++ [(key, value)]

/-! ## Parsing -/

/-- How `JSON::Load` can fail to return: it reads behind the terminator, or the
conversion of a number throws. `fuel` is the model's own bound. -/
inductive LoadError where
  | undefined
  | uncaught
  | fuel
deriving DecidableEq

/-- A position in the text: the rest of it, or behind the terminator. -/
abbrev Cursor := Option Bytes

def peek : Cursor → Except LoadError UInt8
  | none => .error .undefined
  | some [] => .ok 0
  | some (c :: _) => .ok c

def advance : Cursor → Cursor
  | some (_ :: rest) => some rest
  | _ => none

def consumeWs : Cursor → Except LoadError Cursor
  | none => .error .undefined
  | some rest => .ok (some (rest.dropWhile isSpace))

/-- The characters of a string after its opening quote. -/
def parseString : Bytes → Bytes → Except LoadError (Json × Cursor)
  | [], _ => .error .undefined
  | c :: rest, text =>
      if c = 34 then .ok (.string text, some rest)
      else if c = 92 then
        match rest with
        | [] => .error .undefined
        | e :: after =>
            if e = 34 then parseString after (text ++ [34])
            else if e = 92 then parseString after (text ++ [92])
            else if e = 47 then parseString after (text ++ [47])
            else if e = 98 then parseString after (text ++ [8])
            else if e = 102 then parseString after (text ++ [12])
            else if e = 110 then parseString after (text ++ [10])
            else if e = 114 then parseString after (text ++ [13])
            else if e = 116 then parseString after (text ++ [9])
            else if e = 117 then
              match after with
              | h₁ :: h₂ :: h₃ :: h₄ :: behind =>
                  if [h₁, h₂, h₃, h₄].all fun h => (hexValue? h).isSome then
                    parseString behind (text ++ [92, 117, h₁, h₂, h₃, h₄])
                  else .ok (.string [], some (e :: after))
              | _ => .ok (.string [], some (e :: after))
            else parseString after (text ++ [92])
      else parseString rest (text ++ [c])

/-- `std::stol` on a text of digits and minus signs: the longest number in front. -/
def stol (text : Bytes) : Except LoadError Int :=
  let negative := text.head? = some 45
  let digits := (if negative then text.tail else text).takeWhile isDigit
  let magnitude : Nat := digitsValue digits
  let value : Int := if negative then -magnitude else magnitude
  if digits = [] ∨ value < -2 ^ 63 ∨ 2 ^ 63 ≤ value then .error .uncaught else .ok value

/-- Whether the fraction of these numbers is in the range of a `double`: `strtod` reports one that
is rounded to infinity, and one that loses digits below the normal numbers. -/
def doubleInRange (n d : Nat) : Bool :=
  n < (2 ^ 1024 - 2 ^ 970) * d &&
    (n = 0 || (2 ^ 54 - 1) * d ≤ n * 2 ^ 1076 || n * 2 ^ 1074 % d = 0)

/-- Whether `std::stod` finds a number in front of a text of digits, minus signs and
points, and does not throw. -/
def stodAccepts (text : Bytes) : Bool :=
  let unsigned := if text.head? = some 45 then text.tail else text
  let whole := unsigned.takeWhile isDigit
  let point := unsigned.dropWhile isDigit
  let fraction := if point.head? = some 46 then point.tail.takeWhile isDigit else []
  (whole ++ fraction ≠ []) && doubleInRange (digitsValue (whole ++ fraction)) (10 ^ fraction.length)

def endsNumber (c : UInt8) : Bool := isSpace c || c = 44 || c = 93 || c = 125

/-- The exponent after `E`: its text and the position of the character that ended
it, or the position after an unexpected character. -/
def parseExponent (cursor : Cursor) : Except LoadError (Cursor ⊕ Bytes × Cursor) := do
  let c ← peek cursor
  let start := if c = 45 then advance (advance cursor) else advance cursor
  match start with
  | none => .error .undefined
  | some rest =>
      let text := (if c = 45 then [45] else []) ++ rest.takeWhile isDigit
      let stop : Cursor := some (rest.dropWhile isDigit)
      let c ← peek stop
      if endsNumber c then .ok (.inr (text, stop)) else .ok (.inl (advance stop))

def parseNumber (rest : Bytes) : Except LoadError (Json × Cursor) := do
  let text := rest.takeWhile fun c => isDigit c || c = 45 || c = 46
  let isDouble := text.contains 46
  let stop : Cursor := some (rest.dropWhile fun c => isDigit c || c = 45 || c = 46)
  let c ← peek stop
  if c = 69 ∨ c = 101 then
    match ← parseExponent (advance stop) with
    | .inl after => .ok (.null, after)
    | .inr (exponent, stop) =>
        let _ ← stol exponent
        if isDouble then
          if stodAccepts text then .ok (.floating text exponent, stop) else .error .uncaught
        else
          let _ ← stol text
          .ok (.floating text exponent, stop)
  else if endsNumber c then
    if isDouble then
      if stodAccepts text then .ok (.floating text [], stop) else .error .uncaught
    else
      let value ← stol text
      .ok (.integral value, stop)
  else .ok (.null, advance stop)

def parseBool (rest : Bytes) : Json × Cursor :=
  if rest.take 4 = ascii "true" then (.boolean true, some (rest.drop 4))
  else if rest.take 5 = ascii "false" then (.boolean false, some (rest.drop 5))
  else (.null, some rest)

def parseNull (rest : Bytes) : Json × Cursor :=
  if rest.take 4 = ascii "null" then (.null, some (rest.drop 4)) else (.null, some rest)

mutual

def parseNext : Nat → Cursor → Except LoadError (Json × Cursor)
  | 0, _ => .error .fuel
  | fuel + 1, cursor => do
      match ← consumeWs cursor with
      | none => .error .undefined
      | some rest =>
          let c ← peek (some rest)
          if c = 91 then
            let cursor ← consumeWs (advance (some rest))
            if (← peek cursor) = 93 then .ok (.array [], advance cursor)
            else arrayLoop fuel [] cursor
          else if c = 123 then
            let cursor ← consumeWs (advance (some rest))
            if (← peek cursor) = 125 then .ok (.object [], advance cursor)
            else objectLoop fuel [] cursor
          else if c = 34 then parseString rest.tail []
          else if c = 116 ∨ c = 102 then .ok (parseBool rest)
          else if c = 110 then .ok (parseNull rest)
          else if isDigit c ∨ c = 45 then parseNumber rest
          else .ok (.null, some rest)

/-- The loop of `parse_object`. -/
def objectLoop : Nat → List (Bytes × Json) → Cursor → Except LoadError (Json × Cursor)
  | 0, _, _ => .error .fuel
  | fuel + 1, entries, cursor => do
      let (key, cursor) ← parseNext fuel cursor
      let cursor ← consumeWs cursor
      if (← peek cursor) ≠ 58 then .ok (.object entries, cursor)
      else
        let cursor ← consumeWs (advance cursor)
        let (value, cursor) ← parseNext fuel cursor
        let entries := assign key.toText value entries
        let cursor ← consumeWs cursor
        let c ← peek cursor
        if c = 44 then objectLoop fuel entries (advance cursor)
        else if c = 125 then .ok (.object entries, advance cursor)
        else .ok (.object entries, cursor)

/-- The loop of `parse_array`. -/
def arrayLoop : Nat → List Json → Cursor → Except LoadError (Json × Cursor)
  | 0, _, _ => .error .fuel
  | fuel + 1, items, cursor => do
      let (item, cursor) ← parseNext fuel cursor
      let cursor ← consumeWs cursor
      let c ← peek cursor
      if c = 44 then arrayLoop fuel (items ++ [item]) (advance cursor)
      else if c = 93 then .ok (.array (items ++ [item]), advance cursor)
      else .ok (.array [], cursor)

end

/-- `JSON::Load`. Two calls at most are open for each character read. -/
def load (text : Bytes) : Except LoadError Json :=
  (parseNext (2 * text.length + 4) (some text)).map Prod.fst

end Json

end RemoteAttestation
