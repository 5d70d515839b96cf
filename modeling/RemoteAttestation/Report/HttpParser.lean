import RemoteAttestation.Foundation.Decimal
import RemoteAttestation.Report.IasRequest

/-! # The parser of HTTP responses

`HttpResponseParser` is a state machine over the bytes of a response. A `char` is signed, so
the bytes from 128 on are neither characters nor control characters in its sense. The size of
two reservations comes from the response itself; one that is not granted is an exception that
nobody catches.
-/

namespace RemoteAttestation

/-- `httpparser::Response`. -/
structure HttpResponse extends Response where
  versionMajor : Int
  versionMinor : Int
  keepAlive : Bool
  status : Bytes
deriving DecidableEq

/-- A response as its constructor leaves it. -/
def HttpResponse.fresh : HttpResponse where
  statusCode := 0
  headers := []
  content := []
  versionMajor := 0
  versionMinor := 0
  keepAlive := false
  status := []

inductive HttpState where
  | responseStatusStart
  | responseHttpVersion_ht
  | responseHttpVersion_htt
  | responseHttpVersion_http
  | responseHttpVersion_slash
  | responseHttpVersion_majorStart
  | responseHttpVersion_major
  | responseHttpVersion_minorStart
  | responseHttpVersion_minor
  | responseHttpVersion_statusCodeStart
  | responseHttpVersion_statusCode
  | responseHttpVersion_statusTextStart
  | responseHttpVersion_statusText
  | responseHttpVersion_newLine
  | headerLineStart
  | headerLws
  | headerName
  | spaceBeforeHeaderValue
  | headerValue
  | expectingNewline_2
  | expectingNewline_3
  | post
  | chunkSize
  | chunkExtensionName
  | chunkExtensionValue
  | chunkSizeNewLine
  | chunkSizeNewLine_2
  | chunkSizeNewLine_3
  | chunkTrailerName
  | chunkTrailerValue
  | chunkDataNewLine_1
  | chunkDataNewLine_2
  | chunkData
deriving DecidableEq

structure HttpResponseParser where
  state : HttpState
  contentSize : Nat
  chunkSizeStr : Bytes
  chunkSize : Nat
  chunked : Bool
deriving DecidableEq

def HttpResponseParser.fresh : HttpResponseParser := ⟨.responseStatusStart, 0, [], 0, false⟩

inductive ParseResult where
  | parsingCompleted
  | parsingIncompleted
  | parsingError
deriving DecidableEq

/-! ## Characters -/

def isChar (c : UInt8) : Bool := c ≤ 127

def isControl (c : UInt8) : Bool := c ≤ 31 || c = 127

/-- The characters `( ) < > @ , ; : \ " / [ ] ? = { }`, space and tab. -/
def isSpecial (c : UInt8) : Bool :=
  [40, 41, 60, 62, 64, 44, 59, 58, 92, 34, 47, 91, 93, 63, 61, 123, 125, 32, 9].contains c

def isAlpha (c : UInt8) : Bool := (65 ≤ c && c ≤ 90) || (97 ≤ c && c ≤ 122)

def isAlnum (c : UInt8) : Bool := isAlpha c || isDigit c

/-- `strcasecmp` of two strings without a NUL returns 0. -/
def sameIgnoringCase (left right : Bytes) : Bool := left.map toUpper = right.map toUpper

/-- `atoi` of a text, converted to a `size_t`. -/
def atoiSize (text : Bytes) : Nat :=
  if atoi text < 2 ^ 31 then atoi text else atoi text + (2 ^ 64 - 2 ^ 32)

/-- `strtol` in base 16 of a text that has neither white space nor a sign. -/
def strtolHex (text : Bytes) : Nat :=
  let digits := match text with
    | 48 :: x :: rest =>
        if (x = 120 ∨ x = 88) ∧ (rest.head?.bind hexValue?).isSome then rest else text
    | _ => text
  let value := (digits.map hexValue?).takeWhile Option.isSome
  min (value.foldl (fun value digit => 16 * value + (digit.getD 0).toNat) 0) (2 ^ 63 - 1)

/-- An assignment through `headers.back()`. -/
def updateBack {α : Type} (f : α → α) : List α → List α
  | [] => []
  | [last] => [f last]
  | first :: second :: rest => first :: updateBack f (second :: rest)

/-! ## One character -/

/-- What `consume` does with a character: it goes on, it goes on if the content can be given
room for so many bytes, or it returns. -/
inductive ParseStep where
  | next (parser : HttpResponseParser) (resp : HttpResponse)
  | reserve (size : Nat) (parser : HttpResponseParser) (resp : HttpResponse)
  | done (result : ParseResult) (resp : HttpResponse)

def HttpResponse.keepsAlive (resp : HttpResponse) : Bool :=
  match resp.headers.find? fun item => sameIgnoringCase item.1 (ascii "Connection") with
  | some item => sameIgnoringCase item.2 (ascii "Keep-Alive")
  | none =>
      resp.versionMajor > 1 || (resp.versionMajor = 1 && resp.versionMinor = 1) || resp.keepAlive

/-- A decimal digit behind a number of type `int`. -/
def appendDigit (value : Int) (input : UInt8) : Int :=
  Int.bmod (value * 10 + (input.toNat - 48 : Nat)) (2 ^ 32)

namespace HttpResponse

def pushHeader (resp : HttpResponse) (input : UInt8) : HttpResponse :=
  { resp with headers := resp.headers ++ [([input], [])] }

def pushName (resp : HttpResponse) (input : UInt8) : HttpResponse :=
  { resp with headers := updateBack (fun item => (item.1 ++ [input], item.2)) resp.headers }

def pushValue (resp : HttpResponse) (input : UInt8) : HttpResponse :=
  { resp with headers := updateBack (fun item => (item.1, item.2 ++ [input])) resp.headers }

def pushContent (resp : HttpResponse) (input : UInt8) : HttpResponse :=
  { resp with content := resp.content ++ [input] }

def pushStatus (resp : HttpResponse) (input : UInt8) : HttpResponse :=
  { resp with status := resp.status ++ [input] }

end HttpResponse

namespace HttpResponseParser

/-- The body of the loop of `consume`. -/
def step (parser : HttpResponseParser) (resp : HttpResponse) (input : UInt8) : ParseStep :=
  let error := ParseStep.done .parsingError resp
  let goto := fun state => ParseStep.next { parser with state } resp
  match parser.state with
  | .responseStatusStart => if input = 72 then goto .responseHttpVersion_ht else error
  | .responseHttpVersion_ht => if input = 84 then goto .responseHttpVersion_htt else error
  | .responseHttpVersion_htt => if input = 84 then goto .responseHttpVersion_http else error
  | .responseHttpVersion_http => if input = 80 then goto .responseHttpVersion_slash else error
  | .responseHttpVersion_slash =>
      if input = 47 then
        .next { parser with state := .responseHttpVersion_majorStart }
          { resp with versionMajor := 0, versionMinor := 0 }
      else error
  | .responseHttpVersion_majorStart =>
      if isDigit input then
        .next { parser with state := .responseHttpVersion_major }
          { resp with versionMajor := appendDigit 0 input }
      else error
  | .responseHttpVersion_major =>
      if input = 46 then goto .responseHttpVersion_minorStart
      else if isDigit input then
        .next parser { resp with versionMajor := appendDigit resp.versionMajor input }
      else error
  | .responseHttpVersion_minorStart =>
      if isDigit input then
        .next { parser with state := .responseHttpVersion_minor }
          { resp with versionMinor := appendDigit 0 input }
      else error
  | .responseHttpVersion_minor =>
      if input = 32 then
        .next { parser with state := .responseHttpVersion_statusCodeStart }
          { resp with statusCode := 0 }
      else if isDigit input then
        .next parser { resp with versionMinor := appendDigit resp.versionMinor input }
      else error
  | .responseHttpVersion_statusCodeStart =>
      if isDigit input then
        .next { parser with state := .responseHttpVersion_statusCode }
          { resp with statusCode := input.toNat - 48 }
      else error
  | .responseHttpVersion_statusCode =>
      if isDigit input then
        .next parser
          { resp with statusCode := (resp.statusCode * 10 + (input.toNat - 48)) % 2 ^ 32 }
      else if resp.statusCode < 100 ∨ 999 < resp.statusCode then error
      else if input = 32 then goto .responseHttpVersion_statusTextStart
      else error
  | .responseHttpVersion_statusTextStart =>
      if isChar input then
        .next { parser with state := .responseHttpVersion_statusText } (resp.pushStatus input)
      else error
  | .responseHttpVersion_statusText =>
      if input = 13 then goto .responseHttpVersion_newLine
      else if isChar input then .next parser (resp.pushStatus input)
      else error
  | .responseHttpVersion_newLine => if input = 10 then goto .headerLineStart else error
  | .headerLineStart =>
      if input = 13 then goto .expectingNewline_3
      else if resp.headers ≠ [] ∧ (input = 32 ∨ input = 9) then goto .headerLws
      else if !isChar input || isControl input || isSpecial input then error
      else .next { parser with state := .headerName } (resp.pushHeader input)
  | .headerLws =>
      if input = 13 then goto .expectingNewline_2
      else if input = 32 ∨ input = 9 then .next parser resp
      else if isControl input then error
      else .next { parser with state := .headerValue } (resp.pushValue input)
  | .headerName =>
      if input = 58 then goto .spaceBeforeHeaderValue
      else if !isChar input || isControl input || isSpecial input then error
      else .next parser (resp.pushName input)
  | .spaceBeforeHeaderValue => if input = 32 then goto .headerValue else error
  | .headerValue =>
      if input = 13 then
        let (name, value) := resp.headers.getLastD ([], [])
        if sameIgnoringCase name (ascii "Content-Length") then
          .reserve (atoiSize value)
            { parser with state := .expectingNewline_2, contentSize := atoiSize value } resp
        else if sameIgnoringCase name (ascii "Transfer-Encoding") then
          .next
            { parser with
              state := .expectingNewline_2
              chunked := sameIgnoringCase value (ascii "chunked") || parser.chunked } resp
        else goto .expectingNewline_2
      else if isControl input then error
      else .next parser (resp.pushValue input)
  | .expectingNewline_2 => if input = 10 then goto .headerLineStart else error
  | .expectingNewline_3 =>
      let resp := { resp with keepAlive := resp.keepsAlive }
      -- The character is looked at only when nothing follows it.
      if parser.chunked then .next { parser with state := .chunkSize } resp
      else if parser.contentSize = 0 then
        .done (if input = 10 then .parsingCompleted else .parsingError) resp
      else .next { parser with state := .post } resp
  | .post =>
      let contentSize := (parser.contentSize + (2 ^ 64 - 1)) % 2 ^ 64
      if contentSize = 0 then .done .parsingCompleted (resp.pushContent input)
      else .next { parser with contentSize } (resp.pushContent input)
  | .chunkSize =>
      if isAlnum input then
        .next { parser with chunkSizeStr := parser.chunkSizeStr ++ [input] } resp
      else if input = 59 then goto .chunkExtensionName
      else if input = 13 then goto .chunkSizeNewLine
      else error
  | .chunkExtensionName =>
      if isAlnum input || input = 32 then .next parser resp
      else if input = 61 then goto .chunkExtensionValue
      else if input = 13 then goto .chunkSizeNewLine
      else error
  | .chunkExtensionValue =>
      if isAlnum input || input = 32 then .next parser resp
      else if input = 13 then goto .chunkSizeNewLine
      else error
  | .chunkSizeNewLine =>
      if input = 10 then
        let chunkSize := strtolHex parser.chunkSizeStr
        .reserve ((resp.content.length + chunkSize) % 2 ^ 64)
          { parser with
            state := if chunkSize = 0 then .chunkSizeNewLine_2 else .chunkData
            chunkSizeStr := []
            chunkSize } resp
      else error
  | .chunkSizeNewLine_2 =>
      if input = 13 then goto .chunkSizeNewLine_3
      else if isAlpha input then goto .chunkTrailerName
      else error
  | .chunkSizeNewLine_3 => if input = 10 then .done .parsingCompleted resp else error
  | .chunkTrailerName =>
      if isAlnum input then .next parser resp
      else if input = 58 then goto .chunkTrailerValue
      else error
  | .chunkTrailerValue =>
      if isAlnum input || input = 32 then .next parser resp
      else if input = 13 then goto .chunkSizeNewLine
      else error
  | .chunkData =>
      let chunkSize := (parser.chunkSize + (2 ^ 64 - 1)) % 2 ^ 64
      .next
        { parser with
          state := if chunkSize = 0 then .chunkDataNewLine_1 else .chunkData
          chunkSize }
        (resp.pushContent input)
  | .chunkDataNewLine_1 => if input = 13 then goto .chunkDataNewLine_2 else error
  | .chunkDataNewLine_2 => if input = 10 then goto .chunkSize else error

/-! ## The whole text -/

/-- `max_size` of a `vector<char>`. -/
def vectorMaxSize : Nat := 2 ^ 63 - 1

/-- `reserve` does not throw. `granted` is what the allocator would answer. -/
def Reservable (granted : Bool) (size : Nat) : Prop := size ≤ vectorMaxSize ∧ granted = true

instance (granted : Bool) (size : Nat) : Decidable (Reservable granted size) :=
  inferInstanceAs (Decidable (_ ∧ _))

/-- `consume`. The allocator's answers are numbered by the character at which it is asked;
`none` is an exception. -/
def consume (granted : Nat → Bool) (parser : HttpResponseParser) (resp : HttpResponse) :
    Bytes → Option (ParseResult × HttpResponse)
  | [] => some (.parsingIncompleted, resp)
  | input :: rest =>
      match parser.step resp input with
      | .next parser resp => consume (fun i => granted (i + 1)) parser resp rest
      | .reserve size parser resp =>
          if Reservable (granted 0) size then
            consume (fun i => granted (i + 1)) parser resp rest
          else none
      | .done result resp => some (result, resp)

/-- `parse`, of a new parser. -/
def parse (granted : Nat → Bool) (resp : HttpResponse) (text : Bytes) :
    Option (ParseResult × HttpResponse) :=
  fresh.consume granted resp text

/-- On its way through a text the parser comes to a reservation that fails. -/
inductive ReserveFails : (Nat → Bool) → HttpResponseParser → HttpResponse → Bytes → Prop
  | here {granted : Nat → Bool} {parser next : HttpResponseParser} {resp resp' : HttpResponse}
      {input : UInt8} {rest : Bytes} {size : Nat}
      (hstep : parser.step resp input = .reserve size next resp')
      (hfails : ¬ Reservable (granted 0) size) : ReserveFails granted parser resp (input :: rest)
  | reserved {granted : Nat → Bool} {parser next : HttpResponseParser} {resp resp' : HttpResponse}
      {input : UInt8} {rest : Bytes} {size : Nat}
      (hstep : parser.step resp input = .reserve size next resp')
      (hrest : ReserveFails (fun i => granted (i + 1)) next resp' rest) :
      ReserveFails granted parser resp (input :: rest)
  | next {granted : Nat → Bool} {parser next : HttpResponseParser} {resp resp' : HttpResponse}
      {input : UInt8} {rest : Bytes} (hstep : parser.step resp input = .next next resp')
      (hrest : ReserveFails (fun i => granted (i + 1)) next resp' rest) :
      ReserveFails granted parser resp (input :: rest)

/-- Such a reservation is the only exception. -/
theorem consume_eq_none_iff {granted : Nat → Bool} {parser : HttpResponseParser}
    {resp : HttpResponse} {text : Bytes} :
    parser.consume granted resp text = none ↔ ReserveFails granted parser resp text := by
  constructor
  · intro hnone
    induction text generalizing granted parser resp with
    | nil => cases hnone
    | cons input rest ih =>
        rw [consume] at hnone
        split at hnone
        next hstep => exact .next hstep (ih hnone)
        next hstep =>
          split at hnone
          · exact .reserved hstep (ih hnone)
          next hfails => exact .here hstep hfails
        next => cases hnone
  · intro hfails
    induction hfails with
    | here hstep hfails => rw [consume, hstep]; exact if_neg hfails
    | reserved hstep _ ih =>
        rw [consume, hstep]
        dsimp only
        rw [ih, ite_self]
    | next hstep _ ih =>
        rw [consume, hstep]
        exact ih

/-- A result other than `ParsingIncompleted` does not depend on what follows. -/
theorem consume_append {granted : Nat → Bool} {parser : HttpResponseParser} {resp : HttpResponse}
    {text : Bytes} {result : ParseResult} {last : HttpResponse}
    (hresult : parser.consume granted resp text = some (result, last))
    (hends : result ≠ .parsingIncompleted) (more : Bytes) :
    parser.consume granted resp (text ++ more) = some (result, last) := by
  induction text generalizing granted parser resp with
  | nil =>
      cases hresult
      exact absurd rfl hends
  | cons input rest ih =>
      rw [List.cons_append]
      rw [consume] at hresult ⊢
      split at hresult
      · exact ih hresult
      · split at hresult
        next hgranted =>
          rw [if_pos hgranted]
          exact ih hresult
        next => cases hresult
      · exact hresult

end HttpResponseParser

end RemoteAttestation
