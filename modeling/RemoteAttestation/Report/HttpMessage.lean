import RemoteAttestation.Crypto.BigNum
import RemoteAttestation.Report.HttpParser

/-! # HTTP messages

What a server writes: a status line, header fields, and a body that is either announced by its
length or cut into chunks; and how the parser passes over the lines in front of the body.
-/

namespace RemoteAttestation

/-! ## The messages -/

def crlf : Bytes := [13, 10]

def isToken (c : UInt8) : Bool := isChar c && !isControl c && !isSpecial c

structure HeaderField where
  name : Bytes
  value : Bytes
  name_ne_nil : name ≠ []
  name_token : ∀ c ∈ name, isToken c = true
  value_plain : ∀ c ∈ value, isControl c = false

namespace HeaderField

def line (field : HeaderField) : Bytes := field.name ++ [58, 32] ++ field.value ++ crlf

def item (field : HeaderField) : Bytes × Bytes := (field.name, field.value)

def IsLength (field : HeaderField) : Prop :=
  sameIgnoringCase field.name (ascii "Content-Length") = true

def IsChunked (field : HeaderField) : Prop :=
  sameIgnoringCase field.name (ascii "Transfer-Encoding") = true ∧
    sameIgnoringCase field.value (ascii "chunked") = true

end HeaderField

/-- The characters of a chunk extension or of a trailer. -/
def isPlainWord (c : UInt8) : Bool := isAlnum c || c = 32

/-- What may stand between the size of a chunk and the end of its line. -/
inductive ChunkExtension : Bytes → Prop
  | none : ChunkExtension []
  | name {name : Bytes} (hname : ∀ c ∈ name, isPlainWord c = true) : ChunkExtension (59 :: name)
  | value {name value : Bytes} (hname : ∀ c ∈ name, isPlainWord c = true)
      (hvalue : ∀ c ∈ value, isPlainWord c = true) :
      ChunkExtension (59 :: (name ++ 61 :: value))

/-- The line in front of a chunk. -/
structure ChunkHead (length : Nat) where
  size : Bytes
  extension : Bytes
  size_hex : ∀ c ∈ size, (hexValue? c).isSome
  size_value : hexNat size = length
  extension_wf : ChunkExtension extension

def ChunkHead.line {length : Nat} (head : ChunkHead length) : Bytes :=
  head.size ++ head.extension ++ crlf

structure HttpChunk where
  data : Bytes
  data_ne_nil : data ≠ []
  head : ChunkHead data.length

def HttpChunk.text (chunk : HttpChunk) : Bytes := chunk.head.line ++ chunk.data ++ crlf

structure Trailer where
  letter : UInt8
  name : Bytes
  value : Bytes
  letter_alpha : isAlpha letter = true
  name_alnum : ∀ c ∈ name, isAlnum c = true
  value_plain : ∀ c ∈ value, isPlainWord c = true

def Trailer.line (trailer : Trailer) : Bytes :=
  trailer.letter :: (trailer.name ++ 58 :: (trailer.value ++ crlf))

inductive HttpBody where
  | sized (content : Bytes)
  | chunked (chunks : List HttpChunk) (last : ChunkHead 0) (trailers : List Trailer)

namespace HttpBody

def content : HttpBody → Bytes
  | .sized content => content
  | .chunked chunks _ _ => chunks.flatMap HttpChunk.data

def text : HttpBody → Bytes
  | .sized content => content
  | .chunked chunks last trailers =>
      chunks.flatMap HttpChunk.text ++ last.line ++ trailers.flatMap Trailer.line ++ crlf

/-- The header fields announce the body as it is sent. -/
def Framed (fields : List HeaderField) : HttpBody → Prop
  | .sized content =>
      (∀ field ∈ fields, ¬ field.IsChunked) ∧
      (∀ field ∈ fields, field.IsLength → field.value = decimal content.length) ∧
      (content ≠ [] → ∃ field ∈ fields, field.IsLength)
  | .chunked _ _ _ =>
      (∃ field ∈ fields, field.IsChunked) ∧
      ∀ field ∈ fields, field.IsLength → ∃ n < 2 ^ 31, field.value = decimal n

end HttpBody

structure HttpMessage where
  major : Nat
  minor : Nat
  code : Nat
  status : Bytes
  fields : List HeaderField
  body : HttpBody
  major_lt : major < 2 ^ 31
  minor_lt : minor < 2 ^ 31
  code_ge : 100 ≤ code
  code_le : code ≤ 999
  status_ne_nil : status ≠ []
  status_chars : ∀ c ∈ status, isChar c = true ∧ c ≠ 13
  framed : body.Framed fields
  content_lt : body.content.length < 2 ^ 31

namespace HttpMessage

def text (message : HttpMessage) : Bytes :=
  ascii "HTTP/" ++ decimal message.major ++ [46] ++ decimal message.minor ++ [32] ++
    decimal message.code ++ [32] ++ message.status ++ crlf ++
    message.fields.flatMap HeaderField.line ++ crlf ++ message.body.text

/-- The response before its body. -/
def header (message : HttpMessage) : HttpResponse where
  statusCode := message.code
  headers := message.fields.map HeaderField.item
  content := []
  versionMajor := message.major
  versionMinor := message.minor
  keepAlive := false
  status := message.status

/-- The response with all that the message says. -/
def response (message : HttpMessage) : HttpResponse :=
  { message.header with
    content := message.body.content
    keepAlive := message.header.keepsAlive }

end HttpMessage

namespace HttpResponseParser

/-! ## From one position to the next -/

/-- With every reservation granted, the parser passes over the text and is left as given. -/
def Passes (parser : HttpResponseParser) (resp : HttpResponse) (text : Bytes)
    (parser' : HttpResponseParser) (resp' : HttpResponse) : Prop :=
  ∀ tail, parser.consume (fun _ => true) resp (text ++ tail) =
    parser'.consume (fun _ => true) resp' tail

section

variable {parser parser' parser'' : HttpResponseParser} {resp resp' resp'' : HttpResponse}
  {input : UInt8} {text more : Bytes}

theorem Passes.refl (parser : HttpResponseParser) (resp : HttpResponse) :
    Passes parser resp [] parser resp := fun _ => rfl

theorem Passes.append (hfirst : Passes parser resp text parser' resp')
    (hsecond : Passes parser' resp' more parser'' resp'') :
    Passes parser resp (text ++ more) parser'' resp'' := by
  intro tail
  rw [List.append_assoc, hfirst, hsecond]

theorem passes_next (hstep : parser.step resp input = .next parser' resp') :
    Passes parser resp [input] parser' resp' := by
  intro tail
  rw [List.singleton_append, consume, hstep]

theorem passes_reserve {size : Nat} (hstep : parser.step resp input = .reserve size parser' resp')
    (hsize : size ≤ vectorMaxSize) : Passes parser resp [input] parser' resp' := by
  intro tail
  rw [List.singleton_append, consume, hstep]
  exact if_pos ⟨hsize, rfl⟩

theorem consume_done {result : ParseResult}
    (hstep : parser.step resp input = .done result resp') (tail : Bytes) :
    parser.consume (fun _ => true) resp (input :: tail) = some (result, resp') := by
  rw [consume, hstep]

theorem Passes.cons (hfirst : Passes parser resp [input] parser' resp')
    (hrest : Passes parser' resp' text parser'' resp'') :
    Passes parser resp (input :: text) parser'' resp'' :=
  hfirst.append hrest

/-- A state that takes each character of the text and stays. -/
theorem passes_all {f : HttpResponse → UInt8 → HttpResponse} (resp : HttpResponse)
    (hstep : ∀ c ∈ text, ∀ r, parser.step r c = .next parser (f r c)) :
    Passes parser resp text parser (text.foldl f resp) := by
  induction text generalizing resp with
  | nil => exact .refl parser resp
  | cons c text ih =>
      exact .cons (passes_next (hstep c List.mem_cons_self resp))
        (ih (f resp c) fun d hmem => hstep d (List.mem_cons_of_mem c hmem))

end

/-! ## The status line -/

/-- A loop that updates one field. -/
theorem foldl_field {σ α β : Type} (get : σ → β) (set : β → σ → σ)
    (hget : ∀ b s, get (set b s) = b) (hset : ∀ b b' s, set b' (set b s) = set b' s)
    (hself : ∀ s, set (get s) s = s) (g : β → α → β) (text : List α) (s : σ) :
    text.foldl (fun s c => set (g (get s) c) s) s = set (text.foldl g (get s)) s := by
  induction text generalizing s with
  | nil => exact (hself s).symm
  | cons c text ih => rw [List.foldl_cons, ih, hget, hset, List.foldl_cons]

theorem foldl_push (text front : Bytes) :
    text.foldl (fun front c => front ++ [c]) front = front ++ text := by
  induction text generalizing front with
  | nil => rw [List.foldl_nil, List.append_nil]
  | cons c text ih => rw [List.foldl_cons, ih, List.append_assoc, List.singleton_append]

/-- A digit behind a number. -/
def nextDigit (value : Nat) (c : UInt8) : Nat := 10 * value + (c.toNat - 48)

theorem foldl_nextDigit_ge (digits : Bytes) (init : Nat) : init ≤ digits.foldl nextDigit init := by
  induction digits generalizing init with
  | nil => exact Nat.le_refl init
  | cons c digits ih =>
      have hstep : init ≤ nextDigit init c := by
        unfold nextDigit
        omega
      exact le_trans hstep (ih _)

/-- Digits of a number that fits into an `int`. -/
theorem foldl_appendDigit (digits : Bytes) (init : Nat)
    (hfits : digits.foldl nextDigit init < 2 ^ 31) :
    digits.foldl appendDigit (init : Int) = (digits.foldl nextDigit init : Nat) := by
  induction digits generalizing init with
  | nil => rfl
  | cons c digits ih =>
      rw [List.foldl_cons] at hfits
      have hnext := lt_of_le_of_lt (foldl_nextDigit_ge digits _) hfits
      have hdigit : appendDigit (init : Int) c = (nextDigit init c : Nat) := by
        unfold appendDigit nextDigit at *
        rw [Int.bmod_eq_of_le] <;> push_cast at * <;> omega
      rw [List.foldl_cons, List.foldl_cons, hdigit, ih _ hfits]

/-- The same for the status code, which is not signed. -/
theorem foldl_statusCode (digits : Bytes) (init : Nat)
    (hfits : digits.foldl nextDigit init < 2 ^ 31) :
    digits.foldl (fun code c => (code * 10 + (c.toNat - 48)) % 2 ^ 32) init =
      digits.foldl nextDigit init := by
  induction digits generalizing init with
  | nil => rfl
  | cons c digits ih =>
      rw [List.foldl_cons] at hfits
      have hnext := lt_of_le_of_lt (foldl_nextDigit_ge digits _) hfits
      have hdigit : (init * 10 + (c.toNat - 48)) % 2 ^ 32 = nextDigit init c := by
        unfold nextDigit at *
        omega
      rw [List.foldl_cons, List.foldl_cons, hdigit, ih _ hfits]

theorem foldl_decimal (n : Nat) : (decimal n).foldl nextDigit 0 = n := digitsValue_decimal n

theorem foldl_appendDigit_decimal {n : Nat} (hn : n < 2 ^ 31) :
    (decimal n).foldl appendDigit 0 = n := by
  have hvalue := foldl_decimal n
  have hfold := foldl_appendDigit (decimal n) 0 (by rw [hvalue]; exact hn)
  rw [hvalue] at hfold
  exact hfold

theorem foldl_statusCode_decimal {n : Nat} (hn : n < 2 ^ 31) :
    (decimal n).foldl (fun code c => (code * 10 + (c.toNat - 48)) % 2 ^ 32) 0 = n := by
  have hvalue := foldl_decimal n
  rw [foldl_statusCode (decimal n) 0 (by rw [hvalue]; exact hn), hvalue]

/-- A number starts with a digit. -/
theorem exists_decimal (n : Nat) : ∃ d digits, decimal n = d :: digits ∧ isDigit d = true ∧
    ∀ c ∈ digits, isDigit c = true := by
  have hdigits := decimal_isDigit n
  cases hn : decimal n with
  | nil => exact absurd hn (decimal_ne_nil n)
  | cons d digits =>
      rw [hn] at hdigits
      exact ⟨d, digits, rfl, hdigits d List.mem_cons_self,
        fun c hmem => hdigits c (List.mem_cons_of_mem d hmem)⟩

theorem ne_of_isDigit {c d : UInt8} (hc : isDigit c = true) (hd : isDigit d = false) : c ≠ d := by
  rintro rfl
  rw [hc] at hd
  cases hd

variable (parser : HttpResponseParser) (resp : HttpResponse)

theorem passes_major {n : Nat} (hn : n < 2 ^ 31) :
    Passes { parser with state := .responseHttpVersion_majorStart } resp (decimal n)
      { parser with state := .responseHttpVersion_major } { resp with versionMajor := n } := by
  obtain ⟨d, digits, htext, hd, hdigits⟩ := exists_decimal n
  have hvalue := foldl_appendDigit_decimal hn
  rw [htext, List.foldl_cons] at hvalue
  have hfold : digits.foldl (fun r c => { r with versionMajor := appendDigit r.versionMajor c })
      { resp with versionMajor := appendDigit 0 d } = { resp with versionMajor := n } := by
    have hloop := foldl_field HttpResponse.versionMajor (fun v r => { r with versionMajor := v })
      (fun _ _ => rfl) (fun _ _ _ => rfl) (fun _ => rfl) appendDigit digits
      { resp with versionMajor := appendDigit 0 d }
    dsimp only at hloop
    rw [hloop, hvalue]
  rw [htext, ← hfold]
  refine .cons (passes_next (if_pos hd)) (passes_all _ fun c hmem r => ?_)
  exact (if_neg (ne_of_isDigit (hdigits c hmem) rfl)).trans (if_pos (hdigits c hmem))

theorem passes_minor {n : Nat} (hn : n < 2 ^ 31) :
    Passes { parser with state := .responseHttpVersion_minorStart } resp (decimal n)
      { parser with state := .responseHttpVersion_minor } { resp with versionMinor := n } := by
  obtain ⟨d, digits, htext, hd, hdigits⟩ := exists_decimal n
  have hvalue := foldl_appendDigit_decimal hn
  rw [htext, List.foldl_cons] at hvalue
  have hfold : digits.foldl (fun r c => { r with versionMinor := appendDigit r.versionMinor c })
      { resp with versionMinor := appendDigit 0 d } = { resp with versionMinor := n } := by
    have hloop := foldl_field HttpResponse.versionMinor (fun v r => { r with versionMinor := v })
      (fun _ _ => rfl) (fun _ _ _ => rfl) (fun _ => rfl) appendDigit digits
      { resp with versionMinor := appendDigit 0 d }
    dsimp only at hloop
    rw [hloop, hvalue]
  rw [htext, ← hfold]
  refine .cons (passes_next (if_pos hd)) (passes_all _ fun c hmem r => ?_)
  exact (if_neg (ne_of_isDigit (hdigits c hmem) rfl)).trans (if_pos (hdigits c hmem))

theorem passes_statusCode {n : Nat} (hn : n < 2 ^ 31) :
    Passes { parser with state := .responseHttpVersion_statusCodeStart } resp (decimal n)
      { parser with state := .responseHttpVersion_statusCode } { resp with statusCode := n } := by
  obtain ⟨d, digits, htext, hd, hdigits⟩ := exists_decimal n
  have hvalue := foldl_statusCode_decimal hn
  rw [htext, List.foldl_cons] at hvalue
  have hfirst : (0 * 10 + (d.toNat - 48)) % 2 ^ 32 = d.toNat - 48 := by
    have hlt := d.toNat_lt
    omega
  rw [hfirst] at hvalue
  have hfold : digits.foldl
      (fun r c => { r with statusCode := (r.statusCode * 10 + (c.toNat - 48)) % 2 ^ 32 })
      { resp with statusCode := d.toNat - 48 } = { resp with statusCode := n } := by
    have hloop := foldl_field (fun r : HttpResponse => r.statusCode)
      (fun v r => { r with statusCode := v }) (fun _ _ => rfl) (fun _ _ _ => rfl) (fun _ => rfl)
      (fun code c => (code * 10 + (c.toNat - 48)) % 2 ^ 32) digits
      { resp with statusCode := d.toNat - 48 }
    dsimp only at hloop
    rw [hloop, hvalue]
  rw [htext, ← hfold]
  refine .cons (passes_next (if_pos hd)) (passes_all _ fun c hmem r => ?_)
  exact if_pos (hdigits c hmem)

theorem passes_status {status : Bytes} (hne : status ≠ [])
    (hchars : ∀ c ∈ status, isChar c = true ∧ c ≠ 13) :
    Passes { parser with state := .responseHttpVersion_statusTextStart } resp status
      { parser with state := .responseHttpVersion_statusText }
      { resp with status := resp.status ++ status } := by
  cases status with
  | nil => exact absurd rfl hne
  | cons d status =>
      have hfold : status.foldl HttpResponse.pushStatus (resp.pushStatus d) =
          { resp with status := resp.status ++ d :: status } := by
        have hpush := foldl_field HttpResponse.status (fun v r => { r with status := v })
          (fun _ _ => rfl) (fun _ _ _ => rfl) (fun _ => rfl) (fun front c => front ++ [c]) status
          (resp.pushStatus d)
        rw [foldl_push, HttpResponse.pushStatus, List.append_assoc] at hpush
        exact hpush
      rw [← hfold]
      refine .cons (passes_next (if_pos (hchars d List.mem_cons_self).1))
        (passes_all _ fun c hmem r => ?_)
      obtain ⟨hc, hcr⟩ := hchars c (List.mem_cons_of_mem d hmem)
      exact (if_neg hcr).trans (if_pos hc)

theorem passes_versionEnd (hcode : resp.statusCode = 0) :
    Passes { parser with state := .responseHttpVersion_minor } resp [32]
      { parser with state := .responseHttpVersion_statusCodeStart } resp := by
  apply passes_next
  rw [step]
  dsimp only
  rw [if_pos rfl, ← hcode]

theorem passes_codeEnd (hlow : 100 ≤ resp.statusCode) (hhigh : resp.statusCode ≤ 999) :
    Passes { parser with state := .responseHttpVersion_statusCode } resp [32]
      { parser with state := .responseHttpVersion_statusTextStart } resp := by
  have hcode : ¬ (resp.statusCode < 100 ∨ 999 < resp.statusCode) :=
    not_or.mpr ⟨not_lt.mpr hlow, not_lt.mpr hhigh⟩
  apply passes_next
  rw [step]
  dsimp only
  rw [if_neg (by decide), if_neg hcode, if_pos rfl]

/-! ## Header fields -/

theorem isToken_facts (c : UInt8) : isToken c = true →
    c ≠ 9 ∧ c ≠ 13 ∧ c ≠ 32 ∧ c ≠ 58 ∧ (!isChar c || isControl c || isSpecial c) = false := by
  revert c
  exact forall_uint8 (by decide +kernel)

theorem not_cr_of_plain {c : UInt8} (hc : isControl c = false) : c ≠ 13 := by
  rintro rfl
  cases hc

theorem updateBack_append {α : Type} (f : α → α) (front : List α) (last : α) :
    updateBack f (front ++ [last]) = front ++ [f last] := by
  induction front with
  | nil => rfl
  | cons first front ih =>
      cases front with
      | nil => rfl
      | cons second front =>
          rw [List.cons_append, List.cons_append, updateBack, ← List.cons_append, ih]
          rfl

theorem foldl_pushName (text name value : Bytes) (front : List (Bytes × Bytes)) :
    text.foldl HttpResponse.pushName { resp with headers := front ++ [(name, value)] } =
      { resp with headers := front ++ [(name ++ text, value)] } := by
  induction text generalizing name with
  | nil => rw [List.foldl_nil, List.append_nil]
  | cons c text ih =>
      rw [List.foldl_cons, HttpResponse.pushName, updateBack_append, ih, List.append_assoc,
        List.singleton_append]

theorem foldl_pushValue (text name value : Bytes) (front : List (Bytes × Bytes)) :
    text.foldl HttpResponse.pushValue { resp with headers := front ++ [(name, value)] } =
      { resp with headers := front ++ [(name, value ++ text)] } := by
  induction text generalizing value with
  | nil => rw [List.foldl_nil, List.append_nil]
  | cons c text ih =>
      rw [List.foldl_cons, HttpResponse.pushValue, updateBack_append, ih, List.append_assoc,
        List.singleton_append]

/-- What the parser notes of a header field, at the end of its line. -/
def note (parser : HttpResponseParser) (field : HeaderField) : HttpResponseParser :=
  if sameIgnoringCase field.name (ascii "Content-Length") then
    { parser with contentSize := atoiSize field.value }
  else if sameIgnoringCase field.name (ascii "Transfer-Encoding") then
    { parser with chunked := sameIgnoringCase field.value (ascii "chunked") || parser.chunked }
  else parser

theorem passes_name (field : HeaderField) :
    Passes { parser with state := .headerLineStart } resp field.name
      { parser with state := .headerName }
      { resp with headers := resp.headers ++ [(field.name, [])] } := by
  have htoken := field.name_token
  cases hname : field.name with
  | nil => exact absurd hname field.name_ne_nil
  | cons d name =>
      rw [hname] at htoken
      obtain ⟨htab, hcr, hspace, _, hfirst⟩ := isToken_facts d (htoken d List.mem_cons_self)
      have hpush := foldl_pushName resp name [d] [] resp.headers
      rw [List.singleton_append] at hpush
      rw [← hpush]
      refine .cons (passes_next ?_) (passes_all _ fun c hmem r => ?_)
      · have hfolded : ¬ (resp.headers ≠ [] ∧ (d = 32 ∨ d = 9)) := by
          rintro ⟨_, hd | hd⟩
          · exact hspace hd
          · exact htab hd
        rw [step]
        dsimp only
        rw [if_neg hcr, if_neg hfolded, hfirst]
        rfl
      · obtain ⟨_, _, _, hcolon, hplain⟩ := isToken_facts c (htoken c (List.mem_cons_of_mem d hmem))
        rw [step]
        dsimp only
        rw [if_neg hcolon, hplain]
        rfl

theorem passes_value (field : HeaderField) (front : List (Bytes × Bytes)) :
    Passes { parser with state := .headerValue }
      { resp with headers := front ++ [(field.name, [])] } field.value
      { parser with state := .headerValue } { resp with headers := front ++ [field.item] } := by
  have hpush := foldl_pushValue resp field.value field.name [] front
  rw [List.nil_append] at hpush
  rw [HeaderField.item, ← hpush]
  refine passes_all _ fun c hmem r => ?_
  have hplain := field.value_plain c hmem
  rw [step]
  dsimp only
  rw [if_neg (not_cr_of_plain hplain), hplain]
  rfl

/-- The end of a header line. -/
theorem passes_lineEnd (field : HeaderField) (front : List (Bytes × Bytes))
    (hsize : field.IsLength → atoiSize field.value ≤ vectorMaxSize) :
    Passes { parser with state := .headerValue } { resp with headers := front ++ [field.item] } crlf
      { note parser field with state := .headerLineStart }
      { resp with headers := front ++ [field.item] } := by
  have hlast : (front ++ [field.item]).getLastD ([], []) = (field.name, field.value) := by
    rw [List.getLastD_concat]
    rfl
  have hnewline : ∀ (p : HttpResponseParser) r, Passes { p with state := .expectingNewline_2 } r [10]
      { p with state := .headerLineStart } r := fun p r => passes_next rfl
  refine .cons ?_ (hnewline (note parser field) _)
  unfold note
  -- The parser looks for the length first, and for the coding only in another field.
  by_cases hlength : sameIgnoringCase field.name (ascii "Content-Length")
  · rw [if_pos hlength]
    refine passes_reserve ?_ (hsize hlength)
    rw [step]
    dsimp only
    rw [if_pos rfl, hlast]
    exact if_pos hlength
  · rw [if_neg hlength]
    by_cases hencoding : sameIgnoringCase field.name (ascii "Transfer-Encoding")
    · rw [if_pos hencoding]
      apply passes_next
      rw [step]
      dsimp only
      rw [if_pos rfl, hlast]
      exact (if_neg hlength).trans (if_pos hencoding)
    · rw [if_neg hencoding]
      apply passes_next
      rw [step]
      dsimp only
      rw [if_pos rfl, hlast]
      exact (if_neg hlength).trans (if_neg hencoding)

theorem passes_field (field : HeaderField)
    (hsize : field.IsLength → atoiSize field.value ≤ vectorMaxSize) :
    Passes { parser with state := .headerLineStart } resp field.line
      { note parser field with state := .headerLineStart }
      { resp with headers := resp.headers ++ [field.item] } := by
  have hcolon : Passes { parser with state := .headerName }
      { resp with headers := resp.headers ++ [(field.name, [])] } [58, 32]
      { parser with state := .headerValue }
      { resp with headers := resp.headers ++ [(field.name, [])] } :=
    .cons (@passes_next _ { parser with state := .spaceBeforeHeaderValue } _ _ _ rfl)
      (passes_next rfl)
  exact (((passes_name parser resp field).append hcolon).append
    (passes_value parser resp field _)).append (passes_lineEnd parser resp field _ hsize)

theorem passes_fields (fields : List HeaderField)
    (hsize : ∀ field ∈ fields, field.IsLength → atoiSize field.value ≤ vectorMaxSize) :
    Passes { parser with state := .headerLineStart } resp (fields.flatMap HeaderField.line)
      { fields.foldl note parser with state := .headerLineStart }
      { resp with headers := resp.headers ++ fields.map HeaderField.item } := by
  induction fields generalizing parser resp with
  | nil =>
      rw [List.map_nil, List.append_nil]
      exact .refl _ _
  | cons field fields ih =>
      have hfirst := passes_field parser resp field (hsize field List.mem_cons_self)
      have hrest := ih (note parser field) { resp with headers := resp.headers ++ [field.item] }
        fun other hmem => hsize other (List.mem_cons_of_mem field hmem)
      have hall := hfirst.append hrest
      dsimp only at hall
      rw [List.append_assoc, List.singleton_append] at hall
      rw [List.flatMap_cons, List.map_cons, List.foldl_cons]
      exact hall

end HttpResponseParser

end RemoteAttestation
