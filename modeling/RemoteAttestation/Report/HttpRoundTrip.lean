import RemoteAttestation.Report.AgentWget
import RemoteAttestation.Report.HttpMessage

/-! # Messages that arrive

The parser gives back what a message was made of, however its body was sent, and looks at
nothing behind it. So does a request through wget, in whatever pieces the output is read.
-/

namespace RemoteAttestation

namespace HttpResponseParser

variable (parser : HttpResponseParser) (resp : HttpResponse)

/-! ## What the fields announce -/

theorem atoiSize_decimal {n : Nat} (hn : n < 2 ^ 31) : atoiSize (decimal n) = n := by
  have hscan := scanDecimal_digits (decimal_ne_nil n) (decimal_isDigit n)
  have hatoi : atoi (decimal n) = n := by
    rw [atoi, hscan, digitsValue_decimal]
    dsimp only
    omega
  rw [atoiSize, hatoi, if_pos hn]

/-- No field is both a length and an encoding. -/
theorem not_isChunked_of_isLength {field : HeaderField} (hlength : field.IsLength) :
    ¬ field.IsChunked := by
  rintro ⟨hencoding, _⟩
  have hfirst := of_decide_eq_true hlength
  rw [of_decide_eq_true hencoding] at hfirst
  revert hfirst
  decide

theorem note_chunked_iff (field : HeaderField) :
    (note parser field).chunked = true ↔ field.IsChunked ∨ parser.chunked = true := by
  unfold note
  by_cases hlength : sameIgnoringCase field.name (ascii "Content-Length")
  · rw [if_pos hlength, or_iff_right (not_isChunked_of_isLength hlength)]
  · rw [if_neg hlength]
    by_cases hencoding : sameIgnoringCase field.name (ascii "Transfer-Encoding")
    · rw [if_pos hencoding, Bool.or_eq_true, HeaderField.IsChunked, and_iff_right hencoding]
    · rw [if_neg hencoding, HeaderField.IsChunked, iff_false_intro hencoding, false_and, false_or]

theorem foldl_note_chunked_iff (fields : List HeaderField) :
    (fields.foldl note parser).chunked = true ↔
      (∃ field ∈ fields, field.IsChunked) ∨ parser.chunked = true := by
  induction fields generalizing parser with
  | nil => simp
  | cons field fields ih =>
      rw [List.foldl_cons, ih, note_chunked_iff, List.exists_mem_cons_iff, or_assoc, or_left_comm]

/-- The fields leave the length that they agree on. -/
theorem foldl_note_contentSize {size : Nat} (fields : List HeaderField)
    (hagree : ∀ field ∈ fields, field.IsLength → atoiSize field.value = size)
    (hsome : (∃ field ∈ fields, field.IsLength) ∨ parser.contentSize = size) :
    (fields.foldl note parser).contentSize = size := by
  induction fields generalizing parser with
  | nil =>
      refine hsome.resolve_left ?_
      rintro ⟨field, hmem, _⟩
      cases hmem
  | cons field fields ih =>
      refine ih (note parser field) (fun other hmem => hagree other (List.mem_cons_of_mem _ hmem)) ?_
      by_cases hlength : sameIgnoringCase field.name (ascii "Content-Length")
      · right
        rw [note, if_pos hlength]
        exact hagree field List.mem_cons_self hlength
      · rw [List.exists_mem_cons_iff, or_iff_right (show ¬ field.IsLength from hlength)] at hsome
        refine hsome.imp id fun hsize => ?_
        rw [note, if_neg hlength]
        split <;> exact hsize

/-- The other fields of the parser are left alone. -/
theorem foldl_note_rest (fields : List HeaderField) :
    (fields.foldl note parser).chunkSizeStr = parser.chunkSizeStr ∧
      (fields.foldl note parser).chunkSize = parser.chunkSize := by
  induction fields generalizing parser with
  | nil => exact ⟨rfl, rfl⟩
  | cons field fields ih =>
      have hnote : (note parser field).chunkSizeStr = parser.chunkSizeStr ∧
          (note parser field).chunkSize = parser.chunkSize := by
        unfold note
        split
        · exact ⟨rfl, rfl⟩
        · split <;> exact ⟨rfl, rfl⟩
      rw [List.foldl_cons, (ih _).1, (ih _).2]
      exact hnote

/-! ## Bodies -/

theorem step_post {left : Nat} (hleft : left + 1 < 2 ^ 64) (c : UInt8) :
    step { parser with state := .post, contentSize := left + 1 } resp c =
      if left = 0 then .done .parsingCompleted (resp.pushContent c)
      else .next { parser with state := .post, contentSize := left } (resp.pushContent c) := by
  have hless : (left + 1 + (2 ^ 64 - 1)) % 2 ^ 64 = left := by omega
  rw [step]
  dsimp only
  rw [hless]

/-- A body of the announced length is taken, and nothing behind it. -/
theorem consume_post {content : Bytes} (hne : content ≠ []) (hlength : content.length < 2 ^ 64)
    (more : Bytes) :
    consume (fun _ => true) { parser with state := .post, contentSize := content.length } resp
        (content ++ more) =
      some (.parsingCompleted, { resp with content := resp.content ++ content }) := by
  induction content generalizing resp with
  | nil => exact absurd rfl hne
  | cons c content ih =>
      have hstep := step_post parser resp hlength c
      cases content with
      | nil =>
          rw [List.length_nil, if_pos rfl] at hstep
          exact consume_done hstep more
      | cons d content =>
          have hmore : (d :: content).length ≠ 0 := Nat.succ_ne_zero content.length
          rw [if_neg hmore] at hstep
          have hrest := ih (resp.pushContent c) (List.cons_ne_nil d content)
            (Nat.lt_of_succ_lt hlength)
          rw [HttpResponse.pushContent, List.append_assoc, List.singleton_append] at hrest
          exact (passes_next hstep _).trans hrest

/-- Hexadecimal digits are read as their number. -/
theorem strtolHex_digits {digits : Bytes} (hdigits : ∀ c ∈ digits, (hexValue? c).isSome)
    (hfits : hexNat digits < 2 ^ 63) : strtolHex digits = hexNat digits := by
  have hvalue : ∀ init, ((digits.map hexValue?).takeWhile Option.isSome).foldl
      (fun value digit => 16 * value + (digit.getD 0).toNat) init =
        digits.foldl (fun value c => 16 * value + (hexDigitValue c).toNat) init := by
    have hall : (digits.map hexValue?).takeWhile Option.isSome = digits.map hexValue? := by
      apply List.takeWhile_eq_self_iff.mpr
      intro digit hmem
      obtain ⟨c, hc, rfl⟩ := List.mem_map.mp hmem
      exact hdigits c hc
    intro init
    rw [hall, List.foldl_map]
    rfl
  have hsame : strtolHex digits = min (digits.foldl
      (fun value c => 16 * value + (hexDigitValue c).toNat) 0) (2 ^ 63 - 1) := by
    rw [← hvalue 0]
    unfold strtolHex
    split
    next x rest =>
      -- No digit is an `x`.
      have hx := hdigits x (by simp)
      rw [if_neg]
      rintro ⟨rfl | rfl, _⟩
      · revert hx
        decide
      · revert hx
        decide
    next => rfl
  rw [hsame]
  exact min_eq_left (Nat.le_sub_one_of_lt hfits)

/-! ### Chunks -/

theorem isAlnum_of_hex (c : UInt8) : (hexValue? c).isSome = true → isAlnum c = true := by
  revert c
  exact forall_uint8 (by decide +kernel)

theorem passes_size {size : Bytes} (hsize : ∀ c ∈ size, isAlnum c = true) (front : Bytes) :
    Passes { parser with state := .chunkSize, chunkSizeStr := front } resp size
      { parser with state := .chunkSize, chunkSizeStr := front ++ size } resp := by
  induction size generalizing front with
  | nil =>
      rw [List.append_nil]
      exact .refl _ _
  | cons c size ih =>
      have hrest := ih (fun d hmem => hsize d (List.mem_cons_of_mem c hmem)) (front ++ [c])
      rw [List.append_assoc, List.singleton_append] at hrest
      exact .cons (passes_next (if_pos (hsize c List.mem_cons_self))) hrest

theorem passes_skip {skipping : HttpResponseParser} {text : Bytes}
    (hstep : ∀ c ∈ text, ∀ r, skipping.step r c = .next skipping r) :
    Passes skipping resp text skipping resp := by
  have hall := @passes_all skipping text (fun r _ => r) resp hstep
  rw [List.foldl_fixed] at hall
  exact hall

/-- The extension of a chunk is passed over, up to the end of its line. -/
theorem passes_extension {extension : Bytes} (hextension : ChunkExtension extension) :
    Passes { parser with state := .chunkSize } resp (extension ++ [13])
      { parser with state := .chunkSizeNewLine } resp := by
  cases hextension with
  | none => exact passes_next rfl
  | @name name hname =>
      have hwords : Passes { parser with state := .chunkExtensionName } resp name
          { parser with state := .chunkExtensionName } resp :=
        passes_skip resp fun c hmem r => if_pos (hname c hmem)
      exact (Passes.cons (passes_next rfl) hwords).append (passes_next rfl)
  | @value name value hname hvalue =>
      have hnames : Passes { parser with state := .chunkExtensionName } resp name
          { parser with state := .chunkExtensionName } resp :=
        passes_skip resp fun c hmem r => if_pos (hname c hmem)
      have hvalues : Passes { parser with state := .chunkExtensionValue } resp value
          { parser with state := .chunkExtensionValue } resp :=
        passes_skip resp fun c hmem r => if_pos (hvalue c hmem)
      have hequals : Passes { parser with state := .chunkExtensionName } resp [61]
          { parser with state := .chunkExtensionValue } resp := passes_next rfl
      exact (Passes.cons (passes_next rfl) (hnames.append (hequals.cons hvalues))).append
        (passes_next rfl)

/-- The end of the line before a chunk: its size is known. -/
theorem passes_sizeEnd {size : Bytes} {length : Nat} (hsize : strtolHex size = length)
    (hfits : resp.content.length + length ≤ vectorMaxSize) :
    Passes { parser with state := .chunkSizeNewLine, chunkSizeStr := size } resp [10]
      { parser with
        state := if length = 0 then .chunkSizeNewLine_2 else .chunkData
        chunkSizeStr := []
        chunkSize := length } resp := by
  have hreserved : (resp.content.length + length) % 2 ^ 64 ≤ vectorMaxSize :=
    le_trans (Nat.mod_le _ _) hfits
  rw [← hsize] at hreserved ⊢
  exact passes_reserve rfl hreserved

theorem passes_head {length : Nat} (head : ChunkHead length)
    (hfits : resp.content.length + length ≤ vectorMaxSize) :
    Passes { parser with state := .chunkSize, chunkSizeStr := [] } resp head.line
      { parser with
        state := if length = 0 then .chunkSizeNewLine_2 else .chunkData
        chunkSizeStr := []
        chunkSize := length } resp := by
  have halnum : ∀ c ∈ head.size, isAlnum c = true := fun c hmem =>
    isAlnum_of_hex c (head.size_hex c hmem)
  have hvalue : strtolHex head.size = length := by
    rw [strtolHex_digits head.size_hex, head.size_value]
    rw [head.size_value]
    exact lt_of_le_of_lt (le_trans (Nat.le_add_left _ _) hfits) (by decide)
  have hline : head.line = head.size ++ (head.extension ++ [13]) ++ [10] := by
    simp [ChunkHead.line, crlf]
  rw [hline]
  exact ((passes_size parser resp halnum []).append
    (passes_extension { parser with chunkSizeStr := head.size } resp head.extension_wf)).append
    (passes_sizeEnd parser resp hvalue hfits)

theorem step_chunkData {left : Nat} (hleft : left + 1 < 2 ^ 64) (c : UInt8) :
    step { parser with state := .chunkData, chunkSize := left + 1 } resp c =
      .next { parser with
        state := if left = 0 then .chunkDataNewLine_1 else .chunkData
        chunkSize := left } (resp.pushContent c) := by
  have hless : (left + 1 + (2 ^ 64 - 1)) % 2 ^ 64 = left := by omega
  rw [step]
  dsimp only
  rw [hless]

theorem passes_data {data : Bytes} (hne : data ≠ []) (hlength : data.length < 2 ^ 64) :
    Passes { parser with state := .chunkData, chunkSize := data.length } resp data
      { parser with state := .chunkDataNewLine_1, chunkSize := 0 }
      { resp with content := resp.content ++ data } := by
  induction data generalizing resp with
  | nil => exact absurd rfl hne
  | cons c data ih =>
      have hstep := step_chunkData parser resp hlength c
      cases data with
      | nil =>
          rw [List.length_nil, if_pos rfl] at hstep
          exact passes_next hstep
      | cons d data =>
          have hmore : (d :: data).length ≠ 0 := Nat.succ_ne_zero data.length
          rw [if_neg hmore] at hstep
          have hrest := ih (resp.pushContent c) (List.cons_ne_nil d data) (Nat.lt_of_succ_lt hlength)
          rw [HttpResponse.pushContent, List.append_assoc, List.singleton_append] at hrest
          exact .cons (passes_next hstep) hrest

/-- Between two chunks. -/
def betweenChunks (left : Nat) : HttpResponseParser :=
  { parser with state := .chunkSize, chunkSizeStr := [], chunkSize := left }

/-- Behind the data of a chunk. -/
def atChunkEnd (state : HttpState) : HttpResponseParser :=
  { parser with state, chunkSizeStr := [], chunkSize := 0 }

theorem passes_chunk (left : Nat) (chunk : HttpChunk)
    (hfits : resp.content.length + chunk.data.length ≤ vectorMaxSize) :
    Passes (parser.betweenChunks left) resp chunk.text (parser.betweenChunks 0)
      { resp with content := resp.content ++ chunk.data } := by
  have hhead := passes_head { parser with chunkSize := left } resp chunk.head hfits
  rw [if_neg (fun h => chunk.data_ne_nil (List.length_eq_zero_iff.mp h))] at hhead
  have hlength : chunk.data.length < 2 ^ 64 :=
    lt_of_le_of_lt (le_trans (Nat.le_add_left _ _) hfits) (by decide)
  have hdata := passes_data { parser with chunkSizeStr := [] } resp chunk.data_ne_nil hlength
  have hcr : ∀ r, Passes (parser.atChunkEnd .chunkDataNewLine_1) r [13]
      (parser.atChunkEnd .chunkDataNewLine_2) r := fun r => passes_next rfl
  have hnewline : ∀ r, Passes (parser.atChunkEnd .chunkDataNewLine_2) r [10]
      (parser.betweenChunks 0) r := fun r => passes_next rfl
  exact (hhead.append hdata).append ((hcr _).cons (hnewline _))

theorem passes_chunks (left : Nat) (chunks : List HttpChunk)
    (hfits : resp.content.length + (chunks.flatMap HttpChunk.data).length ≤ vectorMaxSize) :
    ∃ left', Passes (parser.betweenChunks left) resp (chunks.flatMap HttpChunk.text)
      (parser.betweenChunks left')
      { resp with content := resp.content ++ chunks.flatMap HttpChunk.data } := by
  induction chunks generalizing left resp with
  | nil =>
      refine ⟨left, ?_⟩
      rw [List.flatMap_nil, List.flatMap_nil, List.append_nil]
      exact .refl _ _
  | cons chunk chunks ih =>
      rw [List.flatMap_cons, List.length_append] at hfits
      have hfirst := passes_chunk parser resp left chunk (by omega)
      obtain ⟨left', hrest⟩ := ih { resp with content := resp.content ++ chunk.data } 0
        (by rw [List.length_append]; omega)
      refine ⟨left', ?_⟩
      rw [List.append_assoc] at hrest
      rw [List.flatMap_cons, List.flatMap_cons]
      exact hfirst.append hrest

/-- Behind the last chunk. -/
def behindChunks : HttpResponseParser :=
  { parser with state := .chunkSizeNewLine_2, chunkSizeStr := [], chunkSize := 0 }

theorem isAlpha_facts (c : UInt8) : isAlpha c = true → c ≠ 13 := by
  revert c
  exact forall_uint8 (by decide +kernel)

/-- A trailer is passed over. The end of its line is taken for that of a chunk of size 0. -/
theorem passes_trailer (trailer : Trailer) (hfits : resp.content.length ≤ vectorMaxSize) :
    Passes parser.behindChunks resp trailer.line parser.behindChunks resp := by
  have hletter : Passes parser.behindChunks resp [trailer.letter]
      { parser.behindChunks with state := .chunkTrailerName } resp :=
    passes_next ((if_neg (isAlpha_facts _ trailer.letter_alpha)).trans
      (if_pos trailer.letter_alpha))
  have hname : Passes { parser.behindChunks with state := .chunkTrailerName } resp trailer.name
      { parser.behindChunks with state := .chunkTrailerName } resp :=
    passes_skip resp fun c hmem r => if_pos (trailer.name_alnum c hmem)
  have hcolon : Passes { parser.behindChunks with state := .chunkTrailerName } resp [58]
      { parser.behindChunks with state := .chunkTrailerValue } resp := passes_next rfl
  have hvalue : Passes { parser.behindChunks with state := .chunkTrailerValue } resp trailer.value
      { parser.behindChunks with state := .chunkTrailerValue } resp :=
    passes_skip resp fun c hmem r => if_pos (trailer.value_plain c hmem)
  have hcr : Passes { parser.behindChunks with state := .chunkTrailerValue } resp [13]
      { parser.behindChunks with state := .chunkSizeNewLine } resp := passes_next rfl
  have hnewline : Passes { parser.behindChunks with state := .chunkSizeNewLine } resp [10]
      parser.behindChunks resp :=
    @passes_sizeEnd parser.behindChunks resp [] 0 rfl hfits
  exact hletter.cons (hname.append (hcolon.cons (hvalue.append (hcr.cons hnewline))))

theorem passes_trailers (trailers : List Trailer) (hfits : resp.content.length ≤ vectorMaxSize) :
    Passes parser.behindChunks resp (trailers.flatMap Trailer.line) parser.behindChunks resp := by
  induction trailers with
  | nil => exact .refl _ _
  | cons trailer trailers ih =>
      rw [List.flatMap_cons]
      exact (passes_trailer parser resp trailer hfits).append ih

theorem consume_chunked (left : Nat) (chunks : List HttpChunk) (last : ChunkHead 0)
    (trailers : List Trailer)
    (hfits : resp.content.length + (chunks.flatMap HttpChunk.data).length ≤ vectorMaxSize)
    (more : Bytes) :
    consume (fun _ => true) (parser.betweenChunks left) resp
        ((HttpBody.chunked chunks last trailers).text ++ more) =
      some (.parsingCompleted,
        { resp with content := resp.content ++ chunks.flatMap HttpChunk.data }) := by
  obtain ⟨left', hchunks⟩ := passes_chunks parser resp left chunks hfits
  set resp' := { resp with content := resp.content ++ chunks.flatMap HttpChunk.data }
  have hcontent : resp'.content.length ≤ vectorMaxSize := by
    rw [← List.length_append] at hfits
    exact hfits
  have hlast : Passes (parser.betweenChunks left') resp' last.line parser.behindChunks resp' :=
    passes_head { parser with chunkSize := left' } resp' last hcontent
  have htrailers := passes_trailers parser resp' trailers hcontent
  have hcr : Passes parser.behindChunks resp' [13]
      { parser.behindChunks with state := .chunkSizeNewLine_3 } resp' := passes_next rfl
  have hall := (((hchunks.append hlast).append htrailers).append hcr) (10 :: more)
  have hdone := @consume_done { parser.behindChunks with state := .chunkSizeNewLine_3 } resp' resp'
    10 .parsingCompleted rfl more
  rw [hdone] at hall
  rw [← hall, HttpBody.text, crlf]
  simp only [List.append_assoc, List.cons_append, List.nil_append]

/-! ## Whole messages -/

/-- The parser and the response behind the last header field. -/
theorem passes_front (message : HttpMessage) :
    Passes .fresh .fresh
      (ascii "HTTP/" ++ decimal message.major ++ [46] ++ decimal message.minor ++ [32] ++
        decimal message.code ++ [32] ++ message.status ++ crlf ++
        message.fields.flatMap HeaderField.line ++ [13])
      { message.fields.foldl note .fresh with state := .expectingNewline_3 } message.header := by
  -- A length field says the length of the content, so it fits into the vector.
  have hlengths : ∀ field ∈ message.fields, field.IsLength →
      atoiSize field.value ≤ vectorMaxSize := by
    intro field hmem hlength
    have hvalue : ∃ n < 2 ^ 31, field.value = decimal n := by
      have hframed := message.framed
      have hcontent := message.content_lt
      cases hbody : message.body with
      | sized content =>
          rw [hbody] at hframed hcontent
          exact ⟨content.length, hcontent, hframed.2.1 field hmem hlength⟩
      | chunked chunks last trailers =>
          rw [hbody] at hframed
          exact hframed.2 field hmem hlength
    obtain ⟨n, hn, hvalue⟩ := hvalue
    rw [hvalue, atoiSize_decimal hn]
    exact le_trans (le_of_lt hn) (by decide)
  -- The status line, part by part.
  have hname : Passes .fresh .fresh (ascii "HTTP/")
      { fresh with state := .responseHttpVersion_majorStart } .fresh := fun _ => rfl
  have hmajor := passes_major fresh .fresh message.major_lt
  have hpoint : ∀ r, Passes { fresh with state := .responseHttpVersion_major } r [46]
      { fresh with state := .responseHttpVersion_minorStart } r := fun r => passes_next rfl
  have hminor := passes_minor fresh { HttpResponse.fresh with versionMajor := message.major }
    message.minor_lt
  set response := { HttpResponse.fresh with
    versionMajor := message.major, versionMinor := message.minor }
  have hstatusCode := passes_statusCode fresh response (lt_of_le_of_lt message.code_le (by decide))
  have hgap := passes_codeEnd fresh { response with statusCode := message.code } message.code_ge
    message.code_le
  have hstatus := passes_status fresh { response with statusCode := message.code }
    message.status_ne_nil message.status_chars
  have hcr : ∀ r, Passes { fresh with state := .responseHttpVersion_statusText } r [13]
      { fresh with state := .responseHttpVersion_newLine } r := fun r => passes_next rfl
  have hnewline : ∀ r, Passes { fresh with state := .responseHttpVersion_newLine } r [10]
      { fresh with state := .headerLineStart } r := fun r => passes_next rfl
  have hfields := passes_fields fresh
    { response with statusCode := message.code, status := message.status } message.fields hlengths
  have hend : ∀ r, Passes { message.fields.foldl note .fresh with state := .headerLineStart } r [13]
      { message.fields.foldl note .fresh with state := .expectingNewline_3 } r :=
    fun r => passes_next rfl
  have hversion := (((hname.append hmajor).append (hpoint _)).append hminor).append
    (passes_versionEnd fresh response rfl)
  have hline := ((hversion.append hstatusCode).append hgap).append hstatus
  exact ((hline.append ((hcr _).cons (hnewline _))).append hfields).append (hend _)

/-- What the parser does at the end of the header, by what the fields announced. -/
theorem step_headerEnd :
    step { parser with state := .expectingNewline_3 } resp 10 =
      if parser.chunked then
        .next { parser with state := .chunkSize } { resp with keepAlive := resp.keepsAlive }
      else if parser.contentSize = 0 then
        .done .parsingCompleted { resp with keepAlive := resp.keepsAlive }
      else .next { parser with state := .post } { resp with keepAlive := resp.keepsAlive } := by
  rw [step]
  rfl

/-- The body, behind the header that announced it. -/
theorem consume_body {fields : List HeaderField} {body : HttpBody} (hframed : body.Framed fields)
    (hlength : body.content.length < 2 ^ 31) (hempty : resp.content = []) (more : Bytes) :
    consume (fun _ => true) { fields.foldl note fresh with state := .expectingNewline_3 } resp
        (10 :: (body.text ++ more)) =
      some (.parsingCompleted,
        { resp with content := body.content, keepAlive := resp.keepsAlive }) := by
  have hstep := step_headerEnd (fields.foldl note fresh) resp
  cases body with
  | sized content =>
      obtain ⟨hplain, hagree, hsome⟩ := hframed
      -- No field announces chunks, and every length field says the same length.
      have hchunked : ¬ (fields.foldl note fresh).chunked := by
        rw [foldl_note_chunked_iff]
        rintro (⟨field, hmem, hfield⟩ | hfresh)
        · exact hplain field hmem hfield
        · cases hfresh
      have hsize : (fields.foldl note fresh).contentSize = content.length := by
        refine foldl_note_contentSize fresh fields (fun field hmem hfield => ?_) ?_
        · rw [hagree field hmem hfield]
          exact atoiSize_decimal hlength
        · by_cases hnone : content = []
          · exact .inr (by rw [hnone]; rfl)
          · exact .inl (hsome hnone)
      rw [if_neg hchunked] at hstep
      by_cases hnone : content = []
      · rw [if_pos (by rw [hsize, hnone, List.length_nil])] at hstep
        rw [consume_done hstep, HttpBody.content, hnone, ← hempty]
      · rw [if_neg (by rw [hsize]; exact fun h => hnone (List.length_eq_zero_iff.mp h))] at hstep
        have hpost := consume_post (fields.foldl note fresh)
          { resp with keepAlive := resp.keepsAlive } hnone (lt_trans hlength (by decide)) more
        rw [← hsize, hempty, List.nil_append] at hpost
        exact (passes_next hstep _).trans hpost
  | chunked chunks last trailers =>
      obtain ⟨hsome, _⟩ := hframed
      rw [if_pos ((foldl_note_chunked_iff fresh fields).mpr (.inl hsome))] at hstep
      -- The fields leave the variables for the size of a chunk as they were.
      obtain ⟨hsizeStr, hchunkSize⟩ := foldl_note_rest fresh fields
      have hbetween : { fields.foldl note fresh with state := .chunkSize } =
          (fields.foldl note fresh).betweenChunks 0 := by
        unfold betweenChunks
        dsimp only
        rw [hsizeStr, hchunkSize]
        rfl
      have hfits : resp.content.length + (chunks.flatMap HttpChunk.data).length ≤ vectorMaxSize := by
        rw [hempty, List.length_nil, Nat.zero_add]
        exact le_trans (le_of_lt hlength) (by decide)
      have hchunks := consume_chunked (fields.foldl note fresh)
        { resp with keepAlive := resp.keepsAlive } 0 chunks last trailers hfits more
      rw [hempty, List.nil_append, ← hbetween] at hchunks
      exact (passes_next hstep _).trans hchunks

/-- A message is read as what it says, whatever stands behind it. -/
theorem parse_message (message : HttpMessage) (more : Bytes) :
    parse (fun _ => true) .fresh (message.text ++ more) =
      some (.parsingCompleted, message.response) := by
  have hfront := passes_front message (10 :: (message.body.text ++ more))
  have htext : message.text ++ more = ascii "HTTP/" ++ decimal message.major ++ [46] ++
      decimal message.minor ++ [32] ++ decimal message.code ++ [32] ++ message.status ++ crlf ++
      message.fields.flatMap HeaderField.line ++ [13] ++ 10 :: (message.body.text ++ more) := by
    simp [HttpMessage.text, crlf]
  rw [parse, htext, hfront, consume_body message.header message.framed message.content_lt rfl]
  rfl

end HttpResponseParser

/-! ## Through wget -/

/-- What one result of `read` delivers. -/
def PipeRead.bytes : PipeRead → Bytes
  | .data chunk => chunk.bytes
  | _ => []

/-- The output is what was delivered, in whatever pieces. -/
theorem pipeLoop_bytes {reads : List PipeRead}
    (hreads : ∀ read ∈ reads, read = .eintr ∨ ∃ chunk, read = .data chunk ∧ chunk.bytes ≠ []) :
    pipeLoop reads = (reads.flatMap PipeRead.bytes, true) := by
  induction reads with
  | nil => rfl
  | cons read reads ih =>
      have hrest := ih fun other hmem => hreads other (List.mem_cons_of_mem read hmem)
      rcases hreads read List.mem_cons_self with rfl | ⟨chunk, rfl, hne⟩
      · exact hrest
      · rw [pipeLoop, if_neg hne, hrest]
        rfl

/-- A child that wrote a message, in any pieces and with anything behind it, is judged by what the
message says. -/
theorem judgeChild_message (message : HttpMessage) {system : WgetSystem}
    (hreads : ∀ read ∈ system.reads, read = .eintr ∨ ∃ chunk, read = .data chunk ∧ chunk.bytes ≠ [])
    (hwritten : message.text <+: system.reads.flatMap PipeRead.bytes)
    (hended : system.ended = .exited wgetNoError ∨ system.ended = .exited wgetServerError)
    (hgranted : ∀ i, system.granted i = true) :
    judgeChild system (pipeLoop system.reads).1 .fresh = some (true, message.response) := by
  obtain ⟨more, hmore⟩ := hwritten
  have hall : system.granted = fun _ => true := funext hgranted
  have hparse := HttpResponseParser.parse_message message more
  rw [hmore] at hparse
  rw [pipeLoop_bytes hreads]
  unfold judgeChild
  rcases hended with hcode | hcode
  · rw [hcode]
    dsimp only
    rw [if_neg (by decide), if_pos (.inl rfl), hall, hparse]
    rfl
  · rw [hcode]
    dsimp only
    rw [if_neg (by decide), if_pos (.inr rfl), hall, hparse]
    rfl

/-- A request whose child wrote a message succeeds with what the message says. -/
theorem request_receives_message (message : HttpMessage) {system : WgetSystem} {request : Request}
    (hreads : ∀ read ∈ system.reads, read = .eintr ∨ ∃ chunk, read = .data chunk ∧ chunk.bytes ≠ [])
    (hwritten : message.text <+: system.reads.flatMap PipeRead.bytes)
    (hcalls : ¬ CallFails system request.body)
    (hended : system.ended = .exited wgetNoError ∨ system.ended = .exited wgetServerError)
    (hgranted : ∀ i, system.granted i = true) (args : List Bytes) :
    (AgentWget.request args system request .fresh).outcome = some (true, message.response) := by
  rw [(outcome_of_child hcalls).1]
  exact judgeChild_message message hreads hwritten hended hgranted

/-- The head of a chunk of two bytes, and that of the last chunk, with an extension. -/
def headTwo : ChunkHead 2 := ⟨ascii "02", [], forall_mem_of_all (by decide), by decide, .none⟩

def headLast : ChunkHead 0 :=
  ⟨ascii "0", ascii ";last", forall_mem_of_all (by decide), by decide,
    .name (forall_mem_of_all (by decide))⟩

/-- A message in chunks. -/
def HttpMessage.chunkedOk : HttpMessage where
  major := 1
  minor := 1
  code := 200
  status := ascii "OK"
  fields := [⟨ascii "transfer-encoding", ascii "Chunked", by decide,
    forall_mem_of_all (by decide), forall_mem_of_all (by decide)⟩]
  body := .chunked [⟨ascii "\x7b\x7d", by decide, headTwo⟩] headLast []
  major_lt := by decide
  minor_lt := by decide
  code_ge := by decide
  code_le := by decide
  status_ne_nil := by decide
  status_chars := forall_mem_of_all (by decide)
  framed := by
    refine ⟨⟨_, List.mem_singleton_self _, by decide, by decide⟩, fun field hmem hlength => ?_⟩
    rw [List.mem_singleton.mp hmem] at hlength
    exact absurd hlength (by unfold HeaderField.IsLength; decide)
  content_lt := by decide

/-- A wget whose output is read in two pieces, with an interruption between them. -/
def WgetSystem.twoPieces : WgetSystem :=
  { WgetSystem.networkFailure with
    reads := [.data ⟨HttpMessage.chunkedOk.text.take 20, by decide⟩, .eintr,
      .data ⟨HttpMessage.chunkedOk.text.drop 20, by decide⟩]
    ended := .exited wgetNoError }

theorem request_receives_message_chunked :
    (AgentWget.request (wgetArgs false .initial) .twoPieces ⟨ascii "https://ias", [], []⟩
      .fresh).outcome = some (true, HttpMessage.chunkedOk.response) := by
  refine request_receives_message .chunkedOk ?_ ?_ ?_ (.inl rfl) (fun _ => rfl) _
  · intro read hmem
    simp only [WgetSystem.twoPieces, List.mem_cons, List.not_mem_nil, or_false] at hmem
    rcases hmem with rfl | rfl | rfl
    · exact .inr ⟨_, rfl, by decide⟩
    · exact .inl rfl
    · exact .inr ⟨_, rfl, by decide⟩
  · exact ⟨[], by decide⟩
  · intro hfails
    cases hfails with
    | mkstemp hbody _ => exact hbody rfl
    | write hbody _ => exact hbody rfl
    | pipe hfails => cases hfails
    | fork hfails => cases hfails
    | read hfails =>
        rw [← pipeLoop_fails_iff] at hfails
        revert hfails
        decide
    | waitpid hfails => cases hfails

end RemoteAttestation
