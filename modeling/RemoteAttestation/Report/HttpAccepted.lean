import RemoteAttestation.Report.HttpMessage

/-! # What the parser accepts

A response that the parser completes is a whole one: its status code has three digits, its header
fields are made of characters that such fields may have, and its content has the length that the
last length field announces, unless a field announces chunks. This is an invariant of the parser
by the part of the response that it is in.
-/

namespace RemoteAttestation

/-! ## Whole responses -/

def IsLengthName (name : Bytes) : Prop := sameIgnoringCase name (ascii "Content-Length") = true

instance (name : Bytes) : Decidable (IsLengthName name) := inferInstanceAs (Decidable (_ = true))

/-- The length that the last length field announces. -/
def announcedSize (headers : List (Bytes × Bytes)) : Nat :=
  ((headers.filter fun item => IsLengthName item.1).getLast?.map fun item => atoiSize item.2).getD 0

/-- A field that announces chunks. The code reads the value at the end of its first line. -/
def SaysChunked (item : Bytes × Bytes) : Prop :=
  sameIgnoringCase item.1 (ascii "Transfer-Encoding") = true ∧
    ∃ front, front <+: item.2 ∧ sameIgnoringCase front (ascii "chunked") = true

structure FieldOk (item : Bytes × Bytes) : Prop where
  name_ne_nil : item.1 ≠ []
  name_token : ∀ c ∈ item.1, isToken c = true
  value_plain : ∀ c ∈ item.2, isControl c = false

structure StartOk (resp : HttpResponse) : Prop where
  code_ge : 100 ≤ resp.statusCode
  code_le : resp.statusCode ≤ 999
  status_ne_nil : resp.status ≠ []
  status_chars : ∀ c ∈ resp.status, isChar c = true

theorem StartOk.congr {resp resp' : HttpResponse} (hstart : StartOk resp)
    (hcode : resp'.statusCode = resp.statusCode) (hstatus : resp'.status = resp.status) :
    StartOk resp' where
  code_ge := hcode ▸ hstart.code_ge
  code_le := hcode ▸ hstart.code_le
  status_ne_nil := hstatus ▸ hstart.status_ne_nil
  status_chars := hstatus ▸ hstart.status_chars

structure HttpResponse.Whole (resp : HttpResponse) : Prop where
  start : StartOk resp
  fields : ∀ item ∈ resp.headers, FieldOk item
  length : resp.content.length = announcedSize resp.headers ∨ ∃ item ∈ resp.headers, SaysChunked item

theorem isToken_of_taken {c : UInt8} (htaken : ¬ (!isChar c || isControl c || isSpecial c) = true) :
    isToken c = true := by
  rw [Bool.or_eq_true, Bool.or_eq_true, not_or, not_or, Bool.not_eq_true', Bool.not_eq_false] at htaken
  obtain ⟨⟨hchar, hcontrol⟩, hspecial⟩ := htaken
  rw [isToken, hchar, Bool.eq_false_of_not_eq_true hcontrol, Bool.eq_false_of_not_eq_true hspecial]
  rfl

theorem FieldOk.pushName {name : Bytes} (hfield : FieldOk (name, [])) {c : UInt8}
    (hc : isToken c = true) : FieldOk (name ++ [c], []) where
  name_ne_nil := List.append_ne_nil_of_right_ne_nil _ (List.cons_ne_nil _ _)
  name_token := by
    intro d hmem
    rcases List.mem_append.mp hmem with hold | hnew
    · exact hfield.name_token d hold
    · rw [List.mem_singleton.mp hnew]
      exact hc
  value_plain := fun _ hmem => absurd hmem List.not_mem_nil

theorem FieldOk.pushValue {item : Bytes × Bytes} (hfield : FieldOk item) {c : UInt8}
    (hc : ¬ isControl c = true) : FieldOk (item.1, item.2 ++ [c]) where
  name_ne_nil := hfield.name_ne_nil
  name_token := hfield.name_token
  value_plain := by
    intro d hmem
    rcases List.mem_append.mp hmem with hold | hnew
    · exact hfield.value_plain d hold
    · rw [List.mem_singleton.mp hnew]
      exact Bool.eq_false_of_not_eq_true hc

/-- A longer value says no less. -/
theorem SaysChunked.push {item : Bytes × Bytes} (hannounced : SaysChunked item) (more : Bytes) :
    SaysChunked (item.1, item.2 ++ more) := by
  obtain ⟨hname, front, hfront, hvalue⟩ := hannounced
  exact ⟨hname, front, hfront.trans (List.prefix_append _ _), hvalue⟩

theorem exists_says_push {front : List (Bytes × Bytes)} {item : Bytes × Bytes}
    (hannounced : ∃ other ∈ front ++ [item], SaysChunked other) (more : Bytes) :
    ∃ other ∈ front ++ [(item.1, item.2 ++ more)], SaysChunked other := by
  obtain ⟨other, hmem, hother⟩ := hannounced
  rcases List.mem_append.mp hmem with hold | hlast
  · exact ⟨other, List.mem_append_left _ hold, hother⟩
  · rw [List.mem_singleton.mp hlast] at hother
    exact ⟨_, List.mem_append_right _ (List.mem_singleton_self _), hother.push more⟩

theorem forall_append_field {front : List (Bytes × Bytes)} {item : Bytes × Bytes}
    (hfront : ∀ other ∈ front, FieldOk other) (hitem : FieldOk item) :
    ∀ other ∈ front ++ [item], FieldOk other := by
  intro other hmem
  rcases List.mem_append.mp hmem with hold | hlast
  · exact hfront other hold
  · rw [List.mem_singleton.mp hlast]
    exact hitem

/-! ## Announcements -/

/-- What the parser has noted agrees with the fields. -/
structure Announces (parser : HttpResponseParser) (headers : List (Bytes × Bytes)) : Prop where
  size : parser.contentSize = announcedSize headers
  chunked : parser.chunked = true → ∃ item ∈ headers, SaysChunked item

theorem announcedSize_append (headers : List (Bytes × Bytes)) (item : Bytes × Bytes) :
    announcedSize (headers ++ [item]) =
      if IsLengthName item.1 then atoiSize item.2 else announcedSize headers := by
  unfold announcedSize
  rw [List.filter_append]
  by_cases hlength : IsLengthName item.1
  · rw [if_pos hlength, List.filter_cons_of_pos (by simpa using hlength), List.filter_nil,
      List.getLast?_append, List.getLast?_singleton]
    rfl
  · rw [if_neg hlength, List.filter_cons_of_neg (by simpa using hlength), List.filter_nil,
      List.append_nil]

theorem atoiSize_lt (text : Bytes) : atoiSize text < 2 ^ 64 := by
  have hatoi : atoi text < 2 ^ 32 := by
    unfold atoi
    split
    · decide
    · omega
    · exact Nat.mod_lt _ (by decide)
  unfold atoiSize
  split <;> omega

theorem announcedSize_lt (headers : List (Bytes × Bytes)) : announcedSize headers < 2 ^ 64 := by
  induction headers using List.reverseRecOn with
  | nil => decide
  | append_singleton headers item ih =>
      rw [announcedSize_append]
      split
      · exact atoiSize_lt item.2
      · exact ih

/-! ## The invariant -/

/-- The parts of a response. -/
inductive HttpPhase where
  | version
  | statusStart
  | status
  | line
  | name
  | value
  | sized
  | chunked
deriving DecidableEq

def HttpState.phase : HttpState → HttpPhase
  | .responseStatusStart | .responseHttpVersion_ht | .responseHttpVersion_htt
  | .responseHttpVersion_http | .responseHttpVersion_slash | .responseHttpVersion_majorStart
  | .responseHttpVersion_major | .responseHttpVersion_minorStart | .responseHttpVersion_minor
  | .responseHttpVersion_statusCodeStart | .responseHttpVersion_statusCode => .version
  | .responseHttpVersion_statusTextStart => .statusStart
  | .responseHttpVersion_statusText | .responseHttpVersion_newLine => .status
  | .headerLineStart | .headerLws | .expectingNewline_2 | .expectingNewline_3 => .line
  | .headerName | .spaceBeforeHeaderValue => .name
  | .headerValue => .value
  | .post => .sized
  | .chunkSize | .chunkExtensionName | .chunkExtensionValue | .chunkSizeNewLine
  | .chunkSizeNewLine_2 | .chunkSizeNewLine_3 | .chunkTrailerName | .chunkTrailerValue
  | .chunkDataNewLine_1 | .chunkDataNewLine_2 | .chunkData => .chunked

/-- The parser has seen no field, and nothing of a body. -/
structure Bare (parser : HttpResponseParser) (resp : HttpResponse) : Prop where
  headers : resp.headers = []
  content : resp.content = []
  size : parser.contentSize = 0
  chunked : parser.chunked = false

/-- What holds in a part of the response. -/
def HttpPhase.Holds (parser : HttpResponseParser) (resp : HttpResponse) : HttpPhase → Prop
  | .version => Bare parser resp ∧ resp.status = []
  | .statusStart =>
      Bare parser resp ∧ resp.status = [] ∧ 100 ≤ resp.statusCode ∧ resp.statusCode ≤ 999
  | .status => Bare parser resp ∧ StartOk resp
  | .line =>
      StartOk resp ∧ resp.content = [] ∧ (∀ item ∈ resp.headers, FieldOk item) ∧
        Announces parser resp.headers ∧ (parser.state = .headerLws → resp.headers ≠ [])
  | .name =>
      StartOk resp ∧ resp.content = [] ∧ ∃ front name, resp.headers = front ++ [(name, [])] ∧
        (∀ item ∈ front, FieldOk item) ∧ FieldOk (name, []) ∧ Announces parser front
  | .value =>
      StartOk resp ∧ resp.content = [] ∧ ∃ front item, resp.headers = front ++ [item] ∧
        (∀ other ∈ front, FieldOk other) ∧ FieldOk item ∧
        (¬ IsLengthName item.1 → parser.contentSize = announcedSize front) ∧
        (parser.chunked = true → ∃ other ∈ resp.headers, SaysChunked other)
  | .sized =>
      StartOk resp ∧ (∀ item ∈ resp.headers, FieldOk item) ∧ 0 < parser.contentSize ∧
        resp.content.length + parser.contentSize = announcedSize resp.headers
  | .chunked =>
      StartOk resp ∧ (∀ item ∈ resp.headers, FieldOk item) ∧ ∃ item ∈ resp.headers, SaysChunked item

def HttpResponseParser.Inv (parser : HttpResponseParser) (resp : HttpResponse) : Prop :=
  parser.state.phase.Holds parser resp

/-- What a step has to lead to. -/
def ParseStep.Keeps : ParseStep → Prop
  | .next parser resp => parser.Inv resp
  | .reserve _ parser resp => parser.Inv resp
  | .done result resp => result = .parsingCompleted → resp.Whole

theorem ParseStep.Keeps.error (resp : HttpResponse) : (ParseStep.done .parsingError resp).Keeps :=
  fun h => nomatch h

theorem ParseStep.Keeps.next {phase : HttpPhase} {parser : HttpResponseParser} {resp : HttpResponse}
    (hphase : parser.state.phase = phase) (hholds : phase.Holds parser resp) :
    (ParseStep.next parser resp).Keeps := by
  rw [← hphase] at hholds
  exact hholds

namespace HttpResponseParser

variable {parser : HttpResponseParser} {resp : HttpResponse}

theorem inv_fresh : fresh.Inv .fresh := ⟨⟨rfl, rfl, rfl, rfl⟩, rfl⟩

/-! ## The status line -/

theorem step_version (hphase : parser.state.phase = .version) (hinv : parser.Inv resp)
    {input : UInt8} {result : ParseStep} (hstep : parser.step resp input = result) :
    result.Keeps := by
  unfold Inv at hinv
  rw [hphase] at hinv
  obtain ⟨⟨hheaders, hcontent, hsize, hchunked⟩, hstatus⟩ := hinv
  have hstays : ∀ resp', resp'.headers = resp.headers → resp'.content = resp.content →
      resp'.status = resp.status → (ParseStep.next parser resp').Keeps := by
    intro resp' hheaders' hcontent' hstatus'
    exact .next hphase ⟨⟨hheaders'.trans hheaders, hcontent'.trans hcontent, hsize, hchunked⟩,
      hstatus'.trans hstatus⟩
  rw [step] at hstep
  cases hstate : parser.state
  all_goals
    rw [hstate] at hstep
    first
    | exact absurd hphase (by rw [hstate]; decide)
    | dsimp only at hstep
  case responseHttpVersion_statusCode =>
    split at hstep
    · subst hstep
      exact hstays _ rfl rfl rfl
    · split at hstep
      · subst hstep
        exact .error resp
      next hcode =>
        obtain ⟨hlow, hhigh⟩ := not_or.mp hcode
        split at hstep
        · subst hstep
          exact ⟨⟨hheaders, hcontent, hsize, hchunked⟩, hstatus, not_lt.mp hlow, not_lt.mp hhigh⟩
        · subst hstep
          exact .error resp
  -- In the other states a character leads to the next one, is taken, or is an error.
  all_goals
    split at hstep
    · subst hstep
      exact ⟨⟨hheaders, hcontent, hsize, hchunked⟩, hstatus⟩
    · first
      | (subst hstep; exact .error resp)
      | (split at hstep
         · subst hstep
           exact hstays _ rfl rfl rfl
         · subst hstep
           exact .error resp)

theorem step_statusStart (hphase : parser.state.phase = .statusStart) (hinv : parser.Inv resp)
    {input : UInt8} {result : ParseStep} (hstep : parser.step resp input = result) :
    result.Keeps := by
  unfold Inv at hinv
  rw [hphase] at hinv
  obtain ⟨hbare, hstatus, hlow, hhigh⟩ := hinv
  rw [step] at hstep
  cases hstate : parser.state
  all_goals
    rw [hstate] at hstep
    first
    | exact absurd hphase (by rw [hstate]; decide)
    | dsimp only at hstep
  split at hstep
  next hchar =>
    subst hstep
    refine ⟨⟨hbare.headers, hbare.content, hbare.size, hbare.chunked⟩, hlow, hhigh, ?_, ?_⟩
    · exact List.append_ne_nil_of_right_ne_nil _ (List.cons_ne_nil _ _)
    · intro c hmem
      rw [HttpResponse.pushStatus, hstatus, List.nil_append, List.mem_singleton] at hmem
      rw [hmem]
      exact hchar
  next =>
    subst hstep
    exact .error resp

theorem step_status (hphase : parser.state.phase = .status) (hinv : parser.Inv resp)
    {input : UInt8} {result : ParseStep} (hstep : parser.step resp input = result) :
    result.Keeps := by
  unfold Inv at hinv
  rw [hphase] at hinv
  obtain ⟨hbare, hstart⟩ := hinv
  rw [step] at hstep
  cases hstate : parser.state
  all_goals
    rw [hstate] at hstep
    first
    | exact absurd hphase (by rw [hstate]; decide)
    | dsimp only at hstep
  case responseHttpVersion_statusText =>
    split at hstep
    · subst hstep
      exact ⟨⟨hbare.headers, hbare.content, hbare.size, hbare.chunked⟩, hstart⟩
    · split at hstep
      next hchar =>
        subst hstep
        refine .next hphase ⟨⟨hbare.headers, hbare.content, hbare.size, hbare.chunked⟩,
          hstart.code_ge, hstart.code_le, ?_, ?_⟩
        · exact List.append_ne_nil_of_right_ne_nil _ (List.cons_ne_nil _ _)
        · intro c hmem
          rcases List.mem_append.mp hmem with hold | hnew
          · exact hstart.status_chars c hold
          · rw [List.mem_singleton.mp hnew]
            exact hchar
      next =>
        subst hstep
        exact .error resp
  case responseHttpVersion_newLine =>
    split at hstep
    · subst hstep
      refine ⟨hstart, hbare.content, ?_, ⟨?_, ?_⟩, fun h => by cases h⟩
      · rw [hbare.headers]
        exact fun _ hmem => absurd hmem List.not_mem_nil
      · rw [hbare.headers]
        exact hbare.size
      · intro hchunked
        cases hbare.chunked.symm.trans hchunked
    · subst hstep
      exact .error resp

/-! ## Header fields -/

theorem step_line (hphase : parser.state.phase = .line) (hinv : parser.Inv resp)
    {input : UInt8} {result : ParseStep} (hstep : parser.step resp input = result) :
    result.Keeps := by
  unfold Inv at hinv
  rw [hphase] at hinv
  obtain ⟨hstart, hcontent, hfields, hannounces, hfolded⟩ := hinv
  rw [step] at hstep
  cases hstate : parser.state
  all_goals
    rw [hstate] at hstep
    first
    | exact absurd hphase (by rw [hstate]; decide)
    | dsimp only at hstep
  case headerLineStart =>
    split at hstep
    · subst hstep
      exact ⟨hstart, hcontent, hfields, ⟨hannounces.size, hannounces.chunked⟩, fun h => by cases h⟩
    · split at hstep
      next hfold =>
        -- A line that goes on needs a field before it.
        subst hstep
        exact ⟨hstart, hcontent, hfields, ⟨hannounces.size, hannounces.chunked⟩, fun _ => hfold.1⟩
      next =>
        split at hstep
        · subst hstep
          exact .error resp
        next htaken =>
          -- The first character of a name begins a field.
          subst hstep
          refine ⟨hstart.congr rfl rfl, hcontent, resp.headers, [input], rfl, hfields, ?_,
            ⟨hannounces.size, hannounces.chunked⟩⟩
          refine ⟨List.cons_ne_nil _ _, fun c hmem => ?_, fun _ hmem => absurd hmem List.not_mem_nil⟩
          rw [List.mem_singleton.mp hmem]
          exact isToken_of_taken htaken
  case headerLws =>
    split at hstep
    · subst hstep
      exact ⟨hstart, hcontent, hfields, ⟨hannounces.size, hannounces.chunked⟩, fun h => by cases h⟩
    · split at hstep
      · subst hstep
        exact .next hphase ⟨hstart, hcontent, hfields, hannounces, hfolded⟩
      · split at hstep
        · subst hstep
          exact .error resp
        next hplain =>
          subst hstep
          -- The last field goes on: its value is read again at the end of this line.
          obtain ⟨front, item, hheaders⟩ := (List.eq_nil_or_concat' resp.headers).resolve_left
            (hfolded hstate)
          rw [hheaders] at hfields hannounces
          refine ⟨hstart.congr rfl rfl, hcontent, front, (item.1, item.2 ++ [input]), ?_,
            fun other hmem => hfields other (List.mem_append_left _ hmem),
            (hfields item (List.mem_append_right _ (List.mem_singleton_self _))).pushValue hplain, ?_, ?_⟩
          · rw [HttpResponse.pushValue, hheaders]
            exact updateBack_append _ front item
          · intro hlength
            have hsize := hannounces.size
            rw [announcedSize_append, if_neg hlength] at hsize
            exact hsize
          · intro hchunked
            rw [HttpResponse.pushValue, hheaders, updateBack_append]
            exact exists_says_push (hannounces.chunked hchunked) [input]
  case expectingNewline_2 =>
    split at hstep
    · subst hstep
      exact ⟨hstart, hcontent, hfields, ⟨hannounces.size, hannounces.chunked⟩, fun h => by cases h⟩
    · subst hstep
      exact .error resp
  case expectingNewline_3 =>
    -- The header ends: the body comes in chunks, is empty, or has the announced length.
    split at hstep
    next hchunked =>
      subst hstep
      exact ⟨hstart.congr rfl rfl, hfields, hannounces.chunked hchunked⟩
    next =>
      split at hstep
      next hsize =>
        subst hstep
        intro _
        refine ⟨hstart.congr rfl rfl, hfields, .inl ?_⟩
        rw [← hannounces.size, hsize]
        exact List.length_eq_zero_iff.mpr hcontent
      next hsize =>
        subst hstep
        refine ⟨hstart.congr rfl rfl, hfields, Nat.pos_of_ne_zero hsize, ?_⟩
        rw [← hannounces.size, hcontent, List.length_nil, Nat.zero_add]

theorem step_name (hphase : parser.state.phase = .name) (hinv : parser.Inv resp)
    {input : UInt8} {result : ParseStep} (hstep : parser.step resp input = result) :
    result.Keeps := by
  unfold Inv at hinv
  rw [hphase] at hinv
  obtain ⟨hstart, hcontent, front, name, hheaders, hfields, hfield, hannounces⟩ := hinv
  rw [step] at hstep
  cases hstate : parser.state
  all_goals
    rw [hstate] at hstep
    first
    | exact absurd hphase (by rw [hstate]; decide)
    | dsimp only at hstep
  case headerName =>
    split at hstep
    · subst hstep
      exact ⟨hstart, hcontent, front, name, hheaders, hfields, hfield,
        ⟨hannounces.size, hannounces.chunked⟩⟩
    · split at hstep
      · subst hstep
        exact .error resp
      next htaken =>
        subst hstep
        refine .next hphase ⟨hstart.congr rfl rfl, hcontent, front, name ++ [input], ?_, hfields,
          hfield.pushName (isToken_of_taken htaken), hannounces⟩
        rw [HttpResponse.pushName, hheaders]
        exact updateBack_append _ front (name, [])
  case spaceBeforeHeaderValue =>
    split at hstep
    · subst hstep
      refine ⟨hstart, hcontent, front, (name, []), hheaders, hfields, hfield,
        fun _ => hannounces.size, fun hchunked => ?_⟩
      obtain ⟨other, hmem, hannounced⟩ := hannounces.chunked hchunked
      rw [hheaders]
      exact ⟨other, List.mem_append_left _ hmem, hannounced⟩
    · subst hstep
      exact .error resp

theorem step_value (hphase : parser.state.phase = .value) (hinv : parser.Inv resp)
    {input : UInt8} {result : ParseStep} (hstep : parser.step resp input = result) :
    result.Keeps := by
  unfold Inv at hinv
  rw [hphase] at hinv
  obtain ⟨hstart, hcontent, front, item, hheaders, hfields, hfield, hsize, hchunked⟩ := hinv
  have hall : ∀ other ∈ resp.headers, FieldOk other := by
    rw [hheaders]
    exact forall_append_field hfields hfield
  have hlast : resp.headers.getLastD ([], []) = item := by
    rw [hheaders, List.getLastD_concat]
  rw [step] at hstep
  cases hstate : parser.state
  all_goals
    rw [hstate] at hstep
    first
    | exact absurd hphase (by rw [hstate]; decide)
    | dsimp only at hstep
  rw [hlast] at hstep
  -- At the end of its line a field is a length, a coding, or neither.
  split at hstep
  · split at hstep
    next hlength =>
      subst hstep
      refine ⟨hstart, hcontent, hall, ⟨?_, hchunked⟩, fun h => by cases h⟩
      rw [hheaders, announcedSize_append, if_pos (show IsLengthName item.1 from hlength)]
    next hlength =>
      have hkept : parser.contentSize = announcedSize resp.headers := by
        rw [hheaders, announcedSize_append, if_neg (show ¬ IsLengthName item.1 from hlength)]
        exact hsize hlength
      split at hstep
      next hencoding =>
        subst hstep
        refine ⟨hstart, hcontent, hall, ⟨hkept, fun hannounced => ?_⟩, fun h => by cases h⟩
        rcases Bool.or_eq_true_iff.mp hannounced with hvalue | hold
        · rw [hheaders]
          exact ⟨item, List.mem_append_right _ (List.mem_singleton_self _), hencoding, item.2,
            List.prefix_rfl, hvalue⟩
        · exact hchunked hold
      next =>
        subst hstep
        exact ⟨hstart, hcontent, hall, ⟨hkept, hchunked⟩, fun h => by cases h⟩
  · split at hstep
    · subst hstep
      exact .error resp
    next hplain =>
      subst hstep
      refine .next hphase ⟨hstart.congr rfl rfl, hcontent, front, (item.1, item.2 ++ [input]), ?_,
        hfields, hfield.pushValue hplain, hsize, fun h => ?_⟩
      · rw [HttpResponse.pushValue, hheaders]
        exact updateBack_append _ front item
      -- A value that grew at its end still begins with what it was.
      · rw [HttpResponse.pushValue, hheaders, updateBack_append]
        rw [hheaders] at hchunked
        exact exists_says_push (hchunked h) [input]

/-! ## Bodies -/

theorem step_sized (hphase : parser.state.phase = .sized) (hinv : parser.Inv resp)
    {input : UInt8} {result : ParseStep} (hstep : parser.step resp input = result) :
    result.Keeps := by
  unfold Inv at hinv
  rw [hphase] at hinv
  obtain ⟨hstart, hfields, hpos, hlength⟩ := hinv
  have hbound := announcedSize_lt resp.headers
  rw [step] at hstep
  cases hstate : parser.state
  all_goals
    rw [hstate] at hstep
    first
    | exact absurd hphase (by rw [hstate]; decide)
    | dsimp only at hstep
  -- The count of the bytes to come is positive, so the `size_t` does not wrap.
  have hless : (parser.contentSize + (2 ^ 64 - 1)) % 2 ^ 64 = parser.contentSize - 1 := by omega
  have hpushed : (resp.pushContent input).content.length = resp.content.length + 1 := by
    rw [HttpResponse.pushContent, List.length_append, List.length_singleton]
  rw [hless] at hstep
  split at hstep
  next hdone =>
    subst hstep
    intro _
    refine ⟨hstart.congr rfl rfl, hfields, .inl ?_⟩
    show (resp.pushContent input).content.length = announcedSize resp.headers
    omega
  next hmore =>
    subst hstep
    refine ⟨hstart.congr rfl rfl, hfields, Nat.pos_of_ne_zero hmore, ?_⟩
    show (resp.pushContent input).content.length + (parser.contentSize - 1) =
      announcedSize resp.headers
    omega

theorem step_chunked (hphase : parser.state.phase = .chunked) (hinv : parser.Inv resp)
    {input : UInt8} {result : ParseStep} (hstep : parser.step resp input = result) :
    result.Keeps := by
  unfold Inv at hinv
  rw [hphase] at hinv
  obtain ⟨hstart, hfields, hannounced⟩ := hinv
  have hkeeps : ∀ parser' resp', parser'.state.phase = .chunked → resp'.headers = resp.headers →
      resp'.statusCode = resp.statusCode → resp'.status = resp.status →
      (ParseStep.next parser' resp').Keeps := by
    intro parser' resp' hphase' hheaders hcode hstatus
    refine .next hphase' ⟨hstart.congr hcode hstatus, ?_, ?_⟩
    · rw [hheaders]
      exact hfields
    · rw [hheaders]
      exact hannounced
  rw [step] at hstep
  cases hstate : parser.state
  all_goals
    rw [hstate] at hstep
    first
    | exact absurd hphase (by rw [hstate]; decide)
    | dsimp only at hstep
  case chunkData =>
    generalize (parser.chunkSize + (2 ^ 64 - 1)) % 2 ^ 64 = left at hstep
    subst hstep
    refine hkeeps _ _ ?_ rfl rfl rfl
    split <;> rfl
  case chunkSizeNewLine =>
    split at hstep
    · subst hstep
      refine hkeeps _ _ ?_ rfl rfl rfl
      split <;> rfl
    · subst hstep
      exact .error resp
  case chunkSizeNewLine_3 =>
    split at hstep
    · subst hstep
      exact fun _ => ⟨hstart, hfields, .inr hannounced⟩
    · subst hstep
      exact .error resp
  -- In the other states the response is left alone.
  all_goals
    repeat' split at hstep
  all_goals
    subst hstep
    first
    | exact .error resp
    | exact hkeeps _ _ hphase rfl rfl rfl
    | exact hkeeps _ _ rfl rfl rfl rfl

/-! ## Whole runs -/

theorem step_keeps (hinv : parser.Inv resp) (input : UInt8) : (parser.step resp input).Keeps := by
  cases hphase : parser.state.phase with
  | version => exact step_version hphase hinv rfl
  | statusStart => exact step_statusStart hphase hinv rfl
  | status => exact step_status hphase hinv rfl
  | line => exact step_line hphase hinv rfl
  | name => exact step_name hphase hinv rfl
  | value => exact step_value hphase hinv rfl
  | sized => exact step_sized hphase hinv rfl
  | chunked => exact step_chunked hphase hinv rfl

theorem whole_of_consume {granted : Nat → Bool} {text : Bytes} {last : HttpResponse}
    (hinv : parser.Inv resp)
    (hcompleted : parser.consume granted resp text = some (.parsingCompleted, last)) :
    last.Whole := by
  induction text generalizing granted parser resp with
  | nil => cases hcompleted
  | cons input rest ih =>
      have hkeeps := step_keeps hinv input
      rw [consume] at hcompleted
      split at hcompleted
      next hstep =>
        rw [hstep] at hkeeps
        exact ih hkeeps hcompleted
      next hstep =>
        rw [hstep] at hkeeps
        split at hcompleted
        · exact ih hkeeps hcompleted
        · cases hcompleted
      next hstep =>
        rw [hstep] at hkeeps
        cases hcompleted
        exact hkeeps rfl

/-- A response that is completed is a whole one, whatever the text and the allocator. -/
theorem parse_whole {granted : Nat → Bool} {text : Bytes} {resp : HttpResponse}
    (hcompleted : parse granted .fresh text = some (.parsingCompleted, resp)) : resp.Whole :=
  whole_of_consume inv_fresh hcompleted

/-- A response with a folded field, and something behind its content. -/
theorem parse_whole_folded : HttpResponse.Whole
    { statusCode := 200
      headers := [(ascii "Content-Length", ascii "2")]
      content := ascii "hi"
      versionMajor := 1
      versionMinor := 1
      keepAlive := true
      status := ascii "OK" } := by
  have hcompleted : parse (fun _ => true) .fresh
      (ascii "HTTP/1.1 200 OK\x0d\nContent-Length: \x0d\n 2\x0d\n\x0d\nhi!") =
      some (.parsingCompleted, { statusCode := 200
                                 headers := [(ascii "Content-Length", ascii "2")]
                                 content := ascii "hi"
                                 versionMajor := 1
                                 versionMinor := 1
                                 keepAlive := true
                                 status := ascii "OK" }) := by decide +kernel
  exact parse_whole hcompleted

end HttpResponseParser

end RemoteAttestation
