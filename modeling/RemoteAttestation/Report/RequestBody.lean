import RemoteAttestation.Report.AgentWget
import RemoteAttestation.Report.Json
import RemoteAttestation.ServiceProvider.Environment

/-! # The body of a report request

`IAS_Request::report` writes the JSON text of its payload by hand. What wget is given in a file
is this text, whatever pieces it was written in, and the parser of the report reads it as the
payload again.
-/

namespace RemoteAttestation

/-- The printable characters that need no escape in a JSON string. -/
def isPlain (c : UInt8) : Bool := 32 ≤ c && c ≤ 126 && c != 34 && c != 92

def PlainText (text : Bytes) : Prop := ∀ c ∈ text, isPlain c = true

/-- A `map<string, string>` of plain texts, in the order in which it is run through. -/
structure Payload where
  entries : List (Bytes × Bytes)
  distinct : entries.Pairwise fun left right => left.1 ≠ right.1
  plain : ∀ entry ∈ entries, PlainText entry.1 ∧ PlainText entry.2

/-- The object that stands for a payload. -/
def Payload.json (payload : Payload) : Json :=
  .object (payload.entries.map fun entry => (entry.1, .string entry.2))

namespace Json

/-! ## Strings -/

/-- A plain character is none of those that the parser or the printer treats on its own. -/
theorem isPlain_facts (c : UInt8) : isPlain c = true →
    c ≠ 34 ∧ c ≠ 92 ∧ c ≠ 8 ∧ c ≠ 12 ∧ c ≠ 10 ∧ c ≠ 13 ∧ c ≠ 9 := by
  revert c
  exact forall_uint8 (by decide +kernel)

theorem jsonEscape_plain {text : Bytes} (htext : PlainText text) : jsonEscape text = text := by
  induction text with
  | nil => rfl
  | cons c rest ih =>
      obtain ⟨hquote, hback, hb, hf, hn, hr, ht⟩ := isPlain_facts c (htext c List.mem_cons_self)
      have hrest := ih fun d hd => htext d (List.mem_cons_of_mem _ hd)
      unfold jsonEscape at hrest ⊢
      rw [List.flatMap_cons, hrest, if_neg hquote, if_neg hback, if_neg hb, if_neg hf, if_neg hn,
        if_neg hr, if_neg ht]
      rfl

/-- A plain text is read up to its closing quote. -/
theorem parseString_plain {key : Bytes} (hkey : PlainText key) (tail text : Bytes) :
    parseString (key ++ 34 :: tail) text = .ok (.string (text ++ key), some tail) := by
  induction key generalizing text with
  | nil =>
      rw [List.nil_append, List.append_nil, parseString.eq_def]
      exact if_pos rfl
  | cons c rest ih =>
      obtain ⟨hquote, hback, _⟩ := isPlain_facts c (hkey c List.mem_cons_self)
      rw [List.cons_append, parseString.eq_def]
      dsimp only
      rw [if_neg hquote, if_neg hback, ih fun d hd => hkey d (List.mem_cons_of_mem _ hd),
        List.append_assoc, List.singleton_append]

/-- White space in front of a quoted text is skipped. -/
theorem parseNext_quoted {key : Bytes} (hkey : PlainText key) {blank : Bytes}
    (hblank : ∀ c ∈ blank, isSpace c = true) (fuel : Nat) (tail : Bytes) :
    parseNext (fuel + 1) (some (blank ++ 34 :: (key ++ 34 :: tail))) =
      .ok (.string key, some tail) := by
  have hskip : (blank ++ 34 :: (key ++ 34 :: tail)).dropWhile isSpace =
      34 :: (key ++ 34 :: tail) := by
    rw [List.dropWhile_append_of_pos hblank]
    rfl
  rw [parseNext, consumeWs, hskip]
  exact parseString_plain hkey tail []

/-! ## Objects -/

/-- One entry, as `report` writes it. -/
def member (entry : Bytes × Bytes) : Bytes := [34] ++ entry.1 ++ ascii "\":\"" ++ entry.2 ++ [34]

theorem member_append (entry : Bytes × Bytes) (tail : Bytes) :
    member entry ++ tail = 34 :: (entry.1 ++ 34 :: 58 :: 34 :: (entry.2 ++ 34 :: tail)) := by
  have hseparator : ascii "\":\"" = [34, 58, 34] := rfl
  simp [member, hseparator]

/-- A new key goes to the end. -/
theorem assign_new {key : Bytes} {value : Json} {entries : List (Bytes × Json)}
    (hnew : ∀ entry ∈ entries, entry.1 ≠ key) :
    assign key value entries = entries ++ [(key, value)] := by
  have hany : ¬ (entries.any fun entry => entry.1 == key) = true := by
    rw [List.any_eq_true]
    rintro ⟨entry, hmem, hkey⟩
    exact hnew entry hmem (eq_of_beq hkey)
  rw [assign, if_neg hany]

/-- One turn of the loop of `parse_object` takes one entry. -/
theorem objectLoop_member {entry : Bytes × Bytes} (hkey : PlainText entry.1)
    (hvalue : PlainText entry.2) {blank : Bytes} (hblank : ∀ c ∈ blank, isSpace c = true)
    {entries : List (Bytes × Json)} (hnew : ∀ old ∈ entries, old.1 ≠ entry.1) (fuel : Nat)
    (tail : Bytes) :
    objectLoop (fuel + 2) entries (some (blank ++ (member entry ++ tail))) =
      (consumeWs (some tail)).bind fun cursor => (peek cursor).bind fun c =>
        if c = 44 then
          objectLoop (fuel + 1) (entries ++ [(entry.1, .string entry.2)]) (advance cursor)
        else if c = 125 then
          .ok (.object (entries ++ [(entry.1, .string entry.2)]), advance cursor)
        else .ok (.object (entries ++ [(entry.1, .string entry.2)]), cursor) := by
  have hcolon : (58 :: 34 :: (entry.2 ++ 34 :: tail)).dropWhile isSpace =
      58 :: 34 :: (entry.2 ++ 34 :: tail) := rfl
  have hquote : (34 :: (entry.2 ++ 34 :: tail)).dropWhile isSpace =
      34 :: (entry.2 ++ 34 :: tail) := rfl
  have hsecond := parseNext_quoted hvalue (fun _ h => absurd h List.not_mem_nil) fuel tail
  rw [List.nil_append] at hsecond
  rw [objectLoop, member_append, parseNext_quoted hkey hblank]
  simp only [bind, Except.bind, consumeWs, hcolon, peek, advance, hquote, hsecond, toText,
    jsonEscape_plain hkey, assign_new hnew, ne_eq, not_true_eq_false, if_false]

/-- The entries of a payload, and what `report` puts behind them. -/
theorem objectLoop_members (rest : List (Bytes × Bytes)) (first : Bytes × Bytes)
    (hplain : ∀ entry ∈ first :: rest, PlainText entry.1 ∧ PlainText entry.2)
    (hdistinct : (first :: rest).Pairwise fun left right => left.1 ≠ right.1) {blank : Bytes}
    (hblank : ∀ c ∈ blank, isSpace c = true) (entries : List (Bytes × Json))
    (hnew : ∀ old ∈ entries, ∀ entry ∈ first :: rest, old.1 ≠ entry.1) {fuel : Nat}
    (hfuel : rest.length < fuel) :
    objectLoop (fuel + 1) entries
        (some (blank ++ ([44, 10].intercalate ((first :: rest).map member) ++ ascii "\n\x7d"))) =
      .ok (.object (entries ++ (first :: rest).map fun entry => (entry.1, .string entry.2)),
        some []) := by
  induction rest generalizing first blank entries fuel with
  | nil =>
      obtain ⟨fuel, rfl⟩ : ∃ n, fuel = n + 1 := ⟨fuel - 1, by omega⟩
      obtain ⟨hkey, hvalue⟩ := hplain first List.mem_cons_self
      have hclose : (ascii "\n\x7d").dropWhile isSpace = [125] := rfl
      rw [List.map_singleton, List.intercalate_singleton,
        objectLoop_member hkey hvalue hblank fun old hold => hnew old hold first List.mem_cons_self]
      simp only [consumeWs, hclose]
      rfl
  | cons second rest ih =>
      obtain ⟨fuel, rfl⟩ : ∃ n, fuel = n + 1 := ⟨fuel - 1, by omega⟩
      obtain ⟨hkey, hvalue⟩ := hplain first List.mem_cons_self
      obtain ⟨hfirst, hothers⟩ := List.pairwise_cons.mp hdistinct
      have hnewline : ∀ c ∈ ([10] : Bytes), isSpace c = true := by simp [isSpace]
      have hcomma : ([44, 10] ++ ([44, 10].intercalate ((second :: rest).map member) ++
          ascii "\n\x7d")).dropWhile isSpace =
          44 :: ([10] ++ ([44, 10].intercalate ((second :: rest).map member) ++
            ascii "\n\x7d")) := rfl
      rw [List.map_cons, List.map_cons, List.intercalate_cons_cons, ← List.map_cons,
        List.append_assoc, List.append_assoc,
        objectLoop_member hkey hvalue hblank fun old hold => hnew old hold first List.mem_cons_self]
      simp only [consumeWs, hcomma]
      have hrest := ih second (fun entry h => hplain entry (List.mem_cons_of_mem _ h)) hothers
        hnewline (entries ++ [(first.1, .string first.2)]) ?_
        (show rest.length < fuel by rw [List.length_cons] at hfuel; omega)
      · rw [List.append_assoc, List.singleton_append] at hrest
        exact hrest
      · intro old hold entry hentry
        rcases List.mem_append.mp hold with hold | hold
        · exact hnew old hold entry (List.mem_cons_of_mem _ hentry)
        · rw [List.mem_singleton] at hold
          rw [hold]
          exact hfirst entry hentry

theorem length_members (entries : List (Bytes × Bytes)) :
    entries.length ≤ ([44, 10].intercalate (entries.map member)).length := by
  induction entries with
  | nil => exact Nat.zero_le _
  | cons first rest ih =>
      have hmember : 1 ≤ (member first).length := by
        simp [member]
      cases rest with
      | nil => simpa using hmember
      | cons second rest =>
          rw [List.map_cons, List.map_cons, List.intercalate_cons_cons, ← List.map_cons,
            List.length_append, List.length_append, List.length_cons]
          omega

theorem reportBody_eq (entries : List (Bytes × Bytes)) :
    reportBody entries =
      123 :: 10 :: ([44, 10].intercalate (entries.map member) ++ ascii "\n\x7d") := rfl

/-- An object that is not empty is read by the loop. -/
theorem parseNext_object (fuel : Nat) (text : Bytes) :
    parseNext (fuel + 1) (some (123 :: 10 :: 34 :: text)) =
      objectLoop fuel [] (some (34 :: text)) := by
  rw [parseNext]
  rfl

/-- The body of a report request is read as its payload. -/
theorem load_reportBody (payload : Payload) :
    load (reportBody payload.entries) = .ok payload.json := by
  obtain ⟨entries, hdistinct, hplain⟩ := payload
  unfold load
  cases entries with
  | nil =>
      rw [parseNext]
      rfl
  | cons first rest =>
      obtain ⟨text, hhead⟩ : ∃ text,
          [44, 10].intercalate ((first :: rest).map member) ++ ascii "\n\x7d" = 34 :: text :=
        ⟨_, congrArg (· ++ ascii "\n\x7d") List.intercalate_cons_cons_left⟩
      have hlength := length_members (first :: rest)
      have hfuel : rest.length < 2 * (reportBody (first :: rest)).length + 2 := by
        rw [reportBody_eq, List.length_cons, List.length_cons, List.length_append]
        rw [List.length_cons] at hlength
        omega
      have hloop := objectLoop_members rest first hplain hdistinct
        (fun _ h => absurd h List.not_mem_nil) [] (fun _ h => absurd h List.not_mem_nil) hfuel
      rw [List.nil_append, hhead, ← parseNext_object] at hloop
      have hbody : reportBody (first :: rest) = 123 :: 10 :: 34 :: text := by
        rw [reportBody_eq, hhead]
      rw [← hbody] at hloop
      exact congrArg (Except.map Prod.fst) hloop

end Json

/-- Whatever pieces it is written in, wget is given the body of the report request, and the
body is read as the payload. -/
theorem reportRequest_delivered {sys : Sys} (ias : IasConnection sys) (version : Nat)
    (payload : Payload) (args : List Bytes) {system : WgetSystem} (before : HttpResponse)
    (hmkstemp : system.mkstemp = true) (hwrites : .error ∉ system.writes)
    (hpipe : system.pipe = true) (hfork : system.fork = true) :
    ∃ child, (AgentWget.request args system (ias.reportRequest version payload.entries)
        before).child = some child ∧
      (ascii "--post-file=" ++ system.tmpfile) ∈ child.argv ∧
      child.postFile = some (reportBody payload.entries) ∧
      Json.load (reportBody payload.entries) = .ok payload.json := by
  have hbody : reportBody payload.entries ≠ [] := by
    unfold reportBody
    exact List.append_ne_nil_of_right_ne_nil _ (by decide)
  have hwritten : writeLoop system.writes (reportBody payload.entries) [] =
      some (reportBody payload.entries) := by
    cases hwrite : writeLoop system.writes (reportBody payload.entries) [] with
    | none =>
        obtain ⟨front, after, heq, _⟩ := writeLoop_eq_none_iff.mp hwrite
        rw [heq] at hwrites
        exact absurd (List.mem_append_right _ List.mem_cons_self) hwrites
    | some written => rw [writeLoop_some hwrite, List.nil_append]
  have hpost : writePost system (reportBody payload.entries) =
      some (some (reportBody payload.entries)) := by
    rw [writePost, if_neg hbody, hmkstemp, hwritten]
    rfl
  refine ⟨⟨requestArgs args system (ias.reportRequest version payload.entries),
    some (reportBody payload.entries)⟩, ?_, ?_, rfl, Json.load_reportBody payload⟩
  · unfold AgentWget.request IasConnection.reportRequest
    dsimp only
    rw [hpost, hpipe, hfork]
    rfl
  · unfold requestArgs IasConnection.reportRequest
    dsimp only
    rw [if_neg hbody]
    simp

/-- A quote under its key. -/
def quotePayload : Payload where
  entries := [(ascii "isvEnclaveQuote", ascii "AgAA")]
  distinct := List.pairwise_singleton _ _
  plain := by
    intro entry hentry
    rw [List.mem_singleton] at hentry
    rw [hentry]
    exact ⟨List.all_eq_true.mp (by decide), List.all_eq_true.mp (by decide)⟩

/-- It reaches wget in two pieces with an interruption between them. -/
theorem quotePayload_delivered :
    ∃ child, (AgentWget.request (wgetArgs false .initial)
        { WgetSystem.networkFailure with writes := [.bytes 3, .eintr, .bytes 7] }
        ((IasConnection.plain (.working .zero fun _ => none)).reportRequest 4
          quotePayload.entries) .fresh).child = some child ∧
      (ascii "--post-file=" ++ ascii "/tmp/wgetpostAAAAAA") ∈ child.argv ∧
      child.postFile = some (reportBody quotePayload.entries) ∧
      Json.load (reportBody quotePayload.entries) = .ok quotePayload.json :=
  reportRequest_delivered _ 4 quotePayload _ _ rfl (by decide) rfl rfl

end RemoteAttestation
