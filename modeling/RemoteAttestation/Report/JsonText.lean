import Mathlib.Data.List.DropRight
import RemoteAttestation.Foundation.Decimal
import RemoteAttestation.Report.Json

/-! # JSON texts

The texts that spell a JSON value, with white space wherever JSON allows it, and that
`JSON::Load` reads each of them as this value. Numbers are integers; a number is only read
where a character follows it that ends it.
-/

namespace RemoteAttestation

namespace Json

/-! ## The syntax -/

def Blank (text : Bytes) : Prop := ∀ c ∈ text, isSpace c = true

theorem blank_nil : Blank [] := by simp [Blank]

theorem blank_space : Blank [32] := by simp [Blank, isSpace]

theorem blank_newline : Blank [10] := by simp [Blank, isSpace]

/-- What stands behind a backslash, and the character it is for. -/
def escapes : List (UInt8 × UInt8) :=
  [(34, 34), (92, 92), (47, 47), (98, 8), (102, 12), (110, 10), (114, 13), (116, 9)]

/-- A text, as it is written between quotes. The code keeps a `\u` escape as it is. -/
inductive SpellsChars : Bytes → Bytes → Prop
  | nil : SpellsChars [] []
  | plain {c : UInt8} {text spelled : Bytes} (hquote : c ≠ 34) (hbackslash : c ≠ 92)
      (hrest : SpellsChars text spelled) : SpellsChars (c :: text) (c :: spelled)
  | escape {e c : UInt8} {text spelled : Bytes} (hescape : (e, c) ∈ escapes)
      (hrest : SpellsChars text spelled) : SpellsChars (c :: text) (92 :: e :: spelled)
  | unicode {digits text spelled : Bytes} (hlength : digits.length = 4)
      (hdigits : ∀ h ∈ digits, (hexValue? h).isSome) (hrest : SpellsChars text spelled) :
      SpellsChars (92 :: 117 :: digits ++ text) (92 :: 117 :: digits ++ spelled)

/-- A text without quotes and backslashes is written as it is. -/
theorem spellsChars_plain {text : Bytes} (hplain : ∀ c ∈ text, c ≠ 34 ∧ c ≠ 92) :
    SpellsChars text text := by
  induction text with
  | nil => exact .nil
  | cons c text ih =>
      obtain ⟨hquote, hbackslash⟩ := hplain c List.mem_cons_self
      exact .plain hquote hbackslash (ih fun d hmem => hplain d (List.mem_cons_of_mem c hmem))

/-- The object that the code makes of members: their keys are escaped, and the last one of a
key counts. -/
def collect (members : List (Bytes × Json)) (entries : List (Bytes × Json)) :
    List (Bytes × Json) :=
  members.foldl (fun entries member => assign (jsonEscape member.1) member.2 entries) entries

/-- The parts of a text: a value, or what stands between the brackets of one. -/
inductive Phrase where
  | value (json : Json)
  | items (items : List Json)
  | members (members : List (Bytes × Json))

/-- The texts of a phrase. -/
inductive Spells : Phrase → Bytes → Prop
  | null : Spells (.value .null) (ascii "null")
  | boolTrue : Spells (.value (.boolean true)) (ascii "true")
  | boolFalse : Spells (.value (.boolean false)) (ascii "false")
  | string {text spelled : Bytes} (hchars : SpellsChars text spelled) :
      Spells (.value (.string text)) (34 :: spelled ++ [34])
  | natural {digits : Bytes} (hsome : digits ≠ []) (hdigits : ∀ c ∈ digits, isDigit c = true)
      (hrange : digitsValue digits < 2 ^ 63) :
      Spells (.value (.integral (digitsValue digits))) digits
  | negative {digits : Bytes} (hsome : digits ≠ []) (hdigits : ∀ c ∈ digits, isDigit c = true)
      (hrange : digitsValue digits ≤ 2 ^ 63) :
      Spells (.value (.integral (-(digitsValue digits : Int)))) (45 :: digits)
  | emptyArray {blank : Bytes} (hblank : Blank blank) :
      Spells (.value (.array [])) (91 :: blank ++ [93])
  | array {items : List Json} {text : Bytes} (hitems : Spells (.items items) text) :
      Spells (.value (.array items)) (91 :: text ++ [93])
  | emptyObject {blank : Bytes} (hblank : Blank blank) :
      Spells (.value (.object [])) (123 :: blank ++ [125])
  | object {members : List (Bytes × Json)} {text : Bytes}
      (hmembers : Spells (.members members) text) :
      Spells (.value (.object (collect members []))) (123 :: text ++ [125])
  | item {item : Json} {front text back : Bytes} (hfront : Blank front)
      (hitem : Spells (.value item) text) (hback : Blank back) :
      Spells (.items [item]) (front ++ text ++ back)
  | moreItems {item : Json} {items : List Json} {front text back rest : Bytes}
      (hfront : Blank front) (hitem : Spells (.value item) text) (hback : Blank back)
      (hitems : Spells (.items items) rest) :
      Spells (.items (item :: items)) (front ++ text ++ back ++ 44 :: rest)
  | member {key spelled : Bytes} {value : Json} {front middle after text back : Bytes}
      (hfront : Blank front) (hkey : SpellsChars key spelled) (hmiddle : Blank middle)
      (hafter : Blank after) (hvalue : Spells (.value value) text) (hback : Blank back) :
      Spells (.members [(key, value)])
        (front ++ (34 :: spelled ++ [34]) ++ middle ++ 58 :: (after ++ text ++ back))
  | moreMembers {key spelled : Bytes} {value : Json} {members : List (Bytes × Json)}
      {front middle after text back rest : Bytes} (hfront : Blank front)
      (hkey : SpellsChars key spelled) (hmiddle : Blank middle) (hafter : Blank after)
      (hvalue : Spells (.value value) text) (hback : Blank back)
      (hmembers : Spells (.members members) rest) :
      Spells (.members ((key, value) :: members))
        (front ++ (34 :: spelled ++ [34]) ++ middle ++
          58 :: (after ++ text ++ back ++ 44 :: rest))

/-! ## Strings -/

/-- Each escape is read as its character. -/
theorem parseString_escape {e c : UInt8} (hescape : (e, c) ∈ escapes) (rest text : Bytes) :
    parseString (92 :: e :: rest) text = parseString rest (text ++ [c]) := by
  have hcases : ∀ entry ∈ escapes, parseString (92 :: entry.1 :: rest) text =
      parseString rest (text ++ [entry.2]) := by
    unfold escapes
    simp only [List.forall_mem_cons]
    refine ⟨?_, ?_, ?_, ?_, ?_, ?_, ?_, ?_, by simp⟩ <;> rw [parseString.eq_def] <;> rfl
  exact hcases _ hescape

/-- A spelled text is read to the closing quote. -/
theorem parseString_spelled {text spelled : Bytes} (hchars : SpellsChars text spelled)
    (read rest : Bytes) :
    parseString (spelled ++ 34 :: rest) read = .ok (.string (read ++ text), some rest) := by
  induction hchars generalizing read with
  | nil =>
      rw [List.nil_append, List.append_nil, parseString.eq_def]
      rfl
  | @plain c text spelled hquote hbackslash _ ih =>
      rw [List.cons_append, parseString.eq_def]
      dsimp only
      rw [if_neg hquote, if_neg hbackslash, ih, List.append_assoc]
      rfl
  | @escape e c text spelled hescape _ ih =>
      rw [List.cons_append, List.cons_append, parseString_escape hescape, ih, List.append_assoc]
      rfl
  | @unicode digits text spelled hlength hdigits _ ih =>
      match digits, hlength, hdigits with
      | [h₁, h₂, h₃, h₄], _, hdigits =>
          have hhex : ([h₁, h₂, h₃, h₄].all fun h => (hexValue? h).isSome) = true :=
            List.all_eq_true.mpr hdigits
          have hstep : parseString (92 :: 117 :: h₁ :: h₂ :: h₃ :: h₄ :: (spelled ++ 34 :: rest)) read =
              parseString (spelled ++ 34 :: rest) (read ++ [92, 117, h₁, h₂, h₃, h₄]) := by
            rw [parseString.eq_def]
            dsimp only
            rw [if_neg (by decide), if_pos rfl, if_pos hhex]
            rfl
          rw [ih, List.append_assoc] at hstep
          exact hstep

/-! ## White space -/

theorem consumeWs_some (text : Bytes) :
    consumeWs (some text) = .ok (some (text.dropWhile isSpace)) := rfl

theorem consumeWs_blank {blank : Bytes} (hblank : Blank blank) (text : Bytes) :
    consumeWs (some (blank ++ text)) = consumeWs (some text) := by
  rw [consumeWs_some, consumeWs_some, List.dropWhile_append_of_pos hblank]

theorem consumeWs_solid {c : UInt8} (hsolid : isSpace c = false) (rest : Bytes) :
    consumeWs (some (c :: rest)) = .ok (some (c :: rest)) := by
  rw [consumeWs_some, List.dropWhile_cons_of_neg (by simp [hsolid])]

theorem parseNext_congr {left right : Cursor} (hsame : consumeWs left = consumeWs right)
    (fuel : Nat) : parseNext fuel left = parseNext fuel right := by
  cases fuel with
  | zero => rw [parseNext, parseNext]
  | succ fuel => rw [parseNext, parseNext, hsame]

/-- A value may stand behind white space. -/
theorem parseNext_blank {blank : Bytes} (hblank : Blank blank) (fuel : Nat) (text : Bytes) :
    parseNext fuel (some (blank ++ text)) = parseNext fuel (some text) :=
  parseNext_congr (consumeWs_blank hblank text) fuel

theorem consumeWs_dropWhile (text : Bytes) :
    consumeWs (some (text.dropWhile isSpace)) = consumeWs (some text) := by
  rw [consumeWs_some, consumeWs_some, List.dropWhile_idempotent]

/-- A loop looks for a value first. -/
theorem arrayLoop_dropWhile (fuel : Nat) (items : List Json) (text : Bytes) :
    arrayLoop fuel items (some (text.dropWhile isSpace)) = arrayLoop fuel items (some text) := by
  cases fuel with
  | zero => rw [arrayLoop, arrayLoop]
  | succ fuel => rw [arrayLoop, arrayLoop, parseNext_congr (consumeWs_dropWhile text)]

theorem objectLoop_dropWhile (fuel : Nat) (entries : List (Bytes × Json)) (text : Bytes) :
    objectLoop fuel entries (some (text.dropWhile isSpace)) =
      objectLoop fuel entries (some text) := by
  cases fuel with
  | zero => rw [objectLoop, objectLoop]
  | succ fuel => rw [objectLoop, objectLoop, parseNext_congr (consumeWs_dropWhile text)]

/-! ## Brackets -/

/-- The first character behind the white space. -/
def firstSolid (text : Bytes) : Option UInt8 := (text.dropWhile isSpace).head?

/-- What the first character of a value leads to. -/
theorem parseNext_solid {c : UInt8} (hsolid : isSpace c = false) (fuel : Nat) (rest : Bytes) :
    parseNext (fuel + 1) (some (c :: rest)) =
      if c = 91 then do
        let cursor ← consumeWs (some rest)
        if (← peek cursor) = 93 then .ok (Json.array [], advance cursor)
        else arrayLoop fuel [] cursor
      else if c = 123 then do
        let cursor ← consumeWs (some rest)
        if (← peek cursor) = 125 then .ok (Json.object [], advance cursor)
        else objectLoop fuel [] cursor
      else if c = 34 then parseString rest []
      else if c = 116 ∨ c = 102 then .ok (parseBool (c :: rest))
      else if c = 110 then .ok (parseNull (c :: rest))
      else if isDigit c ∨ c = 45 then parseNumber (c :: rest)
      else .ok (.null, some (c :: rest)) := by
  rw [parseNext, consumeWs_solid hsolid]
  rfl

theorem parseNext_openArray {text : Bytes} {c : UInt8} (hfirst : firstSolid text = some c)
    (hopen : c ≠ 93) (fuel : Nat) :
    parseNext (fuel + 1) (some (91 :: text)) = arrayLoop fuel [] (some text) := by
  obtain ⟨rest, hrest⟩ := List.head?_eq_some_iff.mp hfirst
  rw [parseNext_solid rfl, if_pos rfl, ← arrayLoop_dropWhile, consumeWs_some, hrest]
  exact if_neg hopen

theorem parseNext_openObject {text : Bytes} {c : UInt8} (hfirst : firstSolid text = some c)
    (hopen : c ≠ 125) (fuel : Nat) :
    parseNext (fuel + 1) (some (123 :: text)) = objectLoop fuel [] (some text) := by
  obtain ⟨rest, hrest⟩ := List.head?_eq_some_iff.mp hfirst
  rw [parseNext_solid rfl, if_neg (by decide), if_pos rfl, ← objectLoop_dropWhile, consumeWs_some,
    hrest]
  exact if_neg hopen

theorem parseNext_emptyArray {blank : Bytes} (hblank : Blank blank) (fuel : Nat) (rest : Bytes) :
    parseNext (fuel + 1) (some (91 :: (blank ++ 93 :: rest))) = .ok (.array [], some rest) := by
  rw [parseNext_solid rfl, if_pos rfl, consumeWs_blank hblank, consumeWs_solid rfl]
  rfl

theorem parseNext_emptyObject {blank : Bytes} (hblank : Blank blank) (fuel : Nat) (rest : Bytes) :
    parseNext (fuel + 1) (some (123 :: (blank ++ 125 :: rest))) = .ok (.object [], some rest) := by
  rw [parseNext_solid rfl, if_neg (by decide), if_pos rfl, consumeWs_blank hblank,
    consumeWs_solid rfl]
  rfl

theorem parseNext_string {text spelled : Bytes} (hchars : SpellsChars text spelled) (fuel : Nat)
    (rest : Bytes) :
    parseNext (fuel + 1) (some (34 :: (spelled ++ 34 :: rest))) = .ok (.string text, some rest) := by
  rw [parseNext_solid rfl, if_neg (by decide), if_neg (by decide), if_pos rfl,
    parseString_spelled hchars, List.nil_append]

/-! ## Numbers -/

/-- A character that ends a number is not part of one. -/
theorem endsNumber_facts (c : UInt8) : endsNumber c = true →
    isDigit c = false ∧ c ≠ 45 ∧ c ≠ 46 ∧ c ≠ 69 ∧ c ≠ 101 := by
  revert c
  exact forall_uint8 (by decide +kernel)

/-- A digit is read as a number and nothing else. -/
theorem digit_facts (c : UInt8) : isDigit c = true →
    isSpace c = false ∧ c ≠ 34 ∧ c ≠ 45 ∧ c ≠ 46 ∧ c ≠ 91 ∧ c ≠ 93 ∧ c ≠ 102 ∧ c ≠ 110 ∧ c ≠ 116 ∧
      c ≠ 123 ∧ c ≠ 125 := by
  revert c
  exact forall_uint8 (by decide +kernel)

theorem stol_natural {digits : Bytes} (hsome : digits ≠ []) (hdigits : ∀ c ∈ digits, isDigit c = true)
    (hrange : digitsValue digits < 2 ^ 63) : stol digits = .ok (digitsValue digits : Int) := by
  have hsign : digits.head? ≠ some 45 := by
    intro hhead
    obtain ⟨rest, rfl⟩ := List.head?_eq_some_iff.mp hhead
    exact (digit_facts 45 (hdigits 45 List.mem_cons_self)).2.2.1 rfl
  have hall : digits.takeWhile isDigit = digits := List.takeWhile_eq_self_iff.mpr hdigits
  unfold stol
  simp only [hsign, if_false, hall]
  rw [if_neg]
  rintro (hempty | hlow | hhigh)
  · exact hsome hempty
  · omega
  · omega

theorem stol_negative {digits : Bytes} (hsome : digits ≠ [])
    (hdigits : ∀ c ∈ digits, isDigit c = true) (hrange : digitsValue digits ≤ 2 ^ 63) :
    stol (45 :: digits) = .ok (-(digitsValue digits : Int)) := by
  have hall : digits.takeWhile isDigit = digits := List.takeWhile_eq_self_iff.mpr hdigits
  unfold stol
  simp only [List.head?_cons, if_true, List.tail_cons, hall]
  rw [if_neg]
  rintro (hempty | hlow | hhigh)
  · exact hsome hempty
  · omega
  · omega

/-- A number is read up to the character that ends it. -/
theorem parseNumber_integral {number : Bytes} {value : Int} {c : UInt8} (hstol : stol number = .ok value)
    (hnumber : ∀ d ∈ number, isDigit d = true ∨ d = 45) (hends : endsNumber c = true)
    (rest : Bytes) :
    parseNumber (number ++ c :: rest) = .ok (.integral value, some (c :: rest)) := by
  obtain ⟨hdigit, hminus, hpoint, hupper, hlower⟩ := endsNumber_facts c hends
  -- The scan takes digits and the sign, and stops at the character behind them.
  have hinside : ∀ d ∈ number, (isDigit d || decide (d = 45) || decide (d = 46)) = true := by
    intro d hmem
    rcases hnumber d hmem with hd | hd
    · simp [hd]
    · simp [hd]
  -- Without a point the text is one for `stol`.
  have hwhole : (46 : UInt8) ∉ number := by
    intro hmem
    rcases hnumber 46 hmem with hd | hd
    · exact (digit_facts 46 hd).2.2.2.1 rfl
    · exact absurd hd (by decide)
  have htake : (number ++ c :: rest).takeWhile (fun d => isDigit d || d = 45 || d = 46) =
      number := by
    rw [List.takeWhile_append_of_pos hinside]
    simp [hdigit, hminus, hpoint]
  have hdrop : (number ++ c :: rest).dropWhile (fun d => isDigit d || d = 45 || d = 46) =
      c :: rest := by
    rw [List.dropWhile_append_of_pos hinside]
    simp [hdigit, hminus, hpoint]
  have hexponent : ¬ (c = 69 ∨ c = 101) := not_or.mpr ⟨hupper, hlower⟩
  have hcontains : number.contains 46 = false := by simpa using hwhole
  unfold parseNumber
  rw [htake, hdrop]
  dsimp only
  rw [hcontains]
  refine (if_neg hexponent).trans ((if_pos hends).trans ?_)
  rw [hstol]
  rfl

/-- A number is only read where a character follows that ends it. -/
def Follows : Json → Bytes → Prop
  | .integral _, rest => ∃ c more, rest = c :: more ∧ endsNumber c = true
  | _, _ => True

theorem follows_of_ends (json : Json) {c : UInt8} (hends : endsNumber c = true) (more : Bytes) :
    Follows json (c :: more) := by
  cases json with
  | integral value => exact ⟨c, more, rfl, hends⟩
  | _ => trivial

theorem follows_nil {json : Json} (hnumber : ∀ value, json ≠ .integral value) : Follows json [] := by
  cases json with
  | integral value => exact absurd rfl (hnumber value)
  | _ => trivial

theorem follows_blank (json : Json) {blank : Bytes} (hblank : Blank blank) {c : UInt8}
    (hends : endsNumber c = true) (rest : Bytes) : Follows json (blank ++ c :: rest) := by
  cases blank with
  | nil => exact follows_of_ends json hends rest
  | cons space blank =>
      apply follows_of_ends
      have hspace : isSpace space = true := hblank space List.mem_cons_self
      simp [endsNumber, hspace]

theorem parseNext_natural {digits : Bytes} (hsome : digits ≠ [])
    (hdigits : ∀ c ∈ digits, isDigit c = true) (hrange : digitsValue digits < 2 ^ 63) (fuel : Nat)
    {rest : Bytes} (hfollows : Follows (.integral (digitsValue digits)) rest) :
    parseNext (fuel + 1) (some (digits ++ rest)) =
      .ok (.integral (digitsValue digits), some rest) := by
  obtain ⟨c, more, rfl, hends⟩ := hfollows
  have hnumber := parseNumber_integral (stol_natural hsome hdigits hrange)
    (fun d hmem => .inl (hdigits d hmem)) hends more
  cases digits with
  | nil => exact absurd rfl hsome
  | cons d digits =>
      have hdigit := hdigits d List.mem_cons_self
      obtain ⟨hspace, h34, h45, _, h91, _, h102, h110, h116, h123, _⟩ := digit_facts d hdigit
      rw [List.cons_append] at hnumber ⊢
      rw [parseNext_solid hspace, if_neg h91, if_neg h123, if_neg h34,
        if_neg (not_or.mpr ⟨h116, h102⟩), if_neg h110, if_pos (.inl hdigit), hnumber]

theorem parseNext_negative {digits : Bytes} (hsome : digits ≠ [])
    (hdigits : ∀ c ∈ digits, isDigit c = true) (hrange : digitsValue digits ≤ 2 ^ 63) (fuel : Nat)
    {rest : Bytes} (hfollows : Follows (.integral (-(digitsValue digits : Int))) rest) :
    parseNext (fuel + 1) (some (45 :: digits ++ rest)) =
      .ok (.integral (-(digitsValue digits : Int)), some rest) := by
  obtain ⟨c, more, rfl, hends⟩ := hfollows
  have hnumber := parseNumber_integral (stol_negative hsome hdigits hrange) (fun d hmem => by
    rcases List.mem_cons.mp hmem with hminus | hdigit
    · exact .inr hminus
    · exact .inl (hdigits d hdigit)) hends more
  rw [List.cons_append] at hnumber ⊢
  rw [parseNext_solid rfl, if_neg (by decide), if_neg (by decide), if_neg (by decide),
    if_neg (by decide), if_neg (by decide), if_pos (.inr rfl), hnumber]

/-! ## Every spelling is read -/

/-- How the parser reads a text of a phrase: a value up to what follows, and what stands between
brackets with the closing one. -/
def Reads : Phrase → Bytes → Prop
  | .value json, text => ∀ fuel rest, 2 * text.length ≤ fuel → Follows json rest →
      parseNext fuel (some (text ++ rest)) = .ok (json, some rest)
  | .items items, text => ∀ fuel done rest, 2 * text.length + 1 ≤ fuel →
      arrayLoop fuel done (some (text ++ 93 :: rest)) = .ok (.array (done ++ items), some rest)
  | .members members, text => ∀ fuel entries rest, 2 * text.length + 1 ≤ fuel →
      objectLoop fuel entries (some (text ++ 125 :: rest)) =
        .ok (.object (collect members entries), some rest)

/-- A value starts with a character of its own. -/
theorem Spells.head {json : Json} {text : Bytes} (hspells : Spells (.value json) text) :
    ∃ c rest, text = c :: rest ∧ isSpace c = false ∧ c ≠ 93 := by
  cases hspells with
  | null => exact ⟨110, _, rfl, rfl, by decide⟩
  | boolTrue => exact ⟨116, _, rfl, rfl, by decide⟩
  | boolFalse => exact ⟨102, _, rfl, rfl, by decide⟩
  | string hchars => exact ⟨34, _, rfl, rfl, by decide⟩
  | @natural digits hsome hdigits hrange =>
      cases text with
      | nil => exact absurd rfl hsome
      | cons d digits =>
          obtain ⟨hspace, _, _, _, _, hclose, _⟩ := digit_facts d (hdigits d List.mem_cons_self)
          exact ⟨d, digits, rfl, hspace, hclose⟩
  | negative hsome hdigits hrange => exact ⟨45, _, rfl, rfl, by decide⟩
  | emptyArray hblank => exact ⟨91, _, rfl, rfl, by decide⟩
  | array hitems => exact ⟨91, _, rfl, rfl, by decide⟩
  | emptyObject hblank => exact ⟨123, _, rfl, rfl, by decide⟩
  | object hmembers => exact ⟨123, _, rfl, rfl, by decide⟩

theorem firstSolid_blank {blank : Bytes} (hblank : Blank blank) {c : UInt8}
    (hsolid : isSpace c = false) (rest : Bytes) : firstSolid (blank ++ c :: rest) = some c := by
  unfold firstSolid
  rw [List.dropWhile_append_of_pos hblank, List.dropWhile_cons_of_neg (by simp [hsolid])]
  rfl

theorem Spells.firstSolid_items {items : List Json} {text : Bytes}
    (hspells : Spells (.items items) text) (rest : Bytes) :
    ∃ c, firstSolid (text ++ rest) = some c ∧ c ≠ 93 := by
  cases hspells with
  | item hfront hitem hback =>
      obtain ⟨c, more, rfl, hsolid, hclose⟩ := hitem.head
      refine ⟨c, ?_, hclose⟩
      simp only [List.append_assoc, List.cons_append]
      exact firstSolid_blank hfront hsolid _
  | moreItems hfront hitem hback hitems =>
      obtain ⟨c, more, rfl, hsolid, hclose⟩ := hitem.head
      refine ⟨c, ?_, hclose⟩
      simp only [List.append_assoc, List.cons_append]
      exact firstSolid_blank hfront hsolid _

theorem Spells.firstSolid_members {members : List (Bytes × Json)} {text : Bytes}
    (hspells : Spells (.members members) text) (rest : Bytes) :
    firstSolid (text ++ rest) = some 34 := by
  cases hspells with
  | member hfront =>
      simp only [List.append_assoc, List.cons_append]
      exact firstSolid_blank hfront rfl _
  | moreMembers hfront =>
      simp only [List.append_assoc, List.cons_append]
      exact firstSolid_blank hfront rfl _

/-! ### The turns of the loops -/

theorem ok_bind {α β : Type} (a : α) (f : α → Except LoadError β) :
    (Except.ok a >>= f) = f a := rfl

/-- One turn of the loop of `parse_array`. -/
theorem arrayLoop_turn {fuel : Nat} {item : Json} {front text back rest : Bytes} {c : UInt8}
    (hfront : Blank front) (hback : Blank back) (hsolid : isSpace c = false)
    (hitem : parseNext fuel (some (text ++ (back ++ c :: rest))) =
      .ok (item, some (back ++ c :: rest))) (done : List Json) :
    arrayLoop (fuel + 1) done (some (front ++ (text ++ (back ++ c :: rest)))) =
      if c = 44 then arrayLoop fuel (done ++ [item]) (some rest)
      else if c = 93 then .ok (.array (done ++ [item]), some rest)
      else .ok (.array [], some (c :: rest)) := by
  rw [arrayLoop, parseNext_blank hfront, hitem, ok_bind]
  dsimp only
  rw [consumeWs_blank hback, consumeWs_solid hsolid]
  rfl

/-- One turn of the loop of `parse_object`. -/
theorem objectLoop_turn {fuel : Nat} {key spelled : Bytes} {value : Json}
    {front middle after text back rest : Bytes} {c : UInt8} (hfront : Blank front)
    (hkey : SpellsChars key spelled) (hmiddle : Blank middle) (hafter : Blank after)
    (hback : Blank back) (hsolid : isSpace c = false)
    (hvalue : parseNext (fuel + 1) (some (text ++ (back ++ c :: rest))) =
      .ok (value, some (back ++ c :: rest))) (entries : List (Bytes × Json)) :
    objectLoop (fuel + 2) entries (some (front ++ (34 :: (spelled ++ 34 :: (middle ++
        58 :: (after ++ (text ++ (back ++ c :: rest)))))))) =
      if c = 44 then objectLoop (fuel + 1) (assign (jsonEscape key) value entries) (some rest)
      else if c = 125 then .ok (.object (assign (jsonEscape key) value entries), some rest)
      else .ok (.object (assign (jsonEscape key) value entries), some (c :: rest)) := by
  have hread := parseNext_congr (consumeWs_dropWhile (after ++ (text ++ (back ++ c :: rest))))
    (fuel + 1)
  rw [parseNext_blank hafter, hvalue] at hread
  rw [objectLoop, parseNext_blank hfront, parseNext_string hkey, ok_bind]
  dsimp only
  rw [consumeWs_blank hmiddle, consumeWs_solid rfl, ok_bind, peek, ok_bind,
    if_neg (not_not.mpr rfl), advance, consumeWs_some, ok_bind, hread, ok_bind]
  dsimp only
  rw [consumeWs_blank hback, consumeWs_solid hsolid]
  rfl

/-- Each text of a phrase is read as this phrase. -/
theorem Spells.reads {phrase : Phrase} {text : Bytes} (hspells : Spells phrase text) :
    Reads phrase text := by
  -- On the derivation of the phrase. Items and members are read by the loops, so their cases
  -- carry what a loop has read before.
  induction hspells with
  | null =>
      intro fuel rest hfuel _
      obtain ⟨fuel, rfl⟩ := Nat.exists_eq_add_of_le' (show 1 ≤ fuel from le_trans (by decide) hfuel)
      exact parseNext_solid rfl fuel _
  | boolTrue =>
      intro fuel rest hfuel _
      obtain ⟨fuel, rfl⟩ := Nat.exists_eq_add_of_le' (show 1 ≤ fuel from le_trans (by decide) hfuel)
      exact parseNext_solid rfl fuel _
  | boolFalse =>
      intro fuel rest hfuel _
      obtain ⟨fuel, rfl⟩ := Nat.exists_eq_add_of_le' (show 1 ≤ fuel from le_trans (by decide) hfuel)
      exact parseNext_solid rfl fuel _
  | string hchars =>
      intro fuel rest hfuel _
      rw [List.length_append, List.length_cons] at hfuel
      obtain ⟨fuel, rfl⟩ := Nat.exists_eq_add_of_le' (show 1 ≤ fuel by omega)
      rw [List.append_assoc]
      exact parseNext_string hchars fuel rest
  | natural hsome hdigits hrange =>
      intro fuel rest hfuel hfollows
      -- A number ends only where a character follows that ends it.
      have hpos := List.length_pos_of_ne_nil hsome
      obtain ⟨fuel, rfl⟩ := Nat.exists_eq_add_of_le' (show 1 ≤ fuel by omega)
      exact parseNext_natural hsome hdigits hrange fuel hfollows
  | negative hsome hdigits hrange =>
      intro fuel rest hfuel hfollows
      rw [List.length_cons] at hfuel
      obtain ⟨fuel, rfl⟩ := Nat.exists_eq_add_of_le' (show 1 ≤ fuel by omega)
      exact parseNext_negative hsome hdigits hrange fuel hfollows
  | emptyArray hblank =>
      intro fuel rest hfuel _
      rw [List.length_append, List.length_cons] at hfuel
      obtain ⟨fuel, rfl⟩ := Nat.exists_eq_add_of_le' (show 1 ≤ fuel by omega)
      rw [List.append_assoc]
      exact parseNext_emptyArray hblank fuel rest
  | emptyObject hblank =>
      intro fuel rest hfuel _
      rw [List.length_append, List.length_cons] at hfuel
      obtain ⟨fuel, rfl⟩ := Nat.exists_eq_add_of_le' (show 1 ≤ fuel by omega)
      rw [List.append_assoc]
      exact parseNext_emptyObject hblank fuel rest
  | @array items text hitems ih =>
      intro fuel rest hfuel _
      rw [List.length_append, List.length_cons, List.length_singleton] at hfuel
      obtain ⟨fuel, rfl⟩ := Nat.exists_eq_add_of_le' (show 1 ≤ fuel by omega)
      -- What follows the bracket does not close the array.
      obtain ⟨c, hfirst, hopen⟩ := hitems.firstSolid_items (93 :: rest)
      have hloop := ih fuel [] rest (by omega)
      rw [List.append_assoc, List.cons_append, List.singleton_append, parseNext_openArray hfirst hopen]
      exact hloop
  | @object members text hmembers ih =>
      intro fuel rest hfuel _
      rw [List.length_append, List.length_cons, List.length_singleton] at hfuel
      obtain ⟨fuel, rfl⟩ := Nat.exists_eq_add_of_le' (show 1 ≤ fuel by omega)
      have hloop := ih fuel [] rest (by omega)
      rw [List.append_assoc, List.cons_append, List.singleton_append,
        parseNext_openObject (hmembers.firstSolid_members (125 :: rest)) (by decide)]
      exact hloop
  | @item item front text back hfront hitem hback ih =>
      intro fuel done rest hfuel
      rw [List.length_append, List.length_append] at hfuel
      obtain ⟨fuel, rfl⟩ := Nat.exists_eq_add_of_le' (show 1 ≤ fuel by omega)
      have hread := ih fuel (back ++ 93 :: rest) (by omega) (follows_blank item hback rfl rest)
      simp only [List.append_assoc]
      rw [arrayLoop_turn hfront hback rfl hread, if_neg (by decide), if_pos rfl]
  | @moreItems item items front text back tail hfront hitem hback hitems ih ihs =>
      intro fuel done rest hfuel
      rw [List.length_append, List.length_append, List.length_append, List.length_cons] at hfuel
      obtain ⟨fuel, rfl⟩ := Nat.exists_eq_add_of_le' (show 1 ≤ fuel by omega)
      -- Behind the comma the loop goes on with this item at the end.
      have hread := ih fuel (back ++ 44 :: (tail ++ 93 :: rest)) (by omega)
        (follows_blank item hback rfl _)
      have hloop := ihs fuel (done ++ [item]) rest (by omega)
      simp only [List.append_assoc, List.cons_append]
      rw [arrayLoop_turn hfront hback rfl hread, if_pos rfl, hloop, List.append_assoc]
      rfl
  | @member key spelled value front middle after text back hfront hkey hmiddle hafter hvalue hback
      ih =>
      intro fuel entries rest hfuel
      simp only [List.length_append, List.length_cons, List.length_nil] at hfuel
      -- The key is read by a call of its own.
      obtain ⟨fuel, rfl⟩ := Nat.exists_eq_add_of_le' (show 2 ≤ fuel by omega)
      have hread := ih (fuel + 1) (back ++ 125 :: rest) (by omega) (follows_blank value hback rfl rest)
      simp only [List.append_assoc, List.cons_append, List.nil_append]
      rw [objectLoop_turn hfront hkey hmiddle hafter hback rfl hread, if_neg (by decide),
        if_pos rfl]
      rfl
  | @moreMembers key spelled value members front middle after text back tail hfront hkey hmiddle
      hafter hvalue hback hmembers ih ihs =>
      intro fuel entries rest hfuel
      simp only [List.length_append, List.length_cons, List.length_nil] at hfuel
      obtain ⟨fuel, rfl⟩ := Nat.exists_eq_add_of_le' (show 2 ≤ fuel by omega)
      have hread := ih (fuel + 1) (back ++ 44 :: (tail ++ 125 :: rest)) (by omega)
        (follows_blank value hback rfl _)
      -- A key that comes again replaces the value it had.
      have hloop := ihs (fuel + 1) (assign (jsonEscape key) value entries) rest (by omega)
      simp only [List.append_assoc, List.cons_append, List.nil_append]
      rw [objectLoop_turn hfront hkey hmiddle hafter hback rfl hread, if_pos rfl, hloop]
      rfl

/-! ## A whole text -/

theorem load_of_spells {json : Json} {front text back : Bytes} (hfront : Blank front)
    (hspells : Spells (.value json) text) (hfollows : Follows json back) :
    load (front ++ text ++ back) = .ok json := by
  unfold load
  rw [List.append_assoc, parseNext_blank hfront, hspells.reads _ _ ?_ hfollows]
  · rfl
  · rw [List.length_append, List.length_append]
    omega

/-- A number at the end of the text is not read: the terminator does not end it. -/
theorem parseNumber_bare {number : Bytes} (hnumber : ∀ d ∈ number, isDigit d = true ∨ d = 45) :
    parseNumber number = .ok (.null, none) := by
  have hinside : ∀ d ∈ number, (isDigit d || decide (d = 45) || decide (d = 46)) = true := by
    intro d hmem
    rcases hnumber d hmem with hd | hd
    · simp [hd]
    · simp [hd]
  have hdrop : number.dropWhile (fun d => isDigit d || d = 45 || d = 46) = [] :=
    List.dropWhile_eq_nil_iff.mpr hinside
  unfold parseNumber
  rw [hdrop]
  rfl

theorem load_bare {value : Int} {front text : Bytes} (hfront : Blank front)
    (hspells : Spells (.value (.integral value)) text) : load (front ++ text) = .ok .null := by
  unfold load
  rw [parseNext_blank hfront, List.length_append]
  cases hspells with
  | natural hsome hdigits hrange =>
      cases text with
      | nil => exact absurd rfl hsome
      | cons d digits =>
          have hdigit := hdigits d List.mem_cons_self
          obtain ⟨hspace, h34, h45, _, h91, _, h102, h110, h116, h123, _⟩ := digit_facts d hdigit
          rw [parseNext_solid hspace, if_neg h91, if_neg h123, if_neg h34,
            if_neg (not_or.mpr ⟨h116, h102⟩), if_neg h110, if_pos (.inl hdigit),
            parseNumber_bare fun d' hmem => .inl (hdigits d' hmem)]
          rfl
  | negative hsome hdigits hrange =>
      rw [parseNext_solid rfl, if_neg (by decide), if_neg (by decide), if_neg (by decide),
        if_neg (by decide), if_neg (by decide), if_pos (.inr rfl), parseNumber_bare]
      · rfl
      · intro d hmem
        rcases List.mem_cons.mp hmem with hminus | hdigit
        · exact .inr hminus
        · exact .inl (hdigits d hdigit)

/-- `JSON::Load` reads each text that spells a value as this value, whatever white space it has,
but for a bare number at its end. -/
theorem load_spelled_iff {json : Json} {front text back : Bytes} (hfront : Blank front)
    (hspells : Spells (.value json) text) (hback : Blank back) :
    load (front ++ text ++ back) = .ok json ↔ back ≠ [] ∨ ∀ value, json ≠ .integral value := by
  constructor
  · intro hload
    by_contra hbare
    obtain ⟨hempty, hnumber⟩ := not_or.mp hbare
    obtain ⟨value, hvalue⟩ := not_forall.mp hnumber
    obtain rfl := not_not.mp hempty
    obtain rfl := not_not.mp hvalue
    rw [List.append_nil, load_bare hfront hspells] at hload
    cases hload
  · intro hread
    apply load_of_spells hfront hspells
    cases back with
    | nil => exact follows_nil (hread.resolve_left (not_not.mpr rfl))
    | cons c back => exact follows_of_ends json (by simp [endsNumber, hback c List.mem_cons_self]) back

/-- A member with an escape, and a number in an array. -/
theorem load_spelled_member :
    load (ascii " \x7b\"a\\n\" : [7]\x7d") = .ok (.object [(ascii "a\\n", .array [.integral 7])]) := by
  have hseven : Spells (.value (.integral 7)) (ascii "7") :=
    @Spells.natural (ascii "7") (by decide) (forall_mem_of_all (by decide)) (by decide)
  have harray : Spells (.value (.array [.integral 7])) (ascii "[7]") :=
    .array (@Spells.item _ [] _ [] blank_nil hseven blank_nil)
  have hkey : SpellsChars (ascii "a\n") (ascii "a\\n") :=
    .plain (by decide) (by decide) (.escape (show ((110 : UInt8), (10 : UInt8)) ∈ escapes by decide) .nil)
  have hmember := @Spells.member _ _ _ [] _ _ _ [] blank_nil hkey blank_space blank_space harray
    blank_nil
  have hload := @load_spelled_iff _ _ _ [] blank_space (.object hmember) blank_nil
  exact hload.mpr (.inr (by simp))

end Json

end RemoteAttestation
