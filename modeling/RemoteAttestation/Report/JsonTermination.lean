import RemoteAttestation.Foundation.Outcome
import RemoteAttestation.Report.Json

/-! # The parser comes to an end

`JSON::Load` calls itself for every value inside another one, and neither its loops nor these
calls test that the position has moved. Every call but the first of a value, a comma or a
colon is made behind a character that was read, so that two calls at most are open for each
character of the text.
-/

namespace RemoteAttestation

namespace Json

/-- The characters that may still be read, with the terminator. -/
def Cursor.size : Cursor → Nat
  | none => 0
  | some rest => rest.length + 1

/-- A call that does not stop at the bound, and ends no further from the end than it began. -/
def Moves {α : Type} (size : Nat) : Except LoadError (α × Cursor) → Prop :=
  Avoids (· = .fuel) fun result => result.2.size ≤ size

/-! ## Single characters -/

theorem size_advance (cursor : Cursor) : (advance cursor).size ≤ cursor.size - 1 := by
  match cursor with
  | none => exact Nat.le_refl 0
  | some [] => exact Nat.le_refl 0
  | some (c :: rest) => exact Nat.le_refl _

theorem avoids_peek (cursor : Cursor) : Avoids (· = .fuel) (fun _ => cursor ≠ none) (peek cursor) := by
  match cursor with
  | none => exact LoadError.noConfusion
  | some [] => exact Option.some_ne_none _
  | some (c :: rest) => exact Option.some_ne_none _

theorem length_dropWhile_le (p : UInt8 → Bool) (text : Bytes) :
    (text.dropWhile p).length ≤ text.length :=
  (List.dropWhile_suffix p).length_le

theorem avoids_consumeWs (cursor : Cursor) :
    Avoids (· = .fuel) (fun after => after.size ≤ cursor.size) (consumeWs cursor) := by
  cases cursor with
  | none => exact LoadError.noConfusion
  | some rest => exact Nat.succ_le_succ (length_dropWhile_le isSpace rest)

/-! ## Strings, numbers and words -/

theorem moves_parseString (rest text : Bytes) : Moves (rest.length + 1) (parseString rest text) := by
  fun_induction parseString rest text
  all_goals first
    | exact LoadError.noConfusion
    | exact Avoids.mono ‹_› fun result hsize => le_trans hsize (by simp only [List.length_cons]; omega)
    | exact show _ ≤ _ by simp [Cursor.size]

theorem avoids_stol (text : Bytes) : Avoids (· = .fuel) (fun _ => True) (stol text) := by
  unfold stol
  exact .ite (fun _ => LoadError.noConfusion) fun _ => trivial

/-- The position behind an exponent. -/
def exponentEnd : Cursor ⊕ Bytes × Cursor → Cursor
  | .inl after => after
  | .inr (_, stop) => stop

theorem avoids_parseExponent (cursor : Cursor) :
    Avoids (· = .fuel) (fun result => (exponentEnd result).size ≤ cursor.size) (parseExponent cursor) := by
  unfold parseExponent
  refine .bind (avoids_peek cursor) fun c _ _ => ?_
  have hstart : (if c = 45 then advance (advance cursor) else advance cursor).size ≤ cursor.size := by
    have honce := size_advance cursor
    have htwice := size_advance (advance cursor)
    split <;> omega
  generalize (if c = 45 then advance (advance cursor) else advance cursor) = start at hstart
  cases start with
  | none => exact LoadError.noConfusion
  | some rest =>
      have hstop : Cursor.size (some (rest.dropWhile isDigit)) ≤ cursor.size :=
        le_trans (Nat.succ_le_succ (length_dropWhile_le isDigit rest)) hstart
      refine .bind (avoids_peek _) fun d _ _ => .ite (fun _ => hstop) fun _ => ?_
      exact le_trans (size_advance _) (le_trans (Nat.sub_le _ _) hstop)

theorem moves_parseNumber (rest : Bytes) : Moves (rest.length + 1) (parseNumber rest) := by
  unfold parseNumber
  set stop := rest.dropWhile fun c => isDigit c || c = 45 || c = 46
  have hstop : Cursor.size (some stop) ≤ rest.length + 1 :=
    Nat.succ_le_succ (length_dropWhile_le _ rest)
  have hbehind : (advance (some stop)).size ≤ rest.length + 1 :=
    le_trans (size_advance _) (le_trans (Nat.sub_le _ _) hstop)
  refine .bind (avoids_peek _) fun c _ _ => .ite (fun _ => ?_) fun _ => ?_
  · refine .bind (avoids_parseExponent _) fun result _ hresult => ?_
    have hend := le_trans hresult hbehind
    rcases result with after | ⟨exponent, after⟩
    · exact hend
    · refine .bind (avoids_stol exponent) fun _ _ _ => .ite (fun _ => ?_) fun _ => ?_
      · exact .ite (fun _ => hend) fun _ => LoadError.noConfusion
      · exact .bind (avoids_stol _) fun _ _ _ => hend
  · refine .ite (fun _ => .ite (fun _ => ?_) fun _ => ?_) fun _ => hbehind
    · exact .ite (fun _ => hstop) fun _ => LoadError.noConfusion
    · exact .bind (avoids_stol _) fun _ _ _ => hstop

theorem size_parseBool (rest : Bytes) : (parseBool rest).2.size ≤ rest.length + 1 := by
  unfold parseBool
  split
  · exact Nat.succ_le_succ (List.drop_suffix 4 rest).length_le
  · split
    · exact Nat.succ_le_succ (List.drop_suffix 5 rest).length_le
    · exact Nat.le_refl _

theorem size_parseNull (rest : Bytes) : (parseNull rest).2.size ≤ rest.length + 1 := by
  unfold parseNull
  split
  · exact Nat.succ_le_succ (List.drop_suffix 4 rest).length_le
  · exact Nat.le_refl _

/-! ## Values -/

/-- A character other than the terminator has been read. -/
theorem size_advance_lt {rest : Bytes} {c : UInt8} (hpeek : peek (some rest) = .ok c) (hc : c ≠ 0) :
    (advance (some rest)).size + 1 ≤ rest.length + 1 := by
  cases rest with
  | nil =>
      cases hpeek
      exact absurd rfl hc
  | cons d rest => exact Nat.le_refl _

theorem size_advance_lt_of_peek {cursor : Cursor} {c : UInt8} (hpeek : peek cursor = .ok c)
    (hc : c ≠ 0) : (advance cursor).size + 1 ≤ cursor.size := by
  cases cursor with
  | none => cases hpeek
  | some rest => exact size_advance_lt hpeek hc

theorem moves_parseNext_succ {fuel : Nat} {cursor : Cursor} (hfuel : 2 * cursor.size ≤ fuel)
    (harray : ∀ items inner, 2 * inner.size + 2 ≤ fuel →
      Moves inner.size (arrayLoop fuel items inner))
    (hobject : ∀ entries inner, 2 * inner.size + 2 ≤ fuel →
      Moves inner.size (objectLoop fuel entries inner)) :
    Moves cursor.size (parseNext (fuel + 1) cursor) := by
  rw [parseNext]
  refine .bind (avoids_consumeWs cursor) fun after _ hafter => ?_
  cases after with
  | none => exact LoadError.noConfusion
  | some rest =>
      have hrest : rest.length + 1 ≤ cursor.size := hafter
      -- Behind a bracket there is one character less.
      have hinside : ∀ c, peek (some rest) = .ok c → c ≠ 0 → ∀ inner : Cursor,
          inner.size ≤ (advance (some rest)).size → 2 * inner.size + 2 ≤ fuel ∧
            inner.size ≤ cursor.size := by
        intro c hpeek hc inner hinner
        have hless := size_advance_lt hpeek hc
        omega
      refine .bind (avoids_peek _) fun c hpeek _ => .ite (fun hbracket => ?_) fun _ =>
        .ite (fun hbrace => ?_) fun _ => .ite (fun _ => ?_) fun _ => .ite (fun _ => ?_) fun _ =>
        .ite (fun _ => ?_) fun _ => .ite (fun _ => ?_) fun _ => hrest
      · have hopen := hinside c hpeek (by rw [hbracket]; decide)
        refine .bind (avoids_consumeWs _) fun inner _ hinner => .bind (avoids_peek _) fun d _ _ => ?_
        obtain ⟨hbound, hsize⟩ := hopen inner hinner
        refine .ite (fun _ => ?_) fun _ => ?_
        · exact le_trans (size_advance inner) (le_trans (Nat.sub_le _ _) hsize)
        · exact (harray [] inner hbound).mono fun result hresult => le_trans hresult hsize
      · have hopen := hinside c hpeek (by rw [hbrace]; decide)
        refine .bind (avoids_consumeWs _) fun inner _ hinner => .bind (avoids_peek _) fun d _ _ => ?_
        obtain ⟨hbound, hsize⟩ := hopen inner hinner
        refine .ite (fun _ => ?_) fun _ => ?_
        · exact le_trans (size_advance inner) (le_trans (Nat.sub_le _ _) hsize)
        · exact (hobject [] inner hbound).mono fun result hresult => le_trans hresult hsize
      · refine (moves_parseString rest.tail []).mono fun result hresult => le_trans hresult ?_
        rw [List.length_tail]
        omega
      · exact le_trans (size_parseBool rest) hrest
      · exact le_trans (size_parseNull rest) hrest
      · exact (moves_parseNumber rest).mono fun result hresult => le_trans hresult hrest

theorem moves_arrayLoop_succ {fuel : Nat} {cursor : Cursor} (hfuel : 2 * cursor.size + 1 ≤ fuel)
    (items : List Json)
    (hvalue : ∀ inner : Cursor, 2 * inner.size + 1 ≤ fuel → Moves inner.size (parseNext fuel inner))
    (harray : ∀ items inner, 2 * inner.size + 2 ≤ fuel →
      Moves inner.size (arrayLoop fuel items inner)) :
    Moves cursor.size (arrayLoop (fuel + 1) items cursor) := by
  rw [arrayLoop]
  refine .bind (hvalue cursor hfuel) fun ⟨item, behind⟩ _ hbehind => ?_
  refine .bind (avoids_consumeWs behind) fun after _ hafter => ?_
  have hsize : after.size ≤ cursor.size := le_trans hafter hbehind
  refine .bind (avoids_peek _) fun c hpeek _ => .ite (fun hcomma => ?_) fun _ =>
    .ite (fun _ => ?_) fun _ => hsize
  · have hless := size_advance_lt_of_peek hpeek (by rw [hcomma]; decide)
    exact (harray _ _ (by omega)).mono fun result hresult => by omega
  · exact le_trans (size_advance after) (le_trans (Nat.sub_le _ _) hsize)

theorem moves_objectLoop_succ {fuel : Nat} {cursor : Cursor} (hfuel : 2 * cursor.size + 1 ≤ fuel)
    (entries : List (Bytes × Json))
    (hvalue : ∀ inner : Cursor, 2 * inner.size + 1 ≤ fuel → Moves inner.size (parseNext fuel inner))
    (hobject : ∀ entries inner, 2 * inner.size + 2 ≤ fuel →
      Moves inner.size (objectLoop fuel entries inner)) :
    Moves cursor.size (objectLoop (fuel + 1) entries cursor) := by
  rw [objectLoop]
  refine .bind (hvalue cursor hfuel) fun ⟨key, behind⟩ _ hbehind => ?_
  refine .bind (avoids_consumeWs behind) fun colon _ hcolon => ?_
  have hkey : colon.size ≤ cursor.size := le_trans hcolon hbehind
  refine .bind (avoids_peek _) fun c _ _ => .ite (fun _ => hkey) fun _ => ?_
  refine .bind (avoids_consumeWs _) fun start _ hstart => ?_
  have hinside : start.size ≤ cursor.size :=
    le_trans hstart (le_trans (size_advance colon) (le_trans (Nat.sub_le _ _) hkey))
  refine .bind (hvalue start (by omega)) fun ⟨value, ahead⟩ _ hahead => ?_
  refine .bind (avoids_consumeWs ahead) fun after _ hafter => ?_
  have hsize : after.size ≤ cursor.size := le_trans hafter (le_trans hahead hinside)
  refine .bind (avoids_peek _) fun d hpeek _ => .ite (fun hcomma => ?_) fun _ =>
    .ite (fun _ => ?_) fun _ => hsize
  · have hless := size_advance_lt_of_peek hpeek (by rw [hcomma]; decide)
    exact (hobject _ _ (by omega)).mono fun result hresult => by omega
  · exact le_trans (size_advance after) (le_trans (Nat.sub_le _ _) hsize)

/-- Two calls for each character that is left, and one for the terminator. -/
theorem moves_all (fuel : Nat) :
    (∀ cursor : Cursor, 2 * cursor.size + 1 ≤ fuel → Moves cursor.size (parseNext fuel cursor)) ∧
    (∀ items (cursor : Cursor), 2 * cursor.size + 2 ≤ fuel →
      Moves cursor.size (arrayLoop fuel items cursor)) ∧
    (∀ entries (cursor : Cursor), 2 * cursor.size + 2 ≤ fuel →
      Moves cursor.size (objectLoop fuel entries cursor)) := by
  induction fuel with
  | zero =>
      refine ⟨fun cursor hfuel => ?_, fun items cursor hfuel => ?_, fun entries cursor hfuel => ?_⟩
      · exact absurd hfuel (Nat.not_succ_le_zero _)
      · exact absurd hfuel (Nat.not_succ_le_zero _)
      · exact absurd hfuel (Nat.not_succ_le_zero _)
  | succ fuel ih =>
      obtain ⟨hvalue, harray, hobject⟩ := ih
      refine ⟨fun cursor hfuel => ?_, fun items cursor hfuel => ?_, fun entries cursor hfuel => ?_⟩
      · exact moves_parseNext_succ (Nat.le_of_succ_le_succ hfuel) harray hobject
      · exact moves_arrayLoop_succ (Nat.le_of_succ_le_succ hfuel) items hvalue harray
      · exact moves_objectLoop_succ (Nat.le_of_succ_le_succ hfuel) entries hvalue hobject

/-! ## More fuel changes nothing -/

theorem agrees_step (fuel : Nat) :
    (∀ cursor, Agrees .fuel (parseNext fuel cursor) (parseNext (fuel + 1) cursor)) ∧
    (∀ items cursor, Agrees .fuel (arrayLoop fuel items cursor) (arrayLoop (fuel + 1) items cursor)) ∧
    (∀ entries cursor,
      Agrees .fuel (objectLoop fuel entries cursor) (objectLoop (fuel + 1) entries cursor)) := by
  induction fuel with
  | zero => exact ⟨fun _ => .inl rfl, fun _ _ => .inl rfl, fun _ _ => .inl rfl⟩
  | succ fuel ih =>
      obtain ⟨hvalue, harray, hobject⟩ := ih
      refine ⟨fun cursor => ?_, fun items cursor => ?_, fun entries cursor => ?_⟩
      · rw [parseNext, parseNext]
        refine .bind (.refl _) fun after => ?_
        cases after with
        | none => exact .refl _
        | some rest =>
            refine .bind (.refl _) fun c => .ite ?_ (.ite ?_ (.refl _))
            · exact .bind (.refl _) fun _ => .bind (.refl _) fun _ => .ite (.refl _) (harray _ _)
            · exact .bind (.refl _) fun _ => .bind (.refl _) fun _ => .ite (.refl _) (hobject _ _)
      · rw [arrayLoop, arrayLoop]
        refine .bind (hvalue cursor) fun ⟨item, behind⟩ => .bind (.refl _) fun after => ?_
        exact .bind (.refl _) fun _ => .ite (harray _ _) (.refl _)
      · rw [objectLoop, objectLoop]
        refine .bind (hvalue cursor) fun ⟨key, behind⟩ => .bind (.refl _) fun colon => ?_
        refine .bind (.refl _) fun _ => .ite (.refl _) (.bind (.refl _) fun start => ?_)
        refine .bind (hvalue start) fun ⟨value, ahead⟩ => .bind (.refl _) fun after => ?_
        exact .bind (.refl _) fun _ => .ite (hobject _ _) (.refl _)

theorem parseNext_agrees {fuel more : Nat} (hmore : fuel ≤ more) (cursor : Cursor) :
    Agrees .fuel (parseNext fuel cursor) (parseNext more cursor) := by
  induction more, hmore using Nat.le_induction with
  | base => exact .refl _
  | succ more _ ih => exact ih.trans ((agrees_step more).1 cursor)

/-- `JSON::Load` comes to an end on every text, no more than `2 * text.length + 3` calls deep:
any bound from there on gives the same outcome, and it is never that the bound was reached. -/
theorem load_terminates (text : Bytes) :
    load text ≠ .error .fuel ∧ ∀ bound, 2 * text.length + 3 ≤ bound →
      (parseNext bound (some text)).map Prod.fst = load text := by
  have hends : ∀ bound, 2 * text.length + 3 ≤ bound →
      Moves (Cursor.size (some text)) (parseNext bound (some text)) := fun bound hbound =>
    (moves_all bound).1 (some text) (by rw [Cursor.size]; omega)
  have hleast := hends (2 * text.length + 3) (Nat.le_refl _)
  have hsame : ∀ bound, 2 * text.length + 3 ≤ bound →
      parseNext (2 * text.length + 3) (some text) = parseNext bound (some text) := fun bound hbound =>
    (parseNext_agrees hbound (some text)).eq_of_avoids hleast rfl
  have hload : load text = (parseNext (2 * text.length + 3) (some text)).map Prod.fst := by
    rw [load, hsame (2 * text.length + 4) (Nat.le_succ _)]
  constructor
  · rw [hload]
    cases hresult : parseNext (2 * text.length + 3) (some text) with
    | ok result => exact fun heq => nomatch heq
    | error e =>
        intro heq
        cases heq
        exact hleast.ne_error rfl hresult
  · intro bound hbound
    rw [hload, hsame bound hbound]

end Json

end RemoteAttestation
