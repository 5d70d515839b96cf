import RemoteAttestation.Report.IasRequest
import RemoteAttestation.Transport.HexDecoder

/-! # URL decoding

The header with the certificate chain is URL encoded. What a text encodes is a relation, in
which an escape has two hexadecimal digits. `url_decode` takes the two characters of an escape
for a number wherever `strtoul` reads the C string of them to its end.
-/

namespace RemoteAttestation

/-- A text, and the bytes that it encodes. -/
inductive UrlEncoded : Bytes → Bytes → Prop where
  | nil : UrlEncoded [] []
  | escape {high low : UInt8} {rest decoded : Bytes} (hhigh : (hexValue? high).isSome)
      (hlow : (hexValue? low).isSome) (hrest : UrlEncoded rest decoded) :
      UrlEncoded (37 :: high :: low :: rest)
        ((16 * hexDigitValue high + hexDigitValue low) :: decoded)
  | plus {rest decoded : Bytes} (hrest : UrlEncoded rest decoded) :
      UrlEncoded (43 :: rest) (32 :: decoded)
  | other {c : UInt8} {rest decoded : Bytes} (hpercent : c ≠ 37) (hplus : c ≠ 43)
      (hrest : UrlEncoded rest decoded) : UrlEncoded (c :: rest) (c :: decoded)

/-- What stands behind the percent signs that are not themselves part of an escape: two
characters, or fewer at the end of the text. -/
def escapes : Bytes → List Bytes
  | [] => []
  | c :: rest =>
      if c = 37 then
        match rest with
        | high :: low :: rest => [high, low] :: escapes rest
        | short => [short]
      else escapes rest

/-- Two hexadecimal digits, anything else that `strtoul` takes for a number, and the rest. -/
inductive EscapeKind where
  | hex
  | lenient
  | refused
deriving DecidableEq

/-- Besides two digits the code takes a blank or a sign and a digit, a digit and a terminator,
and a terminator and any character. -/
def escapeKind : Bytes → EscapeKind
  | [high, low] =>
      if (hexValue? high).isSome ∧ (hexValue? low).isSome then .hex
      else if high = 0 ∨ ((hexValue? high).isSome ∧ low = 0) ∨
        ((isSpace high ∨ high = 43 ∨ high = 45) ∧ (hexValue? low).isSome) then .lenient
      else .refused
  | _ => .refused

/-! ## One escape -/

/-- Two characters of which the first is neither a blank nor a sign are two digits or nothing. -/
theorem strtoul16_pair {high low : UInt8} (hspace : isSpace high = false) (hplus : high ≠ 43)
    (hminus : high ≠ 45) :
    strtoul16 [high, low] = (hexValue? high).bind fun h =>
      (hexValue? low).map fun l => 16 * (16 * 0 + h) + l := by
  have hbody : [high, low].dropWhile isSpace = [high, low] :=
    List.dropWhile_cons_of_neg (by simp [hspace])
  have hsign : ¬ (some high = some 43 ∨ some high = some 45) := by simp [hplus, hminus]
  unfold strtoul16
  dsimp only
  rw [hbody, List.head?_cons, if_neg hsign, if_neg (List.cons_ne_nil _ _),
    if_neg (List.cons_ne_nil _ _)]
  cases hh : hexValue? high with
  | none => simp [hh]
  | some h =>
      cases hl : hexValue? low with
      | none => simp [hh, hl]
      | some l => simp [hh, hl, hminus]

theorem strtoul16_hex {high low : UInt8} (hhigh : (hexValue? high).isSome)
    (hlow : (hexValue? low).isSome) :
    strtoul16 (cstr [high, low]) = some (16 * hexDigitValue high + hexDigitValue low) := by
  have hfacts : ∀ c : UInt8, (hexValue? c).isSome → isSpace c = false ∧ c ≠ 43 ∧ c ≠ 45 ∧ c ≠ 0 :=
    forall_uint8 (by decide +kernel)
  obtain ⟨hspace, hplus, hminus, hnul⟩ := hfacts high hhigh
  obtain ⟨_, _, _, hnul'⟩ := hfacts low hlow
  have htext : cstr [high, low] = [high, low] := cstr_of_notMem (by simp [hnul.symm, hnul'.symm])
  obtain ⟨h, hh⟩ := Option.isSome_iff_exists.mp hhigh
  obtain ⟨l, hl⟩ := Option.isSome_iff_exists.mp hlow
  rw [htext, strtoul16_pair hspace hplus hminus, hexDigitValue, hexDigitValue, hh, hl]
  simp

/-- `strtoul` skips a blank whichever it is. -/
theorem strtoul16_blank {high : UInt8} (hspace : isSpace high = true) (low : UInt8) :
    strtoul16 [high, low] = strtoul16 [32, low] := by
  have hskip : ∀ c, isSpace c = true → [c, low].dropWhile isSpace = [low].dropWhile isSpace :=
    fun c hc => List.dropWhile_cons_of_pos hc
  have hblank := hskip 32 rfl
  unfold strtoul16
  dsimp only
  rw [hskip high hspace, hblank]
  rfl

/-- The escapes for which `strtoul` meets the terminator. -/
theorem strtoul16_isSome_iff (high low : UInt8) :
    (strtoul16 (cstr [high, low])).isSome ↔ escapeKind [high, low] ≠ .refused := by
  have hshort : ∀ c : UInt8, c ≠ 0 → ((strtoul16 [c]).isSome ↔ (hexValue? c).isSome) :=
    forall_uint8 (by decide +kernel)
  have hsigned : ∀ c : UInt8, c ≠ 0 → ((strtoul16 [32, c]).isSome ↔ (hexValue? c).isSome) ∧
      ((strtoul16 [43, c]).isSome ↔ (hexValue? c).isSome) ∧
      ((strtoul16 [45, c]).isSome ↔ (hexValue? c).isSome) :=
    forall_uint8 (by decide +kernel)
  have hzero : hexValue? 0 = none := rfl
  by_cases hhigh : high = 0
  · subst hhigh
    have htext : cstr [0, low] = [] := rfl
    simp [htext, strtoul16, escapeKind, hzero]
  · by_cases hlow : low = 0
    · subst hlow
      have hnul : (0 : UInt8) ∉ [high] := by simpa using Ne.symm hhigh
      have htext : cstr [high, 0] = [high] := cstr_append_nul hnul []
      rw [htext, hshort high hhigh]
      cases hdigit : (hexValue? high).isSome with
      | false => simp [escapeKind, hdigit, hhigh, hzero]
      | true => simp [escapeKind, hdigit, hzero]
    · have htext : cstr [high, low] = [high, low] :=
        cstr_of_notMem (by simp [Ne.symm hhigh, Ne.symm hlow])
      obtain ⟨hblank, hplus, hminus⟩ := hsigned low hlow
      rw [htext]
      by_cases hspace : isSpace high = true
      · have hdigit : hexValue? high = none := by
          by_contra hsome
          have hfacts := (hexValue?_facts high (Option.isSome_iff_ne_none.mpr hsome)).1
          rw [hspace] at hfacts
          cases hfacts
        rw [strtoul16_blank hspace, hblank]
        simp [escapeKind, hhigh, hlow, hspace, hdigit, Option.isSome_iff_ne_none]
      · by_cases hsign : high = 43 ∨ high = 45
        · rcases hsign with rfl | rfl
          · simp [hplus, escapeKind, show hexValue? 43 = none from rfl, Option.isSome_iff_ne_none]
          · simp [hminus, escapeKind, show hexValue? 45 = none from rfl, Option.isSome_iff_ne_none]
        · rw [not_or] at hsign
          rw [strtoul16_pair (Bool.eq_false_iff.mpr hspace) hsign.1 hsign.2]
          cases hh : hexValue? high with
          | none => simp [escapeKind, hh, hhigh, hspace, hsign]
          | some h =>
              cases hl : hexValue? low with
              | none => simp [escapeKind, hh, hl, hhigh, hlow, hspace, hsign]
              | some l => simp [escapeKind, hh, hl]

theorem escapeKind_eq_hex_iff {high low : UInt8} :
    escapeKind [high, low] = .hex ↔ (hexValue? high).isSome ∧ (hexValue? low).isSome := by
  by_cases hdigits : (hexValue? high).isSome ∧ (hexValue? low).isSome
  · exact iff_of_true (if_pos hdigits) hdigits
  · refine iff_of_false ?_ hdigits
    rw [escapeKind, if_neg hdigits]
    split
    · exact fun h => nomatch h
    · exact fun h => nomatch h

/-! ## The whole text -/

theorem escapes_escape (high low : UInt8) (rest : Bytes) :
    escapes (37 :: high :: low :: rest) = [high, low] :: escapes rest := by
  rw [escapes.eq_def]
  rfl

/-- At the end of the text an escape is cut off. -/
theorem escapes_short {rest : Bytes} (hrest : rest.length < 2) : escapes (37 :: rest) = [rest] := by
  match rest, hrest with
  | [], _ => rfl
  | [_], _ => rfl

theorem escapes_other {c : UInt8} (hpercent : c ≠ 37) (rest : Bytes) :
    escapes (c :: rest) = escapes rest := by
  rw [escapes.eq_def]
  exact if_neg hpercent

theorem urlDecode_escape (high low : UInt8) (rest : Bytes) :
    urlDecode (37 :: high :: low :: rest) =
      (strtoul16 (cstr [high, low])).bind fun v => (urlDecode rest).map (v :: ·) := by
  rw [urlDecode.eq_def]
  dsimp only
  rw [if_neg (by decide), if_pos rfl]
  cases strtoul16 (cstr [high, low]) with
  | none => rfl
  | some v => rfl

theorem urlDecode_short {rest : Bytes} (hrest : rest.length < 2) :
    urlDecode (37 :: rest) = none := by
  match rest, hrest with
  | [], _ => rfl
  | [_], _ => rfl

theorem urlDecode_plus (rest : Bytes) : urlDecode (43 :: rest) = (urlDecode rest).map (32 :: ·) := by
  rw [urlDecode.eq_def]
  rfl

theorem urlDecode_other {c : UInt8} (hpercent : c ≠ 37) (hplus : c ≠ 43) (rest : Bytes) :
    urlDecode (c :: rest) = (urlDecode rest).map (c :: ·) := by
  rw [urlDecode.eq_def]
  dsimp only
  rw [if_neg hplus, if_neg hpercent]

/-- A text is read from the front: it is empty, or starts with an escape, a cut escape, a plus
or any other character. -/
theorem text_cases {motive : Bytes → Prop} (nil : motive [])
    (escape : ∀ high low rest, motive rest → motive (37 :: high :: low :: rest))
    (short : ∀ rest : Bytes, rest.length < 2 → motive (37 :: rest))
    (plus : ∀ rest, motive rest → motive (43 :: rest))
    (other : ∀ c rest, c ≠ 37 → c ≠ 43 → motive rest → motive (c :: rest)) (text : Bytes) :
    motive text := by
  induction text using escapes.induct with
  | case1 => exact nil
  | case2 high low rest ih => exact escape high low rest ih
  | case3 rest hshort =>
      apply short
      exact length_lt_two hshort
  | case4 c rest hpercent ih =>
      by_cases hplus : c = 43
      · subst hplus
        exact plus rest ih
      · exact other c rest hpercent hplus ih

/-- An encoded text has escapes of two digits only, and is decoded. -/
theorem UrlEncoded.decodes {text decoded : Bytes} (hencoded : UrlEncoded text decoded) :
    (∀ e ∈ escapes text, escapeKind e = .hex) ∧ urlDecode text = some decoded := by
  induction hencoded with
  | nil => exact ⟨fun _ hmem => absurd hmem List.not_mem_nil, rfl⟩
  | escape hhigh hlow hrest ih =>
      rw [escapes_escape, urlDecode_escape, strtoul16_hex hhigh hlow, ih.2, List.forall_mem_cons]
      exact ⟨⟨escapeKind_eq_hex_iff.mpr ⟨hhigh, hlow⟩, ih.1⟩, rfl⟩
  | plus hrest ih =>
      rw [escapes_other (by decide), urlDecode_plus, ih.2]
      exact ⟨ih.1, rfl⟩
  | other hpercent hplus hrest ih =>
      rw [escapes_other hpercent, urlDecode_other hpercent hplus, ih.2]
      exact ⟨ih.1, rfl⟩

/-- A text whose escapes have two digits encodes something. -/
theorem exists_urlEncoded {text : Bytes} (hescapes : ∀ e ∈ escapes text, escapeKind e = .hex) :
    ∃ decoded, UrlEncoded text decoded := by
  induction text using text_cases with
  | nil => exact ⟨[], .nil⟩
  | escape high low rest ih =>
      rw [escapes_escape, List.forall_mem_cons] at hescapes
      obtain ⟨hhigh, hlow⟩ := escapeKind_eq_hex_iff.mp hescapes.1
      obtain ⟨decoded, hrest⟩ := ih hescapes.2
      exact ⟨_, .escape hhigh hlow hrest⟩
  | short rest hshort =>
      rw [escapes_short hshort, List.forall_mem_singleton] at hescapes
      match rest, hshort, hescapes with
      | [], _, hescapes => cases hescapes
      | [_], _, hescapes => cases hescapes
  | plus rest ih =>
      rw [escapes_other (by decide)] at hescapes
      obtain ⟨decoded, hrest⟩ := ih hescapes
      exact ⟨_, .plus hrest⟩
  | other c rest hpercent hplus ih =>
      rw [escapes_other hpercent] at hescapes
      obtain ⟨decoded, hrest⟩ := ih hescapes
      exact ⟨_, .other hpercent hplus hrest⟩

/-- The code throws at the first escape that it refuses. -/
theorem urlDecode_isSome_iff (text : Bytes) :
    (urlDecode text).isSome ↔ ∀ e ∈ escapes text, escapeKind e ≠ .refused := by
  induction text using text_cases with
  | nil => exact iff_of_true rfl fun _ hmem => absurd hmem List.not_mem_nil
  | escape high low rest ih =>
      rw [escapes_escape, urlDecode_escape, List.forall_mem_cons, ← strtoul16_isSome_iff, ← ih]
      cases strtoul16 (cstr [high, low]) with
      | none => simp
      | some v => simp
  | short rest hshort =>
      rw [escapes_short hshort, urlDecode_short hshort, List.forall_mem_singleton]
      match rest, hshort with
      | [], _ => decide
      | [_], _ => simp [escapeKind]
  | plus rest ih => rw [escapes_other (by decide), urlDecode_plus, Option.isSome_map, ih]
  | other c rest hpercent hplus ih =>
      rw [escapes_other hpercent, urlDecode_other hpercent hplus, Option.isSome_map, ih]

/-- `url_decode` is exact for the texts without a lenient escape, and for those in which it
refuses one. -/
theorem urlDecode_exact_iff (text : Bytes) :
    (∀ decoded, urlDecode text = some decoded ↔ UrlEncoded text decoded) ↔
      (∀ e ∈ escapes text, escapeKind e ≠ .lenient) ∨
        ∃ e ∈ escapes text, escapeKind e = .refused := by
  by_cases hrefused : ∃ e ∈ escapes text, escapeKind e = .refused
  · -- A refused escape makes the code throw, and no text is encoded so.
    refine iff_of_true (fun decoded => iff_of_false ?_ ?_) (.inr hrefused)
    · obtain ⟨e, hmem, hkind⟩ := hrefused
      intro hdecode
      exact (urlDecode_isSome_iff text).mp (by rw [hdecode]; rfl) e hmem hkind
    · obtain ⟨e, hmem, hkind⟩ := hrefused
      intro hencoded
      have hhex := hencoded.decodes.1 e hmem
      rw [hkind] at hhex
      cases hhex
  · -- Otherwise there is one result, and the text encodes it unless an escape is lenient.
    have hsome : (urlDecode text).isSome := by
      rw [urlDecode_isSome_iff]
      exact fun e hmem hkind => hrefused ⟨e, hmem, hkind⟩
    obtain ⟨result, hresult⟩ := Option.isSome_iff_exists.mp hsome
    constructor
    · intro hexact
      refine .inl fun e hmem hkind => ?_
      have hhex := ((hexact result).mp hresult).decodes.1 e hmem
      rw [hkind] at hhex
      cases hhex
    · rintro (hlenient | h)
      · have hhex : ∀ e ∈ escapes text, escapeKind e = .hex := by
          intro e hmem
          cases hkind : escapeKind e with
          | hex => rfl
          | lenient => exact absurd hkind (hlenient e hmem)
          | refused => exact absurd ⟨e, hmem, hkind⟩ hrefused
        obtain ⟨encoded, hencoded⟩ := exists_urlEncoded hhex
        have heq : result = encoded := Option.some.inj (hresult.symm.trans hencoded.decodes.2)
        subst heq
        intro decoded
        refine ⟨fun hdecode => ?_, fun h => h.decodes.2⟩
        rw [hresult] at hdecode
        cases hdecode
        exact hencoded
      · exact absurd h hrefused

/-- A sign and one digit pass for an escape. -/
theorem sign_not_urlEncoded :
    urlDecode (ascii "%+5") = some [5] ∧ ¬ UrlEncoded (ascii "%+5") [5] := by
  refine ⟨by decide, fun hencoded => ?_⟩
  have hhex := hencoded.decodes.1 (ascii "+5") (by decide)
  revert hhex
  decide

end RemoteAttestation
