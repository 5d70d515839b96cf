import RemoteAttestation.Transport.HexUtil

/-! # What the decoder accepts

`fromHexstring` calls `sscanf` once a byte, at every second character, and takes the end
of the string for a success. So it accepts more than hexadecimal digits, and goes on behind
the terminator of a text that is too short.
-/

namespace RemoteAttestation

/-- A string as it lies in memory, before whatever follows its terminator. -/
def CString.text (string : CString) (behind : Bytes) : Bytes := string.bytes ++ 0 :: behind

/-- The first `2 * len` characters exist and are hexadecimal digits. -/
def HexDigits (src : Bytes) (len : Nat) : Prop :=
  2 * len ≤ src.length ∧ ∀ c ∈ src.take (2 * len), (hexValue? c).isSome

instance (src : Bytes) (len : Nat) : Decidable (HexDigits src len) :=
  decidable_of_iff (2 * len ≤ src.length ∧ ((src.take (2 * len)).all fun c => (hexValue? c).isSome))
    (by rw [HexDigits, List.all_eq_true])

/-- The value of a digit. -/
def hexDigitValue (c : UInt8) : UInt8 := (hexValue? c).getD 0

/-- The bytes that pairs of digits stand for. -/
def hexPairs : Bytes → Bytes
  | high :: low :: rest => (16 * hexDigitValue high + hexDigitValue low) :: hexPairs rest
  | _ => []

/-- The number of calls of `sscanf` that `fromHexstring` makes. -/
def scanCount : Bytes → Nat → Nat
  | _, 0 => 0
  | src, len + 1 =>
      match scanHex2 src with
      | .mismatch => 1
      | _ => scanCount (src.drop 2) len + 1

/-- The number of bytes that `fromHexstring` stores. -/
def storedCount : Bytes → Nat → Nat
  | _, 0 => 0
  | src, len + 1 =>
      match scanHex2 src with
      | .mismatch => 0
      | _ => storedCount (src.drop 2) len + 1

/-- The byte that the call at index `i` stores: at the end of the string, whatever `v` held. -/
def storedByte (stale : Nat → UInt8) (src : Bytes) (len i : Nat) : UInt8 :=
  match scanHex2 (src.drop (2 * i)) with
  | .value v => v
  | _ => stale (len - 1 - i)

/-- The last character that the call at `offset` can read: its argument is a string, and
ends at its first NUL. -/
def lastRead (text : Bytes) (offset : Nat) : Nat := offset + (cstr (text.drop offset)).length

/-- The decoder does what its callers expect of it. -/
structure DecodesExactly (stale : Nat → UInt8) (string : CString) (behind : Bytes) (len : Nat) :
    Prop where
  accepts : (fromHexstring stale (string.text behind) len).1 = true ↔ HexDigits string.bytes len
  value : (fromHexstring stale (string.text behind) len).1 = true →
    (fromHexstring stale (string.text behind) len).2 = hexPairs (string.bytes.take (2 * len))
  inside : ∀ i < scanCount (string.text behind) len,
    lastRead (string.text behind) (2 * i) ≤ string.bytes.length

/-! ## One conversion -/

/-- A conversion that starts in a string does not depend on what is behind it. -/
theorem scanHex2_append_nul {text : Bytes} (htext : (0 : UInt8) ∉ text) (behind : Bytes) :
    scanHex2 (text ++ 0 :: behind) = scanHex2 text := by
  have hnul : isSpace 0 = false ∧ hexValue? 0 = none := by decide
  induction text with
  | nil => simp [scanHex2, hnul]
  | cons c rest ih =>
      simp only [List.mem_cons, not_or] at htext
      cases hspace : isSpace c with
      | true =>
          have hskip : ∀ tail, scanHex2 (c :: tail) = scanHex2 tail := by
            intro tail
            simp [scanHex2, hspace]
          rw [List.cons_append, hskip, hskip, ih htext.2]
      | false =>
          unfold scanHex2
          rw [List.cons_append, List.dropWhile_cons_of_neg (by simp [hspace]),
            List.dropWhile_cons_of_neg (by simp [hspace])]
          cases rest with
          | nil => simp [hnul]
          | cons d rest => rfl

/-- A digit is neither white space nor a terminator. -/
theorem hexValue?_facts (c : UInt8) :
    (hexValue? c).isSome → isSpace c = false ∧ c ≠ 0 ∧ c ≠ 120 ∧ c ≠ 88 := by
  revert c
  exact forall_uint8 (by decide +kernel)

/-- Two digits are one byte. -/
theorem scanHex2_pair {high low : UInt8} (hhigh : (hexValue? high).isSome)
    (hlow : (hexValue? low).isSome) (rest : Bytes) :
    scanHex2 (high :: low :: rest) = .value (16 * hexDigitValue high + hexDigitValue low) := by
  obtain ⟨hspace, hzero, _⟩ := hexValue?_facts high hhigh
  obtain ⟨_, _, hx, hX⟩ := hexValue?_facts low hlow
  obtain ⟨h, hh⟩ := Option.isSome_iff_exists.mp hhigh
  obtain ⟨l, hl⟩ := Option.isSome_iff_exists.mp hlow
  simp [scanHex2, hspace, hzero, hx, hX, hexDigitValue, hh, hl]

/-- What `hexPairs` leaves is one character at most. -/
theorem length_lt_two {src : Bytes} (hshort : ∀ high low rest, src = high :: low :: rest → False) :
    src.length < 2 := by
  rcases src with _ | ⟨high, _ | ⟨low, rest⟩⟩
  · exact Nat.zero_lt_two
  · exact Nat.one_lt_two
  · exact (hshort high low rest rfl).elim

theorem length_hexPairs (src : Bytes) : (hexPairs src).length = src.length / 2 := by
  fun_induction hexPairs src with
  | case1 high low rest ih =>
      simp only [List.length_cons, ih]
      omega
  | case2 src hshort =>
      have hlength := length_lt_two hshort
      rw [List.length_nil]
      omega

/-! ## The whole text -/

/-- The digits of a text are decoded one pair after the other, whatever follows them. -/
theorem fromHexstring_digits (stale : Nat → UInt8) {src : Bytes} {len : Nat}
    (hdigits : HexDigits src len) (rest : Bytes) :
    fromHexstring stale (src ++ rest) len = (true, hexPairs (src.take (2 * len))) := by
  obtain ⟨hlength, hall⟩ := hdigits
  induction len generalizing src with
  | zero => rfl
  | succ len ih =>
      match src, hlength, hall with
      | high :: low :: src, hlength, hall =>
          have hrest : ∀ c ∈ src.take (2 * len), (hexValue? c).isSome :=
            fun c hc => hall c (by
              rw [Nat.mul_succ, List.take_succ_cons, List.take_succ_cons]
              exact List.mem_cons_of_mem _ (List.mem_cons_of_mem _ hc))
          have hpair := scanHex2_pair (hall high (by simp [Nat.mul_succ]))
            (hall low (by simp [Nat.mul_succ])) (src ++ rest)
          have htail : fromHexstring stale (src ++ rest) len =
              (true, hexPairs (src.take (2 * len))) := ih (by simp at hlength; omega) hrest
          simp only [List.cons_append, fromHexstring, hpair, List.drop_succ_cons, List.drop_zero,
            htail, Nat.mul_succ, List.take_succ_cons, hexPairs]

/-- The decoder is satisfied exactly if no conversion finds something else. -/
theorem fromHexstring_eq_true_iff (stale : Nat → UInt8) (src : Bytes) (len : Nat) :
    (fromHexstring stale src len).1 = true ↔
      ∀ i < len, scanHex2 (src.drop (2 * i)) ≠ .mismatch := by
  induction len generalizing src with
  | zero => simp [fromHexstring]
  | succ len ih =>
      have hsplit : (∀ i < len + 1, scanHex2 (src.drop (2 * i)) ≠ .mismatch) ↔
          scanHex2 src ≠ .mismatch ∧
            ∀ i < len, scanHex2 ((src.drop 2).drop (2 * i)) ≠ .mismatch := by
        rw [Nat.forall_lt_succ_left]
        simp only [Nat.mul_zero, List.drop_zero, List.drop_drop, Nat.mul_succ, Nat.add_comm 2]
      rw [hsplit, ← ih, fromHexstring]
      cases scanHex2 src with
      | mismatch => simp
      | eof => simp
      | value v => simp

/-- The calls go on until one finds something else. -/
theorem lt_scanCount_iff (src : Bytes) (len i : Nat) :
    i < scanCount src len ↔
      i < len ∧ ∀ j < i, scanHex2 (src.drop (2 * j)) ≠ .mismatch := by
  induction len generalizing src i with
  | zero => simp [scanCount]
  | succ len ih =>
      cases i with
      | zero =>
          have hpos : 0 < scanCount src (len + 1) := by
            unfold scanCount
            cases scanHex2 src <;> simp
          simp [hpos]
      | succ i =>
          have hsplit : (∀ j < i + 1, scanHex2 (src.drop (2 * j)) ≠ .mismatch) ↔
              scanHex2 src ≠ .mismatch ∧
                ∀ j < i, scanHex2 ((src.drop 2).drop (2 * j)) ≠ .mismatch := by
            rw [Nat.forall_lt_succ_left]
            simp only [Nat.mul_zero, List.drop_zero, List.drop_drop, Nat.mul_succ, Nat.add_comm 2]
          rw [hsplit]
          unfold scanCount
          cases hscan : scanHex2 src <;> simp [ih]

/-- Every call stores a byte, but for one that finds something else. -/
theorem lt_storedCount_iff (src : Bytes) (len i : Nat) :
    i < storedCount src len ↔
      i < len ∧ ∀ j ≤ i, scanHex2 (src.drop (2 * j)) ≠ .mismatch := by
  induction len generalizing src i with
  | zero => simp [storedCount]
  | succ len ih =>
      have hstep : i < storedCount src (len + 1) ↔
          scanHex2 src ≠ .mismatch ∧ (i = 0 ∨ i - 1 < storedCount (src.drop 2) len) := by
        rw [storedCount]
        cases scanHex2 src with
        | mismatch => simp
        | eof =>
            simp only [ne_eq, reduceCtorEq, not_false_eq_true, true_and]
            omega
        | value v =>
            simp only [ne_eq, reduceCtorEq, not_false_eq_true, true_and]
            omega
      rw [hstep]
      cases i with
      | zero => simp
      | succ i =>
          have hsplit : (∀ j ≤ i + 1, scanHex2 (src.drop (2 * j)) ≠ .mismatch) ↔
              scanHex2 src ≠ .mismatch ∧
                ∀ j ≤ i, scanHex2 ((src.drop 2).drop (2 * j)) ≠ .mismatch := by
            simp only [← Nat.lt_succ_iff]
            rw [Nat.forall_lt_succ_left]
            simp only [Nat.mul_zero, List.drop_zero, List.drop_drop, Nat.mul_succ, Nat.add_comm 2]
          rw [hsplit, Nat.add_sub_cancel, ih]
          simp only [Nat.add_lt_add_iff_right, Nat.add_eq_zero_iff, Nat.one_ne_zero, and_false,
            false_or]
          exact and_left_comm

theorem storedCount_le (src : Bytes) (len : Nat) : storedCount src len ≤ len := by
  by_contra hlt
  exact absurd ((lt_storedCount_iff src len len).mp (Nat.lt_of_not_le hlt)).1 (Nat.lt_irrefl len)

/-- What is stored, call by call. -/
theorem fromHexstring_stored (stale : Nat → UInt8) (src : Bytes) (len : Nat) :
    (fromHexstring stale src len).2 =
      (List.range (storedCount src len)).map (storedByte stale src len) := by
  induction len generalizing src with
  | zero => rfl
  | succ len ih =>
      have hshift : storedByte stale src (len + 1) ∘ Nat.succ =
          storedByte stale (src.drop 2) len := by
        funext i
        rw [Function.comp_apply, storedByte, storedByte, List.drop_drop]
        have hindex : len + 1 - 1 - i.succ = len - 1 - i := by omega
        rw [hindex, Nat.mul_succ, Nat.add_comm 2]
      have hcons : (List.range (storedCount (src.drop 2) len + 1)).map
          (storedByte stale src (len + 1)) =
            storedByte stale src (len + 1) 0 :: (fromHexstring stale (src.drop 2) len).2 := by
        rw [List.range_succ_eq_map, List.map_cons, List.map_map, hshift, ih]
      rw [fromHexstring, storedCount]
      cases hscan : scanHex2 src with
      | mismatch => rfl
      | eof =>
          dsimp only
          rw [hcons, storedByte, Nat.mul_zero, List.drop_zero, hscan]
          rfl
      | value v =>
          dsimp only
          rw [hcons, storedByte, Nat.mul_zero, List.drop_zero, hscan]

theorem length_stored (stale : Nat → UInt8) (src : Bytes) (len : Nat) :
    (fromHexstring stale src len).2.length = storedCount src len := by
  rw [fromHexstring_stored, List.length_map, List.length_range]

section

variable {string : CString}

theorem CString.drop_text {n : Nat} (hn : n ≤ string.bytes.length) (behind : Bytes) :
    (string.text behind).drop n = string.bytes.drop n ++ 0 :: behind := by
  unfold CString.text
  rw [List.drop_append_of_le_length hn]

theorem CString.notMem_drop (n : Nat) : (0 : UInt8) ∉ string.bytes.drop n :=
  fun hmem => string.noNul (List.mem_of_mem_drop hmem)

/-- A call that starts in the string, or at its terminator, reads no further. -/
theorem CString.lastRead_le_iff (behind : Bytes) (offset : Nat) :
    lastRead (string.text behind) offset ≤ string.bytes.length ↔
      offset ≤ string.bytes.length := by
  constructor
  · intro hinside
    unfold lastRead at hinside
    omega
  · intro hoffset
    unfold lastRead
    rw [CString.drop_text hoffset, cstr_append_nul (CString.notMem_drop offset),
      List.length_drop]
    omega

/-- A conversion in the string sees the string only. -/
theorem CString.scanHex2_text {offset : Nat} (hoffset : offset ≤ string.bytes.length)
    (behind : Bytes) :
    scanHex2 ((string.text behind).drop offset) = scanHex2 (string.bytes.drop offset) := by
  rw [CString.drop_text hoffset, scanHex2_append_nul (CString.notMem_drop offset)]

end

/-- The decoder is exact for the texts that start with enough digits, and for those in which
some call finds no number before the end of the string. -/
theorem decodesExactly_iff (stale : Nat → UInt8) (string : CString) (behind : Bytes) (len : Nat) :
    DecodesExactly stale string behind len ↔
      HexDigits string.bytes len ∨
        ∃ i < len, 2 * i < string.bytes.length ∧
          scanHex2 (string.bytes.drop (2 * i)) = .mismatch := by
  constructor
  · intro hexact
    by_cases hdigits : HexDigits string.bytes len
    · exact .inl hdigits
    · -- Some call fails; the first one that does starts in the string.
      have hfails : ∃ i, i < len ∧ scanHex2 ((string.text behind).drop (2 * i)) = .mismatch := by
        by_contra hnone
        refine hdigits (hexact.accepts.mp ((fromHexstring_eq_true_iff _ _ _).mpr ?_))
        exact fun i hi hscan => hnone ⟨i, hi, hscan⟩
      classical
      obtain ⟨hlt, hscan⟩ := Nat.find_spec hfails
      have hfirst : Nat.find hfails < scanCount (string.text behind) len := by
        refine (lt_scanCount_iff _ _ _).mpr ⟨hlt, fun j hj hmismatch => ?_⟩
        exact Nat.find_min hfails hj ⟨hj.trans hlt, hmismatch⟩
      have hinside := (CString.lastRead_le_iff behind _).mp (hexact.inside _ hfirst)
      rw [CString.scanHex2_text hinside] at hscan
      refine .inr ⟨_, hlt, lt_of_le_of_ne hinside ?_, hscan⟩
      intro hend
      rw [hend, List.drop_length] at hscan
      cases hscan
  · rintro (hdigits | ⟨i, hi, hinside, hscan⟩)
    · have hdecode := fromHexstring_digits stale hdigits (0 :: behind)
      refine ⟨iff_of_true (by rw [CString.text, hdecode]) hdigits,
        fun _ => by rw [CString.text, hdecode], ?_⟩
      intro i hi
      have hlt := ((lt_scanCount_iff _ _ _).mp hi).1
      have hlength := hdigits.1
      exact (CString.lastRead_le_iff behind _).mpr (by omega)
    · rw [← CString.scanHex2_text (Nat.le_of_lt hinside) behind] at hscan
      have hrefuses : ¬ (fromHexstring stale (string.text behind) len).1 = true := by
        rw [fromHexstring_eq_true_iff]
        exact fun hall => hall i hi hscan
      refine ⟨iff_of_false hrefuses ?_, fun h => absurd h hrefuses, ?_⟩
      · intro hdigits
        refine hrefuses ?_
        rw [CString.text, fromHexstring_digits stale hdigits]
      · intro j hj
        -- No call comes after the one that fails.
        have hle : j ≤ i := by
          by_contra hafter
          exact ((lt_scanCount_iff _ _ _).mp hj).2 i (by omega) hscan
        exact (CString.lastRead_le_iff behind _).mpr (by omega)

/-- A sign and one digit pass for a byte. -/
theorem sign_not_decodesExactly :
    fromHexstring (fun _ => 0) (CString.text ⟨ascii "+1", by decide⟩ []) 1 = (true, [1]) ∧
      ¬ DecodesExactly (fun _ => 0) ⟨ascii "+1", by decide⟩ [] 1 := by
  have hdecode : fromHexstring (fun _ => 0) (CString.text ⟨ascii "+1", by decide⟩ []) 1 =
      (true, [1]) := by decide
  have hdigits : ¬ HexDigits (ascii "+1") 1 := by decide
  refine ⟨hdecode, fun hexact => hdigits (hexact.accepts.mp ?_)⟩
  rw [hdecode]

end RemoteAttestation
