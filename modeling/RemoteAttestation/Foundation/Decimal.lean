import RemoteAttestation.Foundation.Bytes

/-! # Decimal numbers

The conversions of the C library that take a text with a number in base 10.
-/

namespace RemoteAttestation

def isSpace (c : UInt8) : Bool := c == 32 || (9 ≤ c && c ≤ 13)

def isDigit (c : UInt8) : Bool := 48 ≤ c && c ≤ 57

/-- The number that digits stand for. -/
def digitsValue (digits : Bytes) : Nat := digits.foldl (fun value c => 10 * value + (c.toNat - 48)) 0

/-- A sign, and the text behind it. -/
def scanSign : Bytes → Bool × Bytes
  | 45 :: rest => (true, rest)
  | 43 :: rest => (false, rest)
  | text => (false, text)

/-- A number with a sign, as `strtol` and `strtoul` find it: whether it is negative, its size,
and the text behind it. Without digits nothing is read. -/
def scanDecimal (text : Bytes) : Option (Bool × Nat × Bytes) :=
  let (negative, start) := scanSign (text.dropWhile isSpace)
  let digits := start.takeWhile isDigit
  if digits = [] then none
  else some (negative, digitsValue digits, start.drop digits.length)

/-- `strtoul` in base 10, with the text at `*endptr`. -/
def strtoul (text : Bytes) : Nat × Bytes :=
  match scanDecimal text with
  | none => (0, text)
  | some (negative, size, rest) =>
      if 2 ^ 64 ≤ size then (2 ^ 64 - 1, rest)
      else (if negative then (2 ^ 64 - size) % 2 ^ 64 else size, rest)

/-- `atoi`, converted to an unsigned number. -/
def atoi (text : Bytes) : Nat :=
  match scanDecimal text with
  | none => 0
  | some (true, size, _) => (-(min size (2 ^ 63) : Int) % 2 ^ 32).toNat
  | some (false, size, _) => min size (2 ^ 63 - 1) % 2 ^ 32

/-! ## A text of digits -/

/-- A digit is neither white space nor a sign. -/
theorem isDigit_facts (c : UInt8) : isDigit c = true → isSpace c = false ∧ c ≠ 45 ∧ c ≠ 43 := by
  revert c
  exact forall_uint8 (by decide +kernel)

/-- A text of digits is read to its end. -/
theorem scanDecimal_digits {text : Bytes} (htext : text ≠ [])
    (hdigits : ∀ c ∈ text, isDigit c = true) :
    scanDecimal text = some (false, digitsValue text, []) := by
  have hall : text.takeWhile isDigit = text := List.takeWhile_eq_self_iff.mpr hdigits
  cases text with
  | nil => exact absurd rfl htext
  | cons c rest =>
      obtain ⟨hspace, hminus, hplus⟩ := isDigit_facts c (hdigits c List.mem_cons_self)
      have hsign : scanSign (c :: rest) = (false, c :: rest) := by
        unfold scanSign
        split
        · next heq => exact absurd (List.cons.inj heq).1 hminus
        · next heq => exact absurd (List.cons.inj heq).1 hplus
        · rfl
      unfold scanDecimal
      rw [List.dropWhile_cons_of_neg (by simp [hspace]), hsign]
      dsimp only
      rw [hall, if_neg htext, List.drop_length]

theorem strtoul_digits {text : Bytes} (htext : text ≠ [])
    (hdigits : ∀ c ∈ text, isDigit c = true) (hvalue : digitsValue text < 2 ^ 64) :
    strtoul text = (digitsValue text, []) := by
  rw [strtoul, scanDecimal_digits htext hdigits]
  dsimp only
  rw [if_neg (by omega)]
  rfl

end RemoteAttestation
