import RemoteAttestation.Foundation.Decimal

/-! # Base-16 conversion

`hexstring` writes two lower-case digits a byte. `fromHexstring` reads them back
with one `sscanf("%2x")` a byte, which accepts more than two hexadecimal digits.
-/

namespace RemoteAttestation

def hexTable : Bytes := ascii "0123456789abcdef"

/-- The digit of a half byte, as `_hextable` gives it. -/
def hexDigit (nibble : UInt8) : UInt8 := hexTable.getD nibble.toNat 0

/-- The text `hexstring` returns when its buffer could be grown. -/
def hexstring (src : Bytes) : Bytes :=
  src.flatMap fun (byte : UInt8) => [hexDigit (byte >>> 4), hexDigit (byte &&& 0xf)]

def hexValue? (c : UInt8) : Option UInt8 :=
  if 48 ≤ c ∧ c ≤ 57 then some (c - 48)
  else if 97 ≤ c ∧ c ≤ 102 then some (c - 87)
  else if 65 ≤ c ∧ c ≤ 70 then some (c - 55)
  else none

/-- How one `%2x` conversion ends: at the end of the string (`EOF`), without
a number (`0`), or with the low byte of the number it read (`1`). -/
inductive Scan where
  | eof
  | mismatch
  | value (v : UInt8)
deriving DecidableEq

/-- `sscanf(src, "%2x", &v)`: white space, then at most two characters that
are an optional sign and hexadecimal digits. A lone `0x` is a prefix of a number
and not a number. -/
def scanHex2 (src : Bytes) : Scan :=
  match src.dropWhile isSpace with
  | [] => .eof
  | c :: rest =>
      if c = 0 then .eof
      else match hexValue? c with
      | some high =>
          match rest with
          | [] => .value high
          | d :: _ =>
              if c = 48 ∧ (d = 120 ∨ d = 88) then .mismatch
              else match hexValue? d with
              | some low => .value (16 * high + low)
              | none => .value high
      | none =>
          if c = 43 ∨ c = 45 then
            match rest.head?.bind hexValue? with
            | some low => .value (if c = 45 then -low else low)
            | none => .mismatch
          else .mismatch

/-- The bytes stored into `dest`, and whether every conversion gave a number or
met the end of the string. In the second case `v` is stored unset: `stale` is what
it held, by the number of conversions still to come. -/
def fromHexstring (stale : Nat → UInt8) : Bytes → Nat → Bool × Bytes
  | _, 0 => (true, [])
  | src, len + 1 =>
      match scanHex2 src with
      | .mismatch => (false, [])
      | .eof =>
          let result := fromHexstring stale (src.drop 2) len
          (result.1, stale len :: result.2)
      | .value v =>
          let result := fromHexstring stale (src.drop 2) len
          (result.1, v :: result.2)

/-- A decoder never stores more bytes than it was asked for. -/
theorem length_fromHexstring_le (stale : Nat → UInt8) (src : Bytes) (len : Nat) :
    (fromHexstring stale src len).2.length ≤ len := by
  induction len generalizing src with
  | zero => simp [fromHexstring]
  | succ len ih =>
      have hrest := ih (src.drop 2)
      unfold fromHexstring
      split <;> simp <;> omega

/-! ## What `hexstring` writes -/

@[simp] theorem hexstring_nil : hexstring [] = [] := rfl

theorem hexstring_cons (byte : UInt8) (rest : Bytes) :
    hexstring (byte :: rest) =
      hexDigit (byte >>> 4) :: hexDigit (byte &&& 0xf) :: hexstring rest := by
  simp [hexstring]

@[simp] theorem hexstring_append (left right : Bytes) :
    hexstring (left ++ right) = hexstring left ++ hexstring right := by
  simp [hexstring]

@[simp] theorem length_hexstring (src : Bytes) : (hexstring src).length = 2 * src.length := by
  induction src with
  | nil => rfl
  | cons byte rest ih =>
      simp only [hexstring_cons, List.length_cons, ih]
      omega

/-- The digits of a byte are digits: neither white space nor a terminator. -/
theorem hexDigit_isDigit (byte : UInt8) :
    (hexValue? (hexDigit (byte >>> 4)) = some (byte >>> 4) ∧
      hexValue? (hexDigit (byte &&& 0xf)) = some (byte &&& 0xf)) ∧
      (16 : UInt8) * (byte >>> 4) + (byte &&& 0xf) = byte := by
  revert byte
  exact forall_uint8 (by decide +kernel)

theorem hexDigit_notControl (byte : UInt8) :
    (isSpace (hexDigit (byte >>> 4)) = false ∧ hexDigit (byte >>> 4) ≠ 0) ∧
      hexDigit (byte &&& 0xf) ≠ 120 ∧ hexDigit (byte &&& 0xf) ≠ 88 := by
  revert byte
  exact forall_uint8 (by decide +kernel)

/-- Every character of a hexadecimal text is a hexadecimal digit. -/
theorem hexValue?_of_mem_hexstring {src : Bytes} {c : UInt8} (hc : c ∈ hexstring src) :
    (hexValue? c).isSome := by
  simp only [hexstring, List.mem_flatMap, List.mem_cons, List.not_mem_nil, or_false] at hc
  obtain ⟨byte, _, rfl | rfl⟩ := hc
  · simp [(hexDigit_isDigit byte).1.1]
  · simp [(hexDigit_isDigit byte).1.2]

theorem notMem_hexstring {src : Bytes} {c : UInt8} (hc : hexValue? c = none) :
    c ∉ hexstring src := by
  intro hmem
  have hsome := hexValue?_of_mem_hexstring hmem
  simp [hc] at hsome

/-! ## Reading it back -/

/-- One conversion reads back one written byte, whatever follows it. -/
theorem scanHex2_digits (byte : UInt8) (rest : Bytes) :
    scanHex2 (hexDigit (byte >>> 4) :: hexDigit (byte &&& 0xf) :: rest) = .value byte := by
  obtain ⟨⟨hhigh, hlow⟩, hvalue⟩ := hexDigit_isDigit byte
  obtain ⟨⟨hspace, hzero⟩, hx, hX⟩ := hexDigit_notControl byte
  simp [scanHex2, hspace, hzero, hhigh, hlow, hx, hX, hvalue]

/-- The hexadecimal text of a message, with anything behind it, decodes to the message. -/
theorem fromHexstring_hexstring (stale : Nat → UInt8) (message rest : Bytes) :
    fromHexstring stale (hexstring message ++ rest) message.length = (true, message) := by
  induction message with
  | nil => rfl
  | cons byte message ih =>
      simp only [hexstring_cons, List.cons_append, List.length_cons, fromHexstring,
        scanHex2_digits, List.drop_succ_cons, List.drop_zero, ih]

end RemoteAttestation
