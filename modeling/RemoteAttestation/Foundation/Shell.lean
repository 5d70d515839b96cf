import RemoteAttestation.Foundation.Decimal

/-! # Variables in a shell script

An expansion that is not quoted is cut into words at the blanks of its value, and a word that
is a pattern becomes the names of files. `test` compares numbers in base 10.
-/

namespace RemoteAttestation

/-- The characters of `IFS`. -/
def isIfs (c : UInt8) : Bool := c == 32 || c == 9 || c == 10

def isPatternChar (c : UInt8) : Bool := c == 42 || c == 63 || c == 91

/-- The words of a value. -/
def splitWords : Bytes → List Bytes
  | [] => []
  | c :: rest =>
      if isIfs c then splitWords rest
      else match rest.head?.map isIfs, splitWords rest with
        | some false, word :: words => (c :: word) :: words
        | _, words => [c] :: words

/-- An expansion that is not quoted, with the names of the files that match a pattern, or the
pattern where no file does. -/
def unquoted (glob : Bytes → List Bytes) (value : Bytes) : List Bytes :=
  (splitWords value).flatMap fun word => if word.any isPatternChar then glob word else [word]

/-- The number that `test` finds in `"0$NAME"`. Blanks may stand behind it. -/
def testNumber (value : Bytes) : Option Nat :=
  let text := 48 :: value
  let digits := text.takeWhile isDigit
  if (text.drop digits.length).all (fun c => c == 32 || c == 9) ∧ digitsValue digits < 2 ^ 63
  then some (digitsValue digits) else none

/-- `"$NAME" != "" -a "0$NAME" -ne 0`. -/
def isNonzero (value : Bytes) : Bool := value ≠ [] && (testNumber value).any (· ≠ 0)

/-- `"$NAME" != "" -a "0$NAME" -eq 0`. -/
def isZero (value : Bytes) : Bool := value ≠ [] && testNumber value = some 0

/-- A value without blanks is one word. -/
theorem splitWords_of_noIfs {value : Bytes} (hvalue : value ≠ [])
    (hifs : ∀ c ∈ value, isIfs c = false) : splitWords value = [value] := by
  induction value with
  | nil => exact absurd rfl hvalue
  | cons c rest ih =>
      obtain ⟨hc, hrest⟩ := List.forall_mem_cons.mp hifs
      cases rest with
      | nil => simp [splitWords, hc]
      | cons d rest =>
          have hd : isIfs d = false := hrest d List.mem_cons_self
          rw [splitWords, if_neg (by simp [hc]), ih (List.cons_ne_nil d rest) hrest]
          simp [hd]

/-- A value without blanks and patterns expands to itself. -/
theorem unquoted_eq_self (glob : Bytes → List Bytes) {value : Bytes} (hvalue : value ≠ [])
    (hplain : ∀ c ∈ value, isIfs c = false ∧ isPatternChar c = false) :
    unquoted glob value = [value] := by
  have hpattern : value.any isPatternChar = false := by
    rw [List.any_eq_false]
    intro c hc
    simp [(hplain c hc).2]
  rw [unquoted, splitWords_of_noIfs hvalue fun c hc => (hplain c hc).1, List.flatMap_singleton,
    hpattern]
  rfl

end RemoteAttestation
