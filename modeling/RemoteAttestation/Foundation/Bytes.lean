import Mathlib.Data.List.Basic
import Mathlib.Data.List.TakeWhile
import Mathlib.Data.Nat.Digits.Lemmas

/-! # Byte strings, fixed arrays and memory seen through a pointer

C arrays of a known size are `Block`s. A pointer into the heap is a `Memory`:
the allocated bytes, followed by whatever lies behind the allocation, so that
a read past the end has a value without having a meaning.
-/

namespace RemoteAttestation

abbrev Bytes := List UInt8

/-- A property of all 256 bytes can be decided. -/
theorem forall_uint8 {p : UInt8 → Prop} (h : ∀ n : Fin 256, p (UInt8.ofFin n)) (byte : UInt8) :
    p byte :=
  h byte.toFin

theorem forall_mem_of_all {p : UInt8 → Prop} [DecidablePred p] {text : Bytes}
    (hall : text.all fun c => p c) : ∀ c ∈ text, p c :=
  fun c hc => of_decide_eq_true (List.all_eq_true.mp hall c hc)

/-- The bytes of a text literal. -/
def ascii (text : String) : Bytes := text.toList.map fun c => UInt8.ofNat c.toNat

/-- A C array of exactly `n` bytes. -/
structure Block (n : Nat) where
  bytes : Bytes
  length_bytes : bytes.length = n
deriving DecidableEq

namespace Block

attribute [simp] length_bytes

variable {n : Nat}

@[ext] theorem ext {left right : Block n} (hbytes : left.bytes = right.bytes) : left = right := by
  cases left
  cases right
  cases hbytes
  rfl

/-- An array filled with one byte, as `memset` leaves it. -/
def fill (n : Nat) (byte : UInt8) : Block n := ⟨List.replicate n byte, by simp⟩

def zero (n : Nat) : Block n := fill n 0

@[simp] theorem bytes_zero : (zero n).bytes = List.replicate n 0 := rfl

/-- The array with its bytes in the opposite order. -/
def reverse (block : Block n) : Block n := ⟨block.bytes.reverse, by simp⟩

@[simp] theorem bytes_reverse (block : Block n) : block.reverse.bytes = block.bytes.reverse := rfl

end Block

/-! ## Little-endian numbers -/

/-- The `width` low bytes of a number, least significant first. -/
def leBytes : Nat → Nat → Bytes
  | 0, _ => []
  | width + 1, value => UInt8.ofNat value :: leBytes width (value / 256)

/-- The number a little-endian byte string stands for. -/
def leNat : Bytes → Nat
  | [] => 0
  | byte :: rest => byte.toNat + 256 * leNat rest

@[simp] theorem length_leBytes (width value : Nat) : (leBytes width value).length = width := by
  induction width generalizing value with
  | zero => rfl
  | succ width ih => simp [leBytes, ih]

theorem leNat_leBytes (width value : Nat) (hvalue : value < 256 ^ width) :
    leNat (leBytes width value) = value := by
  induction width generalizing value with
  | zero => simp [leBytes, leNat] at hvalue ⊢; omega
  | succ width ih =>
      have hdiv : value / 256 < 256 ^ width := by
        rw [Nat.pow_succ] at hvalue
        omega
      simp only [leBytes, leNat, ih _ hdiv, UInt8.toNat_ofNat']
      omega

theorem leNat_lt (bytes : Bytes) : leNat bytes < 256 ^ bytes.length := by
  induction bytes with
  | nil => simp [leNat]
  | cons byte rest ih =>
      have hbyte := byte.toNat_lt
      simp only [leNat, List.length_cons, Nat.pow_succ]
      omega

/-- The fixed-width little-endian array OpenSSL's `BN_bn2lebinpad` writes. -/
def leBlock (width value : Nat) : Block width := ⟨leBytes width value, length_leBytes width value⟩

/-- The fixed-width big-endian array OpenSSL's `BN_bn2binpad` writes. -/
def beBlock (width value : Nat) : Block width := (leBlock width value).reverse

@[simp] theorem bytes_leBlock (width value : Nat) :
    (leBlock width value).bytes = leBytes width value := rfl

@[simp] theorem reverse_beBlock (width value : Nat) :
    (beBlock width value).reverse = leBlock width value := by
  ext1
  simp [beBlock]

/-! ## C strings -/

/-- What a C string function sees of a buffer: the bytes before the first NUL. -/
def cstr (bytes : Bytes) : Bytes := bytes.takeWhile (· != 0)

/-- A C string, by the bytes before its terminator. -/
structure CString where
  bytes : Bytes
  noNul : (0 : UInt8) ∉ bytes

/-- A C string ends at its first NUL. -/
theorem cstr_append_nul {text : Bytes} (htext : (0 : UInt8) ∉ text) (rest : Bytes) :
    cstr (text ++ 0 :: rest) = text := by
  unfold cstr
  induction text with
  | nil => simp
  | cons byte text ih =>
      simp only [List.mem_cons, not_or] at htext
      have hbyte : byte ≠ 0 := Ne.symm htext.1
      rw [List.cons_append, List.takeWhile_cons]
      simp only [bne_iff_ne, ne_eq, hbyte, not_false_eq_true, if_true, ih htext.2]

theorem cstr_of_notMem {text : Bytes} (htext : (0 : UInt8) ∉ text) : cstr text = text := by
  refine List.takeWhile_eq_self_iff.mpr fun c hc => ?_
  rw [bne_iff_ne]
  rintro rfl
  exact htext hc

/-- `std::string::find`: the first index at which `pattern` starts. -/
def find (pattern : Bytes) : Bytes → Option Nat
  | [] => if pattern = [] then some 0 else none
  | byte :: rest =>
      if pattern <+: byte :: rest then some 0 else (find pattern rest).map (· + 1)

/-- Where the first occurrence of a pattern is. -/
theorem find_eq_some_iff {pattern text : Bytes} {i : Nat} :
    find pattern text = some i ↔
      i ≤ text.length ∧ pattern <+: text.drop i ∧ ∀ j < i, ¬ pattern <+: text.drop j := by
  induction text generalizing i with
  | nil =>
      cases pattern with
      | nil =>
          simp only [find, if_true, Option.some.injEq, List.drop_nil, List.nil_prefix, true_and,
            List.length_nil, Nat.le_zero, not_true_eq_false, imp_false, not_lt]
          exact ⟨fun h => ⟨h.symm, fun j => by omega⟩, fun h => h.1.symm⟩
      | cons byte rest => simp [find]
  | cons byte rest ih =>
      by_cases hhead : pattern <+: byte :: rest
      · rw [find, if_pos hhead]
        constructor
        · intro hzero
          cases hzero
          exact ⟨Nat.zero_le _, hhead, fun j hj => absurd hj (by omega)⟩
        · rintro ⟨_, _, hfirst⟩
          cases i with
          | zero => rfl
          | succ i => exact absurd hhead (hfirst 0 (by omega))
      · rw [find, if_neg hhead]
        cases i with
        | zero => simp [hhead]
        | succ i =>
            rw [Option.map_eq_some_iff]
            simp only [Nat.add_right_cancel_iff, exists_eq_right, ih, List.drop_succ_cons,
              List.length_cons, Nat.add_le_add_iff_right]
            rw [Nat.forall_lt_succ_left]
            simp [hhead]

/-- A text without one of the pattern's bytes does not contain the pattern. -/
theorem find_eq_none_of_notMem {pattern text : Bytes} {byte : UInt8} (hbyte : byte ∈ pattern)
    (htext : byte ∉ text) : find pattern text = none := by
  induction text with
  | nil => simp [find, List.ne_nil_of_mem hbyte]
  | cons head rest ih =>
      have hleading : ¬ pattern <+: head :: rest := fun h => htext (h.subset hbyte)
      simp [find, hleading, ih (fun h => htext (List.mem_cons_of_mem _ h))]

/-- The first occurrence of a pattern that ends in `last` lies where `last` first follows
the rest of the pattern. -/
theorem find_append_of_notMem {init text rest : Bytes} {last : UInt8} (htext : last ∉ text)
    (hinit : last ∉ init) : find (init ++ [last]) (text ++ init ++ last :: rest) =
      some text.length := by
  induction text with
  | nil =>
      have hleading : init ++ [last] <+: init ++ last :: rest := ⟨rest, by simp⟩
      cases hlist : init ++ last :: rest with
      | nil => simp at hlist
      | cons head tail =>
          rw [hlist] at hleading
          simp [find, hlist, hleading]
  | cons head text ih =>
      simp only [List.mem_cons, not_or] at htext
      have hleading : ¬ init ++ [last] <+: (head :: text) ++ init ++ last :: rest := by
        -- A match at the head would put `last` among the bytes of `head :: text` and `init`.
        rintro ⟨tail, htail⟩
        have hlt : init.length < ((head :: text) ++ init).length := by simp
        have hget : ((head :: text) ++ init ++ last :: rest)[init.length]? = some last := by
          rw [← htail]
          simp
        rw [List.getElem?_append_left hlt] at hget
        have hmem := List.mem_of_getElem? hget
        simp only [List.mem_append, List.mem_cons] at hmem
        tauto
      simp only [List.cons_append] at hleading ⊢
      simp only [List.append_assoc] at ih hleading ⊢
      simp [find, hleading, ih htext.2]

/-! ## Memory behind a pointer -/

/-- The heap from a pointer on. `block` is what was allocated there; nothing
is known about `beyond`. -/
structure Memory where
  block : Bytes
  beyond : Nat → UInt8

namespace Memory

/-- One byte read through the pointer. -/
def byte (memory : Memory) (offset : Nat) : UInt8 :=
  memory.block.getD offset (memory.beyond (offset - memory.block.length))

/-- `length` bytes read from `offset` on. -/
def slice (memory : Memory) (offset length : Nat) : Bytes :=
  (List.range length).map fun i => memory.byte (offset + i)

/-- A fixed array read at a structure offset. -/
def field (memory : Memory) (offset n : Nat) : Block n := ⟨memory.slice offset n, by simp [slice]⟩

@[simp] theorem length_slice (memory : Memory) (offset length : Nat) :
    (memory.slice offset length).length = length := by
  simp [slice]

@[simp] theorem bytes_field (memory : Memory) (offset n : Nat) :
    (memory.field offset n).bytes = memory.slice offset n := rfl

/-- A slice inside the allocation is that part of the allocated bytes. -/
theorem slice_eq_take_drop (memory : Memory) (offset length : Nat)
    (hinside : offset + length ≤ memory.block.length) :
    memory.slice offset length = (memory.block.drop offset).take length := by
  apply List.ext_getElem
  · simp
    omega
  · intro i hi _
    have hi' : i < length := by simpa using hi
    have hget : offset + i < memory.block.length := by omega
    simp [slice, byte, hget]

/-- A pointer that was never assigned: nothing behind it is known. -/
def wild (beyond : Nat → UInt8) : Memory := ⟨[], beyond⟩

end Memory

end RemoteAttestation
