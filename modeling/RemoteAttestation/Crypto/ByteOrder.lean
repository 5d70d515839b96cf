import RemoteAttestation.Foundation.Cells

/-! # Byte order

`reverse_bytes` turns big-endian numbers into little-endian ones. It swaps from both
ends when the source is the destination and copies backwards when it is not, and does
neither for an array of fewer than two bytes.
-/

namespace RemoteAttestation

/-- The loop of the branch `src == dest`. -/
def swapLoop (cells : Cells) (sp i j : Nat) : Cells :=
  if i < j then
    let t := cells.byte (sp + j)
    swapLoop ((cells.store (sp + j) (cells.byte (sp + i))).store (sp + i) t) sp (i + 1) (j - 1)
  else cells
termination_by j - i

/-- The loop of the other branch, with the number of turns still to come. -/
def copyLoop (cells : Cells) (sp dp : Nat) : Nat → Cells
  | 0 => cells
  | turns + 1 => copyLoop (cells.store dp (cells.byte sp)) (sp + 1) (dp - 1) turns

def reverseBytes (cells : Cells) (dest src len : Nat) : Cells :=
  if len < 2 then cells
  else if src = dest then swapLoop cells src 0 (len - 1)
  else copyLoop cells src (dest + len - 1) len

/-- The destination is the source, or the two do not overlap. -/
def Placed (dest src len : Nat) : Prop :=
  dest = src ∨ dest + len ≤ src ∨ src + len ≤ dest

/-- What the callers of `reverse_bytes` rely on. -/
structure Reverses (cells : Cells) (dest src len : Nat) : Prop where
  reversed : ∀ i < len,
    (reverseBytes cells dest src len).byte (dest + i) = cells.byte (src + (len - 1 - i))
  confined : cells.Confined dest len (reverseBytes cells dest src len)
  sameInPlace : ∀ i < len, (reverseBytes cells dest src len).byte (dest + i) =
    (reverseBytes cells src src len).byte (src + i)
  twiceInPlace : ∀ i < len,
    (reverseBytes (reverseBytes cells dest src len) dest dest len).byte (dest + i) =
      cells.byte (src + i)
  twiceBack : ∀ i < len,
    (reverseBytes (reverseBytes cells dest src len) src dest len).byte (src + i) =
      cells.byte (src + i)

/-! ## The two loops -/

/-- The swaps exchange what is between the two indices and touch nothing else. -/
theorem swapLoop_spec (cells : Cells) (sp i j : Nat) :
    (∀ k, i ≤ k → k ≤ j → (swapLoop cells sp i j).byte (sp + k) = cells.byte (sp + (i + j - k))) ∧
      cells.Confined (sp + i) (j + 1 - i) (swapLoop cells sp i j) := by
  fun_induction swapLoop cells sp i j with
  | case1 cells i j hlt t ih =>
      obtain ⟨hswapped, hconfined⟩ := ih
      have hstores : cells.Confined (sp + i) (j + 1 - i)
          ((cells.store (sp + j) (cells.byte (sp + i))).store (sp + i) t) :=
        (Cells.Confined.store (by omega) (by omega) _).trans
          (Cells.Confined.store (by omega) (by omega) _)
      refine ⟨fun k hik hkj => ?_, hstores.trans (hconfined.mono (by omega) (by omega))⟩
      by_cases hends : k = i ∨ k = j
      · -- The two ends were exchanged in this turn and stay outside of all later ones.
        rw [hconfined.kept _ (by omega)]
        rcases hends with rfl | rfl
        · rw [Cells.byte_store_self, Nat.add_sub_cancel_left]
        · rw [Cells.byte_store_of_ne (by omega), Cells.byte_store_self, Nat.add_sub_cancel]
      · rw [hswapped k (by omega) (by omega), Cells.byte_store_of_ne (by omega),
          Cells.byte_store_of_ne (by omega)]
        congr 2
        omega
  | case2 cells i j hge =>
      refine ⟨fun k hik hkj => ?_, .refl _ _ _⟩
      congr 2
      omega

/-- The copy reverses a source that its stores do not reach. -/
theorem copyLoop_spec (cells : Cells) (sp dest turns : Nat)
    (hdisjoint : dest + turns ≤ sp ∨ sp + turns ≤ dest) :
    (∀ i < turns, (copyLoop cells sp (dest + turns - 1) turns).byte (dest + i) =
        cells.byte (sp + (turns - 1 - i))) ∧
      cells.Confined dest turns (copyLoop cells sp (dest + turns - 1) turns) := by
  induction turns generalizing cells sp with
  | zero => exact ⟨fun i hi => absurd hi (Nat.not_lt_zero i), .refl _ _ _⟩
  | succ turns ih =>
      obtain ⟨hcopied, hconfined⟩ :=
        ih (cells.store (dest + turns) (cells.byte sp)) (sp + 1) (by omega)
      have hfirst : cells.Confined dest (turns + 1)
          (cells.store (dest + turns) (cells.byte sp)) :=
        .store (by omega) (by omega) _
      rw [copyLoop, ← Nat.add_assoc, Nat.add_sub_cancel]
      refine ⟨fun i hi => ?_, hfirst.trans (hconfined.mono (Nat.le_refl _) (by omega))⟩
      -- The byte at the end is stored by the first turn and reached by no later one.
      by_cases hlast : i = turns
      · rw [hlast, hconfined.kept _ (by omega), Cells.byte_store_self, Nat.add_sub_cancel,
          Nat.sub_self, Nat.add_zero]
      · rw [hcopied i (by omega), Cells.byte_store_of_ne (by omega)]
        congr 1
        omega

/-! ## The function -/

section

variable {dest src len : Nat}

theorem Placed.symm (hplaced : Placed dest src len) : Placed src dest len := by
  unfold Placed at hplaced ⊢
  omega

theorem Placed.refl (dest len : Nat) : Placed dest dest len := .inl rfl

/-- Two bytes or more are reversed in both branches. -/
theorem reverseBytes_spec (cells : Cells) (hplaced : Placed dest src len) (hlen : 2 ≤ len) :
    (∀ i < len,
        (reverseBytes cells dest src len).byte (dest + i) = cells.byte (src + (len - 1 - i))) ∧
      cells.Confined dest len (reverseBytes cells dest src len) := by
  unfold reverseBytes
  rw [if_neg (by omega)]
  by_cases hsame : src = dest
  · obtain ⟨hswapped, hconfined⟩ := swapLoop_spec cells src 0 (len - 1)
    rw [if_pos hsame]
    subst hsame
    refine ⟨fun i hi => ?_, hconfined.mono (by omega) (by omega)⟩
    rw [hswapped i (Nat.zero_le i) (by omega), Nat.zero_add]
  · rw [if_neg hsame]
    apply copyLoop_spec
    unfold Placed at hplaced
    omega

/-- Fewer than two bytes are left alone. -/
theorem reverseBytes_of_lt (cells : Cells) (dest src : Nat) (hlen : len < 2) :
    reverseBytes cells dest src len = cells := by
  rw [reverseBytes, if_pos hlen]

/-- Reversed twice, the bytes are the original ones. -/
theorem reverseBytes_twice (cells : Cells) {third : Nat} (hplaced : Placed dest src len)
    (hthird : Placed third dest len) (hlen : 2 ≤ len) (i : Nat) (hi : i < len) :
    (reverseBytes (reverseBytes cells dest src len) third dest len).byte (third + i) =
      cells.byte (src + i) := by
  have hsecond := (reverseBytes_spec (reverseBytes cells dest src len) hthird hlen).1 i hi
  have hfirst := (reverseBytes_spec cells hplaced hlen).1 (len - 1 - i) (by omega)
  rw [hsecond, hfirst]
  congr 2
  omega

/-- Only a copy of a single byte can go wrong: it is not made. -/
theorem reverses_iff (cells : Cells) (hplaced : Placed dest src len) :
    Reverses cells dest src len ↔ (len = 1 → cells.byte dest = cells.byte src) := by
  constructor
  · rintro hreverses rfl
    have hbyte := hreverses.reversed 0 Nat.one_pos
    rwa [reverseBytes_of_lt cells dest src Nat.one_lt_two] at hbyte
  · intro hsingle
    by_cases hlen : len < 2
    · -- Nothing is stored, and the one byte that may be there is the right one already.
      have hbyte : ∀ i < len, i = 0 ∧ cells.byte dest = cells.byte src :=
        fun i hi => ⟨by omega, hsingle (by omega)⟩
      constructor
      all_goals simp only [reverseBytes_of_lt _ _ _ hlen]
      · intro i hi
        obtain ⟨rfl, hsame⟩ := hbyte i hi
        have hzero : len - 1 - 0 = 0 := by omega
        rw [hzero]
        exact hsame
      · exact .refl _ _ _
      · intro i hi
        obtain ⟨rfl, hsame⟩ := hbyte i hi
        exact hsame
      · intro i hi
        obtain ⟨rfl, hsame⟩ := hbyte i hi
        exact hsame
      · exact fun _ _ => trivial
    · have hlen' : 2 ≤ len := by omega
      obtain ⟨hreversed, hconfined⟩ := reverseBytes_spec cells hplaced hlen'
      refine ⟨hreversed, hconfined, fun i hi => ?_, ?_, ?_⟩
      · rw [hreversed i hi, (reverseBytes_spec cells (.refl src len) hlen').1 i hi]
      · exact reverseBytes_twice cells hplaced (.refl dest len) hlen'
      · exact reverseBytes_twice cells hplaced hplaced.symm hlen'

end

/-- A number of four bytes is reversed into another place. -/
theorem reverses_four : Placed 8 0 4 ∧ Reverses ⟨fun x => UInt8.ofNat x, []⟩ 8 0 4 :=
  ⟨.inr (.inr (by decide)), (reverses_iff _ (.inr (.inr (by decide)))).mpr fun h => by cases h⟩

/-- One byte is not copied to another place. -/
theorem single_not_reverses :
    Placed 1 0 1 ∧ ¬ Reverses ⟨fun x => if x = 0 then 7 else 0, []⟩ 1 0 1 := by
  refine ⟨.inr (.inr (Nat.le_refl 1)), fun hreverses => ?_⟩
  have hbyte := hreverses.reversed 0 Nat.one_pos
  rw [reverseBytes_of_lt _ _ _ Nat.one_lt_two] at hbyte
  cases hbyte

end RemoteAttestation
