import RemoteAttestation.Foundation.Allocation
import RemoteAttestation.Transport.HexUtil

/-! # The buffer of `hexstring`

`hexstring` returns a pointer to a buffer that all calls share. The size of the buffer is
recorded before it is known whether the buffer could be grown, so a call can find a size
without a buffer.
-/

namespace RemoteAttestation

/-- `_hex_buffer` and `_hex_buffer_size`. The null pointer owns no block. -/
structure HexBuffer where
  buffer : Option Bytes
  size : Nat
deriving DecidableEq

/-- The two variables when the program starts. -/
def HexBuffer.initial : HexBuffer := ⟨none, 0⟩

/-- A call: its input, whose length fits, and what `realloc` answers if it is asked. -/
structure HexCall where
  src : Bytes
  length_lt : src.length < 2 ^ 62
  realloc : Option (Nat → UInt8)

/-- What a call returns: a pointer to a block, or the text for a failed allocation. A
`fault` is a store outside of the block. -/
inductive HexResult where
  | text (block : Bytes)
  | outOfMemory
  | fault
deriving DecidableEq

/-- The loop that stores two digits a byte. -/
def storeHex (block : Bytes) (bp : Nat) : Bytes → Option Bytes
  | [] => some block
  | byte :: src => do
      let block ← overwrite block bp [hexDigit (byte >>> 4)]
      let block ← overwrite block (bp + 1) [hexDigit (byte &&& 0xf)]
      storeHex block (bp + 2) src

/-- `bsz`. -/
def hexSize (len : Nat) : Nat := (len * 2 + 1) % 2 ^ 64

/-- `newsz`: the next multiple of 1024. -/
def hexNewSize (bsz : Nat) : Nat :=
  (1024 * (bsz / 1024) + if bsz % 1024 ≠ 0 then 1024 else 0) % 2 ^ 64

namespace HexBuffer

/-- The buffer after the first part of the function; `none` is a failed allocation. -/
def ensure (st : HexBuffer) (call : HexCall) : Option Bytes × HexBuffer :=
  let bsz := hexSize call.src.length
  if st.size ≤ bsz then
    let newsz := hexNewSize bsz
    match call.realloc with
    | none => (none, ⟨none, newsz⟩)
    | some fresh =>
        let block := resize (st.buffer.getD []) fresh newsz
        (some block, ⟨some block, newsz⟩)
  else (some (st.buffer.getD []), st)

/-- `hexstring`. -/
def call (st : HexBuffer) (call : HexCall) : HexResult × HexBuffer :=
  match st.ensure call with
  | (none, st) => (.outOfMemory, st)
  | (some block, st) =>
      match storeHex block 0 call.src >>= (overwrite · (call.src.length * 2) [0]) with
      | none => (.fault, st)
      | some block => (.text block, { st with buffer := some block })

/-- The calls of a program with the variables they find, up to the first fault. -/
def run (st : HexBuffer) : List HexCall → List (HexBuffer × HexCall)
  | [] => []
  | next :: calls =>
      (st, next) :: match st.call next with
        | (.fault, _) => []
        | (_, st) => run st calls

/-- The recorded size is the size of the block, if there is one. -/
def Sized (st : HexBuffer) : Prop := ∀ block, st.buffer = some block → block.length = st.size

/-- No size is recorded for a buffer that is missing and would have to be grown. -/
def Owned (st : HexBuffer) (call : HexCall) : Prop :=
  st.buffer = none → st.size ≤ hexSize call.src.length

end HexBuffer

/-- The call stored inside of the block, and what it returns is the terminated text, unless
it is the text for a failed allocation. -/
def HexResult.Good (src : Bytes) : HexResult → Prop
  | .text block => ∃ rest, block = hexstring src ++ 0 :: rest
  | .outOfMemory => True
  | .fault => False

/-! ## The stores -/

/-- With enough room the digits are stored one byte after the other. -/
theorem storeHex_append (front middle back src : Bytes) (hmiddle : middle.length = 2 * src.length) :
    storeHex (front ++ middle ++ back) front.length src =
      some (front ++ hexstring src ++ back) := by
  induction src generalizing front middle with
  | nil =>
      rw [List.length_nil, Nat.mul_zero, List.length_eq_zero_iff] at hmiddle
      rw [hmiddle]
      rfl
  | cons byte src ih =>
      match middle, hmiddle with
      | high :: low :: middle, hmiddle =>
          have hfirst := overwrite_middle front [high] (low :: middle ++ back)
            (show [high].length = [hexDigit (byte >>> 4)].length from rfl)
          have hsecond := overwrite_middle (front ++ [hexDigit (byte >>> 4)]) [low]
            (middle ++ back) (show [low].length = [hexDigit (byte &&& 0xf)].length from rfl)
          have hrest := ih (front ++ [hexDigit (byte >>> 4)] ++ [hexDigit (byte &&& 0xf)]) middle
            (by simp only [List.length_cons] at hmiddle; omega)
          simp only [List.append_assoc, List.cons_append, List.nil_append, List.length_append,
            List.length_cons, List.length_nil, Nat.zero_add, Nat.reduceAdd]
            at hfirst hsecond hrest ⊢
          rw [storeHex, hfirst, Option.bind_eq_bind, Option.bind_some, hsecond, Option.bind_some,
            hrest, hexstring_cons]
          rfl

/-- The whole text fits into a block that is long enough. -/
theorem storeHex_block {block src : Bytes} (hblock : 2 * src.length + 1 ≤ block.length) :
    storeHex block 0 src >>= (overwrite · (src.length * 2) [0]) =
      some (hexstring src ++ 0 :: block.drop (2 * src.length + 1)) := by
  have hstored := storeHex_append [] (block.take (2 * src.length))
    (block.drop (2 * src.length)) src (by rw [List.length_take]; omega)
  have hlast : block.drop (2 * src.length) =
      block[2 * src.length] :: block.drop (2 * src.length + 1) :=
    List.drop_eq_getElem_cons (by omega)
  have hnul := overwrite_middle (hexstring src) [block[2 * src.length]]
    (block.drop (2 * src.length + 1)) (show _ = [(0 : UInt8)].length from rfl)
  rw [List.nil_append, List.take_append_drop] at hstored
  rw [length_hexstring] at hnul
  rw [List.length_nil] at hstored
  rw [hstored, Option.bind_eq_bind, Option.bind_some, List.nil_append, hlast,
    Nat.mul_comm src.length]
  simpa only [List.append_assoc, List.cons_append, List.nil_append] using hnul

/-- Without a block every call stores outside. -/
theorem storeHex_null (src : Bytes) :
    storeHex [] 0 src >>= (overwrite · (src.length * 2) [0]) = none := by
  cases src with
  | nil => rfl
  | cons byte src => rfl

/-! ## One call -/

section

variable {st : HexBuffer} {call : HexCall}

theorem hexSize_eq (call : HexCall) : hexSize call.src.length = 2 * call.src.length + 1 := by
  have hlength := call.length_lt
  unfold hexSize
  omega

/-- A grown buffer has room for the text. -/
theorem le_hexNewSize (call : HexCall) :
    2 * call.src.length + 1 ≤ hexNewSize (hexSize call.src.length) := by
  have hlength := call.length_lt
  rw [hexSize_eq]
  unfold hexNewSize
  split
  · omega
  · omega

/-- The block a call stores into: none, or one with room for the text. -/
theorem HexBuffer.ensure_spec (hsized : st.Sized) (howned : st.Owned call) :
    (st.ensure call).2.Sized ∧ ∀ block, (st.ensure call).1 = some block →
      2 * call.src.length + 1 ≤ block.length ∧ block.length = (st.ensure call).2.size := by
  unfold ensure
  by_cases hgrow : st.size ≤ hexSize call.src.length
  · rw [if_pos hgrow]
    cases call.realloc with
    | none =>
        -- The new size stays recorded, but there is no block that it could be wrong about.
        dsimp only
        exact ⟨fun _ h => absurd h.symm (Option.some_ne_none _),
          fun _ h => absurd h.symm (Option.some_ne_none _)⟩
    | some fresh =>
        dsimp only
        refine ⟨fun block h => ?_, fun block h => ?_⟩
        · rw [← Option.some.inj h, length_resize]
        · rw [← Option.some.inj h, length_resize]
          exact ⟨le_hexNewSize call, rfl⟩
  · rw [if_neg hgrow]
    refine ⟨hsized, fun block h => ?_⟩
    cases hbuffer : st.buffer with
    | none => exact absurd (howned hbuffer) hgrow
    | some old =>
        dsimp only at h
        rw [hbuffer, Option.getD_some] at h
        rw [← Option.some.inj h, hsized old hbuffer]
        rw [hexSize_eq] at hgrow
        exact ⟨by omega, rfl⟩

/-- A call that finds a block, or none and no size, does what it should. -/
theorem HexBuffer.call_good (hsized : st.Sized) (howned : st.Owned call) :
    (st.call call).1.Good call.src ∧ (st.call call).2.Sized := by
  obtain ⟨hnext, hroom⟩ := ensure_spec hsized howned
  unfold HexBuffer.call
  generalize st.ensure call = ensured at hnext hroom
  obtain ⟨block | block, next⟩ := ensured
  · exact ⟨trivial, hnext⟩
  · obtain ⟨hlength, hsize⟩ := hroom block rfl
    dsimp only
    rw [storeHex_block hlength]
    refine ⟨⟨_, rfl⟩, fun after hafter => ?_⟩
    rw [← Option.some.inj hafter]
    simp only [List.length_append, length_hexstring, List.length_cons, List.length_drop]
    dsimp only at hsize ⊢
    omega

/-- A call that finds a size without a block stores through the null pointer. -/
theorem HexBuffer.call_fault (hfault : ¬ st.Owned call) : (st.call call).1 = .fault := by
  unfold Owned at hfault
  rw [Classical.not_imp] at hfault
  obtain ⟨hbuffer, hsize⟩ := hfault
  unfold HexBuffer.call ensure
  rw [if_neg hsize, hbuffer]
  dsimp only [Option.getD_none]
  rw [storeHex_null]

end

/-! ## A run -/

/-- Every call of a run is good exactly if none finds a size without a block. -/
theorem HexBuffer.run_good_iff {st : HexBuffer} (hsized : st.Sized) (calls : List HexCall) :
    (∀ turn ∈ st.run calls, (turn.1.call turn.2).1.Good turn.2.src) ↔
      ∀ turn ∈ st.run calls, turn.1.Owned turn.2 := by
  induction calls generalizing st with
  | nil => simp [run]
  | cons next calls ih =>
      rw [run, List.forall_mem_cons, List.forall_mem_cons]
      by_cases howned : st.Owned next
      · obtain ⟨hgood, hnext⟩ := call_good hsized howned
        rw [and_iff_right hgood, and_iff_right howned]
        generalize st.call next = called at hgood hnext
        obtain ⟨block | _ | _, after⟩ := called
        · exact ih hnext
        · exact ih hnext
        · exact hgood.elim
      · -- A size without a block: the call faults, and a fault is not good.
        refine iff_of_false (fun hall => ?_) fun hall => howned hall.1
        have hgood := hall.1
        rw [call_fault howned] at hgood
        exact hgood

/-- An allocation that succeeds leaves a block. -/
theorem HexBuffer.call_buffer (st : HexBuffer) {call : HexCall} (hgranted : call.realloc ≠ none)
    (hreturns : (st.call call).1 ≠ .fault) : (st.call call).2.buffer ≠ none := by
  have hensure : (st.ensure call).1 ≠ none := by
    obtain ⟨fresh, hfresh⟩ := Option.ne_none_iff_exists'.mp hgranted
    unfold ensure
    rw [hfresh]
    dsimp only
    split
    · exact Option.some_ne_none _
    · exact Option.some_ne_none _
  unfold HexBuffer.call at hreturns ⊢
  generalize st.ensure call = ensured at hensure hreturns ⊢
  obtain ⟨block | block, next⟩ := ensured
  · exact absurd rfl hensure
  · dsimp only at hreturns ⊢
    generalize storeHex block 0 call.src >>= (overwrite · (call.src.length * 2) [0]) = stored
      at hreturns ⊢
    cases stored with
    | none => exact absurd rfl hreturns
    | some after => exact Option.some_ne_none after

/-- While no allocation fails, no size is recorded for a buffer that is missing. -/
theorem HexBuffer.run_owned_of_granted {st : HexBuffer} {calls : List HexCall}
    (hfirst : st.buffer = none → st.size = 0) (hgranted : ∀ call ∈ calls, call.realloc ≠ none) :
    ∀ turn ∈ st.run calls, turn.1.Owned turn.2 := by
  induction calls generalizing st with
  | nil => simp [run]
  | cons next calls ih =>
      obtain ⟨hnext, hlater⟩ := List.forall_mem_cons.mp hgranted
      have hbuffer := call_buffer st hnext
      rw [run, List.forall_mem_cons]
      refine ⟨fun hnone => by rw [hfirst hnone]; exact Nat.zero_le _, ?_⟩
      generalize st.call next = called at hbuffer
      obtain ⟨block | _ | _, after⟩ := called
      · exact ih (fun hnone => absurd hnone (hbuffer (by simp))) hlater
      · exact ih (fun hnone => absurd hnone (hbuffer (by simp))) hlater
      · simp

/-- From the start of the program, a run of calls is good exactly if none of them comes with
a smaller request after a failed allocation. -/
theorem hexstring_run_good_iff (calls : List HexCall) :
    (∀ turn ∈ HexBuffer.initial.run calls, (turn.1.call turn.2).1.Good turn.2.src) ↔
      ∀ turn ∈ HexBuffer.initial.run calls, turn.1.Owned turn.2 :=
  HexBuffer.run_good_iff (fun _ h => absurd h.symm (Option.some_ne_none _)) calls

/-- An empty input after a failed allocation is stored through the null pointer. -/
theorem hexstring_run_not_good :
    ¬ ∀ turn ∈ HexBuffer.initial.run [⟨[7], by decide, none⟩, ⟨[], by decide, none⟩],
      (turn.1.call turn.2).1.Good turn.2.src := by
  intro hgood
  exact hgood (⟨none, 1024⟩, ⟨[], by decide, none⟩) (List.mem_cons_of_mem _ List.mem_cons_self)

end RemoteAttestation
