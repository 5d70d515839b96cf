import RemoteAttestation.Transport.Framing
import RemoteAttestation.Transport.HexDecoder

/-! # The contract of `read`

A caller of `MsgIO::read` that gets 1 casts `*dest` to a structure. So a value of 1 should
mean that a line was taken out of the buffer and decoded, and a malformed line should not
be left for the next call.
-/

namespace RemoteAttestation

/-- What a caller may assume of a `read` on a socket. `text` is what the call has gathered
in the buffer when it found the end of a line. -/
structure ReadContract (msgio : MsgIo) : Prop where
  decoded : msgio.read.1.rv = 1 →
    ∃ text rest idx ws, Gathers msgio.client.incoming msgio.rbuffer text rest ∧
      lineEnd text = some (idx, ws) ∧ msgio.read.2.rbuffer = text.drop (idx + ws) ∧
      (∀ c ∈ text.take idx, (hexValue? c).isSome) ∧
      ∃ memory, msgio.read.1.dest = some memory ∧ memory.block = hexPairs (text.take idx) ∧
        msgio.read.1.sz = 2 * memory.block.length
  malformed : msgio.read.1.rv = 0 →
    ∀ text rest idx ws, Gathers msgio.client.incoming msgio.rbuffer text rest →
      lineEnd text = some (idx, ws) → msgio.read.2.rbuffer = text.drop (idx + ws)

/-- The lines for which `read` keeps its contract: not blank, of even length, and of digits
unless there is no memory for them. -/
def KeepsContract (allocs : List (Option Heap)) (text : Bytes) (idx : Nat) : Prop :=
  idx ≠ 0 ∧ idx % 2 = 0 ∧ ((malloc allocs).1.isSome → ∀ c ∈ text.take idx, (hexValue? c).isSome)

/-! ## Where a line ends -/

/-- The terminator of a line is in the text. -/
theorem lineEnd_bounds {text : Bytes} {idx ws : Nat} (hend : lineEnd text = some (idx, ws)) :
    0 < ws ∧ idx + ws ≤ text.length := by
  have hbound : ∀ pattern : Bytes, find pattern text = some idx →
      idx + pattern.length ≤ text.length := by
    intro pattern hfind
    obtain ⟨hidx, hleading, _⟩ := find_eq_some_iff.mp hfind
    have hlength := hleading.length_le
    rw [List.length_drop] at hlength
    omega
  unfold lineEnd at hend
  cases hcrlf : find [13, 10] text with
  | some i =>
      rw [hcrlf] at hend
      cases hend
      exact ⟨by omega, hbound _ hcrlf⟩
  | none =>
      rw [hcrlf] at hend
      obtain ⟨i, hlf, hi⟩ := Option.map_eq_some_iff.mp hend
      cases hi
      exact ⟨by omega, hbound _ hlf⟩

/-- The text that a call gathers is determined by what arrives. -/
theorem Gathers.unique {incoming rest rest' : List Recv} {buffered text text' : Bytes}
    (hleft : Gathers incoming buffered text rest) (hright : Gathers incoming buffered text' rest') :
    text = text' ∧ rest = rest' := by
  induction hleft with
  | last hdata hline =>
      cases hright with
      | last _ _ => exact ⟨rfl, rfl⟩
      | more _ hopen _ => exact absurd hopen hline
  | more hdata hopen _ ih =>
      cases hright with
      | last _ hline => exact absurd hopen hline
      | more _ _ hmore => exact ih hmore
  | eintr _ ih =>
      cases hright with
      | eintr hmore => exact ih hmore

/-- A call returns 1 only for a line. -/
theorem gathers_of_returns {allocs : List (Option Heap)} {incoming : List Recv} {buffered : Bytes}
    (hreturn : (readLoop allocs incoming buffered).result.rv = 1) :
    ∃ text rest, Gathers incoming buffered text rest := by
  induction incoming generalizing buffered with
  | nil => cases hreturn
  | cons recv incoming ih =>
      cases recv with
      | eintr =>
          obtain ⟨text, rest, hgathers⟩ := ih hreturn
          exact ⟨text, rest, .eintr hgathers⟩
      | error => cases hreturn
      | data chunk =>
          by_cases hdata : chunk.bytes = []
          · rw [readLoop, if_pos hdata] at hreturn
            cases hreturn
          · rw [readLoop, if_neg hdata] at hreturn
            cases hend : lineEnd (buffered ++ chunk.bytes) with
            | none =>
                rw [hend] at hreturn
                obtain ⟨text, rest, hgathers⟩ := ih hreturn
                exact ⟨text, rest, .more hdata hend hgathers⟩
            | some found => exact ⟨_, incoming, .last hdata (by simp [hend])⟩

theorem Gathers.lineEnd_isSome {incoming rest : List Recv} {buffered text : Bytes}
    (hgathers : Gathers incoming buffered text rest) : ∃ idx ws, lineEnd text = some (idx, ws) := by
  induction hgathers with
  | last _ hline =>
      obtain ⟨⟨idx, ws⟩, hend⟩ := Option.ne_none_iff_exists'.mp hline
      exact ⟨idx, ws, hend⟩
  | more _ _ _ ih => exact ih
  | eintr _ ih => exact ih

/-! ## What a call makes of its line -/

/-- The digits of a line fill the buffer that was allocated for them. -/
theorem decodeInto_digits (heap : Heap) {src : Bytes} {len : Nat} (hdigits : HexDigits src len) :
    (decodeInto heap src len).block = hexPairs (src.take (2 * len)) := by
  have hstored := fromHexstring_digits heap.stale hdigits []
  have hlength : (hexPairs (src.take (2 * len))).length = len := by
    rw [length_hexPairs, List.length_take, Nat.min_eq_left hdigits.1]
    omega
  rw [List.append_nil] at hstored
  simp only [decodeInto, hstored, hlength, Nat.sub_self, List.range_zero, List.map_nil,
    List.append_nil]

section

variable {rbuffer : Bytes} {incoming : List Recv} {allocs rest : List (Option Heap)} {idx ws : Nat}

/-- The three ways in which a call ends at a line. -/
theorem takeLine_of_blank :
    takeLine rbuffer incoming allocs 0 ws = ⟨⟨1, none, 0⟩, rbuffer, incoming, allocs⟩ :=
  if_pos rfl

theorem takeLine_of_odd (hodd : idx % 2 = 1) :
    takeLine rbuffer incoming allocs idx ws = ⟨⟨0, none, 0⟩, rbuffer, incoming, allocs⟩ := by
  rw [takeLine, if_neg (by omega), if_pos hodd]

theorem takeLine_of_noMemory (hblank : idx ≠ 0) (heven : idx % 2 = 0)
    (hmalloc : malloc allocs = (none, rest)) :
    takeLine rbuffer incoming allocs idx ws = ⟨⟨-1, none, idx⟩, rbuffer, incoming, rest⟩ := by
  rw [takeLine, if_neg hblank, if_neg (by omega), hmalloc]

theorem takeLine_of_memory {heap : Heap} (hblank : idx ≠ 0) (heven : idx % 2 = 0)
    (hmalloc : malloc allocs = (some heap, rest)) :
    takeLine rbuffer incoming allocs idx ws =
      ⟨⟨1, some (decodeInto heap rbuffer (idx / 2)), idx⟩, rbuffer.drop (idx + ws), incoming,
        rest⟩ := by
  rw [takeLine, if_neg hblank, if_neg (by omega), hmalloc]

end

/-- A call that gathers a line of this kind keeps the contract. -/
theorem readContract_of_keeps {msgio : MsgIo} {text : Bytes} {rest : List Recv} {idx ws : Nat}
    (hsocket : msgio.useStdio = false)
    (hgathers : Gathers msgio.client.incoming msgio.rbuffer text rest)
    (hend : lineEnd text = some (idx, ws))
    (hkeeps : KeepsContract msgio.client.allocs text idx) : ReadContract msgio := by
  obtain ⟨hblank, heven, hdigits⟩ := hkeeps
  have hloop := readLoop_of_gathers hgathers msgio.client.allocs hend
  cases hmalloc : malloc msgio.client.allocs with
  | mk heap allocs =>
      cases heap with
      | none =>
          rw [takeLine_of_noMemory hblank heven hmalloc] at hloop
          refine ⟨fun hreturn => ?_, fun hreturn => ?_⟩
          · rw [MsgIo.read_socket hsocket, hloop] at hreturn
            cases hreturn
          · rw [MsgIo.read_socket hsocket, hloop] at hreturn
            cases hreturn
      | some heap =>
          rw [takeLine_of_memory hblank heven hmalloc] at hloop
          have hall := hdigits (by rw [hmalloc]; rfl)
          have htwice : 2 * (idx / 2) = idx := by omega
          have hlength := (lineEnd_bounds hend).2
          have hblock : (decodeInto heap text (idx / 2)).block = hexPairs (text.take idx) := by
            rw [decodeInto_digits heap ⟨by omega, by rwa [htwice]⟩, htwice]
          refine ⟨fun _ => ?_, fun hreturn => ?_⟩
          · rw [MsgIo.read_socket hsocket, hloop]
            refine ⟨text, rest, idx, ws, hgathers, hend, rfl, hall, _, rfl, hblock, ?_⟩
            rw [length_decodeInto]
            exact htwice.symm
          · rw [MsgIo.read_socket hsocket, hloop] at hreturn
            cases hreturn

/-- `read` keeps its contract exactly if the line it comes to is of this kind. -/
theorem readContract_iff {msgio : MsgIo} (hsocket : msgio.useStdio = false) :
    ReadContract msgio ↔
      ∀ text rest idx ws, Gathers msgio.client.incoming msgio.rbuffer text rest →
        lineEnd text = some (idx, ws) → KeepsContract msgio.client.allocs text idx := by
  constructor
  · intro hcontract text rest idx ws hgathers hend
    have hloop := readLoop_of_gathers hgathers msgio.client.allocs hend
    have hread := MsgIo.read_socket hsocket
    have hblank : idx ≠ 0 := by
      -- A blank line is reported as a message, but nothing is assigned.
      rintro rfl
      rw [hloop, takeLine_of_blank] at hread
      obtain ⟨_, _, _, _, _, _, _, _, memory, hdest, _⟩ := hcontract.decoded (by rw [hread])
      rw [hread] at hdest
      cases hdest
    have heven : idx % 2 = 0 := by
      by_contra hodd
      rw [hloop, takeLine_of_odd (by omega)] at hread
      have hleft := hcontract.malformed (by rw [hread]) text rest idx ws hgathers hend
      rw [hread] at hleft
      have hlength := congrArg List.length hleft
      have hws := lineEnd_bounds hend
      dsimp only at hlength
      rw [List.length_drop] at hlength
      omega
    refine ⟨hblank, heven, fun hmalloc => ?_⟩
    obtain ⟨heap, hheap⟩ := Option.isSome_iff_exists.mp hmalloc
    rw [hloop, takeLine_of_memory hblank heven (Prod.ext hheap rfl)] at hread
    obtain ⟨text', rest', idx', ws', hgathers', hend', _, hall, _⟩ :=
      hcontract.decoded (by rw [hread])
    obtain ⟨rfl, _⟩ := hgathers.unique hgathers'
    rw [hend] at hend'
    cases hend'
    exact hall
  · intro hkeeps
    by_cases hgathers : ∃ text rest, Gathers msgio.client.incoming msgio.rbuffer text rest
    · obtain ⟨text, rest, hgathers⟩ := hgathers
      obtain ⟨idx, ws, hend⟩ := hgathers.lineEnd_isSome
      exact readContract_of_keeps hsocket hgathers hend (hkeeps text rest idx ws hgathers hend)
    · refine ⟨fun hreturn => ?_, fun _ text rest _ _ hsome _ => absurd ⟨text, rest, hsome⟩ hgathers⟩
      rw [MsgIo.read_socket hsocket] at hreturn
      exact absurd (gathers_of_returns hreturn) hgathers

/-- An object that serves a client and has received nothing. -/
def MsgIo.connected (client : Connection) : MsgIo := { MsgIo.listen [] with client }

/-- A line of two digits is of this kind. -/
theorem readContract_digits :
    ReadContract (.connected ⟨[.data ⟨ascii "0a\n", by decide⟩], [], []⟩) := by
  refine (readContract_iff rfl).mpr ?_
  intro text rest idx ws hgathers hend
  have hline : Gathers [.data ⟨ascii "0a\n", by decide⟩] [] ([] ++ ascii "0a\n") [] :=
    .last (by decide) (by decide)
  obtain ⟨rfl, _⟩ := hgathers.unique hline
  cases hend
  exact ⟨by decide, by decide, fun _ => List.all_eq_true.mp (by decide)⟩

/-- A blank line is returned as a message that does not exist. -/
theorem blank_not_readContract :
    (MsgIo.connected ⟨[.data ⟨ascii "\n", by decide⟩], [], []⟩).read.1 = ⟨1, none, 0⟩ ∧
      ¬ ReadContract (.connected ⟨[.data ⟨ascii "\n", by decide⟩], [], []⟩) := by
  have hread : (MsgIo.connected ⟨[.data ⟨ascii "\n", by decide⟩], [], []⟩).read.1 =
      ⟨1, none, 0⟩ := rfl
  refine ⟨hread, fun hcontract => ?_⟩
  obtain ⟨_, _, _, _, _, _, _, _, memory, hdest, _⟩ := hcontract.decoded (by rw [hread])
  rw [hread] at hdest
  cases hdest

end RemoteAttestation
