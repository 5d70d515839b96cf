import RemoteAttestation.Foundation.StringBuffer

/-! # The search path of the enclave

`file_in_searchpath` puts the components of a search path in front of a file name, in a
buffer of the caller, and asks for each whether there is such a file. The room that is left
in the buffer is an unsigned number, computed by subtractions that can wrap.
-/

namespace RemoteAttestation

/-- A number of type `size_t` that results from subtractions. -/
def wrap64 (n : Int) : Nat := (n % 2 ^ 64).toNat

/-- `strtok` with the delimiter `:`, on the text it has not consumed: the token and what is
left behind it. -/
def strtok (text : Bytes) : Option (Bytes × Bytes) :=
  match text.dropWhile (· == 58) with
  | [] => none
  | c :: rest =>
      let token := (c :: rest).takeWhile (· != 58)
      some (token, (c :: rest).drop (token.length + 1))

/-- The tokens that the calls of `strtok` return until there is none. -/
def tokens : Nat → Bytes → List Bytes
  | 0, _ => []
  | fuel + 1, text =>
      match strtok text with
      | none => []
      | some (token, rest) => token :: tokens fuel rest

/-- What `strdup` and `stat` answer. -/
structure SearchHost where
  strdup : Bool
  isFile : Bytes → Bool

/-- The value of the function, the memory from `fullpath` on, and the paths given to `stat`
with their components. -/
structure Search where
  rv : Bool
  cells : Cells
  tested : List (Bytes × Bytes)

/-- The body of the loop up to `stat`. -/
def buildPath (cells : Cells) (p file : Bytes) (len : Nat) : Cells :=
  let cells := cells.strncpy p (len - 1)
  let rem := wrap64 (len - 1 - p.length - 1)
  let cells := cells.store (len - 1) 0
  let cells := cells.strncat (len + 1) (ascii "/") rem
  let rem := wrap64 (rem - 1)
  cells.strncat (len + 1) file rem

/-- The loop over the tokens. A path can end as far behind the buffer as the file name is
long. -/
def searchLoop (host : SearchHost) (file : Bytes) (len : Nat) (cells : Cells) :
    List Bytes → Search
  | [] => ⟨false, cells, []⟩
  | p :: rest =>
      if p.length ≠ 0 then
        let cells := buildPath cells p file len
        let path := cells.string (len + 1 + file.length)
        if host.isFile path then ⟨true, cells, [(p, path)]⟩
        else
          let result := searchLoop host file len cells rest
          { result with tested := (p, path) :: result.tested }
      else searchLoop host file len cells rest

def fileInSearchpath (host : SearchHost) (file : CString) (search : Option CString) (cells : Cells)
    (len : Nat) : Search :=
  match search with
  | none => ⟨false, cells, []⟩
  | some search =>
      if search.bytes.length = 0 then ⟨false, cells, []⟩
      else if !host.strdup then ⟨false, cells, []⟩
      else searchLoop host file.bytes len cells (tokens (search.bytes.length + 1) search.bytes)

/-! ## The search as it is meant -/

/-- The non-empty pieces between the colons of a search path. -/
def components : Option CString → List Bytes
  | none => []
  | some search => (search.bytes.splitOn 58).filter (· ≠ [])

/-- `p/file`. -/
def pathIn (p file : Bytes) : Bytes := p ++ ascii "/" ++ file

/-- The path and its terminator fit into the buffer. -/
def Fits (file : Bytes) (len : Nat) (p : Bytes) : Prop := p.length + 1 + file.length ≤ len - 1

instance (file : Bytes) (len : Nat) : DecidablePred (Fits file len) :=
  fun _ => inferInstanceAs (Decidable (_ ≤ _))

/-- The components that fit, with their paths. -/
def candidates (file : Bytes) (len : Nat) (parts : List Bytes) : List (Bytes × Bytes) :=
  (parts.filter (Fits file len ·)).map fun p => (p, pathIn p file)

/-- The front of a list of paths up to the first that is a file. -/
def upToFirst (isFile : Bytes → Bool) : List (Bytes × Bytes) → List (Bytes × Bytes)
  | [] => []
  | candidate :: rest =>
      if isFile candidate.2 then [candidate] else candidate :: upToFirst isFile rest

/-- The search stays in its buffer and leaves a string there. It tests the paths of the
components that fit, in their order, and returns the first that is a file. -/
structure SearchesExactly (host : SearchHost) (file : Bytes) (parts : List Bytes) (len : Nat)
    (before : Cells) (result : Search) : Prop where
  confined : before.Confined 0 len result.cells
  terminated : ∃ i < len, result.cells.byte i = 0
  tested : result.tested = upToFirst host.isFile (candidates file len parts)
  found : result.rv = true ↔ ∃ p ∈ parts, Fits file len p ∧ host.isFile (pathIn p file)
  first : ∀ candidate, (candidates file len parts).find? (host.isFile ·.2) = some candidate →
    result.cells.string len = candidate.2

/-- Each component that the search comes to leaves one byte more than it has to. -/
def RoomUpToFirst (isFile : Bytes → Bool) (file : Bytes) (len : Nat) (parts : List Bytes) : Prop :=
  ∀ front p back, parts = front ++ p :: back → (∀ q ∈ front, isFile (pathIn q file) = false) →
    p.length + 1 + file.length < len - 1

/-- The buffer holds a terminator, or gets one; the copy of the search path could be made,
or nothing fits; and there is one byte to spare. -/
structure SearchCondition (host : SearchHost) (file : Bytes) (parts : List Bytes) (len : Nat)
    (before : Cells) : Prop where
  terminated : (∃ i < len, before.byte i = 0) ∨ (host.strdup = true ∧ parts ≠ [])
  copied : host.strdup = true ∨ ∀ p ∈ parts, ¬ Fits file len p
  room : host.strdup = true → RoomUpToFirst host.isFile file len parts

/-! ## Tokens -/

section

variable {token after text : Bytes}

theorem takeWhile_token (hfree : (58 : UInt8) ∉ token)
    (hafter : after.takeWhile (· != 58) = []) :
    (token ++ after).takeWhile (· != 58) = token := by
  rw [List.takeWhile_append_of_pos fun c hc => bne_iff_ne.mpr (ne_of_mem_of_not_mem hc hfree),
    hafter, List.append_nil]

/-- A delimiter in front is skipped. -/
theorem strtok_delimiter (text : Bytes) : strtok (58 :: text) = strtok text := rfl

/-- A token is what comes before the next delimiter or the end. -/
theorem strtok_token (htoken : token ≠ []) (hfree : (58 : UInt8) ∉ token)
    (hafter : after.takeWhile (· != 58) = []) :
    strtok (token ++ after) = some (token, after.drop 1) := by
  have htake := takeWhile_token hfree hafter
  have hdrop : (token ++ after).drop (token.length + 1) = after.drop 1 := by
    rw [List.drop_append, List.drop_of_length_le (Nat.le_succ _), List.nil_append,
      Nat.add_sub_cancel_left]
  obtain ⟨c, rest, rfl⟩ := List.exists_cons_of_ne_nil htoken
  have hc : ¬ (c == 58) = true := by
    rw [beq_iff_eq]
    exact ne_of_mem_of_not_mem List.mem_cons_self hfree
  rw [List.cons_append] at htake hdrop
  have hhead : (c :: (rest ++ after)).dropWhile (· == 58) = c :: (rest ++ after) :=
    List.dropWhile_cons_of_neg hc
  rw [strtok, List.cons_append, hhead]
  dsimp only
  rw [htake, hdrop]

theorem splitOn_token (hfree : (58 : UInt8) ∉ token) (after : Bytes) :
    (token ++ 58 :: after).splitOn 58 = token :: after.splitOn 58 := by
  rw [List.splitOn_eq_splitOnP, List.splitOn_eq_splitOnP]
  exact List.splitOnP_append_cons_of_forall_mem
    (fun c hc => beq_eq_false_iff_ne.mpr (ne_of_mem_of_not_mem hc hfree)) 58 rfl after

theorem splitOn_last (hfree : (58 : UInt8) ∉ token) : token.splitOn 58 = [token] := by
  rw [List.splitOn_eq_splitOnP]
  exact List.splitOnP_eq_singleton fun c hc =>
    beq_eq_false_iff_ne.mpr (ne_of_mem_of_not_mem hc hfree)

/-- The tokens are the non-empty pieces. -/
theorem tokens_eq {fuel : Nat} (hfuel : text.length < fuel) :
    tokens fuel text = (text.splitOn 58).filter (· ≠ []) := by
  induction hn : text.length using Nat.strongRecOn generalizing text fuel with
  | ind n ih =>
      obtain ⟨fuel, rfl⟩ : ∃ k, fuel = k + 1 := ⟨fuel - 1, by omega⟩
      by_cases hcolon : (58 : UInt8) ∈ text
      · obtain ⟨token, after, rfl, hfree⟩ := List.eq_append_cons_of_mem hcolon
        rw [List.length_append, List.length_cons] at hfuel hn
        rw [splitOn_token hfree]
        by_cases htoken : token = []
        · -- The delimiter is in front, and the piece before it is empty.
          have hrest := ih after.length (by omega) (show after.length < fuel + 1 by omega) rfl
          rw [tokens] at hrest
          rw [htoken, List.nil_append, tokens, strtok_delimiter, hrest]
          rfl
        · have hrest := ih after.length (by omega) (show after.length < fuel by omega) rfl
          rw [tokens, strtok_token htoken hfree rfl,
            List.filter_cons_of_pos (by simpa using htoken),
            ← hrest]
          rfl
      · rw [splitOn_last hcolon]
        by_cases htext : text = []
        · rw [htext]
          rfl
        · have htoken : strtok (text ++ []) = some (text, []) := strtok_token htext hcolon rfl
          rw [List.append_nil] at htoken
          rw [tokens, htoken, List.filter_cons_of_pos (by simpa using htext)]
          cases fuel with
          | zero => rfl
          | succ fuel => rfl

theorem subset_of_strtok {rest : Bytes} (hstrtok : strtok text = some (token, rest)) :
    token ⊆ text ∧ rest ⊆ text := by
  have hsuffix := List.dropWhile_subset (l := text) (· == 58)
  unfold strtok at hstrtok
  generalize text.dropWhile (· == 58) = stripped at hstrtok hsuffix
  cases stripped with
  | nil => cases hstrtok
  | cons c after =>
      cases hstrtok
      exact ⟨List.Subset.trans (List.takeWhile_subset _) hsuffix,
        List.Subset.trans (List.drop_subset _ _) hsuffix⟩

/-- The characters of a token are characters of the text. -/
theorem subset_of_mem_tokens {fuel : Nat} (htoken : token ∈ tokens fuel text) : token ⊆ text := by
  induction fuel generalizing text with
  | zero => cases htoken
  | succ fuel ih =>
      rw [tokens] at htoken
      cases hstrtok : strtok text with
      | none =>
          rw [hstrtok] at htoken
          cases htoken
      | some split =>
          obtain ⟨hfirst, hrest⟩ := subset_of_strtok hstrtok
          rw [hstrtok] at htoken
          rcases List.mem_cons.mp htoken with rfl | hmem
          · exact hfirst
          · exact List.Subset.trans (ih hmem) hrest

/-- A component is not empty, and has no terminator in it. -/
theorem component_facts {search : Option CString} {p : Bytes} (hp : p ∈ components search) :
    p ≠ [] ∧ (0 : UInt8) ∉ p := by
  cases search with
  | none => cases hp
  | some search =>
      rw [components] at hp
      refine ⟨by simpa using List.of_mem_filter hp, fun hnul => ?_⟩
      rw [← tokens_eq (Nat.lt_succ_self _)] at hp
      exact search.noNul (subset_of_mem_tokens hp hnul)

end

/-! ## One path -/

theorem wrap64_eq {n : Int} {k : Nat} (hn : n = k) (hk : k < 2 ^ 64) : wrap64 n = k := by
  unfold wrap64
  omega

/-- The path that is built from a component that leaves room for a delimiter. -/
theorem buildPath_spec (cells : Cells) {p file : Bytes} {len rem : Nat} (hlen : len < 2 ^ 64)
    (hp : (0 : UInt8) ∉ p) (hfile : (0 : UInt8) ∉ file) (hrem : p.length + 2 + rem = len)
    (htotal : (p ++ (ascii "/").take rem ++ file.take (wrap64 (rem - 1))).length < len) :
    (buildPath cells p file len).Holds
        (p ++ (ascii "/").take rem ++ file.take (wrap64 (rem - 1))) ∧
      cells.Confined 0 len (buildPath cells p file len) := by
  have hwrap : wrap64 (len - 1 - p.length - 1) = rem := wrap64_eq (by omega) (by omega)
  have hslash : (0 : UInt8) ∉ ascii "/" := by decide
  rw [List.length_append, List.length_append] at htotal
  -- The component, the terminator at the end, the slash and the file name, one after the other.
  obtain ⟨hcopied, hfirst⟩ := Cells.strncpy_holds cells hp (show p.length < len - 1 by omega)
  have hstored := hcopied.store (show p.length < len - 1 by omega) 0
  have hsecond : Cells.Confined 0 len (cells.strncpy p (len - 1))
      ((cells.strncpy p (len - 1)).store (len - 1) 0) :=
    .store (Nat.zero_le _) (by omega) 0
  obtain ⟨hdelimited, hthird⟩ :=
    hstored.strncat (show p.length < len + 1 by omega) hslash rem
  obtain ⟨hbuilt, hfourth⟩ := hdelimited.strncat
    (show (p ++ (ascii "/").take rem).length < len + 1 by rw [List.length_append]; omega) hfile
    (wrap64 (rem - 1))
  have hbuild : buildPath cells p file len =
      (((cells.strncpy p (len - 1)).store (len - 1) 0).strncat (len + 1) (ascii "/") rem).strncat
        (len + 1) file (wrap64 (rem - 1)) := by
    rw [buildPath, hwrap]
  rw [hbuild]
  refine ⟨hbuilt, (hfirst.mono (Nat.le_refl 0) (by omega)).trans (hsecond.trans ?_)⟩
  refine (hthird.mono (Nat.zero_le _) (by omega)).trans (hfourth.mono (Nat.zero_le _) ?_)
  rw [List.length_append]
  omega

/-- With one byte to spare the path is the component and the file name. -/
theorem buildPath_room (cells : Cells) {p file : Bytes} {len : Nat} (hlen : len < 2 ^ 64)
    (hp : (0 : UInt8) ∉ p) (hfile : (0 : UInt8) ∉ file)
    (hroom : p.length + 1 + file.length < len - 1) :
    (buildPath cells p file len).Holds (pathIn p file) ∧
      cells.Confined 0 len (buildPath cells p file len) := by
  obtain ⟨rem, hrem⟩ : ∃ rem, p.length + 2 + (rem + 1) = len := ⟨len - p.length - 3, by omega⟩
  have hwrap : wrap64 ((rem + 1 : Nat) - 1) = rem := wrap64_eq (by omega) (by omega)
  have hslash : (ascii "/").take (rem + 1) = ascii "/" := List.take_of_length_le (by simp [ascii])
  have hspec := buildPath_spec cells hlen hp hfile hrem
  rw [hwrap, hslash, List.take_of_length_le (by omega)] at hspec
  apply hspec
  simp only [ascii, List.length_append, List.length_map, String.length_toList]
  change p.length + 1 + file.length < len
  omega

/-- Where the path just fits, a character of it is missing. -/
theorem buildPath_exact (cells : Cells) {p file : Bytes} {len : Nat} (hlen : len < 2 ^ 64)
    (hp : (0 : UInt8) ∉ p) (hfile : (0 : UInt8) ∉ file)
    (hexact : p.length + 1 + file.length = len - 1) :
    (buildPath cells p file len).string (len + 1 + file.length) ≠ pathIn p file := by
  have hlength : (pathIn p file).length = len - 1 := by
    rw [pathIn, List.length_append, List.length_append]
    exact hexact
  obtain ⟨rem, hrem⟩ : ∃ rem, p.length + 2 + rem = len := ⟨file.length, by omega⟩
  have hslash : ((ascii "/").take rem).length = min rem 1 := List.length_take
  have htake : (file.take (wrap64 (rem - 1))).length ≤ rem - 1 := by
    rw [List.length_take]
    by_cases hnone : rem = 0
    · omega
    · rw [wrap64_eq (k := rem - 1) (by omega) (by omega)]
      exact Nat.min_le_left _ _
  -- The room for the file name is one byte less than what it needs.
  have hshort : (p ++ (ascii "/").take rem ++ file.take (wrap64 (rem - 1))).length < len - 1 := by
    rw [List.length_append, List.length_append, hslash]
    omega
  have hspec := buildPath_spec cells hlen hp hfile hrem (by omega)
  rw [hspec.1.string_eq (by omega)]
  intro hpath
  rw [hpath, hlength] at hshort
  exact Nat.lt_irrefl _ hshort

/-! ## The loop -/

section

variable {host : SearchHost} {file p : Bytes} {len : Nat} {parts : List Bytes}

theorem candidates_cons (hfits : Fits file len p) (parts : List Bytes) :
    candidates file len (p :: parts) = (p, pathIn p file) :: candidates file len parts := by
  rw [candidates, List.filter_cons_of_pos (by simpa using hfits)]
  rfl

theorem mem_candidates {candidate : Bytes × Bytes} (hmem : candidate ∈ candidates file len parts) :
    Fits file len candidate.1 ∧ candidate.2 = pathIn candidate.1 file := by
  obtain ⟨q, hq, rfl⟩ := List.mem_map.mp hmem
  exact ⟨by simpa using List.of_mem_filter hq, rfl⟩

theorem upToFirst_subset (isFile : Bytes → Bool) (paths : List (Bytes × Bytes)) :
    upToFirst isFile paths ⊆ paths := by
  induction paths with
  | nil => exact List.Subset.refl _
  | cons candidate rest ih =>
      rw [upToFirst]
      split
      · exact List.cons_subset_cons _ (List.nil_subset rest)
      · exact List.cons_subset_cons _ ih

/-- The room that the first component leaves, and the later ones if it names no file. -/
theorem roomUpToFirst_cons_iff {isFile : Bytes → Bool} :
    RoomUpToFirst isFile file len (p :: parts) ↔
      p.length + 1 + file.length < len - 1 ∧
        (isFile (pathIn p file) = false → RoomUpToFirst isFile file len parts) := by
  constructor
  · intro hroom
    refine ⟨hroom [] p parts rfl fun q hq => absurd hq List.not_mem_nil, ?_⟩
    rintro hnone front q back rfl hfront
    exact hroom (p :: front) q back rfl (List.forall_mem_cons.mpr ⟨hnone, hfront⟩)
  · rintro ⟨hfirst, hrest⟩ front q back hsplit hfront
    cases front with
    | nil =>
        cases hsplit
        exact hfirst
    | cons r front =>
        cases hsplit
        obtain ⟨hnone, hfront⟩ := List.forall_mem_cons.mp hfront
        exact hrest hnone front q back rfl hfront

/-- One turn of the loop. -/
theorem searchLoop_cons (cells : Cells) (hp : p ≠ []) :
    searchLoop host file len cells (p :: parts) =
      if host.isFile ((buildPath cells p file len).string (len + 1 + file.length)) then
        ⟨true, buildPath cells p file len,
          [(p, (buildPath cells p file len).string (len + 1 + file.length))]⟩
      else
        { searchLoop host file len (buildPath cells p file len) parts with
          tested := (p, (buildPath cells p file len).string (len + 1 + file.length)) ::
            (searchLoop host file len (buildPath cells p file len) parts).tested } := by
  rw [searchLoop, if_pos (by simpa using hp)]

/-- A search with room to spare is exact. -/
theorem searchLoop_exact (hlen : len < 2 ^ 64) (hfile : (0 : UInt8) ∉ file)
    (hparts : ∀ p ∈ parts, p ≠ [] ∧ (0 : UInt8) ∉ p)
    (hroom : RoomUpToFirst host.isFile file len parts) {cells : Cells}
    (hterminated : (∃ i < len, cells.byte i = 0) ∨ parts ≠ []) :
    SearchesExactly host file parts len cells (searchLoop host file len cells parts) := by
  induction parts generalizing cells with
  | nil =>
      refine ⟨.refl _ _ _, hterminated.resolve_right (by simp), rfl, ?_, ?_⟩
      · simp [searchLoop]
      · simp [candidates]
  | cons p parts ih =>
      obtain ⟨⟨hp, hnul⟩, hlater⟩ := List.forall_mem_cons.mp hparts
      obtain ⟨hfirst, hrest⟩ := roomUpToFirst_cons_iff.mp hroom
      obtain ⟨hholds, hconfined⟩ := buildPath_room cells hlen hnul hfile hfirst
      have hlength : (pathIn p file).length = p.length + 1 + file.length := by
        rw [pathIn, List.length_append, List.length_append]
        rfl
      have hfits : Fits file len p := Nat.le_of_lt hfirst
      have hstring : (buildPath cells p file len).string (len + 1 + file.length) = pathIn p file :=
        hholds.string_eq (by omega)
      have hnext : ∃ i < len, (buildPath cells p file len).byte i = 0 :=
        ⟨_, by omega, hholds.terminator⟩
      rw [searchLoop_cons cells hp, hstring]
      by_cases hfound : host.isFile (pathIn p file) = true
      · rw [if_pos hfound]
        refine ⟨hconfined, hnext, ?_, iff_of_true rfl ⟨p, List.mem_cons_self, hfits, hfound⟩, ?_⟩
        · rw [candidates_cons hfits, upToFirst, if_pos hfound]
        · intro candidate hcandidate
          simp only [candidates_cons hfits, List.find?_cons, hfound] at hcandidate
          rw [← Option.some.inj hcandidate]
          exact hholds.string_eq (by omega)
      · obtain ⟨hstays, hends, htested, hsuccess, hpath⟩ :=
          ih hlater (hrest (Bool.not_eq_true _ ▸ hfound)) (.inl hnext)
        rw [if_neg hfound]
        refine ⟨hconfined.trans hstays, hends, ?_, ?_, ?_⟩
        · rw [candidates_cons hfits, upToFirst, if_neg hfound, htested]
        · rw [hsuccess, List.exists_mem_cons_iff, or_iff_right fun h => hfound h.2]
        · intro candidate hcandidate
          simp only [candidates_cons hfits, List.find?_cons, hfound] at hcandidate
          exact hpath candidate hcandidate

/-- A search that tests the right paths only came to components with room to spare. -/
theorem room_of_tested (hlen : len < 2 ^ 64) (hfile : (0 : UInt8) ∉ file)
    (hparts : ∀ p ∈ parts, p ≠ [] ∧ (0 : UInt8) ∉ p) {cells : Cells}
    (htested : (searchLoop host file len cells parts).tested =
      upToFirst host.isFile (candidates file len parts)) :
    RoomUpToFirst host.isFile file len parts := by
  induction parts generalizing cells with
  | nil =>
      rintro front p back hsplit
      simp at hsplit
  | cons p parts ih =>
      obtain ⟨⟨hp, hnul⟩, hlater⟩ := List.forall_mem_cons.mp hparts
      rw [searchLoop_cons cells hp] at htested
      -- The first path that was tested has to be one of the candidates.
      have hmem : (p, (buildPath cells p file len).string (len + 1 + file.length)) ∈
          upToFirst host.isFile (candidates file len (p :: parts)) := by
        rw [← htested]
        split
        · exact List.mem_cons_self
        · exact List.mem_cons_self
      obtain ⟨hfits, hstring⟩ := mem_candidates (upToFirst_subset _ _ hmem)
      dsimp only at hfits hstring
      have hfirst : p.length + 1 + file.length < len - 1 :=
        lt_of_le_of_ne hfits fun hexact => buildPath_exact cells hlen hnul hfile hexact hstring
      refine roomUpToFirst_cons_iff.mpr ⟨hfirst, fun hnone => ?_⟩
      have hnone' : ¬ host.isFile (pathIn p file) = true := by simp [hnone]
      rw [hstring, if_neg hnone', candidates_cons hfits, upToFirst, if_neg hnone',
        List.cons.injEq] at htested
      exact ih hlater htested.2

end

/-! ## The function -/

section

variable {host : SearchHost} {file : Bytes} {len : Nat} {parts : List Bytes} {before : Cells}

theorem candidates_eq_nil_iff :
    candidates file len parts = [] ↔ ∀ p ∈ parts, ¬ Fits file len p := by
  simp [candidates, List.filter_eq_nil_iff]

theorem upToFirst_eq_nil {isFile : Bytes → Bool} {paths : List (Bytes × Bytes)}
    (hnil : upToFirst isFile paths = []) : paths = [] := by
  cases paths with
  | nil => rfl
  | cons candidate rest =>
      rw [upToFirst] at hnil
      split at hnil
      · exact absurd hnil (List.cons_ne_nil _ _)
      · exact absurd hnil (List.cons_ne_nil _ _)

/-- A search that does nothing is exact if there is nothing to do. -/
theorem idle_exact_iff :
    SearchesExactly host file parts len before ⟨false, before, []⟩ ↔
      (∃ i < len, before.byte i = 0) ∧ ∀ p ∈ parts, ¬ Fits file len p := by
  constructor
  · intro hexact
    refine ⟨hexact.terminated, candidates_eq_nil_iff.mp ?_⟩
    exact upToFirst_eq_nil hexact.tested.symm
  · rintro ⟨hterminated, hnone⟩
    have hnil := candidates_eq_nil_iff.mpr hnone
    refine ⟨.refl _ _ _, hterminated, ?_, ?_, ?_⟩
    · rw [hnil]
      rfl
    · refine iff_of_false Bool.false_ne_true ?_
      rintro ⟨p, hp, hfits, _⟩
      exact hnone p hp hfits
    · intro candidate hcandidate
      rw [hnil] at hcandidate
      cases hcandidate

/-- Without components the only condition is on the buffer. -/
theorem idle_exact_iff_condition :
    SearchesExactly host file [] len before ⟨false, before, []⟩ ↔
      SearchCondition host file [] len before := by
  rw [idle_exact_iff]
  constructor
  · rintro ⟨hterminated, _⟩
    refine ⟨.inl hterminated, .inr (by simp), fun _ front p back hsplit => ?_⟩
    simp at hsplit
  · intro hcondition
    exact ⟨hcondition.terminated.resolve_right fun h => h.2 rfl, by simp⟩

end

/-- The search is exact if and only if every component that it comes to leaves one byte
more than it has to, the copy could be made, and the buffer is terminated. -/
theorem fileInSearchpath_exact_iff (host : SearchHost) (file : CString) (search : Option CString)
    (memory : Nat → UInt8) (len : Nat) (hsize : 2 ≤ len ∧ len < 2 ^ 64) :
    SearchesExactly host file.bytes (components search) len ⟨memory, []⟩
        (fileInSearchpath host file search ⟨memory, []⟩ len) ↔
      SearchCondition host file.bytes (components search) len ⟨memory, []⟩ := by
  cases search with
  | none => exact idle_exact_iff_condition
  | some search =>
      have hparts : ∀ p ∈ components (some search), p ≠ [] ∧ (0 : UInt8) ∉ p :=
        fun p hp => component_facts hp
      have htokens : tokens (search.bytes.length + 1) search.bytes = components (some search) :=
        tokens_eq (Nat.lt_succ_self _)
      by_cases hempty : search.bytes.length = 0
      · have hnone : components (some search) = [] := by
          rw [components, List.length_eq_zero_iff.mp hempty]
          rfl
        rw [fileInSearchpath, if_pos hempty, hnone]
        exact idle_exact_iff_condition
      · rw [fileInSearchpath, if_neg hempty, htokens]
        generalize components (some search) = parts at hparts
        cases hstrdup : host.strdup with
        | false =>
            rw [if_pos (by simp), idle_exact_iff]
            constructor
            · rintro ⟨hterminated, hnone⟩
              exact ⟨.inl hterminated, .inr hnone, by simp [hstrdup]⟩
            · rintro ⟨hterminated, hcopied, _⟩
              simp only [hstrdup, Bool.false_eq_true, false_and, or_false, false_or]
                at hterminated hcopied
              exact ⟨hterminated, hcopied⟩
        | true =>
            rw [if_neg (by simp)]
            constructor
            · intro hexact
              refine ⟨?_, .inl hstrdup, fun _ => ?_⟩
              · cases parts with
                | nil => exact .inl hexact.terminated
                | cons p rest => exact .inr ⟨hstrdup, List.cons_ne_nil _ _⟩
              · exact room_of_tested hsize.2 file.noNul hparts hexact.tested
            · intro hcondition
              exact searchLoop_exact hsize.2 file.noNul hparts (hcondition.room hstrdup)
                (hcondition.terminated.imp_right And.right)

/-- A host on which copies succeed, with one file `/lib/a`. `stat` finds its directory too, with
a slash behind it or without. -/
def SearchHost.lib : SearchHost :=
  ⟨true, fun path => path ∈ [ascii "/", ascii "/lib", ascii "/lib/", ascii "/lib/a"]⟩

/-- A search path of one component. -/
def libPath : Option CString := some ⟨ascii "/lib", by decide⟩

theorem components_libPath : components libPath = [ascii "/lib"] := by decide

/-- The file is found in a buffer of `PATH_MAX` bytes. -/
theorem fileInSearchpath_lib :
    (2 ≤ 4096 ∧ 4096 < 2 ^ 64) ∧
      SearchesExactly .lib (ascii "a") (components libPath) 4096 ⟨fun _ => 0, []⟩
        (fileInSearchpath .lib ⟨ascii "a", by decide⟩ libPath ⟨fun _ => 0, []⟩ 4096) := by
  refine ⟨by decide, (fileInSearchpath_exact_iff .lib ⟨ascii "a", by decide⟩ libPath (fun _ => 0)
    4096 (by decide)).mpr ⟨.inl ⟨0, by decide, rfl⟩, .inl rfl, fun _ => ?_⟩⟩
  rw [components_libPath]
  refine roomUpToFirst_cons_iff.mpr ⟨by decide, fun _ front p back hsplit => ?_⟩
  simp at hsplit

/-- In a buffer that holds its path and a terminator and nothing else, the directory is found in
its place. -/
theorem exactFit_not_searchesExactly :
    Fits (ascii "a") 7 (ascii "/lib") ∧
      ¬ SearchesExactly .lib (ascii "a") (components libPath) 7 ⟨fun _ => 0, []⟩
        (fileInSearchpath .lib ⟨ascii "a", by decide⟩ libPath ⟨fun _ => 0, []⟩ 7) := by
  refine ⟨by decide, fun hexact => ?_⟩
  have htested : (fileInSearchpath .lib ⟨ascii "a", by decide⟩ libPath ⟨fun _ => 0, []⟩ 7).tested =
      [(ascii "/lib", ascii "/lib/")] := by decide +kernel
  have hmeant : upToFirst SearchHost.lib.isFile (candidates (ascii "a") 7 (components libPath)) =
      [(ascii "/lib", ascii "/lib/a")] := by decide +kernel
  have hsame := hexact.tested
  rw [htested, hmeant] at hsame
  exact absurd hsame (by decide)

end RemoteAttestation
