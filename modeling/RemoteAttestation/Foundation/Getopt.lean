import RemoteAttestation.Foundation.Bytes

/-! # `getopt_long`

The options of an argument vector, in the order in which `getopt_long` returns them.
Operands may stand between the options and are left for the end; what follows `--` is an
operand. A long option may be abbreviated. Options with an optional argument are left out.
-/

namespace RemoteAttestation

structure LongOption where
  name : Bytes
  takesArgument : Bool
  val : Char
deriving DecidableEq

/-- The option string and the long options. -/
structure OptionTable where
  optstring : List Char
  longOptions : List LongOption

/-- What one call returns, with `optarg`; an option that is unknown, ambiguous or without
its argument is returned as a question mark. -/
inductive Opt where
  | found (val : Char) (optarg : Option Bytes)
  | invalid
deriving DecidableEq

/-- The option with this character. -/
def Opt.is (c : Char) : Opt → Bool
  | .found val _ => val = c
  | .invalid => false

/-- What all calls together return, and the operands that are left. -/
structure Scanned where
  opts : List Opt
  operands : List Bytes
deriving DecidableEq

/-- The options of one word before those of the words behind it. -/
def Scanned.after (scanned : Scanned) (opts : List Opt) : Scanned :=
  { scanned with opts := opts ++ scanned.opts }

theorem Scanned.opts_after (scanned : Scanned) (opts : List Opt) :
    (scanned.after opts).opts = opts ++ scanned.opts := rfl

/-- The options in one word, and the one whose argument is the next word. -/
abbrev WordOptions := List Opt × Option Char

/-- The character of a short option. -/
def letter (byte : UInt8) : Char := Char.ofNat byte.toNat

namespace OptionTable

variable (table : OptionTable)

/-- Whether a short option takes an argument, if it is known. -/
def shortArgument (c : Char) : Option Bool :=
  if c = ':' then none
  else match table.optstring.dropWhile (· ≠ c) with
    | [] => none
    | _ :: ':' :: _ => some true
    | _ => some false

/-- The short options of a word. An argument may follow its option in the word. -/
def shortOptions : Bytes → WordOptions
  | [] => ([], none)
  | byte :: rest =>
      match table.shortArgument (letter byte) with
      | none => (.invalid :: (shortOptions rest).1, (shortOptions rest).2)
      | some false => (.found (letter byte) none :: (shortOptions rest).1, (shortOptions rest).2)
      | some true =>
          if rest = [] then ([], some (letter byte)) else ([.found (letter byte) (some rest)], none)

/-- The long option of this name, or the one it abbreviates. -/
def findLong (name : Bytes) : Option LongOption :=
  match table.longOptions.find? fun option => option.name = name with
  | some option => some option
  | none =>
      match table.longOptions.filter fun option => name.isPrefixOf option.name with
      | [] => none
      | option :: others =>
          if others.all fun other => other.takesArgument = option.takesArgument ∧
            other.val = option.val
          then some option else none

/-- The long option in the text behind the two dashes. -/
def longOption (text : Bytes) : WordOptions :=
  let name := text.takeWhile (· ≠ 61)
  match table.findLong name, text.drop name.length with
  | none, _ => ([.invalid], none)
  | some option, [] =>
      if option.takesArgument then ([], some option.val) else ([.found option.val none], none)
  | some option, _ :: arg =>
      if option.takesArgument then ([.found option.val (some arg)], none) else ([.invalid], none)

/-- The options of a word, if it has any. -/
def wordOptions : Bytes → Option WordOptions
  | dash :: byte :: rest =>
      if dash ≠ 45 then none
      else if byte = 45 then some (table.longOption rest)
      else some (table.shortOptions (byte :: rest))
  | _ => none

/-- The calls of `getopt_long`, while an option may be waiting for its argument. -/
def scan : Option Char → List Bytes → Scanned
  | none, [] => ⟨[], []⟩
  | some _, [] => ⟨[.invalid], []⟩
  | some c, word :: words => (scan none words).after [.found c (some word)]
  | none, word :: words =>
      if word = [45, 45] then ⟨[], words⟩
      else match table.wordOptions word with
        | none => { scan none words with operands := word :: (scan none words).operands }
        | some (opts, waiting) => (scan waiting words).after opts

variable {table}

/-! ## One word -/

/-- The word of a short option. -/
def word (c : Char) : Bytes := [45, UInt8.ofNat c.toNat]

/-- A character that may stand for a short option: a byte, and no dash. -/
def IsShort (c : Char) : Prop := letter (UInt8.ofNat c.toNat) = c ∧ UInt8.ofNat c.toNat ≠ 45

instance (c : Char) : Decidable (IsShort c) := inferInstanceAs (Decidable (_ ∧ _))

/-- What a word with one short option says. -/
theorem scan_word {c : Char} (hshort : IsShort c) (words : List Bytes) :
    table.scan none (word c :: words) =
      (table.scan (table.shortOptions [UInt8.ofNat c.toNat]).2 words).after
        (table.shortOptions [UInt8.ofNat c.toNat]).1 := by
  have hdashes : word c ≠ [45, 45] := by
    unfold word
    intro heq
    exact hshort.2 (List.cons.inj (List.cons.inj heq).2).1
  have hword : table.wordOptions (word c) =
      some (table.shortOptions [UInt8.ofNat c.toNat]) := by
    rw [word, wordOptions, if_neg (not_not.mpr rfl), if_neg hshort.2]
  rw [scan, if_neg hdashes, hword]

theorem shortOptions_argument {c : Char} (hshort : IsShort c)
    (hargument : table.shortArgument c = some true) :
    table.shortOptions [UInt8.ofNat c.toNat] = ([], some c) := by
  rw [shortOptions, hshort.1, hargument]
  rfl

theorem shortOptions_flag {c : Char} (hshort : IsShort c)
    (hargument : table.shortArgument c = some false) :
    table.shortOptions [UInt8.ofNat c.toNat] = ([.found c none], none) := by
  rw [shortOptions, hshort.1, hargument]
  rfl

/-- An option and its argument in two words. -/
theorem scan_argument {c : Char} (hshort : IsShort c) (hargument : table.shortArgument c = some true)
    (arg : Bytes) (words : List Bytes) :
    table.scan none (word c :: arg :: words) =
      (table.scan none words).after [.found c (some arg)] := by
  rw [scan_word hshort, shortOptions_argument hshort hargument]
  rfl

/-- An option that waits for the word behind the last. -/
theorem scan_missing {c : Char} (hshort : IsShort c) (hargument : table.shortArgument c = some true) :
    table.scan none [word c] = ⟨[.invalid], []⟩ := by
  rw [scan_word hshort, shortOptions_argument hshort hargument]
  rfl

/-- Options without arguments, each in its own word. -/
theorem scan_flags {flags : List Char}
    (hflags : ∀ c ∈ flags, IsShort c ∧ table.shortArgument c = some false) (words : List Bytes) :
    table.scan none (flags.map word ++ words) =
      (table.scan none words).after (flags.map (.found · none)) := by
  induction flags with
  | nil => rfl
  | cons c flags ih =>
      obtain ⟨⟨hshort, hargument⟩, hrest⟩ := List.forall_mem_cons.mp hflags
      rw [List.map_cons, List.cons_append, scan_word hshort, shortOptions_flag hshort hargument,
        ih hrest]
      rfl

/-! ## A word behind others -/

variable (table)

/-- Where the words so far leave `getopt_long`. -/
inductive Progress where
  | ready
  | waiting (c : Char)
  | ended
deriving DecidableEq

/-- What the words so far give. -/
structure Front where
  opts : List Opt
  operands : List Bytes
  progress : Progress
deriving DecidableEq

/-- The options and operands of one word before those of the words behind it. -/
def Front.after (front : Front) (opts : List Opt) (operands : List Bytes) : Front :=
  ⟨opts ++ front.opts, operands ++ front.operands, front.progress⟩

/-- Some words, whatever is behind them. -/
def scanFront : Option Char → List Bytes → Front
  | none, [] => ⟨[], [], .ready⟩
  | some c, [] => ⟨[], [], .waiting c⟩
  | some c, word :: words => (scanFront none words).after [.found c (some word)] []
  | none, word :: words =>
      if word = [45, 45] then ⟨[], words, .ended⟩
      else match table.wordOptions word with
        | none => (scanFront none words).after [] [word]
        | some (opts, waiting) => (scanFront waiting words).after opts []

/-- What is found in the words behind. -/
def resume : Progress → List Bytes → Scanned
  | .ready, words => table.scan none words
  | .waiting c, words => table.scan (some c) words
  | .ended, words => ⟨[], words⟩

/-- The words behind are read as the words in front of them leave it. -/
theorem scan_append (waiting : Option Char) (front back : List Bytes) :
    table.scan waiting (front ++ back) =
      ⟨(table.scanFront waiting front).opts ++
          (table.resume (table.scanFront waiting front).progress back).opts,
        (table.scanFront waiting front).operands ++
          (table.resume (table.scanFront waiting front).progress back).operands⟩ := by
  fun_induction scanFront table waiting front with
  | case1 => rfl
  | case2 c => rfl
  | case3 c word words ih =>
      rw [List.cons_append, scan, ih]
      rfl
  | case4 words =>
      rw [List.cons_append, scan, if_pos rfl]
      rfl
  | case5 word words hdashes hword ih =>
      rw [List.cons_append, scan, if_neg hdashes, hword]
      dsimp only
      rw [ih]
      rfl
  | case6 word words hdashes opts waiting hword ih =>
      rw [List.cons_append, scan, if_neg hdashes, hword]
      dsimp only
      rw [ih, Scanned.after, Front.after, List.append_assoc]
      rfl

/-- The options of the first word with an option waiting for the second if need be, what is left
of the two without the first word, and the words behind. -/
def nextOption : List Bytes → Option (List Opt × List Bytes × List Bytes)
  | [] => none
  | word :: words =>
      if word = [45, 45] then none
      else match table.wordOptions word with
        | none => none
        | some (opts, none) => some (opts, [], words)
        | some (opts, some c) =>
            match words with
            | [] => none
            | arg :: words => some (opts ++ [.found c (some arg)], [arg], words)

theorem nextOption_eq_some {words left behind : List Bytes} {opts : List Opt}
    (hnext : table.nextOption words = some (opts, left, behind)) :
    (∃ word, words = word :: (left ++ behind)) ∧
      table.scan none words = (table.scan none behind).after opts := by
  fun_cases nextOption table words with
  | case1 => cases hnext
  | case2 words =>
      rw [nextOption, if_pos rfl] at hnext
      cases hnext
  | case3 word words hdashes hword =>
      rw [nextOption, if_neg hdashes, hword] at hnext
      cases hnext
  | case4 word words hdashes found hword =>
      rw [nextOption, if_neg hdashes, hword] at hnext
      cases hnext
      refine ⟨⟨word, rfl⟩, ?_⟩
      rw [scan, if_neg hdashes, hword]
  | case5 word hdashes found c hword =>
      rw [nextOption, if_neg hdashes, hword] at hnext
      cases hnext
  | case6 word hdashes found c hword arg words =>
      rw [nextOption, if_neg hdashes, hword] at hnext
      cases hnext
      refine ⟨⟨word, rfl⟩, ?_⟩
      rw [scan, if_neg hdashes, hword]
      dsimp only
      rw [scan, Scanned.after, Scanned.after, Scanned.after, List.append_assoc]

/-- Words that are operands. -/
theorem scan_operands {operands : List Bytes}
    (hoperands : ∀ word ∈ operands, table.wordOptions word = none) (words : List Bytes) :
    table.scan none (operands ++ words) =
      ⟨(table.scan none words).opts, operands ++ (table.scan none words).operands⟩ := by
  induction operands with
  | nil => rfl
  | cons word operands ih =>
      obtain ⟨hword, hrest⟩ := List.forall_mem_cons.mp hoperands
      have hdashes : word ≠ [45, 45] := by
        rintro rfl
        cases hword
      rw [List.cons_append, scan, if_neg hdashes, hword, ih hrest]
      rfl

end OptionTable

end RemoteAttestation
