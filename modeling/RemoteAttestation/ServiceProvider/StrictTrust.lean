import RemoteAttestation.ServiceProvider.Configuration
import RemoteAttestation.ServiceProvider.PolicyFile

/-! # The option `-X`

The usage text and the long options have strict trust as a flag. The option string has it with an
argument, so `-X` takes the word behind it, and the option that begins there is lost.
-/

namespace RemoteAttestation

open OptionTable (word)

/-- The option string and the long options disagree on `-X` only. -/
theorem shortArgument_longOptions : ∀ option ∈ spOptions.longOptions,
    spOptions.shortArgument option.val = some option.takesArgument ↔ option.val ≠ 'X' :=
  List.all_iff_forall_prop.mp (by decide)

section

variable {κ : Type}

/-! ## Options that make no difference -/

/-- Arguments that are accepted, with strict trust and the same value in every other field. -/
structure Alike (host : Host κ) (without inserted : Scanned) : Prop where
  accepted : Accepted host inserted
  strictTrust : inserted.opts.any (Opt.is 'X') = true
  settled : ∀ field, settled host inserted.opts field = settled host without.opts field

/-- Whether the options `taken` are read or not makes no difference: what is read is accepted,
and each field that they set is set again behind them, or has this value before them. -/
structure Indifferent (host : Host κ) (before taken after : List Opt) (read : Scanned) : Prop where
  accepted : Accepted host read
  settled : ∀ field value, lastValue host field taken = some value →
    after.any (Opt.isAny field.letters) = true ∨ settled host before field = value

/-- Behind the same options, those of `gained` are accepted in the place of those of `lost`, and
give each field the value that those give it. -/
structure Exchanged (host : Host κ) (before : OptionTable.Front) (lost gained : Scanned) : Prop where
  accepted : Accepted host ⟨before.opts ++ gained.opts, before.operands ++ gained.operands⟩
  strictTrust : before.opts.any (Opt.is 'X') = true ∨ gained.opts.any (Opt.is 'X') = true
  settled : ∀ field, (lastValue host field gained.opts).getD (settled host before.opts field) =
    (lastValue host field lost.opts).getD (settled host before.opts field)

/-- The option behind `-X`, which is taken for its argument, makes no difference. So it is if
another `-X` stands in front, which takes `-X` then and not the option. What is left of the words
of an option taken is an operand, unless it begins with a dash: then it is read as options, and
other options are read behind it. -/
def Spared (host : Host κ) (front back : List Bytes) : Prop :=
  let before := spOptions.scanFront none front
  match before.progress, spOptions.nextOption back with
  | .ready, some (taken, left, behind) =>
      let after := spOptions.scan none behind
      if ∀ word ∈ left, spOptions.wordOptions word = none then
        Indifferent host before.opts taken after.opts
          ⟨before.opts ++ after.opts, before.operands ++ (left ++ after.operands)⟩
      else Exchanged host before (spOptions.resume before.progress back)
        (spOptions.resume before.progress (word 'X' :: back))
  | .waiting 'X', some (taken, left, behind) =>
      let after := spOptions.scan none behind
      if ∀ word ∈ left, spOptions.wordOptions word = none then
        Indifferent host before.opts taken after.opts
          ⟨before.opts ++ (taken ++ after.opts), before.operands ++ after.operands⟩
      else Exchanged host before (spOptions.resume before.progress back)
        (spOptions.resume before.progress (word 'X' :: back))
  | _, _ => Exchanged host before (spOptions.resume before.progress back)
      (spOptions.resume before.progress (word 'X' :: back))

theorem isSome_value_iff {host : Host κ} {field : ConfigField} {opt : Opt}
    (hvalid : opt.Valid host) :
    (opt.value host field).isSome = true ↔ opt.isAny field.letters = true := by
  obtain ⟨state, hstate⟩ := Option.isSome_iff_exists.mp hvalid
  rw [Opt.value, hstate]
  by_cases hsets : opt.isAny field.letters = true
  · rw [if_pos hsets]
    exact iff_of_true rfl hsets
  · rw [if_neg hsets]
    exact iff_of_false Bool.false_ne_true hsets

/-- A field is set by valid options if one of them is among its own. -/
theorem isSome_lastValue_iff {host : Host κ} {field : ConfigField} {opts : List Opt}
    (hvalid : ∀ opt ∈ opts, opt.Valid host) :
    (lastValue host field opts).isSome = true ↔ opts.any (Opt.isAny field.letters) = true := by
  induction opts with
  | nil => exact iff_of_false Bool.false_ne_true Bool.false_ne_true
  | cons opt opts ih =>
      obtain ⟨hopt, hopts⟩ := List.forall_mem_cons.mp hvalid
      rw [← List.singleton_append, lastValue_append, Option.isSome_or, List.any_append,
        Bool.or_eq_true, Bool.or_eq_true, ih hopts, lastValue_singleton, isSome_value_iff hopt,
        List.any_cons, List.any_nil, Bool.or_false, or_comm]

/-- `-X` sets no field but strict trust. -/
theorem isAny_strictTrust (arg : Option Bytes) (field : ConfigField) :
    (Opt.found 'X' arg).isAny field.letters = false := by
  cases field <;> rfl

/-! ## With and without `-X` -/

/-- `-X` alone changes a configuration exactly if the arguments with and without it are alike. -/
theorem configureSp_strictTrust_iff {host : Host κ} {arguments arguments' : List Bytes}
    {config : SpConfig κ} (hmain : configureSp host arguments = some config) :
    configureSp host arguments' = some { config with strictTrust := true } ↔
      Alike host (spOptions.scan none arguments) (spOptions.scan none arguments') := by
  obtain ⟨_, hconfigured⟩ := (configureSp_eq_some_iff host arguments config).mp hmain
  have hget : ∀ field, SpConfig.get { config with strictTrust := true } field =
      settled host (spOptions.scan none arguments).opts field := by
    intro field
    rw [← hconfigured.get]
    cases field <;> rfl
  rw [configureSp_eq_some_iff]
  constructor
  · rintro ⟨haccepted, hconfigured'⟩
    exact ⟨haccepted, hconfigured'.strictTrust.symm, fun field =>
      (hconfigured'.get field).symm.trans (hget field)⟩
  · intro halike
    exact ⟨halike.accepted, halike.strictTrust.symm, fun field =>
      (hget field).trans (halike.settled field).symm⟩

/-- Arguments are alike if the options behind an insertion can be exchanged. -/
theorem alike_exchanged_iff (host : Host κ) (front back back' : List Bytes) :
    let before := spOptions.scanFront none front
    Alike host (spOptions.scan none (front ++ back)) (spOptions.scan none (front ++ back')) ↔
      Exchanged host before (spOptions.resume before.progress back)
        (spOptions.resume before.progress back') := by
  intro before
  rw [OptionTable.scan_append, OptionTable.scan_append]
  constructor
  · rintro ⟨haccepted, hstrict, hsettled⟩
    rw [List.any_append, Bool.or_eq_true] at hstrict
    refine ⟨haccepted, hstrict, fun field => ?_⟩
    rw [← settled_append, ← settled_append]
    exact hsettled field
  · rintro ⟨haccepted, hstrict, hsettled⟩
    rw [← Bool.or_eq_true, ← List.any_append] at hstrict
    refine ⟨haccepted, hstrict, fun field => ?_⟩
    rw [settled_append, settled_append]
    exact hsettled field

section

variable {host : Host κ} {before taken after : List Opt} {operands operands' : List Bytes}
  {arg : Option Bytes}

theorem settled_strictTrust (field : ConfigField) :
    settled host (before ++ .found 'X' arg :: after) field =
      (lastValue host field after).getD (settled host before field) := by
  have hX : (Opt.found 'X' arg).value host field = none := by
    rw [Opt.value, isAny_strictTrust]
    rfl
  rw [settled_append, ← List.singleton_append, lastValue_append, lastValue_singleton, hX,
    Option.or_none]

theorem any_strictTrust {c : Char} (hc : c ≠ 'X') :
    (before ++ .found 'X' arg :: after).any (Opt.is c) = (before ++ after).any (Opt.is c) := by
  have hX : Opt.is c (.found 'X' arg) = false := decide_eq_false (Ne.symm hc)
  rw [List.any_append, List.any_append, List.any_cons, hX, Bool.false_or]

theorem given_strictTrust : ∀ letters ∈ requiredOptions,
    given letters (before ++ .found 'X' arg :: after) = given letters (before ++ after) := by
  intro letters hletters
  have hX : (Opt.found 'X' arg).isAny letters = false := by
    revert letters
    exact List.forall_mem_cons.mpr ⟨rfl, List.forall_mem_cons.mpr ⟨rfl, List.forall_mem_cons.mpr
      ⟨rfl, List.forall_mem_cons.mpr ⟨rfl, List.forall_mem_cons.mpr ⟨rfl, nofun⟩⟩⟩⟩⟩
  rw [given, given, List.countP_append, List.countP_append, List.countP_cons, hX]
  rfl

/-- `-X` makes no difference to what is accepted. -/
theorem accepted_strictTrust_iff :
    Accepted host ⟨before ++ .found 'X' arg :: after, operands⟩ ↔
      Accepted host ⟨before ++ after, operands⟩ := by
  have hsettled : settled host (before ++ .found 'X' arg :: after) .servicePrivateKey =
      settled host (before ++ after) .servicePrivateKey :=
    (settled_strictTrust _).trans (settled_append _ _ _ _).symm
  have hgiven : (∀ letters ∈ requiredOptions,
        given letters (before ++ .found 'X' arg :: after) % 256 ≠ 0) ↔
      ∀ letters ∈ requiredOptions, given letters (before ++ after) % 256 ≠ 0 :=
    forall₂_congr fun letters hletters => by rw [given_strictTrust letters hletters]
  have hvalid : (∀ opt ∈ before ++ .found 'X' arg :: after, opt.Valid host) ↔
      ∀ opt ∈ before ++ after, opt.Valid host := by
    rw [List.forall_mem_append, List.forall_mem_append, List.forall_mem_cons]
    exact and_congr_right fun _ => and_iff_right rfl
  have hnot : NotCombined (before ++ .found 'X' arg :: after) ↔ NotCombined (before ++ after) := by
    rw [NotCombined, NotCombined, any_strictTrust (by decide), any_strictTrust (by decide)]
  have hz : (before ++ .found 'X' arg :: after).any (Opt.is 'z') =
      (before ++ after).any (Opt.is 'z') := any_strictTrust (by decide)
  constructor
  · rintro ⟨hopts, hproxy, hrequired, hport, hstdio, hkey⟩
    rw [hz] at hstdio
    rw [hsettled] at hkey
    exact ⟨hvalid.mp hopts, hnot.mp hproxy, hgiven.mp hrequired, hport, hstdio, hkey⟩
  · rintro ⟨hopts, hproxy, hrequired, hport, hstdio, hkey⟩
    rw [← hsettled] at hkey
    refine ⟨hvalid.mpr hopts, hnot.mpr hproxy, hgiven.mpr hrequired, hport, ?_, hkey⟩
    rw [hz]
    exact hstdio

/-- A field has the same value with some options and without if it is set again behind them or
has it already. -/
theorem settled_eq_iff (hvalid : ∀ opt ∈ after, opt.Valid host) (field : ConfigField) :
    (lastValue host field after).getD (settled host before field) =
        (lastValue host field (taken ++ after)).getD (settled host before field) ↔
      ∀ value, lastValue host field taken = some value →
        after.any (Opt.isAny field.letters) = true ∨ settled host before field = value := by
  rw [lastValue_append, ← isSome_lastValue_iff hvalid]
  cases lastValue host field after with
  | some value => simp
  | none =>
      cases lastValue host field taken with
      | none => simp
      | some value => simp

/-- With `-X` among them, arguments are alike if they are accepted and have the same values. -/
theorem alike_strictTrust_iff {without : Scanned} :
    Alike host without ⟨before ++ .found 'X' arg :: after, operands⟩ ↔
      Accepted host ⟨before ++ after, operands⟩ ∧ ∀ field,
        (lastValue host field after).getD (settled host before field) =
          settled host without.opts field := by
  have hstrict : (before ++ .found 'X' arg :: after).any (Opt.is 'X') = true := by
    rw [List.any_append, List.any_cons]
    exact Bool.or_true _
  have haccept : Accepted host ⟨before ++ .found 'X' arg :: after, operands⟩ ↔
      Accepted host ⟨before ++ after, operands⟩ := accepted_strictTrust_iff
  rw [← haccept]
  constructor
  · rintro ⟨haccepted, _, hsettled⟩
    exact ⟨haccepted, fun field => (settled_strictTrust field).symm.trans (hsettled field)⟩
  · rintro ⟨haccepted, hsettled⟩
    exact ⟨haccepted, hstrict, fun field => (settled_strictTrust field).trans (hsettled field)⟩

/-- `-X` takes an option for its argument. -/
theorem alike_taken_iff (hvalid : ∀ opt ∈ after, opt.Valid host) :
    Alike host ⟨before ++ (taken ++ after), operands⟩
        ⟨before ++ .found 'X' arg :: after, operands'⟩ ↔
      Indifferent host before taken after ⟨before ++ after, operands'⟩ := by
  rw [alike_strictTrust_iff]
  constructor
  · rintro ⟨haccepted, hsettled⟩
    refine ⟨haccepted, fun field => (settled_eq_iff hvalid field).mp ?_⟩
    rw [hsettled, settled_append]
  · rintro ⟨haccepted, hsettled⟩
    refine ⟨haccepted, fun field => ?_⟩
    rw [settled_append]
    exact (settled_eq_iff hvalid field).mpr (hsettled field)

/-- A `-X` in front takes `-X` for its argument and not the option. -/
theorem alike_untaken_iff {arg' : Option Bytes} (hvalid : ∀ opt ∈ after, opt.Valid host) :
    Alike host ⟨before ++ .found 'X' arg :: after, operands⟩
        ⟨before ++ .found 'X' arg' :: (taken ++ after), operands'⟩ ↔
      Indifferent host before taken after ⟨before ++ (taken ++ after), operands'⟩ := by
  rw [alike_strictTrust_iff]
  constructor
  · rintro ⟨haccepted, hsettled⟩
    refine ⟨haccepted, fun field => (settled_eq_iff hvalid field).mp ?_⟩
    rw [hsettled, settled_strictTrust]
  · rintro ⟨haccepted, hsettled⟩
    refine ⟨haccepted, fun field => ?_⟩
    rw [settled_strictTrust]
    exact ((settled_eq_iff hvalid field).mpr (hsettled field)).symm

end

/-- The words that are left of an option are operands. -/
theorem scan_left {left behind : List Bytes}
    (hleft : ∀ word ∈ left, spOptions.wordOptions word = none) (c : Char) (taker : Bytes) :
    spOptions.scan (some c) (taker :: (left ++ behind)) =
      ⟨.found c (some taker) :: (spOptions.scan none behind).opts,
        left ++ (spOptions.scan none behind).operands⟩ := by
  rw [OptionTable.scan, OptionTable.scan_operands _ hleft]
  rfl

/-- `-X` before an option changes `strict_trust` alone exactly if the option that is taken for an
argument makes no difference. -/
theorem strictTrust_only_iff (host : Host κ) (front back : List Bytes) (config : SpConfig κ)
    (hmain : configureSp host (front ++ back) = some config) :
    configureSp host (front ++ word 'X' :: back) = some { config with strictTrust := true } ↔
      Spared host front back := by
  obtain ⟨haccepted, _⟩ := (configureSp_eq_some_iff host _ config).mp hmain
  have hvalid := haccepted.valid
  rw [configureSp_strictTrust_iff hmain, Spared]
  split
  · -- `-X` is read, and takes the first word of the option.
    rename_i taken left behind hprogress hnext
    by_cases hleft : ∀ word ∈ left, spOptions.wordOptions word = none
    · obtain ⟨⟨taker, hback⟩, hscan⟩ := OptionTable.nextOption_eq_some _ hnext
      rw [OptionTable.scan_append, hprogress, OptionTable.resume, hscan] at hvalid
      rw [if_pos hleft, OptionTable.scan_append, OptionTable.scan_append, hprogress,
        OptionTable.resume, OptionTable.resume, hscan, hback,
        OptionTable.scan_argument strictTrust_argument.1 strictTrust_argument.2,
        OptionTable.scan_operands _ hleft]
      exact alike_taken_iff fun opt hmem =>
        hvalid opt (List.mem_append_right _ (List.mem_append_right _ hmem))
    · rw [if_neg hleft]
      exact alike_exchanged_iff host front back _
  · -- Another `-X` takes this one, and without it the first word of the option.
    rename_i taken left behind hprogress hnext
    by_cases hleft : ∀ word ∈ left, spOptions.wordOptions word = none
    · obtain ⟨⟨taker, hback⟩, hscan⟩ := OptionTable.nextOption_eq_some _ hnext
      have hwithout : spOptions.scan (some 'X') back =
          ⟨.found 'X' (some taker) :: (spOptions.scan none behind).opts,
            left ++ (spOptions.scan none behind).operands⟩ := by
        rw [hback, scan_left hleft]
      have hinserted : spOptions.scan (some 'X') (word 'X' :: back) =
          ⟨.found 'X' (some (word 'X')) :: (taken ++ (spOptions.scan none behind).opts),
            (spOptions.scan none behind).operands⟩ := by
        rw [OptionTable.scan, hscan]
        rfl
      rw [OptionTable.scan_append, hprogress, OptionTable.resume, hwithout] at hvalid
      rw [if_pos hleft, OptionTable.scan_append, OptionTable.scan_append, hprogress,
        OptionTable.resume, OptionTable.resume, hwithout, hinserted]
      exact alike_untaken_iff fun opt hmem =>
        hvalid opt (List.mem_append_right _ (List.mem_cons_of_mem _ hmem))
    · rw [if_neg hleft]
      exact alike_exchanged_iff host front back _
  · exact alike_exchanged_iff host front back _

end

/-- The required options. -/
def requiredArguments : List Bytes :=
  [word 's', ascii "0022D2FDB795091CD2EF68DC03A73781", word 'A', ascii "ca.pem", word 'N',
    List.replicate 64 48, word 'V', ascii "1", word 'R', ascii "0"]

theorem scanFront_requiredArguments : spOptions.scanFront none requiredArguments =
    ⟨[.found 's' (some (ascii "0022D2FDB795091CD2EF68DC03A73781")),
      .found 'A' (some (ascii "ca.pem")), .found 'N' (some (List.replicate 64 48)),
      .found 'V' (some (ascii "1")), .found 'R' (some (ascii "0"))], [], .ready⟩ := by
  decide +kernel

/-- With `-d` between them, `-X` and `-D` both count. -/
theorem noDebugEnclave_spared :
    ∃ config, configureSp (.plain ()) (requiredArguments ++ [word 'd', word 'D']) = some config ∧
      configureSp (.plain ()) (requiredArguments ++ [word 'X', word 'd', word 'D']) =
        some { config with strictTrust := true } := by
  have hstarts : (configureSp (.plain ())
      (requiredArguments ++ [word 'd', word 'D'])).isSome = true := by decide +kernel
  obtain ⟨config, hmain⟩ := Option.isSome_iff_exists.mp hstarts
  refine ⟨config, hmain, (strictTrust_only_iff _ _ _ config hmain).mpr ?_⟩
  have hnext : spOptions.nextOption [word 'd', word 'D'] =
      some ([.found 'd' none], [], [word 'D']) := by decide
  rw [Spared, scanFront_requiredArguments, hnext]
  dsimp only
  rw [if_pos (List.forall_mem_nil _)]
  have hwithout : (configureSp (Host.plain ()) (requiredArguments ++ [word 'D'])).isSome = true := by
    decide +kernel
  obtain ⟨rejecting, hrejecting⟩ := Option.isSome_iff_exists.mp hwithout
  obtain ⟨haccepted, _⟩ := (configureSp_eq_some_iff _ _ rejecting).mp hrejecting
  rw [OptionTable.scan_append, scanFront_requiredArguments] at haccepted
  refine ⟨haccepted, ?_⟩
  intro field value hvalue
  cases field <;> cases hvalue

/-- `-X` takes `-D` for its argument. -/
theorem noDebugEnclave_swallowed :
    ∃ config, configureSp (.plain ()) (requiredArguments ++ [word 'D']) = some config ∧
      configureSp (.plain ()) (requiredArguments ++ [word 'X', word 'D']) ≠
        some { config with strictTrust := true } := by
  have hwithout : (configureSp (.plain ()) (requiredArguments ++ [word 'D'])).map
      (·.allowDebugEnclave) = some false := by decide +kernel
  have hinserted : (configureSp (.plain ()) (requiredArguments ++ [word 'X', word 'D'])).map
      (·.allowDebugEnclave) = some true := by decide +kernel
  obtain ⟨config, hmain, hreject⟩ := Option.map_eq_some_iff.mp hwithout
  refine ⟨config, hmain, fun hsame => ?_⟩
  rw [hsame, Option.map_some, hreject] at hinserted
  cases hinserted

end RemoteAttestation
