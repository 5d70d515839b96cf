import RemoteAttestation.ServiceProvider.Options

/-! # What the options make of `config`

A field of `config` has the value that the last of its options gives it, or its default. The
option loop of `main` comes to this whenever it comes to an end.
-/

namespace RemoteAttestation

/-! ## `config_t` -/

/-- `config_t`, when `main` is through with its options. -/
@[ext] structure SpConfig (κ : Type) where
  spid : Block 16
  priSubscriptionKey : Block 32
  secSubscriptionKey : Block 32
  quoteType : UInt16
  servicePrivateKey : κ
  signingCa : Option Bytes
  proxy : Option (Bytes × Nat)
  caBundle : Bytes
  userAgent : Option Bytes
  apiver : Nat
  apiver_supported : apiver = 3 ∨ apiver = 4
  strictTrust : Bool
  reqMrSigner : Block 32
  reqIsvProductId : UInt16
  minIsvsvn : UInt16
  allowDebugEnclave : Bool

/-- `DEFAULT_CA_BUNDLE`. -/
def defaultCaBundle : Bytes := ascii "/etc/ssl/certs/ca-certificates.crt"

/-- The fields other than `strict_trust`. -/
inductive ConfigField where
  | spid
  | priSubscriptionKey
  | secSubscriptionKey
  | quoteType
  | servicePrivateKey
  | signingCa
  | proxy
  | caBundle
  | userAgent
  | apiver
  | reqMrSigner
  | reqIsvProductId
  | minIsvsvn
  | allowDebugEnclave
deriving DecidableEq

namespace ConfigField

def Value (κ : Type) : ConfigField → Type
  | spid => Block 16
  | priSubscriptionKey => Block 32
  | secSubscriptionKey => Block 32
  | quoteType => UInt16
  | servicePrivateKey => Option κ
  | signingCa => Option Bytes
  | proxy => Option (Bytes × Nat)
  | caBundle => Bytes
  | userAgent => Option Bytes
  | apiver => Nat
  | reqMrSigner => Block 32
  | reqIsvProductId => UInt16
  | minIsvsvn => UInt16
  | allowDebugEnclave => Bool

/-- The options that set a field. -/
def letters : ConfigField → List Char
  | spid => ['S', 's']
  | priSubscriptionKey => ['I', 'i']
  | secSubscriptionKey => ['J', 'j']
  | quoteType => ['l']
  | servicePrivateKey => ['K', 'k']
  | signingCa => ['A']
  | proxy => ['p']
  | caBundle => ['B']
  | userAgent => ['g']
  | apiver => ['r']
  | reqMrSigner => ['N']
  | reqIsvProductId => ['R']
  | minIsvsvn => ['V']
  | allowDebugEnclave => ['D']

end ConfigField

section

variable {κ : Type}

/-- The value of a field if no option is left. -/
def SpState.get (host : Host κ) (state : SpState κ) : (field : ConfigField) → field.Value κ
  | .spid => state.spid
  | .priSubscriptionKey => state.priSubscriptionKey
  | .secSubscriptionKey => state.secSubscriptionKey
  | .quoteType => state.quoteType
  | .servicePrivateKey => state.servicePrivateKey.or host.keyPrivateFromBytes
  | .signingCa => state.signingCa
  | .proxy => state.proxy
  | .caBundle => state.caBundle.getD defaultCaBundle
  | .userAgent => state.userAgent
  | .apiver => state.apiver
  | .reqMrSigner => state.reqMrSigner
  | .reqIsvProductId => state.reqIsvProductId
  | .minIsvsvn => state.minIsvsvn
  | .allowDebugEnclave => state.allowDebugEnclave

def SpConfig.get (config : SpConfig κ) : (field : ConfigField) → field.Value κ
  | .spid => config.spid
  | .priSubscriptionKey => config.priSubscriptionKey
  | .secSubscriptionKey => config.secSubscriptionKey
  | .quoteType => config.quoteType
  | .servicePrivateKey => some config.servicePrivateKey
  | .signingCa => config.signingCa
  | .proxy => config.proxy
  | .caBundle => config.caBundle
  | .userAgent => config.userAgent
  | .apiver => config.apiver
  | .reqMrSigner => config.reqMrSigner
  | .reqIsvProductId => config.reqIsvProductId
  | .minIsvsvn => config.minIsvsvn
  | .allowDebugEnclave => config.allowDebugEnclave

theorem SpConfig.ext_get {config config' : SpConfig κ}
    (hstrict : config.strictTrust = config'.strictTrust)
    (hget : ∀ field, config.get field = config'.get field) : config = config' := by
  apply SpConfig.ext
  · exact hget .spid
  · exact hget .priSubscriptionKey
  · exact hget .secSubscriptionKey
  · exact hget .quoteType
  · exact Option.some.inj (hget .servicePrivateKey)
  · exact hget .signingCa
  · exact hget .proxy
  · exact hget .caBundle
  · exact hget .userAgent
  · exact hget .apiver
  · exact hstrict
  · exact hget .reqMrSigner
  · exact hget .reqIsvProductId
  · exact hget .minIsvsvn
  · exact hget .allowDebugEnclave

/-- `config` with the defaults for the key and the bundle. -/
def SpState.finished (state : SpState κ) (servicePrivateKey : κ) : SpConfig κ where
  spid := state.spid
  priSubscriptionKey := state.priSubscriptionKey
  secSubscriptionKey := state.secSubscriptionKey
  quoteType := state.quoteType
  servicePrivateKey
  signingCa := state.signingCa
  proxy := state.proxy
  caBundle := state.caBundle.getD defaultCaBundle
  userAgent := state.userAgent
  apiver := state.apiver
  apiver_supported := state.apiver_supported
  strictTrust := state.strictTrust
  reqMrSigner := state.reqMrSigner
  reqIsvProductId := state.reqIsvProductId
  minIsvsvn := state.minIsvsvn
  allowDebugEnclave := state.allowDebugEnclave

theorem SpState.get_finished {host : Host κ} {state : SpState κ} {servicePrivateKey : κ}
    (hkey : state.servicePrivateKey.or host.keyPrivateFromBytes = some servicePrivateKey)
    (field : ConfigField) :
    (state.finished servicePrivateKey).get field = state.get host field := by
  cases field with
  | servicePrivateKey => exact hkey.symm
  | _ => rfl

/-- The flags of the required options. -/
def SpState.counters (state : SpState κ) : List UInt8 :=
  [state.flagSpid, state.flagCa, state.flagIsvProductId, state.flagMinIsvsvn, state.flagMrSigner]

/-- `main` up to where it initialises its libraries. -/
def configureSp (host : Host κ) (arguments : List Bytes) : Option (SpConfig κ) := do
  let scanned := spOptions.scan none arguments
  let state ← scanned.opts.foldlM (applyOption host) .start
  if 1 < scanned.operands.length then none
  else if state.flagStdio ∧ scanned.operands ≠ [] then none
  else
    let servicePrivateKey ← state.servicePrivateKey.or host.keyPrivateFromBytes
    if 0 ∈ state.counters then none else some (state.finished servicePrivateKey)

/-- What the sessions see of `config`. -/
def SpConfig.session {sys : Sys} (config : SpConfig sys.Pkey) (verbose : Bool) : Config sys where
  spid := config.spid
  quoteType := config.quoteType
  servicePrivateKey := config.servicePrivateKey
  apiver := config.apiver
  apiver_supported := config.apiver_supported
  strictTrust := config.strictTrust
  reqMrSigner := config.reqMrSigner
  reqIsvProductId := config.reqIsvProductId
  minIsvsvn := config.minIsvsvn
  allowDebugEnclave := config.allowDebugEnclave
  verbose

/-- A server that starts has this configuration. -/
theorem configureSp_of_startSp {sys : Sys} {host : Host sys.Pkey} {arguments : List Bytes}
    {config : Config sys} (hstart : startSp host arguments = some config) :
    ∃ spConfig, configureSp host arguments = some spConfig ∧
      config = spConfig.session config.verbose := by
  unfold startSp at hstart
  obtain ⟨state, hrun, hstart⟩ := Option.bind_eq_some_iff.mp hstart
  rw [Option.ite_none_left_eq_some, Option.ite_none_left_eq_some] at hstart
  obtain ⟨hoperands, hstdio, hstart⟩ := hstart
  obtain ⟨key, hkey, hstart⟩ := Option.bind_eq_some_iff.mp hstart
  rw [Option.ite_none_left_eq_some, Option.ite_none_right_eq_some] at hstart
  obtain ⟨hflags, _, hconfig⟩ := hstart
  have hcounters : 0 ∉ state.counters := by
    simp only [SpState.counters, List.mem_cons, List.not_mem_nil, or_false, not_or]
    simp only [not_or] at hflags
    exact ⟨Ne.symm hflags.1, Ne.symm hflags.2.1, Ne.symm hflags.2.2.1, Ne.symm hflags.2.2.2.1,
      Ne.symm hflags.2.2.2.2⟩
  refine ⟨state.finished key, ?_, ?_⟩
  · rw [configureSp, hrun, Option.bind_eq_bind, Option.bind_some, if_neg hoperands, if_neg hstdio, hkey,
      Option.bind_eq_bind, Option.bind_some, if_neg hcounters]
  · rw [← Option.some.inj hconfig]
    rfl

/-! ## The options of a field -/

/-- Whether an option is one of these. -/
def Opt.isAny (letters : List Char) (opt : Opt) : Bool := letters.any fun c => opt.is c

/-- An option that the loop goes through with, if it is the only one. -/
def Opt.Valid (host : Host κ) (opt : Opt) : Prop := (applyOption host .start opt).isSome = true

/-- What an option sets a field to. -/
def Opt.value (host : Host κ) (field : ConfigField) (opt : Opt) : Option (field.Value κ) :=
  if opt.isAny field.letters then (applyOption host .start opt).map fun state => state.get host field
  else none

/-- What the last of its options sets a field to. -/
def lastValue (host : Host κ) (field : ConfigField) (opts : List Opt) : Option (field.Value κ) :=
  (opts.filterMap (Opt.value host field)).getLast?

/-- The value of a field behind some options. -/
def settled (host : Host κ) (opts : List Opt) (field : ConfigField) : field.Value κ :=
  (lastValue host field opts).getD (SpState.get host .start field)

/-- How often one of these options is given. -/
def given (letters : List Char) (opts : List Opt) : Nat := opts.countP (Opt.isAny letters)

/-- The required options. -/
def requiredOptions : List (List Char) := [['S', 's'], ['A'], ['R'], ['V'], ['N']]

theorem lastValue_append (host : Host κ) (field : ConfigField) (opts opts' : List Opt) :
    lastValue host field (opts ++ opts') =
      (lastValue host field opts').or (lastValue host field opts) := by
  rw [lastValue, List.filterMap_append, List.getLast?_append]
  rfl

theorem lastValue_singleton (host : Host κ) (field : ConfigField) (opt : Opt) :
    lastValue host field [opt] = opt.value host field := by
  rw [lastValue, List.filterMap_cons]
  cases opt.value host field with
  | none => rfl
  | some value => rfl

theorem settled_append (host : Host κ) (field : ConfigField) (opts opts' : List Opt) :
    settled host (opts ++ opts') field =
      (lastValue host field opts').getD (settled host opts field) := by
  rw [settled, lastValue_append, settled]
  cases lastValue host field opts' with
  | none => rfl
  | some value => rfl

/-! ## One option -/

/-- An option that does not set a field leaves it as it is. -/
theorem get_applyOption_of_not_isAny {host : Host κ} {state state' : SpState κ} {opt : Opt}
    (happly : applyOption host state opt = some state') (field : ConfigField)
    (hother : opt.isAny field.letters = false) : state'.get host field = state.get host field := by
  cases opt with
  | invalid => cases happly
  | found val optarg =>
      unfold applyOption at happly
      dsimp only at happly
      split at happly
      all_goals
        simp only [Option.ite_none_right_eq_some, Option.ite_none_left_eq_some,
          Option.bind_eq_bind, Option.bind_eq_some_iff, Option.pure_def, Option.some.injEq,
          Option.dite_none_right_eq_some, reduceCtorEq] at happly
      all_goals
        first
        | subst happly
        | obtain ⟨_, rfl⟩ := happly
        | obtain ⟨_, _, rfl⟩ := happly
        | obtain ⟨_, _, _, rfl⟩ := happly
        cases field <;> first
          | rfl
          | cases hother

/-- An option that sets a field sets it to the same value in all states. -/
theorem get_applyOption_of_isAny {host : Host κ} {state state' other other' : SpState κ}
    {opt : Opt} (happly : applyOption host state opt = some state')
    (hother : applyOption host other opt = some other') {field : ConfigField}
    (hsets : opt.isAny field.letters = true) : state'.get host field = other'.get host field := by
  obtain ⟨c, hc, his⟩ := List.any_eq_true.mp hsets
  cases opt with
  | invalid => cases happly
  | found val optarg =>
      have hval : val = c := of_decide_eq_true his
      subst hval
      unfold applyOption at happly hother
      cases field <;>
        simp only [ConfigField.letters, List.mem_cons, List.not_mem_nil, or_false] at hc
      all_goals
        first
        | subst hc
          simp only [Option.ite_none_right_eq_some, Option.ite_none_left_eq_some,
            Option.bind_eq_bind, Option.bind_eq_some_iff, Option.pure_def, Option.some.injEq,
            Option.dite_none_right_eq_some] at happly hother
          grind [SpState.get]
        | rcases hc with rfl | rfl
          all_goals
            simp only [Option.ite_none_left_eq_some, Option.bind_eq_bind,
              Option.bind_eq_some_iff, Option.pure_def, Option.some.injEq] at happly hother
            grind [SpState.get]

/-- Which options the loop goes through with. -/
theorem isSome_applyOption_iff (host : Host κ) (state : SpState κ) (opt : Opt) :
    (applyOption host state opt).isSome = true ↔ opt.Valid host ∧
      ¬ (opt.is 'p' = true ∧ state.flagNoproxy = true) ∧
      ¬ (opt.is 'x' = true ∧ state.proxy.isSome = true) := by
  cases opt with
  | invalid => simp [applyOption, Opt.Valid]
  | found val optarg =>
      unfold Opt.Valid applyOption
      dsimp only
      split
      all_goals
        simp [Opt.is, SpState.start, Option.isSome_bind]
      -- What is left has a branch of its own: `-p`, and `-s` with its length.
      all_goals
        split
        all_goals simp [Option.isSome_bind, *]

/-- The variables of `main` outside `config`, and `strict_trust`. -/
structure Counted (opts : List Opt) (state : SpState κ) : Prop where
  strictTrust : state.strictTrust = opts.any (Opt.is 'X')
  flagStdio : state.flagStdio = opts.any (Opt.is 'z')
  flagNoproxy : state.flagNoproxy = opts.any (Opt.is 'x')
  proxy : state.proxy.isSome = opts.any (Opt.is 'p')
  counters : state.counters = requiredOptions.map fun letters => UInt8.ofNat (given letters opts)

theorem counted_start : Counted [] (SpState.start : SpState κ) := ⟨rfl, rfl, rfl, rfl, rfl⟩

theorem Counted.apply {host : Host κ} {opts : List Opt} {state state' : SpState κ} {opt : Opt}
    (hcounted : Counted opts state) (happly : applyOption host state opt = some state') :
    Counted (opts ++ [opt]) state' := by
  obtain ⟨hstrict, hstdio, hnoproxy, hproxy, hcounters⟩ := hcounted
  cases opt with
  | invalid => cases happly
  | found val optarg =>
      simp only [SpState.counters, requiredOptions, List.map_cons, List.map_nil, List.cons.injEq,
        and_true] at hcounters
      obtain ⟨hspid, hca, hproduct, hversion, hsigner⟩ := hcounters
      unfold applyOption at happly
      dsimp only at happly
      split at happly
      all_goals
        simp only [Option.ite_none_right_eq_some, Option.ite_none_left_eq_some,
          Option.bind_eq_bind, Option.bind_eq_some_iff, Option.pure_def, Option.some.injEq,
          Option.dite_none_right_eq_some, reduceCtorEq] at happly
      all_goals
        first
        | subst happly
        | obtain ⟨_, rfl⟩ := happly
        | obtain ⟨_, _, rfl⟩ := happly
        | obtain ⟨_, _, _, rfl⟩ := happly
        constructor <;>
          simp_all [Opt.is, Opt.isAny, SpState.counters, requiredOptions, given, List.countP_append,
            List.countP_cons, UInt8.ofNat_add]

/-! ## The loop -/

/-- The state that the loop reaches with some options. -/
structure Reached (host : Host κ) (opts : List Opt) (state : SpState κ) : Prop where
  counted : Counted opts state
  get : ∀ field, state.get host field = settled host opts field

theorem reached_start (host : Host κ) : Reached host [] (SpState.start : SpState κ) :=
  ⟨counted_start, fun _ => rfl⟩

theorem Reached.apply {host : Host κ} {opts : List Opt} {state state' : SpState κ} {opt : Opt}
    (hreached : Reached host opts state) (happly : applyOption host state opt = some state') :
    Reached host (opts ++ [opt]) state' := by
  refine ⟨hreached.counted.apply happly, fun field => ?_⟩
  rw [settled_append, lastValue_singleton, Opt.value]
  by_cases hsets : opt.isAny field.letters = true
  · have hvalid := ((isSome_applyOption_iff host state opt).mp (by rw [happly]; rfl)).1
    obtain ⟨alone, halone⟩ := Option.isSome_iff_exists.mp hvalid
    rw [if_pos hsets, halone, Option.map_some, Option.getD_some]
    exact get_applyOption_of_isAny happly halone hsets
  · rw [if_neg hsets, Option.getD_none, ← hreached.get]
    exact get_applyOption_of_not_isAny happly field (Bool.not_eq_true _ ▸ hsets)

theorem Reached.run {host : Host κ} {before opts : List Opt} {state state' : SpState κ}
    (hreached : Reached host before state)
    (hrun : opts.foldlM (applyOption host) state = some state') :
    Reached host (before ++ opts) state' := by
  induction opts generalizing before state with
  | nil =>
      cases hrun
      rwa [List.append_nil]
  | cons opt opts ih =>
      rw [List.foldlM_cons] at hrun
      obtain ⟨next, hnext, hrun⟩ := Option.bind_eq_some_iff.mp hrun
      have hnext' := ih (hreached.apply hnext) hrun
      rwa [List.append_assoc] at hnext'

/-- `-p` and `-x` are not combined. -/
def NotCombined (opts : List Opt) : Prop :=
  ¬ (opts.any (Opt.is 'p') = true ∧ opts.any (Opt.is 'x') = true)

instance (opts : List Opt) : Decidable (NotCombined opts) := inferInstanceAs (Decidable (¬ _))

theorem NotCombined.of_subset {opts opts' : List Opt} (hnot : NotCombined opts)
    (hsubset : ∀ opt ∈ opts', opt ∈ opts) : NotCombined opts' := by
  rintro ⟨hproxy, hnoproxy⟩
  obtain ⟨opt, hmem, hopt⟩ := List.any_eq_true.mp hproxy
  obtain ⟨other, hmem', hother⟩ := List.any_eq_true.mp hnoproxy
  exact hnot ⟨List.any_eq_true.mpr ⟨opt, hsubset opt hmem, hopt⟩,
    List.any_eq_true.mpr ⟨other, hsubset other hmem', hother⟩⟩

theorem notCombined_concat {before : List Opt} {state : SpState κ} (hcounted : Counted before state)
    (hnot : NotCombined before) (opt : Opt) :
    NotCombined (before ++ [opt]) ↔ ¬ (opt.is 'p' = true ∧ state.flagNoproxy = true) ∧
      ¬ (opt.is 'x' = true ∧ state.proxy.isSome = true) := by
  have hone : ¬ (opt.is 'p' = true ∧ opt.is 'x' = true) := by
    rintro ⟨hproxy, hnoproxy⟩
    cases opt with
    | invalid => cases hproxy
    | found val optarg =>
        have hletter : 'p' = 'x' :=
          (of_decide_eq_true hproxy).symm.trans (of_decide_eq_true hnoproxy)
        exact absurd hletter (by decide)
  rw [hcounted.flagNoproxy, hcounted.proxy]
  simp only [NotCombined, List.any_append, List.any_cons, List.any_nil, Bool.or_false,
    Bool.or_eq_true] at hnot ⊢
  tauto

/-- The loop goes through with options that are valid, each for itself, and not combined. -/
theorem isSome_foldlM_iff {host : Host κ} {before opts : List Opt} {state : SpState κ}
    (hreached : Reached host before state) (hnot : NotCombined before) :
    (opts.foldlM (applyOption host) state).isSome = true ↔
      (∀ opt ∈ opts, opt.Valid host) ∧ NotCombined (before ++ opts) := by
  induction opts generalizing before state with
  | nil => simp [hnot]
  | cons opt opts ih =>
      have hstep := isSome_applyOption_iff host state opt
      rw [← notCombined_concat hreached.counted hnot] at hstep
      rw [List.foldlM_cons, List.forall_mem_cons]
      cases happly : applyOption host state opt with
      | none =>
          -- The loop stops here: the option is not valid, or combined with one before it.
          rw [happly] at hstep
          refine iff_of_false Bool.false_ne_true ?_
          rintro ⟨⟨hopt, _⟩, hall⟩
          have hfirst : NotCombined (before ++ [opt]) := by
            apply hall.of_subset
            intro other hmem
            rcases List.mem_append.mp hmem with hmem | hmem
            · exact List.mem_append_left _ hmem
            · rw [List.mem_singleton.mp hmem]
              exact List.mem_append_right _ List.mem_cons_self
          exact Bool.false_ne_true (hstep.mpr ⟨hopt, hfirst⟩)
      | some next =>
          rw [happly] at hstep
          obtain ⟨hopt, hfirst⟩ := hstep.mp rfl
          rw [Option.bind_eq_bind, Option.bind_some, ih (hreached.apply happly) hfirst,
            List.append_assoc, and_assoc]
          exact (and_iff_right hopt).symm

/-! ## The result -/

/-- The arguments that `main` accepts. -/
structure Accepted (host : Host κ) (scanned : Scanned) : Prop where
  valid : ∀ opt ∈ scanned.opts, opt.Valid host
  notCombined : NotCombined scanned.opts
  required : ∀ letters ∈ requiredOptions, given letters scanned.opts % 256 ≠ 0
  operands : scanned.operands.length ≤ 1
  stdio : scanned.opts.any (Opt.is 'z') = true → scanned.operands = []
  servicePrivateKey : (settled host scanned.opts .servicePrivateKey).isSome = true

/-- What it makes of them. -/
structure Configured (host : Host κ) (opts : List Opt) (config : SpConfig κ) : Prop where
  strictTrust : config.strictTrust = opts.any (Opt.is 'X')
  get : ∀ field, config.get field = settled host opts field

theorem Reached.zero_notMem_counters_iff {host : Host κ} {opts : List Opt} {state : SpState κ}
    (hreached : Reached host opts state) :
    0 ∉ state.counters ↔ ∀ letters ∈ requiredOptions, given letters opts % 256 ≠ 0 := by
  have hzero : ∀ n, UInt8.ofNat n = 0 ↔ n % 256 = 0 := by
    intro n
    rw [← UInt8.toNat_inj, UInt8.toNat_ofNat']
    rfl
  rw [hreached.counted.counters, List.mem_map, not_exists]
  constructor
  · intro hnone letters hletters hgiven
    exact hnone letters ⟨hletters, (hzero _).mpr hgiven⟩
  · rintro hall letters ⟨hletters, hgiven⟩
    exact hall letters hletters ((hzero _).mp hgiven)

theorem Reached.configured {host : Host κ} {opts : List Opt} {state : SpState κ}
    (hreached : Reached host opts state) {servicePrivateKey : κ}
    (hkey : state.servicePrivateKey.or host.keyPrivateFromBytes = some servicePrivateKey) :
    Configured host opts (state.finished servicePrivateKey) where
  strictTrust := hreached.counted.strictTrust
  get field := (SpState.get_finished hkey field).trans (hreached.get field)

theorem Configured.unique {host : Host κ} {opts : List Opt} {config config' : SpConfig κ}
    (hconfig : Configured host opts config) (hconfig' : Configured host opts config') :
    config = config' :=
  SpConfig.ext_get (hconfig.strictTrust.trans hconfig'.strictTrust.symm) fun field =>
    (hconfig.get field).trans (hconfig'.get field).symm

/-- `main` comes to a configuration exactly for accepted arguments, and to this one. -/
theorem configureSp_eq_some_iff (host : Host κ) (arguments : List Bytes) (config : SpConfig κ) :
    configureSp host arguments = some config ↔
      Accepted host (spOptions.scan none arguments) ∧
        Configured host (spOptions.scan none arguments).opts config := by
  have hloop : ((spOptions.scan none arguments).opts.foldlM (applyOption host) .start).isSome =
        true ↔
      (∀ opt ∈ (spOptions.scan none arguments).opts, opt.Valid host) ∧
        NotCombined ([] ++ (spOptions.scan none arguments).opts) :=
    isSome_foldlM_iff (reached_start host) fun h => Bool.false_ne_true h.1
  unfold configureSp
  constructor
  · -- Each check that `main` passes is one of the conditions, as the state reached has it.
    intro hmain
    obtain ⟨state, hrun, hmain⟩ := Option.bind_eq_some_iff.mp hmain
    have hreached := (reached_start host).run hrun
    rw [List.nil_append] at hloop hreached
    obtain ⟨hvalid, hnot⟩ := hloop.mp (by rw [hrun]; rfl)
    rw [Option.ite_none_left_eq_some, Option.ite_none_left_eq_some] at hmain
    obtain ⟨hoperands, hstdio, hmain⟩ := hmain
    obtain ⟨key, hkey, hmain⟩ := Option.bind_eq_some_iff.mp hmain
    rw [Option.ite_none_left_eq_some] at hmain
    rw [← Option.some.inj hmain.2]
    refine ⟨⟨hvalid, hnot, hreached.zero_notMem_counters_iff.mp hmain.1, ?_, ?_, ?_⟩,
      hreached.configured hkey⟩
    · exact Nat.not_lt.mp hoperands
    · intro hz
      rw [hreached.counted.flagStdio, hz] at hstdio
      exact not_not.mp fun hne => hstdio ⟨rfl, hne⟩
    · rw [← hreached.get]
      exact Option.isSome_iff_exists.mpr ⟨key, hkey⟩
  · rintro ⟨haccepted, hconfigured⟩
    rw [List.nil_append] at hloop
    obtain ⟨state, hrun⟩ := Option.isSome_iff_exists.mp
      (hloop.mpr ⟨haccepted.valid, haccepted.notCombined⟩)
    have hreached := (reached_start host).run hrun
    rw [List.nil_append] at hreached
    have hsome := haccepted.servicePrivateKey
    rw [← hreached.get] at hsome
    obtain ⟨key, hkey⟩ := Option.isSome_iff_exists.mp hsome
    have hkey' : state.servicePrivateKey.or host.keyPrivateFromBytes = some key := hkey
    have hstdio : ¬ (state.flagStdio = true ∧ (spOptions.scan none arguments).operands ≠ []) := by
      rintro ⟨hz, hne⟩
      rw [hreached.counted.flagStdio] at hz
      exact hne (haccepted.stdio hz)
    dsimp only
    rw [hrun, Option.bind_eq_bind, Option.bind_some,
      if_neg (Nat.not_lt.mpr haccepted.operands), if_neg hstdio, hkey', Option.bind_eq_bind,
      Option.bind_some, if_neg (hreached.zero_notMem_counters_iff.mpr haccepted.required)]
    exact congrArg some ((hreached.configured hkey').unique hconfigured)

end

end RemoteAttestation
