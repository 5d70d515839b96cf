import Mathlib.Data.Bool.AllAny
import RemoteAttestation.Foundation.Shell
import RemoteAttestation.Transport.HexDecoder
import RemoteAttestation.ServiceProvider.Authorisation
import RemoteAttestation.ServiceProvider.Configuration

/-! # From the policy file to the check of an enclave

`run-server` sources the settings and the policy, and passes variables of the shell to the
service provider as options. What a policy says of an enclave is compared with the check that
the service provider then makes.
-/

namespace RemoteAttestation

open OptionTable (word)

/-! ## `run-server` -/

/-- The variables of the settings and of the policy. -/
inductive ShellVariable where
  | spid
  | linkable
  | queryIasProduction
  | iasPrimarySubscriptionKey
  | iasSecondarySubscriptionKey
  | iasReportSigningCaFile
  | iasProxyUrl
  | iasDisableProxy
  | policyStrictTrust
  | allowDebugEnclave
  | verbose
  | debug
  | mrsigner
  | prodid
  | minIsvsvn
  | allowDebug
deriving DecidableEq

/-- The values of the variables. One that is not set is empty. -/
abbrev Shell := ShellVariable → Bytes

/-- The options for the proxy. -/
def proxyWords (glob : Bytes → List Bytes) (shell : Shell) : List Bytes :=
  if isNonzero (shell .iasDisableProxy) then [word 'x']
  else if shell .iasProxyUrl ≠ [] then unquoted glob (ascii "--proxy=" ++ shell .iasProxyUrl)
  else []

/-- A flag for a variable that is not zero. -/
def flagFor (shell : Shell) (name : ShellVariable) (c : Char) : List Char :=
  if isNonzero (shell name) then [c] else []

/-- The flags behind `sp_strict_trust`. -/
def lastFlags (shell : Shell) : List Char :=
  flagFor shell .debug 'd' ++ flagFor shell .verbose 'v' ++ flagFor shell .queryIasProduction 'P' ++
    if isZero (shell .allowDebugEnclave) then ['D'] else []

/-- The arguments of `sp`, in `run-server`. -/
def runServer (glob : Bytes → List Bytes) (shell : Shell) (arguments : List Bytes) : List Bytes :=
  (word 's' :: unquoted glob (shell .spid)) ++
    (word 'i' :: unquoted glob (shell .iasPrimarySubscriptionKey)) ++
    (word 'j' :: unquoted glob (shell .iasSecondarySubscriptionKey)) ++
    [word 'A', shell .iasReportSigningCaFile] ++
    (word 'N' :: unquoted glob (shell .mrsigner)) ++
    (word 'V' :: unquoted glob (shell .minIsvsvn)) ++
    (word 'R' :: unquoted glob (shell .prodid)) ++
    proxyWords glob shell ++
    (flagFor shell .linkable 'l' ++ flagFor shell .policyStrictTrust 'X' ++ lastFlags shell).map word ++
    arguments

/-! ## The policy -/

/-- Decimal digits for a number of 16 bits. -/
structure IsUInt16 (text : Bytes) : Prop where
  nonempty : text ≠ []
  digits : ∀ c ∈ text, isDigit c = true
  value_le : digitsValue text ≤ 65535

/-- The assignments of a file of the form of `policy.in`. -/
structure PolicyFile where
  mrsigner : Bytes
  prodid : Bytes
  minIsvsvn : Bytes
  allowDebug : Bool
  length_mrsigner : mrsigner.length = 64
  mrsigner_digits : ∀ c ∈ mrsigner, (hexValue? c).isSome
  prodid_number : IsUInt16 prodid
  minIsvsvn_number : IsUInt16 minIsvsvn

namespace PolicyFile

/-- The shell that has sourced the policy after the settings. -/
def source (policy : PolicyFile) (settings : Shell) : Shell
  | .mrsigner => policy.mrsigner
  | .prodid => policy.prodid
  | .minIsvsvn => policy.minIsvsvn
  | .allowDebug => if policy.allowDebug then ascii "1" else ascii "0"
  | name => settings name

/-- The enclave is the one the policy names. -/
structure Names (policy : PolicyFile) (report : ReportBody) : Prop where
  mrSigner : report.mrSigner.bytes = hexPairs policy.mrsigner
  isvProdId : report.isvProdId.toNat = digitsValue policy.prodid
  isvSvn : digitsValue policy.minIsvsvn ≤ report.isvSvn.toNat

/-- What the policy says of an enclave. -/
structure Admits (policy : PolicyFile) (report : ReportBody) : Prop where
  names : policy.Names report
  debug : report.attributesFlags &&& sgxFlagsDebug = 0 ∨ policy.allowDebug = true

end PolicyFile

/-- Settings whose values are one word each. -/
structure ValidSettings (glob : Bytes → List Bytes) (settings : Shell) : Prop where
  spid : unquoted glob (settings .spid) = [settings .spid]
  primary : unquoted glob (settings .iasPrimarySubscriptionKey) =
    [settings .iasPrimarySubscriptionKey]
  secondary : unquoted glob (settings .iasSecondarySubscriptionKey) =
    [settings .iasSecondarySubscriptionKey]
  proxy : unquoted glob (ascii "--proxy=" ++ settings .iasProxyUrl) =
    [ascii "--proxy=" ++ settings .iasProxyUrl]

/-- `run-server` without arguments of its own. -/
def startServer {sys : Sys} (host : Host sys.Pkey) (glob : Bytes → List Bytes) (settings : Shell)
    (policy : PolicyFile) : Option (Config sys) :=
  startSp host (runServer glob (policy.source settings) [])

/-- The settings make `run-server` pass `-D`, and no `-X` takes it for its argument. -/
def RejectsDebug (settings : Shell) : Prop :=
  isZero (settings .allowDebugEnclave) = true ∧
    (isNonzero (settings .policyStrictTrust) = true →
      isNonzero (settings .debug) = true ∨ isNonzero (settings .verbose) = true ∨
        isNonzero (settings .queryIasProduction) = true)

instance (settings : Shell) : Decidable (RejectsDebug settings) :=
  inferInstanceAs (Decidable (_ ∧ (_ → _ ∨ _ ∨ _)))

/-! ## Texts of digits -/

theorem plain_of_isDigit (c : UInt8) :
    isDigit c = true → isIfs c = false ∧ isPatternChar c = false := by
  revert c
  exact forall_uint8 (by decide +kernel)

theorem plain_of_hexValue? (c : UInt8) :
    (hexValue? c).isSome = true → isIfs c = false ∧ isPatternChar c = false := by
  revert c
  exact forall_uint8 (by decide +kernel)

theorem IsUInt16.unquoted {text : Bytes} (htext : IsUInt16 text) (glob : Bytes → List Bytes) :
    unquoted glob text = [text] :=
  unquoted_eq_self glob htext.nonempty fun c hc => plain_of_isDigit c (htext.digits c hc)

theorem IsUInt16.parse {text : Bytes} (htext : IsUInt16 text) :
    parseUInt16 text = some (UInt16.ofNat (digitsValue text)) := by
  have hle := htext.value_le
  rw [parseUInt16, strtoul_digits htext.nonempty htext.digits (by omega)]
  dsimp only
  rw [if_neg]
  rintro (hrest | hlarge)
  · exact hrest rfl
  · omega

theorem PolicyFile.unquoted_mrsigner (policy : PolicyFile) (glob : Bytes → List Bytes) :
    unquoted glob policy.mrsigner = [policy.mrsigner] := by
  refine unquoted_eq_self glob ?_ fun c hc => plain_of_hexValue? c (policy.mrsigner_digits c hc)
  intro hempty
  have hlength := policy.length_mrsigner
  rw [hempty] at hlength
  cases hlength

/-- The option for the signer stores the bytes that its digits stand for. -/
theorem PolicyFile.parse_mrsigner {κ : Type} (policy : PolicyFile) (host : Host κ) :
    ∃ signer, parseHex host policy.mrsigner 32 = some signer ∧
      signer.bytes = hexPairs policy.mrsigner := by
  have hlength := policy.length_mrsigner
  have hall : policy.mrsigner.take (2 * 32) = policy.mrsigner :=
    List.take_of_length_le (by omega)
  have hdigits : HexDigits policy.mrsigner 32 := by
    refine ⟨by omega, ?_⟩
    rw [hall]
    exact policy.mrsigner_digits
  refine ⟨.overlay 32 (hexPairs policy.mrsigner), ?_, ?_⟩
  · rw [parseHex, fromHexstring_digits host.stale hdigits, hall]
  · have hpairs := length_hexPairs policy.mrsigner
    rw [hlength] at hpairs
    simp [Block.overlay, hpairs]

/-! ## The loop over the options -/

/-- An option that sets neither the signer nor a number. -/
def Opt.Neutral (opt : Opt) : Prop :=
  opt.is 'N' = false ∧ opt.is 'R' = false ∧ opt.is 'V' = false

instance (opt : Opt) : Decidable opt.Neutral := inferInstanceAs (Decidable (_ ∧ _ ∧ _))

section

variable {κ : Type}

/-- The requirements on an enclave after neutral options: only `-D` changes one. -/
structure Kept (opts : List Opt) (state state' : SpState κ) : Prop where
  reqMrSigner : state'.reqMrSigner = state.reqMrSigner
  reqIsvProductId : state'.reqIsvProductId = state.reqIsvProductId
  minIsvsvn : state'.minIsvsvn = state.minIsvsvn
  allowDebugEnclave : state'.allowDebugEnclave =
    (state.allowDebugEnclave && !opts.any (·.is 'D'))

theorem Kept.trans {opts opts' : List Opt} {state₀ state₁ state₂ : SpState κ}
    (hfirst : Kept opts state₀ state₁) (hnext : Kept opts' state₁ state₂) :
    Kept (opts ++ opts') state₀ state₂ where
  reqMrSigner := hnext.reqMrSigner.trans hfirst.reqMrSigner
  reqIsvProductId := hnext.reqIsvProductId.trans hfirst.reqIsvProductId
  minIsvsvn := hnext.minIsvsvn.trans hfirst.minIsvsvn
  allowDebugEnclave := by
    rw [hnext.allowDebugEnclave, hfirst.allowDebugEnclave, List.any_append, Bool.not_or,
      Bool.and_assoc]

theorem applyOption_kept {host : Host κ} {state state' : SpState κ} {opt : Opt}
    (happly : applyOption host state opt = some state') (hneutral : opt.Neutral) :
    Kept [opt] state state' := by
  obtain ⟨hsigner, hproduct, hversion⟩ := hneutral
  have hone : ∀ c, opt.is c = false → opt.isAny [c] = false := by
    intro c hc
    rw [Opt.isAny, List.any_cons, List.any_nil, Bool.or_false, hc]
  refine ⟨get_applyOption_of_not_isAny happly .reqMrSigner (hone 'N' hsigner),
    get_applyOption_of_not_isAny happly .reqIsvProductId (hone 'R' hproduct),
    get_applyOption_of_not_isAny happly .minIsvsvn (hone 'V' hversion), ?_⟩
  rw [List.any_cons, List.any_nil, Bool.or_false]
  cases hdebug : opt.is 'D' with
  | false =>
      rw [Bool.not_false, Bool.and_true]
      exact get_applyOption_of_not_isAny happly .allowDebugEnclave (hone 'D' hdebug)
  | true =>
      cases opt with
      | invalid => cases happly
      | found val optarg =>
          have hval : val = 'D' := of_decide_eq_true hdebug
          subst hval
          rw [← Option.some.inj happly, Bool.not_true, Bool.and_false]

/-- An option that `getopt_long` objects to ends the process. -/
theorem invalid_notMem_of_foldlM {host : Host κ} {opts : List Opt} {state state' : SpState κ}
    (hrun : opts.foldlM (applyOption host) state = some state') : Opt.invalid ∉ opts := by
  induction opts generalizing state with
  | nil => exact List.not_mem_nil
  | cons opt opts ih =>
      rw [List.foldlM_cons] at hrun
      obtain ⟨next, hnext, hrun⟩ := Option.bind_eq_some_iff.mp hrun
      rw [List.mem_cons, not_or]
      refine ⟨?_, ih hrun⟩
      rintro rfl
      cases hnext

/-- The loop over neutral options. -/
theorem foldlM_kept {host : Host κ} {opts : List Opt} {state state' : SpState κ}
    (hrun : opts.foldlM (applyOption host) state = some state')
    (hneutral : ∀ opt ∈ opts, opt.Neutral) : Kept opts state state' := by
  induction opts generalizing state with
  | nil =>
      cases hrun
      exact ⟨rfl, rfl, rfl, by simp⟩
  | cons opt opts ih =>
      obtain ⟨hopt, hopts⟩ := List.forall_mem_cons.mp hneutral
      rw [List.foldlM_cons] at hrun
      obtain ⟨next, hnext, hrun⟩ := Option.bind_eq_some_iff.mp hrun
      exact (applyOption_kept hnext hopt).trans (ih hrun hopts)

end

/-! ## What `getopt_long` finds in the arguments -/

/-- Neutral options, with `-D` among them in this case only. -/
structure Rejecting (rejects : Prop) (opts : List Opt) : Prop where
  neutral : ∀ opt ∈ opts, opt.Neutral
  debug : opts.any (·.is 'D') = true ↔ rejects

theorem Rejecting.append {left right : Prop} {opts opts' : List Opt} (hleft : Rejecting left opts)
    (hright : Rejecting right opts') : Rejecting (left ∨ right) (opts ++ opts') where
  neutral := List.forall_mem_append.mpr ⟨hleft.neutral, hright.neutral⟩
  debug := by rw [List.any_append, Bool.or_eq_true, hleft.debug, hright.debug]

theorem Rejecting.congr {left right : Prop} {opts : List Opt} (hleft : Rejecting left opts)
    (hiff : left ↔ right) : Rejecting right opts := ⟨hleft.neutral, hleft.debug.trans hiff⟩

/-- An option that is neutral and not `-D`. -/
theorem rejecting_singleton {opt : Opt} (hneutral : opt.Neutral) (hdebug : opt.is 'D' = false) :
    Rejecting False [opt] where
  neutral := by simpa using hneutral
  debug := by simp [hdebug]

theorem scan_proxy (url : Bytes) (words : List Bytes) :
    spOptions.scan none ((ascii "--proxy=" ++ url) :: words) =
      (spOptions.scan none words).after [.found 'p' (some url)] := by
  have hfind : spOptions.findLong (ascii "proxy") = some ⟨ascii "proxy", true, 'p'⟩ := by
    decide
  have hword : spOptions.wordOptions (ascii "--proxy=" ++ url) =
      some ([.found 'p' (some url)], none) := by
    have htext : ascii "--proxy=" ++ url = 45 :: 45 :: (ascii "proxy" ++ 61 :: url) := rfl
    have hname : (ascii "proxy" ++ 61 :: url).takeWhile (· ≠ 61) = ascii "proxy" := by
      rw [List.takeWhile_append_of_pos (List.all_eq_true.mp (by decide)),
        List.takeWhile_cons_of_neg (by decide),
        List.append_nil]
    rw [htext, OptionTable.wordOptions, if_neg (not_not.mpr rfl), if_pos rfl,
      OptionTable.longOption, hname, List.drop_left, hfind]
    rfl
  have hdashes : ascii "--proxy=" ++ url ≠ [45, 45] := by
    intro heq
    have hlength := congrArg List.length heq
    rw [List.length_append] at hlength
    have height : (ascii "--proxy=").length = 8 := rfl
    simp only [List.length_cons, List.length_nil] at hlength
    omega
  rw [OptionTable.scan, if_neg hdashes, hword]

/-- The options for the proxy do not touch the policy. -/
theorem scan_proxyWords {glob : Bytes → List Bytes} {shell : Shell}
    (hproxy : unquoted glob (ascii "--proxy=" ++ shell .iasProxyUrl) =
      [ascii "--proxy=" ++ shell .iasProxyUrl]) (words : List Bytes) :
    ∃ opts, spOptions.scan none (proxyWords glob shell ++ words) =
        (spOptions.scan none words).after opts ∧ Rejecting False opts := by
  unfold proxyWords
  by_cases hdisabled : isNonzero (shell .iasDisableProxy) = true
  · refine ⟨[.found 'x' none], ?_, rejecting_singleton (by decide) (by decide)⟩
    rw [if_pos hdisabled]
    have hx : ∀ c ∈ ['x'], OptionTable.IsShort c ∧ spOptions.shortArgument c = some false :=
      List.all_iff_forall_prop.mp (by decide)
    exact OptionTable.scan_flags hx words
  · rw [if_neg hdisabled]
    by_cases hurl : shell .iasProxyUrl = []
    · refine ⟨[], ?_, ⟨by simp, by simp⟩⟩
      rw [if_neg (not_not.mpr hurl)]
      rfl
    · have hneutral : (Opt.found 'p' (some (shell .iasProxyUrl))).Neutral := by
        simp [Opt.Neutral, Opt.is]
      refine ⟨[.found 'p' (some (shell .iasProxyUrl))], ?_,
        rejecting_singleton hneutral (by simp [Opt.is])⟩
      rw [if_pos hurl, hproxy]
      exact scan_proxy _ _

/-- The flags of `run-server` other than `-X` take no argument. -/
theorem known_flags : ∀ c ∈ ['l', 'd', 'v', 'P', 'D'],
    OptionTable.IsShort c ∧ spOptions.shortArgument c = some false :=
  List.all_iff_forall_prop.mp (by decide)

theorem strictTrust_argument :
    OptionTable.IsShort 'X' ∧ spOptions.shortArgument 'X' = some true := by
  decide

theorem mem_flagFor {shell : Shell} {name : ShellVariable} {c d : Char}
    (hc : c ∈ flagFor shell name d) : c = d := by
  unfold flagFor at hc
  split at hc
  · exact List.mem_singleton.mp hc
  · cases hc

theorem mem_lastFlags (shell : Shell) :
    ∀ c ∈ lastFlags shell, c ∈ ['l', 'd', 'v', 'P', 'D'] := by
  intro c hc
  simp only [lastFlags, List.mem_append] at hc
  rcases hc with ((hc | hc) | hc) | hc
  · rw [mem_flagFor hc]
    decide
  · rw [mem_flagFor hc]
    decide
  · rw [mem_flagFor hc]
    decide
  · split at hc
    · rw [List.mem_singleton.mp hc]
      decide
    · cases hc

/-- Flags are found as they are. -/
theorem rejecting_flags {flags : List Char}
    (hflags : ∀ c ∈ flags, c ∈ ['l', 'd', 'v', 'P', 'D']) :
    Rejecting ('D' ∈ flags) (flags.map (Opt.found · none)) where
  neutral := by
    intro opt hopt
    obtain ⟨c, hc, rfl⟩ := List.mem_map.mp hopt
    have hneutral : ∀ c ∈ ['l', 'd', 'v', 'P', 'D'], (Opt.found c none).Neutral :=
      List.all_iff_forall_prop.mp (by decide)
    exact hneutral c (hflags c hc)
  debug := by simp [Opt.is]

/-- `-D` is among the last flags. -/
theorem mem_lastFlags_iff {shell : Shell} :
    'D' ∈ lastFlags shell ↔ isZero (shell .allowDebugEnclave) = true := by
  constructor
  · intro hmem
    simp only [lastFlags, List.mem_append] at hmem
    rcases hmem with ((hmem | hmem) | hmem) | hmem
    · exact absurd (mem_flagFor hmem) (by decide)
    · exact absurd (mem_flagFor hmem) (by decide)
    · exact absurd (mem_flagFor hmem) (by decide)
    · split at hmem
      · assumption
      · cases hmem
  · intro hzero
    rw [lastFlags, if_pos hzero]
    simp

/-- The option behind `-X` is its argument. -/
theorem mem_tail_lastFlags_iff {shell : Shell} :
    'D' ∈ (lastFlags shell).tail ↔ isZero (shell .allowDebugEnclave) = true ∧
      (isNonzero (shell .debug) = true ∨ isNonzero (shell .verbose) = true ∨
        isNonzero (shell .queryIasProduction) = true) := by
  unfold lastFlags flagFor
  cases isNonzero (shell .debug) <;> cases isNonzero (shell .verbose) <;>
    cases isNonzero (shell .queryIasProduction) <;> cases isZero (shell .allowDebugEnclave) <;>
    decide

/-- The options that `getopt_long` finds in flags. -/
theorem opts_scan_flags {flags : List Char}
    (hflags : ∀ c ∈ flags, c ∈ ['l', 'd', 'v', 'P', 'D']) (words : List Bytes) :
    (spOptions.scan none (flags.map word ++ words)).opts =
      flags.map (Opt.found · none) ++ (spOptions.scan none words).opts := by
  rw [OptionTable.scan_flags fun c hc => known_flags c (hflags c hc)]
  rfl

/-- The flags of `run-server`, if `getopt_long` has no objection. -/
theorem scan_serverFlags {shell : Shell} {opts : List Opt}
    (hopts : (spOptions.scan none ((flagFor shell .linkable 'l' ++
      flagFor shell .policyStrictTrust 'X' ++ lastFlags shell).map word)).opts = opts)
    (hvalid : Opt.invalid ∉ opts) : Rejecting (RejectsDebug shell) opts := by
  have hlinkable : ∀ c ∈ flagFor shell .linkable 'l', c ∈ ['l', 'd', 'v', 'P', 'D'] := by
    intro c hc
    rw [mem_flagFor hc]
    decide
  have hquiet : 'D' ∉ flagFor shell .linkable 'l' := fun hmem =>
    absurd (mem_flagFor hmem) (by decide)
  rw [List.map_append, List.map_append, List.append_assoc, opts_scan_flags hlinkable] at hopts
  by_cases hstrict : isNonzero (shell .policyStrictTrust) = true
  · have hX : flagFor shell .policyStrictTrust 'X' = ['X'] := if_pos hstrict
    have hiff : 'D' ∈ flagFor shell .linkable 'l' ∨ False ∨ 'D' ∈ (lastFlags shell).tail ↔
        RejectsDebug shell := by
      rw [mem_tail_lastFlags_iff]
      simp [RejectsDebug, hquiet, hstrict]
    have hknown := mem_lastFlags shell
    refine Rejecting.congr ?_ hiff
    rw [hX, List.map_singleton, List.singleton_append] at hopts
    generalize lastFlags shell = last at hopts hknown ⊢
    cases last with
    | nil =>
        -- No word is left for `-X`.
        rw [List.map_nil, OptionTable.scan_missing strictTrust_argument.1 strictTrust_argument.2]
          at hopts
        exact absurd (by simp [← hopts]) hvalid
    | cons c last =>
        obtain ⟨_, hlast⟩ := List.forall_mem_cons.mp hknown
        have hscan : (spOptions.scan none (word 'X' :: (c :: last).map word)).opts =
            [.found 'X' (some (word c))] ++ last.map (Opt.found · none) := by
          rw [List.map_cons,
            OptionTable.scan_argument strictTrust_argument.1 strictTrust_argument.2,
            Scanned.opts_after, ← List.append_nil (last.map word),
            opts_scan_flags hlast]
          simp [OptionTable.scan]
        rw [hscan] at hopts
        subst hopts
        refine (rejecting_flags hlinkable).append (Rejecting.append ?_ (rejecting_flags hlast))
        exact rejecting_singleton (by simp [Opt.Neutral, Opt.is]) (by simp [Opt.is])
  · have hnone : flagFor shell .policyStrictTrust 'X' = [] := if_neg hstrict
    have hiff : 'D' ∈ flagFor shell .linkable 'l' ∨ 'D' ∈ lastFlags shell ↔
        RejectsDebug shell := by
      rw [mem_lastFlags_iff]
      simp [RejectsDebug, hquiet, hstrict]
    rw [hnone, List.map_nil, List.nil_append, ← List.append_nil ((lastFlags shell).map word),
      opts_scan_flags (mem_lastFlags shell)] at hopts
    rw [OptionTable.scan, List.append_nil] at hopts
    subst hopts
    have hlast := rejecting_flags (mem_lastFlags shell)
    exact ((rejecting_flags hlinkable).append hlast).congr hiff

/-! ## The server -/

/-- The arguments of the server, up to its flags. -/
theorem scan_runServer {glob : Bytes → List Bytes} {settings : Shell}
    (hvalid : ValidSettings glob settings) (policy : PolicyFile) :
    ∃ proxy flags,
      (spOptions.scan none (runServer glob (policy.source settings) [])).opts =
        [.found 's' (some (settings .spid)),
          .found 'i' (some (settings .iasPrimarySubscriptionKey)),
          .found 'j' (some (settings .iasSecondarySubscriptionKey)),
          .found 'A' (some (settings .iasReportSigningCaFile))] ++
        .found 'N' (some policy.mrsigner) :: .found 'V' (some policy.minIsvsvn) ::
          .found 'R' (some policy.prodid) :: (proxy ++ flags) ∧
      Rejecting False proxy ∧ (Opt.invalid ∉ flags → Rejecting (RejectsDebug settings) flags) := by
  have hshort : ∀ c ∈ ['s', 'i', 'j', 'A', 'N', 'V', 'R'],
      OptionTable.IsShort c ∧ spOptions.shortArgument c = some true :=
    List.all_iff_forall_prop.mp (by decide)
  have hargument : ∀ c ∈ ['s', 'i', 'j', 'A', 'N', 'V', 'R'], ∀ arg words,
      spOptions.scan none (word c :: arg :: words) =
        (spOptions.scan none words).after [.found c (some arg)] := fun c hc arg words =>
    OptionTable.scan_argument (hshort c hc).1 (hshort c hc).2 arg words
  have hurl : unquoted glob (ascii "--proxy=" ++ policy.source settings .iasProxyUrl) =
      [ascii "--proxy=" ++ policy.source settings .iasProxyUrl] := hvalid.proxy
  obtain ⟨proxy, hproxy, hquiet⟩ := scan_proxyWords hurl
    ((flagFor (policy.source settings) .linkable 'l' ++
      flagFor (policy.source settings) .policyStrictTrust 'X' ++
      lastFlags (policy.source settings)).map word)
  refine ⟨proxy, _, ?_, hquiet, fun hflags => scan_serverFlags rfl hflags⟩
  have hspid : unquoted glob (policy.source settings .spid) = [settings .spid] := hvalid.spid
  have hprimary : unquoted glob (policy.source settings .iasPrimarySubscriptionKey) =
      [settings .iasPrimarySubscriptionKey] := hvalid.primary
  have hsecondary : unquoted glob (policy.source settings .iasSecondarySubscriptionKey) =
      [settings .iasSecondarySubscriptionKey] := hvalid.secondary
  have hsigner : unquoted glob (policy.source settings .mrsigner) = [policy.mrsigner] :=
    policy.unquoted_mrsigner glob
  have hversion : unquoted glob (policy.source settings .minIsvsvn) = [policy.minIsvsvn] :=
    policy.minIsvsvn_number.unquoted glob
  have hproduct : unquoted glob (policy.source settings .prodid) = [policy.prodid] :=
    policy.prodid_number.unquoted glob
  unfold runServer
  rw [hspid, hprimary, hsecondary, hsigner, hversion, hproduct]
  simp only [List.cons_append, List.nil_append, List.append_nil]
  rw [hargument 's' (by decide), hargument 'i' (by decide), hargument 'j' (by decide),
    hargument 'A' (by decide), hargument 'N' (by decide), hargument 'V' (by decide),
    hargument 'R' (by decide), hproxy]
  rfl

/-- `main` reaches its server loop only with a configuration that its options leave behind. -/
theorem startSp_eq_some {sys : Sys} {host : Host sys.Pkey} {arguments : List Bytes}
    {config : Config sys} (hstart : startSp host arguments = some config) :
    ∃ state servicePrivateKey,
      (spOptions.scan none arguments).opts.foldlM (applyOption host) .start = some state ∧
        config = state.config servicePrivateKey := by
  unfold startSp at hstart
  obtain ⟨state, hrun, hstart⟩ := Option.bind_eq_some_iff.mp hstart
  rw [Option.ite_none_left_eq_some, Option.ite_none_left_eq_some] at hstart
  obtain ⟨key, _, hstart⟩ := Option.bind_eq_some_iff.mp hstart.2.2
  rw [Option.ite_none_left_eq_some, Option.ite_none_right_eq_some] at hstart
  exact ⟨state, key, hrun, (Option.some.inj hstart.2.2).symm⟩

/-- What the server checks is the policy, except for the debug attribute. -/
structure ServerChecks {sys : Sys} (policy : PolicyFile) (settings : Shell) (config : Config sys) :
    Prop where
  mrSigner : config.reqMrSigner.bytes = hexPairs policy.mrsigner
  isvProdId : config.reqIsvProductId.toNat = digitsValue policy.prodid
  isvSvn : config.minIsvsvn.toNat = digitsValue policy.minIsvsvn
  debug : config.allowDebugEnclave = false ↔ RejectsDebug settings

theorem serverChecks_of_start {sys : Sys} {host : Host sys.Pkey} {glob : Bytes → List Bytes}
    {settings : Shell} {policy : PolicyFile} {config : Config sys}
    (hvalid : ValidSettings glob settings)
    (hstart : startServer host glob settings policy = some config) :
    ServerChecks policy settings config := by
  obtain ⟨state, key, hrun, rfl⟩ := startSp_eq_some hstart
  obtain ⟨proxy, flags, hopts, hproxy, hflags⟩ := scan_runServer hvalid policy
  obtain ⟨signer, hsigner, hbytes⟩ := policy.parse_mrsigner host
  rw [hopts, List.foldlM_append] at hrun
  obtain ⟨first, hfirst, hrun⟩ := Option.bind_eq_some_iff.mp hrun
  have hkept := foldlM_kept hfirst (by simp [Opt.Neutral, Opt.is])
  have hN : applyOption host first (.found 'N' (some policy.mrsigner)) = some { first with
      reqMrSigner := signer
      flagMrSigner := first.flagMrSigner + 1 } := by
    simp [applyOption, hsigner]
  have hV : ∀ next, applyOption host next (.found 'V' (some policy.minIsvsvn)) = some { next with
      minIsvsvn := UInt16.ofNat (digitsValue policy.minIsvsvn)
      flagMinIsvsvn := next.flagMinIsvsvn + 1 } := by
    intro next
    simp [applyOption, policy.minIsvsvn_number.parse]
  have hR : ∀ next, applyOption host next (.found 'R' (some policy.prodid)) = some { next with
      reqIsvProductId := UInt16.ofNat (digitsValue policy.prodid)
      flagIsvProductId := next.flagIsvProductId + 1 } := by
    intro next
    simp [applyOption, policy.prodid_number.parse]
  rw [List.foldlM_cons, hN, Option.bind_eq_bind, Option.bind_some, List.foldlM_cons, hV,
    Option.bind_eq_bind, Option.bind_some, List.foldlM_cons, hR, Option.bind_eq_bind,
    Option.bind_some] at hrun
  have hinvalid := invalid_notMem_of_foldlM hrun
  rw [List.mem_append, not_or] at hinvalid
  have hreject := hproxy.append (hflags hinvalid.2)
  have hrest := foldlM_kept hrun hreject.neutral
  have hproduct := policy.prodid_number.value_le
  have hversion := policy.minIsvsvn_number.value_le
  have hallow : first.allowDebugEnclave = true := by
    rw [hkept.allowDebugEnclave]
    simp [SpState.start, Opt.is]
  have hdebug := hrest.allowDebugEnclave
  dsimp only at hdebug
  refine ⟨?_, ?_, ?_, ?_⟩
  · exact (congrArg Block.bytes hrest.reqMrSigner).trans hbytes
  · refine (congrArg UInt16.toNat hrest.reqIsvProductId).trans ?_
    exact UInt16.toNat_ofNat_of_lt' (by simp [UInt16.size]; omega)
  · refine (congrArg UInt16.toNat hrest.minIsvsvn).trans ?_
    exact UInt16.toNat_ofNat_of_lt' (by simp [UInt16.size]; omega)
  · rw [SpState.config, hdebug, hallow, Bool.true_and, Bool.not_eq_false', hreject.debug,
      false_or]

/-! ## The policy is enforced -/

/-- What the check accepts, in the words of the policy. -/
theorem verifyEnclaveIdentity_server {sys : Sys} {policy : PolicyFile} {settings : Shell}
    {config : Config sys} (hchecks : ServerChecks policy settings config) (report : ReportBody) :
    verifyEnclaveIdentity config.reqMrSigner config.reqIsvProductId config.minIsvsvn
        config.allowDebugEnclave report = true ↔
      policy.Names report ∧
        (report.attributesFlags &&& sgxFlagsDebug = 0 ∨ ¬ RejectsDebug settings) := by
  rw [verifyEnclaveIdentity_iff]
  constructor
  · intro hallowed
    refine ⟨⟨?_, ?_, ?_⟩, ?_⟩
    · rw [hallowed.mrSigner, hchecks.mrSigner]
    · rw [hallowed.isvProdId, hchecks.isvProdId]
    · rw [← hchecks.isvSvn]
      exact UInt16.le_iff_toNat_le.mp hallowed.isvSvn
    · rw [← hchecks.debug, Bool.not_eq_false]
      exact hallowed.debug.symm
  · rintro ⟨hnames, hdebug⟩
    rw [← hchecks.debug, Bool.not_eq_false] at hdebug
    refine ⟨hdebug.symm, ?_, ?_, ?_⟩
    · exact UInt16.toNat_inj.mp (hnames.isvProdId.trans hchecks.isvProdId.symm)
    · rw [UInt16.le_iff_toNat_le, hchecks.isvSvn]
      exact hnames.isvSvn
    · exact Block.ext (hnames.mrSigner.trans hchecks.mrSigner.symm)

/-- The server enforces its policy on a report, unless the policy names the enclave, the
enclave has the debug attribute, and the settings differ from the policy on it. -/
theorem policy_enforced_iff (sys : Sys) (host : Host sys.Pkey) (glob : Bytes → List Bytes)
    (settings : Shell) (policy : PolicyFile) (config : Config sys)
    (hvalid : ValidSettings glob settings)
    (hstart : startServer host glob settings policy = some config) (report : ReportBody) :
    (verifyEnclaveIdentity config.reqMrSigner config.reqIsvProductId config.minIsvsvn
        config.allowDebugEnclave report = true ↔ policy.Admits report) ↔
      ¬ policy.Names report ∨ report.attributesFlags &&& sgxFlagsDebug = 0 ∨
        (policy.allowDebug = false ↔ RejectsDebug settings) := by
  have hverify := verifyEnclaveIdentity_server (serverChecks_of_start hvalid hstart) report
  have hadmits : policy.Admits report ↔ policy.Names report ∧
      (report.attributesFlags &&& sgxFlagsDebug = 0 ∨ policy.allowDebug = true) :=
    ⟨fun h => ⟨h.names, h.debug⟩, fun h => ⟨h.1, h.2⟩⟩
  rw [hverify, hadmits]
  by_cases hnames : policy.Names report
  · by_cases hattribute : report.attributesFlags &&& sgxFlagsDebug = 0
    · simp [hnames, hattribute]
    · cases hallow : policy.allowDebug with
      | false => simp [hnames, hattribute]
      | true => simp [hnames, hattribute]
  · simp [hnames]

/-! ## The settings as they are delivered -/

/-- The file `service-provider/settings`. -/
def deliveredSettings : Shell
  | .queryIasProduction => ascii "0"
  | .spid => ascii "0022D2FDB795091CD2EF68DC03A73781"
  | .linkable => ascii "1"
  | .iasPrimarySubscriptionKey => ascii "a6ecbf98e6214bfa9d84a7a5d7021c25"
  | .iasSecondarySubscriptionKey => ascii "d9a6eb185b534cca9461392b42e39b62"
  | .iasReportSigningCaFile => ascii "./service-provider/Intel_SGX_Attestation_RootCA.pem"
  | .verbose => ascii "1"
  | .debug => ascii "1"
  | _ => []

theorem deliveredSettings_valid (glob : Bytes → List Bytes) :
    ValidSettings glob deliveredSettings where
  spid := unquoted_eq_self glob (by decide) (by decide +kernel)
  primary := unquoted_eq_self glob (by decide) (by decide +kernel)
  secondary := unquoted_eq_self glob (by decide) (by decide +kernel)
  proxy := unquoted_eq_self glob (by decide) (by decide +kernel)

/-- `policy.in` for a signer whose hash is zero. -/
def PolicyFile.ofAllowDebug (allowDebug : Bool) : PolicyFile where
  mrsigner := List.replicate 64 48
  prodid := ascii "0"
  minIsvsvn := ascii "1"
  allowDebug
  length_mrsigner := rfl
  mrsigner_digits := List.all_eq_true.mp (by decide)
  prodid_number := ⟨by decide, List.all_eq_true.mp (by decide), by decide⟩
  minIsvsvn_number := ⟨by decide, List.all_eq_true.mp (by decide), by decide⟩

/-- A host on which the certificate and the built-in key can be loaded. -/
def Host.plain {κ : Type} (servicePrivateKey : κ) : Host κ where
  loadSigningCa _ := some []
  subscriptionKeyFile _ := none
  keyLoadFile _ := none
  keyLoad _ := none
  keyPrivateFromBytes := some servicePrivateKey
  fromHexstringFile _ := none
  getProxy _ := none
  strdup _ := true
  stale _ := 0
  behind _ := []
  initialises _ := true

/-- The report of a debug enclave that the policy names. -/
def debugReport : ReportBody where
  attributesFlags := 7
  mrSigner := .zero 32
  isvProdId := 0
  isvSvn := 1
  reportData := .zero 64

/-- A server without an attestation service, started with these settings. -/
def deliveredServer (allowDebug : Bool) : Option (Config (.working .zero fun _ => none)) :=
  startServer (.plain ()) (fun word => [word]) deliveredSettings (.ofAllowDebug allowDebug)

theorem deliveredServer_starts (allowDebug : Bool) :
    ∃ config, deliveredServer allowDebug = some config := by
  refine Option.isSome_iff_exists.mp ?_
  revert allowDebug
  decide +kernel

/-- With `ALLOW_DEBUG=1` the policy is enforced. -/
theorem policy_enforced_debug :
    ∃ config, deliveredServer true = some config ∧
      (verifyEnclaveIdentity config.reqMrSigner config.reqIsvProductId config.minIsvsvn
          config.allowDebugEnclave debugReport = true ↔
        (PolicyFile.ofAllowDebug true).Admits debugReport) := by
  obtain ⟨config, hstart⟩ := deliveredServer_starts true
  have hreject : ¬ RejectsDebug deliveredSettings := by decide
  exact ⟨config, hstart, (policy_enforced_iff _ _ _ _ _ config (deliveredSettings_valid _) hstart
    debugReport).mpr (.inr (.inr (iff_of_false (by decide) hreject)))⟩

/-- With `ALLOW_DEBUG=0` a debug enclave is accepted all the same. -/
theorem debug_enclave_accepted :
    ∃ config, deliveredServer false = some config ∧
      verifyEnclaveIdentity config.reqMrSigner config.reqIsvProductId config.minIsvsvn
        config.allowDebugEnclave debugReport = true ∧
      ¬ (PolicyFile.ofAllowDebug false).Admits debugReport := by
  obtain ⟨config, hstart⟩ := deliveredServer_starts false
  have hchecks := serverChecks_of_start (deliveredSettings_valid _) hstart
  have hnames : (PolicyFile.ofAllowDebug false).Names debugReport :=
    ⟨by decide, by decide, by decide⟩
  have hreject : ¬ RejectsDebug deliveredSettings := by decide
  refine ⟨config, hstart, (verifyEnclaveIdentity_server hchecks _).mpr ⟨hnames, .inr hreject⟩, ?_⟩
  rintro ⟨_, hdebug⟩
  exact absurd hdebug (by decide)

end RemoteAttestation
