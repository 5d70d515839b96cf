import RemoteAttestation.Foundation.Getopt
import RemoteAttestation.ServiceProvider.Handlers

/-! # The command line of the service provider

The loop of `main` over `getopt_long`, and the checks behind it. Files, keys and proxy URLs are
looked up in a `Host`. An early `return` and `usage()` both end the process.
-/

namespace RemoteAttestation

/-! ## Options -/

/-- The short and long options of `main`. -/
def spOptions : OptionTable where
  optstring := "A:B:DGI:J:K:N:PR:S:V:X:dg:hk:lp:r:s:i:j:vxz".toList
  longOptions :=
    [⟨ascii "ias-signing-cafile", true, 'A'⟩, ⟨ascii "ca-bundle", true, 'B'⟩,
      ⟨ascii "no-debug-enclave", false, 'D'⟩, ⟨ascii "list-agents", false, 'G'⟩,
      ⟨ascii "ias-pri-api-key-file", true, 'I'⟩, ⟨ascii "ias-sec-api-key-file", true, 'J'⟩,
      ⟨ascii "service-key-file", true, 'K'⟩, ⟨ascii "mrsigner", true, 'N'⟩,
      ⟨ascii "production", false, 'P'⟩, ⟨ascii "isv-product-id", true, 'R'⟩,
      ⟨ascii "spid-file", true, 'S'⟩, ⟨ascii "min-isv-svn", true, 'V'⟩,
      ⟨ascii "strict-trust-mode", false, 'X'⟩, ⟨ascii "debug", false, 'd'⟩,
      ⟨ascii "user-agent", true, 'g'⟩, ⟨ascii "help", false, 'h'⟩,
      ⟨ascii "ias-pri-api-key", true, 'i'⟩, ⟨ascii "ias-sec-api-key", true, 'j'⟩,
      ⟨ascii "key", true, 'k'⟩, ⟨ascii "linkable", false, 'l'⟩, ⟨ascii "proxy", true, 'p'⟩,
      ⟨ascii "api-version", true, 'r'⟩, ⟨ascii "spid", true, 's'⟩, ⟨ascii "verbose", false, 'v'⟩,
      ⟨ascii "no-proxy", false, 'x'⟩, ⟨ascii "stdio", false, 'z'⟩]

/-- What the options refer to. -/
structure Host (κ : Type) where
  /-- `cert_load_file` and `cert_init_ca`: the certificate. -/
  loadSigningCa : Bytes → Option Bytes
  /-- The 32 bytes of a key file of 33. -/
  subscriptionKeyFile : Bytes → Option (Block 32)
  keyLoadFile : Bytes → Option κ
  keyLoad : Bytes → Option κ
  keyPrivateFromBytes : Option κ
  fromHexstringFile : Bytes → Option (Block 16)
  getProxy : Bytes → Option (Bytes × Nat)
  strdup : Bytes → Bool
  /-- The unset variable of `fromHexstring`. -/
  stale : Nat → UInt8
  /-- What lies in memory behind the terminator of an argument. -/
  behind : Bytes → Bytes
  /-- Whether the agent is known, and the connection and the transport can be made. -/
  initialises : Option Bytes → Bool

/-- The variables of `main` and its `config`. The counters are of type `char`. -/
structure SpState (κ : Type) where
  flagSpid : UInt8
  flagCa : UInt8
  flagIsvProductId : UInt8
  flagMinIsvsvn : UInt8
  flagMrSigner : UInt8
  flagNoproxy : Bool
  flagProd : Bool
  flagStdio : Bool
  verbose : Bool
  debug : Bool
  spid : Block 16
  priSubscriptionKey : Block 32
  secSubscriptionKey : Block 32
  quoteType : UInt16
  servicePrivateKey : Option κ
  signingCa : Option Bytes
  proxy : Option (Bytes × Nat)
  caBundle : Option Bytes
  userAgent : Option Bytes
  apiver : Nat
  apiver_supported : apiver = 3 ∨ apiver = 4
  strictTrust : Bool
  reqMrSigner : Block 32
  reqIsvProductId : UInt16
  minIsvsvn : UInt16
  allowDebugEnclave : Bool

section

variable {κ : Type}

/-- The defaults. -/
def SpState.start : SpState κ where
  flagSpid := 0
  flagCa := 0
  flagIsvProductId := 0
  flagMinIsvsvn := 0
  flagMrSigner := 0
  flagNoproxy := false
  flagProd := false
  flagStdio := false
  verbose := false
  debug := false
  spid := .zero 16
  priSubscriptionKey := .zero 32
  secSubscriptionKey := .zero 32
  quoteType := 0
  servicePrivateKey := none
  signingCa := none
  proxy := none
  caBundle := none
  userAgent := none
  apiver := 4
  apiver_supported := defaultApiver_supported
  strictTrust := false
  reqMrSigner := .zero 32
  reqIsvProductId := 0
  minIsvsvn := 0
  allowDebugEnclave := true

/-- A number of 16 bits with nothing behind it. -/
def parseUInt16 (optarg : Bytes) : Option UInt16 :=
  let (val, eptr) := strtoul optarg
  if eptr ≠ [] ∨ 0xFFFF < val then none else some (UInt16.ofNat val)

/-- A hexadecimal argument of `len` bytes. -/
def parseHex (host : Host κ) (optarg : Bytes) (len : Nat) : Option (Block len) :=
  match fromHexstring host.stale (optarg ++ 0 :: host.behind optarg) len with
  | (false, _) => none
  | (true, stored) => some (.overlay len stored)

/-- A subscription key on the command line. -/
def parseKey (optarg : Bytes) : Option (Block 32) :=
  if h : optarg.length = 32 then some ⟨optarg, h⟩ else none

/-- One turn of the loop: the `switch` over the option. -/
def applyOption (host : Host κ) (state : SpState κ) : Opt → Option (SpState κ)
  | .invalid => none
  | .found val optarg =>
      let optarg := optarg.getD []
      match val with
      | 'A' => do
          return { state with
            signingCa := some (← host.loadSigningCa optarg)
            flagCa := state.flagCa + 1 }
      | 'B' => if host.strdup optarg then some { state with caBundle := some optarg } else none
      | 'D' => some { state with allowDebugEnclave := false }
      | 'G' => none
      | 'I' => do return { state with priSubscriptionKey := ← host.subscriptionKeyFile optarg }
      | 'J' => do return { state with secSubscriptionKey := ← host.subscriptionKeyFile optarg }
      | 'K' => do return { state with servicePrivateKey := some (← host.keyLoadFile optarg) }
      | 'N' => do
          return { state with
            reqMrSigner := ← parseHex host optarg 32
            flagMrSigner := state.flagMrSigner + 1 }
      | 'P' => some { state with flagProd := true }
      | 'R' => do
          return { state with
            reqIsvProductId := ← parseUInt16 optarg
            flagIsvProductId := state.flagIsvProductId + 1 }
      | 'S' => do
          return { state with
            spid := ← host.fromHexstringFile optarg
            flagSpid := state.flagSpid + 1 }
      | 'V' => do
          return { state with
            minIsvsvn := ← parseUInt16 optarg
            flagMinIsvsvn := state.flagMinIsvsvn + 1 }
      | 'X' => some { state with strictTrust := true }
      | 'd' => some { state with debug := true }
      | 'g' => if host.strdup optarg then some { state with userAgent := some optarg } else none
      | 'i' => do return { state with priSubscriptionKey := ← parseKey optarg }
      | 'j' => do return { state with secSubscriptionKey := ← parseKey optarg }
      | 'k' => do return { state with servicePrivateKey := some (← host.keyLoad optarg) }
      | 'l' => some { state with quoteType := 1 }
      | 'p' =>
          if state.flagNoproxy then none
          else do return { state with proxy := some (← host.getProxy optarg) }
      | 'r' =>
          if hversion : atoi optarg = 3 ∨ atoi optarg = 4 then
            some { state with apiver := atoi optarg, apiver_supported := hversion }
          else none
      | 's' =>
          if optarg.length < 32 then none
          else do
            return { state with
              spid := ← parseHex host optarg 16
              flagSpid := state.flagSpid + 1 }
      | 'v' => some { state with verbose := true }
      | 'x' => if state.proxy.isSome then none else some { state with flagNoproxy := true }
      | 'z' => some { state with flagStdio := true }
      | _ => none

end

/-- `config` as the sessions of the server see it. -/
def SpState.config {sys : Sys} (state : SpState sys.Pkey) (servicePrivateKey : sys.Pkey) :
    Config sys :=
  { spid := state.spid
    quoteType := state.quoteType
    servicePrivateKey
    apiver := state.apiver
    apiver_supported := state.apiver_supported
    strictTrust := state.strictTrust
    reqMrSigner := state.reqMrSigner
    reqIsvProductId := state.reqIsvProductId
    minIsvsvn := state.minIsvsvn
    allowDebugEnclave := state.allowDebugEnclave
    verbose := state.verbose }

/-- `main` up to its server loop. At most one operand may be left, the port. -/
def startSp {sys : Sys} (host : Host sys.Pkey) (arguments : List Bytes) : Option (Config sys) := do
  let scanned := spOptions.scan none arguments
  let state ← scanned.opts.foldlM (applyOption host) .start
  if 1 < scanned.operands.length then none
  else if state.flagStdio ∧ scanned.operands ≠ [] then none
  else
    let servicePrivateKey ← state.servicePrivateKey.or host.keyPrivateFromBytes
    if state.flagSpid = 0 ∨ state.flagCa = 0 ∨ state.flagIsvProductId = 0 ∨
      state.flagMinIsvsvn = 0 ∨ state.flagMrSigner = 0
    then none
    else if host.initialises state.userAgent then some (state.config servicePrivateKey)
    else none

end RemoteAttestation
