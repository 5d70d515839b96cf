import RemoteAttestation.ServiceProvider.System

/-! # Requests to the attestation service

`IAS_Request::sigrl` and `IAS_Request::report`. What happens to a report after it
was received is a function of the response alone, given the answers of the
certificate and digest functions.
-/

namespace RemoteAttestation

/-! ## Status codes -/

def iasQueryFailed : Nat := 0

def iasOk : Nat := 200

def iasUnauthorized : Nat := 401

def iasInternalError : Nat := 1000

def iasBadCertificate : Nat := 1001

def iasBadSignature : Nat := 1002

/-! ## Headers -/

def toUpper (c : UInt8) : UInt8 := if 97 ≤ c && c ≤ 122 then c - 32 else c

/-- `headers_as_string`: the value of every header of that name, each with a newline. -/
def Response.headersAsString (response : Response) (name : Bytes) : Bytes :=
  response.headers.flatMap fun header =>
    if header.1.map toUpper = name.map toUpper then header.2 ++ [10] else []

/-- `strtoul(text, &e, 16)` of at most two characters, when it stops at the
terminator. The empty text is zero. -/
def strtoul16 (text : Bytes) : Option UInt8 :=
  let body := text.dropWhile isSpace
  let negative := body.head? = some 45
  let digits := if body.head? = some 43 ∨ negative then body.tail else body
  if text = [] then some 0
  else if digits = [] then none
  else
    (digits.mapM hexValue?).map fun values =>
      let value := values.foldl (fun v digit => 16 * v + digit) 0
      if negative then -value else value

def urlDecode : Bytes → Option Bytes
  | [] => some []
  | c :: rest =>
      if c = 43 then (urlDecode rest).map (32 :: ·)
      else if c = 37 then
        match rest with
        | high :: low :: rest =>
            match strtoul16 (cstr [high, low]) with
            | none => none
            | some v => (urlDecode rest).map (v :: ·)
        | _ => none
      else (urlDecode rest).map (c :: ·)

/-! ## Connection -/

/-- `IAS_SUBSCRIPTION_KEY_SIZE`. -/
def iasSubscriptionKeySize : Nat := 32

/-- What `setSubscriptionKey` stores and leaves: the masked key, the pad, and the buffer of
the plain text, if there is one. -/
structure StoredKey where
  rv : Bool
  enc : Block 32
  xor : Block 32
  plainText : Option Bytes

/-- `setSubscriptionKey`. `pad` is what `RAND_bytes` leaves in its array. -/
def setSubscriptionKey (pad : Block 32) : Option Bytes → StoredKey
  | none => ⟨false, .zero 32, .zero 32, none⟩
  | some plainText =>
      if hlength : (cstr plainText).length = iasSubscriptionKeySize then
        { rv := true
          enc := ⟨List.zipWith (· ^^^ ·) (cstr plainText) pad.bytes, by
            simp [hlength, iasSubscriptionKeySize]⟩
          xor := pad
          plainText := some
            (List.replicate iasSubscriptionKeySize 0 ++ plainText.drop iasSubscriptionKeySize) }
      else ⟨false, .zero 32, .zero 32, some plainText⟩

/-- The constructor, with what it leaves of the two buffers it was given. -/
def IasConnection.create {sys : Sys} (server : Bytes) (pad : SubscriptionKeyID → Block 32)
    (plainText : SubscriptionKeyID → Option Bytes) :
    IasConnection sys × (SubscriptionKeyID → Option Bytes) :=
  ({ server
     store := none
     subscriptionKeyEnc := fun id => (setSubscriptionKey (pad id) (plainText id)).enc
     subscriptionKeyXor := fun id => (setSubscriptionKey (pad id) (plainText id)).xor
     currentKeyID := .primary },
    fun id => (setSubscriptionKey (pad id) (plainText id)).plainText)

/-- The stored key is a C string once the pad is taken off. -/
def IasConnection.getSubscriptionKey {sys : Sys} (ias : IasConnection sys) : Bytes :=
  cstr (List.zipWith (· ^^^ ·) (ias.subscriptionKeyEnc ias.currentKeyID).bytes
    (ias.subscriptionKeyXor ias.currentKeyID).bytes)

/-- `base_url`, for the default port. -/
def IasConnection.baseUrl {sys : Sys} (ias : IasConnection sys) : Bytes :=
  ascii "https://" ++ ias.server ++ ascii "/attestation/v"

def decimal (n : Nat) : Bytes := (Nat.toDigits 10 n).map fun c => UInt8.ofNat c.toNat

theorem decimal_ne_nil (n : Nat) : decimal n ≠ [] :=
  fun h => Nat.toDigits_ne_nil (List.map_eq_nil_iff.mp h)

theorem decimal_isDigit (n : Nat) : ∀ c ∈ decimal n, isDigit c = true := by
  intro c hc
  obtain ⟨digit, hdigit, rfl⟩ := List.mem_map.mp hc
  have hrange := Nat.isDigit_of_mem_toDigits (by decide) (by decide) hdigit
  rw [Char.isDigit, Bool.and_eq_true, decide_eq_true_eq, decide_eq_true_eq] at hrange
  have hlow : 48 ≤ digit.toNat := hrange.1
  have hhigh : digit.toNat ≤ 57 := hrange.2
  have hvalue : (UInt8.ofNat digit.toNat).toNat = digit.toNat :=
    UInt8.toNat_ofNat_of_lt (Nat.lt_of_le_of_lt hhigh (by decide))
  rw [isDigit, Bool.and_eq_true, decide_eq_true_eq, decide_eq_true_eq, UInt8.le_iff_toNat_le,
    UInt8.le_iff_toNat_le, hvalue]
  exact ⟨hlow, hhigh⟩

/-- The digits of a number have its value. -/
theorem digitsValue_decimal (n : Nat) : digitsValue (decimal n) = n := by
  have hvalue : ∀ digits : List Char, (∀ c ∈ digits, c.isDigit = true) → ∀ init,
      (digits.map fun c => UInt8.ofNat c.toNat).foldl
          (fun value c => 10 * value + (c.toNat - 48)) init =
        Nat.ofDigitChars 10 digits init := by
    intro digits hdigits
    induction digits with
    | nil => exact fun init => Nat.ofDigitChars_nil.symm
    | cons c digits ih =>
        intro init
        rw [List.forall_mem_cons, Char.isDigit, Bool.and_eq_true, decide_eq_true_eq,
          decide_eq_true_eq] at hdigits
        have hhigh : c.toNat ≤ 57 := hdigits.1.2
        have hc : (UInt8.ofNat c.toNat).toNat = c.toNat :=
          UInt8.toNat_ofNat_of_lt (Nat.lt_of_le_of_lt hhigh (by decide))
        rw [List.map_cons, List.foldl_cons, ih hdigits.2, Nat.ofDigitChars_cons, hc]
        rfl
  have hdigits : ∀ c ∈ Nat.toDigits 10 n, c.isDigit = true := fun c hc =>
    Nat.isDigit_of_mem_toDigits (by decide) (by decide) hc
  rw [digitsValue, decimal, hvalue _ hdigits, Nat.ofDigitChars_ten_toDigits]

/-! ## Certificates -/

/-- A vector of certificates with at least one element: the signing certificate. -/
structure CertChain (α : Type) where
  signing : α
  others : List α

def CertChain.certs {α : Type} (chain : CertChain α) : List α := chain.signing :: chain.others

def certBegin : Bytes := ascii "-----BEGIN"

/-- The loop of `report` that loads the chain. `text` is the chain from `cstart` on,
and the pieces are numbered from `index` on. -/
def certLoop {α : Type} (load : Nat → Bytes → Option α) : Nat → Nat → Bytes → Option (CertChain α)
  | 0, _, _ => none
  | fuel + 1, index, text =>
      match find certBegin (text.drop 1) with
      | none => (load index (cstr text)).map fun cert => ⟨cert, []⟩
      | some cend =>
          match load index (cstr (text.take (cend + 1))) with
          | none => none
          | some cert =>
              (certLoop load fuel (index + 1) (text.drop (cend + 1))).map fun rest =>
                ⟨cert, rest.certs⟩

/-- `certar`: the certificates and a null pointer. -/
def certArray {α : Type} (certvec : List α) : List (Option α) := certvec.map some ++ [none]

/-- The loop of `cert_stack_build`, whose calls of `sk_X509_push` are numbered from `index` on.
The result of a call is not looked at. Without a null pointer the loop leaves the array. -/
def pushCerts {α : Type} (push : Nat → Bool) : Nat → List α → List (Option α) → Option (List α)
  | index, stack, some cert :: certs =>
      pushCerts push (index + 1) (if push index then stack ++ [cert] else stack) certs
  | _, stack, none :: _ => some stack
  | _, _, [] => none

section Verification

variable (sys : Sys) (t : Nat)

/-- `cert_stack_build`. -/
def certStackBuild (certs : List (Option sys.X509)) : Option (List sys.X509) :=
  if sys.skX509NewNull t then pushCerts (sys.skX509Push t) 0 [] certs else none

/-- `cert_verify`. The certificate to verify is the first of the stack, `NULL` if it is empty. -/
def certVerify (store : Option sys.X509Store) (chain : List sys.X509) : Bool :=
  if !sys.x509StoreCtxNew t then false
  else if sys.x509StoreCtxInit t store chain.head? chain ≠ 1 then false
  else sys.x509VerifyCert t store chain.head? chain = 1

/-- `sha256_verify` returns whether the signature is good; it does not touch `*result`. -/
def sha256Verify (msg sig : Bytes) (pkey : sys.Pkey) (result : Bool) : Bool × Bool :=
  if !sys.evpMdCtxNew t then (false, result)
  else if sys.evpDigestVerifyInit t pkey ≠ 1 then (false, result)
  else if sys.evpDigestVerifyUpdate t msg ≠ 1 then (false, result)
  else (sys.evpDigestVerifyFinal t pkey msg sig = 1, result)

/-- The result of `IAS_Request::report`, with the two strings it may fill. -/
structure Report where
  status : Nat
  content : Bytes
  messages : List Bytes
deriving DecidableEq

/-- `report` after the status code of the response was found to be `IAS_OK`. -/
def verifyResponse (store : Option sys.X509Store) (version : Nat) (response : Response) : Report :=
  let certchain := response.headersAsString (ascii "X-IASReport-Signing-Certificate")
  if certchain = [] then ⟨iasBadCertificate, [], []⟩
  else match urlDecode certchain with
  | none => ⟨iasBadCertificate, [], []⟩
  | some certchain =>
      match certLoop (sys.pemReadX509 t) (certchain.length + 1) 0 certchain with
      | none => ⟨iasBadCertificate, [], []⟩
      | some certvec =>
          if !sys.certarMalloc t then ⟨iasInternalError, [], []⟩
          else match certStackBuild sys t (certArray certvec.certs) with
          | none => ⟨iasInternalError, [], []⟩
          | some stack =>
              let rv := certVerify sys t store stack
              if !rv then ⟨iasBadCertificate, [], []⟩
              else
                let sigstr := response.headersAsString (ascii "X-IASReport-Signature")
                if sigstr = [] then ⟨iasBadSignature, [], []⟩
                else match sys.base64Decode t (cstr sigstr) with
                | none => ⟨iasBadSignature, [], []⟩
                | some sig =>
                    match sys.x509GetPubkey t certvec.signing with
                    | none => ⟨iasInternalError, [], []⟩
                    | some pkey =>
                        let content := response.content
                        let (verified, rv) := sha256Verify sys t content sig.bytes pkey rv
                        let status :=
                          if !verified then iasBadSignature
                          else if rv then iasOk else iasBadSignature
                        let messages :=
                          if version = 3 then
                            [ascii "Advisory-URL", ascii "Advisory-IDs"].map
                              response.headersAsString |>.filter (· ≠ [])
                          else []
                        ⟨status, content, messages⟩

end Verification

/-! ## Requests -/

variable {sys : Sys}

def connection : Proc (World sys) (IasConnection sys) := .step fun w => (w.ias, w)

@[simp] theorem connection_bind {β : Type} (f : IasConnection sys → Proc (World sys) β)
    (w : World sys) : (connection >>= f) w = f w.ias w := rfl

/-- The query for the revocation list of a group, whose number is written with eight
digits. -/
def IasConnection.sigrlRequest (ias : IasConnection sys) (version gid : Nat) : Request :=
  { url := ias.baseUrl ++ decimal version ++ ascii "/sigrl/" ++ hexstring (leBytes 4 gid).reverse
    body := []
    subscriptionKey := ias.getSubscriptionKey }

/-- `IAS_Request::sigrl`: the status, and the list when it is `IAS_OK`. -/
def sigrl (version gid : Nat) : Proc (World sys) (Nat × Bytes) := do
  let ias ← connection
  if !(← newAgent) then return (iasQueryFailed, [])
  else
    match ← agentRequest (ias.sigrlRequest version gid) with
    | none => return (iasQueryFailed, [])
    | some response =>
        return (response.statusCode, if response.statusCode = iasOk then response.content else [])

/-- The JSON text built from the payload. -/
def reportBody (payload : List (Bytes × Bytes)) : Bytes :=
  ascii "\x7b\n" ++
    [44, 10].intercalate (payload.map fun (name, value) =>
      [34] ++ name ++ ascii "\":\"" ++ value ++ [34]) ++
    ascii "\n\x7d"

def IasConnection.reportRequest (ias : IasConnection sys) (version : Nat)
    (payload : List (Bytes × Bytes)) : Request :=
  { url := ias.baseUrl ++ decimal version ++ ascii "/report"
    body := reportBody payload
    subscriptionKey := ias.getSubscriptionKey }

/-- `IAS_Request::report`. -/
def report (version : Nat) (payload : List (Bytes × Bytes)) : Proc (World sys) Report := do
  let ias ← connection
  if !(← newAgent) then return ⟨iasQueryFailed, [], []⟩
  else match ← agentRequest (ias.reportRequest version payload) with
    | none => return ⟨iasQueryFailed, [], []⟩
    | some response =>
        if response.statusCode ≠ iasOk then return ⟨response.statusCode, [], []⟩
        else call (fun t => verifyResponse sys t ias.store version response) fun _ => []

end RemoteAttestation
