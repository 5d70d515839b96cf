import RemoteAttestation.Crypto.OpenSsl

/-! # The wrappers of `crypto.c`

The functions on keys, secrets and signatures, call by call. What is only freed is left out,
and so are the objects that nothing but the library reads.
-/

namespace RemoteAttestation

namespace OpenSsl

variable (ossl : OpenSsl)

/-! ## Loading keys -/

def keyPublic : Int := 0

def keyPrivate : Int := 1

/-- The part of `key_load` for a private key, up to its public point: the EC key and the point,
unless there was a jump to `cleanup`. -/
def derivePoint (eckey : Option ossl.EcKey) (hexstring : Bytes) :
    Proc CryptoState (Bool × Option ossl.EcKey × Option ossl.EcPoint) := do
  let _ ← query ossl.bnCtxNew
  let (rv, gx) ← invoke (ossl.bnHex2bn · hexstring) fun answer => .nonzero answer.1
  if rv = 0 then failWith (eckey, none)
  else
    hand [gx]
    let (rv, eckey) ← invoke (ossl.ecKeySetPrivateKey · eckey gx) fun answer => .nonzero answer.1
    if rv = 0 then failWith (eckey, none)
    else
      let group ← query (ossl.ecKeyGet0Group · eckey)
      let pubpt ← invoke (ossl.ecPointNew · group) fun point => .pointer point.isNone
      if pubpt.isNone then failWith (eckey, none)
      else
        let (rv, pubpt) ← invoke (ossl.ecPointMul · group pubpt gx) fun answer =>
          .nonzero answer.1
        if rv = 0 then failWith (eckey, pubpt)
        else return (← cleanup, eckey, pubpt)

def loadPrivate (eckey : Option ossl.EcKey) (hexstring : Bytes) :
    Proc CryptoState (Bool × Option ossl.EcKey) := do
  let (derived, eckey, pubpt) ← ossl.derivePoint eckey hexstring
  if !derived then return (false, eckey)
  else
    let (rv, eckey) ← invoke (ossl.ecKeySetPublicKey · eckey pubpt) fun answer => .nonzero answer.1
    -- The point is freed twice.
    if rv = 0 then .die
    else return (true, eckey)

/-- The part of `key_load` for a public key. -/
def loadPublic (eckey : Option ossl.EcKey) (hexstring : Bytes) :
    Proc CryptoState (Bool × Option ossl.EcKey) := do
  let (rv, gx) ← invoke (ossl.bnHex2bn · (hexstring.take 64)) fun answer => .nonzero answer.1
  if rv = 0 then failWith eckey
  else
    let (rv, gy) ← invoke (ossl.bnHex2bn · (hexstring.drop 64)) fun answer => .nonzero answer.1
    if rv = 0 then failWith eckey
    else
      hand [gx, gy]
      let (rv, eckey) ← invoke (ossl.ecKeySetPublicKeyAffineCoordinates · eckey gx gy)
        fun answer => .nonzero answer.1
      if rv = 0 then failWith eckey
      else return (← cleanup, eckey)

/-- The end of `key_load`. -/
def storeKey (eckey : Option ossl.EcKey) : Proc CryptoState (Bool × Option ossl.Pkey) := do
  let pkey ← invoke ossl.evpPkeyNew fun pkey => .pointer pkey.isNone
  if pkey.isNone then failWith none
  else
    let (rv, pkey) ← invoke (ossl.evpPkeySet1EcKey · pkey eckey) fun answer => .nonzero answer.1
    if rv = 0 then failWith none
    else return (← cleanup, pkey)

/-- The number of characters that a key of some type has. -/
def reqlen (keytype : Int) : Option Nat :=
  if keytype = keyPrivate then some 64 else if keytype = keyPublic then some 128 else none

/-- `key_load`: the return value, and `*pkey` afterwards. -/
def keyLoad (pkey : Option ossl.Pkey) (hexstring : Option CString) (keytype : Int) :
    Proc CryptoState (Bool × Option ossl.Pkey) := do
  setError .none
  match hexstring with
  | none =>
      setError .api
      return (false, pkey)
  | some hexstring =>
      if reqlen keytype ≠ some hexstring.bytes.length then
        setError .api
        return (false, pkey)
      else
        let eckey ← invoke ossl.ecKeyNewByCurveName fun eckey => .pointer eckey.isNone
        if eckey.isNone then failWith pkey
        else
          let (loaded, eckey) ← if keytype = keyPrivate then ossl.loadPrivate eckey hexstring.bytes
            else ossl.loadPublic eckey hexstring.bytes
          if !loaded then return (false, pkey)
          else ossl.storeKey eckey

/-- `key_load_file`, with the content of the file if it can be opened. -/
def keyLoadFile (file : Option Bytes) (keytype : Int) :
    Proc CryptoState (Bool × Option ossl.Pkey) := do
  setError .none
  let key ← invoke ossl.evpPkeyNew fun key => .ignored key.isNone
  match file with
  | none =>
      setError .system
      return (false, key)
  | some content =>
      if keytype = keyPrivate then
        let read ← invoke (ossl.pemReadPrivateKey · content) fun key => .ignored key.isNone
        return (← cleanup, read <|> key)
      else if keytype = keyPublic then
        let read ← invoke (ossl.pemReadPubkey · content) fun key => .ignored key.isNone
        return (← cleanup, read <|> key)
      else
        setError .api
        return (← cleanup, key)

/-! ## Coordinates -/

/-- `key_to_sgx_ec256`: the return value, and the two halves of `k` afterwards. -/
def keyToSgxEc256 (k : Block 32 × Block 32) (key : Option ossl.Pkey) :
    Proc CryptoState (Bool × Block 32 × Block 32) := do
  setError .none
  let eckey ← invoke (ossl.evpPkeyGet1EcKey · key) fun eckey => .pointer eckey.isNone
  if eckey.isNone then failWith k
  else
    let ecgroup ← invoke ossl.ecGroupNewByCurveName fun group => .pointer group.isNone
    if ecgroup.isNone then failWith k
    else
      let ecpt ← invoke (ossl.ecKeyGet0PublicKey · eckey) fun point => .ignored point.isNone
      let gx ← invoke ossl.bnNew fun number => .pointer number.isNone
      if gx.isNone then failWith k
      else
        let gy ← invoke ossl.bnNew fun number => .pointer number.isNone
        if gy.isNone then failWith k
        else
          let (rv, gx, gy) ← invoke (ossl.ecPointGetAffineCoordinates · ecgroup ecpt gx gy)
            fun answer => .nonzero answer.1
          if rv = 0 then failWith k
          else
            let (rv, kx) ← invoke (ossl.bnBn2lebinpad · gx) fun answer => .padded answer.1
            if rv = 0 then failWith (kx, k.2)
            else
              let (rv, ky) ← invoke (ossl.bnBn2lebinpad · gy) fun answer => .padded answer.1
              if rv = 0 then failWith (kx, ky)
              else return (← cleanup, kx, ky)

/-- `key_from_sgx_ec256`. -/
def keyFromSgxEc256 (k : Block 32 × Block 32) : Proc CryptoState (Option ossl.Pkey) := do
  setError .none
  let gx ← invoke (ossl.bnLebin2bn · k.1.bytes) fun number => .pointer number.isNone
  if gx.isNone then abandon
  else
    let gy ← invoke (ossl.bnLebin2bn · k.2.bytes) fun number => .pointer number.isNone
    if gy.isNone then abandon
    else
      let key ← invoke ossl.ecKeyNewByCurveName fun key => .pointer key.isNone
      if key.isNone then abandon
      else
        hand [gx, gy]
        let (rv, key) ← invoke (ossl.ecKeySetPublicKeyAffineCoordinates · key gx gy)
          fun answer => .nonzero answer.1
        if rv = 0 then abandon
        else
          let pkey ← invoke ossl.evpPkeyNew fun pkey => .pointer pkey.isNone
          if pkey.isNone then abandon
          else
            let (rv, pkey) ← invoke (ossl.evpPkeySet1EcKey · pkey key) fun answer =>
              .nonzero answer.1
            if rv = 0 then abandon
            else return pkey

/-! ## Session keys -/

/-- `key_generate`. -/
def keyGenerate : Proc CryptoState (Option ossl.Pkey) := do
  setError .none
  let pctx ← invoke ossl.evpPkeyCtxNewId fun pctx => .pointer pctx.isNone
  if pctx.isNone then abandon
  else
    let rv ← invoke (ossl.evpPkeyParamgenInit · pctx) .status
    if rv = 0 then abandon
    else
      let rv ← invoke (ossl.evpPkeyCtxSetEcParamgenCurveNid · pctx) .status
      if rv = 0 then abandon
      else
        let (rv, params) ← invoke (ossl.evpPkeyParamgen · pctx) fun answer => .status answer.1
        if rv = 0 then abandon
        else
          let kctx ← invoke (ossl.evpPkeyCtxNew · params) fun kctx => .pointer kctx.isNone
          if kctx.isNone then abandon
          else
            let rv ← invoke (ossl.evpPkeyKeygenInit · kctx) .status
            if rv = 0 then abandon
            else
              let (rv, key) ← invoke (ossl.evpPkeyKeygen · kctx) fun answer => .status answer.1
              if rv = 0 then abandon
              else return key

/-- `key_shared_secret`: the secret, of `*slen` bytes. -/
def keySharedSecret (key peerkey : Option ossl.Pkey) : Proc CryptoState (Option Bytes) := do
  setError .none
  let sctx ← invoke (ossl.evpPkeyCtxNew · key) fun sctx => .pointer sctx.isNone
  if sctx.isNone then abandon
  else
    let rv ← invoke (ossl.evpPkeyDeriveInit · sctx) .status
    if rv = 0 then abandon
    else
      let rv ← invoke (ossl.evpPkeyDeriveSetPeer · sctx peerkey) .status
      if rv = 0 then abandon
      else
        let (rv, slen) ← invoke (ossl.evpPkeyDeriveLength · sctx) fun answer => .status answer.1
        if rv = 0 then abandon
        else
          let allocated ← invoke (ossl.opensslMalloc · slen) fun allocated => .pointer !allocated
          if !allocated then abandon
          else
            let (rv, secret) ← invoke (ossl.evpPkeyDerive · sctx slen) fun answer =>
              .status answer.1
            if rv = 0 then abandon
            else return some secret

/-! ## Signatures -/

/-- `sha256_digest`. -/
def sha256Digest (msg : Bytes) : Proc CryptoState (Bool × Block 32) := do
  setError .none
  let ctx ← invoke ossl.evpMdCtxNew fun ctx => .pointer ctx.isNone
  if ctx.isNone then failWith (.zero 32)
  else
    let rv ← invoke (ossl.evpDigestInit · ctx) .one
    if rv ≠ 1 then failWith (.zero 32)
    else
      let rv ← invoke (ossl.evpDigestUpdate · ctx msg) .one
      if rv ≠ 1 then failWith (.zero 32)
      else
        let (rv, digest) ← invoke (ossl.evpDigestFinal · ctx) fun answer => .one answer.1
        if rv ≠ 1 then failWith digest
        else return (← cleanup, digest)

/-- `ecdsa_sign`: the return value, and the signature in `r` and `s`. -/
def ecdsaSign (msg : Bytes) (key : Option ossl.Pkey) (r s : Block 32) :
    Proc CryptoState (Bool × Block 32 × Block 32) := do
  setError .none
  let eckey ← invoke (ossl.evpPkeyGet1EcKey · key) fun eckey => .pointer eckey.isNone
  if eckey.isNone then failWith (r, s)
  else
    let (ok, digest) ← ossl.sha256Digest msg
    if !ok then failWith (r, s)
    else
      let sig ← invoke (ossl.ecdsaDoSign · digest eckey) fun sig => .pointer sig.isNone
      if sig.isNone then failWith (r, s)
      else
        let (bnr, bns) ← query (ossl.ecdsaSigGet0 · sig)
        let (rv, r) ← invoke (ossl.bnBn2binpad · bnr) fun answer => .padded answer.1
        if rv = 0 then failWith (r, s)
        else
          let (rv, s) ← invoke (ossl.bnBn2binpad · bns) fun answer => .padded answer.1
          if rv = 0 then failWith (r, s)
          else return (← cleanup, r, s)

end OpenSsl

end RemoteAttestation
