import RemoteAttestation.Report.IasRequest

/-! # What a verified report guarantees

The chain header is cut into pieces before every `-----BEGIN` but a leading one,
and a report is accepted only if all pieces are certificates, the chain they form
is good and the signature was made with the first of them.
-/

namespace RemoteAttestation

/-! ## Pieces of a chain -/

/-- The pieces of a chain: a new one starts wherever the marker is found, except at
the start. -/
def certPieces : Bytes → CertChain Bytes
  | [] => ⟨[], []⟩
  | c :: rest =>
      let pieces := certPieces rest
      if certBegin <+: rest then ⟨[c], pieces.certs⟩ else ⟨c :: pieces.signing, pieces.others⟩

/-- The pieces are the whole chain. -/
theorem flatten_certPieces (text : Bytes) : (certPieces text).certs.flatten = text := by
  induction text with
  | nil => rfl
  | cons c rest ih =>
      unfold certPieces
      dsimp only
      split
      · simpa [CertChain.certs] using ih
      · simpa [CertChain.certs] using ih

theorem certPieces_of_find_eq_none {c : UInt8} {rest : Bytes}
    (hfind : find certBegin rest = none) : certPieces (c :: rest) = ⟨c :: rest, []⟩ := by
  induction rest generalizing c with
  | nil =>
      rw [certPieces, if_neg (by decide)]
      rfl
  | cons d rest ih =>
      have hleading : ¬ certBegin <+: d :: rest := by
        intro h
        simp [find, h] at hfind
      have hrest : find certBegin rest = none := by
        simpa [find, hleading] using hfind
      rw [certPieces, if_neg hleading, ih hrest]

theorem certPieces_of_find_eq_some {c : UInt8} {rest : Bytes} {i : Nat}
    (hfind : find certBegin rest = some i) :
    certPieces (c :: rest) = ⟨c :: rest.take i, (certPieces (rest.drop i)).certs⟩ := by
  induction rest generalizing c i with
  | nil =>
      have hnone : find certBegin [] = none := by decide
      rw [hnone] at hfind
      cases hfind
  | cons d rest ih =>
      by_cases hleading : certBegin <+: d :: rest
      · have hzero : i = 0 := by simpa [find, hleading] using hfind.symm
        subst hzero
        rw [certPieces, if_pos hleading]
        rfl
      · obtain ⟨j, hj, rfl⟩ : ∃ j, find certBegin rest = some j ∧ j + 1 = i := by
          simpa [find, hleading] using hfind
        rw [certPieces, if_neg hleading, ih hj]
        rfl

/-- Every piece, numbered from `index` on, loads as the certificate in its place. -/
def LoadsFrom {α : Type} (load : Nat → Bytes → Option α) (index : Nat) (pieces : CertChain Bytes)
    (certs : CertChain α) : Prop :=
  certs.certs.length = pieces.certs.length ∧
    ∀ i piece, pieces.certs[i]? = some piece → load (index + i) (cstr piece) = certs.certs[i]?

/-- The loading loop returns the certificates of all pieces, in order. -/
theorem certLoop_eq_some {α : Type} {load : Nat → Bytes → Option α} {fuel index : Nat}
    {text : Bytes} {certs : CertChain α} (hloop : certLoop load fuel index text = some certs) :
    LoadsFrom load index (certPieces text) certs := by
  induction fuel generalizing index text certs with
  | zero => simp [certLoop] at hloop
  | succ fuel ih =>
      unfold certLoop at hloop
      split at hloop
      next hfind =>
        obtain ⟨cert, hcert, rfl⟩ := Option.map_eq_some_iff.mp hloop
        have hpieces : certPieces text = ⟨text, []⟩ := by
          cases text with
          | nil => rfl
          | cons c rest => exact certPieces_of_find_eq_none hfind
        rw [hpieces]
        refine ⟨rfl, ?_⟩
        intro i piece hpiece
        cases i with
        | zero =>
            cases hpiece
            exact hcert
        | succ i => simp [CertChain.certs] at hpiece
      next cend hfind =>
        split at hloop
        next => simp at hloop
        next cert hcert =>
          obtain ⟨others, hothers, rfl⟩ := Option.map_eq_some_iff.mp hloop
          obtain ⟨hlength, hload⟩ := ih hothers
          have hpieces : certPieces text =
              ⟨text.take (cend + 1), (certPieces (text.drop (cend + 1))).certs⟩ := by
            cases text with
            | nil =>
                have hnone : find certBegin [] = none := by decide
                simp [hnone] at hfind
            | cons c rest => exact certPieces_of_find_eq_some hfind
          rw [hpieces]
          refine ⟨?_, ?_⟩
          · have htotal := congrArg (· + 1) hlength
            simpa [CertChain.certs] using htotal
          · intro i piece hpiece
            cases i with
            | zero =>
                cases hpiece
                exact hcert
            | succ i =>
                have hnext := hload i piece hpiece
                rw [Nat.add_assoc, Nat.add_comm 1 i] at hnext
                exact hnext

/-- The loop has fuel for every chain: it fails only where a piece does not load. -/
theorem certLoop_isSome {α : Type} {load : Nat → Bytes → Option α} {fuel index : Nat}
    {text : Bytes} (hfuel : text.length < fuel)
    (hload : ∀ i piece, (certPieces text).certs[i]? = some piece →
      (load (index + i) (cstr piece)).isSome) :
    (certLoop load fuel index text).isSome := by
  induction fuel generalizing index text with
  | zero => omega
  | succ fuel ih =>
      unfold certLoop
      split
      next hfind =>
        have hpieces : certPieces text = ⟨text, []⟩ := by
          cases text with
          | nil => rfl
          | cons c rest => exact certPieces_of_find_eq_none hfind
        rw [hpieces] at hload
        have hfirst := hload 0 text rfl
        simpa using hfirst
      next cend hfind =>
        cases text with
        | nil =>
            have hnone : find certBegin [] = none := by decide
            simp [hnone] at hfind
        | cons c rest =>
            rw [List.drop_one, List.tail_cons] at hfind
            rw [certPieces_of_find_eq_some hfind] at hload
            have hfirst := hload 0 _ rfl
            simp only [List.take_succ_cons, List.drop_succ_cons]
            obtain ⟨cert, hcert⟩ := Option.isSome_iff_exists.mp hfirst
            rw [Nat.add_zero] at hcert
            rw [hcert]
            simp only [Option.isSome_map]
            apply ih
            · simp only [List.length_drop, List.length_cons] at hfuel ⊢
              omega
            · intro i piece hpiece
              rw [Nat.add_assoc, Nat.add_comm 1 i]
              exact hload (i + 1) piece hpiece

/-- The pieces determine the certificates. -/
theorem LoadsFrom.unique {α : Type} {load : Nat → Bytes → Option α} {index : Nat}
    {pieces : CertChain Bytes} {left right : CertChain α} (hleft : LoadsFrom load index pieces left)
    (hright : LoadsFrom load index pieces right) : left = right := by
  have hcerts : left.certs = right.certs := by
    apply List.ext_getElem?
    intro i
    cases hpiece : pieces.certs[i]? with
    | none =>
        have hbehind : pieces.certs.length ≤ i := List.getElem?_eq_none_iff.mp hpiece
        rw [List.getElem?_eq_none (hleft.1.trans_le hbehind),
          List.getElem?_eq_none (hright.1.trans_le hbehind)]
    | some piece => exact (hleft.2 i piece hpiece).symm.trans (hright.2 i piece hpiece)
  cases left
  cases right
  cases hcerts
  rfl

theorem certLoop_eq_some_iff {α : Type} {load : Nat → Bytes → Option α} {fuel index : Nat}
    {text : Bytes} {certs : CertChain α} (hfuel : text.length < fuel) :
    certLoop load fuel index text = some certs ↔ LoadsFrom load index (certPieces text) certs := by
  refine ⟨certLoop_eq_some, fun hloads => ?_⟩
  obtain ⟨loaded, hloop⟩ : ∃ loaded, certLoop load fuel index text = some loaded := by
    refine Option.isSome_iff_exists.mp (certLoop_isSome hfuel fun i piece hpiece => ?_)
    have hlt : i < certs.certs.length := by
      rw [hloads.1]
      exact (List.getElem?_eq_some_iff.mp hpiece).1
    rw [hloads.2 i piece hpiece, List.getElem?_eq_getElem hlt]
    rfl
  rw [hloop, (certLoop_eq_some hloop).unique hloads]

/-! ## Accepted reports -/

/-- What `report` finds before it accepts `content` as a report of the response: the certificates
of the chain, the stack that was made of them, the signature and the key. The answers are those
of OpenSSL. -/
structure Verified (sys : Sys) (t : Nat) (store : Option sys.X509Store) (response : Response)
    (content : Bytes) (certs : CertChain sys.X509) (stack : List sys.X509) (sig : Bytes)
    (pkey : sys.Pkey) : Prop where
  chain_present :
    response.headersAsString (ascii "X-IASReport-Signing-Certificate") ≠ []
  chain_loads : ∃ chain,
    urlDecode (response.headersAsString (ascii "X-IASReport-Signing-Certificate")) = some chain ∧
      LoadsFrom (sys.pemReadX509 t) 0 (certPieces chain) certs
  array : sys.certarMalloc t = true
  stack_built : certStackBuild sys t (certArray certs.certs) = some stack
  storeCtx : sys.x509StoreCtxNew t = true
  storeCtx_init : sys.x509StoreCtxInit t store stack.head? stack = 1
  chain_verified : sys.x509VerifyCert t store stack.head? stack = 1
  signature_present : response.headersAsString (ascii "X-IASReport-Signature") ≠ []
  signature_decoded : ∃ decoded : Decoded, decoded.bytes = sig ∧
    sys.base64Decode t (cstr (response.headersAsString (ascii "X-IASReport-Signature"))) =
      some decoded
  key : sys.x509GetPubkey t certs.signing = some pkey
  mdCtx : sys.evpMdCtxNew t = true
  digest_init : sys.evpDigestVerifyInit t pkey = 1
  digest_update : sys.evpDigestVerifyUpdate t content = 1
  signature_verified : sys.evpDigestVerifyFinal t pkey content sig = 1
  content_eq : content = response.content

/-- The stack that was verified has all certificates of the chain, in order. -/
abbrev Authentic (sys : Sys) (t : Nat) (store : Option sys.X509Store) (response : Response)
    (content : Bytes) (certs : CertChain sys.X509) (sig : Bytes) (pkey : sys.Pkey) : Prop :=
  Verified sys t store response content certs certs.certs sig pkey

section

variable {sys : Sys} {t : Nat}

theorem certVerify_iff {store : Option sys.X509Store} {chain : List sys.X509} :
    certVerify sys t store chain = true ↔
      sys.x509StoreCtxNew t = true ∧ sys.x509StoreCtxInit t store chain.head? chain = 1 ∧
        sys.x509VerifyCert t store chain.head? chain = 1 := by
  unfold certVerify
  cases sys.x509StoreCtxNew t with
  | false => simp
  | true =>
      by_cases hinit : sys.x509StoreCtxInit t store chain.head? chain = 1
      · simp [hinit]
      · simp [hinit]

theorem sha256Verify_iff {msg sig : Bytes} {pkey : sys.Pkey} {result : Bool} :
    (sha256Verify sys t msg sig pkey result).1 = true ↔
      sys.evpMdCtxNew t = true ∧ sys.evpDigestVerifyInit t pkey = 1 ∧
        sys.evpDigestVerifyUpdate t msg = 1 ∧ sys.evpDigestVerifyFinal t pkey msg sig = 1 := by
  unfold sha256Verify
  cases sys.evpMdCtxNew t with
  | false => simp
  | true =>
      by_cases hinit : sys.evpDigestVerifyInit t pkey = 1
      · by_cases hupdate : sys.evpDigestVerifyUpdate t msg = 1
        · simp [hinit, hupdate]
        · simp [hinit, hupdate]
      · simp [hinit]

/-- The result flag passes through the verification. -/
@[simp] theorem sha256Verify_snd (msg sig : Bytes) (pkey : sys.Pkey) (result : Bool) :
    (sha256Verify sys t msg sig pkey result).2 = result := by
  unfold sha256Verify
  repeat' split
  all_goals rfl

/-- `report` after a response of status 200 returns `IAS_OK` exactly for a verified one. -/
theorem verifyResponse_ok_iff {version : Nat} {store : Option sys.X509Store} {response : Response} :
    (verifyResponse sys t store version response).status = iasOk ↔
      ∃ certs stack sig pkey,
        Verified sys t store response response.content certs stack sig pkey := by
  constructor
  · intro hok
    unfold verifyResponse at hok
    dsimp only at hok
    split at hok
    next => exact absurd hok (by decide)
    next hchain =>
      split at hok
      next => exact absurd hok (by decide)
      next chain hdecode =>
        split at hok
        next => exact absurd hok (by decide)
        next certs hload =>
          split at hok
          next => exact absurd hok (by decide)
          next hmalloc =>
            split at hok
            next => exact absurd hok (by decide)
            next stack hbuild =>
              split at hok
              next => exact absurd hok (by decide)
              next hverify =>
                split at hok
                next => exact absurd hok (by decide)
                next hsignature =>
                  split at hok
                  next => exact absurd hok (by decide)
                  next sig hsig =>
                    split at hok
                    next => exact absurd hok (by decide)
                    next pkey hkey =>
                      rw [Bool.not_eq_true, Bool.not_eq_false'] at hmalloc hverify
                      obtain ⟨hstoreCtx, hinit, hcert⟩ := certVerify_iff.mp hverify
                      dsimp only at hok
                      split at hok
                      next => exact absurd hok (by decide)
                      next hverified =>
                        rw [Bool.not_eq_true, Bool.not_eq_false'] at hverified
                        obtain ⟨hmdCtx, hdigest, hupdate, hfinal⟩ := sha256Verify_iff.mp hverified
                        exact ⟨certs, stack, sig.bytes, pkey, hchain,
                          ⟨chain, hdecode, certLoop_eq_some hload⟩, hmalloc, hbuild, hstoreCtx,
                          hinit, hcert, hsignature, ⟨sig, rfl, hsig⟩, hkey, hmdCtx, hdigest,
                          hupdate, hfinal, rfl⟩
  · rintro ⟨certs, stack, sig, pkey, hverified⟩
    obtain ⟨chain, hdecode, hloads⟩ := hverified.chain_loads
    obtain ⟨decoded, rfl, hsig⟩ := hverified.signature_decoded
    have hloop := (certLoop_eq_some_iff (Nat.lt_succ_self chain.length)).mpr hloads
    have hchain : certVerify sys t store stack = true :=
      certVerify_iff.mpr ⟨hverified.storeCtx, hverified.storeCtx_init, hverified.chain_verified⟩
    have hgood : (sha256Verify sys t response.content decoded.bytes pkey true).1 = true :=
      sha256Verify_iff.mpr ⟨hverified.mdCtx, hverified.digest_init, hverified.digest_update,
        hverified.signature_verified⟩
    unfold verifyResponse
    simp only [if_neg hverified.chain_present, hdecode, hloop, hverified.array, Bool.not_true,
      Bool.false_eq_true, if_false, hverified.stack_built, hchain,
      if_neg hverified.signature_present, hsig, hverified.key, hgood, sha256Verify_snd, if_true]

/-- The content that is returned with `IAS_OK` is the body of the response. -/
theorem content_verifyResponse {version : Nat} {store : Option sys.X509Store} {response : Response}
    (hok : (verifyResponse sys t store version response).status = iasOk) :
    (verifyResponse sys t store version response).content = response.content := by
  unfold verifyResponse at hok ⊢
  dsimp only at hok ⊢
  split at hok
  next => exact absurd hok (by decide)
  next hchain =>
    rw [if_neg hchain]
    repeat' split at hok
    all_goals first | exact absurd hok (by decide) | simp only [*]; rfl

end

end RemoteAttestation
