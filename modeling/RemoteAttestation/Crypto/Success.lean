import RemoteAttestation.Crypto.BigNum
import RemoteAttestation.Crypto.Wrappers

/-! # Success of the wrappers

What the wrappers make of the values that OpenSSL returns. Each of them tests most calls with
`!`, which sees a 0 and a `NULL`, but not the negative numbers that some of the calls return
when they fail.
-/

namespace RemoteAttestation

/-- If a wrapper that starts at some clock succeeds, then so did every call that it made. -/
def SuccessSound {α : Type} (x : Proc CryptoState α) (success : α → Bool) (t : Nat) : Prop :=
  ∀ errorType a s, x (.start t errorType) = (some a, s) → success a = true →
    ∀ r ∈ s.log, r.failed = false

/-- Some test sees a failure, or there is none that passes its test. -/
def FailuresSeen (returns : List Returned) : Prop :=
  (∃ r ∈ returns, r.seen = true) ∨ ∀ r ∈ returns, ¬ r.Unnoticed

/-- A guarded wrapper that is complete succeeds on whatever its tests do not see. -/
theorem successSound_iff {α : Type} {x : Proc CryptoState α} {success : α → Bool} {t : Nat}
    {returns : List Returned} {gaveUp : α → Prop} {done : α → CryptoState → Prop} {complete : Prop}
    (hguarded : ∀ e, Guarded CryptoState.log Returned.seen [] (x (.start t e)) returns gaveUp done)
    (hgaveUp : ∀ a, gaveUp a → success a = false)
    (hdone : ∀ a s, done a s → (success a = true ↔ complete)) :
    SuccessSound x success t ↔ (complete → FailuresSeen returns) := by
  rcases Guarded.seen_or_quiet Returned.seen returns with hseen | hquiet
  · refine iff_of_true (fun e a s hrun hsuccess => ?_) fun _ => .inl hseen
    obtain ⟨a', ha', hgave⟩ := (hguarded e).stops hseen
    rw [hrun] at ha'
    cases ha'
    rw [hgaveUp a hgave] at hsuccess
    cases hsuccess
  · constructor
    · -- The wrapper succeeds, so whatever failed has passed its test.
      intro hsound hcomplete
      obtain ⟨a, hresult, hlog, hdone'⟩ := (hguarded .none).completes hquiet
      have hall := hsound .none a _ (Prod.ext hresult rfl) ((hdone a _ hdone').mpr hcomplete)
      refine .inr fun r hmem hunnoticed => ?_
      rw [hlog, List.nil_append] at hall
      have hfailed := (r.unnoticed_iff.mp hunnoticed).1
      rw [hall r hmem] at hfailed
      cases hfailed
    · intro hfailures e a s hrun hsuccess r hmem
      obtain ⟨a', hresult, hlog, hdone'⟩ := (hguarded e).completes hquiet
      rw [hrun] at hresult hlog hdone'
      cases hresult
      rw [hlog, List.nil_append] at hmem
      have hnone := (hfailures ((hdone a s hdone').mp hsuccess)).resolve_left
        (Guarded.not_seen_of_quiet hquiet)
      rw [← Bool.not_eq_true]
      exact fun hfailed => hnone r hmem (r.unnoticed_iff.mpr ⟨hfailed, hquiet r hmem⟩)

namespace OpenSsl

variable (ossl : OpenSsl)

/-! ## What the calls return -/

/-- The calls of `key_generate` from a clock on, if all of them are made. -/
def generateReturns (t : Nat) : List Returned :=
  let pctx := ossl.evpPkeyCtxNewId t
  let params := (ossl.evpPkeyParamgen (t + 3) pctx).2
  let kctx := ossl.evpPkeyCtxNew (t + 4) params
  [.pointer pctx.isNone,
    .status (ossl.evpPkeyParamgenInit (t + 1) pctx),
    .status (ossl.evpPkeyCtxSetEcParamgenCurveNid (t + 2) pctx),
    .status (ossl.evpPkeyParamgen (t + 3) pctx).1,
    .pointer kctx.isNone,
    .status (ossl.evpPkeyKeygenInit (t + 5) kctx),
    .status (ossl.evpPkeyKeygen (t + 6) kctx).1]

/-- The key that the last of them leaves. -/
def generatedKey (t : Nat) : Option ossl.Pkey :=
  (ossl.evpPkeyKeygen (t + 6) (ossl.evpPkeyCtxNew (t + 4)
    (ossl.evpPkeyParamgen (t + 3) (ossl.evpPkeyCtxNewId t)).2)).2

theorem keyGenerate_guarded (t : Nat) (e : ErrorType) :
    Guarded CryptoState.log Returned.seen [] (ossl.keyGenerate (.start t e))
      (ossl.generateReturns t) (· = none) (fun key _ => key = ossl.generatedKey t) := by
  unfold keyGenerate generateReturns
  dsimp only
  rw [setError_bind]
  refine guarded_invoke (fun _ => Iff.rfl) (fun _ => abandon_gaveUp) ?_
  refine guarded_invoke (fun _ => decide_eq_true_iff) (fun _ => abandon_gaveUp) ?_
  refine guarded_invoke (fun _ => decide_eq_true_iff) (fun _ => abandon_gaveUp) ?_
  refine guarded_invoke (fun _ => decide_eq_true_iff) (fun _ => abandon_gaveUp) ?_
  refine guarded_invoke (fun _ => Iff.rfl) (fun _ => abandon_gaveUp) ?_
  refine guarded_invoke (fun _ => decide_eq_true_iff) (fun _ => abandon_gaveUp) ?_
  refine guarded_invoke (fun _ => decide_eq_true_iff) (fun _ => abandon_gaveUp) ?_
  exact Guarded.last rfl rfl

/-- The calls of `key_shared_secret`. -/
def secretReturns (key peerkey : Option ossl.Pkey) (t : Nat) : List Returned :=
  let sctx := ossl.evpPkeyCtxNew t key
  let slen := (ossl.evpPkeyDeriveLength (t + 3) sctx).2
  [.pointer sctx.isNone,
    .status (ossl.evpPkeyDeriveInit (t + 1) sctx),
    .status (ossl.evpPkeyDeriveSetPeer (t + 2) sctx peerkey),
    .status (ossl.evpPkeyDeriveLength (t + 3) sctx).1,
    .pointer !ossl.opensslMalloc (t + 4) slen,
    .status (ossl.evpPkeyDerive (t + 5) sctx slen).1]

theorem keySharedSecret_guarded (key peerkey : Option ossl.Pkey) (t : Nat) (e : ErrorType) :
    Guarded CryptoState.log Returned.seen [] (ossl.keySharedSecret key peerkey (.start t e))
      (ossl.secretReturns key peerkey t) (· = none) (fun secret _ => secret.isSome = true) := by
  unfold keySharedSecret secretReturns
  dsimp only
  rw [setError_bind]
  refine guarded_invoke (fun _ => Iff.rfl) (fun _ => abandon_gaveUp) ?_
  refine guarded_invoke (fun _ => decide_eq_true_iff) (fun _ => abandon_gaveUp) ?_
  refine guarded_invoke (fun _ => decide_eq_true_iff) (fun _ => abandon_gaveUp) ?_
  refine guarded_invoke (fun _ => decide_eq_true_iff) (fun _ => abandon_gaveUp) ?_
  refine guarded_invoke (fun _ => Iff.rfl) (fun _ => abandon_gaveUp) ?_
  refine guarded_invoke (fun _ => decide_eq_true_iff) (fun _ => abandon_gaveUp) ?_
  exact Guarded.last rfl rfl

/-- The calls of `key_to_sgx_ec256`. -/
def coordinateReturns (key : Option ossl.Pkey) (t : Nat) : List Returned :=
  let eckey := ossl.evpPkeyGet1EcKey t key
  let ecgroup := ossl.ecGroupNewByCurveName (t + 1)
  let ecpt := ossl.ecKeyGet0PublicKey (t + 2) eckey
  let gx := ossl.bnNew (t + 3)
  let gy := ossl.bnNew (t + 4)
  let coordinates := ossl.ecPointGetAffineCoordinates (t + 5) ecgroup ecpt gx gy
  [.pointer eckey.isNone, .pointer ecgroup.isNone, .ignored ecpt.isNone, .pointer gx.isNone,
    .pointer gy.isNone, .nonzero coordinates.1,
    .padded (ossl.bnBn2lebinpad (t + 6) coordinates.2.1).1,
    .padded (ossl.bnBn2lebinpad (t + 7) coordinates.2.2).1]

/-- The coordinates that are written to `k`. -/
def coordinates (key : Option ossl.Pkey) (t : Nat) : Option Int × Option Int :=
  (ossl.ecPointGetAffineCoordinates (t + 5) (ossl.ecGroupNewByCurveName (t + 1))
    (ossl.ecKeyGet0PublicKey (t + 2) (ossl.evpPkeyGet1EcKey t key)) (ossl.bnNew (t + 3))
    (ossl.bnNew (t + 4))).2

theorem keyToSgxEc256_guarded (k : Block 32 × Block 32) (key : Option ossl.Pkey) (t : Nat)
    (e : ErrorType) :
    Guarded CryptoState.log Returned.seen [] (ossl.keyToSgxEc256 k key (.start t e))
      (ossl.coordinateReturns key t) (·.1 = false) (fun result _ =>
        result = (true, (ossl.bnBn2lebinpad (t + 6) (ossl.coordinates key t).1).2,
          (ossl.bnBn2lebinpad (t + 7) (ossl.coordinates key t).2).2)) := by
  unfold keyToSgxEc256 coordinateReturns
  dsimp only
  rw [setError_bind]
  refine guarded_invoke (fun _ => Iff.rfl) (fun _ => failWith_gaveUp _) ?_
  refine guarded_invoke (fun _ => Iff.rfl) (fun _ => failWith_gaveUp _) ?_
  refine guarded_ignored (fun _ => rfl) ?_
  refine guarded_invoke (fun _ => Iff.rfl) (fun _ => failWith_gaveUp _) ?_
  refine guarded_invoke (fun _ => Iff.rfl) (fun _ => failWith_gaveUp _) ?_
  refine guarded_invoke (fun _ => decide_eq_true_iff) (fun _ => failWith_gaveUp _) ?_
  refine guarded_invoke (fun _ => decide_eq_true_iff) (fun _ => failWith_gaveUp _) ?_
  refine guarded_invoke (fun _ => decide_eq_true_iff) (fun _ => failWith_gaveUp _) ?_
  rw [cleanup_bind]
  exact Guarded.last rfl rfl

/-- The calls of `sha256_digest`. -/
def digestReturns (msg : Bytes) (t : Nat) : List Returned :=
  let ctx := ossl.evpMdCtxNew t
  [.pointer ctx.isNone, .one (ossl.evpDigestInit (t + 1) ctx),
    .one (ossl.evpDigestUpdate (t + 2) ctx msg), .one (ossl.evpDigestFinal (t + 3) ctx).1]

/-- The digest that the last of them leaves. -/
def finalDigest (t : Nat) : Block 32 := (ossl.evpDigestFinal (t + 3) (ossl.evpMdCtxNew t)).2

theorem sha256Digest_guarded (msg : Bytes) (s : CryptoState) :
    Guarded CryptoState.log Returned.seen s.log (ossl.sha256Digest msg s)
      (ossl.digestReturns msg s.clock) (·.1 = false)
      (fun result s' => result = (true, ossl.finalDigest s.clock) ∧ s'.clock = s.clock + 4 ∧
        s'.errorType = .none) := by
  unfold sha256Digest digestReturns
  dsimp only
  rw [setError_bind]
  refine guarded_invoke (fun _ => Iff.rfl) (fun _ => failWith_gaveUp _) ?_
  refine guarded_invoke (fun _ => decide_eq_true_iff) (fun _ => failWith_gaveUp _) ?_
  refine guarded_invoke (fun _ => decide_eq_true_iff) (fun _ => failWith_gaveUp _) ?_
  refine guarded_invoke (fun _ => decide_eq_true_iff) (fun _ => failWith_gaveUp _) ?_
  rw [cleanup_bind]
  refine Guarded.last ?_ ⟨rfl, rfl, rfl⟩
  simp only [CryptoState.called_log, CryptoState.withError_log]

/-- The calls of `ecdsa_sign`. -/
def signReturns (msg : Bytes) (key : Option ossl.Pkey) (t : Nat) : List Returned :=
  let eckey := ossl.evpPkeyGet1EcKey t key
  let sig := ossl.ecdsaDoSign (t + 5) (ossl.finalDigest (t + 1)) eckey
  let numbers := ossl.ecdsaSigGet0 (t + 6) sig
  .pointer eckey.isNone :: (ossl.digestReturns msg (t + 1) ++
    [.pointer sig.isNone, .padded (ossl.bnBn2binpad (t + 7) numbers.1).1,
      .padded (ossl.bnBn2binpad (t + 8) numbers.2).1])

theorem ecdsaSign_guarded (msg : Bytes) (key : Option ossl.Pkey) (r s : Block 32) (t : Nat)
    (e : ErrorType) :
    Guarded CryptoState.log Returned.seen [] (ossl.ecdsaSign msg key r s (.start t e))
      (ossl.signReturns msg key t) (·.1 = false) (fun result _ => result.1 = true) := by
  unfold ecdsaSign signReturns
  dsimp only
  rw [setError_bind]
  refine guarded_invoke (fun _ => Iff.rfl) (fun _ => failWith_gaveUp _) ?_
  have hdigest := ossl.sha256Digest_guarded msg (((CryptoState.start t e).withError .none).called
    [.pointer (ossl.evpPkeyGet1EcKey t key).isNone])
  refine Guarded.seq hdigest ?_ ?_
  · rintro ⟨ok, digest⟩ s' hok
    dsimp only at hok ⊢
    rw [hok, Bool.not_false, if_pos rfl]
    exact failWith_gaveUp _ s'
  · rintro ⟨ok, digest⟩ s' ⟨hresult, hclock, herror⟩ hlog
    cases hresult
    dsimp only
    rw [Bool.not_true, if_neg Bool.false_ne_true]
    obtain ⟨clock, errorType, log, handed⟩ := s'
    cases hclock
    cases herror
    cases hlog
    refine guarded_invoke (fun _ => Iff.rfl) (fun _ => failWith_gaveUp _) ?_
    rw [query_bind]
    dsimp only
    refine guarded_invoke (fun _ => decide_eq_true_iff) (fun _ => failWith_gaveUp _) ?_
    refine guarded_invoke (fun _ => decide_eq_true_iff) (fun _ => failWith_gaveUp _) ?_
    rw [cleanup_bind]
    refine Guarded.last ?_ rfl
    simp only [CryptoState.called_log, List.append_nil]
    rfl

/-- The calls of `key_load_file` when the file is open and the type of the key is known. -/
def fileReturns (content : Bytes) (keytype : Int) (t : Nat) : List Returned :=
  [.ignored (ossl.evpPkeyNew t).isNone,
    .ignored (if keytype = keyPrivate then ossl.pemReadPrivateKey (t + 1) content
      else ossl.pemReadPubkey (t + 1) content).isNone]

/-- Nothing that `key_load_file` calls is tested. -/
theorem keyLoadFile_sound_iff (file : Option Bytes) (keytype : Int) (t : Nat) :
    SuccessSound (ossl.keyLoadFile file keytype) Prod.fst t ↔
      ∀ content, file = some content → keytype = keyPrivate ∨ keytype = keyPublic →
        FailuresSeen (ossl.fileReturns content keytype t) := by
  cases file with
  | none =>
      refine iff_of_true (fun e a s hrun hsuccess => ?_) fun content h => nomatch h
      cases hrun
      cases hsuccess
  | some content =>
      simp only [Option.some.injEq, forall_eq']
      by_cases hknown : keytype = keyPrivate ∨ keytype = keyPublic
      · have hguarded : ∀ e, Guarded CryptoState.log Returned.seen []
            (ossl.keyLoadFile (some content) keytype (.start t e))
            (ossl.fileReturns content keytype t) (fun _ => False)
            (fun result _ => result.1 = true) := by
          intro e
          unfold keyLoadFile fileReturns
          rw [setError_bind]
          refine guarded_ignored (fun _ => rfl) ?_
          dsimp only
          by_cases hprivate : keytype = keyPrivate
          · rw [if_pos hprivate, if_pos hprivate]
            refine guarded_ignored (fun _ => rfl) ?_
            exact Guarded.last rfl rfl
          · rw [if_neg hprivate, if_neg hprivate, if_pos (hknown.resolve_left hprivate)]
            refine guarded_ignored (fun _ => rfl) ?_
            exact Guarded.last rfl rfl
        rw [successSound_iff hguarded (fun _ h => h.elim) fun _ _ h => iff_of_true h hknown]
      · refine iff_of_true (fun e a s hrun hsuccess => ?_) fun h => absurd h hknown
        rw [not_or] at hknown
        unfold keyLoadFile at hrun
        rw [setError_bind, invoke_bind] at hrun
        dsimp only at hrun
        rw [if_neg hknown.1, if_neg hknown.2] at hrun
        cases hrun
        cases hsuccess

/-- A wrapper succeeds only if all its calls did, exactly if the tests see a failure, no failure
passes its test, or there is nothing to return. -/
theorem wrappers_sound_iff (t : Nat) :
    (SuccessSound ossl.keyGenerate Option.isSome t ↔
      ((ossl.generatedKey t).isSome = true → FailuresSeen (ossl.generateReturns t))) ∧
    (∀ key peerkey, SuccessSound (ossl.keySharedSecret key peerkey) Option.isSome t ↔
      FailuresSeen (ossl.secretReturns key peerkey t)) ∧
    (∀ k key, SuccessSound (ossl.keyToSgxEc256 k key) Prod.fst t ↔
      FailuresSeen (ossl.coordinateReturns key t)) ∧
    (∀ msg key r s, SuccessSound (ossl.ecdsaSign msg key r s) Prod.fst t ↔
      FailuresSeen (ossl.signReturns msg key t)) ∧
    ∀ file keytype, SuccessSound (ossl.keyLoadFile file keytype) Prod.fst t ↔
      ∀ content, file = some content → keytype = keyPrivate ∨ keytype = keyPublic →
        FailuresSeen (ossl.fileReturns content keytype t) := by
  refine ⟨?_, fun key peerkey => ?_, fun k key => ?_, fun msg key r s => ?_,
    ossl.keyLoadFile_sound_iff (t := t)⟩
  · refine successSound_iff (ossl.keyGenerate_guarded t) (fun a h => ?_) fun a s h => ?_
    · rw [h]
      rfl
    · rw [h]
  · have hiff : SuccessSound (ossl.keySharedSecret key peerkey) Option.isSome t ↔
        (True → FailuresSeen (ossl.secretReturns key peerkey t)) :=
      successSound_iff (ossl.keySharedSecret_guarded key peerkey t) (fun a h => by rw [h]; rfl)
        fun a s h => iff_of_true h trivial
    rwa [true_implies] at hiff
  · have hiff : SuccessSound (ossl.keyToSgxEc256 k key) Prod.fst t ↔
        (True → FailuresSeen (ossl.coordinateReturns key t)) :=
      successSound_iff (ossl.keyToSgxEc256_guarded k key t) (fun a h => h)
        fun a s h => iff_of_true (by rw [h]) trivial
    rwa [true_implies] at hiff
  · have hiff : SuccessSound (ossl.ecdsaSign msg key r s) Prod.fst t ↔
        (True → FailuresSeen (ossl.signReturns msg key t)) :=
      successSound_iff (ossl.ecdsaSign_guarded msg key r s t) (fun a h => h)
        fun a s h => iff_of_true h trivial
    rwa [true_implies] at hiff

/-- A library whose `EVP_PKEY_paramgen_init` fails with a negative number. -/
def negative : OpenSsl := { plain with evpPkeyParamgenInit := fun _ _ => -1 }

/-- A key is generated all the same. -/
theorem negative_not_sound : ¬ SuccessSound negative.keyGenerate Option.isSome 0 := by
  intro hsound
  have hall := hsound .none (some (some (some 1, some ((p256BaseX : Int), (p256BaseY : Int))))) _
    rfl rfl
  exact absurd (hall (.status (-1)) (by decide)) (by decide)

end OpenSsl

end RemoteAttestation
