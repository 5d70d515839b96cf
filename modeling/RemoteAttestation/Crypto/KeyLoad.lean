import RemoteAttestation.Crypto.BigNum
import RemoteAttestation.Crypto.Wrappers

/-! # Loading a key

`key_load` checks the length of its text, and leaves the digits to `BN_hex2bn`, which stops at
the first character that is none. From `EVP_PKEY_new` on a failure overwrites `*pkey`.
-/

namespace RemoteAttestation

namespace OpenSsl

variable (ossl : OpenSsl)

/-- A text of as many digits as a key of the type has. -/
def WellFormedKey (keytype : Int) (text : Bytes) : Prop :=
  reqlen keytype = some text.length ∧ ∀ c ∈ text, (hexValue? c).isSome

/-- The numbers of a key: the scalar, or the two coordinates. -/
def keyNumbers (keytype : Int) (text : Bytes) : List (Option Int) :=
  if keytype = keyPrivate then [some (hexNat text)]
  else [some (hexNat (text.take 64)), some (hexNat (text.drop 64))]

/-- A run of `key_load` that accepts well-formed keys only, and has no effect otherwise. -/
structure LoadsExactly (pkey : Option ossl.Pkey) (hexstring : Option CString) (keytype : Int)
    (run : Option (Bool × Option ossl.Pkey) × CryptoState) : Prop where
  returns : run.1.isSome = true
  accepts : ∀ result, run.1 = some result → result.1 = true →
    ∃ text, hexstring = some text ∧ WellFormedKey keytype text.bytes ∧
      run.2.handed = [keyNumbers keytype text.bytes]
  refuses : ∀ result, run.1 = some result → result.1 = false → result.2 = pkey

/-! ## What the calls return -/

/-- The calls for a private key up to its public point. -/
def privateReturns (text : Bytes) (t : Nat) : List Returned :=
  let eckey := ossl.ecKeyNewByCurveName t
  let number := ossl.bnHex2bn (t + 2) text
  let scalar := ossl.ecKeySetPrivateKey (t + 3) eckey number.2
  let group := ossl.ecKeyGet0Group (t + 4) scalar.2
  let pubpt := ossl.ecPointNew (t + 5) group
  [.pointer eckey.isNone, .nonzero number.1, .nonzero scalar.1, .pointer pubpt.isNone,
    .nonzero (ossl.ecPointMul (t + 6) group pubpt number.2).1]

/-- The public point, and the call that makes it part of the key. -/
def setPublic (text : Bytes) (t : Nat) : Int × Option ossl.EcKey :=
  let number := ossl.bnHex2bn (t + 2) text
  let eckey := (ossl.ecKeySetPrivateKey (t + 3) (ossl.ecKeyNewByCurveName t) number.2).2
  let group := ossl.ecKeyGet0Group (t + 4) eckey
  ossl.ecKeySetPublicKey (t + 7) eckey
    (ossl.ecPointMul (t + 6) group (ossl.ecPointNew (t + 5) group) number.2).2

/-- The call that sets the coordinates of a public key. -/
def setCoordinates (text : Bytes) (t : Nat) : Int × Option ossl.EcKey :=
  ossl.ecKeySetPublicKeyAffineCoordinates (t + 3) (ossl.ecKeyNewByCurveName t)
    (ossl.bnHex2bn (t + 1) (text.take 64)).2 (ossl.bnHex2bn (t + 2) (text.drop 64)).2

/-- The calls for a public key. -/
def publicReturns (text : Bytes) (t : Nat) : List Returned :=
  [.pointer (ossl.ecKeyNewByCurveName t).isNone,
    .nonzero (ossl.bnHex2bn (t + 1) (text.take 64)).1,
    .nonzero (ossl.bnHex2bn (t + 2) (text.drop 64)).1,
    .nonzero (ossl.setCoordinates text t).1]

/-- The calls before the result is stored, but for the one that sets the public point. -/
def importReturns (keytype : Int) (text : Bytes) (t : Nat) : List Returned :=
  if keytype = keyPrivate then ossl.privateReturns text t else ossl.publicReturns text t

/-- The calls that store the result. -/
def storeReturns (eckey : Option ossl.EcKey) (t : Nat) : List Returned :=
  [.pointer (ossl.evpPkeyNew t).isNone,
    .nonzero (ossl.evpPkeySet1EcKey (t + 1) (ossl.evpPkeyNew t) eckey).1]

/-- The end of `key_load` leaves `*pkey` as it was, or stores a key that was given in digits. -/
def StoresExactly (pkey : Option ossl.Pkey) (text : Bytes) (eckey : Option ossl.EcKey) (t : Nat) :
    Prop :=
  ((∃ r ∈ ossl.storeReturns eckey t, r.seen = true) → pkey = none) ∧
    ((∀ r ∈ ossl.storeReturns eckey t, r.seen = false) → ∀ c ∈ text, (hexValue? c).isSome)

/-- What comes of the key behind its length check: a private key has its public point set, and
what is stored is stored exactly. -/
def ImportsExactly (pkey : Option ossl.Pkey) (keytype : Int) (text : Bytes) (t : Nat) : Prop :=
  if keytype = keyPrivate then
    (ossl.setPublic text t).1 ≠ 0 ∧
      ossl.StoresExactly pkey text (ossl.setPublic text t).2 (t + 8)
  else ossl.StoresExactly pkey text (ossl.setCoordinates text t).2 (t + 4)

/-! ## Up to the result -/

variable {ossl} {pkey : Option ossl.Pkey} {text : CString} {keytype : Int} {t : Nat} {e : ErrorType}

/-- The calls of `derivePoint`, for an EC key that was made. -/
theorem derivePoint_guarded (text : Bytes) {s : CryptoState} (hclock : s.clock = t + 1)
    (herror : s.errorType = .none) :
    Guarded CryptoState.log Returned.seen s.log
      (ossl.derivePoint (ossl.ecKeyNewByCurveName t) text s) (ossl.privateReturns text t).tail
      (·.1 = false) (fun result s' => result.1 = true ∧
        ossl.ecKeySetPublicKey (t + 7) result.2.1 result.2.2 = ossl.setPublic text t ∧
        s'.clock = t + 7 ∧ s'.errorType = .none ∧
        s'.handed = s.handed ++ [[(ossl.bnHex2bn (t + 2) text).2]]) := by
  obtain ⟨clock, errorType, log, handed⟩ := s
  cases hclock
  cases herror
  unfold derivePoint privateReturns
  dsimp only [List.tail_cons]
  rw [query_bind]
  refine guarded_invoke (fun _ => decide_eq_true_iff) (fun _ => failWith_gaveUp _) ?_
  rw [hand_bind]
  refine guarded_invoke (fun _ => decide_eq_true_iff) (fun _ => failWith_gaveUp _) ?_
  rw [query_bind]
  refine guarded_invoke (fun _ => Iff.rfl) (fun _ => failWith_gaveUp _) ?_
  refine guarded_invoke (fun _ => decide_eq_true_iff) (fun _ => failWith_gaveUp _) ?_
  rw [cleanup_bind]
  refine Guarded.last ?_ ⟨rfl, rfl, rfl, rfl, rfl⟩
  simp

/-- The calls of `loadPublic`. -/
theorem loadPublic_guarded (text : Bytes) {s : CryptoState} (hclock : s.clock = t + 1)
    (herror : s.errorType = .none) :
    Guarded CryptoState.log Returned.seen s.log
      (ossl.loadPublic (ossl.ecKeyNewByCurveName t) text s) (ossl.publicReturns text t).tail
      (·.1 = false) (fun result s' => result = (true, (ossl.setCoordinates text t).2) ∧
        s'.clock = t + 4 ∧ s'.errorType = .none ∧
        s'.handed = s.handed ++ [[(ossl.bnHex2bn (t + 1) (text.take 64)).2,
          (ossl.bnHex2bn (t + 2) (text.drop 64)).2]]) := by
  obtain ⟨clock, errorType, log, handed⟩ := s
  cases hclock
  cases herror
  unfold loadPublic publicReturns
  dsimp only [List.tail_cons]
  refine guarded_invoke (fun _ => decide_eq_true_iff) (fun _ => failWith_gaveUp _) ?_
  refine guarded_invoke (fun _ => decide_eq_true_iff) (fun _ => failWith_gaveUp _) ?_
  rw [hand_bind]
  refine guarded_invoke (fun _ => decide_eq_true_iff) (fun _ => failWith_gaveUp _) ?_
  rw [cleanup_bind]
  refine Guarded.last ?_ ⟨rfl, rfl, rfl, rfl⟩
  simp

/-- A run that has no effect is exact. -/
theorem loadsExactly_refused {hexstring : Option CString}
    {run : Option (Bool × Option ossl.Pkey) × CryptoState} (hrun : run.1 = some (false, pkey)) :
    ossl.LoadsExactly pkey hexstring keytype run where
  returns := by rw [hrun]; rfl
  accepts := by
    intro result hresult htrue
    rw [hrun] at hresult
    cases hresult
    cases htrue
  refuses := by
    intro result hresult _
    rw [hrun] at hresult
    cases hresult
    rfl

/-- The state in which the key is imported. -/
def imported (ossl : OpenSsl) (t : Nat) : CryptoState :=
  (CryptoState.start t .none).called [.pointer (ossl.ecKeyNewByCurveName t).isNone]

/-- What `key_load` does with an imported key. -/
def finishLoad (pkey : Option ossl.Pkey) (loaded : Bool × Option ossl.EcKey) :
    Proc CryptoState (Bool × Option ossl.Pkey) :=
  if !loaded.1 then pure (false, pkey) else ossl.storeKey loaded.2

theorem keyLoad_of_length (hlength : reqlen keytype = some text.bytes.length) :
    ossl.keyLoad pkey (some text) keytype (.start t e) =
      (if (ossl.ecKeyNewByCurveName t).isNone = true then failWith pkey
      else if keytype = keyPrivate then
        ossl.loadPrivate (ossl.ecKeyNewByCurveName t) text.bytes >>= finishLoad pkey
      else ossl.loadPublic (ossl.ecKeyNewByCurveName t) text.bytes >>= finishLoad pkey)
        (ossl.imported t) := by
  unfold keyLoad
  rw [setError_bind]
  dsimp only
  rw [if_neg (not_not.mpr hlength), invoke_bind]
  rfl

theorem storeKey_guarded (eckey : Option ossl.EcKey) {s : CryptoState}
    (herror : s.errorType = .none) :
    Guarded CryptoState.log Returned.seen s.log (ossl.storeKey eckey s)
      (ossl.storeReturns eckey s.clock) (· = (false, none))
      (fun result s' => result =
          (true, (ossl.evpPkeySet1EcKey (s.clock + 1) (ossl.evpPkeyNew s.clock) eckey).2) ∧
        s'.handed = s.handed) := by
  have hstop : ∀ s, ∃ result, (failWith (none : Option ossl.Pkey) s).1 = some result ∧
      result = (false, none) := fun s => ⟨(false, none), rfl, rfl⟩
  obtain ⟨clock, errorType, log, handed⟩ := s
  cases herror
  unfold storeKey storeReturns
  refine guarded_invoke (fun _ => Iff.rfl) (fun _ => hstop) ?_
  refine guarded_invoke (fun _ => decide_eq_true_iff) (fun _ => hstop) ?_
  rw [cleanup_bind]
  refine Guarded.last ?_ ⟨rfl, rfl⟩
  simp

/-- What is stored of a key of the right length, whose numbers are those of its digits if it has
no other characters. -/
theorem loadsExactly_storeKey_iff (hlength : reqlen keytype = some text.bytes.length)
    (eckey : Option ossl.EcKey) {s : CryptoState} (herror : s.errorType = .none)
    (hhanded : (∀ c ∈ text.bytes, (hexValue? c).isSome) →
      s.handed = [keyNumbers keytype text.bytes]) :
    ossl.LoadsExactly pkey (some text) keytype (ossl.storeKey eckey s) ↔
      ossl.StoresExactly pkey text.bytes eckey s.clock := by
  obtain ⟨hstops, hcompletes⟩ := storeKey_guarded eckey herror
  rcases Guarded.seen_or_quiet Returned.seen (ossl.storeReturns eckey s.clock) with hseen | hquiet
  · -- `*pkey` is `NULL` now.
    obtain ⟨_, hresult, rfl⟩ := hstops hseen
    constructor
    · intro hexact
      exact ⟨fun _ => (hexact.refuses _ hresult rfl).symm, fun hquiet =>
        absurd hseen (Guarded.not_seen_of_quiet hquiet)⟩
    · intro hstores
      exact loadsExactly_refused (by rw [hresult, hstores.1 hseen])
  · obtain ⟨_, hresult, _, rfl, hkept⟩ := hcompletes hquiet
    constructor
    · intro hexact
      obtain ⟨text', htext, hformed, _⟩ := hexact.accepts _ hresult rfl
      cases htext
      exact ⟨fun hseen => absurd hseen (Guarded.not_seen_of_quiet hquiet), fun _ => hformed.2⟩
    · intro hstores
      have hdigits := hstores.2 hquiet
      refine ⟨by rw [hresult]; rfl, fun result hr _ => ?_, fun result hr hfalse => ?_⟩
      · exact ⟨text, rfl, ⟨hlength, hdigits⟩, by rw [hkept, hhanded hdigits]⟩
      · rw [hresult] at hr
        cases hr
        cases hfalse

/-- A call that was not stopped by its test. -/
theorem ne_zero_of_quiet {returns : List Returned} (hquiet : ∀ r ∈ returns, r.seen = false)
    {rv : Int} (hmem : .nonzero rv ∈ returns) : rv ≠ 0 :=
  of_decide_eq_false (hquiet _ hmem)

/-- A key of digits is converted as a whole. -/
theorem number_of_digits {digits : Bytes}
    (hhex : ∀ t text, (ossl.bnHex2bn t text).1 ≠ 0 → ossl.bnHex2bn t text = hex2bn text)
    (hnonzero : (ossl.bnHex2bn t digits).1 ≠ 0) (hne : digits ≠ [])
    (hdigits : ∀ c ∈ digits, (hexValue? c).isSome) :
    (ossl.bnHex2bn t digits).2 = some (hexNat digits : Int) := by
  rw [hhex t digits hnonzero, hex2bn_digits hne hdigits]

/-! ## Both types of keys -/

/-- A private key that was imported is stored, once its public point is set. -/
theorem keyLoad_private_eq (hlength : reqlen keyPrivate = some text.bytes.length)
    (hquiet : ∀ r ∈ ossl.privateReturns text.bytes t, r.seen = false) :
    ∃ last : CryptoState, last.clock = t + 8 ∧ last.errorType = .none ∧
      last.handed = [[(ossl.bnHex2bn (t + 2) text.bytes).2]] ∧
      ossl.keyLoad pkey (some text) keyPrivate (.start t e) =
        (if (ossl.setPublic text.bytes t).1 = 0 then Proc.die
          else ossl.storeKey (ossl.setPublic text.bytes t).2) last := by
  have hkey : ¬ (ossl.ecKeyNewByCurveName t).isNone = true := by
    rw [Bool.not_eq_true]
    exact hquiet (.pointer _) List.mem_cons_self
  obtain ⟨⟨derived, eckey, pubpt⟩, hderived, _, htrue, hset, hclock, herror, hhanded⟩ :=
    (derivePoint_guarded (t := t) text.bytes (s := ossl.imported t) rfl rfl).completes
      fun r hmem => hquiet r (List.mem_of_mem_tail hmem)
  cases htrue
  obtain ⟨last, hlast⟩ : ∃ last, last =
      (ossl.derivePoint (ossl.ecKeyNewByCurveName t) text.bytes (ossl.imported t)).2 := ⟨_, rfl⟩
  rw [← hlast] at hclock herror hhanded
  have hrun : ossl.derivePoint (ossl.ecKeyNewByCurveName t) text.bytes (ossl.imported t) =
      (some (true, eckey, pubpt), last) := Prod.ext hderived hlast.symm
  have hload : ossl.loadPrivate (ossl.ecKeyNewByCurveName t) text.bytes (ossl.imported t) =
      (if (ossl.setPublic text.bytes t).1 = 0 then Proc.die
        else pure (true, (ossl.setPublic text.bytes t).2))
          (last.called [.nonzero (ossl.setPublic text.bytes t).1]) := by
    rw [loadPrivate, Proc.bind_of_some hrun]
    dsimp only at hset ⊢
    rw [Bool.not_true, if_neg Bool.false_ne_true, invoke_bind, hclock, hset]
  refine ⟨last.called [.nonzero (ossl.setPublic text.bytes t).1], ?_, herror, hhanded, ?_⟩
  · rw [CryptoState.called_clock, hclock]
  · rw [keyLoad_of_length hlength, if_neg hkey, if_pos rfl]
    by_cases hpublic : (ossl.setPublic text.bytes t).1 = 0
    · rw [if_pos hpublic] at hload ⊢
      rw [Proc.bind_of_none hload]
      rfl
    · rw [if_neg hpublic] at hload ⊢
      rw [Proc.bind_of_some hload]
      rfl

theorem loadsExactly_private_iff
    (hhex : ∀ t text, (ossl.bnHex2bn t text).1 ≠ 0 → ossl.bnHex2bn t text = hex2bn text)
    (hlength : reqlen keyPrivate = some text.bytes.length)
    (hquiet : ∀ r ∈ ossl.privateReturns text.bytes t, r.seen = false) :
    ossl.LoadsExactly pkey (some text) keyPrivate
        (ossl.keyLoad pkey (some text) keyPrivate (.start t e)) ↔
      (ossl.setPublic text.bytes t).1 ≠ 0 ∧
        ossl.StoresExactly pkey text.bytes (ossl.setPublic text.bytes t).2 (t + 8) := by
  have hnonzero : (ossl.bnHex2bn (t + 2) text.bytes).1 ≠ 0 :=
    ne_zero_of_quiet hquiet (by simp [privateReturns])
  have hne : text.bytes ≠ [] := by
    intro hnil
    rw [hnil] at hlength
    cases hlength
  obtain ⟨last, hclock, herror, hhanded, hrun⟩ : ∃ last : CryptoState, last.clock = t + 8 ∧
      last.errorType = .none ∧ last.handed = [[(ossl.bnHex2bn (t + 2) text.bytes).2]] ∧
      ossl.keyLoad pkey (some text) keyPrivate (.start t e) =
        (if (ossl.setPublic text.bytes t).1 = 0 then Proc.die
          else ossl.storeKey (ossl.setPublic text.bytes t).2) last :=
    keyLoad_private_eq hlength hquiet
  rw [hrun, ← hclock]
  by_cases hpublic : (ossl.setPublic text.bytes t).1 = 0
  · -- The point is freed twice, and nothing is returned.
    rw [if_pos hpublic]
    exact iff_of_false (fun hexact => Bool.false_ne_true hexact.returns) fun h => h.1 hpublic
  · rw [if_neg hpublic, and_iff_right hpublic]
    apply loadsExactly_storeKey_iff hlength _ herror
    intro hdigits
    rw [hhanded, number_of_digits hhex hnonzero hne hdigits]
    rfl

/-- A public key that was imported is stored. -/
theorem keyLoad_public_eq (hlength : reqlen keyPublic = some text.bytes.length)
    (hquiet : ∀ r ∈ ossl.publicReturns text.bytes t, r.seen = false) :
    ∃ last : CryptoState, last.clock = t + 4 ∧ last.errorType = .none ∧
      last.handed = [[(ossl.bnHex2bn (t + 1) (text.bytes.take 64)).2,
        (ossl.bnHex2bn (t + 2) (text.bytes.drop 64)).2]] ∧
      ossl.keyLoad pkey (some text) keyPublic (.start t e) =
        ossl.storeKey (ossl.setCoordinates text.bytes t).2 last := by
  have hkey : ¬ (ossl.ecKeyNewByCurveName t).isNone = true := by
    rw [Bool.not_eq_true]
    exact hquiet (.pointer _) List.mem_cons_self
  have htype : ¬ keyPublic = keyPrivate := by decide
  obtain ⟨loaded, hloaded, _, rfl, hclock, herror, hhanded⟩ :=
    (loadPublic_guarded (t := t) text.bytes (s := ossl.imported t) rfl rfl).completes
      fun r hmem => hquiet r (List.mem_of_mem_tail hmem)
  have hload : ossl.loadPublic (ossl.ecKeyNewByCurveName t) text.bytes (ossl.imported t) =
      (some (true, (ossl.setCoordinates text.bytes t).2),
        (ossl.loadPublic (ossl.ecKeyNewByCurveName t) text.bytes (ossl.imported t)).2) :=
    Prod.ext hloaded rfl
  refine ⟨_, hclock, herror, hhanded, ?_⟩
  rw [keyLoad_of_length hlength, if_neg hkey, if_neg htype, Proc.bind_of_some hload]
  rfl

theorem loadsExactly_public_iff
    (hhex : ∀ t text, (ossl.bnHex2bn t text).1 ≠ 0 → ossl.bnHex2bn t text = hex2bn text)
    (hlength : reqlen keyPublic = some text.bytes.length)
    (hquiet : ∀ r ∈ ossl.publicReturns text.bytes t, r.seen = false) :
    ossl.LoadsExactly pkey (some text) keyPublic
        (ossl.keyLoad pkey (some text) keyPublic (.start t e)) ↔
      ossl.StoresExactly pkey text.bytes (ossl.setCoordinates text.bytes t).2 (t + 4) := by
  have hx : (ossl.bnHex2bn (t + 1) (text.bytes.take 64)).1 ≠ 0 :=
    ne_zero_of_quiet hquiet (by simp [publicReturns])
  have hy : (ossl.bnHex2bn (t + 2) (text.bytes.drop 64)).1 ≠ 0 :=
    ne_zero_of_quiet hquiet (by simp [publicReturns])
  have hsize : text.bytes.length = 128 := (Option.some.inj hlength).symm
  obtain ⟨last, hclock, herror, hhanded, hrun⟩ : ∃ last : CryptoState, last.clock = t + 4 ∧
      last.errorType = .none ∧ last.handed = [[(ossl.bnHex2bn (t + 1) (text.bytes.take 64)).2,
        (ossl.bnHex2bn (t + 2) (text.bytes.drop 64)).2]] ∧
      ossl.keyLoad pkey (some text) keyPublic (.start t e) =
        ossl.storeKey (ossl.setCoordinates text.bytes t).2 last :=
    keyLoad_public_eq hlength hquiet
  rw [hrun, ← hclock]
  apply loadsExactly_storeKey_iff hlength _ herror
  intro hdigits
  have hfront : text.bytes.take 64 ≠ [] := by
    apply List.ne_nil_of_length_pos
    rw [List.length_take]
    omega
  have hback : text.bytes.drop 64 ≠ [] := by
    apply List.ne_nil_of_length_pos
    rw [List.length_drop]
    omega
  rw [hhanded, number_of_digits hhex hx hfront fun c hc => hdigits c (List.mem_of_mem_take hc),
    number_of_digits hhex hy hback fun c hc => hdigits c (List.mem_of_mem_drop hc)]
  rfl

/-- A key whose import is stopped is refused. -/
theorem keyLoad_of_seen (hlength : reqlen keytype = some text.bytes.length)
    (hseen : ∃ r ∈ ossl.importReturns keytype text.bytes t, r.seen = true) :
    (ossl.keyLoad pkey (some text) keytype (.start t e)).1 = some (false, pkey) := by
  rw [keyLoad_of_length hlength]
  by_cases hkey : (ossl.ecKeyNewByCurveName t).isNone = true
  · rw [if_pos hkey]
    rfl
  · rw [if_neg hkey]
    obtain ⟨r, hmem, hr⟩ := hseen
    have hother : r ≠ .pointer (ossl.ecKeyNewByCurveName t).isNone := by
      rintro rfl
      exact hkey hr
    unfold importReturns at hmem
    by_cases htype : keytype = keyPrivate
    · rw [if_pos htype] at hmem ⊢
      obtain ⟨derived, hderived, hfalse⟩ :=
        (derivePoint_guarded (t := t) text.bytes (s := ossl.imported t) rfl rfl).stops
          ⟨r, (List.mem_cons.mp hmem).resolve_left hother, hr⟩
      have hrun : ossl.derivePoint (ossl.ecKeyNewByCurveName t) text.bytes (ossl.imported t) =
          (some derived, _) := Prod.ext hderived rfl
      have hload : ossl.loadPrivate (ossl.ecKeyNewByCurveName t) text.bytes (ossl.imported t) =
          (some (false, derived.2.1),
            (ossl.derivePoint (ossl.ecKeyNewByCurveName t) text.bytes (ossl.imported t)).2) := by
        rw [loadPrivate, Proc.bind_of_some hrun]
        dsimp only
        rw [hfalse, Bool.not_false, if_pos rfl]
        rfl
      rw [Proc.bind_of_some hload]
      rfl
    · rw [if_neg htype] at hmem ⊢
      obtain ⟨loaded, hloaded, hfalse⟩ :=
        (loadPublic_guarded (t := t) text.bytes (s := ossl.imported t) rfl rfl).stops
          ⟨r, (List.mem_cons.mp hmem).resolve_left hother, hr⟩
      have hload : ossl.loadPublic (ossl.ecKeyNewByCurveName t) text.bytes (ossl.imported t) =
          (some loaded, _) := Prod.ext hloaded rfl
      rw [Proc.bind_of_some hload, finishLoad, hfalse]
      rfl

/-- `key_load` is exact for texts that it does not look at, for keys whose import fails in a way
that it notices, and for those that it imports and stores exactly. -/
theorem keyLoad_exact_iff (ossl : OpenSsl) (pkey : Option ossl.Pkey) (hexstring : Option CString)
    (keytype : Int) (t : Nat) (e : ErrorType)
    (hhex : ∀ t text, (ossl.bnHex2bn t text).1 ≠ 0 → ossl.bnHex2bn t text = hex2bn text) :
    ossl.LoadsExactly pkey hexstring keytype
        (ossl.keyLoad pkey hexstring keytype (.start t e)) ↔
      ∀ text, hexstring = some text → reqlen keytype = some text.bytes.length →
        (∀ r ∈ ossl.importReturns keytype text.bytes t, r.seen = false) →
          ossl.ImportsExactly pkey keytype text.bytes t := by
  cases hexstring with
  | none => exact iff_of_true (loadsExactly_refused rfl) fun text h => nomatch h
  | some text =>
      simp only [Option.some.injEq, forall_eq']
      by_cases hlength : reqlen keytype = some text.bytes.length
      · simp only [hlength, true_implies]
        rcases Guarded.seen_or_quiet Returned.seen (ossl.importReturns keytype text.bytes t) with
          hseen | hquiet
        · exact iff_of_true (loadsExactly_refused (keyLoad_of_seen hlength hseen)) fun hquiet =>
            absurd hseen (Guarded.not_seen_of_quiet hquiet)
        · rw [forall_prop_of_true hquiet, ImportsExactly]
          by_cases htype : keytype = keyPrivate
          · subst htype
            rw [if_pos rfl]
            exact loadsExactly_private_iff hhex hlength hquiet
          · have hpublic : keytype = keyPublic := by
              unfold reqlen at hlength
              rw [if_neg htype] at hlength
              split at hlength
              next h => exact h
              next => cases hlength
            subst hpublic
            rw [if_neg htype]
            rw [importReturns, if_neg htype] at hquiet
            exact loadsExactly_public_iff hhex hlength hquiet
      · refine iff_of_true (loadsExactly_refused ?_) fun h => absurd h hlength
        unfold keyLoad
        rw [setError_bind]
        dsimp only
        rw [if_pos hlength]
        rfl

/-- The digits of the base point. -/
def basePointText : CString :=
  ⟨ascii "6b17d1f2e12c4247f8bce6e563a440f277037d812deb33a0f4a13945d898c296" ++
    ascii "4fe342e2fe1a7f9b8ee7eb4a7c0f9e162bce33576b315ececbb6406837bf51f5", by decide +kernel⟩

theorem basePointText_digits : ∀ c ∈ basePointText.bytes, (hexValue? c).isSome :=
  List.all_eq_true.mp (by decide +kernel)

theorem basePoint_loadsExactly :
    plain.LoadsExactly none (some basePointText) keyPublic
      (plain.keyLoad none (some basePointText) keyPublic (.start 0 .none)) := by
  refine (keyLoad_exact_iff plain none _ keyPublic 0 .none fun _ _ _ => rfl).mpr ?_
  intro text htext _ _
  cases htext
  exact ⟨fun _ => rfl, fun _ => basePointText_digits⟩

/-- One digit before other characters is the private key 1. -/
theorem oneDigit_not_loadsExactly :
    ¬ plain.LoadsExactly none (some ⟨49 :: List.replicate 63 122, by decide⟩) keyPrivate
      (plain.keyLoad none (some ⟨49 :: List.replicate 63 122, by decide⟩) keyPrivate
        (.start 0 .none)) := by
  intro hexact
  have hrun : (plain.keyLoad none (some ⟨49 :: List.replicate 63 122, by decide⟩) keyPrivate
      (.start 0 .none)).1 =
        some (true, some (some (some 1, some ((p256BaseX : Int), (p256BaseY : Int))))) := rfl
  obtain ⟨text, htext, hformed, _⟩ := hexact.accepts _ hrun rfl
  cases htext
  exact absurd (hformed.2 122 (by decide)) (by decide)

end OpenSsl

end RemoteAttestation
