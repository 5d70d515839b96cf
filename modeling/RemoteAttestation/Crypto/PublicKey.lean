import RemoteAttestation.Crypto.KeyLoad
import RemoteAttestation.Crypto.Success

/-! # The service public key

The client takes the key from its option `-p` byte by byte, and the service provider takes it
through the numbers of an EC key. Both come to the same 64 bytes.
-/

namespace RemoteAttestation

/-! ## The client -/

/-- A loop that copies 32 bytes from `last` on downwards. -/
def copyReversed (keyin : Bytes) (last : Nat) : Block 32 :=
  ⟨(List.range 32).map fun i => keyin.getD (last - i) 0, by simp⟩

/-- The option `-p`, for the memory at `optarg`: `config.pubkey`, unless the client exits. -/
def optionPubkey (stale : Nat → UInt8) (optarg : Bytes) : Option (Block 32 × Block 32) :=
  let (ok, keyin) := fromHexstring stale optarg 64
  if !ok then none else some (copyReversed keyin 31, copyReversed keyin 63)

theorem bytes_copyReversed {keyin : Bytes} (first : Nat) (hlength : first + 32 ≤ keyin.length) :
    (copyReversed keyin (first + 31)).bytes = ((keyin.drop first).take 32).reverse := by
  have hsize : ((keyin.drop first).take 32).length = 32 := by
    rw [List.length_take, List.length_drop]
    omega
  apply List.ext_getElem
  · rw [Block.length_bytes, List.length_reverse, hsize]
  · intro i hi _
    rw [Block.length_bytes] at hi
    have hindex : first + 31 - i = first + (32 - 1 - i) := by omega
    simp only [copyReversed, List.getElem_map, List.getElem_range, List.getElem_reverse, hsize,
      List.getElem_take, List.getElem_drop]
    rw [hindex]
    exact (List.getElem_eq_getD 0).symm

/-- The 32 bytes that 64 digits stand for, in the opposite order. -/
theorem reverse_hexPairs {digits : Bytes} (hlength : digits.length = 64)
    (hdigits : ∀ c ∈ digits, (hexValue? c).isSome) :
    (hexPairs digits).reverse = leBytes 32 (hexNat digits) := by
  have hsize : (hexPairs digits).reverse.length = 32 := by
    rw [List.length_reverse, length_hexPairs, hlength]
  rw [← leNat_reverse_hexPairs hdigits (by omega), ← hsize, leBytes_leNat]

theorem hexPairs_append {front back : Bytes} (heven : front.length % 2 = 0) :
    hexPairs (front ++ back) = hexPairs front ++ hexPairs back := by
  fun_induction hexPairs front with
  | case1 high low rest ih =>
      simp only [List.length_cons] at heven
      rw [List.cons_append, List.cons_append, hexPairs, ih (by omega), List.cons_append]
  | case2 front hshort =>
      have hlength := length_lt_two hshort
      have hempty : front = [] := List.eq_nil_of_length_eq_zero (by omega)
      rw [hempty]
      rfl

/-- The two coordinates, each in little-endian order. -/
def pointBytes (x y : Nat) : Block 32 × Block 32 := (leBlock 32 x, leBlock 32 y)

/-- A text of 128 digits. -/
structure KeyText (hex : CString) (x y : Nat) : Prop where
  length_eq : hex.bytes.length = 128
  digits : ∀ c ∈ hex.bytes, (hexValue? c).isSome
  x_eq : x = hexNat (hex.bytes.take 64)
  y_eq : y = hexNat (hex.bytes.drop 64)

namespace KeyText

variable {hex : CString} {x y : Nat}

theorem length_take (htext : KeyText hex x y) : (hex.bytes.take 64).length = 64 := by
  rw [List.length_take, htext.length_eq]
  rfl

theorem length_drop (htext : KeyText hex x y) : (hex.bytes.drop 64).length = 64 := by
  rw [List.length_drop, htext.length_eq]

theorem digits_take (htext : KeyText hex x y) : ∀ c ∈ hex.bytes.take 64, (hexValue? c).isSome :=
  fun c hc => htext.digits c (List.mem_of_mem_take hc)

theorem digits_drop (htext : KeyText hex x y) : ∀ c ∈ hex.bytes.drop 64, (hexValue? c).isSome :=
  fun c hc => htext.digits c (List.mem_of_mem_drop hc)

theorem lt (htext : KeyText hex x y) : x < 256 ^ 32 ∧ y < 256 ^ 32 := by
  have hbound : ∀ digits : Bytes, digits.length = 64 → (∀ c ∈ digits, (hexValue? c).isSome) →
      hexNat digits < 256 ^ 32 := by
    intro digits hlength hdigits
    have hlt := leNat_lt (hexPairs digits).reverse
    rwa [leNat_reverse_hexPairs hdigits (by omega), List.length_reverse, length_hexPairs,
      hlength] at hlt
  rw [htext.x_eq, htext.y_eq]
  exact ⟨hbound _ htext.length_take htext.digits_take, hbound _ htext.length_drop htext.digits_drop⟩

/-- What the client stores. -/
theorem optionPubkey_eq (htext : KeyText hex x y) (stale : Nat → UInt8) (behind : Bytes) :
    optionPubkey stale (hex.text behind) = some (pointBytes x y) := by
  have hall : HexDigits hex.bytes 64 :=
    ⟨Nat.le_of_eq htext.length_eq.symm,
      fun c hc => htext.digits c (List.mem_of_mem_take hc)⟩
  have hdecode := fromHexstring_digits stale hall (0 :: behind)
  have hwhole : hexPairs (hex.bytes.take (2 * 64)) =
      hexPairs (hex.bytes.take 64) ++ hexPairs (hex.bytes.drop 64) := by
    rw [List.take_of_length_le (Nat.le_of_eq htext.length_eq), ← hexPairs_append,
      List.take_append_drop]
    rw [htext.length_take]
  have hfront : (hexPairs (hex.bytes.take 64)).length = 32 := by
    rw [length_hexPairs, htext.length_take]
  have hback : (hexPairs (hex.bytes.drop 64)).length = 32 := by
    rw [length_hexPairs, htext.length_drop]
  have hkeyin : (hexPairs (hex.bytes.take 64) ++ hexPairs (hex.bytes.drop 64)).length = 64 := by
    rw [List.length_append, hfront, hback]
  have hx : copyReversed (hexPairs (hex.bytes.take 64) ++ hexPairs (hex.bytes.drop 64)) 31 =
      leBlock 32 x := by
    apply Block.ext
    rw [bytes_copyReversed 0 (by omega), List.drop_zero, List.take_left' hfront,
      reverse_hexPairs htext.length_take htext.digits_take, ← htext.x_eq, bytes_leBlock]
  have hy : copyReversed (hexPairs (hex.bytes.take 64) ++ hexPairs (hex.bytes.drop 64)) 63 =
      leBlock 32 y := by
    apply Block.ext
    rw [bytes_copyReversed 32 (by omega), List.drop_left' hfront,
      List.take_of_length_le (Nat.le_of_eq hback),
      reverse_hexPairs htext.length_drop htext.digits_drop, ← htext.y_eq, bytes_leBlock]
  unfold optionPubkey CString.text
  rw [hdecode, hwhole]
  dsimp only
  rw [Bool.not_true, if_neg Bool.false_ne_true, hx, hy, pointBytes]

end KeyText

/-! ## The service provider -/

namespace OpenSsl

variable {ossl : OpenSsl} {documented : ossl.Documented} {hex : CString} {x y t : Nat}
  {e : ErrorType}

/-- The numbers that `BN_hex2bn` makes of the two halves. -/
theorem numbers_of_keyText (htext : KeyText hex x y) :
    hex2bn (hex.bytes.take 64) = (64, some (x : Int)) ∧
      hex2bn (hex.bytes.drop 64) = (64, some (y : Int)) := by
  have hconvert : ∀ digits : Bytes, digits.length = 64 → (∀ c ∈ digits, (hexValue? c).isSome) →
      hex2bn digits = (64, some (hexNat digits : Int)) := by
    intro digits hlength hdigits
    rw [hex2bn_digits (List.ne_nil_of_length_pos (by omega)) hdigits, hlength]
    rfl
  rw [htext.x_eq, htext.y_eq]
  exact ⟨hconvert _ htext.length_take htext.digits_take,
    hconvert _ htext.length_drop htext.digits_drop⟩

theorem reqlen_of_keyText (htext : KeyText hex x y) :
    reqlen keyPublic = some hex.bytes.length := by
  rw [htext.length_eq]
  rfl

/-- A tested pointer that is not `NULL`. -/
theorem exists_of_quiet {returns : List Returned} (hquiet : ∀ r ∈ returns, r.seen = false)
    {α : Type} {pointer : Option α} (hmem : .pointer pointer.isNone ∈ returns) :
    ∃ a, pointer = some a := by
  have hnull : pointer.isNone = false := hquiet _ hmem
  cases pointer with
  | none => cases hnull
  | some a => exact ⟨a, rfl⟩

/-- What is stored holds the EC key that it was made of. -/
theorem holds_of_storeKey {key : ossl.EcKey} {s s' : CryptoState}
    (herror : s.errorType = .none) {result : Option ossl.Pkey}
    (hrun : ossl.storeKey (some key) s = (some (true, result), s')) :
    ∃ pkey, result = some pkey ∧ documented.Holds pkey key := by
  have hguarded := storeKey_guarded (some key) herror
  rw [hrun] at hguarded
  obtain ⟨hquiet, hresult, _⟩ := hguarded.of_not_gaveUp fun h => nomatch h
  obtain ⟨pkey, hpkey⟩ := exists_of_quiet hquiet List.mem_cons_self
  have hset := ne_zero_of_quiet hquiet (List.mem_cons_of_mem _ List.mem_cons_self)
  rw [hpkey] at hset hresult
  obtain ⟨pkey', hpkey', hholds⟩ := documented.set1 _ pkey key hset
  rw [hpkey'] at hresult
  exact ⟨pkey', (Prod.mk.inj hresult).2, hholds⟩

/-- A key that was loaded from its digits has the coordinates of the digits. -/
theorem hasPoint_of_keyLoad (documented : ossl.Documented) (htext : KeyText hex x y)
    {pkey result : Option ossl.Pkey} {s : CryptoState}
    (hrun : ossl.keyLoad pkey (some hex) keyPublic (.start t e) = (some (true, result), s)) :
    ∃ pkey key, result = some pkey ∧ documented.Holds pkey key ∧ documented.HasPoint key x y := by
  have hlength := reqlen_of_keyText htext
  have hquiet : ∀ r ∈ ossl.publicReturns hex.bytes t, r.seen = false := by
    rcases Guarded.seen_or_quiet Returned.seen (ossl.publicReturns hex.bytes t) with hseen | hquiet
    · have hrefused : (ossl.keyLoad pkey (some hex) keyPublic (.start t e)).1 =
          some (false, pkey) := keyLoad_of_seen hlength hseen
      rw [hrun] at hrefused
      cases hrefused
    · exact hquiet
  obtain ⟨last, _, herror, _, hstore⟩ : ∃ last : CryptoState, last.clock = t + 4 ∧
      last.errorType = .none ∧ last.handed = [[(ossl.bnHex2bn (t + 1) (hex.bytes.take 64)).2,
        (ossl.bnHex2bn (t + 2) (hex.bytes.drop 64)).2]] ∧
      ossl.keyLoad pkey (some hex) keyPublic (.start t e) =
        ossl.storeKey (ossl.setCoordinates hex.bytes t).2 last :=
    keyLoad_public_eq hlength hquiet
  have hx := documented.bnHex2bn _ _ (ne_zero_of_quiet hquiet
    (List.mem_cons_of_mem _ List.mem_cons_self))
  have hy := documented.bnHex2bn _ _ (ne_zero_of_quiet hquiet
    (List.mem_cons_of_mem _ (List.mem_cons_of_mem _ List.mem_cons_self)))
  have hset : (ossl.setCoordinates hex.bytes t).1 ≠ 0 :=
    ne_zero_of_quiet hquiet (by simp [publicReturns])
  obtain ⟨key, hkey⟩ := exists_of_quiet hquiet List.mem_cons_self
  obtain ⟨hfront, hback⟩ := numbers_of_keyText htext
  rw [setCoordinates, hkey, hx, hy, hfront, hback] at hset
  obtain ⟨key', hkey', hpoint⟩ := documented.setCoordinates _ key x y hset
  rw [hstore, setCoordinates, hkey, hx, hy, hfront, hback, hkey'] at hrun
  obtain ⟨pkey', hresult, hholds⟩ := holds_of_storeKey herror hrun
  exact ⟨pkey', key', hresult, hholds, hpoint⟩

/-- The bytes of a key that has a point are those of its coordinates. -/
theorem pointBytes_of_keyToSgx {pkey : ossl.Pkey} {key : ossl.EcKey}
    (hholds : documented.Holds pkey key) (hpoint : documented.HasPoint key x y)
    (hx : x < 256 ^ 32) (hy : y < 256 ^ 32) {k out : Block 32 × Block 32} {s : CryptoState}
    (hrun : ossl.keyToSgxEc256 k (some pkey) (.start t e) = (some (true, out), s)) :
    out = pointBytes x y := by
  have hguarded := ossl.keyToSgxEc256_guarded k (some pkey) t e
  rw [hrun] at hguarded
  obtain ⟨hquiet, hresult⟩ := hguarded.of_not_gaveUp fun h => nomatch h
  -- The key that is read out is another object, but with the same point.
  have hcoordinates : ossl.coordinates (some pkey) t = (some (x : Int), some (y : Int)) := by
    obtain ⟨key', hkey⟩ := exists_of_quiet hquiet List.mem_cons_self
    have hpoint' := documented.get1 t pkey key key' x y hholds hpoint hkey
    have hget : (ossl.ecPointGetAffineCoordinates (t + 5) (ossl.ecGroupNewByCurveName (t + 1))
        (ossl.ecKeyGet0PublicKey (t + 2) (ossl.evpPkeyGet1EcKey t (some pkey)))
        (ossl.bnNew (t + 3)) (ossl.bnNew (t + 4))).1 ≠ 0 :=
      ne_zero_of_quiet hquiet (by simp [coordinateReturns])
    rw [hkey] at hget
    rw [coordinates, hkey]
    exact documented.getCoordinates _ _ _ key' _ _ x y hpoint' hget
  rw [hcoordinates, documented.bnBn2lebinpad _ x hx, documented.bnBn2lebinpad _ y hy] at hresult
  exact (Prod.mk.inj hresult).2

/-! ## Through an EC key and back -/

/-- The calls of `key_from_sgx_ec256`. -/
def fromReturns (ossl : OpenSsl) (k : Block 32 × Block 32) (t : Nat) : List Returned :=
  let gx := ossl.bnLebin2bn t k.1.bytes
  let gy := ossl.bnLebin2bn (t + 1) k.2.bytes
  let key := ossl.ecKeyNewByCurveName (t + 2)
  let point := ossl.ecKeySetPublicKeyAffineCoordinates (t + 3) key gx gy
  [.pointer gx.isNone, .pointer gy.isNone, .pointer key.isNone, .nonzero point.1,
    .pointer (ossl.evpPkeyNew (t + 4)).isNone,
    .nonzero (ossl.evpPkeySet1EcKey (t + 5) (ossl.evpPkeyNew (t + 4)) point.2).1]

/-- The key that they leave. -/
def fromPkey (ossl : OpenSsl) (k : Block 32 × Block 32) (t : Nat) : Option ossl.Pkey :=
  (ossl.evpPkeySet1EcKey (t + 5) (ossl.evpPkeyNew (t + 4))
    (ossl.ecKeySetPublicKeyAffineCoordinates (t + 3) (ossl.ecKeyNewByCurveName (t + 2))
      (ossl.bnLebin2bn t k.1.bytes) (ossl.bnLebin2bn (t + 1) k.2.bytes)).2).2

theorem keyFromSgxEc256_guarded (ossl : OpenSsl) (k : Block 32 × Block 32) (t : Nat)
    (e : ErrorType) :
    Guarded CryptoState.log Returned.seen [] (ossl.keyFromSgxEc256 k (.start t e))
      (ossl.fromReturns k t) (· = none) (fun pkey _ => pkey = ossl.fromPkey k t) := by
  unfold keyFromSgxEc256 fromReturns
  dsimp only
  rw [setError_bind]
  refine guarded_invoke (fun _ => Iff.rfl) (fun _ => abandon_gaveUp) ?_
  refine guarded_invoke (fun _ => Iff.rfl) (fun _ => abandon_gaveUp) ?_
  refine guarded_invoke (fun _ => Iff.rfl) (fun _ => abandon_gaveUp) ?_
  rw [hand_bind]
  refine guarded_invoke (fun _ => decide_eq_true_iff) (fun _ => abandon_gaveUp) ?_
  refine guarded_invoke (fun _ => Iff.rfl) (fun _ => abandon_gaveUp) ?_
  refine guarded_invoke (fun _ => decide_eq_true_iff) (fun _ => abandon_gaveUp) ?_
  exact Guarded.last rfl rfl

theorem hasPoint_of_keyFromSgx (documented : ossl.Documented) (hx : x < 256 ^ 32)
    (hy : y < 256 ^ 32) {pkey : ossl.Pkey} {s : CryptoState}
    (hrun : ossl.keyFromSgxEc256 (pointBytes x y) (.start t e) = (some (some pkey), s)) :
    ∃ key, documented.Holds pkey key ∧ documented.HasPoint key x y := by
  have hguarded := ossl.keyFromSgxEc256_guarded (pointBytes x y) t e
  rw [hrun] at hguarded
  obtain ⟨hquiet, hresult⟩ := hguarded.of_not_gaveUp fun h => nomatch h
  -- The numbers are those of the bytes, so the point that is set has these coordinates.
  have hnumber : ∀ t v, v < 256 ^ 32 → ∀ number, ossl.bnLebin2bn t (leBlock 32 v).bytes =
      some number → number = (v : Int) := by
    intro t v hv number hsome
    rw [documented.bnLebin2bn _ _ _ hsome, bytes_leBlock, leNat_leBytes _ _ hv]
  obtain ⟨gx, hgx⟩ : ∃ gx, ossl.bnLebin2bn t (leBlock 32 x).bytes = some gx :=
    exists_of_quiet hquiet (by simp [fromReturns, pointBytes])
  obtain ⟨gy, hgy⟩ : ∃ gy, ossl.bnLebin2bn (t + 1) (leBlock 32 y).bytes = some gy :=
    exists_of_quiet hquiet (by simp [fromReturns, pointBytes])
  obtain ⟨key, hkey⟩ : ∃ key, ossl.ecKeyNewByCurveName (t + 2) = some key :=
    exists_of_quiet hquiet (by simp [fromReturns])
  obtain ⟨fresh, hfresh⟩ : ∃ fresh, ossl.evpPkeyNew (t + 4) = some fresh :=
    exists_of_quiet hquiet (by simp [fromReturns])
  have hgx' := hnumber t x hx gx hgx
  have hgy' := hnumber (t + 1) y hy gy hgy
  subst hgx'
  subst hgy'
  have hset : (ossl.ecKeySetPublicKeyAffineCoordinates (t + 3) (some key) (some (x : Int))
      (some (y : Int))).1 ≠ 0 := by
    rw [← hgx, ← hgy, ← hkey]
    exact ne_zero_of_quiet hquiet (by simp [fromReturns, pointBytes])
  obtain ⟨key', hkey', hpoint⟩ := documented.setCoordinates _ key x y hset
  have hset1 : (ossl.evpPkeySet1EcKey (t + 5) (some fresh) (some key')).1 ≠ 0 := by
    rw [← hkey', ← hgx, ← hgy, ← hkey, ← hfresh]
    exact ne_zero_of_quiet hquiet (by simp [fromReturns, pointBytes])
  obtain ⟨pkey', hpkey', hholds⟩ := documented.set1 _ fresh key' hset1
  have heq : some pkey = some pkey' := by
    rw [hresult, fromPkey, pointBytes, hgx, hgy, hkey, hfresh, hkey', hpkey']
  rw [Option.some.inj heq]
  exact ⟨key', hholds, hpoint⟩

/-! ## When nothing fails -/

/-- An EC key that is set to a point of the curve. -/
theorem setCoordinates_succeeds (hnothing : NothingFails documented) (hcurve : OnP256 x y) (t : Nat)
    (key : ossl.EcKey) :
    ∃ rv key', rv ≠ 0 ∧ ossl.ecKeySetPublicKeyAffineCoordinates t (some key) (some (x : Int))
      (some (y : Int)) = (rv, some key') ∧ documented.HasPoint key' x y := by
  have hset := hnothing.setCoordinates t key x y hcurve
  obtain ⟨key', hkey', hpoint⟩ := documented.setCoordinates t key x y hset
  exact ⟨_, key', hset, Prod.ext rfl hkey', hpoint⟩

/-- An `EVP_PKEY` that is set to an EC key. -/
theorem set1_succeeds (hnothing : NothingFails documented) (t : Nat) (pkey : ossl.Pkey)
    (key : ossl.EcKey) :
    ∃ rv pkey', rv ≠ 0 ∧ ossl.evpPkeySet1EcKey t (some pkey) (some key) = (rv, some pkey') := by
  have hset := hnothing.set1 t pkey key
  obtain ⟨pkey', hpkey', _⟩ := documented.set1 t pkey key hset
  exact ⟨_, pkey', hset, Prod.ext rfl hpkey'⟩

theorem keyLoad_succeeds (hnothing : NothingFails documented) (htext : KeyText hex x y)
    (hcurve : OnP256 x y) (pkey : Option ossl.Pkey) (t : Nat) (e : ErrorType) :
    ∃ result s, ossl.keyLoad pkey (some hex) keyPublic (.start t e) = (some (true, result), s) := by
  obtain ⟨hfront, hback⟩ := numbers_of_keyText htext
  obtain ⟨key, hkey⟩ := Option.isSome_iff_exists.mp (hnothing.ecKeyNew t)
  obtain ⟨rv, key', hrv, hset, _⟩ := setCoordinates_succeeds hnothing hcurve (t + 3) key
  have hquiet : ∀ r ∈ ossl.publicReturns hex.bytes t, r.seen = false := by
    rw [publicReturns, setCoordinates, hnothing.bnHex2bn, hnothing.bnHex2bn, hfront, hback, hkey,
      hset]
    simp [Returned.seen, hrv]
  obtain ⟨last, _, herror, _, hstore⟩ : ∃ last : CryptoState, last.clock = t + 4 ∧
      last.errorType = .none ∧ last.handed = [[(ossl.bnHex2bn (t + 1) (hex.bytes.take 64)).2,
        (ossl.bnHex2bn (t + 2) (hex.bytes.drop 64)).2]] ∧
      ossl.keyLoad pkey (some hex) keyPublic (.start t e) =
        ossl.storeKey (ossl.setCoordinates hex.bytes t).2 last :=
    keyLoad_public_eq (reqlen_of_keyText htext) hquiet
  rw [hstore, setCoordinates, hnothing.bnHex2bn, hnothing.bnHex2bn, hfront, hback, hkey, hset]
  obtain ⟨fresh, hfresh⟩ := Option.isSome_iff_exists.mp (hnothing.evpPkeyNew last.clock)
  obtain ⟨rv', pkey', hrv', hset1⟩ := set1_succeeds hnothing (last.clock + 1) fresh key'
  obtain ⟨result, s, hrun, hresult, _⟩ := (storeKey_guarded (some key') herror).returns_of_quiet <| by
    rw [storeReturns, hfresh, hset1]
    simp [Returned.seen, hrv']
  rw [hresult] at hrun
  exact ⟨_, s, hrun⟩

theorem keyFromSgx_succeeds (hnothing : NothingFails documented) (hcurve : OnP256 x y)
    (hx : x < 256 ^ 32) (hy : y < 256 ^ 32) (t : Nat) (e : ErrorType) :
    ∃ pkey s, ossl.keyFromSgxEc256 (pointBytes x y) (.start t e) = (some (some pkey), s) := by
  have hnumber : ∀ t v, v < 256 ^ 32 →
      ossl.bnLebin2bn t (leBlock 32 v).bytes = some (v : Int) := by
    intro t v hv
    obtain ⟨number, hnumber⟩ := Option.isSome_iff_exists.mp
      (hnothing.bnLebin2bn t (leBlock 32 v).bytes)
    rw [hnumber, documented.bnLebin2bn _ _ _ hnumber, bytes_leBlock, leNat_leBytes _ _ hv]
  obtain ⟨key, hkey⟩ := Option.isSome_iff_exists.mp (hnothing.ecKeyNew (t + 2))
  obtain ⟨fresh, hfresh⟩ := Option.isSome_iff_exists.mp (hnothing.evpPkeyNew (t + 4))
  obtain ⟨rv, key', hrv, hset, _⟩ := setCoordinates_succeeds hnothing hcurve (t + 3) key
  obtain ⟨rv', pkey', hrv', hset1⟩ := set1_succeeds hnothing (t + 5) fresh key'
  have hpkey : ossl.fromPkey (pointBytes x y) t = some pkey' := by
    rw [fromPkey, pointBytes, hnumber t x hx, hnumber (t + 1) y hy, hkey, hset, hfresh, hset1]
  obtain ⟨result, s, hrun, hresult⟩ :=
    (ossl.keyFromSgxEc256_guarded (pointBytes x y) t e).returns_of_quiet <| by
      rw [fromReturns, pointBytes, hnumber t x hx, hnumber (t + 1) y hy, hkey, hset, hfresh, hset1]
      simp [Returned.seen, hrv, hrv']
  rw [hresult, hpkey] at hrun
  exact ⟨pkey', s, hrun⟩

theorem keyToSgx_succeeds (hnothing : NothingFails documented) {pkey : ossl.Pkey}
    {key : ossl.EcKey} (hholds : documented.Holds pkey key)
    (hpoint : documented.HasPoint key x y) (hx : x < 256 ^ 32) (hy : y < 256 ^ 32)
    (k : Block 32 × Block 32) (t : Nat) (e : ErrorType) :
    ∃ out s, ossl.keyToSgxEc256 k (some pkey) (.start t e) = (some (true, out), s) := by
  obtain ⟨key', hkey⟩ := Option.isSome_iff_exists.mp (hnothing.get1 t pkey key hholds)
  obtain ⟨group, hgroup⟩ := Option.isSome_iff_exists.mp (hnothing.ecGroupNew (t + 1))
  obtain ⟨gx, hgx⟩ := Option.isSome_iff_exists.mp (hnothing.bnNew (t + 3))
  obtain ⟨gy, hgy⟩ := Option.isSome_iff_exists.mp (hnothing.bnNew (t + 4))
  have hpoint' := documented.get1 t pkey key key' x y hholds hpoint hkey
  have hget := hnothing.getCoordinates (t + 2) (t + 5) (some group) key' (some gx) (some gy) x y
    hpoint'
  have hnumbers := documented.getCoordinates (t + 2) (t + 5) (some group) key' (some gx) (some gy)
    x y hpoint' hget
  obtain ⟨result, s, hrun, hresult⟩ :=
    (ossl.keyToSgxEc256_guarded k (some pkey) t e).returns_of_quiet <| by
      rw [coordinateReturns, hkey, hgroup, hgx, hgy, hnumbers, documented.bnBn2lebinpad _ x hx,
        documented.bnBn2lebinpad _ y hy]
      simp [Returned.seen, hget]
  rw [hresult] at hrun
  exact ⟨_, s, hrun⟩

/-! ## Agreement -/

/-- The client and the service provider make the same 64 bytes of the digits of a point, and
these bytes survive the way into an EC key and back. Whenever the calls return 1 they give these
bytes, and if nothing fails they return 1 for every point on the curve. -/
theorem publicKey_agrees (documented : ossl.Documented) (htext : KeyText hex x y) :
    (∀ stale behind, optionPubkey stale (hex.text behind) = some (pointBytes x y)) ∧
    (∀ pkey result k out t e s t' e' s',
      ossl.keyLoad pkey (some hex) keyPublic (.start t e) = (some (true, result), s) →
      ossl.keyToSgxEc256 k result (.start t' e') = (some (true, out), s') →
        out = pointBytes x y) ∧
    (∀ pkey k out t e s t' e' s',
      ossl.keyFromSgxEc256 (pointBytes x y) (.start t e) = (some (some pkey), s) →
      ossl.keyToSgxEc256 k (some pkey) (.start t' e') = (some (true, out), s') →
        out = pointBytes x y) ∧
    (NothingFails documented → OnP256 x y → ∀ pkey k t e t' e',
      (∃ result s s',
        ossl.keyLoad pkey (some hex) keyPublic (.start t e) = (some (true, result), s) ∧
        ossl.keyToSgxEc256 k result (.start t' e') = (some (true, pointBytes x y), s')) ∧
      ∃ pkey s s',
        ossl.keyFromSgxEc256 (pointBytes x y) (.start t e) = (some (some pkey), s) ∧
        ossl.keyToSgxEc256 k (some pkey) (.start t' e') = (some (true, pointBytes x y), s')) := by
  obtain ⟨hx, hy⟩ := htext.lt
  refine ⟨htext.optionPubkey_eq, ?_, ?_, ?_⟩
  · intro pkey result k out t e s t' e' s' hload hbytes
    obtain ⟨pkey', key, rfl, hholds, hpoint⟩ := hasPoint_of_keyLoad documented htext hload
    exact pointBytes_of_keyToSgx hholds hpoint hx hy hbytes
  · intro pkey k out t e s t' e' s' hfrom hbytes
    obtain ⟨key, hholds, hpoint⟩ := hasPoint_of_keyFromSgx documented hx hy hfrom
    exact pointBytes_of_keyToSgx hholds hpoint hx hy hbytes
  · intro hnothing hcurve pkey k t e t' e'
    constructor
    · obtain ⟨result, s, hload⟩ := keyLoad_succeeds hnothing htext hcurve pkey t e
      obtain ⟨pkey', key, rfl, hholds, hpoint⟩ := hasPoint_of_keyLoad documented htext hload
      obtain ⟨out, s', hbytes⟩ := keyToSgx_succeeds hnothing hholds hpoint hx hy k t' e'
      have hout := pointBytes_of_keyToSgx hholds hpoint hx hy hbytes
      exact ⟨_, s, s', hload, hout ▸ hbytes⟩
    · obtain ⟨pkey', s, hfrom⟩ := keyFromSgx_succeeds hnothing hcurve hx hy t e
      obtain ⟨key, hholds, hpoint⟩ := hasPoint_of_keyFromSgx documented hx hy hfrom
      obtain ⟨out, s', hbytes⟩ := keyToSgx_succeeds hnothing hholds hpoint hx hy k t' e'
      have hout := pointBytes_of_keyToSgx hholds hpoint hx hy hbytes
      exact ⟨pkey', s, s', hfrom, hout ▸ hbytes⟩

/-! ## The base point -/

/-- The library that keeps its points as pairs of numbers. -/
def plainDocumented : plain.Documented where
  HasPoint key x y := key.2 = some ((x : Int), (y : Int))
  Holds pkey key := pkey = some key
  bnHex2bn _ _ _ := rfl
  bnLebin2bn _ _ _ hsome := (Option.some.inj hsome).symm
  bnBn2lebinpad _ _ hv := if_pos hv
  setCoordinates := by
    intro t key x y hset
    by_cases hcurve : OnP256 x y
    · exact ⟨(key.1, some ((x : Int), (y : Int))), congrArg Prod.snd (if_pos hcurve), rfl⟩
    · exact absurd (congrArg Prod.fst (if_neg hcurve)) hset
  set1 _ _ key _ := ⟨some key, rfl, rfl⟩
  get1 := by
    intro t pkey key key' x y hholds hpoint hget
    subst hholds
    rw [← Option.some.inj hget]
    exact hpoint
  getCoordinates := by
    intro t t' group key gx gy x y hpoint hget
    change (plain.ecPointGetAffineCoordinates t' group key.2 gx gy).2 = _
    rw [hpoint]
    rfl

theorem plain_nothingFails : NothingFails plainDocumented where
  bnHex2bn _ _ := rfl
  bnLebin2bn _ _ := rfl
  bnNew _ := rfl
  ecKeyNew _ := rfl
  ecGroupNew _ := rfl
  evpPkeyNew _ := rfl
  setCoordinates := by
    intro t key x y hcurve hzero
    have hone : (plain.ecKeySetPublicKeyAffineCoordinates t (some key) (some (x : Int))
        (some (y : Int))).1 = 1 := congrArg Prod.fst (if_pos hcurve)
    rw [hone] at hzero
    exact absurd hzero Int.one_ne_zero
  set1 _ _ _ := Int.one_ne_zero
  get1 := by
    intro t pkey key hholds
    subst hholds
    rfl
  getCoordinates := by
    intro t t' group key gx gy x y hpoint
    change (plain.ecPointGetAffineCoordinates t' group key.2 gx gy).1 ≠ 0
    rw [hpoint]
    exact Int.one_ne_zero

theorem basePoint_onP256 : OnP256 p256BaseX p256BaseY := by decide +kernel

theorem basePoint_keyText : KeyText basePointText p256BaseX p256BaseY where
  length_eq := by decide +kernel
  digits := basePointText_digits
  x_eq := by decide +kernel
  y_eq := by decide +kernel

/-- The base point, as a key of the service provider. -/
theorem basePoint_agrees :
    optionPubkey (fun _ => 0) (basePointText.text []) = some (pointBytes p256BaseX p256BaseY) ∧
      ∃ result s s',
        plain.keyLoad none (some basePointText) keyPublic (.start 0 .none) =
          (some (true, result), s) ∧
        plain.keyToSgxEc256 (.zero 32, .zero 32) result (.start 0 .none) =
          (some (true, pointBytes p256BaseX p256BaseY), s') := by
  obtain ⟨hclient, _, _, hserver⟩ := publicKey_agrees plainDocumented basePoint_keyText
  obtain ⟨hload, _⟩ := hserver plain_nothingFails basePoint_onP256 none (.zero 32, .zero 32)
    0 .none 0 .none
  exact ⟨hclient _ _, hload⟩

end OpenSsl

end RemoteAttestation
