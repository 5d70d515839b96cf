import RemoteAttestation.Transport.HexDecoder
import RemoteAttestation.Crypto.OpenSsl

/-! # Numbers, digits and points

What OpenSSL documents about its conversions and its EC keys, as far as `crypto.c` relies on it.
-/

namespace RemoteAttestation

/-! ## Hexadecimal numbers -/

/-- The number that hexadecimal digits stand for, the most significant one first. -/
def hexNat (digits : Bytes) : Nat :=
  digits.foldl (fun value c => 16 * value + (hexDigitValue c).toNat) 0

/-- `BN_hex2bn`: the longest text of digits in front, behind an optional minus sign, and the
number of characters used. -/
def hex2bn (text : Bytes) : Int × Option Int :=
  let negative := text.head? = some 45
  let digits := (if negative then text.tail else text).takeWhile fun c => (hexValue? c).isSome
  if digits = [] then (0, none)
  else if negative then (digits.length + 1, some (-hexNat digits))
  else (digits.length, some (hexNat digits))

/-- A text of digits is converted as a whole. -/
theorem hex2bn_digits {digits : Bytes} (hne : digits ≠ [])
    (hdigits : ∀ c ∈ digits, (hexValue? c).isSome) :
    hex2bn digits = ((digits.length : Int), some (hexNat digits : Int)) := by
  have hsign : ¬ digits.head? = some 45 := by
    intro hhead
    have hminus := hdigits 45 (List.mem_of_mem_head? hhead)
    revert hminus
    decide
  have hall : digits.takeWhile (fun c => (hexValue? c).isSome) = digits :=
    List.takeWhile_eq_self_iff.mpr hdigits
  unfold hex2bn
  dsimp only
  rw [if_neg hsign, hall, if_neg hne, if_neg hsign]

theorem hexNat_foldl (digits : Bytes) (value : Nat) :
    digits.foldl (fun value c => 16 * value + (hexDigitValue c).toNat) value =
      value * 16 ^ digits.length + hexNat digits := by
  induction digits generalizing value with
  | nil => simp [hexNat]
  | cons c digits ih =>
      rw [hexNat, List.foldl_cons, List.foldl_cons, ih, ih (16 * 0 + _), List.length_cons, pow_succ]
      ring

theorem leNat_append_singleton (bytes : Bytes) (byte : UInt8) :
    leNat (bytes ++ [byte]) = leNat bytes + 256 ^ bytes.length * byte.toNat := by
  induction bytes with
  | nil => simp [leNat]
  | cons first bytes ih =>
      rw [List.cons_append, leNat, leNat, ih, List.length_cons, pow_succ]
      ring

/-- The bytes that digits stand for, in the opposite order, are the number of the digits. -/
theorem leNat_reverse_hexPairs {digits : Bytes} (hdigits : ∀ c ∈ digits, (hexValue? c).isSome)
    (heven : digits.length % 2 = 0) : leNat (hexPairs digits).reverse = hexNat digits := by
  fun_induction hexPairs digits with
  | case1 high low rest ih =>
      have hbyte : ∀ c : UInt8, (hexValue? c).isSome → (hexDigitValue c).toNat < 16 :=
        forall_uint8 (by decide +kernel)
      have hhigh := hbyte high (hdigits high List.mem_cons_self)
      have hlow := hbyte low (hdigits low (List.mem_cons_of_mem _ List.mem_cons_self))
      have hrest := ih (fun c hc => hdigits c (List.mem_cons_of_mem _ (List.mem_cons_of_mem _ hc)))
        (by simp only [List.length_cons] at heven; omega)
      have hpair : ((16 : UInt8) * hexDigitValue high + hexDigitValue low).toNat =
          16 * (hexDigitValue high).toNat + (hexDigitValue low).toNat := by
        have hsixteen : (16 : UInt8).toNat = 16 := rfl
        rw [UInt8.toNat_add, UInt8.toNat_mul, hsixteen]
        omega
      have hlength : 256 ^ (hexPairs rest).length = 16 ^ rest.length := by
        simp only [List.length_cons] at heven
        have hhalf : rest.length = 2 * (rest.length / 2) := by omega
        rw [length_hexPairs]
        conv_rhs => rw [hhalf, pow_mul]
        norm_num
      have hnumber : hexNat (high :: low :: rest) =
          (16 * (hexDigitValue high).toNat + (hexDigitValue low).toNat) * 16 ^ rest.length +
            hexNat rest := by
        rw [hexNat, List.foldl_cons, List.foldl_cons, hexNat_foldl]
        simp only [Nat.mul_zero, Nat.zero_add]
      rw [List.reverse_cons, leNat_append_singleton, List.length_reverse, hrest, hpair, hlength,
        hnumber]
      ring
  | case2 digits hshort =>
      have hlength := length_lt_two hshort
      have hempty : digits = [] := List.eq_nil_of_length_eq_zero (by omega)
      rw [hempty]
      rfl

theorem leBytes_leNat (bytes : Bytes) : leBytes bytes.length (leNat bytes) = bytes := by
  induction bytes with
  | nil => rfl
  | cons byte bytes ih =>
      have hbyte := byte.toNat_lt
      have hhead : UInt8.ofNat (byte.toNat + 256 * leNat bytes) = byte := by
        apply UInt8.toNat_inj.mp
        rw [UInt8.toNat_ofNat']
        omega
      have htail : (byte.toNat + 256 * leNat bytes) / 256 = leNat bytes := by omega
      rw [List.length_cons, leNat, leBytes, hhead, htail, ih]

/-! ## Points -/

/-- The prime of P-256. -/
def p256Prime : Nat := 2 ^ 256 - 2 ^ 224 + 2 ^ 192 + 2 ^ 96 - 1

def p256B : Nat := 0x5ac635d8aa3a93e7b3ebbd55769886bc651d06b0cc53b0f63bce3c3e27d2604b

/-- The coordinates form a point on P-256. -/
def OnP256 (x y : Nat) : Prop :=
  x < p256Prime ∧ y < p256Prime ∧
    y ^ 2 % p256Prime = (x ^ 3 + (p256Prime - 3) * x + p256B) % p256Prime

instance (x y : Nat) : Decidable (OnP256 x y) := by
  unfold OnP256
  exact inferInstance

def p256BaseX : Nat := 0x6b17d1f2e12c4247f8bce6e563a440f277037d812deb33a0f4a13945d898c296

def p256BaseY : Nat := 0x4fe342e2fe1a7f9b8ee7eb4a7c0f9e162bce33576b315ececbb6406837bf51f5

namespace OpenSsl

/-- What is documented: conversions give the number itself, and an EC key keeps the coordinates
that it was given, also inside an `EVP_PKEY`. -/
structure Documented (ossl : OpenSsl) where
  /-- The public key of an EC key. -/
  HasPoint : ossl.EcKey → Nat → Nat → Prop
  /-- The EC key that an `EVP_PKEY` was set to. -/
  Holds : ossl.Pkey → ossl.EcKey → Prop
  bnHex2bn : ∀ t text, (ossl.bnHex2bn t text).1 ≠ 0 → ossl.bnHex2bn t text = hex2bn text
  bnLebin2bn : ∀ t bytes v, ossl.bnLebin2bn t bytes = some v → v = leNat bytes
  bnBn2lebinpad : ∀ t (v : Nat), v < 256 ^ 32 → ossl.bnBn2lebinpad t (some v) = (32, leBlock 32 v)
  setCoordinates : ∀ t key (x y : Nat),
    (ossl.ecKeySetPublicKeyAffineCoordinates t (some key) (some x) (some y)).1 ≠ 0 →
      ∃ key', (ossl.ecKeySetPublicKeyAffineCoordinates t (some key) (some x) (some y)).2 =
        some key' ∧ HasPoint key' x y
  set1 : ∀ t pkey key, (ossl.evpPkeySet1EcKey t (some pkey) (some key)).1 ≠ 0 →
    ∃ pkey', (ossl.evpPkeySet1EcKey t (some pkey) (some key)).2 = some pkey' ∧ Holds pkey' key
  get1 : ∀ t pkey key key' x y, Holds pkey key → HasPoint key x y →
    ossl.evpPkeyGet1EcKey t (some pkey) = some key' → HasPoint key' x y
  getCoordinates : ∀ t t' group key gx gy x y, HasPoint key x y →
    (ossl.ecPointGetAffineCoordinates t' group (ossl.ecKeyGet0PublicKey t (some key)) gx gy).1 ≠ 0 →
      (ossl.ecPointGetAffineCoordinates t' group (ossl.ecKeyGet0PublicKey t (some key)) gx gy).2 =
        (some (x : Int), some (y : Int))

/-- A library that never runs out of memory, and accepts the points of the curve. -/
structure NothingFails {ossl : OpenSsl} (documented : ossl.Documented) : Prop where
  bnHex2bn : ∀ t text, ossl.bnHex2bn t text = hex2bn text
  bnLebin2bn : ∀ t bytes, (ossl.bnLebin2bn t bytes).isSome
  bnNew : ∀ t, (ossl.bnNew t).isSome
  ecKeyNew : ∀ t, (ossl.ecKeyNewByCurveName t).isSome
  ecGroupNew : ∀ t, (ossl.ecGroupNewByCurveName t).isSome
  evpPkeyNew : ∀ t, (ossl.evpPkeyNew t).isSome
  setCoordinates : ∀ t key (x y : Nat), OnP256 x y →
    (ossl.ecKeySetPublicKeyAffineCoordinates t (some key) (some x) (some y)).1 ≠ 0
  set1 : ∀ t pkey key, (ossl.evpPkeySet1EcKey t (some pkey) (some key)).1 ≠ 0
  get1 : ∀ t pkey key, documented.Holds pkey key → (ossl.evpPkeyGet1EcKey t (some pkey)).isSome
  getCoordinates : ∀ t t' group key gx gy x y, documented.HasPoint key x y →
    (ossl.ecPointGetAffineCoordinates t' group (ossl.ecKeyGet0PublicKey t (some key)) gx gy).1 ≠ 0

/-- A library in which every call succeeds that can. The only private key that it makes public
keys for is 1. -/
def plain : OpenSsl where
  EcKey := Option Int × Option (Int × Int)
  EcGroup := Unit
  EcPoint := Int × Int
  Pkey := Option (Option Int × Option (Int × Int))
  PkeyCtx := Unit
  MdCtx := Unit
  EcdsaSig := Unit
  bnNew _ := some 0
  bnHex2bn _ := hex2bn
  bnLebin2bn _ bytes := some (leNat bytes)
  bnBn2lebinpad _ number :=
    match number with
    | some (.ofNat v) => if v < 256 ^ 32 then (32, leBlock 32 v) else (-1, .zero 32)
    | _ => (-1, .zero 32)
  bnBn2binpad _ number :=
    match number with
    | some (.ofNat v) => if v < 256 ^ 32 then (32, beBlock 32 v) else (-1, .zero 32)
    | _ => (-1, .zero 32)
  bnCtxNew _ := true
  ecKeyNewByCurveName _ := some (none, none)
  ecKeySetPrivateKey _ key number := (1, key.map fun key => (number, key.2))
  ecKeyGet0Group _ _ := some ()
  ecKeySetPublicKey _ key point := (1, key.map fun key => (key.1, point))
  ecKeySetPublicKeyAffineCoordinates _ key x y :=
    match key, x, y with
    | some key, some (.ofNat x), some (.ofNat y) =>
        if OnP256 x y then (1, some (key.1, some (x, y))) else (0, some key)
    | key, _, _ => (0, key)
  ecKeyGet0PublicKey _ key := key.bind Prod.snd
  ecGroupNewByCurveName _ := some ()
  ecPointNew _ _ := some (0, 0)
  ecPointMul _ _ _ number :=
    if number = some 1 then (1, some (p256BaseX, p256BaseY)) else (0, none)
  ecPointGetAffineCoordinates _ _ point gx gy :=
    match point with
    | some (x, y) => (1, some x, some y)
    | none => (0, gx, gy)
  evpPkeyNew _ := some none
  evpPkeySet1EcKey _ pkey key := (1, pkey.map fun _ => key)
  evpPkeyGet1EcKey _ pkey := pkey.join
  evpPkeyCtxNewId _ := some ()
  evpPkeyCtxNew _ _ := some ()
  evpPkeyParamgenInit _ _ := 1
  evpPkeyCtxSetEcParamgenCurveNid _ _ := 1
  evpPkeyParamgen _ _ := (1, some none)
  evpPkeyKeygenInit _ _ := 1
  evpPkeyKeygen _ _ := (1, some (some (some 1, some (p256BaseX, p256BaseY))))
  evpPkeyDeriveInit _ _ := 1
  evpPkeyDeriveSetPeer _ _ _ := 1
  evpPkeyDeriveLength _ _ := (1, 32)
  evpPkeyDerive _ _ slen := (1, List.replicate slen 0)
  opensslMalloc _ _ := true
  evpMdCtxNew _ := some ()
  evpDigestInit _ _ := 1
  evpDigestUpdate _ _ _ := 1
  evpDigestFinal _ _ := (1, .zero 32)
  ecdsaDoSign _ _ _ := some ()
  ecdsaSigGet0 _ _ := (some 1, some 1)
  pemReadPrivateKey _ _ := some none
  pemReadPubkey _ _ := some none

end OpenSsl

end RemoteAttestation
