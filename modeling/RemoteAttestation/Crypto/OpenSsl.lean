import RemoteAttestation.Foundation.Bytes
import RemoteAttestation.Foundation.Guarded

/-! # OpenSSL, as `crypto.c` calls it

Each function of the library answers by the number of the call, so an `OpenSsl` stands for
whatever the library may return. A pointer is `none` for `NULL`. An object that a call changes
is part of its answer. A `BIGNUM` is the number it stands for.
-/

namespace RemoteAttestation

structure OpenSsl where
  EcKey : Type
  EcGroup : Type
  EcPoint : Type
  Pkey : Type
  PkeyCtx : Type
  MdCtx : Type
  EcdsaSig : Type
  bnNew : Nat → Option Int
  /-- The return value, and `*a`, which was `NULL`. -/
  bnHex2bn : Nat → Bytes → Int × Option Int
  bnLebin2bn : Nat → Bytes → Option Int
  bnBn2lebinpad : Nat → Option Int → Int × Block 32
  bnBn2binpad : Nat → Option Int → Int × Block 32
  bnCtxNew : Nat → Bool
  ecKeyNewByCurveName : Nat → Option EcKey
  ecKeySetPrivateKey : Nat → Option EcKey → Option Int → Int × Option EcKey
  ecKeyGet0Group : Nat → Option EcKey → Option EcGroup
  ecKeySetPublicKey : Nat → Option EcKey → Option EcPoint → Int × Option EcKey
  ecKeySetPublicKeyAffineCoordinates :
    Nat → Option EcKey → Option Int → Option Int → Int × Option EcKey
  ecKeyGet0PublicKey : Nat → Option EcKey → Option EcPoint
  ecGroupNewByCurveName : Nat → Option EcGroup
  ecPointNew : Nat → Option EcGroup → Option EcPoint
  ecPointMul : Nat → Option EcGroup → Option EcPoint → Option Int → Int × Option EcPoint
  /-- The return value, and the two numbers afterwards. -/
  ecPointGetAffineCoordinates :
    Nat → Option EcGroup → Option EcPoint → Option Int → Option Int → Int × Option Int × Option Int
  evpPkeyNew : Nat → Option Pkey
  evpPkeySet1EcKey : Nat → Option Pkey → Option EcKey → Int × Option Pkey
  evpPkeyGet1EcKey : Nat → Option Pkey → Option EcKey
  evpPkeyCtxNewId : Nat → Option PkeyCtx
  evpPkeyCtxNew : Nat → Option Pkey → Option PkeyCtx
  evpPkeyParamgenInit : Nat → Option PkeyCtx → Int
  evpPkeyCtxSetEcParamgenCurveNid : Nat → Option PkeyCtx → Int
  evpPkeyParamgen : Nat → Option PkeyCtx → Int × Option Pkey
  evpPkeyKeygenInit : Nat → Option PkeyCtx → Int
  evpPkeyKeygen : Nat → Option PkeyCtx → Int × Option Pkey
  evpPkeyDeriveInit : Nat → Option PkeyCtx → Int
  evpPkeyDeriveSetPeer : Nat → Option PkeyCtx → Option Pkey → Int
  /-- The length of the secret, when no buffer is given. -/
  evpPkeyDeriveLength : Nat → Option PkeyCtx → Int × Nat
  evpPkeyDerive : Nat → Option PkeyCtx → Nat → Int × Bytes
  opensslMalloc : Nat → Nat → Bool
  evpMdCtxNew : Nat → Option MdCtx
  evpDigestInit : Nat → Option MdCtx → Int
  evpDigestUpdate : Nat → Option MdCtx → Bytes → Int
  evpDigestFinal : Nat → Option MdCtx → Int × Block 32
  ecdsaDoSign : Nat → Block 32 → Option EcKey → Option EcdsaSig
  ecdsaSigGet0 : Nat → Option EcdsaSig → Option Int × Option Int
  pemReadPrivateKey : Nat → Bytes → Option Pkey
  pemReadPubkey : Nat → Bytes → Option Pkey

/-- `error_type`. -/
inductive ErrorType where
  | none
  | crypto
  | system
  | api
deriving DecidableEq

/-! ## What a call returns -/

/-- A returned value, by what the library documents about it and by what `crypto.c` tests. -/
inductive Returned where
  /-- `NULL` is a failure, and is tested. -/
  | pointer (null : Bool)
  /-- `NULL` is a failure, and is not tested. -/
  | ignored (null : Bool)
  /-- 0 is a failure, and is tested. -/
  | nonzero (rv : Int)
  /-- 0 and less are failures, 0 is tested. -/
  | status (rv : Int)
  /-- -1 is a failure, 0 is tested. -/
  | padded (rv : Int)
  /-- All but 1 are failures, and tested. -/
  | one (rv : Int)
deriving DecidableEq

namespace Returned

/-- The call failed, as the library documents it. -/
def failed : Returned → Bool
  | pointer null => null
  | ignored null => null
  | nonzero rv => rv = 0
  | status rv => rv ≤ 0
  | padded rv => rv = -1
  | one rv => rv ≠ 1

/-- The test behind the call takes it for a failure. -/
def seen : Returned → Bool
  | pointer null => null
  | ignored _ => false
  | nonzero rv => rv = 0
  | status rv => rv = 0
  | padded rv => rv = 0
  | one rv => rv ≠ 1

/-- A failure that passes the test. -/
def Unnoticed : Returned → Prop
  | pointer _ => False
  | ignored null => null = true
  | nonzero _ => False
  | status rv => rv < 0
  | padded rv => rv = -1
  | one _ => False

instance : DecidablePred Unnoticed
  | pointer _ => inferInstanceAs (Decidable False)
  | ignored null => inferInstanceAs (Decidable (null = true))
  | nonzero _ => inferInstanceAs (Decidable False)
  | status rv => inferInstanceAs (Decidable (rv < 0))
  | padded rv => inferInstanceAs (Decidable (rv = -1))
  | one _ => inferInstanceAs (Decidable False)

theorem unnoticed_iff (r : Returned) : r.Unnoticed ↔ r.failed = true ∧ r.seen = false := by
  cases r with
  | pointer null => simp [Unnoticed, failed, seen]
  | ignored null => simp [Unnoticed, failed, seen]
  | nonzero rv => simp [Unnoticed, failed, seen]
  | status rv =>
      simp only [Unnoticed, failed, seen, decide_eq_true_eq, decide_eq_false_iff_not]
      omega
  | padded rv =>
      simp only [Unnoticed, failed, seen, decide_eq_true_eq, decide_eq_false_iff_not]
      omega
  | one rv => simp [Unnoticed, failed, seen]

end Returned

/-! ## Making a call -/

/-- The state of `crypto.c` and of its caller's log: what the calls returned, and the numbers
that were handed to EC keys. -/
structure CryptoState where
  clock : Nat
  errorType : ErrorType
  log : List Returned
  handed : List (List (Option Int))
deriving DecidableEq

namespace CryptoState

/-- Before the first call. -/
def start (clock : Nat) (errorType : ErrorType) : CryptoState := ⟨clock, errorType, [], []⟩

/-- The state after a call. -/
def called (s : CryptoState) (returned : List Returned) : CryptoState :=
  { s with clock := s.clock + 1, log := s.log ++ returned }

def withError (s : CryptoState) (errorType : ErrorType) : CryptoState := { s with errorType }

def withHanded (s : CryptoState) (numbers : List (Option Int)) : CryptoState :=
  { s with handed := s.handed ++ [numbers] }

section

variable (s : CryptoState) (returned : List Returned) (e : ErrorType) (numbers : List (Option Int))

@[simp] theorem called_clock : (s.called returned).clock = s.clock + 1 := rfl
@[simp] theorem called_errorType : (s.called returned).errorType = s.errorType := rfl
@[simp] theorem called_log : (s.called returned).log = s.log ++ returned := rfl
@[simp] theorem called_handed : (s.called returned).handed = s.handed := rfl
@[simp] theorem withError_clock : (s.withError e).clock = s.clock := rfl
@[simp] theorem withError_errorType : (s.withError e).errorType = e := rfl
@[simp] theorem withError_log : (s.withError e).log = s.log := rfl
@[simp] theorem withError_handed : (s.withError e).handed = s.handed := rfl
@[simp] theorem withHanded_clock : (s.withHanded numbers).clock = s.clock := rfl
@[simp] theorem withHanded_errorType : (s.withHanded numbers).errorType = s.errorType := rfl
@[simp] theorem withHanded_log : (s.withHanded numbers).log = s.log := rfl
@[simp] theorem withHanded_handed : (s.withHanded numbers).handed = s.handed ++ [numbers] := rfl

end

end CryptoState

namespace OpenSsl

variable {α β : Type}

/-- A call that can fail, with what it returned. -/
def invoke (answer : Nat → α) (returned : α → Returned) : Proc CryptoState α :=
  .step fun s => (answer s.clock, s.called [returned (answer s.clock)])

/-- A call that cannot fail, or whose failure makes no difference. -/
def query (answer : Nat → α) : Proc CryptoState α :=
  .step fun s => (answer s.clock, s.called [])

def setError (e : ErrorType) : Proc CryptoState Unit := .step fun s => ((), s.withError e)

/-- Some numbers become part of an EC key. -/
def hand (numbers : List (Option Int)) : Proc CryptoState Unit :=
  .step fun s => ((), s.withHanded numbers)

/-- The end of a function that returns whether `error_type` is still `e_none`. -/
def cleanup : Proc CryptoState Bool := .step fun s => (s.errorType = .none, s)

section Bind

variable (s : CryptoState)

@[simp] theorem invoke_bind (answer : Nat → α) (returned : α → Returned)
    (f : α → Proc CryptoState β) :
    (invoke answer returned >>= f) s =
      f (answer s.clock) (s.called [returned (answer s.clock)]) := rfl

@[simp] theorem query_bind (answer : Nat → α) (f : α → Proc CryptoState β) :
    (query answer >>= f) s = f (answer s.clock) (s.called []) := rfl

@[simp] theorem setError_bind (e : ErrorType) (f : Unit → Proc CryptoState β) :
    (setError e >>= f) s = f () (s.withError e) := rfl

@[simp] theorem hand_bind (numbers : List (Option Int)) (f : Unit → Proc CryptoState β) :
    (hand numbers >>= f) s = f () (s.withHanded numbers) := rfl

@[simp] theorem cleanup_bind (f : Bool → Proc CryptoState β) :
    (cleanup >>= f) s = f (s.errorType = .none) s := rfl

@[simp] theorem cleanup_apply : cleanup s = (some (s.errorType = .none : Bool), s) := rfl

end Bind

/-- `error_type= e_crypto; goto cleanup;` in a function that returns a pointer. -/
def abandon : Proc CryptoState (Option α) := do
  setError .crypto
  return none

/-- The same in a function that returns whether it succeeded, and fills `out`. -/
def failWith (out : α) : Proc CryptoState (Bool × α) := do
  setError .crypto
  return (← cleanup, out)

theorem abandon_gaveUp (s : CryptoState) :
    ∃ result, (abandon (α := α) s).1 = some result ∧ result = none := ⟨none, rfl, rfl⟩

theorem failWith_gaveUp (out : α) (s : CryptoState) :
    ∃ result, (failWith out s).1 = some result ∧ result.1 = false := ⟨(false, out), rfl, rfl⟩

section Guarded

variable {γ : Type} {s : CryptoState} {before returns : List Returned} {gaveUp : α → Prop}
  {done : α → CryptoState → Prop}

/-- A call, with the test of its answer. -/
theorem guarded_invoke {answer : Nat → γ} {returned : γ → Returned} {p : γ → Prop}
    [∀ c, Decidable (p c)] {stop rest : γ → Proc CryptoState α}
    (hseen : ∀ c, (returned c).seen = true ↔ p c)
    (hstop : ∀ c s', ∃ a, (stop c s').1 = some a ∧ gaveUp a)
    (hrest : Guarded CryptoState.log Returned.seen (before ++ [returned (answer s.clock)])
      (rest (answer s.clock) (s.called [returned (answer s.clock)])) returns gaveUp done) :
    Guarded CryptoState.log Returned.seen before
      ((invoke answer returned >>= fun c => if p c then stop c else rest c) s)
      (returned (answer s.clock) :: returns) gaveUp done := by
  rw [invoke_bind]
  apply Guarded.call (hseen _) (hstop _ _)
  intro _
  exact hrest

/-- A call whose answer is not tested. -/
theorem guarded_ignored {answer : Nat → γ} {returned : γ → Returned}
    {rest : γ → Proc CryptoState α} (hseen : ∀ c, (returned c).seen = false)
    (hrest : Guarded CryptoState.log Returned.seen (before ++ [returned (answer s.clock)])
      (rest (answer s.clock) (s.called [returned (answer s.clock)])) returns gaveUp done) :
    Guarded CryptoState.log Returned.seen before ((invoke answer returned >>= rest) s)
      (returned (answer s.clock) :: returns) gaveUp done := by
  rw [invoke_bind]
  exact Guarded.untested (hseen _) hrest

end Guarded

end OpenSsl

end RemoteAttestation
