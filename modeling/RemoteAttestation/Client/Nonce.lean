import RemoteAttestation.Foundation.Bytes

/-! # The random nonce

The option `-r` and the client with a built-in configuration draw the two halves of the
nonce with RDRAND. The outcome of every attempt is given by a stream. The loop around
the attempts sets up a count of retries and never changes it.
-/

namespace RemoteAttestation

/-- What `_rdrand64_step` returns and stores. The register is zero after a failure. -/
def rdrand64Step : Option UInt64 → UInt8 × UInt64
  | some value => (1, value)
  | none => (0, 0)

/-- The variables of the inner loop, and the number of attempts made before. -/
structure HalfState where
  clock : Nat
  ok : UInt8
  half : UInt64
deriving DecidableEq

/-- `while (!ok && retry)`. The result is `none` when the loop still runs after `fuel`
turns. -/
def halfLoop (rdrand : Nat → Option UInt64) (retry : Int) : Nat → HalfState → Option HalfState
  | 0, _ => none
  | fuel + 1, s =>
      if s.ok = 0 ∧ retry ≠ 0 then
        let (ok, half) := rdrand64Step (rdrand s.clock)
        halfLoop rdrand retry fuel ⟨s.clock + 1, ok, half⟩
      else some s

/-- How the program goes on: with the halves it drew, or not at all. -/
inductive NonceEnd where
  | drawn (halves : List UInt64)
  | exit (status : Int) (message : Bytes)
deriving DecidableEq

/-- The number of attempts for each half that was begun, and how the loop ended. -/
structure NonceRun where
  attempts : List Nat
  ending : NonceEnd
deriving DecidableEq

/-- A half was drawn before the others. -/
def NonceRun.prepend (attempts : Nat) (half : UInt64) (run : NonceRun) : NonceRun :=
  { attempts := attempts :: run.attempts
    ending := match run.ending with
      | .drawn halves => .drawn (half :: halves)
      | .exit status message => .exit status message }

/-- The loop over the halves, given what they held before. -/
def nonceLoop (rdrand : Nat → Option UInt64) (retry : Int) (fuel : Nat) :
    List UInt64 → Nat → Option NonceRun
  | [], _ => some ⟨[], .drawn []⟩
  | half :: halves, clock => do
      let s ← halfLoop rdrand retry fuel ⟨clock, 0, half⟩
      if s.ok = 0 then
        some ⟨[s.clock - clock], .exit 1 (ascii "nonce: RDRAND underflow\n")⟩
      else
        let run ← nonceLoop rdrand retry fuel halves s.clock
        some (run.prepend (s.clock - clock) s.half)

/-! ## The three places -/

section

variable (rdrand : Nat → Option UInt64) (first second : UInt64) (fuel : Nat)

/-- `attestation_with_custom_config`. -/
def attestationWithCustomConfigNonce : Option NonceRun := nonceLoop rdrand 10 fuel [first, second] 0

/-- The option `-r` of `App.cpp`. -/
def appOptionR : Option NonceRun := nonceLoop rdrand 10 fuel [first, second] 0

/-- The option `-r` of `client.cpp`. -/
def clientOptionR : Option NonceRun := nonceLoop rdrand 10 fuel [first, second] 0

end

/-! ## A bounded number of attempts -/

/-- At most `retry` attempts were made for a half. Both halves hold the values of successful
attempts, or the program printed its message and exited. -/
structure NonceRun.Bounded (rdrand : Nat → Option UInt64) (retry : Nat) (run : NonceRun) :
    Prop where
  attempts_le : ∀ count ∈ run.attempts, count ≤ retry
  ends : run.ending = .exit 1 (ascii "nonce: RDRAND underflow\n") ∨
    ∃ k₀ k₁ v₀ v₁, run.attempts = [k₀ + 1, k₁ + 1] ∧ run.ending = .drawn [v₀, v₁] ∧
      rdrand k₀ = some v₀ ∧ rdrand (k₀ + 1 + k₁) = some v₁

/-- The loop comes to an end, and its run is bounded. -/
def EndsBounded (rdrand : Nat → Option UInt64) (retry : Nat) (loop : Nat → Option NonceRun) :
    Prop :=
  ∃ fuel run, loop fuel = some run ∧ run.Bounded rdrand retry

/-- The first success from `start` on comes after `k` failures. -/
def FirstSuccess (rdrand : Nat → Option UInt64) (start k : Nat) : Prop :=
  (rdrand (start + k)).isSome ∧ ∀ j < k, rdrand (start + j) = none

/-- Each half meets a success within `retry` attempts. -/
def BothWithin (rdrand : Nat → Option UInt64) (retry : Nat) : Prop :=
  ∃ k₀ < retry, FirstSuccess rdrand 0 k₀ ∧ ∃ k₁ < retry, FirstSuccess rdrand (k₀ + 1) k₁

/-! ## One half -/

section

variable {rdrand : Nat → Option UInt64} {retry : Int} {fuel start k : Nat} {half : UInt64}

theorem FirstSuccess.zero {value : UInt64} (hvalue : rdrand start = some value) :
    FirstSuccess rdrand start 0 := by
  refine ⟨?_, fun j hj => absurd hj (Nat.not_lt_zero j)⟩
  rw [Nat.add_zero, hvalue]
  rfl

/-- A failure puts the first success off by one attempt. -/
theorem FirstSuccess.succ_iff (hfails : rdrand start = none) :
    FirstSuccess rdrand start (k + 1) ↔ FirstSuccess rdrand (start + 1) k := by
  unfold FirstSuccess
  rw [Nat.forall_lt_succ_left, and_iff_right (a := rdrand (start + 0) = none) hfails]
  simp only [Nat.add_assoc, Nat.add_comm 1]

/-- The loop ends with the first success, whatever the count of retries is. -/
theorem halfLoop_of_firstSuccess (half : UInt64) (hretry : retry ≠ 0)
    (hfirst : FirstSuccess rdrand start k)
    {value : UInt64} (hvalue : rdrand (start + k) = some value) (hfuel : k + 1 < fuel) :
    halfLoop rdrand retry fuel ⟨start, 0, half⟩ = some ⟨start + k + 1, 1, value⟩ := by
  induction k generalizing start fuel half with
  | zero =>
      obtain ⟨fuel, rfl⟩ : ∃ n, fuel = n + 2 := ⟨fuel - 2, by omega⟩
      rw [Nat.add_zero] at hvalue
      rw [halfLoop, if_pos ⟨rfl, hretry⟩, hvalue]
      rfl
  | succ k ih =>
      obtain ⟨fuel, rfl⟩ : ∃ n, fuel = n + 1 := ⟨fuel - 1, by omega⟩
      have hfails := hfirst.2 0 (Nat.succ_pos k)
      rw [Nat.add_zero] at hfails
      have hshift : start + 1 + k = start + (k + 1) := by omega
      have hfuel' : k + 1 < fuel := by omega
      have hrest := ih 0 ((FirstSuccess.succ_iff hfails).mp hfirst) (by rwa [hshift]) hfuel'
      rw [halfLoop, if_pos ⟨rfl, hretry⟩, hfails, ← hshift]
      exact hrest

/-- The loop ends in no other way. -/
theorem halfLoop_eq_some (hretry : retry ≠ 0) {last : HalfState}
    (hloop : halfLoop rdrand retry fuel ⟨start, 0, half⟩ = some last) :
    ∃ k value, FirstSuccess rdrand start k ∧ rdrand (start + k) = some value ∧
      last = ⟨start + k + 1, 1, value⟩ := by
  induction fuel generalizing start half with
  | zero => cases hloop
  | succ fuel ih =>
      rw [halfLoop, if_pos ⟨rfl, hretry⟩] at hloop
      cases houtcome : rdrand start with
      | none =>
          -- A failure leaves the loop as it was, one attempt later.
          rw [houtcome] at hloop
          obtain ⟨k, value, hfirst, hvalue, rfl⟩ := ih hloop
          have hshift : start + 1 + k = start + (k + 1) := by omega
          rw [hshift] at hvalue
          refine ⟨k + 1, value, (FirstSuccess.succ_iff houtcome).mpr hfirst, hvalue, ?_⟩
          rw [← hshift]
      | some value =>
          rw [houtcome] at hloop
          refine ⟨0, value, .zero houtcome, houtcome, ?_⟩
          cases fuel with
          | zero => cases hloop
          | succ fuel =>
              have hsuccess : ¬ ((1 : UInt8) = 0 ∧ retry ≠ 0) := fun h => absurd h.1 (by decide)
              change halfLoop rdrand retry (fuel + 1) ⟨start + 1, 1, value⟩ = some last at hloop
              rw [halfLoop, if_neg hsuccess] at hloop
              exact (Option.some.inj hloop).symm

end

/-! ## Both halves -/

section

variable {rdrand : Nat → Option UInt64} {retry : Int} {fuel clock : Nat} {half : UInt64}
  {halves : List UInt64}

/-- A half that is begun is drawn: the message about an underflow is never printed. -/
theorem nonceLoop_cons_eq_some (hretry : retry ≠ 0) {run : NonceRun}
    (hrun : nonceLoop rdrand retry fuel (half :: halves) clock = some run) :
    ∃ k value rest, FirstSuccess rdrand clock k ∧ rdrand (clock + k) = some value ∧
      nonceLoop rdrand retry fuel halves (clock + k + 1) = some rest ∧
        run = rest.prepend (k + 1) value := by
  rw [nonceLoop, Option.bind_eq_bind, Option.bind_eq_some_iff] at hrun
  obtain ⟨s, hloop, hrun⟩ := hrun
  obtain ⟨k, value, hfirst, hvalue, rfl⟩ := halfLoop_eq_some hretry hloop
  rw [if_neg (show (1 : UInt8) ≠ 0 by decide), Option.bind_eq_bind,
    Option.bind_eq_some_iff] at hrun
  obtain ⟨rest, hrest, hrun⟩ := hrun
  refine ⟨k, value, rest, hfirst, hvalue, hrest, ?_⟩
  have hcount : clock + k + 1 - clock = k + 1 := by omega
  rw [← Option.some.inj hrun, hcount]

theorem nonceLoop_nil (rdrand : Nat → Option UInt64) (retry : Int) (fuel clock : Nat) :
    nonceLoop rdrand retry fuel [] clock = some ⟨[], .drawn []⟩ := rfl

theorem nonceLoop_cons_of_firstSuccess (half : UInt64) (hretry : retry ≠ 0) {k : Nat}
    {value : UInt64}
    {rest : NonceRun} (hfirst : FirstSuccess rdrand clock k)
    (hvalue : rdrand (clock + k) = some value) (hfuel : k + 1 < fuel)
    (hrest : nonceLoop rdrand retry fuel halves (clock + k + 1) = some rest) :
    nonceLoop rdrand retry fuel (half :: halves) clock = some (rest.prepend (k + 1) value) := by
  have hcount : clock + k + 1 - clock = k + 1 := by omega
  rw [nonceLoop, halfLoop_of_firstSuccess half hretry hfirst hvalue hfuel, Option.bind_eq_bind,
    Option.bind_some, if_neg (show (1 : UInt8) ≠ 0 by decide), hrest, hcount]
  rfl

end

/-- The loop ends within its count of retries exactly if a success comes in time for each
half: nothing but a success ends it. -/
theorem nonceLoop_endsBounded_iff (rdrand : Nat → Option UInt64) {retry : Nat} (hretry : retry ≠ 0)
    (first second : UInt64) :
    EndsBounded rdrand retry (fun fuel => nonceLoop rdrand retry fuel [first, second] 0) ↔
      BothWithin rdrand retry := by
  have hretry' : (retry : Int) ≠ 0 := Int.natCast_ne_zero.mpr hretry
  constructor
  · rintro ⟨fuel, run, hrun, hbounded⟩
    obtain ⟨k₀, v₀, rest, hfirst₀, _, hrest, rfl⟩ := nonceLoop_cons_eq_some hretry' hrun
    obtain ⟨k₁, v₁, last, hfirst₁, _, _, rfl⟩ := nonceLoop_cons_eq_some hretry' hrest
    rw [Nat.zero_add] at hfirst₁
    have hcount₀ := hbounded.attempts_le (k₀ + 1) List.mem_cons_self
    have hcount₁ := hbounded.attempts_le (k₁ + 1) (List.mem_cons_of_mem _ List.mem_cons_self)
    exact ⟨k₀, hcount₀, hfirst₀, k₁, hcount₁, hfirst₁⟩
  · rintro ⟨k₀, hk₀, hfirst₀, k₁, hk₁, hfirst₁⟩
    obtain ⟨v₀, hv₀⟩ := Option.isSome_iff_exists.mp hfirst₀.1
    obtain ⟨v₁, hv₁⟩ := Option.isSome_iff_exists.mp hfirst₁.1
    have hfuel₁ : k₁ + 1 < retry + 1 := by omega
    have hsecond := nonceLoop_cons_of_firstSuccess second hretry' hfirst₁ hv₁ hfuel₁
      (nonceLoop_nil rdrand retry (retry + 1) (k₀ + 1 + k₁ + 1))
    rw [Nat.zero_add] at hv₀
    refine ⟨retry + 1, _, nonceLoop_cons_of_firstSuccess first hretry' hfirst₀
      (by rwa [Nat.zero_add]) (by omega) (by rwa [Nat.zero_add]), ?_, ?_⟩
    · intro count hcount
      simp only [NonceRun.prepend, List.mem_cons, List.not_mem_nil, or_false] at hcount
      omega
    · exact .inr ⟨k₀, k₁, v₀, v₁, rfl, rfl, hv₀, hv₁⟩

/-- The three places end within ten attempts a half exactly if the processor delivers a
number that soon. -/
theorem nonce_endsBounded_iff (rdrand : Nat → Option UInt64) (first second : UInt64) :
    (EndsBounded rdrand 10 (attestationWithCustomConfigNonce rdrand first second) ↔
        BothWithin rdrand 10) ∧
      (EndsBounded rdrand 10 (appOptionR rdrand first second) ↔ BothWithin rdrand 10) ∧
        (EndsBounded rdrand 10 (clientOptionR rdrand first second) ↔ BothWithin rdrand 10) := by
  have hloop := nonceLoop_endsBounded_iff rdrand (show 10 ≠ 0 by decide) first second
  exact ⟨hloop, hloop, hloop⟩

/-- With an RDRAND that always fails the loop does not end. -/
theorem failing_not_endsBounded :
    ¬ EndsBounded (fun _ => none) 10 (attestationWithCustomConfigNonce (fun _ => none) 0 0) := by
  rintro ⟨fuel, run, hrun, _⟩
  obtain ⟨k, value, rest, hfirst, _⟩ :=
    nonceLoop_cons_eq_some (show (10 : Int) ≠ 0 by decide) hrun
  cases hfirst.1

end RemoteAttestation
