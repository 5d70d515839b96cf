import RemoteAttestation.Foundation.Proc

/-! # Logged steps and rounds of service

A component that a program drives through logged calls moves along a `Chain`: each
event of the log is one step of the component. A server runs the same program for
one client after the other; `rounds` collects the states in which it starts to serve.
Both come with the induction that carries a property along them.
-/

namespace RemoteAttestation

universe u v w

variable {σ : Type u} {τ : Type v} {ε : Type w}

/-- A run of a component whose steps are labelled with events. -/
inductive Chain (step : τ → ε → τ → Prop) : τ → List ε → τ → Prop
  | nil {t : τ} : Chain step t [] t
  | cons {first next last : τ} {event : ε} {events : List ε} (hstep : step first event next)
      (hrest : Chain step next events last) : Chain step first (event :: events) last

namespace Chain

variable {step : τ → ε → τ → Prop} {first next last : τ}

theorem single {event : ε} (hstep : step first event next) : Chain step first [event] next :=
  .cons hstep .nil

theorem append {left right : List ε} (hleft : Chain step first left next)
    (hright : Chain step next right last) : Chain step first (left ++ right) last := by
  induction hleft with
  | nil => exact hright
  | cons hstep _ ih => exact .cons hstep (ih hright)

/-- A property is preserved along a run whose events are all admissible. -/
theorem preserves {inv : τ → Prop} {ok : ε → Prop}
    (hstep : ∀ {first event next}, step first event next → ok event → inv first → inv next)
    {events : List ε} (hrun : Chain step first events last) (hok : ∀ event ∈ events, ok event)
    (hfirst : inv first) : inv last := by
  induction hrun with
  | nil => exact hfirst
  | cons hevent _ ih =>
      have hnext := hstep hevent (hok _ List.mem_cons_self) hfirst
      exact ih (fun event hmem => hok event (List.mem_cons_of_mem _ hmem)) hnext

/-- A property that depends on the events so far is carried along a run. -/
theorem carries {γ : Type*} {inv : γ → τ → Prop} {update : γ → ε → γ}
    (hstep : ∀ {ghost first event next}, step first event next → inv ghost first →
      inv (update ghost event) next)
    {events : List ε} (hrun : Chain step first events last) {ghost : γ} (hfirst : inv ghost first) :
    inv (events.foldl update ghost) last := by
  induction hrun generalizing ghost with
  | nil => exact hfirst
  | cons hevent _ ih => exact ih (hstep hevent hfirst)

end Chain

/-- The events added to the log between two states drive one part of the state from
the one to the other. -/
def Traced (log : σ → List ε) (part : σ → τ) (step : τ → ε → τ → Prop) (s s' : σ) : Prop :=
  ∃ events, log s' = log s ++ events ∧ Chain step (part s) events (part s')

namespace Traced

variable {log : σ → List ε} {part : σ → τ} {step : τ → ε → τ → Prop}

theorem refl (s : σ) : Traced log part step s s := ⟨[], by simp, .nil⟩

theorem trans {a b c : σ} (hleft : Traced log part step a b) (hright : Traced log part step b c) :
    Traced log part step a c := by
  obtain ⟨left, hlogLeft, hchainLeft⟩ := hleft
  obtain ⟨right, hlogRight, hchainRight⟩ := hright
  refine ⟨left ++ right, ?_, hchainLeft.append hchainRight⟩
  rw [hlogRight, hlogLeft, List.append_assoc]

theorem of_log_eq {s s' : σ} (hlog : log s' = log s) (hpart : part s' = part s) :
    Traced log part step s s' := by
  refine ⟨[], by simp [hlog], ?_⟩
  rw [hpart]
  exact .nil

theorem of_single {s s' : σ} {event : ε} (hlog : log s' = log s ++ [event])
    (hstep : step (part s) event (part s')) : Traced log part step s s' :=
  ⟨[event], hlog, .single hstep⟩

end Traced

/-! ## Rounds of service -/

/-- The first `n` rounds of a server: the states in which it starts to serve, and
the state it ends in. It stops when there is no client or its process dies. -/
def rounds (accept : σ → Option σ) (serve : Proc σ Unit) : Nat → σ → List σ × σ
  | 0, s => ([], s)
  | n + 1, s =>
      match accept s with
      | none => ([], s)
      | some start =>
          match serve start with
          | (none, last) => ([start], last)
          | (some _, last) =>
              let (starts, final) := rounds accept serve n last
              (start :: starts, final)

/-- In a single round service starts for the client that is accepted. -/
theorem rounds_one {accept : σ → Option σ} {serve : Proc σ Unit} {s start : σ}
    (haccept : accept s = some start) : (rounds accept serve 1 s).1 = [start] := by
  unfold rounds
  rw [haccept]
  dsimp only
  split
  · rfl
  · rfl

/-- Service starts in the states of a path on which every round but the last returns. -/
theorem rounds_of_path {accept : σ → Option σ} {serve : Proc σ Unit} {n : Nat} {s : σ}
    (start last : Nat → σ) (hfirst : 0 < n → accept s = some (start 0))
    (hserve : ∀ k, k + 1 < n → serve (start k) = (some (), last k))
    (hnext : ∀ k, k + 1 < n → accept (last k) = some (start (k + 1))) :
    (rounds accept serve n s).1 = (List.range n).map start := by
  induction n generalizing s start last with
  | zero => rfl
  | succ n ih =>
      have haccept := hfirst (Nat.succ_pos n)
      cases n with
      | zero => exact rounds_one haccept
      | succ m =>
          have hrest := ih (fun k => start (k + 1)) (fun k => last (k + 1))
            (fun _ => hnext 0 (Nat.succ_lt_succ (Nat.succ_pos m)))
            (fun k hlt => hserve (k + 1) (Nat.succ_lt_succ hlt))
            (fun k hlt => hnext (k + 1) (Nat.succ_lt_succ hlt))
          rw [rounds, haccept]
          dsimp only
          rw [hserve 0 (Nat.succ_lt_succ (Nat.succ_pos m))]
          dsimp only
          have hrange : List.range (m + 2) = 0 :: (List.range (m + 1)).map Nat.succ :=
            List.range_succ_eq_map
          rw [hrest, hrange, List.map_cons, List.map_map]
          rfl

/-- A property of the states in which service starts holds in every round if it holds
in the first and every round that meets the condition hands it on. -/
theorem rounds_invariant {accept : σ → Option σ} {serve : Proc σ Unit} {inv ok : σ → Prop}
    (hserve : ∀ {start last next}, inv start → ok start → serve start = (some (), last) →
      accept last = some next → inv next)
    (n : Nat) {s : σ} (hfirst : ∀ start, accept s = some start → inv start)
    (hok : ∀ start ∈ (rounds accept serve n s).1, ok start) :
    ∀ start ∈ (rounds accept serve n s).1, inv start := by
  induction n generalizing s with
  | zero =>
      intro start hmem
      simp [rounds] at hmem
  | succ n ih =>
      unfold rounds at hok ⊢
      cases haccept : accept s with
      | none => simp
      | some start =>
          have hstart := hfirst start haccept
          cases hrun : serve start with
          | mk returned last =>
              cases returned with
              | none =>
                  intro start' hmem
                  simp only [hrun, List.mem_singleton] at hmem
                  subst hmem
                  exact hstart
              | some =>
                  simp only [haccept, hrun, List.mem_cons, forall_eq_or_imp] at hok ⊢
                  refine ⟨hstart, ih ?_ hok.2⟩
                  intro next hnext
                  exact hserve hstart hok.1 hrun hnext

/-- The loop of a server returns: there is no further client, after rounds that returned. -/
inductive Returns (accept : σ → Option σ) (serve : Proc σ Unit) : σ → Prop
  | refused {s : σ} (haccept : accept s = none) : Returns accept serve s
  | served {s start last : σ} (haccept : accept s = some start)
      (hserve : serve start = (some (), last)) (hrest : Returns accept serve last) :
      Returns accept serve s

/-- A loop whose rounds hand on that there is a client does not return. -/
theorem not_returns {accept : σ → Option σ} {serve : Proc σ Unit} {inv : σ → Prop}
    (haccept : ∀ {s}, inv s → ∃ start, accept s = some start)
    (hserve : ∀ {s start last}, inv s → accept s = some start →
      serve start = (some (), last) → inv last)
    {s : σ} (hs : inv s) : ¬ Returns accept serve s := by
  intro hreturns
  induction hreturns with
  | refused hrefused =>
      obtain ⟨start, hstart⟩ := haccept hs
      rw [hrefused] at hstart
      cases hstart
  | served hstart hrun _ ih => exact ih (hserve hs hstart hrun)

/-- If in addition they all return, there are as many as one asks for. -/
theorem length_rounds {accept : σ → Option σ} {serve : Proc σ Unit} {inv : σ → Prop}
    (hround : ∀ {s}, inv s →
      ∃ start last, accept s = some start ∧ serve start = (some (), last) ∧ inv last)
    (n : Nat) {s : σ} (hs : inv s) : (rounds accept serve n s).1.length = n := by
  induction n generalizing s with
  | zero => rfl
  | succ n ih =>
      obtain ⟨start, last, haccept, hserve, hlast⟩ := hround hs
      rw [rounds, haccept]
      dsimp only
      rw [hserve]
      dsimp only
      rw [List.length_cons, ih hlast]

end RemoteAttestation
