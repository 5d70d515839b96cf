import RemoteAttestation.Foundation.Proc

/-! # Calls under guard

A program that makes one call after the other and tests what each returned: if the test sees a
failure, the program gives up. `returns` is what the calls return when all of them are made.
What they return is logged, so that a program that did not give up can be asked whether a
failure escaped its tests.
-/

namespace RemoteAttestation

universe u v w

variable {σ : Type u} {α : Type v} {β : Type v} {ρ : Type w}

/-- The end of a run that started with the log `before`. -/
structure Guarded (log : σ → List ρ) (seen : ρ → Bool) (before : List ρ) (run : Option α × σ)
    (returns : List ρ) (gaveUp : α → Prop) (done : α → σ → Prop) : Prop where
  stops : (∃ r ∈ returns, seen r = true) → ∃ a, run.1 = some a ∧ gaveUp a
  completes : (∀ r ∈ returns, seen r = false) →
    ∃ a, run.1 = some a ∧ log run.2 = before ++ returns ∧ done a run.2

namespace Guarded

variable {log : σ → List ρ} {seen : ρ → Bool} {before : List ρ} {returns : List ρ}
  {gaveUp : α → Prop} {done : α → σ → Prop}

/-- Either some test sees a failure, or none does. -/
theorem seen_or_quiet (seen : ρ → Bool) (returns : List ρ) :
    (∃ r ∈ returns, seen r = true) ∨ ∀ r ∈ returns, seen r = false := by
  by_cases hseen : ∃ r ∈ returns, seen r = true
  · exact .inl hseen
  · refine .inr fun r hmem => ?_
    rw [← Bool.not_eq_true]
    exact fun hr => hseen ⟨r, hmem, hr⟩

theorem not_seen_of_quiet {seen : ρ → Bool} {returns : List ρ}
    (hquiet : ∀ r ∈ returns, seen r = false) : ¬ ∃ r ∈ returns, seen r = true := by
  rintro ⟨r, hmem, hr⟩
  rw [hquiet r hmem] at hr
  cases hr

/-- A program that did not give up has made all its calls, and no test saw a failure. -/
theorem of_not_gaveUp {a : α} {s : σ}
    (hguarded : Guarded log seen before (some a, s) returns gaveUp done) (hgaveUp : ¬ gaveUp a) :
    (∀ r ∈ returns, seen r = false) ∧ done a s := by
  rcases seen_or_quiet seen returns with hseen | hquiet
  · obtain ⟨_, ha, hgave⟩ := hguarded.stops hseen
    cases ha
    exact absurd hgave hgaveUp
  · obtain ⟨_, ha, _, hdone⟩ := hguarded.completes hquiet
    cases ha
    exact ⟨hquiet, hdone⟩

/-- A program whose tests see no failure returns. -/
theorem returns_of_quiet {run : Option α × σ}
    (hguarded : Guarded log seen before run returns gaveUp done)
    (hquiet : ∀ r ∈ returns, seen r = false) : ∃ a s, run = (some a, s) ∧ done a s := by
  obtain ⟨a, ha, _, hdone⟩ := hguarded.completes hquiet
  exact ⟨a, run.2, Prod.ext ha rfl, hdone⟩

/-- A program that makes no more calls. -/
theorem last {a : α} {s : σ} (hlog : log s = before) (hdone : done a s) :
    Guarded log seen before (some a, s) [] gaveUp done where
  stops := by
    rintro ⟨r, hmem, _⟩
    cases hmem
  completes := fun _ => ⟨a, rfl, by rw [hlog, List.append_nil], hdone⟩

/-- A call whose result is not tested. -/
theorem untested {r : ρ} {run : Option α × σ} (hseen : seen r = false)
    (hrest : Guarded log seen (before ++ [r]) run returns gaveUp done) :
    Guarded log seen before run (r :: returns) gaveUp done := by
  refine ⟨?_, fun hnone => ?_⟩
  · rintro ⟨r', hmem, hr'⟩
    rcases List.mem_cons.mp hmem with rfl | hmem
    · rw [hseen] at hr'
      cases hr'
    · exact hrest.stops ⟨r', hmem, hr'⟩
  · obtain ⟨a, hrun, hlog, hdone⟩ := hrest.completes
      fun r' hmem => hnone r' (List.mem_cons_of_mem _ hmem)
    rw [List.append_assoc, List.singleton_append] at hlog
    exact ⟨a, hrun, hlog, hdone⟩

/-- A call whose result is tested. -/
theorem call {p : Prop} [Decidable p] {r : ρ} {stop rest : Proc σ α} {s : σ}
    (hseen : seen r = true ↔ p) (hstop : ∃ a, (stop s).1 = some a ∧ gaveUp a)
    (hrest : ¬ p → Guarded log seen (before ++ [r]) (rest s) returns gaveUp done) :
    Guarded log seen before ((if p then stop else rest) s) (r :: returns) gaveUp done := by
  by_cases hp : p
  · rw [if_pos hp]
    refine ⟨fun _ => hstop, fun hnone => ?_⟩
    have hr := hnone r List.mem_cons_self
    rw [hseen.mpr hp] at hr
    cases hr
  · rw [if_neg hp]
    have hr : seen r = false := by
      rw [← Bool.not_eq_true, hseen]
      exact hp
    exact untested hr (hrest hp)

/-- A program that makes its calls through another one. -/
theorem seq {x : Proc σ β} {f : β → Proc σ α} {s : σ} {inner : List ρ}
    {innerGaveUp : β → Prop} {innerDone : β → σ → Prop}
    (hx : Guarded log seen before (x s) inner innerGaveUp innerDone)
    (hstop : ∀ b s', innerGaveUp b → ∃ a, (f b s').1 = some a ∧ gaveUp a)
    (hrest : ∀ b s', innerDone b s' → log s' = before ++ inner →
      Guarded log seen (before ++ inner) (f b s') returns gaveUp done) :
    Guarded log seen before ((x >>= f) s) (inner ++ returns) gaveUp done := by
  obtain ⟨hstops, hcompletes⟩ := hx
  rw [Proc.bind_apply]
  generalize x s = run at hstops hcompletes
  obtain ⟨result, s'⟩ := run
  rcases seen_or_quiet seen inner with hinner | hquiet
  · -- The inner program gave up, and so does this one.
    obtain ⟨b, hresult, hgave⟩ := hstops hinner
    cases hresult
    refine ⟨fun _ => hstop b s' hgave, fun hnone => ?_⟩
    exact absurd hinner (not_seen_of_quiet fun r hmem => hnone r (List.mem_append_left _ hmem))
  · obtain ⟨b, hresult, hlog, hdone⟩ := hcompletes hquiet
    cases hresult
    have hnext := hrest b s' hdone hlog
    refine ⟨?_, fun hnone => ?_⟩
    · rintro ⟨r, hmem, hr⟩
      rcases List.mem_append.mp hmem with hmem | hmem
      · exact absurd ⟨r, hmem, hr⟩ (not_seen_of_quiet hquiet)
      · exact hnext.stops ⟨r, hmem, hr⟩
    · rw [← List.append_assoc]
      exact hnext.completes fun r hmem => hnone r (List.mem_append_right _ hmem)

end Guarded

end RemoteAttestation
