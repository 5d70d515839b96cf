import Mathlib.Data.List.Infix
import Mathlib.Logic.Relation

/-! # Delivery over a link

One party writes, the other reads. The results that the reader will get are a list, of
which more and more is there. What is there is always in front of what was written, and the
reader uses it from the front.
-/

namespace RemoteAttestation

universe u v

variable {ρ : Type u} {α : Type v}

/-- The reader's end of a link: what was read from it before, and how many of the results
to come are there. -/
structure Link (α : Type v) where
  taken : List α
  ready : Nat

namespace Link

variable {data : ρ → List α} {incoming : List ρ} {written : List α} {link next : Link α} {k : Nat}

def opened : Link α := ⟨[], 0⟩

/-- What the link has delivered so far. -/
def delivered (data : ρ → List α) (incoming : List ρ) (link : Link α) : List α :=
  link.taken ++ (incoming.take link.ready).flatMap data

/-- The link delivers what was written, in order and without loss. -/
structure Sound (data : ρ → List α) (incoming : List ρ) (written : List α) (link : Link α) :
    Prop where
  ready_le : link.ready ≤ incoming.length
  delivered : link.delivered data incoming <+: written

/-- The next result is there. -/
structure Arrives (data : ρ → List α) (incoming : List ρ) (written : List α)
    (link next : Link α) : Prop where
  counted : next = { link with ready := link.ready + 1 }
  sound : next.Sound data incoming written

/-- The reader has used the next `k` results. -/
def use (data : ρ → List α) (incoming : List ρ) (k : Nat) (link : Link α) : Link α :=
  ⟨link.taken ++ (incoming.take k).flatMap data, link.ready - k⟩

theorem sound_opened (data : ρ → List α) (incoming : List ρ) (written : List α) :
    (opened : Link α).Sound data incoming written :=
  ⟨Nat.zero_le _, List.nil_prefix⟩

/-- More may be written. -/
theorem Sound.mono {more : List α} (hsound : link.Sound data incoming written)
    (hmore : written <+: more) : link.Sound data incoming more :=
  ⟨hsound.ready_le, hsound.delivered.trans hmore⟩

/-- What has been delivered before was sound as well. -/
theorem Sound.of_add (k : Nat)
    (hsound : Sound data incoming written { link with ready := link.ready + k }) :
    link.Sound data incoming written := by
  have hle := hsound.ready_le
  refine ⟨(Nat.le_add_right _ _).trans hle, ?_⟩
  refine List.IsPrefix.trans ?_ hsound.delivered
  simp only [Link.delivered]
  rw [List.take_add, List.flatMap_append, ← List.append_assoc]
  exact List.prefix_append _ _

/-- Results arrive one by one. -/
theorem arrives_add (k : Nat)
    (hsound : Sound data incoming written { link with ready := link.ready + k }) :
    Relation.ReflTransGen (Arrives data incoming written) link
      { link with ready := link.ready + k } := by
  induction k with
  | zero => exact .refl
  | succ k ih =>
      have hbefore : Sound data incoming written { link with ready := link.ready + k } :=
        Sound.of_add 1 hsound
      exact .tail (ih hbefore) ⟨rfl, hsound⟩

/-- Using results changes nothing about what was delivered. -/
theorem delivered_use (hready : k ≤ link.ready) :
    (link.use data incoming k).delivered data (incoming.drop k) =
      link.delivered data incoming := by
  have hsplit : incoming.take link.ready =
      incoming.take k ++ (incoming.drop k).take (link.ready - k) := by
    rw [← List.take_add, Nat.add_sub_cancel' hready]
  simp only [delivered, use, hsplit, List.flatMap_append, List.append_assoc]

theorem Sound.use (hsound : link.Sound data incoming written) (hready : k ≤ link.ready) :
    (link.use data incoming k).Sound data (incoming.drop k) written := by
  constructor
  · have hle := hsound.ready_le
    rw [List.length_drop]
    exact Nat.sub_le_sub_right hle k
  · rw [delivered_use hready]
    exact hsound.delivered

/-- What the reader has used is in front of what was written. -/
theorem Sound.taken_use (hsound : link.Sound data incoming written) (hready : k ≤ link.ready) :
    (link.use data incoming k).taken <+: written := by
  have hused := (hsound.use hready).delivered
  exact (List.prefix_append _ _).trans hused

end Link

end RemoteAttestation
