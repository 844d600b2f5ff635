import Mathlib.Data.List.Chain
import Mathlib.Data.List.Perm.Subperm
import Mathlib.Logic.Relation

/-!
Cycles that can be reached along a relation. What is well-founded reaches none, a simulation carries
them over, and a chain that is longer than the places it moves among runs into one.
-/
namespace SchemaForge

open Relation (ReflTransGen TransGen)

section Graphs
variable {α β : Type} {R : α → α → Prop} {S : β → β → Prop}

/-- A cycle can be reached. -/
def Endless (R : α → α → Prop) (a : α) : Prop := ∃ b, ReflTransGen R a b ∧ TransGen R b b

/-- What is well-founded reaches no cycle. -/
theorem not_endless_of_acc {a : α} (acc : Acc (fun y x => R x y) a) : ¬ Endless R a := by
  induction acc with
  | intro a _ ih =>
    rintro ⟨b, reached, cycle⟩
    rcases reached.cases_head with rfl | ⟨next, edge, rest⟩
    · obtain ⟨next, edge, back⟩ := TransGen.head'_iff.mp cycle
      exact ih next edge ⟨a, back, cycle⟩
    · exact ih next edge ⟨b, rest, cycle⟩

theorem Endless.mono {S : α → α → Prop} {a : α} (fewer : ∀ x y, R x y → S x y)
    (endless : Endless R a) : Endless S a := by
  obtain ⟨b, reached, cycle⟩ := endless
  exact ⟨b, ReflTransGen.mono fewer _ _ reached, TransGen.mono fewer _ _ cycle⟩

/-- A chain among fewer places than it has members passes one of them twice. -/
theorem endless_of_chain {a : α} {path places : List α} (chain : (a :: path).IsChain R)
    (inside : a :: path ⊆ places) (long : places.length ≤ path.length) : Endless R a := by
  have ordered : (a :: path).Pairwise (TransGen R) :=
    (chain.imp fun _ _ edge => TransGen.single edge).pairwise
  have reached : ∀ b ∈ a :: path, ReflTransGen R a b := by
    intro b member
    rcases List.mem_cons.mp member with rfl | later
    · exact .refl
    · exact (List.rel_of_pairwise_cons ordered later).to_reflTransGen
  by_contra free
  have distinct : (a :: path).Nodup := by
    refine ordered.imp_of_mem ?_
    rintro b c member - ahead rfl
    exact free ⟨b, reached b member, ahead⟩
  have few := (List.subperm_of_subset distinct inside).length_le
  rw [List.length_cons] at few
  omega

section Simulation
variable (rel : α → β → Prop)
  (step : ∀ a a' b, rel a b → R a a' → ∃ b', rel a' b' ∧ S b b')
include step

theorem reached_along {a a' : α} {b : β} (related : rel a b) (reached : ReflTransGen R a a') :
    ∃ b', rel a' b' ∧ ReflTransGen S b b' := by
  induction reached with
  | refl => exact ⟨b, related, .refl⟩
  | tail _ edge ih =>
    obtain ⟨middle, there, before⟩ := ih
    obtain ⟨b', here, edge'⟩ := step _ _ _ there edge
    exact ⟨b', here, before.tail edge'⟩

theorem cycle_along (unique : ∀ a b b', rel a b → rel a b' → b = b') {a : α} {b : β}
    (related : rel a b) (cycle : TransGen R a a) : TransGen S b b := by
  obtain ⟨next, edge, back⟩ := TransGen.head'_iff.mp cycle
  obtain ⟨b', there, edge'⟩ := step _ _ _ related edge
  obtain ⟨b'', here, back'⟩ := reached_along rel step there back
  rw [unique _ _ _ related here]
  rw [unique _ _ _ related here] at edge'
  exact TransGen.head' edge' back'

theorem endless_along (unique : ∀ a b b', rel a b → rel a b' → b = b') {a : α} {b : β}
    (related : rel a b) (endless : Endless R a) : Endless S b := by
  obtain ⟨a', reached, cycle⟩ := endless
  obtain ⟨b', there, reached'⟩ := reached_along rel step related reached
  exact ⟨b', reached', cycle_along rel step unique there cycle⟩

end Simulation

end Graphs

end SchemaForge
