import Mathlib.Data.List.Perm.Subperm
import SchemaForge.Proofs.Record

/-!
Regions of a document: lists of named schemas that hold, with a schema, the schemas inside it and
the targets of its references. What is computed for a schema by following references stays inside
its region.
-/
namespace SchemaForge.Compile

theorem nodes_of_leaf {name : String} {s : Schema} (leaf : s.children name = []) :
    s.nodes name = [(name, s)] := by
  rw [Schema.nodes_eq, leaf, List.flatMap_nil]

theorem children_primitive {s : Schema} (name : String) (kind : s.isPrimitive = true) :
    s.children name = [] := by
  cases s <;> simp [Schema.isPrimitive] at kind <;> rfl

/-- The objects among the nodes of a schema. -/
def objects (nodes : List (String × Schema)) : List (String × ObjectParts) :=
  nodes.filterMap fun x => (ObjectParts.ofSchema? x.2).map fun o => (x.1, o)

theorem objects_nodes (name : String) (s : Schema) :
    objects (s.nodes name) = ((ObjectParts.ofSchema? s).map fun o => (name, o)).toList
      ++ (s.children name).flatMap fun child => objects (child.2.nodes child.1) := by
  rw [Schema.nodes_eq]
  unfold objects
  rw [List.filterMap_cons, List.filterMap_flatMap]
  cases ObjectParts.ofSchema? s <;> rfl

theorem objects_of_leaf {name : String} {s : Schema} (leaf : s.children name = [])
    (other : ObjectParts.ofSchema? s = none) : objects (s.nodes name) = [] := by
  rw [objects_nodes, leaf, other]
  rfl

theorem object_mem {nodes : List (String × Schema)} {name : String} {o : ObjectParts} :
    (name, o) ∈ objects nodes ↔
      ∃ s, (name, s) ∈ nodes ∧ ObjectParts.ofSchema? s = some o := by
  simp only [objects, List.mem_filterMap, Option.map_eq_some_iff, Prod.mk.injEq, Prod.exists]
  constructor
  · rintro ⟨_, s, member, o, object, rfl, rfl⟩
    exact ⟨s, member, object⟩
  · rintro ⟨s, member, object⟩
    exact ⟨name, s, member, o, object, rfl, rfl⟩

/-- Distinct names of objects are no more than there are nodes. -/
theorem active_length {nodes : List (String × Schema)} {active : List String}
    (distinct : active.Nodup) (known : active ⊆ (objects nodes).map (·.1)) :
    active.length ≤ nodes.length := by
  have listed := (List.subperm_of_subset distinct known).length_le
  rw [List.length_map] at listed
  exact Nat.le_trans listed (List.length_filterMap_le _ nodes)

theorem construction_enough {d : Document} {nodes : List (String × Schema)}
    (small : nodes.length ≤ d.root.size) : nodes.length < constructionBound d + 0 := by
  have square : d.root.size + 2 ≤ constructionBound d := Nat.le_mul_self _
  omega

/-- No more nodes than the document has values, closed under parts and references. -/
structure Region (d : Document) (nodes : List (String × Schema)) : Prop where
  parts : ∀ {x child : String × Schema}, x ∈ nodes → child ∈ x.2.children x.1 → child ∈ nodes
  targets : ∀ {name path : String}, (name, .ref path) ∈ nodes →
    ∃ s, d.resolve path = .ok s ∧ (Pointer.name path, s) ∈ nodes
  small : nodes.length ≤ d.root.size

namespace Region
variable {d : Document} {nodes : List (String × Schema)} (region : Region d nodes)
include region

theorem property {name : String} {o : ObjectParts} {property : String × Schema}
    (object : (name, o) ∈ objects nodes) (member : property ∈ o.properties) :
    (Ident.propertyOf name property.1, property.2) ∈ nodes := by
  obtain ⟨s, node, parts⟩ := object_mem.mp object
  cases s <;> simp only [ObjectParts.ofSchema?, Option.some.injEq, reduceCtorEq] at parts
  subst parts
  exact region.parts node (Schema.property_mem_children member)

theorem additional {name : String} {o : ObjectParts} {s : Schema}
    (object : (name, o) ∈ objects nodes) (present : o.additional = some s) :
    (Ident.additionalOf name, s) ∈ nodes := by
  obtain ⟨whole, node, parts⟩ := object_mem.mp object
  cases whole <;> simp only [ObjectParts.ofSchema?, Option.some.injEq, reduceCtorEq] at parts
  subst parts
  cases present
  exact region.parts node Schema.additional_mem_children

/-- A chain of references from a node ends at an object of the region. -/
theorem target_object {hops : Nat} {name target : String} {s : Schema} {o : ObjectParts}
    (node : (name, s) ∈ nodes)
    (found : objectTarget d hops name s = .ok (some (target, o))) :
    (target, o) ∈ objects nodes := by
  induction hops using Nat.strongRecOn generalizing name s with
  | ind hops shorter =>
    by_cases direct : ∀ path, s ≠ .ref path
    · rw [target_direct direct, Except.ok.injEq, Option.map_eq_some_iff] at found
      obtain ⟨o', object, same⟩ := found
      obtain ⟨rfl, rfl⟩ := Prod.mk.inj same
      exact object_mem.mpr ⟨s, node, object⟩
    · obtain ⟨path, rfl⟩ : ∃ path, s = .ref path := by simpa using direct
      obtain ⟨k, middle, rfl, resolved, rest⟩ := target_ref found
      obtain ⟨middle', resolved', there⟩ := region.targets node
      rw [resolved, Except.ok.injEq] at resolved'
      subst resolved'
      exact shorter k (by omega) there rest

end Region

end SchemaForge.Compile
