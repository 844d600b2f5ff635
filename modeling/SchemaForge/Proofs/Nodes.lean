import SchemaForge.Compile.Record
import SchemaForge.Schema.Decode

/-!
The schemas inside a schema, each under the name it is compiled with. Names are made on the way
down, so a list of named nodes carries everything that compilation sees of a schema.
-/
namespace SchemaForge.Schema

/-- The schemas directly inside a schema, in the order in which they are emitted. -/
def children (name : String) : Schema → List (String × Schema)
  | .array items _ _ => [(Ident.itemOf name, items)]
  | .object properties _ additional =>
    (additional.toList.map fun s => (Ident.additionalOf name, s))
      ++ (properties.getD []).map fun p => (Ident.propertyOf name p.1, p.2)
  | _ => []

theorem item_mem_children {name : String} {items : Schema} {lo hi : Option Nat} :
    (Ident.itemOf name, items) ∈ children name (.array items lo hi) :=
  List.mem_cons_self

theorem property_mem_children {name key : String} {s : Schema} {required : List String}
    {properties : Option (List (String × Schema))} {additional : Option Schema}
    (member : (key, s) ∈ properties.getD []) :
    (Ident.propertyOf name key, s) ∈ children name (.object properties required additional) := by
  simp only [children, List.mem_append, List.mem_map]
  exact Or.inr ⟨(key, s), member, rfl⟩

theorem additional_mem_children {name : String} {s : Schema} {required : List String}
    {properties : Option (List (String × Schema))} :
    (Ident.additionalOf name, s) ∈ children name (.object properties required (some s)) := by
  simp [children]

theorem sizeOf_child {name inner : String} {s t : Schema} (child : (inner, t) ∈ children name s) :
    sizeOf t < sizeOf s := by
  cases s with
  | array items lo hi =>
    simp only [children, List.mem_singleton, Prod.mk.injEq] at child
    rw [child.2, Schema.array.sizeOf_spec]
    omega
  | object properties required additional =>
    simp only [children, List.mem_append, List.mem_map, Prod.mk.injEq] at child
    rw [Schema.object.sizeOf_spec]
    rcases child with ⟨a, member, -, rfl⟩ | ⟨⟨key, a⟩, member, -, rfl⟩
    · rw [Option.mem_toList] at member
      subst member
      rw [Option.some.sizeOf_spec]
      omega
    · cases properties with
      | none => simp at member
      | some list =>
        have smaller : sizeOf (key, a) < sizeOf list := List.sizeOf_lt_of_mem member
        rw [Prod.mk.sizeOf_spec] at smaller
        rw [Option.some.sizeOf_spec]
        show sizeOf a < _
        omega
  | _ => simp [children] at child

/-- A schema and all schemas inside it. -/
def nodes (name : String) (s : Schema) : List (String × Schema) :=
  (name, s) :: (children name s).attach.flatMap fun child => nodes child.1.1 child.1.2
termination_by sizeOf s
decreasing_by exact sizeOf_child child.2

theorem nodes_eq (name : String) (s : Schema) :
    nodes name s = (name, s) :: (children name s).flatMap fun child => nodes child.1 child.2 := by
  rw [nodes, List.flatMap_subtype (g := fun child => nodes child.1 child.2)]
  · rw [List.unattach_attach]
  · intro child member
    rfl

theorem children_induction {motive : String → Schema → Prop}
    (step : ∀ name s, (∀ inner t, (inner, t) ∈ children name s → motive inner t) → motive name s)
    (name : String) (s : Schema) : motive name s := by
  induction h : sizeOf s using Nat.strongRecOn generalizing name s with
  | ind k ih =>
    apply step
    intro inner t child
    exact ih (sizeOf t) (h ▸ sizeOf_child child) inner t rfl

theorem self_mem_nodes (name : String) (s : Schema) : (name, s) ∈ nodes name s := by
  rw [nodes_eq]
  exact List.mem_cons_self

theorem nodes_of_child {name : String} {s : Schema} {child x : String × Schema}
    (inside : child ∈ children name s) (member : x ∈ nodes child.1 child.2) : x ∈ nodes name s := by
  rw [nodes_eq]
  exact List.mem_cons_of_mem _ (List.mem_flatMap.mpr ⟨child, inside, member⟩)

theorem child_mem_nodes {name : String} {s : Schema} {child : String × Schema}
    (inside : child ∈ children name s) : child ∈ nodes name s :=
  nodes_of_child inside (self_mem_nodes child.1 child.2)

theorem nodes_trans {name : String} {s : Schema} {x y : String × Schema}
    (outer : x ∈ nodes name s) (inner : y ∈ nodes x.1 x.2) : y ∈ nodes name s := by
  induction name, s using children_induction with
  | step name s ih =>
    rw [nodes_eq] at outer
    rcases List.mem_cons.mp outer with rfl | below
    · exact inner
    · obtain ⟨child, inside, member⟩ := List.mem_flatMap.mp below
      exact nodes_of_child inside (ih child.1 child.2 inside member)

end SchemaForge.Schema
