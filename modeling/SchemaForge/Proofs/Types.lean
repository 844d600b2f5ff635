import SchemaForge.Proofs.Decoding

/-!
Types follow the schema: an array has the slice type of its items, a reference the type of its
target under the target's own name, and every other schema a type of its own. How references have
been met so far, and how many may still be followed, decides only whether there is a type, never
which one it is.
-/
namespace SchemaForge.Compile
open Code (Ty)

section
variable {d : Document} {fuel : Nat} {met : List String} {name : String}

theorem typeVia_array (items : Schema) (lo hi : Option Nat) :
    typeVia d fuel met name (.array items lo hi) =
      (typeVia d fuel met (Ident.itemOf name) items).map .slice := by
  cases fuel <;> rfl

theorem typeVia_object (properties : Option (List (String × Schema))) (required : List String)
    (additional : Option Schema) :
    typeVia d fuel met name (.object properties required additional) =
      .ok (.record (Ident.typeName name)) := by
  cases fuel <;> rfl

/-- The type of a schema without parts. -/
def primitiveType : Schema → Ty
  | .string _ _ _ format => formatType (Schema.Format.ofName? format)
  | .integer .. => .integer
  | .number .. => .decimal
  | _ => .bool

theorem typeVia_primitive {s : Schema} (kind : s.isPrimitive = true) :
    typeVia d fuel met name s = .ok (primitiveType s) := by
  cases s <;> simp only [Schema.isPrimitive, Bool.false_eq_true] at kind
  all_goals cases fuel <;> rfl

theorem typeVia_ref {path : String} {target : Schema} (fresh : path ∉ met)
    (resolved : d.resolve path = .ok target) :
    typeVia d (fuel + 1) met name (.ref path) =
      typeVia d fuel (met ++ [path]) (Pointer.name path) target := by
  rw [typeVia, typeWith, if_neg (by simpa using fresh), resolved]

/-- A reference with a type was not met before, and its target has that type. -/
theorem typeVia_ref_ok {path : String} {t : Ty}
    (typed : typeVia d fuel met name (.ref path) = .ok t) :
    path ∉ met ∧ ∃ target k, d.resolve path = .ok target ∧ fuel = k + 1 ∧
      typeVia d k (met ++ [path]) (Pointer.name path) target = .ok t := by
  cases fuel with
  | zero => simp [typeVia, typeWith] at typed
  | succ k =>
    rw [typeVia, typeWith] at typed
    split at typed
    · simp at typed
    · rename_i fresh
      split at typed
      · simp at typed
      · rename_i target resolved
        exact ⟨by simpa using fresh, target, k, resolved, rfl, typed⟩

end

/-- The types of schemas, whatever references were met before. -/
inductive Typed (d : Document) : String → Schema → Ty → Prop
  | array {name : String} {items : Schema} {lo hi : Option Nat} {t : Ty}
      (item : Typed d (Ident.itemOf name) items t) : Typed d name (.array items lo hi) (.slice t)
  | object (name : String) (properties : Option (List (String × Schema))) (required : List String)
      (additional : Option Schema) :
      Typed d name (.object properties required additional) (.record (Ident.typeName name))
  | primitive (name : String) {s : Schema} (kind : s.isPrimitive = true) :
      Typed d name s (primitiveType s)
  | ref {name path : String} {target : Schema} {t : Ty} (resolved : d.resolve path = .ok target)
      (followed : Typed d (Pointer.name path) target t) : Typed d name (.ref path) t

theorem typeVia_typed {d : Document} {fuel : Nat} {met : List String} {name : String} {s : Schema}
    {t : Ty} (typed : typeVia d fuel met name s = .ok t) : Typed d name s t := by
  -- Items are typed with the same fuel, the targets of references with less.
  induction fuel using Nat.strongRecOn generalizing met name s t with
  | ind fuel shorter =>
    induction name, s using Schema.children_induction generalizing t with
    | step name s ih =>
      cases s with
      | array items lo hi =>
        rw [typeVia_array] at typed
        obtain ⟨item, inner, rfl⟩ := map_ok_iff.mp typed
        exact .array (ih _ _ Schema.item_mem_children inner)
      | ref path =>
        obtain ⟨-, target, k, resolved, rfl, followed⟩ := typeVia_ref_ok typed
        exact .ref resolved (shorter k (by omega) followed)
      | object properties required additional =>
        rw [typeVia_object, Except.ok.injEq] at typed
        subst typed
        exact .object ..
      | _ =>
        rw [typeVia_primitive rfl, Except.ok.injEq] at typed
        subst typed
        exact .primitive name rfl

theorem Typed.unique {d : Document} {name : String} {s : Schema} {t u : Ty}
    (first : Typed d name s t) (second : Typed d name s u) : t = u := by
  induction first generalizing u with
  | array _ ih =>
    cases second with
    | array item => rw [ih item]
    | primitive _ kind => simp [Schema.isPrimitive] at kind
  | object =>
    cases second with
    | object => rfl
    | primitive _ kind => simp [Schema.isPrimitive] at kind
  | primitive _ kind =>
    cases second with
    | primitive => rfl
    | _ => simp [Schema.isPrimitive] at kind
  | ref resolved _ ih =>
    cases second with
    | ref resolved' followed =>
      cases resolved.symm.trans resolved'
      exact ih followed
    | primitive _ kind => simp [Schema.isPrimitive] at kind

theorem primitiveType_ne_record (s : Schema) (name : String) : primitiveType s ≠ .record name := by
  cases s with
  | string lo hi enum format =>
    rw [primitiveType]
    cases Schema.Format.ofName? format with
    | none => simp [formatType]
    | some known => cases known <;> simp [formatType]
  | _ => simp [primitiveType]

theorem typeOf_array {d : Document} {name : String} {items : Schema} {lo hi : Option Nat} {t : Ty}
    (typed : typeOf d name (.array items lo hi) = .ok t) :
    ∃ item, typeOf d (Ident.itemOf name) items = .ok item ∧ t = .slice item := by
  rw [typeOf, typeVia_array] at typed
  obtain ⟨item, inner, rfl⟩ := map_ok_iff.mp typed
  exact ⟨item, inner, rfl⟩

end SchemaForge.Compile
