import SchemaForge.Proofs.Construction
import SchemaForge.Proofs.Meaning
import SchemaForge.Proofs.Numerals

/-!
Validators do not crash. A run could crash on a bound that is no number, so bounds are followed from
the document into the emitted code: a place inside a schema is followed turn by turn, and the same
turns lead through the emitted calls to the one that carries the bounds of that place.
-/
namespace SchemaForge

/-- A way from a schema to one directly inside it. -/
inductive Turn where
  | item
  | additional
  | property (key : String)
  deriving DecidableEq, Repr

namespace Json

/-- The type that a tree declares; a reference has none of its own. -/
def schemaType? : Json → Option String
  | .obj members =>
    match Members.get? "$ref" members, Members.get? "type" members with
    | none, some (.str type) => some type
    | _, _ => none
  | _ => none

def turn (v : Json) (t : Turn) : Option Json :=
  match v, t, v.schemaType? with
  | .obj members, .item, some "array" => Members.get? "items" members
  | .obj members, .additional, some "object" => Members.get? "additionalProperties" members
  | .obj members, .property key, some "object" =>
    match Members.get? "properties" members with
    | some (.obj values) => Members.get? key values
    | _ => none
  | _, _, _ => none

theorem turn_typed {v w : Json} {t : Turn} (turned : v.turn t = some w) :
    ∃ type, v.schemaType? = some type := by
  cases typed : v.schemaType? with
  | some type => exact ⟨type, rfl⟩
  | none =>
    unfold turn at turned
    simp [typed] at turned

/-- The tree at a place inside another one. -/
def follow (v : Json) : List Turn → Option Json
  | [] => some v
  | t :: rest => (v.turn t).bind fun w => w.follow rest

end Json

namespace Code.Package

/-- What a call does: its own check, or the body of the validator that it names. -/
def bodyOf (p : Package Ty Init Call) : Call → Option (Body Call)
  | .validator name => (p.function? name).map (·.body)
  | call => some (.result call)

def turn (p : Package Ty Init Call) (call : Call) (t : Turn) : Option Call :=
  match t, p.bodyOf call with
  | .item, some (.result (.array _ _ item)) => some (.validator item)
  | .additional, some (.object b) => b.additional.map fun step => .validator step.validator
  | .property key, some (.object b) => (b.properties.find? (·.key = key)).map (·.call)
  | _, _ => none

/-- The call that is made for the values at a place. -/
def follow (p : Package Ty Init Call) (call : Call) : List Turn → Option Call
  | [] => some call
  | t :: rest => (p.turn call t).bind fun inner => p.follow inner rest

end Code.Package

/-- The bound argument for a keyword: none exactly if there is no such keyword, and otherwise a
    literal, quoted as it stands, that reads as the number the keyword gives. -/
inductive BoundFor {β : Type} (read : String → Outcome β) (value : β → ℚ)
    (members : List (String × Json)) (key : String) : Option String → Prop
  | absent (missing : Members.get? key members = none) : BoundFor read value members key none
  | present {v : Json} {text : String} {b : β} (given : Members.get? key members = some v)
      (written : Text.quoted text = "\"" ++ text ++ "\"") (accepted : read text = .ok b)
      (same : ∀ q, Spells v q ↔ q = value b) :
      BoundFor read value members key (some text)

namespace Schema
open Decode

/-- A bound is decoded from a number as it stands, and from a text without its blanks. -/
theorem bound_given {integer : Bool} {members : List (String × Json)} {key : String}
    {found : Option String} (decoded : bound integer members key = .ok found) :
    (Members.get? key members = none ∧ found = none) ∨
      (∃ text, Members.get? key members = some (.num text) ∧ found = some text) ∨
      ∃ text, Members.get? key members = some (.str text) ∧ found = some (Text.trimSpace text) := by
  unfold bound at decoded
  cases integer <;> simp only [Bool.false_eq_true, if_true, if_false] at decoded
  all_goals
    split at decoded
    · rename_i missing
      exact .inl ⟨missing, (Except.ok.inj decoded).symm⟩
    · rename_i text given
      split at decoded
      · exact .inr (.inl ⟨text, given, (Except.ok.inj decoded).symm⟩)
      · cases decoded
    · rename_i text given
      split at decoded
      · exact .inr (.inr ⟨text, given, (Except.ok.inj decoded).symm⟩)
      · cases decoded
    · cases decoded

theorem bound_for {β : Type} {integer : Bool} {members : List (String × Json)} {key : String}
    {read : String → Outcome β} {value : β → ℚ} {found : Option String}
    (accepts : ∀ text, reads integer text = true →
      ∃ b, read text = .ok b ∧ ∀ q, Number.Numeral text.toList q ↔ q = value b)
    (decoded : bound integer members key = .ok found) :
    BoundFor read value members key found := by
  have readable := bound_reads decoded
  rcases bound_given decoded with ⟨missing, rfl⟩ | ⟨text, given, rfl⟩ | ⟨text, given, rfl⟩
  · exact .absent missing
  · obtain ⟨b, accepted, same⟩ := accepts text (readable text rfl)
    exact .present given ((same _).mpr rfl).quoted accepted fun q => spells_num.trans (same q)
  · obtain ⟨b, accepted, same⟩ := accepts _ (readable _ rfl)
    exact .present given ((same _).mpr rfl).quoted accepted fun q => spells_str.trans (same q)

theorem integer_accepts (text : String) (readable : reads true text = true) :
    ∃ n, Validate.integerBound text = .ok n ∧
      ∀ q, Number.Numeral text.toList q ↔ q = ((n : Int) : ℚ) := by
  obtain ⟨n, parsed⟩ := Option.isSome_iff_exists.mp readable
  exact ⟨n, integerBound_reads text n parsed, Number.integer_value_iff parsed⟩

theorem decimal_accepts (text : String) (readable : reads false text = true) :
    ∃ x, Validate.decimalBound text = .ok x ∧
      ∀ q, Number.Numeral text.toList q ↔ q = x.value := by
  obtain ⟨x, parsed⟩ := Option.isSome_iff_exists.mp readable
  exact ⟨x, decimalBound_reads text x parsed, Number.Decimal.value_iff parsed⟩

theorem bounds_for {β : Type} {integer : Bool} {members : List (String × Json)}
    {read : String → Outcome β} {value : β → ℚ} {lo hi : Option String}
    (accepts : ∀ text, reads integer text = true →
      ∃ b, read text = .ok b ∧ ∀ q, Number.Numeral text.toList q ↔ q = value b)
    (decoded : bounds integer members = .ok (lo, hi)) :
    BoundFor read value members "minimum" lo ∧ BoundFor read value members "maximum" hi := by
  obtain ⟨lower, first, rest⟩ := bind_ok_iff.mp decoded
  obtain ⟨upper, second, same⟩ := bind_ok_iff.mp rest
  obtain ⟨rfl, rfl⟩ := Prod.mk.inj (Except.ok.inj same)
  exact ⟨bound_for accepts first, bound_for accepts second⟩

/-- What the declared type makes of a tree. -/
inductive TypedFrom (members : List (String × Json)) : String → Schema → Prop
  | object {properties : Option (List (String × Schema))} {additional : Option Schema}
      (required : List String) (declared : decodeProperties members = .ok properties)
      (others : decodeAdditional members = .ok additional) :
      TypedFrom members "object" (.object properties required additional)
  | array {items : Schema} (lo hi : Option Nat) (inner : decodeItems members = .ok items) :
      TypedFrom members "array" (.array items lo hi)
  | integer {lo hi : Option String} (pair : bounds true members = .ok (lo, hi)) :
      TypedFrom members "integer" (.integer lo hi)
  | number {lo hi : Option String} (pair : bounds false members = .ok (lo, hi)) :
      TypedFrom members "number" (.number lo hi)
  | string (lo hi : Option Nat) (enum : Option (List String)) (format : String) :
      TypedFrom members "string" (.string lo hi enum format)
  | boolean : TypedFrom members "boolean" .boolean

theorem typed_from {members : List (String × Json)} {type : String} {s : Schema}
    (typed : (Json.obj members).schemaType? = some type)
    (decoded : decodeTree (.obj members) = .ok s) : TypedFrom members type s := by
  rw [Json.schemaType?] at typed
  split at typed
  · rename_i found none typeGiven
    cases typed
    rw [decodeTree, none, typeGiven] at decoded
    simp only at decoded
    split at decoded
    · rename_i same
      obtain ⟨properties, declared, rest⟩ := bind_ok_iff.mp decoded
      obtain ⟨required, -, rest⟩ := bind_ok_iff.mp rest
      obtain ⟨additional, others, rest⟩ := bind_ok_iff.mp rest
      rw [← Except.ok.inj rest, same]
      exact .object _ declared others
    split at decoded
    · rename_i same
      obtain ⟨items, inner, rest⟩ := bind_ok_iff.mp decoded
      obtain ⟨lo, -, rest⟩ := bind_ok_iff.mp rest
      obtain ⟨hi, -, rest⟩ := bind_ok_iff.mp rest
      rw [← Except.ok.inj rest, same]
      exact .array _ _ inner
    split at decoded
    · rename_i same
      obtain ⟨lo, -, rest⟩ := bind_ok_iff.mp decoded
      obtain ⟨hi, -, rest⟩ := bind_ok_iff.mp rest
      obtain ⟨enum, -, rest⟩ := bind_ok_iff.mp rest
      obtain ⟨format, -, rest⟩ := bind_ok_iff.mp rest
      rw [← Except.ok.inj rest, same]
      exact .string ..
    split at decoded
    · rename_i same
      obtain ⟨⟨lo, hi⟩, pair, rest⟩ := map_ok_iff.mp decoded
      rw [← rest, same]
      exact .number pair
    split at decoded
    · rename_i same
      obtain ⟨⟨lo, hi⟩, pair, rest⟩ := map_ok_iff.mp decoded
      rw [← rest, same]
      exact .integer pair
    split at decoded
    · rename_i same
      rw [← Except.ok.inj decoded, same]
      exact .boolean
    · cases decoded
  · cases typed

theorem TypedFrom.direct {members : List (String × Json)} {type : String} {s : Schema}
    (from_ : TypedFrom members type s) (path : String) : s ≠ .ref path := by
  cases from_ <;> simp

section Inversion
variable {members : List (String × Json)} {s : Schema}

theorem TypedFrom.of_object (from_ : TypedFrom members "object" s) :
    ∃ properties required additional, s = .object properties required additional ∧
      decodeProperties members = .ok properties ∧ decodeAdditional members = .ok additional := by
  generalize same : "object" = type at from_
  cases from_ with
  | object required declared others => exact ⟨_, required, _, rfl, declared, others⟩
  | _ => simp at same

theorem TypedFrom.of_array (from_ : TypedFrom members "array" s) :
    ∃ items lo hi, s = .array items lo hi ∧ decodeItems members = .ok items := by
  generalize same : "array" = type at from_
  cases from_ with
  | array lo hi inner => exact ⟨_, lo, hi, rfl, inner⟩
  | _ => simp at same

theorem TypedFrom.of_integer (from_ : TypedFrom members "integer" s) :
    ∃ lo hi, s = .integer lo hi ∧ bounds true members = .ok (lo, hi) := by
  generalize same : "integer" = type at from_
  cases from_ with
  | integer pair => exact ⟨_, _, rfl, pair⟩
  | _ => simp at same

theorem TypedFrom.of_number (from_ : TypedFrom members "number" s) :
    ∃ lo hi, s = .number lo hi ∧ bounds false members = .ok (lo, hi) := by
  generalize same : "number" = type at from_
  cases from_ with
  | number pair => exact ⟨_, _, rfl, pair⟩
  | _ => simp at same

end Inversion

theorem items_given {members : List (String × Json)} {s : Schema} {v : Json}
    (decoded : decodeItems members = .ok s) (given : Members.get? "items" members = some v) :
    decodeTree v = .ok s := by
  obtain ⟨w, found, tree⟩ := items_decoded decoded
  rw [given, Option.some.injEq] at found
  rw [found, tree]

/-- What stands under `additionalProperties` is decoded, unless it declares nothing. -/
theorem additional_given {members : List (String × Json)} {additional : Option Schema} {v : Json}
    {type : String} (decoded : decodeAdditional members = .ok additional)
    (given : Members.get? "additionalProperties" members = some v)
    (typed : v.schemaType? = some type) : ∃ s, additional = some s ∧ decodeTree v = .ok s := by
  induction members with
  | nil => simp [Members.get?] at given
  | cons head rest ih =>
    obtain ⟨key, w⟩ := head
    rw [Members.get?] at given
    rw [decodeAdditional] at decoded
    split at given
    · rename_i here
      obtain rfl := Option.some.inj given
      have schema : (isBool w || isEmptyObject w) = false := by
        cases w with
        | obj members =>
          cases members with
          | nil => simp [Json.schemaType?, Members.get?] at typed
          | cons head rest => rfl
        | _ => simp [Json.schemaType?] at typed
      rw [if_pos here, schema] at decoded
      obtain ⟨s, tree, same⟩ := map_ok_iff.mp decoded
      exact ⟨s, same.symm, under_ok_iff.mp tree⟩
    · rename_i elsewhere
      rw [if_neg elsewhere] at decoded
      exact ih decoded given

theorem properties_given {members values : List (String × Json)}
    {properties : Option (List (String × Schema))}
    (decoded : decodeProperties members = .ok properties)
    (given : Members.get? "properties" members = some (.obj values)) :
    List.Forall₂ PropertyFrom values (properties.getD []) := by
  induction members with
  | nil => simp [Members.get?] at given
  | cons head rest ih =>
    obtain ⟨key, v⟩ := head
    rw [Members.get?] at given
    split at given
    · rename_i here
      obtain rfl := Option.some.inj given
      rw [decodeProperties, if_pos here] at decoded
      obtain ⟨list, tree, rfl⟩ := map_ok_iff.mp decoded
      exact each_decoded (under_ok_iff.mp tree)
    · rename_i elsewhere
      refine ih ?_ given
      cases v <;> simpa only [decodeProperties, if_neg elsewhere] using decoded

theorem property_given {key : String} {values : List (String × Json)}
    {properties : List (String × Schema)} {v : Json}
    (each : List.Forall₂ PropertyFrom values properties)
    (given : Members.get? key values = some v) :
    ∃ s, Members.get? key properties = some s ∧ decodeTree v = .ok s := by
  induction each with
  | nil => simp [Members.get?] at given
  | @cons member property values properties head _ ih =>
    obtain ⟨same, tree⟩ := head
    rw [Members.get?] at given ⊢
    rw [same]
    split at given
    · rename_i here
      rw [if_pos here]
      exact ⟨_, rfl, Option.some.inj given ▸ tree⟩
    · rename_i elsewhere
      rw [if_neg elsewhere]
      exact ih given

end Schema

namespace Compile
open Code (Call)

variable {c : Compiler} {named : List (String × Schema)} {p : Package}

/-- A call that does for the values of a tree what the validator of its schema does. -/
def Serves (c : Compiler) (p : Package) (v : Json) (call : Call) : Prop :=
  ∃ name s f, Schema.decodeTree v = .ok s ∧ Heads c p name s f ∧ p.bodyOf call = some f.body

theorem step_found {owner key : String} {required : List String}
    {properties : List (String × Schema)} {fs : List Field} {steps : List Step} {s : Schema}
    (each : Steps c p owner required properties fs steps)
    (given : Members.get? key properties = some s) :
    ∃ step, steps.find? (·.key = key) = some step ∧
      CallFor c p (Ident.propertyOf owner key) s step.call := by
  induction each with
  | nil fs => simp [Members.get?] at given
  | @cons key' s' call properties f fs steps head _ ih =>
    rw [Members.get?] at given
    split at given
    · rename_i here
      obtain rfl := Option.some.inj given
      subst here
      exact ⟨_, List.find?_cons_of_pos (by simp), head⟩
    · rename_i elsewhere
      rw [List.find?_cons_of_neg (by simpa using elsewhere)]
      exact ih given

section Linked
variable (linked : Linked c named p)
include linked

theorem Linked.serves_of_heads {name : String} {s : Schema} {f : Function} {v : Json}
    (tree : Schema.decodeTree v = .ok s) (member : f ∈ p.functions) (heads : Heads c p name s f) :
    Serves c p v (.validator (c.validator name)) := by
  refine ⟨name, s, f, tree, heads, ?_⟩
  have found := Code.Package.function_declared linked.functions_distinct member
  rw [Code.Package.bodyOf, ← heads.typed.1, found]
  rfl

theorem Linked.serves_of_placed {name : String} {s : Schema} {v : Json}
    (tree : Schema.decodeTree v = .ok s) (direct : ∀ path, s ≠ .ref path)
    (placed : Placed c p name s) : Serves c p v (.validator (validatorFor c name s)) := by
  cases s with
  | ref path => exact absurd rfl (direct path)
  | _ =>
    obtain ⟨q, compiled, within⟩ := placed
    obtain ⟨f, -, member, heads⟩ := compile_heads compiled within
    exact linked.serves_of_heads tree member heads

theorem Linked.serves_of_call {name : String} {s : Schema} {call : Call} {v : Json}
    (tree : Schema.decodeTree v = .ok s) (direct : ∀ path, s ≠ .ref path)
    (stands : CallFor c p name s call) : Serves c p v call := by
  cases stands with
  | validator _ placed => exact linked.serves_of_placed tree direct placed
  | primitive found kept =>
    refine ⟨name, s, _, tree, .primitive found kept, ?_⟩
    cases s <;> simp only [primitive?, Option.some.injEq, Prod.mk.injEq, reduceCtorEq] at found
    all_goals
      rw [← found.1]
      rfl

/-- A turn inside the tree is matched by the same turn inside the emitted code. -/
theorem Linked.serves_turn {v w : Json} {t : Turn} {type : String} {call : Call}
    (serves : Serves c p v call) (turned : v.turn t = some w) (typed : w.schemaType? = some type) :
    ∃ inner, p.turn call t = some inner ∧ Serves c p w inner := by
  obtain ⟨name, s, f, tree, heads, body⟩ := serves
  have direct : ∀ s, Schema.decodeTree w = .ok s → ∀ path, s ≠ .ref path := by
    intro s decoded path
    cases w with
    | obj members => exact (Schema.typed_from typed decoded).direct path
    | _ => cases typed
  unfold Json.turn at turned
  split at turned
  · rename_i members outer
    obtain ⟨items, lo, hi, rfl, inner⟩ := (Schema.typed_from outer tree).of_array
    have decoded := Schema.items_given inner turned
    cases heads with
    | array _ placed =>
      refine ⟨.validator _, ?_, linked.serves_of_placed decoded (direct _ decoded) placed⟩
      simp only [Code.Package.turn, body]
    | primitive found => cases found
  · rename_i members outer
    obtain ⟨properties, required, additional, rfl, -, others⟩ :=
      (Schema.typed_from outer tree).of_object
    obtain ⟨s, rfl, decoded⟩ := Schema.additional_given others turned typed
    cases heads with
    | object _ _ _ step _ =>
      cases step with
      | some placed =>
        refine ⟨.validator _, ?_, linked.serves_of_placed decoded (direct _ decoded) placed⟩
        simp only [Code.Package.turn, body, Option.map_some, mapStep]
    | primitive found => cases found
  · rename_i members key outer
    obtain ⟨properties, required, additional, rfl, declared, -⟩ :=
      (Schema.typed_from outer tree).of_object
    split at turned
    · rename_i values given
      obtain ⟨s, listed, decoded⟩ :=
        Schema.property_given (Schema.properties_given declared given) turned
      cases heads with
      | object _ _ _ _ steps =>
        obtain ⟨step, found, stands⟩ := step_found steps listed
        refine ⟨step.call, ?_, linked.serves_of_call decoded (direct _ decoded) stands⟩
        simp only [Code.Package.turn, body, found, Option.map_some]
      | primitive found => cases found
    · cases turned
  · cases turned

/-- From a call that serves a tree the same way leads to one that serves the place. -/
theorem Linked.serves_follow {v w : Json} {path : List Turn} {type : String} {call : Call}
    (serves : Serves c p v call) (followed : v.follow path = some w)
    (typed : w.schemaType? = some type) :
    ∃ inner, p.follow call path = some inner ∧ Serves c p w inner := by
  induction path generalizing v call with
  | nil =>
    obtain rfl := Option.some.inj followed
    exact ⟨call, rfl, serves⟩
  | cons t rest ih =>
    obtain ⟨u, turned, followed⟩ := Option.bind_eq_some_iff.mp followed
    -- Only trees with a type can be entered further.
    obtain ⟨type', typed'⟩ : ∃ type', u.schemaType? = some type' := by
      cases rest with
      | nil =>
        obtain rfl := Option.some.inj followed
        exact ⟨type, typed⟩
      | cons t' rest' =>
        obtain ⟨x, entered, -⟩ := Option.bind_eq_some_iff.mp followed
        exact Json.turn_typed entered
    obtain ⟨middle, turn, serves⟩ := linked.serves_turn serves turned typed'
    obtain ⟨inner, follow, serves⟩ := ih serves followed
    exact ⟨inner, by rw [Code.Package.follow, turn]; exact follow, serves⟩

end Linked

/-- The call that is made at a place makes a check with the bounds of that place. -/
def CarriedAt {β : Type} (p : Package) (validator : String) (path : List Turn)
    (members : List (String × Json)) (check : Option String → Option String → Call)
    (read : String → Outcome β) (value : β → ℚ) : Prop :=
  ∃ call lo hi, p.follow (.validator validator) path = some call ∧
    p.bodyOf call = some (.result (check lo hi)) ∧
    BoundFor read value members "minimum" lo ∧ BoundFor read value members "maximum" hi

/-- Bounds are carried to every place inside the tree that has a numeric type. -/
def CarriesBounds (p : Package) (tree : Json) (validator : String) : Prop :=
  ∀ path members, tree.follow path = some (.obj members) →
    ((Json.obj members).schemaType? = some "integer" →
      CarriedAt p validator path members .integer Validate.integerBound fun n => (n : ℚ)) ∧
    ((Json.obj members).schemaType? = some "number" →
      CarriedAt p validator path members .number Validate.decimalBound Number.Decimal.value)

theorem Serves.primitive_body {v : Json} {call : Call} (serves : Serves c p v call) :
    ∃ name s, Schema.decodeTree v = .ok s ∧
      ∀ check sets, primitive? name s = some (check, sets) →
        p.bodyOf call = some (.result check) := by
  obtain ⟨name, s, f, tree, heads, body⟩ := serves
  refine ⟨name, s, tree, fun check sets found => ?_⟩
  cases heads with
  | primitive found' =>
    rw [found, Option.some.injEq, Prod.mk.injEq] at found'
    rw [body, found'.1]
  | _ => cases found

theorem Linked.carriesBounds (linked : Linked c named p) {tree : Json} {validator : String}
    (serves : Serves c p tree (.validator validator)) : CarriesBounds p tree validator := by
  intro path members followed
  constructor
  · intro typed
    obtain ⟨call, reached, there⟩ := linked.serves_follow serves followed typed
    obtain ⟨name, s, decoded, body⟩ := there.primitive_body
    obtain ⟨lo, hi, rfl, pair⟩ := (Schema.typed_from typed decoded).of_integer
    exact ⟨call, lo, hi, reached, body _ _ rfl, Schema.bounds_for Schema.integer_accepts pair⟩
  · intro typed
    obtain ⟨call, reached, there⟩ := linked.serves_follow serves followed typed
    obtain ⟨name, s, decoded, body⟩ := there.primitive_body
    obtain ⟨lo, hi, rfl, pair⟩ := (Schema.typed_from typed decoded).of_number
    exact ⟨call, lo, hi, reached, body _ _ rfl, Schema.bounds_for Schema.decimal_accepts pair⟩

/-- Every validator of a compiled section ends on every value without a crash, and so do the
    constructors; the validator that is reported for an entry carries the bounds of every place
    inside it. -/
theorem validators_never_crash {d : Document} {o : CompileOptions} {canceled : Bool}
    {r : CompiledDocument} (compiled : document d o canceled = .ok r) :
    (∀ f ∈ r.package.functions, ∀ v, ∃ result, r.package.Runs f.name v result ∧
      ∀ literal, result ≠ .error (.crash literal)) ∧
    (∀ a, ¬ Relation.TransGen r.package.Constructs a a) ∧
    ∃ selection, select d o.section_ o.ignore = .ok selection ∧
      List.Forall₂ (fun e reported => reported.name = e.name ∧
        CarriesBounds r.package e.tree reported.validator) selection.entries r.schemas := by
  obtain ⟨selection, named, selected, decoded, linked, reported⟩ := document_linked compiled
  refine ⟨?_, constructs_acyclic linked, selection, selected, related_through decoded reported ?_⟩
  · intro f member v
    obtain ⟨x, node, heads⟩ := linked.origin member
    obtain ⟨depth, agrees⟩ := node_ends linked v x node f member heads
    obtain ⟨found, -, runs⟩ := agrees.settles
    rw [heads.typed.1]
    refine ⟨outcome found, runs, fun literal => ?_⟩
    cases found <;> simp [outcome, refuse]
  · rintro e ⟨name, s⟩ present summary ⟨same, tree⟩ ⟨title, validator, -⟩
    obtain ⟨f, member, heads⟩ := linked.headed present
    refine ⟨title.trans same, linked.carriesBounds ?_⟩
    rw [validator]
    exact linked.serves_of_heads tree member heads

namespace Sample

def level : List (String × Json) := [("type", .str "number"), ("minimum", .str " -1.50e2 ")]

/-- Objects in a list, with a bound that is given as a text between blanks. -/
def series : Json := list (.obj (object [("level", .obj level)] []))

def metered : Document := ⟨.obj [("schemas", .obj [("Series", series)])]⟩

theorem metered_selected : select metered options.section_ options.ignore =
    .ok ⟨[⟨"Series", series, "#/schemas/Series"⟩], []⟩ := rfl

end Sample

set_option maxRecDepth 100000 in
theorem metered_never_crashes :
    ∃ r, document Sample.metered Sample.options false = .ok r ∧
      (∃ result, r.package.Runs "ValidateSeriesItem" .null result ∧
        ∀ literal, result ≠ .error (.crash literal)) ∧
      ∃ reported ∈ r.schemas,
        CarriedAt r.package reported.validator [.item, .property "level"] Sample.level .number
          Validate.decimalBound Number.Decimal.value := by
  obtain ⟨r, compiled, listed⟩ := toOption_any_iff.mp (show
    (document Sample.metered Sample.options false).toOption.any (fun r =>
      r.package.functions.any (·.name = "ValidateSeriesItem")) from by decide +kernel)
  obtain ⟨f, member, name⟩ : ∃ f ∈ r.package.functions, f.name = "ValidateSeriesItem" := by
    simpa using listed
  obtain ⟨runs, -, selection, selected, each⟩ := validators_never_crash compiled
  rw [Sample.metered_selected, Except.ok.injEq] at selected
  rw [← selected] at each
  obtain ⟨reported, inside, -, carries⟩ := related_of_mem_left each List.mem_cons_self
  refine ⟨r, compiled, name ▸ runs f member .null, reported, inside, ?_⟩
  exact (carries [.item, .property "level"] Sample.level rfl).2 rfl

end Compile

end SchemaForge
