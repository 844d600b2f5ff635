import SchemaForge.Compile.Types

/- Struct types for object schemas. A required field of an object type starts with a constructed
   value, unless construction would never end. -/
namespace SchemaForge.Compile

open Code (Ty Init)

/-- The parts of an object schema. -/
structure ObjectParts where
  properties : List (String × Schema)
  required : List String
  additional : Option Schema
  deriving Repr

def ObjectParts.ofSchema? : Schema → Option ObjectParts
  | .object properties required additional => some ⟨properties.getD [], required, additional⟩
  | _ => none

/-- How many references are followed in a row. -/
def maxHops : Nat := 65

/-- The object that a chain of references ends at, under its name; `none` for another end. -/
def objectTarget (d : Document) : Nat → String → Schema →
    Except SchemaError (Option (String × ObjectParts))
  | 0, name, .ref path => .error ⟨name, path, .chainTooLong⟩
  | hops + 1, name, .ref path =>
    match d.resolve path with
    | .error e => .error (e.within name)
    | .ok target => objectTarget d hops (Pointer.name path) target
  | _, name, s => .ok ((ObjectParts.ofSchema? s).map fun o => (name, o))

/-- Whether all required properties that are objects pass a test. -/
def requiredObjects (d : Document) (name : String) (required : List String)
    (test : String → ObjectParts → Except SchemaError Bool) :
    List (String × Schema) → Except SchemaError Bool
  | [] => .ok true
  | (key, s) :: rest =>
    if required.contains key then
      match objectTarget d maxHops (Ident.propertyOf name key) s with
      | .error e => .error e
      | .ok none => requiredObjects d name required test rest
      | .ok (some (target, child)) =>
        match test target child with
        | .error e => .error e
        | .ok false => .ok false
        | .ok true => requiredObjects d name required test rest
    else requiredObjects d name required test rest

/-- Whether constructing the named object ends: no chain of required objects leads back to one
    that is being constructed. -/
def finiteWithin (d : Document) : Nat → List String → String → ObjectParts → Except SchemaError Bool
  | 0, _, _, _ => .ok false
  | fuel + 1, active, name, o =>
    if active.contains name then .ok false
    else requiredObjects d name o.required (finiteWithin d fuel (name :: active)) o.properties

/- Between two references a chain only goes down a schema, and every reference on it leads to a
   name that is not yet active. -/
def constructionBound (d : Document) : Nat := (d.root.size + 2) * (d.root.size + 2)

def finiteConstruction (d : Document) (name : String) (o : ObjectParts) : Except SchemaError Bool :=
  finiteWithin d (constructionBound d) [] name o

def requiredInit (d : Document) (name : String) (s : Schema) (type : Ty) : Except SchemaError Init :=
  match objectTarget d maxHops name s with
  | .error e => .error e
  | .ok none => .ok (.zero type)
  | .ok (some (target, o)) =>
    match finiteConstruction d target o with
    | .error e => .error e
    | .ok finite => .ok (if finite then .construct (Ident.constructorName target) else .zero type)

/-- The field for the members that are not declared. -/
def additionalField : String := "AdditionalProperties"

abbrev Field := Code.Field Ty Init

abbrev Record := Code.Record Ty Init

def field (d : Document) (owner : String) (required : List String) (taken : List (String × String))
    (key : String) (s : Schema) : Except SchemaError Field :=
  let inner := Ident.propertyOf owner key
  let name := Ident.fieldName key
  match typeOf d inner s with
  | .error e => .error (e.within owner)
  | .ok type =>
    match Members.get? name taken with
    | some first =>
      .error ⟨owner, "/properties/" ++ Pointer.escape key, .sameField first key name⟩
    | none =>
      if required.contains key then
        match requiredInit d inner s type with
        | .error e => .error (e.within owner)
        | .ok init => .ok ⟨name, key, type, init, false⟩
      else
        let (type, boxed) := type.optional
        .ok ⟨name, key, type, .absent, boxed⟩

/-- The fields in order of declaration. `taken` lists the field names in use with what uses
    them. -/
def fields (d : Document) (owner : String) (required : List String) (taken : List (String × String)) :
    List (String × Schema) → Except SchemaError (List Field)
  | [] => .ok []
  | (key, s) :: rest =>
    match field d owner required taken key s with
    | .error e => .error e
    | .ok f => (fields d owner required ((f.name, key) :: taken) rest).map (f :: ·)

def record (d : Document) (name : String) (o : ObjectParts) : Except SchemaError Record :=
  let make (fs : List Field) : Record := ⟨Ident.typeName name, Ident.constructorName name, fs⟩
  match o.additional with
  | none => (fields d name o.required [] o.properties).map make
  | some s =>
    match fields d name o.required [(additionalField, "additionalProperties")] o.properties with
    | .error e => .error e
    | .ok fs =>
      match typeOf d (Ident.additionalOf name) s with
      | .error e => .error (e.within name)
      | .ok type =>
        .ok (make (fs ++ [⟨additionalField, "", .ordered type, .emptyMap type, false⟩]))

end SchemaForge.Compile
