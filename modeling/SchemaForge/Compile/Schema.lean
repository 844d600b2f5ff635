import SchemaForge.Compile.Primitive
import SchemaForge.Compile.Record

/- Validators for a schema and the schemas inside it. A reference is compiled to a call of its
   target's validator, by name. -/
namespace SchemaForge.Compile

open Code (Ty Init Call)

abbrev Package := Code.Package Ty Init Call

abbrev Function := Code.Function Ty Call

abbrev Step := Code.PropertyStep Call

/-- The set of declared properties, which the map of the others leaves out. -/
def declaredSet (name : String) (o : ObjectParts) : List Code.StringSet :=
  if o.additional.isSome && !o.properties.isEmpty then
    [⟨Ident.typeName (Ident.propertiesSetOf name), o.properties.map (·.1)⟩]
  else []

def mapStep (name : String) (o : ObjectParts) (validator : String) : Code.MapStep :=
  ⟨(declaredSet name o).head?.map (·.name), validator, additionalField⟩

/-- The name of the validator of a nested schema, and what has to be emitted for it. -/
def part (c : Compiler) (name : String) (s : Schema)
    (compiled : Unit → Except SchemaError Package) : Except SchemaError (String × Package) :=
  match s with
  | .ref path =>
    .ok (c.validator (Pointer.name path), Code.Package.ofReference ⟨name, path⟩)
  | _ => (compiled ()).map fun p => (c.validator name, p)

/-- The call for a property. A primitive one needs no validator of its own. -/
def propertyCall (c : Compiler) (name : String) (s : Schema)
    (compiled : Unit → Except SchemaError Package) : Except SchemaError (Call × Package) :=
  match primitive? name s with
  | some (call, sets) => .ok (call, Code.Package.ofSets sets)
  | none => (part c name s compiled).map fun (validator, p) => (.validator validator, p)

mutual

/-- The validator of a schema in front of those of its parts. -/
def compile (c : Compiler) (name : String) : Schema → Except SchemaError Package
  | .object properties required additional =>
    let o : ObjectParts := ⟨properties.getD [], required, additional⟩
    match typeOf c.document name (.object properties required additional) with
    | .error e => .error e
    | .ok type =>
      match record c.document name o with
      | .error e => .error e
      | .ok r => do
        let (step, others) ← compileAdditional c name o additional
        let (steps, parts) ← compileDeclared c name required r.fields properties
        let f : Function := ⟨c.validator name, name, type, .object ⟨r.constructor, step, steps⟩⟩
        return (Code.Package.ofRecord r ++ Code.Package.ofSets (declaredSet name o) ++ others
          ++ parts).lead f
  | .array items lo hi =>
    match typeOf c.document name (.array items lo hi) with
    | .error e => .error e
    | .ok type => do
      let inner := Ident.itemOf name
      let (item, parts) ← part c inner items fun _ => compile c inner items
      return parts.lead ⟨c.validator name, name, type, .result (.array lo hi item)⟩
  | .ref path =>
    match typeOf c.document name (.ref path) with
    | .error e => .error e
    | .ok type =>
      .ok ((Code.Package.ofReference ⟨name, path⟩).lead
        ⟨c.validator name, name, type,
          .result (.validator (c.validator (Pointer.name path)))⟩)
  | s => do
    let type ← typeOf c.document name s
    let (call, sets) ← primitive name (some s)
    return (Code.Package.ofSets sets).lead ⟨c.validator name, name, type, .result call⟩

def compileAdditional (c : Compiler) (name : String) (o : ObjectParts) :
    Option Schema → Except SchemaError (Option Code.MapStep × Package)
  | none => .ok (none, .empty)
  | some s =>
    let inner := Ident.additionalOf name
    (part c inner s fun _ => compile c inner s).map fun (validator, p) =>
      (some (mapStep name o validator), p)

def compileDeclared (c : Compiler) (name : String) (required : List String) (fs : List Field) :
    Option (List (String × Schema)) → Except SchemaError (List Step × Package)
  | none => .ok ([], .empty)
  | some properties => compileProperties c name required fs properties

/-- One step for each property, with the field that holds it. -/
def compileProperties (c : Compiler) (name : String) (required : List String) :
    List Field → List (String × Schema) → Except SchemaError (List Step × Package)
  | f :: fs, (key, s) :: rest => do
    let inner := Ident.propertyOf name key
    let (call, p) ← propertyCall c inner s fun _ => compile c inner s
    let (steps, parts) ← compileProperties c name required fs rest
    return (⟨key, f.name, required.contains key, call, f.boxed⟩ :: steps, p ++ parts)
  | _, _ => .ok ([], .empty)

end

end SchemaForge.Compile
