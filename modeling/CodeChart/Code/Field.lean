import CodeChart.Code.Piece

/-! Fields: dotted paths to definitions. At each component the last definition of that name is
entered; a component without a definition leaves the search where it is. The search succeeds if it
ends at a definition with the name of the last component. Where it fails, the body of the place
where it ended is emptied. -/
namespace CodeChart.Code

/-- The statements of a definition. -/
def Stmt.body : Stmt → List Stmt
  | .function _ _ _ _ body _ _ => body
  | .classDef _ _ _ _ body _ => body
  | _ => []

/-- A definition with other statements. -/
def Stmt.withBody : Stmt → List Stmt → Stmt
  | .function isAsync line name params _ decorators result, body =>
    .function isAsync line name params body decorators result
  | .classDef line name bases keywords _ decorators, body =>
    .classDef line name bases keywords body decorators
  | s, _ => s

def Stmt.line? : Stmt → Option Nat
  | .function _ line _ _ _ _ _ => some line
  | .classDef line _ _ _ _ _ => some line
  | _ => none

def lastDefinition (name : String) (body : List Stmt) : Option (Nat × Stmt) :=
  (body.zipIdx.reverse.find? fun (s, _) => s.definedName? == some name).map fun (s, i) => (i, s)

/-- Where a search for a field ends: at the module or at a definition. -/
inductive Place where
  | module (of : Module)
  | definition (of : Stmt)

namespace Place

def body : Place → List Stmt
  | .module m => m.body
  | .definition s => s.body

def name? : Place → Option String
  | .module _ => none
  | .definition s => s.definedName?

def line? : Place → Option Nat
  | .module _ => none
  | .definition s => s.line?

def withBody : Place → List Stmt → Place
  | .module _, body => .module ⟨body⟩
  | .definition s, body => .definition (s.withBody body)

def piece : Place → Piece
  | .module m => .module m
  | .definition s => .stmt s

/-- Follows the components; gives the places taken on the way and the end of the search. -/
def descend : Place → List String → List Nat × Place
  | p, [] => ([], p)
  | p, name :: rest =>
    match lastDefinition name p.body with
    | some (i, s) =>
      let (path, q) := (Place.definition s).descend rest
      (i :: path, q)
    | none => p.descend rest

end Place

def Stmt.emptyAt : List Nat → Stmt → Stmt
  | [], s => s.withBody []
  | i :: path, s => s.withBody (s.body.modify i (Stmt.emptyAt path))

/-- Empties the body at the end of a path: of the module itself if the path is empty. -/
def Module.emptyAt (m : Module) : List Nat → Module
  | [] => ⟨[]⟩
  | i :: path => ⟨m.body.modify i (Stmt.emptyAt path)⟩

structure Lookup where
  place : Place
  tree : Module

/-- Searches a module for a field. The empty field is the module itself. -/
def Module.lookup (m : Module) (field : String) : Lookup :=
  if field.isEmpty then ⟨.module m, m⟩
  else
    let names := field.splitOn "."
    let (path, place) := (Place.module m).descend names
    if place.name?.isSome && place.name? == names.getLast? then ⟨place, m⟩
    else ⟨place.withBody [], m.emptyAt path⟩

end CodeChart.Code
