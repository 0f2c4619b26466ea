import PatchLint.SyntaxTree.Basic

/-!
# Declarations and calls in a syntax tree

What rules read off a tree: the modifiers, attributes and name of a
declaration, the visibility of a method, and the name that a call calls. A
construct that lacks a part or whose range is not a piece of the source cannot
be read, and then there is no answer.
-/

namespace PatchLint

namespace Node

/-- The modifiers written on a declaration. -/
def modifiers? (declaration : Node) (source : Text) : Option (List Text) :=
  (declaration.childrenOfKind "modifier").mapM fun child => (child.text? source).map Text.trim

/-- The attributes of the attribute lists of a declaration. -/
def attributes (declaration : Node) : List Node :=
  (declaration.childrenOfKind "attribute_list").flatMap fun list =>
    list.namedChildren.filter fun child => child.kind == "attribute"

/-- The names of the attributes of a declaration, without their arguments. -/
def attributeNames? (declaration : Node) (source : Text) : Option (List Text) :=
  declaration.attributes.mapM fun child => do
    (← child.child? "name").text? source

/-- The name of a declaration, and the line on which the name stands. -/
def declaredName? (declaration : Node) (source : Text) : Option (Text × Nat) := do
  let name ← declaration.child? "name"
  return (← name.text? source, name.line source)

/-- What the modifiers of a method say about who may call it. -/
structure Visibility where
  /-- Declared `private`. -/
  isPrivate : Bool
  /-- Declared `public`. -/
  isPublic : Bool
  /-- Declared `static`. -/
  isStatic : Bool
deriving DecidableEq, Repr

/-- The visibility of a method. -/
def visibility? (method : Node) (source : Text) : Option Visibility := do
  let modifiers ← method.modifiers? source
  return ⟨modifiers.contains "private".toList, modifiers.contains "public".toList,
    modifiers.contains "static".toList⟩

/-- The child that carries the name of a called function: the function itself,
or the member that it selects. -/
def calleeTarget? (invocation : Node) : Option Node := do
  let function ← invocation.child? "function"
  if function.kind == "member_access_expression" then function.child? "name" else some function

/-- The simple name of what a call calls, if it has one. -/
def calleeName? (invocation : Node) (source : Text) : Option Text := do
  let target ← invocation.calleeTarget?
  if target.kind == "identifier" then target.text? source
  else if target.kind == "generic_name" then
    (← target.namedChildren.find? fun child => child.kind == "identifier").text? source
  else none

/-- The node itself says that it declares a constant. -/
def declaresConst (node : Node) (source : Text) : Bool :=
  node.children.any fun child =>
    child.kind == "const" ||
      (child.kind == "modifier" &&
        (child.text? source).any fun modifier => modifier.trim == "const".toList)

end Node

/-- The node belongs to the declaration of a constant. -/
def Focus.inConstDeclaration (focus : Focus) (source : Text) : Bool :=
  (focus.node :: focus.ancestors).any fun node => node.declaresConst source

end PatchLint
