import PatchLint.Rule.Basic
import PatchLint.Source.Block
import PatchLint.Source.Declaration
import PatchLint.Source.Line
import PatchLint.Source.Mask
import PatchLint.SyntaxTree.Declaration

/-!
# Patch methods

A method that plays a role in a patch has to be private, and what a transpiler
calls in its own file has to be private or public and static. The text rule
gathers the attributes and the signature that follows them line by line; the
tree rule reads the declarations.
-/

namespace PatchLint.PatchMethod

/-- The attributes that give a method its role in a patch. -/
def roleAttributes : List String :=
  ["HarmonyPrefix", "HarmonyPostfix", "HarmonyTranspiler", "HarmonyFinalizer"]

/-- The attributes that may stand beside the one that gives the role. -/
def companionAttributes : List String :=
  ["HarmonyPatch", "HarmonyDebug"]

/-- The finding about a patch method that is not private. -/
def notPrivate (file : SourceFile) (line : Nat) (name : Text) (attributes : List Text) : Issue :=
  file.issue line .error "BCS052"
    ("Method '" ++ String.ofList name ++ "' with [" ++
      ", ".intercalate (attributes.map String.ofList) ++ "] attribute(s) must be private")

/-- The finding about a call of a transpiler. -/
def forbiddenCall (file : SourceFile) (line : Nat) (transpiler callee : Text) : Issue :=
  file.issue line .error "BCS053"
    ("Transpiler method '" ++ String.ofList transpiler ++ "' calls method '" ++
      String.ofList callee ++
      "' which should be private (utility methods can be public static)")

/-- The finding about attributes that no method follows. -/
def noMethod (file : SourceFile) (line : Nat) (attributes : List Text) : Issue :=
  file.issue line .error "BCS054"
    ("[" ++ ", ".intercalate (attributes.map String.ofList) ++
      "] attribute(s) found but no method declaration follows")

/-! ## Declared methods -/

/-- The keywords that say who may call a method. -/
inductive Access where
  | publicAccess
  | privateAccess
  | protectedAccess
  | internalAccess
deriving DecidableEq, Repr

/-- The keyword as a word of a declaration. -/
def Access.ofWord? (word : Text) : Option Access :=
  if word = "public".toList then some .publicAccess
  else if word = "private".toList then some .privateAccess
  else if word = "protected".toList then some .protectedAccess
  else if word = "internal".toList then some .internalAccess
  else none

/-- A method of the file, as its declaration shows it. -/
structure Declared where
  /-- The name of the method. -/
  name : Text
  /-- The first access keyword of the declaration. -/
  access : Access
  /-- The declaration holds the word `static`. -/
  isStatic : Bool
deriving DecidableEq, Repr

/-- A transpiler may call private methods and utility methods. -/
def Declared.allowsTranspiler (declared : Declared) : Bool :=
  declared.access = .privateAccess || (declared.access = .publicAccess && declared.isStatic)

/-- The method that a masked line declares. -/
def declaredOn? (line : Text) : Option Declared :=
  let head := Text.before '(' line
  if line.contains '(' && !Declaration.isInitializerHead head then do
    let access ← (Text.words head).findSome? Access.ofWord?
    let name ← Declaration.methodName? line
    return ⟨name, access, Text.hasWord head "static".toList⟩
  else none

/-- The methods that masked lines declare. -/
def declaredMethods (code : List Text) : List Declared :=
  code.filterMap declaredOn?

/-- A method of this name is declared that a transpiler may not call. -/
def isForbidden (declared : List Declared) (callee : Text) : Bool :=
  declared.any fun method => method.name == callee && !method.allowsTranspiler

/-! ## Attributes and signatures in the text -/

/-- The name is one of these. -/
def isOneOf (names : List String) (name : Text) : Bool :=
  names.any fun candidate => candidate.toList == name

/-- A line between attributes that says nothing. -/
def isFiller (line : Text) : Bool :=
  line.trim.isEmpty || Line.isComment line.trim || Line.isDirective line.trim

/-- The attributes that are stacked on top of a method, with what follows. -/
structure Stack where
  /-- The names of the attributes, from top to bottom. -/
  names : List Text
  /-- The number of the line behind the stack, counted from zero. -/
  after : Nat
  /-- The lines behind the stack. -/
  rest : List Text
deriving DecidableEq, Repr

/-- The attribute on a line that continues a stack. -/
def stackedAttribute? (line : Text) : Option Text :=
  (Line.attributeName? line).filter fun name =>
    isOneOf roleAttributes name || isOneOf companionAttributes name

/-- Gather stacked attributes from lines that are numbered from `number` on. -/
def stackFrom (number : Nat) : List Text → Stack
  | [] => ⟨[], number, []⟩
  | line :: rest =>
    if isFiller line then stackFrom (number + 1) rest
    else
      match stackedAttribute? line with
      | some name =>
        let stack := stackFrom (number + 1) rest
        { stack with names := name :: stack.names }
      | none => ⟨[], number, line :: rest⟩

/-- The text of a declaration up to the line that opens its body or ends it. -/
structure Signature where
  /-- The lines of the signature, trimmed and joined by spaces. -/
  text : Text
  /-- The line on which it starts, counted from zero. -/
  firstLine : Nat
  /-- The line on which it ends. -/
  lastLine : Nat
deriving DecidableEq, Repr

/-- A trimmed line with which a signature ends. -/
def endsSignature (line : Text) : Bool :=
  line.contains '{' || line.mentions "=>" || line.getLast? == some ';'

/-- Gather a signature from lines that are numbered from `number` on. -/
def gatherFrom (number : Nat) (parts : List Text) (first? : Option Nat) :
    List Text → Option Signature
  | [] => none
  | line :: rest =>
    let trimmed := line.trim
    if Line.isSkippable trimmed then gatherFrom (number + 1) parts first? rest
    else
      let first := first?.getD number
      if endsSignature trimmed then
        some ⟨List.intercalate [' '] (parts ++ [trimmed]), first, number⟩
      else gatherFrom (number + 1) (parts ++ [trimmed]) (some first) rest

/-- The text can be the signature of a method. -/
def isMethodSignature (text : Text) : Bool :=
  text.contains '(' && text.hasAnyWord Declaration.memberModifiers

/-- The signature of the method that follows a stack of attributes. -/
def Stack.signature? (stack : Stack) : Option Signature :=
  (gatherFrom stack.after [] none stack.rest).filter fun signature =>
    isMethodSignature signature.text

/-- The stack gives the method the role of a transpiler. -/
def Stack.isTranspiler (stack : Stack) : Bool :=
  stack.names.any fun name => name.mentions "Transpiler"

/-! ## The text rule -/

/-- The role attribute on a line. -/
def role? (line : Text) : Option Text :=
  if Line.isComment line then none
  else (Line.attributeName? line).filter (isOneOf roleAttributes)

/-- The forbidden calls on a masked line that is numbered from zero. -/
def callsOnLine (file : SourceFile) (declared : List Declared) (transpiler : Text)
    (line : Text × Nat) : List Issue :=
  ((Declaration.callNames line.1).filter fun call => isForbidden declared call.1).map
    fun call => forbiddenCall file (line.2 + 1) transpiler call.1

/-- The forbidden calls of a transpiler, from the last line of its signature to
the last line of its body. -/
def transpilerCalls (file : SourceFile) (code : List Text) (signatureEnd : Nat)
    (transpiler : Text) : List Issue :=
  let bodyEnd := ((blockSpan? code signatureEnd 0).map BlockSpan.closeLine).getD signatureEnd
  let body := (code.zipIdx.take (bodyEnd + 1)).drop signatureEnd
  body.flatMap (callsOnLine file (declaredMethods code) transpiler)

/-- Judge the method under a stack of attributes. -/
def checkSignature (file : SourceFile) (code : List Text) (stack : Stack)
    (signature : Signature) : List Issue :=
  let name := (Declaration.methodName? signature.text).getD "unknown".toList
  if !signature.text.hasWord "private".toList then
    [notPrivate file (signature.firstLine + 1) name stack.names]
  else if stack.isTranspiler then transpilerCalls file code signature.lastLine name
  else []

/-- Go through the lines from `number` on, and look at none before line
`resume`. -/
def scan (file : SourceFile) (code : List Text) (number resume : Nat) : List Text → List Issue
  | [] => []
  | line :: rest =>
    if number < resume then scan file code (number + 1) resume rest
    else
      match role? line with
      | none => scan file code (number + 1) resume rest
      | some role =>
        let below := stackFrom (number + 1) rest
        let stack : Stack := { below with names := role :: below.names }
        match stack.signature? with
        | none =>
          noMethod file (number + 1) stack.names :: scan file code (number + 1) stack.after rest
        | some signature =>
          checkSignature file code stack signature ++
            scan file code (number + 1) (signature.lastLine + 1) rest

/-- Patch methods have to be private, as far as the text shows. -/
def textRule : TextRule where
  info := ⟨"harmony-patch-methods", "BCS052", "Requires Harmony patch methods to be private",
    .error⟩
  check file := scan file (Mask.codeLines file.content) 0 0 file.lines

/-! ## The tree rule -/

/-- What an attribute name holds that marks a patch method, in lower case. -/
def patchMarkers : List String :=
  ["harmonypatch", "harmonyprefix", "harmonypostfix", "harmonytranspiler", "harmonyfinalizer"]

/-- An attribute name that marks a patch method, in any letter case. -/
def marksPatch (name : Text) : Bool :=
  patchMarkers.any name.lower.mentions

/-- The name and the visibility of a method that can be read. -/
def readMethod? (source : Text) (method : Node) : Option (Text × Node.Visibility) := do
  let (name, _) ← method.declaredName? source
  return (name, ← method.visibility? source)

/-- A transpiler may call methods that are private, or public and static. -/
def allowsCall (visibility : Node.Visibility) : Bool :=
  visibility.isPrivate || (visibility.isPublic && visibility.isStatic)

/-- A method of this name is declared that a transpiler may not call. -/
def isForbiddenIn (methods : List (Text × Node.Visibility)) (callee : Text) : Bool :=
  methods.any fun method => method.1 == callee && !allowsCall method.2

/-- The finding about a call of a transpiler, if there is one. -/
def checkCall (file : SourceFile) (methods : List (Text × Node.Visibility)) (transpiler : Text)
    (call : Focus) : Option Issue := do
  let callee ← call.node.calleeName? file.content
  if isForbiddenIn methods callee then
    some (forbiddenCall file (call.node.line file.content) transpiler callee)
  else none

/-- Judge a method declaration. -/
def checkMethod (methods : List (Text × Node.Visibility)) (file : SourceFile) (focus : Focus) :
    Option (List Issue) := do
  let names ← focus.node.attributeNames? file.content
  let patchNames := names.filter marksPatch
  if patchNames.isEmpty then return []
  else
    let (name, line) ← focus.node.declaredName? file.content
    let visibility ← focus.node.visibility? file.content
    if !visibility.isPrivate then return [notPrivate file line name patchNames]
    else if patchNames.any fun patchName => patchName.lower.mentions "transpiler" then
      return (focus.descendantsOfKind "invocation_expression").filterMap
        (checkCall file methods name)
    else return []

/-- The methods of a tree that can be read. -/
def readMethods (source : Text) (tree : Node) : List (Text × Node.Visibility) :=
  ((Focus.root tree).descendantsOfKind "method_declaration").filterMap fun focus =>
    readMethod? source focus.node

/-- Patch methods have to be private, by their declarations. -/
def treeRule : TreeRule where
  info := ⟨"harmony-patch-methods-ast", "BCS052", "Requires Harmony patch methods to be private",
    .error⟩
  check file tree :=
    TreeRule.checkEach "method_declaration" (checkMethod (readMethods file.content tree)) file tree

end PatchLint.PatchMethod
