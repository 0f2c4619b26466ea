import PatchLint.Rule.Basic
import PatchLint.Source.Declaration
import PatchLint.Source.Line
import PatchLint.SyntaxTree.Declaration

/-!
# Patch classes

A class with a `[HarmonyPatch]` attribute has to be declared `internal static`.
The text rule looks for the declaration that follows the attribute, and says so
when it cannot recognise one. The tree rule reads the declaration itself.
-/

namespace PatchLint.PatchClass

/-- The attribute that marks a patch class. -/
def attributeName : Text :=
  "HarmonyPatch".toList

/-- The keywords that declare a type other than a class. -/
def otherTypeKeywords : List String :=
  ["struct", "interface", "enum", "delegate"]

/-- The finding about a class that lacks modifiers, on a line given by number. -/
def missingModifiers (file : SourceFile) (line : Nat) (name : Text) (missing : String) : Issue :=
  file.issue line .error "BCS050"
    ("Class '" ++ String.ofList name ++ "' with [HarmonyPatch] attribute must be declared as " ++
      "'internal static' (currently missing: " ++ missing ++ ")")

/-! ## The text rule -/

/-- What an attribute stands in front of. Lines are counted from zero. -/
inductive Target where
  /-- A class, declared on this line. -/
  | classAt (line : Nat) (declaration : Text)
  /-- A member of a class, or another type. -/
  | otherAt (line : Nat)
  /-- Nothing that can be recognised. -/
  | missing
deriving DecidableEq, Repr

/-- The line declares a member of a class, or a type that is not a class. -/
def declaresOther (line : Text) : Bool :=
  (line.contains '(' && line.hasAnyWord Declaration.memberModifiers) || line.hasAnyWord otherTypeKeywords

/-- The target of an attribute, searched in the lines that follow it. They are
numbered from `number` on. -/
def findTarget (number : Nat) : List Text → Target
  | [] => .missing
  | line :: rest =>
    if Line.isSkippable line then findTarget (number + 1) rest
    else if line.hasWord "class".toList then .classAt number line
    else if declaresOther line then .otherAt number
    else findTarget (number + 1) rest

/-- The modifiers that a declaration still needs. -/
def missingFrom? (declaration : Text) : Option String :=
  match declaration.hasWord "internal".toList, declaration.hasWord "static".toList with
  | true, true => none
  | false, false => some "internal static"
  | false, true => some "internal"
  | true, false => some "static"

/-- The finding about a class declaration on a line counted from zero. -/
def checkDeclaration (file : SourceFile) (line : Nat) (declaration : Text) : List Issue :=
  let stripped := Declaration.stripGenerics declaration.trim
  match missingFrom? stripped with
  | none => []
  | some missing =>
    [missingModifiers file (line + 1) ((Declaration.className? stripped).getD "unknown".toList)
      missing]

/-- The line is a patch attribute. -/
def isAttributeLine (line : Text) : Bool :=
  !Line.isComment line && Line.attributeName? line == some attributeName

/-- The finding about an attribute without a recognisable target. -/
def noDeclaration (file : SourceFile) (line : Nat) : Issue :=
  file.issue (line + 1) .error "BCS051"
    "[HarmonyPatch] attribute found but no recognizable declaration follows"

/-- Go through the lines from `number` on, and look at none before line
`resume`. A target ends the search for its attribute, and the scan goes on
behind it; an attribute without a target ends the scan. -/
def scan (file : SourceFile) (number resume : Nat) : List Text → List Issue
  | [] => []
  | line :: rest =>
    if number < resume || !isAttributeLine line then scan file (number + 1) resume rest
    else
      match findTarget (number + 1) rest with
      | .classAt target declaration =>
        checkDeclaration file target declaration ++ scan file (number + 1) (target + 1) rest
      | .otherAt target => scan file (number + 1) (target + 1) rest
      | .missing => [noDeclaration file number]

/-- Patch classes have to be `internal static`, as far as the text shows. -/
def textRule : TextRule where
  info := ⟨"harmony-patch-classes", "BCS050",
    "Requires [HarmonyPatch] classes to be internal static", .error⟩
  check file := scan file 0 0 file.lines

/-! ## The tree rule -/

/-- An attribute name that marks a patch class, in any letter case. -/
def marksPatch (name : Text) : Bool :=
  name.lower.mentions "harmonypatch"

/-- Judge a class declaration. -/
def checkClass (file : SourceFile) (focus : Focus) : Option (List Issue) := do
  let names ← focus.node.attributeNames? file.content
  if names.any marksPatch then
    let modifiers ← focus.node.modifiers? file.content
    let missing := ["internal", "static"].filter fun required =>
      !modifiers.contains required.toList
    if missing.isEmpty then return []
    else
      let (name, line) ← focus.node.declaredName? file.content
      return [missingModifiers file line name (" ".intercalate missing)]
  else return []

/-- Patch classes have to be `internal static`, by their declarations. -/
def treeRule : TreeRule where
  info := ⟨"harmony-patch-classes-ast", "BCS050",
    "Requires [HarmonyPatch] classes to be internal static", .error⟩
  check := TreeRule.checkEach "class_declaration" checkClass

end PatchLint.PatchClass
