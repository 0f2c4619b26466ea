import Mathlib.Data.List.Forall2
import PatchLint.Proofs.SyntaxTree.Preorder
import PatchLint.Proofs.Text.Bytes
import PatchLint.Rule.PatchMethod

/-!
# What each patch method of a tree yields

The tree rule gathers the methods that can be read in one pass and judges each method
in another, and whatever cannot be read drops out on the way. `Yields` says what a
method yields with no such passes, from its own parts and from what the other methods
declare. The rule finds just that, method after method in document order.
-/

namespace PatchLint.PatchMethod

variable {file : SourceFile} {source : Text} {methods : List Node} {method : Node}

/-! ## Methods that can be read -/

/-- What can be read of a method declaration. -/
structure Reading where
  /-- The names of the attributes. -/
  attributes : List Text
  /-- The name of the method. -/
  name : Text
  /-- The line on which the name stands. -/
  line : Nat
  /-- The modifiers. -/
  modifiers : List Text

/-- All parts of the method can be read, and this is how they read. -/
structure Reads (source : Text) (method : Node) (reading : Reading) : Prop where
  attributes : method.attributeNames? source = some reading.attributes
  name : method.declaredName? source = some (reading.name, reading.line)
  modifiers : method.modifiers? source = some reading.modifiers

/-- An attribute that marks a patch method: it holds one of the markers, in any letter
case. -/
def IsMark (label : Text) : Prop :=
  ∃ marker ∈ ["harmonypatch", "harmonyprefix", "harmonypostfix", "harmonytranspiler",
    "harmonyfinalizer"], marker.toList <:+: label.lower

namespace Reading

/-- An attribute marks the method as a patch. -/
def IsPatch (reading : Reading) : Prop :=
  ∃ label ∈ reading.attributes, IsMark label

/-- A mark of the method says that it is a transpiler. -/
def IsTranspiler (reading : Reading) : Prop :=
  ∃ label ∈ reading.attributes,
    IsMark label ∧ "transpiler".toList <:+: label.lower

def IsPrivate (reading : Reading) : Prop :=
  "private".toList ∈ reading.modifiers

end Reading

/-- The name and the modifiers of the method can be read. Nothing else is needed for it to
count as a declaration of its name. -/
def Declares (source : Text) (method : Node) (name : Text) (modifiers : List Text) : Prop :=
  (∃ line, method.declaredName? source = some (name, line)) ∧
    method.modifiers? source = some modifiers

/-- One of the methods declares the name and is neither private nor both public and
static. -/
def Forbids (source : Text) (methods : List Node) (callee : Text) : Prop :=
  ∃ method ∈ methods, ∃ modifiers, Declares source method callee modifiers ∧
    "private".toList ∉ modifiers ∧
    ¬ ("public".toList ∈ modifiers ∧ "static".toList ∈ modifiers)

/-! ## What a method yields -/

/-- What a call inside of a transpiler yields. -/
inductive CallYields (file : SourceFile) (methods : List Node) (caller : Text) (call : Node) :
    List Issue → Prop where
  | forbidden {callee} (named : call.calleeName? file.content = some callee)
      (forbids : Forbids file.content methods callee) :
      CallYields file methods caller call
        [forbiddenCall file (call.line file.content) caller callee]
  | allowed {callee} (named : call.calleeName? file.content = some callee)
      (allows : ¬ Forbids file.content methods callee) : CallYields file methods caller call []
  | unnamed (unnamed : call.calleeName? file.content = none) :
      CallYields file methods caller call []

/-- What a method yields among these methods. -/
inductive Yields (file : SourceFile) (methods : List Node) (method : Node) :
    List Issue → Prop where
  | exposed {reading} (reads : Reads file.content method reading) (isPatch : reading.IsPatch)
      (isExposed : ¬ reading.IsPrivate) :
      Yields file methods method
        [notPrivate file reading.line reading.name (reading.attributes.filter marksPatch)]
  | transpiler {reading parts} (reads : Reads file.content method reading)
      (isPrivate : reading.IsPrivate) (isTranspiler : reading.IsTranspiler)
      (calls : List.Forall₂ (CallYields file methods reading.name)
        (method.nodesOfKind "invocation_expression") parts) :
      Yields file methods method parts.flatten
  | other {reading} (reads : Reads file.content method reading)
      (isHidden : reading.IsPatch → reading.IsPrivate)
      (isOther : reading.IsPrivate → ¬ reading.IsTranspiler) : Yields file methods method []
  | unreadable (unreadable : ∀ reading, ¬ Reads file.content method reading) :
      Yields file methods method []

/-! ## One outcome -/

private theorem Reads.unique {first second : Reading} (reads : Reads source method first)
    (other : Reads source method second) : first = second := by
  have sameAttributes := Option.some.inj (reads.attributes.symm.trans other.attributes)
  have sameName := Option.some.inj (reads.name.symm.trans other.name)
  have sameModifiers := Option.some.inj (reads.modifiers.symm.trans other.modifiers)
  obtain ⟨sameText, sameLine⟩ := Prod.mk.inj sameName
  cases first
  cases second
  simp_all only

private theorem Reading.IsTranspiler.isPatch {reading : Reading}
    (isTranspiler : reading.IsTranspiler) :
    reading.IsPatch := by
  obtain ⟨label, member, marks, _⟩ := isTranspiler
  exact ⟨label, member, marks⟩

private theorem rightUnique_callYields {caller : Text} :
    Relator.RightUnique (CallYields file methods caller) := by
  intro call first second yields other
  cases yields with
  | forbidden named forbids =>
      cases other with
      | forbidden otherNamed _ =>
          obtain rfl := Option.some.inj (named.symm.trans otherNamed)
          rfl
      | allowed otherNamed allows =>
          obtain rfl := Option.some.inj (named.symm.trans otherNamed)
          exact absurd forbids allows
      | unnamed unnamed => simp [unnamed] at named
  | allowed named allows =>
      cases other with
      | forbidden otherNamed forbids =>
          obtain rfl := Option.some.inj (named.symm.trans otherNamed)
          exact absurd forbids allows
      | allowed => rfl
      | unnamed => rfl
  | unnamed unnamed =>
      cases other with
      | forbidden named _ => simp [unnamed] at named
      | allowed => rfl
      | unnamed => rfl

/-- What a method that can be read yields depends on three facts about it. -/
theorem Reads.yields_iff {reading : Reading} {issues : List Issue}
    (reads : Reads file.content method reading) :
    Yields file methods method issues ↔
      (reading.IsPatch ∧ ¬ reading.IsPrivate ∧
        issues = [notPrivate file reading.line reading.name
          (reading.attributes.filter marksPatch)]) ∨
      (reading.IsPrivate ∧ reading.IsTranspiler ∧
        ∃ parts, List.Forall₂ (CallYields file methods reading.name)
          (method.nodesOfKind "invocation_expression") parts ∧ issues = parts.flatten) ∨
      ((reading.IsPatch → reading.IsPrivate) ∧ (reading.IsPrivate → ¬ reading.IsTranspiler) ∧
        issues = []) := by
  constructor
  · intro yields
    cases yields with
    | exposed otherReads isPatch isExposed =>
        obtain rfl := reads.unique otherReads
        exact .inl ⟨isPatch, isExposed, rfl⟩
    | transpiler otherReads isPrivate isTranspiler calls =>
        obtain rfl := reads.unique otherReads
        exact .inr (.inl ⟨isPrivate, isTranspiler, _, calls, rfl⟩)
    | other otherReads isHidden isOther =>
        obtain rfl := reads.unique otherReads
        exact .inr (.inr ⟨isHidden, isOther, rfl⟩)
    | unreadable unreadable => exact absurd reads (unreadable reading)
  · rintro (⟨isPatch, isExposed, rfl⟩ | ⟨isPrivate, isTranspiler, parts, calls, rfl⟩ |
      ⟨isHidden, isOther, rfl⟩)
    · exact .exposed reads isPatch isExposed
    · exact .transpiler reads isPrivate isTranspiler calls
    · exact .other reads isHidden isOther

private theorem rightUnique_yields : Relator.RightUnique (Yields file methods) := by
  intro method first second yields other
  by_cases readable : ∃ reading, Reads file.content method reading
  · obtain ⟨reading, reads⟩ := readable
    rw [reads.yields_iff] at yields other
    by_cases isPrivate : reading.IsPrivate
    · by_cases isTranspiler : reading.IsTranspiler
      · simp only [isPrivate, isTranspiler, not_true_eq_false, false_and, and_false, true_and,
          true_implies, false_or, or_false] at yields other
        obtain ⟨parts, calls, rfl⟩ := yields
        obtain ⟨otherParts, otherCalls, rfl⟩ := other
        rw [rightUnique_callYields.forall₂ calls otherCalls]
      · simp only [isPrivate, isTranspiler, not_true_eq_false, false_and, and_false, true_and,
          implies_true, not_false_eq_true, false_or] at yields other
        rw [yields, other]
    · by_cases isPatch : reading.IsPatch
      · simp only [isPrivate, isPatch, not_false_eq_true, false_and, true_and,
          true_implies, or_false] at yields other
        rw [yields, other]
      · simp only [isPrivate, isPatch, false_and, true_and,
          false_implies, false_or] at yields other
        rw [yields, other]
  · have silent : ∀ {issues}, Yields file methods method issues → issues = [] := by
      rintro issues (⟨reads, _, _⟩ | ⟨reads, _, _, _⟩ | _ | _)
      · exact absurd ⟨_, reads⟩ readable
      · exact absurd ⟨_, reads⟩ readable
      · rfl
      · rfl
    rw [silent yields, silent other]

/-! ## What the rule finds -/

private theorem marksPatch_iff {label : Text} : marksPatch label = true ↔ IsMark label := by
  simp only [marksPatch, patchMarkers, IsMark, List.any_eq_true, Text.mentions_iff_infix]

private theorem isPatch_iff {reading : Reading} :
    reading.IsPatch ↔ reading.attributes.filter marksPatch ≠ [] := by
  simp [Reading.IsPatch, List.filter_eq_nil_iff, marksPatch_iff]

private theorem isTranspiler_iff {reading : Reading} :
    reading.IsTranspiler ↔ ((reading.attributes.filter marksPatch).any fun label =>
      label.lower.mentions "transpiler") = true := by
  simp only [Reading.IsTranspiler, List.any_eq_true, List.mem_filter, marksPatch_iff,
    Text.mentions_iff_infix, and_assoc]

private theorem readMethod?_eq_some_iff {callee : Text} {visibility : Node.Visibility} :
    readMethod? source method = some (callee, visibility) ↔
      ∃ modifiers, Declares source method callee modifiers ∧
        visibility = ⟨modifiers.contains "private".toList, modifiers.contains "public".toList,
          modifiers.contains "static".toList⟩ := by
  simp only [readMethod?, Node.visibility?, Declares, Option.bind_eq_bind, Option.pure_def,
    Option.bind_eq_some_iff, Option.some.injEq, Prod.exists, Prod.mk.injEq]
  constructor
  · rintro ⟨name, line, named, _, ⟨modifiers, modified, rfl⟩, rfl, rfl⟩
    exact ⟨modifiers, ⟨⟨line, named⟩, modified⟩, rfl⟩
  · rintro ⟨modifiers, ⟨⟨line, named⟩, modified⟩, rfl⟩
    exact ⟨callee, line, named, _, ⟨modifiers, modified, rfl⟩, rfl, rfl⟩

/-- The index of the methods that can be read knows what the methods forbid. -/
theorem isForbiddenIn_readMethods {tree : Node} {callee : Text} :
    isForbiddenIn (readMethods source tree) callee = true ↔
      Forbids source (tree.nodesOfKind "method_declaration") callee := by
  have index : readMethods source tree =
      (tree.nodesOfKind "method_declaration").filterMap (readMethod? source) := by
    have nodes := Focus.map_node_descendantsOfKind (Focus.root tree) "method_declaration"
    rw [readMethods, ← show _ = tree.nodesOfKind "method_declaration" from nodes,
      List.filterMap_map]
    rfl
  simp only [index, isForbiddenIn, Forbids, List.any_eq_true, List.mem_filterMap]
  constructor
  · rintro ⟨⟨name, visibility⟩, ⟨method, member, reads⟩, matching⟩
    obtain ⟨modifiers, declares, rfl⟩ := readMethod?_eq_some_iff.mp reads
    simp only [allowsCall, Bool.and_eq_true, beq_iff_eq, Bool.not_eq_true', Bool.or_eq_false_iff,
      Bool.and_eq_false_iff, List.contains_eq_mem, decide_eq_false_iff_not] at matching
    obtain ⟨rfl, notPrivate, notUtility⟩ := matching
    exact ⟨method, member, modifiers, declares, notPrivate, not_and_or.mpr notUtility⟩
  · rintro ⟨method, member, modifiers, declares, notPrivate, notUtility⟩
    refine ⟨_, ⟨method, member, readMethod?_eq_some_iff.mpr ⟨modifiers, declares, rfl⟩⟩, ?_⟩
    simp only [allowsCall, Bool.and_eq_true, beq_iff_eq, Bool.not_eq_true', Bool.or_eq_false_iff,
      Bool.and_eq_false_iff, List.contains_eq_mem, decide_eq_false_iff_not]
    exact ⟨trivial, notPrivate, not_and_or.mp notUtility⟩

variable {tree : Node}

private theorem callYields_checkCall (file : SourceFile) (tree : Node) (caller : Text)
    (focus : Focus) :
    CallYields file (tree.nodesOfKind "method_declaration") caller focus.node
      (checkCall file (readMethods file.content tree) caller focus).toList := by
  rw [checkCall]
  cases named : focus.node.calleeName? file.content with
  | none => exact .unnamed named
  | some callee =>
      simp only [Option.bind_eq_bind, Option.bind_some]
      split
      next forbids => exact .forbidden named (isForbiddenIn_readMethods.mp forbids)
      next allows =>
        exact .allowed named fun forbids => allows (isForbiddenIn_readMethods.mpr forbids)

/-- The calls in a transpiler are judged one by one. -/
theorem forall₂_checkCall (file : SourceFile) (tree : Node) (caller : Text) (focus : Focus) :
    ∃ parts, List.Forall₂ (CallYields file (tree.nodesOfKind "method_declaration") caller)
        (focus.node.nodesOfKind "invocation_expression") parts ∧
      (focus.descendantsOfKind "invocation_expression").filterMap
        (checkCall file (readMethods file.content tree) caller) = parts.flatten := by
  refine ⟨(focus.descendantsOfKind "invocation_expression").map fun call =>
    (checkCall file (readMethods file.content tree) caller call).toList, ?_, ?_⟩
  · rw [← Focus.map_node_descendantsOfKind, List.forall₂_map_left_iff, List.forall₂_map_right_iff,
      List.forall₂_same]
    exact fun call _ => callYields_checkCall file tree caller call
  · rw [← List.flatMap_def, List.filterMap_eq_flatMap_toList]

/-- Nothing is found at a method of which a part cannot be read. -/
theorem checkMethod_of_unreadable {index : List (Text × Node.Visibility)} {focus : Focus}
    (unreadable : ∀ reading, ¬ Reads file.content focus.node reading) :
    (checkMethod index file focus).getD [] = [] := by
  rw [checkMethod, Node.visibility?]
  cases attributes : focus.node.attributeNames? file.content with
  | none => rfl
  | some names =>
      cases named : focus.node.declaredName? file.content with
      | none =>
          simp only [Option.bind_eq_bind, Option.bind_some, Option.bind_none, Option.pure_def]
          split <;> rfl
      | some name =>
          cases modified : focus.node.modifiers? file.content with
          | none =>
              simp only [Option.bind_eq_bind, Option.bind_some, Option.bind_none, Option.pure_def]
              split <;> rfl
          | some modifiers =>
              exact absurd ⟨attributes, named, modified⟩
                (unreadable ⟨names, name.1, name.2, modifiers⟩)

/-- Each method is judged as it yields. -/
theorem yields_checkMethod (file : SourceFile) (tree : Node) (focus : Focus) :
    Yields file (tree.nodesOfKind "method_declaration") focus.node
      ((checkMethod (readMethods file.content tree) file focus).getD []) := by
  by_cases readable : ∃ reading, Reads file.content focus.node reading
  · obtain ⟨reading, reads⟩ := readable
    rw [checkMethod, Node.visibility?]
    simp only [reads.attributes, reads.name, reads.modifiers, Option.bind_eq_bind,
      Option.bind_some, Option.pure_def, List.isEmpty_iff, List.contains_eq_mem,
      Bool.not_eq_true', decide_eq_false_iff_not]
    split
    next unmarked =>
      have notPatch : ¬ reading.IsPatch := fun isPatch => isPatch_iff.mp isPatch unmarked
      exact .other reads (fun isPatch => absurd isPatch notPatch)
        fun _ isTranspiler => notPatch isTranspiler.isPatch
    next marked =>
      split
      next isExposed => exact .exposed reads (isPatch_iff.mpr marked) isExposed
      next isPrivate =>
        rw [not_not] at isPrivate
        split
        next isTranspiler =>
          obtain ⟨parts, calls, found⟩ := forall₂_checkCall file tree reading.name focus
          rw [Option.getD_some, found]
          exact .transpiler reads isPrivate (isTranspiler_iff.mpr isTranspiler) calls
        next isOther =>
          exact .other reads (fun _ => isPrivate)
            fun _ isTranspiler => isOther (isTranspiler_iff.mp isTranspiler)
  · rw [not_exists] at readable
    rw [checkMethod_of_unreadable readable]
    exact .unreadable readable

/-! ## Methods do not depend on what cannot be read -/

/-- The two lists of methods declare the same names with the same modifiers, as far as they
can be read. -/
def SameDeclarations (source : Text) (methods others : List Node) : Prop :=
  ∀ name modifiers, (∃ method ∈ methods, Declares source method name modifiers) ↔
    ∃ method ∈ others, Declares source method name modifiers

namespace SameDeclarations

variable {others : List Node}

private theorem symm (same : SameDeclarations source methods others) :
    SameDeclarations source others methods :=
  fun name modifiers => (same name modifiers).symm

private theorem forbids (same : SameDeclarations source methods others) {callee : Text}
    (forbids : Forbids source methods callee) : Forbids source others callee := by
  obtain ⟨method, member, modifiers, declares, notAllowed⟩ := forbids
  obtain ⟨other, otherMember, otherDeclares⟩ :=
    (same callee modifiers).mp ⟨method, member, declares⟩
  exact ⟨other, otherMember, modifiers, otherDeclares, notAllowed⟩

private theorem callYields (same : SameDeclarations file.content methods others) {caller : Text}
    {call : Node} {issues : List Issue} (yields : CallYields file methods caller call issues) :
    CallYields file others caller call issues := by
  cases yields with
  | forbidden named forbids => exact .forbidden named (same.forbids forbids)
  | allowed named allows => exact .allowed named fun forbids => allows (same.symm.forbids forbids)
  | unnamed unnamed => exact .unnamed unnamed

private theorem yields (same : SameDeclarations file.content methods others) {issues : List Issue}
    (yields : Yields file methods method issues) : Yields file others method issues := by
  cases yields with
  | exposed reads isPatch isExposed => exact .exposed reads isPatch isExposed
  | transpiler reads isPrivate isTranspiler calls =>
      exact .transpiler reads isPrivate isTranspiler (calls.imp fun _ _ => same.callYields)
  | other reads isHidden isOther => exact .other reads isHidden isOther
  | unreadable unreadable => exact .unreadable unreadable

end SameDeclarations

/-- The rule finds what the methods of the tree yield, one after the other in document
order. Each method yields one thing, which is nothing if a part of it cannot be read. It
yields the same in every tree whose methods declare the same names with the same
modifiers, so what cannot be read has no bearing on it. -/
theorem treeRule_yields (file : SourceFile) (tree : Node) :
    let methods := tree.nodesOfKind "method_declaration"
    (∃ parts, List.Forall₂ (Yields file methods) methods parts ∧
      treeRule.check file tree = parts.flatten) ∧
    (∀ method, ∃! issues, Yields file methods method issues) ∧
    ∀ other : Node,
      SameDeclarations file.content methods (other.nodesOfKind "method_declaration") →
      ∀ method issues, Yields file methods method issues ↔
        Yields file (other.nodesOfKind "method_declaration") method issues := by
  intro methods
  refine ⟨⟨((Focus.root tree).descendantsOfKind "method_declaration").map fun focus =>
    (checkMethod (readMethods file.content tree) file focus).getD [], ?_, ?_⟩, ?_, ?_⟩
  · have nodes := Focus.map_node_descendantsOfKind (Focus.root tree) "method_declaration"
    rw [← show _ = methods from nodes, List.forall₂_map_left_iff, List.forall₂_map_right_iff,
      List.forall₂_same, show _ = methods from nodes]
    exact fun focus _ => yields_checkMethod file tree focus
  · rfl
  · intro method
    have judged := yields_checkMethod file tree (Focus.root method)
    exact ⟨_, judged, fun issues yields => rightUnique_yields yields judged⟩
  · intro other same method issues
    exact ⟨same.yields, same.symm.yields⟩

/-- A transpiler and the patch method that it calls, with marks in other letter cases. -/
def callingPatch : SourceFile :=
  .ofText "A.cs".toList
    ("using H;\n[HARMONYTranspiler] private void T()\n{ H(); }\n".toList ++
      "[MyHarmonyPOSTFIX] internal void H() { }".toList)

namespace callingPatch

/-- A node without children. -/
def leaf (kind : String) (field? : Option String) (start stop : Nat) : Node :=
  ⟨kind, true, start, stop, field?, []⟩

/-- The attribute of which the name stands in a range, between its brackets. -/
def mark (start stop : Nat) : Node :=
  ⟨"attribute_list", true, start - 1, stop + 1, none,
    [⟨"attribute", true, start, stop, none, [leaf "identifier" (some "name") start stop]⟩]⟩

def caller : Node where
  kind := "method_declaration"
  named := true
  start := 9
  stop := 54
  field? := none
  children := [mark 10 27, leaf "modifier" none 29 36, leaf "identifier" (some "name") 42 43,
    ⟨"invocation_expression", true, 48, 51, none, [leaf "identifier" (some "function") 48 49]⟩]

def callee : Node where
  kind := "method_declaration"
  named := true
  start := 55
  stop := 95
  field? := none
  children := [mark 56 72, leaf "modifier" none 74 82, leaf "identifier" (some "name") 88 89]

/-- A method without a name, which cannot be read. -/
def nameless : Node where
  kind := "method_declaration"
  named := true
  start := 95
  stop := 95
  field? := none
  children := []

/-- A tree with these methods. -/
def treeOf (methods : List Node) : Node :=
  ⟨"compilation_unit", true, 0, 95, none, methods⟩

/-- The finding about the call. -/
def callFinding : Issue :=
  ⟨"A.cs", 3, .error, "BCS053", "Transpiler method 'T' calls method 'H' which should be " ++
    "private (utility methods can be public static)"⟩

/-- The finding about the method that is called. -/
def calleeFinding : Issue :=
  ⟨"A.cs", 4, .error, "BCS052",
    "Method 'H' with [MyHarmonyPOSTFIX] attribute(s) must be private"⟩

end callingPatch

open callingPatch in
/-- The call is reported and the method that is called, with and without a method that cannot be
read. -/
theorem treeRule_yields_callingPatch :
    treeRule.check callingPatch (treeOf [caller, callee, nameless]) =
        [callFinding, calleeFinding] ∧
      SameDeclarations callingPatch.content [caller, callee, nameless] [caller, callee] ∧
      Yields callingPatch [caller, callee] caller [callFinding] := by
  obtain ⟨⟨parts, each, found⟩, -, inOther⟩ :=
    treeRule_yields callingPatch (treeOf [caller, callee, nameless])
  have methods : (treeOf [caller, callee, nameless]).nodesOfKind "method_declaration" =
    [caller, callee, nameless] := rfl
  rw [methods] at each inOther
  have forbids : Forbids callingPatch.content [caller, callee, nameless] "H".toList :=
    ⟨callee, by simp, ["internal".toList], ⟨⟨4, by decide⟩, by decide⟩, by decide, by decide⟩
  have calls : Yields callingPatch [caller, callee, nameless] caller [callFinding] := by
    have reads : Reads callingPatch.content caller
        ⟨["HARMONYTranspiler".toList], "T".toList, 2, ["private".toList]⟩ :=
      ⟨by decide, by decide, by decide⟩
    exact .transpiler reads (List.mem_singleton.mpr rfl) (isTranspiler_iff.mpr (by decide))
      (.cons (.forbidden (by decide) forbids) .nil)
  have exposed : Yields callingPatch [caller, callee, nameless] callee [calleeFinding] := by
    have reads : Reads callingPatch.content callee
        ⟨["MyHarmonyPOSTFIX".toList], "H".toList, 4, ["internal".toList]⟩ :=
      ⟨by decide, by decide, by decide⟩
    exact .exposed reads (isPatch_iff.mpr (by decide)) (by simp [Reading.IsPrivate])
  have unnamed : nameless.declaredName? callingPatch.content = none := by decide
  have namelessSilent : Yields callingPatch [caller, callee, nameless] nameless [] :=
    .unreadable fun reading reads => by simpa [unnamed] using reads.name
  have same :
      SameDeclarations callingPatch.content [caller, callee, nameless] [caller, callee] := by
    intro name modifiers
    simp [Declares, unnamed]
  refine ⟨?_, same, (inOther (treeOf [caller, callee]) same _ _).mp calls⟩
  have known := List.Forall₂.cons calls (.cons exposed (.cons namelessSilent .nil))
  rw [found, rightUnique_yields.forall₂ each known]
  rfl

end PatchLint.PatchMethod
