import PatchLint.Proofs.Bytewise.Blocks
import PatchLint.Proofs.Bytewise.Context
import PatchLint.Proofs.Bytewise.Words
import PatchLint.Rule.LongMethod

/-!
# Rules never go wrong

The length of a method is the difference of two lines. In a tree whose nodes lie
inside of their parents the name of a method does not stand behind its end, so that
the difference is a number of lines. With this all searches of the rules that count
in bytes and lines are known to go well, whatever the text is.
-/

namespace PatchLint

/-! ## Trees -/

/-- The range of each child lies inside of that of its parent, in the whole tree. -/
inductive Node.Nested : Node → Prop where
  | intro {node : Node}
      (inside : ∀ child ∈ node.children, node.start ≤ child.start ∧ child.stop ≤ node.stop)
      (deeper : ∀ child ∈ node.children, child.Nested) : node.Nested

private theorem Node.Nested.inside {node : Node} (nested : node.Nested) :
    ∀ child ∈ node.children, node.start ≤ child.start ∧ child.stop ≤ node.stop := by
  cases nested
  assumption

private theorem Node.Nested.deeper {node : Node} (nested : node.Nested) :
    ∀ child ∈ node.children, child.Nested := by
  cases nested
  assumption

/-- Whatever is visited below nested nodes is nested. -/
theorem Focus.nested_of_mem_visit {pending : List Focus}
    (nested : ∀ focus ∈ pending, focus.node.Nested) :
    ∀ focus ∈ visit pending, focus.node.Nested := by
  fun_induction visit pending with
  | case1 => simp
  | case2 focus rest ih =>
      obtain ⟨here, others⟩ := List.forall_mem_cons.mp nested
      refine List.forall_mem_cons.mpr ⟨here, ih (List.forall_mem_append.mpr ⟨?_, others⟩)⟩
      intro child member
      obtain ⟨node, inNode, rfl⟩ := List.mem_map.mp member
      exact here.deeper node inNode

namespace Text

/-- A byte further on is not on an earlier line. -/
theorem lineAt_mono {first last : Nat} (ordered : first ≤ last) (source : Text) :
    source.lineAt first ≤ source.lineAt last := by
  have chars : charsWithin first source ≤ charsWithin last source := by
    induction source generalizing first last with
    | nil => rfl
    | cons c rest ih =>
        rw [charsWithin, charsWithin]
        split_ifs with fits fitsLast
        · have more := ih (Nat.sub_le_sub_right ordered c.utf8Size)
          omega
        · omega
        · omega
        · rfl
  rw [lineAt, lineAt, upTo, upTo, ← take_append_between chars source, List.count_append]
  omega

end Text

namespace Bytewise

open Text Checked

/-- Judge a method declaration. -/
def checkMethod (limit : Nat) (file : SourceFile) (method : Focus) :
    Checked (Option (List Issue)) :=
  match method.node.child? "body", method.node.declaredName? file.content with
  | none, _ => return some []
  | some _, none => return none
  | some _, some (name, line) => do
    let lines ← sub (file.content.lineAt method.node.stop + 1) line
    if lines ≤ limit then return some []
    else return some [LongMethod.finding file line name lines limit]

/-- The findings about long methods. -/
def longMethods (limit : Nat) (file : SourceFile) (tree : Node) : Checked (List Issue) := do
  let methods := (Focus.root tree).descendantsOfKind "method_declaration"
  return (← methods.mapM (checkMethod limit file)).flatMap fun issues? => issues?.getD []

/-- The name of a declaration does not stand behind its end. -/
theorem line_le_of_declaredName? {declaration : Node} {source name : Text} {line : Nat}
    (nested : declaration.Nested)
    (declared : declaration.declaredName? source = some (name, line)) :
    line ≤ source.lineAt declaration.stop := by
  rw [Node.declaredName?] at declared
  simp only [Option.bind_eq_bind, Option.bind_eq_some_iff, Option.pure_def, Option.some.injEq,
    Prod.mk.injEq] at declared
  obtain ⟨child, found, text, read, _, rfl⟩ := declared
  rw [Node.text?, slice?, Option.ite_none_right_eq_some] at read
  obtain ⟨_, stops⟩ := nested.inside child (List.mem_of_find?_eq_some found)
  exact lineAt_mono (read.1.trans stops) source

private theorem checkMethod_eq (limit : Nat) (file : SourceFile) {method : Focus}
    (nested : method.node.Nested) :
    checkMethod limit file method = .ok (LongMethod.checkMethod limit file method) := by
  rw [checkMethod, LongMethod.checkMethod]
  cases method.node.child? "body" with
  | none => rfl
  | some body =>
      cases declared : method.node.declaredName? file.content with
      | none => rfl
      | some found =>
          obtain ⟨name, line⟩ := found
          have before := line_le_of_declaredName? nested declared
          have fits : line ≤ file.content.lineAt method.node.stop + 1 := by omega
          simp only [sub_eq_ok fits, ok_bind, Option.bind_eq_bind, Option.bind_some,
            LongMethod.length]
          by_cases short : file.content.lineAt method.node.stop + 1 - line ≤ limit
          all_goals
            simp only [short, if_true, if_false]
            rfl

private theorem longMethods_eq (limit : Nat) (file : SourceFile) {tree : Node}
    (nested : tree.Nested) :
    longMethods limit file tree = .ok ((LongMethod.treeRule limit).check file tree) := by
  have methods : ∀ method ∈ (Focus.root tree).descendantsOfKind "method_declaration",
      checkMethod limit file method = .ok (LongMethod.checkMethod limit file method) := by
    intro method member
    refine checkMethod_eq limit file (Focus.nested_of_mem_visit ?_ method
      (List.mem_of_mem_filter member))
    exact List.forall_mem_singleton.mpr nested
  rw [longMethods, mapM_eq_ok methods, ok_bind, List.flatMap_map]
  rfl

/-! ## All rules -/

/-- No rule takes away from a counter that is zero, cuts a line inside of a character or past its
end, or asks for a line that is not there: told in bytes, with all that could go wrong, the searches
of the rules give what they give in characters. The search for a block and for the end of a loop
head do so in any lines, the rule about loops in any file, the searches for keywords, comments and
names in any line. The surroundings of a number are found for any two positions, and the lengths
of methods in any tree whose nodes lie inside of their parents. -/
theorem rules_never_fault :
    (∀ code line column, blockSpan code line column = .ok (blockSpan? code line column)) ∧
    (∀ line condition : Text, '(' :: condition <:+ line →
      headEnd line (line.startOf ('(' :: condition)) =
        .ok ((Concatenation.afterClosing? 0 condition).map line.startOf)) ∧
    (∀ file : SourceFile, appendingInLoops file =
      .ok ((Mask.codeLines file.content).zipIdx.flatMap
        (Concatenation.appendingLines file (Mask.codeLines file.content)))) ∧
    (∀ line, keywordEnds line = .ok (EmptyCatch.keywordEnds line)) ∧
    (∀ line, comment line = .ok (Mask.comment? line)) ∧
    (∀ line : Text, ∀ cut ∈ line.cuts,
      identifierBefore line cut.offset = .ok (Declaration.identifierBefore? cut)) ∧
    (∀ declaration, methodName declaration = .ok (Declaration.methodName? declaration)) ∧
    (∀ line, callNames line = .ok (Declaration.callNames line)) ∧
    (∀ declaration, className declaration = .ok (Declaration.className? declaration)) ∧
    (∀ line start stop,
      inGuidContext line start stop = .ok (PatchLint.inGuidContext line start stop)) ∧
    ∀ tree : Node, tree.Nested → ∀ limit file,
      longMethods limit file tree = .ok ((LongMethod.treeRule limit).check file tree) :=
  ⟨blockSpan_eq, fun _ _ => headEnd_eq, appendingInLoops_eq, keywordEnds_eq, comment_eq,
    fun _ _ => identifierBefore_eq, methodName_eq, callNames_eq, className_eq, inGuidContext_eq,
    fun _ nested limit file => longMethods_eq limit file nested⟩

/-- A method with a name and a body on one line. -/
def shortMethod : Node :=
  ⟨"method_declaration", true, 0, 14, none,
    [⟨"identifier", true, 5, 6, some "name", []⟩,
      ⟨"arrow_expression_clause", true, 9, 13, some "body", []⟩]⟩

/-- The source of the short method. -/
def shortFile : SourceFile :=
  .ofPath [] "A.cs".toList "void F() => 1;".toList

/-- The length of a short method is found, and so are the end of a loop head behind a character of
two bytes and what stands around positions inside of such characters. -/
theorem rules_never_fault_shortMethod :
    shortMethod.Nested ∧
    longMethods 0 shortFile shortMethod =
      .ok ((LongMethod.treeRule 0).check shortFile shortMethod) ∧
    headEnd "é(a)".toList 2 = .ok (some 5) ∧
    inGuidContext "éé".toList 21 1 = .ok (PatchLint.inGuidContext "éé".toList 21 1) := by
  have nested : shortMethod.Nested := by
    refine .intro (by decide) ?_
    simp only [shortMethod, List.forall_mem_cons, List.not_mem_nil, false_implies, implies_true,
      and_true]
    exact ⟨.intro (by decide) (by simp), .intro (by decide) (by simp)⟩
  obtain ⟨_, heads, _, _, _, _, _, _, _, context, methods⟩ := rules_never_fault
  exact ⟨nested, methods shortMethod nested 0 shortFile,
    heads "é(a)".toList "a)".toList ⟨['é'], rfl⟩, context _ 21 1⟩

end Bytewise

end PatchLint
