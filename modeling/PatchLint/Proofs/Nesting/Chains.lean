import Mathlib.Order.Bounds.Basic
import PatchLint.Rule.Nesting

/-!
# Nesting along chains

The depth of a node is measured on the way down, with the level carried along. The same
number can be read off the finished tree: it is the greatest number of levels that open along
a chain of named children. `maxDepth_isGreatest` says so, and that an `if` with any number of
`else if`s adds one level to what is around it.

A chain holds the children on both sides of its way, since the `if` of an `else if` is known
by what stands before it.
-/

namespace PatchLint.Nesting

variable {node parent child : Node} {before after children : List Node} {depth : Nat}

/-! ## Chains -/

/-- The node has the role of an alternative. -/
def isAlternative (node : Node) : Bool :=
  node.field? == some "alternative"

/-- The child is the `if` of an `else if`: the first alternative of an `if`. -/
structure IsElseIf (parent : Node) (before : List Node) (child : Node) : Prop where
  isIf : child.kind = "if_statement"
  ofIf : parent.kind = "if_statement"
  alternative : isAlternative child = true
  first : ∀ sibling ∈ before, isAlternative sibling = false

instance (parent : Node) (before : List Node) (child : Node) :
    Decidable (IsElseIf parent before child) :=
  decidable_of_iff (child.kind = "if_statement" ∧ parent.kind = "if_statement" ∧
      isAlternative child = true ∧ ∀ sibling ∈ before, isAlternative sibling = false)
    ⟨fun ⟨isIf, ofIf, alternative, first⟩ => ⟨isIf, ofIf, alternative, first⟩,
      fun elseIf => ⟨elseIf.isIf, elseIf.ofIf, elseIf.alternative, elseIf.first⟩⟩

/-- The levels that a child opens, which has these siblings before it. -/
def levelsAt (parent : Node) (before : List Node) (child : Node) : Nat :=
  if child.kind ∈ levelKinds ∧ ¬ IsElseIf parent before child then 1 else 0

/-- A way down a tree: it ends at the node, or goes on from one of its named children. -/
inductive Chain : Node → Type where
  | stop (node : Node) : Chain node
  | down {node : Node} (before : List Node) (child : Node) (after : List Node)
      (split : node.children = before ++ child :: after) (named : child.named = true)
      (rest : Chain child) : Chain node

/-- The number of nodes behind the first one that open a level. -/
def Chain.levels : {node : Node} → Chain node → Nat
  | _, .stop _ => 0
  | node, .down before child _ _ _ rest => levelsAt node before child + rest.levels

/-! ## One level of the tree -/

private theorem opensLevel_iff :
    opensLevel parent.kind (before.any isAlternative) child = true ↔
      child.kind ∈ levelKinds ∧ ¬ IsElseIf parent before child := by
  have elseIf : IsElseIf parent before child ↔
      (child.kind == "if_statement" && parent.kind == "if_statement" &&
        !before.any isAlternative && isAlternative child) = true := by
    simp only [Bool.and_eq_true, beq_iff_eq, Bool.not_eq_true', List.any_eq_false,
      Bool.not_eq_true]
    exact ⟨fun ⟨isIf, ofIf, alternative, first⟩ => ⟨⟨⟨isIf, ofIf⟩, first⟩, alternative⟩,
      fun ⟨⟨⟨isIf, ofIf⟩, first⟩, alternative⟩ => ⟨isIf, ofIf, alternative, first⟩⟩
  rw [elseIf, opensLevel, Bool.and_eq_true, List.contains_iff_mem, Bool.not_eq_true',
    Bool.not_eq_true]
  rfl

/-- A child is entered at the level of its parent or at the next one. -/
theorem enteredAt_eq (parent : Node) (before : List Node) (child : Node) (depth : Nat) :
    (if opensLevel parent.kind (before.any isAlternative) child then depth + 1 else depth) =
      depth + levelsAt parent before child := by
  rw [levelsAt]
  split <;> split <;> simp_all [opensLevel_iff]

private theorem maxDepth_eq (depth : Nat) (node : Node) :
    maxDepth depth node = maxDepthAll node.kind false depth node.children := by
  cases node
  rw [maxDepth]

private theorem maxDepthAll_cons (kind : String) (seen : Bool) (depth : Nat) (child : Node)
    (rest : List Node) :
    maxDepthAll kind seen depth (child :: rest) =
      if child.named then
        max (maxDepth (if opensLevel kind seen child then depth + 1 else depth) child)
          (maxDepthAll kind (seen || isAlternative child) depth rest)
      else maxDepthAll kind (seen || isAlternative child) depth rest := by
  rw [maxDepthAll]
  rfl

private theorem le_maxDepthAll (kind : String) (seen : Bool) (depth : Nat) (children : List Node) :
    depth ≤ maxDepthAll kind seen depth children := by
  induction children generalizing seen with
  | nil => rw [maxDepthAll]
  | cons child rest ih =>
      rw [maxDepthAll_cons]
      split
      · exact (ih _).trans (Nat.le_max_right _ _)
      · exact ih _

/-- The children in front and those behind them are measured apart. -/
theorem maxDepthAll_append (kind : String) (seen : Bool) (depth : Nat) (front back : List Node) :
    maxDepthAll kind seen depth (front ++ back) =
      max (maxDepthAll kind seen depth front)
        (maxDepthAll kind (seen || front.any isAlternative) depth back) := by
  induction front generalizing seen with
  | nil =>
      rw [maxDepthAll, List.nil_append, List.any_nil, Bool.or_false]
      exact (Nat.max_eq_right (le_maxDepthAll kind seen depth back)).symm
  | cons child rest ih =>
      rw [List.cons_append, maxDepthAll_cons, maxDepthAll_cons, ih, List.any_cons, Bool.or_assoc]
      split
      · rw [Nat.max_assoc]
      · rfl

/-- A named child counts beside what stands before it and behind it. -/
theorem maxDepth_of_split (split : node.children = before ++ child :: after)
    (named : child.named = true) (depth : Nat) :
    maxDepth depth node =
      max (maxDepthAll node.kind false depth before)
        (max (maxDepth (depth + levelsAt node before child) child)
          (maxDepthAll node.kind (before.any isAlternative || isAlternative child) depth
            after)) := by
  rw [maxDepth_eq, split, maxDepthAll_append, Bool.false_or, maxDepthAll_cons, if_pos named,
    enteredAt_eq]

/-- Nothing opens a level among the children behind those that have been passed, or their
deepest level is the one of a named child. -/
theorem maxDepthAll_eq_or_exists {passed rest : List Node} (whole : node.children = passed ++ rest)
    (depth : Nat) :
    maxDepthAll node.kind (passed.any isAlternative) depth rest = depth ∨
      ∃ before child after, node.children = before ++ child :: after ∧ child.named = true ∧
        maxDepthAll node.kind (passed.any isAlternative) depth rest =
          maxDepth (depth + levelsAt node before child) child := by
  induction rest generalizing passed with
  | nil =>
      rw [maxDepthAll]
      exact .inl rfl
  | cons child rest ih =>
      have others := ih (whole.trans (List.append_cons passed child rest))
      rw [List.any_append, List.any_cons, List.any_nil, Bool.or_false] at others
      rw [maxDepthAll_cons]
      split
      next named =>
        rw [enteredAt_eq]
        rcases Nat.le_total
          (maxDepthAll node.kind (passed.any isAlternative || isAlternative child) depth rest)
          (maxDepth (depth + levelsAt node passed child) child) with shallow | deep
        · rw [Nat.max_eq_left shallow]
          exact .inr ⟨passed, child, rest, whole, named, rfl⟩
        · rw [Nat.max_eq_right deep]
          exact others
      next => exact others

/-- Nothing opens a level below a node, or the deepest level is the one of a named child. -/
theorem maxDepth_eq_or_exists (depth : Nat) (node : Node) :
    maxDepth depth node = depth ∨ ∃ before child after,
      node.children = before ++ child :: after ∧ child.named = true ∧
        maxDepth depth node = maxDepth (depth + levelsAt node before child) child := by
  rw [maxDepth_eq]
  exact maxDepthAll_eq_or_exists (List.nil_append node.children).symm depth

/-! ## The deepest chain -/

private theorem levels_le_maxDepth (chain : Chain node) (depth : Nat) :
    depth + chain.levels ≤ maxDepth depth node := by
  induction chain generalizing depth with
  | stop node =>
      rw [Chain.levels, maxDepth_eq]
      exact le_maxDepthAll _ _ _ _
  | @down node before child after split named rest ih =>
      have below := ih (depth + levelsAt node before child)
      rw [Chain.levels, maxDepth_of_split split named]
      omega

private theorem size_lt_of_split (split : node.children = before ++ child :: after) :
    child.size < node.size := by
  rw [Node.size_eq node, split, Node.sizeAll_append, Node.sizeAll]
  omega

private theorem exists_maxDepth_eq (depth : Nat) (node : Node) :
    ∃ chain : Chain node, maxDepth depth node = depth + chain.levels := by
  rcases maxDepth_eq_or_exists depth node with flat | ⟨before, child, after, split, named, deepest⟩
  · exact ⟨.stop node, flat⟩
  · have smaller := size_lt_of_split split
    obtain ⟨chain, along⟩ := exists_maxDepth_eq (depth + levelsAt node before child) child
    refine ⟨.down before child after split named chain, ?_⟩
    rw [deepest, along, Chain.levels, Nat.add_assoc]
termination_by node.size

/-! ## Chains of `else if` -/

/-- Neither the node nor anything below it opens a level. -/
inductive IsFlat : Node → Prop where
  | intro {node : Node} (other : node.kind ∉ levelKinds)
      (below : ∀ child ∈ node.children, child.named = true → IsFlat child) : IsFlat node

/-- An `if` with a number of `else if`s. Nothing else in them opens a level: neither conditions
nor branches. -/
inductive IsElseIfChain : Nat → Node → Prop where
  | last {node : Node} (isIf : node.kind = "if_statement")
      (flat : ∀ child ∈ node.children, child.named = true → IsFlat child) : IsElseIfChain 0 node
  | more {count : Nat} {node next : Node} {before after : List Node}
      (split : node.children = before ++ next :: after) (elseIf : IsElseIf node before next)
      (named : next.named = true)
      (flat : ∀ child ∈ before ++ after, child.named = true → IsFlat child)
      (rest : IsElseIfChain count next) : IsElseIfChain (count + 1) node

/-- Children that neither open a level nor have one below them add nothing. -/
theorem maxDepthAll_eq_self (kind : String) (seen : Bool)
    (flat : ∀ child ∈ children, child.named = true →
      child.kind ∉ levelKinds ∧ maxDepth depth child = depth) :
    maxDepthAll kind seen depth children = depth := by
  induction children generalizing seen with
  | nil => rw [maxDepthAll]
  | cons child rest ih =>
      obtain ⟨here, behind⟩ := List.forall_mem_cons.mp flat
      rw [maxDepthAll_cons, ih _ behind]
      split
      next named =>
        obtain ⟨other, same⟩ := here named
        have stays : opensLevel kind seen child = false := by
          simp [opensLevel, other]
        rw [stays, if_neg Bool.false_ne_true, same, Nat.max_self]
      next => rfl

private theorem IsFlat.spec (flat : IsFlat node) (depth : Nat) :
    node.kind ∉ levelKinds ∧ maxDepth depth node = depth := by
  induction flat with
  | intro other below ih =>
      refine ⟨other, ?_⟩
      rw [maxDepth_eq]
      exact maxDepthAll_eq_self _ _ ih

/-- Below the first `if` of a chain there is no further level. -/
theorem IsElseIfChain.spec {count : Nat} (chain : IsElseIfChain count node) (depth : Nat) :
    node.kind = "if_statement" ∧ maxDepth depth node = depth := by
  induction chain with
  | last isIf flat =>
      refine ⟨isIf, ?_⟩
      rw [maxDepth_eq]
      exact maxDepthAll_eq_self _ _ fun child member named => (flat child member named).spec depth
  | more split elseIf named flat rest ih =>
      obtain ⟨flatBefore, flatAfter⟩ := List.forall_mem_append.mp flat
      refine ⟨elseIf.ofIf, ?_⟩
      have stays : levelsAt _ _ _ = 0 := if_neg fun both => both.2 elseIf
      rw [maxDepth_of_split split named, stays, Nat.add_zero, ih.2,
        maxDepthAll_eq_self _ _ fun other member named =>
          (flatBefore other member named).spec depth,
        maxDepthAll_eq_self _ _ fun other member named =>
          (flatAfter other member named).spec depth,
        Nat.max_self, Nat.max_self]

/-- Only of the children of an `if` the first alternative is a special one. -/
theorem maxDepthAll_of_ne {kind : String} (other : kind ≠ "if_statement") (seen again : Bool)
    (depth : Nat) (children : List Node) :
    maxDepthAll kind seen depth children = maxDepthAll kind again depth children := by
  induction children generalizing seen again with
  | nil => rw [maxDepthAll, maxDepthAll]
  | cons child rest ih =>
      have same : opensLevel kind seen child = opensLevel kind again child := by
        simp [opensLevel, beq_false_of_ne other]
      rw [maxDepthAll_cons, maxDepthAll_cons, same, ih]

/-- A chain of `else if`s adds one level to what is around it. -/
theorem maxDepth_elseIfChain {count : Nat} (split : node.children = before ++ child :: after)
    (named : child.named = true) (chain : IsElseIfChain count child)
    (starts : ¬ IsElseIf node before child) (depth : Nat) :
    maxDepth depth node =
      max (depth + 1) (maxDepth depth { node with children := before ++ after }) := by
  obtain ⟨isIf, flat⟩ := chain.spec (depth + 1)
  have opens : levelsAt node before child = 1 :=
    if_pos ⟨by rw [isIf]; decide, starts⟩
  have behind : maxDepthAll node.kind (before.any isAlternative || isAlternative child) depth
      after = maxDepthAll node.kind (before.any isAlternative) depth after := by
    by_cases ofIf : node.kind = "if_statement"
    · cases alternative : isAlternative child with
      | false => rw [Bool.or_false]
      | true =>
          have seen : before.any isAlternative = true := by
            by_contra first
            simp only [List.any_eq_true, not_exists, not_and, Bool.not_eq_true] at first
            exact starts ⟨isIf, ofIf, alternative, first⟩
          rw [seen, Bool.true_or]
    · exact maxDepthAll_of_ne ofIf _ _ depth after
  rw [maxDepth_of_split split named, opens, flat, behind, maxDepth_eq, maxDepthAll_append,
    Bool.false_or, Nat.max_left_comm]

/-- The depth of a node is the greatest number of levels along a chain, on top of the level at
which it is entered. A child that starts a chain of `else if`s adds one level to the depth that
there is without it, however long the chain is. -/
theorem maxDepth_isGreatest (depth : Nat) (node : Node) :
    IsGreatest (Set.range fun chain : Chain node => depth + chain.levels) (maxDepth depth node) ∧
    ∀ count before child after, node.children = before ++ child :: after → child.named = true →
      IsElseIfChain count child → ¬ IsElseIf node before child →
      maxDepth depth node =
        max (depth + 1) (maxDepth depth { node with children := before ++ after }) := by
  refine ⟨⟨?_, ?_⟩, fun count before child after split named chain starts =>
    maxDepth_elseIfChain split named chain starts depth⟩
  · obtain ⟨chain, along⟩ := exists_maxDepth_eq depth node
    exact ⟨chain, along.symm⟩
  · rintro _ ⟨chain, rfl⟩
    exact levels_le_maxDepth chain depth

/-- A condition or a branch that is only a word. -/
def word (role : String) : Node :=
  ⟨"identifier", true, 0, 0, some role, []⟩

/-- An `if` with a condition and an alternative. -/
def choice (field? : Option String) (alternative : Node) : Node :=
  ⟨"if_statement", true, 0, 0, field?, [word "condition", alternative]⟩

/-- One `else if` in a block that is entered at level two leads to level three. -/
theorem maxDepth_isGreatest_elseIf :
    IsElseIfChain 1 (choice none (choice (some "alternative") (word "alternative"))) ∧
      maxDepth 2 ⟨"block", true, 0, 0, none,
        [choice none (choice (some "alternative") (word "alternative"))]⟩ = 3 := by
  have flat (role : String) : IsFlat (word role) :=
    .intro (by simp [word, levelKinds]) (by simp [word])
  have last : IsElseIfChain 0 (choice (some "alternative") (word "alternative")) := by
    refine .last rfl ?_
    rw [choice, List.forall_mem_cons, List.forall_mem_singleton]
    exact ⟨fun _ => flat _, fun _ => flat _⟩
  have split : (choice none (choice (some "alternative") (word "alternative"))).children =
      [word "condition"] ++ choice (some "alternative") (word "alternative") :: [] := rfl
  have chain : IsElseIfChain 1 (choice none (choice (some "alternative") (word "alternative"))) :=
    .more split ⟨rfl, rfl, rfl, by decide⟩ rfl (List.forall_mem_singleton.mpr fun _ => flat _) last
  have whole := (maxDepth_isGreatest 2 ⟨"block", true, 0, 0, none,
    [choice none (choice (some "alternative") (word "alternative"))]⟩).2 1 [] _ [] rfl rfl chain
      fun elseIf => absurd elseIf.ofIf (by decide)
  exact ⟨chain, whole⟩

end PatchLint.Nesting
