import PatchLint.Text.Basic

/-!
# Syntax trees

The tree of a parsed source file. A node covers a range of bytes of the source
and may be the child of its parent under a field name. Its position in the
source is derived from that range.

A `Focus` is a node together with its ancestors, which is what a rule needs in
order to look outwards. `descendants` lists a focus and all that lies below it
in document order, with an explicit worklist.
-/

namespace PatchLint

/-- A node of a syntax tree. -/
structure Node where
  /-- The kind of construct. -/
  kind : String
  /-- The node is a construct of its own and not only a token. -/
  named : Bool
  /-- The byte at which the node starts. -/
  start : Nat
  /-- The byte at which the node ends. -/
  stop : Nat
  /-- The role of the node in its parent. -/
  field? : Option String
  /-- The nodes that this one is made of, in document order. -/
  children : List Node
deriving Repr

namespace Node

/-- The first child in the given role. -/
def child? (node : Node) (role : String) : Option Node :=
  node.children.find? fun child => child.field? == some role

/-- The children of one kind. -/
def childrenOfKind (node : Node) (kind : String) : List Node :=
  node.children.filter fun child => child.kind == kind

/-- The children that are constructs of their own. -/
def namedChildren (node : Node) : List Node :=
  node.children.filter Node.named

/-- The source text of a node. There is none if its range does not lie between
characters of the source. -/
def text? (node : Node) (source : Text) : Option Text :=
  source.slice? node.start node.stop

mutual

/-- The number of nodes of a tree. -/
def size : Node → Nat
  | ⟨_, _, _, _, _, children⟩ => 1 + sizeAll children

/-- The number of nodes of several trees. -/
def sizeAll : List Node → Nat
  | [] => 0
  | node :: rest => size node + sizeAll rest

end

/-- A node counts itself and what its children count. -/
theorem size_eq (node : Node) : node.size = 1 + sizeAll node.children := by
  cases node
  rw [size]

/-- The nodes of two lists of trees are the nodes of both. -/
theorem sizeAll_append (first second : List Node) :
    sizeAll (first ++ second) = sizeAll first + sizeAll second := by
  induction first with
  | nil => simp [sizeAll]
  | cons node rest ih => simp [sizeAll, ih, Nat.add_assoc]

end Node

/-! ## Positions -/

namespace Text

/-- The text before the byte at `offset`, up to its last whole character. -/
def upTo (offset : Nat) (source : Text) : Text :=
  source.take (charsWithin offset source)

/-- The line of a byte, counted from one. -/
def lineAt (offset : Nat) (source : Text) : Nat :=
  (upTo offset source).count '\n' + 1

/-- The column of a byte: the number of bytes between the start of its line and
the byte. -/
def columnAt (offset : Nat) (source : Text) : Nat :=
  let throughLastBreak := (upTo offset source).reverse.dropWhile (· != '\n')
  offset - byteSize throughLastBreak

end Text

/-- The line on which a node starts. -/
def Node.line (node : Node) (source : Text) : Nat :=
  source.lineAt node.start

/-! ## Nodes in their tree -/

/-- A node of a tree, with its ancestors. -/
structure Focus where
  /-- The node itself. -/
  node : Node
  /-- The ancestors, the parent first. -/
  ancestors : List Node
deriving Repr

namespace Focus

/-- The root of a tree. -/
def root (node : Node) : Focus :=
  ⟨node, []⟩

/-- The parent of the node. -/
def parent? (focus : Focus) : Option Node :=
  focus.ancestors.head?

/-- The children of the node, in document order. -/
def children (focus : Focus) : List Focus :=
  focus.node.children.map fun child => ⟨child, focus.node :: focus.ancestors⟩

/-- The children of a focus are the children of its node. -/
@[simp] theorem map_node_children (focus : Focus) :
    focus.children.map Focus.node = focus.node.children := by
  simp [children, Function.comp_def]

/-- Visit what is pending, children before what came after their parent. -/
def visit (pending : List Focus) : List Focus :=
  match pending with
  | [] => []
  | focus :: rest => focus :: visit (focus.children ++ rest)
termination_by Node.sizeAll (pending.map Focus.node)
decreasing_by
  simp only [List.map_append, map_node_children, Node.sizeAll_append, List.map_cons,
    Node.sizeAll, Node.size_eq focus.node]
  omega

/-- The node and everything below it, in document order. -/
def descendants (focus : Focus) : List Focus :=
  visit [focus]

/-- The nodes of one kind at or below this one, in document order. -/
def descendantsOfKind (focus : Focus) (kind : String) : List Focus :=
  focus.descendants.filter fun descendant => descendant.node.kind == kind

end Focus

end PatchLint
