import PatchLint.SyntaxTree.Basic

/-!
# Document order by recursion

`Focus.visit` goes through a tree with a list of what is pending. `Node.preorder` says
the same without such a list: first the node, then what its children have in them, child
after child. `Focus.map_node_visit` ties the two, so a rule that asks for the nodes below
a focus can be described on the tree alone.
-/

namespace PatchLint

namespace Node

mutual

/-- A node and everything below it, in document order. -/
def preorder : Node → List Node
  | ⟨kind, named, start, stop, field?, children⟩ =>
    ⟨kind, named, start, stop, field?, children⟩ :: preorderAll children

/-- Several nodes and everything below them. -/
def preorderAll : List Node → List Node
  | [] => []
  | node :: rest => preorder node ++ preorderAll rest

end

private theorem preorderAll_eq_flatMap (nodes : List Node) :
    preorderAll nodes = nodes.flatMap preorder := by
  induction nodes with
  | nil => rfl
  | cons node rest ih => rw [preorderAll, ih, List.flatMap_cons]

private theorem preorder_eq (node : Node) :
    node.preorder = node :: node.children.flatMap preorder := by
  cases node
  rw [preorder, preorderAll_eq_flatMap]

/-- The nodes of one kind at or below a node, in document order. -/
def nodesOfKind (node : Node) (kind : String) : List Node :=
  node.preorder.filter fun below => below.kind == kind

end Node

namespace Focus

/-- Whatever is pending, it is visited in document order. -/
theorem map_node_visit (pending : List Focus) :
    (visit pending).map Focus.node = (pending.map Focus.node).flatMap Node.preorder := by
  fun_induction visit pending with
  | case1 => rfl
  | case2 focus rest ih =>
      rw [List.map_cons, ih, List.map_append, map_node_children, List.flatMap_append,
        List.map_cons, List.flatMap_cons, Node.preorder_eq focus.node, List.cons_append]

/-- The nodes of a kind are those found on the way through the tree. -/
theorem map_node_descendantsOfKind (focus : Focus) (kind : String) :
    (focus.descendantsOfKind kind).map Focus.node = focus.node.nodesOfKind kind := by
  have visited : focus.descendants.map Focus.node = focus.node.preorder := by
    rw [descendants, map_node_visit, List.map_singleton, List.flatMap_singleton]
  rw [descendantsOfKind, Node.nodesOfKind, ← visited, List.filter_map]
  rfl

end Focus

end PatchLint
