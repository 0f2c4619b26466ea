import Mathlib.Data.Set.Card
import PatchLint.Rule.Complexity

/-!
# Document order by addresses

The walk through a tree keeps a list of what is pending. `visit_append` says what that list
is good for: the walk is through with everything below a node before it comes to the next
one, so what it lists is the node and then what it lists for each child.

Equal nodes can stand at several places of a tree. A place is told by its address, the
numbers of the children on the way down, and addresses in lexicographic order are in document
order: a node comes before what is below it, and what is below a child comes before what is
below a later child.
-/

namespace PatchLint

namespace Node

private theorem size_lt_of_mem_children {node child : Node} (member : child ∈ node.children) :
    child.size < node.size := by
  have within : ∀ nodes : List Node, child ∈ nodes → child.size ≤ sizeAll nodes := by
    intro nodes inNodes
    induction nodes with
    | nil => contradiction
    | cons first rest ih =>
        rw [sizeAll]
        rcases List.mem_cons.mp inNodes with rfl | later
        · exact Nat.le_add_right _ _
        · exact (ih later).trans (Nat.le_add_left _ _)
  have bound := within node.children member
  rw [size_eq node]
  omega

mutual

/-- The addresses of a node and of everything below it. -/
def addresses : Node → List (List Nat)
  | ⟨_, _, _, _, _, children⟩ => [] :: addressesFrom 0 children

/-- The addresses of children that are numbered from `index` on, and of everything below
them. -/
def addressesFrom : Nat → List Node → List (List Nat)
  | _, [] => []
  | index, child :: rest => child.addresses.map (index :: ·) ++ addressesFrom (index + 1) rest

end

private theorem addressesFrom_eq_flatMap (index : Nat) (children : List Node) :
    addressesFrom index children =
      (children.zipIdx index).flatMap fun child => child.1.addresses.map (child.2 :: ·) := by
  induction children generalizing index with
  | nil => rfl
  | cons child rest ih => rw [addressesFrom, ih, List.zipIdx_cons, List.flatMap_cons]

private theorem addresses_eq (node : Node) :
    node.addresses =
      [] :: node.children.zipIdx.flatMap fun child => child.1.addresses.map (child.2 :: ·) := by
  cases node
  rw [addresses, addressesFrom_eq_flatMap]

end Node

namespace Focus

/-! ## The walk -/

/-- What was pending before comes first, with everything below it. -/
theorem visit_append (first second : List Focus) :
    visit (first ++ second) = visit first ++ visit second := by
  fun_induction visit first with
  | case1 => rfl
  | case2 focus rest ih =>
      rw [List.cons_append, visit, ← List.append_assoc, ih, List.cons_append]

private theorem visit_eq_flatMap (pending : List Focus) :
    visit pending = pending.flatMap descendants := by
  induction pending with
  | nil => rw [visit, List.flatMap_nil]
  | cons focus rest ih =>
      rw [← List.singleton_append, visit_append, ih, List.flatMap_append, List.flatMap_singleton,
        descendants]

/-- A node is listed before what is listed for its children, child after child. -/
theorem descendants_eq (focus : Focus) :
    focus.descendants = focus :: focus.children.flatMap descendants := by
  rw [descendants, visit, List.append_nil, visit_eq_flatMap]

/-- What holds of a node whenever it holds of its children holds of every node. -/
@[elab_as_elim]
theorem induction_children {motive : Focus → Prop}
    (step : ∀ focus, (∀ child ∈ focus.children, motive child) → motive focus) (focus : Focus) :
    motive focus := by
  refine step focus fun child member => ?_
  have smaller : child.node.size < focus.node.size := by
    obtain ⟨node, inNode, rfl⟩ := List.mem_map.mp member
    exact Node.size_lt_of_mem_children inNode
  exact induction_children step child
termination_by focus.node.size

/-! ## Addresses -/

/-- What stands at an address, if the address leads to something. -/
def at? (focus : Focus) : List Nat → Option Focus
  | [] => some focus
  | index :: rest => focus.children[index]?.bind fun child => child.at? rest

private theorem addresses_eq (focus : Focus) :
    focus.node.addresses =
      [] :: focus.children.zipIdx.flatMap fun child =>
        child.1.node.addresses.map (child.2 :: ·) := by
  rw [Node.addresses_eq, ← map_node_children, List.zipIdx_map, List.flatMap_map]
  rfl

/-- The addresses of a tree are those that lead to something. -/
theorem mem_addresses_iff {focus : Focus} {address : List Nat} :
    address ∈ focus.node.addresses ↔ (focus.at? address).isSome = true := by
  induction address generalizing focus with
  | nil =>
      rw [addresses_eq, at?]
      simp
  | cons index rest ih =>
      rw [addresses_eq, at?, Option.isSome_bind]
      simp only [List.mem_cons, reduceCtorEq, false_or, List.mem_flatMap, List.mem_map,
        List.cons.injEq, Prod.exists, List.mk_mem_zipIdx_iff_getElem?]
      constructor
      · rintro ⟨child, _, stands, _, member, rfl, rfl⟩
        rw [stands]
        exact ih.mp member
      · intro leads
        cases stands : focus.children[index]? with
        | none => simp [stands] at leads
        | some child =>
            rw [stands] at leads
            exact ⟨child, index, stands, rest, ih.mpr leads, rfl, rfl⟩

variable {focus : Focus} {child : Focus × Nat}

private theorem mem_children_of_mem_zipIdx (member : child ∈ focus.children.zipIdx) :
    child.1 ∈ focus.children :=
  List.mem_of_getElem? (List.mk_mem_zipIdx_iff_getElem?.mp member)

/-- An address that goes on from a child leads to what the rest of it leads to from there. -/
theorem at?_cons_of_mem_zipIdx (member : child ∈ focus.children.zipIdx) (rest : List Nat) :
    focus.at? (child.2 :: rest) = child.1.at? rest := by
  rw [at?, List.mk_mem_zipIdx_iff_getElem?.mp member, Option.bind_some]

/-- The addresses are listed in lexicographic order, each of them once. -/
theorem pairwise_addresses (focus : Focus) : focus.node.addresses.Pairwise (· < ·) := by
  induction focus using induction_children with
  | step focus ih =>
      rw [addresses_eq, List.pairwise_cons, List.pairwise_flatMap]
      refine ⟨?_, ?_, ?_⟩
      · intro address member
        obtain ⟨child, _, below⟩ := List.mem_flatMap.mp member
        obtain ⟨rest, _, rfl⟩ := List.mem_map.mp below
        exact List.nil_lt_cons _ _
      · intro child member
        rw [List.pairwise_map]
        refine (ih child.1 (mem_children_of_mem_zipIdx member)).imp fun ordered => ?_
        exact List.cons_lt_cons_self.mpr ordered
      · have numbered : focus.children.zipIdx.Pairwise fun first second => first.2 < second.2 := by
          have numbers := List.pairwise_lt_range' (s := 0) (n := focus.children.length)
          rw [← List.zipIdx_map_snd 0 focus.children] at numbers
          exact List.pairwise_map.mp numbers
        refine numbered.imp fun {first second} earlier left inLeft right inRight => ?_
        obtain ⟨_, _, rfl⟩ := List.mem_map.mp inLeft
        obtain ⟨_, _, rfl⟩ := List.mem_map.mp inRight
        exact List.Lex.rel earlier

/-- What is listed stands at the addresses of the tree, one after the other. -/
theorem map_some_descendants (focus : Focus) :
    focus.descendants.map some = focus.node.addresses.map focus.at? := by
  induction focus using induction_children with
  | step focus ih =>
      have below : focus.children.flatMap (fun child => child.descendants.map some) =
          focus.children.zipIdx.flatMap fun child =>
            child.1.node.addresses.map fun rest => focus.at? (child.2 :: rest) := by
        calc focus.children.flatMap (fun child => child.descendants.map some)
            = (focus.children.zipIdx.map Prod.fst).flatMap
                fun child => child.descendants.map some := by rw [List.zipIdx_map_fst]
          _ = focus.children.zipIdx.flatMap fun child => child.1.descendants.map some :=
              List.flatMap_map _ _ _
          _ = _ := by
              refine List.flatMap_congr fun child member => ?_
              rw [ih child.1 (mem_children_of_mem_zipIdx member)]
              simp only [at?_cons_of_mem_zipIdx member]
      rw [descendants_eq, addresses_eq, List.map_cons, List.map_cons, List.map_flatMap, below,
        List.map_flatMap]
      simp only [List.map_map]
      rfl

/-- A listing of a node and of what lies below it, by addresses: each member stands at its
address, every address that leads to something is there, and they come in lexicographic
order, so that none comes twice. -/
structure InDocumentOrder (focus : Focus) (listing : List Focus) (addresses : List (List Nat)) :
    Prop where
  stands : listing.map some = addresses.map focus.at?
  complete : ∀ address, address ∈ addresses ↔ (focus.at? address).isSome = true
  ordered : addresses.Pairwise (· < ·)

private theorem inDocumentOrder_descendants (focus : Focus) :
    InDocumentOrder focus focus.descendants focus.node.addresses where
  stands := map_some_descendants focus
  complete _ := mem_addresses_iff
  ordered := pairwise_addresses focus

/-- The addresses of the nodes that pass a test. -/
def addressesWhere (focus : Focus) (test : Focus → Bool) : Set (List Nat) :=
  {address | (focus.at? address).any test = true}

/-- To count in a listing is to count in the tree. -/
theorem InDocumentOrder.countP_eq {listing : List Focus} {addresses : List (List Nat)}
    (inOrder : InDocumentOrder focus listing addresses) (test : Focus → Bool) :
    listing.countP test = (focus.addressesWhere test).ncard := by
  have once : (addresses.filter fun address => (focus.at? address).any test).Nodup :=
    (inOrder.ordered.imp fun earlier => ne_of_lt earlier).filter _
  have members : focus.addressesWhere test =
      (addresses.filter fun address => (focus.at? address).any test).toFinset := by
    ext address
    rw [addressesWhere, Set.mem_ofPred_eq, Finset.mem_coe, List.mem_toFinset, List.mem_filter,
      inOrder.complete]
    exact (and_iff_right_of_imp fun passes => Option.isSome_of_any passes).symm
  calc listing.countP test
      = (listing.map some).countP (Option.any test) := by
        rw [List.countP_map]
        rfl
    _ = addresses.countP fun address => (focus.at? address).any test := by
        rw [inOrder.stands, List.countP_map]
        rfl
    _ = (focus.addressesWhere test).ncard := by
        rw [members, Set.ncard_coe_finset, List.toFinset_card_of_nodup once,
          List.countP_eq_length_filter]

/-- The walk lists a node and then what it lists for its children, child after child. So it
lists everything at or below the node once and in document order, and the complexity of a
method is one more than the number of branches below each of its children. -/
theorem descendants_recursive (focus : Focus) :
    focus.descendants = focus :: focus.children.flatMap descendants ∧
    (∃ addresses, InDocumentOrder focus focus.descendants addresses) ∧
    Complexity.ofMethod focus =
      1 + (focus.children.map fun child =>
        (child.addressesWhere Complexity.isBranch).ncard).sum := by
  refine ⟨descendants_eq focus, ⟨_, inDocumentOrder_descendants focus⟩, ?_⟩
  rw [Complexity.ofMethod, descendants_eq, List.drop_one, List.tail_cons, List.countP_flatMap]
  congr 2
  refine List.map_congr_left fun child _ => ?_
  exact (inDocumentOrder_descendants child).countP_eq Complexity.isBranch

end Focus

end PatchLint
