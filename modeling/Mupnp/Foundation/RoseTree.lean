import Mathlib.Data.List.Basic
import Mathlib.Data.List.Perm.Basic
import Mathlib.Tactic.Common

/-!
# Trees of objects

Finitely branching trees that carry a value at each node, and lists of them. `subtreesIn` lists all
subtrees of a list of trees in the order of a walk that visits a node before its children, and
`preorderIn` their values; a recursive search with early return is `List.find?` on the first.

`pruneIn p` takes the subtrees whose value satisfies `p` out of the lists that hold them, and
`cutIn p` is what was taken out. `cutIn_append_pruneIn_perm` says that together they hold every
value exactly once, and `preorderIn_pruneIn_sublist` that pruning keeps the order of what remains.
-/

set_option autoImplicit false
set_option relaxedAutoImplicit false

namespace Mupnp.Foundation

/-- A tree with a value at each node. -/
inductive RoseTree (α : Type*) where
  | node (value : α) (children : List (RoseTree α))

namespace RoseTree

variable {α : Type*}

/-- The value at the root. -/
def value : RoseTree α → α
  | node value _ => value

/-- The trees below the root. -/
def children : RoseTree α → List (RoseTree α)
  | node _ children => children

@[simp] theorem value_node (value : α) (children : List (RoseTree α)) :
    (node value children).value = value := rfl

@[simp] theorem children_node (value : α) (children : List (RoseTree α)) :
    (node value children).children = children := rfl

/-- Induction over a list of trees: the first tree of a list is taken apart into its children, and
the rest is taken separately. -/
@[elab_as_elim]
theorem forest_induction {motive : List (RoseTree α) → Prop} (nil : motive [])
    (cons : ∀ value children rest, motive children → motive rest →
      motive (node value children :: rest)) (trees : List (RoseTree α)) : motive trees := by
  refine @RoseTree.rec_1 α (fun tree ↦ ∀ rest, motive rest → motive (tree :: rest)) motive
    ?_ nil ?_ trees
  · intro value children hchildren rest hrest
    exact cons value children rest hchildren hrest
  · intro tree rest htree hrest
    exact htree rest hrest

/-- Induction down the first children. -/
@[elab_as_elim]
theorem first_child_induction {motive : RoseTree α → Prop} (leaf : ∀ value, motive (node value []))
    (child : ∀ value first rest, motive first → motive (node value (first :: rest)))
    (tree : RoseTree α) : motive tree := by
  have hfirst : ∀ first rest, [tree] = first :: rest → motive first := by
    induction [tree] using forest_induction with
    | nil => exact fun first rest heq ↦ absurd heq.symm (List.cons_ne_nil _ _)
    | cons value children others hchildren _ =>
      intro first rest heq
      rw [← (List.cons.inj heq).1]
      cases children with
      | nil => exact leaf value
      | cons below children => exact child value below children (hchildren below children rfl)
  exact hfirst tree [] rfl

/-! ### Equality -/

mutual

/-- Decides whether two trees are equal. -/
def decEq [DecidableEq α] : (tree other : RoseTree α) → Decidable (tree = other)
  | .node value children, .node value' children' =>
    match decEqIn children children' with
    | isTrue h =>
      if hvalue : value = value' then isTrue (by rw [h, hvalue])
      else isFalse fun heq ↦ hvalue (node.inj heq).1
    | isFalse h => isFalse fun heq ↦ h (node.inj heq).2

def decEqIn [DecidableEq α] : (trees others : List (RoseTree α)) → Decidable (trees = others)
  | [], [] => isTrue rfl
  | [], _ :: _ => isFalse (List.cons_ne_nil _ _).symm
  | _ :: _, [] => isFalse (List.cons_ne_nil _ _)
  | tree :: rest, other :: others =>
    match decEq tree other with
    | isTrue h =>
      match decEqIn rest others with
      | isTrue hrest => isTrue (by rw [h, hrest])
      | isFalse hrest => isFalse fun heq ↦ hrest (List.cons.inj heq).2
    | isFalse h => isFalse fun heq ↦ h (List.cons.inj heq).1

end

instance [DecidableEq α] : DecidableEq (RoseTree α) := decEq

/-! ### Walks -/

mutual

/-- The subtrees of a tree, the tree itself first. -/
def subtrees : RoseTree α → List (RoseTree α)
  | node value children => node value children :: subtreesIn children

/-- The subtrees of the trees of a list, each tree before the trees below it. -/
def subtreesIn : List (RoseTree α) → List (RoseTree α)
  | [] => []
  | tree :: rest => tree.subtrees ++ subtreesIn rest

end

/-- The values of a list of trees in the order of `subtreesIn`. -/
def preorderIn (trees : List (RoseTree α)) : List α := (subtreesIn trees).map value

/-- The values of a tree, its own first. -/
def preorder (tree : RoseTree α) : List α := preorderIn [tree]

@[simp] theorem subtreesIn_nil : subtreesIn ([] : List (RoseTree α)) = [] := rfl

theorem subtreesIn_singleton (tree : RoseTree α) : subtreesIn [tree] = tree.subtrees := by
  rw [subtreesIn, subtreesIn, List.append_nil]

theorem subtreesIn_cons (tree : RoseTree α) (rest : List (RoseTree α)) :
    subtreesIn (tree :: rest) = tree :: (subtreesIn tree.children ++ subtreesIn rest) := by
  cases tree
  rfl

theorem subtreesIn_append (first second : List (RoseTree α)) :
    subtreesIn (first ++ second) = subtreesIn first ++ subtreesIn second := by
  induction first with
  | nil => rfl
  | cons tree rest ih => simp [subtreesIn_cons, ih]

theorem mem_subtreesIn_of_mem {tree : RoseTree α} {trees : List (RoseTree α)} (h : tree ∈ trees) :
    tree ∈ subtreesIn trees := by
  induction trees with
  | nil => simp at h
  | cons first rest ih =>
    rw [subtreesIn_cons]
    rcases List.mem_cons.mp h with rfl | hrest
    · exact List.mem_cons_self
    · exact List.mem_cons_of_mem _ (List.mem_append_right _ (ih hrest))

theorem subtrees_eq_cons (tree : RoseTree α) :
    tree.subtrees = tree :: subtreesIn tree.children := by
  cases tree
  rfl

/-- The subtrees of a subtree are among the subtrees. -/
theorem subtrees_sublist {tree : RoseTree α} {trees : List (RoseTree α)}
    (h : tree ∈ subtreesIn trees) : tree.subtrees.Sublist (subtreesIn trees) := by
  induction trees using forest_induction with
  | nil => exact absurd h List.not_mem_nil
  | cons value children rest hchildren hrest =>
    rw [subtreesIn_cons] at h ⊢
    rcases List.mem_cons.mp h with rfl | hbelow
    · rw [subtrees_eq_cons]
      exact (List.sublist_append_left _ _).cons_cons _
    · rcases List.mem_append.mp hbelow with hmem | hmem
      · exact ((hchildren hmem).trans (List.sublist_append_left _ _)).cons _
      · exact ((hrest hmem).trans (List.sublist_append_right _ _)).cons _

/-- A tree is larger than what is below it. -/
theorem not_mem_subtreesIn_children (tree : RoseTree α) : tree ∉ subtreesIn tree.children := by
  intro hmem
  have hlength := (subtrees_sublist hmem).length_le
  rw [subtrees_eq_cons, List.length_cons] at hlength
  exact Nat.not_succ_le_self _ hlength

@[simp] theorem preorderIn_nil : preorderIn ([] : List (RoseTree α)) = [] := rfl

theorem preorderIn_cons (tree : RoseTree α) (rest : List (RoseTree α)) :
    preorderIn (tree :: rest) = tree.value :: (preorderIn tree.children ++ preorderIn rest) := by
  simp [preorderIn, subtreesIn_cons]

theorem preorder_eq (tree : RoseTree α) :
    tree.preorder = tree.value :: preorderIn tree.children := by
  simp [preorder, preorderIn_cons]

theorem preorderIn_append (first second : List (RoseTree α)) :
    preorderIn (first ++ second) = preorderIn first ++ preorderIn second := by
  simp [preorderIn, subtreesIn_append]

theorem preorderIn_cons_eq_append (tree : RoseTree α) (rest : List (RoseTree α)) :
    preorderIn (tree :: rest) = tree.preorder ++ preorderIn rest := by
  rw [preorderIn_cons, preorder_eq, List.cons_append]

/-- A value of a list of trees is a value of one of them. -/
theorem mem_preorderIn_iff {a : α} {trees : List (RoseTree α)} :
    a ∈ preorderIn trees ↔ ∃ tree ∈ trees, a ∈ tree.preorder := by
  induction trees with
  | nil => simp
  | cons tree rest ih =>
    rw [preorderIn_cons_eq_append, List.mem_append, ih, List.exists_mem_cons_iff]

/-- A walk that visits a node before the trees below it collects what the nodes give, in the order
of the walk. -/
theorem walkIn_eq_flatMap {β : Type*} {own : α → List β} {walk : RoseTree α → List β}
    {walkIn : List (RoseTree α) → List β}
    (hnode : ∀ value children, walk (node value children) = own value ++ walkIn children)
    (hnil : walkIn [] = []) (hcons : ∀ tree rest, walkIn (tree :: rest) = walk tree ++ walkIn rest)
    (trees : List (RoseTree α)) : walkIn trees = (preorderIn trees).flatMap own := by
  induction trees using forest_induction with
  | nil => exact hnil
  | cons value children rest hchildren hrest =>
    rw [hcons, hnode, hchildren, hrest, preorderIn_cons, value_node, children_node,
      List.flatMap_cons, List.flatMap_append, List.append_assoc]

/-! ### Searching -/

section searching

variable {β : Type*} (items : α → List β) (test : β → Bool)

mutual

/-- The first item that passes a test: the items of a node come before those of the trees below. -/
def search : RoseTree α → Option β
  | node value children =>
    match (items value).find? test with
    | some found => some found
    | none => searchIn children

/-- The first item of the trees of a list that passes a test. -/
def searchIn : List (RoseTree α) → Option β
  | [] => none
  | tree :: rest =>
    match search tree with
    | some found => some found
    | none => searchIn rest

end

/-- A search finds the first item of the walk that passes the test. -/
theorem searchIn_eq_find (trees : List (RoseTree α)) :
    searchIn items test trees = ((preorderIn trees).flatMap items).find? test := by
  induction trees using forest_induction with
  | nil => rfl
  | cons value children rest hchildren hrest =>
    rw [searchIn, search, hchildren, hrest, preorderIn_cons, value_node, children_node,
      List.flatMap_cons, List.flatMap_append, List.find?_append, List.find?_append]
    cases (items value).find? test with
    | some found => rfl
    | none =>
      cases ((preorderIn children).flatMap items).find? test with
      | some found => rfl
      | none => rfl

theorem search_eq_find (tree : RoseTree α) :
    tree.search items test = (tree.preorder.flatMap items).find? test := by
  cases tree with
  | node value children =>
    rw [search, searchIn_eq_find, preorder_eq, value_node, children_node, List.flatMap_cons,
      List.find?_append]
    cases (items value).find? test with
    | some found => rfl
    | none => rfl

end searching

/-! ### Changing every value -/

mutual

/-- Applies a function to the value at every node. -/
def map (f : α → α) : RoseTree α → RoseTree α
  | node value children => node (f value) (mapIn f children)

/-- Applies a function to the value at every node of every tree. -/
def mapIn (f : α → α) : List (RoseTree α) → List (RoseTree α)
  | [] => []
  | tree :: rest => tree.map f :: mapIn f rest

end

@[simp] theorem value_map (f : α → α) (tree : RoseTree α) : (tree.map f).value = f tree.value := by
  cases tree
  rfl

@[simp] theorem children_map (f : α → α) (tree : RoseTree α) :
    (tree.map f).children = mapIn f tree.children := by
  cases tree
  rfl

theorem mapIn_singleton (f : α → α) (tree : RoseTree α) : mapIn f [tree] = [tree.map f] := rfl

theorem mapIn_eq_map (f : α → α) (trees : List (RoseTree α)) :
    mapIn f trees = trees.map (map f) := by
  induction trees with
  | nil => rfl
  | cons tree rest ih => rw [mapIn, List.map_cons, ih]

theorem subtreesIn_mapIn (f : α → α) (trees : List (RoseTree α)) :
    subtreesIn (mapIn f trees) = (subtreesIn trees).map (map f) := by
  induction trees using forest_induction with
  | nil => rfl
  | cons value children rest hchildren hrest =>
    simp only [mapIn, subtreesIn_cons, children_map, children_node, hchildren, hrest,
      List.map_cons, List.map_append]

theorem preorderIn_mapIn (f : α → α) (trees : List (RoseTree α)) :
    preorderIn (mapIn f trees) = (preorderIn trees).map f := by
  induction trees using forest_induction with
  | nil => rfl
  | cons value children rest hchildren hrest =>
    simp only [mapIn, preorderIn_cons, value_map, children_map, value_node, children_node,
      hchildren, hrest, List.map_cons, List.map_append]

/-! ### Relabelling -/

section relabelling

variable {β : Type*}

mutual

/-- Puts another kind of value at every node. -/
def relabel (f : α → β) : RoseTree α → RoseTree β
  | node value children => node (f value) (relabelIn f children)

/-- Puts another kind of value at every node of every tree. -/
def relabelIn (f : α → β) : List (RoseTree α) → List (RoseTree β)
  | [] => []
  | tree :: rest => tree.relabel f :: relabelIn f rest

end

@[simp] theorem value_relabel (f : α → β) (tree : RoseTree α) :
    (tree.relabel f).value = f tree.value := by
  cases tree
  rfl

@[simp] theorem children_relabel (f : α → β) (tree : RoseTree α) :
    (tree.relabel f).children = relabelIn f tree.children := by
  cases tree
  rfl

theorem relabelIn_eq_map (f : α → β) (trees : List (RoseTree α)) :
    relabelIn f trees = trees.map (relabel f) := by
  induction trees with
  | nil => rfl
  | cons tree rest ih => rw [relabelIn, List.map_cons, ih]

theorem preorderIn_relabelIn (f : α → β) (trees : List (RoseTree α)) :
    preorderIn (relabelIn f trees) = (preorderIn trees).map f := by
  induction trees using forest_induction with
  | nil => rfl
  | cons value children rest hchildren hrest =>
    simp only [relabelIn, preorderIn_cons, value_relabel, children_relabel, value_node,
      children_node, hchildren, hrest, List.map_cons, List.map_append]

theorem preorder_relabel (f : α → β) (tree : RoseTree α) :
    (tree.relabel f).preorder = tree.preorder.map f := by
  rw [preorder_eq, preorder_eq, value_relabel, children_relabel, preorderIn_relabelIn,
    List.map_cons]

/-- A change of the values is seen through a relabelling as the relabelling sees it. -/
theorem relabelIn_mapIn {f : α → β} {g : α → α} {g' : β → β} (h : ∀ a, f (g a) = g' (f a))
    (trees : List (RoseTree α)) : relabelIn f (mapIn g trees) = mapIn g' (relabelIn f trees) := by
  induction trees using forest_induction with
  | nil => rfl
  | cons value children rest hchildren hrest =>
    simp only [mapIn, relabelIn, map, relabel, hchildren, hrest, h]

theorem relabel_map {f : α → β} {g : α → α} {g' : β → β} (h : ∀ a, f (g a) = g' (f a))
    (tree : RoseTree α) : (tree.map g).relabel f = (tree.relabel f).map g' := by
  cases tree with
  | node value children => rw [map, relabel, relabel, map, relabelIn_mapIn h, h]

/-- A change of the values that a relabelling does not see. -/
theorem relabelIn_mapIn_of_forall {f : α → β} {g : α → α} (h : ∀ a, f (g a) = f a)
    (trees : List (RoseTree α)) : relabelIn f (mapIn g trees) = relabelIn f trees := by
  induction trees using forest_induction with
  | nil => rfl
  | cons value children rest hchildren hrest =>
    simp only [mapIn, relabelIn, map, relabel, hchildren, hrest, h]

end relabelling

/-! ### Pruning -/

mutual

/-- The tree without the subtrees that are taken out; nothing when it goes itself. -/
def prune (p : α → Bool) : RoseTree α → List (RoseTree α)
  | node value children => if p value then [] else [node value (pruneIn p children)]

/-- Takes the subtrees whose value satisfies `p` out of a list of trees and of the lists below. -/
def pruneIn (p : α → Bool) : List (RoseTree α) → List (RoseTree α)
  | [] => []
  | tree :: rest => tree.prune p ++ pruneIn p rest

end

mutual

/-- The subtrees that `prune` takes out of a tree. -/
def cut (p : α → Bool) : RoseTree α → List (RoseTree α)
  | node value children => if p value then [node value children] else cutIn p children

/-- The subtrees that `pruneIn` takes out of the lists. -/
def cutIn (p : α → Bool) : List (RoseTree α) → List (RoseTree α)
  | [] => []
  | tree :: rest => tree.cut p ++ cutIn p rest

end

@[simp] theorem pruneIn_nil (p : α → Bool) : pruneIn p [] = [] := rfl

theorem pruneIn_cons_of_pos {p : α → Bool} {tree : RoseTree α} (h : p tree.value)
    (rest : List (RoseTree α)) : pruneIn p (tree :: rest) = pruneIn p rest := by
  obtain ⟨value, children⟩ := tree
  have hvalue : p value := h
  simp [pruneIn, prune, hvalue]

theorem pruneIn_cons_of_neg {p : α → Bool} {tree : RoseTree α} (h : ¬ p tree.value)
    (rest : List (RoseTree α)) :
    pruneIn p (tree :: rest) = node tree.value (pruneIn p tree.children) :: pruneIn p rest := by
  obtain ⟨value, children⟩ := tree
  have hvalue : ¬ p value := h
  simp [pruneIn, prune, hvalue]

theorem cutIn_cons_of_pos {p : α → Bool} {tree : RoseTree α} (h : p tree.value)
    (rest : List (RoseTree α)) : cutIn p (tree :: rest) = tree :: cutIn p rest := by
  obtain ⟨value, children⟩ := tree
  have hvalue : p value := h
  simp [cutIn, cut, hvalue]

theorem cutIn_cons_of_neg {p : α → Bool} {tree : RoseTree α} (h : ¬ p tree.value)
    (rest : List (RoseTree α)) :
    cutIn p (tree :: rest) = cutIn p tree.children ++ cutIn p rest := by
  obtain ⟨value, children⟩ := tree
  have hvalue : ¬ p value := h
  simp [cutIn, cut, hvalue]

/-- What is taken out and what is left hold together each value exactly once. -/
theorem cutIn_append_pruneIn_perm (p : α → Bool) (trees : List (RoseTree α)) :
    (preorderIn (cutIn p trees) ++ preorderIn (pruneIn p trees)).Perm (preorderIn trees) := by
  induction trees using forest_induction with
  | nil => exact List.Perm.refl _
  | cons value children rest hchildren hrest =>
    by_cases h : p value
    · rw [cutIn_cons_of_pos (by simpa using h), pruneIn_cons_of_pos (by simpa using h),
        preorderIn_cons_eq_append, preorderIn_cons_eq_append, List.append_assoc]
      exact hrest.append_left _
    · rw [cutIn_cons_of_neg (by simpa using h), pruneIn_cons_of_neg (by simpa using h),
        preorderIn_append, preorderIn_cons, preorderIn_cons]
      simp only [value_node, children_node]
      refine (List.perm_middle).trans (List.Perm.cons _ ?_)
      refine List.Perm.trans ?_ (hchildren.append hrest)
      simp only [List.append_assoc]
      refine List.Perm.append_left _ ?_
      rw [← List.append_assoc, ← List.append_assoc]
      exact (List.perm_append_comm).append_right _

/-- What is left is in the order in which it was. -/
theorem preorderIn_pruneIn_sublist (p : α → Bool) (trees : List (RoseTree α)) :
    (preorderIn (pruneIn p trees)).Sublist (preorderIn trees) := by
  induction trees using forest_induction with
  | nil => exact List.Sublist.refl _
  | cons value children rest hchildren hrest =>
    rw [preorderIn_cons]
    by_cases h : p value
    · rw [pruneIn_cons_of_pos (by simpa using h)]
      exact (hrest.trans (List.sublist_append_right _ _)).cons _
    · rw [pruneIn_cons_of_neg (by simpa using h), preorderIn_cons]
      exact (hchildren.append hrest).cons_cons _

/-- Nothing is taken out when no value satisfies `p`. -/
theorem pruneIn_eq_self {p : α → Bool} {trees : List (RoseTree α)}
    (h : ∀ a ∈ preorderIn trees, ¬ p a) : pruneIn p trees = trees := by
  induction trees using forest_induction with
  | nil => rfl
  | cons value children rest hchildren hrest =>
    simp only [preorderIn_cons, value_node, children_node, List.mem_cons, List.mem_append] at h
    rw [pruneIn_cons_of_neg (h value (Or.inl rfl)), value_node, children_node,
      hchildren fun a ha ↦ h a (Or.inr (Or.inl ha)), hrest fun a ha ↦ h a (Or.inr (Or.inr ha))]

/-- Pruning a list takes out the trees that go and prunes the lists below the ones that stay. -/
theorem pruneIn_eq_map_filter (p : α → Bool) (trees : List (RoseTree α)) :
    pruneIn p trees = (trees.filter fun tree ↦ ¬ p tree.value).map fun tree ↦
      node tree.value (pruneIn p tree.children) := by
  induction trees with
  | nil => rfl
  | cons tree rest ih =>
    by_cases h : p tree.value
    · rw [pruneIn_cons_of_pos h, ih, List.filter_cons_of_neg (by simpa using h)]
    · rw [pruneIn_cons_of_neg h, ih, List.filter_cons_of_pos (by simpa using h), List.map_cons]

/-- The values at the roots that stay are those that do not satisfy `p`. -/
theorem map_value_pruneIn (p : α → Bool) (trees : List (RoseTree α)) :
    (pruneIn p trees).map value = (trees.map value).filter (fun a ↦ ¬ p a) := by
  rw [pruneIn_eq_map_filter, List.map_map, List.filter_map]
  rfl

/-- When nothing below the roots goes, pruning only takes out whole trees. -/
theorem pruneIn_eq_filter {p : α → Bool} {trees : List (RoseTree α)}
    (h : ∀ tree ∈ trees, ¬ p tree.value → ∀ a ∈ preorderIn tree.children, ¬ p a) :
    pruneIn p trees = trees.filter fun tree ↦ ¬ p tree.value := by
  rw [pruneIn_eq_map_filter]
  refine (List.map_congr_left fun tree htree ↦ ?_).trans (List.map_id _)
  obtain ⟨hmem, hstays⟩ := List.mem_filter.mp htree
  have hbelow := h tree hmem (by simpa using hstays)
  rw [pruneIn_eq_self hbelow]
  cases tree
  rfl

end RoseTree

end Mupnp.Foundation
