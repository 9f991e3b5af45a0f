import Mathlib.Algebra.BigOperators.Group.List
import Mathlib.Algebra.Order.Ring.Nat

/-!
# BlogTutorials — binary trees and the four traversals

`example3_tree_traversal.py` builds binary trees of `TreeNode`s and walks them four ways. A child
attribute is `None` or another `TreeNode`, so a tree is a `TreeNode` whose children are
`Option (TreeNode α)`, and a root that may be `None` is an `Option (TreeNode α)`. The queues of
the two level-order loops only ever hold nodes (a child is queued only `if node.left:`), which
the type `List (TreeNode α)` says outright.

* `inorderTraversal`, `preorderTraversal` — the recursive traversals, with the shared `result`
  list as an accumulator.
* `levelOrderTraversal` — the list-as-queue loop: `pop(0)`, then `insert(0, right)` and
  `insert(0, left)`. Its step pushes the children on the **front** (`loop_cons`).
* `levelOrderCorrect` — the `deque` loop: `popleft()`, then `append(left)` and `append(right)`.
  Its step pushes them on the **back** (`loop_cons`).

Both loops stop because the nodes left in the queue, counted with all their descendants,
decrease by one per pass (`queueSize`).
-/

namespace BlogTutorials.TreeTraversal

/-- `TreeNode(value, left, right)`. -/
inductive TreeNode (α : Type) where
  | mk (value : α) (left right : Option (TreeNode α))
  deriving Repr

namespace TreeNode
variable {α : Type}

def value : TreeNode α → α
  | mk value _ _ => value

def left : TreeNode α → Option (TreeNode α)
  | mk _ left _ => left

def right : TreeNode α → Option (TreeNode α)
  | mk _ _ right => right

/-- The children a level-order loop queues, left before right. -/
def children (node : TreeNode α) : List (TreeNode α) :=
  node.left.toList ++ node.right.toList

mutual

/-- The number of nodes in a tree. -/
def size : TreeNode α → Nat
  | mk _ left right => 1 + optSize left + optSize right

/-- The number of nodes under a child attribute. -/
def optSize : Option (TreeNode α) → Nat
  | none => 0
  | some node => size node

end

@[simp] theorem value_mk (value : α) (left right : Option (TreeNode α)) :
    (mk value left right).value = value := rfl

@[simp] theorem children_mk (value : α) (left right : Option (TreeNode α)) :
    (mk value left right).children = left.toList ++ right.toList := rfl

end TreeNode

open TreeNode

variable {α : Type}

/-- The nodes still to visit, counted with their descendants. -/
def queueSize (queue : List (TreeNode α)) : Nat :=
  (queue.map size).sum

theorem queueSize_toList (child : Option (TreeNode α)) : queueSize child.toList = optSize child := by
  cases child <;> simp [queueSize, optSize]

theorem queueSize_children (node : TreeNode α) : queueSize node.children + 1 = size node := by
  cases node with
  | mk value left right =>
    have hl := queueSize_toList left
    have hr := queueSize_toList right
    simp only [queueSize, List.map_append, List.sum_append] at hl hr ⊢
    simp only [children_mk, List.map_append, List.sum_append, size, hl, hr]
    omega

theorem queueSize_append (q r : List (TreeNode α)) :
    queueSize (q ++ r) = queueSize q + queueSize r := by
  simp [queueSize]

@[simp] theorem queueSize_cons (node : TreeNode α) (q : List (TreeNode α)) :
    queueSize (node :: q) = size node + queueSize q := by
  simp [queueSize]

/-! ## The sample tree -/

/-- `build_sample_tree()`:
```
       1
      / \
     2   3
    / \   \
   4   5   6
``` -/
def buildSampleTree : TreeNode Int :=
  .mk 1 (some (.mk 2 (some (.mk 4 none none)) (some (.mk 5 none none))))
    (some (.mk 3 none (some (.mk 6 none none))))

/-! ## The recursive traversals -/

mutual

/-- `inorder_traversal` on a node: left subtree, the node, right subtree. -/
def inorderNode : TreeNode α → List α → List α
  | mk value left right, result => inorderTraversal right (inorderTraversal left result ++ [value])

/-- `inorder_traversal(node, result)`: nothing to add when `node` is `None`. -/
def inorderTraversal : Option (TreeNode α) → List α → List α
  | none, result => result
  | some node, result => inorderNode node result

end

mutual

/-- `preorder_traversal` on a node: the node, left subtree, right subtree. -/
def preorderNode : TreeNode α → List α → List α
  | mk value left right, result => preorderTraversal right (preorderTraversal left (result ++ [value]))

/-- `preorder_traversal(node, result)`: nothing to add when `node` is `None`. -/
def preorderTraversal : Option (TreeNode α) → List α → List α
  | none, result => result
  | some node, result => preorderNode node result

end

/-! ## The level-order loops -/

/-- `if child: queue.insert(0, child)`. -/
def insertFront (child : Option (TreeNode α)) (queue : List (TreeNode α)) : List (TreeNode α) :=
  match child with
  | some child => child :: queue
  | none => queue

/-- `if child: queue.append(child)`. -/
def appendBack (queue : List (TreeNode α)) (child : Option (TreeNode α)) : List (TreeNode α) :=
  match child with
  | some child => queue ++ [child]
  | none => queue

@[simp] theorem insertFront_eq (child : Option (TreeNode α)) (queue : List (TreeNode α)) :
    insertFront child queue = child.toList ++ queue := by
  cases child <;> rfl

@[simp] theorem appendBack_eq (queue : List (TreeNode α)) (child : Option (TreeNode α)) :
    appendBack queue child = queue ++ child.toList := by
  cases child <;> simp [appendBack]

/-- `level_order_traversal(root)`. -/
def levelOrderTraversal (root : Option (TreeNode α)) : List α :=
  match root with
  | none => []
  | some root => loop [root] []
where
  /-- `while queue:` pop the front node, record its value, then insert its right child and its
  left child at the front. -/
  loop : List (TreeNode α) → List α → List α
    | [], result => result
    | node :: queue, result =>
      loop (insertFront node.left (insertFront node.right queue)) (result ++ [node.value])
  termination_by queue => queueSize queue
  decreasing_by
    have := queueSize_children node
    simp only [insertFront_eq, queueSize_append, queueSize_cons, children, queueSize_toList,
      List.append_assoc] at this ⊢
    omega

/-- `level_order_correct(root)`. -/
def levelOrderCorrect (root : Option (TreeNode α)) : List α :=
  match root with
  | none => []
  | some root => loop [root] []
where
  /-- `while queue:` take the front node off the deque, record its value, then append its left
  child and its right child at the back. -/
  loop : List (TreeNode α) → List α → List α
    | [], result => result
    | node :: queue, result =>
      loop (appendBack (appendBack queue node.left) node.right) (result ++ [node.value])
  termination_by queue => queueSize queue
  decreasing_by
    have := queueSize_children node
    simp only [appendBack_eq, queueSize_append, queueSize_cons, children, queueSize_toList,
      List.append_assoc] at this ⊢
    omega

/-! ## One pass of each loop -/

/-- The list-as-queue loop pushes the children on the front: it is a stack. -/
theorem levelOrderTraversal.loop_cons (node : TreeNode α) (queue : List (TreeNode α))
    (result : List α) :
    levelOrderTraversal.loop (node :: queue) result =
      levelOrderTraversal.loop (node.children ++ queue) (result ++ [node.value]) := by
  rw [levelOrderTraversal.loop]
  simp [children]

/-- The deque loop pushes the children on the back: it is a queue. -/
theorem levelOrderCorrect.loop_cons (node : TreeNode α) (queue : List (TreeNode α))
    (result : List α) :
    levelOrderCorrect.loop (node :: queue) result =
      levelOrderCorrect.loop (queue ++ node.children) (result ++ [node.value]) := by
  rw [levelOrderCorrect.loop]
  simp [children]

end BlogTutorials.TreeTraversal
