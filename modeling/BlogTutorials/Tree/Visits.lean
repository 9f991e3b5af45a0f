import BlogTutorials.Tree.LevelOrder

/-!
# BlogTutorials — every traversal visits each node once

`inorder_traversal` and `preorder_traversal` thread one `result` list through their recursive
calls, and the two level-order loops thread theirs through their passes. Each appends one value
per node it reaches; none reaches a node twice or misses one.

* **`inorderTraversal_append`** — the shared `result` list only grows at its end: a call appends
  the inorder of its subtree to whatever the list held (`preorderTraversal_append` says the same
  of preorder).
* **`levelOrderCorrect.loop_perm`** — the deque loop's invariant up to order: a run from `queue`
  appends the values of the queued trees, each once.
* **`traversals_perm`** — inorder, preorder and the deque loop list the same values, each as
  often, and as many as the tree has nodes. The list-as-queue loop is preorder itself
  (`levelOrderTraversal.loop_eq`).
-/

namespace BlogTutorials.TreeTraversal

open TreeNode

variable {α : Type}

/-! ## §1 — inorder -/

mutual

theorem inorderNode_append : ∀ (node : TreeNode α) (result : List α),
    inorderNode node result = result ++ inorderNode node []
  | mk value left right, result => by
    rw [inorderNode, inorderNode, inorderTraversal_append right (inorderTraversal left result ++ _),
      inorderTraversal_append left result,
      inorderTraversal_append right (inorderTraversal left [] ++ _)]
    simp

theorem inorderTraversal_append : ∀ (node : Option (TreeNode α)) (result : List α),
    inorderTraversal node result = result ++ inorderTraversal node []
  | none, result => by simp [inorderTraversal]
  | some node, result => by rw [inorderTraversal, inorderTraversal, inorderNode_append]

end

/-- The inorder of a node: its left subtree, its value, its right subtree. -/
theorem inorderNode_nil (value : α) (left right : Option (TreeNode α)) :
    inorderNode (mk value left right) [] =
      inorderTraversal left [] ++ value :: inorderTraversal right [] := by
  rw [inorderNode, inorderTraversal_append right]
  simp

example : inorderTraversal (some buildSampleTree) [] = [4, 2, 5, 1, 3, 6] := rfl

/-! ## §2 — each node once -/

mutual

theorem length_preorderNode : ∀ node : TreeNode α, (preorderNode node []).length = node.size
  | mk value left right => by
    rw [preorderNode, preorderTraversal_append right, preorderTraversal_append left]
    simp only [List.length_append, List.nil_append, List.length_singleton, size,
      length_preorderTraversal left, length_preorderTraversal right]

theorem length_preorderTraversal : ∀ node : Option (TreeNode α),
    (preorderTraversal node []).length = optSize node
  | none => rfl
  | some node => by rw [preorderTraversal, optSize, length_preorderNode]

end

mutual

theorem inorderNode_perm : ∀ node : TreeNode α, (inorderNode node []).Perm (preorderNode node [])
  | mk value left right => by
    rw [inorderNode_nil, preorderNode, preorderTraversal_append right,
      preorderTraversal_append left]
    -- `left, value, right` against `value, left, right`
    simpa using List.perm_middle.trans
      (((inorderTraversal_perm left).append (inorderTraversal_perm right)).cons value)

theorem inorderTraversal_perm : ∀ node : Option (TreeNode α),
    (inorderTraversal node []).Perm (preorderTraversal node [])
  | none => .refl _
  | some node => by rw [inorderTraversal, preorderTraversal]; exact inorderNode_perm node

end

/-- **The deque loop visits each queued node once.** Up to order, a run from `queue` appends the
preorder of every queued tree. -/
theorem levelOrderCorrect.loop_perm (queue : List (TreeNode α)) (result : List α) :
    (levelOrderCorrect.loop queue result).Perm (result ++ queue.flatMap (preorderNode · [])) := by
  induction queue, result using levelOrderCorrect.loop.induct with
  | case1 result => simp [levelOrderCorrect.loop]
  | case2 node queue result ih =>
    rw [levelOrderCorrect.loop]
    refine ih.trans ?_
    -- the children go behind the rest of the queue instead of right after their parent
    rw [List.flatMap_cons, preorderNode_nil node]
    have hswap : (queue.flatMap (preorderNode · []) ++
        node.children.flatMap (preorderNode · [])).Perm
          (node.children.flatMap (preorderNode · []) ++ queue.flatMap (preorderNode · [])) :=
      List.perm_append_comm
    simpa [children, List.append_assoc] using (hswap.cons node.value).append_left result

/-- **Every traversal lists every node exactly once.** `inorder_traversal` and
`level_order_correct` list the values `preorder_traversal` lists, each as often, in their own
order; and preorder lists one value per node. -/
theorem traversals_perm (root : Option (TreeNode α)) :
    (inorderTraversal root []).Perm (preorderTraversal root []) ∧
      (levelOrderCorrect root).Perm (preorderTraversal root []) ∧
      (preorderTraversal root []).length = optSize root := by
  refine ⟨inorderTraversal_perm root, ?_, length_preorderTraversal root⟩
  cases root with
  | none => exact .refl _
  | some root =>
    simpa [levelOrderCorrect, preorderTraversal] using levelOrderCorrect.loop_perm [root] []

end BlogTutorials.TreeTraversal
