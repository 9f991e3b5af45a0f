import BlogTutorials.Tree.Basic

/-!
# BlogTutorials — what the two level-order loops compute

* **`levelOrderTraversal_eq_preorder`** — the list-as-queue loop inserts a node's children at the
  front, so its queue is a stack and it lists the tree in preorder. The loop invariant says the
  run from `queue` appends the preorders of the queued nodes (`levelOrderTraversal.loop_eq`).
* **`levelOrderCorrect_eq_levels`** — the deque loop lists the values depth by depth, left to
  right within a depth. A queue of whole levels is processed one level per block of passes
  (`levelOrderCorrect.loop_append`), so induction on the height of the queued forest gives the
  order (`levelOrderCorrect.loop_eq_levels`).
* **`levelOrderTraversal_ne_levelOrderCorrect`** — the two disagree as soon as the root's left child
  has a left child whose value differs from the root's right child's: the stack goes down first,
  the queue across.
-/

namespace BlogTutorials.TreeTraversal

open TreeNode

variable {α : Type}

/-! ## §1 — preorder -/

mutual

theorem preorderNode_append : ∀ (node : TreeNode α) (result : List α),
    preorderNode node result = result ++ preorderNode node []
  | mk value left right, result => by
    rw [preorderNode, preorderNode, preorderTraversal_append right (preorderTraversal left _),
      preorderTraversal_append left (result ++ [value]),
      preorderTraversal_append right (preorderTraversal left ([] ++ [value])),
      preorderTraversal_append left ([] ++ [value])]
    simp

theorem preorderTraversal_append : ∀ (node : Option (TreeNode α)) (result : List α),
    preorderTraversal node result = result ++ preorderTraversal node []
  | none, result => by simp [preorderTraversal]
  | some node, result => by rw [preorderTraversal, preorderTraversal, preorderNode_append]

end

/-- The preorder of a node: its value, then the preorder of each child in turn. -/
theorem preorderNode_nil (node : TreeNode α) :
    preorderNode node [] = node.value :: node.children.flatMap (preorderNode · []) := by
  cases node with
  | mk value left right =>
    rw [preorderNode, preorderTraversal_append right, preorderTraversal_append left]
    cases left <;> cases right <;> simp [preorderTraversal]

/-- **The list-as-queue loop is an explicit-stack preorder.** A run from `queue` appends the
preorder of each queued node, front first. -/
theorem levelOrderTraversal.loop_eq (queue : List (TreeNode α)) (result : List α) :
    levelOrderTraversal.loop queue result = result ++ queue.flatMap (preorderNode · []) := by
  induction queue, result using levelOrderTraversal.loop.induct with
  | case1 result => simp [levelOrderTraversal.loop]
  | case2 node queue result ih =>
    rw [levelOrderTraversal.loop, ih, List.flatMap_cons, preorderNode_nil node]
    simp [children]

/-- **`level_order_traversal` is `preorder_traversal`**, on every tree. -/
theorem levelOrderTraversal_eq_preorder (root : Option (TreeNode α)) :
    levelOrderTraversal root = preorderTraversal root [] := by
  cases root with
  | none => rfl
  | some root => simp [levelOrderTraversal, levelOrderTraversal.loop_eq, preorderTraversal]

example : preorderTraversal (some buildSampleTree) [] = [1, 2, 4, 5, 3, 6] := rfl

/-! ## §2 — level order -/

mutual

/-- The height of a tree: its number of levels. -/
def TreeNode.height : TreeNode α → Nat
  | mk _ left right => 1 + max (optHeight left) (optHeight right)

/-- The height under a child attribute; `0` for `None`. -/
def optHeight : Option (TreeNode α) → Nat
  | none => 0
  | some node => node.height

end

mutual

/-- The values at depth `d` below a node, left to right. -/
def TreeNode.valuesAt : TreeNode α → Nat → List α
  | mk value _ _, 0 => [value]
  | mk _ left right, d + 1 => optValuesAt left d ++ optValuesAt right d

/-- The values at depth `d` below a child attribute; none for `None`. -/
def optValuesAt : Option (TreeNode α) → Nat → List α
  | none, _ => []
  | some node, d => node.valuesAt d

end

/-- The height of a forest: the height of its tallest tree. -/
def queueHeight (queue : List (TreeNode α)) : Nat :=
  (queue.map TreeNode.height).foldr max 0

theorem queueHeight_append (q r : List (TreeNode α)) :
    queueHeight (q ++ r) = max (queueHeight q) (queueHeight r) := by
  induction q with
  | nil => simp [queueHeight]
  | cons node q ih => simp only [queueHeight, List.cons_append, List.map_cons, List.foldr_cons] at ih ⊢; omega

theorem queueHeight_toList (child : Option (TreeNode α)) :
    queueHeight child.toList = optHeight child := by
  cases child <;> simp [queueHeight, optHeight]

theorem height_pos (node : TreeNode α) : 0 < node.height := by
  cases node; simp only [TreeNode.height]; omega

@[simp] theorem queueHeight_cons (node : TreeNode α) (queue : List (TreeNode α)) :
    queueHeight (node :: queue) = max node.height (queueHeight queue) := rfl

theorem queueHeight_children (node : TreeNode α) : queueHeight node.children + 1 = node.height := by
  cases node with
  | mk value left right =>
    simp only [children_mk, queueHeight_append, queueHeight_toList, TreeNode.height]; omega

/-- The children of a forest form a forest one level lower. -/
theorem queueHeight_flatMap_children : ∀ {queue : List (TreeNode α)}, queue ≠ [] →
    queueHeight (queue.flatMap children) + 1 = queueHeight queue
  | [node], _ => by simpa [queueHeight] using queueHeight_children node
  | node :: next :: queue, _ => by
    have ih := queueHeight_flatMap_children (List.cons_ne_nil next queue)
    have hnode := queueHeight_children node
    rw [List.flatMap_cons, queueHeight_append, queueHeight_cons]
    omega

theorem queueHeight_eq_zero {queue : List (TreeNode α)} (h : queueHeight queue = 0) : queue = [] := by
  cases queue with
  | nil => rfl
  | cons node queue =>
    have := height_pos node
    simp [queueHeight] at h; omega

theorem valuesAt_zero (queue : List (TreeNode α)) :
    queue.flatMap (·.valuesAt 0) = queue.map TreeNode.value := by
  induction queue with
  | nil => rfl
  | cons node queue ih => cases node; simp [TreeNode.valuesAt, ih]

/-- The values one level down in a forest are those of its children's forest. -/
theorem valuesAt_succ (queue : List (TreeNode α)) (d : Nat) :
    queue.flatMap (·.valuesAt (d + 1)) = (queue.flatMap children).flatMap (·.valuesAt d) := by
  rw [List.flatMap_assoc]
  congr 1
  funext node
  cases node with
  | mk value left right => cases left <;> cases right <;> simp [TreeNode.valuesAt, optValuesAt]

/-- A block of passes: the deque loop takes the nodes of `q` off the front and puts their
children behind `r`. -/
theorem levelOrderCorrect.loop_append (q r : List (TreeNode α)) (result : List α) :
    levelOrderCorrect.loop (q ++ r) result =
      levelOrderCorrect.loop (r ++ q.flatMap children) (result ++ q.map TreeNode.value) := by
  induction q generalizing r result with
  | nil => simp
  | cons node q ih =>
    rw [List.cons_append, levelOrderCorrect.loop_cons, List.append_assoc, ih]
    simp

/-- **The deque loop run on a forest lists it level by level.** -/
theorem levelOrderCorrect.loop_eq_levels : ∀ (h : Nat) (queue : List (TreeNode α))
    (result : List α), queueHeight queue = h →
    levelOrderCorrect.loop queue result =
      result ++ (List.range h).flatMap fun d => queue.flatMap (·.valuesAt d)
  | 0, queue, result, hh => by
    rw [queueHeight_eq_zero hh]
    simp [levelOrderCorrect.loop]
  | h + 1, queue, result, hh => by
    have hq : queue ≠ [] := by rintro rfl; simp [queueHeight] at hh
    have hc := queueHeight_flatMap_children hq
    have key := levelOrderCorrect.loop_append queue [] result
    rw [List.append_nil, List.nil_append] at key
    rw [key, levelOrderCorrect.loop_eq_levels h _ _ (by omega), List.range_succ_eq_map,
      List.flatMap_cons, List.flatMap_map]
    simp only [valuesAt_succ, valuesAt_zero, List.append_assoc, Nat.succ_eq_add_one]

/-- **`level_order_correct` lists the values depth by depth**, left to right within each depth:
the concatenation over `d = 0, 1, …, height - 1` of the values at depth `d`. -/
theorem levelOrderCorrect_eq_levels (root : Option (TreeNode α)) :
    levelOrderCorrect root = (List.range (optHeight root)).flatMap (optValuesAt root) := by
  cases root with
  | none => rfl
  | some root =>
    rw [levelOrderCorrect, levelOrderCorrect.loop_eq_levels _ [root] [] rfl]
    simp [queueHeight, optHeight, optValuesAt]

example : (List.range (optHeight (some buildSampleTree))).flatMap (optValuesAt (some buildSampleTree)) =
    [1, 2, 3, 4, 5, 6] := rfl

/-! ## §3 — where the two loops part -/

/-- **`level_order_traversal` is not `level_order_correct`.** When the root has a right child
and its left child has a left child of another value, the list-as-queue loop lists that
grandchild third and the deque loop lists the root's right child third. -/
theorem levelOrderTraversal_ne_levelOrderCorrect (a b : α) (grandchild right : TreeNode α)
    (leftRight : Option (TreeNode α)) (h : grandchild.value ≠ right.value) :
    levelOrderTraversal (some (mk a (some (mk b (some grandchild) leftRight)) (some right))) ≠
      levelOrderCorrect (some (mk a (some (mk b (some grandchild) leftRight)) (some right))) := by
  -- three passes of each loop: the stack reaches the grandchild, the queue the right child
  have hstack : ∃ t, levelOrderTraversal
      (some (mk a (some (mk b (some grandchild) leftRight)) (some right))) =
        a :: b :: grandchild.value :: t := by
    simp only [levelOrderTraversal, levelOrderTraversal.loop_cons, children_mk, value_mk,
      Option.toList_some, List.singleton_append, List.cons_append, List.nil_append]
    rw [levelOrderTraversal.loop_eq]
    exact ⟨_, rfl⟩
  have hqueue : ∃ t, levelOrderCorrect
      (some (mk a (some (mk b (some grandchild) leftRight)) (some right))) =
        a :: b :: right.value :: t := by
    simp only [levelOrderCorrect, levelOrderCorrect.loop_cons, children_mk, value_mk,
      Option.toList_some, List.singleton_append, List.cons_append, List.nil_append]
    rw [levelOrderCorrect.loop_eq_levels _ _ _ rfl]
    exact ⟨_, rfl⟩
  obtain ⟨t₁, h₁⟩ := hstack
  obtain ⟨t₂, h₂⟩ := hqueue
  rw [h₁, h₂]
  exact fun heq => h (List.cons.inj (List.cons.inj (List.cons.inj heq).2).2).1

/-- `build_sample_tree()` has that shape: its left child `2` has the left child `4`, its right
child is `3`. -/
theorem levelOrderTraversal_ne_levelOrderCorrect_sample :
    (TreeNode.mk (4 : Int) none none).value ≠ (TreeNode.mk 3 none (some (.mk 6 none none))).value ∧
      levelOrderTraversal (some buildSampleTree) ≠ levelOrderCorrect (some buildSampleTree) :=
  ⟨by decide, levelOrderTraversal_ne_levelOrderCorrect 1 2 (.mk 4 none none)
    (.mk 3 none (some (.mk 6 none none))) (some (.mk 5 none none)) (by decide)⟩

end BlogTutorials.TreeTraversal
