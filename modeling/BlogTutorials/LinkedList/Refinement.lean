import BlogTutorials.LinkedList.Chain
import Mathlib.Data.List.Nodup

/-!
# BlogTutorials — the linked list against the Python list it stands for

The abstract model is a Python list: `append(v)` is `xs + [v]`, `remove(v)` deletes the first
`v` and answers whether there was one (`Model.call`). The pointer structure refines it:

* **`Represents ll xs extra`** — the chain from `head` is acyclic and holds `xs`, and `size`
  exceeds `len(xs)` by `extra`.
* **`append_represents`, `remove_represents`** — the step lemmas: from a state standing for
  `xs`, each call returns what the model returns and leaves a state standing for the model's
  new list. `remove` at the head moves `head` and returns before `self.size -= 1`, so there the
  overcount grows by one.
* **`run_represents`** — the run lemma, by induction on the calls; `LinkedList()` stands for
  `[]` with no overcount.
-/

namespace BlogTutorials.LinkedListExample

variable {α : Type}

/-! ## §1 — the abstract list -/

namespace Model

variable [DecidableEq α]

/-- What a call does to the Python list. -/
def call (xs : List α) : Op α → Option Bool × List α
  | .append value => (none, xs ++ [value])
  | .remove value => (some (decide (value ∈ xs)), xs.erase value)

/-- Calls in sequence, collecting what each returns. -/
def run (xs : List α) : List (Op α) → List (Option Bool) × List α
  | [] => ([], xs)
  | op :: ops =>
    let step := call xs op
    let rest := run step.2 ops
    (step.1 :: rest.1, rest.2)

/-- Whether a call removes the value at the front of the list. -/
def removesHead (xs : List α) : Op α → Bool
  | .append _ => false
  | .remove value => xs.head? = some value

/-- How many of the calls remove the value at the front. -/
def headRemovals (xs : List α) : List (Op α) → Nat
  | [] => 0
  | op :: ops => (if removesHead xs op then 1 else 0) + headRemovals (call xs op).2 ops

end Model

/-! ## §2 — the representation -/

/-- `ll` stands for the Python list `xs`: the chain from `head` is acyclic and holds `xs`, and
`size` overcounts it by `extra`. -/
structure Represents (ll : LinkedList α) (xs : List α) (extra : Nat) : Prop where
  chain : ∃ cells, Chain ll.heap ll.head cells ∧ cells.map Prod.snd = xs
  size : ll.size = xs.length + extra

theorem empty_represents : Represents (LinkedList.empty : LinkedList α) [] 0 :=
  ⟨⟨[], ⟨.nil none, List.nodup_nil⟩, rfl⟩, rfl⟩

/-- `to_list` reads back the list a state stands for. -/
theorem toList_of_represents {ll : LinkedList α} {xs : List α} {extra : Nat}
    (h : Represents ll xs extra) : ll.toList = some xs := by
  obtain ⟨cells, hchain, rfl⟩ := h.chain
  exact toListLoop_of_seg [] hchain.seg hchain.length_le

/-! ## §3 — `append` -/

/-- **`append` adds the value at the end**, keeping the chain acyclic. -/
theorem append_represents {ll : LinkedList α} {xs : List α} {extra : Nat}
    (h : Represents ll xs extra) (value : α) :
    ∃ ll', ll.append value = some ll' ∧ Represents ll' (xs ++ [value]) extra := by
  obtain ⟨cells, hchain, rfl⟩ := h.chain
  set heap₁ := ll.heap ++ [⟨value, none⟩] with hheap₁
  have hlt := hchain.seg.lt_length
  -- `Node(value)` is allocated past every node of the chain
  have hnew : Seg heap₁ (some ll.heap.length) [(ll.heap.length, value)] none :=
    Seg.single_iff.2 (by simp [heap₁])
  have hframe : Seg heap₁ ll.head cells none :=
    hchain.seg.frame fun a ha => List.getElem?_append_left (hlt a ha)
  have hnodup : ((cells ++ [(ll.heap.length, value)]).map Prod.fst).Nodup := by
    rw [List.map_append]
    exact hchain.nodup.append (List.nodup_singleton _)
      (List.disjoint_singleton.2 fun ha => lt_irrefl _ (hlt _ ha))
  have hsize : ll.size + 1 = (cells.map Prod.snd ++ [value]).length + extra := by
    rw [h.size]; simp; omega
  cases hhead : ll.head with
  | none =>
    -- the new node becomes the head
    obtain rfl := (hhead ▸ hframe).eq_nil_of_none
    exact ⟨⟨heap₁, some ll.heap.length, ll.size + 1⟩, by simp [LinkedList.append, hhead, heap₁],
      ⟨_, ⟨hnew, hnodup⟩, rfl⟩, hsize⟩
  | some head =>
    -- the walk stops at the last node, and its `next` is pointed at the new node
    rw [hhead] at hframe
    obtain ⟨init, ⟨last, lastValue⟩, hcells⟩ :=
      (List.eq_nil_or_concat cells).resolve_left (by rintro rfl; cases hframe)
    rw [List.concat_eq_append] at hcells
    subst hcells
    obtain ⟨link, hinit, hlastSeg⟩ := hframe.split
    obtain ⟨rfl, _, hlast, hend⟩ := hlastSeg.cons_inv
    cases hend
    have hwalk : LinkedList.lastNode heap₁ heap₁.length head = some last :=
      lastNode_of_seg hframe (by have := hchain.length_le; simp [heap₁] at this ⊢; omega)
    refine ⟨⟨setNext heap₁ last (some ll.heap.length), ll.head, ll.size + 1⟩, ?_,
      ⟨_, ⟨hhead ▸ hinit.relink hlast hnew hnodup, hnodup⟩, List.map_append ..⟩, hsize⟩
    simp only [LinkedList.append, hhead, hwalk, Option.some_bind]; rfl

/-! ## §4 — `remove` -/

section Remove

variable [DecidableEq α]

/-- The first node holding `value`, and the nodes before it. -/
theorem exists_first {cells : List (Nat × α)} {value : α} (h : value ∈ cells.map Prod.snd) :
    ∃ pre addr post, cells = pre ++ (addr, value) :: post ∧ value ∉ pre.map Prod.snd := by
  induction cells with
  | nil => exact absurd h (List.not_mem_nil _)
  | cons cell cells ih =>
    by_cases hc : cell.2 = value
    · subst hc; exact ⟨[], cell.1, cells, rfl, List.not_mem_nil _⟩
    · obtain ⟨pre, addr, post, rfl, hpre⟩ := ih ((List.mem_cons.1 h).resolve_left (Ne.symm hc))
      exact ⟨cell :: pre, addr, post, rfl, fun h => (List.mem_cons.1 h).elim (Ne.symm hc) hpre⟩

/-- **`remove` deletes the first occurrence and says whether there was one.** At the head it
returns before `self.size -= 1`, so the overcount grows by one. -/
theorem remove_represents {ll : LinkedList α} {xs : List α} {extra : Nat}
    (h : Represents ll xs extra) (value : α) :
    ∃ ll', ll.remove value = some (decide (value ∈ xs), ll') ∧
      Represents ll' (xs.erase value) (extra + if xs.head? = some value then 1 else 0) := by
  obtain ⟨cells, hchain, rfl⟩ := h.chain
  have hfuel := hchain.length_le
  by_cases hmem : value ∈ cells.map Prod.snd
  case neg =>
    -- not there: the loop runs off the end
    have hhd : (cells.map Prod.snd).head? ≠ some value := fun h => hmem (List.mem_of_mem_head? h)
    refine ⟨ll, ?_, ⟨⟨cells, hchain, (List.erase_of_not_mem hmem).symm⟩, ?_⟩⟩
    · rw [remove_eq_removeLoop, decide_eq_false hmem]
      exact removeLoop_of_not_mem ll none _ hchain.seg hmem (by omega)
    · rw [if_neg hhd, List.erase_of_not_mem hmem, h.size]; rfl
  obtain ⟨pre, addr, post, rfl, hpre⟩ := exists_first hmem
  obtain ⟨link, hpreSeg, hrest⟩ := hchain.seg.split
  obtain ⟨rfl, next, hnode, hpost⟩ := hrest.cons_inv
  have hloop := removeLoop_of_found ll hnode none (ll.heap.length + 1) hpreSeg hpre
    (by simp at hfuel; omega)
  rw [← remove_eq_removeLoop] at hloop
  have herase : ((pre ++ (addr, value) :: post).map Prod.snd).erase value =
      (pre ++ post).map Prod.snd := by
    simp only [List.map_append, List.map_cons]
    rw [List.erase_append_right _ hpre, List.erase_cons_head]
  rw [decide_eq_true hmem, herase]
  rcases List.eq_nil_or_concat pre with rfl | ⟨pre₀, ⟨p, vp⟩, hpre₀⟩
  · -- at the head: `self.head = current.next`, and `size` stays
    refine ⟨⟨ll.heap, next, ll.size⟩, hloop,
      ⟨⟨post, ⟨hpost, (List.nodup_cons.1 hchain.nodup).2⟩, rfl⟩, ?_⟩⟩
    rw [h.size]; simp; omega
  · -- further on: `previous.next = current.next; self.size -= 1`
    rw [List.concat_eq_append] at hpre₀
    subst hpre₀
    obtain ⟨link₀, hpre₀Seg, hpSeg⟩ := hpreSeg.split
    obtain ⟨rfl, _, hp, hend⟩ := hpSeg.cons_inv
    cases hend
    have hnodup : ((pre₀ ++ [(p, vp)] ++ post).map Prod.fst).Nodup := by
      refine hchain.nodup.sublist ?_
      simp only [List.map_append, List.map_cons]
      exact (List.sublist_cons_self _ _).append_left _
    have hhd : ((pre₀ ++ [(p, vp)] ++ (addr, value) :: post).map Prod.snd).head? ≠ some value := by
      rw [List.map_append, List.head?_append_of_ne_nil _ (by simp)]
      exact fun h => hpre (List.mem_of_mem_head? h)
    rw [previousAfter_concat] at hloop
    refine ⟨_, hloop, ⟨⟨_, ⟨hpre₀Seg.relink hp hpost hnodup, hnodup⟩, rfl⟩, ?_⟩⟩
    rw [if_neg hhd, h.size]; simp; omega

end Remove

/-! ## §5 — runs -/

section Run

variable [DecidableEq α]

theorem call_represents {ll : LinkedList α} {xs : List α} {extra : Nat}
    (h : Represents ll xs extra) (op : Op α) :
    ∃ ll', ll.call op = some ((Model.call xs op).1, ll') ∧
      Represents ll' (Model.call xs op).2 (extra + if Model.removesHead xs op then 1 else 0) := by
  cases op with
  | append value =>
    obtain ⟨ll', happ, hrep⟩ := append_represents h value
    exact ⟨ll', by simp [LinkedList.call, happ, Model.call],
      by simpa [Model.call, Model.removesHead] using hrep⟩
  | remove value =>
    obtain ⟨ll', hrem, hrep⟩ := remove_represents h value
    exact ⟨ll', by simp [LinkedList.call, hrem, Model.call],
      by simpa [Model.call, Model.removesHead] using hrep⟩

/-- **The run lemma.** From a state standing for `xs`, any calls return what the Python list
returns and leave a state standing for the list it reaches, with one more unit of overcount
for every call that removes the value at the front. -/
theorem run_represents : ∀ (ops : List (Op α)) {ll : LinkedList α} {xs : List α} {extra : Nat},
    Represents ll xs extra → ∃ ll', ll.run ops = some ((Model.run xs ops).1, ll') ∧
      Represents ll' (Model.run xs ops).2 (extra + Model.headRemovals xs ops)
  | [], ll, _, _, h => ⟨ll, rfl, by simpa [Model.headRemovals] using h⟩
  | op :: ops, _, _, _, h => by
    obtain ⟨ll₁, hcall, h₁⟩ := call_represents h op
    obtain ⟨ll₂, hrun, h₂⟩ := run_represents ops h₁
    refine ⟨ll₂, by simp [LinkedList.run, hcall, hrun, Model.run], ?_⟩
    simpa [Model.headRemovals, Nat.add_assoc] using h₂

/-- **`LinkedList` implements a Python list.** From `LinkedList()`, after any `append` and
`remove` calls, the chain from `head` is finite and acyclic, `to_list()` returns the list the
same calls make of `[]`, and every `remove(v)` has returned whether `v` was there. -/
theorem run_refines_list (ops : List (Op α)) :
    ∃ ll, LinkedList.empty.run ops = some ((Model.run [] ops).1, ll) ∧
      (∃ cells, Chain ll.heap ll.head cells) ∧ ll.toList = some (Model.run [] ops).2 := by
  obtain ⟨ll, hrun, h⟩ := run_represents ops empty_represents
  obtain ⟨cells, hchain, -⟩ := h.chain
  exact ⟨ll, hrun, ⟨cells, hchain⟩, toList_of_represents h⟩

/-- **`len(ll)` drifts from `len(ll.to_list())`.** It exceeds it by exactly the number of calls
that removed the value at the head, so as soon as one has, the two differ. -/
theorem run_len_ne_length (ops : List (Op α)) (hhead : 0 < Model.headRemovals [] ops) :
    ∃ ll xs, LinkedList.empty.run ops = some ((Model.run [] ops).1, ll) ∧ ll.toList = some xs ∧
      ll.len = xs.length + Model.headRemovals [] ops ∧ ll.len ≠ xs.length := by
  obtain ⟨ll, hrun, h⟩ := run_represents ops empty_represents
  refine ⟨ll, _, hrun, toList_of_represents h, ?_, ?_⟩
  · simpa [LinkedList.len] using h.size
  · rw [LinkedList.len, h.size]; omega

/-- **`len(ll)` never undercounts, and is exact until a head removal.** After any calls from
`LinkedList()`, `len(ll)` is at least `len(ll.to_list())`, and equal to it exactly when none of
the calls removed the value at the head. -/
theorem run_len_eq_length_iff (ops : List (Op α)) :
    ∃ ll xs, LinkedList.empty.run ops = some ((Model.run [] ops).1, ll) ∧ ll.toList = some xs ∧
      (xs.length : Int) ≤ ll.len ∧ (ll.len = xs.length ↔ Model.headRemovals [] ops = 0) := by
  obtain ⟨ll, hrun, h⟩ := run_represents ops empty_represents
  have hsize := h.size
  refine ⟨ll, _, hrun, toList_of_represents h, ?_, ?_⟩ <;> rw [LinkedList.len, hsize] <;> omega

/-- `append(1)` then `remove(1)`: `size` is `1`, `to_list()` is `[]`. -/
theorem run_len_after_head_removal :
    0 < Model.headRemovals [] [Op.append (1 : Int), .remove 1] ∧
      ∃ ll xs, LinkedList.empty.run [Op.append (1 : Int), .remove 1] =
          some ((Model.run [] [Op.append (1 : Int), .remove 1]).1, ll) ∧ ll.toList = some xs ∧
        ll.len = xs.length + Model.headRemovals [] [Op.append (1 : Int), .remove 1] ∧
        ll.len ≠ xs.length :=
  ⟨by decide, run_len_ne_length _ (by decide)⟩

example : (LinkedList.empty.run [Op.append (1 : Int), .remove 1]).map
    (fun result => (result.1, result.2.len, result.2.toList)) = some ([none, some true], 1, some []) := by
  decide

end Run

end BlogTutorials.LinkedListExample
