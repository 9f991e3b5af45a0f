import BlogTutorials.LinkedList.Basic
import Mathlib.Data.List.Perm.Subperm
import Mathlib.Data.List.Nodup

/-!
# BlogTutorials — node chains in the heap, and the three walks along them

* **`Seg heap link cells link'`** — following `next` from `link` passes the nodes `cells`
  (address and value) and arrives at `link'`. Segments compose (`Seg.append`) and split
  (`Seg.split`), and survive any heap write away from their nodes (`Seg.frame`). Setting the
  `next` of one node of a list splices in whatever segment starts at the new target
  (`Seg.relink`): that is how both `append` and `remove` change the chain.
* **`Chain heap head cells`** — the list proper: a segment from `head` to `None` whose
  addresses are distinct. It has at most as many nodes as the heap (`Chain.length_le`), which
  is what makes the walks' fuel enough.
* One lemma per walk, each by induction on the segment: `to_list` collects the values
  (`toListLoop_of_seg`), `append`'s walk stops at the last node (`lastNode_of_seg`), and
  `remove`'s loop stops at the first node holding the value, or runs off the end
  (`removeLoop_of_found`, `removeLoop_of_not_mem`).
-/

namespace BlogTutorials.LinkedListExample

variable {α : Type}

/-- Following `next` from `link` passes the nodes at the addresses of `cells`, holding their
values, and arrives at `link'`. -/
inductive Seg (heap : List (Node α)) : Option Nat → List (Nat × α) → Option Nat → Prop where
  | nil (link : Option Nat) : Seg heap link [] link
  | cons {addr : Nat} {value : α} {next : Option Nat} {cells : List (Nat × α)}
      {link' : Option Nat} (h : heap[addr]? = some ⟨value, next⟩) (rest : Seg heap next cells link') :
      Seg heap (some addr) ((addr, value) :: cells) link'

/-- The list from `head`: a segment to `None` that never visits a node twice. -/
structure Chain (heap : List (Node α)) (head : Option Nat) (cells : List (Nat × α)) : Prop where
  seg : Seg heap head cells none
  nodup : (cells.map Prod.fst).Nodup

namespace Seg

variable {heap : List (Node α)}

theorem append {link link₁ link₂ : Option Nat} {c₁ c₂ : List (Nat × α)}
    (h₁ : Seg heap link c₁ link₁) (h₂ : Seg heap link₁ c₂ link₂) : Seg heap link (c₁ ++ c₂) link₂ := by
  induction h₁ with
  | nil => exact h₂
  | cons h _ ih => exact .cons h (ih h₂)

theorem split {link link₂ : Option Nat} {c₁ c₂ : List (Nat × α)}
    (h : Seg heap link (c₁ ++ c₂) link₂) : ∃ link₁, Seg heap link c₁ link₁ ∧ Seg heap link₁ c₂ link₂ := by
  induction c₁ generalizing link with
  | nil => exact ⟨link, .nil link, h⟩
  | cons cell c₁ ih =>
    cases h with
    | cons hnode rest =>
      obtain ⟨link₁, h₁, h₂⟩ := ih rest
      exact ⟨link₁, .cons hnode h₁, h₂⟩

theorem single_iff {addr : Nat} {value : α} {link' : Option Nat} :
    Seg heap (some addr) [(addr, value)] link' ↔ heap[addr]? = some ⟨value, link'⟩ := by
  constructor
  · rintro (_ | ⟨h, rest⟩)
    cases rest
    exact h
  · exact fun h => .cons h (.nil _)

/-- **Frame.** A segment only reads the nodes it passes. -/
theorem frame {heap' : List (Node α)} {link link' : Option Nat} {cells : List (Nat × α)}
    (h : Seg heap link cells link') (hf : ∀ a ∈ cells.map Prod.fst, heap'[a]? = heap[a]?) :
    Seg heap' link cells link' := by
  induction h with
  | nil => exact .nil _
  | cons hnode _ ih =>
    simp only [List.map_cons, List.mem_cons, forall_eq_or_imp] at hf
    exact .cons (hf.1.trans hnode) (ih hf.2)

/-- The first node of a segment is where it starts. -/
theorem cons_inv {link link' : Option Nat} {addr : Nat} {value : α} {cells : List (Nat × α)}
    (h : Seg heap link ((addr, value) :: cells) link') :
    link = some addr ∧ ∃ next, heap[addr]? = some ⟨value, next⟩ ∧ Seg heap next cells link' := by
  cases h with
  | cons hnode rest => exact ⟨rfl, _, hnode, rest⟩

theorem lt_length {link link' : Option Nat} {cells : List (Nat × α)}
    (h : Seg heap link cells link') : ∀ a ∈ cells.map Prod.fst, a < heap.length := by
  induction h with
  | nil => simp
  | cons hnode _ ih =>
    simp only [List.map_cons, List.mem_cons, forall_eq_or_imp]
    exact ⟨(List.getElem?_eq_some_iff.1 hnode).1, ih⟩

theorem eq_nil_of_none {link' : Option Nat} {cells : List (Nat × α)}
    (h : Seg heap none cells link') : cells = [] := by
  cases h; rfl

/-- **Relinking.** Pointing the `next` of the node at `p` to the start of another segment joins
the nodes before it, it, and that segment, as long as `p` is none of their other nodes. -/
theorem relink {link next next' link' : Option Nat} {p : Nat} {vp : α} {pre post : List (Nat × α)}
    (hpre : Seg heap link pre (some p)) (hp : heap[p]? = some ⟨vp, next⟩)
    (hpost : Seg heap next' post link') (hnodup : ((pre ++ [(p, vp)] ++ post).map Prod.fst).Nodup) :
    Seg (setNext heap p next') link (pre ++ [(p, vp)] ++ post) link' := by
  simp only [List.map_append, List.map_cons, List.map_nil, List.append_assoc,
    List.singleton_append] at hnodup
  have hother : ∀ a ∈ pre.map Prod.fst ++ post.map Prod.fst, (setNext heap p next')[a]? = heap[a]? :=
    fun a ha => by
      rw [getElem?_setNext, if_neg]
      rintro rfl; exact (List.nodup_cons.1 (List.nodup_middle.1 hnodup)).1 ha
  rw [List.append_assoc, List.singleton_append]
  refine (hpre.frame fun a ha => hother a (List.mem_append_left _ ha)).append
    (.cons ?_ (hpost.frame fun a ha => hother a (List.mem_append_right _ ha)))
  rw [getElem?_setNext, if_pos rfl, hp]; rfl

end Seg

/-- A list has no more nodes than the heap. -/
theorem Chain.length_le {heap : List (Node α)} {head : Option Nat} {cells : List (Nat × α)}
    (h : Chain heap head cells) : cells.length ≤ heap.length := by
  have hsub : (cells.map Prod.fst).Subperm (List.range heap.length) :=
    List.subperm_of_subset h.nodup fun a ha => List.mem_range.2 (h.seg.lt_length a ha)
  simpa using hsub.length_le

/-! ## The walks -/

variable {heap : List (Node α)}

/-- **`to_list` collects the values along the chain.** -/
theorem toListLoop_of_seg {cells : List (Nat × α)} :
    ∀ {link fuel} (result : List α), Seg heap link cells none → cells.length ≤ fuel →
      LinkedList.toListLoop heap fuel link result = some (result ++ cells.map Prod.snd) := by
  induction cells with
  | nil =>
    intro link fuel result h _
    cases h
    cases fuel <;> simp [LinkedList.toListLoop]
  | cons cell cells ih =>
    intro link fuel result h hfuel
    obtain ⟨fuel, rfl⟩ : ∃ f, fuel = f + 1 := ⟨fuel - 1, by simp at hfuel; omega⟩
    cases h with
    | cons hnode rest =>
      rw [LinkedList.toListLoop, hnode]
      exact (ih _ rest (by simp at hfuel; omega)).trans (by simp)

/-- **`append`'s walk stops at the last node.** -/
theorem lastNode_of_seg {last : Nat} {value : α} {cells : List (Nat × α)} :
    ∀ {head fuel}, Seg heap (some head) (cells ++ [(last, value)]) none →
      cells.length + 1 ≤ fuel → LinkedList.lastNode heap fuel head = some last := by
  induction cells with
  | nil =>
    intro head fuel h hfuel
    obtain ⟨fuel, rfl⟩ : ∃ f, fuel = f + 1 := ⟨fuel - 1, by omega⟩
    cases h with
    | cons hnode rest => cases rest; simp [LinkedList.lastNode, hnode]
  | cons cell cells ih =>
    intro head fuel h hfuel
    obtain ⟨fuel, rfl⟩ : ∃ f, fuel = f + 1 := ⟨fuel - 1, by omega⟩
    cases h with
    | @cons _ _ next _ _ hnode rest =>
      cases next with
      | none => simpa using rest.eq_nil_of_none
      | some next =>
        rw [LinkedList.lastNode, hnode]
        exact ih rest (by simp at hfuel; omega)

/-- Where `previous` stands once the loop of `remove` has passed `cells`. -/
def previousAfter (previous : Option Nat) (cells : List (Nat × α)) : Option Nat :=
  cells.foldl (fun _ cell => some cell.1) previous

theorem previousAfter_concat (previous : Option Nat) (cells : List (Nat × α)) (cell : Nat × α) :
    previousAfter previous (cells ++ [cell]) = some cell.1 := by
  simp [previousAfter]

section Remove
variable [DecidableEq α] (ll : LinkedList α) {value : α}

/-- `remove` is its loop started at `head` with no node before it, also on an empty list. -/
theorem remove_eq_removeLoop (value : α) :
    ll.remove value = ll.removeLoop value (ll.heap.length + 1) none ll.head := by
  rcases ll with ⟨heap, _ | head, size⟩ <;> rfl

/-- **`remove`'s loop runs off the end** of a chain without the value. -/
theorem removeLoop_of_not_mem {cells : List (Nat × α)} :
    ∀ {link} (previous : Option Nat) (fuel : Nat), Seg ll.heap link cells none →
      value ∉ cells.map Prod.snd → cells.length + 1 ≤ fuel →
        ll.removeLoop value fuel previous link = some (false, ll) := by
  induction cells with
  | nil =>
    intro link previous fuel h _ hfuel
    obtain ⟨fuel, rfl⟩ : ∃ f, fuel = f + 1 := ⟨fuel - 1, by simp at hfuel; omega⟩
    cases h
    rfl
  | cons cell cells ih =>
    intro link previous fuel h hmem hfuel
    obtain ⟨fuel, rfl⟩ : ∃ f, fuel = f + 1 := ⟨fuel - 1, by simp at hfuel; omega⟩
    simp only [List.map_cons, List.mem_cons, not_or] at hmem
    cases h with
    | cons hnode rest =>
      rw [LinkedList.removeLoop, hnode]
      exact (if_neg (Ne.symm hmem.1)).trans (ih _ _ rest hmem.2 (by simp at hfuel; omega))

/-- **`remove`'s loop stops at the first node holding the value**, past the nodes `pre`: with no
node before it, it moves `head` and leaves `size` alone; otherwise it links the node before it
to the node after it and decrements `size`. -/
theorem removeLoop_of_found {addr : Nat} {next : Option Nat}
    (hnode : ll.heap[addr]? = some ⟨value, next⟩) {pre : List (Nat × α)} :
    ∀ {link} (previous : Option Nat) (fuel : Nat), Seg ll.heap link pre (some addr) →
      value ∉ pre.map Prod.snd →
      pre.length + 1 ≤ fuel → ll.removeLoop value fuel previous link =
        some (true, match previousAfter previous pre with
          | none => ⟨ll.heap, next, ll.size⟩
          | some previous => ⟨setNext ll.heap previous next, ll.head, ll.size - 1⟩) := by
  induction pre with
  | nil =>
    intro link previous fuel h _ hfuel
    obtain ⟨fuel, rfl⟩ : ∃ f, fuel = f + 1 := ⟨fuel - 1, by simp at hfuel; omega⟩
    cases h
    rw [LinkedList.removeLoop, hnode]
    cases previous <;> simp [previousAfter]
  | cons cell pre ih =>
    intro link previous fuel h hmem hfuel
    obtain ⟨fuel, rfl⟩ : ∃ f, fuel = f + 1 := ⟨fuel - 1, by simp at hfuel; omega⟩
    simp only [List.map_cons, List.mem_cons, not_or] at hmem
    cases h with
    | cons hcell rest =>
      rw [LinkedList.removeLoop, hcell]
      exact (if_neg (Ne.symm hmem.1)).trans (ih _ _ rest hmem.2 (by simp at hfuel; omega))

end Remove

end BlogTutorials.LinkedListExample
