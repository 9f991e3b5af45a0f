import Mathlib.Data.List.Basic

/-!
# BlogTutorials — the linked list of tutorial 2, over a heap of nodes

`example2_linked_list.py` keeps a chain of `Node` objects linked through `next`, a `head`
reference and a `size` counter. Python objects have identity and are updated in place, so the
model keeps them in a heap: a `Node` lives at an address (its index in `heap`), `next` and
`head` hold addresses, and `Node(value)` allocates at the end of the heap. Nothing is ever
freed; unreachable nodes stay behind, as garbage.

The `while` loops of the source walk the chain and stop at `None`; nothing in their code bounds
them, so the model walks with fuel (`heap.length`, the number of nodes there are, plus one
where the loop also tests the final `None`) and answers `none` when a walk would run past it
or meet an address that holds no node. On the lists the methods build this never happens
(`LinkedList.Refinement`).

`append` and `remove` are the state changes; `to_list` and `__len__` read the state.
-/

namespace BlogTutorials.LinkedListExample

/-- `Node(value)`: a value and the address of the next node, if any. -/
structure Node (α : Type) where
  value : α
  next : Option Nat
  deriving Repr, DecidableEq

/-- The state of a `LinkedList`: the heap of nodes, `self.head` and `self.size`. -/
structure LinkedList (α : Type) where
  heap : List (Node α)
  head : Option Nat
  size : Int
  deriving Repr, DecidableEq

variable {α : Type}

/-- `node.next = link` for the node at `addr`. -/
def setNext (heap : List (Node α)) (addr : Nat) (link : Option Nat) : List (Node α) :=
  match heap[addr]? with
  | some node => heap.set addr ⟨node.value, link⟩
  | none => heap

theorem getElem?_setNext (heap : List (Node α)) (addr : Nat) (link : Option Nat) (a : Nat) :
    (setNext heap addr link)[a]? =
      if addr = a then heap[addr]?.map (fun node => ⟨node.value, link⟩) else heap[a]? := by
  unfold setNext
  cases h : heap[addr]? with
  | none => split_ifs with ha <;> [subst ha; skip] <;> simp [h]
  | some node =>
    have := (List.getElem?_eq_some_iff.1 h).1
    rw [List.getElem?_set]
    split_ifs <;> simp_all

namespace LinkedList

/-- `LinkedList()`. -/
def empty : LinkedList α := ⟨[], none, 0⟩

/-- The `while current.next` walk of `append`, from `current` to the last node. -/
def lastNode (heap : List (Node α)) : Nat → Nat → Option Nat
  | 0, _ => none
  | fuel + 1, current => do
    let node ← heap[current]?
    match node.next with
    | none => some current
    | some next => lastNode heap fuel next

/-- `append(value)`: allocate `Node(value)`, link it after the last node (or make it the head),
and count it. -/
def append (ll : LinkedList α) (value : α) : Option (LinkedList α) :=
  let newNode := ll.heap.length
  let heap := ll.heap ++ [⟨value, none⟩]
  match ll.head with
  | none => some ⟨heap, some newNode, ll.size + 1⟩
  | some head => do
    let current ← lastNode heap heap.length head
    return ⟨setNext heap current (some newNode), ll.head, ll.size + 1⟩

/-- The `while current` loop of `remove`, `previous` one node behind `current`. Finding the
value at the head moves `head` and returns without touching `size`. -/
def removeLoop [DecidableEq α] (ll : LinkedList α) (value : α) :
    Nat → Option Nat → Option Nat → Option (Bool × LinkedList α)
  | 0, _, _ => none
  | _ + 1, _, none => some (false, ll)
  | fuel + 1, previous, some current => do
    let node ← ll.heap[current]?
    if node.value = value then
      match previous with
      | none => some (true, ⟨ll.heap, node.next, ll.size⟩)
      | some previous => some (true, ⟨setNext ll.heap previous node.next, ll.head, ll.size - 1⟩)
    else removeLoop ll value fuel (some current) node.next

/-- `remove(value)`: unlink the first node holding `value`; `False` if there is none. -/
def remove [DecidableEq α] (ll : LinkedList α) (value : α) : Option (Bool × LinkedList α) :=
  match ll.head with
  | none => some (false, ll)
  | some head => removeLoop ll value (ll.heap.length + 1) none (some head)

/-- The `while current` loop of `to_list`. -/
def toListLoop (heap : List (Node α)) : Nat → Option Nat → List α → Option (List α)
  | _, none, result => some result
  | 0, some _, _ => none
  | fuel + 1, some current, result => do
    let node ← heap[current]?
    toListLoop heap fuel node.next (result ++ [node.value])

/-- `to_list()`. -/
def toList (ll : LinkedList α) : Option (List α) :=
  toListLoop ll.heap ll.heap.length ll.head []

/-- `len(ll)`: the `size` field. -/
def len (ll : LinkedList α) : Int := ll.size

end LinkedList

/-- A call a client makes. -/
inductive Op (α : Type) where
  | append (value : α)
  | remove (value : α)
  deriving Repr, DecidableEq

namespace LinkedList

variable [DecidableEq α]

/-- One call; `append` returns `None`, `remove` its `bool`. -/
def call (ll : LinkedList α) : Op α → Option (Option Bool × LinkedList α)
  | .append value => (ll.append value).map fun ll => (none, ll)
  | .remove value => (ll.remove value).map fun result => (some result.1, result.2)

/-- Calls in sequence, collecting what each returns. -/
def run (ll : LinkedList α) : List (Op α) → Option (List (Option Bool) × LinkedList α)
  | [] => some ([], ll)
  | op :: ops => do
    let step ← ll.call op
    let rest ← step.2.run ops
    return (step.1 :: rest.1, rest.2)

end LinkedList

end BlogTutorials.LinkedListExample
