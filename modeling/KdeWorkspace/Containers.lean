import KdeWorkspace.Rings

/-!
The containers of ksysguardd: a ring of nodes with a root, a count, and a cursor for loops (`ccont.c`).

A container is `Ringed` by the list of its nodes when these and the root are linked
both ways in a ring. Here are the operations and what each does to the ring; sorting
and the cursor have modules of their own.
-/
namespace KdeWorkspace.Containers
open Rings List Option
set_option linter.unusedSectionVars false
variable {N D : Type} [DecidableEq N]

/-- A node, which has data unless it is the root. -/
structure Node (N D : Type) where
  next : Option N
  prev : Option N
  data : Option D
deriving Repr, DecidableEq

/-- The nodes that are allocated, by their addresses, and what the root's data hold. -/
structure Container (N D : Type) where
  heap : N → Option (Node N D)
  rootNode : N
  count : Int
  currentNode : N

namespace Container

def next (c : Container N D) (a : N) : Option N := (c.heap a).bind Node.next
def prev (c : Container N D) (a : N) : Option N := (c.heap a).bind Node.prev
def data (c : Container N D) (a : N) : Option D := (c.heap a).bind Node.data

def setNext (c : Container N D) (a : N) (v : Option N) : Container N D :=
  {c with heap := Function.update c.heap a ((c.heap a).map fun node => {node with next := v})}
def setPrev (c : Container N D) (a : N) (v : Option N) : Container N D :=
  {c with heap := Function.update c.heap a ((c.heap a).map fun node => {node with prev := v})}
def setData (c : Container N D) (a : N) (v : Option D) : Container N D :=
  {c with heap := Function.update c.heap a ((c.heap a).map fun node => {node with data := v})}

def setCount (c : Container N D) (n : Int) : Container N D := {c with count := n}
def setCurrent (c : Container N D) (a : N) : Container N D := {c with currentNode := a}

def alloc (c : Container N D) (a : N) (node : Node N D) : Container N D := {c with heap := Function.update c.heap a (some node)}
def free (c : Container N D) (a : N) : Container N D := {c with heap := Function.update c.heap a none}

def new_ctnr (root : N) : Container N D where
  heap := Function.update (fun _ => none) root (some ⟨some root,some root,none⟩)
  rootNode := root
  count := 0
  currentNode := root

def level_ctnr (c : Container N D) : Int := c.count

/-- `push_ctnr`, with the address that `malloc` gives. There is no result when a pointer is null or its node freed. -/
def push_ctnr (c : Container N D) (object : Option D) (newNode : N) : Option (Container N D) :=
  match object with
  | none => some c
  | some object => do
    let last ← c.prev c.rootNode
    let c := c.alloc newNode ⟨some c.rootNode,some last,some object⟩
    let c := (c.setNext last (some newNode)).setPrev c.rootNode (some newNode)
    some (c.setCount (c.count+1))

/-- The loops through the nodes that look for a position: the node there, if the ring has one. -/
def walk (c : Container N D) (pos : Int) : Nat → N → Int → Option (Option N)
  | 0,_,_ => none
  | fuel+1,it,counter =>
    if it = c.rootNode then some none
    else if counter = pos then some (some it)
    else do walk c pos fuel (← c.next it) (counter+1)

def nodeAt (c : Container N D) (pos : Int) : Option (Option N) := do
  c.walk pos (c.count.toNat+1) (← c.next c.rootNode) 0

/-- `insert_ctnr`, which puts the new node behind the one at the position. -/
def insert_ctnr (c : Container N D) (object : Option D) (pos : Int) (newNode : N) : Option (Container N D) :=
  match object with
  | none => some c
  | some object => do
    match ← c.nodeAt pos with
    | none => some c
    | some it => do
      let after ← c.next it
      let c := c.alloc newNode ⟨some after,some it,some object⟩
      let c := (c.setPrev after (some newNode)).setNext it (some newNode)
      some (c.setCount (c.count+1))

/-- What takes a node out of the ring. -/
def unlink (c : Container N D) (it : N) : Option (Container N D) := do
  let before ← c.prev it
  let after ← c.next it
  some (((c.setNext before (some after)).setPrev after (some before)).free it)

def remove_at_ctnr (c : Container N D) (pos : Int) : Option (Container N D × Option D) := do
  match ← c.nodeAt pos with
  | none => some (c,none)
  | some it => do
    let c' ← c.unlink it
    some (c'.setCount (c'.count-1),c.data it)

def pop_ctnr (c : Container N D) : Option (Container N D × Option D) := do
  let ptr ← c.next c.rootNode
  if ptr = c.rootNode then some (c,none)
  else do
    let after ← c.next ptr
    let c' := ((c.setNext c.rootNode (some after)).setPrev after (some c.rootNode)).free ptr
    some (c'.setCount (c'.count-1),c.data ptr)

/-- The loop of `empty_ctnr`. -/
def popAll : Nat → Container N D → Option (Container N D)
  | 0,c => some c
  | i+1,c => do
    let (c,_) ← c.pop_ctnr
    popAll i c

def empty_ctnr (c : Container N D) : Option (Container N D) := popAll (c.level_ctnr+1).toNat c

/-- `swap_ctnr`; its loop looks for both positions at once. -/
def swap_ctnr (c : Container N D) (pos1 pos2 : Int) : Option (Container N D) :=
  if pos1 = pos2 then some c
  else do
    match ← c.nodeAt pos1,← c.nodeAt pos2 with
    | some node1,some node2 => some ((c.setData node1 (c.data node2)).setData node2 (c.data node1))
    | _,_ => some c

def first_ctnr (c : Container N D) : Option (Container N D × Option D) := do
  let it ← c.next c.rootNode
  if it = c.rootNode then some (c,none) else some (c.setCurrent it,c.data it)

def next_ctnr (c : Container N D) : Option (Container N D × Option D) := do
  let it ← c.next c.currentNode
  if it = c.rootNode then some (c,none) else some (c.setCurrent it,c.data it)

def remove_ctnr (c : Container N D) : Option (Container N D × Option D) :=
  if c.currentNode = c.rootNode then some (c,none)
  else do
    let tmp ← c.prev c.currentNode
    let c' ← c.unlink c.currentNode
    some ((c'.setCount (c'.count-1)).setCurrent tmp,c.data c.currentNode)

section
variable (c : Container N D) (a x : N) (v : Option N) (d : Option D) (n : Int) (node : Node N D)

theorem isSome_of_next {c : Container N D} {a b : N} (next : c.next a = some b) : (c.heap a).isSome := by
  cases found : c.heap a with
  | none => simp [Container.next,found] at next
  | some node => rfl

theorem read_kept {A : Type} (read : Node N D → Option A) {f : Node N D → Node N D} (kept : ∀ node, read (f node) = read node) :
    (Function.update c.heap a ((c.heap a).map f) x).bind read = (c.heap x).bind read := by
  by_cases same : x = a
  · subst same
    cases found : c.heap x <;> simp [kept]
  · simp [same]

theorem read_written {A : Type} (read : Node N D → Option A) {f : Node N D → Node N D} {w : Option A} (writes : ∀ node, read (f node) = w)
    (live : (c.heap a).isSome) : (Function.update c.heap a ((c.heap a).map f) x).bind read = if x = a then w else (c.heap x).bind read := by
  by_cases same : x = a
  · obtain ⟨node,found⟩ := isSome_iff_exists.mp live
    simp [same,found,writes]
  · simp [same]

@[simp] theorem next_setNext (live : (c.heap a).isSome) : (c.setNext a v).next x = if x = a then v else c.next x :=
  read_written c a x Node.next (fun _ => rfl) live

@[simp] theorem prev_setPrev (live : (c.heap a).isSome) : (c.setPrev a v).prev x = if x = a then v else c.prev x :=
  read_written c a x Node.prev (fun _ => rfl) live

@[simp] theorem data_setData (live : (c.heap a).isSome) : (c.setData a d).data x = if x = a then d else c.data x :=
  read_written c a x Node.data (fun _ => rfl) live

@[simp] theorem prev_setNext : (c.setNext a v).prev x = c.prev x := read_kept c a x Node.prev fun _ => rfl
@[simp] theorem data_setNext : (c.setNext a v).data x = c.data x := read_kept c a x Node.data fun _ => rfl
@[simp] theorem next_setPrev : (c.setPrev a v).next x = c.next x := read_kept c a x Node.next fun _ => rfl
@[simp] theorem data_setPrev : (c.setPrev a v).data x = c.data x := read_kept c a x Node.data fun _ => rfl
@[simp] theorem next_setData : (c.setData a d).next x = c.next x := read_kept c a x Node.next fun _ => rfl
@[simp] theorem prev_setData : (c.setData a d).prev x = c.prev x := read_kept c a x Node.prev fun _ => rfl

@[simp] theorem isSome_setNext : ((c.setNext a v).heap x).isSome = (c.heap x).isSome := by
  by_cases same : x = a <;> simp [setNext,same]

@[simp] theorem isSome_setPrev : ((c.setPrev a v).heap x).isSome = (c.heap x).isSome := by
  by_cases same : x = a <;> simp [setPrev,same]

@[simp] theorem isSome_setData : ((c.setData a d).heap x).isSome = (c.heap x).isSome := by
  by_cases same : x = a <;> simp [setData,same]

@[simp] theorem next_alloc : (c.alloc a node).next x = if x = a then node.next else c.next x := by
  by_cases same : x = a <;> simp [next,alloc,same]

@[simp] theorem prev_alloc : (c.alloc a node).prev x = if x = a then node.prev else c.prev x := by
  by_cases same : x = a <;> simp [prev,alloc,same]

@[simp] theorem data_alloc : (c.alloc a node).data x = if x = a then node.data else c.data x := by
  by_cases same : x = a <;> simp [data,alloc,same]

@[simp] theorem isSome_alloc : ((c.alloc a node).heap x).isSome = (decide (x = a) || (c.heap x).isSome) := by
  by_cases same : x = a <;> simp [alloc,same]

@[simp] theorem next_free : (c.free a).next x = if x = a then none else c.next x := by
  by_cases same : x = a <;> simp [next,free,same]

@[simp] theorem prev_free : (c.free a).prev x = if x = a then none else c.prev x := by
  by_cases same : x = a <;> simp [prev,free,same]

@[simp] theorem data_free : (c.free a).data x = if x = a then none else c.data x := by
  by_cases same : x = a <;> simp [data,free,same]

@[simp] theorem isSome_free : ((c.free a).heap x).isSome = (decide (x ≠ a) && (c.heap x).isSome) := by
  by_cases same : x = a <;> simp [free,same]

@[simp] theorem rootNode_setNext : (c.setNext a v).rootNode = c.rootNode := rfl
@[simp] theorem next_setCount : (c.setCount n).next x = c.next x := rfl
@[simp] theorem prev_setCount : (c.setCount n).prev x = c.prev x := rfl
@[simp] theorem data_setCount : (c.setCount n).data x = c.data x := rfl
@[simp] theorem next_setCurrent : (c.setCurrent a).next x = c.next x := rfl
@[simp] theorem prev_setCurrent : (c.setCurrent a).prev x = c.prev x := rfl
@[simp] theorem data_setCurrent : (c.setCurrent a).data x = c.data x := rfl

end

/-- The two nodes name each other as next and previous. -/
def Linked (c : Container N D) (a b : N) : Prop := c.next a = some b ∧ c.prev b = some a

/-- The ring of the nodes of the list, all of which have data. -/
structure Ringed (c : Container N D) (l : List N) : Prop where
  nodup : (c.rootNode :: l).Nodup
  linked : Ring c.Linked (c.rootNode :: l)
  full : ∀ a ∈ l, (c.data a).isSome

variable {c c' : Container N D} {l : List N} {a b x y : N}

theorem Ringed.neighbours (pre suf : List N) (ringed : c.Ringed (pre ++ a :: suf)) :
    c.Linked a (suf.headD c.rootNode) ∧ c.Linked (pre.getLastD c.rootNode) a := by
  have linked := ringed.linked
  rw [← cons_append] at linked
  obtain ⟨after,before⟩ := linked.neighbours
  constructor
  · cases suf with
    | nil => simpa using after
    | cons b suf => simpa using after
  · have last : (suf ++ c.rootNode :: pre).getLastD a = pre.getLastD c.rootNode := by
      simp [getLastD_eq_getLast?,getLast?_append,getLast?_cons]
    rwa [last] at before

theorem Ringed.root_neighbours (ringed : c.Ringed l) :
    c.Linked c.rootNode (l.headD c.rootNode) ∧ c.Linked (l.getLastD c.rootNode) c.rootNode := by
  obtain ⟨after,before⟩ := Ring.neighbours (l := []) ringed.linked
  rw [append_nil] at after before
  exact ⟨after,before⟩

theorem Ringed.live (ringed : c.Ringed l) (member : a ∈ c.rootNode :: l) : (c.heap a).isSome := by
  rcases mem_cons.mp member with rfl | inside
  · exact isSome_of_next ringed.root_neighbours.1.1
  · obtain ⟨pre,suf,rfl⟩ := append_of_mem inside
    exact isSome_of_next (ringed.neighbours _ _).1.1

theorem path_unique {root : N} {R : N → N → Prop} (only : ∀ a b b', R a b → R a b' → b = b') (absent : root ∉ l)
    {l' : List N} (absent' : root ∉ l') (path : Path R x l root) (path' : Path R x l' root) : l = l' := by
  induction l generalizing x l' with
  | nil =>
    cases l' with
    | nil => rfl
    | cons b l' =>
      obtain ⟨back,_⟩ := isChain_cons_cons.mp path
      obtain ⟨on,_⟩ := isChain_cons_cons.mp path'
      exact absurd (only x root b back on ▸ mem_cons_self) absent'
  | cons a l ih =>
    obtain ⟨on,path⟩ := isChain_cons_cons.mp path
    cases l' with
    | nil =>
      obtain ⟨back,_⟩ := isChain_cons_cons.mp path'
      exact absurd (only x root a back on ▸ mem_cons_self) absent
    | cons b l' =>
      obtain ⟨on',path'⟩ := isChain_cons_cons.mp path'
      obtain rfl := only x a b on on'
      rw [ih (fun inside => absent (mem_cons_of_mem _ inside)) (fun inside => absent' (mem_cons_of_mem _ inside)) path path']

theorem Ringed.unique {l' : List N} (ringed : c.Ringed l) (ringed' : c.Ringed l') : l = l' := by
  have only (a b b' : N) (link : c.Linked a b) (link' : c.Linked a b') : b = b' := some.inj (link.1.symm.trans link'.1)
  exact path_unique only (nodup_cons.mp ringed.nodup).1 (nodup_cons.mp ringed'.nodup).1 ringed.linked ringed'.linked

theorem Ringed.of_links {R : N → N → Prop} {l' : List N} (root : c'.rootNode = c.rootNode)
    (nodup : (c.rootNode :: l').Nodup) (ring : Ring R (c.rootNode :: l')) (links : ∀ a b, R a b → c'.Linked a b)
    (full : ∀ a ∈ l', (c'.data a).isSome) : c'.Ringed l' :=
  ⟨root ▸ nodup,root ▸ ring.imp links,full⟩

theorem Ringed.fresh (ringed : c.Ringed l) (unused : c.heap a = none) : a ∉ c.rootNode :: l := by
  intro inside
  have live := ringed.live inside
  rw [unused] at live
  cases live

theorem Ringed.last_mem (c : Container N D) (l : List N) : l.getLastD c.rootNode ∈ c.rootNode :: l :=
  getLastD_mem mem_cons_self fun _ => mem_cons_of_mem _

variable {pre suf : List N}

theorem Ringed.rotated (ringed : c.Ringed (pre ++ a :: suf)) :
    Ring c.Linked (a :: (suf ++ c.rootNode :: pre)) ∧ (a :: (suf ++ c.rootNode :: pre)).Nodup := by
  have turned : (c.rootNode :: pre) ++ (a :: suf) = c.rootNode :: (pre ++ a :: suf) := rfl
  constructor
  · exact (ring_rotate (c.rootNode :: pre) (a :: suf)).mp (turned ▸ ringed.linked)
  · exact (@perm_append_comm _ (c.rootNode :: pre) (a :: suf)).nodup_iff.mp (turned ▸ ringed.nodup)

theorem Ringed.setCount (ringed : c.Ringed l) (n : Int) : (c.setCount n).Ringed l := ⟨ringed.nodup,ringed.linked,ringed.full⟩
theorem Ringed.setCurrent (ringed : c.Ringed l) (a : N) : (c.setCurrent a).Ringed l := ⟨ringed.nodup,ringed.linked,ringed.full⟩

/-- The ring, the count and the cursor that an operation leaves. -/
structure Leaves (c c' : Container N D) (l : List N) (count : Int) (cursor : N) : Prop where
  ringed : c'.Ringed l
  root : c'.rootNode = c.rootNode
  counts : c'.count = count
  points : c'.currentNode = cursor

theorem Leaves.same (ringed : c.Ringed l) : c.Leaves c l c.count c.currentNode := ⟨ringed,rfl,rfl,rfl⟩

theorem new_ctnr_ringed (root : N) : (new_ctnr root : Container N D).Ringed [] := by
  refine ⟨nodup_singleton root,?_,by simp⟩
  show Ring _ [root]
  rw [ring_cons,path_iff]
  simp [Linked,new_ctnr,next,prev]

/-- What puts a new node between two that are linked. -/
def linkIn (c : Container N D) (object : D) (last first newNode : N) : Container N D :=
  ((c.alloc newNode ⟨some first,some last,some object⟩).setNext last (some newNode)).setPrev first (some newNode)

theorem setNext_setPrev_comm (c : Container N D) (a b : N) (v w : Option N) :
    (c.setNext a v).setPrev b w = (c.setPrev b w).setNext a v := by
  simp only [setNext,setPrev,Container.mk.injEq,and_true]
  funext x
  by_cases atA : x = a
  · by_cases atB : x = b
    · subst atA atB
      cases c.heap x <;> simp
    · subst atA
      simp [atB]
  · by_cases atB : x = b
    · subst atB
      simp [atA]
    · simp [atA,atB]

theorem linkIn_linked {last first newNode : N} (object : D) (live : (c.heap last).isSome) (live' : (c.heap first).isSome)
    (last_other : last ≠ newNode) (first_other : first ≠ newNode)
    (link : Relinked (Relinked c.Linked last newNode) newNode first x y) : (c.linkIn object last first newNode).Linked x y := by
  rcases link with ⟨rfl,rfl⟩ | ⟨other,other',⟨rfl,rfl⟩ | ⟨old,old',link⟩⟩
  · simp [Linked,linkIn,live,live',last_other.symm]
  · simp [Linked,linkIn,live,live',last_other,first_other.symm]
  · simp [Linked,linkIn,live,live',other,other',old,old',link.1,link.2]

theorem linkIn_data {object : D} {last first newNode : N} (other : x ≠ newNode) :
    (c.linkIn object last first newNode).data x = c.data x := by
  simp [linkIn,other]

theorem linkIn_ringed {newNode t : N} (object : D) (rest l' : List N) (ringed : c.Ringed l) (unused : c.heap newNode = none)
    (turned : (t :: rest).Perm (c.rootNode :: l)) (ring : Ring c.Linked (t :: rest))
    (order : ∀ {R : N → N → Prop}, Ring R (newNode :: t :: rest) → Ring R (c.rootNode :: l'))
    (perm : (c.rootNode :: l').Perm (newNode :: t :: rest)) : (c.linkIn object (rest.getLastD t) t newNode).Ringed l' := by
  have outside := ringed.fresh unused
  have inside (a : N) (member : a ∈ t :: rest) : (c.heap a).isSome ∧ a ≠ newNode := by
    have member := turned.mem_iff.mp member
    exact ⟨ringed.live member,fun same => outside (same ▸ member)⟩
  have last_in : rest.getLastD t ∈ t :: rest := getLastD_mem mem_cons_self fun _ => mem_cons_of_mem _
  have nodup : (newNode :: t :: rest).Nodup :=
    nodup_cons.mpr ⟨fun member => (inside newNode member).2 rfl,turned.nodup_iff.mpr ringed.nodup⟩
  have nodup' := perm.nodup_iff.mpr nodup
  have links {x y : N} := linkIn_linked (c := c) (x := x) (y := y) object (inside _ last_in).1 (inside t mem_cons_self).1
    (inside _ last_in).2 (inside t mem_cons_self).2
  refine Ringed.of_links (c := c) rfl nodup' (order (ring_insert ring nodup)) (fun _ _ => links) fun a member => ?_
  by_cases other : a = newNode
  · simp [linkIn,other]
  · rw [linkIn_data other]
    have within := turned.mem_iff.mp (mem_of_ne_of_mem other (perm.mem_iff.mp (mem_cons_of_mem _ member)))
    rcases mem_cons.mp within with rfl | within
    · exact absurd member (nodup_cons.mp nodup').1
    · exact ringed.full a within

theorem push_ctnr_ringed {newNode : N} (object : D) (ringed : c.Ringed l) (unused : c.heap newNode = none) :
    ∃ c', c.push_ctnr (some object) newNode = some c' ∧ c.Leaves c' (l ++ [newNode]) (c.count+1) c.currentNode := by
  obtain ⟨_,_,before⟩ := ringed.root_neighbours
  have performed : c.push_ctnr (some object) newNode =
      some ((c.linkIn object (l.getLastD c.rootNode) c.rootNode newNode).setCount (c.count+1)) := by
    simp only [push_ctnr,before,bind_eq_bind,bind_some]
    rfl
  have ring : (c.linkIn object (l.getLastD c.rootNode) c.rootNode newNode).Ringed (l ++ [newNode]) :=
    linkIn_ringed object l (l ++ [newNode]) ringed unused .rfl ringed.linked (ring_rotate [newNode] (c.rootNode :: l)).mp
      (@perm_append_comm _ (c.rootNode :: l) [newNode])
  exact ⟨_,performed,ring.setCount _,rfl,rfl,rfl⟩

theorem unlink_ringed (pre suf : List N) (ringed : c.Ringed (pre ++ a :: suf)) :
    ∃ c', c.unlink a = some c' ∧ c.Leaves c' (pre ++ suf) c.count c.currentNode ∧ ∀ x, x ≠ a → c'.data x = c.data x := by
  obtain ⟨⟨after,prev_after⟩,next_before,before⟩ := ringed.neighbours _ _
  obtain ⟨ring,nodup⟩ := ringed.rotated
  have ring := ring_remove ring nodup
  have end_same : (suf ++ c.rootNode :: pre).getLastD a = pre.getLastD c.rootNode := by
    simp [getLastD_eq_getLast?,getLast?_append,getLast?_cons]
  have start_same : (suf ++ c.rootNode :: pre).headD a = suf.headD c.rootNode := by
    cases suf <;> rfl
  rw [end_same,start_same,ring_rotate] at ring
  have last_in : pre.getLastD c.rootNode ∈ suf ++ c.rootNode :: pre :=
    getLastD_mem (by simp) fun x within => by simp [within]
  have first_in : suf.headD c.rootNode ∈ suf ++ c.rootNode :: pre :=
    headD_mem (by simp) fun x within => by simp [within]
  clear end_same start_same
  generalize pre.getLastD c.rootNode = last at *
  generalize suf.headD c.rootNode = first at *
  obtain ⟨absent,nodup⟩ := nodup_cons.mp nodup
  have last_other : last ≠ a := fun same => absent (same ▸ last_in)
  have first_other : first ≠ a := fun same => absent (same ▸ first_in)
  have live := isSome_of_next next_before
  have live' : (c.heap first).isSome := by
    refine ringed.live ?_
    simp only [mem_append,mem_cons] at first_in ⊢
    tauto
  have performed : c.unlink a = some (((c.setNext last (some first)).setPrev first (some last)).free a) := by
    simp only [unlink,before,after,bind_eq_bind,bind_some]
  refine ⟨_,performed,⟨?_,rfl,rfl,rfl⟩,fun x other => by simp [other]⟩
  refine Ringed.of_links (c := c) rfl ?_ ring ?_ ?_
  · exact (@perm_append_comm _ suf (c.rootNode :: pre)).nodup_iff.mp nodup
  · rintro x y (⟨rfl,rfl⟩ | ⟨other,other',link⟩)
    · simp [Linked,live,live',last_other,first_other]
    · -- neither is the node that goes, whose neighbours have been linked
      have notX : x ≠ a := by
        rintro rfl
        exact other' (some.inj (link.1.symm.trans after))
      have notY : y ≠ a := by
        rintro rfl
        exact other (some.inj (link.2.symm.trans before))
      simp [Linked,live,live',notX,notY,other,other',link.1,link.2]
  · intro x member
    have other : x ≠ a := by
      rintro rfl
      simp only [mem_append,mem_cons,not_or] at absent member
      tauto
    have full := ringed.full x (by simp only [mem_append,mem_cons] at member ⊢; tauto)
    simpa [other] using full

theorem walk_ringed {fuel : Nat} (pos : Int) (pre suf : List N) (ringed : c.Ringed (pre ++ suf)) (enough : suf.length < fuel) :
    c.walk pos fuel (suf.headD c.rootNode) pre.length = some (if pre.length ≤ pos then suf[(pos-pre.length).toNat]? else none) := by
  induction suf generalizing pre fuel with
  | nil =>
    obtain ⟨fuel,rfl⟩ := Nat.exists_eq_succ_of_ne_zero (Nat.ne_of_gt enough)
    simp [walk]
  | cons a suf ih =>
    obtain ⟨fuel,rfl⟩ := Nat.exists_eq_succ_of_ne_zero (Nat.ne_of_gt (Nat.zero_lt_of_lt enough))
    have other : a ≠ c.rootNode := fun same => (nodup_cons.mp ringed.nodup).1 (by simp [same])
    by_cases here : (pre.length : Int) = pos
    · simp [walk,other,here]
    · have split : pre ++ a :: suf = (pre ++ [a]) ++ suf := by simp
      have further := ih (pre ++ [a]) (split ▸ ringed) (by simpa using enough)
      rw [length_append,length_singleton,Int.natCast_add,Int.natCast_one] at further
      rw [walk,headD_cons,if_neg other,if_neg here,(ringed.neighbours _ _).1.1,bind_eq_bind,bind_some,further]
      congr 1
      by_cases before : (pre.length : Int) ≤ pos
      · have index : (pos-pre.length).toNat = (pos-(pre.length+1)).toNat+1 := by omega
        rw [if_pos before,if_pos (by omega),index,getElem?_cons_succ]
      · rw [if_neg before,if_neg (by omega)]

theorem nodeAt_ringed (ringed : c.Ringed l) (counts : c.count = l.length) (pos : Int) :
    c.nodeAt pos = some (if 0 ≤ pos then l[pos.toNat]? else none) := by
  have walked := walk_ringed pos [] l ringed (show l.length < c.count.toNat+1 by omega)
  rw [nodeAt,ringed.root_neighbours.1.1,bind_eq_bind,bind_some]
  simpa using walked

theorem nodeAt_cases (ringed : c.Ringed l) (counts : c.count = l.length) (pos : Int) :
    c.nodeAt pos = some none ∨ ∃ pre a suf, l = pre ++ a :: suf ∧ c.nodeAt pos = some (some a) := by
  rw [nodeAt_ringed ringed counts]
  by_cases before : 0 ≤ pos
  · rw [if_pos before]
    cases found : l[pos.toNat]? with
    | none => exact .inl rfl
    | some a =>
      obtain ⟨pre,suf,rfl⟩ := append_of_mem (mem_of_getElem? found)
      exact .inr ⟨pre,a,suf,rfl,rfl⟩
  · exact .inl (by rw [if_neg before])

theorem insert_ctnr_at {pos : Int} {newNode : N} (object : D) (ringed : c.Ringed (pre ++ a :: suf))
    (unused : c.heap newNode = none) (found : c.nodeAt pos = some (some a)) :
    ∃ c', c.insert_ctnr (some object) pos newNode = some c' ∧
      c.Leaves c' (pre ++ a :: newNode :: suf) (c.count+1) c.currentNode := by
  obtain ⟨after,_⟩ := (ringed.neighbours _ _).1
  have performed : c.insert_ctnr (some object) pos newNode =
      some ((c.linkIn object a (suf.headD c.rootNode) newNode).setCount (c.count+1)) := by
    simp only [insert_ctnr,found,bind_eq_bind,bind_some,after]
    rw [linkIn,setNext_setPrev_comm]
    rfl
  have ring : (c.linkIn object a (suf.headD c.rootNode) newNode).Ringed (pre ++ a :: newNode :: suf) := by
    cases suf with
    | nil =>
      have last : (pre ++ [a]).getLastD c.rootNode = a := getLastD_concat
      have linked := linkIn_ringed object (pre ++ [a]) (pre ++ [a] ++ [newNode]) ringed unused .rfl ringed.linked
        (ring_rotate [newNode] (c.rootNode :: (pre ++ [a]))).mp (@perm_append_comm _ (c.rootNode :: (pre ++ [a])) [newNode])
      rw [last] at linked
      simpa using linked
    | cons b suf =>
      have last : (suf ++ c.rootNode :: (pre ++ [a])).getLastD b = a := by
        simp [getLastD_eq_getLast?,getLast?_append,getLast?_cons]
      have whole : (c.rootNode :: (pre ++ [a])) ++ (b :: suf) = c.rootNode :: (pre ++ a :: b :: suf) := by simp
      have ring := (ring_rotate (c.rootNode :: (pre ++ [a])) (b :: suf)).mp (whole ▸ ringed.linked)
      have turned := whole ▸ @perm_append_comm _ (b :: suf) (c.rootNode :: (pre ++ [a]))
      have back : (c.rootNode :: (pre ++ [a])) ++ (newNode :: b :: suf) = c.rootNode :: (pre ++ a :: newNode :: b :: suf) := by simp
      have linked := linkIn_ringed object (suf ++ c.rootNode :: (pre ++ [a])) (pre ++ a :: newNode :: b :: suf)
        ringed unused turned ring
        (fun ring => back ▸ (ring_rotate (newNode :: b :: suf) (c.rootNode :: (pre ++ [a]))).mp ring)
        (back ▸ @perm_append_comm _ (c.rootNode :: (pre ++ [a])) (newNode :: b :: suf))
      rw [last] at linked
      exact linked
  exact ⟨_,performed,ring.setCount _,rfl,rfl,rfl⟩

theorem remove_at_ctnr_at {pos : Int} (ringed : c.Ringed (pre ++ a :: suf)) (found : c.nodeAt pos = some (some a)) :
    ∃ c', c.remove_at_ctnr pos = some (c',c.data a) ∧ c.Leaves c' (pre ++ suf) (c.count-1) c.currentNode := by
  obtain ⟨c',performed,left,_⟩ := unlink_ringed pre suf ringed
  refine ⟨c'.setCount (c'.count-1),?_,left.ringed.setCount _,left.root,?_,left.points⟩
  · simp only [remove_at_ctnr,found,bind_eq_bind,bind_some,performed]
  · show c'.count-1 = c.count-1
    rw [left.counts]

theorem pop_ctnr_nil (ringed : c.Ringed []) : c.pop_ctnr = some (c,none) := by
  have here : c.next c.rootNode = some c.rootNode := ringed.root_neighbours.1.1
  simp [pop_ctnr,here]

theorem pop_ctnr_cons {suf : List N} (ringed : c.Ringed (a :: suf)) :
    ∃ c', c.pop_ctnr = some (c',c.data a) ∧ c.Leaves c' suf (c.count-1) c.currentNode := by
  obtain ⟨c',performed,left,_⟩ := unlink_ringed [] suf ringed
  obtain ⟨⟨after,_⟩,first,before⟩ := Ringed.neighbours [] suf ringed
  rw [getLastD_nil] at first before
  have other : a ≠ c.rootNode := fun same => (nodup_cons.mp ringed.nodup).1 (by simp [same])
  refine ⟨c'.setCount (c'.count-1),?_,left.ringed.setCount _,left.root,?_,left.points⟩
  · simp only [unlink,before,after,bind_eq_bind,bind_some,some.injEq] at performed
    simp only [pop_ctnr,first,if_neg other,after,bind_eq_bind,bind_some,performed]
  · show c'.count-1 = c.count-1
    rw [left.counts]

theorem popAll_ringed (fuel : Nat) (ringed : c.Ringed l) (enough : l.length ≤ fuel) :
    ∃ c', popAll fuel c = some c' ∧ c.Leaves c' [] (c.count-l.length) c.currentNode := by
  induction fuel generalizing c l with
  | zero =>
    obtain rfl := length_eq_zero_iff.mp (Nat.le_zero.mp enough)
    exact ⟨c,rfl,by simpa using Leaves.same ringed⟩
  | succ fuel ih =>
    cases l with
    | nil =>
      obtain ⟨c',performed,left⟩ := ih ringed (Nat.zero_le fuel)
      refine ⟨c',?_,left⟩
      simpa [popAll,pop_ctnr_nil ringed] using performed
    | cons a suf =>
      obtain ⟨c₁,popped,left₁⟩ := pop_ctnr_cons ringed
      obtain ⟨c',performed,left⟩ := ih left₁.ringed (by simpa using enough)
      refine ⟨c',?_,left.ringed,left.root.trans left₁.root,?_,left.points.trans left₁.points⟩
      · simpa [popAll,popped] using performed
      · rw [left.counts,left₁.counts,length_cons]
        omega

theorem empty_ctnr_ringed (ringed : c.Ringed l) (counts : c.count = l.length) :
    ∃ c', c.empty_ctnr = some c' ∧ c.Leaves c' [] 0 c.currentNode := by
  obtain ⟨c',performed,left⟩ := popAll_ringed (c.level_ctnr+1).toNat ringed (by rw [level_ctnr]; omega)
  refine ⟨c',performed,left.ringed,left.root,?_,left.points⟩
  rw [left.counts,counts,Int.sub_self]

theorem swap_ctnr_ringed (ringed : c.Ringed l) (counts : c.count = l.length) (pos1 pos2 : Int) :
    ∃ c', c.swap_ctnr pos1 pos2 = some c' ∧ c.Leaves c' l c.count c.currentNode := by
  by_cases same : pos1 = pos2
  · exact ⟨c,by rw [swap_ctnr,if_pos same],Leaves.same ringed⟩
  · rcases nodeAt_cases ringed counts pos1 with none1 | ⟨pre1,a,suf1,split1,found1⟩
    · rcases nodeAt_cases ringed counts pos2 with none2 | ⟨pre2,b,suf2,split2,found2⟩
      · exact ⟨c,by simp [swap_ctnr,same,none1,none2],Leaves.same ringed⟩
      · exact ⟨c,by simp [swap_ctnr,same,none1,found2],Leaves.same ringed⟩
    · rcases nodeAt_cases ringed counts pos2 with none2 | ⟨pre2,b,suf2,split2,found2⟩
      · exact ⟨c,by simp [swap_ctnr,same,found1,none2],Leaves.same ringed⟩
      · have full := ringed.full a (by simp [split1])
        have full' := ringed.full b (by simp [split2])
        have live := ringed.live (a := a) (by simp [split1])
        have live' := ringed.live (a := b) (by simp [split2])
        refine ⟨(c.setData a (c.data b)).setData b (c.data a),by simp [swap_ctnr,same,found1,found2],?_,rfl,rfl,rfl⟩
        refine Ringed.of_links (c := c) rfl ringed.nodup ringed.linked ?_ ?_
        · intro x y link
          simpa [Linked] using link
        · intro x member
          have old := ringed.full x member
          by_cases atB : x = b
          · simp [live',atB,full]
          · by_cases atA : x = a
            · simp [live,live',atA,atA ▸ atB,full']
            · simpa [live,live',atA,atB] using old

theorem first_ctnr_cons {suf : List N} (ringed : c.Ringed (a :: suf)) : c.first_ctnr = some (c.setCurrent a,c.data a) := by
  have first : c.next c.rootNode = some a := ringed.root_neighbours.1.1
  have other : a ≠ c.rootNode := fun same => (nodup_cons.mp ringed.nodup).1 (by simp [same])
  simp [first_ctnr,first,other]

theorem first_ctnr_nil (ringed : c.Ringed []) : c.first_ctnr = some (c,none) := by
  have here : c.next c.rootNode = some c.rootNode := ringed.root_neighbours.1.1
  simp [first_ctnr,here]

theorem next_ctnr_ringed (ringed : c.Ringed (pre ++ suf)) (cursor : c.currentNode = pre.getLastD c.rootNode) :
    c.next_ctnr = match suf with
      | [] => some (c,none)
      | a :: _ => some (c.setCurrent a,c.data a) := by
  have step : c.next c.currentNode = some (suf.headD c.rootNode) := by
    rw [cursor]
    cases pre using reverseRecOn with
    | nil => exact ringed.root_neighbours.1.1
    | append_singleton pre b =>
      rw [getLastD_concat]
      rw [append_assoc,singleton_append] at ringed
      exact (ringed.neighbours _ _).1.1
  cases suf with
  | nil => simp [next_ctnr,step]
  | cons a suf =>
    have other : a ≠ c.rootNode := fun same => (nodup_cons.mp ringed.nodup).1 (by simp [same])
    simp [next_ctnr,step,other]

theorem remove_ctnr_root (cursor : c.currentNode = c.rootNode) : c.remove_ctnr = some (c,none) := by
  rw [remove_ctnr,if_pos cursor]

theorem remove_ctnr_at (ringed : c.Ringed (pre ++ a :: suf)) (cursor : c.currentNode = a) :
    ∃ c', c.remove_ctnr = some (c',c.data a) ∧ c.Leaves c' (pre ++ suf) (c.count-1) (pre.getLastD c.rootNode) ∧
      ∀ x, x ≠ a → c'.data x = c.data x := by
  obtain ⟨c',performed,left,data⟩ := unlink_ringed pre suf ringed
  have other : a ≠ c.rootNode := fun same => (nodup_cons.mp ringed.nodup).1 (by simp [same])
  have before := (ringed.neighbours _ _).2.2
  refine ⟨(c'.setCount (c'.count-1)).setCurrent (pre.getLastD c.rootNode),?_,⟨?_,left.root,?_,rfl⟩,data⟩
  · simp only [remove_ctnr,cursor,if_neg other,before,performed,bind_eq_bind,bind_some]
  · exact (left.ringed.setCount _).setCurrent _
  · show c'.count-1 = c.count-1
    rw [left.counts]

end Container
end KdeWorkspace.Containers
