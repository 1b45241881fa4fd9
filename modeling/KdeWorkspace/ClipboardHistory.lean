import KdeWorkspace.Loops
import KdeWorkspace.Rings
import Mathlib.Data.List.AList

/-!
Klipper's history: a hash of clipboard items by their uuids, each of which holds
the uuids of the one before and the one after it in a ring, with pointers to the
top item and to the next one of a cycle through the history.

A run of operations keeps the ring (`run_ring`) as long as no step is careless:
`remove` leaves a stale top pointer when it takes the only item, and it, `slotClear`
and a trim by `setMaxSize` leave a stale cycle pointer when they take the item it
points to.
-/
namespace KdeWorkspace.ClipboardHistory
open Loops List Option
open Rings
set_option linter.unusedSectionVars false
variable {Uuid Ref : Type} [DecidableEq Uuid] [DecidableEq Ref]

structure HistoryItem (Uuid : Type) where
  previous_uuid : Uuid
  uuid : Uuid
  next_uuid : Uuid
deriving Repr, DecidableEq

/-- The items that have not been deleted, by their addresses. -/
abbrev Heap (Uuid Ref : Type) : Type := Ref → Option (HistoryItem Uuid)

namespace Heap

def setNext (heap : Heap Uuid Ref) (item : Ref) (uuid : Uuid) : Heap Uuid Ref :=
  Function.update heap item ((heap item).map fun x => { x with next_uuid := uuid })

def setPrevious (heap : Heap Uuid Ref) (item : Ref) (uuid : Uuid) : Heap Uuid Ref :=
  Function.update heap item ((heap item).map fun x => { x with previous_uuid := uuid })

def delete (heap : Heap Uuid Ref) (item : Ref) : Heap Uuid Ref := Function.update heap item none

/-- `item->chain(next)`; there is no result when a pointer is null or its item has been deleted. -/
def chain (heap : Heap Uuid Ref) (item next : Option Ref) : Option (Heap Uuid Ref) := do
  let a ← item
  let b ← next
  let x ← heap a
  let y ← heap b
  some ((heap.setNext a y.uuid).setPrevious b x.uuid)

def insertBetweeen (heap : Heap Uuid Ref) (item : Ref) (prev next : Option Ref) : Option (Heap Uuid Ref) :=
  match prev,next with
  | some prev,some next => do
    let heap ← heap.chain (some prev) (some item)
    heap.chain (some item) (some next)
  | _,_ => do
    let x ← heap item
    some ((heap.setNext item x.uuid).setPrevious item x.uuid)

end Heap

structure History (Uuid Ref : Type) where
  heap : Heap Uuid Ref
  items : AList (fun _ : Uuid => Option Ref)
  top : Option Ref
  maxSize : UInt32
  topIsUserSelected : Bool
  nextCycle : Option Ref

namespace History

/-- A history without items, of a size that has been set. -/
def opened (heap : Heap Uuid Ref) (maxSize : UInt32) : History Uuid Ref := ⟨heap,∅,none,maxSize,false,none⟩

def count (h : History Uuid Ref) : Nat := h.items.keys.length

/-- `m_items[uuid]`, which puts a null entry where there is none. -/
def entryAt (h : History Uuid Ref) (uuid : Uuid) : Option Ref × History Uuid Ref :=
  match h.items.lookup uuid with
  | some entry => (entry,h)
  | none => (none,{ h with items := h.items.insert uuid none })

def find (h : History Uuid Ref) (uuid : Uuid) : Option Ref := (h.items.lookup uuid).join

/-- The loop of `trim`: the entry of `bottom` is deleted, and `i` entries in all. -/
def deleteBottom : Nat → Uuid → History Uuid Ref → Option (Uuid × History Uuid Ref)
  | 0,bottom,h => some (bottom,h)
  | i+1,it,h => do
    let entry ← h.items.lookup it
    let item ← entry
    let x ← h.heap item
    deleteBottom i x.previous_uuid { h with heap := h.heap.delete item, items := h.items.erase it }

/-- `m_items.count() - maxSize()`, subtracted as unsigned and taken as an int. -/
def excess (h : History Uuid Ref) : Int := ((h.count : Int)-h.maxSize.toNat).bmod (2^32)

def trim (h : History Uuid Ref) : Option (History Uuid Ref) :=
  match h.top with
  | none => some h
  | some top =>
    if h.excess ≤ 0 then some h
    else do
      let x ← h.heap top
      let (bottom,h) ← deleteBottom h.excess.toNat x.previous_uuid h
      let entry ← h.items.lookup bottom
      let heap ← h.heap.chain entry (some top)
      some { h with heap := heap, nextCycle := if h.count ≤ 1 then none else h.nextCycle }

def forceInsert (h : History Uuid Ref) (item : Option Ref) : Option (History Uuid Ref) :=
  match item with
  | none => some h
  | some item => do
    let x ← h.heap item
    if x.uuid ∈ h.items then some h
    else
      let h := { h with nextCycle := h.top }
      let (prev,h) ← match h.top with
        | none => some (none,h)
        | some top => (h.heap top).map fun y => h.entryAt y.previous_uuid
      let heap ← h.heap.insertBetweeen item prev h.top
      trim { h with heap := heap, items := h.items.insert x.uuid (some item), top := some item }

def slotMoveToTop (h : History Uuid Ref) (uuid : Uuid) : Option (History Uuid Ref) :=
  match h.items.lookup uuid with
  | none => some h
  | some it =>
    if it = h.top then some h
    else do
      let h := { h with topIsUserSelected := true, nextCycle := h.top }
      let item ← it
      let x ← h.heap item
      let (prev,h) := h.entryAt x.previous_uuid
      let (next,h) := h.entryAt x.next_uuid
      let heap ← h.heap.chain prev next
      let top ← h.top
      let y ← heap top
      let (last,h) := { h with heap := heap }.entryAt y.previous_uuid
      let heap ← h.heap.insertBetweeen item last h.top
      some { h with heap := heap, top := some item }

def insert (h : History Uuid Ref) (item : Option Ref) : Option (History Uuid Ref) :=
  match item with
  | none => some h
  | some item => do
    let h := { h with topIsUserSelected := false }
    let x ← h.heap item
    match h.find x.uuid with
    | some existing =>
      if some existing = h.top then some h
      else do
        let y ← h.heap existing
        h.slotMoveToTop y.uuid
    | none => h.forceInsert (some item)

def remove (h : History Uuid Ref) (newItem : Option Ref) : Option (History Uuid Ref) :=
  match newItem with
  | none => some h
  | some newItem => do
    let x ← h.heap newItem
    match h.items.lookup x.uuid with
    | none => some h
    | some it => do
      let h ←
        if it = h.top then do
          let top ← h.top
          let y ← h.heap top
          let (next,h) := h.entryAt y.next_uuid
          some { h with top := next }
        else some h
      let item ← it
      let y ← h.heap item
      let (prev,h) := h.entryAt y.previous_uuid
      let (next,h) := h.entryAt y.next_uuid
      let heap ← h.heap.chain prev next
      some { h with heap := heap, items := h.items.erase x.uuid }

/-- `qDeleteAll` deletes the items; the pointer of the cycle is not touched. -/
def slotClear (h : History Uuid Ref) : Option (History Uuid Ref) :=
  some { h with
    heap := fun item => if some item ∈ h.items.entries.map Sigma.snd then none else h.heap item
    items := ∅
    top := none }

def setMaxSize (h : History Uuid Ref) (max_size : UInt32) : Option (History Uuid Ref) :=
  trim { h with maxSize := max_size }

def cycleNext (h : History Uuid Ref) : Option (History Uuid Ref) :=
  match h.top,h.nextCycle with
  | some top,some nextCycle =>
    if nextCycle = top then some h
    else do
      let x ← h.heap nextCycle
      let (prev,h) := h.entryAt x.previous_uuid
      let (next,h) := h.entryAt x.next_uuid
      if prev = next then some { h with top := some nextCycle }
      else do
        let y ← h.heap top
        let (endofhist,h) := h.entryAt y.previous_uuid
        let (aftertop,h) := h.entryAt y.next_uuid
        let (prev,next,endofhist,aftertop) :=
          if prev = some top then (some nextCycle,next,endofhist,some top)
          else if next = some top then (prev,some nextCycle,some top,aftertop)
          else (prev,next,endofhist,aftertop)
        let heap ← h.heap.insertBetweeen top prev next
        let heap ← heap.insertBetweeen nextCycle endofhist aftertop
        some { h with heap := heap, top := some nextCycle, nextCycle := next }
  | _,_ => some h

def cyclePrev (h : History Uuid Ref) : Option (History Uuid Ref) :=
  match h.top,h.nextCycle with
  | some top,some nextCycle => do
    let x ← h.heap nextCycle
    let (prev,h) := h.entryAt x.previous_uuid
    if prev = some top then some h
    else do
      let p ← prev
      let y ← h.heap p
      let (prevprev,h) := h.entryAt y.previous_uuid
      let z ← h.heap top
      let (aftertop,h) := h.entryAt z.next_uuid
      if some nextCycle = prevprev then some { h with top := aftertop }
      else do
        let (endofhist,h) := h.entryAt z.previous_uuid
        let (prevprev,cycle,endofhist,aftertop) :=
          if prevprev = some top then (some p,some nextCycle,endofhist,some top)
          else if nextCycle = top then (prevprev,aftertop,some top,aftertop)
          else (prevprev,some nextCycle,endofhist,aftertop)
        let heap ← h.heap.insertBetweeen top prevprev cycle
        let heap ← heap.insertBetweeen p endofhist aftertop
        some { h with heap := heap, top := some p, nextCycle := some top }
  | _,_ => some h

end History

/-- What is asked of the history. -/
inductive Op (Uuid Ref : Type)
  | insert (item : Option Ref)
  | forceInsert (item : Option Ref)
  | slotMoveToTop (uuid : Uuid)
  | remove (item : Option Ref)
  | slotClear
  | setMaxSize (max_size : UInt32)
  | cycleNext
  | cyclePrev

def perform (h : History Uuid Ref) : Op Uuid Ref → Option (History Uuid Ref)
  | .insert item => h.insert item
  | .forceInsert item => h.forceInsert item
  | .slotMoveToTop uuid => h.slotMoveToTop uuid
  | .remove item => h.remove item
  | .slotClear => h.slotClear
  | .setMaxSize max_size => h.setMaxSize max_size
  | .cycleNext => h.cycleNext
  | .cyclePrev => h.cyclePrev

namespace Heap

def uuidOf (heap : Heap Uuid Ref) (item : Ref) : Option Uuid := (heap item).map (·.uuid)

/-- The two items name each other as next and previous. -/
def Linked (heap : Heap Uuid Ref) (a b : Ref) : Prop :=
  ∃ x y, heap a = some x ∧ heap b = some y ∧ x.next_uuid = y.uuid ∧ y.previous_uuid = x.uuid

/-- `heap'` differs from `heap` in its links only, and has those of `R`. -/
structure Relinks (heap heap' : Heap Uuid Ref) (R : Ref → Ref → Prop) : Prop where
  uuids : ∀ item, heap'.uuidOf item = heap.uuidOf item
  links : ∀ a b, R a b → heap'.Linked a b

variable {heap heap' : Heap Uuid Ref} {R : Ref → Ref → Prop} {a b i : Ref}

theorem relinks_self (heap : Heap Uuid Ref) : Relinks heap heap heap.Linked := ⟨fun _ => rfl,fun _ _ link => link⟩

theorem Linked.uuid_next {x : HistoryItem Uuid} (link : heap.Linked a b) (item : heap a = some x) :
    heap.uuidOf b = some x.next_uuid := by
  obtain ⟨x',y,fst,snd,next,_⟩ := link
  obtain rfl := some.inj (item.symm.trans fst)
  simp [uuidOf,snd,next]

theorem Linked.uuid_previous {y : HistoryItem Uuid} (link : heap.Linked a b) (item : heap b = some y) :
    heap.uuidOf a = some y.previous_uuid := by
  obtain ⟨x,y',fst,snd,_,previous⟩ := link
  obtain rfl := some.inj (item.symm.trans snd)
  simp [uuidOf,fst,previous]

@[simp]
theorem uuidOf_setNext (heap : Heap Uuid Ref) (item r : Ref) (uuid : Uuid) :
    (heap.setNext item uuid).uuidOf r = heap.uuidOf r := by
  by_cases same : r = item
  · subst same
    cases found : heap r <;> simp [uuidOf,setNext,found]
  · simp [uuidOf,setNext,same]

@[simp]
theorem uuidOf_setPrevious (heap : Heap Uuid Ref) (item r : Ref) (uuid : Uuid) :
    (heap.setPrevious item uuid).uuidOf r = heap.uuidOf r := by
  by_cases same : r = item
  · subst same
    cases found : heap r <;> simp [uuidOf,setPrevious,found]
  · simp [uuidOf,setPrevious,same]

/-- Setting the two pointers between `a` and `b` links them. -/
theorem linked_set {x y : HistoryItem Uuid} (fst : heap a = some x) (snd : heap b = some y) :
    ((heap.setNext a y.uuid).setPrevious b x.uuid).Linked a b := by
  by_cases same : a = b
  · subst same
    obtain rfl := some.inj (fst.symm.trans snd)
    refine ⟨⟨x.uuid,x.uuid,x.uuid⟩,⟨x.uuid,x.uuid,x.uuid⟩,?_,?_,rfl,rfl⟩ <;> simp [setNext,setPrevious,fst]
  · refine ⟨{ x with next_uuid := y.uuid },{ y with previous_uuid := x.uuid },?_,?_,rfl,rfl⟩
    · simp [setNext,setPrevious,same,fst]
    · simp [setNext,setPrevious,Ne.symm same,snd]

/-- Links from other items than `a` to other items than `b` stay. -/
theorem linked_set_of_ne {p q : Ref} {u v : Uuid} (from_other : p ≠ a) (to_other : q ≠ b) (link : heap.Linked p q) :
    ((heap.setNext a u).setPrevious b v).Linked p q := by
  obtain ⟨x,y,fst,snd,next,previous⟩ := link
  refine ⟨if p = b then { x with previous_uuid := v } else x,if q = a then { y with next_uuid := u } else y,?_,?_,?_,?_⟩
  · by_cases same : p = b
    · subst same
      simp [setNext,setPrevious,from_other,fst]
    · simp [setNext,setPrevious,from_other,same,fst]
  · by_cases same : q = a
    · subst same
      simp [setNext,setPrevious,to_other,snd]
    · simp [setNext,setPrevious,to_other,same,snd]
  · split <;> split <;> exact next
  · split <;> split <;> exact previous

theorem Relinks.set {x y : HistoryItem Uuid} (before : Relinks heap heap' R) (fst : heap' a = some x) (snd : heap' b = some y) :
    Relinks heap ((heap'.setNext a y.uuid).setPrevious b x.uuid) (Relinked R a b) := by
  constructor
  · intro item
    rw [uuidOf_setPrevious,uuidOf_setNext,before.uuids]
  · rintro p q (⟨rfl,rfl⟩ | ⟨from_other,to_other,link⟩)
    · exact linked_set fst snd
    · exact linked_set_of_ne from_other to_other (before.links p q link)

theorem Relinks.live (before : Relinks heap heap' R) (live : (heap.uuidOf a).isSome) : ∃ x, heap' a = some x := by
  rw [← before.uuids a,uuidOf,isSome_map] at live
  exact isSome_iff_exists.mp live

theorem Relinks.chain (before : Relinks heap heap' R) (live : (heap.uuidOf a).isSome) (live' : (heap.uuidOf b).isSome) :
    ∃ heap'', heap'.chain (some a) (some b) = some heap'' ∧ Relinks heap heap'' (Relinked R a b) := by
  obtain ⟨x,fst⟩ := before.live live
  obtain ⟨y,snd⟩ := before.live live'
  exact ⟨_,by simp [Heap.chain,fst,snd],before.set fst snd⟩

theorem Relinks.insertBetweeen (prev next : Ref) (before : Relinks heap heap' R) (live : (heap.uuidOf i).isSome)
    (live_prev : (heap.uuidOf prev).isSome) (live_next : (heap.uuidOf next).isSome) :
    ∃ heap'', heap'.insertBetweeen i (some prev) (some next) = some heap'' ∧
      Relinks heap heap'' (Relinked (Relinked R prev i) i next) := by
  obtain ⟨one,chained,before⟩ := before.chain live_prev live
  obtain ⟨two,chained',before⟩ := before.chain live live_next
  exact ⟨two,by simp [Heap.insertBetweeen,chained,chained'],before⟩

theorem Relinks.insertBetweeen_first (next : Option Ref) (before : Relinks heap heap' R) (live : (heap.uuidOf i).isSome) :
    ∃ heap'', heap'.insertBetweeen i none next = some heap'' ∧ Relinks heap heap'' (Relinked R i i) := by
  obtain ⟨x,found⟩ := before.live live
  exact ⟨_,by simp [Heap.insertBetweeen,found],before.set found found⟩

end Heap

/-- The entries are the items of the list under their uuids, and nothing else. -/
structure Listed (heap : Heap Uuid Ref) (items : AList (fun _ : Uuid => Option Ref)) (l : List Ref) : Prop where
  nodup : l.Nodup
  live : ∀ r ∈ l, (heap.uuidOf r).isSome
  entry : ∀ k v, items.lookup k = some v ↔ ∃ r ∈ l, v = some r ∧ heap.uuidOf r = some k
  count : items.keys.length = l.length

namespace Listed
variable {heap heap' : Heap Uuid Ref} {items : AList (fun _ : Uuid => Option Ref)} {l l' : List Ref} {r : Ref} {k : Uuid}

theorem perm (listed : Listed heap items l) (perm : l.Perm l') : Listed heap items l' where
  nodup := perm.nodup listed.nodup
  live := fun r within => listed.live r (perm.mem_iff.mpr within)
  entry := by
    intro k v
    rw [listed.entry]
    exact exists_congr fun r => and_congr_left fun _ => perm.mem_iff
  count := listed.count.trans perm.length_eq

theorem of_uuids (listed : Listed heap items l) (same : ∀ r ∈ l, heap'.uuidOf r = heap.uuidOf r) :
    Listed heap' items l where
  nodup := listed.nodup
  live := by
    intro r within
    rw [same r within]
    exact listed.live r within
  entry := by
    intro k v
    rw [listed.entry]
    exact exists_congr fun r => and_congr_right fun within => by rw [same r within]
  count := listed.count

theorem lookup (listed : Listed heap items l) (within : r ∈ l) (uuid : heap.uuidOf r = some k) :
    items.lookup k = some (some r) :=
  (listed.entry k (some r)).mpr ⟨r,within,rfl,uuid⟩

theorem uuid_injective (listed : Listed heap items l) {s : Ref} (within : r ∈ l) (within' : s ∈ l)
    (uuid : heap.uuidOf r = some k) (uuid' : heap.uuidOf s = some k) : r = s := by
  have fst := listed.lookup within uuid
  have snd := listed.lookup within' uuid'
  exact some.inj (some.inj (fst.symm.trans snd))

theorem notMem (listed : Listed heap items l) (absent : k ∉ items) (uuid : heap.uuidOf r = some k) : r ∉ l := by
  intro within
  have found := listed.lookup within uuid
  rw [AList.lookup_eq_none.mpr absent] at found
  exact nomatch found

theorem insert (listed : Listed heap items l) (absent : k ∉ items) (uuid : heap.uuidOf r = some k) :
    Listed heap (items.insert k (some r)) (r :: l) where
  nodup := nodup_cons.mpr ⟨listed.notMem absent uuid,listed.nodup⟩
  live := by
    intro s within
    rcases mem_cons.mp within with rfl | within
    · simp [uuid]
    · exact listed.live s within
  entry := by
    intro k' v
    by_cases same : k' = k
    · subst same
      rw [AList.lookup_insert]
      constructor
      · intro found
        exact ⟨r,mem_cons_self,(some.inj found).symm,uuid⟩
      · rintro ⟨s,within,rfl,uuid'⟩
        rcases mem_cons.mp within with rfl | within
        · rfl
        · exact absurd within (listed.notMem absent uuid')
    · rw [AList.lookup_insert_ne same,listed.entry]
      constructor
      · rintro ⟨s,within,rest⟩
        exact ⟨s,mem_cons_of_mem r within,rest⟩
      · rintro ⟨s,within,rfl,uuid'⟩
        rcases mem_cons.mp within with rfl | within
        · exact absurd (some.inj (uuid'.symm.trans uuid)) same
        · exact ⟨s,within,rfl,uuid'⟩
  count := by
    have fresh : k ∉ items.keys := fun within => absent (AList.mem_keys.mpr within)
    rw [AList.keys_insert,erase_of_not_mem fresh,length_cons,length_cons,listed.count]

theorem erase (listed : Listed heap items l) (within : r ∈ l) (uuid : heap.uuidOf r = some k) :
    Listed heap (items.erase k) (l.erase r) where
  nodup := listed.nodup.erase r
  live := fun s remains => listed.live s (mem_of_mem_erase remains)
  entry := by
    intro k' v
    by_cases same : k' = k
    · subst same
      rw [AList.lookup_erase]
      constructor
      · intro found
        exact nomatch found
      · rintro ⟨s,remains,rfl,uuid'⟩
        obtain ⟨other,remains⟩ := (listed.nodup.mem_erase_iff).mp remains
        exact absurd (listed.uuid_injective remains within uuid' uuid) other
    · rw [AList.lookup_erase_ne same,listed.entry]
      constructor
      · rintro ⟨s,remains,rfl,uuid'⟩
        refine ⟨s,(listed.nodup.mem_erase_iff).mpr ⟨?_,remains⟩,rfl,uuid'⟩
        rintro rfl
        exact same (some.inj (uuid'.symm.trans uuid))
      · rintro ⟨s,remains,rest⟩
        exact ⟨s,mem_of_mem_erase remains,rest⟩
  count := by
    have held : k ∈ items.keys := by
      rw [← AList.mem_keys,← AList.lookup_isSome,listed.lookup within uuid]
      rfl
    rw [AList.keys_erase,length_erase_of_mem held,length_erase_of_mem within,listed.count]

theorem relinks {R : Ref → Ref → Prop} (listed : Listed heap items l) (after : heap.Relinks heap' R) :
    Listed heap' items l :=
  listed.of_uuids fun r _ => after.uuids r

theorem found (listed : Listed heap items l) (within : r ∈ l) : ∃ x, heap r = some x :=
  (heap.relinks_self).live (listed.live r within)

/-- The entry under `next_uuid` is the next item. -/
theorem next (listed : Listed heap items l) {s : Ref} {x : HistoryItem Uuid} (link : heap.Linked r s) (within : s ∈ l)
    (item : heap r = some x) : items.lookup x.next_uuid = some (some s) :=
  listed.lookup within (link.uuid_next item)

theorem previous (listed : Listed heap items l) {s : Ref} {y : HistoryItem Uuid} (link : heap.Linked r s) (within : r ∈ l)
    (item : heap s = some y) : items.lookup y.previous_uuid = some (some r) :=
  listed.lookup within (link.uuid_previous item)

end Listed

namespace History

/-- The history is the ring of the items of the list, from the top item on. -/
structure Ringed (h : History Uuid Ref) (ring : List Ref) : Prop where
  listed : Listed h.heap h.items ring
  linked : Ring h.heap.Linked ring
  top : h.top = ring.head?
  cycle : ∀ c, h.nextCycle = some c → c ∈ ring

variable {h : History Uuid Ref} {ring : List Ref}

variable {l l' : List Ref} {x : HistoryItem Uuid}

theorem unlinked {heap : Heap Uuid Ref} {items : AList (fun _ : Uuid => Option Ref)} {r : Ref}
    (listed : Listed heap items (l ++ r :: l')) (linked : Ring heap.Linked (l ++ r :: l')) (item : heap r = some x) :
    ∃ prev next heap', items.lookup x.previous_uuid = some (some prev) ∧ items.lookup x.next_uuid = some (some next) ∧
      heap.chain (some prev) (some next) = some heap' ∧ (∀ i, heap'.uuidOf i = heap.uuidOf i) ∧
      Ring heap'.Linked (l ++ l') := by
  have here : r ∈ l ++ r :: l' := by simp
  have within : ∀ a ∈ l' ++ l, a ∈ l ++ r :: l' := by grind
  have last := getLastD_mem here within
  have first := headD_mem here within
  obtain ⟨next,previous⟩ := linked.neighbours
  obtain ⟨heap',chained,after⟩ := heap.relinks_self.chain (listed.live _ last) (listed.live _ first)
  refine ⟨_,_,heap',listed.previous previous last item,listed.next next first item,chained,after.uuids,?_⟩
  rw [ring_rotate]
  rw [ring_rotate,cons_append] at linked
  have nodup : (r :: (l' ++ l)).Nodup := by
    rw [← cons_append]
    exact (perm_append_comm.nodup_iff).mp listed.nodup
  exact (ring_remove linked nodup).imp after.links

theorem linked_front {heap : Heap Uuid Ref} {items : AList (fun _ : Uuid => Option Ref)} {r t : Ref}
    {y : HistoryItem Uuid} (listed : Listed heap items l') (within : ∀ i ∈ t :: l, i ∈ l') (live : (heap.uuidOf r).isSome)
    (linked : Ring heap.Linked (t :: l)) (nodup : (r :: t :: l).Nodup) (item : heap t = some y) :
    ∃ last heap', items.lookup y.previous_uuid = some (some last) ∧
      heap.insertBetweeen r (some last) (some t) = some heap' ∧ (∀ i, heap'.uuidOf i = heap.uuidOf i) ∧
      Ring heap'.Linked (r :: t :: l) := by
  have last : l.getLastD t ∈ t :: l := getLastD_mem mem_cons_self fun a => mem_cons_of_mem t
  have first : t ∈ t :: l := mem_cons_self
  have link := (path_iff.mp (ring_cons.mp linked)).2.2
  obtain ⟨heap',inserted,after⟩ :=
    heap.relinks_self.insertBetweeen _ _ live (listed.live _ (within _ last)) (listed.live t (within t first))
  exact ⟨_,heap',listed.previous link (within _ last) item,inserted,after.uuids,(ring_insert linked nodup).imp after.links⟩

theorem slotMoveToTop_ringed (ringed : h.Ringed ring) (uuid : Uuid) :
    ∃ h' ring', h.slotMoveToTop uuid = some h' ∧ h'.Ringed ring' ∧ h'.maxSize = h.maxSize ∧
      ring'.length = ring.length := by
  cases found : h.items.lookup uuid with
  | none => exact ⟨h,ring,by simp [slotMoveToTop,found],ringed,rfl,rfl⟩
  | some it =>
    obtain ⟨r,within,rfl,key⟩ := (ringed.listed.entry uuid it).mp found
    cases ring with
    | nil => simp at within
    | cons t rest =>
      have top : h.top = some t := ringed.top
      by_cases same : r = t
      · exact ⟨h,t :: rest,by simp [slotMoveToTop,found,top,same],ringed,rfl,rfl⟩
      obtain ⟨l,l',rfl⟩ := append_of_mem ((mem_cons.mp within).resolve_left same)
      obtain ⟨x,item⟩ := ringed.listed.found within
      rw [← cons_append] at ringed
      obtain ⟨prev,next,heap',previous,following,chained,uuids,linked⟩ := unlinked ringed.listed ringed.linked item
      have perm : (t :: l ++ r :: l').Perm (r :: t :: (l ++ l')) := perm_middle
      have front := (ringed.listed.of_uuids fun i _ => uuids i).perm perm
      obtain ⟨y,item'⟩ := front.found (r := t) (by simp)
      obtain ⟨last,heap'',back,inserted,uuids',linked'⟩ :=
        linked_front front (fun _ => mem_cons_of_mem r) (front.live r (by simp)) linked front.nodup item'
      refine ⟨{ h with
        heap := heap''
        topIsUserSelected := true
        nextCycle := some t
        top := some r },r :: t :: (l ++ l'),?_,⟨front.of_uuids fun i _ => uuids' i,linked',rfl,?_⟩,rfl,by simp; omega⟩
      · simp [slotMoveToTop,found,top,same,item,entryAt,previous,following,chained,item',back,inserted]
      · simp

theorem deleted {heap : Heap Uuid Ref} {items : AList (fun _ : Uuid => Option Ref)} {l : List Ref} {b : Ref} {k : Uuid}
    (listed : Listed heap items (l ++ [b])) (chain : (l ++ [b]).IsChain heap.Linked) (uuid : heap.uuidOf b = some k) :
    Listed (heap.delete b) (items.erase k) l ∧ l.IsChain (heap.delete b).Linked ∧
      ∀ i ∈ l, (heap.delete b).uuidOf i = heap.uuidOf i := by
  have absent : b ∉ l := fun within => (nodup_append.mp listed.nodup).2.2 b within b (by simp) rfl
  have others {i : Ref} (within : i ∈ l) : heap.delete b i = heap i := by
    have other : i ≠ b := fun same => absent (same ▸ within)
    simp [Heap.delete,other]
  have same (i : Ref) (within : i ∈ l) : (heap.delete b).uuidOf i = heap.uuidOf i := by
    rw [Heap.uuidOf,Heap.uuidOf,others within]
  refine ⟨?_,?_,same⟩
  · have fewer := listed.erase (r := b) (by simp) uuid
    rw [erase_append_right _ absent,erase_cons_head,append_nil] at fewer
    exact fewer.of_uuids same
  · refine chain.left_of_append.imp_of_mem_imp ?_
    rintro i j fst snd ⟨x,y,link⟩
    refine ⟨x,y,?_⟩
    rw [others fst,others snd]
    exact link

theorem deleteBottom_listed {t : Ref} (kept bottom : List Ref) (h : History Uuid Ref) (k : Uuid)
    (listed : Listed h.heap h.items (t :: (kept ++ bottom))) (chain : (t :: (kept ++ bottom)).IsChain h.heap.Linked)
    (last : h.heap.uuidOf ((kept ++ bottom).getLastD t) = some k) :
    ∃ k' heap' items', deleteBottom bottom.length k h = some (k',{ h with heap := heap', items := items' }) ∧
      Listed heap' items' (t :: kept) ∧ (t :: kept).IsChain heap'.Linked ∧
      heap'.uuidOf (kept.getLastD t) = some k' := by
  induction bottom using reverseRecOn generalizing h k with
  | nil =>
    rw [append_nil] at listed chain last
    exact ⟨k,h.heap,h.items,rfl,listed,chain,last⟩
  | append_singleton bottom b ih =>
    rw [← append_assoc,← cons_append] at listed chain
    rw [← append_assoc,getLastD_concat] at last
    have within : b ∈ t :: (kept ++ bottom) ++ [b] := by simp
    have found := listed.lookup within last
    obtain ⟨x,item⟩ := listed.found within
    obtain ⟨fewer,chain',same⟩ := deleted listed chain last
    have above : (kept ++ bottom).getLastD t ∈ t :: (kept ++ bottom) :=
      getLastD_mem mem_cons_self fun a => mem_cons_of_mem t
    have back : (h.heap.delete b).uuidOf ((kept ++ bottom).getLastD t) = some x.previous_uuid := by
      rw [same _ above]
      exact (path_iff.mp chain).2.2.uuid_previous item
    obtain ⟨k',heap',items',rest,done⟩ :=
      ih { h with heap := h.heap.delete b, items := h.items.erase k } x.previous_uuid fewer chain' back
    refine ⟨k',heap',items',?_,done⟩
    rw [length_append,length_singleton]
    simpa [deleteBottom,found,item] using rest

/-- The difference of the numbers fits into an int. -/
def Fits (count : Nat) (maxSize : UInt32) : Prop :=
  -2^31 ≤ (count : Int)-maxSize.toNat ∧ (count : Int)-maxSize.toNat < 2^31

theorem excess_of_fits (fits : Fits h.count h.maxSize) : h.excess = (h.count : Int)-h.maxSize.toNat := by
  obtain ⟨low,high⟩ := fits
  exact Int.bmod_eq_of_le (by simpa using low) (by simpa using high)

theorem trim_ringed (ringed : h.Ringed ring) (fits : ring ≠ [] → Fits ring.length h.maxSize) (room : 1 ≤ h.maxSize.toNat)
    (spared : h.maxSize.toNat = 1 ∨ ∀ c, h.nextCycle = some c → c ∈ ring.take h.maxSize.toNat) :
    ∃ h' ring', h.trim = some h' ∧ h'.Ringed ring' ∧ h'.maxSize = h.maxSize ∧ ring'.length ≤ h.maxSize.toNat := by
  cases ring with
  | nil =>
    have top : h.top = none := ringed.top
    exact ⟨h,[],by simp [trim,top],ringed,rfl,Nat.zero_le _⟩
  | cons t rest =>
    have top : h.top = some t := ringed.top
    have counted : h.count = rest.length+1 := ringed.listed.count
    have excess := excess_of_fits (h := h) (counted ▸ fits (cons_ne_nil t rest))
    by_cases fit : h.excess ≤ 0
    · exact ⟨h,t :: rest,by simp [trim,top,fit],ringed,rfl,by simp; omega⟩
    obtain ⟨n,size⟩ : ∃ n, h.maxSize.toNat = n+1 := ⟨h.maxSize.toNat-1,by omega⟩
    have split : rest.take n ++ rest.drop n = rest := take_append_drop n rest
    have dropped : h.excess.toNat = (rest.drop n).length := by
      rw [length_drop]
      omega
    obtain ⟨x,item⟩ := ringed.listed.found (r := t) mem_cons_self
    have link := (path_iff.mp (ring_cons.mp ringed.linked)).2.2
    have last := link.uuid_previous item
    have listed := ringed.listed
    have linked := ringed.linked
    rw [← split] at listed linked last
    obtain ⟨k,heap',items',shrunk,listed',chain',bottom⟩ :=
      deleteBottom_listed (rest.take n) (rest.drop n) h x.previous_uuid listed linked.chain last
    have within : (rest.take n).getLastD t ∈ t :: rest.take n := getLastD_mem mem_cons_self fun a => mem_cons_of_mem t
    have entry := listed'.lookup within bottom
    obtain ⟨heap'',chained,after⟩ := heap'.relinks_self.chain (listed'.live _ within) (listed'.live t mem_cons_self)
    have closed : Ring heap''.Linked (t :: rest.take n) := (ring_close chain' listed'.nodup).imp after.links
    have counted' : items'.keys.length = (rest.take n).length+1 := listed'.count
    refine ⟨{ h with
      heap := heap''
      items := items'
      nextCycle := if items'.keys.length ≤ 1 then none else h.nextCycle },t :: rest.take n,?_,
      ⟨listed'.relinks after,closed,top,?_⟩,rfl,?_⟩
    · rw [← dropped] at shrunk
      generalize (rest.take n).getLastD t = b at entry chained
      simp only [trim,top,fit,item,shrunk,entry,chained,count,if_false,bind_eq_bind,bind_some]
      rfl
    · intro c current
      rcases spared with one | spared
      · have short : items'.keys.length ≤ 1 := by simp [counted']; omega
        simp [short] at current
      · split at current
        · exact nomatch current
        · have first := spared c current
          rwa [size,take_succ_cons] at first
    · simp [size]

theorem forceInsert_eq {item : Ref} (ringed : h.Ringed ring) (live : h.heap item = some x) (fresh : x.uuid ∉ h.items) :
    ∃ heap', h.forceInsert (some item) = trim { h with
        heap := heap'
        nextCycle := h.top
        items := h.items.insert x.uuid (some item)
        top := some item } ∧
      (∀ i, heap'.uuidOf i = h.heap.uuidOf i) ∧ Ring heap'.Linked (item :: ring) := by
  have uuid : h.heap.uuidOf item = some x.uuid := by simp [Heap.uuidOf,live]
  have longer := ringed.listed.insert fresh uuid
  have live' := longer.live item mem_cons_self
  cases ring with
  | nil =>
    have top : h.top = none := ringed.top
    obtain ⟨heap',inserted,after⟩ := h.heap.relinks_self.insertBetweeen_first none live'
    refine ⟨heap',by simp [forceInsert,live,fresh,top,inserted],after.uuids,?_⟩
    exact Ring.imp (ring_close (.singleton item) (nodup_singleton item)) after.links
  | cons t rest =>
    have top : h.top = some t := ringed.top
    obtain ⟨y,item'⟩ := ringed.listed.found (r := t) mem_cons_self
    obtain ⟨last,heap',back,inserted,uuids,linked⟩ := linked_front ringed.listed (fun _ within => within)
      live' ringed.linked longer.nodup item'
    exact ⟨heap',by simp [forceInsert,live,fresh,top,item',entryAt,back,inserted],uuids,linked⟩

theorem forceInsert_ringed {item : Ref} (ringed : h.Ringed ring) (live : h.heap item = some x)
    (room : 1 ≤ h.maxSize.toNat) (small : ring.length ≤ h.maxSize.toNat)
    (fits : x.uuid ∉ h.items → Fits (ring.length+1) h.maxSize) :
    ∃ h' ring', h.forceInsert (some item) = some h' ∧ h'.Ringed ring' ∧ h'.maxSize = h.maxSize ∧
      ring'.length ≤ h.maxSize.toNat := by
  by_cases held : x.uuid ∈ h.items
  · exact ⟨h,ring,by simp [forceInsert,live,held],ringed,rfl,small⟩
  have longer := ringed.listed.insert held (r := item) (by simp [Heap.uuidOf,live])
  obtain ⟨heap',computed,uuids,linked⟩ := forceInsert_eq ringed live held
  rw [computed]
  refine trim_ringed ⟨longer.of_uuids fun i _ => uuids i,linked,rfl,?_⟩ (fun _ => fits held) room ?_
  · intro c current
    exact mem_cons_of_mem item (mem_of_mem_head? (ringed.top ▸ current))
  · -- the cycle goes on with the old top, the second item
    by_cases one : h.maxSize.toNat = 1
    · exact .inl one
    · refine .inr fun c current => ?_
      obtain ⟨n,size⟩ : ∃ n, h.maxSize.toNat = n+2 := ⟨h.maxSize.toNat-2,by omega⟩
      cases ring with
      | nil => exact absurd (ringed.top ▸ current) (by simp)
      | cons t rest =>
        have same : t = c := some.inj (ringed.top.symm.trans current)
        simp [size,same]

theorem insert_ringed {item : Ref} (ringed : h.Ringed ring) (live : h.heap item = some x)
    (room : 1 ≤ h.maxSize.toNat) (small : ring.length ≤ h.maxSize.toNat)
    (fits : x.uuid ∉ h.items → Fits (ring.length+1) h.maxSize) :
    ∃ h' ring', h.insert (some item) = some h' ∧ h'.Ringed ring' ∧ h'.maxSize = h.maxSize ∧
      ring'.length ≤ h.maxSize.toNat := by
  have ringed' : Ringed { h with topIsUserSelected := false } ring := ⟨ringed.listed,ringed.linked,ringed.top,ringed.cycle⟩
  cases found : h.items.lookup x.uuid with
  | none =>
    have same : h.insert (some item) = forceInsert { h with topIsUserSelected := false } (some item) := by
      simp [insert,live,find,found]
    rw [same]
    exact forceInsert_ringed ringed' live room small fits
  | some entry =>
    obtain ⟨existing,within,rfl,uuid⟩ := (ringed.listed.entry _ _).mp found
    obtain ⟨y,item'⟩ := ringed.listed.found within
    by_cases top : some existing = h.top
    · exact ⟨_,ring,by simp [insert,live,find,found,top.symm],ringed',rfl,small⟩
    · have same : h.insert (some item) = slotMoveToTop { h with topIsUserSelected := false } y.uuid := by
        simp [insert,live,find,found,top,item']
      rw [same]
      obtain ⟨h',ring',moved,ringed'',size,length⟩ := slotMoveToTop_ringed ringed' y.uuid
      exact ⟨h',ring',moved,ringed'',size,length ▸ small⟩

theorem remove_ringed {item : Ref} (ringed : h.Ringed ring) (within : item ∈ ring) (others : ring.length ≠ 1)
    (spared : h.nextCycle ≠ some item) :
    ∃ h' ring', h.remove (some item) = some h' ∧ h'.Ringed ring' ∧ h'.maxSize = h.maxSize ∧
      ring'.length ≤ ring.length := by
  obtain ⟨x,live⟩ := ringed.listed.found within
  have uuid : h.heap.uuidOf item = some x.uuid := by simp [Heap.uuidOf,live]
  have found := ringed.listed.lookup within uuid
  have shorter := ringed.listed.erase within uuid
  obtain ⟨l,l',rfl⟩ := append_of_mem within
  obtain ⟨prev,next,heap',previous,following,chained,uuids,linked⟩ := unlinked ringed.listed ringed.linked live
  have absent : item ∉ l := fun before => by
    exact (nodup_append.mp ringed.listed.nodup).2.2 item before item (by simp) rfl
  rw [erase_append_right _ absent,erase_cons_head] at shorter
  refine ⟨{ h with
    heap := heap'
    items := h.items.erase x.uuid
    top := (l ++ l').head? },l ++ l',?_,⟨shorter.of_uuids fun i _ => uuids i,linked,rfl,?_⟩,rfl,by simp⟩
  · cases l with
    | nil =>
      have top : h.top = some item := ringed.top
      cases l' with
      | nil => simp at others
      | cons n l' =>
        have link : h.heap.Linked item n := ringed.linked.neighbours (l := []).1
        have after := ringed.listed.next link (by simp) live
        obtain rfl : next = n := some.inj (some.inj (following.symm.trans after))
        simp [remove,live,found,top,entryAt,previous,following,chained]
    | cons t l =>
      have top : h.top = some t := ringed.top
      have differ : item ≠ t := by grind
      simp [remove,live,found,top,differ,entryAt,previous,following,chained]
  · intro c current
    have other : c ≠ item := fun same => spared (same ▸ current)
    have held := ringed.cycle c current
    grind

theorem slotClear_ringed (h : History Uuid Ref) (idle : h.nextCycle = none) :
    ∃ h', h.slotClear = some h' ∧ h'.Ringed [] ∧ h'.maxSize = h.maxSize := by
  refine ⟨_,rfl,⟨⟨.nil,by simp,?_,by simp⟩,trivial,rfl,?_⟩,rfl⟩
  · simp
  · intro c current
    exact absurd (idle.symm.trans current) (by simp)

theorem reads {t n : Ref} {x y : HistoryItem Uuid} (ringed : h.Ringed (t :: (l ++ n :: l')))
    (item : h.heap n = some x) (item' : h.heap t = some y) :
    h.items.lookup x.previous_uuid = some (some (l.getLastD t)) ∧ h.items.lookup x.next_uuid = some (some (l'.headD t)) ∧
      h.items.lookup y.previous_uuid = some (some (l'.getLastD n)) ∧ h.items.lookup y.next_uuid = some (some (l.headD n)) := by
  obtain ⟨left,right⟩ := ring_two.mp ringed.linked
  obtain ⟨first,_,last⟩ := path_iff.mp left
  obtain ⟨first',_,last'⟩ := path_iff.mp right
  have listed := ringed.listed
  refine ⟨listed.previous last ?_ item,listed.next first' ?_ item,listed.previous last' ?_ item',listed.next first ?_ item'⟩
  · exact getLastD_mem (by simp) (by grind)
  · exact headD_mem (by simp) (by grind)
  · exact getLastD_mem (by simp) (by grind)
  · exact headD_mem (by simp) (by grind)

theorem swapped {t n : Ref} (ringed : h.Ringed (t :: (l ++ n :: l'))) (after : Ref)
    (next : after = l'.headD n ∨ l' = [] ∧ after = l.headD t) :
    ∃ heap' heap'', h.heap.insertBetweeen t (some (l.getLastD n)) (some after) = some heap' ∧
      heap'.insertBetweeen n (some (l'.getLastD t)) (some (l.headD t)) = some heap'' ∧
      ∀ c ∈ t :: (l ++ n :: l'),
        Ringed { h with heap := heap'', top := some n, nextCycle := some c } (n :: (l ++ t :: l')) := by
  have listed := ringed.listed
  have live {i : Ref} (within : i ∈ t :: (l ++ n :: l')) := listed.live i within
  have mem : after ∈ t :: (l ++ n :: l') := by
    rcases next with rfl | ⟨_,rfl⟩
    · exact headD_mem (by simp) (by grind)
    · exact headD_mem (by simp) (by grind)
  obtain ⟨heap',inserted,after'⟩ := h.heap.relinks_self.insertBetweeen (i := t) (l.getLastD n) after
    (live (by simp)) (live (getLastD_mem (by simp) (by grind))) (live mem)
  obtain ⟨heap'',inserted',after''⟩ := after'.insertBetweeen (i := n) (l'.getLastD t) (l.headD t)
    (live (by simp)) (live (getLastD_mem (by simp) (by grind))) (live (headD_mem (by simp) (by grind)))
  have perm : (t :: (l ++ n :: l')).Perm (n :: (l ++ t :: l')) := by
    have left : (l ++ n :: l').Perm (n :: (l ++ l')) := perm_middle
    have right : (n :: (l ++ t :: l')).Perm (n :: t :: (l ++ l')) := List.Perm.cons n perm_middle
    exact ((List.Perm.cons t left).trans (.swap n t _)).trans right.symm
  refine ⟨heap',heap'',inserted,inserted',fun c within => ?_⟩
  refine ⟨(listed.relinks after'').perm perm,(ring_swap ringed.linked listed.nodup next).imp after''.links,rfl,?_⟩
  intro d current
  obtain rfl := some.inj current
  exact perm.mem_iff.mp within

theorem entered {t n : Ref} (ringed : h.Ringed [t,n]) : Ringed { h with top := some n } [n,t] where
  listed := ringed.listed.perm (.swap n t [])
  linked := (ring_rotate [t] [n]).mp ringed.linked
  top := rfl
  cycle := fun c current => (List.Perm.swap n t []).mem_iff.mp (ringed.cycle c current)

theorem entryAt_found {uuid : Uuid} {entry : Option Ref} (found : h.items.lookup uuid = some entry) :
    h.entryAt uuid = (entry,h) := by
  simp [entryAt,found]

/-- `cycleNext` from the neighbours that the two items name. -/
theorem cycleNext_swaps {t n prev next last first : Ref} {x y : HistoryItem Uuid} (top : h.top = some t)
    (current : h.nextCycle = some n) (differ : n ≠ t) (item : h.heap n = some x) (item' : h.heap t = some y)
    (previous : h.items.lookup x.previous_uuid = some (some prev)) (following : h.items.lookup x.next_uuid = some (some next))
    (before : h.items.lookup y.previous_uuid = some (some last)) (after : h.items.lookup y.next_uuid = some (some first)) :
    h.cycleNext = if prev = next then some { h with top := some n } else
      let (prev,next,last,first) := if prev = t then (n,next,last,t) else if next = t then (prev,n,t,first) else (prev,next,last,first)
      (h.heap.insertBetweeen t (some prev) (some next)).bind fun heap =>
        (heap.insertBetweeen n (some last) (some first)).map fun heap =>
          { h with heap := heap, top := some n, nextCycle := some next } := by
  simp only [cycleNext,top,current,if_neg differ,item,item',bind_eq_bind,bind_some,entryAt_found previous,
    entryAt_found following,entryAt_found before,entryAt_found after,some.injEq]
  rcases Decidable.em (prev = next) with same | apart
  · rw [if_pos same,if_pos same]
  · rw [if_neg apart,if_neg apart]
    split
    · simp only [map_eq_bind]
      rfl
    · split
      · simp only [map_eq_bind]
        rfl
      · simp only [map_eq_bind]
        rfl

/-- `cycleNext` makes the next item of the cycle the top in exchange for the one that was, and goes on to the item
    behind, or to the new top item where there is none. -/
theorem cycleNext_moves {t n : Ref} (ringed : h.Ringed (t :: (l ++ n :: l'))) (current : h.nextCycle = some n) :
    ∃ h', h.cycleNext = some h' ∧ h'.Ringed (n :: (l ++ t :: l')) ∧ h'.maxSize = h.maxSize ∧
      h'.nextCycle = some (l'.headD n) := by
  have top : h.top = some t := ringed.top
  have nodup := ringed.listed.nodup
  have same : n ≠ t := by grind
  obtain ⟨x,item⟩ := ringed.listed.found (r := n) (by simp)
  obtain ⟨y,item'⟩ := ringed.listed.found (r := t) mem_cons_self
  obtain ⟨previous,following,last,first⟩ := reads ringed item item'
  have swaps := cycleNext_swaps top current same item item' previous following last first
  obtain ⟨heap',heap'',inserted,inserted',ringed'⟩ := swapped ringed _ (.inl rfl)
  by_cases before : l = []
  · subst before
    by_cases behind : l' = []
    · subst behind
      refine ⟨_,?_,entered ringed,rfl,current⟩
      rw [swaps]
      exact if_pos rfl
    · obtain ⟨q,mem,head⟩ := exists_head behind
      obtain ⟨e,mem',last'⟩ := exists_last behind
      rw [head] at inserted
      rw [last'] at inserted'
      have differ : t ≠ q ∧ n ≠ q := by grind
      refine ⟨_,?_,ringed' q (by simp [mem]),rfl,by rw [head]⟩
      rw [swaps,head,last']
      simp at inserted inserted'
      simp [inserted,inserted',differ]
  · obtain ⟨a,mem,first'⟩ := exists_head before
    obtain ⟨p,mem',prev⟩ := exists_last before
    rw [first'] at inserted'
    rw [prev] at inserted
    have differ : p ≠ t ∧ p ≠ n := by grind
    by_cases behind : l' = []
    · subst behind
      refine ⟨_,?_,ringed' n (by simp),rfl,rfl⟩
      rw [swaps,first',prev]
      simp at inserted inserted'
      simp [inserted,inserted',differ]
    · obtain ⟨q,mem'',next⟩ := exists_head behind
      obtain ⟨e,outside,last'⟩ := exists_last behind
      rw [next] at inserted
      rw [last'] at inserted'
      have differ' : q ≠ t ∧ p ≠ q := by grind
      refine ⟨_,?_,ringed' q (by simp [mem'']),rfl,by rw [next]⟩
      rw [swaps,first',prev,next,last']
      simp [inserted,inserted',differ,differ']

theorem cycleNext_still (rest : ∀ n, h.nextCycle = some n → h.top = some n) : h.cycleNext = some h := by
  cases current : h.nextCycle with
  | none => cases top : h.top <;> simp [cycleNext,current,top]
  | some n => simp [cycleNext,current,rest n current]

theorem cycleNext_ringed (ringed : h.Ringed ring) :
    ∃ h' ring', h.cycleNext = some h' ∧ h'.Ringed ring' ∧ h'.maxSize = h.maxSize ∧ ring'.length = ring.length := by
  by_cases rest : ∀ n, h.nextCycle = some n → h.top = some n
  · exact ⟨h,ring,cycleNext_still rest,ringed,rfl,rfl⟩
  · simp only [not_forall] at rest
    obtain ⟨n,current,other⟩ := rest
    have within := ringed.cycle n current
    cases ring with
    | nil => simp at within
    | cons t rest =>
      have top : h.top = some t := ringed.top
      have differ : n ≠ t := fun same => other (same ▸ top)
      obtain ⟨l,l',rfl⟩ := append_of_mem ((mem_cons.mp within).resolve_left differ)
      obtain ⟨h',moved,ringed',size,_⟩ := cycleNext_moves ringed current
      exact ⟨h',_,moved,ringed',size,by simp⟩

/-- `cyclePrev` from the neighbours that the item before the next one of the cycle and the top item name. -/
theorem cyclePrev_swaps {t c p before last first : Ref} {x y z : HistoryItem Uuid} (top : h.top = some t)
    (current : h.nextCycle = some c) (item : h.heap c = some x) (item' : h.heap p = some y) (item'' : h.heap t = some z)
    (back : h.items.lookup x.previous_uuid = some (some p)) (differ : p ≠ t)
    (previous : h.items.lookup y.previous_uuid = some (some before)) (after : h.items.lookup z.next_uuid = some (some first))
    (behind : h.items.lookup z.previous_uuid = some (some last)) :
    h.cyclePrev = if c = before then some { h with top := some first } else
      let (before,cycle,last,first) :=
        if before = t then (p,c,last,t) else if c = t then (before,first,t,first) else (before,c,last,first)
      (h.heap.insertBetweeen t (some before) (some cycle)).bind fun heap =>
        (heap.insertBetweeen p (some last) (some first)).map fun heap =>
          { h with heap := heap, top := some p, nextCycle := some t } := by
  simp only [cyclePrev,top,current,item,item',item'',bind_eq_bind,bind_some,entryAt_found back,
    entryAt_found previous,entryAt_found after,entryAt_found behind,some.injEq,if_neg differ]
  rcases Decidable.em (c = before) with same | apart
  · rw [if_pos same,if_pos same]
  · rw [if_neg apart,if_neg apart]
    split
    · simp only [map_eq_bind]
      rfl
    · split
      · simp only [map_eq_bind]
        rfl
      · simp only [map_eq_bind]
        rfl

/-- `cyclePrev` makes the item before the next one of the cycle the top in exchange for the one that was, to which the
    cycle goes back. -/
theorem cyclePrev_moves {t p : Ref} (ringed : h.Ringed (t :: (l ++ p :: l')))
    (current : h.nextCycle = some (l'.headD t)) :
    ∃ h', h.cyclePrev = some h' ∧ h'.Ringed (p :: (l ++ t :: l')) ∧ h'.maxSize = h.maxSize ∧ h'.nextCycle = some t := by
  have top : h.top = some t := ringed.top
  have nodup := ringed.listed.nodup
  have within := ringed.cycle _ current
  have within' : p ∈ t :: (l ++ p :: l') := by simp
  obtain ⟨z,item⟩ := ringed.listed.found within
  obtain ⟨y,item'⟩ := ringed.listed.found (r := t) mem_cons_self
  obtain ⟨x,item''⟩ := ringed.listed.found within'
  have link := (path_iff.mp (ring_two.mp ringed.linked).2).1
  have back := ringed.listed.previous link within' item
  obtain ⟨previous,_,last,first⟩ := reads ringed item'' item'
  have differ : p ≠ t := by grind
  have swaps := cyclePrev_swaps top current item item'' item' back differ previous first last
  by_cases before : l = []
  · subst before
    by_cases behind : l' = []
    · subst behind
      refine ⟨_,?_,entered ringed,rfl,current⟩
      rw [swaps]
      exact if_pos rfl
    · obtain ⟨c,mem,next⟩ := exists_head behind
      obtain ⟨e,mem',last'⟩ := exists_last behind
      obtain ⟨heap',heap'',inserted,inserted',ringed'⟩ := swapped ringed c (.inl (next p).symm)
      rw [last'] at inserted'
      have differ' : c ≠ t := by grind
      refine ⟨_,?_,ringed' t (by simp),rfl,rfl⟩
      rw [swaps,next,last']
      simp at inserted inserted'
      simp [inserted,inserted',differ']
  · obtain ⟨a,mem,first'⟩ := exists_head before
    obtain ⟨q,mem',prev⟩ := exists_last before
    by_cases behind : l' = []
    · subst behind
      obtain ⟨heap',heap'',inserted,inserted',ringed'⟩ := swapped ringed a (.inr ⟨rfl,(first' t).symm⟩)
      rw [first'] at inserted'
      rw [prev] at inserted
      have differ' : q ≠ t ∧ t ≠ q := by grind
      refine ⟨_,?_,ringed' t (by simp),rfl,rfl⟩
      rw [swaps,first',prev]
      simp at inserted inserted'
      simp [inserted,inserted',differ']
    · obtain ⟨c,mem'',next⟩ := exists_head behind
      obtain ⟨e,outside,last'⟩ := exists_last behind
      obtain ⟨heap',heap'',inserted,inserted',ringed'⟩ := swapped ringed c (.inl (next p).symm)
      rw [first'] at inserted'
      rw [prev] at inserted
      rw [last'] at inserted'
      have differ' : c ≠ t ∧ q ≠ t ∧ c ≠ q := by grind
      refine ⟨_,?_,ringed' t (by simp),rfl,rfl⟩
      rw [swaps,next,first',prev,last']
      simp [inserted,inserted',differ']

theorem cyclePrev_ringed (ringed : h.Ringed ring) :
    ∃ h' ring', h.cyclePrev = some h' ∧ h'.Ringed ring' ∧ h'.maxSize = h.maxSize ∧ ring'.length = ring.length := by
  cases current : h.nextCycle with
  | none =>
    have still : h.cyclePrev = some h := by
      unfold cyclePrev
      rw [current]
      cases h.top <;> rfl
    exact ⟨h,ring,still,ringed,rfl,rfl⟩
  | some c =>
    have within := ringed.cycle c current
    cases ring with
    | nil => simp at within
    | cons t rest =>
      have top : h.top = some t := ringed.top
      rcases predecessor within with second | ⟨l,p,l',rfl,rfl⟩
      · obtain ⟨z,item⟩ := ringed.listed.found within
        have link := (path_iff.mp (ring_cons.mp ringed.linked)).1
        rw [second] at link
        have previous := ringed.listed.previous link mem_cons_self item
        have still : h.cyclePrev = some h := by
          simp only [cyclePrev,current,top,item,bind_eq_bind,bind_some,entryAt_found previous,if_true]
        exact ⟨h,t :: rest,still,ringed,rfl,rfl⟩
      · obtain ⟨h',moved,ringed',size,_⟩ := cyclePrev_moves ringed current
        exact ⟨h',_,moved,ringed',size,by simp⟩

/-- The item is an entry of the history. -/
def Holds (h : History Uuid Ref) (item : Ref) : Prop := ∃ k, h.items.lookup k = some (some item)

def next (h : History Uuid Ref) (item : Ref) : Option Ref := (h.heap item).bind fun x => h.find x.next_uuid

def previous (h : History Uuid Ref) (item : Ref) : Option Ref := (h.heap item).bind fun x => h.find x.previous_uuid

/-- The history is a ring of the items it holds, and its pointers are to items of it. -/
structure Sound (h : History Uuid Ref) : Prop where
  no_null : ∀ k, h.items.lookup k ≠ some none
  top_null : h.top = none ↔ h.count = 0
  top_held : ∀ t, h.top = some t → h.Holds t
  visits : ∃ ring : List Ref, ring.head? = h.top ∧ ring.Nodup ∧ (∀ r, r ∈ ring ↔ h.Holds r) ∧
    Ring (fun a b => h.next a = some b) ring
  inverse : ∀ a b, h.Holds a → h.Holds b → (h.next a = some b ↔ h.previous b = some a)
  cycle_held : ∀ c, h.nextCycle = some c → h.Holds c

theorem Ringed.holds (ringed : h.Ringed ring) (item : Ref) : item ∈ ring ↔ h.Holds item := by
  constructor
  · intro within
    obtain ⟨x,found⟩ := ringed.listed.found within
    exact ⟨x.uuid,ringed.listed.lookup within (by simp [Heap.uuidOf,found])⟩
  · rintro ⟨k,found⟩
    obtain ⟨r,within,same,_⟩ := (ringed.listed.entry k _).mp found
    exact some.inj same ▸ within

theorem Ringed.next_of_linked {a b : Ref} (ringed : h.Ringed ring) (link : h.heap.Linked a b) (within : b ∈ ring) :
    h.next a = some b := by
  obtain ⟨x,y,item,_⟩ := id link
  simp [next,find,item,ringed.listed.next link within item]

theorem Ringed.previous_of_linked {a b : Ref} (ringed : h.Ringed ring) (link : h.heap.Linked a b) (within : a ∈ ring) :
    h.previous b = some a := by
  obtain ⟨x,y,_,item,_⟩ := id link
  simp [previous,find,item,ringed.listed.previous link within item]

theorem Ringed.inverse {a b : Ref} (ringed : h.Ringed ring) (within : a ∈ ring) (within' : b ∈ ring) :
    h.next a = some b ↔ h.previous b = some a := by
  constructor
  · intro forward
    obtain ⟨l,l',rfl⟩ := append_of_mem within
    have mem : (l' ++ l).headD a ∈ l ++ a :: l' := headD_mem within (by grind)
    have link := ringed.linked.neighbours.1
    obtain rfl := some.inj ((ringed.next_of_linked link mem).symm.trans forward)
    exact ringed.previous_of_linked link within
  · intro backward
    obtain ⟨l,l',rfl⟩ := append_of_mem within'
    have mem : (l' ++ l).getLastD b ∈ l ++ b :: l' := getLastD_mem within' (by grind)
    have link := ringed.linked.neighbours.2
    obtain rfl := some.inj ((ringed.previous_of_linked link mem).symm.trans backward)
    exact ringed.next_of_linked link within'

theorem Ringed.ring_next (ringed : h.Ringed ring) : Ring (fun a b => h.next a = some b) ring := by
  cases ring with
  | nil => trivial
  | cons t rest =>
    refine List.IsChain.imp_of_mem_imp ?_ ringed.linked
    intro a b _ within link
    exact ringed.next_of_linked link (by grind)

theorem Ringed.sound (ringed : h.Ringed ring) : h.Sound where
  no_null := by
    intro k found
    obtain ⟨r,_,same,_⟩ := (ringed.listed.entry k _).mp found
    exact nomatch same
  top_null := by
    have counted : h.count = ring.length := ringed.listed.count
    rw [ringed.top,counted,head?_eq_none_iff,length_eq_zero_iff]
  top_held := by
    intro t top
    exact (ringed.holds t).mp (mem_of_mem_head? (ringed.top ▸ top))
  visits := ⟨ring,ringed.top.symm,ringed.listed.nodup,ringed.holds,ringed.ring_next⟩
  inverse := fun a b held held' => ringed.inverse ((ringed.holds a).mpr held) ((ringed.holds b).mpr held')
  cycle_held := fun c current => (ringed.holds c).mp (ringed.cycle c current)

/-- The first items on the way along `next_uuid`. -/
def front (h : History Uuid Ref) : Nat → Option Ref → List Ref
  | 0,_ => []
  | _+1,none => []
  | n+1,some item => item :: front h n (h.next item)

theorem front_chain {l : List Ref} (chain : l.IsChain fun a b => h.next a = some b) {n : Nat} (short : n ≤ l.length) :
    h.front n l.head? = l.take n := by
  induction chain generalizing n with
  | nil =>
    obtain rfl : n = 0 := by simpa using short
    rfl
  | singleton a =>
    match n with
    | 0 => rfl
    | 1 => rfl
    | n+2 => simp at short
  | @cons_cons a b l link chain ih =>
    match n with
    | 0 => rfl
    | n+1 =>
      have rest : h.front n (some b) = (b :: l).take n := ih (by simpa using short)
      rw [take_succ_cons,← rest,head?_cons,front,link]

theorem Ringed.front_top (ringed : h.Ringed ring) {n : Nat} (short : n ≤ ring.length) :
    h.front n h.top = ring.take n := by
  rw [ringed.top]
  exact front_chain ringed.ring_next.chain short

end History

/-- What callers promise: they insert items that have not been deleted, remove
    items of the history, and never ask for a size of 0. -/
def Called (h : History Uuid Ref) : Op Uuid Ref → Prop
  | .insert (some item) => (h.heap item).isSome
  | .forceInsert (some item) => (h.heap item).isSome
  | .remove (some item) => h.Holds item
  | .setMaxSize max_size => 1 ≤ max_size.toNat
  | _ => True

/-- The item, where it is new to the history, leaves a count that can be compared. -/
def Room (h : History Uuid Ref) (item : Ref) : Prop :=
  ∀ x, h.heap item = some x → x.uuid ∉ h.items → History.Fits (h.count+1) h.maxSize

/-- The steps that leave no stale pointer: an item is removed that is not the only one and not the next of the cycle,
    the history is only cleared while there is no cycle, and a smaller size that leaves several items leaves the next of
    the cycle among them. The sizes are such that their difference with the count fits into an int. -/
def Careful (h : History Uuid Ref) : Op Uuid Ref → Prop
  | .insert (some item) => Room h item
  | .forceInsert (some item) => Room h item
  | .remove (some item) => h.count ≠ 1 ∧ h.nextCycle ≠ some item
  | .slotClear => h.nextCycle = none
  | .setMaxSize max_size =>
    (h.count ≠ 0 → History.Fits h.count max_size) ∧
      (max_size.toNat = 1 ∨ ∀ c, h.nextCycle = some c → c ∈ h.front max_size.toNat h.top)
  | _ => True

/-- Every operation of the run is as `P` asks in the state it is performed in. -/
def Along (P : History Uuid Ref → Op Uuid Ref → Prop) : List (Op Uuid Ref) → History Uuid Ref → Prop
  | [],_ => True
  | op :: ops,h => P h op ∧ ∀ h', perform h op = some h' → Along P ops h'

def run : List (Op Uuid Ref) → History Uuid Ref → Option (History Uuid Ref)
  | [],h => some h
  | op :: ops,h => (perform h op).bind (run ops)

/-- The ring with its size. -/
def Intact (h : History Uuid Ref) : Prop := ∃ ring, h.Ringed ring ∧ ring.length ≤ h.maxSize.toNat ∧ 1 ≤ h.maxSize.toNat

theorem perform_intact {h : History Uuid Ref} (intact : Intact h) {op : Op Uuid Ref} (called : Called h op)
    (careful : Careful h op) : ∃ h', perform h op = some h' ∧ Intact h' := by
  obtain ⟨ring,ringed,small,room⟩ := intact
  have counted : h.count = ring.length := ringed.listed.count
  cases op with
  | insert item =>
    cases item with
    | none => exact ⟨h,rfl,ring,ringed,small,room⟩
    | some item =>
      obtain ⟨x,live⟩ := isSome_iff_exists.mp called
      obtain ⟨h',ring',done,ringed',size,small'⟩ := History.insert_ringed ringed live room small
        fun fresh => counted ▸ careful x live fresh
      exact ⟨h',done,ring',ringed',size ▸ small',size ▸ room⟩
  | forceInsert item =>
    cases item with
    | none => exact ⟨h,rfl,ring,ringed,small,room⟩
    | some item =>
      obtain ⟨x,live⟩ := isSome_iff_exists.mp called
      obtain ⟨h',ring',done,ringed',size,small'⟩ := History.forceInsert_ringed ringed live room small
        fun fresh => counted ▸ careful x live fresh
      exact ⟨h',done,ring',ringed',size ▸ small',size ▸ room⟩
  | slotMoveToTop uuid =>
    obtain ⟨h',ring',done,ringed',size,length⟩ := History.slotMoveToTop_ringed ringed uuid
    exact ⟨h',done,ring',ringed',by rw [size,length]; exact small,size ▸ room⟩
  | remove item =>
    cases item with
    | none => exact ⟨h,rfl,ring,ringed,small,room⟩
    | some item =>
      obtain ⟨others,spared⟩ := careful
      obtain ⟨h',ring',done,ringed',size,fewer⟩ :=
        History.remove_ringed ringed ((ringed.holds item).mpr called) (counted ▸ others) spared
      exact ⟨h',done,ring',ringed',by rw [size]; exact fewer.trans small,size ▸ room⟩
  | slotClear =>
    obtain ⟨h',done,ringed',size⟩ := History.slotClear_ringed h careful
    exact ⟨h',done,[],ringed',Nat.zero_le _,size ▸ room⟩
  | setMaxSize max_size =>
    obtain ⟨fits,spared⟩ := careful
    have ringed' : History.Ringed { h with maxSize := max_size } ring :=
      ⟨ringed.listed,ringed.linked,ringed.top,ringed.cycle⟩
    have spared' : max_size.toNat = 1 ∨ ∀ c, h.nextCycle = some c → c ∈ ring.take max_size.toNat := by
      refine spared.imp_right fun spared c current => ?_
      by_cases short : max_size.toNat ≤ ring.length
      · exact ringed.front_top short ▸ spared c current
      · rw [take_of_length_le (by omega)]
        exact ringed.cycle c current
    have fits' : ring ≠ [] → History.Fits ring.length max_size := by
      intro some
      have positive : h.count ≠ 0 := by
        rw [counted,ne_eq,length_eq_zero_iff]
        exact some
      exact counted ▸ fits positive
    obtain ⟨h',ring',done,ringed'',size,small'⟩ := History.trim_ringed ringed' fits' called spared'
    exact ⟨h',done,ring',ringed'',size ▸ small',size ▸ called⟩
  | cycleNext =>
    obtain ⟨h',ring',done,ringed',size,length⟩ := History.cycleNext_ringed ringed
    exact ⟨h',done,ring',ringed',by rw [size,length]; exact small,size ▸ room⟩
  | cyclePrev =>
    obtain ⟨h',ring',done,ringed',size,length⟩ := History.cyclePrev_ringed ringed
    exact ⟨h',done,ring',ringed',by rw [size,length]; exact small,size ▸ room⟩

theorem run_intact {ops : List (Op Uuid Ref)} {h : History Uuid Ref} (intact : Intact h)
    (along : Along (fun h op => Called h op ∧ Careful h op) ops h) : ∃ h', run ops h = some h' ∧ Intact h' := by
  induction ops generalizing h with
  | nil => exact ⟨h,rfl,intact⟩
  | cons op ops ih =>
    obtain ⟨⟨called,careful⟩,rest⟩ := along
    obtain ⟨mid,done,intact'⟩ := perform_intact intact called careful
    obtain ⟨h',reached,intact''⟩ := ih intact' (rest mid done)
    exact ⟨h',by simp [run,done,reached],intact''⟩

theorem opened_intact (heap : Heap Uuid Ref) {maxSize : UInt32} (some : 1 ≤ maxSize.toNat) :
    Intact (History.opened heap maxSize) := by
  refine ⟨[],⟨⟨.nil,by simp,by simp [History.opened],rfl⟩,trivial,rfl,?_⟩,Nat.zero_le _,some⟩
  intro c current
  exact nomatch current

/-- A run whose steps are careful does not fail, and keeps the ring and its size. -/
theorem run_ring (heap : Heap Uuid Ref) {maxSize : UInt32} (some : 1 ≤ maxSize.toNat) {ops : List (Op Uuid Ref)}
    (along : Along (fun h op => Called h op ∧ Careful h op) ops (History.opened heap maxSize)) :
    ∃ h, run ops (History.opened heap maxSize) = .some h ∧ h.Sound ∧ h.count ≤ h.maxSize.toNat := by
  obtain ⟨h,reached,ring,ringed,small,_⟩ := run_intact (opened_intact heap some) along
  have counted : h.count = ring.length := ringed.listed.count
  exact ⟨h,reached,ringed.sound,counted ▸ small⟩

instance (h : History Uuid Ref) (item : Ref) : Decidable (h.Holds item) :=
  decidable_of_iff (∃ entry ∈ h.items.entries, entry.2 = some item) <| by
    constructor
    · rintro ⟨entry,within,same⟩
      exact ⟨entry.1,AList.mem_lookup_iff.mpr (same ▸ within)⟩
    · rintro ⟨k,found⟩
      exact ⟨⟨k,some item⟩,AList.mem_lookup_iff.mp found,rfl⟩

instance (count : Nat) (maxSize : UInt32) : Decidable (History.Fits count maxSize) :=
  inferInstanceAs (Decidable (_ ∧ _))

instance (h : History Uuid Ref) (item : Ref) : Decidable (Room h item) :=
  decidable_of_iff (∀ x ∈ h.heap item, x.uuid ∉ h.items → History.Fits (h.count+1) h.maxSize) Iff.rfl

instance (h : History Uuid Ref) : (op : Op Uuid Ref) → Decidable (Called h op)
  | .insert none | .forceInsert none | .remove none => .isTrue trivial
  | .insert (some item) | .forceInsert (some item) => inferInstanceAs (Decidable ((h.heap item).isSome))
  | .remove (some item) => inferInstanceAs (Decidable (h.Holds item))
  | .setMaxSize max_size => inferInstanceAs (Decidable (1 ≤ max_size.toNat))
  | .slotMoveToTop _ | .slotClear | .cycleNext | .cyclePrev => .isTrue trivial

instance (h : History Uuid Ref) : (op : Op Uuid Ref) → Decidable (Careful h op)
  | .insert none | .forceInsert none | .remove none => .isTrue trivial
  | .insert (some item) | .forceInsert (some item) => inferInstanceAs (Decidable (Room h item))
  | .remove (some item) => inferInstanceAs (Decidable (h.count ≠ 1 ∧ h.nextCycle ≠ some item))
  | .slotClear => inferInstanceAs (Decidable (h.nextCycle = none))
  | .setMaxSize max_size => inferInstanceAs (Decidable ((h.count ≠ 0 → History.Fits h.count max_size) ∧
      (max_size.toNat = 1 ∨ ∀ c ∈ h.nextCycle, c ∈ h.front max_size.toNat h.top)))
  | .slotMoveToTop _ | .cycleNext | .cyclePrev => .isTrue trivial

instance (P : History Uuid Ref → Op Uuid Ref → Prop) [∀ h op, Decidable (P h op)] :
    (ops : List (Op Uuid Ref)) → (h : History Uuid Ref) → Decidable (Along P ops h)
  | [],_ => .isTrue trivial
  | op :: ops,h =>
    have := fun h' => instDecidableAlong P ops h'
    decidable_of_iff (P h op ∧ ∀ h' ∈ perform h op, Along P ops h') Iff.rfl

/-- Items that are in no history yet. -/
def created : Heap Nat Nat := fun item => some ⟨0,item,0⟩

theorem run_ring_cycle :
    ∃ h, run [.insert (some 1),.insert (some 2),.forceInsert (some 3),.insert (some 4),.cycleNext,.cycleNext,.cyclePrev,
      .slotMoveToTop 2,.remove (some 4),.setMaxSize 1] (History.opened created 3) = some h ∧ h.Sound ∧
      h.count ≤ h.maxSize.toNat :=
  run_ring created (by decide) (by decide +kernel)

/-- The top pointer stays when the only item is removed. -/
theorem remove_only_item :
    ¬ ∀ ops : List (Op Nat Nat), Along Called ops (History.opened created 3) →
      ∃ h, run ops (History.opened created 3) = some h ∧ h.Sound := by
  intro claim
  obtain ⟨h,reached,sound⟩ := claim [.insert (some 1),.remove (some 1)] (by decide +kernel)
  have stale : (run [.insert (some 1),.remove (some 1)] (History.opened created 3)).map (fun h => (h.top,h.count)) =
      some (some 1,0) := by decide +kernel
  rw [reached,map_some,some.injEq,Prod.mk.injEq] at stale
  exact nomatch (sound.top_null.mpr stale.2).symm.trans stale.1

end KdeWorkspace.ClipboardHistory
