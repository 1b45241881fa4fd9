import KdeWorkspace.ContainerSort
import KdeWorkspace.Loops

/-!
The cursor of a container (`first_ctnr`, `next_ctnr`, `remove_ctnr`) over runs of the operations.

Whatever operation is performed, the count is that of the ring and the cursor stands on
the root or on a node of the ring (`Inv`), unless a node is taken out without the cursor that
stands on it: no operation but `remove_ctnr` asks where the cursor is. So the containers of a
run are right throughout just when none of these takes the cursor's node (`cursor_right_iff`).
A loop that removes some of what it visits visits all of it once, in order, and leaves the others
(`sweep_ringed`).
-/
namespace KdeWorkspace.Containers
open Rings Loops StableSorts List Option
set_option linter.unusedSectionVars false
variable {N D : Type} [DecidableEq N]

/-- The operations; what puts a node in has the address that `malloc` gives. -/
inductive Op (N D : Type)
  | push (object : Option D) (newNode : N)
  | pop
  | removeAt (pos : Int)
  | insert (object : Option D) (pos : Int) (newNode : N)
  | swap (pos1 pos2 : Int)
  | bsort (compare_func : Pointer N D → Pointer N D → Int)
  | empty
  | first
  | next
  | remove

namespace Container

def perform (c : Container N D) : Op N D → Option (Container N D)
  | .push object newNode => c.push_ctnr object newNode
  | .pop => c.pop_ctnr.map Prod.fst
  | .removeAt pos => (c.remove_at_ctnr pos).map Prod.fst
  | .insert object pos newNode => c.insert_ctnr object pos newNode
  | .swap pos1 pos2 => c.swap_ctnr pos1 pos2
  | .bsort compare_func => c.bsort_ctnr compare_func
  | .empty => c.empty_ctnr
  | .first => c.first_ctnr.map Prod.fst
  | .next => c.next_ctnr.map Prod.fst
  | .remove => c.remove_ctnr.map Prod.fst

def Step (c : Container N D) (op : Op N D) (c' : Container N D) : Prop := c.perform op = some c'

/-- `malloc` gives an address that nothing has. -/
def Given (c : Container N D) : Op N D → Prop
  | .push _ newNode => c.heap newNode = none
  | .insert _ _ newNode => c.heap newNode = none
  | _ => True

/-- The count is that of the ring, and the cursor stands on the root or on a node of the ring. -/
def Inv (c : Container N D) : Prop := ∃ l, c.Ringed l ∧ c.count = l.length ∧ c.currentNode ∈ c.rootNode :: l

def Right (c : Container N D) (op : Op N D) : Prop := ∃ c', c.Step op c' ∧ c'.Inv

/-- An operation that takes out the node the cursor stands on, and is not `remove_ctnr`. -/
def TakesCursor (c : Container N D) : Op N D → Prop
  | .pop => c.currentNode ≠ c.rootNode ∧ c.next c.rootNode = some c.currentNode
  | .removeAt pos => c.nodeAt pos = some (some c.currentNode)
  | .empty => c.currentNode ≠ c.rootNode
  | _ => False

/-- What a caller does with the element that is visited. -/
def body (chosen : N → Bool) (c : Container N D) : Option (Container N D × Option D) :=
  if chosen c.currentNode then c.remove_ctnr else some (c,none)

/-- The loop of a caller, that removes the chosen ones of what it visits. -/
def sweep (chosen : N → Bool) : Nat → Container N D → Option D → List (N × D) → Option (Container N D × List (N × D))
  | 0,_,_,_ => none
  | _+1,c,none,visited => some (c,visited)
  | fuel+1,c,some p,visited => do
    let (left,_) ← body chosen c
    let (c',p') ← left.next_ctnr
    sweep chosen fuel c' p' (visited ++ [(c.currentNode,p)])

def sweepAll (chosen : N → Bool) (fuel : Nat) (c : Container N D) : Option (Container N D × List (N × D)) := do
  let (c,p) ← c.first_ctnr
  sweep chosen fuel c p []

variable {c c' : Container N D} {l l' : List N} {a : N} {op : Op N D}

theorem Leaves.inv {n : Int} {cursor : N} (left : c.Leaves c' l n cursor) (counts : n = l.length) (inside : cursor ∈ c.rootNode :: l) :
    c'.Inv :=
  ⟨l,left.ringed,left.counts.trans counts,by rw [left.points,left.root]; exact inside⟩

theorem Leaves.inv_iff {n : Int} {cursor : N} (left : c.Leaves c' l n cursor) (counts : n = l.length) :
    c'.Inv ↔ cursor ∈ c.rootNode :: l := by
  refine ⟨?_,left.inv counts⟩
  rintro ⟨m,ringed,_,inside⟩
  rw [left.ringed.unique ringed]
  rwa [left.points,left.root] at inside

theorem right_iff_of_step (step : c.Step op c') : c.Right op ↔ c'.Inv := by
  constructor
  · rintro ⟨other,step',inv⟩
    exact some.inj (step.symm.trans step') ▸ inv
  · exact fun inv => ⟨c',step,inv⟩

theorem taken_iff (pre suf : List N) (ringed : c.Ringed (pre ++ a :: suf)) (inside : c.currentNode ∈ c.rootNode :: (pre ++ a :: suf)) :
    c.currentNode ∈ c.rootNode :: (pre ++ suf) ↔ c.currentNode ≠ a := by
  have nodup := (ringed.rotated).2
  have absent := (nodup_cons.mp nodup).1
  simp only [mem_append,mem_cons] at absent inside ⊢
  constructor
  · rintro within same
    rw [same] at within
    tauto
  · tauto

theorem Leaves.right {n : Int} {cursor : N} (left : c.Leaves c' l n cursor) (step : c.Step op c') (counts : n = l.length)
    (inside : cursor ∈ c.rootNode :: l) : c.Right op :=
  ⟨c',step,left.inv counts inside⟩

theorem still_right (inv : c.Inv) (step : c.Step op c) : c.Right op := ⟨c,step,inv⟩

theorem cursor_split (inside : a ∈ c.rootNode :: l) : ∃ pre suf, l = pre ++ suf ∧ a = pre.getLastD c.rootNode := by
  rcases mem_cons.mp inside with rfl | within
  · exact ⟨[],l,rfl,rfl⟩
  · obtain ⟨pre,suf,rfl⟩ := append_of_mem within
    exact ⟨pre ++ [a],suf,by simp,getLastD_concat.symm⟩

theorem pop_right_iff (ringed : c.Ringed l) (counts : c.count = l.length) (inside : c.currentNode ∈ c.rootNode :: l) :
    c.Right .pop ↔ ¬ c.TakesCursor .pop := by
  cases l with
  | nil =>
    refine iff_of_true (still_right ⟨[],ringed,counts,inside⟩ ?_) ?_
    · simp [Step,perform,pop_ctnr_nil ringed]
    · rintro ⟨away,_⟩
      exact away (mem_singleton.mp inside)
  | cons a suf =>
    obtain ⟨c',popped,left⟩ := pop_ctnr_cons ringed
    have step : c.Step .pop c' := by simp [Step,perform,popped]
    have first : c.next c.rootNode = some a := ringed.root_neighbours.1.1
    have other : a ≠ c.rootNode := fun same => (nodup_cons.mp ringed.nodup).1 (by simp [same])
    have taken := taken_iff [] suf ringed inside
    rw [right_iff_of_step step,left.inv_iff (by rw [counts,length_cons]; omega)]
    refine taken.trans (not_congr ⟨?_,?_⟩)
    · rintro rfl
      exact ⟨other,first⟩
    · rintro ⟨_,leads⟩
      exact some.inj (leads.symm.trans first)

theorem removeAt_right_iff (pos : Int) (ringed : c.Ringed l) (counts : c.count = l.length) (inside : c.currentNode ∈ c.rootNode :: l) :
    c.Right (.removeAt pos) ↔ ¬ c.TakesCursor (.removeAt pos) := by
  rcases nodeAt_cases ringed counts pos with none_there | ⟨pre,a,suf,rfl,found⟩
  · refine iff_of_true (still_right ⟨l,ringed,counts,inside⟩ ?_) ?_
    · simp [Step,perform,remove_at_ctnr,none_there]
    · simp [TakesCursor,none_there]
  · obtain ⟨c',removed,left⟩ := remove_at_ctnr_at ringed found
    have step : c.Step (.removeAt pos) c' := by simp [Step,perform,removed]
    rw [right_iff_of_step step,left.inv_iff (by rw [counts]; simp; omega),taken_iff pre suf ringed inside,TakesCursor,found]
    simp [eq_comm]

theorem empty_right_iff (ringed : c.Ringed l) (counts : c.count = l.length) : c.Right .empty ↔ ¬ c.TakesCursor .empty := by
  obtain ⟨c',emptied,left⟩ := empty_ctnr_ringed ringed counts
  have step : c.Step .empty c' := emptied
  rw [right_iff_of_step step,left.inv_iff rfl,mem_singleton]
  exact not_not.symm

theorem insert_right {object : D} {pos : Int} {newNode : N} (ringed : c.Ringed l) (counts : c.count = l.length)
    (inside : c.currentNode ∈ c.rootNode :: l) (unused : c.heap newNode = none) : c.Right (.insert (some object) pos newNode) := by
  rcases nodeAt_cases ringed counts pos with none_there | ⟨pre,a,suf,rfl,found⟩
  · refine still_right ⟨l,ringed,counts,inside⟩ ?_
    simp [Step,perform,insert_ctnr,none_there]
  · obtain ⟨c',inserted,left⟩ := insert_ctnr_at object ringed unused found
    refine left.right inserted (by rw [counts]; simp; omega) ?_
    simp only [mem_cons,mem_append] at inside ⊢
    tauto

theorem next_right (ringed : c.Ringed l) (counts : c.count = l.length) (inside : c.currentNode ∈ c.rootNode :: l) : c.Right .next := by
  obtain ⟨pre,suf,rfl,cursor⟩ := cursor_split inside
  have went := next_ctnr_ringed ringed cursor
  cases suf with
  | nil => exact still_right ⟨_,ringed,counts,inside⟩ (by simp [Step,perform,went])
  | cons a suf => exact ⟨c.setCurrent a,by simp [Step,perform,went],_,ringed.setCurrent a,counts,by simp [setCurrent]⟩

theorem remove_right (ringed : c.Ringed l) (counts : c.count = l.length) (inside : c.currentNode ∈ c.rootNode :: l) :
    c.Right .remove := by
  rcases mem_cons.mp inside with root | within
  · exact still_right ⟨l,ringed,counts,inside⟩ (by simp [Step,perform,remove_ctnr_root root])
  · obtain ⟨pre,suf,rfl⟩ := append_of_mem within
    obtain ⟨c',removed,left,_⟩ := remove_ctnr_at ringed rfl
    refine left.right (by simp [Step,perform,removed]) (by rw [counts]; simp; omega) ?_
    exact getLastD_mem mem_cons_self fun x member => by simp [member]

theorem op_right_iff (inv : c.Inv) (given : c.Given op) : c.Right op ↔ ¬ c.TakesCursor op := by
  obtain ⟨l,ringed,counts,inside⟩ := inv
  cases op with
  | push object newNode =>
    refine iff_of_true ?_ not_false
    cases object with
    | none => exact still_right ⟨l,ringed,counts,inside⟩ rfl
    | some object =>
      obtain ⟨c',pushed,left⟩ := push_ctnr_ringed object ringed given
      refine left.right pushed (by rw [counts]; simp) ?_
      simp only [mem_cons,mem_append] at inside ⊢
      tauto
  | pop => exact pop_right_iff ringed counts inside
  | removeAt pos => exact removeAt_right_iff pos ringed counts inside
  | insert object pos newNode =>
    refine iff_of_true ?_ not_false
    cases object with
    | none => exact still_right ⟨l,ringed,counts,inside⟩ rfl
    | some object => exact insert_right ringed counts inside given
  | swap pos1 pos2 =>
    obtain ⟨c',swapped,left⟩ := swap_ctnr_ringed ringed counts pos1 pos2
    exact iff_of_true (left.right swapped counts inside) not_false
  | bsort compare_func =>
    obtain ⟨c',l',sorted,ringed',same,perm,_⟩ := bsort_ctnr_ringed compare_func ringed counts
    refine iff_of_true ⟨c',sorted,l',ringed',?_,?_⟩ not_false
    · rw [same.counts,counts,perm.length_eq]
    · rw [same.points,same.root]
      exact (perm.cons c.rootNode).mem_iff.mpr inside
  | empty => exact empty_right_iff ringed counts
  | first =>
    refine iff_of_true ?_ not_false
    cases l with
    | nil => exact still_right ⟨[],ringed,counts,inside⟩ (by simp [Step,perform,first_ctnr_nil ringed])
    | cons a suf =>
      exact ⟨c.setCurrent a,by simp [Step,perform,first_ctnr_cons ringed],_,ringed.setCurrent a,counts,by simp [setCurrent]⟩
  | next => exact iff_of_true (next_right ringed counts inside) not_false
  | remove => exact iff_of_true (remove_right ringed counts inside) not_false

theorem Right.inv_after (right : c.Right op) (step : c.Step op c') : c'.Inv := (right_iff_of_step step).mp right

theorem new_ctnr_inv (root : N) : (new_ctnr root : Container N D).Inv := ⟨[],new_ctnr_ringed root,rfl,mem_singleton.mpr rfl⟩

theorem body_ringed (chosen : N → Bool) {kept rest : List N} (ringed : c.Ringed (kept ++ a :: rest)) (cursor : c.currentNode = a) :
    ∃ c' q kept', body chosen c = some (c',q) ∧ c'.Ringed (kept' ++ rest) ∧
      c'.rootNode = c.rootNode ∧ c'.currentNode = kept'.getLastD c'.rootNode ∧ c'.count = c.count-([a].filter chosen).length ∧
        kept' = kept ++ [a].filter (fun x => !chosen x) ∧ ∀ x ∈ rest, c'.data x = c.data x := by
  by_cases goes : chosen a = true
  · obtain ⟨c',removed,left,data⟩ := remove_ctnr_at ringed cursor
    have others : ∀ x ∈ rest, x ≠ a := by
      rintro x member rfl
      exact (nodup_cons.mp ringed.rotated.2).1 (mem_append_left _ member)
    refine ⟨c',c.data a,kept,?_,left.ringed,left.root,?_,?_,?_,fun x member => data x (others x member)⟩
    · rw [body,cursor,if_pos goes,removed]
    · rw [left.points,left.root]
    · simp [left.counts,goes]
    · simp [goes]
  · have split : kept ++ a :: rest = (kept ++ [a]) ++ rest := by simp
    refine ⟨c,none,kept ++ [a],?_,split ▸ ringed,rfl,?_,?_,?_,fun _ _ => rfl⟩
    · rw [body,cursor,if_neg goes]
    · rw [cursor,getLastD_concat]
    · simp [goes]
    · simp [goes]

theorem sweep_from (chosen : N → Bool) (kept : List N) {rest : List N} {fuel : Nat} (visited : List (N × D))
    (ringed : c.Ringed (kept ++ a :: rest)) (cursor : c.currentNode = a) (enough : rest.length+1 < fuel) :
    ∃ c' vs, sweep chosen fuel c (c.data a) visited = some (c',visited ++ vs) ∧
      c'.Ringed (kept ++ (a :: rest).filter fun x => !chosen x) ∧ c'.count = c.count-((a :: rest).filter chosen).length ∧
        vs.map (fun v => (v.1,some v.2)) = (a :: rest).map fun x => (x,c.data x) := by
  induction rest generalizing c kept a fuel visited with
  | nil =>
    obtain ⟨fuel,rfl⟩ : ∃ f, fuel = f+2 := ⟨fuel-2,by simp at enough; omega⟩
    obtain ⟨d,held⟩ := isSome_iff_exists.mp (ringed.full a (by simp))
    obtain ⟨c₁,q,kept',performed,ringed₁,_,cursor₁,count₁,rfl,_⟩ := body_ringed chosen ringed cursor
    have went := next_ctnr_ringed ringed₁ cursor₁
    refine ⟨c₁,[(a,d)],?_,?_,count₁,by simp [held]⟩
    · simp only [held,sweep,performed,bind_eq_bind,bind_some,went,cursor]
    · simpa using ringed₁
  | cons b rest ih =>
    obtain ⟨fuel,rfl⟩ : ∃ f, fuel = f+1 := ⟨fuel-1,by omega⟩
    obtain ⟨d,held⟩ := isSome_iff_exists.mp (ringed.full a (by simp))
    obtain ⟨c₁,q,kept',performed,ringed₁,_,cursor₁,count₁,rfl,data₁⟩ := body_ringed chosen ringed cursor
    have went := next_ctnr_ringed ringed₁ cursor₁
    obtain ⟨c',vs,swept,ringed',count',seen⟩ := ih (c := c₁.setCurrent b) (kept ++ [a].filter fun x => !chosen x)
      (visited ++ [(a,d)]) (ringed₁.setCurrent b) rfl (by simpa using enough)
    refine ⟨c',(a,d) :: vs,?_,?_,?_,?_⟩
    · simp only [held,sweep,performed,bind_eq_bind,bind_some,went,cursor]
      rw [append_assoc] at swept
      exact swept
    · rw [append_assoc,← filter_append] at ringed'
      exact ringed'
    · have here : (c₁.setCurrent b).count = c₁.count := rfl
      rw [count',here,count₁]
      have parts : (a :: b :: rest).filter chosen = [a].filter chosen ++ (b :: rest).filter chosen := by
        rw [← filter_append]
        rfl
      rw [parts,length_append]
      omega
    · simp only [data_setCurrent] at seen
      rw [map_cons,seen,map_cons (l := b :: rest),held]
      congr 1
      exact map_congr_left fun x member => by rw [data₁ x member]

theorem sweepAll_ringed (chosen : N → Bool) {fuel : Nat} (ringed : c.Ringed l) (enough : l.length < fuel) :
    ∃ c' vs, sweepAll chosen fuel c = some (c',vs) ∧ c'.Ringed (l.filter fun x => !chosen x) ∧
      c'.count = c.count-(l.filter chosen).length ∧ vs.map (fun v => (v.1,some v.2)) = l.map fun x => (x,c.data x) := by
  cases l with
  | nil =>
    obtain ⟨fuel,rfl⟩ : ∃ f, fuel = f+1 := ⟨fuel-1,by simp at enough; omega⟩
    exact ⟨c,[],by simp [sweepAll,first_ctnr_nil ringed,sweep],ringed,by simp,rfl⟩
  | cons a rest =>
    obtain ⟨c',vs,swept,left⟩ := sweep_from (c := c.setCurrent a) chosen [] [] (ringed.setCurrent a) rfl enough
    refine ⟨c',vs,?_,left⟩
    simpa [sweepAll,first_ctnr_cons ringed] using swept

end Container

open Container

/-- The containers of a run are right throughout just when the cursor's node is never taken out without it;
    and the loop that removes what it chooses has its result from every container that is a ring. -/
theorem cursor_right_iff (root : N) (ops : List (Op N D)) (given : Throughout Container.Step (fun c op => c.Given op) (new_ctnr root) ops) :
    (Throughout Container.Step (fun c op => c.Right op) (new_ctnr root) ops ↔
      Throughout Container.Step (fun c op => ¬ c.TakesCursor op) (new_ctnr root) ops) ∧
    ∀ (c : Container N D) l (chosen : N → Bool), c.Ringed l → ∃ c' vs, sweepAll chosen (l.length+1) c = some (c',vs) ∧
      c'.Ringed (l.filter fun x => !chosen x) ∧ c'.count = c.count-(l.filter chosen).length ∧
        vs.map (fun v => (v.1,some v.2)) = l.map fun x => (x,c.data x) := by
  have same (c : Container N D) (op : Op N D) (inv : Inv c) (here : Given c op) : Right c op ↔ ¬ TakesCursor c op := op_right_iff inv here
  have keeps (c : Container N D) (op : Op N D) (c' : Container N D) (_ : Inv c) (_ : Given c op) (right : Right c op)
      (step : Step c op c') : Inv c' := right.inv_after step
  refine ⟨throughout_iff same keeps (new_ctnr_inv root) given,fun c l chosen ringed => ?_⟩
  exact sweepAll_ringed chosen ringed (Nat.lt_succ_self _)

theorem given_loop : Throughout Container.Step (fun c op => c.Given op) (new_ctnr 0 : Container Nat Nat)
    [.push (some 5) 1,.push (some 6) 2,.first,.remove] := by
  refine ⟨rfl,fun c step => ?_⟩
  obtain rfl := some.inj step
  refine ⟨rfl,fun c step => ⟨trivial,fun c step => ⟨trivial,fun _ _ => trivial⟩⟩⟩

theorem cursor_right_loop : Throughout Container.Step (fun c op => c.Right op) (new_ctnr 0 : Container Nat Nat)
    [.push (some 5) 1,.push (some 6) 2,.first,.remove] :=
  (cursor_right_iff 0 _ given_loop).1.mpr ⟨id,fun _ _ => ⟨id,fun _ _ => ⟨id,fun _ _ => ⟨id,fun _ _ => trivial⟩⟩⟩⟩

/-- The cursor stands on the only element when this is popped, and still does when its node has been freed. -/
theorem pop_leaves_cursor :
    let ops : List (Op Nat Nat) := [.push (some 5) 1,.first,.pop]
    Throughout Container.Step (fun c op => c.Given op) (new_ctnr 0) ops ∧
      ¬ Throughout Container.Step (fun c op => c.Right op) (new_ctnr 0) ops ∧
        ∃ c, Run Container.Step (new_ctnr 0) ops c ∧ c.count = 0 ∧ c.currentNode = 1 ∧ c.heap 1 = none := by
  refine ⟨⟨rfl,fun _ _ => ⟨trivial,fun _ _ => ⟨trivial,fun _ _ => trivial⟩⟩⟩,fun right => ?_,
    ⟨_,.cons rfl (.cons rfl (.cons rfl (.nil _))),rfl,rfl,rfl⟩⟩
  obtain ⟨c,popped,l,ringed,_,inside⟩ := ((right.2 _ rfl).2 _ rfl).1
  obtain rfl := some.inj popped
  exact absurd (ringed.live inside) (by decide)

end KdeWorkspace.Containers
