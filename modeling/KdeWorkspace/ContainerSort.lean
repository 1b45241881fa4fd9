import KdeWorkspace.Containers
import KdeWorkspace.StableSorts

/-!
Sorting a container (`bsort_ctnr`): a merge sort from runs of one node upwards that
links the nodes anew where they are.

While a pass merges, the nodes are in three stretches: those linked anew from the root,
what is left of the first run, and everything from the second run on, which still ends at
the root (`Between`). A pass is one of `Passed`, so the node sequence is the stable sort by
what the comparison says of the *nodes*, which it is called with. It is sorted by what the
nodes hold just when the comparison does not tell the two apart (`sorted_iff`).
-/
namespace KdeWorkspace.Containers
open Rings StableSorts List Option
set_option linter.unusedSectionVars false
variable {N D : Type} [DecidableEq N]

/-- What a comparison may be called with: any address, of a node or of what a node holds. -/
inductive Pointer (N D : Type)
  | node (a : N)
  | object (d : D)
deriving DecidableEq

/-- What the merging loop changes: the container, its pointers and the sizes of the runs. -/
structure Merging (N D : Type) where
  ctnr : Container N D
  p : Option N
  q : Option N
  psize : Nat
  qsize : Nat
  tail : Option N

namespace Container

/-- The pointer behind a node, null where the ring ends. -/
def onward (c : Container N D) (oldhead a : N) : Option (Option N) := do
  let node ← c.heap a
  some (if node.next = some oldhead then none else node.next)

/-- The loop that steps `insize` places along, with the number of steps. -/
def stepAlong (c : Container N D) (oldhead : N) : Nat → Option N → Nat → Option (Option N × Nat)
  | 0,q,psize => some (q,psize)
  | i+1,q,psize => do
    let q ← c.onward oldhead (← q)
    if q = none then some (none,psize+1) else stepAlong c oldhead i q (psize+1)

/-- What adds the next element to the merged list. -/
def addToTail (c : Container N D) (tail : Option N) (e : N) : Container N D :=
  match tail with
  | some tail => (c.setNext tail (some e)).setPrev e (some tail)
  | none => (c.setNext c.rootNode (some e)).setPrev e (some c.rootNode)

end Container

namespace Merging

def fromP (oldhead : N) (s : Merging N D) : Option (Merging N D) := do
  let e ← s.p
  let p ← s.ctnr.onward oldhead e
  some {s with ctnr := s.ctnr.addToTail s.tail e,p := p,psize := s.psize-1,tail := some e}

def fromQ (oldhead : N) (s : Merging N D) : Option (Merging N D) := do
  let e ← s.q
  let q ← s.ctnr.onward oldhead e
  some {s with ctnr := s.ctnr.addToTail s.tail e,q := q,qsize := s.qsize-1,tail := some e}

/-- The body of the merging loop; the comparison is called with the nodes. -/
def next (compare_func : Pointer N D → Pointer N D → Int) (oldhead : N) (s : Merging N D) : Option (Merging N D) :=
  if s.psize = 0 then s.fromQ oldhead
  else if s.qsize = 0 ∨ s.q = none then s.fromP oldhead
  else do
    if compare_func (.node (← s.p)) (.node (← s.q)) ≤ 0 then s.fromP oldhead else s.fromQ oldhead

def merge (compare_func : Pointer N D → Pointer N D → Int) (oldhead : N) : Nat → Merging N D → Option (Merging N D)
  | 0,_ => none
  | fuel+1,s =>
    if 0 < s.psize ∨ 0 < s.qsize ∧ s.q ≠ none then do merge compare_func oldhead fuel (← s.next compare_func oldhead)
    else some s

end Merging

namespace Container

/-- The loop of one pass: the container, the tail and the number of merges. -/
def mergeRuns (compare_func : Pointer N D → Pointer N D → Int) (oldhead : N) (insize : Nat) :
    Nat → Container N D → Option N → Option N → Nat → Option (Container N D × Option N × Nat)
  | 0,_,_,_,_ => none
  | _+1,c,none,tail,nmerges => some (c,tail,nmerges)
  | fuel+1,c,some p,tail,nmerges => do
    let (q,psize) ← c.stepAlong oldhead insize (some p) 0
    let s ← Merging.merge compare_func oldhead (psize+insize+1) ⟨c,some p,q,psize,insize,tail⟩
    mergeRuns compare_func oldhead insize fuel s.ctnr s.q s.tail (nmerges+1)

/-- One pass, with the number of merges. -/
def pass (compare_func : Pointer N D → Pointer N D → Int) (fuel insize : Nat) (c : Container N D) : Option (Container N D × Nat) := do
  let p := (← c.heap c.rootNode).next
  let (c,tail,nmerges) ← mergeRuns compare_func c.rootNode insize fuel (c.setNext c.rootNode none) p none 0
  let c := match tail with
    | some tail => c.setNext tail (some c.rootNode)
    | none => c
  some (c.setPrev c.rootNode tail,nmerges)

def passes (compare_func : Pointer N D → Pointer N D → Int) (bound : Nat) : Nat → Nat → Container N D → Option (Container N D)
  | 0,_,_ => none
  | fuel+1,insize,c => do
    let (c,nmerges) ← pass compare_func bound insize c
    if nmerges ≤ 1 then some c else passes compare_func bound fuel (insize*2) c

/-- `bsort_ctnr`. No loop takes more turns than the bound, which is more than there are nodes. -/
def bsort_ctnr (compare_func : Pointer N D → Pointer N D → Int) (c : Container N D) : Option (Container N D) :=
  if c.level_ctnr = 0 then some c
  else passes compare_func (c.level_ctnr.toNat+2) (c.level_ctnr.toNat+2) 1 c

/-- What stays while the nodes are linked anew. -/
structure Same (c c' : Container N D) : Prop where
  root : c'.rootNode = c.rootNode
  counts : c'.count = c.count
  points : c'.currentNode = c.currentNode
  data : ∀ a, c'.data a = c.data a

variable {c c' c'' : Container N D} {l m out ps qs : List N} {tail : Option N} {a b e : N}

theorem Same.refl (c : Container N D) : Same c c := ⟨rfl,rfl,rfl,fun _ => rfl⟩

theorem Same.trans (first : Same c c') (second : Same c' c'') : Same c c'' :=
  ⟨second.root.trans first.root,second.counts.trans first.counts,second.points.trans first.points,
    fun a => (second.data a).trans (first.data a)⟩

/-- The first node leads to the second one. -/
def To (c : Container N D) (a b : N) : Prop := c.next a = some b

theorem isChain_of_sources {R S : N → N → Prop} (chain : l.IsChain R) (imp : ∀ a ∈ l.dropLast, ∀ b, R a b → S a b) : l.IsChain S := by
  induction chain with
  | nil => exact .nil
  | singleton a => exact .singleton a
  | @cons_cons a b l link chain ih =>
    rw [dropLast_cons_cons] at imp
    exact .cons_cons (imp a mem_cons_self b link) (ih fun a' member => imp a' (mem_cons_of_mem a member))

/-- The nodes that are linked anew, what is left of the first run, and the others,
    the last of which still leads to the root. -/
structure Between (c : Container N D) (out ps qs : List N) : Prop where
  distinct : (c.rootNode :: out ++ (ps ++ qs)).Nodup
  live : ∀ a ∈ c.rootNode :: out ++ (ps ++ qs), (c.heap a).isSome
  linked : (c.rootNode :: out).IsChain c.Linked
  run : ps.IsChain c.To
  rest : (qs ++ [c.rootNode]).IsChain c.To

theorem onward_of_next {old : N} (next : c.next a = some b) : c.onward old a = some (if b = old then none else some b) := by
  cases found : c.heap a with
  | none => simp [Container.next,found] at next
  | some node =>
    have here : node.next = some b := by simpa [Container.next,found] using next
    simp [onward,found,here]

theorem onward_of_live (old : N) (live : (c.heap a).isSome) : ∃ p, c.onward old a = some p := by
  obtain ⟨node,found⟩ := isSome_iff_exists.mp live
  exact ⟨_,by simp [onward,found]; rfl⟩

theorem Between.onward_rest {t : N} {qs' : List N} (between : c.Between out ps qs) (suffix : t :: qs' <:+ qs) :
    c.onward c.rootNode t = some qs'.head? := by
  obtain ⟨pre,rfl⟩ := suffix
  have rest : (t :: (qs' ++ [c.rootNode])).IsChain c.To := between.rest.suffix ⟨pre,by simp⟩
  cases qs' with
  | nil =>
    have next : c.next t = some c.rootNode := (isChain_cons_cons.mp rest).1
    simp [onward_of_next next]
  | cons u qs' =>
    have next : c.next t = some u := (isChain_cons_cons.mp rest).1
    have other : u ≠ c.rootNode := by
      have distinct := between.distinct
      rintro rfl
      exact (nodup_cons.mp distinct).1 (by simp)
    simp [onward_of_next next,other]

theorem Between.onward_run {t u : N} (between : c.Between out (t :: u :: ps) qs) : c.onward c.rootNode t = some (some u) := by
  have next : c.next t = some u := (isChain_cons_cons.mp between.run).1
  have other : u ≠ c.rootNode := by
    have distinct := between.distinct
    rintro rfl
    exact (nodup_cons.mp distinct).1 (by simp)
  simp [onward_of_next next,other]

theorem addToTail_same (c : Container N D) (tail : Option N) (e : N) : Same c (c.addToTail tail e) := by
  cases tail with
  | none => exact ⟨rfl,rfl,rfl,fun a => by simp [addToTail]⟩
  | some tail => exact ⟨rfl,rfl,rfl,fun a => by simp [addToTail]⟩

theorem addToTail_eq (c : Container N D) (out : List N) (e : N) : c.addToTail out.getLast? e =
    (c.setNext (out.getLastD c.rootNode) (some e)).setPrev e (some (out.getLastD c.rootNode)) := by
  cases out using reverseRecOn <;> simp [addToTail]

theorem Between.add (ps' qs' : List N) (between : c.Between out ps qs) (taken : (ps ++ qs).Perm (e :: (ps' ++ qs')))
    (run : ps' <:+ ps) (rest : qs' <:+ qs) : (c.addToTail out.getLast? e).Between (out ++ [e]) ps' qs' := by
  have perm : (c.rootNode :: out ++ (ps ++ qs)).Perm (c.rootNode :: (out ++ [e]) ++ (ps' ++ qs')) := by
    refine (taken.append_left _).trans ?_
    simp
  have distinct := perm.nodup_iff.mp between.distinct
  have last_in : out.getLastD c.rootNode ∈ c.rootNode :: out := getLastD_mem mem_cons_self fun _ => mem_cons_of_mem _
  have e_in : e ∈ c.rootNode :: out ++ (ps ++ qs) := perm.mem_iff.mpr (by simp)
  have e_out : e ∉ c.rootNode :: out := by
    intro inside
    have parted := nodup_append.mp (show ((c.rootNode :: out) ++ (e :: (ps' ++ qs'))).Nodup by simpa using distinct)
    exact parted.2.2 e inside e mem_cons_self rfl
  have live := between.live (out.getLastD c.rootNode) (mem_append_left _ last_in)
  have live' := between.live e e_in
  have source := end_notMem_dropLast (t := c.rootNode) (l := out) (nodup_append.mp between.distinct).1
  have apart : ∀ x ∈ c.rootNode :: out, ∀ y ∈ ps ++ qs, x ≠ y := (nodup_append.mp between.distinct).2.2
  have end_same : (c.rootNode :: out).getLast? = some (out.getLastD c.rootNode) := by
    rw [getLast?_cons,getLastD_eq_getLast?]
  rw [addToTail_eq]
  generalize out.getLastD c.rootNode = last at *
  have links : ∀ x y, Relinked c.Linked last e x y → ((c.setNext last (some e)).setPrev e (some last)).Linked x y := by
    rintro x y (⟨rfl,rfl⟩ | ⟨other,other',link⟩)
    · simp [Linked,live,live']
    · simp [Linked,live,live',other,other',link.1,link.2]
  have kept {ys : List N} (chain : ys.IsChain c.To) (others : ∀ y ∈ ys.dropLast, y ≠ last) :
      ys.IsChain ((c.setNext last (some e)).setPrev e (some last)).To := by
    refine isChain_of_sources chain fun y member z next => ?_
    have here : c.next y = some z := next
    simp [To,live,here,others y member]
  refine ⟨distinct,fun a member => ?_,?_,?_,?_⟩
  · simpa using between.live a (perm.mem_iff.mpr member)
  · show ((c.rootNode :: out) ++ [e]).IsChain _
    refine isChain_append.mpr ⟨(isChain_relinked between.linked source ?_).imp links,.singleton e,?_⟩
    · exact fun inside => e_out (mem_cons_of_mem _ inside)
    · intro x inside y here
      rw [end_same] at inside
      simp only [head?_cons,mem_def,some.injEq] at inside here
      subst inside here
      exact links _ _ (relinked_self _ _)
  · refine kept (between.run.suffix run) fun y member same => ?_
    exact apart last last_in y (mem_append_left _ (run.subset (mem_of_mem_dropLast member))) same.symm
  · refine kept (between.rest.suffix ?_) fun y member same => ?_
    · obtain ⟨pre,rfl⟩ := rest
      exact ⟨pre,(append_assoc _ _ _).symm⟩
    · rw [dropLast_concat] at member
      exact apart last last_in y (mem_append_right _ (rest.subset member)) same.symm

end Container

open Container

/-- The comparison orders what it is called with, with no two of it apart. -/
structure TotalPreorder (compare_func : Pointer N D → Pointer N D → Int) : Prop where
  trans : ∀ p q r, compare_func p q ≤ 0 → compare_func q r ≤ 0 → compare_func p r ≤ 0
  total : ∀ p q, compare_func p q ≤ 0 ∨ compare_func q p ≤ 0

/-- The comparison of the nodes themselves, which is what the sorting asks. -/
def byNode (compare_func : Pointer N D → Pointer N D → Int) (a b : N) : Bool := decide (compare_func (.node a) (.node b) ≤ 0)

theorem TotalPreorder.byNode_trans {compare_func : Pointer N D → Pointer N D → Int} (order : TotalPreorder compare_func) (a b c : N)
    (first : byNode compare_func a b = true) (second : byNode compare_func b c = true) : byNode compare_func a c = true :=
  decide_eq_true (order.trans _ _ _ (of_decide_eq_true first) (of_decide_eq_true second))

theorem TotalPreorder.byNode_total {compare_func : Pointer N D → Pointer N D → Int} (order : TotalPreorder compare_func) (a b : N) :
    byNode compare_func a b = true ∨ byNode compare_func b a = true :=
  (order.total (.node a) (.node b)).imp (fun le => decide_eq_true le) (fun le => decide_eq_true le)

namespace Merging
variable {s s' : Merging N D} {out ps qs : List N} {e : N} (compare_func : Pointer N D → Pointer N D → Int)

/-- The pointers and the size of the first run agree with the stretches. -/
structure Stands (s : Merging N D) (out ps qs : List N) : Prop where
  between : s.ctnr.Between out ps qs
  first : ps ≠ [] → s.p = ps.head?
  second : s.q = qs.head?
  size : s.psize = ps.length
  ends : s.tail = out.getLast?

theorem fromP_stands (stands : s.Stands out (e :: ps) qs) :
    ∃ s', s.fromP s.ctnr.rootNode = some s' ∧ s'.Stands (out ++ [e]) ps qs ∧ Same s.ctnr s'.ctnr ∧ s'.qsize = s.qsize := by
  have here : s.p = some e := stands.first (cons_ne_nil e ps)
  have added := stands.between.add ps qs (e := e) .rfl (suffix_cons e ps) suffix_rfl
  rw [← stands.ends] at added
  have live : (s.ctnr.heap e).isSome := stands.between.live e (by simp)
  obtain ⟨p,led,next⟩ : ∃ p, s.ctnr.onward s.ctnr.rootNode e = some p ∧ (ps ≠ [] → p = ps.head?) := by
    cases ps with
    | nil =>
      obtain ⟨p,led⟩ := onward_of_live s.ctnr.rootNode live
      exact ⟨p,led,fun some => absurd rfl some⟩
    | cons u ps => exact ⟨some u,stands.between.onward_run,fun _ => rfl⟩
  refine ⟨{s with ctnr := s.ctnr.addToTail s.tail e,p := p,psize := s.psize-1,tail := some e},?_,⟨added,next,stands.second,?_,?_⟩,
    addToTail_same _ _ _,rfl⟩
  · simp [fromP,here,led]
  · simp [stands.size]
  · simp

theorem fromQ_stands (stands : s.Stands out ps (e :: qs)) :
    ∃ s', s.fromQ s.ctnr.rootNode = some s' ∧ s'.Stands (out ++ [e]) ps qs ∧ Same s.ctnr s'.ctnr ∧ s'.qsize = s.qsize-1 := by
  have here : s.q = some e := stands.second
  have added := stands.between.add ps qs (e := e) perm_middle suffix_rfl (suffix_cons e qs)
  rw [← stands.ends] at added
  have led := stands.between.onward_rest suffix_rfl
  refine ⟨{s with ctnr := s.ctnr.addToTail s.tail e,q := qs.head?,qsize := s.qsize-1,tail := some e},?_,
    ⟨added,stands.first,rfl,stands.size,?_⟩,addToTail_same _ _ _,rfl⟩
  · simp [fromQ,here,led]
  · simp

/-- A turn takes what `List.merge` takes. -/
theorem next_stands (stands : s.Stands out ps qs) (more : 0 < s.psize ∨ 0 < s.qsize ∧ s.q ≠ none) :
    ∃ s' e ps' qs', s.next compare_func s.ctnr.rootNode = some s' ∧ s'.Stands (out ++ [e]) ps' qs' ∧ Same s.ctnr s'.ctnr ∧
      ps.merge (qs.take s.qsize) (byNode compare_func) = e :: ps'.merge (qs'.take s'.qsize) (byNode compare_func) ∧
      qs'.drop s'.qsize = qs.drop s.qsize ∧ ps'.length+s'.qsize < ps.length+s.qsize := by
  have size := stands.size
  have second := stands.second
  cases ps with
  | nil =>
    cases qs with
    | nil => simp [size,second] at more
    | cons f qs =>
      have some : 0 < s.qsize := by simpa [size,second] using more
      obtain ⟨s',taken,stands',same,qsize⟩ := fromQ_stands stands
      obtain ⟨k,known⟩ := Nat.exists_eq_succ_of_ne_zero (Nat.ne_of_gt some)
      refine ⟨s',f,[],qs,?_,stands',same,?_,?_,?_⟩
      · rw [next,if_pos (by simpa using size),taken]
      · simp [qsize,known]
      · simp [qsize,known]
      · simp [qsize,known]
  | cons e ps =>
    have none_left : ¬ s.psize = 0 := by simp [size]
    have first : s.p = some e := stands.first (cons_ne_nil e ps)
    by_cases out_of : s.qsize = 0 ∨ s.q = none
    · obtain ⟨s',taken,stands',same,qsize⟩ := fromP_stands stands
      have empty : qs.take s.qsize = [] := by
        rcases out_of with zero | none
        · simp [zero]
        · rw [second,head?_eq_none_iff] at none
          simp [none]
      refine ⟨s',e,ps,qs,?_,stands',same,?_,by rw [qsize],by simp [qsize]⟩
      · rw [next,if_neg none_left,if_pos out_of,taken]
      · simp [qsize,empty]
    · obtain ⟨some,there⟩ := not_or.mp out_of
      cases qs with
      | nil => exact absurd second there
      | cons f qs =>
        obtain ⟨k,known⟩ := Nat.exists_eq_succ_of_ne_zero some
        have second : s.q = .some f := second
        by_cases lower : compare_func (.node e) (.node f) ≤ 0
        · obtain ⟨s',taken,stands',same,qsize⟩ := fromP_stands stands
          have le : byNode compare_func e f = true := decide_eq_true lower
          refine ⟨s',e,ps,f :: qs,?_,stands',same,?_,by rw [qsize],by simp [qsize]⟩
          · simp [next,none_left,first,second,some,lower,taken]
          · rw [qsize,known,take_succ_cons,cons_merge_cons_pos _ _ _ le]
        · obtain ⟨s',taken,stands',same,qsize⟩ := fromQ_stands stands
          have gt : ¬ byNode compare_func e f = true := by simpa [byNode] using lower
          refine ⟨s',f,e :: ps,qs,?_,stands',same,?_,?_,by simp [qsize,known]⟩
          · simp [next,none_left,first,second,some,lower,taken]
          · rw [qsize,known,take_succ_cons,cons_merge_cons_neg _ _ _ gt]
            rfl
          · simp [qsize,known]

theorem merge_stands (fuel : Nat) (stands : s.Stands out ps qs) (enough : ps.length+s.qsize < fuel) :
    ∃ s', merge compare_func s.ctnr.rootNode fuel s = some s' ∧
      s'.Stands (out ++ ps.merge (qs.take s.qsize) (byNode compare_func)) [] (qs.drop s.qsize) ∧ Same s.ctnr s'.ctnr := by
  induction fuel generalizing s out ps qs with
  | zero => cases enough
  | succ fuel ih =>
    by_cases more : 0 < s.psize ∨ 0 < s.qsize ∧ s.q ≠ none
    · obtain ⟨s₁,e,ps₁,qs₁,taken,stands₁,same₁,merged,left,less⟩ := next_stands compare_func stands more
      obtain ⟨s',performed,stands',same⟩ := ih stands₁ (by omega)
      rw [same₁.root] at performed
      rw [left,append_assoc,singleton_append,← merged] at stands'
      refine ⟨s',?_,stands',same₁.trans same⟩
      rw [merge,if_pos more,taken,bind_eq_bind,bind_some,performed]
    · obtain ⟨no_first,no_second⟩ := not_or.mp more
      have empty : ps = [] := by simpa [stands.size] using no_first
      have exhausted : qs.take s.qsize = [] ∧ qs.drop s.qsize = qs := by
        by_cases zero : s.qsize = 0
        · simp [zero]
        · have none : qs.head? = none := by
            have known : s.q = none := by
              by_contra some
              exact no_second ⟨Nat.pos_of_ne_zero zero,some⟩
            exact stands.second.symm.trans known
          simp [head?_eq_none_iff.mp none]
      subst empty
      rw [exhausted.1,exhausted.2]
      refine ⟨s,?_,by simpa using stands,Same.refl _⟩
      rw [merge,if_neg more]

end Merging

namespace Container
variable {c c' : Container N D} {l m out qs : List N} {a : N} (compare_func : Pointer N D → Pointer N D → Int)

theorem stepAlong_rest {i : Nat} (between : c.Between out [] qs) {qs' : List N} (suffix : a :: qs' <:+ qs) (psize : Nat) :
    c.stepAlong c.rootNode i (some a) psize = some (((a :: qs').drop i).head?,psize+min i (a :: qs').length) := by
  induction i generalizing a qs' psize with
  | zero => simp [stepAlong]
  | succ i ih =>
    have led := between.onward_rest suffix
    cases qs' with
    | nil => simp [stepAlong,led]
    | cons b qs' =>
      have further := ih ((suffix_cons a (b :: qs')).trans suffix) (psize+1)
      simp only [stepAlong,led,bind_eq_bind,bind_some,head?_cons,further]
      simp
      omega

theorem Between.cut (between : c.Between out [] qs) (k : Nat) : c.Between out (qs.take k) (qs.drop k) := by
  have whole : qs.take k ++ qs.drop k = qs := take_append_drop k qs
  refine ⟨by rw [whole]; exact between.distinct,by rw [whole]; exact between.live,between.linked,?_,?_⟩
  · exact between.rest.prefix ((List.take_prefix k qs).trans (prefix_append _ _))
  · refine between.rest.suffix ⟨qs.take k,?_⟩
    rw [← append_assoc,whole]

theorem mergeRuns_passed {fuel k : Nat} (n : Nat) (between : c.Between out [] qs) (some : 0 < k) (enough : qs.length < fuel) :
    ∃ c' out' n', mergeRuns compare_func c.rootNode k fuel c qs.head? out.getLast? n = .some (c',(out ++ out').getLast?,n+n') ∧
      Passed (byNode compare_func) k qs out' n' ∧ c'.Between (out ++ out') [] [] ∧ Same c c' := by
  induction fuel generalizing c out qs n with
  | zero => cases enough
  | succ fuel ih =>
    cases qs with
    | nil => exact ⟨c,[],0,by simp [mergeRuns],.nil,by simpa using between,Same.refl c⟩
    | cons a qs =>
      have stepped := stepAlong_rest (i := k) between suffix_rfl 0
      have starts : (Merging.mk c (.some a) ((a :: qs).drop k).head? (0+min k (a :: qs).length) k out.getLast?).Stands out
          ((a :: qs).take k) ((a :: qs).drop k) := by
        refine ⟨between.cut k,fun _ => ?_,rfl,by simp,rfl⟩
        obtain ⟨k,rfl⟩ := Nat.exists_eq_succ_of_ne_zero (Nat.ne_of_gt some)
        rfl
      obtain ⟨s,merged,stands,same⟩ := Merging.merge_stands compare_func (0+min k (a :: qs).length+k+1) starts (by simp)
      have shorter : ((a :: qs).drop k).drop k = (a :: qs).drop (k+k) := by rw [drop_drop]
      have stands' := stands
      rw [shorter] at stands'
      obtain ⟨c',out',n',performed,passed,between',same'⟩ := ih (n+1) stands'.between (by
        simp only [length_drop,length_cons] at enough ⊢
        omega)
      refine ⟨c',_,n'+1,?_,.cons (cons_ne_nil a qs) passed,append_assoc .. ▸ between',same.trans same'⟩
      rw [same.root] at performed
      simp only [head?_cons,mergeRuns,stepped,merged,bind_eq_bind,bind_some,stands'.second,stands'.ends,performed]
      simp [append_assoc,Nat.add_assoc,Nat.add_comm 1 n']

theorem Ringed.opened (ringed : c.Ringed l) : (c.setNext c.rootNode none).Between [] [] l := by
  have live := ringed.live (a := c.rootNode) mem_cons_self
  have distinct : (c.rootNode :: l).Nodup := ringed.nodup
  refine ⟨distinct,fun a member => ?_,.singleton _,.nil,?_⟩
  · simpa using ringed.live (show a ∈ c.rootNode :: l from member)
  · refine isChain_of_sources (R := c.Linked) ringed.linked.tail fun a member b link => ?_
    have other : a ≠ c.rootNode := by
      rintro rfl
      rw [dropLast_concat] at member
      exact (nodup_cons.mp distinct).1 member
    simp [To,live,other,link.1]

theorem Between.closed (between : c.Between l [] []) (full : ∀ a ∈ l, (c.data a).isSome) :
    ((c.setNext (l.getLastD c.rootNode) (some c.rootNode)).setPrev c.rootNode (some (l.getLastD c.rootNode))).Ringed l := by
  have distinct : (c.rootNode :: l).Nodup := by simpa using between.distinct
  have live := between.live (l.getLastD c.rootNode) (by simpa using Ringed.last_mem c l)
  have root_live := between.live c.rootNode (by simp)
  have ring := ring_close between.linked distinct
  refine Ringed.of_links (c := c) rfl distinct ring ?_ fun a member => by simpa using full a member
  generalize l.getLastD c.rootNode = last at *
  rintro x y (⟨rfl,rfl⟩ | ⟨other,other',link⟩)
  · simp [Linked,live,root_live]
  · simp [Linked,live,root_live,other,other',link.1,link.2]

theorem pass_passed {fuel k : Nat} (ringed : c.Ringed l) (nonempty : l ≠ []) (some : 0 < k) (enough : l.length < fuel) :
    ∃ c' l' n, pass compare_func fuel k c = .some (c',n) ∧ Passed (byNode compare_func) k l l' n ∧ c'.Ringed l' ∧ Same c c' := by
  obtain ⟨node,found⟩ := isSome_iff_exists.mp (ringed.live (a := c.rootNode) mem_cons_self)
  have starts : node.next = l.head? := by
    have first := ringed.root_neighbours.1.1
    obtain ⟨a,l,rfl⟩ := exists_cons_of_ne_nil nonempty
    simpa [Container.next,found] using first
  obtain ⟨c₁,l',n,performed,passed,between,same⟩ := mergeRuns_passed compare_func 0 ringed.opened some enough
  rw [nil_append] at performed between
  have root : c₁.rootNode = c.rootNode := same.root
  have data (a : N) : c₁.data a = c.data a := by simpa using same.data a
  have closed := between.closed fun a member => by
    rw [data]
    exact ringed.full a (passed.perm.mem_iff.mp member)
  have nonempty' : l' ≠ [] := by
    rintro rfl
    exact nonempty passed.perm.nil_eq.symm
  have tail : l'.getLast? = .some (l'.getLastD c₁.rootNode) := by
    rw [getLastD_eq_getLast?]
    cases l' using reverseRecOn with
    | nil => exact absurd rfl nonempty'
    | append_singleton l' a => simp
  refine ⟨_,l',n,?_,passed,closed,root,same.counts,same.points,fun a => by simpa using data a⟩
  have performed : mergeRuns compare_func c.rootNode k fuel (c.setNext c.rootNode none) l.head? none 0 =
      .some (c₁,.some (l'.getLastD c₁.rootNode),0+n) := tail ▸ performed
  simp only [pass,found,starts,performed,bind_eq_bind,bind_some,Nat.zero_add,rootNode_setNext,root]

theorem passes_sorted {bound : Nat} (fuel k : Nat) (ringed : c.Ringed l) (nonempty : l ≠ []) (some : 0 < k) (inside : l.length < bound)
    (turns : 0 < fuel) (enough : l.length < k+fuel) :
    ∃ c' l', passes compare_func bound fuel k c = .some c' ∧ c'.Ringed l' ∧ Same c c' ∧ l'.Perm l ∧
      ∀ m, TotalPreorder compare_func → m.Nodup → Chunked (byNode compare_func) k m l → StableSort (byNode compare_func) m l' := by
  induction fuel generalizing c l k with
  | zero => cases turns
  | succ fuel ih =>
    obtain ⟨c₁,l₁,n,performed,passed,ringed₁,same₁⟩ := pass_passed compare_func ringed nonempty some inside
    by_cases few : n ≤ 1
    · refine ⟨c₁,l₁,?_,ringed₁,same₁,passed.perm,fun m order nodup runs => ?_⟩
      · simp [passes,performed,few]
      · exact passed.sorted order.byNode_trans order.byNode_total nodup runs few
    · have long := passed.long (Nat.lt_of_not_le few)
      have length := passed.perm.length_eq
      have nonempty₁ : l₁ ≠ [] := by
        rintro rfl
        exact nonempty passed.perm.nil_eq.symm
      obtain ⟨c',l',finished,ringed',same',perm,sorted⟩ := ih (k*2) ringed₁ nonempty₁ (by omega) (by omega) (by omega) (by omega)
      refine ⟨c',l',?_,ringed',same₁.trans same',perm.trans passed.perm,fun m order nodup runs => ?_⟩
      · simp [passes,performed,few,finished]
      · refine sorted m order nodup ?_
        rw [Nat.mul_two]
        exact passed.chunked order.byNode_trans order.byNode_total nodup runs

theorem bsort_ctnr_ringed (compare_func : Pointer N D → Pointer N D → Int) (ringed : c.Ringed l) (counts : c.count = l.length) :
    ∃ c' l', bsort_ctnr compare_func c = some c' ∧ c'.Ringed l' ∧ Same c c' ∧ l'.Perm l ∧
      (TotalPreorder compare_func → StableSort (byNode compare_func) l l') := by
  by_cases nothing : c.level_ctnr = 0
  · have empty : l = [] := by
      have zero : (l.length : Int) = 0 := counts.symm.trans nothing
      exact length_eq_zero_iff.mp (by omega)
    subst empty
    exact ⟨c,[],by rw [bsort_ctnr,if_pos nothing],ringed,Same.refl c,.rfl,fun _ => stableSort_nil⟩
  · have nonempty : l ≠ [] := by
      rintro rfl
      exact nothing counts
    have inside : l.length < c.level_ctnr.toNat+2 := by
      rw [level_ctnr]
      omega
    obtain ⟨c',l',performed,ringed',same,perm,sorted⟩ := passes_sorted compare_func
      (c.level_ctnr.toNat+2) 1 ringed nonempty Nat.one_pos inside (by omega) (by omega)
    refine ⟨c',l',by rw [bsort_ctnr,if_neg nothing,performed],ringed',same,perm,fun order => ?_⟩
    exact sorted l order (nodup_cons.mp ringed.nodup).2 (chunked_one l)

end Container

/-- The comparison of what the nodes hold. -/
def byObject (c : Container N D) (compare_func : Pointer N D → Pointer N D → Int) (a b : N) : Bool :=
  match c.data a,c.data b with
  | some d,some e => decide (compare_func (.object d) (.object e) ≤ 0)
  | _,_ => false

/-- The ring of the same nodes with the same data, stably sorted by these. -/
def Sorted (compare_func : Pointer N D → Pointer N D → Int) (c c' : Container N D) : Prop :=
  ∃ l l', c.Ringed l ∧ c'.Ringed l' ∧ Same c c' ∧ StableSort (byObject c compare_func) l l'

variable {c : Container N D} {l : List N}

/-- Sorting always ends with a ring of the nodes. They are sorted by what they hold just
    when the comparison gives for the nodes what it gives for their data. -/
theorem sorted_iff (compare_func : Pointer N D → Pointer N D → Int) (order : TotalPreorder compare_func) (ringed : c.Ringed l)
    (counts : c.count = l.length) : ∃ c' l', c.bsort_ctnr compare_func = some c' ∧ c'.Ringed l' ∧ Same c c' ∧ l'.Perm l ∧
      (Sorted compare_func c c' ↔ ∀ i j, [i,j].Sublist l → byNode compare_func i j = byObject c compare_func i j) := by
  obtain ⟨c',l',performed,ringed',same,perm,stable⟩ := bsort_ctnr_ringed compare_func ringed counts
  have agree := (stable order).agree_iff (byObject c compare_func) (nodup_cons.mp ringed.nodup).2
  refine ⟨c',l',performed,ringed',same,perm,?_,fun pairs => ⟨l,l',ringed,ringed',same,agree.mpr pairs⟩⟩
  rintro ⟨m,m',ringedM,ringedM',_,sorts⟩
  rw [ringed.unique ringedM,ringed'.unique ringedM'] at agree
  rw [ringed.unique ringedM]
  exact agree.mp sorts

/-- Two nodes with 2 and 1, in this order. -/
def pairRing : Container Nat Int where
  heap := fun
    | 0 => some ⟨some 1,some 2,none⟩
    | 1 => some ⟨some 2,some 0,some 2⟩
    | 2 => some ⟨some 0,some 1,some 1⟩
    | _ => none
  rootNode := 0
  count := 2
  currentNode := 0

/-- A comparison of the numbers; whatever is no number it takes for 0. -/
def compareNumbers : Pointer Nat Int → Pointer Nat Int → Int
  | .object d,.object e => d-e
  | .object d,.node _ => d
  | .node _,.object e => -e
  | .node _,.node _ => 0

theorem pairRing_ringed : pairRing.Ringed [1,2] := by
  refine ⟨by decide,?_,by decide⟩
  show List.IsChain pairRing.Linked [0,1,2,0]
  simp [Container.Linked,Container.next,Container.prev,pairRing]

theorem compareNumbers_order : TotalPreorder compareNumbers := by
  constructor
  · rintro (p | p) (q | q) (r | r) <;> simp only [compareNumbers] <;> omega
  · rintro (p | p) (q | q) <;> simp only [compareNumbers] <;> omega

theorem sorted_pair : ∃ c' l', pairRing.bsort_ctnr compareNumbers = some c' ∧ c'.Ringed l' ∧ Same pairRing c' ∧ l'.Perm [1,2] ∧
    (Sorted compareNumbers pairRing c' ↔
      ∀ i j, [i,j].Sublist [1,2] → byNode compareNumbers i j = byObject pairRing compareNumbers i j) :=
  sorted_iff compareNumbers compareNumbers_order pairRing_ringed rfl

/-- The nodes count as equal, so 2 stays in front of 1. -/
theorem pair_unsorted : TotalPreorder compareNumbers ∧
    ∃ c', pairRing.bsort_ctnr compareNumbers = some c' ∧ c'.Ringed [1,2] ∧ ¬ Sorted compareNumbers pairRing c' := by
  obtain ⟨c',l',performed,ringed',_,perm,stable⟩ := bsort_ctnr_ringed compareNumbers pairRing_ringed rfl
  have kept := (stable compareNumbers_order).keeps 1 2 (.refl _) (by decide)
  obtain rfl := kept.eq_of_length (by simpa using perm.length_eq.symm)
  refine ⟨compareNumbers_order,c',performed,ringed',?_⟩
  rintro ⟨m,m',ringedM,ringedM',_,sorts⟩
  obtain rfl := ringedM.unique pairRing_ringed
  obtain rfl := ringedM'.unique ringed'
  exact pair_antisymm (by decide) (sorts.swaps 1 2 (.refl _) (by decide)) kept

end KdeWorkspace.Containers
