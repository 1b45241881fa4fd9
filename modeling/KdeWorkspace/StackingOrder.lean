import KdeWorkspace.Clients
import KdeWorkspace.Loops
import Mathlib.Logic.Hydra

/-!
The constrained stacking order (`Workspace::constrainedStackingOrder`): the
windows are sorted into layers and then every transient that lies below its main
window is moved on top of it.

The second pass jumps back up whenever it moves a window with transients. It
ends because a move exchanges a window that lies below its main window for
transients of that window, which are fewer generations away from the last one
(`Relation.CutExpand`), and the windows above the current one are always in place.
So for normal transients the order is a permutation in which no transient lies
below its main window (`constrainedStackingOrder_transients_above`).
-/
namespace KdeWorkspace.StackingOrder
open Relation Relations Lists Loops Clients List

/-- The layers from `FirstLayer` up. -/
inductive Layer
  | DesktopLayer
  | BelowLayer
  | NormalLayer
  | DockLayer
  | AboveLayer
  | ActiveLayer
  | UnmanagedLayer
deriving Repr, DecidableEq

def Layer.all : List Layer :=
  [.DesktopLayer,.BelowLayer,.NormalLayer,.DockLayer,.AboveLayer,.ActiveLayer,.UnmanagedLayer]

/-- A window of the stacking order: a client, or an unmanaged or deleted window. -/
inductive Toplevel
  | client (c : ClientRef)
  | other (w : Nat)
deriving Repr, DecidableEq

/-- The maps of `minimum_layer`, one for each screen, and the lists of `layer`. -/
structure Layered where
  minimumLayer : Nat → Option GroupRef → Option Layer
  layer : Layer → List Toplevel

/-- The key of a window in the maps: no window but a client has a group. -/
def groupKey (ws : Workspace) : Toplevel → Option GroupRef
  | .client c => (ws.client c).inGroup
  | .other _ => none

/-- One round of the loop that builds the order from layers. -/
def appendToLayer (ws : Workspace) (layerOf : Toplevel → Layer) (screenOf : Toplevel → Nat) (s : Layered)
    (it : Toplevel) : Layered :=
  let l := layerOf it
  let screen := screenOf it
  let key := groupKey ws it
  match s.minimumLayer screen key with
  | some mLayer =>
    let l := if mLayer = .ActiveLayer ∧ (l = .NormalLayer ∨ l = .AboveLayer) then .ActiveLayer else l
    { minimumLayer := Function.update s.minimumLayer screen (Function.update (s.minimumLayer screen) key (some l))
      layer := Function.update s.layer l (s.layer l ++ [it]) }
  | none =>
    { minimumLayer := match it with
        | .client _ => Function.update s.minimumLayer screen (Function.update (s.minimumLayer screen) key (some l))
        | .other _ => s.minimumLayer
      layer := Function.update s.layer l (s.layer l ++ [it]) }

def layeredOrder (ws : Workspace) (layerOf : Toplevel → Layer) (screenOf : Toplevel → Nat)
    (unconstrained : List Toplevel) : List Toplevel :=
  Layer.all.flatMap
    (unconstrained.foldl (appendToLayer ws layerOf screenOf) ⟨fun _ _ => none,fun _ => []⟩).layer

def keepTransientAbove (ws : Workspace) (mainwindow transient : ClientRef) : Bool :=
  if ws.isSplash transient && ws.isDialog mainwindow then false
  else if ws.isDialog transient && !(ws.client transient).modal && ws.groupTransient transient then false
  else if ws.isDock mainwindow then false
  else true

/-- The searches for the topmost main window, from the top of the stack down to the
    window itself; -1 when the window is already above all of them. -/
def topmostMain (isMain : ClientRef → Bool) (current : ClientRef) (stacking : List Toplevel) : Nat → Int
  | 0 => -1
  | i2+1 =>
    match stacking[i2]? with
    | some (.client c2) =>
      if c2 = current then -1 -- don't reorder
      else if isMain c2 then i2
      else topmostMain isMain current stacking i2
    | _ => topmostMain isMain current stacking i2

/-- The state of the pass: the order and the index it works on. -/
structure Pass where
  stacking : List Toplevel
  i : Int

/-- One round of the pass over the transients. -/
def keepTransientsAbove (ws : Workspace) (s : Pass) : Round Pass (List Toplevel) :=
  if s.i < 0 then .done s.stacking
  else
    match s.stacking[s.i.toNat]? with
    | some (.client current) =>
      if !ws.isTransient current then .next { s with i := s.i-1 }
      else
        let i2 :=
          if ws.groupTransient current then
            if (ws.groupMembers current).length > 0 then
              topmostMain (fun c2 => ws.hasTransient c2 current true && keepTransientAbove ws c2 current)
                current s.stacking s.stacking.length
            else -1
          else
            topmostMain (fun c2 => (ws.client current).transientFor = some c2 && keepTransientAbove ws c2 current)
              current s.stacking s.stacking.length
        if i2 = -1 then .next { s with i := s.i-1 }
        else
          let stacking := s.stacking.eraseIdx s.i.toNat
          let i := s.i-1
          let i2 := i2-1
          -- this one now can be possibly above its transients
          let i := if (ws.client current).transientsList ≠ [] then i2 else i
          let i2 := i2+1
          .next { stacking := insertAt stacking i2 (.client current), i := i }
    | _ => .next { s with i := s.i-1 }

/-- `Workspace::constrainedStackingOrder` ends with the result. -/
def ConstrainedStackingOrder (ws : Workspace) (layerOf : Toplevel → Layer) (screenOf : Toplevel → Nat)
    (unconstrained stacking : List Toplevel) : Prop :=
  let layered := layeredOrder ws layerOf screenOf unconstrained
  Ends (keepTransientsAbove ws) { stacking := layered, i := layered.length-1 } stacking

private theorem flatMap_append_perm {layers : List Layer} (nodup : layers.Nodup) {l : Layer} (member : l ∈ layers)
    (lists : Layer → List Toplevel) (w : Toplevel) :
    (layers.flatMap (Function.update lists l (lists l ++ [w]))).Perm (w :: layers.flatMap lists) := by
  induction layers with
  | nil => cases member
  | cons first rest ih =>
    obtain ⟨fresh,rest_nodup⟩ := nodup_cons.mp nodup
    simp only [flatMap_cons]
    rcases mem_cons.mp member with rfl | later
    · have same : rest.flatMap (Function.update lists l (lists l ++ [w])) = rest.flatMap lists := by
        refine flatMap_congr fun other inRest => Function.update_of_ne ?_ _ _
        rintro rfl
        exact fresh inRest
      rw [same,Function.update_self,append_assoc]
      exact perm_middle
    · have different : first ≠ l := by
        rintro rfl
        exact fresh later
      rw [Function.update_of_ne different]
      exact ((ih rest_nodup later).append_left _).trans perm_middle

private theorem appendToLayer_layer (ws : Workspace) (layerOf : Toplevel → Layer) (screenOf : Toplevel → Nat)
    (s : Layered) (it : Toplevel) :
    ∃ l, (appendToLayer ws layerOf screenOf s it).layer = Function.update s.layer l (s.layer l ++ [it]) := by
  cases found : s.minimumLayer (screenOf it) (groupKey ws it) with
  | some mLayer => exact ⟨_,by simp only [appendToLayer,found]; rfl⟩
  | none => exact ⟨_,by simp only [appendToLayer,found]; rfl⟩

private theorem foldl_appendToLayer_perm (ws : Workspace) (layerOf : Toplevel → Layer) (screenOf : Toplevel → Nat)
    (windows : List Toplevel) (s : Layered) :
    (Layer.all.flatMap (windows.foldl (appendToLayer ws layerOf screenOf) s).layer).Perm
      (windows ++ Layer.all.flatMap s.layer) := by
  induction windows generalizing s with
  | nil => exact List.Perm.refl _
  | cons w rest ih =>
    obtain ⟨l,layer⟩ := appendToLayer_layer ws layerOf screenOf s w
    have appended := flatMap_append_perm (show Layer.all.Nodup by decide) (show l ∈ Layer.all by cases l <;> decide)
      s.layer w
    rw [← layer] at appended
    exact (ih _).trans ((appended.append_left rest).trans perm_middle)

theorem layeredOrder_perm (ws : Workspace) (layerOf : Toplevel → Layer) (screenOf : Toplevel → Nat)
    (unconstrained : List Toplevel) : (layeredOrder ws layerOf screenOf unconstrained).Perm unconstrained := by
  have perm := foldl_appendToLayer_perm ws layerOf screenOf unconstrained ⟨fun _ _ => none,fun _ => []⟩
  simpa [layeredOrder,Layer.all] using perm

section
variable {α : Type} {list : List α} {i k : Nat} {a m : α}

private theorem move_moved [DecidableEq α] (nodup : list.Nodup) (here : list[i]? = some a) :
    Moved a list (insertAt (list.eraseIdx i) k a) :=
  ⟨k,by rw [eraseIdx_eq_removeAll nodup here]⟩

private theorem move_perm (here : list[i]? = some a) : (insertAt (list.eraseIdx i) k a).Perm list := by
  obtain ⟨lt,rfl⟩ := List.getElem?_eq_some_iff.mp here
  exact (insertAt_perm _ _ _).trans (List.getElem_cons_eraseIdx_perm lt)

private theorem move_getElem (lt : i < k) (bound : k < list.length) {j : Nat} {b : α} (different : b ≠ a)
    (there : (insertAt (list.eraseIdx i) k a)[j]? = some b) :
    list[if j < i then j else if j < k then j+1 else j]? = some b ∧ j ≠ k := by
  have length : (list.eraseIdx i).length = list.length-1 := length_eraseIdx_of_lt (by omega)
  rw [getElem?_insertAt (by omega)] at there
  by_cases below : j < k
  · rw [if_pos below,getElem?_eraseIdx] at there
    by_cases low : j < i
    · rw [if_pos low] at there ⊢
      exact ⟨there,by omega⟩
    · rw [if_neg low] at there ⊢
      rw [if_pos below]
      exact ⟨there,by omega⟩
  · rw [if_neg below] at there
    by_cases here : j = k
    · rw [if_pos here] at there
      exact absurd (Option.some.inj there).symm different
    · rw [if_neg here,getElem?_eraseIdx_of_ge (by omega),Nat.sub_add_cancel (by omega)] at there
      rw [if_neg (by omega),if_neg below]
      exact ⟨there,here⟩

private theorem move_before (lt : i < k) (bound : k < list.length) {j : Nat} (le : j ≤ k) (other : j ≠ i)
    (there : list[j]? = some m) : Before (insertAt (list.eraseIdx i) k a) m a := by
  have length : (list.eraseIdx i).length = list.length-1 := length_eraseIdx_of_lt (by omega)
  refine before_iff.mpr ⟨if j < i then j else j-1,k,by split <;> omega,?_,?_⟩
  · rw [getElem?_insertAt (by omega),if_pos (by split <;> omega),getElem?_eraseIdx]
    by_cases low : j < i
    · rw [if_pos low,if_pos low,there]
    · rw [if_neg low,if_neg (by omega),Nat.sub_add_cancel (by omega),there]
  · rw [getElem?_insertAt (by omega),if_neg (by omega),if_pos rfl]

end

private theorem topmostMain_cases (isMain : ClientRef → Bool) {current : ClientRef} {stacking : List Toplevel} {i : Nat}
    (here : ∀ j, stacking[j]? = some (.client current) ↔ j = i) {bound : Nat} (above : i < bound) :
    (topmostMain isMain current stacking bound = -1 ∧
      ∀ j m, i < j → j < bound → stacking[j]? = some (.client m) → isMain m = false) ∨
    ∃ (k : Nat) (m : ClientRef), topmostMain isMain current stacking bound = k ∧ i < k ∧
      stacking[k]? = some (.client m) ∧ isMain m = true := by
  induction bound with
  | zero => omega
  | succ bound ih =>
    by_cases last : bound = i
    · left
      subst last
      refine ⟨by simp [topmostMain,(here bound).mpr rfl],fun j m low high => by omega⟩
    · have rest := ih (by omega)
      have skip (no_main : ∀ m, stacking[bound]? = some (.client m) → isMain m = false)
          (others : ∀ j m, i < j → j < bound → stacking[j]? = some (.client m) → isMain m = false) :
          ∀ j m, i < j → j < bound+1 → stacking[j]? = some (.client m) → isMain m = false := by
        intro j m low high there
        rcases Nat.lt_succ_iff_lt_or_eq.mp high with lower | rfl
        · exact others j m low lower there
        · exact no_main m there
      unfold topmostMain
      rcases element : stacking[bound]? with _ | ⟨m | w⟩
      · exact rest.imp (fun ⟨stays,others⟩ => ⟨stays,skip (by simp [element]) others⟩) id
      · have other : m ≠ current := by
          rintro rfl
          exact last ((here bound).mp element)
        simp only [if_neg other]
        by_cases isMain_m : isMain m = true
        · rw [if_pos isMain_m]
          exact Or.inr ⟨bound,m,rfl,by omega,element,isMain_m⟩
        · rw [if_neg isMain_m]
          have no_main : ∀ m', stacking[bound]? = some (.client m') → isMain m' = false := by
            intro m' there
            rw [element] at there
            cases there
            simpa using isMain_m
          exact rest.imp (fun ⟨stays,others⟩ => ⟨stays,skip no_main others⟩) id
      · exact rest.imp (fun ⟨stays,others⟩ => ⟨stays,skip (by simp [element]) others⟩) id

/-- The window is below its main window, and should not be. -/
def BelowMain (ws : Workspace) (stacking : List Toplevel) (t : ClientRef) : Prop :=
  ∃ m, (ws.client t).transientFor = some m ∧ keepTransientAbove ws m t = true ∧ Before stacking (.client t) (.client m)

section
variable {ws : Workspace} {s : Pass}

private theorem keepTransientsAbove_cases (noGroup : ∀ c, ws.groupTransient c = false) (nodup : s.stacking.Nodup)
    {i : Nat} {w : Toplevel} (current : s.i = i) (here : s.stacking[i]? = some w) :
    (keepTransientsAbove ws s = .next { s with i := s.i-1 } ∧ ∀ c, w = .client c → ¬ BelowMain ws s.stacking c) ∨
    ∃ (k : Nat) (c m : ClientRef), w = .client c ∧ TransientFor ws c m ∧ i < k ∧
      s.stacking[k]? = some (.client m) ∧ keepTransientAbove ws m c = true ∧
      keepTransientsAbove ws s = .next {
        stacking := insertAt (s.stacking.eraseIdx i) k w
        i := if (ws.client c).transientsList ≠ [] then (k : Int)-1 else (i : Int)-1 } := by
  obtain ⟨bound,_⟩ := List.getElem?_eq_some_iff.mp here
  have only (c : ClientRef) (self : w = .client c) (j : Nat) : s.stacking[j]? = some (.client c) ↔ j = i := by
    subst self
    refine ⟨fun there => ?_,fun same => same ▸ here⟩
    exact (List.getElem?_inj (List.getElem?_eq_some_iff.mp there).1 nodup).mp (there.trans here.symm)
  unfold keepTransientsAbove
  rw [if_neg (by omega),current,Int.toNat_natCast,here]
  rcases w with c | w
  · by_cases isTransient : ws.isTransient c = true
    · simp only [isTransient,noGroup c]
      rcases topmostMain_cases (fun c2 => (ws.client c).transientFor = some c2 && keepTransientAbove ws c2 c)
        (only c rfl) bound with ⟨stays,others⟩ | ⟨k,m,found,above,there,isMain⟩
      · left
        simp only [Bool.not_true,Bool.false_eq_true,↓reduceIte,stays]
        refine ⟨trivial,?_⟩
        rintro _ ⟨⟩ ⟨m,main,keeps,below⟩
        obtain ⟨i',j,lt,self,there⟩ := before_iff.mp below
        have same := (only c rfl i').mp self
        have no_main := others j m (by omega) (List.getElem?_eq_some_iff.mp there).1 there
        simp [main,keeps] at no_main
      · right
        simp only [Bool.and_eq_true,decide_eq_true_eq] at isMain
        refine ⟨k,c,m,rfl,isMain.1,above,there,isMain.2,?_⟩
        simp only [Bool.not_true,Bool.false_eq_true,↓reduceIte,found]
        rw [if_neg (by omega)]
        simp
    · left
      simp only [isTransient]
      refine ⟨rfl,?_⟩
      rintro _ ⟨⟩ ⟨m,main,_⟩
      exact isTransient (isTransient_of_transientFor main)
  · left
    refine ⟨rfl,?_⟩
    rintro c ⟨⟩

section
variable {i k : Nat} {c m : ClientRef}

/-- The stacking order after the client has been put on top of its main window. -/
private structure OnTop (ws : Workspace) (before after : List Toplevel) (c m : ClientRef) (i k : Nat) : Prop where
  nodup : before.Nodup
  here : before[i]? = some (.client c)
  lt : i < k
  there : before[k]? = some (.client m)
  moved : after = insertAt (before.eraseIdx i) k (.client c)
  main : TransientFor ws c m
  keeps : keepTransientAbove ws m c = true

namespace OnTop
variable {before after : List Toplevel} (onTop : OnTop ws before after c m i k)
include onTop

private theorem bound : k < before.length := (List.getElem?_eq_some_iff.mp onTop.there).1

private theorem after_nodup : after.Nodup := by
  rw [onTop.moved]
  exact (move_moved onTop.nodup onTop.here).nodup onTop.nodup

private theorem of_client : BelowMain ws before c ∧ ¬ BelowMain ws after c := by
  refine ⟨⟨m,onTop.main,onTop.keeps,before_iff.mpr ⟨i,k,onTop.lt,onTop.here,onTop.there⟩⟩,?_⟩
  rintro ⟨m',main,_,below⟩
  rw [onTop.main] at main
  cases main
  have above : Before after (.client m) (.client c) := by
    rw [onTop.moved]
    exact move_before onTop.lt onTop.bound le_rfl (Nat.ne_of_gt onTop.lt) onTop.there
  exact Before.asymm onTop.after_nodup above below

private theorem of_other {u : ClientRef} (different : u ≠ c) (other : ¬ TransientFor ws u c) :
    BelowMain ws after u ↔ BelowMain ws before u := by
  have same (v : ClientRef) (main : TransientFor ws u v) :
      Before after (.client u) (.client v) ↔ Before before (.client u) (.client v) := by
    rw [onTop.moved]
    refine (move_moved onTop.nodup onTop.here).before_iff (by simpa using different) ?_
    rintro ⟨⟩
    exact other main
  constructor
  · rintro ⟨v,main,keeps,below⟩
    exact ⟨v,main,keeps,(same v main).mp below⟩
  · rintro ⟨v,main,keeps,below⟩
    exact ⟨v,main,keeps,(same v main).mpr below⟩

private theorem of_transient {u : ClientRef} (main : TransientFor ws u c)
    (was : BelowMain ws before u) : BelowMain ws after u := by
  obtain ⟨v,main',keeps,below⟩ := was
  rw [main] at main'
  cases main'
  obtain ⟨j,i',lt,atJ,atI⟩ := before_iff.mp below
  have index : i' = i := (List.getElem?_inj (List.getElem?_eq_some_iff.mp atI).1 onTop.nodup).mp (atI.trans onTop.here.symm)
  have low := onTop.lt
  refine ⟨c,main,keeps,?_⟩
  rw [onTop.moved]
  exact move_before onTop.lt onTop.bound (by omega) (by omega) atJ

private theorem above {j : Nat} {u : ClientRef} (le : i ≤ j) (different : u ≠ c)
    (there : after[j]? = some (.client u)) : ∃ j', i < j' ∧ before[j']? = some (.client u) := by
  rw [onTop.moved] at there
  have moved := move_getElem onTop.lt onTop.bound (by simpa using different) there
  have lt := onTop.lt
  refine ⟨_,?_,moved.1⟩
  split
  · omega
  · split <;> omega

private theorem above_main {j : Nat} {u : ClientRef} (le : k ≤ j) (different : u ≠ c)
    (there : after[j]? = some (.client u)) : Before after (.client c) (.client u) := by
  have lt := onTop.lt
  have bound := onTop.bound
  have other : j ≠ k := by
    rw [onTop.moved] at there
    exact (move_getElem onTop.lt onTop.bound (by simpa using different) there).2
  have length : (before.eraseIdx i).length = before.length-1 := length_eraseIdx_of_lt (by omega)
  refine before_iff.mpr ⟨k,j,by omega,?_,there⟩
  rw [onTop.moved,getElem?_insertAt (by omega),if_neg (by omega),if_pos rfl]

end OnTop
end

def clientsOf (stacking : List Toplevel) : List ClientRef :=
  stacking.filterMap fun
    | .client c => some c
    | .other _ => none

theorem mem_clientsOf {stacking : List Toplevel} {c : ClientRef} : c ∈ clientsOf stacking ↔ .client c ∈ stacking := by
  rw [clientsOf,mem_filterMap]
  constructor
  · rintro ⟨w,member,client⟩
    cases w <;> cases client
    exact member
  · exact fun member => ⟨_,member,rfl⟩

theorem clientsOf_nodup {stacking : List Toplevel} (nodup : stacking.Nodup) : (clientsOf stacking).Nodup := by
  refine nodup.filterMap ?_
  intro w w' c left right
  cases w <;> cases left
  cases w' <;> cases right
  rfl

open Classical in
/-- The clients below their main windows. -/
private noncomputable def belowMains (ws : Workspace) (unconstrained stacking : List Toplevel) : Multiset ClientRef :=
  Multiset.filter (BelowMain ws stacking) (clientsOf unconstrained)

/-- One generation down among the clients of the stacking order. -/
private def Generation (ws : Workspace) (unconstrained : List Toplevel) (t m : ClientRef) : Prop :=
  TransientFor ws t m ∧ t ∈ clientsOf unconstrained ∧ m ∈ clientsOf unconstrained

open Classical in
private theorem OnTop.cutExpand {before after unconstrained : List Toplevel} {c m : ClientRef} {i k : Nat}
    (onTop : OnTop ws before after c m i k) (nodup : unconstrained.Nodup) (perm : before.Perm unconstrained) :
    CutExpand (Generation ws unconstrained) (belowMains ws unconstrained after) (belowMains ws unconstrained before) := by
  have member : c ∈ clientsOf unconstrained := mem_clientsOf.mpr (perm.mem_iff.mp (mem_of_getElem? onTop.here))
  have once : Multiset.count c (clientsOf unconstrained : Multiset ClientRef) = 1 :=
    Multiset.count_eq_one_of_mem (clientsOf_nodup nodup) member
  refine ⟨Multiset.filter (fun u => BelowMain ws after u ∧ ¬ BelowMain ws before u) (clientsOf unconstrained),c,?_,?_⟩
  · intro u joins
    obtain ⟨there,below,above⟩ := Multiset.mem_filter.mp joins
    have different : u ≠ c := by
      rintro rfl
      exact above onTop.of_client.1
    refine ⟨?_,there,member⟩
    by_contra other
    exact above ((onTop.of_other different other).mp below)
  · ext u
    simp only [belowMains,Multiset.count_add,Multiset.count_filter,Multiset.count_singleton]
    by_cases self : u = c
    · subst self
      simp [onTop.of_client,once]
    · by_cases transient : TransientFor ws u c
      · have kept := onTop.of_transient transient
        by_cases was : BelowMain ws before u
        · simp [self,was,kept was]
        · simp [self,was]
      · simp [self,onTop.of_other self transient]

/-- What holds at the start of every round. -/
private structure PassInvariant (ws : Workspace) (unconstrained : List Toplevel) (s : Pass) : Prop where
  perm : s.stacking.Perm unconstrained
  bound : s.i < s.stacking.length
  inPlace : ∀ (j : Nat) c, s.i < j → s.stacking[j]? = some (.client c) → ¬ BelowMain ws s.stacking c

/-- The measure of the pass: the clients below their main windows, and then the index. -/
private noncomputable def measure (ws : Workspace) (unconstrained : List Toplevel) (s : Pass) :
    Multiset ClientRef × Nat :=
  (belowMains ws unconstrained s.stacking,(s.i+1).toNat)

private theorem round_onTop {before after unconstrained : List Toplevel} {c m : ClientRef} {i k : Nat}
    (agree : ∀ t m, t ∈ (ws.client m).transientsList ↔ (ws.client t).transientFor = some m)
    (onTop : OnTop ws before after c m i k) (inv : PassInvariant ws unconstrained ⟨before,i⟩) :
    PassInvariant ws unconstrained
      ⟨after,if (ws.client c).transientsList ≠ [] then (k : Int)-1 else (i : Int)-1⟩ := by
  have lt := onTop.lt
  have bound := onTop.bound
  have perm : after.Perm before := by
    rw [onTop.moved]
    exact move_perm onTop.here
  have length := perm.length_eq
  refine ⟨perm.trans inv.perm,by dsimp only; split <;> omega,fun j u above there => ?_⟩
  dsimp only at above there ⊢
  by_cases self : u = c
  · subst self
    exact onTop.of_client.2
  by_cases transient : TransientFor ws u c
  · -- the pass goes up again, to the windows above the main window of c
    rw [if_pos (ne_nil_of_mem ((agree u c).mpr transient))] at above
    rintro ⟨v,main,_,below⟩
    rw [transient] at main
    cases main
    exact Before.asymm onTop.after_nodup (onTop.above_main (by omega) self there) below
  · obtain ⟨j',high,at_before⟩ := onTop.above (j := j) (by split at above <;> omega) self there
    rw [onTop.of_other self transient]
    exact inv.inPlace j' u (by dsimp only; omega) at_before

private theorem keepTransientsAbove_next {unconstrained : List Toplevel} {s t : Pass} (nodup : unconstrained.Nodup)
    (agree : ∀ t m, t ∈ (ws.client m).transientsList ↔ (ws.client t).transientFor = some m)
    (noGroup : ∀ c, ws.groupTransient c = false) (inv : PassInvariant ws unconstrained s)
    (goes : keepTransientsAbove ws s = .next t) :
    PassInvariant ws unconstrained t ∧
      Prod.Lex (CutExpand (Generation ws unconstrained)) (· < ·) (measure ws unconstrained t)
        (measure ws unconstrained s) := by
  have before_nodup := inv.perm.nodup_iff.mpr nodup
  have bound := inv.bound
  have positive : 0 ≤ s.i := by
    by_contra negative
    rw [keepTransientsAbove,if_pos (by omega)] at goes
    cases goes
  obtain ⟨i,current⟩ := Int.eq_ofNat_of_zero_le positive
  have here : s.stacking[i]? = some s.stacking[i] := getElem?_eq_getElem (by omega)
  rcases keepTransientsAbove_cases noGroup before_nodup current here with
    ⟨next,inPlace⟩ | ⟨k,c,m,client,main,lt,there,keeps,next⟩
  · rw [goes] at next
    cases next
    refine ⟨⟨inv.perm,by dsimp only; omega,fun j c above there => ?_⟩,Prod.Lex.right _ ?_⟩
    · dsimp only at above there ⊢
      by_cases self : j = i
      · subst self
        rw [here] at there
        exact inPlace c (Option.some.inj there)
      · exact inv.inPlace j c (by omega) there
    · dsimp only
      omega
  · rw [goes] at next
    cases next
    rw [client] at here ⊢
    have onTop : OnTop ws s.stacking _ c m i k := ⟨before_nodup,here,lt,there,rfl,main,keeps⟩
    have same : s = ⟨s.stacking,i⟩ := by rw [← current]
    rw [same] at inv
    exact ⟨round_onTop agree onTop inv,Prod.Lex.left _ _ (onTop.cutExpand nodup inv.perm)⟩

/-- For normal transients without cycles, the pass ends, and in the order it leaves
    every transient stands above its main window. -/
theorem constrainedStackingOrder_transients_above (layerOf : Toplevel → Layer) (screenOf : Toplevel → Nat)
    {unconstrained : List Toplevel} (nodup : unconstrained.Nodup) (acyclic : Acyclic (TransientFor ws))
    (agree : ∀ t m, t ∈ (ws.client m).transientsList ↔ (ws.client t).transientFor = some m)
    (noGroup : ∀ c, ws.groupTransient c = false) :
    ∃ stacking, ConstrainedStackingOrder ws layerOf screenOf unconstrained stacking ∧
      stacking.Perm unconstrained ∧
      ∀ (t m : ClientRef) (i j : Nat), (ws.client t).transientFor = some m → keepTransientAbove ws m t = true →
        stacking[i]? = some (.client m) → stacking[j]? = some (.client t) → i < j := by
  have wf := WellFounded.prod_lex (acyclic.wellFounded_on (clientsOf unconstrained)).cutExpand Nat.lt_wfRel.wf
  have layered := layeredOrder_perm ws layerOf screenOf unconstrained
  have start : PassInvariant ws unconstrained ⟨layeredOrder ws layerOf screenOf unconstrained,
      (layeredOrder ws layerOf screenOf unconstrained).length-1⟩ := by
    refine ⟨layered,by dsimp only; omega,fun j c above there => ?_⟩
    have bound := (List.getElem?_eq_some_iff.mp there).1
    dsimp only at above bound
    omega
  have leaves (s : Pass) (stacking : List Toplevel) (inv : PassInvariant ws unconstrained s)
      (done : keepTransientsAbove ws s = .done stacking) : stacking.Perm unconstrained ∧
        ∀ (j : Nat) c, stacking[j]? = some (.client c) → ¬ BelowMain ws stacking c := by
    have bound := inv.bound
    by_cases negative : s.i < 0
    · rw [keepTransientsAbove,if_pos negative] at done
      cases done
      exact ⟨inv.perm,fun j c there => inv.inPlace j c (by omega) there⟩
    · obtain ⟨i,current⟩ := Int.eq_ofNat_of_zero_le (Int.not_lt.mp negative)
      have here : s.stacking[i]? = some s.stacking[i] := getElem?_eq_getElem (by omega)
      rcases keepTransientsAbove_cases noGroup (inv.perm.nodup_iff.mpr nodup) current here with
        ⟨next,_⟩ | ⟨_,_,_,_,_,_,_,_,next⟩
      · rw [done] at next
        cases next
      · rw [done] at next
        cases next
  obtain ⟨stacking,ends,perm,inPlace⟩ := ends_of_measure wf (measure ws unconstrained) (PassInvariant ws unconstrained)
    _ (fun s t inv goes => keepTransientsAbove_next nodup agree noGroup inv goes) leaves start
  refine ⟨stacking,ends,perm,fun t m i j main keeps atM atT => ?_⟩
  by_contra below
  refine inPlace j t atT ⟨m,main,keeps,before_iff.mpr ⟨j,i,?_,atT,atM⟩⟩
  have different : i ≠ j := by
    rintro rfl
    rw [atM] at atT
    cases atT
    exact acyclic.irrefl _ main
  omega

/-- A main window 0, its dialog 1 and the dialog 2 of that dialog. -/
private def dialogs : Workspace where
  rootWindow := 1
  rootExists := one_exists
  objects := [0,1,2]
  client c := {
    window := 10+c
    declaredType := .Unknown
    modal := false
    wmClientLeaderWin := 10
    windowGroup := 10
    originalTransientForId := if c = 1 ∨ c = 2 then 9+c else windowNone
    transientForId := if c = 1 ∨ c = 2 then 9+c else windowNone
    transientFor := if c = 1 ∨ c = 2 then some (c-1) else none
    holdsId := by intro main; split at main <;> simp_all [windowNone]
    transientsList := if c = 0 ∨ c = 1 then [c+1] else []
    inGroup := some 0 }
  clients := [0,1,2]
  desktops := []
  groups := [0]
  group _ := ⟨10,[0,1,2],0⟩
  nextGroup := 1

theorem constrainedStackingOrder_dialogs :
    ∃ stacking, ConstrainedStackingOrder dialogs (fun _ => .NormalLayer) (fun _ => 0)
        [.client 2,.client 1,.other 7,.client 0] stacking ∧
      stacking.Perm [.client 2,.client 1,.other 7,.client 0] ∧
      ∀ (t m : ClientRef) (i j : Nat), (dialogs.client t).transientFor = some m →
        keepTransientAbove dialogs m t = true →
        stacking[i]? = some (.client m) → stacking[j]? = some (.client t) → i < j := by
  refine constrainedStackingOrder_transients_above _ _ (by decide)
    (acyclic_of_rank id fun (t m : Nat) main => ?_) (fun (t m : Nat) => ?_) fun (c : Nat) => ?_
  · change (if t = 1 ∨ t = 2 then some (t-1) else none) = some m at main
    split at main
    · cases main
      show t-1 < t
      omega
    · cases main
  · show t ∈ (if m = 0 ∨ m = 1 then [m+1] else []) ↔ (if t = 1 ∨ t = 2 then some (t-1) else none) = some m
    split <;> split <;> simp <;> omega
  · show decide ((if c = 1 ∨ c = 2 then 9+c else 0) = 1) = false
    rw [decide_eq_false_iff_not]
    split <;> omega

end

end KdeWorkspace.StackingOrder
