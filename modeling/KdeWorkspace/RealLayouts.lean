import KdeWorkspace.OrderedMaps
import KdeWorkspace.RectOperations
import Mathlib.Data.List.Pairwise
import Mathlib.Tactic.Linarith
import Mathlib.Tactic.Ring

/-!
The places of the screens in pixels, from their places on a grid and the sizes of their outputs.

The walk over the grid takes each screen that it places from the layout that it searches. `simpleToReal_walked` says
what one walk does; as the screens are connected, the first walk places all of them (`realLayout_placed`).
-/
namespace KdeWorkspace.RealLayouts
open Geometry RectOperations OrderedMaps List
open Or (inl inr)
open Option (getD_some map_some bind_some)
universe u

def Adjacent (p q : QPoint) : Prop := q = ⟨p.x+1,p.y⟩ ∨ q = ⟨p.x-1,p.y⟩ ∨ q = ⟨p.x,p.y+1⟩ ∨ q = ⟨p.x,p.y-1⟩

/-- Two screens stand beside each other. -/
def Neighbours (layout : OrderedMap Int QPoint) (id other : Int) : Prop :=
  ∃ p q, layout.lookup id = some p ∧ layout.lookup other = some q ∧ Adjacent p q

/-- The places of the screens on the grid, distinct and connected. -/
structure SymbolicLayout where
  positions : OrderedMap Int QPoint
  nonempty : positions.entries ≠ []
  distinct : ∀ {id other p}, positions.lookup id = some p → positions.lookup other = some p → id = other
  connected : ∀ {id other p q}, positions.lookup id = some p → positions.lookup other = some q →
    Relation.ReflTransGen (Neighbours positions) id other

/-- `QSize()`. -/
def noSize : QSize := ⟨-1,-1⟩

def expandedTo (s t : QSize) : QSize := ⟨max s.width t.width,max s.height t.height⟩

variable {Output : Type u} [LinearOrder Output]

/-- The size of an output is added to that of its screen; there is no result if the screen is unknown. -/
def addOutput (outputSizes : OrderedMap Output QSize) (screenSizes : OrderedMap Int QSize) (e : Output × Int) :
    Option (OrderedMap Int QSize) :=
  if e.2 < 0 then some screenSizes
  else
    match screenSizes.lookup e.2 with
    | none => none
    | some size => some (screenSizes.insert e.2 (expandedTo size ((outputSizes.lookup e.1).getD noSize)))

/-- `QRect(QPoint, QSize)`. -/
def rectAt (p : QPoint) (size : QSize) : QRect := .ofSize p.x p.y size.width size.height

def toTheRight (here : QRect) (size : QSize) : QRect := rectAt ⟨here.x2+1,here.y1⟩ size
def toTheLeft (here : QRect) (size : QSize) : QRect := rectAt ⟨here.x1-size.width,here.y1⟩ size
def toTheBottom (here : QRect) (size : QSize) : QRect := rectAt ⟨here.x1,here.y2+1⟩ size
def toTheTop (here : QRect) (size : QSize) : QRect := rectAt ⟨here.x1,here.y1-size.height⟩ size

/-- `QMap::key`. -/
def key (layout : OrderedMap Int QPoint) (p : QPoint) (default : Int) : Int :=
  ((layout.entries.find? fun e => e.2 = p).map (·.1)).getD default

structure Walk where
  simpleLayout : OrderedMap Int QPoint
  screens : OrderedMap Int QRect

/-- One of the four directions. -/
def visit (walk : Walk → Int → Option Walk) (screenSizes : OrderedMap Int QSize) (index : Int) (nextPos : QPoint)
    (place : QRect → QSize → QRect) (w : Walk) : Option Walk :=
  let nextIndex := key w.simpleLayout nextPos (-1)
  if nextIndex ≥ 0 then
    let here := (w.screens.lookup index).getD nullRect
    let size := (screenSizes.lookup nextIndex).getD noSize
    walk { w with screens := w.screens.insert nextIndex (place here size) } nextIndex
  else some w

/-- There is no result if the recursion is deeper than the given number. -/
def simpleToReal (screenSizes : OrderedMap Int QSize) : Nat → Walk → Int → Option Walk
  | 0, _, _ => none
  | depth+1, w, index => do
    let pos := (w.simpleLayout.lookup index).getD ⟨0,0⟩
    let taken : Walk := { w with simpleLayout := w.simpleLayout.erase index }
    let right ← visit (simpleToReal screenSizes depth) screenSizes index ⟨pos.x+1,pos.y⟩ toTheRight taken
    let left ← visit (simpleToReal screenSizes depth) screenSizes index ⟨pos.x-1,pos.y⟩ toTheLeft right
    let bottom ← visit (simpleToReal screenSizes depth) screenSizes index ⟨pos.x,pos.y+1⟩ toTheBottom left
    visit (simpleToReal screenSizes depth) screenSizes index ⟨pos.x,pos.y-1⟩ toTheTop bottom

/-- The loop that looks for the smallest coordinates, from `QPoint()`. -/
def originOf : List (Int × QRect) → QPoint × Bool → QPoint × Bool
  | [], o => o
  | e :: entries, o =>
    let x := if o.2 || decide (e.2.x < o.1.x) then e.2.x else o.1.x
    let y := if o.2 || decide (e.2.y < o.1.y) then e.2.y else o.1.y
    originOf entries (⟨x,y⟩,false)

/-- `QRect::translate`. -/
def translate (r : QRect) (offset : QPoint) : QRect := ⟨r.x1+offset.x,r.y1+offset.y,r.x2+offset.x,r.y2+offset.y⟩

def translateOrigin (screens : OrderedMap Int QRect) : OrderedMap Int QRect :=
  let origin := (originOf screens.entries (⟨0,0⟩,true)).1
  screens.mapValues fun r => translate r ⟨-origin.x,-origin.y⟩

def anyOverlap : List (Int × QRect) → Bool
  | [] => false
  | i :: entries => (entries.any fun j => intersects i.2 j.2) || anyOverlap entries

/-- An empty map stands for an invalid configuration. -/
def realLayout (depth : Nat) (sLayout : OrderedMap Int QPoint) (outputScreens : OrderedMap Output Int)
    (outputSizes : OrderedMap Output QSize) : Option (OrderedMap Int QRect) :=
  match outputScreens.entries.foldlM (addOutput outputSizes) (sLayout.mapValues fun _ => noSize) with
  | none => some .empty
  | some screenSizes => do
    let (first,_) ← sLayout.entries.head?
    let start : OrderedMap Int QRect := OrderedMap.empty.insert first (rectAt ⟨0,0⟩ ((screenSizes.lookup first).getD noSize))
    let walked ← simpleToReal screenSizes depth ⟨sLayout,start⟩ first
    let screens := translateOrigin walked.screens
    if anyOverlap screens.entries then some .empty else some screens

/-- Outputs with positive sizes for all screens of a layout; an output with a negative screen has none. -/
structure Assignment (layout : SymbolicLayout) (Output : Type u) [LinearOrder Output] where
  outputScreens : OrderedMap Output Int
  outputSizes : OrderedMap Output QSize
  known : ∀ {output id}, outputScreens.lookup output = some id → 0 ≤ id → ∃ p, layout.positions.lookup id = some p
  positive : ∀ {output id}, outputScreens.lookup output = some id → 0 ≤ id →
    ∃ size, outputSizes.lookup output = some size ∧ 0 < size.width ∧ 0 < size.height
  covered : ∀ {id p}, layout.positions.lookup id = some p → 0 ≤ id ∧ ∃ output, outputScreens.lookup output = some id

section wanted
variable {layout : SymbolicLayout}

/-- The smallest size that covers the outputs of a screen. -/
structure Smallest (a : Assignment layout Output) (id : Int) (size : QSize) : Prop where
  covers : ∀ {output s}, a.outputScreens.lookup output = some id → a.outputSizes.lookup output = some s →
    s.width ≤ size.width ∧ s.height ≤ size.height
  width : ∃ output s, a.outputScreens.lookup output = some id ∧ a.outputSizes.lookup output = some s ∧
    s.width = size.width
  height : ∃ output s, a.outputScreens.lookup output = some id ∧ a.outputSizes.lookup output = some s ∧
    s.height = size.height

/-- All screens of the layout, each covering its outputs, disjoint and from the origin on. -/
structure Placed (a : Assignment layout Output) (screens : OrderedMap Int QRect) : Prop where
  all : ∀ id, screens.lookup id = none ↔ layout.positions.lookup id = none
  smallest : ∀ {id r}, screens.lookup id = some r → Smallest a id r.size
  disjoint : ∀ {id other r s}, id ≠ other → screens.lookup id = some r → screens.lookup other = some s →
    ∀ p, ¬ (r.contains p = true ∧ s.contains p = true)
  left : IsLeast {x | ∃ id r, screens.lookup id = some r ∧ r.x = x} 0
  top : IsLeast {y | ∃ id r, screens.lookup id = some r ∧ r.y = y} 0

theorem expanded_least {side : QSize → Int} (grows : ∀ s t, side (expandedTo s t) = max (side s) (side t))
    (sizes : List QSize) (start : QSize) :
    side start ≤ side (sizes.foldl expandedTo start) ∧ (∀ s ∈ sizes, side s ≤ side (sizes.foldl expandedTo start)) ∧
      (side (sizes.foldl expandedTo start) = side start ∨ ∃ s ∈ sizes, side s = side (sizes.foldl expandedTo start)) := by
  induction sizes generalizing start with
  | nil => simp
  | cons size sizes ih =>
    obtain ⟨grown,covers,reached⟩ := ih (expandedTo start size)
    rw [foldl_cons]
    rw [grows] at grown reached
    refine ⟨(le_max_left _ _).trans grown,?_,?_⟩
    · intro s inside
      rcases mem_cons.mp inside with rfl | later
      · exact (le_max_right _ _).trans grown
      · exact covers s later
    · rcases reached with same | ⟨s,inside,same⟩
      · rcases max_choice (side start) (side size) with first | second
        · exact inl (same.trans first)
        · exact inr ⟨size,mem_cons_self,(same.trans second).symm⟩
      · exact inr ⟨s,mem_cons_of_mem _ inside,same⟩

/-- The sizes of the outputs of a screen. -/
def sizesOf (outputSizes : OrderedMap Output QSize) (entries : List (Output × Int)) (id : Int) : List QSize :=
  (entries.filter fun e => e.2 = id).map fun e => (outputSizes.lookup e.1).getD noSize

theorem addOutput_lookup (outputSizes : OrderedMap Output QSize) {start : OrderedMap Int QSize} {e : Output × Int}
    (known : e.2 < 0 ∨ start.lookup e.2 ≠ none) :
    ∃ next, addOutput outputSizes start e = some next ∧ ∀ id, 0 ≤ id →
      next.lookup id = (start.lookup id).map ((sizesOf outputSizes [e] id).foldl expandedTo) := by
  rw [addOutput]
  by_cases unused : e.2 < 0
  · rw [if_pos unused]
    refine ⟨start,rfl,?_⟩
    intro id number
    have other : e.2 ≠ id := by omega
    simp [sizesOf,other]
  · rw [if_neg unused]
    cases found : start.lookup e.2 with
    | none => exact absurd found (known.resolve_left unused)
    | some size =>
      refine ⟨_,rfl,?_⟩
      intro id number
      rw [OrderedMap.lookup_insert]
      by_cases same : id = e.2
      · subst same
        simp [sizesOf,found]
      · have other : e.2 ≠ id := Ne.symm same
        simp [sizesOf,same,other]

theorem screenSizes_lookup (outputSizes : OrderedMap Output QSize) {entries : List (Output × Int)}
    {start : OrderedMap Int QSize} (known : ∀ e ∈ entries, e.2 < 0 ∨ start.lookup e.2 ≠ none) :
    ∃ sizes, entries.foldlM (addOutput outputSizes) start = some sizes ∧ ∀ id, 0 ≤ id →
      sizes.lookup id = (start.lookup id).map ((sizesOf outputSizes entries id).foldl expandedTo) := by
  induction entries generalizing start with
  | nil => exact ⟨start,rfl,fun id _ => by simp [sizesOf]⟩
  | cons e entries ih =>
    obtain ⟨next,added,now⟩ := addOutput_lookup outputSizes (known e mem_cons_self)
    have still : ∀ e ∈ entries, e.2 < 0 ∨ next.lookup e.2 ≠ none := by
      intro other inside
      by_cases unused : other.2 < 0
      · exact inl unused
      · right
        rw [now other.2 (by omega),Ne,Option.map_eq_none_iff]
        exact (known other (mem_cons_of_mem _ inside)).resolve_left unused
    obtain ⟨sizes,rest,afterwards⟩ := ih still
    refine ⟨sizes,?_,?_⟩
    · rw [foldlM_cons,added]
      exact rest
    · intro id number
      rw [afterwards id number,now id number,Option.map_map]
      congr 1
      funext size
      have parts : sizesOf outputSizes (e :: entries) id = sizesOf outputSizes [e] id ++ sizesOf outputSizes entries id := by
        rw [sizesOf,sizesOf,sizesOf,← map_append,← filter_append]
        rfl
      rw [parts,foldl_append]
      rfl

theorem sizes_smallest (a : Assignment layout Output) :
    ∃ sizes, a.outputScreens.entries.foldlM (addOutput a.outputSizes) (layout.positions.mapValues fun _ => noSize) =
        some sizes ∧
      ∀ id p, layout.positions.lookup id = some p → Smallest a id ((sizes.lookup id).getD noSize) := by
  have known : ∀ e ∈ a.outputScreens.entries,
      e.2 < 0 ∨ (layout.positions.mapValues fun _ => noSize).lookup e.2 ≠ none := by
    rintro ⟨output,id⟩ inside
    by_cases unused : id < 0
    · exact inl unused
    · right
      obtain ⟨p,found⟩ := a.known (OrderedMap.mem_entries_iff.mp inside) (by omega)
      rw [OrderedMap.lookup_mapValues,found]
      exact Option.some_ne_none _
  obtain ⟨sizes,result,found⟩ := screenSizes_lookup a.outputSizes known
  refine ⟨sizes,result,?_⟩
  intro id p there
  obtain ⟨number,one,has⟩ := a.covered there
  rw [found id number,OrderedMap.lookup_mapValues,there,map_some,map_some,getD_some]
  have mem_iff : ∀ s, s ∈ sizesOf a.outputSizes a.outputScreens.entries id ↔
      ∃ output, a.outputScreens.lookup output = some id ∧ a.outputSizes.lookup output = some s := by
    intro s
    rw [sizesOf,mem_map]
    constructor
    · rintro ⟨⟨output,screen⟩,inside,rfl⟩
      obtain ⟨listed,same⟩ := mem_filter.mp inside
      obtain rfl : screen = id := of_decide_eq_true same
      have shown := OrderedMap.mem_entries_iff.mp listed
      obtain ⟨size,sized,_⟩ := a.positive shown number
      exact ⟨output,shown,by rw [sized,getD_some]⟩
    · rintro ⟨output,shown,sized⟩
      refine ⟨(output,id),mem_filter.mpr ⟨OrderedMap.mem_entries_iff.mpr shown,decide_eq_true rfl⟩,?_⟩
      rw [sized,getD_some]
  obtain ⟨size,sized,wide,tall⟩ := a.positive has number
  have shown := (mem_iff size).mpr ⟨one,has,sized⟩
  generalize sizesOf a.outputSizes a.outputScreens.entries id = listed at mem_iff shown ⊢
  -- both sides are as large as those of the outputs, and no larger
  have reached : ∀ {side : QSize → Int}, (∀ s t, side (expandedTo s t) = max (side s) (side t)) → side noSize = -1 →
      0 < side size → (∀ {output s}, a.outputScreens.lookup output = some id → a.outputSizes.lookup output = some s →
        side s ≤ side (listed.foldl expandedTo noSize)) ∧
        ∃ output s, a.outputScreens.lookup output = some id ∧ a.outputSizes.lookup output = some s ∧
          side s = side (listed.foldl expandedTo noSize) := by
    intro side grows nothing positive
    obtain ⟨_,covers,reached⟩ := expanded_least grows listed noSize
    refine ⟨fun shown sized => covers _ ((mem_iff _).mpr ⟨_,shown,sized⟩),?_⟩
    rcases reached with same | ⟨s,inside,same⟩
    · have wider := covers size shown
      omega
    · obtain ⟨output,shown,sized⟩ := (mem_iff s).mp inside
      exact ⟨output,s,shown,sized,same⟩
  obtain ⟨widths,width⟩ := @reached QSize.width (fun _ _ => rfl) rfl wide
  obtain ⟨heights,height⟩ := @reached QSize.height (fun _ _ => rfl) rfl tall
  exact ⟨fun shown sized => ⟨widths shown sized,heights shown sized⟩,width,height⟩

end wanted

section walking

/-- The screens have numbers and different places. -/
structure Fine (layout : OrderedMap Int QPoint) : Prop where
  ids : ∀ {id p}, layout.lookup id = some p → 0 ≤ id
  distinct : ∀ {id other p}, layout.lookup id = some p → layout.lookup other = some p → id = other

theorem key_cases (layout : OrderedMap Int QPoint) (p : QPoint) :
    (key layout p (-1) = -1 ∧ ∀ id, layout.lookup id ≠ some p) ∨ layout.lookup (key layout p (-1)) = some p := by
  rw [key]
  cases found : layout.entries.find? fun e => e.2 = p with
  | none =>
    left
    refine ⟨rfl,?_⟩
    intro id here
    have other := find?_eq_none.mp found _ (OrderedMap.mem_entries_iff.mpr here)
    simp at other
  | some e =>
    right
    have same := find?_some found
    have inside := mem_of_find?_eq_some found
    rw [← of_decide_eq_true same]
    exact OrderedMap.mem_entries_iff.mp inside

variable {P : Int → QPoint → QRect → Prop} {index : Int} {before w : Walk} {screenSizes : OrderedMap Int QSize}
  {depth : Nat} {pos : QPoint} {r : QRect} {layout : OrderedMap Int QPoint}

def Within (layout : OrderedMap Int QPoint) (w : Walk) : Prop :=
  ∀ {id p}, w.simpleLayout.lookup id = some p → layout.lookup id = some p

/-- What has happened since a screen was taken: the screens that are gone have been placed, with their neighbours. -/
structure Behind (P : Int → QPoint → QRect → Prop) (index : Int) (before w : Walk) : Prop where
  sub : ∀ {id p}, w.simpleLayout.lookup id = some p → before.simpleLayout.lookup id = some p
  gone : w.simpleLayout.lookup index = none
  kept : ∀ {id}, before.simpleLayout.lookup id = none ∨ w.simpleLayout.lookup id ≠ none ∨ id = index →
    w.screens.lookup id = before.screens.lookup id
  placed : ∀ {id p}, before.simpleLayout.lookup id = some p → w.simpleLayout.lookup id = none →
    ∃ r, w.screens.lookup id = some r ∧ P id p r
  closed : ∀ {id p other q}, id ≠ index → before.simpleLayout.lookup id = some p → w.simpleLayout.lookup id = none →
    before.simpleLayout.lookup other = some q → Adjacent p q → w.simpleLayout.lookup other = none

/-- What a whole walk has done. -/
structure Walked (P : Int → QPoint → QRect → Prop) (index : Int) (before after : Walk) : Prop
    extends Behind P index before after where
  around : ∀ {p other q}, before.simpleLayout.lookup index = some p → before.simpleLayout.lookup other = some q →
    Adjacent p q → after.simpleLayout.lookup other = none

theorem Walked.closed_all {after : Walk} (walked : Walked P index before after) {id other : Int} {p q : QPoint}
    (found : before.simpleLayout.lookup id = some p) (gone : after.simpleLayout.lookup id = none)
    (there : before.simpleLayout.lookup other = some q) (beside : Adjacent p q) :
    after.simpleLayout.lookup other = none := by
  by_cases same : id = index
  · subst same
    exact walked.around found there beside
  · exact walked.closed same found gone there beside

/-- The walk is right from every screen that has been placed, as far as the depth goes. -/
def Right (P : Int → QPoint → QRect → Prop) (layout : OrderedMap Int QPoint) (depth : Nat)
    (walk : Walk → Int → Option Walk) : Prop :=
  ∀ (w : Walk) {index pos r}, Within layout w → w.simpleLayout.lookup index = some pos →
    w.screens.lookup index = some r → P index pos r → w.simpleLayout.entries.length ≤ depth →
    ∃ after, walk w index = some after ∧ Walked P index w after

theorem none_of_sub {m n : OrderedMap Int QPoint} (sub : ∀ {id p}, m.lookup id = some p → n.lookup id = some p)
    {id : Int} (absent : n.lookup id = none) : m.lookup id = none := by
  cases found : m.lookup id with
  | none => rfl
  | some p =>
    rw [sub found] at absent
    cases absent

theorem Behind.walked {next : Int} {nextPos : QPoint} {place : QRect} {after : Walk} (behind : Behind P index before w)
    (found : w.simpleLayout.lookup next = some nextPos)
    (walked : Walked P next ⟨w.simpleLayout,w.screens.insert next place⟩ after) : Behind P index before after where
  sub := fun found => behind.sub (walked.sub found)
  gone := none_of_sub walked.sub behind.gone
  kept := by
    intro id which
    have elsewhere : id ≠ next := by
      rintro rfl
      rcases which with none | stays | rfl
      · rw [behind.sub found] at none
        cases none
      · exact stays walked.gone
      · rw [behind.gone] at found
        cases found
    have still : w.simpleLayout.lookup id = none ∨ after.simpleLayout.lookup id ≠ none := by
      rcases which with none | stays | rfl
      · exact inl (none_of_sub behind.sub none)
      · exact inr stays
      · exact inl behind.gone
    have first : before.simpleLayout.lookup id = none ∨ w.simpleLayout.lookup id ≠ none ∨ id = index := by
      rcases which with none | stays | same
      · exact inl none
      · exact inr (inl fun gone => stays (none_of_sub walked.sub gone))
      · exact inr (inr same)
    rw [walked.kept (still.imp_right inl),OrderedMap.lookup_insert,if_neg elsewhere,behind.kept first]
  placed := by
    intro id p here gone
    cases there : w.simpleLayout.lookup id with
    | some q =>
      obtain rfl := Option.some.inj ((behind.sub there).symm.trans here)
      exact walked.placed there gone
    | none =>
      have elsewhere : id ≠ next := by
        rintro rfl
        rw [there] at found
        cases found
      obtain ⟨r,placed,good⟩ := behind.placed here there
      refine ⟨r,?_,good⟩
      rw [walked.kept (inl there),OrderedMap.lookup_insert,if_neg elsewhere,placed]
  closed := by
    intro id p other q elsewhere here gone around beside
    cases there : w.simpleLayout.lookup id with
    | none => exact none_of_sub walked.sub (behind.closed elsewhere here there around beside)
    | some p' =>
      obtain rfl := Option.some.inj ((behind.sub there).symm.trans here)
      cases next_to : w.simpleLayout.lookup other with
      | none => exact none_of_sub walked.sub next_to
      | some q' =>
        obtain rfl := Option.some.inj ((behind.sub next_to).symm.trans around)
        exact walked.closed_all there gone next_to beside

theorem visit_behind {walk : Walk → Int → Option Walk} {nextPos : QPoint} {place : QRect → QSize → QRect}
    (right : Right P layout depth walk) (fine : Fine layout) (within : Within layout before)
    (behind : Behind P index before w) (found : before.screens.lookup index = some r)
    (enough : w.simpleLayout.entries.length ≤ depth)
    (keeps : ∀ next, layout.lookup next = some nextPos →
      P next nextPos (place r ((screenSizes.lookup next).getD noSize))) :
    ∃ after, visit walk screenSizes index nextPos place w = some after ∧ Behind P index before after ∧
      (∀ {id p}, after.simpleLayout.lookup id = some p → w.simpleLayout.lookup id = some p) ∧
      ∀ id, before.simpleLayout.lookup id = some nextPos → after.simpleLayout.lookup id = none := by
  have here : w.screens.lookup index = some r := (behind.kept (inr (inr rfl))).trans found
  rw [visit]
  rcases key_cases w.simpleLayout nextPos with ⟨absent,nobody⟩ | there
  · rw [absent,if_neg (by decide)]
    refine ⟨w,rfl,behind,id,?_⟩
    intro id stood
    cases stays : w.simpleLayout.lookup id with
    | none => rfl
    | some p =>
      obtain rfl := Option.some.inj ((behind.sub stays).symm.trans stood)
      exact absurd stays (nobody id)
  · have known := within (behind.sub there)
    rw [if_pos (fine.ids known),here,getD_some]
    dsimp only
    generalize key w.simpleLayout nextPos (-1) = next at there known ⊢
    have fresh : (w.screens.insert next (place r ((screenSizes.lookup next).getD noSize))).lookup next =
        some (place r ((screenSizes.lookup next).getD noSize)) := by
      rw [OrderedMap.lookup_insert,if_pos rfl]
    obtain ⟨after,result,walked⟩ := right ⟨w.simpleLayout,w.screens.insert next _⟩
      (fun found => within (behind.sub found)) there fresh (keeps next known) enough
    refine ⟨after,result,behind.walked there walked,fun found => walked.sub found,?_⟩
    intro id stood
    rw [fine.distinct (within stood) known]
    exact walked.gone

/-- What the places of the neighbours keep. -/
structure Keeps (P : Int → QPoint → QRect → Prop) (layout : OrderedMap Int QPoint) (screenSizes : OrderedMap Int QSize) :
    Prop where
  right : ∀ {id pos r next}, P id pos r → layout.lookup next = some ⟨pos.x+1,pos.y⟩ →
    P next ⟨pos.x+1,pos.y⟩ (toTheRight r ((screenSizes.lookup next).getD noSize))
  left : ∀ {id pos r next}, P id pos r → layout.lookup next = some ⟨pos.x-1,pos.y⟩ →
    P next ⟨pos.x-1,pos.y⟩ (toTheLeft r ((screenSizes.lookup next).getD noSize))
  bottom : ∀ {id pos r next}, P id pos r → layout.lookup next = some ⟨pos.x,pos.y+1⟩ →
    P next ⟨pos.x,pos.y+1⟩ (toTheBottom r ((screenSizes.lookup next).getD noSize))
  top : ∀ {id pos r next}, P id pos r → layout.lookup next = some ⟨pos.x,pos.y-1⟩ →
    P next ⟨pos.x,pos.y-1⟩ (toTheTop r ((screenSizes.lookup next).getD noSize))

theorem taken_behind (found : before.simpleLayout.lookup index = some pos) (placed : before.screens.lookup index = some r)
    (good : P index pos r) : Behind P index before ⟨before.simpleLayout.erase index,before.screens⟩ where
  sub := by
    intro id p stays
    rw [OrderedMap.lookup_erase] at stays
    split at stays
    · cases stays
    · exact stays
  gone := by rw [OrderedMap.lookup_erase,if_pos rfl]
  kept := fun _ => rfl
  placed := by
    intro id p here gone
    rw [OrderedMap.lookup_erase] at gone
    split at gone
    case isTrue same =>
      subst same
      obtain rfl := Option.some.inj (found.symm.trans here)
      exact ⟨r,placed,good⟩
    case isFalse =>
      rw [here] at gone
      cases gone
  closed := by
    intro id p other q elsewhere here gone
    rw [OrderedMap.lookup_erase,if_neg elsewhere,here] at gone
    cases gone

theorem simpleToReal_walked (fine : Fine layout) (keeps : Keeps P layout screenSizes) (depth : Nat) :
    Right P layout depth (simpleToReal screenSizes depth) := by
  induction depth with
  | zero =>
    intro w index pos r _ found _ _ enough
    have some_entry := OrderedMap.mem_entries_iff.mpr found
    rw [eq_nil_of_length_eq_zero (Nat.le_zero.mp enough)] at some_entry
    cases some_entry
  | succ depth ih =>
    intro w index pos r within found placed good enough
    have taken := taken_behind found placed good
    have shorter : (⟨w.simpleLayout.erase index,w.screens⟩ : Walk).simpleLayout.entries.length <
        w.simpleLayout.entries.length := OrderedMap.length_erase_lt found
    rw [simpleToReal,found,getD_some]
    generalize (⟨w.simpleLayout.erase index,w.screens⟩ : Walk) = start at taken shorter
    obtain ⟨right,to_right,behind_right,sub_right,gone_right⟩ :=
      visit_behind ih fine within taken placed (by omega) fun next there => keeps.right good there
    have right_shorter := OrderedMap.length_le_of_sub sub_right
    obtain ⟨left,to_left,behind_left,sub_left,gone_left⟩ :=
      visit_behind ih fine within behind_right placed (by omega) fun next there => keeps.left good there
    have left_shorter := OrderedMap.length_le_of_sub sub_left
    obtain ⟨bottom,to_bottom,behind_bottom,sub_bottom,gone_bottom⟩ :=
      visit_behind ih fine within behind_left placed (by omega) fun next there => keeps.bottom good there
    have bottom_shorter := OrderedMap.length_le_of_sub sub_bottom
    obtain ⟨top,to_top,behind_top,sub_top,gone_top⟩ :=
      visit_behind ih fine within behind_bottom placed (by omega) fun next there => keeps.top good there
    refine ⟨top,?_,behind_top,?_⟩
    · simp only [to_right,to_left,to_bottom,to_top,Option.bind_eq_bind,bind_some]
    · intro p other q here there beside
      obtain rfl := Option.some.inj (found.symm.trans here)
      rcases beside with rfl | rfl | rfl | rfl
      · exact none_of_sub sub_top (none_of_sub sub_bottom (none_of_sub sub_left (gone_right other there)))
      · exact none_of_sub sub_top (none_of_sub sub_bottom (gone_left other there))
      · exact none_of_sub sub_top (gone_bottom other there)
      · exact gone_top other there

end walking

/-- The loop for one coordinate. -/
def least : List Int → Int × Bool → Int
  | [], o => o.1
  | n :: rest, o => least rest (if o.2 || decide (n < o.1) then n else o.1,false)

theorem least_from (rest : List Int) (n : Int) : IsLeast {m | m = n ∨ m ∈ rest} (least rest (n,false)) := by
  induction rest generalizing n with
  | nil => simp [least,IsLeast,lowerBounds]
  | cons next rest ih =>
    obtain ⟨reached,below⟩ := ih (min n next)
    have chosen : (if ((n,false).2 || decide (next < (n,false).1)) = true then next else (n,false).1) = min n next := by
      simp only [Bool.false_or,decide_eq_true_eq]
      split <;> omega
    rw [least,chosen]
    constructor
    · rcases reached with same | later
      · rw [same]
        rcases min_choice n next with first | second
        · exact inl first
        · exact inr (mem_cons.mpr (inl second))
      · exact inr (mem_cons_of_mem _ later)
    · have lower := below (inl rfl)
      rintro m (rfl | inside)
      · exact lower.trans (min_le_left _ _)
      · rcases mem_cons.mp inside with rfl | later
        · exact lower.trans (min_le_right _ _)
        · exact below (inr later)

theorem least_isLeast {numbers : List Int} (any : numbers ≠ []) (start : Int) :
    IsLeast {n | n ∈ numbers} (least numbers (start,true)) := by
  cases numbers with
  | nil => exact absurd rfl any
  | cons n rest =>
    have all : {m | m ∈ n :: rest} = {m | m = n ∨ m ∈ rest} := Set.ext fun m => mem_cons
    rw [all]
    exact least_from rest n

theorem originOf_eq (entries : List (Int × QRect)) (o : QPoint × Bool) :
    (originOf entries o).1 =
      ⟨least (entries.map (·.2.x)) (o.1.x,o.2),least (entries.map (·.2.y)) (o.1.y,o.2)⟩ := by
  induction entries generalizing o with
  | nil => rfl
  | cons e entries ih =>
    rw [originOf,ih]
    rfl

theorem translateOrigin_lookup (screens : OrderedMap Int QRect) (any : screens.entries ≠ []) :
    ∃ origin : QPoint, IsLeast {x | ∃ id r, screens.lookup id = some r ∧ r.x = x} origin.x ∧
      IsLeast {y | ∃ id r, screens.lookup id = some r ∧ r.y = y} origin.y ∧
      ∀ id, (translateOrigin screens).lookup id =
        (screens.lookup id).map fun r => translate r ⟨-origin.x,-origin.y⟩ := by
  have same : ∀ side : QRect → Int, {n | ∃ id r, screens.lookup id = some r ∧ side r = n} =
      {n | n ∈ screens.entries.map (fun e => side e.2)} := by
    intro side
    ext n
    change (∃ id r, screens.lookup id = some r ∧ side r = n) ↔ n ∈ screens.entries.map fun e => side e.2
    simp only [mem_map,Prod.exists,OrderedMap.mem_entries_iff]
  refine ⟨_,?_,?_,fun id => OrderedMap.lookup_mapValues _ _ id⟩
  · rw [originOf_eq,same]
    exact least_isLeast (by simpa using any) 0
  · rw [originOf_eq,same]
    exact least_isLeast (by simpa using any) 0

theorem anyOverlap_eq_false {entries : List (Int × QRect)} :
    anyOverlap entries = false ↔ entries.Pairwise fun i j => intersects i.2 j.2 = false := by
  induction entries with
  | nil => simp [anyOverlap]
  | cons e entries ih => rw [anyOverlap,Bool.or_eq_false_iff,ih,pairwise_cons,any_eq_false]; simp

variable {screens : OrderedMap Int QRect}

theorem apart_of_no_overlap (clean : anyOverlap screens.entries = false)
    {id other : Int} {r s : QRect} (differ : id ≠ other) (here : screens.lookup id = some r)
    (there : screens.lookup other = some s) (p : QPoint) : ¬ (r.contains p = true ∧ s.contains p = true) := by
  have apart : screens.entries.Pairwise fun i j => ¬ (i.2.contains p = true ∧ j.2.contains p = true) := by
    apply (anyOverlap_eq_false.mp clean).imp
    rintro i j none ⟨left,right⟩
    rw [intersects_of_common left right] at none
    cases none
  have _ : Std.Symm fun (i j : Int × QRect) => ¬ (i.2.contains p = true ∧ j.2.contains p = true) :=
    ⟨fun i j none both => none both.symm⟩
  exact apart.forall (OrderedMap.mem_entries_iff.mpr here) (OrderedMap.mem_entries_iff.mpr there)
    fun same => differ (congrArg Prod.fst same)

theorem intersects_eq_false {r s : QRect} (straight : ¬ Crossed r) (other : ¬ Crossed s)
    (apart : r.x2 < s.x1 ∨ s.x2 < r.x1 ∨ r.y2 < s.y1 ∨ s.y2 < r.y1) : intersects r s = false := by
  rw [intersects,normalized_of_not_crossed straight,normalized_of_not_crossed other]
  split
  · rfl
  · dsimp only
    split
    · rfl
    · rw [if_pos (by omega)]

/-- What a screen is that has been placed: its size, and its place where all sizes are the same. -/
structure Sits (layout : OrderedMap Int QPoint) (screenSizes : OrderedMap Int QSize) (origin : QPoint) (id : Int)
    (p : QPoint) (r : QRect) : Prop where
  there : layout.lookup id = some p
  sized : r.size = (screenSizes.lookup id).getD noSize
  uniform : ∀ {w h}, (∀ id p, layout.lookup id = some p → (screenSizes.lookup id).getD noSize = ⟨w,h⟩) →
    r = rectAt ⟨(p.x-origin.x)*w,(p.y-origin.y)*h⟩ ⟨w,h⟩

theorem rectAt_size (p : QPoint) (size : QSize) : (rectAt p size).size = size := by
  obtain ⟨width,height⟩ := size
  simp only [rectAt,QRect.ofSize,QRect.size,QRect.width,QRect.height,QSize.mk.injEq]
  omega

theorem rectAt_congr {p q : QPoint} {size : QSize} (x : p.x = q.x) (y : p.y = q.y) : rectAt p size = rectAt q size := by
  rw [rectAt,rectAt,x,y]

theorem sits_keeps (layout : OrderedMap Int QPoint) (screenSizes : OrderedMap Int QSize) (origin : QPoint) :
    Keeps (Sits layout screenSizes origin) layout screenSizes where
  right := by
    intro id pos r next sits there
    refine ⟨there,rectAt_size _ _,?_⟩
    intro w h same
    rw [same next _ there,sits.uniform same,toTheRight]
    apply rectAt_congr
    · simp only [rectAt,QRect.ofSize]
      ring
    · rfl
  left := by
    intro id pos r next sits there
    refine ⟨there,rectAt_size _ _,?_⟩
    intro w h same
    rw [same next _ there,sits.uniform same,toTheLeft]
    apply rectAt_congr
    · simp only [rectAt,QRect.ofSize]
      ring
    · rfl
  bottom := by
    intro id pos r next sits there
    refine ⟨there,rectAt_size _ _,?_⟩
    intro w h same
    rw [same next _ there,sits.uniform same,toTheBottom]
    apply rectAt_congr
    · rfl
    · simp only [rectAt,QRect.ofSize]
      ring
  top := by
    intro id pos r next sits there
    refine ⟨there,rectAt_size _ _,?_⟩
    intro w h same
    rw [same next _ there,sits.uniform same,toTheTop]
    apply rectAt_congr
    · rfl
    · simp only [rectAt,QRect.ofSize]
      ring

variable {layout : SymbolicLayout}

theorem walk_all (fine : Fine layout.positions) (screenSizes : OrderedMap Int QSize) (extra : Nat) {first : Int}
    {origin : QPoint} (begins : layout.positions.lookup first = some origin) :
    ∃ after, simpleToReal screenSizes (layout.positions.entries.length+extra)
        ⟨layout.positions,OrderedMap.empty.insert first (rectAt ⟨0,0⟩ ((screenSizes.lookup first).getD noSize))⟩ first =
        some after ∧
      (∀ id, after.screens.lookup id = none ↔ layout.positions.lookup id = none) ∧
      ∀ {id p r}, layout.positions.lookup id = some p → after.screens.lookup id = some r →
        Sits layout.positions screenSizes origin id p r := by
  have sits : Sits layout.positions screenSizes origin first origin
      (rectAt ⟨0,0⟩ ((screenSizes.lookup first).getD noSize)) := by
    refine ⟨begins,rectAt_size _ _,?_⟩
    intro w h same
    rw [same first _ begins]
    simp [rectAt,QRect.ofSize]
  have start : (OrderedMap.empty.insert first (rectAt ⟨0,0⟩ ((screenSizes.lookup first).getD noSize))).lookup first =
      some (rectAt ⟨0,0⟩ ((screenSizes.lookup first).getD noSize)) := by
    rw [OrderedMap.lookup_insert,if_pos rfl]
  obtain ⟨after,result,walked⟩ := simpleToReal_walked fine (sits_keeps layout.positions screenSizes origin)
    (layout.positions.entries.length+extra)
    ⟨layout.positions,OrderedMap.empty.insert first (rectAt ⟨0,0⟩ ((screenSizes.lookup first).getD noSize))⟩
    (fun found => found) begins start sits (Nat.le_add_right _ _)
  have gone : ∀ {id}, Relation.ReflTransGen (Neighbours layout.positions) first id →
      after.simpleLayout.lookup id = none := by
    intro id reached
    induction reached with
    | refl => exact walked.gone
    | tail _ beside ih =>
      obtain ⟨p,q,here,there,adjacent⟩ := beside
      exact walked.closed_all here ih there adjacent
  have placed : ∀ {id p}, layout.positions.lookup id = some p →
      ∃ r, after.screens.lookup id = some r ∧ Sits layout.positions screenSizes origin id p r :=
    fun found => walked.placed found (gone (layout.connected begins found))
  refine ⟨after,result,?_,?_⟩
  · intro id
    constructor
    · intro absent
      cases found : layout.positions.lookup id with
      | none => rfl
      | some p =>
        obtain ⟨r,there,_⟩ := placed found
        rw [absent] at there
        cases there
    · intro absent
      rw [walked.kept (inl absent),OrderedMap.lookup_insert,if_neg]
      · rfl
      · rintro rfl
        rw [begins] at absent
        cases absent
  · intro id p r found shown
    obtain ⟨s,there,sits⟩ := placed found
    obtain rfl := Option.some.inj (shown.symm.trans there)
    exact sits

theorem no_overlap {w h column row : Int} (wide : 0 < w) (tall : 0 < h)
    (placed : ∀ {id r}, screens.lookup id = some r → ∃ p, layout.positions.lookup id = some p ∧
      r = rectAt ⟨(p.x-column)*w,(p.y-row)*h⟩ ⟨w,h⟩) : anyOverlap screens.entries = false := by
  rw [anyOverlap_eq_false]
  apply screens.entries_nodup.pairwise_of_forall_ne
  rintro ⟨id,r⟩ inside ⟨other,s⟩ there differ
  obtain ⟨p,here,rfl⟩ := placed (OrderedMap.mem_entries_iff.mp inside)
  obtain ⟨q,second,rfl⟩ := placed (OrderedMap.mem_entries_iff.mp there)
  dsimp only
  have crossed : ∀ p : QPoint, ¬ Crossed (rectAt p ⟨w,h⟩) := by
    intro p
    simp only [Crossed,rectAt,QRect.ofSize,QRect.width,QRect.height]
    omega
  apply intersects_eq_false (crossed _) (crossed _)
  simp only [rectAt,QRect.ofSize]
  -- a screen that is further on starts behind the end of the other
  have further : ∀ {m n k : Int}, 0 < k → m < n → m*k+k-1 < n*k := by
    intro m n k positive before
    have grown := Int.mul_le_mul_of_nonneg_right (Int.add_one_le_iff.mpr before) (Int.le_of_lt positive)
    rw [Int.add_mul] at grown
    omega
  rcases lt_trichotomy p.x q.x with left | same | right
  · exact inl (further wide (by omega))
  · rcases lt_trichotomy p.y q.y with above | level | below
    · exact inr (inr (inl (further tall (by omega))))
    · have point : p = q := by
        cases p
        cases q
        exact congrArg₂ QPoint.mk same level
      subst point
      rw [layout.distinct here second] at differ
      exact absurd rfl differ
    · exact inr (inr (inr (further tall (by omega))))
  · exact inr (inl (further wide (by omega)))

theorem isSome_of_all {positions : OrderedMap Int QPoint}
    (all : ∀ id, screens.lookup id = none ↔ positions.lookup id = none) {id : Int} {p : QPoint}
    (found : positions.lookup id = some p) : ∃ r, screens.lookup id = some r := by
  cases shown : screens.lookup id with
  | some r => exact ⟨r,rfl⟩
  | none =>
    rw [(all id).mp shown] at found
    cases found

theorem grid_least {positions : OrderedMap Int QPoint} (side : QRect → Int)
    (axis : QPoint → Int) {o k m : Int} (positive : 0 < k)
    (all : ∀ id, screens.lookup id = none ↔ positions.lookup id = none)
    (placed : ∀ {id p r}, positions.lookup id = some p → screens.lookup id = some r → side r = (axis p-o)*k)
    (smallest : IsLeast {x | ∃ id r, screens.lookup id = some r ∧ side r = x} m) :
    ∃ n, IsLeast {x | ∃ id p, positions.lookup id = some p ∧ axis p = x} n ∧ m = (n-o)*k := by
  obtain ⟨⟨id,r,shown,rfl⟩,lower⟩ := smallest
  cases found : positions.lookup id with
  | none =>
    rw [(all id).mpr found] at shown
    cases shown
  | some p =>
    refine ⟨axis p,⟨⟨id,p,found,rfl⟩,?_⟩,placed found shown⟩
    rintro _ ⟨other,q,there,rfl⟩
    obtain ⟨s,second⟩ := isSome_of_all all there
    have order := lower ⟨other,s,second,rfl⟩
    rw [placed found shown,placed there second] at order
    have less := le_of_mul_le_mul_right order positive
    omega

theorem Smallest.unique {a : Assignment layout Output} {id : Int} {s t : QSize} (one : Smallest a id s)
    (two : Smallest a id t) : s = t := by
  obtain ⟨wide,sw,shown_sw,sized_sw,width_s⟩ := one.width
  obtain ⟨wide',tw,shown_tw,sized_tw,width_t⟩ := two.width
  obtain ⟨tall,sh,shown_sh,sized_sh,height_s⟩ := one.height
  obtain ⟨tall',th,shown_th,sized_th,height_t⟩ := two.height
  have width_le := (two.covers shown_sw sized_sw).1
  have width_ge := (one.covers shown_tw sized_tw).1
  have height_le := (two.covers shown_sh sized_sh).2
  have height_ge := (one.covers shown_th sized_th).2
  cases s
  cases t
  exact congrArg₂ QSize.mk (by simp only at *; omega) (by simp only at *; omega)

theorem Smallest.positive {a : Assignment layout Output} {id : Int} {s : QSize} (number : 0 ≤ id)
    (smallest : Smallest a id s) : 0 < s.width ∧ 0 < s.height := by
  obtain ⟨output,size,shown,sized,_⟩ := smallest.width
  obtain ⟨same,again,wide,tall⟩ := a.positive shown number
  obtain rfl := Option.some.inj (sized.symm.trans again)
  obtain ⟨covers_width,covers_height⟩ := smallest.covers shown sized
  omega

theorem moved_least {screens moved : OrderedMap Int QRect} {side : QRect → Int} {offset : QPoint} {m : Int}
    (lookup : ∀ id, moved.lookup id = (screens.lookup id).map fun r => translate r offset)
    (shifted : ∀ r, side (translate r offset) = side r-m)
    (smallest : IsLeast {x | ∃ id r, screens.lookup id = some r ∧ side r = x} m) :
    IsLeast {x | ∃ id r, moved.lookup id = some r ∧ side r = x} 0 := by
  obtain ⟨⟨id,r,shown,rfl⟩,lower⟩ := smallest
  refine ⟨⟨id,translate r offset,by rw [lookup,shown,map_some],by rw [shifted,Int.sub_self]⟩,?_⟩
  rintro _ ⟨other,s,there,rfl⟩
  rw [lookup,Option.map_eq_some_iff] at there
  obtain ⟨before,found,rfl⟩ := there
  have order := lower ⟨other,before,found,rfl⟩
  rw [shifted]
  omega

theorem translate_size (r : QRect) (offset : QPoint) : (translate r offset).size = r.size := by
  simp only [translate,QRect.size,QRect.width,QRect.height,QSize.mk.injEq]
  omega

/-- The layout in pixels is empty, or all screens are placed; it is not empty where all screens have the same size, and
then it is the grid. -/
theorem realLayout_placed (layout : SymbolicLayout) (a : Assignment layout Output) (extra : Nat) :
    ∃ screens, realLayout (layout.positions.entries.length+extra) layout.positions a.outputScreens a.outputSizes =
        some screens ∧
      (screens.entries = [] ∨ Placed a screens) ∧
      ∀ w h, (∀ id p, layout.positions.lookup id = some p → Smallest a id ⟨w,h⟩) →
        screens.entries ≠ [] ∧ ∀ minX minY, IsLeast {x | ∃ id p, layout.positions.lookup id = some p ∧ p.x = x} minX →
          IsLeast {y | ∃ id p, layout.positions.lookup id = some p ∧ p.y = y} minY →
          ∀ id p, layout.positions.lookup id = some p →
            screens.lookup id = some (rectAt ⟨(p.x-minX)*w,(p.y-minY)*h⟩ ⟨w,h⟩) := by
  obtain ⟨screenSizes,read,sizes⟩ := sizes_smallest a
  have fine : Fine layout.positions := ⟨fun found => (a.covered found).1,layout.distinct⟩
  obtain ⟨⟨first,origin⟩,rest,entries⟩ := exists_cons_of_ne_nil layout.nonempty
  have begins : layout.positions.lookup first = some origin := by
    rw [← OrderedMap.mem_entries_iff,entries]
    exact mem_cons_self
  obtain ⟨after,walked,all,sits⟩ := walk_all fine screenSizes extra begins
  have any : after.screens.entries ≠ [] := by
    obtain ⟨r,shown⟩ := isSome_of_all all begins
    exact ne_nil_of_mem (OrderedMap.mem_entries_iff.mpr shown)
  obtain ⟨lowest,left,top,moved⟩ := translateOrigin_lookup after.screens any
  generalize moves : translateOrigin after.screens = screens at moved
  have result : realLayout (layout.positions.entries.length+extra) layout.positions a.outputScreens a.outputSizes =
      some (if anyOverlap screens.entries then .empty else screens) := by
    rw [realLayout,read,entries]
    simp only [head?_cons,Option.bind_eq_bind,bind_some]
    rw [← entries,walked,bind_some,moves]
    split <;> rfl
  have none_iff : ∀ id, screens.lookup id = none ↔ layout.positions.lookup id = none := by
    intro id
    rw [moved,Option.map_eq_none_iff,all]
  refine ⟨_,result,?_,?_⟩
  · cases clean : anyOverlap screens.entries with
    | true => exact inl rfl
    | false =>
      right
      refine ⟨none_iff,?_,apart_of_no_overlap clean,moved_least moved ?_ left,moved_least moved ?_ top⟩
      · intro id r shown
        change screens.lookup id = some r at shown
        rw [moved,Option.map_eq_some_iff] at shown
        obtain ⟨before,placed,rfl⟩ := shown
        rw [translate_size]
        cases found : layout.positions.lookup id with
        | none =>
          rw [(all id).mpr found] at placed
          cases placed
        | some p =>
          rw [(sits found placed).sized]
          exact sizes id p found
      · intro r
        exact Int.sub_eq_add_neg.symm
      · intro r
        exact Int.sub_eq_add_neg.symm
  · intro w h same
    have size_is : ∀ id p, layout.positions.lookup id = some p → (screenSizes.lookup id).getD noSize = ⟨w,h⟩ :=
      fun id p found => (sizes id p found).unique (same id p found)
    obtain ⟨wide,tall⟩ := (same first origin begins).positive (a.covered begins).1
    have placed : ∀ {id p r}, layout.positions.lookup id = some p → after.screens.lookup id = some r →
        r = rectAt ⟨(p.x-origin.x)*w,(p.y-origin.y)*h⟩ ⟨w,h⟩ := fun found shown => (sits found shown).uniform size_is
    obtain ⟨column,firstColumn,lowest_x⟩ := grid_least QRect.x QPoint.x wide all
      (fun found shown => congrArg QRect.x (placed found shown)) left
    obtain ⟨row,firstRow,lowest_y⟩ := grid_least QRect.y QPoint.y tall all
      (fun found shown => congrArg QRect.y (placed found shown)) top
    have shown : ∀ {id p}, layout.positions.lookup id = some p →
        screens.lookup id = some (rectAt ⟨(p.x-column)*w,(p.y-row)*h⟩ ⟨w,h⟩) := by
      intro id p found
      obtain ⟨r,there⟩ := isSome_of_all all found
      rw [moved,there,map_some,placed found there,lowest_x,lowest_y]
      simp only [translate,rectAt,QRect.ofSize,Option.some.injEq,QRect.mk.injEq]
      refine ⟨?_,?_,?_,?_⟩ <;> ring
    have positioned : ∀ {id r}, screens.lookup id = some r → ∃ p, layout.positions.lookup id = some p ∧
        r = rectAt ⟨(p.x-column)*w,(p.y-row)*h⟩ ⟨w,h⟩ := by
      intro id r there
      cases found : layout.positions.lookup id with
      | none =>
        rw [(none_iff id).mpr found] at there
        cases there
      | some p => exact ⟨p,rfl,Option.some.inj (there.symm.trans (shown found))⟩
    rw [no_overlap wide tall positioned,if_neg Bool.false_ne_true]
    refine ⟨ne_nil_of_mem (OrderedMap.mem_entries_iff.mpr (shown begins)),?_⟩
    intro minX minY leftmost topmost id p found
    rw [leftmost.unique firstColumn,topmost.unique firstRow]
    exact shown found

end KdeWorkspace.RealLayouts
