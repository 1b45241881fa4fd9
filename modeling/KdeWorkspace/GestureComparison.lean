import KdeWorkspace.Strokes
import Mathlib.Tactic.Positivity

/-!
The comparison of two strokes by a search for the cheapest way through the matrix of their points.

`Better` says what every step of the search keeps, so that the score is between 0 and 1; where a stroke is compared with
itself, the search from a cell of the diagonal finds the next one at no cost (`search_diagonal`).
-/
namespace KdeWorkspace.GestureComparison
open List Option
open Strokes (StrokePoint)

def stroke_infinity : ℚ := 1/5

/-- The smallest step that is considered. -/
def epsilon : ℚ := 1/1000000

def angleSquareDifference (alpha beta : ℚ) : ℚ :=
  let d := alpha-beta
  let d := if d < -1 then d+2 else if d > 1 then d-2 else d
  d*d

structure CostMatrix where
  rows : Nat
  columns : Nat
  entry : Nat → Nat → ℚ

/-- Only the first cell has been reached. -/
def initial (m n : Nat) : CostMatrix := ⟨m+1,n+1,fun x y => if x = 0 ∧ y = 0 then 0 else stroke_infinity⟩

/-- There is no result outside the matrix. -/
def CostMatrix.read (cost : CostMatrix) (x y : Nat) : Option ℚ :=
  if x < cost.rows ∧ y < cost.columns then some (cost.entry x y) else none

def CostMatrix.write (cost : CostMatrix) (x y : Nat) (value : ℚ) : CostMatrix :=
  { cost with entry := fun i j => if i = x ∧ j = y then value else cost.entry i j }

section
variable (a b : List StrokePoint)

/-- The cost of the points that are crossed on the way. -/
def crossed (points : List StrokePoint) (difference : ℚ → ℚ) (start stop : Nat) (c : ℚ) : Option ℚ :=
  (List.range' (start+1) (stop-(start+1))).foldlM (fun c i => do
    let p ← points[i]?
    some (c+p.delta_s*difference p.angle)) c

/-- The step from one cell to another, with the number of the steps that have been considered. -/
def tryStep (x y : Nat) (st : CostMatrix × Nat) (cell : Nat × Nat) : Option (CostMatrix × Nat) := do
  let (cost,k) := st
  let (x2,y2) := cell
  let ahead ← a[x2]?
  let ax ← a[x]?
  let across ← b[y2]?
  let bY ← b[y]?
  let delta_sx := ahead.s-ax.s
  let delta_sy := across.s-bY.s
  if delta_sx < delta_sy*(11/5) ∧ delta_sy < delta_sx*(11/5) ∧ epsilon ≤ delta_sx ∧ epsilon ≤ delta_sy then
    let c := (ax.delta_s+bY.delta_s)*angleSquareDifference ax.angle bY.angle
    let c ← crossed a (fun angle => angleSquareDifference angle bY.angle) x x2 c
    let c ← crossed b (fun angle => angleSquareDifference ax.angle angle) y y2 c
    let here ← cost.read x y
    let there ← cost.read x2 y2
    some (if here+c < there then cost.write x2 y2 (here+c) else cost,k+1)
  else some (cost,k)

/-- The search from a cell; there is no result if the loop takes more rounds than are given. -/
def search (m n x y : Nat) : Nat → Nat → Nat → CostMatrix × Nat → Option CostMatrix
  | 0, _, _, _ => none
  | rounds+1, max_x, max_y, st =>
    if st.2 < 4 then do
      let ax ← a[x]?
      let bY ← b[y]?
      let ahead ← a[max_x+1]?
      let across ← b[max_y+1]?
      if ahead.s-ax.s > across.s-bY.s then
        let max_y := max_y+1
        if max_y = n then
          let jumped ← tryStep a b x y st (m,n)
          some jumped.1
        else
          let widened ← ((List.range' (x+1) (max_x-x)).map fun x2 => (x2,max_y)).foldlM (tryStep a b x y) st
          search m n x y rounds max_x max_y widened
      else
        let max_x := max_x+1
        if max_x = m then
          let jumped ← tryStep a b x y st (m,n)
          some jumped.1
        else
          let widened ← ((List.range' (y+1) (max_y-y)).map fun y2 => (max_x,y2)).foldlM (tryStep a b x y) st
          search m n x y rounds max_x max_y widened
    else some st.1

/-- A cell that can be reached is searched from. -/
def visit (rounds m n x y : Nat) (cost : CostMatrix) : Option CostMatrix := do
  let here ← cost.read x y
  if here ≥ stroke_infinity then some cost else search a b m n x y rounds x y (cost,0)

def comparePointData (rounds : Nat) : Option ℚ :=
  let m : Int := a.length-1
  let n : Int := b.length-1
  if m < 1 ∨ n < 1 then some 0
  else do
    let m := m.toNat
    let n := n.toNat
    let cost ← (List.range m).foldlM (fun cost x =>
      (List.range n).foldlM (fun cost y => visit a b rounds m n x y cost) cost) (initial m n)
    let last ← cost.read m n
    some (1-5*last)
end

theorem angleSquareDifference_nonneg (alpha beta : ℚ) : 0 ≤ angleSquareDifference alpha beta := mul_self_nonneg _

theorem angleSquareDifference_self (alpha : ℚ) : angleSquareDifference alpha alpha = 0 := by
  rw [angleSquareDifference,sub_self]
  norm_num

/-- No point has a negative distance from the next one. -/
def Forward (points : List StrokePoint) : Prop := ∀ p ∈ points, 0 ≤ p.delta_s

/-- No cell is negative. -/
def Nonneg (cost : CostMatrix) : Prop := ∀ x y, 0 ≤ cost.entry x y

/-- The cells have become cheaper at most. -/
structure Better (forward : Prop) (cost after : CostMatrix) : Prop where
  rows : after.rows = cost.rows
  columns : after.columns = cost.columns
  lower : ∀ x y, after.entry x y ≤ cost.entry x y
  nonneg : forward → Nonneg cost → Nonneg after

theorem Better.refl {forward : Prop} (cost : CostMatrix) : Better forward cost cost :=
  ⟨rfl,rfl,fun _ _ => le_rfl,fun _ nonneg => nonneg⟩

theorem Better.trans {forward : Prop} {cost mid after : CostMatrix} (first : Better forward cost mid)
    (second : Better forward mid after) : Better forward cost after :=
  ⟨second.rows.trans first.rows,second.columns.trans first.columns,
    fun x y => (second.lower x y).trans (first.lower x y),
    fun positive nonneg => second.nonneg positive (first.nonneg positive nonneg)⟩

theorem Better.stays {forward : Prop} {cost after : CostMatrix} (better : Better forward cost after) (positive : forward)
    (nonneg : Nonneg cost) {x y : Nat} (free : cost.entry x y = 0) : after.entry x y = 0 :=
  le_antisymm (free ▸ better.lower x y) (better.nonneg positive nonneg x y)

theorem crossed_spec {points : List StrokePoint} {difference : ℚ → ℚ} (squares : ∀ angle, 0 ≤ difference angle)
    (start : Nat) {stop : Nat} (inside : stop ≤ points.length) (c : ℚ) :
    ∃ more, crossed points difference start stop c = some more ∧ (Forward points → c ≤ more) := by
  rw [crossed]
  have within : ∀ i ∈ range' (start+1) (stop-(start+1)), i < points.length := by
    intro i there
    obtain ⟨_,_⟩ := mem_range'_1.mp there
    omega
  revert within
  generalize range' (start+1) (stop-(start+1)) = indices
  intro within
  induction indices generalizing c with
  | nil => exact ⟨c,rfl,fun _ => le_rfl⟩
  | cons i indices ih =>
    have bound := within i mem_cons_self
    obtain ⟨more,rest,grows⟩ := ih (c+points[i].delta_s*difference points[i].angle)
      fun j there => within j (mem_cons_of_mem _ there)
    refine ⟨more,?_,?_⟩
    · rw [foldlM_cons]
      simp only [getElem?_eq_getElem bound,bind_eq_bind,bind_some]
      exact rest
    · intro forward
      have positive := mul_nonneg (forward _ (getElem_mem bound)) (squares points[i].angle)
      have more_grows := grows forward
      linarith

theorem crossed_next (points : List StrokePoint) (difference : ℚ → ℚ) (start : Nat) (c : ℚ) :
    crossed points difference start (start+1) c = some c := by
  rw [crossed,Nat.sub_self]
  rfl

theorem read_inside {cost : CostMatrix} {x y : Nat} (row : x < cost.rows) (column : y < cost.columns) :
    cost.read x y = some (cost.entry x y) := if_pos ⟨row,column⟩

theorem write_better {forward : Prop} {cost : CostMatrix} {x y : Nat} {value : ℚ} (cheaper : value < cost.entry x y)
    (positive : forward → Nonneg cost → 0 ≤ value) : Better forward cost (cost.write x y value) := by
  refine ⟨rfl,rfl,?_,?_⟩
  · intro i j
    rw [CostMatrix.write]
    dsimp only
    split
    case isTrue same =>
      rw [same.1,same.2]
      exact cheaper.le
    case isFalse => exact le_rfl
  · intro holds nonneg i j
    rw [CostMatrix.write]
    dsimp only
    split
    · exact positive holds nonneg
    · exact nonneg i j

section
variable {a b : List StrokePoint} {m n x y x2 y2 : Nat} {st : CostMatrix × Nat}

/-- The matrix has a cell for each pair of points. -/
structure Sized (a b : List StrokePoint) (cost : CostMatrix) : Prop where
  rows : cost.rows = a.length
  columns : cost.columns = b.length

variable {cost after : CostMatrix}

theorem Sized.better {forward : Prop} (sized : Sized a b cost)
    (better : Better forward cost after) : Sized a b after :=
  ⟨better.rows.trans sized.rows,better.columns.trans sized.columns⟩

theorem tryStep_better (sized : Sized a b st.1) (row : x < a.length) (column : y < b.length) (row2 : x2 < a.length)
    (column2 : y2 < b.length) :
    ∃ after, tryStep a b x y st (x2,y2) = some after ∧ Better (Forward a ∧ Forward b) st.1 after.1 := by
  obtain ⟨cost,k⟩ := st
  rw [tryStep]
  simp only [getElem?_eq_getElem row,getElem?_eq_getElem column,getElem?_eq_getElem row2,
    getElem?_eq_getElem column2,bind_eq_bind,bind_some]
  split
  case isFalse => exact ⟨_,rfl,.refl _⟩
  case isTrue =>
    obtain ⟨c,along,grows⟩ := crossed_spec (fun angle => angleSquareDifference_nonneg angle b[y].angle) x row2.le
      ((a[x].delta_s+b[y].delta_s)*angleSquareDifference a[x].angle b[y].angle)
    obtain ⟨d,across,grows'⟩ := crossed_spec (fun angle => angleSquareDifference_nonneg a[x].angle angle) y column2.le c
    have here := read_inside (sized.rows ▸ row) (sized.columns ▸ column)
    have there := read_inside (sized.rows ▸ row2) (sized.columns ▸ column2)
    refine ⟨(if cost.entry x y+d < cost.entry x2 y2 then cost.write x2 y2 (cost.entry x y+d) else cost,k+1),?_,?_⟩
    · simp only [along,across,here,there,bind_some]
    · dsimp only
      split
      case isFalse => exact .refl _
      case isTrue cheaper =>
        apply write_better cheaper
        rintro ⟨forward,forward'⟩ nonneg
        have begins := mul_nonneg (add_nonneg (forward _ (getElem_mem row)) (forward' _ (getElem_mem column)))
          (angleSquareDifference_nonneg a[x].angle b[y].angle)
        have first := grows forward
        have second := grows' forward'
        have cell := nonneg x y
        linarith

variable {β σ : Type} {view : σ → CostMatrix} {step : σ → β → Option σ} {forward : Prop}

theorem loop_better (l : List β)
    (ok : ∀ st, Sized a b (view st) → ∀ e ∈ l, ∃ after, step st e = some after ∧ Better forward (view st) (view after))
    {st : σ} (sized : Sized a b (view st)) :
    ∃ after, l.foldlM step st = some after ∧ Better forward (view st) (view after) := by
  induction l generalizing st with
  | nil => exact ⟨st,rfl,.refl _⟩
  | cons e l ih =>
    obtain ⟨mid,one,better⟩ := ok st sized e mem_cons_self
    obtain ⟨after,rest,more⟩ := ih (fun st sized e there => ok st sized e (mem_cons_of_mem _ there))
      (sized.better better)
    refine ⟨after,?_,better.trans more⟩
    rw [foldlM_cons]
    simp only [one,bind_eq_bind,bind_some]
    exact rest

/-- From a cell of the diagonal that costs nothing the next one is reached at no cost. -/
def Reaches (i : Nat) (cost after : CostMatrix) : Prop := Nonneg cost → cost.entry i i = 0 → after.entry (i+1) (i+1) = 0

theorem loop_reaches (positive : forward) {l : List β}
    (ok : ∀ st, Sized a b (view st) → ∀ e ∈ l, ∃ after, step st e = some after ∧ Better forward (view st) (view after))
    {e : β} {i : Nat} (inside : e ∈ l)
    (reaches : ∀ st after, Sized a b (view st) → step st e = some after → Reaches i (view st) (view after))
    {st after : σ} (sized : Sized a b (view st)) (result : l.foldlM step st = some after) :
    Reaches i (view st) (view after) := by
  intro nonneg free
  obtain ⟨before,later,rfl⟩ := append_of_mem inside
  obtain ⟨mid,start,better⟩ := loop_better before (fun st sized e there => ok st sized e (mem_append_left _ there)) sized
  obtain ⟨next,one,better'⟩ := ok mid (sized.better better) e (mem_append_right _ mem_cons_self)
  obtain ⟨last,rest,better''⟩ := loop_better later
    (fun st sized e there => ok st sized e (mem_append_right _ (mem_cons_of_mem _ there)))
    ((sized.better better).better better')
  have same : last = after := by
    rw [foldlM_append,start] at result
    simp only [bind_eq_bind,bind_some,foldlM_cons,one] at result
    exact some.inj (rest.symm.trans result)
  subst same
  have nonneg' := better.nonneg positive nonneg
  have reached := reaches mid next (sized.better better) one nonneg' (better.stays positive nonneg free)
  exact better''.stays positive (better'.nonneg positive nonneg') reached

theorem search_better (lengthA : a.length = m+1) (lengthB : b.length = n+1) {rounds max_x max_y : Nat}
    (row : x < m) (column : y < n) (further : x ≤ max_x) (further' : y ≤ max_y) (within : max_x < m) (within' : max_y < n)
    (enough : m-max_x+(n-max_y) ≤ rounds) (sized : Sized a b st.1) :
    ∃ after, search a b m n x y rounds max_x max_y st = some after ∧ Better (Forward a ∧ Forward b) st.1 after := by
  induction rounds generalizing max_x max_y st with
  | zero => omega
  | succ rounds ih =>
    rw [search]
    split
    case isFalse => exact ⟨_,rfl,.refl _⟩
    case isTrue =>
      simp only [getElem?_eq_getElem (show x < a.length by omega),
        getElem?_eq_getElem (show y < b.length by omega),
        getElem?_eq_getElem (show max_x+1 < a.length by omega),
        getElem?_eq_getElem (show max_y+1 < b.length by omega),bind_eq_bind,bind_some]
      obtain ⟨last,jumped,better⟩ := @tryStep_better a b x y m n st sized (by omega) (by omega) (by omega) (by omega)
      split
      case isTrue =>
        split
        case isTrue => exact ⟨last.1,by rw [jumped,bind_some],better⟩
        case isFalse inner =>
          obtain ⟨wide,widened,better⟩ := @loop_better a b (Nat × Nat) (CostMatrix × Nat) Prod.fst (tryStep a b x y)
            (Forward a ∧ Forward b) ((range' (x+1) (max_x-x)).map fun x2 => (x2,max_y+1)) (by
              rintro st sized _ there
              obtain ⟨x2,inside,rfl⟩ := mem_map.mp there
              obtain ⟨_,_⟩ := mem_range'_1.mp inside
              exact tryStep_better sized (by omega) (by omega) (by omega) (by omega)) st sized
          obtain ⟨after,rest,more⟩ := @ih wide max_x (max_y+1) further (by omega) within (by omega) (by omega)
            (sized.better better)
          exact ⟨after,by rw [widened,bind_some,rest],better.trans more⟩
      case isFalse =>
        split
        case isTrue => exact ⟨last.1,by rw [jumped,bind_some],better⟩
        case isFalse inner =>
          obtain ⟨wide,widened,better⟩ := @loop_better a b (Nat × Nat) (CostMatrix × Nat) Prod.fst (tryStep a b x y)
            (Forward a ∧ Forward b) ((range' (y+1) (max_y-y)).map fun y2 => (max_x+1,y2)) (by
              rintro st sized _ there
              obtain ⟨y2,inside,rfl⟩ := mem_map.mp there
              obtain ⟨_,_⟩ := mem_range'_1.mp inside
              exact tryStep_better sized (by omega) (by omega) (by omega) (by omega)) st sized
          obtain ⟨after,rest,more⟩ := @ih wide (max_x+1) max_y (by omega) further' (by omega) within' (by omega)
            (sized.better better)
          exact ⟨after,by rw [widened,bind_some,rest],better.trans more⟩

theorem visit_better (lengthA : a.length = m+1) (lengthB : b.length = n+1) {rounds : Nat} (row : x < m) (column : y < n)
    (enough : m+n ≤ rounds) {cost : CostMatrix} (sized : Sized a b cost) :
    ∃ after, visit a b rounds m n x y cost = some after ∧ Better (Forward a ∧ Forward b) cost after := by
  rw [visit,read_inside (by rw [sized.rows]; omega) (by rw [sized.columns]; omega)]
  simp only [bind_eq_bind,bind_some]
  split
  · exact ⟨cost,rfl,.refl _⟩
  · exact search_better lengthA lengthB row column le_rfl le_rfl row column (by omega) sized

theorem row_better (lengthA : a.length = m+1) (lengthB : b.length = n+1) {rounds : Nat} (row : x < m)
    (enough : m+n ≤ rounds) {cost : CostMatrix} (sized : Sized a b cost) :
    ∃ after, (List.range n).foldlM (fun cost y => visit a b rounds m n x y cost) cost = some after ∧
      Better (Forward a ∧ Forward b) cost after :=
  @loop_better a b Nat CostMatrix id _ _ (range n)
    (fun _ sized _ there => visit_better lengthA lengthB row (mem_range.mp there) enough sized) cost sized

/-- The length grows from point to point. -/
def Rising (points : List StrokePoint) : Prop := ∀ i (next : i+1 < points.length), epsilon ≤ points[i+1].s-points[i].s

theorem tryStep_diagonal (rising : Rising a) {i : Nat} (next : i+1 < a.length)
    (sized : Sized a a st.1) {after : CostMatrix × Nat} (result : tryStep a a i i st (i+1,i+1) = some after) :
    Reaches i st.1 after.1 := by
  intro nonneg free
  obtain ⟨cost,k⟩ := st
  have here : i < a.length := Nat.lt_of_succ_lt next
  have grown := rising i next
  have small : (0 : ℚ) < epsilon := by norm_num [epsilon]
  have ahead : a[i+1].s-a[i].s < (a[i+1].s-a[i].s)*(11/5) := by linarith
  have read := read_inside (sized.rows ▸ here) (sized.columns ▸ here)
  have read' := read_inside (sized.rows ▸ next) (sized.columns ▸ next)
  rw [tryStep] at result
  simp only [getElem?_eq_getElem here,getElem?_eq_getElem next,bind_eq_bind,bind_some] at result
  rw [if_pos ⟨ahead,ahead,grown,grown⟩] at result
  simp only [angleSquareDifference_self,crossed_next,mul_zero,bind_some,read,read',some.injEq] at result
  subst result
  dsimp only at free nonneg ⊢
  rw [free,add_zero]
  split
  case isTrue => simp [CostMatrix.write]
  case isFalse cheap => exact le_antisymm (not_lt.mp cheap) (nonneg _ _)

theorem search_diagonal (length : a.length = m+1) (forward : Forward a) (rising : Rising a) {i rounds : Nat} (row : i < m)
    (enough : m+m ≤ rounds) (sized : Sized a a cost)
    (result : search a a m m i i rounds i i (cost,0) = some after) : Reaches i cost after := by
  intro nonneg free
  have here : i < a.length := by omega
  have next : i+1 < a.length := by omega
  obtain ⟨rounds,rfl⟩ : ∃ more, rounds = more+2 := ⟨rounds-2,by omega⟩
  rw [search,if_pos (Nat.zero_lt_succ 3)] at result
  simp only [getElem?_eq_getElem here,getElem?_eq_getElem next,bind_eq_bind,bind_some,gt_iff_lt,
    lt_self_iff_false,if_false,Nat.sub_self,range'_zero,map_nil,foldlM_nil] at result
  by_cases border : i+1 = m
  · rw [if_pos border,← border] at result
    obtain ⟨jumped,step,same⟩ := bind_eq_some_iff.mp result
    rw [← some.inj same]
    exact tryStep_diagonal rising next sized step nonneg free
  · have second : i+1+1 < a.length := by omega
    have grown := rising i next
    have grown' := rising (i+1) second
    have small : (0 : ℚ) < epsilon := by norm_num [epsilon]
    rw [if_neg border,Option.pure_def,Option.bind_some,search,if_pos (Nat.zero_lt_succ 3)] at result
    simp only [getElem?_eq_getElem here,getElem?_eq_getElem next,getElem?_eq_getElem second,
      Option.bind_eq_bind,Option.bind_some] at result
    rw [if_pos (by linarith),if_neg border,Nat.add_sub_cancel_left,range'_one,map_cons,map_nil] at result
    obtain ⟨wide,widened,rest⟩ := bind_eq_some_iff.mp result
    rw [foldlM_cons] at widened
    obtain ⟨stepped,step,same⟩ := bind_eq_some_iff.mp widened
    obtain rfl := some.inj same
    obtain ⟨again,one,better⟩ := @tryStep_better a a i i (i+1) (i+1) (cost,0) sized here here next next
    obtain rfl := some.inj (step.symm.trans one)
    have reached := tryStep_diagonal rising next sized step nonneg free
    obtain ⟨last,ended,better'⟩ := @search_better a a m m i i stepped length length rounds (i+1) (i+1) row row (by omega)
      (by omega) (by omega) (by omega) (by omega) (sized.better better)
    obtain rfl := some.inj (rest.symm.trans ended)
    exact better'.stays ⟨forward,forward⟩ (better.nonneg ⟨forward,forward⟩ nonneg) reached

theorem visit_diagonal (length : a.length = m+1) (forward : Forward a) (rising : Rising a) {i rounds : Nat} (row : i < m)
    (enough : m+m ≤ rounds) (sized : Sized a a cost)
    (result : visit a a rounds m m i i cost = some after) : Reaches i cost after := by
  intro nonneg free
  rw [visit,read_inside (by rw [sized.rows]; omega) (by rw [sized.columns]; omega)] at result
  simp only [bind_eq_bind,bind_some] at result
  rw [if_neg (by rw [free]; norm_num [stroke_infinity])] at result
  exact search_diagonal length forward rising row enough sized result nonneg free

theorem rows_diagonal (length : a.length = m+1) (forward : Forward a) (rising : Rising a) {i rounds : Nat} (row : i ≤ m)
    (enough : m+m ≤ rounds) (sized : Sized a a cost) (nonneg : Nonneg cost) (free : cost.entry 0 0 = 0)
    (result : (List.range i).foldlM (fun cost x =>
      (List.range m).foldlM (fun cost y => visit a a rounds m m x y cost) cost) cost = some after) :
    after.entry i i = 0 := by
  induction i generalizing after with
  | zero =>
    obtain rfl := some.inj result
    exact free
  | succ i ih =>
    obtain ⟨mid,rows,better⟩ := @loop_better a a Nat CostMatrix id
      (fun cost x => (range m).foldlM (fun cost y => visit a a rounds m m x y cost) cost) (Forward a ∧ Forward a)
      (range i) (fun _ sized _ there => row_better length length
        (Nat.lt_of_lt_of_le (mem_range.mp there) (Nat.le_of_succ_le row)) enough sized) cost sized
    have before := ih (Nat.le_of_succ_le row) rows
    rw [range_succ,foldlM_append,rows] at result
    simp only [bind_eq_bind,bind_some,foldlM_cons,foldlM_nil] at result
    obtain ⟨last,one,same⟩ := bind_eq_some_iff.mp result
    obtain rfl := some.inj same
    exact @loop_reaches a a Nat CostMatrix id _ _ ⟨forward,forward⟩ (range m)
      (fun _ sized _ there => visit_better length length row (mem_range.mp there) enough sized) i i
      (mem_range.mpr row) (fun _ _ sized result => visit_diagonal length forward rising row enough sized result)
      mid last (sized.better better) one (better.nonneg ⟨forward,forward⟩ nonneg) before

end

theorem initial_nonneg (m n : Nat) : Nonneg (initial m n) := by
  intro x y
  rw [initial]
  dsimp only
  split
  · exact le_rfl
  · norm_num [stroke_infinity]

theorem comparePointData_eq {a b : List StrokePoint} {m n : Nat} (lengthA : a.length = m+1) (lengthB : b.length = n+1)
    (any : 0 < m) (any' : 0 < n) (rounds : Nat) (enough : m+n ≤ rounds) :
    ∃ cost : CostMatrix, Better (Forward a ∧ Forward b) (initial m n) cost ∧
      (List.range m).foldlM (fun cost x => (List.range n).foldlM (fun cost y => visit a b rounds m n x y cost) cost)
        (initial m n) = some cost ∧
      comparePointData a b rounds = some (1-5*cost.entry m n) := by
  have sized : Sized a b (initial m n) := ⟨lengthA.symm,lengthB.symm⟩
  obtain ⟨cost,rows,better⟩ := @loop_better a b Nat CostMatrix id
    (fun cost x => (range n).foldlM (fun cost y => visit a b rounds m n x y cost) cost) (Forward a ∧ Forward b)
    (range m) (fun _ sized _ there => row_better lengthA lengthB (mem_range.mp there) enough sized) (initial m n) sized
  refine ⟨cost,better,rows,?_⟩
  have whole : Sized a b cost := sized.better better
  have lastRow : m < cost.rows := by rw [whole.rows]; omega
  have lastColumn : n < cost.columns := by rw [whole.columns]; omega
  have longA : (a.length : Int)-1 = m := by omega
  have longB : (b.length : Int)-1 = n := by omega
  rw [comparePointData,longA,longB]
  dsimp only
  rw [if_neg (by omega),Int.toNat_natCast,Int.toNat_natCast,rows]
  simp only [bind_eq_bind,bind_some,read_inside lastRow lastColumn]

/-- The comparison ends within the strokes and the matrix; the score is between 0 and 1 if no distance is negative, and 1
for a stroke compared with itself if its length grows. -/
theorem comparePointData_right :
    (∀ (a b : List StrokePoint) (extra : Nat), ∃ score, comparePointData a b (a.length+b.length+extra) = some score ∧
      (Forward a → Forward b → 0 ≤ score ∧ score ≤ 1)) ∧
    ∀ (a : List StrokePoint) (extra : Nat), 2 ≤ a.length → Rising a → Forward a →
      comparePointData a a (a.length+a.length+extra) = some 1 := by
  constructor
  · intro a b extra
    by_cases short : a.length < 2 ∨ b.length < 2
    · refine ⟨0,?_,fun _ _ => ⟨le_rfl,zero_le_one⟩⟩
      rw [comparePointData]
      exact if_pos (by omega)
    · obtain ⟨m,lengthA⟩ : ∃ m, a.length = m+1 := ⟨a.length-1,by omega⟩
      obtain ⟨n,lengthB⟩ : ∃ n, b.length = n+1 := ⟨b.length-1,by omega⟩
      obtain ⟨cost,better,_,result⟩ :=
        comparePointData_eq lengthA lengthB (by omega) (by omega) (a.length+b.length+extra) (by omega)
      refine ⟨_,result,?_⟩
      intro forward forward'
      have positive := better.nonneg ⟨forward,forward'⟩ (initial_nonneg m n) m n
      have limited := better.lower m n
      rw [initial] at limited
      dsimp only at limited
      rw [if_neg (by omega),stroke_infinity] at limited
      constructor <;> linarith
  · intro a extra long rising forward
    obtain ⟨m,length⟩ : ∃ m, a.length = m+1 := ⟨a.length-1,by omega⟩
    obtain ⟨cost,_,rows,result⟩ :=
      comparePointData_eq length length (by omega) (by omega) (a.length+a.length+extra) (by omega)
    have corner := rows_diagonal length forward rising le_rfl (by omega) ⟨length.symm,length.symm⟩ (initial_nonneg m m)
      rfl rows
    rw [result,corner]
    norm_num

def straight : List StrokePoint := [⟨0,1,0,0,0⟩,⟨1,0,0,1,0⟩]

theorem straight_one : comparePointData straight straight (straight.length+straight.length+0) = some 1 := by
  have rising : Rising straight := by
    intro i next
    obtain rfl : i = 0 := by
      change i+1 < 2 at next
      omega
    norm_num [straight,epsilon]
  exact comparePointData_right.2 straight 0 (by decide) rising (by norm_num [Forward,straight])

/-- A stroke whose length shrinks. -/
def shrinking : List StrokePoint := [⟨1,0,0,0,0⟩,⟨0,0,0,0,0⟩]

/-- A stroke with a negative distance, whose length grows. -/
def backward : List StrokePoint := [⟨0,0,0,0,0⟩,⟨1,-1/10,1/2,0,0⟩,⟨2,0,0,0,0⟩]

/-- A step back is never considered, so that the last cell is not reached; and a way beside the diagonal may cost less than
nothing. -/
theorem not_one :
    ¬ ((∀ (a b : List StrokePoint) (extra : Nat), ∃ score, comparePointData a b (a.length+b.length+extra) = some score ∧
        (Forward a → Forward b → 0 ≤ score ∧ score ≤ 1)) ∧
      ∀ (a : List StrokePoint) (extra : Nat), 2 ≤ a.length →
        (∀ i (next : i+1 < a.length), epsilon ≤ |a[i+1].s-a[i].s|) →
        comparePointData a a (a.length+a.length+extra) = some 1) ∧
    ¬ ∀ (a : List StrokePoint) (extra : Nat), 2 ≤ a.length → Rising a →
      comparePointData a a (a.length+a.length+extra) = some 1 := by
  constructor
  · rintro ⟨_,same⟩
    have differ : ∀ i (next : i+1 < shrinking.length), epsilon ≤ |shrinking[i+1].s-shrinking[i].s| := by
      intro i next
      obtain rfl : i = 0 := by
        change i+1 < 2 at next
        omega
      norm_num [shrinking,epsilon]
    have score : comparePointData shrinking shrinking (shrinking.length+shrinking.length+0) = some 0 := by
      decide +kernel
    rw [same shrinking 0 (by decide) differ] at score
    exact absurd (some.inj score) one_ne_zero
  · intro same
    have rising : Rising backward := by
      intro i next
      change i+1 < 3 at next
      obtain rfl | rfl : i = 0 ∨ i = 1 := by omega
      · norm_num [backward,epsilon]
      · norm_num [backward,epsilon]
    have score : comparePointData backward backward (backward.length+backward.length+0) = some (5/4) := by
      decide +kernel
    rw [same backward 0 (by decide) rising] at score
    exact absurd (some.inj score) (by norm_num)

end KdeWorkspace.GestureComparison
