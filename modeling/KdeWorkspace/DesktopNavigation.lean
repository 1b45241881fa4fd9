import Mathlib.Logic.Equiv.Fin.Rotate
import KdeWorkspace.FirstReturns
import KdeWorkspace.Loops
import KdeWorkspace.VirtualDesktops

/-!
Going from one virtual desktop to the next in a direction (`above`, `toRight`,
`below` and `toLeft` of the manager). Each goes on cell by cell until it finds a
desktop, past the empty cells and, when it wraps around, past the border of the
grid.

With wrapping, a step in a direction is the first return to a desktop under the
rotation of the rows or of the columns, which makes opposite directions inverse
permutations. `at` computes in `int` what `update` computes in `uint`, and the
directions work exactly in grids of less than 2^31 cells (`navigates_iff`).
-/
namespace KdeWorkspace.DesktopNavigation
open KdeWorkspace.Geometry VirtualDesktops Loops FirstReturns

/-- The value that an `int` keeps of a result. -/
def toInt (n : Int) : Int := n.bmod (2^32)

/-- `VirtualDesktopGrid::at` with its arithmetic in `int`; none for a read outside the array. -/
def atInt (g : VirtualDesktopGrid) (coords : QPoint) : Option Nat :=
  let index := toInt (coords.y*(g.width : Int)+coords.x)
  if index > toInt ((g.width : Int)*(g.height : Int)) ∨ coords.x ≥ (g.width : Int) ∨ coords.y ≥ (g.height : Int) then
    some 0
  else if index < 0 then none else g.grid[index.toNat]?

/-- The end of each round: return the desktop at the coordinates, or go on. -/
def readCell (g : VirtualDesktopGrid) (coords : QPoint) : Round QPoint (Option Nat) :=
  match atInt g coords with
  | none => .done none
  | some desktop => if desktop > 0 then .done (some desktop) else .next coords

/-- One round of a direction from the coordinates: move, at the border wrap
    around or stay at `id`, and return the desktop that is there. -/
def directionRound (g : VirtualDesktopGrid) (id : Nat) (wrap : Bool) (move : QPoint → QPoint) (beyond : QPoint → Bool)
    (start : QPoint → QPoint) (coords : QPoint) : Round QPoint (Option Nat) :=
  let coords := move coords
  if beyond coords ∧ ¬ wrap then .done (some id)
  else
    let coords := if beyond coords then start coords else coords
    readCell g coords

abbrev Walk := VirtualDesktopGrid → Nat → Bool → QPoint → Round QPoint (Option Nat)

def above : Walk := fun g id wrap => directionRound g id wrap (fun coords => {coords with y := coords.y-1})
  (fun coords => coords.y < 0) (fun coords => {coords with y := (g.height : Int)-1})

def toRight : Walk := fun g id wrap => directionRound g id wrap (fun coords => {coords with x := coords.x+1})
  (fun coords => coords.x ≥ (g.width : Int)) (fun coords => {coords with x := 0})

def below : Walk := fun g id wrap => directionRound g id wrap (fun coords => {coords with y := coords.y+1})
  (fun coords => coords.y ≥ (g.height : Int)) (fun coords => {coords with y := 0})

def toLeft : Walk := fun g id wrap => directionRound g id wrap (fun coords => {coords with x := coords.x-1})
  (fun coords => coords.x < 0) (fun coords => {coords with x := (g.width : Int)-1})

/-- The call for a desktop returns `d`: the assertion holds and the rounds from
    the cell of the desktop end with it. -/
def Returns (walk : Walk) (g : VirtualDesktopGrid) (current id : Nat) (wrap : Bool) (d : Nat) : Prop :=
  let id := if id = 0 then current else id
  (g.gridCoords id).x ≥ 0 ∧ Ends (walk g id wrap) (g.gridCoords id) (some d)

abbrev Desktop (count : Nat) := {d : Nat // 1 ≤ d ∧ d ≤ count}

/-- The directions lead from every desktop to a desktop, opposite directions that wrap around are inverse
    permutations, and a direction that does not wrap around comes to a desktop where it stays. -/
structure Navigates (g : VirtualDesktopGrid) (count current : Nat) : Prop where
  lands : ∀ walk ∈ [above,toRight,below,toLeft], ∀ (wrap : Bool) (d : Desktop count), ∃ d' : Desktop count,
    Returns walk g current d wrap d'
  horizontal : ∃ σ : Equiv.Perm (Desktop count), (∀ d : Desktop count, Returns toRight g current d true (σ d)) ∧
    ∀ d : Desktop count, Returns toLeft g current d true (σ.symm d)
  vertical : ∃ σ : Equiv.Perm (Desktop count), (∀ d : Desktop count, Returns below g current d true (σ d)) ∧
    ∀ d : Desktop count, Returns above g current d true (σ.symm d)
  settles : ∀ walk ∈ [above,toRight,below,toLeft], ∀ d : Desktop count, ∃ d' : Desktop count,
    Relation.ReflTransGen (fun a b : Desktop count => Returns walk g current a false b) d d' ∧
    Returns walk g current d' false d'

theorem returns_unique {walk : Walk} {g : VirtualDesktopGrid} {current id d d' : Nat} {wrap : Bool}
    (first : Returns walk g current id wrap d) (second : Returns walk g current id wrap d') : d = d' :=
  Option.some.inj (ends_unique first.2 second.2)

abbrev Cell (width height : Nat) := Fin width × Fin height

def Cell.point {width height : Nat} (c : Cell width height) : QPoint := ⟨(c.1 : Nat),(c.2 : Nat)⟩

theorem finRotate_val {n : Nat} (i : Fin n) : (finRotate n i : Nat) = if (i : Nat)+1 = n then 0 else (i : Nat)+1 := by
  cases n with
  | zero => exact i.elim0
  | succ n =>
    rw [coe_finRotate]
    simp only [Fin.ext_iff,Fin.val_last,Nat.add_right_cancel_iff]

theorem finRotate_symm_val {n : Nat} (i : Fin n) :
    ((finRotate n).symm i : Nat) = if (i : Nat) = 0 then n-1 else (i : Nat)-1 := by
  have value := finRotate_val ((finRotate n).symm i)
  rw [Equiv.apply_symm_apply] at value
  have bound := ((finRotate n).symm i).isLt
  split at value <;> split <;> omega

/-- What a direction does on the cells: unless it comes from the last cell and does not wrap around, it moves to the
    next cell; on the way to the last cell fewer cells remain with every step. -/
structure Steps {width height : Nat} (walk : Walk) (g : VirtualDesktopGrid) (move : Equiv.Perm (Cell width height))
    (remaining : Cell width height → Nat) : Prop where
  round : ∀ id wrap c, walk g id wrap (Cell.point c) =
    if remaining c = 0 ∧ ¬ wrap then .done (some id)
    else readCell g (Cell.point (move c))
  closer : ∀ c, remaining c ≠ 0 → remaining (move c) < remaining c

section
variable {width height : Nat} {g : VirtualDesktopGrid}

def rotateRows (width height : Nat) : Equiv.Perm (Cell width height) := Equiv.prodCongr (finRotate width) (Equiv.refl _)

def rotateColumns (width height : Nat) : Equiv.Perm (Cell width height) :=
  Equiv.prodCongr (Equiv.refl _) (finRotate height)

private theorem directionRound_cell {id : Nat} {wrap : Bool} {move : QPoint → QPoint} {beyond : QPoint → Bool}
    {start : QPoint → QPoint} {coords : QPoint} (last : Prop) [Decidable last] (next : QPoint) (border : beyond (move coords) ↔ last)
    (beyondLast : last → start (move coords) = next) (inside : ¬ last → move coords = next) :
    directionRound g id wrap move beyond start coords = if last ∧ ¬ wrap then .done (some id) else readCell g next := by
  have same : (if beyond (move coords) then start (move coords) else move coords) = next := by
    split
    · rename_i past; exact beyondLast (border.mp past)
    · rename_i before; exact inside (fun past => before (border.mpr past))
  simp only [directionRound,same]
  simp only [border]

theorem toRight_steps (columns : g.width = width) :
    Steps toRight g (rotateRows width height) (fun c => width-1-c.1) := by
  have moved : ∀ c : Cell width height,
      ((rotateRows width height c).1 : Nat) = if (c.1 : Nat)+1 = width then 0 else (c.1 : Nat)+1 :=
    fun c => finRotate_val c.1
  have row : ∀ c : Cell width height, (rotateRows width height c).2 = c.2 := fun _ => rfl
  constructor
  · intro id wrap c
    have bound := c.1.isLt
    have value := moved c
    unfold toRight
    refine directionRound_cell _ _ ?_ (fun last => ?_) (fun more => ?_)
    · rw [decide_eq_true_iff]
      simp only [Cell.point]
      omega
    · rw [if_pos (by omega)] at value
      simp only [Cell.point,value,row,Nat.cast_zero]
    · rw [if_neg (by omega)] at value
      simp only [Cell.point,value,row,Nat.cast_add,Nat.cast_one]
  · intro c more
    have value := moved c
    rw [if_neg (by omega)] at value
    omega

theorem toLeft_steps (columns : g.width = width) : Steps toLeft g (rotateRows width height)⁻¹ (fun c => c.1) := by
  have moved : ∀ c : Cell width height,
      (((rotateRows width height)⁻¹ c).1 : Nat) = if (c.1 : Nat) = 0 then width-1 else (c.1 : Nat)-1 :=
    fun c => finRotate_symm_val c.1
  have row : ∀ c : Cell width height, ((rotateRows width height)⁻¹ c).2 = c.2 := fun _ => rfl
  constructor
  · intro id wrap c
    have bound := c.1.isLt
    have value := moved c
    unfold toLeft
    refine directionRound_cell _ _ ?_ (fun last => ?_) (fun more => ?_)
    · rw [decide_eq_true_iff]
      simp only [Cell.point]
      omega
    · rw [if_pos last] at value
      simp only [Cell.point,value,row,columns]
      congr 1
      omega
    · rw [if_neg more] at value
      simp only [Cell.point,value,row]
      congr 1
      omega
  · intro c more
    have value := moved c
    rw [if_neg more] at value
    omega

theorem below_steps (rows : g.height = height) :
    Steps below g (rotateColumns width height) (fun c => height-1-c.2) := by
  have moved : ∀ c : Cell width height,
      ((rotateColumns width height c).2 : Nat) = if (c.2 : Nat)+1 = height then 0 else (c.2 : Nat)+1 :=
    fun c => finRotate_val c.2
  have column : ∀ c : Cell width height, (rotateColumns width height c).1 = c.1 := fun _ => rfl
  constructor
  · intro id wrap c
    have bound := c.2.isLt
    have value := moved c
    unfold below
    refine directionRound_cell _ _ ?_ (fun last => ?_) (fun more => ?_)
    · rw [decide_eq_true_iff]
      simp only [Cell.point]
      omega
    · rw [if_pos (by omega)] at value
      simp only [Cell.point,value,column,Nat.cast_zero]
    · rw [if_neg (by omega)] at value
      simp only [Cell.point,value,column,Nat.cast_add,Nat.cast_one]
  · intro c more
    have value := moved c
    rw [if_neg (by omega)] at value
    omega

theorem above_steps (rows : g.height = height) : Steps above g (rotateColumns width height)⁻¹ (fun c => c.2) := by
  have moved : ∀ c : Cell width height,
      (((rotateColumns width height)⁻¹ c).2 : Nat) = if (c.2 : Nat) = 0 then height-1 else (c.2 : Nat)-1 :=
    fun c => finRotate_symm_val c.2
  have column : ∀ c : Cell width height, ((rotateColumns width height)⁻¹ c).1 = c.1 := fun _ => rfl
  constructor
  · intro id wrap c
    have bound := c.2.isLt
    have value := moved c
    unfold above
    refine directionRound_cell _ _ ?_ (fun last => ?_) (fun more => ?_)
    · rw [decide_eq_true_iff]
      simp only [Cell.point]
      omega
    · rw [if_pos last] at value
      simp only [Cell.point,value,column,rows]
      congr 1
      omega
    · rw [if_neg more] at value
      simp only [Cell.point,value,column]
      congr 1
      omega
  · intro c more
    have value := moved c
    rw [if_neg more] at value
    omega

end

theorem toInt_small {n : Int} (low : -2^31 ≤ n) (high : n < 2^31) : toInt n = n :=
  Int.bmod_eq_of_le_mul_two (by omega) (by omega)

section
variable {width height count current : Nat} {orientation : Orientation} {g : VirtualDesktopGrid}

def cellDesktop (count : Nat) (orientation : Orientation) (c : Cell width height) : Nat :=
  desktopAt count (fillRank width height orientation c.1 c.2)

theorem atInt_cell (updated : update width height count orientation = some g) (small : width*height < 2^31)
    (c : Cell width height) : atInt g c.point = some (cellDesktop count orientation c) := by
  obtain ⟨rfl,rfl,cells⟩ := update_cell updated
  have inside := cell_lt c.1.isLt c.2.isLt
  have index : toInt (((c.2 : Nat) : Int)*g.width+((c.1 : Nat) : Int)) = ((c.2*g.width+c.1 : Nat) : Int) := by
    rw [toInt_small]
    · push_cast; rfl
    · have nonneg := Int.mul_nonneg (Int.natCast_nonneg c.2) (Int.natCast_nonneg g.width)
      omega
    · exact_mod_cast (by omega : c.2*g.width+c.1 < 2^31)
  have size : toInt ((g.width : Int)*g.height) = ((g.width*g.height : Nat) : Int) := by
    rw [toInt_small]
    · push_cast; rfl
    · have nonneg := Int.mul_nonneg (Int.natCast_nonneg g.width) (Int.natCast_nonneg g.height)
      omega
    · exact_mod_cast small
  have columns := c.1.isLt
  have rows := c.2.isLt
  have guard : ¬ (((c.2*g.width+c.1 : Nat) : Int) > ((g.width*g.height : Nat) : Int) ∨
      ((c.1 : Nat) : Int) ≥ (g.width : Int) ∨ ((c.2 : Nat) : Int) ≥ (g.height : Int)) := by omega
  have nonneg : ¬ ((c.2*g.width+c.1 : Nat) : Int) < 0 := by omega
  simp only [atInt,Cell.point,index,size,guard,nonneg,↓reduceIte,Int.toNat_natCast]
  exact cells c.1 c.2 columns rows

theorem exists_cell (updated : update width height count orientation = some g) (enough : count ≤ width*height)
    (d : Desktop count) : ∃ c : Cell width height, cellDesktop count orientation c = d ∧ g.gridCoords d = c.point := by
  obtain ⟨d,positive,counted⟩ := d
  obtain ⟨x,y,hx,hy,rank⟩ := fillRank_surjective orientation (show d-1 < width*height by omega)
  refine ⟨(⟨x,hx⟩,⟨y,hy⟩),?_,(gridCoords_update updated hx hy positive counted).mpr rank⟩
  exact (desktopAt_eq_iff positive).mpr ⟨rank,counted⟩

theorem cellDesktop_le (c : Cell width height) : cellDesktop count orientation c ≤ count := by
  unfold cellDesktop desktopAt
  split <;> omega

theorem gridCoords_cell (updated : update width height count orientation = some g) {c : Cell width height}
    (positive : 0 < cellDesktop count orientation c) : g.gridCoords (cellDesktop count orientation c) = c.point := by
  have rank := (desktopAt_eq_iff positive).mp (show desktopAt count (fillRank width height orientation c.1 c.2) = _ from rfl)
  exact (gridCoords_update updated c.1.isLt c.2.isLt positive rank.2).mpr rank.1

variable {walk : Walk} {move : Equiv.Perm (Cell width height)} {remaining : Cell width height → Nat}

theorem walk_wraps (steps : Steps walk g move remaining)
    (read : ∀ c : Cell width height, atInt g c.point = some (cellDesktop count orientation c)) (id : Nat)
    {c c' : Cell width height} (first : FirstReturn move (0 < cellDesktop count orientation ·) c c') :
    Ends (walk g id true) c.point (some (cellDesktop count orientation c')) := by
  obtain ⟨k,positive,rfl,there,empty⟩ := first
  have next : ∀ j, move ((move ^ j) c) = (move ^ (j+1)) c := fun j => by rw [pow_succ',Equiv.Perm.mul_apply]
  have round : ∀ j, walk g id true ((move ^ j) c).point = if 0 < cellDesktop count orientation ((move ^ (j+1)) c)
      then .done (some (cellDesktop count orientation ((move ^ (j+1)) c))) else .next ((move ^ (j+1)) c).point := by
    intro j
    rw [steps.round,if_neg (by simp),next,readCell,read]
  refine ends_visits (fun j => ((move ^ j) c).point) (k := k-1) (fun j before => ?_) (ends_done ?_)
  · exact (round j).trans (if_neg (empty (j+1) (by omega) (by omega)))
  · have last : k-1+1 = k := by omega
    rw [round,last,if_pos there]

theorem walk_stops (steps : Steps walk g move remaining)
    (read : ∀ c : Cell width height, atInt g c.point = some (cellDesktop count orientation c)) (id : Nat)
    (c : Cell width height) : Ends (walk g id false) c.point (some id) ∨
      ∃ c', 0 < cellDesktop count orientation c' ∧ remaining c' < remaining c ∧
        Ends (walk g id false) c.point (some (cellDesktop count orientation c')) := by
  induction left : remaining c using Nat.strongRecOn generalizing c with
  | _ n ih =>
    subst left
    by_cases last : remaining c = 0
    · exact .inl (ends_done (by rw [steps.round,if_pos ⟨last,by decide⟩]))
    · have nearer := steps.closer c last
      have round : walk g id false c.point = if 0 < cellDesktop count orientation (move c)
          then .done (some (cellDesktop count orientation (move c))) else .next (move c).point := by
        rw [steps.round,if_neg (fun both => last both.1),readCell,read]
      by_cases there : 0 < cellDesktop count orientation (move c)
      · rw [if_pos there] at round
        exact .inr ⟨move c,there,nearer,ends_done round⟩
      · rw [if_neg there] at round
        rcases ih _ nearer (move c) rfl with stays | ⟨c',found,less,ended⟩
        · exact .inl (ends_next round stays)
        · exact .inr ⟨c',found,by omega,ends_next round ended⟩

theorem returns_iff (updated : update width height count orientation = some g) {c : Cell width height} {wrap : Bool}
    {d : Nat} (positive : 0 < cellDesktop count orientation c) :
    Returns walk g current (cellDesktop count orientation c) wrap d ↔
      Ends (walk g (cellDesktop count orientation c) wrap) c.point (some d) := by
  simp only [Returns,show cellDesktop count orientation c ≠ 0 by omega,↓reduceIte]
  rw [gridCoords_cell updated positive]
  exact and_iff_right (Int.natCast_nonneg _)

theorem desktop_cases (updated : update width height count orientation = some g) (enough : count ≤ width*height)
    (d : Desktop count) : ∃ c : Cell width height, 0 < cellDesktop count orientation c ∧
      (d : Nat) = cellDesktop count orientation c := by
  obtain ⟨c,same,-⟩ := exists_cell updated enough d
  exact ⟨c,by rw [same]; exact d.2.1,same.symm⟩

/-- The desktop of a cell that is not empty. -/
def desktopOf (c : Cell width height) (positive : 0 < cellDesktop count orientation c) : Desktop count :=
  ⟨cellDesktop count orientation c,positive,cellDesktop_le c⟩

private theorem lands_of_steps (updated : update width height count orientation = some g)
    (small : width*height < 2^31) (enough : count ≤ width*height) (steps : Steps walk g move remaining)
    (wrap : Bool) (d : Desktop count) : ∃ d' : Desktop count, Returns walk g current d wrap d' := by
  obtain ⟨c,positive,same⟩ := desktop_cases updated enough d
  rw [same]
  cases wrap with
  | true =>
    obtain ⟨c',first⟩ := exists_firstReturn move (0 < cellDesktop count orientation ·) positive
    exact ⟨desktopOf c' first.there,
      (returns_iff updated positive).mpr (walk_wraps steps (atInt_cell updated small) _ first)⟩
  | false =>
    rcases walk_stops steps (atInt_cell updated small) (cellDesktop count orientation c) c with stays | ⟨c',there,-,ended⟩
    · exact ⟨desktopOf c positive,(returns_iff updated positive).mpr stays⟩
    · exact ⟨desktopOf c' there,(returns_iff updated positive).mpr ended⟩

private theorem returns_back {back : Walk} {remaining' : Cell width height → Nat}
    (updated : update width height count orientation = some g) (small : width*height < 2^31)
    (enough : count ≤ width*height) (steps : Steps walk g move remaining) (stepsBack : Steps back g move⁻¹ remaining')
    {a b : Desktop count} (goes : Returns walk g current a true b) : Returns back g current b true a := by
  obtain ⟨c,positive,same⟩ := desktop_cases updated enough a
  rw [same] at goes ⊢
  obtain ⟨c',first⟩ := exists_firstReturn move (0 < cellDesktop count orientation ·) positive
  have lands : Returns walk g current (cellDesktop count orientation c) true (cellDesktop count orientation c') :=
    (returns_iff updated positive).mpr (walk_wraps steps (atInt_cell updated small) _ first)
  rw [returns_unique goes lands]
  exact (returns_iff updated first.there).mpr
    (walk_wraps stepsBack (atInt_cell updated small) _ (first.symm positive))

private theorem perm_of_steps {back : Walk} {remaining' : Cell width height → Nat}
    (updated : update width height count orientation = some g) (small : width*height < 2^31)
    (enough : count ≤ width*height) (steps : Steps walk g move remaining) (stepsBack : Steps back g move⁻¹ remaining') :
    ∃ σ : Equiv.Perm (Desktop count), (∀ d : Desktop count, Returns walk g current d true (σ d)) ∧
      ∀ d : Desktop count, Returns back g current d true (σ.symm d) := by
  have stepsAgain : Steps walk g (move⁻¹)⁻¹ remaining := by rw [inv_inv]; exact steps
  refine exists_perm (R := fun a b : Desktop count => Returns walk g current a true b)
    (S := fun a b : Desktop count => Returns back g current a true b) ?_ ?_ ?_ ?_ ?_
  · exact lands_of_steps updated small enough steps true
  · exact lands_of_steps updated small enough stepsBack true
  · exact fun first second => Subtype.ext (returns_unique first second)
  · exact fun first second => Subtype.ext (returns_unique first second)
  · exact fun a b => ⟨returns_back updated small enough steps stepsBack,
      returns_back updated small enough stepsBack stepsAgain⟩

private theorem settles_of_steps (updated : update width height count orientation = some g)
    (small : width*height < 2^31) (enough : count ≤ width*height) (steps : Steps walk g move remaining)
    (d : Desktop count) : ∃ d' : Desktop count,
      Relation.ReflTransGen (fun a b : Desktop count => Returns walk g current a false b) d d' ∧
      Returns walk g current d' false d' := by
  obtain ⟨c,positive,same⟩ := desktop_cases updated enough d
  induction left : remaining c using Nat.strongRecOn generalizing c d with
  | _ n ih =>
    subst left
    rcases walk_stops steps (atInt_cell updated small) (cellDesktop count orientation c) c with
      stays | ⟨c',there,nearer,ended⟩
    · refine ⟨d,.refl,?_⟩
      rw [same]
      exact (returns_iff updated positive).mpr stays
    · obtain ⟨d',rest,settled⟩ := ih _ nearer (desktopOf c' there) c' there rfl rfl
      refine ⟨d',.head ?_ rest,settled⟩
      rw [same]
      exact (returns_iff updated positive).mpr ended

theorem navigates_of_small (updated : update width height count orientation = some g)
    (small : width*height < 2^31) (enough : count ≤ width*height) : Navigates g count current := by
  obtain ⟨columns,rows,-⟩ := update_cell updated
  have up : Steps above g (rotateColumns width height)⁻¹ _ := above_steps rows
  have right : Steps toRight g (rotateRows width height) _ := toRight_steps columns
  have down : Steps below g (rotateColumns width height) _ := below_steps rows
  have left : Steps toLeft g (rotateRows width height)⁻¹ _ := toLeft_steps columns
  constructor
  · intro walk member wrap d
    simp only [List.mem_cons,List.not_mem_nil,or_false] at member
    rcases member with rfl | rfl | rfl | rfl
    · exact lands_of_steps updated small enough up wrap d
    · exact lands_of_steps updated small enough right wrap d
    · exact lands_of_steps updated small enough down wrap d
    · exact lands_of_steps updated small enough left wrap d
  · exact perm_of_steps updated small enough right left
  · exact perm_of_steps updated small enough down up
  · intro walk member d
    simp only [List.mem_cons,List.not_mem_nil,or_false] at member
    rcases member with rfl | rfl | rfl | rfl
    · exact settles_of_steps updated small enough up d
    · exact settles_of_steps updated small enough right d
    · exact settles_of_steps updated small enough down d
    · exact settles_of_steps updated small enough left d

/-- When the size of the grid does not fit an `int`, the size that `at` compares
    with is negative, and the first row reads as empty. -/
theorem atInt_first_row (updated : update width height count orientation = some g) (columns : width < 2^31)
    (large : 2^31 ≤ width*height) {x : Nat} (hx : x < width) : atInt g ⟨x,0⟩ = some 0 := by
  have fits := (update_some_iff width height count orientation).mp ⟨g,updated⟩
  obtain ⟨rfl,rfl,-⟩ := update_cell updated
  have size : toInt ((g.width : Int)*g.height) < 0 := by
    have product : (g.width : Int)*g.height = ((g.width*g.height : Nat) : Int) := by push_cast; rfl
    rw [product,toInt,Int.bmod_def,if_neg (by omega)]
    omega
  have index : toInt (0*(g.width : Int)+x) = x := by
    rw [Int.zero_mul,Int.zero_add]
    exact toInt_small (by omega) (by omega)
  have guard : (x : Int) > toInt ((g.width : Int)*g.height) ∨ (x : Int) ≥ (g.width : Int) ∨ (0 : Int) ≥ (g.height : Int) :=
    .inl (by omega)
  simp only [atInt,index,guard,↓reduceIte]

theorem toRight_never_ends (updated : update width height count orientation = some g) (columns : width < 2^31)
    (large : 2^31 ≤ width*height) (positive : 1 ≤ count) (d : Nat) : ¬ Returns toRight g current 1 true d := by
  rintro ⟨-,ended⟩
  have width_pos : 0 < width := by
    rcases Nat.eq_zero_or_pos width with zero | positive
    · rw [zero,Nat.zero_mul] at large; omega
    · exact positive
  have height_pos : 0 < height := by
    rcases Nat.eq_zero_or_pos height with zero | positive
    · rw [zero,Nat.mul_zero] at large; omega
    · exact positive
  have first : fillRank width height orientation 0 0 = 0 := by
    cases orientation <;> simp [fillRank]
  have start : g.gridCoords 1 = ⟨(0 : Nat),(0 : Nat)⟩ :=
    (gridCoords_update updated width_pos height_pos (Nat.le_refl 1) positive).mpr first
  obtain ⟨sameWidth,-,-⟩ := update_cell updated
  rw [if_neg (by decide),start] at ended
  refine not_ends_of_invariant (fun s : QPoint => ∃ x : Nat, x < width ∧ s = ⟨x,0⟩) ?_ ⟨0,width_pos,rfl⟩ _ ended
  rintro _ ⟨x,hx,rfl⟩
  have next : ∃ x' : Nat, x' < width ∧
      (if (x : Int)+1 ≥ (g.width : Int) then (⟨0,0⟩ : QPoint) else ⟨(x : Int)+1,0⟩) = ⟨x',0⟩ := by
    split
    · exact ⟨0,width_pos,rfl⟩
    · exact ⟨x+1,by omega,by push_cast; rfl⟩
  obtain ⟨x',hx',same⟩ := next
  refine ⟨⟨x',0⟩,?_,x',hx',rfl⟩
  rw [toRight,directionRound_cell ((x : Int)+1 ≥ (g.width : Int)) ⟨x',0⟩ (by simp)
    (fun past => by rw [if_pos past] at same; exact same) (fun before => by rw [if_neg before] at same; exact same)]
  rw [if_neg (by simp),readCell,atInt_first_row updated columns large hx']
  rfl

end

/-- The directions do what they should in a grid that holds the desktops exactly
    when the grid has less than 2^31 cells. -/
theorem navigates_iff (width height count current : Nat) (orientation : Orientation) (g : VirtualDesktopGrid)
    (updated : update width height count orientation = some g) (columns : width < 2^31)
    (positive : 1 ≤ count) (enough : count ≤ width*height) : Navigates g count current ↔ width*height < 2^31 := by
  constructor
  · intro navigates
    by_contra large
    obtain ⟨d,returns⟩ := navigates.lands toRight (by simp) true ⟨1,Nat.le_refl 1,positive⟩
    exact toRight_never_ends updated columns (by omega) positive d returns
  · intro small
    exact navigates_of_small updated small enough

theorem navigates_iff_two_rows : Navigates ⟨3,2,[1,2,3,4,5,0]⟩ 5 1 ↔ 3*2 < 2^31 :=
  navigates_iff 3 2 5 1 .Horizontal _ (by decide) (by decide) (by decide) (by decide)

/-- With 65536 columns and 32768 rows, going to the right from the only desktop never ends. -/
theorem toRight_hangs : ∃ g, update 65536 32768 1 .Horizontal = some g ∧ ¬ Navigates g 1 1 := by
  obtain ⟨g,updated⟩ := (update_some_iff 65536 32768 1 .Horizontal).mpr (by decide)
  refine ⟨g,updated,fun navigates => ?_⟩
  obtain ⟨d,returns⟩ := navigates.lands toRight (by simp) true ⟨1,by decide⟩
  exact toRight_never_ends updated (by decide) (by decide) (by decide) d returns

end KdeWorkspace.DesktopNavigation
