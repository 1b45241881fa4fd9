import Mathlib.Data.Nat.Find
import KdeWorkspace.Loops
import KdeWorkspace.VirtualDesktops

/-!
The layout of the virtual desktops: how the manager makes a grid of the columns
and rows that the root window asks for (`setNETDesktopLayout`), and which layout
it publishes when it loads its settings (`load`).

The sides are unsigned 32-bit integers and the loop that enlarges the grid
compares the wrapped product with the number of desktops. It ends with a grid
that holds every desktop exactly when the requested sides are a `FittingLayout`
(`setNETDesktopLayout_iff`).
-/
namespace KdeWorkspace.DesktopLayouts
open Loops VirtualDesktops

/-- What `updateLayout` asks for: the layout on the root window, two rows when
    there is none or both of its sides are zero. -/
def updateLayout (rootInfo : Option (Orientation × Nat × Nat)) : Orientation × Nat × Nat :=
  let layout := rootInfo.getD (.Horizontal,0,0)
  if layout.2.1 = 0 ∧ layout.2.2 = 0 then (layout.1,layout.2.1,2) else layout

/-- `setNETDesktopLayout` up to its loop: the side that is not given follows from the other. -/
def givenSides (count width height : Nat) : Nat × Nat :=
  if width = 0 ∧ 0 < height then ((count+height-1) % 2^32/height,height)
  else if height = 0 ∧ 0 < width then (width,(count+width-1) % 2^32/width)
  else (width,height)

/-- One round of `while (width * height < m_count)`. -/
def growRound (orientation : Orientation) (count : Nat) (sides : Nat × Nat) : Round (Nat × Nat) (Nat × Nat) :=
  if (sides.1*sides.2) % 2^32 < count then
    match orientation with
    | .Horizontal => .next ((sides.1+1) % 2^32,sides.2)
    | .Vertical => .next (sides.1,(sides.2+1) % 2^32)
  else .done sides

/-- `setNETDesktopLayout` ends with the sides and updates the grid, which allocates `width * height` cells. -/
def setNETDesktopLayout (orientation : Orientation) (count width height : Nat) (sides : Nat × Nat) : Prop :=
  Ends (growRound orientation count) (givenSides count width height) sides

/-- The call ends, every cell that it writes lies in the array it allocates, and
    every desktop is in exactly one cell. -/
def HoldsDesktops (orientation : Orientation) (count width height : Nat) : Prop :=
  ∃ sides g, setNETDesktopLayout orientation count width height sides ∧
    (∀ x y, x < sides.1 → y < sides.2 → (y*sides.1+x) % 2^32 < (sides.1*sides.2) % 2^32) ∧
    update sides.1 sides.2 count orientation = some g ∧
    ∀ d, 1 ≤ d → d ≤ count → ∃! cell : Nat × Nat, cell.1 < sides.1 ∧ cell.2 < sides.2 ∧
      g.grid[cell.2*sides.1+cell.1]? = some d

/-- With the other side fixed, some length of the growing side makes a grid that
    holds the desktops and has less than 2^32 cells. -/
def RoomFor (count fixed : Nat) : Prop := count ≤ (2^32-1)/fixed*fixed

/-- The requested sides do not overflow. Of two sides that are given, the one that grows either starts with less than
    2^32 cells, or every length from it on wraps to a product that is too small, until the length itself wraps. A side
    that is not given is rounded up without overflow unless it grows. -/
def FittingLayout (orientation : Orientation) (count width height : Nat) : Prop :=
  match orientation with
  | .Horizontal =>
    if height = 0 then count+width ≤ 2^32
    else RoomFor count height ∧
      (width*height < 2^32 ∨ ∀ longer, width ≤ longer → longer < 2^32 → (longer*height) % 2^32 < count)
  | .Vertical =>
    if width = 0 then count+height ≤ 2^32
    else RoomFor count width ∧
      (width*height < 2^32 ∨ ∀ longer, height ≤ longer → longer < 2^32 → (longer*width) % 2^32 < count)

/-- The sides of a grid by the one that grows and the one that is fixed. -/
def sidesOf (orientation : Orientation) (grown fixed : Nat) : Nat × Nat :=
  match orientation with
  | .Horizontal => (grown,fixed)
  | .Vertical => (fixed,grown)

theorem sidesOf_area (orientation : Orientation) (grown fixed : Nat) :
    (sidesOf orientation grown fixed).1*(sidesOf orientation grown fixed).2 = grown*fixed := by
  cases orientation with
  | Horizontal => rfl
  | Vertical => exact Nat.mul_comm fixed grown

section
variable {orientation : Orientation} {count grown fixed : Nat}

theorem growRound_sidesOf (orientation : Orientation) (count grown fixed : Nat) :
    growRound orientation count (sidesOf orientation grown fixed) =
      if (grown*fixed) % 2^32 < count then .next (sidesOf orientation ((grown+1) % 2^32) fixed)
      else .done (sidesOf orientation grown fixed) := by
  unfold growRound
  rw [sidesOf_area]
  cases orientation <;> rfl

private theorem grow_past (orientation : Orientation) (count fixed longer : Nat) {r : Nat × Nat} (le : grown ≤ longer)
    (lt : longer < 2^32) (short : ∀ side, grown ≤ side → side < longer → (side*fixed) % 2^32 < count)
    (rest : Ends (growRound orientation count) (sidesOf orientation longer fixed) r) :
    Ends (growRound orientation count) (sidesOf orientation grown fixed) r := by
  have last : grown+(longer-grown) = longer := by omega
  refine ends_visits (fun j => sidesOf orientation (grown+j) fixed) (k := longer-grown) ?_ (by rw [last]; exact rest)
  intro j before
  rw [growRound_sidesOf,if_pos (short (grown+j) (by omega) (by omega)),Nat.mod_eq_of_lt (by omega)]
  rfl

private theorem grow_room (orientation : Orientation) (grown : Nat) (positive : 1 ≤ count) (small : grown*fixed < 2^32)
    (room : RoomFor count fixed) :
    ∃ longer, Ends (growRound orientation count) (sidesOf orientation grown fixed) (sidesOf orientation longer fixed) ∧
      longer*fixed < 2^32 := by
  have fixed_pos : 0 < fixed := by
    rcases Nat.eq_zero_or_pos fixed with zero | positive
    · rw [zero,RoomFor,Nat.mul_zero] at room; omega
    · exact positive
  have enough : ∃ side, grown ≤ side ∧ count ≤ side*fixed :=
    ⟨max grown ((2^32-1)/fixed),Nat.le_max_left ..,Nat.le_trans room (Nat.mul_le_mul_right _ (Nat.le_max_right ..))⟩
  obtain ⟨le,covers⟩ := Nat.find_spec enough
  have inside : Nat.find enough*fixed < 2^32 := by
    have least := Nat.find_min' enough
      ⟨Nat.le_max_left ..,Nat.le_trans room (Nat.mul_le_mul_right _ (Nat.le_max_right grown ((2^32-1)/fixed)))⟩
    rcases Nat.le_total grown ((2^32-1)/fixed) with before | after
    · rw [Nat.max_eq_right before] at least
      have bound := Nat.le_trans (Nat.mul_le_mul_right fixed least) (Nat.div_mul_le_self (2^32-1) fixed)
      omega
    · rw [Nat.max_eq_left after] at least
      exact Nat.lt_of_le_of_lt (Nat.mul_le_mul_right fixed least) small
  have lt : Nat.find enough < 2^32 := Nat.lt_of_le_of_lt (Nat.le_mul_of_pos_right _ fixed_pos) inside
  refine ⟨Nat.find enough,grow_past orientation count fixed _ le lt ?_ (ends_done ?_),inside⟩
  · intro side from_here before
    have short : ¬ count ≤ side*fixed := fun covers => Nat.find_min enough before ⟨from_here,covers⟩
    exact Nat.lt_of_le_of_lt (Nat.mod_le ..) (by omega)
  · rw [growRound_sidesOf,Nat.mod_eq_of_lt inside,if_neg (by omega)]

theorem grow_result {s r : Nat × Nat} (ended : Ends (growRound orientation count) s r) : count ≤ (r.1*r.2) % 2^32 := by
  refine ends_post (fun _ => True) (fun r => count ≤ (r.1*r.2) % 2^32) (fun _ _ _ _ => trivial) ?_ ended trivial
  intro s r _ leaves
  unfold growRound at leaves
  split at leaves
  · cases orientation <;> cases leaves
  · cases leaves; omega

theorem grow_fixed {r : Nat × Nat} (ended : Ends (growRound orientation count) (sidesOf orientation grown fixed) r) :
    ∃ longer, r = sidesOf orientation longer fixed := by
  refine ends_post (fun s => ∃ side, s = sidesOf orientation side fixed)
    (fun r => ∃ longer, r = sidesOf orientation longer fixed) ?_ ?_ ended ⟨grown,rfl⟩
  · rintro _ t ⟨side,rfl⟩ goes
    rw [growRound_sidesOf] at goes
    split at goes
    · cases goes; exact ⟨_,rfl⟩
    · cases goes
  · rintro _ r ⟨side,rfl⟩ leaves
    rw [growRound_sidesOf] at leaves
    split at leaves
    · cases leaves
    · cases leaves; exact ⟨_,rfl⟩

theorem grow_iff (positive : 1 ≤ count) (lt : grown < 2^32) :
    (∃ r, Ends (growRound orientation count) (sidesOf orientation grown fixed) r ∧ r.1*r.2 < 2^32) ↔
      RoomFor count fixed ∧ (grown*fixed < 2^32 ∨
        ∀ longer, grown ≤ longer → longer < 2^32 → (longer*fixed) % 2^32 < count) := by
  constructor
  · rintro ⟨r,ended,small⟩
    have enough := grow_result ended
    obtain ⟨longer,rfl⟩ := grow_fixed ended
    rw [sidesOf_area] at small enough
    rw [Nat.mod_eq_of_lt small] at enough
    refine ⟨?_,?_⟩
    · rcases Nat.eq_zero_or_pos fixed with zero | fixed_pos
      · rw [zero,Nat.mul_zero] at enough; omega
      · refine Nat.le_trans enough (Nat.mul_le_mul_right _ ?_)
        rw [Nat.le_div_iff_mul_le fixed_pos]
        omega
    · -- The first length with a large enough wrapped product would be the result.
      by_contra neither
      push Not at neither
      obtain ⟨large,stops⟩ := neither
      obtain ⟨le,below,covers⟩ := Nat.find_spec stops
      have first := grow_past orientation count fixed _ le below
        (fun side from_here before => by
          by_contra wrapped
          exact Nat.find_min stops before ⟨from_here,by omega,by omega⟩)
        (ends_done (by rw [growRound_sidesOf,if_neg (by omega)]))
      have same := congrArg (fun sides : Nat × Nat => sides.1*sides.2) (ends_unique ended first)
      simp only [sidesOf_area] at same
      have more := Nat.mul_le_mul_right fixed le
      omega
  · rintro ⟨room,fits | wraps⟩
    · obtain ⟨longer,ended,small⟩ := grow_room orientation grown positive fits room
      exact ⟨_,ended,by rw [sidesOf_area]; exact small⟩
    · -- Past the last length the side starts again from zero.
      obtain ⟨longer,ended,small⟩ := grow_room orientation 0 positive (by omega) room
      refine ⟨_,grow_past orientation count fixed (2^32-1) (by omega) (by omega) ?_ (ends_next ?_ ended),by rw [sidesOf_area]; exact small⟩
      · intro side from_here before
        exact wraps side from_here (by omega)
      · have zero : (2^32-1+1) % 2^32 = 0 := by omega
        rw [growRound_sidesOf,if_pos (wraps (2^32-1) (by omega) (by omega)),zero]

end

section
variable {orientation : Orientation} {count width height : Nat}

theorem holdsDesktops_iff : HoldsDesktops orientation count width height ↔
    ∃ sides, Ends (growRound orientation count) (givenSides count width height) sides ∧ sides.1*sides.2 < 2^32 := by
  constructor
  · rintro ⟨sides,g,ended,-,updated,-⟩
    exact ⟨sides,ended,(update_some_iff ..).mp ⟨g,updated⟩⟩
  · rintro ⟨sides,ended,small⟩
    have enough := grow_result ended
    rw [Nat.mod_eq_of_lt small] at enough
    obtain ⟨g,updated⟩ := (update_some_iff sides.1 sides.2 count orientation).mpr small
    obtain ⟨-,-,cells⟩ := update_cell updated
    refine ⟨sides,g,ended,?_,updated,?_⟩
    · intro x y hx hy
      have inside := cell_lt hx hy
      rwa [Nat.mod_eq_of_lt small,Nat.mod_eq_of_lt (by omega)]
    · intro d positive counted
      obtain ⟨x,y,hx,hy,rank⟩ := fillRank_surjective orientation (show d-1 < sides.1*sides.2 by omega)
      refine ⟨(x,y),⟨hx,hy,?_⟩,?_⟩
      · rw [cells x y hx hy,Option.some.injEq,desktopAt_eq_iff positive]
        exact ⟨rank,counted⟩
      · rintro ⟨x',y'⟩ ⟨hx',hy',there⟩
        rw [cells x' y' hx' hy',Option.some.injEq,desktopAt_eq_iff positive] at there
        obtain ⟨rfl,rfl⟩ := fillRank_injective hx' hy' hx hy (there.1.trans rank.symm)
        rfl

private theorem rounded_small (count given : Nat) : given*((count+given-1) % 2^32/given) < 2^32 :=
  Nat.lt_of_le_of_lt (Nat.mul_div_le ..) (Nat.mod_lt _ (by decide))

private theorem rounded_room {given : Nat} (positive : 1 ≤ count) (counted : count < 2^32) (given_pos : 0 < given) :
    RoomFor count ((count+given-1) % 2^32/given) ↔ count+given ≤ 2^32 := by
  by_cases fits : count+given ≤ 2^32
  · refine iff_of_true ?_ fits
    have covers : count ≤ given*((count+given-1)/given) := by
      have rest := Nat.div_add_mod (count+given-1) given
      have below := Nat.mod_lt (count+given-1) given_pos
      omega
    have small := rounded_small count given
    rw [Nat.mod_eq_of_lt (show count+given-1 < 2^32 by omega)] at small ⊢
    generalize (count+given-1)/given = side at covers small
    refine Nat.le_trans covers (Nat.mul_le_mul_right side ?_)
    have side_pos : 0 < side := by
      rcases Nat.eq_zero_or_pos side with zero | positive
      · rw [zero,Nat.mul_zero] at covers; omega
      · exact positive
    rw [Nat.le_div_iff_mul_le side_pos]
    omega
  · refine iff_of_false ?_ fits
    -- The sum wraps to less than the given side, and the other side becomes zero.
    have wrapped : (count+given-1) % 2^32/given = 0 := by
      refine Nat.div_eq_of_lt ?_
      rcases Nat.lt_or_ge given (2^32) with small | large
      · rw [Nat.mod_eq_sub_mod (by omega),Nat.mod_eq_of_lt (by omega)]
        omega
      · exact Nat.lt_of_lt_of_le (Nat.mod_lt _ (by decide)) large
    rw [wrapped,RoomFor,Nat.mul_zero]
    omega

/-- `setNETDesktopLayout` ends, writes inside the array and places every desktop
    once exactly when the requested sides fit. -/
theorem setNETDesktopLayout_iff (orientation : Orientation) (count width height : Nat) (positive : 1 ≤ count)
    (counted : count < 2^32) (columns : width < 2^32) (rows : height < 2^32) (given : ¬ (width = 0 ∧ height = 0)) :
    HoldsDesktops orientation count width height ↔ FittingLayout orientation count width height := by
  rw [holdsDesktops_iff]
  have side_lt : ∀ side, (count+side-1) % 2^32/side < 2^32 := fun side =>
    Nat.lt_of_le_of_lt (Nat.div_le_self ..) (Nat.mod_lt _ (by decide))
  cases orientation with
  | Horizontal =>
    by_cases noHeight : height = 0
    · have sides : givenSides count width height = sidesOf .Horizontal width ((count+width-1) % 2^32/width) := by
        simp only [givenSides,sidesOf]
        rw [if_neg (by omega),if_pos (by omega)]
      rw [sides,grow_iff positive columns,FittingLayout,if_pos noHeight,rounded_room positive counted (by omega)]
      exact and_iff_left (.inl (rounded_small count width))
    · by_cases noWidth : width = 0
      · have sides : givenSides count width height = sidesOf .Horizontal ((count+height-1) % 2^32/height) height := by
          simp only [givenSides,sidesOf]
          rw [if_pos (by omega)]
        have small := rounded_small count height
        rw [Nat.mul_comm] at small
        rw [sides,grow_iff positive (side_lt height),FittingLayout,if_neg noHeight,noWidth]
        exact and_congr_right (fun _ => iff_of_true (.inl small) (.inl (by omega)))
      · have sides : givenSides count width height = sidesOf .Horizontal width height := by
          simp only [givenSides,sidesOf]
          rw [if_neg (by omega),if_neg (by omega)]
        rw [sides,grow_iff positive columns,FittingLayout,if_neg noHeight]
  | Vertical =>
    by_cases noWidth : width = 0
    · have sides : givenSides count width height = sidesOf .Vertical height ((count+height-1) % 2^32/height) := by
        simp only [givenSides,sidesOf]
        rw [if_pos (by omega)]
      rw [sides,grow_iff positive rows,FittingLayout,if_pos noWidth,rounded_room positive counted (by omega)]
      exact and_iff_left (.inl (rounded_small count height))
    · by_cases noHeight : height = 0
      · have sides : givenSides count width height = sidesOf .Vertical ((count+width-1) % 2^32/width) width := by
          simp only [givenSides,sidesOf]
          rw [if_neg (by omega),if_pos (by omega)]
        have small := rounded_small count width
        rw [Nat.mul_comm] at small
        rw [sides,grow_iff positive (side_lt width),FittingLayout,if_neg noWidth,noHeight]
        exact and_congr_right (fun _ => iff_of_true (.inl small) (.inl (by omega)))
      · have sides : givenSides count width height = sidesOf .Vertical height width := by
          simp only [givenSides,sidesOf]
          rw [if_neg (by omega),if_neg (by omega)]
        rw [sides,grow_iff positive rows,FittingLayout,if_neg noWidth,Nat.mul_comm height]

end

theorem setNETDesktopLayout_iff_two_rows : HoldsDesktops .Horizontal 4 0 2 ↔ FittingLayout .Horizontal 4 0 2 :=
  setNETDesktopLayout_iff .Horizontal 4 0 2 (by decide) (by decide) (by decide) (by decide) (by decide)

/-- With 65536 columns and 65537 rows the product wraps to 65536: the loop ends
    at once and the grid is larger than its array. -/
theorem setNETDesktopLayout_overflow : ¬ HoldsDesktops .Horizontal 4 65536 65537 := by
  rw [holdsDesktops_iff]
  rintro ⟨sides,ended,small⟩
  have stops : growRound .Horizontal 4 (65536,65537) = .done (65536,65537) := rfl
  have same := ends_unique ended (ends_done stops)
  subst same
  exact absurd small (by decide)

/-- How `load` leaves its layout: not published, because there is no configuration or no root window or the loop over
    the names never leaves the last integer; a division by zero; or published. -/
inductive LoadedLayout
  | unpublished
  | dividedByZero
  | published (columns rows : Int)
deriving Repr, DecidableEq

/-- `load` up to the layout, with the entries `Number` and `Rows` of the configuration. `clamp` is `std::clamp`, which
    promises nothing when its lower bound is above the upper one. -/
def load (clamp : Int → Int → Int → Int) (config : Option (Int × Int)) (rootInfo : Bool)
    (m : VirtualDesktopManager) : VirtualDesktopManager × LoadedLayout :=
  match config with
  | none => (m,.unpublished)
  | some (n,rows) =>
    let m := (m.setCount (n % 2^32).toNat).1
    if rootInfo then
      -- The loop over the names goes on while `i <= n`, which holds of every integer.
      if n = 2^31-1 then (m,.unpublished)
      else
        let rows := clamp rows 1 n
        if rows = 0 then (m,.dividedByZero)
        else
          let columns := n.tdiv rows
          let columns := if n.tmod rows > 0 then columns+1 else columns
          (m,.published columns rows)
    else (m,.unpublished)

/-- There is no division by zero, and a published layout has a cell for every
    desktop and a desktop in every row when it is filled row by row. -/
def LoadedLayout.Fills (count : Nat) : LoadedLayout → Prop
  | .unpublished => True
  | .dividedByZero => False
  | .published columns rows => (count : Int) ≤ columns*rows ∧ ∀ y : Nat, (y : Int) < rows →
      ∃ x : Nat, (x : Int) < columns ∧ desktopAt count (fillRank columns.toNat rows.toNat .Horizontal x y) ≠ 0

/-- What `load` publishes fills its rows: nothing is published, or there is a number of desktops and, with the rows
    limited to it, some number of columns holds them all and leaves one of the counted desktops for the last row. -/
def FillsRows (config : Option (Int × Int)) (rootInfo : Bool) : Prop :=
  match config with
  | none => True
  | some (n,rows) => rootInfo = false ∨ n = 2^31-1 ∨
      (1 ≤ n ∧ ∃ columns, n ≤ max 1 (min rows n)*columns ∧
        (max 1 (min rows n)-1)*columns < min n VirtualDesktopManager.maximum)

theorem setCount_count (m : VirtualDesktopManager) (count : Nat) :
    (m.setCount count).1.count = VirtualDesktopManager.clampCount count := by
  unfold VirtualDesktopManager.setCount
  dsimp only
  split
  · rename_i same; exact same.symm
  · split
    · unfold VirtualDesktopManager.handleDesktopsRemoved VirtualDesktopManager.setCurrent
      dsimp only
      split
      · split <;> rfl
      · rfl
    · rfl

/-- The number of columns that `load` computes is the least that is enough for the rows. -/
private theorem columns_least {n rows : Int} (rows_pos : 1 ≤ rows) (n_pos : 1 ≤ n) :
    n ≤ rows*(if n.tmod rows > 0 then n.tdiv rows+1 else n.tdiv rows) ∧
    ∀ columns, n ≤ rows*columns → (if n.tmod rows > 0 then n.tdiv rows+1 else n.tdiv rows) ≤ columns := by
  have parts := Int.mul_tdiv_add_tmod n rows
  have rest_nonneg := Int.tmod_nonneg rows (show 0 ≤ n by omega)
  have rest_lt := Int.tmod_lt_of_pos n (show 0 < rows by omega)
  generalize n.tdiv rows = q at *
  generalize n.tmod rows = rest at *
  split
  · refine ⟨by rw [Int.mul_add,Int.mul_one]; omega,fun columns enough => ?_⟩
    by_contra less
    have bound := Int.mul_le_mul_of_nonneg_left (show columns ≤ q by omega) (show 0 ≤ rows by omega)
    omega
  · refine ⟨by omega,fun columns enough => ?_⟩
    by_contra less
    have bound := Int.mul_le_mul_of_nonneg_left (show columns ≤ q-1 by omega) (show 0 ≤ rows by omega)
    rw [Int.mul_sub,Int.mul_one] at bound
    omega

private theorem no_cells {n : Int} (rows : Int) (noDesktops : n ≤ 0) :
    (if n.tmod rows > 0 then n.tdiv rows+1 else n.tdiv rows)*rows ≤ 0 := by
  have parts := Int.tmod_add_tdiv_mul n rows
  have size := Int.natAbs_tmod n rows
  have le := Nat.mod_le n.natAbs rows.natAbs
  have negative := Int.tmod_nonneg rows (show 0 ≤ -n by omega)
  rw [Int.neg_tmod] at negative
  rw [if_neg (by omega)]
  omega

private theorem rows_used {count : Nat} {columns rows : Int} (columns_pos : 1 ≤ columns) (rows_pos : 1 ≤ rows) :
    (∀ y : Nat, (y : Int) < rows → ∃ x : Nat, (x : Int) < columns ∧
      desktopAt count (fillRank columns.toNat rows.toNat .Horizontal x y) ≠ 0) ↔ (rows-1)*columns < count := by
  obtain ⟨width,rfl⟩ := Int.eq_ofNat_of_zero_le (show 0 ≤ columns by omega)
  obtain ⟨height,rfl⟩ := Int.eq_ofNat_of_zero_le (show 0 ≤ rows by omega)
  have used : ∀ rank, desktopAt count rank ≠ 0 ↔ rank < count := by
    intro rank
    unfold desktopAt
    split <;> omega
  simp only [used,fillRank,Int.toNat_natCast]
  have last : ((height : Int)-1)*width = ((height-1)*width : Nat) := by
    have before : ((height-1 : Nat) : Int) = (height : Int)-1 := by omega
    rw [Int.natCast_mul,before]
  rw [last,Int.ofNat_lt]
  constructor
  · intro rows
    obtain ⟨x,-,inside⟩ := rows (height-1) (by omega)
    omega
  · intro inside y hy
    refine ⟨0,by omega,?_⟩
    have rows := Nat.mul_le_mul_right width (show y ≤ height-1 by omega)
    omega

/-- `load` divides by zero or publishes a layout that leaves a row unused exactly
    when the settings do not fill the rows. -/
theorem load_fills_iff (clamp : Int → Int → Int → Int)
    (clamped : ∀ v lo hi, lo ≤ hi → clamp v lo hi = max lo (min v hi)) (config : Option (Int × Int)) (rootInfo : Bool)
    (m : VirtualDesktopManager) (int : ∀ n rows, config = some (n,rows) → -2^31 ≤ n ∧ n < 2^31) :
    (load clamp config rootInfo m).2.Fills (load clamp config rootInfo m).1.count ↔ FillsRows config rootInfo := by
  match config, rootInfo with
  | none, _ => exact iff_of_true trivial trivial
  | some (n,rows), false => exact iff_of_true trivial (.inl rfl)
  | some (n,rows), true =>
    obtain ⟨low,high⟩ := int n rows rfl
    by_cases last : n = 2^31-1
    · simp only [load,FillsRows,last,↓reduceIte,LoadedLayout.Fills,Bool.true_eq_false,false_or,true_or]
    · have count := setCount_count m (n % 2^32).toNat
      simp only [load,FillsRows,last,↓reduceIte,Bool.true_eq_false,false_or]
      by_cases noDesktops : n ≤ 0
      · refine iff_of_false ?_ (by omega)
        split
        · exact not_false
        · rintro ⟨covers,-⟩
          have cells := no_cells (clamp rows 1 n) noDesktops
          have positive := VirtualDesktopManager.clampCount_pos (n % 2^32).toNat
          rw [count] at covers
          omega
      · rw [clamped rows 1 n (by omega)]
        have limited : VirtualDesktopManager.clampCount (n % 2^32).toNat = min n VirtualDesktopManager.maximum := by
          have same : n % 2^32 = n := Int.emod_eq_of_lt (by omega) (by omega)
          rw [same]
          unfold VirtualDesktopManager.clampCount VirtualDesktopManager.maximum
          split
          · omega
          · split <;> omega
        have rows_pos : 1 ≤ max 1 (min rows n) := by omega
        generalize max 1 (min rows n) = limitedRows at *
        obtain ⟨covers,least⟩ := columns_least rows_pos (show 1 ≤ n by omega)
        have columns_pos : 1 ≤ (if n.tmod limitedRows > 0 then n.tdiv limitedRows+1 else n.tdiv limitedRows) := by
          by_contra none
          have bound := Int.mul_le_mul_of_nonneg_left
            (show (if n.tmod limitedRows > 0 then n.tdiv limitedRows+1 else n.tdiv limitedRows) ≤ 0 by omega)
            (show 0 ≤ limitedRows by omega)
          omega
        rw [if_neg (by omega)]
        simp only [LoadedLayout.Fills]
        generalize (if n.tmod limitedRows > 0 then n.tdiv limitedRows+1 else n.tdiv limitedRows) = columns at *
        rw [rows_used columns_pos rows_pos,count,limited]
        constructor
        · rintro ⟨-,inside⟩
          exact ⟨by omega,columns,covers,inside⟩
        · rintro ⟨-,fewer,enough,inside⟩
          have bound := Int.mul_le_mul_of_nonneg_left (least fewer enough) (show 0 ≤ limitedRows-1 by omega)
          rw [Int.mul_comm columns]
          omega

theorem load_fills_iff_two_rows :
    let clamp := fun v lo hi : Int => max lo (min v hi)
    (load clamp (some (4,2)) true .fresh).2.Fills (load clamp (some (4,2)) true .fresh).1.count ↔
      FillsRows (some (4,2)) true :=
  load_fills_iff _ (fun _ _ _ _ => rfl) (some (4,2)) true .fresh (by rintro n rows ⟨⟩; decide)

/-- Three rows for four desktops: two columns are published, and the last row is unused. -/
theorem load_unused_row : let clamp := fun v lo hi : Int => max lo (min v hi)
    load clamp (some (4,3)) true .fresh = (⟨0,4⟩,.published 2 3) ∧
    ¬ (load clamp (some (4,3)) true .fresh).2.Fills (load clamp (some (4,3)) true .fresh).1.count := by
  refine ⟨by decide,?_⟩
  have published : load (fun v lo hi : Int => max lo (min v hi)) (some (4,3)) true .fresh = (⟨0,4⟩,.published 2 3) := by
    decide
  rw [published]
  rintro ⟨-,rows⟩
  obtain ⟨x,-,used⟩ := rows 2 (by decide)
  exact used (if_neg (by simp only [fillRank]; omega))

end KdeWorkspace.DesktopLayouts
