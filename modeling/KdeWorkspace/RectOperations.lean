import KdeWorkspace.Geometry
import KdeWorkspace.Lists

/-!
The set operations on rectangles, for rectangles whose sides may be crossed.

A rectangle with a negative width or height is taken as the one between its
sides, in either order. So an intersection holds the points that the two
rectangles have in common once their sides are uncrossed (`contains_intersected`),
and its own sides are not crossed (`normalized_intersected`).
-/
namespace KdeWorkspace.RectOperations
open KdeWorkspace.Geometry

/-- `QRect()`. -/
def nullRect : QRect := ⟨0,0,-1,-1⟩

def isNull (r : QRect) : Bool := decide (r.x2 = r.x1-1 ∧ r.y2 = r.y1-1)

/-- The lower end of a range whose ends may be crossed. -/
def lower (a b : Int) : Int := if b-a+1 < 0 then b else a

def upper (a b : Int) : Int := if b-a+1 < 0 then a else b

def normalized (r : QRect) : QRect := ⟨lower r.x1 r.x2,lower r.y1 r.y2,upper r.x1 r.x2,upper r.y1 r.y2⟩

/-- A side is further than the one opposite it. -/
def Crossed (r : QRect) : Prop := r.width < 0 ∨ r.height < 0

instance (r : QRect) : Decidable (Crossed r) := inferInstanceAs (Decidable (_ ∨ _))

def intersects (r s : QRect) : Bool :=
  if isNull r || isNull s then false
  else
    let r := normalized r
    let s := normalized s
    if r.x1 > s.x2 ∨ s.x1 > r.x2 then false
    else if r.y1 > s.y2 ∨ s.y1 > r.y2 then false
    else true

def intersected (r s : QRect) : QRect :=
  if isNull r || isNull s then nullRect
  else
    let r := normalized r
    let s := normalized s
    if r.x1 > s.x2 ∨ s.x1 > r.x2 then nullRect
    else if r.y1 > s.y2 ∨ s.y1 > r.y2 then nullRect
    else ⟨max r.x1 s.x1,max r.y1 s.y1,min r.x2 s.x2,min r.y2 s.y2⟩

def united (r s : QRect) : QRect :=
  if isNull r then s
  else if isNull s then r
  else
    let r := normalized r
    let s := normalized s
    ⟨min r.x1 s.x1,min r.y1 s.y1,max r.x2 s.x2,max r.y2 s.y2⟩

section
variable {r s : QRect} {p : QPoint}

theorem contains_iff : r.contains p = true ↔ r.x1 ≤ p.x ∧ p.x ≤ r.x2 ∧ r.y1 ≤ p.y ∧ p.y ≤ r.y2 := decide_eq_true_iff

theorem nullRect_contains (p : QPoint) : ¬ nullRect.contains p = true := by
  rw [contains_iff]
  simp only [nullRect]
  omega

theorem lower_le_upper (a b : Int) : lower a b ≤ upper a b+1 := by
  unfold lower upper
  split <;> omega

theorem normalized_of_not_crossed (straight : ¬ Crossed r) : normalized r = r := by
  obtain ⟨wide,tall⟩ := not_or.mp straight
  simp only [QRect.width,QRect.height] at wide tall
  simp only [normalized,lower,upper]
  rw [if_neg (by omega),if_neg (by omega),if_neg (by omega),if_neg (by omega)]

theorem not_crossed_of_contains (inside : r.contains p = true) : ¬ Crossed r := by
  rw [contains_iff] at inside
  simp only [Crossed,QRect.width,QRect.height]
  omega

theorem isNull_not_contains (null : isNull r = true) : ¬ (normalized r).contains p = true := by
  obtain ⟨columns,rows⟩ := of_decide_eq_true null
  rw [contains_iff]
  simp only [normalized,lower,upper]
  rw [if_neg (by omega),if_neg (by omega)]
  omega

theorem intersects_of_common (left : r.contains p = true) (right : s.contains p = true) : intersects r s = true := by
  have normalR := normalized_of_not_crossed (not_crossed_of_contains left)
  have normalS := normalized_of_not_crossed (not_crossed_of_contains right)
  have notNullR : isNull r = false := by
    cases null : isNull r with
    | false => rfl
    | true => exact absurd (normalR ▸ left) (isNull_not_contains null)
  have notNullS : isNull s = false := by
    cases null : isNull s with
    | false => rfl
    | true => exact absurd (normalS ▸ right) (isNull_not_contains null)
  rw [contains_iff] at left right
  simp only [intersects,notNullR,notNullS,normalR,normalS,Bool.or_self,Bool.false_eq_true,if_false]
  rw [if_neg (by omega),if_neg (by omega)]

theorem contains_intersected :
    (intersected r s).contains p = true ↔ (normalized r).contains p = true ∧ (normalized s).contains p = true := by
  unfold intersected
  by_cases null : (isNull r || isNull s) = true
  · rw [if_pos null]
    refine iff_of_false (nullRect_contains p) ?_
    rintro ⟨left,right⟩
    rcases Bool.or_eq_true_iff.mp null with here | here
    · exact isNull_not_contains here left
    · exact isNull_not_contains here right
  · rw [if_neg null]
    generalize normalized r = r'
    generalize normalized s = s'
    simp only
    by_cases columns : r'.x1 > s'.x2 ∨ s'.x1 > r'.x2
    · rw [if_pos columns]
      refine iff_of_false (nullRect_contains p) ?_
      rw [contains_iff,contains_iff]
      omega
    · rw [if_neg columns]
      by_cases rows : r'.y1 > s'.y2 ∨ s'.y1 > r'.y2
      · rw [if_pos rows]
        refine iff_of_false (nullRect_contains p) ?_
        rw [contains_iff,contains_iff]
        omega
      · rw [if_neg rows,contains_iff,contains_iff,contains_iff]
        simp only
        omega

theorem normalized_intersected (r s : QRect) : normalized (intersected r s) = intersected r s := by
  apply normalized_of_not_crossed
  have columnsR : (normalized r).x1 ≤ (normalized r).x2+1 := lower_le_upper r.x1 r.x2
  have rowsR : (normalized r).y1 ≤ (normalized r).y2+1 := lower_le_upper r.y1 r.y2
  have columnsS : (normalized s).x1 ≤ (normalized s).x2+1 := lower_le_upper s.x1 s.x2
  have rowsS : (normalized s).y1 ≤ (normalized s).y2+1 := lower_le_upper s.y1 s.y2
  unfold intersected
  by_cases null : (isNull r || isNull s) = true
  · rw [if_pos null]
    decide
  · rw [if_neg null]
    generalize normalized r = r' at *
    generalize normalized s = s' at *
    simp only
    by_cases columns : r'.x1 > s'.x2 ∨ s'.x1 > r'.x2
    · rw [if_pos columns]
      decide
    · rw [if_neg columns]
      by_cases rows : r'.y1 > s'.y2 ∨ s'.y1 > r'.y2
      · rw [if_pos rows]
        decide
      · rw [if_neg rows]
        simp only [Crossed,QRect.width,QRect.height]
        omega

theorem contains_foldl_intersected {α : Type} (cut : α → QRect) (list : List α) (start : QRect) :
    (normalized (list.foldl (fun (area : QRect) (a : α) => intersected area (cut a)) start)).contains p = true ↔
      (normalized start).contains p = true ∧ ∀ a ∈ list, (normalized (cut a)).contains p = true := by
  induction list generalizing start with
  | nil => simp
  | cons a rest ih =>
    rw [List.foldl_cons,ih,normalized_intersected,contains_intersected,List.forall_mem_cons,and_assoc]

theorem normalized_foldl_intersected {α : Type} (cut : α → QRect) (list : List α) {start : QRect}
    (straight : normalized start = start) :
    normalized (list.foldl (fun (area : QRect) (a : α) => intersected area (cut a)) start) =
      list.foldl (fun (area : QRect) (a : α) => intersected area (cut a)) start := by
  induction list generalizing start with
  | nil => exact straight
  | cons a rest ih => exact ih (normalized_intersected start (cut a))

/-- One rectangle lies within another. -/
def Within (r s : QRect) : Prop := s.x1 ≤ r.x1 ∧ r.x2 ≤ s.x2 ∧ s.y1 ≤ r.y1 ∧ r.y2 ≤ s.y2

theorem isNull_of_valid (valid : r.isValid = true) : isNull r = false := by
  have sides := of_decide_eq_true valid
  exact decide_eq_false (by omega)

theorem normalized_of_valid (valid : r.isValid = true) : normalized r = r := by
  have sides := of_decide_eq_true valid
  refine normalized_of_not_crossed ?_
  simp only [Crossed,QRect.width,QRect.height]
  omega

theorem united_of_valid (validR : r.isValid = true) (validS : s.isValid = true) :
    united r s = ⟨min r.x1 s.x1,min r.y1 s.y1,max r.x2 s.x2,max r.y2 s.y2⟩ := by
  unfold united
  rw [isNull_of_valid validR,isNull_of_valid validS,normalized_of_valid validR,normalized_of_valid validS]
  rfl

theorem foldl_united_eq {list : List QRect} {area : QRect} (valid : ∀ r ∈ list, r.isValid = true)
    (within : ∀ r ∈ list, Within r area) (first : ∃ r ∈ list, r.contains ⟨area.x1,area.y1⟩ = true)
    (last : ∃ r ∈ list, r.contains ⟨area.x2,area.y2⟩ = true) : list.foldl united nullRect = area := by
  let Safe (b : QRect) : Prop := b = nullRect ∨ (b.isValid = true ∧ Within b area)
  let Holds (a b : QRect) : Prop := b.isValid = true ∧ Within a b
  have start : Safe nullRect := .inl rfl
  have step (b a : QRect) (member : a ∈ list) (safe : Safe b) : Safe (united b a) ∧ Holds a (united b a) := by
    have validA := valid a member
    have withinA := within a member
    rcases safe with rfl | ⟨validB,withinB⟩
    · have only : united nullRect a = a := rfl
      rw [only]
      exact ⟨.inr ⟨validA,withinA⟩,validA,by simp only [Within]; omega⟩
    · rw [united_of_valid validB validA]
      have sides := of_decide_eq_true validB
      have validU : (⟨min b.x1 a.x1,min b.y1 a.y1,max b.x2 a.x2,max b.y2 a.y2⟩ : QRect).isValid = true :=
        decide_eq_true (by simp only; omega)
      simp only [Within] at withinA withinB
      exact ⟨.inr ⟨validU,by simp only [Within]; omega⟩,validU,by simp only [Within]; omega⟩
  have keeps (b a later : QRect) (member : later ∈ list) (safe : Safe b) (holds : Holds a b) : Holds a (united b later) := by
    obtain ⟨validB,inside⟩ := holds
    have validL := valid later member
    have goes := (step b later member safe).2.1
    rw [united_of_valid validB validL] at goes ⊢
    simp only [Within] at inside
    exact ⟨goes,by simp only [Within]; omega⟩
  obtain ⟨safe,holds⟩ := Lists.foldl_establishes (P := Safe) (Q := Holds) list
    (fun b a member safe => (step b a member safe).1) (fun b a member safe => (step b a member safe).2) keeps start
  obtain ⟨r,memberR,corner⟩ := first
  obtain ⟨r',memberR',corner'⟩ := last
  obtain ⟨validB,withinR⟩ := holds r memberR
  obtain ⟨_,withinR'⟩ := holds r' memberR'
  generalize list.foldl united nullRect = b at *
  rw [contains_iff] at corner corner'
  rcases safe with rfl | ⟨_,withinB⟩
  · cases validB
  · simp only [Within] at withinR withinR' withinB
    obtain ⟨a1,a2,a3,a4⟩ := area
    obtain ⟨b1,b2,b3,b4⟩ := b
    simp only [QRect.mk.injEq] at *
    omega

end
end KdeWorkspace.RectOperations
