import Mathlib.Data.Finset.Basic

/-!
Sets that are shared through pointers: every member of a collection points to a set, and where two members are joined,
the set of the second is put into that of the first and freed, and only the second member's pointer is changed.

That is right as long as nobody else points to a set that is freed (`shares_unite`); otherwise a pointer is left that
dangles for ever (`dangling_unite`).
-/
namespace KdeWorkspace.SharedSets
open List
open Or (inr inl)
open Function (update_of_ne update_self update)
open Option (bind_some bind_eq_bind)
set_option linter.unusedSectionVars false
variable {α : Type}

/-- Connected by some pairs. -/
abbrev Joined (pairs : List (α × α)) : α → α → Prop := Relation.EqvGen fun x y => (x,y) ∈ pairs

theorem Joined.mono {pairs more : List (α × α)} (sub : pairs ⊆ more) {x y : α} (joined : Joined pairs x y) :
    Joined more x y :=
  Relation.EqvGen.mono (fun _ _ there => sub there) x y joined

theorem joined_nil {x y : α} : Joined [] x y ↔ x = y := by
  constructor
  · intro joined
    induction joined with
    | rel x y there => exact absurd there not_mem_nil
    | refl x => rfl
    | symm x y _ same => exact same.symm
    | trans x y z _ _ first second => exact first.trans second
  · rintro rfl
    exact .refl x

theorem joined_snoc {pairs : List (α × α)} {p c x y : α} :
    Joined (pairs ++ [(p,c)]) x y ↔
      Joined pairs x y ∨ (Joined pairs x p ∧ Joined pairs c y) ∨ (Joined pairs x c ∧ Joined pairs p y) := by
  constructor
  · intro joined
    induction joined with
    | rel x y there =>
      rcases mem_append.mp there with before | here
      · exact inl (.rel _ _ before)
      · obtain ⟨rfl,rfl⟩ := Prod.mk.injEq .. ▸ mem_singleton.mp here
        exact inr (inl ⟨.refl _,.refl _⟩)
    | refl x => exact inl (.refl x)
    | symm x y _ ih =>
      rcases ih with before | ⟨left,right⟩ | ⟨left,right⟩
      · exact inl before.symm
      · exact inr (inr ⟨right.symm,left.symm⟩)
      · exact inr (inl ⟨right.symm,left.symm⟩)
    | trans x y z _ _ first second =>
      rcases first with before | ⟨left,right⟩ | ⟨left,right⟩ <;>
        rcases second with after | ⟨left',right'⟩ | ⟨left',right'⟩
      · exact inl (before.trans _ _ _ after)
      · exact inr (inl ⟨before.trans _ _ _ left',right'⟩)
      · exact inr (inr ⟨before.trans _ _ _ left',right'⟩)
      · exact inr (inl ⟨left,right.trans _ _ _ after⟩)
      · exact inr (inl ⟨left,right'⟩)
      · exact inl (left.trans _ _ _ right')
      · exact inr (inr ⟨left,right.trans _ _ _ after⟩)
      · exact inl (left.trans _ _ _ right')
      · exact inr (inr ⟨left,right'⟩)
  · have grown : ∀ {x y}, Joined pairs x y → Joined (pairs ++ [(p,c)]) x y :=
      fun joined => Joined.mono (subset_append_left _ _) joined
    have here : Joined (pairs ++ [(p,c)]) p c := .rel _ _ (mem_append_right _ (mem_singleton_self _))
    rintro (before | ⟨left,right⟩ | ⟨left,right⟩)
    · exact grown before
    · exact ((grown left).trans _ _ _ here).trans _ _ _ (grown right)
    · exact ((grown left).trans _ _ _ here.symm).trans _ _ _ (grown right)

theorem joined_snoc_of_joined {pairs : List (α × α)} {p c x y : α} (already : Joined pairs p c) :
    Joined (pairs ++ [(p,c)]) x y ↔ Joined pairs x y := by
  rw [joined_snoc]
  constructor
  · rintro (before | ⟨left,right⟩ | ⟨left,right⟩)
    · exact before
    · exact (left.trans _ _ _ already).trans _ _ _ right
    · exact (left.trans _ _ _ already.symm).trans _ _ _ right
  · exact inl

variable [DecidableEq α]

/-- The pointers of the members, and the sets that are not freed. -/
structure Sets (α : Type) where
  partitions : α → Option Nat
  sets : Nat → Option (Finset α)

/-- A set of its own for every member. -/
def allocate : List α → Nat → Sets α → Sets α
  | [], _, st => st
  | p :: points, next, st =>
    allocate points (next+1) ⟨Function.update st.partitions p (some next),Function.update st.sets next (some {p})⟩

/-- There is no result if a set is used that has been freed. -/
def unite (st : Sets α) (p c : α) : Option (Sets α) := do
  let mine ← st.partitions p
  let other ← st.partitions c
  if mine = other then some st
  else
    let into ← st.sets mine
    let joined ← st.sets other
    some ⟨Function.update st.partitions c (some mine),
      Function.update (Function.update st.sets mine (some (into ∪ joined))) other none⟩

/-- The sets of all members, with the pointers in a given order. -/
def collect (order : List Nat → List Nat) (points : List α) (st : Sets α) : Option (List (Finset α)) :=
  (order (points.filterMap st.partitions).dedup).mapM st.sets

variable {points : List α} {pairs : List (α × α)} {st next : Sets α} {p c : α}

/-- The members that are connected share a set of their own. -/
structure Shares (points : List α) (pairs : List (α × α)) (st : Sets α) : Prop where
  pointer : ∀ {q}, q ∈ points → ∃ a, st.partitions q = some a
  member : ∀ {q a}, st.partitions q = some a → q ∈ points
  same : ∀ {q r a b}, st.partitions q = some a → st.partitions r = some b → (a = b ↔ Joined pairs q r)
  live : ∀ {q a}, st.partitions q = some a → ∃ s, st.sets a = some s ∧ ∀ r, r ∈ s ↔ r ∈ points ∧ Joined pairs q r

/-- Somebody points to a set that has been freed. -/
def Dangling (points : List α) (st : Sets α) : Prop := ∃ q ∈ points, ∃ a, st.partitions q = some a ∧ st.sets a = none

theorem allocate_spec {start : Nat} (nodup : points.Nodup) :
    (∀ q ∉ points, (allocate points start st).partitions q = st.partitions q) ∧
      (∀ a < start, (allocate points start st).sets a = st.sets a) ∧
      ∀ q ∈ points, ∃ a, (allocate points start st).partitions q = some a ∧
        (allocate points start st).sets a = some {q} := by
  induction points generalizing start st with
  | nil => exact ⟨fun _ _ => rfl,fun _ _ => rfl,fun q inside => absurd inside not_mem_nil⟩
  | cons p points ih =>
    obtain ⟨fresh,rest⟩ := nodup_cons.mp nodup
    rw [allocate]
    obtain ⟨elsewhere,before,each⟩ := @ih
      ⟨update st.partitions p (some start),update st.sets start (some {p})⟩ (start+1) rest
    refine ⟨?_,?_,?_⟩
    · intro q outside
      rw [mem_cons,not_or] at outside
      rw [elsewhere q outside.2]
      exact update_of_ne outside.1 _ _
    · intro a earlier
      rw [before a (Nat.lt_succ_of_lt earlier)]
      exact update_of_ne (Nat.ne_of_lt earlier) _ _
    · intro q inside
      rcases mem_cons.mp inside with rfl | later
      · refine ⟨start,?_,?_⟩
        · rw [elsewhere q fresh]
          exact update_self _ _ _
        · rw [before start (Nat.lt_succ_self start)]
          exact update_self _ _ _
      · exact each q later

theorem shares_allocate (nodup : points.Nodup) :
    Shares points [] (allocate points 0 ⟨fun _ => none,fun _ => none⟩) := by
  obtain ⟨elsewhere,_,each⟩ := @allocate_spec α _ points ⟨fun _ => none,fun _ => none⟩ 0 nodup
  generalize allocate points 0 ⟨fun _ => none,fun _ => none⟩ = st at elsewhere each
  have member : ∀ {q a}, st.partitions q = some a → q ∈ points := by
    intro q a found
    by_contra outside
    rw [elsewhere q outside] at found
    cases found
  have own : ∀ {q a}, st.partitions q = some a → st.sets a = some {q} := by
    intro q a found
    obtain ⟨b,pointed,set⟩ := each q (member found)
    obtain rfl := Option.some.inj (found.symm.trans pointed)
    exact set
  refine ⟨fun inside => ?_,member,?_,?_⟩
  · obtain ⟨a,pointed,_⟩ := each _ inside
    exact ⟨a,pointed⟩
  · intro q r a b one two
    rw [joined_nil]
    constructor
    · rintro rfl
      exact Finset.singleton_injective (Option.some.inj ((own one).symm.trans (own two)))
    · rintro rfl
      exact Option.some.inj (one.symm.trans two)
  · intro q a found
    refine ⟨{q},own found,?_⟩
    intro r
    rw [Finset.mem_singleton,joined_nil]
    constructor
    · rintro rfl
      exact ⟨member found,rfl⟩
    · rintro ⟨_,rfl⟩
      rfl

theorem unite_of_joined (shares : Shares points pairs st) (first : p ∈ points) (second : c ∈ points)
    (already : Joined pairs p c) : unite st p c = some st ∧ Shares points (pairs ++ [(p,c)]) st := by
  obtain ⟨a,mine⟩ := shares.pointer first
  obtain ⟨b,other⟩ := shares.pointer second
  obtain rfl := (shares.same mine other).mpr already
  refine ⟨?_,shares.pointer,shares.member,?_,?_⟩
  · simp [unite,mine,other]
  · intro q r a b one two
    rw [joined_snoc_of_joined already]
    exact shares.same one two
  · intro q a found
    obtain ⟨s,live,mem⟩ := shares.live found
    refine ⟨s,live,?_⟩
    intro r
    rw [joined_snoc_of_joined already]
    exact mem r

theorem unite_apart (shares : Shares points pairs st) (first : p ∈ points) (second : c ∈ points)
    (apart : ¬ Joined pairs p c) : ∃ a b s t, st.partitions p = some a ∧ st.partitions c = some b ∧ a ≠ b ∧
      st.sets a = some s ∧ st.sets b = some t ∧ (∀ r, r ∈ s ↔ r ∈ points ∧ Joined pairs p r) ∧
      (∀ r, r ∈ t ↔ r ∈ points ∧ Joined pairs c r) ∧
      unite st p c = some ⟨Function.update st.partitions c (some a),
        Function.update (Function.update st.sets a (some (s ∪ t))) b none⟩ := by
  obtain ⟨a,mine⟩ := shares.pointer first
  obtain ⟨b,other⟩ := shares.pointer second
  obtain ⟨s,live,mem⟩ := shares.live mine
  obtain ⟨t,live',mem'⟩ := shares.live other
  have differ : a ≠ b := fun same => apart ((shares.same mine other).mp same)
  refine ⟨a,b,s,t,mine,other,differ,live,live',mem,mem',?_⟩
  simp [unite,mine,other,differ,live,live']

theorem joined_alone (apart : ¬ Joined pairs p c) (alone : ∀ q ∈ points, Joined pairs c q → q = c) {q r : α}
    (here : q ∈ points) (there : r ∈ points) :
    Joined (pairs ++ [(p,c)]) q r ↔ Joined pairs (if q = c then p else q) (if r = c then p else r) := by
  rw [joined_snoc]
  by_cases first : q = c
  · subst first
    by_cases second : r = q
    · subst second
      simp only [if_true]
      exact ⟨fun _ => .refl _,fun _ => inl (.refl _)⟩
    · rw [if_pos rfl,if_neg second]
      constructor
      · rintro (before | ⟨_,right⟩ | ⟨_,right⟩)
        · exact absurd (alone r there before) second
        · exact absurd (alone r there right) second
        · exact right
      · exact fun joined => inr (inr ⟨.refl _,joined⟩)
  · rw [if_neg first]
    by_cases second : r = c
    · subst second
      rw [if_pos rfl]
      constructor
      · rintro (before | ⟨left,_⟩ | ⟨left,_⟩)
        · exact absurd (alone q here before.symm) first
        · exact left
        · exact absurd (alone q here left.symm) first
      · exact fun joined => inr (inl ⟨joined,.refl _⟩)
    · rw [if_neg second]
      constructor
      · rintro (before | ⟨_,right⟩ | ⟨left,_⟩)
        · exact before
        · exact absurd (alone r there right) second
        · exact absurd (alone q here left.symm) first
      · exact inl

theorem shares_unite (shares : Shares points pairs st) (first : p ∈ points) (second : c ∈ points)
    (apart : ¬ Joined pairs p c) (alone : ∀ q ∈ points, Joined pairs c q → q = c) :
    ∃ next, unite st p c = some next ∧ Shares points (pairs ++ [(p,c)]) next := by
  obtain ⟨a,b,s,t,mine,other,differ,live,live',mem,mem',result⟩ := unite_apart shares first second apart
  have away : p ≠ c := by
    rintro rfl
    exact apart (.refl p)
  -- who points where now
  have pointed : ∀ q, update st.partitions c (some a) q = st.partitions (if q = c then p else q) := by
    intro q
    by_cases here : q = c
    · rw [here,update_self,if_pos rfl,mine]
    · rw [update_of_ne here,if_neg here]
  have inside : ∀ {q}, q ∈ points → (if q = c then p else q) ∈ points := by
    intro q there
    split
    · exact first
    · exact there
  have member : ∀ {q x}, update st.partitions c (some a) q = some x → q ∈ points := by
    intro q x found
    rw [pointed] at found
    split at found
    case isTrue same => exact same ▸ second
    case isFalse => exact shares.member found
  refine ⟨_,result,⟨?_,member,?_,?_⟩⟩
  · intro q there
    obtain ⟨x,found⟩ := shares.pointer (inside there)
    exact ⟨x,(pointed q).trans found⟩
  · intro q r x y one two
    rw [joined_alone apart alone (member one) (member two)]
    exact shares.same ((pointed q).symm.trans one) ((pointed r).symm.trans two)
  · intro q x found
    have there := member found
    have from_q := (pointed q).symm.trans found
    have not_alone : (if q = c then p else q) ≠ c := by
      split
      case isTrue => exact away
      case isFalse elsewhere => exact elsewhere
    have not_freed : x ≠ b := by
      rintro rfl
      exact not_alone (alone _ (inside there) ((shares.same other from_q).mp rfl))
    dsimp only
    rw [update_of_ne not_freed]
    by_cases same : x = a
    · subst same
      have to_p := (shares.same mine from_q).mp rfl
      refine ⟨s ∪ t,update_self _ _ _,?_⟩
      intro r
      rw [Finset.mem_union,mem,mem',← and_or_left]
      refine and_congr_right fun listed => ?_
      rw [joined_alone apart alone there listed]
      by_cases here : r = c
      · subst here
        rw [if_pos rfl]
        exact ⟨fun _ => to_p.symm,fun _ => inr (.refl _)⟩
      · rw [if_neg here]
        constructor
        · rintro (joined | joined)
          · exact to_p.symm.trans _ _ _ joined
          · exact absurd (alone r listed joined) here
        · exact fun joined => inl (to_p.trans _ _ _ joined)
    · rw [update_of_ne same]
      obtain ⟨u,alive,members⟩ := shares.live from_q
      refine ⟨u,alive,?_⟩
      intro r
      rw [members]
      refine and_congr_right fun listed => ?_
      rw [joined_alone apart alone there listed]
      by_cases here : r = c
      · subst here
        rw [if_pos rfl]
        constructor
        · exact fun joined => absurd (alone _ (inside there) joined.symm) not_alone
        · exact fun joined => absurd ((shares.same from_q mine).mpr joined) same
      · rw [if_neg here]

theorem unite_dangles (shares : Shares points pairs st) (first : p ∈ points) (second : c ∈ points)
    (apart : ¬ Joined pairs p c) {q : α} (inside : q ∈ points) (beside : Joined pairs c q) (differs : q ≠ c) :
    ∃ next, unite st p c = some next ∧ Dangling points next := by
  obtain ⟨a,b,s,t,mine,other,differ,live,live',mem,mem',result⟩ := unite_apart shares first second apart
  obtain ⟨d,pointed⟩ := shares.pointer inside
  obtain rfl := (shares.same other pointed).mpr beside
  refine ⟨_,result,q,inside,b,?_,?_⟩
  · exact (update_of_ne differs _ _).trans pointed
  · exact update_self _ _ _

theorem dangling_unite (dangling : Dangling points st) (result : unite st p c = some next) : Dangling points next := by
  obtain ⟨q,inside,d,pointed,freed⟩ := dangling
  rw [unite] at result
  cases mine : st.partitions p with
  | none => simp [mine] at result
  | some a =>
    cases other : st.partitions c with
    | none => simp [mine,other] at result
    | some b =>
      simp only [mine,other,bind_eq_bind,bind_some] at result
      split at result
      case isTrue same =>
        obtain rfl := Option.some.inj result
        exact ⟨q,inside,d,pointed,freed⟩
      case isFalse differ =>
        cases live : st.sets a with
        | none => simp [live] at result
        | some s =>
          cases live' : st.sets b with
          | none => simp [live,live'] at result
          | some t =>
            simp only [live,live',bind_some,Option.some.injEq] at result
            subst result
            have elsewhere : q ≠ c := by
              rintro rfl
              obtain rfl := Option.some.inj (other.symm.trans pointed)
              rw [freed] at live'
              cases live'
            have not_mine : d ≠ a := by
              rintro rfl
              rw [freed] at live
              cases live
            refine ⟨q,inside,d,(update_of_ne elsewhere _ _).trans pointed,?_⟩
            dsimp only
            by_cases same : d = b
            · rw [same,update_self]
            · rw [update_of_ne same,update_of_ne not_mine,freed]

theorem unite_pointed (result : unite st p c = some next) (q : α) :
    (next.partitions q).isSome = (st.partitions q).isSome := by
  rw [unite] at result
  cases mine : st.partitions p with
  | none => simp [mine] at result
  | some a =>
    cases other : st.partitions c with
    | none => simp [mine,other] at result
    | some b =>
      simp only [mine,other,bind_eq_bind,bind_some] at result
      split at result
      · rw [Option.some.inj result]
      · obtain ⟨s,_,result⟩ := Option.bind_eq_some_iff.mp result
        obtain ⟨t,_,result⟩ := Option.bind_eq_some_iff.mp result
        rw [← Option.some.inj result]
        dsimp only
        by_cases same : q = c
        · rw [same,update_self,other]
          rfl
        · rw [update_of_ne same]

/-- Whenever two members are joined that are apart, the second is alone. -/
def Smooth (points : List α) : List (α × α) → List (α × α) → Prop
  | _, [] => True
  | done, e :: rest =>
    (Joined done e.1 e.2 ∨ ∀ q ∈ points, Joined done e.2 q → q = e.2) ∧ Smooth points (done ++ [e]) rest

theorem dangling_run {rest : List (α × α)} (dangling : Dangling points st)
    (result : rest.foldlM (fun st e => unite st e.1 e.2) st = some next) : Dangling points next := by
  induction rest generalizing st with
  | nil =>
    obtain rfl := Option.some.inj result
    exact dangling
  | cons e rest ih =>
    rw [foldlM_cons] at result
    cases one : unite st e.1 e.2 with
    | none => simp [one] at result
    | some mid =>
      rw [one] at result
      exact ih (dangling_unite dangling one) result

theorem run_shares (shares : Shares points pairs st) {rest : List (α × α)}
    (inside : ∀ e ∈ rest, e.1 ∈ points ∧ e.2 ∈ points) (smooth : Smooth points pairs rest) :
    ∃ next, rest.foldlM (fun st e => unite st e.1 e.2) st = some next ∧ Shares points (pairs ++ rest) next := by
  induction rest generalizing pairs st with
  | nil => exact ⟨st,rfl,by rwa [append_nil]⟩
  | cons e rest ih =>
    obtain ⟨p,c⟩ := e
    obtain ⟨first,second⟩ := inside _ mem_cons_self
    obtain ⟨here,later⟩ := smooth
    have step : ∃ mid, unite st p c = some mid ∧ Shares points (pairs ++ [(p,c)]) mid := by
      by_cases already : Joined pairs p c
      · exact ⟨st,unite_of_joined shares first second already⟩
      · exact shares_unite shares first second already (here.resolve_left already)
    obtain ⟨mid,one,still⟩ := step
    obtain ⟨next,result,done⟩ := ih still (fun e there => inside e (mem_cons_of_mem _ there)) later
    rw [append_assoc,singleton_append] at done
    refine ⟨next,?_,done⟩
    rw [foldlM_cons]
    simp only [one,bind_eq_bind,bind_some]
    exact result

theorem run_dangles (shares : Shares points pairs st) {rest : List (α × α)}
    (inside : ∀ e ∈ rest, e.1 ∈ points ∧ e.2 ∈ points) (rough : ¬ Smooth points pairs rest)
    (result : rest.foldlM (fun st e => unite st e.1 e.2) st = some next) : Dangling points next := by
  induction rest generalizing pairs st with
  | nil => exact absurd trivial rough
  | cons e rest ih =>
    obtain ⟨p,c⟩ := e
    obtain ⟨first,second⟩ := inside _ mem_cons_self
    have others : ∀ e ∈ rest, e.1 ∈ points ∧ e.2 ∈ points := fun e there => inside e (mem_cons_of_mem _ there)
    rw [foldlM_cons] at result
    rw [Smooth,Classical.not_and_iff_not_or_not] at rough
    by_cases already : Joined pairs p c
    · obtain ⟨one,still⟩ := unite_of_joined shares first second already
      rw [one] at result
      exact ih still others (rough.resolve_left fun apart => apart (inl already)) result
    · by_cases alone : ∀ q ∈ points, Joined pairs c q → q = c
      · obtain ⟨mid,one,still⟩ := shares_unite shares first second already alone
        rw [one] at result
        exact ih still others (rough.resolve_left fun apart => apart (inr alone)) result
      · push Not at alone
        obtain ⟨q,there,beside,differs⟩ := alone
        obtain ⟨mid,one,dangling⟩ := unite_dangles shares first second already there beside differs
        rw [one] at result
        exact dangling_run dangling result

theorem mapM_some_of_all {β γ : Type} {f : β → Option γ} {l : List β} (all : ∀ a ∈ l, ∃ s, f a = some s) :
    ∃ parts, l.mapM f = some parts ∧ l.map f = parts.map some := by
  induction l with
  | nil => exact ⟨[],rfl,rfl⟩
  | cons a l ih =>
    obtain ⟨s,found⟩ := all a mem_cons_self
    obtain ⟨parts,rest,each⟩ := ih fun b inside => all b (mem_cons_of_mem _ inside)
    refine ⟨s :: parts,?_,by rw [map_cons,map_cons,found,each]⟩
    rw [mapM_cons]
    simp only [found,rest,bind_eq_bind,bind_some]
    rfl

/-- The members of the sets are those that are connected. -/
def Classes (points : List α) (pairs : List (α × α)) (parts : List (Finset α)) : Prop :=
  parts.Nodup ∧ ∀ s, s ∈ parts ↔ ∃ p ∈ points, ∀ q, q ∈ s ↔ q ∈ points ∧ Joined pairs p q

variable {order : List Nat → List Nat}

theorem collect_shares (perm : ∀ l, (order l).Perm l) (shares : Shares points pairs st) :
    ∃ parts, collect order points st = some parts ∧ Classes points pairs parts := by
  rw [collect]
  have listed : ∀ a, a ∈ order (points.filterMap st.partitions).dedup ↔ ∃ q ∈ points, st.partitions q = some a := by
    intro a
    rw [(perm _).mem_iff,mem_dedup,mem_filterMap]
  have nodup : (order (points.filterMap st.partitions).dedup).Nodup := (perm _).nodup_iff.mpr (nodup_dedup _)
  generalize order (points.filterMap st.partitions).dedup = l at listed nodup
  have alive : ∀ a ∈ l, ∃ s, st.sets a = some s := by
    intro a inside
    obtain ⟨q,_,pointed⟩ := (listed a).mp inside
    obtain ⟨s,live,_⟩ := shares.live pointed
    exact ⟨s,live⟩
  obtain ⟨parts,result,same⟩ := mapM_some_of_all alive
  have mem : ∀ s, s ∈ parts ↔ ∃ a ∈ l, st.sets a = some s := by
    intro s
    rw [← mem_map,same]
    exact (mem_map_of_injective (Option.some_injective _)).symm
  refine ⟨parts,result,?_,?_⟩
  · have different : (l.map st.sets).Nodup := by
      apply nodup.map_on
      intro a here b there equal
      obtain ⟨q,_,one⟩ := (listed a).mp here
      obtain ⟨r,_,two⟩ := (listed b).mp there
      obtain ⟨s,live,members⟩ := shares.live one
      obtain ⟨t,live',members'⟩ := shares.live two
      rw [live,live',Option.some.injEq] at equal
      subst equal
      have both := (members' q).mp ((members q).mpr ⟨shares.member one,.refl _⟩)
      exact ((shares.same two one).mpr both.2).symm
    rw [same] at different
    exact different.of_map
  · intro s
    rw [mem]
    constructor
    · rintro ⟨a,inside,live⟩
      obtain ⟨q,there,pointed⟩ := (listed a).mp inside
      obtain ⟨t,live',members⟩ := shares.live pointed
      obtain rfl := Option.some.inj (live.symm.trans live')
      exact ⟨q,there,members⟩
    · rintro ⟨q,there,members⟩
      obtain ⟨a,pointed⟩ := shares.pointer there
      obtain ⟨t,live,members'⟩ := shares.live pointed
      refine ⟨a,(listed a).mpr ⟨q,there,pointed⟩,?_⟩
      rw [live]
      congr 1
      exact Finset.ext fun r => (members' r).trans (members r).symm

theorem collect_dangling (perm : ∀ l, (order l).Perm l) (dangling : Dangling points st) :
    collect order points st = none := by
  obtain ⟨q,inside,d,pointed,freed⟩ := dangling
  rw [collect]
  have listed : d ∈ order (points.filterMap st.partitions).dedup := by
    rw [(perm _).mem_iff,mem_dedup,mem_filterMap]
    exact ⟨q,inside,pointed⟩
  revert listed
  generalize order (points.filterMap st.partitions).dedup = l
  intro listed
  induction l with
  | nil => cases listed
  | cons a l ih =>
    rw [mapM_cons]
    rcases mem_cons.mp listed with rfl | later
    · simp [freed]
    · rw [ih later]
      cases st.sets a <;> rfl

end KdeWorkspace.SharedSets
