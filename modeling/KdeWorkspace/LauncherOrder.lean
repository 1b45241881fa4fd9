import KdeWorkspace.GroupClosing
import KdeWorkspace.Loops

/-!
The order of the launchers among the members of the root group.

Where launchers are separate, `TaskGroup::add` looks no further for the place of one than its index in the list of
launchers, and not at the last member: it comes too far in front if launchers are hidden or there are few members.
`order_iff` says which launchers find their place; where launchers are mixed with tasks all members do.
-/
namespace KdeWorkspace.LauncherOrder
open TasksModel Loops List
set_option linter.unusedSectionVars false

/-- The launchers, and what those that stand for a preferred application have as the URL of its service. -/
structure Launchers (Url : Type) where
  launchers : List Id
  launcherUrl : Id → Url
  prefUrl : Id → Option Url

variable {Url : Type} [DecidableEq Url] {V : Type} [View V]

/-- Exact matches first, and if that fails preferred launcher matches. -/
def Launchers.launcherIndex (l : Launchers Url) (url : Url) : Int :=
  match l.launchers.findIdx? fun item => l.launcherUrl item = url with
  | some index => index
  | none =>
    match l.launchers.findIdx? fun item => l.prefUrl item = some url with
    | some index => index
    | none => -1

/-- A task bar with its launchers, which are in the list once. -/
structure Bar (Url : Type) extends Launchers Url where
  separateLaunchers : Bool
  itemType : Id → ItemType
  distinct : (launchers.map launcherUrl).Nodup
  listed : ∀ item, itemType item = .LauncherItemType → item ∈ launchers

def Bar.manager (bar : Bar Url) : GroupManager :=
  ⟨bar.separateLaunchers,fun item => bar.launcherIndex (bar.launcherUrl item)⟩

/-- The members that meet the test come first, in the order. -/
structure InFront (test : Id → Bool) (order : Id → Id → Prop) (members : List Id) : Prop where
  front : members = members.filter test ++ members.filter fun x => !test x
  ordered : (members.filter test).Pairwise order

def Bar.isLauncher (bar : Bar Url) (item : Id) : Bool := decide (bar.itemType item = .LauncherItemType)

/-- The members are as they should be: separate launchers in front, or all that have a launcher. -/
def Arranged (bar : Bar Url) (members : List Id) : Prop :=
  if bar.separateLaunchers then
    InFront bar.isLauncher (fun x y => bar.launchers.idxOf x < bar.launchers.idxOf y) members
  else
    InFront (fun x => decide (0 ≤ bar.manager.launcherIndex x))
      (fun x y => bar.manager.launcherIndex x ≤ bar.manager.launcherIndex y) members

/-- What is done to the root group. -/
inductive Change
  | add (item : Id)
  | remove (item : Id)
deriving DecidableEq, Repr

def perform (s : State V) : Change → State V
  | .add item => s.add .rootGroup item (-1)
  | .remove item => s.remove .rootGroup item

def Step (s : State V) (change : Change) (t : State V) : Prop := t = perform s change

/-- How far a launcher goes to the back at most. -/
def maxIndex (bar : Bar Url) (members : List Id) (item : Id) : Nat :=
  if bar.launchers.idxOf item < members.length then bar.launchers.idxOf item else members.length-1

/-- A launcher finds its place if those that are shown in front of it are as many as there are among the members that
are looked at. -/
def Fits (bar : Bar Url) (members : List Id) : Change → Prop
  | .remove _ => True
  | .add item => bar.separateLaunchers = true → bar.isLauncher item = true → item ∉ members →
    (members.filter fun x => bar.isLauncher x && decide (bar.launchers.idxOf x < bar.launchers.idxOf item)).length =
      ((members.take (maxIndex bar members item)).filter bar.isLauncher).length

section
variable {test : Id → Bool} {order : Id → Id → Prop} {members : List Id} {item : Id} {p : Nat}

/-- Whoever stands in front of one that meets the test meets it too. -/
def Ranked (test : Id → Bool) (order : Id → Id → Prop) (x y : Id) : Prop := test y = true → test x = true ∧ order x y

theorem inFront_iff : InFront test order members ↔ members.Pairwise (Ranked test order) := by
  constructor
  · rintro ⟨front,ordered⟩
    rw [front,pairwise_append]
    refine ⟨?_,?_,?_⟩
    · apply ordered.imp_of_mem
      intro x y inside _ before _
      exact ⟨(mem_filter.mp inside).2,before⟩
    · apply pairwise_of_forall_mem_list
      intro x _ y inside meets
      simpa [meets] using (mem_filter.mp inside).2
    · intro x _ y inside meets
      simpa [meets] using (mem_filter.mp inside).2
  · intro ranked
    induction members with
    | nil => exact ⟨rfl,.nil⟩
    | cons x members ih =>
      obtain ⟨first,rest⟩ := pairwise_cons.mp ranked
      obtain ⟨front,ordered⟩ := ih rest
      cases meets : test x with
      | true =>
        have kept : (x :: members).filter test = x :: members.filter test := filter_cons_of_pos meets
        have others : (x :: members).filter (fun y => !test y) = members.filter fun y => !test y :=
          filter_cons_of_neg (by simp [meets])
        refine ⟨by rw [kept,others,cons_append,← front],?_⟩
        rw [kept]
        refine pairwise_cons.mpr ⟨fun y inside => ?_,ordered⟩
        obtain ⟨among,other⟩ := mem_filter.mp inside
        exact (first y among other).2
      | false =>
        have none : (x :: members).filter test = [] := by
          rw [filter_eq_nil_iff]
          intro y inside other
          rcases mem_cons.mp inside with rfl | later
          · rw [meets] at other
            cases other
          · rw [(first y later other).1] at meets
            cases meets
        refine ⟨?_,by rw [none]; exact .nil⟩
        rw [none,nil_append,eq_comm,filter_eq_self]
        intro y inside
        simpa using filter_eq_nil_iff.mp none y inside

theorem ranked_insert (ranked : members.Pairwise (Ranked test order)) :
    (insert members p item).Pairwise (Ranked test order) ↔
      (∀ x ∈ members.take p, Ranked test order x item) ∧ ∀ y ∈ members.drop p, Ranked test order item y := by
  have split := ranked
  rw [← take_append_drop p members,pairwise_append] at split
  obtain ⟨front,back,across⟩ := split
  change (members.take p ++ item :: members.drop p).Pairwise _ ↔ _
  rw [pairwise_append,pairwise_cons]
  constructor
  · rintro ⟨_,⟨after,_⟩,before⟩
    exact ⟨fun x inside => before x inside item mem_cons_self,after⟩
  · rintro ⟨before,after⟩
    refine ⟨front,⟨after,back⟩,?_⟩
    intro x inside y there
    rcases mem_cons.mp there with rfl | later
    · exact before x inside
    · exact across x inside y later

theorem count_iff (closed : members.Pairwise fun x y => test y = true → test x = true) (le : p ≤ members.length) :
    (members.filter test).length = p ↔ (∀ x ∈ members.take p, test x = true) ∧ ∀ y ∈ members.drop p, test y = false := by
  have split := closed
  rw [← take_append_drop p members,pairwise_append] at split
  obtain ⟨_,_,across⟩ := split
  have count : (members.filter test).length =
      ((members.take p).filter test).length+((members.drop p).filter test).length := by
    rw [← length_append,← filter_append,take_append_drop]
  have taken : (members.take p).length = p := by
    rw [length_take]
    omega
  have front := length_filter_le test (members.take p)
  rw [count]
  constructor
  · intro same
    by_cases any : ∃ y ∈ members.drop p, test y = true
    · obtain ⟨y,inside,meets⟩ := any
      have all : (members.take p).filter test = members.take p :=
        filter_eq_self.mpr fun x before => across x before y inside meets
      have positive := length_pos_of_mem (mem_filter.mpr ⟨inside,meets⟩)
      rw [all] at same
      omega
    · have none : (members.drop p).filter test = [] :=
        filter_eq_nil_iff.mpr fun y inside meets => any ⟨y,inside,meets⟩
      rw [none,length_nil] at same
      refine ⟨?_,?_⟩
      · exact length_filter_eq_length_iff.mp (by omega)
      · intro y inside
        exact Bool.eq_false_iff.mpr fun meets => any ⟨y,inside,meets⟩
  · rintro ⟨all,none⟩
    rw [filter_eq_self.mpr all,filter_eq_nil_iff.mpr fun y inside => by simp [none y inside]]
    simpa using taken

end

theorem launcherIndex_launcher (bar : Bar Url) {item : Id} (inside : item ∈ bar.launchers) :
    bar.manager.launcherIndex item = bar.launchers.idxOf item := by
  have lt := idxOf_lt_length_of_mem inside
  have found : bar.launchers.findIdx? (fun other => decide (bar.launcherUrl other = bar.launcherUrl item)) =
      some (bar.launchers.idxOf item) := by
    rw [findIdx?_eq_some_iff_getElem]
    refine ⟨lt,by simp,?_⟩
    intro j before
    have other : bar.launchers[j] ≠ item := by
      intro same
      rw [← same,(List.Nodup.of_map _ bar.distinct).idxOf_getElem] at before
      omega
    have apart : bar.launcherUrl bar.launchers[j] ≠ bar.launcherUrl item := by
      intro same
      exact other (inj_on_of_nodup_map bar.distinct (getElem_mem _) inside same)
    simpa using apart
  rw [Bar.manager]
  dsimp only
  rw [Launchers.launcherIndex,found]

/-- The root group and its members in the course of the changes. -/
structure Kept (bar : Bar Url) (s : State V) : Prop where
  consistent : s.tree.Consistent
  manager : s.manager = bar.manager
  types : s.tree.itemType = bar.itemType
  arranged : Arranged bar (s.tree.members .rootGroup)

variable {bar : Bar Url} {s : State V} {item : Id} {members : List Id}

theorem arranged_iff : Arranged bar members ↔ members.Pairwise (if bar.separateLaunchers then
    Ranked bar.isLauncher fun x y => bar.launchers.idxOf x < bar.launchers.idxOf y
    else Ranked (fun x => decide (0 ≤ bar.manager.launcherIndex x))
      fun x y => bar.manager.launcherIndex x ≤ bar.manager.launcherIndex y) := by
  rw [Arranged]
  split <;> exact inFront_iff

theorem add_members (kept : Kept bar s) (absent : item ∉ s.tree.members .rootGroup) :
    (perform s (.add item)).tree.members .rootGroup =
      insert (s.tree.members .rootGroup) (bar.manager.indexFor (s.tree.taken item) .rootGroup item) item := by
  rw [perform,State.add_members_here kept.consistent absent,if_pos (by decide),Int.toNat_natCast,kept.manager]

theorem arranged_end (arranged : Arranged bar members) (separate : bar.separateLaunchers = true)
    (other : bar.isLauncher item = false) : Arranged bar (insert members members.length item) := by
  rw [arranged_iff,if_pos separate] at arranged ⊢
  refine (ranked_insert arranged).mpr ⟨?_,?_⟩
  · intro x _ meets
    rw [other] at meets
    cases meets
  · intro y inside
    rw [drop_length] at inside
    cases inside

theorem takeWhile_length {test : Id → Bool} {order : Id → Id → Prop} (ranked : members.Pairwise (Ranked test order)) :
    (members.takeWhile test).length = (members.filter test).length := by
  induction members with
  | nil => rfl
  | cons x members ih =>
    obtain ⟨first,rest⟩ := pairwise_cons.mp ranked
    cases meets : test x with
    | true => simp [meets,ih rest]
    | false =>
      have none : members.filter test = [] := by
        rw [filter_eq_nil_iff]
        intro y inside other
        rw [(first y inside other).1] at meets
        cases meets
      simp [meets,none]

theorem arranged_launcher_iff (arranged : Arranged bar members) (separate : bar.separateLaunchers = true)
    (launcher : bar.isLauncher item = true) (absent : item ∉ members) {p : Nat} (le : p ≤ members.length) :
    Arranged bar (insert members p item) ↔
      (members.filter fun x => bar.isLauncher x && decide (bar.launchers.idxOf x < bar.launchers.idxOf item)).length = p := by
  rw [arranged_iff,if_pos separate] at arranged ⊢
  have closed : members.Pairwise fun x y =>
      (bar.isLauncher y && decide (bar.launchers.idxOf y < bar.launchers.idxOf item)) = true →
        (bar.isLauncher x && decide (bar.launchers.idxOf x < bar.launchers.idxOf item)) = true := by
    apply arranged.imp
    intro x y ranked
    rw [Bool.and_eq_true,Bool.and_eq_true,decide_eq_true_eq,decide_eq_true_eq]
    rintro ⟨is_launcher,before⟩
    obtain ⟨front,less⟩ := ranked is_launcher
    exact ⟨front,less.trans before⟩
  rw [ranked_insert arranged,count_iff closed le]
  apply and_congr
  · refine forall₂_congr fun x _ => ?_
    rw [Bool.and_eq_true,decide_eq_true_eq]
    exact ⟨fun ranked => ranked launcher,fun both _ => both⟩
  · refine forall₂_congr fun y inside => ?_
    have there := mem_of_mem_drop inside
    have apart : bar.isLauncher y = true → bar.launchers.idxOf y ≠ bar.launchers.idxOf item := by
      intro is_launcher same
      have listed := bar.listed y (of_decide_eq_true is_launcher)
      rw [idxOf_inj listed] at same
      exact absent (same ▸ there)
    rw [Bool.and_eq_false_iff,decide_eq_false_iff_not]
    constructor
    · intro ranked
      by_cases is_launcher : bar.isLauncher y = true
      · have after := (ranked is_launcher).2
        exact Or.inr (by omega)
      · exact Or.inl (Bool.eq_false_iff.mpr is_launcher)
    · rintro neither is_launcher
      refine ⟨launcher,?_⟩
      have differ := apart is_launcher
      have not_before := neither.resolve_left (by simp [is_launcher])
      omega

theorem arranged_mixed (arranged : Arranged bar members) (mixed : bar.separateLaunchers = false) (item : Id) :
    Arranged bar (insert members (if 0 ≤ bar.manager.launcherIndex item then
      (members.takeWhile fun member => decide (¬(bar.manager.launcherIndex item < bar.manager.launcherIndex member ∨
        bar.manager.launcherIndex member < 0))).length else members.length) item) := by
  rw [arranged_iff,if_neg (by simp [mixed])] at arranged ⊢
  refine (ranked_insert arranged).mpr ?_
  split
  case isTrue nonneg =>
    generalize stops : (fun member => decide (¬(bar.manager.launcherIndex item < bar.manager.launcherIndex member ∨
      bar.manager.launcherIndex member < 0))) = goes
    have front : members.take (members.takeWhile goes).length = members.takeWhile goes :=
      (prefix_iff_eq_take.mp (List.takeWhile_prefix goes)).symm
    have back : members.drop (members.takeWhile goes).length = members.dropWhile goes := by
      have whole := take_append_drop (members.takeWhile goes).length members
      rw [front] at whole
      exact append_cancel_left (whole.trans takeWhile_append_dropWhile.symm)
    rw [front,back]
    refine ⟨?_,?_⟩
    · intro x inside _
      have passed := mem_takeWhile_imp inside
      rw [← stops,decide_eq_true_eq] at passed
      exact ⟨decide_eq_true (by omega),by omega⟩
    · intro y inside meets
      refine ⟨decide_eq_true nonneg,?_⟩
      have has := of_decide_eq_true meets
      have rest := arranged.sublist (dropWhile_sublist goes)
      have first := head?_dropWhile_not goes members
      cases dropped : members.dropWhile goes with
      | nil =>
        rw [dropped] at inside
        cases inside
      | cons h others =>
        rw [dropped] at first inside rest
        have stopped : goes h = false := first
        rw [← stops,decide_eq_false_iff_not,not_not] at stopped
        rcases mem_cons.mp inside with rfl | later
        · omega
        · obtain ⟨has_h,le⟩ := (pairwise_cons.mp rest).1 y later meets
          have nonneg_h := of_decide_eq_true has_h
          omega
  case isFalse negative =>
    refine ⟨?_,?_⟩
    · intro x _ meets
      exact absurd (of_decide_eq_true meets) negative
    · intro y inside
      rw [drop_length] at inside
      cases inside

theorem maxIndex_eq (bar : Bar Url) (members : List Id) (item : Id) :
    (if (bar.launchers.idxOf item : Int) < 0 ∨ (bar.launchers.idxOf item : Int) ≥ members.length then
      (members.length : Int)-1 else bar.launchers.idxOf item).toNat = maxIndex bar members item := by
  rw [maxIndex]
  split <;> split <;> omega

theorem indexFor_launcher (kept : Kept bar s) (absent : item ∉ s.tree.members .rootGroup)
    (separate : bar.separateLaunchers = true) (launcher : bar.isLauncher item = true) :
    bar.manager.indexFor (s.tree.taken item) .rootGroup item =
      (((s.tree.members .rootGroup).take (maxIndex bar (s.tree.members .rootGroup) item)).filter bar.isLauncher).length := by
  have types : (s.tree.taken item).itemType = bar.itemType := (State.taken_itemType _ _).trans kept.types
  have is_launcher := of_decide_eq_true launcher
  have index := launcherIndex_launcher bar (bar.listed item is_launcher)
  have arranged := arranged_iff.mp kept.arranged
  rw [if_pos separate] at arranged
  have manager : bar.manager.separateLaunchers = true := separate
  rw [GroupManager.indexFor,Tree.taken_members kept.consistent absent,types]
  dsimp only
  rw [if_pos manager,if_pos is_launcher,index,maxIndex_eq]
  exact takeWhile_length (arranged.sublist (take_sublist _ _))

theorem indexFor_other (kept : Kept bar s) (absent : item ∉ s.tree.members .rootGroup)
    (separate : bar.separateLaunchers = true) (other : bar.isLauncher item = false) :
    bar.manager.indexFor (s.tree.taken item) .rootGroup item = (s.tree.members .rootGroup).length := by
  have types : (s.tree.taken item).itemType = bar.itemType := (State.taken_itemType _ _).trans kept.types
  have manager : bar.manager.separateLaunchers = true := separate
  rw [GroupManager.indexFor,Tree.taken_members kept.consistent absent,types]
  dsimp only
  rw [if_pos manager,if_neg (of_decide_eq_false other)]

theorem indexFor_mixed (kept : Kept bar s) (absent : item ∉ s.tree.members .rootGroup)
    (mixed : bar.separateLaunchers = false) :
    bar.manager.indexFor (s.tree.taken item) .rootGroup item = if 0 ≤ bar.manager.launcherIndex item then
      ((s.tree.members .rootGroup).takeWhile fun member => decide (¬(bar.manager.launcherIndex item <
        bar.manager.launcherIndex member ∨ bar.manager.launcherIndex member < 0))).length
      else (s.tree.members .rootGroup).length := by
  have manager : ¬ bar.manager.separateLaunchers = true := by
    change ¬ bar.separateLaunchers = true
    simp [mixed]
  rw [GroupManager.indexFor,Tree.taken_members kept.consistent absent]
  dsimp only
  rw [if_neg manager]

theorem arranged_remove (arranged : Arranged bar members) (item : Id) : Arranged bar (members.filter (· ≠ item)) := by
  rw [arranged_iff] at arranged ⊢
  exact arranged.sublist filter_sublist

theorem perform_consistent (kept : Kept bar s) (change : Change) :
    (perform s change).tree.Consistent ∧ (perform s change).manager = bar.manager ∧
      (perform s change).tree.itemType = bar.itemType := by
  cases change with
  | add item =>
    exact ⟨State.add_consistent kept.consistent,(State.add_manager ..).trans kept.manager,
      (State.add_itemType kept.consistent).trans kept.types⟩
  | remove item =>
    rw [perform]
    by_cases member : item ∈ s.tree.members .rootGroup
    · rw [State.remove_tree s member]
      refine ⟨kept.consistent.without member,?_,kept.types⟩
      rw [← kept.manager]
      simp [State.remove,member]
    · rw [State.remove,if_neg member]
      exact ⟨kept.consistent,kept.manager,kept.types⟩

theorem perform_arranged_iff (kept : Kept bar s) (change : Change) :
    Arranged bar ((perform s change).tree.members .rootGroup) ↔ Fits bar (s.tree.members .rootGroup) change := by
  cases change with
  | remove item =>
    refine iff_of_true ?_ trivial
    rw [perform]
    by_cases member : item ∈ s.tree.members .rootGroup
    · rw [State.remove_tree s member]
      have left := arranged_remove kept.arranged item
      simpa [Tree.setParentGroup,Tree.without,Tree.setMembers_self] using left
    · rw [State.remove,if_neg member]
      exact kept.arranged
  | add item =>
    by_cases member : item ∈ s.tree.members .rootGroup
    · rw [perform,State.add_member member]
      exact iff_of_true kept.arranged fun _ _ absent => absurd member absent
    · rw [add_members kept member]
      cases separate : bar.separateLaunchers with
      | false =>
        rw [indexFor_mixed kept member separate]
        refine iff_of_true (arranged_mixed kept.arranged separate item) fun is_separate => ?_
        rw [separate] at is_separate
        cases is_separate
      | true =>
        cases launcher : bar.isLauncher item with
        | false =>
          rw [indexFor_other kept member separate launcher]
          refine iff_of_true (arranged_end kept.arranged separate launcher) fun _ is_launcher => ?_
          rw [launcher] at is_launcher
          cases is_launcher
        | true =>
          rw [indexFor_launcher kept member separate launcher,arranged_launcher_iff kept.arranged separate launcher member]
          · constructor
            · intro same _ _ _
              exact same
            · intro fits
              exact fits separate launcher member
          · exact (length_filter_le _ _).trans (length_take_le' _ _)

/-- A root group as it should be. -/
structure Root (bar : Bar Url) (V : Type) [View V] where
  state : State V
  kept : Kept bar state

/-- The members are in order throughout exactly if every launcher that is added fits. -/
theorem order_iff (root : Root bar V) (changes : List Change) :
    Throughout Step (fun s change => Arranged bar ((perform s change).tree.members .rootGroup)) root.state changes ↔
      Throughout Step (fun s change => Fits bar (s.tree.members .rootGroup) change) root.state changes := by
  have same : ∀ (s : State V) change, Kept bar s → True →
      (Arranged bar ((perform s change).tree.members .rootGroup) ↔ Fits bar (s.tree.members .rootGroup) change) :=
    fun s change kept _ => perform_arranged_iff kept change
  have keeps : ∀ (s : State V) change t, Kept bar s → True →
      Arranged bar ((perform s change).tree.members .rootGroup) → Step s change t → Kept bar t := by
    rintro s change t kept _ arranged rfl
    obtain ⟨consistent,manager,types⟩ := perform_consistent kept change
    exact ⟨consistent,manager,types,arranged⟩
  exact throughout_iff same keeps root.kept (throughout_of_forall (fun _ _ _ => trivial) root.state)

/-- A root group without members. -/
def Root.empty (bar : Bar Url) (view : V) : Root bar V where
  state := ⟨⟨bar.itemType,fun _ => [],fun _ => none,fun _ => []⟩,bar.manager,fun _ => false,view⟩
  kept := by
    refine ⟨⟨fun x g => ?_,fun _ => List.nodup_nil⟩,rfl,rfl,?_⟩
    · simp
    · rw [arranged_iff]
      exact .nil

/-- Nobody hears the calls. -/
instance : View Unit := ⟨fun _ _ view => view⟩

/-- Two launchers, the second of which is put in front of the first. -/
theorem second_in_front : ¬ ∀ (bar : Bar Nat) (changes : List Change),
    Throughout Step (fun s change => Arranged bar ((perform s change).tree.members .rootGroup))
      (Root.empty bar ()).state changes := by
  intro right
  let bar : Bar Nat := ⟨⟨[1,2],id,fun _ => none⟩,true,
    fun item => if item ∈ [1,2] then .LauncherItemType else .TaskItemType,by decide,by
      intro item launcher
      by_contra other
      rw [if_neg other] at launcher
      cases launcher⟩
  have arranged := ((right bar [.add 1,.add 2]).2 _ rfl).1
  have members : (perform (perform (Root.empty bar ()).state (.add 1)) (.add 2)).tree.members .rootGroup = [2,1] := by
    decide
  dsimp only at arranged
  rw [members,arranged_iff,if_pos rfl] at arranged
  have ranked := (pairwise_cons.mp arranged).1 1 mem_cons_self
  exact absurd (ranked (by decide)).2 (by decide)

end KdeWorkspace.LauncherOrder
