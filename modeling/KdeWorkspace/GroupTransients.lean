import KdeWorkspace.Clients

/-!
The check of the group transients of a window group (`Client::checkGroupTransients`).

The check takes group transients out of lists of transients, and nothing else
(`Pruned`). It breaks every cycle with a group transient in the list of another
group transient, and every cycle with a group transient in the list of one of its
own dialogs. What it does not look for is a cycle through dialogs of several group
transients: on the pairs that are left (`Unbroken`), cycles must not exist before
(`checkGroupTransients_acyclic`).
-/
namespace KdeWorkspace.GroupTransients
open Relation Relations Lists Clients

/-- The walk from a member up its main windows. -/
def checkMainWindows (ws : Workspace) (it1 it2 : ClientRef) : Workspace :=
  (ws.mainChain it2).foldl (fun ws cl => if cl = it1 then ws.eraseTransient it2 it1 else ws) ws

/-- Of two group transients that are transient for each other, only the second one stays so. -/
def checkMutual (ws : Workspace) (it1 it2 : ClientRef) : Workspace :=
  if ws.groupTransient it2 && ws.hasTransient it1 it2 true && ws.hasTransient it2 it1 true then
    ws.eraseTransient it2 it1
  else ws

/-- A group transient of two windows, one of them transient for the other, stays in one list. -/
def checkRedundant (ws : Workspace) (it1 it2 it3 : ClientRef) : Workspace :=
  if it1 = it2 ∨ it2 = it3 ∨ it1 = it3 then ws
  else if ws.hasTransient it2 it1 false && ws.hasTransient it3 it1 false then
    let ws := if ws.hasTransient it2 it3 true then ws.eraseTransient it2 it1 else ws
    if ws.hasTransient it3 it2 true then ws.eraseTransient it3 it1 else ws
  else ws

/-- The body of the loop over `it2`. -/
def checkPair (members : List ClientRef) (it1 : ClientRef) (ws : Workspace) (it2 : ClientRef) : Workspace :=
  if it1 = it2 then ws
  else members.foldl (fun ws it3 => checkRedundant ws it1 it2 it3) (checkMutual (checkMainWindows ws it1 it2) it1 it2)

/-- The body of the loop over `it1`. -/
def checkMember (members : List ClientRef) (ws : Workspace) (it1 : ClientRef) : Workspace :=
  if !ws.groupTransient it1 then ws else members.foldl (checkPair members it1) ws

def checkGroupTransients (ws : Workspace) (this : ClientRef) : Workspace :=
  (ws.groupMembers this).foldl (checkMember (ws.groupMembers this)) ws

/-- Group transients have been taken out of lists of transients. -/
structure Pruned (before after : Workspace) : Prop where
  only : ∃ lists, after = before.withTransients lists
  subset : ∀ c, (after.client c).transientsList ⊆ (before.client c).transientsList
  kept : ∀ c t, t ∈ (before.client c).transientsList → before.groupTransient t = false →
    t ∈ (after.client c).transientsList

namespace Pruned
variable {before after last : Workspace}

theorem refl (ws : Workspace) : Pruned ws ws :=
  ⟨⟨fun c => (ws.client c).transientsList,rfl⟩,fun _ => List.Subset.refl _,fun _ _ member _ => member⟩

theorem client (pruned : Pruned before after) (c : ClientRef) :
    after.client c = { before.client c with transientsList := (after.client c).transientsList } := by
  obtain ⟨lists,rfl⟩ := pruned.only
  rfl

theorem groupTransient (pruned : Pruned before after) (c : ClientRef) :
    after.groupTransient c = before.groupTransient c := by
  obtain ⟨lists,rfl⟩ := pruned.only
  rfl

theorem transientFor (pruned : Pruned before after) : TransientFor after = TransientFor before := by
  obtain ⟨lists,rfl⟩ := pruned.only
  rfl

theorem inGroup (pruned : Pruned before after) (c : ClientRef) :
    (after.client c).inGroup = (before.client c).inGroup := by
  obtain ⟨lists,rfl⟩ := pruned.only
  rfl

theorem trans (first : Pruned before after) (second : Pruned after last) : Pruned before last := by
  refine ⟨?_,fun c => List.Subset.trans (second.subset c) (first.subset c),fun c t member normal => ?_⟩
  · obtain ⟨lists,rfl⟩ := first.only
    obtain ⟨lists',rfl⟩ := second.only
    exact ⟨lists',rfl⟩
  · exact second.kept c t (first.kept c t member normal) (by rw [first.groupTransient,normal])

theorem closed (pruned : Pruned before after) (closed : Closed before) : Closed after := by
  refine ⟨fun c object t member => ?_,fun c m main => ?_⟩
  · have object' : c ∈ before.objects := by
      obtain ⟨lists,rfl⟩ := pruned.only
      exact object
    have there := closed.transients c object' t (pruned.subset c member)
    obtain ⟨lists,rfl⟩ := pruned.only
    exact there
  · rw [pruned.transientFor] at main
    have there := closed.transientFor c m main
    obtain ⟨lists,rfl⟩ := pruned.only
    exact there

end Pruned

theorem mem_eraseTransient {ws : Workspace} {c cl a t : ClientRef} :
    t ∈ ((ws.eraseTransient c cl).client a).transientsList ↔ t ∈ (ws.client a).transientsList ∧ ¬ (a = c ∧ t = cl) := by
  simp only [Workspace.eraseTransient,Workspace.withTransients]
  by_cases here : a = c <;> simp [here]

theorem eraseTransient_pruned {ws : Workspace} {cl : ClientRef} (groupTransient : ws.groupTransient cl = true)
    (c : ClientRef) : Pruned ws (ws.eraseTransient c cl) := by
  refine ⟨⟨_,rfl⟩,fun a t member => (mem_eraseTransient.mp member).1,fun a t member normal => ?_⟩
  refine mem_eraseTransient.mpr ⟨member,?_⟩
  rintro ⟨_,rfl⟩
  rw [groupTransient] at normal
  cases normal

/-- Why the check may take the group transient out of the list of the member. -/
def Reason (base : Workspace) (members : List ClientRef) (c cl : ClientRef) : Prop :=
  cl ∈ base.mainChain c ∨ base.groupTransient c = true ∨
    cl ∈ (base.client c).transientsList ∧ ∃ other ∈ members, other ≠ c ∧ cl ∈ (base.client other).transientsList

section
variable {base ws : Workspace} {members : List ClientRef} {P : Workspace → Prop}
  (noMain : ∀ c, base.groupTransient c = true → (base.client c).transientFor = none)
  (erase : ∀ ws c cl, Pruned base ws → P ws → base.groupTransient cl = true → c ∈ members → c ≠ cl →
    Reason base members c cl → P (ws.eraseTransient c cl))
include erase

private theorem eraseTransient_rule (safe : Pruned base ws ∧ P ws) {c cl : ClientRef}
    (groupTransient : base.groupTransient cl = true) (member : c ∈ members) (different : c ≠ cl)
    (reason : Reason base members c cl) : Pruned base (ws.eraseTransient c cl) ∧ P (ws.eraseTransient c cl) := by
  refine ⟨safe.1.trans (eraseTransient_pruned ?_ c),erase ws c cl safe.1 safe.2 groupTransient member different reason⟩
  rw [safe.1.groupTransient,groupTransient]

private theorem checkMainWindows_rule (safe : Pruned base ws ∧ P ws) {it1 it2 : ClientRef}
    (groupTransient : base.groupTransient it1 = true) (member : it2 ∈ members) (different : it1 ≠ it2) :
    Pruned base (checkMainWindows ws it1 it2) ∧ P (checkMainWindows ws it1 it2) := by
  have chain : ws.mainChain it2 = base.mainChain it2 := by
    obtain ⟨lists,rfl⟩ := safe.1.only
    rfl
  unfold checkMainWindows
  rw [chain]
  refine List.foldlRecOn (motive := fun ws => Pruned base ws ∧ P ws) _ _ safe fun ws safe cl above => ?_
  by_cases here : cl = it1
  · rw [if_pos here]
    subst here
    exact eraseTransient_rule erase safe groupTransient member different.symm (Or.inl above)
  · rw [if_neg here]
    exact safe

private theorem checkMutual_rule (safe : Pruned base ws ∧ P ws) {it1 it2 : ClientRef}
    (groupTransient : base.groupTransient it1 = true) (member : it2 ∈ members) (different : it1 ≠ it2) :
    Pruned base (checkMutual ws it1 it2) ∧ P (checkMutual ws it1 it2) := by
  unfold checkMutual
  split
  · rename_i both
    simp only [Bool.and_eq_true] at both
    rw [safe.1.groupTransient] at both
    exact eraseTransient_rule erase safe groupTransient member different.symm (Or.inr (Or.inl both.1.1))
  · exact safe

include noMain in
private theorem checkRedundant_rule (safe : Pruned base ws ∧ P ws) {it1 it2 it3 : ClientRef}
    (groupTransient : base.groupTransient it1 = true) (member2 : it2 ∈ members) (member3 : it3 ∈ members) :
    Pruned base (checkRedundant ws it1 it2 it3) ∧ P (checkRedundant ws it1 it2 it3) := by
  unfold checkRedundant
  split
  · exact safe
  · rename_i distinct
    obtain ⟨first,rest⟩ := not_or.mp distinct
    obtain ⟨second,third⟩ := not_or.mp rest
    split
    · rename_i both
      have no_main : (ws.client it1).transientFor = none := by
        rw [safe.1.client]
        exact noMain it1 groupTransient
      rw [Bool.and_eq_true,hasTransient_direct no_main,hasTransient_direct no_main] at both
      have in2 := safe.1.subset _ both.1.2.2
      have in3 := safe.1.subset _ both.2.2.2
      have reason2 : Reason base members it2 it1 := Or.inr (Or.inr ⟨in2,it3,member3,Ne.symm second,in3⟩)
      have reason3 : Reason base members it3 it1 := Or.inr (Or.inr ⟨in3,it2,member2,second,in2⟩)
      dsimp only
      split
      · have once := eraseTransient_rule erase safe groupTransient member2 (Ne.symm first) reason2
        split
        · exact eraseTransient_rule erase once groupTransient member3 (Ne.symm third) reason3
        · exact once
      · split
        · exact eraseTransient_rule erase safe groupTransient member3 (Ne.symm third) reason3
        · exact safe
    · exact safe

include noMain in
private theorem checkPair_rule (safe : Pruned base ws ∧ P ws) {it1 it2 : ClientRef}
    (groupTransient : base.groupTransient it1 = true) (member : it2 ∈ members) :
    Pruned base (checkPair members it1 ws it2) ∧ P (checkPair members it1 ws it2) := by
  unfold checkPair
  split
  · exact safe
  · rename_i different
    have walked := checkMainWindows_rule erase safe groupTransient member different
    have unmutual := checkMutual_rule erase walked groupTransient member different
    exact List.foldlRecOn (motive := fun ws => Pruned base ws ∧ P ws) _ _ unmutual
      fun ws safe it3 member3 => checkRedundant_rule noMain erase safe groupTransient member member3

include noMain in
private theorem checkMember_rule (safe : Pruned base ws ∧ P ws) (it1 : ClientRef) :
    Pruned base (checkMember members ws it1) ∧ P (checkMember members ws it1) := by
  unfold checkMember
  split
  · exact safe
  · rename_i groupTransient
    rw [safe.1.groupTransient,Bool.not_eq_true,Bool.not_eq_false'] at groupTransient
    exact List.foldlRecOn (motive := fun ws => Pruned base ws ∧ P ws) _ _ safe
      fun ws safe it2 member => checkPair_rule noMain erase safe groupTransient member

end

theorem checkGroupTransients_rule {base : Workspace} (this : ClientRef) {P : Workspace → Prop}
    (noMain : ∀ c, base.groupTransient c = true → (base.client c).transientFor = none)
    (erase : ∀ ws c cl, Pruned base ws → P ws → base.groupTransient cl = true → c ∈ base.groupMembers this →
      c ≠ cl → Reason base (base.groupMembers this) c cl → P (ws.eraseTransient c cl))
    (start : P base) : Pruned base (checkGroupTransients base this) ∧ P (checkGroupTransients base this) :=
  List.foldlRecOn (motive := fun ws => Pruned base ws ∧ P ws) _ _ ⟨.refl base,start⟩
    fun _ safe it1 _ => checkMember_rule noMain erase safe it1

theorem checkGroupTransients_pruned {ws : Workspace}
    (noMain : ∀ c, ws.groupTransient c = true → (ws.client c).transientFor = none) (this : ClientRef) :
    Pruned ws (checkGroupTransients ws this) :=
  (checkGroupTransients_rule this (P := fun _ => True) noMain (fun _ _ _ _ _ _ _ _ _ => trivial) trivial).1

/-- One member of a group is transient for another. -/
def TransientIn (ws : Workspace) (members : List ClientRef) (c t : ClientRef) : Prop :=
  c ∈ members ∧ t ∈ members ∧ t ∈ (ws.client c).transientsList

/-- The state that the check starts from: the lists agree with main windows without
    cycles, and every other entry is a group transient of the group. -/
structure ConsistentGroup (ws : Workspace) (this : ClientRef) : Prop where
  closed : Closed ws
  objects : ∀ c ∈ ws.groupMembers this, c ∈ ws.objects
  inGroup : ∀ c ∈ ws.groupMembers this, (ws.client c).inGroup = (ws.client this).inGroup
  noMain : ∀ c, ws.groupTransient c = true → (ws.client c).transientFor = none
  acyclic : Acyclic (TransientFor ws)
  listed : ∀ t c, TransientFor ws t c → t ∈ (ws.client c).transientsList
  entries : ∀ c ∈ ws.groupMembers this, ∀ t ∈ (ws.client c).transientsList,
    TransientFor ws t c ∨ ws.groupTransient t = true ∧ t ∈ ws.groupMembers this

/-- The check of a group transient and a member is done: the group transient is not transient for a window that is its
    own transient, directly or not, or for a group transient that is transient for it. -/
private def Settled (members : List ClientRef) (it1 it2 : ClientRef) (ws : Workspace) : Prop :=
  (TransGen (TransientFor ws) it2 it1 → it1 ∉ (ws.client it2).transientsList) ∧
  (ws.groupTransient it2 = true → it1 ∈ (ws.client it2).transientsList → ¬ ReflTransGen (TransientIn ws members) it1 it2)

private theorem Settled.pruned {members : List ClientRef} {it1 it2 : ClientRef} {before after : Workspace}
    (settled : Settled members it1 it2 before) (pruned : Pruned before after) : Settled members it1 it2 after := by
  refine ⟨fun above member => ?_,fun groupTransient member path => ?_⟩
  · rw [pruned.transientFor] at above
    exact settled.1 above (pruned.subset it2 member)
  · rw [pruned.groupTransient] at groupTransient
    refine settled.2 groupTransient (pruned.subset it2 member) (ReflTransGen.mono ?_ _ _ path)
    exact fun c t ⟨inC,inT,entry⟩ => ⟨inC,inT,pruned.subset c entry⟩

private theorem erase_settled {base ws : Workspace} {members : List ClientRef} {it1 it2 c cl : ClientRef}
    (pruned : Pruned base ws) (settled : Settled members it1 it2 ws) (groupTransient : base.groupTransient cl = true) :
    Settled members it1 it2 (ws.eraseTransient c cl) :=
  settled.pruned (eraseTransient_pruned (by rw [pruned.groupTransient,groupTransient]) c)

section
variable {base ws : Workspace} {this : ClientRef} (consistent : ConsistentGroup base this)
include consistent

variable {it1 it2 : ClientRef}

private theorem checkMainWindows_settled (pruned : Pruned base ws)
    (groupTransient : base.groupTransient it1 = true) (above : TransGen (TransientFor ws) it2 it1) :
    it1 ∉ ((checkMainWindows ws it1 it2).client it2).transientsList := by
  have acyclic : Acyclic (TransientFor ws) := by
    rw [pruned.transientFor]
    exact consistent.acyclic
  have met := (mem_mainChain (pruned.closed consistent.closed) acyclic).mpr above
  have walked := foldl_establishes (ws.mainChain it2) (b := ws)
    (f := fun ws cl => if cl = it1 then ws.eraseTransient it2 it1 else ws) (P := fun _ => True)
    (Q := fun cl ws => cl = it1 → it1 ∉ (ws.client it2).transientsList) (fun _ _ _ _ => trivial) ?_ ?_ trivial
  · exact walked.2 it1 met rfl
  · rintro ws cl _ _ rfl
    rw [if_pos rfl,mem_eraseTransient]
    simp
  · intro ws cl later _ _ out here
    split
    · rw [mem_eraseTransient]
      exact fun member => out here member.1
    · exact out here

private theorem checkMutual_settled (pruned : Pruned base ws)
    (groupTransient : base.groupTransient it1 = true) (member1 : it1 ∈ base.groupMembers this)
    (member2 : it2 ∈ base.groupMembers this) (different : it1 ≠ it2)
    (also : (checkMutual ws it1 it2).groupTransient it2 = true)
    (entry : it1 ∈ ((checkMutual ws it1 it2).client it2).transientsList) :
    ¬ ReflTransGen (TransientIn (checkMutual ws it1 it2) (base.groupMembers this)) it1 it2 := by
  have closed := pruned.closed consistent.closed
  have group (c : ClientRef) (member : c ∈ base.groupMembers this) :
      (ws.client c).inGroup = (base.client this).inGroup := by
    rw [pruned.inGroup,consistent.inGroup c member]
  have object (c : ClientRef) (member : c ∈ base.groupMembers this) : c ∈ ws.objects := by
    have there := consistent.objects c member
    obtain ⟨lists,rfl⟩ := pruned.only
    exact there
  have facts (c : ClientRef) (groupTransient : ws.groupTransient c = true) :
      (ws.client c).transientFor = none ∧ ws.isTransient c = true := by
    refine ⟨?_,isTransient_of_groupTransient groupTransient⟩
    rw [pruned.groupTransient] at groupTransient
    rw [pruned.client]
    exact consistent.noMain c groupTransient
  have transient1 : ws.groupTransient it1 = true := by rw [pruned.groupTransient,groupTransient]
  intro path
  unfold checkMutual at also entry path
  split at also
  · rename_i both
    rw [if_pos both,mem_eraseTransient] at entry
    simp at entry
  · rename_i notBoth
    rw [if_neg notBoth] at entry path
    have back : ws.hasTransient it2 it1 true = true := by
      rw [hasTransient_iff closed (object it2 member2) (facts it1 transient1).1 (facts it1 transient1).2]
      exact ⟨it2,.refl,by rw [group it2 member2,group it1 member1],entry⟩
    have there : ws.hasTransient it1 it2 true = true := by
      rw [hasTransient_iff closed (object it1 member1) (facts it2 also).1 (facts it2 also).2]
      rcases ReflTransGen.cases_tail path with same | ⟨c,before,inC,_,last⟩
      · exact absurd same.symm different
      · refine ⟨c,ReflTransGen.mono ?_ _ _ before,by rw [group c inC,group it2 member2],last⟩
        exact fun a b ⟨inA,_,step⟩ => ⟨by rw [group a inA,group it2 member2],step⟩
    simp [also,there,back] at notBoth

private theorem checkPair_settled (pruned : Pruned base ws)
    (groupTransient : base.groupTransient it1 = true) (member1 : it1 ∈ base.groupMembers this)
    (member2 : it2 ∈ base.groupMembers this) (different : it1 ≠ it2) :
    Settled (base.groupMembers this) it1 it2 (checkPair (base.groupMembers this) it1 ws it2) := by
  have anyErase : ∀ ws c cl, Pruned base ws → True → base.groupTransient cl = true → c ∈ base.groupMembers this →
      c ≠ cl → Reason base (base.groupMembers this) c cl → True := fun _ _ _ _ _ _ _ _ _ => trivial
  have walked := checkMainWindows_rule anyErase ⟨pruned,trivial⟩ groupTransient member2 different
  have unmutual := checkMutual_rule anyErase walked groupTransient member2 different
  have settled : Settled (base.groupMembers this) it1 it2 (checkMutual (checkMainWindows ws it1 it2) it1 it2) := by
    refine ⟨fun above entry => ?_,checkMutual_settled consistent walked.1 groupTransient member1 member2 different⟩
    rw [unmutual.1.transientFor,← pruned.transientFor] at above
    refine checkMainWindows_settled consistent pruned groupTransient above ?_
    unfold checkMutual at entry
    split at entry
    · exact (mem_eraseTransient.mp entry).1
    · exact entry
  unfold checkPair
  rw [if_neg different]
  refine (List.foldlRecOn
    (motive := fun ws => Pruned base ws ∧ Settled (base.groupMembers this) it1 it2 ws) _ _ ⟨unmutual.1,settled⟩ ?_).2
  intro ws safe it3 member3
  exact checkRedundant_rule consistent.noMain
    (fun ws c cl pruned settled groupTransient _ _ _ => erase_settled pruned settled groupTransient) safe groupTransient
    member2 member3

private theorem checkMember_settled (pruned : Pruned base ws)
    (groupTransient : base.groupTransient it1 = true) (member1 : it1 ∈ base.groupMembers this)
    (member2 : it2 ∈ base.groupMembers this) (different : it1 ≠ it2) :
    Settled (base.groupMembers this) it1 it2 (checkMember (base.groupMembers this) ws it1) := by
  unfold checkMember
  rw [if_neg (by rw [pruned.groupTransient,groupTransient]; decide)]
  have pairs := foldl_establishes (base.groupMembers this) (b := ws)
    (f := checkPair (base.groupMembers this) it1) (P := Pruned base)
    (Q := fun it2 ws => it1 ≠ it2 → Settled (base.groupMembers this) it1 it2 ws) ?_ ?_ ?_ pruned
  · exact pairs.2 it2 member2 different
  · intro ws later member pruned
    exact (checkPair_rule (P := fun _ => True) consistent.noMain (fun _ _ _ _ _ _ _ _ _ => trivial)
      ⟨pruned,trivial⟩ groupTransient member).1
  · exact fun ws it2 member pruned different =>
      checkPair_settled consistent pruned groupTransient member1 member different
  · intro ws it2 later member pruned settled different
    exact (checkPair_rule consistent.noMain
      (fun ws c cl pruned settled groupTransient _ _ _ => erase_settled pruned settled groupTransient)
      ⟨pruned,settled different⟩ groupTransient member).2

theorem checkGroupTransients_settled (groupTransient : base.groupTransient it1 = true)
    (member1 : it1 ∈ base.groupMembers this) (member2 : it2 ∈ base.groupMembers this) (different : it1 ≠ it2) :
    Settled (base.groupMembers this) it1 it2 (checkGroupTransients base this) := by
  have members := foldl_establishes (base.groupMembers this) (b := base)
    (f := checkMember (base.groupMembers this)) (P := Pruned base)
    (Q := fun it1 ws => base.groupTransient it1 = true → it1 ≠ it2 → Settled (base.groupMembers this) it1 it2 ws)
    ?_ ?_ ?_ (.refl base)
  · exact members.2 it1 member1 groupTransient different
  · intro ws later _ pruned
    exact (checkMember_rule (P := fun _ => True) consistent.noMain (fun _ _ _ _ _ _ _ _ _ => trivial)
      ⟨pruned,trivial⟩ later).1
  · exact fun ws it1 member pruned groupTransient different =>
      checkMember_settled consistent pruned groupTransient member member2 different
  · intro ws it1 later _ pruned settled groupTransient different
    exact (checkMember_rule consistent.noMain
      (fun ws c cl pruned settled groupTransient _ _ _ => erase_settled pruned settled groupTransient)
      ⟨pruned,settled groupTransient different⟩ later).2

end

/-- The entries the check has no test for: all but a group transient in the list of
    one of its own transients or of another group transient. -/
def Unbroken (ws : Workspace) (members : List ClientRef) (c t : ClientRef) : Prop :=
  TransientIn ws members c t ∧
    (ws.groupTransient t = true → ¬ TransGen (TransientFor ws) c t ∧ (ws.groupTransient c = true → c = t))

/-- After the check no member is transient for itself, when the entries that the
    check has no test for make no cycle. And where each group transient is in one
    list only, so that none is redundant, the check breaks no cycle of such entries. -/
theorem checkGroupTransients_acyclic {ws : Workspace} {this : ClientRef} (consistent : ConsistentGroup ws this) :
    (Acyclic (Unbroken ws (ws.groupMembers this)) →
      Acyclic (TransientIn (checkGroupTransients ws this) (ws.groupMembers this))) ∧
    ((∀ t c other, ws.groupTransient t = true → TransientIn ws (ws.groupMembers this) c t →
        TransientIn ws (ws.groupMembers this) other t → c = other) →
      Acyclic (TransientIn (checkGroupTransients ws this) (ws.groupMembers this)) →
      Acyclic (Unbroken ws (ws.groupMembers this))) := by
  constructor
  · intro acyclic
    refine acyclic.of_returning fun c t ⟨inC,inT,entry⟩ back => ?_
    have pruned := checkGroupTransients_pruned consistent.noMain this
    refine ⟨⟨inC,inT,pruned.subset c entry⟩,fun groupTransient => ?_⟩
    have settled (different : t ≠ c) := checkGroupTransients_settled consistent groupTransient inT inC different
    refine ⟨fun above => ?_,fun also => ?_⟩
    · have different : t ≠ c := by
        rintro rfl
        exact consistent.acyclic t above
      rw [← pruned.transientFor] at above
      exact (settled different).1 above entry
    · by_contra different
      rw [← pruned.groupTransient] at also
      exact (settled (Ne.symm different)).2 also entry back
  · intro once acyclic
    refine acyclic.mono fun c t unbroken => ⟨unbroken.1.1,unbroken.1.2.1,?_⟩
    have kept := checkGroupTransients_rule this (P := fun after => t ∈ (after.client c).transientsList)
      consistent.noMain ?_ unbroken.1.2.2
    · exact kept.2
    · intro after c' t' pruned there groupTransient member different reason
      refine mem_eraseTransient.mpr ⟨there,?_⟩
      rintro ⟨rfl,rfl⟩
      rcases reason with above | also | ⟨entry,other,inOther,differs,also⟩
      · exact (unbroken.2 groupTransient).1 (follow_sound above)
      · exact different ((unbroken.2 groupTransient).2 also)
      · exact differs (once t other c groupTransient ⟨inOther,unbroken.1.2.1,also⟩ unbroken.1)

/-- The group transients 0 and 2 with the dialogs 1 and 3. -/
private def twoDialogs (lists : Nat → List Nat) : Workspace where
  rootWindow := 1
  rootExists := one_exists
  objects := [0,1,2,3]
  client c := {
    window := 10+c
    declaredType := .Unknown
    modal := false
    wmClientLeaderWin := 10
    windowGroup := 10
    originalTransientForId := if c = 1 ∨ c = 3 then 9+c else 1
    transientForId := if c = 1 ∨ c = 3 then 9+c else 1
    transientFor := if c = 1 ∨ c = 3 then some (c-1) else none
    holdsId := by intro _; split <;> simp [windowNone]
    transientsList := lists c
    inGroup := some 0 }
  clients := [0,1,2,3]
  desktops := []
  groups := [0]
  group _ := ⟨10,[0,1,2,3],0⟩
  nextGroup := 1

private theorem twoDialogs_consistent (lists : Nat → List Nat) (dialogs : 1 ∈ lists 0 ∧ 3 ∈ lists 2)
    (entries : ∀ c ∈ [0,1,2,3], ∀ t ∈ lists c, t ∈ [0,1,2,3] ∧ (t = 1 → c = 0) ∧ (t = 3 → c = 2)) :
    ConsistentGroup (twoDialogs lists) 0 := by
  have main (t c : Nat) : TransientFor (twoDialogs lists) t c ↔ (t = 1 ∧ c = 0) ∨ (t = 3 ∧ c = 2) := by
    show (if t = 1 ∨ t = 3 then some (t-1) else none) = some c ↔ _
    split <;> simp <;> omega
  refine ⟨⟨fun c object t entry => (entries c object t entry).1,fun t c transient => ?_⟩,fun c member => member,
    fun _ _ => rfl,fun (c : Nat) groupTransient => ?_,acyclic_of_rank id fun (t c : Nat) transient => ?_,
    fun t c transient => ?_,fun c member t entry => ?_⟩
  · show c ∈ [0,1,2,3]
    rcases (main t c).mp transient with ⟨_,rfl⟩ | ⟨_,rfl⟩ <;> decide
  · have id : (if c = 1 ∨ c = 3 then 9+c else 1) = 1 := of_decide_eq_true groupTransient
    show (if c = 1 ∨ c = 3 then some (c-1) else none) = none
    split at id
    · omega
    · simp_all
  · show c < t
    rcases (main t c).mp transient with ⟨rfl,rfl⟩ | ⟨rfl,rfl⟩ <;> decide
  · rcases (main t c).mp transient with ⟨rfl,rfl⟩ | ⟨rfl,rfl⟩
    · exact dialogs.1
    · exact dialogs.2
  · obtain ⟨known,first,second⟩ := entries c member t entry
    rw [main]
    change _ ∨ _ ∧ t ∈ [0,1,2,3]
    simp only [List.mem_cons,List.not_mem_nil,or_false] at known
    rcases known with rfl | rfl | rfl | rfl
    · exact Or.inr ⟨rfl,by decide⟩
    · exact Or.inl (Or.inl ⟨rfl,first rfl⟩)
    · exact Or.inr ⟨rfl,by decide⟩
    · exact Or.inl (Or.inr ⟨rfl,second rfl⟩)

theorem checkGroupTransients_acyclic_mutual :
    let ws := twoDialogs fun c => if c = 0 then [1,2] else if c = 1 then [2] else if c = 2 then [3,0] else []
    Acyclic (TransientIn (checkGroupTransients ws 0) (ws.groupMembers 0)) := by
  intro ws
  refine (checkGroupTransients_acyclic (twoDialogs_consistent _ (by decide) (by decide))).1 ?_
  refine acyclic_of_rank (3-·) ?_
  have ranked : ∀ c ∈ [0,1,2,3], ∀ t ∈ (ws.client c).transientsList, ¬ (c = 2 ∧ t = 0) → 3-t < 3-c := by decide
  intro c t ⟨⟨inC,_,entry⟩,exempt⟩
  refine ranked c inC t entry ?_
  rintro ⟨rfl,rfl⟩
  have same := (exempt (by decide)).2 (by decide)
  cases same

/-- The group transient 2 is in the list of the dialog of 0 and the other way round: the check leaves this cycle. -/
theorem checkGroupTransients_leaves_cycle :
    ∃ ws this, ConsistentGroup ws this ∧
      ¬ Acyclic (TransientIn (checkGroupTransients ws this) (ws.groupMembers this)) := by
  let crossed := twoDialogs fun c => if c = 3 then [0] else [c+1]
  refine ⟨crossed,0,twoDialogs_consistent _ (by decide) (by decide),fun acyclic => acyclic 0 ?_⟩
  have left : ∀ c ∈ [(0,1),(1,2),(2,3),(3,0)],
      TransientIn (checkGroupTransients crossed 0) [0,1,2,3] c.1 c.2 := by
    have entries : ∀ c ∈ [(0,1),(1,2),(2,3),(3,0)], c.1 ∈ [0,1,2,3] ∧ c.2 ∈ [0,1,2,3] ∧
        c.2 ∈ ((checkGroupTransients crossed 0).client c.1).transientsList := by decide
    exact entries
  exact .tail (.tail (.tail (.single (left (0,1) (by decide))) (left (1,2) (by decide))) (left (2,3) (by decide)))
    (left (3,0) (by decide))

end KdeWorkspace.GroupTransients
