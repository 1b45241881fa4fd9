import KdeWorkspace.Clients

/-!
Whether two clients belong to the same application (`belongToSameApplication`).

Most tests of the cascade treat both clients alike. The two that do not are the
match of the resources, which looks for the applications with hacks at the first
client only, and the match of the window roles, which replaces the first client
by the root of its main windows before it compares groups. So the answer does
not depend on the order exactly when an earlier test settles it, or neither of
these two tells the clients apart (`belongToSameApplication_comm_iff`).
-/
namespace KdeWorkspace.SameApplication
open Relation Relations Clients

/-- What the tests read of a client beside its transiency. -/
structure Attributes where
  pid : Int
  clientMachine : List Char
  windowRole : List Char
  resourceName : List Char
  resourceClass : List Char
  isActive : Bool
deriving Repr, DecidableEq

/-- xv has "xv" as its name, and different classes starting with that. -/
def Attributes.isXv (a : Attributes) : Bool := ['x','v'].isPrefixOf a.resourceClass && a.resourceName == ['x','v']

/-- Mozilla has different classes. -/
def Attributes.isMozilla (a : Attributes) : Bool := a.resourceName == ['m','o','z','i','l','l','a']

def resourceMatch (a1 a2 : Attributes) : Bool :=
  if a1.isXv then a2.isXv
  else if a1.isMozilla then a2.isMozilla
  else a1.resourceClass == a2.resourceClass

variable (ws : Workspace) (attributes : ClientRef → Attributes)

/-- The end of the walk up the main windows. -/
def root (c : ClientRef) : ClientRef := (ws.mainChain c).getLast?.getD c

def group (c : ClientRef) : Option GroupRef := (ws.client c).inGroup

/-- A client leader is set, and it is not the window itself. -/
def hasLeader (c : ClientRef) : Bool := ws.wmClientLeader c ≠ (ws.client c).window

/-- The root of a transient client, any other client itself. -/
def mainOf (c : ClientRef) : ClientRef := if ws.isTransient c then root ws c else c

/-- The last part of the match, about the roles of two main windows. -/
def mainRolesMatch (r1 r2 : ClientRef) (activeHack : Bool) : Bool :=
  if ('#' ∈ (attributes r1).windowRole ∧ '#' ∈ (attributes r2).windowRole) ∨
      ((attributes r1).isMozilla ∧ (attributes r2).isMozilla) then
    -- different main windows are always different applications, but for an active one under the hack
    if !activeHack then r1 == r2
    else if !(attributes r1).isActive && !(attributes r2).isActive then r1 == r2
    else true
  else true

def sameAppWindowRoleMatch (c1 c2 : ClientRef) (activeHack : Bool) : Bool :=
  let r1 := mainOf ws c1
  if ws.isTransient c1 && ws.groupTransient r1 then group ws r1 == group ws c2
  else
    let r2 := mainOf ws c2
    if ws.isTransient c2 && ws.groupTransient r2 then group ws r1 == group ws r2
    else mainRolesMatch attributes r1 r2 activeHack

def belongToSameApplication (c1 c2 : ClientRef) (activeHack : Bool) : Bool :=
  -- tests that definitely mean they belong together
  if c1 = c2 then true
  else if ws.isTransient c1 && ws.hasTransient c2 c1 true then true
  else if ws.isTransient c2 && ws.hasTransient c1 c2 true then true
  else if group ws c1 = group ws c2 then true
  else if ws.wmClientLeader c1 = ws.wmClientLeader c2 ∧ hasLeader ws c1 ∧ hasLeader ws c2 then true
  -- tests that mean they most probably don't belong together
  else if (attributes c1).pid ≠ (attributes c2).pid ∨ (attributes c1).clientMachine ≠ (attributes c2).clientMachine then false
  else if ws.wmClientLeader c1 ≠ ws.wmClientLeader c2 ∧ hasLeader ws c1 ∧ hasLeader ws c2 then false
  else if !resourceMatch (attributes c1) (attributes c2) then false
  else if !sameAppWindowRoleMatch ws attributes c1 c2 activeHack then false
  else if (attributes c1).pid = 0 ∨ (attributes c2).pid = 0 then false
  else true

section
variable {α : Type} {next : α → Option α}

end

variable {ws attributes}

/-- One of the applications with hacks. -/
def Attributes.isHacked (a : Attributes) : Bool := a.isXv || a.isMozilla

theorem resourceMatch_comm (a1 a2 : Attributes) :
    (resourceMatch a1 a2 = resourceMatch a2 a1 ↔ ¬ (a1.resourceClass = a2.resourceClass ∧ a1.isHacked ≠ a2.isHacked)) ∧
      (a1.resourceClass = a2.resourceClass → a1.isHacked ≠ a2.isHacked → resourceMatch a1 a2 = a2.isHacked) := by
  have apart (a : Attributes) : ¬ (a.isXv = true ∧ a.isMozilla = true) := by
    rintro ⟨xv,mozilla⟩
    unfold Attributes.isXv at xv
    unfold Attributes.isMozilla at mozilla
    rw [Bool.and_eq_true,beq_iff_eq] at xv
    rw [beq_iff_eq,xv.2] at mozilla
    cases mozilla
  have apart1 := apart a1
  have apart2 := apart a2
  have turned : (a2.resourceClass == a1.resourceClass) = (a1.resourceClass == a2.resourceClass) := Bool.beq_comm
  have same : a1.resourceClass = a2.resourceClass ↔ (a1.resourceClass == a2.resourceClass) = true := beq_iff_eq.symm
  unfold resourceMatch Attributes.isHacked
  rw [turned,same]
  clear same turned apart
  generalize (a1.resourceClass == a2.resourceClass) = classes
  generalize a1.isXv = xv1, a1.isMozilla = moz1, a2.isXv = xv2, a2.isMozilla = moz2 at *
  revert classes xv1 moz1 xv2 moz2
  decide

section
variable (ws attributes)

/-- The client is transient for a group, maybe through its main windows. -/
def isGroupTransient (c : ClientRef) : Bool := ws.isTransient c && ws.groupTransient (mainOf ws c)

/-- The comparisons of groups that the match of the roles makes come out the same in both orders. -/
def GroupsAgree (c1 c2 : ClientRef) : Prop :=
  match isGroupTransient ws c1, isGroupTransient ws c2 with
  | true,true => group ws (mainOf ws c1) = group ws c2 ↔ group ws (mainOf ws c2) = group ws c1
  | true,false => group ws (mainOf ws c1) = group ws c2 ↔ group ws (mainOf ws c1) = group ws (mainOf ws c2)
  | false,true => group ws (mainOf ws c2) = group ws c1 ↔ group ws (mainOf ws c1) = group ws (mainOf ws c2)
  | false,false => True

/-- A test that treats both clients alike says that they belong together. -/
def Related (c1 c2 : ClientRef) : Prop :=
  c1 = c2 ∨ (ws.isTransient c1 = true ∧ ws.hasTransient c2 c1 true = true) ∨
    (ws.isTransient c2 = true ∧ ws.hasTransient c1 c2 true = true) ∨ group ws c1 = group ws c2 ∨
    (ws.wmClientLeader c1 = ws.wmClientLeader c2 ∧ hasLeader ws c1 = true ∧ hasLeader ws c2 = true)

/-- A test that treats both clients alike says that they do not. -/
def Unrelated (c1 c2 : ClientRef) : Prop :=
  (attributes c1).pid ≠ (attributes c2).pid ∨ (attributes c1).clientMachine ≠ (attributes c2).clientMachine ∨
    (ws.wmClientLeader c1 ≠ ws.wmClientLeader c2 ∧ hasLeader ws c1 = true ∧ hasLeader ws c2 = true) ∨
    (attributes c1).pid = 0 ∨ (attributes c2).pid = 0

end

theorem belongToSameApplication_iff (c1 c2 : ClientRef) (activeHack : Bool) :
    belongToSameApplication ws attributes c1 c2 activeHack = true ↔
      Related ws c1 c2 ∨ (¬ Unrelated ws attributes c1 c2 ∧ resourceMatch (attributes c1) (attributes c2) = true ∧
        sameAppWindowRoleMatch ws attributes c1 c2 activeHack = true) := by
  unfold belongToSameApplication Related Unrelated
  generalize resourceMatch (attributes c1) (attributes c2) = resources
  generalize sameAppWindowRoleMatch ws attributes c1 c2 activeHack = roles
  simp only [Bool.if_true_left,Bool.if_false_left,Bool.or_eq_true,Bool.and_eq_true,Bool.not_eq_true',decide_eq_true_eq,
    decide_eq_false_iff_not,Bool.not_eq_false,and_true,or_assoc]
  -- the tests that say yes stand in both; of the others the one of old clients comes before the matches
  refine or_congr_right (or_congr_right (or_congr_right (or_congr_right (or_congr_right ?_))))
  simp only [not_or]
  constructor
  · rintro ⟨⟨processes,machines⟩,leaders,matched,same,old,old'⟩
    exact ⟨⟨processes,machines,leaders,old,old'⟩,matched,same⟩
  · rintro ⟨⟨processes,machines,leaders,old,old'⟩,matched,same⟩
    exact ⟨⟨processes,machines⟩,leaders,matched,same,old,old'⟩

theorem related_comm (c1 c2 : ClientRef) : Related ws c1 c2 ↔ Related ws c2 c1 := by
  unfold Related
  grind

theorem unrelated_comm (c1 c2 : ClientRef) : Unrelated ws attributes c1 c2 ↔ Unrelated ws attributes c2 c1 := by
  unfold Unrelated
  grind

theorem mainRolesMatch_comm (r1 r2 : ClientRef) (activeHack : Bool) :
    mainRolesMatch attributes r1 r2 activeHack = mainRolesMatch attributes r2 r1 activeHack := by
  have turned : (r2 == r1) = (r1 == r2) := Bool.beq_comm
  have inactive : (!(attributes r2).isActive && !(attributes r1).isActive) = (!(attributes r1).isActive && !(attributes r2).isActive) :=
    Bool.and_comm ..
  simp only [mainRolesMatch,turned,inactive,and_comm]

theorem sameAppWindowRoleMatch_comm (c1 c2 : ClientRef) (activeHack : Bool) :
    (sameAppWindowRoleMatch ws attributes c1 c2 activeHack = sameAppWindowRoleMatch ws attributes c2 c1 activeHack) ↔
      GroupsAgree ws c1 c2 := by
  have equal (g h i j : Option GroupRef) : ((g == h) = (i == j)) ↔ (g = h ↔ i = j) := by
    rw [Bool.eq_iff_iff,beq_iff_eq,beq_iff_eq]
  have parts (c c' : ClientRef) : sameAppWindowRoleMatch ws attributes c c' activeHack =
      if isGroupTransient ws c then group ws (mainOf ws c) == group ws c'
      else if isGroupTransient ws c' then group ws (mainOf ws c) == group ws (mainOf ws c')
      else mainRolesMatch attributes (mainOf ws c) (mainOf ws c') activeHack := rfl
  rw [parts,parts]
  unfold GroupsAgree
  cases first : isGroupTransient ws c1 <;> cases second : isGroupTransient ws c2 <;>
    simp only [if_true,if_false,Bool.false_eq_true]
  · exact iff_true_intro (mainRolesMatch_comm ..)
  · rw [equal]
    tauto
  · rw [equal,eq_comm (a := group ws (mainOf ws c2))]
  · exact equal _ _ _ _

/-- The order of the clients does not matter exactly when a test that treats both alike settles it; or the
    resources match in both orders or in none, and where they match the comparisons of groups agree; or the
    resources match in one order only, and in that order the roles do not. -/
theorem belongToSameApplication_comm_iff (ws : Workspace) (attributes : ClientRef → Attributes) (c1 c2 : ClientRef)
    (activeHack : Bool) :
    (belongToSameApplication ws attributes c1 c2 activeHack = belongToSameApplication ws attributes c2 c1 activeHack) ↔
      (Related ws c1 c2 ∨ Unrelated ws attributes c1 c2 ∨
        if (attributes c1).resourceClass = (attributes c2).resourceClass ∧
            (attributes c1).isHacked ≠ (attributes c2).isHacked then
          (if (attributes c2).isHacked then sameAppWindowRoleMatch ws attributes c1 c2 activeHack = false
          else sameAppWindowRoleMatch ws attributes c2 c1 activeHack = false)
        else resourceMatch (attributes c1) (attributes c2) = true → GroupsAgree ws c1 c2) := by
  have resources := resourceMatch_comm (attributes c1) (attributes c2)
  have turned := (resourceMatch_comm (attributes c2) (attributes c1)).2
  rw [Bool.eq_iff_iff,belongToSameApplication_iff,belongToSameApplication_iff,related_comm c2,
    unrelated_comm c2,← sameAppWindowRoleMatch_comm c1 c2 activeHack]
  by_cases related : Related ws c1 c2
  · simp only [related,true_or]
  by_cases unrelated : Unrelated ws attributes c1 c2
  · simp only [related,unrelated,not_true_eq_false,false_and,or_self,true_or,or_true]
  simp only [related,unrelated,false_or,not_false_eq_true,true_and]
  generalize sameAppWindowRoleMatch ws attributes c1 c2 activeHack = roles
  generalize sameAppWindowRoleMatch ws attributes c2 c1 activeHack = roles'
  by_cases hacked : (attributes c1).resourceClass = (attributes c2).resourceClass ∧
      (attributes c1).isHacked ≠ (attributes c2).isHacked
  · obtain ⟨same,apart⟩ := hacked
    rw [if_pos ⟨same,apart⟩,resources.2 same apart,turned same.symm apart.symm]
    revert apart
    generalize (attributes c1).isHacked = one
    generalize (attributes c2).isHacked = two
    revert roles roles' one two
    decide
  · rw [if_neg hacked,← resources.1.mpr hacked]
    generalize resourceMatch (attributes c1) (attributes c2) = matched
    revert roles roles' matched
    decide

/-- Two windows of their own, each in its own group. -/
def twoWindows : Workspace :=
  { rootWindow := 1, rootExists := one_exists, objects := [0,1]
    client := fun c => ⟨c+10,.Normal,false,windowNone,windowNone,windowNone,windowNone,none,none_holdsId,[],some c⟩
    clients := [0,1], desktops := [], groups := [0,1], group := fun g => ⟨g+10,[g],1⟩, nextGroup := 2 }

/-- The first window has Mozilla's resource name; both are of one process and class. -/
def mozillaFirst (c : ClientRef) : Attributes :=
  ⟨5,['h'],[],if c = 0 then ['m','o','z','i','l','l','a'] else ['n'],['n'],false⟩

/-- The hack is looked for at the first client only. -/
theorem mozilla_order_matters :
    belongToSameApplication twoWindows mozillaFirst 0 1 false = false ∧
      belongToSameApplication twoWindows mozillaFirst 1 0 false = true := by
  decide

end KdeWorkspace.SameApplication
