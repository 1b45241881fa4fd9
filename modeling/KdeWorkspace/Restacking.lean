import KdeWorkspace.StackingOrder

/-!
Raising, lowering and restacking in the unconstrained stacking order.

The bottom of the stack is the front of the list. `lowerClientWithinApplication` looks for another window of the
application after it has taken the window out, so it may put it further up (`withinApplication_iff`), and
`restackWindow` takes the window itself for the one that is above its sibling (`restackWindow_iff`).
-/
namespace KdeWorkspace.StackingOrder
open Lists Clients
open List (mem_cons_self getElem?_append_right perm_middle getElem_mem getElem?_eq_getElem singleton_sublist nodup_cons nodup_append filter_append length_append length_cons append_assoc)

section
variable (sameApplication : ClientRef → ClientRef → Bool)

/-- The windows of the application of a client. -/
def belongs (c : ClientRef) : Toplevel → Bool
  | .client client => sameApplication client c
  | .other _ => false

def lowerClientWithinApplication (unconstrained : List Toplevel) (c : ClientRef) : List Toplevel :=
  let rest := removeAll unconstrained (.client c)
  match rest.findIdx? (belongs sameApplication c) with
  | some it => insertAt rest it (.client c)
  | none => .client c :: rest

/-- The search of `raiseClientWithinApplication` from the top, which stops at the client itself. -/
def topmostOther (unconstrained : List Toplevel) (c : ClientRef) : Nat → Option ClientRef
  | 0 => none
  | i+1 =>
    match unconstrained[i]? with
    | some (.client other) =>
      if other = c then none else if sameApplication other c then some other else topmostOther unconstrained c i
    | _ => topmostOther unconstrained c i

/-- `indexOf`, which is -1 where the window is not there. -/
def indexOf (windows : List Toplevel) (w : Toplevel) : Int :=
  match windows.idxOf? w with
  | some i => i
  | none => -1

def raiseClientWithinApplication (unconstrained : List Toplevel) (c : ClientRef) : List Toplevel :=
  match topmostOther sameApplication unconstrained c unconstrained.length with
  | none => unconstrained
  | some other =>
    let rest := removeAll unconstrained (.client c)
    insertAt rest (indexOf rest (.client other)+1) (.client c)

end

section
variable {α : Type} {front back : List α} {a b : α}

theorem insertAt_append (front back : List α) (a : α) : insertAt (front++back) front.length a = front++a :: back := by
  simp [insertAt]

theorem before_front (nodup : (front++a :: back).Nodup) : Before (front++a :: back) b a ↔ b ∈ front := by
  constructor
  · intro before
    obtain ⟨i,j,lt,atI,atJ⟩ := before_iff.mp before
    have here : (front++a :: back)[front.length]? = some a := by simp
    have same := (List.getElem?_inj (List.getElem?_eq_some_iff.mp atJ).1 nodup).mp (atJ.trans here.symm)
    rw [List.getElem?_append_left (by omega)] at atI
    exact List.mem_of_getElem? atI
  · intro member
    exact (singleton_sublist.mpr member).append (singleton_sublist.mpr mem_cons_self)

theorem before_back (nodup : (front++a :: back).Nodup) : Before (front++a :: back) a b ↔ b ∈ back := by
  constructor
  · intro before
    obtain ⟨i,j,lt,atI,atJ⟩ := before_iff.mp before
    have here : (front++a :: back)[front.length]? = some a := by simp
    have same := (List.getElem?_inj (List.getElem?_eq_some_iff.mp atI).1 nodup).mp (atI.trans here.symm)
    rw [getElem?_append_right (by omega),List.getElem?_cons,if_neg (by omega)] at atJ
    exact List.mem_of_getElem? atJ
  · intro member
    have tail : [a,b].Sublist (a :: back) := (singleton_sublist.mpr member).cons_cons a
    exact tail.trans (List.sublist_append_right _ _)

theorem removeAll_middle [DecidableEq α] (nodup : (front++a :: back).Nodup) :
    removeAll (front++a :: back) a = front++back := by
  have absent : a ∉ front++back := by
    have perm : (front++a :: back).Perm (a :: (front++back)) := perm_middle
    exact (nodup_cons.mp (perm.nodup_iff.mp nodup)).1
  simp only [List.mem_append,not_or] at absent
  rw [removeAll,filter_append,List.filter_cons,if_neg (by simp)]
  exact congrArg₂ (·++·) (removeAll_of_not_mem absent.1) (removeAll_of_not_mem absent.2)

end

theorem indexOf_middle {front back : List Toplevel} {w : Toplevel} (absent : w ∉ front) :
    indexOf (front++w :: back) w = front.length := by
  have found : (front++w :: back).idxOf? w = some front.length := by
    rw [List.idxOf?_eq_some_iff]
    refine ⟨by simp,by simp,fun j lt => ?_⟩
    rw [List.getElem_append_left lt]
    rintro rfl
    exact absent (getElem_mem lt)
  simp [indexOf,found]

section
variable {sameApplication : ClientRef → ClientRef → Bool} {c : ClientRef} {below above : List Toplevel}

/-- The lowest other window of the application is below the client or right above it, if there is one. -/
def LowersWithin (sameApplication : ClientRef → ClientRef → Bool) (c : ClientRef) (below above : List Toplevel) : Prop :=
  (∃ w ∈ below, belongs sameApplication c w) ∨ (∀ w ∈ above, belongs sameApplication c w = false) ∨
    ∃ w, above.head? = some w ∧ belongs sameApplication c w

/-- Neither operation moves the client the other way, and the other windows stay. -/
structure WithinApplication (sameApplication : ClientRef → ClientRef → Bool) (unconstrained : List Toplevel)
    (c : ClientRef) : Prop where
  raised : ∀ w, Before unconstrained w (.client c) →
    Before (raiseClientWithinApplication sameApplication unconstrained c) w (.client c)
  lowered : ∀ w, Before unconstrained (.client c) w →
    Before (lowerClientWithinApplication sameApplication unconstrained c) (.client c) w
  raised_others : removeAll (raiseClientWithinApplication sameApplication unconstrained c) (.client c) =
    removeAll unconstrained (.client c)
  lowered_others : removeAll (lowerClientWithinApplication sameApplication unconstrained c) (.client c) =
    removeAll unconstrained (.client c)
  raised_perm : (raiseClientWithinApplication sameApplication unconstrained c).Perm unconstrained
  lowered_perm : (lowerClientWithinApplication sameApplication unconstrained c).Perm unconstrained

theorem topmostOther_above {k : Nat} (bound : k ≤ above.length) {other : ClientRef}
    (found : topmostOther sameApplication (below++.client c :: above) c (below.length+1+k) = some other) :
    .client other ∈ above := by
  induction k with
  | zero => simp [topmostOther] at found
  | succ k ih =>
    have element : (below++.client c :: above)[below.length+1+k]? = above[k]? := by
      rw [getElem?_append_right (by omega),List.getElem?_cons,if_neg (by omega)]
      congr 1
      omega
    have later := ih (by omega)
    rw [← Nat.add_assoc,topmostOther,element] at found
    rw [getElem?_eq_getElem (by omega)] at found
    have member : above[k] ∈ above := getElem_mem _
    generalize above[k] = w at found member
    cases w with
    | other w => exact later found
    | client d =>
      simp only at found
      split at found
      · cases found
      · split at found
        · cases found
          exact member
        · exact later found

theorem raiseClientWithinApplication_cases (sameApplication : ClientRef → ClientRef → Bool)
    (nodup : (below++.client c :: above).Nodup) :
    raiseClientWithinApplication sameApplication (below++.client c :: above) c = below++.client c :: above ∨
      ∃ left right : List Toplevel, above = left++right ∧
        raiseClientWithinApplication sameApplication (below++.client c :: above) c = (below++left)++.client c :: right := by
  unfold raiseClientWithinApplication
  cases found : topmostOther sameApplication (below++.client c :: above) c (below++.client c :: above).length with
  | none => exact Or.inl rfl
  | some other =>
    have length : (below++Toplevel.client c :: above).length = below.length+1+above.length := by
      simp only [length_append,length_cons]
      omega
    rw [length] at found
    have member := topmostOther_above le_rfl found
    obtain ⟨left,right,rfl⟩ := List.append_of_mem member
    right
    refine ⟨left++[.client other],right,by simp,?_⟩
    have distinct : ((below++left)++.client other :: right).Nodup := by
      have rest := removeAll_nodup nodup (.client c)
      rw [removeAll_middle nodup] at rest
      simpa using rest
    have absent : .client other ∉ below++left := by
      intro there
      exact (nodup_append.mp distinct).2.2 _ there _ mem_cons_self rfl
    have split : below++(left++.client other :: right) = (below++left)++.client other :: right := by simp
    dsimp only
    rw [removeAll_middle nodup,split,indexOf_middle absent]
    have index : ((below++left).length : Int)+1 = ((below++(left++[Toplevel.client other])).length : Nat) := by
      simp only [length_append,length_cons,List.length_nil]
      omega
    have join : (below++left)++Toplevel.client other :: right = (below++(left++[.client other]))++right := by simp
    rw [index,join,insertAt_append]

theorem lowerClientWithinApplication_eq (sameApplication : ClientRef → ClientRef → Bool)
    (nodup : (below++.client c :: above).Nodup) :
    ∃ left right : List Toplevel, below++above = left++right ∧
      lowerClientWithinApplication sameApplication (below++.client c :: above) c = left++.client c :: right ∧
      (left.length ≤ below.length ↔ LowersWithin sameApplication c below above) := by
  unfold lowerClientWithinApplication
  rw [removeAll_middle nodup]
  have search : (below++above).findIdx? (belongs sameApplication c) =
      (below.findIdx? (belongs sameApplication c)).or
        ((above.findIdx? (belongs sameApplication c)).map fun i => i+below.length) := List.findIdx?_append
  cases lowest : below.findIdx? (belongs sameApplication c) with
  | some i =>
    obtain ⟨bound,here,_⟩ := List.findIdx?_eq_some_iff_getElem.mp lowest
    refine ⟨(below++above).take i,(below++above).drop i,(List.take_append_drop ..).symm,?_,?_⟩
    · simp [search,lowest,insertAt]
    · refine iff_of_true ?_ (Or.inl ⟨_,getElem_mem bound,here⟩)
      simp only [List.length_take]
      omega
  | none =>
    have none_below := List.findIdx?_eq_none_iff.mp lowest
    cases next : above.findIdx? (belongs sameApplication c) with
    | none =>
      refine ⟨[],below++above,rfl,by simp [search,lowest,next],?_⟩
      exact iff_of_true (Nat.zero_le _) (Or.inr (Or.inl (List.findIdx?_eq_none_iff.mp next)))
    | some i =>
      obtain ⟨bound,here,first⟩ := List.findIdx?_eq_some_iff_getElem.mp next
      refine ⟨(below++above).take (i+below.length),(below++above).drop (i+below.length),
        (List.take_append_drop ..).symm,?_,?_⟩
      · dsimp only
        rw [search,lowest,next]
        rfl
      · have length : ((below++above).take (i+below.length)).length = i+below.length := by
          simp only [List.length_take,length_append]
          omega
        rw [length]
        constructor
        · intro le
          have zero : i = 0 := by omega
          subst zero
          refine Or.inr (Or.inr ⟨above[0],?_,here⟩)
          rw [List.head?_eq_getElem?,getElem?_eq_getElem bound]
        · rintro (⟨w,member,belongs_w⟩ | nobody | ⟨w,head,belongs_w⟩)
          · simp [none_below w member] at belongs_w
          · simp [nobody _ (getElem_mem bound)] at here
          · by_contra higher
            have positive : 0 < i := by omega
            have zeroth := first 0 positive
            rw [List.head?_eq_getElem?,getElem?_eq_getElem (by omega)] at head
            cases head
            exact zeroth belongs_w

/-- Raising within the application never lowers, and lowering never raises where the lowest other window of the
application is below the client or right above it. -/
theorem withinApplication_iff (nodup : (below++.client c :: above).Nodup) :
    WithinApplication sameApplication (below++.client c :: above) c ↔ LowersWithin sameApplication c below above := by
  obtain ⟨left,right,parts,result,low⟩ := lowerClientWithinApplication_eq sameApplication nodup
  have perm : (left++Toplevel.client c :: right).Perm (below++.client c :: above) := by
    refine perm_middle.trans ?_
    rw [← parts]
    exact perm_middle.symm
  have distinct := perm.nodup_iff.mpr nodup
  rw [← low]
  constructor
  · intro within
    by_contra higher
    have more : below.length < left.length := by omega
    have drop : (below++above)[below.length]? = above[0]? := by
      rw [getElem?_append_right le_rfl,Nat.sub_self]
    rw [parts,List.getElem?_append_left more,getElem?_eq_getElem more] at drop
    have first : left[below.length] ∈ above := List.mem_of_getElem? drop.symm
    have kept := within.lowered _ ((before_back nodup).mpr first)
    rw [result] at kept
    have twice := (before_front distinct).mpr (getElem_mem more)
    exact Before.asymm distinct kept twice
  · intro le
    have inside : ∀ w ∈ above, w ∈ right := by
      intro w member
      obtain ⟨i,bound,element⟩ := List.getElem_of_mem member
      have there : (below++above)[below.length+i]? = some w := by
        rw [getElem?_append_right (by omega),Nat.add_sub_cancel_left,getElem?_eq_getElem bound,element]
      rw [parts,getElem?_append_right (by omega)] at there
      exact List.mem_of_getElem? there
    have raise := raiseClientWithinApplication_cases sameApplication nodup
    have rest := removeAll_middle nodup
    refine ⟨?_,?_,?_,?_,?_,?_⟩
    · intro w lower
      rcases raise with stays | ⟨front,back,split,moved⟩
      · rwa [stays]
      · have member := (before_front nodup).mp lower
        rw [moved]
        have both := (singleton_sublist.mpr (List.mem_append_left front member)).append
          (singleton_sublist.mpr (mem_cons_self (a := Toplevel.client c) (l := back)))
        exact both
    · intro w higher
      rw [result]
      exact (before_back distinct).mpr (inside w ((before_back nodup).mp higher))
    · rcases raise with stays | ⟨front,back,rfl,moved⟩
      · rw [stays]
      · have same : (below++front++Toplevel.client c :: back).Perm (below++.client c :: (front++back)) := by
          refine perm_middle.trans ?_
          rw [append_assoc]
          exact perm_middle.symm
        rw [moved,rest,removeAll_middle (same.nodup_iff.mpr nodup),append_assoc]
    · rw [result,rest,removeAll_middle distinct,parts]
    · rcases raise with stays | ⟨front,back,rfl,moved⟩
      · rw [stays]
      · rw [moved]
        refine perm_middle.trans ?_
        rw [append_assoc]
        exact perm_middle.symm
    · rw [result]
      exact perm

theorem withinApplication_neighbours :
    WithinApplication (fun _ _ => true) ([.other 7]++.client 0 :: [.client 1,.other 8]) 0 ↔
      LowersWithin (fun _ _ => true) 0 [.other 7] [.client 1,.other 8] :=
  withinApplication_iff (by decide)

/-- The bottom window of an application is raised over another window when it is to be lowered. -/
theorem lowering_raises :
    Before [Toplevel.client 0,.other 7,.client 1] (.client 0) (.other 7) ∧
      Before (lowerClientWithinApplication (fun _ _ => true) [.client 0,.other 7,.client 1] 0) (.other 7) (.client 0) ∧
      ¬WithinApplication (fun _ _ => true) [.client 0,.other 7,.client 1] 0 := by
  have before : Before [Toplevel.client 0,.other 7,.client 1] (.client 0) (.other 7) := by
    unfold Before
    decide
  have moved : lowerClientWithinApplication (fun _ _ => true) [.client 0,.other 7,.client 1] 0 =
      [.other 7,.client 0,.client 1] := by decide
  have raised : Before [Toplevel.other 7,.client 0,.client 1] (.other 7) (.client 0) := by
    unfold Before
    decide
  refine ⟨before,moved ▸ raised,fun within => ?_⟩
  have kept := within.lowered _ before
  rw [moved] at kept
  exact Before.asymm (by decide) kept raised

end

/-- What restacking reads of the windows. -/
structure Stacked where
  isNormalWindow : ClientRef → Bool
  isShown : ClientRef → Bool
  isOnCurrentDesktop : ClientRef → Bool
  isOnCurrentActivity : ClientRef → Bool
  isOnScreen : ClientRef → Nat → Bool
  screen : ClientRef → Nat
  layer : ClientRef → Layer
  belongToSameApplication : ClientRef → ClientRef → Bool

namespace Stacked
variable (attributes : Stacked)

/-- The windows above the sibling that count: they are normal and shown where the client is. -/
def relevant (this : ClientRef) : Toplevel → Bool
  | .client c =>
    attributes.isNormalWindow c && attributes.isShown c && attributes.isOnCurrentDesktop c && attributes.isOnCurrentActivity c &&
      attributes.isOnScreen c (attributes.screen this)
  | .other _ => false

end Stacked

/-- How the search for the window above the sibling ends. -/
inductive Found
  | bottom
  | top
  | above (it : Toplevel)
deriving DecidableEq, Repr

/-- `while (--it != begin)`, where `it` is an index. -/
def searchAbove (relevant : Toplevel → Bool) (stacking : List Toplevel) (other : Toplevel) : Nat → Found
  | 0 | 1 => .bottom
  | i+2 =>
    if stacking[i+1]? = some other then .top
    else
      match stacking[i+1]? with
      | some it =>
        if relevant it then if stacking[i]? = some other then .above it else searchAbove relevant stacking other (i+1)
        else searchAbove relevant stacking other (i+1)
      | none => .bottom

/-- The main windows of a client, from the nearest on. -/
inductive Mainwindows (ws : Workspace) : ClientRef → List ClientRef → Prop
  | none {c : ClientRef} : (ws.client c).transientFor = none → Mainwindows ws c []
  | some {c m : ClientRef} {mains : List ClientRef} :
      (ws.client c).transientFor = some m → Mainwindows ws m mains → Mainwindows ws c (m :: mains)

/-- `raiseClient` with `nogroup`. -/
def raiseAlone (unconstrained : List Toplevel) (c : ClientRef) : List Toplevel :=
  removeAll unconstrained (.client c)++[.client c]

/-- The main windows are raised before the client. -/
def raiseClient (ws : Workspace) (mains : List ClientRef) (unconstrained : List Toplevel) (c : ClientRef) :
    List Toplevel :=
  raiseAlone (if ws.isTransient c then mains.foldl raiseAlone unconstrained else unconstrained) c

def restack (attributes : Stacked) (unconstrained : List Toplevel) (c under : ClientRef) : List Toplevel :=
  let under :=
    if attributes.belongToSameApplication under c then some under
    else
      -- below all windows of the active application
      match unconstrained.find? fun it => match it with
        | .client other => attributes.layer other = attributes.layer c && attributes.belongToSameApplication under other
        | .other _ => false with
      | some (.client other) => if c = other then none else some other
      | _ => some under
  match under with
  | none => unconstrained
  | some under =>
    let rest := removeAll unconstrained (.client c)
    insertAt rest (indexOf rest (.client under)) (.client c)

inductive StackMode
  | Above
  | Below
deriving DecidableEq, Repr

/-- `full` is whether a tool asks or the client may be raised fully. -/
def raiseClientRequest (attributes : Stacked) (ws : Workspace) (mains : List ClientRef) (full : Bool)
    (unconstrained : List Toplevel) (c : ClientRef) : List Toplevel :=
  if full then raiseClient ws mains unconstrained c
  else raiseClientWithinApplication attributes.belongToSameApplication unconstrained c

/-- `restackWindow` for a sibling that is found. -/
def restackWindow (attributes : Stacked) (ws : Workspace) (mains : List ClientRef) (full : Bool)
    (unconstrained stacking : List Toplevel) (this other : ClientRef) : StackMode → List Toplevel
  | .Below => restack attributes unconstrained this other
  | .Above =>
    match searchAbove (attributes.relevant this) stacking (.client other) stacking.length with
    | .above (.client it) => restack attributes unconstrained this it
    | .top => raiseClientRequest attributes ws mains true unconstrained this -- forced
    | _ => raiseClientRequest attributes ws mains full unconstrained this

section
variable {ws : Workspace}

theorem Mainwindows.unique {c : ClientRef} {mains others : List ClientRef} (first : Mainwindows ws c mains)
    (second : Mainwindows ws c others) : mains = others := by
  induction first generalizing others with
  | none top =>
    cases second with
    | none _ => rfl
    | some main _ => simp [top] at main
  | some main _ ih =>
    cases second with
    | none top => simp [main] at top
    | some other rest =>
      rw [main] at other
      cases other
      rw [ih rest]

theorem Mainwindows.behind {c m : ClientRef} {mains : List ClientRef} (chain : Mainwindows ws c mains) (member : m ∈ mains) :
    ∃ front back : List ClientRef, mains = front++m :: back ∧ Mainwindows ws m back := by
  induction chain with
  | none _ => cases member
  | @some c first mains main rest ih =>
    rcases List.mem_cons.mp member with rfl | later
    · exact ⟨[],mains,rfl,rest⟩
    · obtain ⟨front,back,rfl,behind⟩ := ih later
      exact ⟨first :: front,back,rfl,behind⟩

theorem Mainwindows.nodup {c : ClientRef} {mains : List ClientRef} (chain : Mainwindows ws c mains) :
    mains.Nodup ∧ c ∉ mains := by
  induction chain with
  | none _ => simp
  | @some c m mains main rest ih =>
    refine ⟨nodup_cons.mpr ⟨ih.2,ih.1⟩,fun member => ?_⟩
    obtain ⟨front,back,split,behind⟩ := (Mainwindows.some main rest).behind member
    have same := (Mainwindows.some main rest).unique behind
    have length := congrArg List.length split
    rw [same] at length
    simp only [length_append,length_cons] at length
    omega

theorem isTransient_of_mains {c m : ClientRef} {mains : List ClientRef} (chain : Mainwindows ws c (m :: mains)) :
    ws.isTransient c = true := by
  cases chain with
  | some main _ => exact isTransient_of_transientFor main

end

theorem foldl_raiseAlone {mains : List ClientRef} (nodup : mains.Nodup) (windows : List Toplevel) :
    mains.foldl raiseAlone windows =
      (windows.filter fun w => w ∉ mains.map Toplevel.client)++mains.map Toplevel.client := by
  induction mains using List.reverseRecOn with
  | nil => simp
  | append_singleton mains m ih =>
    obtain ⟨rest,_,apart⟩ := nodup_append.mp nodup
    have absent : Toplevel.client m ∉ mains.map Toplevel.client := by
      intro member
      obtain ⟨other,there,same⟩ := List.mem_map.mp member
      cases same
      exact apart _ there _ (by simp) rfl
    rw [List.foldl_append,ih rest,List.foldl_cons,List.foldl_nil,raiseAlone,removeAll,filter_append,List.filter_filter]
    have keeps := removeAll_of_not_mem absent
    rw [removeAll] at keeps
    rw [keeps,List.map_append,List.map_cons,List.map_nil,append_assoc]
    congr 1
    refine List.filter_congr fun w _ => ?_
    simp only [List.mem_append,List.mem_singleton,not_or]
    by_cases here : w = .client m
    · simp [here]
    · simp [here]

theorem foldl_raiseAlone_eq {mains : List ClientRef} (nodup : mains.Nodup) {windows : List Toplevel}
    (distinct : windows.Nodup) :
    mains.foldl raiseAlone windows = windows ↔ mains.map Toplevel.client <:+ windows := by
  rw [foldl_raiseAlone nodup]
  constructor
  · exact fun same => ⟨_,same⟩
  · rintro ⟨rest,rfl⟩
    obtain ⟨_,_,apart⟩ := nodup_append.mp distinct
    rw [filter_append]
    have all : (rest.filter fun w => decide (w ∉ mains.map Toplevel.client)) = rest := by
      rw [List.filter_eq_self]
      intro w member
      rw [decide_eq_true_eq]
      exact fun there => apart w member w there rfl
    have nothing : ((mains.map Toplevel.client).filter fun w => decide (w ∉ mains.map Toplevel.client)) = [] := by
      rw [List.filter_eq_nil_iff]
      intro w member
      simpa using member
    rw [all,nothing,List.append_nil]

theorem removeAll_foldl_raiseAlone {mains : List ClientRef} (nodup : mains.Nodup) {c : ClientRef} (other : c ∉ mains)
    (windows : List Toplevel) :
    removeAll (mains.foldl raiseAlone windows) (.client c) = mains.foldl raiseAlone (removeAll windows (.client c)) := by
  have absent : Toplevel.client c ∉ mains.map Toplevel.client := by
    intro member
    obtain ⟨m,there,same⟩ := List.mem_map.mp member
    cases same
    exact other there
  rw [foldl_raiseAlone nodup,foldl_raiseAlone nodup,removeAll,filter_append]
  have keeps := removeAll_of_not_mem absent
  rw [removeAll] at keeps
  rw [keeps,removeAll,List.filter_filter,List.filter_filter]
  congr 1
  refine List.filter_congr fun w _ => ?_
  rw [Bool.and_comm]

section
variable {attributes : Stacked} {ws : Workspace} {mains : List ClientRef} {full : Bool} {c other : ClientRef}
  {order : List Toplevel}

theorem searchAbove_top (relevant : Toplevel → Bool) {front : List Toplevel} {w : Toplevel} (below : front ≠ []) :
    searchAbove relevant (front++[w]) w (front++[w]).length = .top := by
  obtain ⟨n,length⟩ : ∃ n, front.length = n+1 := Nat.exists_eq_succ_of_ne_zero (by simpa using below)
  simp [length,searchAbove]

theorem searchAbove_above {relevant : Toplevel → Bool} {front back : List Toplevel} {w it : Toplevel}
    (nodup : (front++w :: it :: back).Nodup) (all : ∀ v ∈ it :: back, relevant v) {k : Nat} (bound : k ≤ back.length) :
    searchAbove relevant (front++w :: it :: back) w (front.length+k+2) = .above it := by
  have element (i : Nat) : (front++w :: it :: back)[front.length+1+i]? = (it :: back)[i]? := by
    rw [getElem?_append_right (by omega),List.getElem?_cons,if_neg (by omega)]
    congr 1
    omega
  have absent : w ∉ it :: back := (nodup_cons.mp (nodup_append.mp nodup).2.1).1
  have here : (front++w :: it :: back)[front.length]? = some w := by simp
  induction k with
  | zero =>
    have first := element 0
    rw [Nat.add_zero,List.getElem?_cons_zero] at first
    have different : it ≠ w := fun same => absent (same ▸ mem_cons_self)
    simp [searchAbove,different,all it mem_cons_self]
  | succ k ih =>
    have above := element (k+1)
    have below := element k
    have higher : k+1 < (it :: back).length := by
      rw [length_cons]
      omega
    rw [getElem?_eq_getElem higher] at above
    rw [getElem?_eq_getElem (Nat.lt_of_succ_lt higher)] at below
    rw [show front.length+(k+1)+2 = (front.length+1+k)+2 by omega,searchAbove]
    rw [show front.length+1+k+1 = front.length+1+(k+1) by omega,above,below]
    have apart : (it :: back)[k+1] ≠ w := fun same => absent (same ▸ getElem_mem _)
    have beneath : (it :: back)[k] ≠ w := fun same => absent (same ▸ getElem_mem _)
    rw [if_neg (by simpa using apart)]
    dsimp only
    rw [if_pos (all _ (getElem_mem _)),if_neg (by simpa using beneath)]
    rw [show front.length+1+(k+1) = front.length+k+2 by omega]
    exact ih (by omega)

theorem infix_next {front back : List Toplevel} {w it x : Toplevel} (nodup : (front++w :: it :: back).Nodup)
    (next : [w,x] <:+: front++w :: it :: back) : x = it := by
  obtain ⟨before,after,split⟩ := next
  have left : (front++w :: it :: back)[before.length]? = some w := by simp [← split]
  have right : (front++w :: it :: back)[before.length+1]? = some x := by
    rw [← split,append_assoc,getElem?_append_right (by omega)]
    simp
  have here : (front++w :: it :: back)[front.length]? = some w := by simp
  have same := (List.getElem?_inj (List.getElem?_eq_some_iff.mp left).1 nodup).mp (left.trans here.symm)
  rw [same,getElem?_append_right (by omega)] at right
  simpa using right.symm

theorem restack_same (nodup : order.Nodup) (same : attributes.belongToSameApplication other c)
    (member : .client other ∈ order) (different : other ≠ c) :
    ∃ front back : List Toplevel, removeAll order (.client c) = front++.client other :: back ∧
      restack attributes order c other = front++.client c :: .client other :: back := by
  have there : Toplevel.client other ∈ removeAll order (.client c) := by
    simp [member,different]
  obtain ⟨front,back,split⟩ := List.append_of_mem there
  refine ⟨front,back,split,?_⟩
  have distinct := removeAll_nodup nodup (.client c)
  rw [split] at distinct
  have absent : Toplevel.client other ∉ front := fun inFront =>
    (nodup_append.mp distinct).2.2 _ inFront _ mem_cons_self rfl
  unfold restack
  rw [if_pos same]
  dsimp only
  rw [split,indexOf_middle absent,insertAt_append]

theorem restack_self (same : attributes.belongToSameApplication c c) :
    restack attributes order c c = .client c :: removeAll order (.client c) := by
  have absent : (removeAll order (.client c)).idxOf? (.client c) = none := by
    rw [List.idxOf?_eq_none_iff]
    simp
  simp [restack,same,indexOf,absent,insertAt]

/-- The client is where the request has asked for it, and the other windows are as before. -/
def Restacked (order after : List Toplevel) (c other : ClientRef) (mode : StackMode) : Prop :=
  (match mode with
    | .Above => Before after (.client other) (.client c)
    | .Below => Before after (.client c) (.client other)) ∧
  removeAll after (.client c) = removeAll order (.client c)

/-- For `Above`, the client is not right above its sibling already, and where the sibling is the topmost window,
    the main windows of the client are the topmost ones below the client. -/
def Restackable (order : List Toplevel) (mains : List ClientRef) (c other : ClientRef) : StackMode → Prop
  | .Above => ¬[Toplevel.client other,.client c] <:+: order ∧
      (order.getLast? = some (.client other) → mains.map Toplevel.client <:+ removeAll order (.client c))
  | .Below => True

/-- Windows of one application, all of them shown: a request with a sibling does what it asks for, but where the
client is right above its sibling already, or its main windows are raised with it. -/
theorem restackWindow_iff (nodup : order.Nodup) (shown : ∀ w ∈ order, attributes.relevant c w)
    (application : ∀ v w, .client v ∈ order → .client w ∈ order → attributes.belongToSameApplication v w)
    (chain : Mainwindows ws c mains) (here : .client c ∈ order) (there : .client other ∈ order) (different : other ≠ c)
    (mode : StackMode) :
    Restacked order (restackWindow attributes ws mains full order order c other mode) c other mode ↔
      Restackable order mains c other mode := by
  have unlike : Toplevel.client other ≠ .client c := by simpa using different
  have rest := removeAll_nodup nodup (.client c)
  -- where it is put below another window
  have below {d : ClientRef} (member : .client d ∈ order) (other_d : d ≠ c) :
      ∃ front back : List Toplevel, removeAll order (.client c) = front++.client d :: back ∧
        restack attributes order c d = front++.client c :: .client d :: back ∧
        (front++Toplevel.client c :: .client d :: back).Nodup := by
    obtain ⟨front,back,split,result⟩ := restack_same nodup (application d c member here) member other_d
    refine ⟨front,back,split,result,perm_middle.nodup_iff.mpr (nodup_cons.mpr ⟨?_,split ▸ rest⟩)⟩
    rw [← split]
    simp
  cases mode with
  | Below =>
    obtain ⟨front,back,split,result,distinct⟩ := below there different
    refine iff_of_true ⟨?_,?_⟩ trivial
    · simp only [restackWindow,result]
      exact (before_back distinct).mpr mem_cons_self
    · simp only [restackWindow,result]
      rw [removeAll_middle distinct,split]
  | Above =>
    obtain ⟨front,back,rfl⟩ := List.append_of_mem there
    cases back with
    | nil =>
      have beneath : Toplevel.client c ∈ front := by simpa [unlike.symm] using here
      have found := searchAbove_top (attributes.relevant c) (w := .client other) (List.ne_nil_of_mem beneath)
      have raised : restackWindow attributes ws mains full (front++[.client other]) (front++[.client other]) c other .Above =
          mains.foldl raiseAlone (removeAll (front++[.client other]) (.client c))++[.client c] := by
        obtain ⟨distinct,absent⟩ := chain.nodup
        simp only [restackWindow,found,raiseClientRequest,if_true,raiseClient]
        rw [← removeAll_foldl_raiseAlone distinct absent]
        cases mains with
        | nil => simp [raiseAlone]
        | cons m mains => simp [isTransient_of_mains chain,raiseAlone]
      obtain ⟨distinct,absent⟩ := chain.nodup
      have apart : Toplevel.client c ∉ mains.foldl raiseAlone (removeAll (front++[.client other]) (.client c)) := by
        rw [← removeAll_foldl_raiseAlone distinct absent]
        simp
      have kept : Toplevel.client other ∈ mains.foldl raiseAlone (removeAll (front++[.client other]) (.client c)) := by
        rw [foldl_raiseAlone distinct]
        by_cases main : Toplevel.client other ∈ mains.map Toplevel.client
        · exact List.mem_append_right _ main
        · refine List.mem_append_left _ (List.mem_filter.mpr ⟨by simp [different],by simpa using main⟩)
      have taken : removeAll (mains.foldl raiseAlone (removeAll (front++[.client other]) (.client c))++[.client c])
          (.client c) = mains.foldl raiseAlone (removeAll (front++[.client other]) (.client c)) := by
        have keeps := removeAll_of_not_mem apart
        rw [removeAll] at keeps
        rw [removeAll,filter_append,keeps]
        simp
      simp only [Restacked,Restackable,raised,taken,foldl_raiseAlone_eq distinct rest]
      constructor
      · rintro ⟨_,suffix⟩
        refine ⟨fun next => ?_,fun _ => suffix⟩
        have after := (before_back nodup).mp next.sublist
        cases after
      · rintro ⟨_,suffix⟩
        exact ⟨(singleton_sublist.mpr kept).append (List.Sublist.refl _),suffix (by simp)⟩
    | cons it back =>
      have member : it ∈ front++.client other :: it :: back := by simp
      have found : searchAbove (attributes.relevant c) (front++.client other :: it :: back) (.client other)
          (front++.client other :: it :: back).length = .above it := by
        have length : (front++Toplevel.client other :: it :: back).length = front.length+back.length+2 := by
          simp only [length_append,length_cons]
          omega
        rw [length]
        refine searchAbove_above nodup (fun v inside => shown v ?_) le_rfl
        exact List.mem_append_right _ (List.mem_cons_of_mem _ inside)
      have absent : Toplevel.client other ∉ it :: back := (nodup_cons.mp (nodup_append.mp nodup).2.1).1
      have last : (front++Toplevel.client other :: it :: back).getLast? ≠ some (.client other) := by
        intro equal
        rw [List.getLast?_append_of_ne_nil _ (by simp),List.getLast?_cons_cons] at equal
        exact absent (List.mem_of_getLast? equal)
      cases it with
      | other w => simpa [Stacked.relevant] using shown _ member
      | client d =>
        by_cases self : d = c
        · subst self
          have result : restack attributes (front++.client other :: .client d :: back) d d =
              .client d :: removeAll (front++.client other :: .client d :: back) (.client d) :=
            restack_self (application d d member member)
          refine iff_of_false ?_ ?_
          · rintro ⟨above,_⟩
            simp only [restackWindow,found,result] at above
            have distinct : ([]++Toplevel.client d :: removeAll (front++Toplevel.client other :: .client d :: back)
                (.client d)).Nodup := nodup_cons.mpr ⟨by simp,rest⟩
            have nothing := (before_front distinct).mp above
            cases nothing
          · rintro ⟨next,_⟩
            exact next ⟨front,back,by simp⟩
        · obtain ⟨left,right,split,result,distinct⟩ := below member self
          refine iff_of_true ⟨?_,?_⟩ ⟨fun next => ?_,fun equal => absurd equal last⟩
          · simp only [restackWindow,found,result]
            have before : Before (front++Toplevel.client other :: .client d :: back) (.client other) (.client d) :=
              (before_back nodup).mpr mem_cons_self
            have still := (before_removeAll unlike (by simpa using self)).mpr before
            rw [split] at still
            exact (before_front distinct).mpr ((before_front (split ▸ rest)).mp still)
          · simp only [restackWindow,found,result]
            rw [removeAll_middle distinct,split]
          · have same := infix_next nodup next
            cases same
            exact self rfl

/-- Windows without main windows. -/
def plainWindows : Workspace where
  rootWindow := 1
  rootExists := one_exists
  objects := [0,1,2]
  client c := ⟨10+c,.Normal,false,10,10,windowNone,windowNone,none,none_holdsId,[],some 0⟩
  clients := [0,1,2]
  desktops := []
  groups := [0]
  group _ := ⟨10,[0,1,2],0⟩
  nextGroup := 1

/-- Shown windows of one application. -/
def plainStacked : Stacked :=
  ⟨fun _ => true,fun _ => true,fun _ => true,fun _ => true,fun _ _ => true,fun _ => 0,fun _ => .NormalLayer,fun _ _ => true⟩

theorem restackWindow_plain :
    Restacked [.client 0,.client 2,.client 1]
        (restackWindow plainStacked plainWindows [] false [.client 0,.client 2,.client 1] [.client 0,.client 2,.client 1]
          1 0 .Above) 1 0 .Above ↔
      Restackable [.client 0,.client 2,.client 1] [] 1 0 .Above :=
  restackWindow_iff (by decide) (by simp [plainStacked,Stacked.relevant]) (fun _ _ _ _ => rfl) (.none rfl) (by decide)
    (by decide) (by decide) .Above

/-- A window right above its sibling goes to the bottom when it is to be above the sibling. -/
theorem restacked_to_bottom :
    restackWindow plainStacked plainWindows [] false [.client 0,.client 1,.client 2] [.client 0,.client 1,.client 2]
        1 0 .Above = [.client 1,.client 0,.client 2] ∧
      ¬Restacked [.client 0,.client 1,.client 2]
        (restackWindow plainStacked plainWindows [] false [.client 0,.client 1,.client 2] [.client 0,.client 1,.client 2]
          1 0 .Above) 1 0 .Above := by
  have moved : restackWindow plainStacked plainWindows [] false [.client 0,.client 1,.client 2]
      [.client 0,.client 1,.client 2] 1 0 .Above = [.client 1,.client 0,.client 2] := by decide
  refine ⟨moved,fun restacked => ?_⟩
  have above := restacked.1
  rw [moved] at above
  have beneath : Before [Toplevel.client 1,.client 0,.client 2] (.client 1) (.client 0) := by
    unfold Before
    decide
  exact Before.asymm (by decide) above beneath

end

end KdeWorkspace.StackingOrder
