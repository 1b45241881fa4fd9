import KdeWorkspace.Lists

/-!
Reordering the tabs of a `TabGroup`.

`TabGroup::move` counts the target index in the list that still holds the tab,
while `QList::move` counts it after the tab was taken out. The other tabs keep
their order, but a tab that stood in front of the other one ends one place too
far behind, unless the end of the list stops it (`move_stands_iff`).
-/
namespace KdeWorkspace.TabGroups
open Lists List
universe u
variable {Client : Type u} [DecidableEq Client]

/-- The tabs in their order, the one that is shown, and the clients whose decoration was sent a repaint. -/
structure TabGroup (Client : Type u) where
  clients : List Client
  current : Client
  repaints : List Client
  nodup : clients.Nodup

/-- `QList::indexOf`. -/
def indexOf (list : List Client) (c : Client) : Int := if c ∈ list then list.idxOf c else -1

/-- `QList::move`: the item is taken out, and put in at an index of what is left. -/
def moveItem (list : List Client) (i j : Int) : List Client :=
  match list[i.toNat]? with
  | some item => insertAt (list.eraseIdx i.toNat) j item
  | none => list

/-- The index of the other tab, or the last one when there is no other. -/
def indexOfOther (clients : List Client) : Option Client → Int
  | some other => indexOf clients other
  | none => clients.length-1

/-- The tabs after `TabGroup::move`; nothing when it returns early. -/
def moveTabs (clients : List Client) (c : Client) (other : Option Client) (after : Bool) : Option (List Client) :=
  if some c = other then none
  else
    let start := indexOf clients c
    if start < 0 then none
    else
      let target := indexOfOther clients other
      if target < 0 then none
      else
        let target := target+(if after then 1 else 0)
        let target := if target ≥ clients.length then (clients.length : Int)-1 else target
        if start = target then none else some (moveItem clients start target)

section
variable {list : List Client} {c other : Client}

theorem getElem?_idxOf (member : c ∈ list) : list[list.idxOf c]? = some c := by
  rw [getElem?_eq_getElem (idxOf_lt_length_of_mem member),getElem_idxOf]

theorem idxOf_eq (nodup : list.Nodup) {i : Nat} (here : list[i]? = some c) : list.idxOf c = i := by
  have at_index := getElem?_idxOf (List.mem_of_getElem? here)
  exact (List.getElem?_inj (List.getElem?_eq_some_iff.mp at_index).1 nodup).mp (at_index.trans here.symm)

theorem before_iff_idxOf (nodup : list.Nodup) (left : c ∈ list) (right : other ∈ list) :
    Before list c other ↔ list.idxOf c < list.idxOf other := by
  rw [before_iff]
  constructor
  · rintro ⟨i,j,lt,atI,atJ⟩
    rwa [idxOf_eq nodup atI,idxOf_eq nodup atJ]
  · exact fun lt => ⟨_,_,lt,getElem?_idxOf left,getElem?_idxOf right⟩

theorem last_iff_idxOf (nodup : list.Nodup) (member : other ∈ list) :
    list.getLast? = some other ↔ list.idxOf other+1 = list.length := by
  have bound := idxOf_lt_length_of_mem member
  rw [getLast?_eq_getElem?]
  constructor
  · intro last
    have index := idxOf_eq nodup last
    omega
  · intro last
    have index : list.length-1 = list.idxOf other := by omega
    rw [index,getElem?_idxOf member]

theorem getElem?_removeAll (nodup : list.Nodup) (left : c ∈ list) (right : other ∈ list) (distinct : c ≠ other) :
    (removeAll list c)[if list.idxOf c < list.idxOf other then list.idxOf other-1 else list.idxOf other]? = some other := by
  rw [← eraseIdx_eq_removeAll nodup (getElem?_idxOf left),getElem?_eraseIdx]
  have apart : list.idxOf c ≠ list.idxOf other := by
    intro same
    have equal := (getElem?_idxOf left).symm.trans (same ▸ getElem?_idxOf right)
    exact distinct (Option.some.inj equal)
  by_cases lt : list.idxOf c < list.idxOf other
  · rw [if_pos lt,if_neg (by omega),Nat.sub_add_cancel (by omega),getElem?_idxOf right]
  · rw [if_neg lt,if_pos (by omega),getElem?_idxOf right]

omit [DecidableEq Client] in
theorem pair_infix_iff {a b : Client} : [a,b] <:+: list ↔ ∃ i : Nat, list[i]? = some a ∧ list[i+1]? = some b := by
  rw [infix_iff_getElem?]
  constructor
  · rintro ⟨i,_,entries⟩
    have first := entries 0 (by simp)
    have second := entries 1 (by simp)
    rw [Nat.zero_add] at first
    rw [Nat.add_comm] at second
    exact ⟨i,first,second⟩
  · rintro ⟨i,first,second⟩
    have bound := (List.getElem?_eq_some_iff.mp second).1
    refine ⟨i,by simp only [List.length_cons,List.length_nil]; omega,?_⟩
    intro k lt
    match k, lt with
    | 0,_ => rw [Nat.zero_add]; exact first
    | 1,_ => rw [Nat.add_comm]; exact second

theorem insertAt_neighbours (nodup : list.Nodup) (absent : c ∉ list) {k p : Nat} (le : k ≤ list.length)
    (here : list[p]? = some other) :
    ([other,c] <:+: insertAt list k c ↔ k = p+1) ∧ ([c,other] <:+: insertAt list k c ↔ k = p) := by
  have distinct : (insertAt list k c).Nodup := (insertAt_perm list k c).nodup_iff.mpr (nodup_cons.mpr ⟨absent,nodup⟩)
  have inserted : (insertAt list k c)[k]? = some c := by simp [getElem?_insertAt le]
  have moved : (insertAt list k c)[if p < k then p else p+1]? = some other := by
    rw [getElem?_insertAt le]
    by_cases lt : p < k
    · rw [if_pos lt,if_pos lt,here]
    · rw [if_neg lt,if_neg (by omega),if_neg (by omega),Nat.add_sub_cancel,here]
  constructor
  · rw [pair_infix_iff]
    constructor
    · rintro ⟨i,first,second⟩
      have atOther := (idxOf_eq distinct first).symm.trans (idxOf_eq distinct moved)
      have atC := (idxOf_eq distinct second).symm.trans (idxOf_eq distinct inserted)
      split at atOther <;> omega
    · rintro rfl
      rw [if_pos (by omega)] at moved
      exact ⟨p,moved,inserted⟩
  · rw [pair_infix_iff]
    constructor
    · rintro ⟨i,first,second⟩
      have atOther := (idxOf_eq distinct second).symm.trans (idxOf_eq distinct moved)
      have atC := (idxOf_eq distinct first).symm.trans (idxOf_eq distinct inserted)
      split at atOther <;> omega
    · rintro rfl
      rw [if_neg (by omega)] at moved
      exact ⟨k,inserted,moved⟩

theorem insertAt_own_index (nodup : list.Nodup) (member : c ∈ list) :
    insertAt (removeAll list c) (list.idxOf c) c = list := by
  have bound := idxOf_lt_length_of_mem member
  have length := length_removeAll nodup member
  apply ext_getElem?
  intro j
  rw [getElem?_insertAt (by omega),← eraseIdx_eq_removeAll nodup (getElem?_idxOf member)]
  by_cases front : j < list.idxOf c
  · rw [if_pos front,getElem?_eraseIdx,if_pos front]
  · rw [if_neg front]
    by_cases here : j = list.idxOf c
    · rw [if_pos here,here,getElem?_idxOf member]
    · rw [if_neg here,getElem?_eraseIdx,if_neg (by omega),Nat.sub_add_cancel (by omega)]

end

/-- The index at which a tab is put in once it was taken out. -/
def targetIndex (clients : List Client) (other : Client) (after : Bool) : Nat :=
  min (clients.idxOf other+(if after then 1 else 0)) (clients.length-1)

theorem moveTabs_members {clients : List Client} (nodup : clients.Nodup) {c other : Client} (left : c ∈ clients)
    (right : other ∈ clients) (distinct : c ≠ other) (after : Bool) :
    (moveTabs clients c (some other) after).getD clients =
      insertAt (removeAll clients c) (targetIndex clients other after) c := by
  have boundC := idxOf_lt_length_of_mem left
  have boundOther := idxOf_lt_length_of_mem right
  have target : (if (clients.idxOf other : Int)+(if after then 1 else 0) ≥ clients.length then (clients.length : Int)-1
      else (clients.idxOf other : Int)+(if after then 1 else 0)) = targetIndex clients other after := by
    cases after <;> simp only [targetIndex] <;> split <;> grind
  unfold moveTabs
  rw [if_neg (by simpa using distinct)]
  simp only [indexOfOther,indexOf,if_pos left,if_pos right]
  rw [if_neg (by omega),if_neg (by omega),target]
  by_cases same : (clients.idxOf c : Int) = targetIndex clients other after
  · rw [if_pos same,Option.getD_none,← same,insertAt_own_index nodup left]
  · rw [if_neg same,Option.getD_some]
    unfold moveItem
    rw [Int.toNat_natCast,getElem?_idxOf left]
    simp only
    rw [eraseIdx_eq_removeAll nodup (getElem?_idxOf left)]

/-- Whatever `TabGroup::move` is given, it takes the tab out and puts it in somewhere. -/
theorem moveTabs_moved {clients moved : List Client} (nodup : clients.Nodup) {c : Client} {other : Option Client}
    {after : Bool} (done : moveTabs clients c other after = some moved) : Moved c clients moved := by
  unfold moveTabs at done
  by_cases same : some c = other
  · rw [if_pos same] at done; cases done
  rw [if_neg same] at done
  by_cases member : c ∈ clients
  · have start : indexOf clients c = clients.idxOf c := if_pos member
    simp only [start] at done
    rw [if_neg (by omega)] at done
    by_cases missing : indexOfOther clients other < 0
    · rw [if_pos missing] at done; cases done
    rw [if_neg missing] at done
    generalize (if indexOfOther clients other+(if after then 1 else 0) ≥ clients.length then (clients.length : Int)-1
      else indexOfOther clients other+(if after then 1 else 0)) = target at done
    by_cases stays : (clients.idxOf c : Int) = target
    · rw [if_pos stays] at done; cases done
    rw [if_neg stays] at done
    obtain rfl := Option.some.inj done
    refine ⟨target,?_⟩
    unfold moveItem
    rw [Int.toNat_natCast,getElem?_idxOf member]
    simp only
    rw [eraseIdx_eq_removeAll nodup (getElem?_idxOf member)]
  · simp [indexOf,member] at done

namespace TabGroup

/-- `TabGroup::move`. -/
def move (g : TabGroup Client) (c : Client) (other : Option Client) (after : Bool) : TabGroup Client :=
  match done : moveTabs g.clients c other after with
  | none => g
  | some clients =>
    {g with
      clients := clients
      repaints := g.repaints++[g.current]
      nodup := (moveTabs_moved g.nodup done).nodup g.nodup}

variable (g : TabGroup Client)

theorem move_clients (c : Client) (other : Option Client) (after : Bool) :
    (g.move c other after).clients = (moveTabs g.clients c other after).getD g.clients := by
  unfold move
  split <;> rename_i done <;> simp [done]

/-- Both neighbours of the claim: the tab follows the other one, or precedes it. -/
def Stands (g : TabGroup Client) (c other : Client) (after : Bool) : Prop :=
  if after then [other,c] <:+: g.clients else [c,other] <:+: g.clients

/-- The same tabs, the others in their order, and the tab where it was asked to be. -/
structure Placed (g placed : TabGroup Client) (c other : Client) (after : Bool) : Prop where
  perm : placed.clients.Perm g.clients
  others : removeAll placed.clients c = removeAll g.clients c
  stands : placed.Stands c other after

theorem move_others (c : Client) (other : Option Client) (after : Bool) :
    (g.move c other after).clients.Perm g.clients ∧
      removeAll (g.move c other after).clients c = removeAll g.clients c := by
  rw [move_clients]
  cases done : moveTabs g.clients c other after with
  | none => exact ⟨.refl _,rfl⟩
  | some moved =>
    have goes := moveTabs_moved g.nodup done
    refine ⟨?_,goes.others⟩
    have member : c ∈ g.clients := by
      by_contra absent
      unfold moveTabs at done
      simp [indexOf,absent] at done
    obtain ⟨index,rfl⟩ := goes
    rw [Option.getD_some,removeAll_eq_erase g.nodup]
    exact (insertAt_perm _ _ _).trans (perm_cons_erase member).symm

/-- A tab goes where it was asked to go exactly when it stood behind the other one, or is to follow the last tab. -/
theorem move_stands_iff {c other : Client} (left : c ∈ g.clients) (right : other ∈ g.clients) (distinct : c ≠ other)
    (after : Bool) :
    g.Placed (g.move c (some other) after) c other after ↔
      Before g.clients other c ∨ (after = true ∧ g.clients.getLast? = some other) := by
  have kept := g.move_others c (some other) after
  have only : g.Placed (g.move c (some other) after) c other after ↔ (g.move c (some other) after).Stands c other after :=
    ⟨Placed.stands,fun stands => ⟨kept.1,kept.2,stands⟩⟩
  have position := getElem?_removeAll g.nodup left right distinct
  have boundC := idxOf_lt_length_of_mem left
  have boundOther := idxOf_lt_length_of_mem right
  have length := length_removeAll g.nodup left
  have inside : targetIndex g.clients other after ≤ (removeAll g.clients c).length := by
    have stop : targetIndex g.clients other after ≤ g.clients.length-1 := Nat.min_le_right _ _
    omega
  have apart : g.clients.idxOf c ≠ g.clients.idxOf other := fun same =>
    distinct (Option.some.inj ((getElem?_idxOf left).symm.trans (same ▸ getElem?_idxOf right)))
  have absent : c ∉ removeAll g.clients c := by simp
  have neighbours := insertAt_neighbours (removeAll_nodup g.nodup c) absent inside position
  rw [only,Stands,move_clients,moveTabs_members g.nodup left right distinct,before_iff_idxOf g.nodup right left,
    last_iff_idxOf g.nodup right]
  cases after with
  | true =>
    rw [if_pos rfl,neighbours.1]
    simp only [targetIndex,if_true]
    grind
  | false =>
    rw [if_neg Bool.false_ne_true,neighbours.2]
    simp only [targetIndex]
    grind

/-- Three tabs, the first one shown. -/
def three : TabGroup Nat := ⟨[0,1,2],0,[],by decide⟩

theorem move_stands_three :
    2 ∈ three.clients ∧ 0 ∈ three.clients ∧
      (three.Placed (three.move 2 (some 0) true) 2 0 true ↔
        Before three.clients 0 2 ∨ (true = true ∧ three.clients.getLast? = some 0)) :=
  ⟨by decide,by decide,three.move_stands_iff (by decide) (by decide) (by decide) true⟩

/-- Asked to go before the last tab, the first one goes behind it. -/
theorem move_before_goes_behind :
    (three.move 0 (some 2) false).clients = [1,2,0] ∧ ¬ three.Placed (three.move 0 (some 2) false) 0 2 false := by
  have clients : (three.move 0 (some 2) false).clients = [1,2,0] := by
    rw [move_clients]
    decide
  refine ⟨clients,fun placed => ?_⟩
  have stands := placed.stands
  rw [Stands,if_neg Bool.false_ne_true,clients] at stands
  revert stands
  decide

end TabGroup
end KdeWorkspace.TabGroups
