import Mathlib.Data.List.Perm.Subperm
import Mathlib.Data.List.Rotate
import KdeWorkspace.Loops
import KdeWorkspace.VirtualDesktops

/-!
The most recently used virtual desktops of the tab box: a chain (`next`,
`resize`, `add`), the manager that keeps one chain per identifier and follows
the signals of `VirtualDesktopManager`, and the list that the desktop model
builds from the current chain (`CreatesDesktopList`).

A chain that holds every desktop exactly once (`Complete`) gives a list that
does (`createsDesktopList_rotate`). Switching desktops and adding desktops keep
the chains complete; removing desktops keeps a chain complete exactly when the
removed ones stand at its end (`resize_complete_iff`), because the ids that
survive the truncation are clamped.
-/
namespace KdeWorkspace.DesktopChain
open Loops VirtualDesktops List

/-- `DesktopChain::init` on a chain of the initial size. -/
def init (initialSize : Nat) : List Nat := (List.range initialSize).map (fun i => i+1)

/-- `DesktopChain::next`. The index of an absent desktop is the size of the
    chain, which takes the same branch as the `-1` of the source. -/
def next (chain : List Nat) (indexDesktop : Nat) : Nat :=
  let i := chain.idxOf indexDesktop
  if inside : i+1 < chain.length then chain[i+1]
  else if nonempty : chain.length > 0 then chain[0]
  else 1

/-- `DesktopChain::resize`. -/
def resize (chain : List Nat) (previousSize newSize : Nat) : List Nat :=
  let resized := chain.take newSize ++ List.replicate (newSize-chain.length) 0
  if newSize ≥ previousSize then resized.mapIdx (fun i desktop => if previousSize ≤ i then i+1 else desktop)
  else resized.map (fun desktop => min desktop newSize)

/-- The loop of `DesktopChain::add` that moves the first `index` elements by one position. -/
def shift (chain : List Nat) : Nat → List Nat
  | 0 => chain
  | i+1 => shift (chain.set (i+1) (chain.getD i 0)) i

/-- `DesktopChain::add`. -/
def add (chain : List Nat) (desktop : Nat) : List Nat :=
  if chain.isEmpty ∨ desktop > chain.length then chain
  else
    let index := if desktop ∈ chain then chain.idxOf desktop else chain.length-1
    (shift chain index).set 0 desktop

/-- The chain holds every desktop of `1 … n` exactly once. -/
def Complete (n : Nat) (chain : List Nat) : Prop := chain.Perm (List.range' 1 n)

namespace Complete
variable {n : Nat} {chain : List Nat}

theorem length_eq (complete : Complete n chain) : chain.length = n := (List.Perm.length_eq complete).trans length_range'

theorem nodup (complete : Complete n chain) : chain.Nodup := complete.nodup_iff.mpr (nodup_range' ..)

theorem mem_iff (complete : Complete n chain) {desktop : Nat} : desktop ∈ chain ↔ 1 ≤ desktop ∧ desktop ≤ n := by
  rw [List.Perm.mem_iff complete,mem_range'_1]
  omega

end Complete

theorem init_complete (n : Nat) : Complete n (init n) := by
  have same : init n = range' 1 n := by
    simp only [init,range'_eq_map_range]
    exact map_congr_left (fun i _ => by omega)
  rw [same,Complete]

theorem length_shift (chain : List Nat) (index : Nat) : (shift chain index).length = chain.length := by
  induction index generalizing chain with
  | zero => rfl
  | succ i ih => rw [shift,ih,length_set]

/-- The shifting loop writes the places `1 … index` and no other. -/
theorem getElem?_shift (chain : List Nat) (index j : Nat) (bound : index < chain.length) :
    (shift chain index)[j]? = if 1 ≤ j ∧ j ≤ index then chain[j-1]? else chain[j]? := by
  induction index generalizing chain with
  | zero => simp only [shift,show ¬ (1 ≤ j ∧ j ≤ 0) by omega,↓reduceIte]
  | succ i ih =>
    have previous : chain[i]? = some (chain.getD i 0) := by
      rw [getD_eq_getElem?_getD,getElem?_eq_getElem (by omega),Option.getD_some]
    rw [shift,ih _ (by rw [length_set]; omega)]
    by_cases last : j = i+1
    · subst last
      rw [if_neg (by omega),if_pos (by omega),getElem?_set_self bound,Nat.add_sub_cancel,previous]
    · by_cases moved : 1 ≤ j ∧ j ≤ i
      · rw [if_pos moved,if_pos (by omega),getElem?_set_ne (by omega)]
      · rw [if_neg moved,if_neg (by omega),getElem?_set_ne (by omega)]

theorem shift_set_zero (chain : List Nat) (index desktop : Nat) (bound : index < chain.length) :
    (shift chain index).set 0 desktop = desktop :: chain.eraseIdx index := by
  apply ext_getElem?
  rintro (_|j)
  · rw [getElem?_set_self (by rw [length_shift]; omega),getElem?_cons_zero]
  · rw [getElem?_set_ne (by omega),getElem?_shift _ _ _ bound,getElem?_cons_succ,getElem?_eraseIdx]
    by_cases moved : j < index
    · rw [if_pos (by omega),if_pos moved,Nat.add_sub_cancel]
    · rw [if_neg (by omega),if_neg moved]

variable {chain : List Nat}

theorem add_complete {n : Nat} (complete : Complete n chain) {desktop : Nat}
    (positive : 1 ≤ desktop) : Complete n (add chain desktop) := by
  unfold add
  split
  · exact complete
  · rename_i fits
    have member : desktop ∈ chain := complete.mem_iff.mpr ⟨positive,by rw [← complete.length_eq]; omega⟩
    simp only [member,↓reduceIte]
    rw [shift_set_zero _ _ _ (idxOf_lt_length_of_mem member),eraseIdx_idxOf_eq_erase]
    exact (perm_cons_erase member).symm.trans complete

theorem resize_grow (chain : List Nat) (newSize : Nat) (grows : chain.length ≤ newSize) :
    resize chain chain.length newSize = chain ++ List.range' (chain.length+1) (newSize-chain.length) := by
  simp only [resize,ge_iff_le,grows,↓reduceIte,take_of_length_le grows]
  apply ext_getElem?
  intro j
  rw [getElem?_mapIdx]
  by_cases old : j < chain.length
  · rw [getElem?_append_left old,getElem?_append_left old,getElem?_eq_getElem old,Option.map_some, if_neg (by omega)]
  · rw [getElem?_append_right (by omega),getElem?_append_right (by omega)]
    by_cases fresh : j < newSize
    · rw [getElem?_replicate_of_lt (by omega),Option.map_some,if_pos (by omega),getElem?_range' (by omega)]
      congr 1
      omega
    · rw [getElem?_eq_none (by rw [length_replicate]; omega),
        getElem?_eq_none (by rw [length_range']; omega),Option.map_none]

theorem resize_grow_complete {n newSize : Nat} (complete : Complete n chain) (grows : n ≤ newSize) :
    Complete newSize (resize chain n newSize) := by
  have size := complete.length_eq
  have grown := resize_grow chain newSize (by omega)
  rw [size] at grown
  have whole : range' 1 newSize = range' 1 n ++ range' (n+1) (newSize-n) := by
    rw [show newSize = n+(newSize-n) by omega,← range'_append,Nat.add_sub_cancel_left]
    congr 2
    omega
  rw [grown,Complete,whole]
  exact List.Perm.append_right _ complete

/-- The desktops below the last one that stays are among the first of the chain. -/
def KeptFirst (newSize : Nat) (chain : List Nat) : Prop :=
  ∀ desktop ∈ List.range' 1 (newSize-1), desktop ∈ chain.take newSize

instance (newSize : Nat) (chain : List Nat) : Decidable (KeptFirst newSize chain) :=
  inferInstanceAs (Decidable (∀ desktop ∈ List.range' 1 (newSize-1), desktop ∈ chain.take newSize))

theorem resize_complete_iff {n newSize : Nat} (complete : Complete n chain) (shrinks : newSize < n) :
    Complete newSize (resize chain n newSize) ↔ KeptFirst newSize chain := by
  have size := complete.length_eq
  have cut : resize chain n newSize = (chain.take newSize).map (fun desktop => min desktop newSize) := by
    simp only [resize,ge_iff_le,show ¬ n ≤ newSize by omega,show newSize-chain.length = 0 by omega,
      replicate_zero,append_nil,↓reduceIte]
  have kept : (chain.take newSize).Nodup := complete.nodup.sublist (take_sublist _ _)
  have length : (chain.take newSize).length = newSize := by rw [length_take]; omega
  rw [cut]
  constructor
  · -- Clamping leaves the desktops below the last one alone.
    intro clamped desktop counted
    rw [mem_range'_1] at counted
    have mapped := (List.Perm.mem_iff clamped).mpr (mem_range'_1.mpr (show 1 ≤ desktop ∧ desktop < 1+newSize by omega))
    obtain ⟨before,member,same⟩ := mem_map.mp mapped
    obtain rfl : before = desktop := by omega
    exact member
  · intro first
    refine (List.Subperm.perm_of_length_le (subperm_of_subset (nodup_range' ..) ?_) ?_).symm
    · intro desktop counted
      rw [mem_range'_1] at counted
      by_cases below : desktop < newSize
      · have member := first desktop (mem_range'_1.mpr (by omega))
        exact mem_map.mpr ⟨desktop,member,by omega⟩
      · -- Only `newSize - 1` desktops are below the last one, so the kept part holds another.
        obtain ⟨large,member,above⟩ : ∃ large ∈ chain.take newSize, newSize ≤ large := by
          by_contra none
          have inside : ∀ d ∈ chain.take newSize, d ∈ range' 1 (newSize-1) := by
            intro d member
            have positive := (complete.mem_iff.mp (mem_of_mem_take member)).1
            have small : ¬ newSize ≤ d := fun above => none ⟨d,member,above⟩
            rw [mem_range'_1]
            omega
          have few := (subperm_of_subset kept inside).length_le
          rw [length,length_range'] at few
          omega
        exact mem_map.mpr ⟨large,member,by omega⟩
    · rw [length_map,length,length_range']

/-- One round of the do-while loop of `DesktopModel::createDesktopList`. -/
def listRound (nextDesktop : Nat → Nat) (current : Nat) (state : Nat × List Nat) : Round (Nat × List Nat) (List Nat) :=
  let list := state.2 ++ [state.1]
  let desktop := nextDesktop state.1
  if desktop ≠ current then .next (desktop,list) else .done list

theorem next_getElem (nodup : chain.Nodup) {k : Nat} (bound : k < chain.length)
    (inside : (k+1) % chain.length < chain.length) : next chain chain[k] = chain[(k+1) % chain.length] := by
  unfold next
  rw [nodup.idxOf_getElem k bound]
  by_cases more : k+1 < chain.length
  · simp only [more,↓reduceDIte,Nat.mod_eq_of_lt more]
  · have wraps : k+1 = chain.length := by omega
    simp only [wraps,Nat.lt_irrefl,↓reduceDIte,Nat.mod_self,show chain.length > 0 by omega]

theorem next_rotate (nodup : chain.Nodup) (i : Nat) {j : Nat} (bound : j < (chain.rotate i).length)
    (inside : (j+1) % (chain.rotate i).length < (chain.rotate i).length) :
    next chain (chain.rotate i)[j] = (chain.rotate i)[(j+1) % (chain.rotate i).length] := by
  simp only [getElem_rotate,length_rotate]
  have positive : 0 < chain.length := by rw [length_rotate] at bound; omega
  rw [next_getElem nodup (Nat.mod_lt _ positive) (Nat.mod_lt _ positive)]
  congr 1
  rw [Nat.mod_add_mod,Nat.mod_add_mod]
  congr 1
  omega

theorem createsDesktopList_rotate (nodup : chain.Nodup) {current : Nat} (member : current ∈ chain) :
    Ends (listRound (next chain) current) (current,[]) (chain.rotate (chain.idxOf current)) := by
  have start := idxOf_lt_length_of_mem member
  generalize turned : chain.rotate (chain.idxOf current) = list
  have size : list.length = chain.length := by rw [← turned,length_rotate]
  have distinct : list.Nodup := by rw [← turned]; exact nodup_rotate.mpr nodup
  have follows : ∀ j (bound : j < list.length) (inside : (j+1) % list.length < list.length),
      next chain list[j] = list[(j+1) % list.length] := by
    subst turned
    exact fun j bound inside => next_rotate nodup _ bound inside
  have positive : 0 < list.length := by omega
  have head : list[0] = current := by
    subst turned
    simp only [getElem_rotate,Nat.zero_add,Nat.mod_eq_of_lt start,getElem_idxOf]
  -- Backwards from the last round: the list built so far is the part before the desktop.
  have rest : ∀ left j (bound : j < list.length), j+left+1 = list.length →
      Ends (listRound (next chain) current) (list[j],list.take j) list := by
    intro left
    induction left with
    | zero =>
      intro j bound last
      refine ends_done ?_
      have wraps : next chain list[j] = current := by
        rw [follows j bound (Nat.mod_lt _ positive),← head]
        simp only [show j+1 = list.length by omega,Nat.mod_self]
      simp only [listRound,wraps,ne_eq,not_true_eq_false,↓reduceIte,take_append_getElem]
      rw [take_of_length_le (by omega)]
    | succ left ih =>
      intro j bound more
      refine ends_next ?_ (ih (j+1) (by omega) (by omega))
      have inside : j+1 < list.length := by omega
      have forward : next chain list[j] = list[j+1] := by
        rw [follows j bound (Nat.mod_lt _ positive)]
        simp only [Nat.mod_eq_of_lt inside]
      have away : list[j+1] ≠ current := by
        intro same
        have := (List.Nodup.getElem_inj_iff distinct).mp (same.trans head.symm)
        omega
      simp only [listRound,forward,ne_eq,away,not_false_eq_true,↓reduceIte,take_append_getElem]
  have whole := rest (list.length-1) 0 (by omega) (by omega)
  rwa [head,take_zero] at whole

/-- A `QString` that names a chain; none is the null string, which equals the empty one. -/
abbrev Identifier := Option String

def sameKey (identifier key : Identifier) : Bool := identifier.getD "" == key.getD ""

/-- `m_chains` in some order of its entries, the key of the entry that
    `m_currentChain` points to, and `m_maxChainSize`. -/
structure DesktopChainManager where
  chains : List (Identifier × List Nat)
  currentChain : Identifier
  maxChainSize : Nat
deriving Repr, DecidableEq

/-- `QHash::find`. -/
def find (chains : List (Identifier × List Nat)) (identifier : Identifier) : Option (Identifier × List Nat) :=
  chains.find? (fun entry => sameKey identifier entry.1)

/-- `QHash::insert`: the value of an entry that exists is replaced and its key kept. Also the key of the entry. -/
def insert (chains : List (Identifier × List Nat)) (identifier : Identifier) (value : List Nat) :
    List (Identifier × List Nat) × Identifier :=
  match find chains identifier with
  | some found =>
    (chains.map (fun entry => if sameKey identifier entry.1 then (entry.1,value) else entry),found.1)
  | none => (chains ++ [(identifier,value)],identifier)

/-- `QHash::erase` of the entry with the key. -/
def erase (chains : List (Identifier × List Nat)) (identifier : Identifier) : List (Identifier × List Nat) :=
  chains.filter (fun entry => !sameKey identifier entry.1)

namespace DesktopChainManager

def fresh : DesktopChainManager := ⟨[(none,init 0)],none,0⟩

/-- `m_currentChain.value()`. -/
def currentValue (m : DesktopChainManager) : List Nat := ((find m.chains m.currentChain).map Prod.snd).getD []

def next (m : DesktopChainManager) (indexDesktop : Nat) : Nat := DesktopChain.next m.currentValue indexDesktop

def resize (m : DesktopChainManager) (previousSize newSize : Nat) : DesktopChainManager :=
  {m with
    maxChainSize := newSize
    chains := m.chains.map (fun entry => (entry.1,DesktopChain.resize entry.2 previousSize newSize))}

def addDesktop (m : DesktopChainManager) (currentDesktop : Nat) : DesktopChainManager :=
  {m with chains := m.chains.map (fun entry =>
    if sameKey m.currentChain entry.1 then (entry.1,add entry.2 currentDesktop) else entry)}

def createFirstChain (m : DesktopChainManager) (identifier : Identifier) : DesktopChainManager :=
  let inserted := insert (erase m.chains m.currentChain) identifier m.currentValue
  {m with chains := inserted.1, currentChain := inserted.2}

def addNewChain (m : DesktopChainManager) (identifier : Identifier) : DesktopChainManager :=
  let inserted := insert m.chains identifier (init m.maxChainSize)
  {m with chains := inserted.1, currentChain := inserted.2}

def useChain (m : DesktopChainManager) (identifier : Identifier) : DesktopChainManager :=
  if m.currentChain.isNone then m.createFirstChain identifier
  else
    match find m.chains identifier with
    | some found => {m with currentChain := found.1}
    | none => m.addNewChain identifier

/-- The slots connected to the signals of `VirtualDesktopManager`. -/
def receive (m : DesktopChainManager) : Signal → DesktopChainManager
  | .currentChanged _ newDesktop => m.addDesktop newDesktop
  | .desktopsRemoved _ => m
  | .countChanged oldCount newCount => m.resize oldCount newCount

end DesktopChainManager

theorem sameKey_self (identifier : Identifier) : sameKey identifier identifier = true := by
  simp [sameKey]

theorem insert_spec (chains : List (Identifier × List Nat)) (identifier : Identifier) (value : List Nat) :
    (∃ entry ∈ (insert chains identifier value).1, sameKey (insert chains identifier value).2 entry.1) ∧
    ∀ entry ∈ (insert chains identifier value).1, entry.2 = value ∨ ∃ old ∈ chains, old.2 = entry.2 := by
  unfold insert
  cases found : find chains identifier with
  | some entry =>
    have member := mem_of_find?_eq_some found
    have same : sameKey identifier entry.1 := by simpa using find?_some found
    refine ⟨⟨(entry.1,value),mem_map.mpr ⟨entry,member,by rw [if_pos same]⟩,sameKey_self _⟩,?_⟩
    intro changed inside
    obtain ⟨old,there,rfl⟩ := mem_map.mp inside
    by_cases hit : sameKey identifier old.1
    · rw [if_pos hit]; exact .inl rfl
    · rw [if_neg hit]; exact .inr ⟨old,there,rfl⟩
  | none =>
    refine ⟨⟨(identifier,value),by simp,sameKey_self _⟩,?_⟩
    intro entry inside
    rcases mem_append.mp inside with old | new
    · exact .inr ⟨entry,old,rfl⟩
    · rw [mem_singleton.mp new]; exact .inl rfl

/-- Every chain of the manager is complete for the desktops there are, and the current one exists. -/
structure ChainsComplete (count : Nat) (m : DesktopChainManager) : Prop where
  size : m.maxChainSize = count
  current : ∃ entry ∈ m.chains, sameKey m.currentChain entry.1
  complete : ∀ entry ∈ m.chains, Complete count entry.2

theorem fresh_chainsComplete : ChainsComplete 0 DesktopChainManager.fresh where
  size := rfl
  current := ⟨(none,init 0),by simp [DesktopChainManager.fresh],rfl⟩
  complete := by
    intro entry member
    rw [mem_singleton.mp member]
    exact init_complete 0

namespace ChainsComplete
variable {count : Nat} {m : DesktopChainManager}

theorem currentValue_complete (kept : ChainsComplete count m) : Complete count m.currentValue := by
  obtain ⟨entry,member,same⟩ := kept.current
  unfold DesktopChainManager.currentValue
  cases found : find m.chains m.currentChain with
  | none => exact absurd same (by simpa using find?_eq_none.mp found entry member)
  | some hit => exact kept.complete hit (mem_of_find?_eq_some found)

theorem addDesktop (kept : ChainsComplete count m) {desktop : Nat} (positive : 1 ≤ desktop) :
    ChainsComplete count (m.addDesktop desktop) where
  size := kept.size
  current := by
    obtain ⟨entry,member,same⟩ := kept.current
    exact ⟨(entry.1,add entry.2 desktop),mem_map.mpr ⟨entry,member,if_pos same⟩,same⟩
  complete := by
    intro entry member
    obtain ⟨old,there,rfl⟩ := mem_map.mp member
    split
    · exact add_complete (kept.complete old there) positive
    · exact kept.complete old there

theorem resize (kept : ChainsComplete count m) {newCount : Nat}
    (chains : ∀ entry ∈ m.chains, Complete newCount (DesktopChain.resize entry.2 count newCount)) :
    ChainsComplete newCount (m.resize count newCount) where
  size := rfl
  current := by
    obtain ⟨entry,member,same⟩ := kept.current
    exact ⟨_,mem_map.mpr ⟨entry,member,rfl⟩,same⟩
  complete := by
    intro entry member
    obtain ⟨old,there,rfl⟩ := mem_map.mp member
    exact chains old there

theorem useChain (kept : ChainsComplete count m) (identifier : Identifier) : ChainsComplete count (m.useChain identifier) := by
  unfold DesktopChainManager.useChain
  split
  · have inserted := insert_spec (erase m.chains m.currentChain) identifier m.currentValue
    refine ⟨kept.size,inserted.1,fun entry member => ?_⟩
    rcases inserted.2 entry member with same | ⟨old,there,same⟩
    · rw [same]; exact kept.currentValue_complete
    · rw [← same]; exact kept.complete old (mem_of_mem_filter there)
  · cases found : find m.chains identifier with
    | some hit => exact ⟨kept.size,⟨hit,mem_of_find?_eq_some found,sameKey_self _⟩,kept.complete⟩
    | none =>
      have inserted := insert_spec m.chains identifier (init m.maxChainSize)
      refine ⟨kept.size,inserted.1,fun entry member => ?_⟩
      rcases inserted.2 entry member with same | ⟨old,there,same⟩
      · rw [same,← kept.size]; exact init_complete _
      · rw [← same]; exact kept.complete old there

end ChainsComplete

/-- The desktops and the chains that follow them. -/
structure Session where
  desktops : VirtualDesktopManager
  manager : DesktopChainManager
deriving Repr, DecidableEq

inductive Op
  | setCurrent (newDesktop : Nat)
  | setCount (count : Nat)
  | useChain (identifier : Identifier)
deriving Repr, DecidableEq

namespace Session

def fresh : Session := ⟨.fresh,.fresh⟩

/-- The manager of the chains receives the emitted signals one after the other. -/
def deliver (s : Session) (emitted : VirtualDesktopManager × List Signal) : Session :=
  ⟨emitted.1,emitted.2.foldl DesktopChainManager.receive s.manager⟩

def perform (s : Session) : Op → Session
  | .setCurrent newDesktop => s.deliver (s.desktops.setCurrent newDesktop)
  | .setCount count => s.deliver (s.desktops.setCount count)
  | .useChain identifier => {s with manager := s.manager.useChain identifier}

/-- The chains when the count is about to shrink: a removed current desktop has been left. -/
def chainsBeforeShrink (s : Session) (newCount : Nat) : List (Identifier × List Nat) :=
  if s.desktops.current > newCount then (s.manager.addDesktop newCount).chains else s.manager.chains

/-- Removing desktops, each chain has the desktops below the last one that stays among its first. -/
def ShrinksWell (s : Session) : Op → Prop
  | .setCount count =>
    let newCount := VirtualDesktopManager.clampCount count
    newCount < s.desktops.count → ∀ entry ∈ s.chainsBeforeShrink newCount, KeptFirst newCount entry.2
  | _ => True

instance (s : Session) (op : Op) : Decidable (s.ShrinksWell op) :=
  match op with
  | .setCount count => inferInstanceAs (Decidable (VirtualDesktopManager.clampCount count < s.desktops.count →
      ∀ entry ∈ s.chainsBeforeShrink (VirtualDesktopManager.clampCount count),
        KeptFirst (VirtualDesktopManager.clampCount count) entry.2))
  | .setCurrent _ => isTrue trivial
  | .useChain _ => isTrue trivial

/-- `DesktopModel::createDesktopList` for most recently used switching ends with the list. -/
def CreatesDesktopList (s : Session) (list : List Nat) : Prop :=
  Ends (listRound s.manager.next s.desktops.current) (s.desktops.current,[]) list

end Session

private theorem setCount_keeps {s : Session} (kept : ChainsComplete s.desktops.count s.manager) (count : Nat)
    (shrinks : s.ShrinksWell (.setCount count)) :
    ChainsComplete (s.perform (.setCount count)).desktops.count (s.perform (.setCount count)).manager := by
  simp only [Session.perform,Session.deliver]
  rcases s.desktops.setCount_cases count with same | ⟨more,same⟩ | ⟨fewer,stays,same⟩ | ⟨fewer,away,same⟩
  · rw [same]; exact kept
  · rw [same]
    exact kept.resize (fun entry member => resize_grow_complete (kept.complete entry member) (Nat.le_of_lt more))
  · rw [same]
    refine kept.resize (fun entry member => ?_)
    have first := shrinks fewer entry (by rw [Session.chainsBeforeShrink,if_neg (by omega)]; exact member)
    exact (resize_complete_iff (kept.complete entry member) fewer).mpr first
  · rw [same]
    have left := kept.addDesktop (VirtualDesktopManager.clampCount_pos count)
    refine left.resize (fun entry member => ?_)
    have first := shrinks fewer entry (by rw [Session.chainsBeforeShrink,if_pos away]; exact member)
    exact (resize_complete_iff (left.complete entry member) fewer).mpr first

theorem perform_chainsComplete {s : Session} (kept : ChainsComplete s.desktops.count s.manager) (op : Op)
    (shrinks : s.ShrinksWell op) : ChainsComplete (s.perform op).desktops.count (s.perform op).manager := by
  cases op with
  | setCurrent newDesktop =>
    simp only [Session.perform,Session.deliver]
    rcases s.desktops.setCurrent_cases newDesktop with same | ⟨positive,-,same⟩
    · rw [same]; exact kept
    · rw [same]; exact kept.addDesktop positive
  | setCount count => exact setCount_keeps kept count shrinks
  | useChain identifier => exact kept.useChain identifier

theorem createsDesktopList_of_complete {s : Session} (kept : ChainsComplete s.desktops.count s.manager)
    (positive : 1 ≤ s.desktops.current) (counted : s.desktops.current ≤ s.desktops.count) :
    ∃ list, s.CreatesDesktopList list ∧ Complete s.desktops.count list := by
  have complete := kept.currentValue_complete
  have member := complete.mem_iff.mpr ⟨positive,counted⟩
  exact ⟨_,createsDesktopList_rotate complete.nodup member,(rotate_perm _ _).trans complete⟩

/-- In a run from the fresh managers in which desktops are removed only as the
    chains allow, the list of the desktop model is built and holds every desktop exactly once. -/
theorem run_createsDesktopList {ops : List Op} {s : Session}
    (run : Run (fun before op after => before.ShrinksWell op ∧ after = before.perform op) .fresh ops s)
    (positive : 1 ≤ s.desktops.current) (counted : s.desktops.current ≤ s.desktops.count) :
    ∃ list, s.CreatesDesktopList list ∧ Complete s.desktops.count list := by
  have kept : ChainsComplete s.desktops.count s.manager := by
    refine run.invariant (P := fun s => ChainsComplete s.desktops.count s.manager) ?_ fresh_chainsComplete
    rintro before op after kept ⟨shrinks,rfl⟩
    exact perform_chainsComplete kept op shrinks
  exact createsDesktopList_of_complete kept positive counted

theorem run_createsDesktopList_kept_first :
    ∃ list, (⟨⟨1,3⟩,⟨[(none,[1,3,2])],none,3⟩⟩ : Session).CreatesDesktopList list ∧ Complete 3 list := by
  have run : Run (fun before op after => Session.ShrinksWell before op ∧ after = before.perform op) .fresh
      [.setCount 4,.setCurrent 3,.setCurrent 1,.setCount 3] ⟨⟨1,3⟩,⟨[(none,[1,3,2])],none,3⟩⟩ :=
    .cons ⟨by decide,rfl⟩ (.cons ⟨by decide,rfl⟩ (.cons ⟨by decide,rfl⟩ (.cons ⟨by decide,by decide⟩ (.nil _))))
  exact run_createsDesktopList run (by decide) (by decide)

/-- Four desktops, visited in the order 3, 4, 1, and then three desktops: the
    chain is `1, 3, 3` and the loop of the desktop model never ends. -/
theorem createDesktopList_endless :
    ∃ s, Run (fun before op after => after = Session.perform before op) .fresh
        [.setCount 4,.setCurrent 3,.setCurrent 4,.setCurrent 1,.setCount 3] s ∧
      1 ≤ s.desktops.current ∧ s.desktops.current ≤ s.desktops.count ∧ ¬ ∃ list, s.CreatesDesktopList list := by
  refine ⟨⟨⟨1,3⟩,⟨[(none,[1,3,3])],none,3⟩⟩,?_,by decide,by decide,?_⟩
  · exact .cons rfl (.cons rfl (.cons rfl (.cons rfl (.cons (by decide) (.nil _)))))
  · rintro ⟨list,ended⟩
    refine not_ends_of_invariant (fun state => state.1 = 1 ∨ state.1 = 3) ?_ (.inl rfl) list ended
    rintro ⟨desktop,built⟩ (rfl | rfl)
    · exact ⟨(3,built ++ [1]),rfl,.inr rfl⟩
    · exact ⟨(3,built ++ [3]),rfl,.inr rfl⟩

end KdeWorkspace.DesktopChain
