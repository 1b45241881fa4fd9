import KdeWorkspace.Lists
import KdeWorkspace.Loops
import Mathlib.Algebra.Group.Nat.Defs

/-!
The focus chains (`FocusChain`): one list of clients per virtual desktop and one
of the most recently used clients, with the client to activate next as the last
element of a list.

Every way to put a client into a chain leaves the chain alone or moves the
client and no other (`updateClientInChain_moved`, `moveAfterClientInChain_cases`).
So no run of operations puts a client into a chain twice, an update leaves the
client in exactly the chains it belongs to, and the other clients keep their
places (`run_focusChain`).
-/
namespace KdeWorkspace.FocusChains
open Lists Loops
universe u

variable {Client : Type u} [DecidableEq Client]

/-- `NET::OnAllDesktops`. -/
def onAllDesktops : Int := -1

/-- What the chains ask of a client. The last field stands for the tests of
    `Client::belongToSameApplication` for two different clients. -/
structure Attributes (Client : Type u) where
  wantsTabFocus : Client → Bool
  desktop : Client → Int
  isMinimized : Client → Bool
  similar : Client → Client → Bool

namespace Attributes

def isOnAllDesktops (attributes : Attributes Client) (client : Client) : Bool :=
  attributes.desktop client == onAllDesktops

/-- `Toplevel::isOnDesktop`; a key of the chains is an unsigned integer and the parameter a signed one. -/
def isOnDesktop (attributes : Attributes Client) (client : Client) (d : Nat) : Bool :=
  attributes.desktop client == (d : Int).bmod (2^32) || attributes.isOnAllDesktops client

def belongToSameApplication (attributes : Attributes Client) (c1 c2 : Client) : Bool :=
  if c1 = c2 then true else attributes.similar c1 c2

end Attributes

inductive Change
  | MakeFirst
  | MakeLast
  | Update
deriving Repr, DecidableEq

/-- The two kinds of chains, the hash from desktops as a function, and what the
    insertion of a client asks of the workspace. -/
structure FocusChain (Client : Type u) where
  mostRecentlyUsed : List Client
  desktopFocusChains : Nat → Option (List Client)
  activeClient : Option Client
  currentDesktop : Nat

def makeFirstInChain (attributes : Attributes Client) (client : Client) (chain : List Client) : List Client :=
  let chain := removeAll chain client
  if attributes.isMinimized client then
    match findBackwards attributes.isMinimized chain chain.length with
    | some i => insertAt chain (i+1) client
    | none => insertAt chain 0 client
  else insertAt chain chain.length client

def makeLastInChain (client : Client) (chain : List Client) : List Client :=
  let chain := removeAll chain client
  insertAt chain 0 client

def insertClientIntoChain (activeClient : Option Client) (client : Client) (chain : List Client) : List Client :=
  if client ∈ chain then chain
  else if activeClient.isSome ∧ activeClient ≠ some client ∧ chain ≠ [] ∧ chain.getLast? = activeClient then
    insertAt chain (chain.length-1) client
  else insertAt chain chain.length client

def updateClientInChain (attributes : Attributes Client) (activeClient : Option Client) (client : Client)
    (change : Change) (chain : List Client) : List Client :=
  match change with
  | .MakeFirst => makeFirstInChain attributes client chain
  | .MakeLast => makeLastInChain client chain
  | .Update => insertClientIntoChain activeClient client chain

/-- `moveAfterClientInChain`. The index of an absent reference is `-1`, which inserts in front. -/
def moveAfterClientInChain (attributes : Attributes Client) (client reference : Client) (chain : List Client) :
    List Client :=
  if reference ∉ chain then chain
  else if attributes.belongToSameApplication reference client then
    let chain := removeAll chain client
    insertAt chain (if reference ∈ chain then (chain.idxOf reference : Int) else -1) client
  else
    let chain := removeAll chain client
    match findBackwards (attributes.belongToSameApplication reference) chain chain.length with
    | some i => insertAt chain i client
    | none => chain

namespace FocusChain

def fresh : FocusChain Client := ⟨[],fun _ => none,none,0⟩

/-- Replaces the chain of each desktop that has one. -/
def mapChains (s : FocusChain Client) (change : Nat → List Client → List Client) : FocusChain Client :=
  {s with desktopFocusChains := fun d => (s.desktopFocusChains d).map (change d)}

def remove (s : FocusChain Client) (client : Client) : FocusChain Client :=
  {s.mapChains (fun _ chain => removeAll chain client) with
    mostRecentlyUsed := removeAll s.mostRecentlyUsed client}

/-- The two loops over the added and the removed desktops. -/
def resize (s : FocusChain Client) (previousSize newSize : Nat) : FocusChain Client :=
  {s with desktopFocusChains := fun d =>
    if previousSize+1 ≤ d ∧ d ≤ newSize then some []
    else if newSize < d ∧ d ≤ previousSize then none
    else s.desktopFocusChains d}

/-- What `update` does with the chain of a desktop. -/
def updateDesktopChain (s : FocusChain Client) (attributes : Attributes Client) (client : Client) (change : Change)
    (d : Nat) (chain : List Client) : List Client :=
  if attributes.isOnAllDesktops client then
    -- Making first or last works only on the current desktop.
    if d = s.currentDesktop ∧ (change = .MakeFirst ∨ change = .MakeLast) then
      if change = .MakeFirst then makeFirstInChain attributes client chain else makeLastInChain client chain
    else insertClientIntoChain s.activeClient client chain
  else if attributes.isOnDesktop client d then updateClientInChain attributes s.activeClient client change chain
  else removeAll chain client

def update (s : FocusChain Client) (attributes : Attributes Client) (client : Client) (change : Change) :
    FocusChain Client :=
  if !attributes.wantsTabFocus client then s.remove client
  else {s.mapChains (s.updateDesktopChain attributes client change) with
    mostRecentlyUsed := updateClientInChain attributes s.activeClient client change s.mostRecentlyUsed}

def moveAfterClient (s : FocusChain Client) (attributes : Attributes Client) (client reference : Client) :
    FocusChain Client :=
  if !attributes.wantsTabFocus client then s
  else {s.mapChains (fun d chain =>
      if !attributes.isOnDesktop client d then chain else moveAfterClientInChain attributes client reference chain) with
    mostRecentlyUsed := moveAfterClientInChain attributes client reference s.mostRecentlyUsed}

def setActiveClient (s : FocusChain Client) (client : Option Client) : FocusChain Client :=
  {s with activeClient := client}

def setCurrentDesktop (s : FocusChain Client) (newDesktop : Nat) : FocusChain Client :=
  {s with currentDesktop := newDesktop}

end FocusChain

theorem makeFirstInChain_moved (attributes : Attributes Client) (client : Client) (chain : List Client) :
    Moved client chain (makeFirstInChain attributes client chain) := by
  unfold makeFirstInChain
  by_cases minimized : attributes.isMinimized client
  · rw [if_pos minimized]
    cases findBackwards attributes.isMinimized (removeAll chain client) (removeAll chain client).length with
    | some i => exact ⟨_,rfl⟩
    | none => exact ⟨_,rfl⟩
  · rw [if_neg minimized]; exact ⟨_,rfl⟩

theorem makeLastInChain_moved (client : Client) (chain : List Client) :
    Moved client chain (makeLastInChain client chain) := ⟨_,rfl⟩

theorem insertClientIntoChain_cases (activeClient : Option Client) (client : Client) (chain : List Client) :
    (client ∈ chain ∧ insertClientIntoChain activeClient client chain = chain) ∨
    Moved client chain (insertClientIntoChain activeClient client chain) := by
  unfold insertClientIntoChain
  by_cases member : client ∈ chain
  · exact .inl ⟨member,if_pos member⟩
  · rw [if_neg member]
    right
    split
    · exact ⟨_,by rw [removeAll_of_not_mem member]⟩
    · exact ⟨_,by rw [removeAll_of_not_mem member]⟩

/-- A chain after an update: the client is in it, once, and the others stay in their order. -/
structure Placed (client : Client) (before after : List Client) : Prop where
  mem : client ∈ after
  nodup : before.Nodup → after.Nodup
  others : removeAll after client = removeAll before client

theorem placed_of_moved {client : Client} {before after : List Client} (moved : Moved client before after) :
    Placed client before after := ⟨moved.mem,moved.nodup,moved.others⟩

theorem insertClientIntoChain_placed (activeClient : Option Client) (client : Client) (chain : List Client) :
    Placed client chain (insertClientIntoChain activeClient client chain) := by
  rcases insertClientIntoChain_cases activeClient client chain with ⟨member,same⟩ | moved
  · rw [same]; exact ⟨member,id,rfl⟩
  · exact placed_of_moved moved

theorem updateClientInChain_placed (attributes : Attributes Client) (activeClient : Option Client) (client : Client)
    (change : Change) (chain : List Client) :
    Placed client chain (updateClientInChain attributes activeClient client change chain) := by
  cases change with
  | MakeFirst => exact placed_of_moved (makeFirstInChain_moved attributes client chain)
  | MakeLast => exact placed_of_moved (makeLastInChain_moved client chain)
  | Update => exact insertClientIntoChain_placed activeClient client chain

theorem moveAfterClientInChain_cases (attributes : Attributes Client) (client reference : Client)
    (chain : List Client) : moveAfterClientInChain attributes client reference chain = chain ∨
      Moved client chain (moveAfterClientInChain attributes client reference chain) := by
  unfold moveAfterClientInChain
  by_cases absent : reference ∉ chain
  · exact .inl (if_pos absent)
  · rw [if_neg absent]
    right
    by_cases same : attributes.belongToSameApplication reference client
    · rw [if_pos same]; exact ⟨_,rfl⟩
    · rw [if_neg same]
      cases search : findBackwards (attributes.belongToSameApplication reference) (removeAll chain client)
          (removeAll chain client).length with
      | some i => exact ⟨i,by simp only [search]⟩
      | none =>
        have different : reference ≠ client := by
          rintro rfl
          exact same (if_pos rfl)
        have member : reference ∈ removeAll chain client := mem_removeAll.mpr ⟨not_not.mp absent,different⟩
        obtain ⟨i,bound,element⟩ := List.getElem_of_mem member
        have apart := findBackwards_none search i reference bound (by rw [List.getElem?_eq_getElem bound,element])
        have itself : attributes.belongToSameApplication reference reference = true := if_pos rfl
        rw [itself] at apart
        cases apart

theorem moveAfterClientInChain_keeps (attributes : Attributes Client) (client reference : Client) (chain : List Client) :
    (chain.Nodup → (moveAfterClientInChain attributes client reference chain).Nodup) ∧
    removeAll (moveAfterClientInChain attributes client reference chain) client = removeAll chain client := by
  rcases moveAfterClientInChain_cases attributes client reference chain with same | moved
  · rw [same]; exact ⟨id,rfl⟩
  · exact ⟨moved.nodup,moved.others⟩

theorem updateDesktopChain_spec (s : FocusChain Client) (attributes : Attributes Client) (client : Client)
    (change : Change) (d : Nat) (chain : List Client) :
    (client ∈ s.updateDesktopChain attributes client change d chain ↔ attributes.isOnDesktop client d = true) ∧
    (chain.Nodup → (s.updateDesktopChain attributes client change d chain).Nodup) ∧
    removeAll (s.updateDesktopChain attributes client change d chain) client = removeAll chain client := by
  have placed : ∀ after, Placed client chain after → attributes.isOnDesktop client d = true →
      (client ∈ after ↔ attributes.isOnDesktop client d = true) ∧ (chain.Nodup → after.Nodup) ∧
      removeAll after client = removeAll chain client :=
    fun after placed on => ⟨iff_of_true placed.mem on,placed.nodup,placed.others⟩
  unfold FocusChain.updateDesktopChain
  by_cases all : attributes.isOnAllDesktops client
  · have on : attributes.isOnDesktop client d = true := by rw [Attributes.isOnDesktop,all,Bool.or_true]
    rw [if_pos all]
    split
    · split
      · exact placed _ (placed_of_moved (makeFirstInChain_moved attributes client chain)) on
      · exact placed _ (placed_of_moved (makeLastInChain_moved client chain)) on
    · exact placed _ (insertClientIntoChain_placed s.activeClient client chain) on
  · rw [if_neg all]
    by_cases on : attributes.isOnDesktop client d
    · rw [if_pos on]
      exact placed _ (updateClientInChain_placed attributes s.activeClient client change chain) on
    · rw [if_neg on]
      exact ⟨iff_of_false (by simp) on,fun nodup => removeAll_nodup nodup client,by simp⟩

/-- No chain holds a client twice. -/
def NoDuplicates (s : FocusChain Client) : Prop :=
  s.mostRecentlyUsed.Nodup ∧ ∀ d chain, s.desktopFocusChains d = some chain → chain.Nodup

/-- The client is in exactly the chains it belongs to. -/
def Belongs (s : FocusChain Client) (attributes : Attributes Client) (client : Client) : Prop :=
  (client ∈ s.mostRecentlyUsed ↔ attributes.wantsTabFocus client = true) ∧
  ∀ d chain, s.desktopFocusChains d = some chain →
    (client ∈ chain ↔ attributes.wantsTabFocus client = true ∧ attributes.isOnDesktop client d = true)

/-- Every chain is still there, and the other clients are in it in the same order. -/
def OthersUnchanged (client : Client) (before after : FocusChain Client) : Prop :=
  removeAll after.mostRecentlyUsed client = removeAll before.mostRecentlyUsed client ∧
  ∀ d, (after.desktopFocusChains d).map (removeAll · client) = (before.desktopFocusChains d).map (removeAll · client)

inductive Op (Client : Type u)
  | update (attributes : Attributes Client) (client : Client) (change : Change)
  | moveAfterClient (attributes : Attributes Client) (client reference : Client)
  | remove (client : Client)
  | resize (previousSize newSize : Nat)
  | setActiveClient (client : Option Client)
  | setCurrentDesktop (newDesktop : Nat)

def FocusChain.perform (s : FocusChain Client) : Op Client → FocusChain Client
  | .update attributes client change => s.update attributes client change
  | .moveAfterClient attributes client reference => s.moveAfterClient attributes client reference
  | .remove client => s.remove client
  | .resize previousSize newSize => s.resize previousSize newSize
  | .setActiveClient client => s.setActiveClient client
  | .setCurrentDesktop newDesktop => s.setCurrentDesktop newDesktop

omit [DecidableEq Client] in
variable {s : FocusChain Client}

theorem noDuplicates_mapChains (kept : NoDuplicates s) {change : Nat → List Client → List Client}
    {recent : List Client} (chains : ∀ d chain, chain.Nodup → (change d chain).Nodup) (nodup : recent.Nodup) :
    NoDuplicates {s.mapChains change with mostRecentlyUsed := recent} := by
  refine ⟨nodup,fun d chain found => ?_⟩
  obtain ⟨before,there,rfl⟩ := Option.map_eq_some_iff.mp found
  exact chains d before (kept.2 d before there)

theorem othersUnchanged_mapChains {client : Client} {change : Nat → List Client → List Client}
    {recent : List Client} (chains : ∀ d chain, removeAll (change d chain) client = removeAll chain client)
    (same : removeAll recent client = removeAll s.mostRecentlyUsed client) :
    OthersUnchanged client s {s.mapChains change with mostRecentlyUsed := recent} := by
  refine ⟨same,fun d => ?_⟩
  rw [FocusChain.mapChains,Option.map_map]
  exact Option.map_congr (fun chain _ => chains d chain)

theorem remove_noDuplicates (kept : NoDuplicates s) (client : Client) : NoDuplicates (s.remove client) :=
  noDuplicates_mapChains kept (fun _ _ nodup => removeAll_nodup nodup client) (removeAll_nodup kept.1 client)

theorem update_noDuplicates (kept : NoDuplicates s) (attributes : Attributes Client)
    (client : Client) (change : Change) : NoDuplicates (s.update attributes client change) := by
  unfold FocusChain.update
  split
  · exact remove_noDuplicates kept client
  · exact noDuplicates_mapChains kept (fun d chain => (updateDesktopChain_spec s attributes client change d chain).2.1)
      ((updateClientInChain_placed attributes s.activeClient client change s.mostRecentlyUsed).nodup kept.1)

theorem update_belongs (s : FocusChain Client) (attributes : Attributes Client) (client : Client) (change : Change) :
    Belongs (s.update attributes client change) attributes client := by
  unfold FocusChain.update
  by_cases wants : attributes.wantsTabFocus client
  · rw [if_neg (by simp [wants])]
    have recent := updateClientInChain_placed attributes s.activeClient client change s.mostRecentlyUsed
    refine ⟨iff_of_true recent.mem wants,fun d chain found => ?_⟩
    obtain ⟨before,-,rfl⟩ := Option.map_eq_some_iff.mp found
    rw [(updateDesktopChain_spec s attributes client change d before).1]
    exact (and_iff_right wants).symm
  · rw [if_pos (by simp [wants])]
    refine ⟨iff_of_false (by simp [FocusChain.remove]) wants,fun d chain found => ?_⟩
    obtain ⟨before,-,rfl⟩ := Option.map_eq_some_iff.mp found
    exact iff_of_false (by simp) (fun on => wants on.1)

theorem update_othersUnchanged (s : FocusChain Client) (attributes : Attributes Client) (client : Client)
    (change : Change) : OthersUnchanged client s (s.update attributes client change) := by
  unfold FocusChain.update
  split
  · exact othersUnchanged_mapChains (fun d chain => removeAll_idem chain client) (removeAll_idem _ client)
  · exact othersUnchanged_mapChains
      (fun d chain => (updateDesktopChain_spec s attributes client change d chain).2.2)
      (updateClientInChain_placed attributes s.activeClient client change s.mostRecentlyUsed).others

theorem moveAfterClient_noDuplicates (kept : NoDuplicates s) (attributes : Attributes Client)
    (client reference : Client) : NoDuplicates (s.moveAfterClient attributes client reference) := by
  unfold FocusChain.moveAfterClient
  split
  · exact kept
  · refine noDuplicates_mapChains kept (fun d chain nodup => ?_)
      ((moveAfterClientInChain_keeps attributes client reference _).1 kept.1)
    split
    · exact nodup
    · exact (moveAfterClientInChain_keeps attributes client reference chain).1 nodup

theorem moveAfterClient_othersUnchanged (s : FocusChain Client) (attributes : Attributes Client)
    (client reference : Client) : OthersUnchanged client s (s.moveAfterClient attributes client reference) := by
  unfold FocusChain.moveAfterClient
  split
  · exact ⟨rfl,fun _ => rfl⟩
  · refine othersUnchanged_mapChains (fun d chain => ?_) (moveAfterClientInChain_keeps attributes client reference _).2
    split
    · rfl
    · exact (moveAfterClientInChain_keeps attributes client reference chain).2

omit [DecidableEq Client] in
theorem resize_noDuplicates (kept : NoDuplicates s) (previousSize newSize : Nat) :
    NoDuplicates (s.resize previousSize newSize) := by
  refine ⟨kept.1,fun d chain found => ?_⟩
  simp only [FocusChain.resize] at found
  split at found
  · cases found; exact List.nodup_nil
  · split at found
    · cases found
    · exact kept.2 d chain found

theorem perform_noDuplicates (kept : NoDuplicates s) (op : Op Client) : NoDuplicates (s.perform op) := by
  cases op with
  | update attributes client change => exact update_noDuplicates kept attributes client change
  | moveAfterClient attributes client reference => exact moveAfterClient_noDuplicates kept attributes client reference
  | remove client => exact remove_noDuplicates kept client
  | resize previousSize newSize => exact resize_noDuplicates kept previousSize newSize
  | setActiveClient client => exact kept
  | setCurrentDesktop newDesktop => exact kept

/-- In every state a run reaches, no chain holds a client twice, an update leaves the client in exactly the chains it
    belongs to, and neither an update nor a move behind another client drops or reorders the other clients. -/
theorem run_focusChain {ops : List (Op Client)} {s : FocusChain Client}
    (run : Run (fun before op after => after = FocusChain.perform before op) .fresh ops s) :
    NoDuplicates s ∧
    (∀ attributes client change, NoDuplicates (s.update attributes client change) ∧
      Belongs (s.update attributes client change) attributes client ∧
      OthersUnchanged client s (s.update attributes client change)) ∧
    (∀ attributes client reference, NoDuplicates (s.moveAfterClient attributes client reference) ∧
      OthersUnchanged client s (s.moveAfterClient attributes client reference)) := by
  have kept : NoDuplicates s := by
    refine run.invariant ?_ ⟨List.nodup_nil,fun d chain none => by cases none⟩
    rintro before op after kept rfl
    exact perform_noDuplicates kept op
  exact ⟨kept,
    fun attributes client change => ⟨update_noDuplicates kept attributes client change,
      update_belongs s attributes client change,update_othersUnchanged s attributes client change⟩,
    fun attributes client reference => ⟨moveAfterClient_noDuplicates kept attributes client reference,
      moveAfterClient_othersUnchanged s attributes client reference⟩⟩

theorem run_focusChain_two_desktops :
    let attributes : Attributes Nat := ⟨fun _ => true,fun _ => 1,fun _ => false,fun _ _ => false⟩
    let s := ((FocusChain.fresh.resize 0 2).update attributes 7 .MakeFirst).update attributes 8 .MakeLast
    NoDuplicates s ∧ OthersUnchanged 8 s (s.moveAfterClient attributes 8 7) := by
  intro attributes s
  have run : Run (fun before op after => after = FocusChain.perform before op) .fresh
      [.resize 0 2,.update attributes 7 .MakeFirst,.update attributes 8 .MakeLast] s :=
    .cons rfl (.cons rfl (.cons rfl (.nil _)))
  have whole := run_focusChain run
  exact ⟨whole.1,(whole.2.2 attributes 8 7).2⟩

end KdeWorkspace.FocusChains
