import KdeWorkspace.Lists
import KdeWorkspace.Loops
import KdeWorkspace.Rings

/-!
The list of clients of the window switcher (`ClientModel::createClientList`) when
it switches in the order of the focus chain.

The loop follows the most recently used chain as a ring and leaves it where it
entered (`createClientList_ends`). It asks `clientToAddToList` what to add for a
client: nothing, the client, or the modal dialog in front of it. The dialog is
added only when the list does not have it, but a client that stands for itself is
added in any case. So a client is listed twice exactly when something stood for
it before its own turn, up to the cases of `NoRepeats` (`listsOnce_iff`).
-/
namespace KdeWorkspace.TabBoxClients
open Lists Loops Rings
universe u

inductive ClientDesktopMode
  | AllDesktopsClients
  | OnlyCurrentDesktopClients
  | ExcludeCurrentDesktopClients
deriving Repr, DecidableEq

inductive ClientActivitiesMode
  | AllActivitiesClients
  | OnlyCurrentActivityClients
  | ExcludeCurrentActivityClients
deriving Repr, DecidableEq

inductive ClientApplicationsMode
  | AllWindowsAllApplications
  | OneWindowPerApplication
  | AllWindowsCurrentApplication
deriving Repr, DecidableEq

inductive ClientMinimizedMode
  | IgnoreMinimizedStatus
  | ExcludeMinimizedClients
  | OnlyMinimizedClients
deriving Repr, DecidableEq

inductive ShowDesktopMode
  | DoNotShowDesktopClient
  | ShowDesktopClient
deriving Repr, DecidableEq

inductive ClientMultiScreenMode
  | IgnoreMultiScreen
  | OnlyCurrentScreenClients
  | ExcludeCurrentScreenClients
deriving Repr, DecidableEq

inductive TabBoxMode
  | ClientTabBox
  | DesktopTabBox
deriving Repr, DecidableEq

/-- What the switcher asks of a client, for the desktop the list is made for. -/
structure Attributes where
  onDesktop : Bool
  onCurrentActivity : Bool
  onCurrentScreen : Bool
  minimized : Bool
  wantsTabFocus : Bool
  skipSwitcher : Bool
  firstInTabBox : Bool
  resourceClass : String
deriving Repr, DecidableEq

/-- The configuration of the switcher and the state of the workspace it reads. -/
structure TabBox (Client : Type u) where
  clientDesktopMode : ClientDesktopMode
  clientActivitiesMode : ClientActivitiesMode
  clientApplicationsMode : ClientApplicationsMode
  clientMinimizedMode : ClientMinimizedMode
  showDesktopMode : ShowDesktopMode
  clientMultiScreenMode : ClientMultiScreenMode
  tabBoxMode : TabBoxMode
  attributes : Client → Attributes
  findModal : Client → Option Client
  activeClient : Option Client
  desktopClient : Option Client
  mostRecentlyUsed : List Client

namespace TabBox
variable {Client : Type u} [DecidableEq Client]

def firstMostRecentlyUsed (t : TabBox Client) : Option Client := t.mostRecentlyUsed.head?

/-- `FocusChain::nextMostRecentlyUsed`; the index of an absent client is `-1`. -/
def nextMostRecentlyUsed (t : TabBox Client) (reference : Client) : Option Client :=
  if t.mostRecentlyUsed = [] then none
  else if reference ∉ t.mostRecentlyUsed ∨ t.mostRecentlyUsed.idxOf reference = 0 then t.mostRecentlyUsed.getLast?
  else t.mostRecentlyUsed[t.mostRecentlyUsed.idxOf reference-1]?

def isInFocusChain (t : TabBox Client) (client : Option Client) : Bool :=
  match client with
  | some c => decide (c ∈ t.mostRecentlyUsed)
  | none => false

def nextClientFocusChain (t : TabBox Client) (client : Option Client) : Option Client :=
  match client with
  | some c => t.nextMostRecentlyUsed c
  | none => none

def checkDesktop (t : TabBox Client) (client : Client) : Bool :=
  match t.clientDesktopMode with
  | .AllDesktopsClients => true
  | .ExcludeCurrentDesktopClients => !(t.attributes client).onDesktop
  | .OnlyCurrentDesktopClients => (t.attributes client).onDesktop

def checkActivity (t : TabBox Client) (client : Client) : Bool :=
  match t.clientActivitiesMode with
  | .AllActivitiesClients => true
  | .ExcludeCurrentActivityClients => !(t.attributes client).onCurrentActivity
  | .OnlyCurrentActivityClients => (t.attributes client).onCurrentActivity

/-- `checkApplications` with the clients that are in the list. -/
def checkApplications (t : TabBox Client) (clientList : List Client) (client : Client) : Bool :=
  match t.clientApplicationsMode with
  | .OneWindowPerApplication =>
    !clientList.any (fun c => (t.attributes c).resourceClass = (t.attributes client).resourceClass)
  | .AllWindowsCurrentApplication =>
    match t.activeClient with
    | some c => decide ((t.attributes c).resourceClass = (t.attributes client).resourceClass)
    | none => false
  | .AllWindowsAllApplications => true

def checkMinimized (t : TabBox Client) (client : Client) : Bool :=
  match t.clientMinimizedMode with
  | .ExcludeMinimizedClients => !(t.attributes client).minimized
  | .OnlyMinimizedClients => (t.attributes client).minimized
  | .IgnoreMinimizedStatus => true

def checkMultiScreen (t : TabBox Client) (client : Client) : Bool :=
  match t.clientMultiScreenMode with
  | .IgnoreMultiScreen => true
  | .ExcludeCurrentScreenClients => !(t.attributes client).onCurrentScreen
  | .OnlyCurrentScreenClients => (t.attributes client).onCurrentScreen

/-- `TabBoxHandler::clientList` while a model makes the list: the model of the
    desktops has models of its own for their clients. -/
def clientList (t : TabBox Client) (list : List Client) : List Client :=
  if t.tabBoxMode ≠ .ClientTabBox then [] else list

/-- `clientToAddToList`, with the list as far as it is made. -/
def clientToAddToList (t : TabBox Client) (list : List Client) (client : Option Client) : Option Client :=
  match client with
  | none => none
  | some current =>
    let addClient := t.checkDesktop current && t.checkActivity current && t.checkApplications (t.clientList list) current &&
      t.checkMinimized current && t.checkMultiScreen current
    let addClient := addClient && (t.attributes current).wantsTabFocus && !(t.attributes current).skipSwitcher
    if addClient then
      match t.findModal current with
      | none => some current
      | some modal =>
        if modal = current then some current
        else if modal ∉ t.clientList list then some modal
        else none
    else none

end TabBox

/-- `m_clientList` and `stickyClients`. -/
structure Collected (Client : Type u) where
  clientList : List Client
  stickyClients : List Client
deriving Repr, DecidableEq

namespace TabBox
variable {Client : Type u} [DecidableEq Client]

/-- What the loop does with one client. -/
def visit (t : TabBox Client) (l : Collected Client) (c : Option Client) : Collected Client :=
  match t.clientToAddToList l.clientList c with
  | none => l
  | some add => ⟨l.clientList ++ [add],
      if (t.attributes add).firstInTabBox then l.stickyClients ++ [add] else l.stickyClients⟩

/-- One round of the `do` loop over the focus chain. -/
def chainRound (t : TabBox Client) (stop : Option Client) (s : Collected Client × Option Client) :
    Round (Collected Client × Option Client) (Collected Client) :=
  let l := t.visit s.1 s.2
  let c := t.nextClientFocusChain s.2
  if c.isSome ∧ c ≠ stop then .next (l,c) else .done l

/-- The client that the loop enters the chain with. -/
def entry (t : TabBox Client) (start : Option Client) : Option Client :=
  if t.isInFocusChain start then start
  else
    match t.firstMostRecentlyUsed with
    | some firstClient => some firstClient
    | none => start

/-- `removeAll` and `prepend` for each sticky client. -/
def prependSticky (list stickyClients : List Client) : List Client :=
  stickyClients.foldl (fun list c => c :: removeAll list c) list

/-- What follows the loop: the sticky clients go to the front and the desktop to the end. -/
def finishList (t : TabBox Client) (l : Collected Client) : List Client :=
  let list := prependSticky l.clientList l.stickyClients
  if t.showDesktopMode = .ShowDesktopClient ∨ list = [] then
    match t.desktopClient with
    | some desktopClient => list ++ [desktopClient]
    | none => list
  else list

/-- `createClientList` in the order of the focus chain makes the list. -/
def CreatesClientList (t : TabBox Client) (start : Option Client) (list : List Client) : Prop :=
  ∃ l, Ends (t.chainRound (t.entry start)) (⟨[],[]⟩,t.entry start) l ∧ list = t.finishList l

/-- The chain from the client backwards to its front, and on from its back. -/
def ring (chain : List Client) (c : Client) : List Client :=
  c :: ((chain.take (chain.idxOf c)).reverse ++ (chain.drop (chain.idxOf c+1)).reverse)

/-- The clients that the loop visits. -/
def visited (t : TabBox Client) (start : Option Client) : List Client :=
  match t.entry start with
  | some c => ring t.mostRecentlyUsed c
  | none => []

/-- What is collected from clients, the latest first. -/
def collect (t : TabBox Client) : List Client → Collected Client
  | [] => ⟨[],[]⟩
  | c :: earlier => t.visit (t.collect earlier) (some c)

section
variable {t : TabBox Client} {start : Option Client}

theorem ring_split {chain before behind : List Client} {c : Client} (nodup : chain.Nodup)
    (split : chain = before ++ c :: behind) : ring chain c = c :: (before.reverse ++ behind.reverse) := by
  subst split
  have absent : c ∉ before := fun member => (List.nodup_append.mp nodup).2.2 c member c List.mem_cons_self rfl
  have index : (before ++ c :: behind).idxOf c = before.length := by
    rw [List.idxOf_append_of_notMem absent,List.idxOf_cons_self,Nat.add_zero]
  rw [ring,index,List.take_left',List.drop_append,List.drop_eq_nil_of_le (by omega)]
  · simp
  · rfl

theorem ring_perm {chain : List Client} {c : Client} (nodup : chain.Nodup) (member : c ∈ chain) :
    (ring chain c).Perm chain := by
  obtain ⟨before,behind,split⟩ := List.append_of_mem member
  rw [ring_split nodup split,split]
  have reversed := (List.reverse_perm before).append (List.reverse_perm behind)
  exact (reversed.cons c).trans List.perm_middle.symm

theorem ring_linked (nodup : t.mostRecentlyUsed.Nodup) :
    Ring (fun a b => t.nextMostRecentlyUsed a = some b) t.mostRecentlyUsed.reverse := by
  cases reversed : t.mostRecentlyUsed.reverse with
  | nil => trivial
  | cons last rest =>
    have whole : t.mostRecentlyUsed = rest.reverse ++ [last] := by
      rw [← List.reverse_reverse t.mostRecentlyUsed,reversed,List.reverse_cons]
    have nonempty : t.mostRecentlyUsed ≠ [] := by rw [whole]; simp
    have final : t.mostRecentlyUsed.getLast? = some last := by rw [whole]; simp
    have closed : last :: (rest ++ [last]) = (last :: t.mostRecentlyUsed).reverse := by rw [whole]; simp
    rw [ring_cons,Rings.Path,closed,List.isChain_reverse,List.isChain_iff_getElem]
    intro i bound
    rw [List.length_cons] at bound
    have inside : i < t.mostRecentlyUsed.length := by omega
    have place : t.mostRecentlyUsed.idxOf t.mostRecentlyUsed[i] = i := nodup.idxOf_getElem i inside
    simp only [nextMostRecentlyUsed,List.getElem_cons_succ,nonempty,place,List.getElem_mem,not_true_eq_false,false_or,
      ↓reduceIte]
    cases i with
    | zero => simpa using final
    | succ i => simp only [Nat.add_one_ne_zero,↓reduceIte,Nat.add_sub_cancel,List.getElem_cons_succ,
        List.getElem?_eq_getElem (show i < t.mostRecentlyUsed.length by omega)]

theorem ring_path {c : Client} (nodup : t.mostRecentlyUsed.Nodup) (member : c ∈ t.mostRecentlyUsed) :
    ∃ rest, ring t.mostRecentlyUsed c = c :: rest ∧ Path (fun a b => t.nextMostRecentlyUsed a = some b) c rest c := by
  obtain ⟨before,behind,split⟩ := List.append_of_mem member
  refine ⟨_,ring_split nodup split,?_⟩
  have linked := ring_linked nodup
  rw [split,List.reverse_append,List.reverse_cons,List.append_assoc,ring_rotate] at linked
  rw [← ring_cons]
  simpa using linked

theorem chainRound_path {stop c : Client} {rest : List Client} {l : Collected Client}
    (path : Path (fun a b => t.nextMostRecentlyUsed a = some b) c rest stop) (apart : stop ∉ rest) :
    Ends (t.chainRound (some stop)) (l,some c) ((c :: rest).foldl (fun l c => t.visit l (some c)) l) := by
  induction rest generalizing c l with
  | nil =>
    rw [path_iff] at path
    have next : t.nextClientFocusChain (some c) = some stop := path.1
    refine ends_done ?_
    simp [chainRound,next]
  | cons d rest ih =>
    have link : t.nextClientFocusChain (some c) = some d := (List.isChain_cons_cons.mp path).1
    have others : Path (fun a b => t.nextMostRecentlyUsed a = some b) d rest stop := (List.isChain_cons_cons.mp path).2
    have differ : d ≠ stop := fun same => apart (same ▸ List.mem_cons_self)
    refine ends_next ?_ (ih others (fun member => apart (List.mem_cons_of_mem d member)))
    simp [chainRound,link,differ]

theorem collect_reverse (t : TabBox Client) (l : List Client) :
    l.foldl (fun l c => t.visit l (some c)) ⟨[],[]⟩ = t.collect l.reverse := by
  induction l using List.reverseRecOn with
  | nil => rfl
  | append_singleton l c ih => rw [List.foldl_append,ih,List.reverse_append]; rfl

theorem createClientList_ends (nodup : t.mostRecentlyUsed.Nodup) (start : Option Client) :
    Ends (t.chainRound (t.entry start)) (⟨[],[]⟩,t.entry start) (t.collect (t.visited start).reverse) := by
  unfold visited
  cases entered : t.entry start with
  | none =>
    refine ends_done ?_
    simp [chainRound,nextClientFocusChain,visit,clientToAddToList,collect]
  | some c =>
    dsimp only
    by_cases member : c ∈ t.mostRecentlyUsed
    · obtain ⟨rest,same,path⟩ := ring_path nodup member
      have apart : c ∉ rest := by
        have unique := (ring_perm nodup member).nodup_iff.mpr nodup
        rw [same] at unique
        exact (List.nodup_cons.mp unique).1
      rw [same,← collect_reverse]
      exact chainRound_path path apart
    · -- Only an empty chain is entered with a client that is not in it.
      have empty : t.mostRecentlyUsed = [] := by
        unfold entry at entered
        split at entered
        · rename_i inside
          rw [entered] at inside
          exact absurd (of_decide_eq_true inside) member
        · cases chain : t.mostRecentlyUsed with
          | nil => rfl
          | cons a l =>
            simp only [firstMostRecentlyUsed,chain,List.head?_cons,Option.some.injEq] at entered
            rw [chain,entered] at member
            exact absurd List.mem_cons_self member
      have alone : ring t.mostRecentlyUsed c = [c] := by rw [empty]; rfl
      have next : t.nextClientFocusChain (some c) = none := by
        simp [nextClientFocusChain,nextMostRecentlyUsed,empty]
      rw [alone]
      refine ends_done ?_
      simp [chainRound,next,collect]

end

/-- The client passes the filters that do not look at the list. -/
def passes (t : TabBox Client) (c : Client) : Bool :=
  t.checkDesktop c && t.checkActivity c && t.checkApplications [] c && t.checkMinimized c && t.checkMultiScreen c &&
    (t.attributes c).wantsTabFocus && !(t.attributes c).skipSwitcher

/-- The modal dialog in front of the client, or the client. -/
def offer (t : TabBox Client) (c : Client) : Client := (t.findModal c).getD c

/-- One client per application is shown, and the filter sees the list. -/
def Single (t : TabBox Client) : Prop := t.clientApplicationsMode = .OneWindowPerApplication ∧ t.tabBoxMode = .ClientTabBox

instance (t : TabBox Client) : Decidable t.Single := inferInstanceAs (Decidable (_ ∧ _))

/-- A client visited earlier, the latest first, is in the list for the application of `c`. -/
def represented (t : TabBox Client) : List Client → Client → Bool
  | [], _ => false
  | w :: earlier, c => represented t earlier c || (decide t.Single && t.passes w && !represented t earlier w &&
      decide ((t.attributes (t.offer w)).resourceClass = (t.attributes c).resourceClass))

section
variable {t : TabBox Client}

/-- The list has an entry for the application of the client. -/
def HasEntry (t : TabBox Client) (list : List Client) (c : Client) : Prop :=
  ∃ e ∈ list, (t.attributes e).resourceClass = (t.attributes c).resourceClass

omit [DecidableEq Client] in
theorem checkApplications_iff (list : List Client) (c : Client) : t.checkApplications (t.clientList list) c = true ↔
    t.checkApplications [] c = true ∧ ¬ (t.Single ∧ t.HasEntry list c) := by
  unfold checkApplications clientList Single HasEntry
  cases t.clientApplicationsMode with
  | AllWindowsAllApplications => simp
  | AllWindowsCurrentApplication => simp
  | OneWindowPerApplication => cases t.tabBoxMode <;> simp

theorem clientToAddToList_some_iff {list : List Client} {c e : Client} : t.clientToAddToList list (some c) = some e ↔
    t.passes c = true ∧ ¬ (t.Single ∧ t.HasEntry list c) ∧ t.offer c = e ∧ (e = c ∨ e ∉ t.clientList list) := by
  have filters : ((t.checkDesktop c && t.checkActivity c && t.checkApplications (t.clientList list) c && t.checkMinimized c &&
      t.checkMultiScreen c) && (t.attributes c).wantsTabFocus && !(t.attributes c).skipSwitcher) = true ↔
      t.passes c = true ∧ ¬ (t.Single ∧ t.HasEntry list c) := by
    have applications := checkApplications_iff (t := t) list c
    simp only [passes,Bool.and_eq_true] at applications ⊢
    rw [applications]
    constructor
    · rintro ⟨⟨⟨⟨⟨⟨a,b⟩,c,d⟩,e⟩,f⟩,g⟩,h⟩
      exact ⟨⟨⟨⟨⟨⟨⟨a,b⟩,c⟩,e⟩,f⟩,g⟩,h⟩,d⟩
    · rintro ⟨⟨⟨⟨⟨⟨⟨a,b⟩,c⟩,e⟩,f⟩,g⟩,h⟩,d⟩
      exact ⟨⟨⟨⟨⟨⟨a,b⟩,c,d⟩,e⟩,f⟩,g⟩,h⟩
  unfold clientToAddToList offer
  simp only
  rw [← and_assoc (b := ¬ _),← filters]
  split
  · rename_i accepted
    cases modal : t.findModal c with
    | none =>
      simp only [Option.some.injEq,Option.getD_none,accepted,true_and]
      exact ⟨fun same => ⟨same,.inl same.symm⟩,fun both => both.1⟩
    | some m =>
      simp only [Option.getD_some,accepted,true_and]
      split
      · rename_i itself
        subst itself
        simp only [Option.some.injEq]
        exact ⟨fun same => ⟨same,.inl same.symm⟩,fun both => both.1⟩
      · rename_i dialog
        split
        · rename_i absent
          simp only [Option.some.injEq]
          exact ⟨fun same => ⟨same,.inr (same ▸ absent)⟩,fun both => both.1⟩
        · rename_i listed
          refine iff_of_false (by simp) ?_
          rintro ⟨rfl,same | absent⟩
          · exact dialog same
          · exact listed absent
  · rename_i refused
    exact iff_of_false (by simp) (fun both => refused both.1)

theorem clientList_visit (l : Collected Client) (c : Client) :
    (t.visit l (some c)).clientList = l.clientList ++ (t.clientToAddToList l.clientList (some c)).toList := by
  unfold visit
  cases t.clientToAddToList l.clientList (some c) <;> simp

theorem mem_visit {l : Collected Client} {c e : Client} : e ∈ (t.visit l (some c)).clientList ↔
    e ∈ l.clientList ∨ (t.passes c = true ∧ ¬ (t.Single ∧ t.HasEntry l.clientList c) ∧ t.offer c = e) := by
  rw [clientList_visit,List.mem_append,Option.mem_toList,clientToAddToList_some_iff]
  constructor
  · rintro (old | ⟨passing,apart,same,-⟩)
    · exact .inl old
    · exact .inr ⟨passing,apart,same⟩
  · rintro (old | ⟨passing,apart,same⟩)
    · exact .inl old
    · by_cases listed : e ∈ l.clientList
      · exact .inl listed
      · refine .inr ⟨passing,apart,same,.inr ?_⟩
        unfold clientList
        split
        · exact List.not_mem_nil
        · exact listed

theorem represented_iff (l : List Client) (c : Client) :
    t.represented l c = true ↔ t.Single ∧ t.HasEntry (t.collect l).clientList c := by
  induction l generalizing c with
  | nil => simp [represented,collect,HasEntry]
  | cons w earlier ih =>
    have entry : t.HasEntry (t.collect (w :: earlier)).clientList c ↔ t.HasEntry (t.collect earlier).clientList c ∨
        (t.passes w = true ∧ ¬ (t.Single ∧ t.HasEntry (t.collect earlier).clientList w) ∧
          (t.attributes (t.offer w)).resourceClass = (t.attributes c).resourceClass) := by
      unfold HasEntry
      simp only [collect,mem_visit]
      constructor
      · rintro ⟨e,old | ⟨passing,apart,rfl⟩,same⟩
        · exact .inl ⟨e,old,same⟩
        · exact .inr ⟨passing,apart,same⟩
      · rintro (⟨e,old,same⟩ | ⟨passing,apart,same⟩)
        · exact ⟨e,.inl old,same⟩
        · exact ⟨_,.inr ⟨passing,apart,rfl⟩,same⟩
    have refused : (!t.represented earlier w) = true ↔ ¬ (t.Single ∧ t.HasEntry (t.collect earlier).clientList w) := by
      rw [← ih w,Bool.not_eq_true',Bool.not_eq_true]
    rw [represented,Bool.or_eq_true,Bool.and_eq_true,Bool.and_eq_true,Bool.and_eq_true,refused,ih,entry,decide_eq_true_iff,
      decide_eq_true_iff]
    constructor
    · rintro (⟨single,has⟩ | ⟨⟨⟨single,passing⟩,apart⟩,same⟩)
      · exact ⟨single,.inl has⟩
      · exact ⟨single,.inr ⟨passing,apart,same⟩⟩
    · rintro ⟨single,has | ⟨passing,apart,same⟩⟩
      · exact .inl ⟨single,has⟩
      · exact .inr ⟨⟨⟨single,passing⟩,apart⟩,same⟩

theorem mem_collect {l : List Client} {e : Client} : e ∈ (t.collect l).clientList ↔
    ∃ w earlier, (w :: earlier) <:+ l ∧ t.passes w = true ∧ ¬ t.represented earlier w = true ∧ t.offer w = e := by
  induction l with
  | nil => simp [collect]
  | cons c earlier ih =>
    rw [collect,mem_visit,← represented_iff,ih]
    constructor
    · rintro (⟨w,before,suffix,rest⟩ | now)
      · exact ⟨w,before,suffix.trans (List.suffix_cons ..),rest⟩
      · exact ⟨c,earlier,List.suffix_rfl,now⟩
    · rintro ⟨w,before,suffix,rest⟩
      rcases List.suffix_cons_iff.mp suffix with same | older
      · cases same; exact .inr rest
      · exact .inl ⟨w,before,older,rest⟩

theorem stickyClients_collect (l : List Client) : (t.collect l).stickyClients =
    (t.collect l).clientList.filter (fun c => (t.attributes c).firstInTabBox) := by
  induction l with
  | nil => rfl
  | cons c earlier ih =>
    rw [collect,visit]
    cases t.clientToAddToList (t.collect earlier).clientList (some c) with
    | none => exact ih
    | some add =>
      dsimp only
      rw [List.filter_append,ih]
      split
      · rename_i first; simp [first]
      · rename_i last; simp [last]

theorem nodup_collect (l : List Client) :
    ((t.collect l).clientList.filter (fun c => !(t.attributes c).firstInTabBox)).Nodup ↔
      ∀ c earlier e, (c :: earlier) <:+ l → t.clientToAddToList (t.collect earlier).clientList (some c) = some e →
        (t.attributes e).firstInTabBox = true ∨ e ∉ (t.collect earlier).clientList := by
  induction l with
  | nil => simp [collect]
  | cons c earlier ih =>
    have split : (∀ d before e, (d :: before) <:+ (c :: earlier) →
        t.clientToAddToList (t.collect before).clientList (some d) = some e →
        (t.attributes e).firstInTabBox = true ∨ e ∉ (t.collect before).clientList) ↔
        (∀ d before e, (d :: before) <:+ earlier →
          t.clientToAddToList (t.collect before).clientList (some d) = some e →
          (t.attributes e).firstInTabBox = true ∨ e ∉ (t.collect before).clientList) ∧
        ∀ e, t.clientToAddToList (t.collect earlier).clientList (some c) = some e →
          (t.attributes e).firstInTabBox = true ∨ e ∉ (t.collect earlier).clientList := by
      constructor
      · intro all
        exact ⟨fun d before e suffix => all d before e (suffix.trans (List.suffix_cons ..)),
          fun e => all c earlier e List.suffix_rfl⟩
      · rintro ⟨older,now⟩ d before e suffix
        rcases List.suffix_cons_iff.mp suffix with same | below
        · cases same; exact now e
        · exact older d before e below
    rw [split,← ih,collect,clientList_visit,List.filter_append]
    cases added : t.clientToAddToList (t.collect earlier).clientList (some c) with
    | none => simp
    | some e =>
      simp only [Option.toList_some,Option.some.injEq,forall_eq']
      by_cases first : (t.attributes e).firstInTabBox = true
      · simp [first]
      · have kept : [e].filter (fun c => !(t.attributes c).firstInTabBox) = [e] := by simp [first]
        rw [kept,List.nodup_append]
        simp only [first,Bool.false_eq_true,false_or,List.nodup_singleton,true_and,List.mem_singleton,forall_eq,
          List.mem_filter]
        refine and_congr_right (fun _ => ⟨fun apart member => ?_,fun absent a member same => ?_⟩)
        · exact apart e ⟨member,by simp [first]⟩ rfl
        · exact absent (same ▸ member.1)

theorem prependSticky_nodup (list stickyClients : List Client) :
    (prependSticky list stickyClients).Nodup ↔ (list.filter (fun c => c ∉ stickyClients)).Nodup := by
  induction stickyClients generalizing list with
  | nil => simp [prependSticky]
  | cons c rest ih =>
    have same : (removeAll list c).filter (fun d => d ∉ rest) = list.filter (fun d => d ∉ c :: rest) := by
      rw [removeAll,List.filter_filter]
      refine List.filter_congr (fun d _ => ?_)
      simp [Bool.and_comm]
    rw [prependSticky,List.foldl_cons,← prependSticky,ih,List.filter_cons,same]
    split
    · rw [List.nodup_cons]
      exact and_iff_right (fun member => by simp at member)
    · rfl

theorem mem_prependSticky {list stickyClients : List Client} {e : Client} :
    e ∈ prependSticky list stickyClients ↔ e ∈ list ∨ e ∈ stickyClients := by
  induction stickyClients generalizing list with
  | nil => simp [prependSticky]
  | cons c rest ih =>
    rw [prependSticky,List.foldl_cons,← prependSticky,ih,List.mem_cons,mem_removeAll,List.mem_cons]
    by_cases same : e = c
    · simp [same]
    · simp [same]

end

/-- The clients that are added once. Before its own turn, nothing stood for a client that stands for itself, unless it
    is sticky or the filter for one client per application sees it; and when the list is not looked at, no dialog stands
    for two. The desktop window that is shown is not in the list already. -/
structure NoRepeats (t : TabBox Client) (start : Option Client) : Prop where
  offers : ∀ c earlier, (c :: earlier) <:+ (t.visited start).reverse → ∀ w ∈ earlier, t.passes w → t.passes c →
    t.offer w = t.offer c → (t.attributes (t.offer c)).firstInTabBox ∨
      (t.tabBoxMode = .ClientTabBox ∧ (t.offer c ≠ c ∨ t.clientApplicationsMode = .OneWindowPerApplication))
  desktop : t.showDesktopMode = .ShowDesktopClient → ∀ k, t.desktopClient = some k →
    ∀ w earlier, (w :: earlier) <:+ (t.visited start).reverse → t.passes w → t.offer w = k → t.represented earlier w

/-- The call makes a list without duplicates, and has every client of the chain
    that is accepted for itself when it is visited. -/
def ListsOnce (t : TabBox Client) (start : Option Client) : Prop :=
  ∃ list, t.CreatesClientList start list ∧ list.Nodup ∧ ∀ c ∈ t.mostRecentlyUsed, ∃ earlier,
    (c :: earlier) <:+ (t.visited start).reverse ∧
    (t.clientToAddToList (t.collect earlier).clientList (some c) = some c → c ∈ list)

section
variable {t : TabBox Client} {start : Option Client}

theorem entry_mem (start : Option Client) (nonempty : t.mostRecentlyUsed ≠ []) : ∃ c, t.entry start = some c ∧ c ∈ t.mostRecentlyUsed := by
  unfold entry
  split
  · rename_i inside
    cases start with
    | none => cases inside
    | some c => exact ⟨c,rfl,of_decide_eq_true inside⟩
  · cases chain : t.mostRecentlyUsed with
    | nil => exact absurd chain nonempty
    | cons a l => exact ⟨a,by simp [firstMostRecentlyUsed,chain],List.mem_cons_self⟩

theorem mem_visited (nodup : t.mostRecentlyUsed.Nodup) (start : Option Client) {c : Client} (member : c ∈ t.mostRecentlyUsed) :
    ∃ earlier, (c :: earlier) <:+ (t.visited start).reverse := by
  obtain ⟨entered,same,inside⟩ := entry_mem start (List.ne_nil_of_mem member)
  have there : c ∈ (t.visited start).reverse := by
    rw [visited,same,List.mem_reverse]
    exact (ring_perm nodup inside).mem_iff.mpr member
  obtain ⟨later,earlier,split⟩ := List.append_of_mem there
  exact ⟨earlier,later,split.symm⟩

theorem mem_collect_of_accepted {l earlier : List Client} {c : Client} (suffix : (c :: earlier) <:+ l)
    (accepted : t.clientToAddToList (t.collect earlier).clientList (some c) = some c) : c ∈ (t.collect l).clientList := by
  obtain ⟨passing,apart,same,-⟩ := clientToAddToList_some_iff.mp accepted
  rw [← represented_iff] at apart
  exact mem_collect.mpr ⟨c,earlier,suffix,passing,apart,same⟩

theorem sticky_nodup_iff (l : List Client) :
    (prependSticky (t.collect l).clientList (t.collect l).stickyClients).Nodup ↔
      ∀ c earlier e, (c :: earlier) <:+ l → t.clientToAddToList (t.collect earlier).clientList (some c) = some e →
        (t.attributes e).firstInTabBox = true ∨ e ∉ (t.collect earlier).clientList := by
  rw [prependSticky_nodup,← nodup_collect]
  have same : (t.collect l).clientList.filter (fun c => c ∉ (t.collect l).stickyClients) =
      (t.collect l).clientList.filter (fun c => !(t.attributes c).firstInTabBox) := by
    refine List.filter_congr (fun c member => ?_)
    simp [stickyClients_collect,member]
  rw [same]

theorem mem_sticky {l : List Client} {e : Client} :
    e ∈ prependSticky (t.collect l).clientList (t.collect l).stickyClients ↔ e ∈ (t.collect l).clientList := by
  rw [mem_prependSticky,stickyClients_collect]
  exact or_iff_left_of_imp (fun sticky => (List.mem_filter.mp sticky).1)

theorem added_twice_iff {l : List Client} : (∀ c earlier e, (c :: earlier) <:+ l →
      t.clientToAddToList (t.collect earlier).clientList (some c) = some e →
        (t.attributes e).firstInTabBox = true ∨ e ∉ (t.collect earlier).clientList) ↔
    ∀ c earlier, (c :: earlier) <:+ l → ∀ w ∈ earlier, t.passes w → t.passes c →
      t.offer w = t.offer c → (t.attributes (t.offer c)).firstInTabBox ∨
        (t.tabBoxMode = .ClientTabBox ∧ (t.offer c ≠ c ∨ t.clientApplicationsMode = .OneWindowPerApplication)) := by
  constructor
  · intro once c earlier suffix w member passing passing' same
    by_contra neither
    rw [not_or] at neither
    obtain ⟨last,unseen⟩ := neither
    have notSingle : ¬ t.Single := fun single => unseen ⟨single.2,.inr single.1⟩
    have added : t.clientToAddToList (t.collect earlier).clientList (some c) = some (t.offer c) := by
      refine clientToAddToList_some_iff.mpr ⟨passing',fun both => notSingle both.1,rfl,?_⟩
      by_cases itself : t.offer c = c
      · exact .inl itself
      · refine .inr ?_
        have other : t.tabBoxMode ≠ .ClientTabBox := fun mode => unseen ⟨mode,.inl itself⟩
        rw [clientList,if_pos other]
        exact List.not_mem_nil
    have listed : t.offer c ∈ (t.collect earlier).clientList := by
      obtain ⟨later,before,split⟩ := List.append_of_mem member
      refine mem_collect.mpr ⟨w,before,⟨later,split.symm⟩,passing,fun represented => ?_,same⟩
      exact notSingle ((represented_iff _ _).mp represented).1
    exact (once c earlier _ suffix added).elim last (fun absent => absent listed)
  · intro offers c earlier e suffix added
    by_contra neither
    rw [not_or,not_not] at neither
    obtain ⟨last,listed⟩ := neither
    obtain ⟨passing,apart,rfl,fresh⟩ := clientToAddToList_some_iff.mp added
    obtain ⟨w,before,older,passing',-,same⟩ := mem_collect.mp listed
    rcases offers c earlier suffix w (older.subset List.mem_cons_self) passing' passing same with first | ⟨mode,seen⟩
    · exact last first
    · have looked : t.clientList (t.collect earlier).clientList = (t.collect earlier).clientList := by
        rw [clientList,if_neg (not_not.mpr mode)]
      rw [looked] at fresh
      by_cases itself : t.offer c = c
      · -- The client is an entry of its own application.
        rcases seen with dialog | single
        · exact dialog itself
        · exact apart ⟨⟨single,mode⟩,_,listed,by rw [itself]⟩
      · exact fresh.elim itself (fun absent => absent listed)

theorem createsClientList_iff (nodup : t.mostRecentlyUsed.Nodup) {list : List Client} :
    t.CreatesClientList start list ↔ list = t.finishList (t.collect (t.visited start).reverse) := by
  have ends := createClientList_ends nodup start
  constructor
  · rintro ⟨l,ended,same⟩
    rw [same,ends_unique ended ends]
  · exact fun same => ⟨_,ends,same⟩

/-- `createClientList` ends, and lists every accepted client and none twice,
    exactly when no client is offered again. -/
theorem listsOnce_iff (nodup : t.mostRecentlyUsed.Nodup) : t.ListsOnce start ↔ t.NoRepeats start := by
  constructor
  · rintro ⟨list,created,once,-⟩
    rw [(createsClientList_iff nodup).mp created] at once
    have moved : (prependSticky (t.collect (t.visited start).reverse).clientList
        (t.collect (t.visited start).reverse).stickyClients).Nodup := by
      unfold finishList at once
      dsimp only at once
      split at once
      · split at once
        · exact (List.nodup_append.mp once).1
        · exact once
      · exact once
    refine ⟨added_twice_iff.mp ((sticky_nodup_iff _).mp moved),fun shown k desktop w earlier suffix passing same => ?_⟩
    by_contra fresh
    have listed := mem_sticky.mpr (mem_collect.mpr ⟨w,earlier,suffix,passing,fresh,same⟩)
    simp only [finishList,shown,desktop,true_or,↓reduceIte] at once
    exact (List.nodup_append.mp once).2.2 k listed k (List.mem_singleton_self k) rfl
  · rintro ⟨offers,desktop⟩
    have moved := (sticky_nodup_iff _).mpr (added_twice_iff.mpr offers)
    refine ⟨_,(createsClientList_iff nodup).mpr rfl,?_,fun c member => ?_⟩
    · unfold finishList
      dsimp only
      split
      · rename_i appends
        split
        · rename_i k window
          rw [List.nodup_append]
          refine ⟨moved,List.nodup_singleton k,fun e listed d single same => ?_⟩
          rw [List.mem_singleton.mp single] at same
          subst same
          rcases appends with shown | empty
          · obtain ⟨w,earlier,suffix,passing,fresh,offered⟩ := mem_collect.mp (mem_sticky.mp listed)
            exact fresh (desktop shown e window w earlier suffix passing offered)
          · rw [empty] at listed
            cases listed
        · exact moved
      · exact moved
    · obtain ⟨earlier,suffix⟩ := mem_visited nodup start member
      refine ⟨earlier,suffix,fun accepted => ?_⟩
      have listed := mem_sticky.mpr (mem_collect_of_accepted suffix accepted)
      unfold finishList
      dsimp only
      split
      · split
        · exact List.mem_append_left _ listed
        · exact listed
      · exact listed

end

end TabBox

/-- A normal window of the current desktop. -/
private def window : Attributes := ⟨true,true,true,false,true,false,false,"app"⟩

/-- The default configuration, with the clients `1` and `2`, where `2` is the
    modal dialog of `1` when `dialog` is set, and this focus chain. -/
private def switcher (dialog : Bool) (chain : List Nat) : TabBox Nat :=
  ⟨.OnlyCurrentDesktopClients,.OnlyCurrentActivityClients,.AllWindowsAllApplications,.IgnoreMinimizedStatus,
    .DoNotShowDesktopClient,.IgnoreMultiScreen,.ClientTabBox,fun _ => window,
    fun c => if dialog ∧ c = 1 then some 2 else none,some 1,none,chain⟩

theorem listsOnce_iff_two_windows :
    (switcher false [2,1]).ListsOnce (some 1) ↔ (switcher false [2,1]).NoRepeats (some 1) :=
  TabBox.listsOnce_iff (by decide)

/-- A modal dialog whose main window was used more recently is listed twice. -/
theorem modal_listed_twice : (switcher true [2,1]).CreatesClientList (some 1) [2,2] ∧
    ¬ (switcher true [2,1]).ListsOnce (some 1) := by
  have nodup : (switcher true [2,1]).mostRecentlyUsed.Nodup := by decide
  have twice : (switcher true [2,1]).finishList ((switcher true [2,1]).collect
      ((switcher true [2,1]).visited (some 1)).reverse) = [2,2] := by decide
  refine ⟨(TabBox.createsClientList_iff nodup).mpr twice.symm,?_⟩
  rintro ⟨list,created,once,-⟩
  rw [(TabBox.createsClientList_iff nodup).mp created,twice] at once
  exact absurd once (by decide)

end KdeWorkspace.TabBoxClients
